import MqSentinel.RegexSearch

/-!
# One pass of a scanner

What a pass finds depends on where matches start.  For a scanner that does not look at
what is in front of it, `Starts` says of a text whether a match starts there; a part of a
text is clear when no match starts inside it, and the pass goes through it
(`findIterFrom_clear`).  Where a match starts the pass reports the first one and goes on
behind it (`findIterFrom_hit`).
-/

namespace MqSentinel
namespace Regex

universe u v

variable {κ : Type v} {α : Type u}

section Heads

/-- The first of the results of one of the choices. -/
theorem exists_of_head?_flatMap
    {β γ : Type*} {xs : List β} {f : β → List γ} {y : γ}
    (h : (xs.flatMap f).head? = some y) :
    ∃ x ∈ xs, (f x).head? = some y := by
  induction xs with
  | nil =>
      cases h
  | cons x xs ih =>
      rw [List.flatMap_cons, List.head?_append, Option.or_eq_some_iff] at h
      rcases h with h | ⟨-, h⟩
      · exact ⟨x, by simp, h⟩
      · obtain ⟨x', hx', h⟩ := ih h
        exact ⟨x', List.mem_cons_of_mem _ hx', h⟩

/-- The first match of a sequence is made of a match and of the first one behind it. -/
theorem Gx.exists_of_first_seq
    {g h : Gx κ α} {pre post : List α} {m : Match κ α}
    (hm : (Gx.seq g h).first pre post = some m) :
    ∃ x ∈ g.captures pre post, ∃ y,
      h.first (x.word.reverse ++ pre) (post.drop x.word.length) = some y ∧ m = x.append y := by
  obtain ⟨x, hx, hfirst⟩ := exists_of_head?_flatMap hm
  rw [List.head?_map, Option.map_eq_some_iff] at hfirst
  obtain ⟨y, hy, rfl⟩ := hfirst
  exact ⟨x, hx, y, hy, rfl⟩

end Heads

namespace Gx

variable {g h : Gx κ α} {r : Rx α} {pre post : List α} {m : Match κ α}

theorem mem_captures_plain_iff :
    m ∈ captures (plain r) pre post ↔
      ∃ w v, post = w ++ v ∧ Rx.Lang r pre w v ∧ m = ⟨w, []⟩ := by
  rw [captures, List.mem_map]
  constructor
  · rintro ⟨n, hn, rfl⟩
    obtain ⟨w, v, rfl, rfl, hw⟩ := (Rx.mem_ends_iff r pre post n).mp hn
    exact ⟨w, v, rfl, hw, by rw [List.take_left]⟩
  · rintro ⟨w, v, rfl, hw, rfl⟩
    exact ⟨w.length, (Rx.mem_ends_iff r pre _ _).mpr ⟨w, v, rfl, rfl, hw⟩,
      by rw [List.take_left]⟩

theorem mem_captures_group_iff
    {k : κ} :
    m ∈ captures (group k r) pre post ↔
      ∃ w v, post = w ++ v ∧ Rx.Lang r pre w v ∧ m = ⟨w, [(k, w)]⟩ := by
  rw [captures, List.mem_map]
  constructor
  · rintro ⟨n, hn, rfl⟩
    obtain ⟨w, v, rfl, rfl, hw⟩ := (Rx.mem_ends_iff r pre post n).mp hn
    exact ⟨w, v, rfl, hw, by rw [List.take_left]⟩
  · rintro ⟨w, v, rfl, hw, rfl⟩
    exact ⟨w.length, (Rx.mem_ends_iff r pre _ _).mpr ⟨w, v, rfl, rfl, hw⟩,
      by rw [List.take_left]⟩

theorem mem_captures_seq_iff :
    m ∈ captures (seq g h) pre post ↔
      ∃ x ∈ captures g pre post,
        ∃ y ∈ captures h (x.word.reverse ++ pre) (post.drop x.word.length), m = x.append y := by
  rw [captures, List.mem_flatMap]
  refine exists_congr fun x => and_congr_right fun _ => ?_
  rw [List.mem_map]
  exact exists_congr fun y => and_congr_right fun _ => eq_comm

end Gx

namespace Scanner

section Parts

variable {s t : Scanner κ α} {pre post : List α} {m : Match κ α}

theorem exists_of_andThen
    (hm : (s.andThen t pre post).head? = some m) :
    ∃ x ∈ s pre post, ∃ y,
      (t (x.word.reverse ++ pre) (post.drop x.word.length)).head? = some y ∧
        m = x.append y := by
  obtain ⟨x, hx, hfirst⟩ := exists_of_head?_flatMap hm
  rw [List.head?_map, Option.map_eq_some_iff] at hfirst
  obtain ⟨y, hy, rfl⟩ := hfirst
  exact ⟨x, hx, y, hy, rfl⟩

/-- The first match of the first scanner, when the other one goes on behind it. -/
theorem head?_andThen
    {x y : Match κ α} (hx : (s pre post).head? = some x)
    (hy : (t (x.word.reverse ++ pre) (post.drop x.word.length)).head? = some y) :
    (s.andThen t pre post).head? = some (x.append y) := by
  obtain ⟨xs, hxs⟩ := List.head?_eq_some_iff.mp hx
  rw [andThen, hxs, List.flatMap_cons, List.head?_append, List.head?_map, hy]
  rfl

/-- A lazily repeated class stops where the scanner behind it goes on. -/
theorem exists_of_lazily
    {p : α → Bool} (hm : (lazily p t pre post).head? = some m) :
    ∃ z rest, post = z ++ rest ∧ (∀ c ∈ z, p c = true) ∧ ∃ y,
      (t (z.reverse ++ pre) rest).head? = some y ∧ m = ⟨z ++ y.word, y.groups⟩ := by
  induction post generalizing pre m with
  | nil =>
      exact ⟨[], [], rfl, by simp, m, hm, rfl⟩
  | cons c cs ih =>
      rw [lazily, List.head?_append, Option.or_eq_some_iff] at hm
      rcases hm with hm | ⟨-, hm⟩
      · exact ⟨[], c :: cs, rfl, by simp, m, hm, rfl⟩
      · split_ifs at hm with hc
        · rw [List.head?_map, Option.map_eq_some_iff] at hm
          obtain ⟨m', hm', rfl⟩ := hm
          obtain ⟨z, rest, rfl, hz, y, hy, rfl⟩ := ih hm'
          refine ⟨c :: z, rest, rfl, List.forall_mem_cons.mpr ⟨hc, hz⟩, y, ?_, rfl⟩
          rw [List.reverse_cons, List.append_assoc]
          exact hy
        · cases hm

/-- The scanner behind a lazily repeated class starts at the first place where it can. -/
theorem head?_lazily
    {p : α → Bool} {z rest : List α} (hz : ∀ c ∈ z, p c = true)
    (hnone : ∀ a b, z = a ++ b → b ≠ [] → t (a.reverse ++ pre) (b ++ rest) = [])
    {y : Match κ α} (hy : (t (z.reverse ++ pre) rest).head? = some y) :
    (lazily p t pre (z ++ rest)).head? = some ⟨z ++ y.word, y.groups⟩ := by
  induction z generalizing pre with
  | nil =>
      cases rest with
      | nil =>
          exact hy
      | cons c cs =>
          rw [List.nil_append, lazily, List.head?_append]
          rw [List.reverse_nil, List.nil_append] at hy
          rw [hy]
          rfl
  | cons c z ih =>
      obtain ⟨hc, hz⟩ := List.forall_mem_cons.mp hz
      have hfirst := hnone [] (c :: z) rfl (by simp)
      have hrest : ∀ a b, z = a ++ b → b ≠ [] →
          t (a.reverse ++ c :: pre) (b ++ rest) = [] := by
        rintro a b rfl hb
        have hinside := hnone (c :: a) b rfl hb
        rwa [List.reverse_cons, List.append_assoc] at hinside
      rw [List.reverse_cons, List.append_assoc] at hy
      rw [List.reverse_nil, List.nil_append] at hfirst
      rw [List.cons_append, lazily, ← List.cons_append, hfirst, List.nil_append, if_pos hc,
        List.head?_map, ih hz hrest hy]
      rfl

theorem lazily_ne_nil
    {p : α → Bool} {z rest : List α} (hz : ∀ c ∈ z, p c = true)
    (ht : t (z.reverse ++ pre) rest ≠ []) :
    lazily p t pre (z ++ rest) ≠ [] := by
  induction z generalizing pre with
  | nil =>
      cases rest with
      | nil =>
          exact ht
      | cons c cs =>
          rw [List.nil_append, lazily]
          exact List.append_ne_nil_of_left_ne_nil ht _
  | cons c z ih =>
      obtain ⟨hc, hz⟩ := List.forall_mem_cons.mp hz
      rw [List.reverse_cons, List.append_assoc] at ht
      rw [List.cons_append, lazily, if_pos hc]
      refine List.append_ne_nil_of_right_ne_nil _ ?_
      rw [ne_eq, List.map_eq_nil_iff]
      exact ih hz ht

end Parts

section Pass

variable {s : Scanner κ α}

theorem findIterFrom_skip
    (w rest pre : List α) :
    findIterFrom s pre w.length (w ++ rest) = findIterFrom s (w.reverse ++ pre) 0 rest := by
  induction w generalizing pre with
  | nil =>
      rfl
  | cons c w ih =>
      rw [List.length_cons, List.cons_append, findIterFrom, ih]
      simp

/-- A match is reported, and the pass goes on behind it. -/
theorem findIterFrom_hit
    {pre rest : List α} {m : Match κ α} (hne : m.word ≠ [])
    (hm : (s pre (m.word ++ rest)).head? = some m) :
    findIterFrom s pre 0 (m.word ++ rest) =
      m :: findIterFrom s (m.word.reverse ++ pre) 0 rest := by
  obtain ⟨w, groups⟩ := m
  cases w with
  | nil =>
      exact absurd rfl hne
  | cons c w =>
      rw [List.cons_append] at hm ⊢
      rw [findIterFrom, hm]
      simp only [List.reverse_cons, List.append_assoc, List.singleton_append]
      rw [findIterFrom_skip]

variable (Starts : List α → Prop)

/-- No match starts inside a text when this is behind it. -/
def Clear : List α → List α → Prop
  | [], _ => True
  | c :: q, rest => ¬ Starts (c :: (q ++ rest)) ∧ Clear q rest

variable {Starts}

theorem clear_append_iff
    {a b rest : List α} :
    Clear Starts (a ++ b) rest ↔ Clear Starts a (b ++ rest) ∧ Clear Starts b rest := by
  induction a with
  | nil =>
      exact ⟨fun h => ⟨trivial, h⟩, And.right⟩
  | cons c a ih =>
      rw [List.cons_append, Clear, Clear, ih, List.append_assoc, and_assoc]

theorem not_starts_of_clear
    {q rest : List α} (hq : Clear Starts q rest) (hne : q ≠ []) :
    ¬ Starts (q ++ rest) := by
  cases q with
  | nil =>
      exact absurd rfl hne
  | cons c q =>
      exact hq.1

/-- The pass goes through a clear text. -/
theorem findIterFrom_clear
    (hs : ∀ pre post, s pre post = [] ↔ ¬ Starts post)
    {q rest : List α} (hq : Clear Starts q rest) (pre : List α) :
    findIterFrom s pre 0 (q ++ rest) = findIterFrom s (q.reverse ++ pre) 0 rest := by
  induction q generalizing pre with
  | nil =>
      rfl
  | cons c q ih =>
      rw [List.cons_append, findIterFrom, (hs _ _).mpr hq.1, List.head?_nil, ih hq.2]
      simp

/-- The pass finds nothing exactly in a clear text. -/
theorem findIterFrom_eq_nil_iff
    (hs : ∀ pre post, s pre post = [] ↔ ¬ Starts post)
    (hne : ∀ pre post m, (s pre post).head? = some m → m.word ≠ []) (q pre : List α) :
    findIterFrom s pre 0 q = [] ↔ Clear Starts q [] := by
  induction q generalizing pre with
  | nil =>
      exact ⟨fun _ => trivial, fun _ => rfl⟩
  | cons c q ih =>
      rw [findIterFrom, Clear, List.append_nil]
      cases hfirst : (s pre (c :: q)).head? with
      | none =>
          have hclear := (hs _ _).mp (List.head?_eq_none_iff.mp hfirst)
          exact (ih _).trans ⟨fun h => ⟨hclear, h⟩, And.right⟩
      | some m =>
          have hstart : s pre (c :: q) ≠ [] := by
            intro hnil
            rw [hnil] at hfirst
            cases hfirst
          obtain ⟨w, groups⟩ := m
          cases w with
          | nil =>
              exact absurd rfl (hne _ _ _ hfirst)
          | cons d w =>
              exact iff_of_false (List.cons_ne_nil _ _)
                fun h => hstart ((hs _ _).mpr h.1)

/-- In a text that is not clear there is a first place where a match starts. -/
theorem exists_start_of_not_clear
    {q rest : List α} (hq : ¬ Clear Starts q rest) :
    ∃ a b, q = a ++ b ∧ b ≠ [] ∧ Clear Starts a (b ++ rest) ∧ Starts (b ++ rest) := by
  induction q with
  | nil =>
      exact absurd trivial hq
  | cons c q ih =>
      by_cases hc : Starts (c :: (q ++ rest))
      · exact ⟨[], c :: q, rfl, by simp, trivial, hc⟩
      · obtain ⟨a, b, rfl, hb, ha, hstart⟩ := ih fun hclear => hq ⟨hc, hclear⟩
        exact ⟨c :: a, b, rfl, hb, ⟨by simpa using hc, ha⟩, hstart⟩

end Pass

end Scanner

end Regex
end MqSentinel
