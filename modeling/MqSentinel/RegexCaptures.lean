import MqSentinel.RegexEngine

/-!
# Named groups

`Gx` is a regular expression some parts of which are named groups.  `captures` lists
the matches that start at a position, in the order of the backtracking matcher, each
with the words of its groups.  Forgetting the groups gives the expression of the engine
and its list of lengths (`length_captures`), and a captured word is matched by the
expression inside its group (`lang_of_mem_groups`).
-/

namespace MqSentinel
namespace Regex

universe u v

/-- An expression with named groups. -/
inductive Gx (κ : Type v) (α : Type u) where
  | plain (r : Rx α)
  | group (k : κ) (r : Rx α)
  | seq (g h : Gx κ α)
  | opt (g : Gx κ α)

/-- A match: its word, and the words of the groups that took part. -/
structure Match (κ : Type v) (α : Type u) where
  word : List α
  groups : List (κ × List α)
deriving DecidableEq

variable {κ : Type v} {α : Type u}

namespace Match

/-- `m.group(k)` -/
def group [DecidableEq κ] (m : Match κ α) (k : κ) : Option (List α) :=
  m.groups.lookup k

/-- One match behind another. -/
def append (m m' : Match κ α) : Match κ α :=
  ⟨m.word ++ m'.word, m.groups ++ m'.groups⟩

end Match

namespace Gx

/-- The expression without its groups. -/
def erase : Gx κ α → Rx α
  | plain r => r
  | group _ r => r
  | seq g h => Rx.seq g.erase h.erase
  | opt g => Rx.opt g.erase

/-- The groups with the expressions inside them. -/
def named : Gx κ α → List (κ × Rx α)
  | plain _ => []
  | group k r => [(k, r)]
  | seq g h => g.named ++ h.named
  | opt g => g.named

/-- One expression after another. -/
def seqs : List (Gx κ α) → Gx κ α
  | [] => plain Rx.eps
  | g :: gs => seq g (seqs gs)

/-- The matches that start here, in the matcher's order. -/
def captures : Gx κ α → List α → List α → List (Match κ α)
  | plain r, pre, post => (Rx.ends r pre post).map fun n => ⟨post.take n, []⟩
  | group k r, pre, post =>
      (Rx.ends r pre post).map fun n => ⟨post.take n, [(k, post.take n)]⟩
  | seq g h, pre, post =>
      (captures g pre post).flatMap fun m =>
        (captures h (m.word.reverse ++ pre) (post.drop m.word.length)).map m.append
  | opt g, pre, post => captures g pre post ++ [⟨[], []⟩]

/-- The match reported at this position. -/
def first (g : Gx κ α) (pre post : List α) : Option (Match κ α) :=
  (captures g pre post).head?

/-- One pass: `skip` counts the characters still covered by the last match. -/
def findIterFrom (g : Gx κ α) : List α → Nat → List α → List (Match κ α)
  | _, _, [] => []
  | pre, skip + 1, c :: cs => findIterFrom g (c :: pre) skip cs
  | pre, 0, c :: cs =>
      match first g pre (c :: cs) with
      | some ⟨d :: w, groups⟩ => ⟨d :: w, groups⟩ :: findIterFrom g (c :: pre) w.length cs
      | _ => findIterFrom g (c :: pre) 0 cs

/-- The nonempty matches of a text, from left to right. -/
def findIter (g : Gx κ α) (text : List α) : List (Match κ α) :=
  findIterFrom g [] 0 text

/-- The lengths that the matcher lists are lengths of prefixes. -/
theorem le_length_of_mem_ends
    {r : Rx α} {pre post : List α} {n : Nat}
    (h : n ∈ Rx.ends r pre post) :
    n ≤ post.length := by
  obtain ⟨w, v, rfl, rfl, _⟩ := (Rx.mem_ends_iff r pre post n).mp h
  simp

/-- Words of listed lengths have these lengths. -/
theorem map_length_take_ends
    (r : Rx α) (pre post : List α) :
    ((Rx.ends r pre post).map fun n => (post.take n).length) = Rx.ends r pre post := by
  have hlength : ∀ n ∈ Rx.ends r pre post, (post.take n).length = n := by
    intro n hn
    rw [List.length_take, Nat.min_eq_left (le_length_of_mem_ends hn)]
  rw [List.map_congr_left hlength, List.map_id']

/-- A captured word is where the text goes on. -/
theorem take_of_mem_captures
    {g : Gx κ α} :
    ∀ {pre post : List α} {m : Match κ α},
      m ∈ captures g pre post → post.take m.word.length = m.word := by
  induction g with
  | plain r =>
      intro pre post m hm
      obtain ⟨n, hn, rfl⟩ := List.mem_map.mp hm
      rw [List.length_take, Nat.min_eq_left (le_length_of_mem_ends hn)]
  | group k r =>
      intro pre post m hm
      obtain ⟨n, hn, rfl⟩ := List.mem_map.mp hm
      rw [List.length_take, Nat.min_eq_left (le_length_of_mem_ends hn)]
  | seq g h ihg ihh =>
      intro pre post m hm
      obtain ⟨x, hx, hm⟩ := List.mem_flatMap.mp hm
      obtain ⟨y, hy, rfl⟩ := List.mem_map.mp hm
      have hfront := ihg hx
      have hback := ihh hy
      simp only [Match.append, List.length_append, List.take_add]
      rw [hfront, hback]
  | opt g ih =>
      intro pre post m hm
      rcases List.mem_append.mp hm with hm | hm
      · exact ih hm
      · obtain rfl := List.mem_singleton.mp hm
        rfl

/-- **The captures are the engine's matches, in the engine's order.** -/
theorem length_captures
    (g : Gx κ α) :
    ∀ pre post : List α,
      ((captures g pre post).map fun m => m.word.length) = Rx.ends g.erase pre post := by
  induction g with
  | plain r =>
      intro pre post
      rw [captures, List.map_map]
      exact map_length_take_ends r pre post
  | group k r =>
      intro pre post
      rw [captures, List.map_map]
      exact map_length_take_ends r pre post
  | seq g h ihg ihh =>
      intro pre post
      simp only [captures, erase, Rx.ends, List.map_flatMap, List.map_map]
      rw [← ihg, List.flatMap_map]
      apply List.flatMap_congr
      intro m hm
      rw [take_of_mem_captures hm, ← ihh, List.map_map]
      apply List.map_congr_left
      intro m' _
      simp [Match.append]
  | opt g ih =>
      intro pre post
      simp [captures, erase, Rx.opt, Rx.ends, ih]

/-- The match reported here has the length that the engine reports. -/
theorem map_length_first
    (g : Gx κ α) (pre post : List α) :
    ((first g pre post).map fun m => m.word.length) = Rx.first g.erase pre post := by
  rw [first, Rx.first, ← length_captures, List.head?_map]

theorem take_of_first
    {g : Gx κ α} {pre post : List α} {m : Match κ α}
    (h : first g pre post = some m) :
    post.take m.word.length = m.word := by
  exact take_of_mem_captures (List.mem_of_mem_head? (by simpa [first] using h))

/-- A captured word is matched by the expression inside its group. -/
theorem lang_of_mem_groups
    {g : Gx κ α} {k : κ} {w : List α} :
    ∀ {pre post : List α} {m : Match κ α},
      m ∈ captures g pre post → (k, w) ∈ m.groups →
        ∃ r, (k, r) ∈ g.named ∧ ∃ a b, Rx.Lang r a w b := by
  induction g with
  | plain r =>
      intro pre post m hm hw
      obtain ⟨n, _, rfl⟩ := List.mem_map.mp hm
      cases hw
  | group k' r =>
      intro pre post m hm hw
      obtain ⟨n, hn, rfl⟩ := List.mem_map.mp hm
      obtain ⟨rfl, rfl⟩ := Prod.mk.inj (List.mem_singleton.mp hw)
      obtain ⟨x, b, rfl, rfl, hx⟩ := (Rx.mem_ends_iff r pre _ n).mp hn
      refine ⟨r, List.mem_singleton.mpr rfl, pre, b, ?_⟩
      rwa [List.take_left]
  | seq g h ihg ihh =>
      intro pre post m hm hw
      obtain ⟨x, hx, hm⟩ := List.mem_flatMap.mp hm
      obtain ⟨y, hy, rfl⟩ := List.mem_map.mp hm
      rcases List.mem_append.mp hw with hw | hw
      · obtain ⟨r, hr, hlang⟩ := ihg hx hw
        exact ⟨r, List.mem_append_left _ hr, hlang⟩
      · obtain ⟨r, hr, hlang⟩ := ihh hy hw
        exact ⟨r, List.mem_append_right _ hr, hlang⟩
  | opt g ih =>
      intro pre post m hm hw
      rcases List.mem_append.mp hm with hm | hm
      · exact ih hm hw
      · obtain rfl := List.mem_singleton.mp hm
        cases hw

/-- What `findIter` yields is captured somewhere in the text. -/
theorem mem_captures_of_mem_findIterFrom
    {g : Gx κ α} {m : Match κ α} (post : List α) :
    ∀ (pre : List α) (skip : Nat),
      m ∈ findIterFrom g pre skip post → ∃ a b, m ∈ captures g a b ∧ b <:+ post := by
  induction post with
  | nil =>
      intro pre skip hm
      cases skip <;> cases hm
  | cons c cs ih =>
      intro pre skip hm
      have hgrow :
          (∃ a b, m ∈ captures g a b ∧ b <:+ cs) → ∃ a b, m ∈ captures g a b ∧ b <:+ c :: cs := by
        rintro ⟨a, b, hcapture, hb⟩
        exact ⟨a, b, hcapture, hb.trans (List.suffix_cons c cs)⟩
      cases skip with
      | succ skip =>
          exact hgrow (ih (c :: pre) skip hm)
      | zero =>
          rw [findIterFrom] at hm
          split at hm
          · rename_i hfirst
            rcases List.mem_cons.mp hm with rfl | hm
            · exact ⟨pre, c :: cs, List.mem_of_mem_head? (by simpa [first] using hfirst),
                List.suffix_rfl⟩
            · exact hgrow (ih _ _ hm)
          · exact hgrow (ih _ _ hm)

theorem lang_of_mem_findIter
    {g : Gx κ α} {text : List α} {m : Match κ α} {k : κ} {w : List α}
    (hm : m ∈ findIter g text) (hw : (k, w) ∈ m.groups) :
    ∃ r, (k, r) ∈ g.named ∧ ∃ a b, Rx.Lang r a w b := by
  obtain ⟨a, b, hm, _⟩ := mem_captures_of_mem_findIterFrom text [] 0 hm
  exact lang_of_mem_groups hm hw

end Gx

end Regex
end MqSentinel
