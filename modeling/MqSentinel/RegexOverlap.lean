import MqSentinel.RegexPositions

/-!
# Matches that keep clear of each other

`Clear R w`: wherever a text has `R` and has `w`, the two share no position.  Such a
word of a substituted text is a run of literals of the pass when `R` is what the pass
puts in (`exists_lits_of_clear`).

`Rx.Blind y r`: the zero-width tests of `r` do not tell whether `y` follows.  Then the
matches in front of `y` are the matches of the text that ends there (`ends_append`), and
so are the tokens (`tokensFrom_of_scan`).
-/

namespace MqSentinel
namespace Regex

universe u

variable {α : Type u}

open Tok

section Clear

/-- In no text does `w` share a position with `R`. -/
def Clear (R w : List α) : Prop :=
  ∀ x y a b, x ++ R ++ y = a ++ w ++ b →
    a.length + w.length ≤ x.length ∨ x.length + R.length ≤ a.length

theorem clear_singleton
    {R : List α} {c : α} (hc : c ∉ R) :
    Clear R [c] := by
  intro x y a b h
  by_contra hnot
  rw [not_or, List.length_singleton] at hnot
  have hright : (a ++ [c] ++ b)[a.length]? = some c := by
    simp
  have hleft : (x ++ R ++ y)[a.length]? = R[a.length - x.length]? := by
    rw [List.append_assoc, List.getElem?_append_right (by omega),
      List.getElem?_append_left (by omega)]
  rw [← h, hleft] at hright
  exact hc (List.mem_of_getElem? hright)

/-- A clear word may start earlier, with a character that does not end `R`. -/
theorem Clear.cons
    {R w : List α} {c e : α} (h : Clear R w) (hR : R.getLast? = some e) (hc : c ≠ e) :
    Clear R (c :: w) := by
  intro x y a b htext
  have hfar := h x y (a ++ [c]) b (by simpa using htext)
  simp only [List.length_append, List.length_cons, List.length_nil] at hfar ⊢
  rcases hfar with hle | hle
  · omega
  · by_cases hend : x.length + R.length ≤ a.length
    · exact Or.inr hend
    · have hsplit : (x ++ R) ++ y = (a ++ [c]) ++ (w ++ b) := by
        simpa using htext
      obtain ⟨hfront, -⟩ := List.append_inj hsplit (by
        simp only [List.length_append, List.length_cons, List.length_nil]
        omega)
      have hlast := congrArg List.getLast? hfront
      rw [List.getLast?_append, hR, List.getLast?_concat] at hlast
      exact absurd (Option.some_inj.mp hlast).symm hc

/-- And it may end later, with a character that does not start `R`. -/
theorem Clear.concat
    {R w : List α} {d e : α} (h : Clear R w) (hR : R.head? = some e) (hd : d ≠ e) :
    Clear R (w ++ [d]) := by
  intro x y a b htext
  have hfar := h x y a (d :: b) (by simpa using htext)
  simp only [List.length_append, List.length_cons, List.length_nil]
  rcases hfar with hle | hle
  · by_cases hend : a.length + (w.length + 1) ≤ x.length
    · exact Or.inl hend
    · have hsplit : x ++ (R ++ y) = (a ++ w) ++ (d :: b) := by
        simpa using htext
      obtain ⟨-, hrest⟩ := List.append_inj hsplit (by
        rw [List.length_append]
        omega)
      have hhead := congrArg List.head? hrest
      rw [List.head?_append, hR, List.head?_cons] at hhead
      exact absurd (Option.some_inj.mp hhead).symm hd
  · exact Or.inr hle

/--
A word keeps clear of `R` when one of its characters is not in `R`, nothing in front of
it ends `R` and nothing behind it starts `R`.
-/
theorem clear_of_split
    {R l r : List α} {c e e' : α} (hc : c ∉ R) (hhead : R.head? = some e)
    (hlast : R.getLast? = some e') (hl : ∀ d ∈ l, d ≠ e') (hr : ∀ d ∈ r, d ≠ e) :
    Clear R (l ++ c :: r) := by
  have hright : Clear R (c :: r) := by
    induction r using List.reverseRecOn with
    | nil =>
        exact clear_singleton hc
    | append_singleton r d ih =>
        have := (ih fun b hb => hr b (by simp [hb])).concat hhead (hr d (by simp))
        simpa using this
  induction l with
  | nil =>
      exact hright
  | cons d l ih =>
      exact (ih fun b hb => hl b (List.mem_cons_of_mem _ hb)).cons hlast (hl d (by simp))

/-- A clear word of a substituted text is a run of literals of the pass. -/
theorem exists_lits_of_clear
    {f : List α → List α} {R w a b : List α} {ts : List (Tok α)}
    (hf : ∀ m, hit m ∈ ts → f m = R) (hR : R ≠ []) (hw : w ≠ []) (hclear : Clear R w)
    (htext : render f ts = a ++ w ++ b) :
    ∃ t₁ t₂, ts = t₁ ++ w.map Tok.lit ++ t₂ ∧ render f t₁ = a ∧ render f t₂ = b := by
  refine exists_lits_of_disjoint hw ?_ htext ?_
  · intro m hm
    rw [hf m hm]
    exact hR
  · rintro t₁ m t₂ rfl
    have hm : f m = R := hf m (by simp)
    rw [render_append, render_hit, hm, ← List.append_assoc] at htext
    rw [hm]
    exact hclear _ _ _ _ htext

/-- Two words of one text keep apart, or the one starts inside the other. -/
theorem overlap_cases
    {a v b d m e : List α} (h : a ++ v ++ b = d ++ m ++ e) :
    a.length + v.length ≤ d.length ∨ d.length + m.length ≤ a.length ∨
      (∃ v₁ v₂, v = v₁ ++ v₂ ∧ v₂ ≠ [] ∧ d = a ++ v₁ ∧ m ++ e = v₂ ++ b) ∨
      (∃ m₁ m₂, m = m₁ ++ m₂ ∧ m₁ ≠ [] ∧ m₂ ≠ [] ∧ a = d ++ m₁ ∧ m₂ ++ e = v ++ b) := by
  by_cases hleft : a.length + v.length ≤ d.length
  · exact Or.inl hleft
  · by_cases hright : d.length + m.length ≤ a.length
    · exact Or.inr (Or.inl hright)
    · rw [List.append_assoc, List.append_assoc, List.append_eq_append_iff] at h
      rcases h with ⟨x, rfl, hx⟩ | ⟨x, rfl, hx⟩
      · right; right; left
        rw [List.append_eq_append_iff] at hx
        rcases hx with ⟨y, rfl, -⟩ | ⟨y, rfl, hy⟩
        · simp only [List.length_append] at hleft
          omega
        · refine ⟨x, y, rfl, ?_, rfl, hy⟩
          rintro rfl
          simp at hleft
      · right; right
        by_cases hnil : x = []
        · subst hnil
          left
          refine ⟨[], v, rfl, ?_, by simp, by simpa using hx⟩
          rintro rfl
          simp at hleft
        · right
          rw [List.append_eq_append_iff] at hx
          rcases hx with ⟨y, rfl, -⟩ | ⟨y, rfl, hy⟩
          · simp only [List.length_append] at hright
            omega
          · refine ⟨x, y, rfl, hnil, ?_, rfl, hy.symm⟩
            rintro rfl
            simp at hright

end Clear

namespace Rx

/-- The zero-width tests of the expression do not tell whether `y` follows. -/
def Blind (y : List α) : Rx α → Prop
  | eps => True
  | cls _ => True
  | look f => ∀ pre s, f pre (s ++ y) = f pre s
  | ahead _ => False
  | seq r s => Blind y r ∧ Blind y s
  | alt r s => Blind y r ∧ Blind y s
  | star r => Blind y r

theorem blind_word
    (y : List α) (ps : List (α → Bool)) :
    Blind y (word ps) := by
  induction ps with
  | nil =>
      trivial
  | cons p ps ih =>
      exact ⟨trivial, ih⟩

theorem filter_flatMap
    {L : List Nat} {p : Nat → Bool} {g : Nat → List Nat} (q : Nat → Bool)
    (g' : Nat → List Nat)
    (hkeep : ∀ n ∈ L, q n = true → (g n).filter p = g' n)
    (hdrop : ∀ n ∈ L, q n = false → (g n).filter p = []) :
    (L.flatMap g).filter p = (L.filter q).flatMap g' := by
  induction L with
  | nil =>
      rfl
  | cons n L ih =>
      have htail := ih (fun k hk => hkeep k (List.mem_cons_of_mem _ hk))
        fun k hk => hdrop k (List.mem_cons_of_mem _ hk)
      rw [List.flatMap_cons, List.filter_append, htail]
      cases hq : q n with
      | true =>
          rw [List.filter_cons_of_pos hq, List.flatMap_cons, hkeep n (by simp) hq]
      | false =>
          rw [List.filter_cons_of_neg (by simp [hq]), hdrop n (by simp) hq, List.nil_append]

/-- What a first part of length `n` is followed by, in front of `y`. -/
theorem filter_after
    {e : List α → List α → List Nat} {s y : List α}
    (he : ∀ pre t, e pre t = (e pre (t ++ y)).filter (· ≤ t.length))
    (pre : List α) {n : Nat} (hn : n ≤ s.length) :
    ((e (((s ++ y).take n).reverse ++ pre) ((s ++ y).drop n)).map (n + ·)).filter
        (· ≤ s.length) =
      (e ((s.take n).reverse ++ pre) (s.drop n)).map (n + ·) := by
  rw [List.take_append_of_le_length hn, List.drop_append_of_le_length hn, he _ (s.drop n),
    List.filter_map]
  congr 1
  apply List.filter_congr
  intro k _
  simp only [Function.comp, List.length_drop, decide_eq_decide]
  omega

theorem filter_after_long
    {L : List Nat} {n k : Nat} (hn : k < n) :
    (L.map (n + ·)).filter (· ≤ k) = [] := by
  rw [List.filter_eq_nil_iff]
  intro m hm
  obtain ⟨j, -, rfl⟩ := List.mem_map.mp hm
  simp only [decide_eq_true_eq]
  omega

theorem starEnds_append
    {e : List α → List α → List Nat} {y : List α} (hy : y ≠ [])
    (he : ∀ pre t, e pre t = (e pre (t ++ y)).filter (· ≤ t.length)) :
    ∀ (fuel fuel' : Nat) (pre s : List α), s.length ≤ fuel → (s ++ y).length ≤ fuel' →
      starEnds e fuel pre s = (starEnds e fuel' pre (s ++ y)).filter (· ≤ s.length) := by
  intro fuel
  induction fuel with
  | zero =>
      intro fuel' pre s hs hs'
      obtain rfl : s = [] := List.length_eq_zero_iff.mp (by omega)
      cases fuel' with
      | zero =>
          rfl
      | succ fuel' =>
          rw [starEnds, starEnds, List.filter_append, filter_flatMap (fun _ => false)
            fun _ => []]
          · simp
          · intro n _ hn
            cases hn
          · intro n hn _
            refine filter_after_long ?_
            have := (List.mem_filter.mp hn).2
            simp only [ne_eq, decide_not, Bool.not_eq_true', decide_eq_false_iff_not] at this
            simp only [List.length_nil]
            omega
  | succ fuel ih =>
      intro fuel' pre s hs hs'
      cases fuel' with
      | zero =>
          have hpos := List.length_pos_iff.mpr hy
          rw [List.length_append] at hs'
          omega
      | succ fuel' =>
          have hzero : ([0] : List Nat).filter (· ≤ s.length) = [0] := by simp
          rw [starEnds, starEnds, List.filter_append, hzero,
            filter_flatMap (fun n => decide (n ≤ s.length))
              fun n => (starEnds e fuel ((s.take n).reverse ++ pre) (s.drop n)).map (n + ·)]
          · rw [he pre s, List.filter_filter, List.filter_filter]
            congr 2
            apply List.filter_congr
            intro n _
            exact Bool.and_comm _ _
          · intro n hn hle
            have hn0 : n ≠ 0 := by simpa using (List.mem_filter.mp hn).2
            have hle' : n ≤ s.length := of_decide_eq_true hle
            have hrest := ih fuel' ((s.take n).reverse ++ pre) (s.drop n) (by
              rw [List.length_drop]
              omega) (by
              rw [List.length_append, List.length_drop]
              rw [List.length_append] at hs'
              omega)
            rw [List.take_append_of_le_length hle', List.drop_append_of_le_length hle', hrest,
              List.filter_map]
            congr 1
            apply List.filter_congr
            intro k _
            simp only [Function.comp, List.length_drop, decide_eq_decide]
            omega
          · intro n _ hle
            refine filter_after_long ?_
            have := of_decide_eq_false hle
            omega

/-- **The matches in front of `y` are the matches of the text that ends there.** -/
theorem ends_append
    {y : List α} (hy : y ≠ []) {r : Rx α} (hblind : Blind y r) :
    ∀ pre s : List α, ends r pre s = (ends r pre (s ++ y)).filter (· ≤ s.length) := by
  induction r with
  | eps =>
      intro pre s
      simp [ends]
  | cls p =>
      intro pre s
      cases s with
      | nil =>
          cases y with
          | nil =>
              exact absurd rfl hy
          | cons d y =>
              by_cases hd : p d = true <;> simp [ends, hd]
      | cons c s =>
          by_cases hc : p c = true <;> simp [ends, hc]
  | look f =>
      intro pre s
      rw [ends, ends, hblind pre s]
      split <;> simp
  | ahead r ih =>
      exact hblind.elim
  | seq r t ihr iht =>
      intro pre s
      rw [ends, ends, filter_flatMap (fun n => decide (n ≤ s.length))
        fun n => (ends t ((s.take n).reverse ++ pre) (s.drop n)).map (n + ·)]
      · rw [← ihr hblind.1 pre s]
      · intro n _ hle
        exact filter_after (iht hblind.2) pre (of_decide_eq_true hle)
      · intro n _ hle
        refine filter_after_long ?_
        have := of_decide_eq_false hle
        omega
  | alt r t ihr iht =>
      intro pre s
      rw [ends, ends, List.filter_append, ← ihr hblind.1 pre s, ← iht hblind.2 pre s]
  | star r ih =>
      intro pre s
      exact starEnds_append hy (ih hblind) _ _ pre s le_rfl le_rfl

/-- A match that is reported in front of `y` is reported without it. -/
theorem first_of_append
    {y : List α} (hy : y ≠ []) {r : Rx α} (hblind : Blind y r) {pre s : List α} {n : Nat}
    (h : first r pre (s ++ y) = some n) (hn : n ≤ s.length) :
    first r pre s = some n := by
  rw [first] at h
  obtain ⟨L, hL⟩ := List.head?_eq_some_iff.mp h
  rw [first, ends_append hy hblind, hL, List.filter_cons_of_pos (by simpa using hn)]
  rfl

theorem first_none_of_append
    {y : List α} (hy : y ≠ []) {r : Rx α} (hblind : Blind y r) {pre s : List α}
    (h : first r pre (s ++ y) = none) :
    first r pre s = none := by
  rw [first, List.head?_eq_none_iff] at h
  rw [first, ends_append hy hblind, h]
  rfl

end Rx

/-- The pass over a text that ends in front of `y` emits the same tokens. -/
theorem tokensFrom_of_scan
    {r : Rx α} {us : List (Tok α)} (hus : source us ≠ []) (hblind : Rx.Blind (source us) r)
    {ts : List (Tok α)} :
    ∀ {pre : List α}, Scan r pre (ts ++ us) → tokensFrom r pre 0 (source ts) = ts := by
  induction ts with
  | nil =>
      intro pre _
      rfl
  | cons t ts ih =>
      intro pre hscan
      rw [List.cons_append] at hscan
      cases hscan with
      | @literal _ c _ hfirst htail =>
          rw [source_append] at hfirst
          rw [source_lit, tokensFrom]
          rcases hfirst with hnone | hzero
          · rw [Rx.first_none_of_append (s := c :: source ts) hus hblind hnone]
            exact congrArg _ (ih htail)
          · rw [Rx.first_of_append (s := c :: source ts) hus hblind hzero (Nat.zero_le _)]
            exact congrArg _ (ih htail)
      | @matched _ m _ hne hfirst htail =>
          rw [source_append, ← List.append_assoc] at hfirst
          have hhere := Rx.first_of_append hus hblind hfirst (by simp)
          rw [source_hit, tokensFrom_of_first hne hhere, ih htail]

section Carried

/--
The pass that puts `R` in place of every match leaves the run `v` alone: it makes `a'` of
what stands in front and `b'` of what stands behind.
-/
def Carried (R : List α) (r : Rx α) (a v b a' b' : List α) : Prop :=
  ∃ t₁ t₂, tokens r (a ++ v ++ b) = t₁ ++ v.map Tok.lit ++ t₂ ∧ source t₁ = a ∧ source t₂ = b ∧
    render (fun _ => R) t₁ = a' ∧ render (fun _ => R) t₂ = b'

/-- No match overlaps the run `v`. -/
def Avoids (r : Rx α) (a v b : List α) : Prop :=
  ∀ d m e, a ++ v ++ b = d ++ m ++ e → Rx.Lang r d.reverse m e →
    a.length + v.length ≤ d.length ∨ d.length + m.length ≤ a.length

theorem carried_of_avoids
    (R : List α) {r : Rx α} {a v b : List α} (hv : v ≠ []) (h : Avoids r a v b) :
    ∃ a' b', Carried R r a v b a' b' := by
  have hscan := scan_tokens r (a ++ v ++ b)
  have hsource := source_tokens r (a ++ v ++ b)
  obtain ⟨t₁, t₂, htokens, ht₁, ht₂⟩ := exists_lits_of_disjoint (f := id) hv (by
    intro m hm
    obtain ⟨s₁, s₂, hs⟩ := List.append_of_mem hm
    rw [hs] at hscan
    exact hscan.lang_of_hit.1) hsource (by
    rintro s₁ m s₂ hs
    rw [hs] at hscan hsource
    rw [source_append, source_hit, ← List.append_assoc] at hsource
    have hlang := hscan.lang_of_hit.2
    rw [List.append_nil] at hlang
    exact h _ m _ hsource.symm hlang)
  exact ⟨_, _, t₁, t₂, htokens, ht₁, ht₂, rfl, rfl⟩

theorem carried_of_clear
    {R : List α} {r : Rx α} {x a' v b' : List α} (hR : R ≠ []) (hv : v ≠ [])
    (hclear : Clear R v) (h : sub r (fun _ => R) x = a' ++ v ++ b') :
    ∃ a b, x = a ++ v ++ b ∧ Carried R r a v b a' b' := by
  obtain ⟨t₁, t₂, htokens, ht₁, ht₂⟩ :=
    exists_lits_of_clear (f := fun _ => R) (fun _ _ => rfl) hR hv hclear h
  have hx : x = source t₁ ++ v ++ source t₂ := by
    rw [← source_tokens r x, htokens]
    simp
  refine ⟨source t₁, source t₂, hx, t₁, t₂, ?_, rfl, rfl, ht₁, ht₂⟩
  rw [← hx, htokens]

variable {R : List α} {r : Rx α} {a v b a' b' : List α}

theorem Carried.result
    (h : Carried R r a v b a' b') :
    sub r (fun _ => R) (a ++ v ++ b) = a' ++ v ++ b' := by
  obtain ⟨t₁, t₂, htokens, -, -, rfl, rfl⟩ := h
  rw [sub, htokens]
  simp

/-- The text in front of `v` is treated as if it ended inside `v`. -/
theorem Carried.prefix
    (h : Carried R r a v b a' b') {v₁ v₂ : List α} (hsplit : v = v₁ ++ v₂) (hv₂ : v₂ ≠ [])
    (hblind : Rx.Blind (v₂ ++ b) r) :
    sub r (fun _ => R) (a ++ v₁) = a' ++ v₁ := by
  subst hsplit
  obtain ⟨t₁, t₂, htokens, rfl, rfl, rfl, -⟩ := h
  have hscan := scan_tokens r (source t₁ ++ (v₁ ++ v₂) ++ source t₂)
  have hparts : t₁ ++ (v₁ ++ v₂).map Tok.lit ++ t₂ =
      (t₁ ++ v₁.map Tok.lit) ++ (v₂.map Tok.lit ++ t₂) := by
    simp
  rw [htokens, hparts] at hscan
  have htoks := tokensFrom_of_scan (by simpa using fun h => absurd h hv₂)
    (by simpa using hblind) hscan
  rw [source_append, source_map_lit] at htoks
  rw [sub, tokens, htoks]
  simp

/-- What stands next to `v` in front: the same character, or `R` for a match. -/
theorem Carried.left
    (h : Carried R r a v b a' b') :
    a'.getLast? = a.getLast? ∨
      ∃ d m, a = d ++ m ∧ m ≠ [] ∧ Rx.Lang r d.reverse m (v ++ b) ∧ ∃ x, a' = x ++ R := by
  obtain ⟨t₁, t₂, htokens, rfl, rfl, rfl, -⟩ := h
  have hscan := scan_tokens r (source t₁ ++ v ++ source t₂)
  rw [htokens, List.append_assoc] at hscan
  induction t₁ using List.reverseRecOn with
  | nil =>
      exact Or.inl rfl
  | append_singleton t₁ t _ =>
      cases t with
      | lit c =>
          left
          simp
      | hit m =>
          right
          rw [List.append_assoc, List.singleton_append] at hscan
          obtain ⟨hne, hlang⟩ := hscan.lang_of_hit
          rw [List.append_nil] at hlang
          exact ⟨source t₁, m, by simp, hne, by simpa using hlang,
            render (fun _ => R) t₁, by simp⟩

/-- What stands next to `v` behind it: the same character, or `R` for a match. -/
theorem Carried.right
    (h : Carried R r a v b a' b') :
    b'.head? = b.head? ∨
      ∃ m e, b = m ++ e ∧ m ≠ [] ∧ Rx.Lang r (a ++ v).reverse m e ∧ ∃ y, b' = R ++ y := by
  obtain ⟨t₁, t₂, htokens, rfl, rfl, rfl, rfl⟩ := h
  have hscan := scan_tokens r (source t₁ ++ v ++ source t₂)
  rw [htokens] at hscan
  cases t₂ with
  | nil =>
      exact Or.inl rfl
  | cons t t₂ =>
      cases t with
      | lit c =>
          left
          simp
      | hit m =>
          right
          obtain ⟨hne, hlang⟩ := hscan.lang_of_hit
          rw [List.append_nil] at hlang
          exact ⟨m, source t₂, by simp, hne, by simpa using hlang,
            render (fun _ => R) t₂, by simp⟩

/-- No match starts where the run does. -/
theorem Carried.not_lang
    (h : Carried R r a v b a' b') (hr : ∀ pre post, ¬ Rx.Lang r pre [] post) (hv : v ≠ [])
    {m e : List α} (hsplit : v ++ b = m ++ e) :
    ¬ Rx.Lang r a.reverse m e := by
  obtain ⟨t₁, t₂, htokens, rfl, rfl, -, -⟩ := h
  have hscan := scan_tokens r (source t₁ ++ v ++ source t₂)
  cases v with
  | nil =>
      exact absurd rfl hv
  | cons c v =>
      rw [htokens, List.map_cons, List.append_assoc, List.cons_append] at hscan
      have := hscan.not_lang_of_lit hr (w := m) (v := e) (by simpa using hsplit)
      rwa [List.append_nil] at this

end Carried

end Regex
end MqSentinel
