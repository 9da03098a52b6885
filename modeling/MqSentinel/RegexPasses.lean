import MqSentinel.RegexOverlap

/-!
# One pass after another

`subAll R L` puts `R` in place of the matches of each expression of `L`, one expression
after another.  A run of characters can come through untouched: `CarriedAll` follows
what stands in front of it and behind it.

A run comes through when an invariant of the text in front keeps every match off it
(`exists_carriedAll`).  Read backwards, a run of the result that keeps clear of `R`
came through (`exists_carriedAll_of_clear`).
-/

namespace MqSentinel
namespace Regex

universe u

variable {α : Type u}

open Tok

/-- Every match of the first expression is replaced, then every match of the next. -/
def subAll (R : List α) (L : List (Rx α)) (text : List α) : List α :=
  L.foldl (fun text r => sub r (fun _ => R) text) text

@[simp] theorem subAll_nil
    (R text : List α) :
    subAll R [] text = text := by
  rfl

@[simp] theorem subAll_cons
    (R : List α) (r : Rx α) (L : List (Rx α)) (text : List α) :
    subAll R (r :: L) text = subAll R L (sub r (fun _ => R) text) := by
  rfl

theorem subAll_append
    (R : List α) (L M : List (Rx α)) (text : List α) :
    subAll R (L ++ M) text = subAll R M (subAll R L text) := by
  exact List.foldl_append

/-- The passes leave the run `v` alone and make `a'` and `b'` of what is around it. -/
inductive CarriedAll (R v : List α) :
    List (Rx α) → List α → List α → List α → List α → Prop
  | nil (a b : List α) : CarriedAll R v [] a b a b
  | cons {r : Rx α} {L : List (Rx α)} {a b a' b' a'' b'' : List α} :
      Carried R r a v b a' b' →
      CarriedAll R v L a' b' a'' b'' →
      CarriedAll R v (r :: L) a b a'' b''

section CarriedAll

variable {R v : List α} {L M : List (Rx α)} {a b a' b' a'' b'' : List α}

theorem CarriedAll.result
    (h : CarriedAll R v L a b a' b') :
    subAll R L (a ++ v ++ b) = a' ++ v ++ b' := by
  induction h with
  | nil a b =>
      rfl
  | cons hstep _ ih =>
      rw [subAll_cons, hstep.result, ih]

/-- Every pass of the list carries the run. -/
theorem CarriedAll.mem
    (h : CarriedAll R v L a b a' b') {r : Rx α} (hr : r ∈ L) :
    ∃ M, (∀ s ∈ M, s ∈ L) ∧ ∃ a₁ b₁ a₂ b₂,
      Carried R r a₁ v b₁ a₂ b₂ ∧ CarriedAll R v M a₂ b₂ a' b' := by
  induction h with
  | nil a b =>
      cases hr
  | @cons s L a b a₂ b₂ a' b' hstep hrest ih =>
      rcases List.mem_cons.mp hr with rfl | hr
      · exact ⟨L, fun s hs => List.mem_cons_of_mem _ hs, a, b, a₂, b₂, hstep, hrest⟩
      · obtain ⟨M, hM, hmem⟩ := ih hr
        exact ⟨M, fun s hs => List.mem_cons_of_mem _ (hM s hs), hmem⟩

/-- What each pass needs in front of it, the passes together need. -/
theorem CarriedAll.pull
    {P : List α → List α → Prop}
    (hstep : ∀ r ∈ L, ∀ a b a' b', Carried R r a v b a' b' → P a' b' → P a b)
    (h : CarriedAll R v L a b a' b') (hP : P a' b') :
    P a b := by
  induction h with
  | nil a b =>
      exact hP
  | cons hfirst _ ih =>
      exact hstep _ (by simp) _ _ _ _ hfirst
        (ih (fun r hr => hstep r (List.mem_cons_of_mem _ hr)) hP)

/-- The text in front of the run is treated as if it ended inside the run. -/
theorem CarriedAll.prefix
    (h : CarriedAll R v L a b a' b') {v₁ v₂ : List α} (hsplit : v = v₁ ++ v₂) (hv₂ : v₂ ≠ [])
    (hblind : ∀ r ∈ L, ∀ z, Rx.Blind (v₂ ++ z) r) :
    subAll R L (a ++ v₁) = a' ++ v₁ := by
  induction h with
  | nil a b =>
      rfl
  | cons hstep _ ih =>
      rw [subAll_cons, hstep.prefix hsplit hv₂ (hblind _ (by simp) _),
        ih fun r hr => hblind r (List.mem_cons_of_mem _ hr)]

/-- The run comes through when an invariant keeps every match off it. -/
theorem exists_carriedAll
    (inv : List α → Prop) (hv : v ≠ [])
    (havoid : ∀ r ∈ L, ∀ a b, inv a → Avoids r a v b)
    (hinv : ∀ r ∈ L, ∀ a b a' b', inv a → Carried R r a v b a' b' → inv a') :
    ∀ a b, inv a → ∃ a' b', CarriedAll R v L a b a' b' ∧ inv a' := by
  induction L with
  | nil =>
      intro a b ha
      exact ⟨a, b, CarriedAll.nil a b, ha⟩
  | cons r L ih =>
      intro a b ha
      obtain ⟨a₁, b₁, hstep⟩ := carried_of_avoids R hv (havoid r (by simp) a b ha)
      have ha₁ := hinv r (by simp) a b a₁ b₁ ha hstep
      obtain ⟨a', b', hrest, ha'⟩ := ih (fun s hs => havoid s (List.mem_cons_of_mem _ hs))
        (fun s hs => hinv s (List.mem_cons_of_mem _ hs)) a₁ b₁ ha₁
      exact ⟨a', b', CarriedAll.cons hstep hrest, ha'⟩

/-- A run of the result that keeps clear of `R` came through, with the invariant. -/
theorem exists_carriedAll_of_clear
    (inv : List α → Prop) (hR : R ≠ []) (hv : v ≠ []) (hclear : Clear R v)
    (hinv : ∀ r ∈ L, ∀ a b a' b', inv a' → Carried R r a v b a' b' → inv a) :
    ∀ x, subAll R L x = a' ++ v ++ b' → inv a' →
      ∃ a b, x = a ++ v ++ b ∧ inv a ∧ CarriedAll R v L a b a' b' := by
  induction L with
  | nil =>
      intro x hx ha'
      exact ⟨a', b', hx, ha', CarriedAll.nil a' b'⟩
  | cons r L ih =>
      intro x hx ha'
      rw [subAll_cons] at hx
      obtain ⟨a₁, b₁, hx₁, ha₁, hrest⟩ :=
        ih (fun s hs => hinv s (List.mem_cons_of_mem _ hs)) _ hx ha'
      obtain ⟨a, b, hsplit, hstep⟩ := carried_of_clear hR hv hclear hx₁
      exact ⟨a, b, hsplit, hinv r (by simp) a b a₁ b₁ ha₁ hstep, CarriedAll.cons hstep hrest⟩

/-- A word that every pass carries and that one of them matches is not in the result. -/
theorem not_infix_subAll
    {w : List α} {r : Rx α} (hr : ∀ pre post, ¬ Rx.Lang r pre [] post) (hmem : r ∈ L)
    (hR : R ≠ []) (hw : w ≠ []) (hclear : Clear R w)
    (hlang : ∀ pre post, Rx.Lang r pre w post) (x : List α) :
    ¬ w <:+: subAll R L x := by
  rintro ⟨a', b', hresult⟩
  obtain ⟨L₁, L₂, rfl⟩ := List.append_of_mem hmem
  rw [subAll_append, subAll_cons] at hresult
  obtain ⟨a₁, b₁, hx₁, -, -⟩ := exists_carriedAll_of_clear (fun _ => True) hR hw hclear
    (fun _ _ _ _ _ _ _ _ => trivial) _ hresult.symm trivial
  obtain ⟨a, b, -, hstep⟩ := carried_of_clear hR hw hclear hx₁
  exact hstep.not_lang hr hw rfl (hlang _ _)

end CarriedAll

/--
A match next to the run, which no other match overlaps, is replaced: the run then has `R`
in front.
-/
theorem Carried.left_of_rigid
    {R : List α} {r : Rx α} {d m v b a' b' : List α}
    (h : Carried R r (d ++ m) v b a' b') (hr : ∀ pre post, ¬ Rx.Lang r pre [] post)
    (hlang : Rx.Lang r d.reverse m (v ++ b))
    (hrigid : ∀ d' m' e', d ++ m ++ (v ++ b) = d' ++ m' ++ e' → Rx.Lang r d'.reverse m' e' →
      d.length + m.length ≤ d'.length ∨ d'.length + m'.length ≤ d.length ∨
        (d' = d ∧ m' = m)) :
    ∃ x, a' = x ++ R := by
  obtain ⟨t₁, t₂, htokens, ht₁, rfl, rfl, -⟩ := h
  have hm : m ≠ [] := by
    rintro rfl
    exact hr _ _ hlang
  have hscan := scan_tokens r (d ++ m ++ v ++ source t₂)
  rw [htokens, List.append_assoc] at hscan
  have hne : ∀ s₁ x s₂, t₁ = s₁ ++ hit x :: s₂ → x ≠ [] := by
    rintro s₁ x s₂ rfl
    rw [List.append_assoc] at hscan
    exact hscan.lang_of_hit.1
  have hnonempty : ∀ x, hit x ∈ t₁ → (id x : List α) ≠ [] := by
    intro x hx
    obtain ⟨s₁, s₂, hs⟩ := List.append_of_mem hx
    exact hne s₁ x s₂ hs
  by_cases hdisj : ∀ s₁ x s₂, t₁ = s₁ ++ hit x :: s₂ →
      d.length + m.length ≤ (source s₁).length ∨ (source s₁).length + x.length ≤ d.length
  · -- no hit covers the match: its first character is a literal
    exfalso
    obtain ⟨u₁, u₂, rfl, hu₁, hu₂⟩ := exists_lits_of_disjoint (f := id) (b := []) hm hnonempty
      (by rw [List.append_nil]; exact ht₁) hdisj
    have hu₂ : u₂ = [] := eq_nil_of_render_eq_nil (fun x hx => hnonempty x (by simp [hx])) hu₂
    have hu₁ : source u₁ = d := hu₁
    subst hu₂ hu₁
    cases m with
    | nil =>
        exact hm rfl
    | cons c m =>
        rw [List.append_nil, List.map_cons, List.append_assoc, List.cons_append] at hscan
        have hnot := hscan.not_lang_of_lit hr (w := c :: m) (v := v ++ source t₂) (by simp)
        rw [List.append_nil] at hnot
        exact hnot hlang
  · push Not at hdisj
    obtain ⟨s₁, x, s₂, hs, hleft, hright⟩ := hdisj
    subst hs
    rw [List.append_assoc, List.cons_append] at hscan
    have hx := hscan.lang_of_hit.2
    rw [List.append_nil] at hx
    have htext : d ++ m ++ (v ++ source t₂) =
        source s₁ ++ x ++ source (s₂ ++ (v.map Tok.lit ++ t₂)) := by
      rw [← ht₁]
      simp
    rcases hrigid _ _ _ htext hx with hfar | hfar | ⟨hd, rfl⟩
    · omega
    · omega
    · have hs₂ : source s₂ = [] := by
        rw [source_append, source_hit, hd, ← List.append_assoc] at ht₁
        simpa using ht₁
      have hs₂ : s₂ = [] := eq_nil_of_render_eq_nil (f := id)
        (fun y hy => hnonempty y (by simp [hy])) hs₂
      subst hs₂
      exact ⟨render (fun _ => R) s₁, by simp⟩

end Regex
end MqSentinel
