import Mathlib.Data.List.Basic

/-!
# Absolute paths and their text

A path is the list of its components, below the root directory.  Its text puts a
separator in front of each; the root directory itself is a single separator.

One path is inside another when it starts with all of its components.  A test on the
texts, "starts with the other one and a separator", decides just that
(`text_prefix_iff`), unless the other one is the root directory.
-/

namespace FilePaths

variable {α : Type} {sep : α}

/-- The components of an absolute path. -/
abbrev Path (α : Type) := List (List α)

/-- A component is not empty and holds no separator. -/
def Proper (sep : α) (p : Path α) : Prop :=
  ∀ c ∈ p, c ≠ [] ∧ sep ∉ c

/-- The components, each with a separator in front. -/
def segments (sep : α) (p : Path α) : List α :=
  p.flatMap (sep :: ·)

/-- The text of a path. -/
def text (sep : α) : Path α → List α
  | [] => [sep]
  | c :: p => segments sep (c :: p)

/-- `p` lies below `q`. -/
def Inside (p q : Path α) : Prop :=
  ∃ c rest, p = q ++ c :: rest

theorem Proper.tail
    {c : List α} {p : Path α} (h : Proper sep (c :: p)) :
    Proper sep p :=
  fun d hd => h d (List.mem_cons_of_mem c hd)

/-- The segments of a path are empty or start with the separator. -/
theorem segments_cases (sep : α) (p : Path α) :
    p = [] ∧ segments sep p = [] ∨ ∃ w, segments sep p = sep :: w := by
  cases p with
  | nil => exact Or.inl ⟨rfl, rfl⟩
  | cons c p => exact Or.inr ⟨_, rfl⟩

/-- What stands before the first separator. -/
theorem eq_of_append_sep
    {c d u v : List α} (hc : sep ∉ c) (hd : sep ∉ d) (h : c ++ sep :: u = d ++ sep :: v) :
    c = d ∧ u = v := by
  induction c generalizing d with
  | nil =>
      cases d with
      | nil => exact ⟨rfl, (List.cons.inj h).2⟩
      | cons a d =>
          cases (List.cons.inj h).1
          exact absurd List.mem_cons_self hd
  | cons a c ih =>
      cases d with
      | nil =>
          cases (List.cons.inj h).1
          exact absurd List.mem_cons_self hc
      | cons b d =>
          obtain ⟨rfl, hrest⟩ := List.cons.inj h
          obtain ⟨rfl, rfl⟩ := ih (mt (List.mem_cons_of_mem a) hc)
            (mt (List.mem_cons_of_mem a) hd) hrest
          exact ⟨rfl, rfl⟩

/-- The segments determine the components one by one. -/
theorem segments_prefix_iff
    {p q : Path α} (hp : Proper sep p) (hq : Proper sep q) :
    segments sep q ++ [sep] <+: segments sep p ↔ Inside p q := by
  constructor
  · intro h
    induction q generalizing p with
    | nil =>
        cases p with
        | nil => exact absurd h.length_le (by simp [segments])
        | cons c p => exact ⟨c, p, rfl⟩
    | cons d q ih =>
        obtain ⟨w, hw⟩ : ∃ w, segments sep q ++ [sep] = sep :: w := by
          rcases segments_cases sep q with ⟨-, hnil⟩ | ⟨v, hv⟩
          · exact ⟨[], by rw [hnil]; rfl⟩
          · exact ⟨v ++ [sep], by rw [hv]; rfl⟩
        cases p with
        | nil => exact absurd h.length_le (by simp [segments])
        | cons c p =>
            -- Both sides go on behind the first separator.
            have hd : sep ∉ d := (hq d List.mem_cons_self).2
            have hc : sep ∉ c := (hp c List.mem_cons_self).2
            obtain ⟨k, hk⟩ : d ++ sep :: w <+: c ++ segments sep p := by
              have hcons : sep :: (d ++ (segments sep q ++ [sep])) <+:
                  sep :: (c ++ segments sep p) := by
                simpa [segments] using h
              rw [← hw]
              exact (List.cons_prefix_cons.mp hcons).2
            rw [List.append_assoc, List.cons_append] at hk
            rcases segments_cases sep p with ⟨-, hnil⟩ | ⟨v, hv⟩
            · rw [hnil, List.append_nil] at hk
              exact absurd (hk ▸ by simp) hc
            · rw [hv] at hk
              obtain ⟨rfl, hrest⟩ := eq_of_append_sep hd hc hk
              have hinside : Inside p q := by
                refine ih hp.tail hq.tail ⟨k, ?_⟩
                rw [hw, hv, List.cons_append, hrest]
              obtain ⟨e, rest, rfl⟩ := hinside
              exact ⟨e, rest, rfl⟩
  · rintro ⟨c, rest, rfl⟩
    refine ⟨c ++ segments sep rest, ?_⟩
    simp [segments]

/-- The test on the texts. -/
theorem text_prefix_iff
    {p q : Path α} (hp : Proper sep p) (hq : Proper sep q) :
    text sep q ++ [sep] <+: text sep p ↔ q ≠ [] ∧ Inside p q := by
  cases q with
  | nil =>
      simp only [ne_eq, not_true_eq_false, false_and, iff_false]
      rintro ⟨k, hk⟩
      cases p with
      | nil => exact absurd (congrArg List.length hk) (by simp [text])
      | cons c p =>
          obtain ⟨hne, hsep⟩ := hp c List.mem_cons_self
          cases c with
          | nil => exact hne rfl
          | cons a c =>
              have ha : sep = a := by
                have hsecond : [sep, sep] ++ k = sep :: a :: (c ++ segments sep p) := hk
                exact (List.cons.inj (List.cons.inj hsecond).2).1
              exact hsep (ha ▸ List.mem_cons_self)
  | cons d q =>
      cases p with
      | nil =>
          simp only [ne_eq, reduceCtorEq, not_false_eq_true, true_and]
          refine ⟨fun h => absurd h.length_le (by simp [text, segments]), ?_⟩
          rintro ⟨c, rest, h⟩
          cases h
      | cons c p =>
          simp only [ne_eq, reduceCtorEq, not_false_eq_true, true_and]
          exact segments_prefix_iff hp hq

end FilePaths
