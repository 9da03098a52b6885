import MqSentinel.RegexSubstitution

/-!
# Where tokens stand

`HitAt f ts i m`: the hit `m` stands in `ts`, and what is rewritten in front of it has
length `i`.  `LitsAt f ts i w` says the same of a run of literals.  With `id` for `f`
these are positions in the scanned text, with the replacement for `f` they are
positions in the result.
-/

namespace MqSentinel
namespace Regex

universe u

variable {α : Type u} {f : List α → List α}

open Tok

/-- The hit `m` stands behind `i` rewritten characters. -/
def HitAt (f : List α → List α) (ts : List (Tok α)) (i : Nat) (m : List α) : Prop :=
  ∃ ts₁ ts₂, ts = ts₁ ++ hit m :: ts₂ ∧ (render f ts₁).length = i

/-- The literals `w` stand behind `i` rewritten characters. -/
def LitsAt (f : List α → List α) (ts : List (Tok α)) (i : Nat) (w : List α) : Prop :=
  ∃ ts₁ ts₂, ts = ts₁ ++ (w.map Tok.lit ++ ts₂) ∧ (render f ts₁).length = i

@[simp] theorem hitAt_nil
    (i : Nat) (m : List α) :
    HitAt f [] i m ↔ False := by
  simp [HitAt]

@[simp] theorem hitAt_lit
    (c : α) (ts : List (Tok α)) (i : Nat) (m : List α) :
    HitAt f (Tok.lit c :: ts) i m ↔ ∃ j, i = j + 1 ∧ HitAt f ts j m := by
  constructor
  · rintro ⟨ts₁, ts₂, hts, rfl⟩
    cases ts₁ with
    | nil =>
        cases hts
    | cons t ts₁ =>
        obtain ⟨rfl, rfl⟩ := List.cons.inj hts
        exact ⟨(render f ts₁).length, by simp, ts₁, ts₂, rfl, rfl⟩
  · rintro ⟨_, rfl, ts₁, ts₂, rfl, rfl⟩
    exact ⟨Tok.lit c :: ts₁, ts₂, rfl, by simp⟩

@[simp] theorem hitAt_hit
    (h : List α) (ts : List (Tok α)) (i : Nat) (m : List α) :
    HitAt f (hit h :: ts) i m ↔
      (i = 0 ∧ m = h) ∨ ∃ j, i = (f h).length + j ∧ HitAt f ts j m := by
  constructor
  · rintro ⟨ts₁, ts₂, hts, rfl⟩
    cases ts₁ with
    | nil =>
        obtain ⟨hm, _⟩ := List.cons.inj hts
        cases hm
        exact Or.inl ⟨rfl, rfl⟩
    | cons t ts₁ =>
        obtain ⟨rfl, rfl⟩ := List.cons.inj hts
        exact Or.inr ⟨(render f ts₁).length, by simp, ts₁, ts₂, rfl, rfl⟩
  · rintro (⟨rfl, rfl⟩ | ⟨_, rfl, ts₁, ts₂, rfl, rfl⟩)
    · exact ⟨[], ts, rfl, rfl⟩
    · exact ⟨hit h :: ts₁, ts₂, rfl, by simp⟩

theorem hitAt_append
    (x : List α) (ts : List (Tok α)) (i : Nat) (m : List α) :
    HitAt f (x.map Tok.lit ++ ts) i m ↔ ∃ j, i = x.length + j ∧ HitAt f ts j m := by
  induction x generalizing i with
  | nil =>
      simp
  | cons c x ih =>
      rw [List.map_cons, List.cons_append, hitAt_lit]
      constructor
      · rintro ⟨j, rfl, hj⟩
        obtain ⟨k, rfl, hk⟩ := (ih j).mp hj
        exact ⟨k, by simp only [List.length_cons]; omega, hk⟩
      · rintro ⟨j, rfl, hj⟩
        exact ⟨x.length + j, by simp only [List.length_cons]; omega, (ih _).mpr ⟨j, rfl, hj⟩⟩

theorem litsAt_lit
    (c : α) (ts : List (Tok α)) (i : Nat) (w : List α) :
    LitsAt f (Tok.lit c :: ts) i w ↔
      (i = 0 ∧ ∃ ts₂, Tok.lit c :: ts = w.map Tok.lit ++ ts₂) ∨
        ∃ j, i = j + 1 ∧ LitsAt f ts j w := by
  constructor
  · rintro ⟨ts₁, ts₂, hts, rfl⟩
    cases ts₁ with
    | nil =>
        exact Or.inl ⟨rfl, ts₂, hts⟩
    | cons t ts₁ =>
        obtain ⟨rfl, rfl⟩ := List.cons.inj hts
        exact Or.inr ⟨(render f ts₁).length, by simp, ts₁, ts₂, rfl, rfl⟩
  · rintro (⟨rfl, ts₂, hts⟩ | ⟨_, rfl, ts₁, ts₂, rfl, rfl⟩)
    · exact ⟨[], ts₂, hts, rfl⟩
    · exact ⟨Tok.lit c :: ts₁, ts₂, rfl, by simp⟩

theorem litsAt_hit
    (h : List α) (ts : List (Tok α)) (i : Nat) {w : List α} (hw : w ≠ []) :
    LitsAt f (hit h :: ts) i w ↔ ∃ j, i = (f h).length + j ∧ LitsAt f ts j w := by
  constructor
  · rintro ⟨ts₁, ts₂, hts, rfl⟩
    cases ts₁ with
    | nil =>
        cases w with
        | nil =>
            exact absurd rfl hw
        | cons d w =>
            cases hts
    | cons t ts₁ =>
        obtain ⟨rfl, rfl⟩ := List.cons.inj hts
        exact ⟨(render f ts₁).length, by simp, ts₁, ts₂, rfl, rfl⟩
  · rintro ⟨_, rfl, ts₁, ts₂, rfl, rfl⟩
    exact ⟨hit h :: ts₁, ts₂, rfl, by simp⟩

/-- A run of literals whose first character is not among those in front starts behind them. -/
theorem litsAt_append
    {d : α} {w x : List α} (hd : d ∉ x) (ts : List (Tok α)) (i : Nat) :
    LitsAt f (x.map Tok.lit ++ ts) i (d :: w) ↔ ∃ j, i = x.length + j ∧ LitsAt f ts j (d :: w) := by
  induction x generalizing i with
  | nil =>
      simp
  | cons c x ih =>
      rw [List.mem_cons, not_or] at hd
      rw [List.map_cons, List.cons_append, litsAt_lit]
      constructor
      · rintro (⟨_, ts₂, hts⟩ | ⟨j, rfl, hj⟩)
        · rw [List.map_cons, List.cons_append] at hts
          obtain ⟨hhead, _⟩ := List.cons.inj hts
          cases hhead
          exact absurd rfl hd.1
        · obtain ⟨k, rfl, hk⟩ := (ih hd.2 j).mp hj
          exact ⟨k, by simp only [List.length_cons]; omega, hk⟩
      · rintro ⟨j, rfl, hj⟩
        exact Or.inr ⟨x.length + j, by simp only [List.length_cons]; omega,
          (ih hd.2 _).mpr ⟨j, rfl, hj⟩⟩

theorem litsAt_nil
    (i : Nat) {w : List α} (hw : w ≠ []) :
    LitsAt f [] i w ↔ False := by
  constructor
  · rintro ⟨ts₁, ts₂, hts, _⟩
    have hnil := (List.append_eq_nil_iff.mp hts.symm).2
    exact hw (List.map_eq_nil_iff.mp (List.append_eq_nil_iff.mp hnil).1)
  · exact False.elim

@[simp] theorem hits_map_lit
    (w : List α) :
    (w.map Tok.lit).filterMap hit? = [] := by
  simp [List.filterMap_eq_nil_iff, hit?]

/-- The hits of a token list are those that stand somewhere in it. -/
theorem mem_hits_iff
    (f : List α → List α) (ts : List (Tok α)) (m : List α) :
    m ∈ ts.filterMap hit? ↔ ∃ i, HitAt f ts i m := by
  rw [List.mem_filterMap]
  constructor
  · rintro ⟨t, ht, hm⟩
    obtain ⟨ts₁, ts₂, rfl⟩ := List.append_of_mem ht
    cases t with
    | lit c =>
        cases hm
    | hit h =>
        cases hm
        exact ⟨_, ts₁, ts₂, rfl, rfl⟩
  · rintro ⟨_, ts₁, ts₂, rfl, _⟩
    exact ⟨hit m, by simp, rfl⟩

end Regex
end MqSentinel
