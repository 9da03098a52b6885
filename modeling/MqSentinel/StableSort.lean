import Mathlib.Data.List.Sort
import Mathlib.Data.Prod.Lex

/-!
# Stable sorting by a key

A stable sort keeps the elements with one key in the order in which they stood.  Written
with fibres: for every key, the elements with this key are the same list before and
after.  A sorted list is determined by its fibres, so two lists are sorted to the same
list as soon as their fibres agree.
-/

namespace StableSort

universe u v

variable {α : Type u} {κ : Type v} [LinearOrder κ]

/-- The elements with one key, in their order. -/
def fibre (key : α → κ) (k : κ) (xs : List α) : List α :=
  xs.filter fun x => key x = k

/-- Keys never fall. -/
def Sorted (key : α → κ) (xs : List α) : Prop :=
  xs.Pairwise fun x y => key x ≤ key y

/-- `xs` in the order of a key, equal keys as they stood. -/
def sortOn (key : α → κ) (xs : List α) : List α :=
  xs.mergeSort fun x y => key x ≤ key y

theorem fibre_cons_self (key : α → κ) (x : α) (xs : List α) :
    fibre key (key x) (x :: xs) = x :: fibre key (key x) xs := by
  simp [fibre]

theorem fibre_cons_of_ne {key : α → κ} {k : κ} {x : α} (h : key x ≠ k) (xs : List α) :
    fibre key k (x :: xs) = fibre key k xs := by
  simp [fibre, h]

theorem fibre_append (key : α → κ) (k : κ) (xs ys : List α) :
    fibre key k (xs ++ ys) = fibre key k xs ++ fibre key k ys := by
  simp [fibre]

theorem mem_fibre {key : α → κ} {k : κ} {x : α} {xs : List α} :
    x ∈ fibre key k xs ↔ x ∈ xs ∧ key x = k := by
  simp [fibre]

theorem sortOn_perm (key : α → κ) (xs : List α) :
    (sortOn key xs).Perm xs :=
  List.mergeSort_perm _ _

theorem sorted_sortOn (key : α → κ) (xs : List α) :
    Sorted key (sortOn key xs) := by
  have hsorted : (sortOn key xs).Pairwise fun x y => decide (key x ≤ key y) = true := by
    refine List.pairwise_mergeSort ?_ ?_ xs
    · intro x y z hxy hyz
      simp only [decide_eq_true_eq] at hxy hyz ⊢
      exact hxy.trans hyz
    · intro x y
      simp [le_total]
  exact hsorted.imp fun h => by simpa using h

/-- Sorting leaves every fibre as it is. -/
theorem fibre_sortOn (key : α → κ) (k : κ) (xs : List α) :
    fibre key k (sortOn key xs) = fibre key k xs := by
  have htied : (fibre key k xs).Pairwise fun x y => decide (key x ≤ key y) = true := by
    refine List.Pairwise.imp_of_mem ?_ (List.pairwise_of_forall fun _ _ => trivial)
    intro x y hx hy _
    rw [(mem_fibre.mp hx).2, (mem_fibre.mp hy).2]
    simp
  have hkept : (fibre key k xs).Sublist (sortOn key xs) := by
    refine List.sublist_mergeSort ?_ ?_ htied List.filter_sublist
    · intro x y z hxy hyz
      simp only [decide_eq_true_eq] at hxy hyz ⊢
      exact hxy.trans hyz
    · intro x y
      simp [le_total]
  have hfibre : (fibre key k xs).Sublist (fibre key k (sortOn key xs)) := by
    have hself : fibre key k (fibre key k xs) = fibre key k xs := by
      simp [fibre, List.filter_filter]
    rw [← hself]
    exact hkept.filter _
  have hlength : (fibre key k (sortOn key xs)).length = (fibre key k xs).length :=
    ((sortOn_perm key xs).filter _).length_eq
  exact (hfibre.eq_of_length hlength.symm).symm

/-- Sorted lists with the same fibres are equal. -/
theorem eq_of_sorted_of_fibre {key : α → κ} {xs ys : List α}
    (hxs : Sorted key xs) (hys : Sorted key ys)
    (hfibre : ∀ k, fibre key k xs = fibre key k ys) :
    xs = ys := by
  induction xs generalizing ys with
  | nil =>
      cases ys with
      | nil =>
          rfl
      | cons y ys =>
          have hy := hfibre (key y)
          rw [fibre_cons_self] at hy
          cases hy
  | cons x xs ih =>
      cases ys with
      | nil =>
          have hx := hfibre (key x)
          rw [fibre_cons_self] at hx
          cases hx
      | cons y ys =>
          obtain ⟨hxmin, hxtail⟩ := List.pairwise_cons.mp hxs
          obtain ⟨hymin, hytail⟩ := List.pairwise_cons.mp hys
          -- each head occurs in the other list, so neither key is below the other
          have hx : x ∈ fibre key (key x) (y :: ys) := by
            rw [← hfibre, fibre_cons_self]
            exact List.mem_cons_self
          have hy : y ∈ fibre key (key y) (x :: xs) := by
            rw [hfibre, fibre_cons_self]
            exact List.mem_cons_self
          have hyx : key y ≤ key x := by
            rcases List.mem_cons.mp (mem_fibre.mp hx).1 with rfl | h
            · exact le_rfl
            · exact hymin x h
          have hxy : key x ≤ key y := by
            rcases List.mem_cons.mp (mem_fibre.mp hy).1 with rfl | h
            · exact le_rfl
            · exact hxmin y h
          have hkey : key y = key x := le_antisymm hyx hxy
          have hheads := hfibre (key x)
          rw [fibre_cons_self, ← hkey, fibre_cons_self, List.cons.injEq] at hheads
          obtain ⟨rfl, -⟩ := hheads
          congr 1
          refine ih hxtail hytail fun k => ?_
          by_cases hk : key x = k
          · subst hk
            have htails := hfibre (key x)
            rw [fibre_cons_self, fibre_cons_self, List.cons.injEq] at htails
            exact htails.2
          · have htails := hfibre k
            rwa [fibre_cons_of_ne hk, fibre_cons_of_ne hk] at htails

/-- What the sort gives is decided by the fibres. -/
theorem sortOn_congr {key : α → κ} {xs ys : List α}
    (hfibre : ∀ k, fibre key k xs = fibre key k ys) :
    sortOn key xs = sortOn key ys := by
  refine eq_of_sorted_of_fibre (sorted_sortOn key xs) (sorted_sortOn key ys) fun k => ?_
  rw [fibre_sortOn, fibre_sortOn, hfibre]

/-- Permuted lists without ties have the same fibres. -/
theorem fibre_eq_of_perm {key : α → κ} {xs ys : List α}
    (hperm : xs.Perm ys) (hties : xs.Pairwise fun x y => key x ≠ key y) (k : κ) :
    fibre key k xs = fibre key k ys := by
  have hfibres : (fibre key k xs).Perm (fibre key k ys) := hperm.filter _
  have hshort : (fibre key k xs).length ≤ 1 := by
    have hdistinct : (fibre key k xs).Pairwise fun x y => key x ≠ key y :=
      hties.sublist List.filter_sublist
    cases hcase : fibre key k xs with
    | nil =>
        simp
    | cons x rest =>
        cases rest with
        | nil =>
            simp
        | cons y rest =>
            rw [hcase, List.pairwise_cons] at hdistinct
            have hx : x ∈ fibre key k xs := by simp [hcase]
            have hy : y ∈ fibre key k xs := by simp [hcase]
            refine absurd ?_ (hdistinct.1 y List.mem_cons_self)
            rw [(mem_fibre.mp hx).2, (mem_fibre.mp hy).2]
  cases hcase : fibre key k xs with
  | nil =>
      rw [hcase] at hfibres
      rw [List.nil_perm.mp hfibres]
  | cons x rest =>
      rw [hcase, List.length_cons] at hshort
      have hrest : rest = [] := List.length_eq_zero_iff.mp (by omega)
      rw [hcase, hrest] at hfibres
      rw [hrest, List.singleton_perm.mp hfibres]

/-- The first element of a sorted list has the least key. -/
theorem head_le {key : α → κ} {x : α} {xs : List α}
    (h : Sorted key (x :: xs)) :
    ∀ y ∈ x :: xs, key x ≤ key y := by
  intro y hy
  rcases List.mem_cons.mp hy with rfl | hy
  · exact le_rfl
  · exact (List.pairwise_cons.mp h).1 y hy

end StableSort
