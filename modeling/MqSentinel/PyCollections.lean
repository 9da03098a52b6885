import Mathlib.Algebra.BigOperators.Group.Finset.Basic
import MqSentinel.OrderedDict

/-!
# Grouping and counting

`collections.Counter` and `defaultdict(list)`, filled from a list.  Both keep their keys
in the order of first occurrence.  What stands under a key is a scan of the list for
that key (`get?_groupBy`, `get?_counter`), whatever the order.
-/

namespace MqSentinel

universe u v

variable {α : Type u} {κ : Type v} [DecidableEq κ]

/-- A `defaultdict(list)` filled by appending every element under its key. -/
def groupBy (key : α → κ) (xs : List α) : OrderedDict κ (List α) :=
  xs.foldl (fun groups x => groups.set (key x) ((groups.get? (key x)).getD [] ++ [x]))
    OrderedDict.empty

/-- A `Counter` of the elements of a list. -/
def counter (xs : List κ) : OrderedDict κ Nat :=
  xs.foldl (fun counts x => counts.set x ((counts.get? x).getD 0 + 1)) OrderedDict.empty

/-- `Counter.most_common(n)`: falling counts, equal ones in the order of first occurrence. -/
def mostCommon (counts : OrderedDict κ Nat) (n : Nat) : List (κ × Nat) :=
  (counts.items.mergeSort fun p q => q.2 ≤ p.2).take n

theorem groupBy_concat
    (key : α → κ) (xs : List α) (x : α) :
    groupBy key (xs ++ [x]) =
      (groupBy key xs).set (key x) (((groupBy key xs).get? (key x)).getD [] ++ [x]) := by
  simp [groupBy, List.foldl_append]

theorem counter_concat
    (xs : List κ) (x : κ) :
    counter (xs ++ [x]) = (counter xs).set x (((counter xs).get? x).getD 0 + 1) := by
  simp [counter, List.foldl_append]

/-- Under a key stand the elements with that key, in their order. -/
theorem get?_groupBy
    (key : α → κ) (xs : List α) (k : κ) :
    (groupBy key xs).get? k =
      if xs.filter (fun x => key x = k) = [] then none
      else some (xs.filter fun x => key x = k) := by
  induction xs using List.reverseRecOn with
  | nil =>
      rfl
  | append_singleton xs x ih =>
      rw [groupBy_concat, OrderedDict.get?_set]
      by_cases hk : k = key x
      · subst hk
        rw [if_pos rfl, ih]
        by_cases hnil : xs.filter (fun y => key y = key x) = []
        · simp [hnil]
        · simp [hnil]
      · have hx : ¬ key x = k := fun h => hk h.symm
        simp [hk, hx, ih]

/-- The items are the keys that occur, each with a scan for it. -/
theorem mem_items_groupBy
    {key : α → κ} {xs : List α} {k : κ} {group : List α} :
    (k, group) ∈ (groupBy key xs).items ↔
      (∃ x ∈ xs, key x = k) ∧ group = xs.filter fun x => key x = k := by
  rw [← OrderedDict.get?_eq_some_iff, get?_groupBy]
  have hoccurs : (∃ x ∈ xs, key x = k) ↔ ¬ xs.filter (fun x => key x = k) = [] := by
    simp
  rw [hoccurs]
  split_ifs with hnil
  · simp [hnil]
  · rw [Option.some_inj, and_iff_right hnil]
    exact eq_comm

/-- The items are the keys in the order of first occurrence, each with a scan for it. -/
theorem items_groupBy (key : α → κ) (xs : List α) :
    (groupBy key xs).items =
      (groupBy key xs).keys.map fun k => (k, xs.filter fun x => key x = k) := by
  rw [OrderedDict.keys, List.map_map]
  refine (List.map_id _).symm.trans (List.map_congr_left fun p hp => ?_)
  have hgroup : p.2 = xs.filter fun x => key x = p.1 :=
    (mem_items_groupBy.mp hp).2
  exact Prod.ext rfl hgroup

theorem mem_keys_groupBy
    {key : α → κ} {xs : List α} {k : κ} :
    k ∈ (groupBy key xs).keys ↔ ∃ x ∈ xs, key x = k := by
  rw [OrderedDict.keys, List.mem_map]
  constructor
  · rintro ⟨p, hp, rfl⟩
    exact (mem_items_groupBy.mp hp).1
  · intro hk
    exact ⟨(k, _), mem_items_groupBy.mpr ⟨hk, rfl⟩, rfl⟩

/-- The order of the elements decides the order of the keys only. -/
theorem keys_groupBy_perm
    {key : α → κ} {xs ys : List α} (h : xs.Perm ys) :
    (groupBy key xs).keys.Perm (groupBy key ys).keys := by
  refine (List.perm_ext_iff_of_nodup (groupBy key xs).nodup (groupBy key ys).nodup).mpr ?_
  intro k
  refine mem_keys_groupBy.trans (Iff.trans ?_ mem_keys_groupBy.symm)
  simp only [h.mem_iff]

/-- What is made of the groups does not depend on the order of the elements. -/
theorem filterMap_groupBy_perm
    {β : Type*} {key : α → κ} {f : κ × List α → Option β}
    (hf : ∀ k group group', group.Perm group' → f (k, group) = f (k, group'))
    {xs ys : List α} (h : xs.Perm ys) :
    ((groupBy key xs).items.filterMap f).Perm ((groupBy key ys).items.filterMap f) := by
  rw [items_groupBy, items_groupBy, List.filterMap_map, List.filterMap_map]
  have hgroups : f ∘ (fun k => (k, xs.filter fun x => key x = k)) =
      f ∘ fun k => (k, ys.filter fun x => key x = k) :=
    funext fun k => hf k _ _ (h.filter _)
  rw [hgroups]
  exact (keys_groupBy_perm h).filterMap _

/-- Under a key stands the number of its occurrences. -/
theorem get?_counter
    (xs : List κ) (k : κ) :
    (counter xs).get? k = if k ∈ xs then some (xs.count k) else none := by
  induction xs using List.reverseRecOn with
  | nil =>
      rfl
  | append_singleton xs x ih =>
      rw [counter_concat, OrderedDict.get?_set]
      by_cases hk : k = x
      · subst hk
        rw [if_pos rfl, ih]
        by_cases hmem : k ∈ xs
        · simp [hmem]
        · simp [hmem, List.count_eq_zero_of_not_mem hmem]
      · have hx : ¬ x = k := fun h => hk h.symm
        simp [hk, hx, ih]

/-- Counting one more adds one to the sum of the counts. -/
theorem sum_assign_succ
    (k : κ) {ps : List (κ × Nat)} (h : (ps.map Prod.fst).Nodup) :
    ((OrderedDict.assign k
        (((ps.find? fun p => p.1 = k).map Prod.snd).getD 0 + 1) ps).map Prod.snd).sum =
      (ps.map Prod.snd).sum + 1 := by
  induction ps with
  | nil =>
      rfl
  | cons p ps ih =>
      by_cases hp : p.1 = k
      · simp [OrderedDict.assign, hp]
        omega
      · have htail := ih (List.nodup_cons.mp h).2
        simp only [OrderedDict.assign, hp, if_false, List.find?_cons, decide_false,
          List.map_cons, List.sum_cons, htail]
        omega

/-- The counts add up to the number of elements. -/
theorem sum_values_counter (xs : List κ) :
    (counter xs).values.sum = xs.length := by
  induction xs using List.reverseRecOn with
  | nil =>
      rfl
  | append_singleton xs x ih =>
      have hadd := sum_assign_succ x (counter xs).nodup
      rw [counter_concat, List.length_append, ← ih]
      exact hadd

/-- Over keys that hold every element the counts add up to the number of elements. -/
theorem sum_count_of_nodup
    {keys xs : List κ} (hnodup : keys.Nodup) (hmem : ∀ x ∈ xs, x ∈ keys) :
    (keys.map fun k => xs.count k).sum = xs.length := by
  have hcard : ∑ k ∈ keys.toFinset, (xs : Multiset κ).count k = Multiset.card (xs : Multiset κ) :=
    Multiset.sum_count_eq_card fun x hx =>
      List.mem_toFinset.mpr (hmem x (Multiset.mem_coe.mp hx))
  rw [List.sum_toFinset _ hnodup] at hcard
  simpa using hcard

/-- A missing key counts as zero. -/
theorem getD_counter
    (xs : List κ) (k : κ) :
    ((counter xs).get? k).getD 0 = xs.count k := by
  rw [get?_counter]
  split_ifs with hmem
  · rfl
  · exact (List.count_eq_zero_of_not_mem hmem).symm

theorem getD_counter_ne_zero_iff
    {xs : List κ} {k : κ} :
    ((counter xs).get? k).getD 0 ≠ 0 ↔ k ∈ xs := by
  rw [getD_counter, Ne, List.count_eq_zero, not_not]

/-- The counts under given keys: `{k: counts.get(k, 0) for k in keys}` -/
def tally (keys : List κ) (counts : OrderedDict κ Nat) : OrderedDict κ Nat :=
  OrderedDict.ofList (keys.map fun k => (k, (counts.get? k).getD 0))

/-- Under the keys stand the scans for them. -/
theorem values_tally
    {keys : List κ} (h : keys.Nodup) (xs : List κ) :
    (tally keys (counter xs)).values = keys.map fun k => xs.count k := by
  have hkeys : (keys.map fun k => (k, ((counter xs).get? k).getD 0)).map Prod.fst = keys := by
    simp [Function.comp_def]
  rw [OrderedDict.values, tally,
    OrderedDict.items_ofList_of_nodup (by rw [hkeys]; exact h), List.map_map]
  exact List.map_congr_left fun k _ => getD_counter xs k

/-- Keys that hold every element count every element. -/
theorem sum_tally
    {keys xs : List κ} (h : keys.Nodup) (hmem : ∀ x ∈ xs, x ∈ keys) :
    (tally keys (counter xs)).values.sum = xs.length := by
  rw [values_tally h, sum_count_of_nodup h hmem]

/-- A stable sort puts the first of the least elements in front. -/
theorem head?_mergeSort
    (le : α → α → Bool) (htrans : ∀ a b c, le a b → le b c → le a c)
    (htotal : ∀ a b, le a b || le b a) (xs : List α) :
    (xs.mergeSort le).head? = xs.find? fun x => xs.all fun y => le x y := by
  induction xs with
  | nil =>
      simp
  | cons a xs ih =>
      obtain ⟨front, back, hsort, htail, hfront⟩ := List.mergeSort_cons htrans htotal a xs
      have hself : le a a = true := by
        simpa using htotal a a
      cases front with
      | nil =>
          have hsorted : (a :: back).Pairwise fun x y => le x y = true := by
            have h := List.pairwise_mergeSort htrans htotal (a :: xs)
            rwa [hsort] at h
          have hleast : ∀ y ∈ xs, le a y = true := by
            intro y hy
            rw [← List.mem_mergeSort, htail] at hy
            exact List.rel_of_pairwise_cons hsorted hy
          have hall : ((a :: xs).all fun y => le a y) = true := by
            simpa [hself] using hleast
          rw [hsort, List.find?_cons, hall]
          rfl
      | cons b front =>
          have hba : le b a = true := by
            have hab := hfront b (List.mem_cons_self)
            have h := htotal a b
            simp_all
          have hbxs : b ∈ xs := by
            rw [← List.mem_mergeSort, htail]
            simp
          have hagree : ∀ x, ((a :: xs).all fun y => le x y) = xs.all fun y => le x y := by
            intro x
            rw [List.all_cons, Bool.and_eq_right_iff_imp]
            intro hx
            exact htrans x b a (List.all_eq_true.mp hx b hbxs) hba
          have hnot : (xs.all fun y => le a y) = false := by
            refine List.all_eq_false.mpr ⟨b, hbxs, ?_⟩
            simpa using hfront b List.mem_cons_self
          rw [hsort, List.find?_cons, hagree a, hnot]
          simp only [hagree]
          rw [← ih, htail]
          rfl

/-- The first of the most frequent elements of a list. -/
def mostFrequent (xs : List κ) : Option κ :=
  xs.find? fun x => xs.all fun y => xs.count y ≤ xs.count x

theorem mostFrequent_eq_none_iff
    {xs : List κ} :
    mostFrequent xs = none ↔ xs = [] := by
  have hhead := head?_mergeSort (fun x y => decide (xs.count y ≤ xs.count x))
    (by simp; omega) (by simp; omega) xs
  rw [mostFrequent, ← hhead, List.head?_eq_none_iff, ← List.length_eq_zero_iff,
    List.length_mergeSort, List.length_eq_zero_iff]

/-- An element that is kept is the most frequent one of those that are kept. -/
theorem mostFrequent_filter
    {xs : List κ} {x : κ} {p : κ → Bool} (h : mostFrequent xs = some x) (hx : p x = true) :
    mostFrequent (xs.filter p) = some x := by
  obtain ⟨hmax, front, back, hxs, hfront⟩ := List.find?_eq_some_iff_append.mp h
  have hcount : ∀ y, p y = true → (xs.filter p).count y = xs.count y := fun y hy =>
    List.count_filter hy
  simp only [List.all_eq_true, decide_eq_true_eq] at hmax
  rw [mostFrequent, List.find?_filter, List.find?_eq_some_iff_append]
  refine ⟨?_, front, back, hxs, ?_⟩
  · simp only [hx, true_and, List.all_eq_true, decide_eq_true_eq, List.mem_filter]
    intro y hy
    rw [hcount y hy.2, hcount x hx]
    exact hmax y hy.1
  · intro a ha
    have hlow := hfront a ha
    rw [Bool.not_eq_true', List.all_eq_false] at hlow
    obtain ⟨y, hy, hlow⟩ := hlow
    rw [Bool.not_eq_true', decide_eq_false_iff_not]
    rintro ⟨hpa, hbest⟩
    have hxa := List.all_eq_true.mp hbest x (List.mem_filter.mpr ⟨by rw [hxs]; simp, hx⟩)
    have hyx := hmax y hy
    rw [hcount x hx, hcount a hpa] at hxa
    simp only [decide_eq_true_eq] at hlow hxa
    omega

/-- The items of a counter are the elements in the order of first occurrence. -/
theorem items_counter (xs : List κ) :
    (counter xs).items = (counter xs).keys.map fun k => (k, xs.count k) := by
  rw [OrderedDict.keys, List.map_map]
  refine (List.map_id _).symm.trans (List.map_congr_left fun p hp => ?_)
  have hp' := OrderedDict.get?_eq_some_iff.mpr hp
  rw [get?_counter] at hp'
  split_ifs at hp' with hmem
  exact Prod.ext rfl (Option.some_inj.mp hp').symm

theorem keys_counter_concat
    (xs : List κ) (x : κ) :
    (counter (xs ++ [x])).keys =
      if x ∈ (counter xs).keys then (counter xs).keys else (counter xs).keys ++ [x] := by
  rw [counter_concat]
  exact OrderedDict.map_fst_assign _ _ _

theorem mem_keys_counter
    {xs : List κ} {k : κ} :
    k ∈ (counter xs).keys ↔ k ∈ xs := by
  induction xs using List.reverseRecOn with
  | nil =>
      rfl
  | append_singleton xs x ih =>
      rw [keys_counter_concat]
      split_ifs with hx
      · rw [ih, List.mem_append, List.mem_singleton]
        constructor
        · exact Or.inl
        · rintro (hk | rfl)
          · exact hk
          · exact ih.mp hx
      · simp [ih]

/-- A search in the keys of a counter is a search in the list. -/
theorem find?_keys_counter
    (xs : List κ) (p : κ → Bool) :
    (counter xs).keys.find? p = xs.find? p := by
  induction xs using List.reverseRecOn with
  | nil =>
      rfl
  | append_singleton xs x ih =>
      rw [keys_counter_concat]
      split_ifs with hx
      · rw [List.find?_append, ih]
        rw [mem_keys_counter] at hx
        cases hfind : xs.find? p with
        | some y =>
            rfl
        | none =>
            have hpx := List.find?_eq_none.mp hfind x hx
            simp [hpx]
      · rw [List.find?_append, List.find?_append, ih]

/-- `counts.most_common(1)` -/
theorem mostCommon_counter (xs : List κ) :
    mostCommon (counter xs) 1 = ((mostFrequent xs).map fun x => (x, xs.count x)).toList := by
  have hhead := head?_mergeSort (fun p q : κ × Nat => decide (q.2 ≤ p.2))
    (by simp; omega) (by simp; omega) (counter xs).items
  have hall : ∀ x, ((counter xs).keys.all fun y => decide (xs.count y ≤ xs.count x)) =
      xs.all fun y => decide (xs.count y ≤ xs.count x) := by
    intro x
    rw [Bool.eq_iff_iff, List.all_eq_true, List.all_eq_true]
    simp only [mem_keys_counter]
  rw [mostCommon, List.take_one, hhead, items_counter, List.find?_map]
  simp only [Function.comp_def, List.all_map, hall]
  rw [find?_keys_counter]
  rfl

end MqSentinel
