import Mathlib.Data.List.Basic
import Mathlib.Data.List.Nodup
import Mathlib.Tactic

/-!
# Insertion-ordered dictionaries

A dictionary is the list of its items in insertion order, and no key occurs
twice.  Assigning to a key that is present replaces the value where it stands;
assigning to a new key appends.  This is the `dict` of Python, and the order is
part of the value.
-/

namespace MqSentinel

universe u v

/-- Items in insertion order, every key once. -/
structure OrderedDict (κ : Type u) (ν : Type v) where
  items : List (κ × ν)
  nodup : (items.map Prod.fst).Nodup

namespace OrderedDict

variable {κ : Type u} {ν : Type v}

@[ext] theorem ext
    {d e : OrderedDict κ ν} (h : d.items = e.items) :
    d = e := by
  cases d
  cases e
  simp only [mk.injEq]
  exact h

instance [DecidableEq κ] [DecidableEq ν] : DecidableEq (OrderedDict κ ν) :=
  fun d e => decidable_of_iff (d.items = e.items) ⟨ext, fun h => by rw [h]⟩

/-- The empty dictionary. -/
def empty : OrderedDict κ ν :=
  ⟨[], List.nodup_nil⟩

/-- The keys in insertion order. -/
def keys (d : OrderedDict κ ν) : List κ :=
  d.items.map Prod.fst

/-- The values in insertion order. -/
def values (d : OrderedDict κ ν) : List ν :=
  d.items.map Prod.snd

/-- Truth value: a dictionary is false when it is empty. -/
def nonempty (d : OrderedDict κ ν) : Bool :=
  !d.items.isEmpty

variable [DecidableEq κ]

/-- `d.get(k)`. -/
def get? (d : OrderedDict κ ν) (k : κ) : Option ν :=
  (d.items.find? fun p => p.1 = k).map Prod.snd

/-- Assignment on the items of a dictionary. -/
def assign (k : κ) (v : ν) : List (κ × ν) → List (κ × ν)
  | [] => [(k, v)]
  | p :: ps => if p.1 = k then (k, v) :: ps else p :: assign k v ps

/-- What is left after `d.pop(k, None)`. -/
def erase (d : OrderedDict κ ν) (k : κ) : OrderedDict κ ν :=
  ⟨d.items.filter fun p => p.1 ≠ k,
    d.nodup.sublist (List.filter_sublist.map Prod.fst)⟩

theorem items_erase
    (d : OrderedDict κ ν) (k : κ) :
    (d.erase k).items = d.items.filter fun p => p.1 ≠ k := by
  rfl

theorem map_fst_assign
    (k : κ) (v : ν) (ps : List (κ × ν)) :
    (assign k v ps).map Prod.fst =
      if k ∈ ps.map Prod.fst then ps.map Prod.fst else ps.map Prod.fst ++ [k] := by
  induction ps with
  | nil =>
      simp [assign]
  | cons p ps ih =>
      by_cases hp : p.1 = k
      · subst hp
        simp [assign]
      · have hk : ¬ k = p.1 := fun h => hp h.symm
        simp only [assign, hp, if_false, List.map_cons, ih, List.mem_cons, hk, false_or]
        split_ifs <;> rfl

theorem nodup_assign
    (k : κ) (v : ν) {ps : List (κ × ν)}
    (h : (ps.map Prod.fst).Nodup) :
    ((assign k v ps).map Prod.fst).Nodup := by
  rw [map_fst_assign]
  split_ifs with hk
  · exact h
  · exact List.nodup_append.mpr
      ⟨h, by simp, fun a ha b hb => by
        rintro rfl
        rw [List.mem_singleton.mp hb] at ha
        exact hk ha⟩

/-- `d[k] = v`. -/
def set (d : OrderedDict κ ν) (k : κ) (v : ν) : OrderedDict κ ν :=
  ⟨assign k v d.items, nodup_assign k v d.nodup⟩

/-- `d.setdefault(k, v)`: a key that is present keeps its value. -/
def setDefault (d : OrderedDict κ ν) (k : κ) (v : ν) : OrderedDict κ ν :=
  if k ∈ d.keys then d else d.set k v

/-- `d.update(e)`. -/
def update (d e : OrderedDict κ ν) : OrderedDict κ ν :=
  e.items.foldl (fun d p => d.set p.1 p.2) d

/-- The dictionary built from a list of assignments. -/
def ofList (ps : List (κ × ν)) : OrderedDict κ ν :=
  ps.foldl (fun d p => d.set p.1 p.2) empty

theorem assign_of_not_mem
    {k : κ} (v : ν) {ps : List (κ × ν)}
    (h : k ∉ ps.map Prod.fst) :
    assign k v ps = ps ++ [(k, v)] := by
  induction ps with
  | nil =>
      rfl
  | cons p ps ih =>
      simp only [List.map_cons, List.mem_cons, not_or] at h
      have hp : ¬ p.1 = k := fun hk => h.1 hk.symm
      simp [assign, hp, ih h.2]

/-- A dictionary with an entry is true. -/
theorem nonempty_set
    (d : OrderedDict κ ν) (k : κ) (v : ν) :
    (d.set k v).nonempty = true := by
  have hassign : ∀ ps : List (κ × ν), assign k v ps ≠ [] := by
    intro ps
    cases ps with
    | nil =>
        simp [assign]
    | cons p ps =>
        rw [assign]
        split_ifs <;> simp
  simpa [nonempty, set] using hassign d.items

/-- Assigning to a new key appends. -/
theorem items_set_of_not_mem
    {d : OrderedDict κ ν} {k : κ} (v : ν)
    (h : k ∉ d.keys) :
    (d.set k v).items = d.items ++ [(k, v)] :=
  assign_of_not_mem v h

/-- Assigning fresh keys one after another appends the items in order. -/
theorem items_foldl_set_of_nodup
    (ps : List (κ × ν)) :
    ∀ d : OrderedDict κ ν,
      (d.keys ++ ps.map Prod.fst).Nodup →
      (ps.foldl (fun d p => d.set p.1 p.2) d).items = d.items ++ ps := by
  induction ps with
  | nil =>
      intro d _
      simp
  | cons p ps ih =>
      intro d h
      have hp : p.1 ∉ d.keys := by
        intro hmem
        have hdisj := (List.nodup_append.mp h).2.2
        exact hdisj p.1 hmem p.1 (by simp) rfl
      have hitems : (d.set p.1 p.2).items = d.items ++ [p] :=
        items_set_of_not_mem p.2 hp
      have hkeys : (d.set p.1 p.2).keys ++ ps.map Prod.fst =
          d.keys ++ (p :: ps).map Prod.fst := by
        simp [keys, hitems]
      rw [List.foldl_cons, ih _ (by rw [hkeys]; exact h), hitems]
      simp

theorem items_ofList_of_nodup
    {ps : List (κ × ν)} (h : (ps.map Prod.fst).Nodup) :
    (ofList ps).items = ps := by
  have := items_foldl_set_of_nodup ps (empty : OrderedDict κ ν)
    (by simpa [keys, empty] using h)
  simpa [ofList, empty] using this

/-- Updating with a dictionary assigns its items in order. -/
theorem update_ofList
    (d : OrderedDict κ ν) {ps : List (κ × ν)} (h : (ps.map Prod.fst).Nodup) :
    d.update (ofList ps) = ps.foldl (fun d p => d.set p.1 p.2) d := by
  rw [update, items_ofList_of_nodup h]

theorem ofList_append
    (ps qs : List (κ × ν)) :
    ofList (ps ++ qs) = qs.foldl (fun d p => d.set p.1 p.2) (ofList ps) := by
  rw [ofList, List.foldl_append]
  rfl

/-- A default is stored unless the key has that value already. -/
theorem mem_values_setDefault
    {d : OrderedDict κ ν} {key : ν → κ} {v w : ν}
    (hkeys : ∀ p ∈ d.items, p.1 = key p.2)
    (hinj : ∀ u ∈ d.values, key u = key v → u = v) :
    w ∈ (d.setDefault (key v) v).values ↔ w ∈ d.values ∨ w = v := by
  unfold setDefault
  split_ifs with hmem
  · obtain ⟨p, hp, hpv⟩ := List.mem_map.mp hmem
    have hvalue : p.2 ∈ d.values := List.mem_map.mpr ⟨p, hp, rfl⟩
    have hsame : p.2 = v := hinj p.2 hvalue (by rw [← hkeys p hp, hpv])
    refine ⟨Or.inl, ?_⟩
    rintro (hw | rfl)
    · exact hw
    · rwa [← hsame]
  · simp [values, items_set_of_not_mem v hmem]

/-- Defaults under keys that tell the values apart store every value. -/
theorem mem_values_foldl_setDefault
    {key : ν → κ} {w : ν} (vs : List ν) :
    ∀ d : OrderedDict κ ν,
      (∀ p ∈ d.items, p.1 = key p.2) →
      (∀ u ∈ d.values ++ vs, ∀ v ∈ d.values ++ vs, key u = key v → u = v) →
      (w ∈ (vs.foldl (fun d v => d.setDefault (key v) v) d).values ↔
        w ∈ d.values ∨ w ∈ vs) := by
  induction vs with
  | nil =>
      intro d _ _
      simp
  | cons v vs ih =>
      intro d hkeys hinj
      have hstep : ∀ u, u ∈ (d.setDefault (key v) v).values ↔ u ∈ d.values ∨ u = v :=
        fun u => mem_values_setDefault hkeys fun u hu =>
          hinj u (by simp [hu]) v (by simp)
      have hkeys' : ∀ p ∈ (d.setDefault (key v) v).items, p.1 = key p.2 := by
        intro p hp
        unfold setDefault at hp
        split_ifs at hp with hmem
        · exact hkeys p hp
        · rw [items_set_of_not_mem v hmem, List.mem_append, List.mem_singleton] at hp
          rcases hp with hp | rfl
          · exact hkeys p hp
          · rfl
      have hback : ∀ u ∈ (d.setDefault (key v) v).values ++ vs, u ∈ d.values ++ v :: vs := by
        intro u hu
        rw [List.mem_append, hstep u] at hu
        simp only [List.mem_append, List.mem_cons]
        tauto
      rw [List.foldl_cons, ih _ hkeys' fun u hu u' hu' =>
        hinj u (hback u hu) u' (hback u' hu'), hstep w, List.mem_cons, or_assoc]

theorem find?_assign
    (k j : κ) (v : ν) (ps : List (κ × ν)) :
    ((assign k v ps).find? fun p => p.1 = j).map Prod.snd =
      if j = k then some v else (ps.find? fun p => p.1 = j).map Prod.snd := by
  induction ps with
  | nil =>
      by_cases hj : j = k
      · simp [assign, hj]
      · have hk : ¬ k = j := fun h => hj h.symm
        simp [assign, hj, hk]
  | cons p ps ih =>
      by_cases hp : p.1 = k
      · by_cases hj : j = k
        · simp [assign, hp, hj]
        · have hk : ¬ k = j := fun h => hj h.symm
          simp [assign, hp, hj, hk]
      · by_cases hpj : p.1 = j
        · have hj : ¬ j = k := fun h => hp (hpj.trans h)
          simp [assign, hpj, hj]
        · simp only [assign, hp, if_false, List.find?_cons, hpj, decide_false]
          exact ih

/-- Reading after writing. -/
@[simp] theorem get?_set
    (d : OrderedDict κ ν) (k j : κ) (v : ν) :
    (d.set k v).get? j = if j = k then some v else d.get? j :=
  find?_assign k j v d.items

theorem mem_items_of_get?
    {d : OrderedDict κ ν} {k : κ} {v : ν}
    (h : d.get? k = some v) :
    (k, v) ∈ d.items := by
  obtain ⟨p, hp, rfl⟩ := Option.map_eq_some_iff.mp h
  have hk : p.1 = k := by simpa using List.find?_some hp
  have := List.mem_of_find?_eq_some hp
  rwa [← hk]

theorem get?_eq_some_iff
    {d : OrderedDict κ ν} {k : κ} {v : ν} :
    d.get? k = some v ↔ (k, v) ∈ d.items := by
  refine ⟨mem_items_of_get?, fun hmem => ?_⟩
  have hpair : d.items.Pairwise fun p q => p.1 ≠ q.1 := List.pairwise_map.mp d.nodup
  have hfind : d.items.find? (fun p => p.1 = k) = some (k, v) := by
    obtain ⟨front, back, hsplit⟩ := List.append_of_mem hmem
    rw [hsplit] at hpair ⊢
    have hfront : ∀ p ∈ front, ¬ p.1 = k := by
      intro p hp
      exact (List.pairwise_append.mp hpair).2.2 p hp (k, v) (by simp)
    rw [List.find?_append, List.find?_eq_none.mpr (by simpa using hfront)]
    simp
  rw [get?, hfind]
  rfl

/-- Reading a dictionary that is written out. -/
theorem get?_ofList_of_mem
    {ps : List (κ × ν)} (h : (ps.map Prod.fst).Nodup) {k : κ} {v : ν} (hmem : (k, v) ∈ ps) :
    (ofList ps).get? k = some v := by
  rwa [get?_eq_some_iff, items_ofList_of_nodup h]

theorem mem_assign
    {k : κ} {v : ν} {p : κ × ν} {ps : List (κ × ν)}
    (h : p ∈ assign k v ps) :
    p = (k, v) ∨ p ∈ ps := by
  induction ps with
  | nil =>
      exact Or.inl (List.mem_singleton.mp h)
  | cons q ps ih =>
      by_cases hq : q.1 = k
      · simp only [assign, hq, if_true, List.mem_cons] at h
        rcases h with h | h
        · exact Or.inl h
        · exact Or.inr (List.mem_cons_of_mem _ h)
      · simp only [assign, hq, if_false, List.mem_cons] at h
        rcases h with h | h
        · exact Or.inr (by simp [h])
        · exact (ih h).imp_right (List.mem_cons_of_mem _)

/-- A dictionary built from assignments holds nothing else. -/
theorem mem_of_mem_ofList
    {p : κ × ν} {ps : List (κ × ν)}
    (h : p ∈ (ofList ps).items) :
    p ∈ ps := by
  have hfold : ∀ (qs : List (κ × ν)) (d : OrderedDict κ ν),
      p ∈ (qs.foldl (fun d q => d.set q.1 q.2) d).items → p ∈ d.items ∨ p ∈ qs := by
    intro qs
    induction qs with
    | nil =>
        intro d hd
        exact Or.inl hd
    | cons q qs ih =>
        intro d hd
        rcases ih _ hd with hd | hd
        · rcases mem_assign hd with rfl | hd
          · exact Or.inr (by simp)
          · exact Or.inl hd
        · exact Or.inr (List.mem_cons_of_mem _ hd)
  rcases hfold ps empty h with hp | hp
  · cases hp
  · exact hp

end OrderedDict

end MqSentinel
