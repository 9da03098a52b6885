import MqSentinel.NativeHaDiagnosis

/-!
# Counting findings by title

The checks of a matcher put a title of their own in front of what they report.  Where no
title begins another one, the findings of a whole run can be counted check by check.
-/

namespace MqSentinel
namespace FindingTitles

open Rcs MqSentinel.NativeHa

/-- The findings with a title. -/
def under (title : String) (findings : List RCSFinding) : List RCSFinding :=
  findings.filter fun f => (lit title).isPrefixOf f.issue

/-- The number of findings with a title. -/
def titledCount (title : String) (findings : List RCSFinding) : Nat :=
  findings.countP fun f => (lit title).isPrefixOf f.issue

/-- Neither title begins the other one. -/
def Apart (title other : String) : Prop :=
  ¬ lit title <+: lit other ∧ ¬ lit other <+: lit title

instance (title other : String) : Decidable (Apart title other) :=
  inferInstanceAs (Decidable (_ ∧ _))

@[simp] theorem under_append
    (title : String) (xs ys : List RCSFinding) :
    under title (xs ++ ys) = under title xs ++ under title ys := by
  exact List.filter_append xs ys

theorem length_under
    (title : String) (findings : List RCSFinding) :
    (under title findings).length = titledCount title findings := by
  exact List.countP_eq_length_filter.symm

@[simp] theorem titledCount_append
    (title : String) (xs ys : List RCSFinding) :
    titledCount title (xs ++ ys) = titledCount title xs + titledCount title ys := by
  exact List.countP_append

theorem under_of_titled
    {title : String} {findings : List RCSFinding} (h : Titled title findings) :
    under title findings = findings := by
  rw [under, List.filter_eq_self]
  intro f hf
  rw [List.isPrefixOf_iff_prefix]
  exact h f hf

theorem titledCount_of_titled
    {title : String} {findings : List RCSFinding} (h : Titled title findings) :
    titledCount title findings = findings.length := by
  rw [← length_under, under_of_titled h]

/-- Every finding has one of the titles. -/
def TitledIn (titles : List String) (findings : List RCSFinding) : Prop :=
  ∀ f ∈ findings, ∃ title ∈ titles, lit title <+: f.issue

theorem titledIn_singleton
    {title : String} {findings : List RCSFinding} (h : Titled title findings) :
    TitledIn [title] findings := by
  intro f hf
  exact ⟨title, by simp, h f hf⟩

theorem under_of_apart
    {title : String} {titles : List String} {findings : List RCSFinding}
    (h : TitledIn titles findings) (hapart : ∀ other ∈ titles, Apart other title) :
    under title findings = [] := by
  rw [under, List.filter_eq_nil_iff]
  intro f hf hissue
  rw [List.isPrefixOf_iff_prefix] at hissue
  obtain ⟨other, hother, hprefix⟩ := h f hf
  rcases List.prefix_or_prefix_of_prefix hprefix hissue with hle | hle
  · exact (hapart other hother).1 hle
  · exact (hapart other hother).2 hle

theorem titledCount_of_apart
    {title : String} {titles : List String} {findings : List RCSFinding}
    (h : TitledIn titles findings) (hapart : ∀ other ∈ titles, Apart other title) :
    titledCount title findings = 0 := by
  rw [← length_under, under_of_apart h hapart]
  rfl

/-- The findings of each check, under the titles of the check. -/
abbrev Parts := List (List String × List RCSFinding)

/-- The titles of one check are apart from those of another. -/
def TitlesApart (titles : List (List String)) : Prop :=
  titles.Pairwise fun ss ts => ∀ s ∈ ss, ∀ t ∈ ts, Apart s t

instance (titles : List (List String)) : Decidable (TitlesApart titles) :=
  inferInstanceAs (Decidable (List.Pairwise _ _))

theorem Apart.symm
    {title other : String} (h : Apart title other) :
    Apart other title := by
  exact ⟨h.2, h.1⟩

/-- Where no check has a title of another one, a title is found in its own check. -/
theorem under_parts
    {parts : Parts} (htitled : ∀ p ∈ parts, TitledIn p.1 p.2)
    (hapart : TitlesApart (parts.map Prod.fst))
    {p : List String × List RCSFinding} (hp : p ∈ parts) {title : String} (ht : title ∈ p.1) :
    under title (parts.flatMap Prod.snd) = under title p.2 := by
  have hrest : ∀ qs : Parts, (∀ q ∈ qs, TitledIn q.1 q.2) →
      (∀ q ∈ qs, ∀ other ∈ q.1, Apart other title) →
      under title (qs.flatMap Prod.snd) = [] := by
    intro qs
    induction qs with
    | nil =>
        intro _ _
        rfl
    | cons q qs ih =>
        intro hqs haparts
        rw [List.flatMap_cons, under_append,
          under_of_apart (hqs q (by simp)) (haparts q (by simp)), List.nil_append]
        exact ih (fun r hr => hqs r (by simp [hr])) (fun r hr => haparts r (by simp [hr]))
  induction parts with
  | nil =>
      cases hp
  | cons q qs ih =>
      obtain ⟨hfirst, hothers⟩ := List.pairwise_cons.mp hapart
      rw [List.flatMap_cons, under_append]
      rcases List.mem_cons.mp hp with rfl | hp
      · rw [hrest qs (fun r hr => htitled r (by simp [hr])) fun r hr other hother =>
          (hfirst r.1 (List.mem_map_of_mem hr) title ht other hother).symm, List.append_nil]
      · rw [under_of_apart (htitled q (by simp)) fun other hother =>
          hfirst p.1 (List.mem_map_of_mem hp) other hother title ht, List.nil_append]
        exact ih (fun r hr => htitled r (by simp [hr])) hothers hp

theorem titledCount_parts
    {parts : Parts} (htitled : ∀ p ∈ parts, TitledIn p.1 p.2)
    (hapart : TitlesApart (parts.map Prod.fst))
    {p : List String × List RCSFinding} (hp : p ∈ parts) {title : String} (ht : title ∈ p.1) :
    titledCount title (parts.flatMap Prod.snd) = titledCount title p.2 := by
  rw [← length_under, under_parts htitled hapart hp ht, length_under]

/-- An integer of the evidence. -/
def evidenceInt (evidence : Health.Evidence) (key : String) : Int :=
  match evidence.get? (lit key) with
  | some (.int n) => n
  | _ => 0

/-- A truth value of the evidence. -/
def evidenceBool (evidence : Health.Evidence) (key : String) : Bool :=
  match evidence.get? (lit key) with
  | some (.bool b) => b
  | _ => false

/-- A text of the evidence. -/
def evidenceStr (evidence : Health.Evidence) (key : String) : PyStr :=
  match evidence.get? (lit key) with
  | some (.str s) => s
  | _ => []

section Evidence

variable {ps : List (PyStr × Sanitizer.PyValue)} {key : String}

theorem evidenceInt_of_mem
    {n : Int} (h : (ps.map Prod.fst).Nodup) (hmem : (lit key, .int n) ∈ ps) :
    evidenceInt (OrderedDict.ofList ps) key = n := by
  rw [evidenceInt, OrderedDict.get?_ofList_of_mem h hmem]

theorem evidenceBool_of_mem
    {b : Bool} (h : (ps.map Prod.fst).Nodup) (hmem : (lit key, .bool b) ∈ ps) :
    evidenceBool (OrderedDict.ofList ps) key = b := by
  rw [evidenceBool, OrderedDict.get?_ofList_of_mem h hmem]

theorem evidenceStr_of_mem
    {s : PyStr} (h : (ps.map Prod.fst).Nodup) (hmem : (lit key, .str s) ∈ ps) :
    evidenceStr (OrderedDict.ofList ps) key = s := by
  rw [evidenceStr, OrderedDict.get?_ofList_of_mem h hmem]

end Evidence

/-- A title in front of the issue of every finding. -/
theorem titled_filterMap
    {α : Type*} {title : String} {f : α → Option RCSFinding}
    (h : ∀ a finding, f a = some finding → lit title <+: finding.issue) (xs : List α) :
    Titled title (xs.filterMap f) := by
  intro finding hfinding
  obtain ⟨a, -, ha⟩ := List.mem_filterMap.mp hfinding
  exact h a finding ha

end FindingTitles
end MqSentinel
