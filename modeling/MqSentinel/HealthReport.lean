import MqSentinel.PyCollections
import MqSentinel.RcsEngine
import MqSentinel.SanitizerPipeline
import MqSentinel.StableSort

/-!
# The composite health report

`full_mq_health_check` runs three checks one after another, collects the findings of
those that return, sorts them and sums them up.  Here the outcome of every check is
given; the checks themselves are in `HealthChecks`.

The report is the envelope before it is sanitized, without the topology and the clock
readings, which nothing in it depends on.
-/

namespace MqSentinel
namespace Health

open Rcs Sanitizer StableSort

/-- The evidence of a check. -/
abbrev Evidence := OrderedDict PyStr PyValue

/-- What a check returns, or the name of the class of its exception. -/
abbrev CheckOutcome := Except PyStr (List RCSFinding × Evidence)

/-- A finding with its category. -/
abbrev Tagged := PyStr × RCSFinding

/-- An entry of `checks_skipped`. -/
structure Skipped where
  category : PyStr
  error : PyStr
deriving DecidableEq

/-- `_SEVERITY_RANK` -/
def severityRanks : OrderedDict PyStr Nat :=
  ⟨[ (Severity.critical.value, 0), (Severity.high.value, 1), (Severity.medium.value, 2),
     (Severity.low.value, 3), (Severity.info.value, 4) ], by decide⟩

/-- `_CATEGORY_RANK` -/
def categoryRanks : OrderedDict PyStr Nat :=
  ⟨[(lit "channels", 0), (lit "dlq", 1), (lit "cluster", 2)], by decide⟩

/-- `_finding_sort_key`; texts are compared code point by code point. -/
def findingSortKey (item : Tagged) : Nat ×ₗ Nat ×ₗ List Nat :=
  toLex ((severityRanks.get? item.2.severity.value).getD 99,
    toLex ((categoryRanks.get? item.1).getD 99, item.2.issue.map CodePoint.val))

/-- The lists that the checks fill. -/
structure Progress where
  checksRun : List PyStr := []
  checksSkipped : List Skipped := []
  allFindings : List Tagged := []
  categoryEvidence : OrderedDict PyStr Evidence := .empty

/-- `_safe_run`: the findings and the evidence, and the two lists as it leaves them. -/
def safeRun (name : PyStr) (fn : CheckOutcome)
    (checksRun : List PyStr) (checksSkipped : List Skipped) :
    (List RCSFinding × Option Evidence) × List PyStr × List Skipped :=
  match fn with
  | .error exc => (([], none), checksRun, checksSkipped ++ [⟨name, exc⟩])
  | .ok (findings, evidence) => ((findings, some evidence), checksRun ++ [name], checksSkipped)

/-- One category of `full_mq_health_check`. -/
def addCategory (name : PyStr) (fn : CheckOutcome) (p : Progress) : Progress :=
  match safeRun name fn p.checksRun p.checksSkipped with
  | ((_, none), run, skipped) => { p with checksRun := run, checksSkipped := skipped }
  | ((findings, some evidence), run, skipped) =>
      { checksRun := run
        checksSkipped := skipped
        allFindings := p.allFindings ++ findings.map fun f => (name, f)
        categoryEvidence := p.categoryEvidence.set name evidence }

/-- The outcomes of the three checks. -/
structure Outcomes where
  channels : CheckOutcome
  dlq : CheckOutcome
  cluster : CheckOutcome

/-- The three checks in their order. -/
def runChecks (o : Outcomes) : Progress :=
  addCategory (lit "cluster") o.cluster
    (addCategory (lit "dlq") o.dlq (addCategory (lit "channels") o.channels {}))

/-- An entry of `top_issues`. -/
structure TopIssue where
  severity : PyStr
  category : PyStr
  issue : PyStr
deriving DecidableEq

structure Summary where
  totalFindings : Nat
  overallStatus : PyStr
  bySeverity : OrderedDict PyStr Nat
  byCategory : OrderedDict PyStr Nat
  topIssues : List TopIssue
deriving DecidableEq

/-- `overall` in `_build_summary`. -/
def overallStatus (bySeverity : OrderedDict PyStr Nat) : PyStr :=
  if (bySeverity.get? (lit "CRITICAL")).getD 0 ≠ 0 then lit "CRITICAL"
  else if (bySeverity.get? (lit "HIGH")).getD 0 ≠ 0 then lit "HIGH"
  else if (bySeverity.get? (lit "MEDIUM")).getD 0 ≠ 0 then lit "MEDIUM"
  else if (bySeverity.get? (lit "LOW")).getD 0 ≠ 0 then lit "LOW"
  else lit "OK"

/-- The entry of a finding in `top_issues`. -/
def topIssue (item : Tagged) : TopIssue :=
  ⟨item.2.severity.value, item.1, item.2.issue⟩

/-- `_build_summary` -/
def buildSummary (sortedFindings : List Tagged) : Summary :=
  let bySeverity := counter (sortedFindings.map fun item => item.2.severity.value)
  let byCategory := counter (sortedFindings.map Prod.fst)
  { totalFindings := bySeverity.values.sum
    overallStatus := overallStatus bySeverity
    bySeverity := tally severityRanks.keys bySeverity
    byCategory := tally categoryRanks.keys byCategory
    topIssues := (sortedFindings.take 5).map topIssue }

structure Report where
  summary : Summary
  findings : List Tagged
  rawEvidence : OrderedDict PyStr Evidence
  checksRun : List PyStr
  checksSkipped : List Skipped

/-- The report on the outcomes of the three checks. -/
def reportOn (o : Outcomes) : Report :=
  let p := runChecks o
  let sortedFindings := sortOn findingSortKey p.allFindings
  { summary := buildSummary sortedFindings
    findings := sortedFindings
    rawEvidence := p.categoryEvidence
    checksRun := p.checksRun
    checksSkipped := p.checksSkipped }

section Progress

/-- The categories with their outcomes. -/
def Outcomes.entries (o : Outcomes) : List (PyStr × CheckOutcome) :=
  [(lit "channels", o.channels), (lit "dlq", o.dlq), (lit "cluster", o.cluster)]

/-- The findings of a category, tagged; none if its check raised. -/
def taggedFindings (entry : PyStr × CheckOutcome) : List Tagged :=
  match entry.2 with
  | .ok (findings, _) => findings.map fun f => (entry.1, f)
  | .error _ => []

/-- The name of a category whose check returned. -/
def ranName (entry : PyStr × CheckOutcome) : List PyStr :=
  match entry.2 with
  | .ok _ => [entry.1]
  | .error _ => []

/-- The entry of a category whose check raised. -/
def skippedEntry (entry : PyStr × CheckOutcome) : List Skipped :=
  match entry.2 with
  | .ok _ => []
  | .error exc => [⟨entry.1, exc⟩]

theorem addCategory_checksRun (name : PyStr) (fn : CheckOutcome) (p : Progress) :
    (addCategory name fn p).checksRun = p.checksRun ++ ranName (name, fn) := by
  cases fn <;> simp [addCategory, safeRun, ranName]

theorem addCategory_checksSkipped (name : PyStr) (fn : CheckOutcome) (p : Progress) :
    (addCategory name fn p).checksSkipped = p.checksSkipped ++ skippedEntry (name, fn) := by
  cases fn <;> simp [addCategory, safeRun, skippedEntry]

theorem addCategory_allFindings (name : PyStr) (fn : CheckOutcome) (p : Progress) :
    (addCategory name fn p).allFindings = p.allFindings ++ taggedFindings (name, fn) := by
  cases fn <;> simp [addCategory, safeRun, taggedFindings]

theorem runChecks_checksRun (o : Outcomes) :
    (runChecks o).checksRun = o.entries.flatMap ranName := by
  simp [runChecks, addCategory_checksRun, Outcomes.entries]

theorem runChecks_checksSkipped (o : Outcomes) :
    (runChecks o).checksSkipped = o.entries.flatMap skippedEntry := by
  simp [runChecks, addCategory_checksSkipped, Outcomes.entries]

theorem runChecks_allFindings (o : Outcomes) :
    (runChecks o).allFindings = o.entries.flatMap taggedFindings := by
  simp [runChecks, addCategory_allFindings, Outcomes.entries]

/-- A category has run or is skipped, and not both. -/
theorem ran_or_skipped (entries : List (PyStr × CheckOutcome)) :
    (entries.flatMap ranName ++ (entries.flatMap skippedEntry).map Skipped.category).Perm
      (entries.map Prod.fst) := by
  induction entries with
  | nil =>
      exact List.Perm.nil
  | cons entry entries ih =>
      obtain ⟨name, outcome⟩ := entry
      cases outcome with
      | ok returned =>
          simpa [ranName, skippedEntry] using ih
      | error exc =>
          have hmiddle : (entries.flatMap ranName ++
              name :: (entries.flatMap skippedEntry).map Skipped.category).Perm
                (name :: (entries.flatMap ranName ++
                  (entries.flatMap skippedEntry).map Skipped.category)) :=
            List.perm_middle
          simpa [ranName, skippedEntry] using hmiddle.trans (ih.cons name)

theorem mem_category_of_mem_allFindings
    {o : Outcomes} {item : Tagged} (h : item ∈ o.entries.flatMap taggedFindings) :
    item.1 ∈ categoryRanks.keys := by
  obtain ⟨⟨name, outcome⟩, hentry, hitem⟩ := List.mem_flatMap.mp h
  have hname : item.1 = name := by
    cases outcome with
    | ok returned =>
        obtain ⟨f, -, rfl⟩ := List.mem_map.mp hitem
        rfl
    | error exc =>
        cases hitem
  have hkeys : categoryRanks.keys = o.entries.map Prod.fst := rfl
  rw [hname, hkeys]
  exact List.mem_map_of_mem hentry

end Progress

section Summary

theorem value_mem_severityRanks (s : Severity) :
    s.value ∈ severityRanks.keys := by
  cases s <;> decide

theorem value_injective : Function.Injective Severity.value := by
  intro s t h
  cases s <;> cases t <;> first | rfl | exact absurd h (by decide)

/-- The rank of a severity. -/
def rank : Severity → Nat
  | .critical => 0
  | .high => 1
  | .medium => 2
  | .low => 3
  | .info => 4

theorem severityRanks_get? (s : Severity) :
    (severityRanks.get? s.value).getD 99 = rank s := by
  cases s <;> decide

/-- The count of a severity is not zero when it occurs. -/
theorem count_severity_ne_zero_iff (items : List Tagged) (s : Severity) :
    ((counter (items.map fun item => item.2.severity.value)).get? s.value).getD 0 ≠ 0 ↔
      ∃ item ∈ items, item.2.severity = s := by
  rw [getD_counter_ne_zero_iff, List.mem_map]
  exact exists_congr fun item => and_congr_right fun _ => value_injective.eq_iff

/-- The overall status as a cascade over what occurs. -/
theorem overallStatus_counter (items : List Tagged) :
    overallStatus (counter (items.map fun item => item.2.severity.value)) =
      open Classical in
      if ∃ item ∈ items, item.2.severity = .critical then Severity.critical.value
      else if ∃ item ∈ items, item.2.severity = .high then Severity.high.value
      else if ∃ item ∈ items, item.2.severity = .medium then Severity.medium.value
      else if ∃ item ∈ items, item.2.severity = .low then Severity.low.value
      else lit "OK" := by
  simp only [← count_severity_ne_zero_iff]
  rfl

theorem rank_le_of_sortKey_le
    {x y : Tagged} (h : findingSortKey x ≤ findingSortKey y) :
    rank x.2.severity ≤ rank y.2.severity := by
  simp only [findingSortKey, Prod.Lex.toLex_le_toLex, severityRanks_get?] at h
  rcases h with h | ⟨h, -⟩
  · exact h.le
  · exact h.le

/-- The status is `OK` when there is nothing above `INFO`. -/
theorem overallStatus_eq_ok_iff (items : List Tagged) :
    overallStatus (counter (items.map fun item => item.2.severity.value)) = lit "OK" ↔
      ∀ item ∈ items, item.2.severity = .info := by
  rw [overallStatus_counter]
  constructor
  · intro h item hitem
    split_ifs at h with hcritical hhigh hmedium hlow
    · exact absurd h (by decide)
    · exact absurd h (by decide)
    · exact absurd h (by decide)
    · exact absurd h (by decide)
    · cases hs : item.2.severity with
      | critical => exact absurd ⟨item, hitem, hs⟩ hcritical
      | high => exact absurd ⟨item, hitem, hs⟩ hhigh
      | medium => exact absurd ⟨item, hitem, hs⟩ hmedium
      | low => exact absurd ⟨item, hitem, hs⟩ hlow
      | info => rfl
  · intro h
    have hnone : ∀ s, s ≠ Severity.info → ¬ ∃ item ∈ items, item.2.severity = s := by
      rintro s hs ⟨item, hitem, rfl⟩
      exact hs (h item hitem)
    simp [hnone]

/-- Of sorted findings the first has the overall status, unless it is of severity `INFO`. -/
theorem overallStatus_of_sorted
    {first : Tagged} {rest : List Tagged}
    (hsorted : Sorted findingSortKey (first :: rest)) (hinfo : first.2.severity ≠ .info) :
    overallStatus (counter ((first :: rest).map fun item => item.2.severity.value)) =
      first.2.severity.value := by
  have hleast : ∀ item ∈ first :: rest, rank first.2.severity ≤ rank item.2.severity :=
    fun item hitem => rank_le_of_sortKey_le (head_le hsorted item hitem)
  have hoccurs : ∃ item ∈ first :: rest, item.2.severity = first.2.severity :=
    ⟨first, List.mem_cons_self, rfl⟩
  -- no severity with a smaller rank occurs
  have hnone : ∀ s, rank s < rank first.2.severity →
      ¬ ∃ item ∈ first :: rest, item.2.severity = s := by
    rintro s hs ⟨item, hitem, rfl⟩
    exact absurd (hleast item hitem) (not_le.mpr hs)
  rw [overallStatus_counter]
  cases hs : first.2.severity with
  | critical =>
      rw [hs] at hoccurs
      rw [if_pos hoccurs]
  | high =>
      rw [hs] at hoccurs hnone
      rw [if_neg (hnone _ (by decide)), if_pos hoccurs]
  | medium =>
      rw [hs] at hoccurs hnone
      rw [if_neg (hnone _ (by decide)), if_neg (hnone _ (by decide)), if_pos hoccurs]
  | low =>
      rw [hs] at hoccurs hnone
      rw [if_neg (hnone _ (by decide)), if_neg (hnone _ (by decide)),
        if_neg (hnone _ (by decide)), if_pos hoccurs]
  | info =>
      exact absurd hs hinfo

end Summary

section Report

/-- What the report owes to the outcomes of the checks. -/
structure Accounts (o : Outcomes) (r : Report) : Prop where
  partitions :
    (r.checksRun ++ r.checksSkipped.map Skipped.category).Perm
      [lit "channels", lit "dlq", lit "cluster"]
  ran : r.checksRun = o.entries.flatMap ranName
  skipped : r.checksSkipped = o.entries.flatMap skippedEntry
  complete : r.findings.Perm (o.entries.flatMap taggedFindings)
  sorted : Sorted findingSortKey r.findings
  stable : ∀ k, fibre findingSortKey k r.findings =
    fibre findingSortKey k (o.entries.flatMap taggedFindings)
  total : r.summary.totalFindings = r.findings.length
  severities : r.summary.bySeverity.values.sum = r.findings.length
  categories : r.summary.byCategory.values.sum = r.findings.length
  top : r.summary.topIssues = (r.findings.take (min 5 r.findings.length)).map topIssue
  status : ∀ first rest, r.findings = first :: rest → first.2.severity ≠ .info →
    r.summary.overallStatus = first.2.severity.value
  ok : r.summary.overallStatus = lit "OK" ↔ ∀ item ∈ r.findings, item.2.severity = .info

/-- The report neither loses, duplicates nor misorders findings. -/
theorem report_accounts (o : Outcomes) : Accounts o (reportOn o) where
  partitions := by
    have hperm := ran_or_skipped o.entries
    rw [← runChecks_checksRun, ← runChecks_checksSkipped] at hperm
    exact hperm
  ran := runChecks_checksRun o
  skipped := runChecks_checksSkipped o
  complete := by
    rw [← runChecks_allFindings]
    exact sortOn_perm _ _
  sorted := sorted_sortOn _ _
  stable := by
    intro k
    rw [← runChecks_allFindings]
    exact fibre_sortOn _ k _
  total := by
    simp [reportOn, buildSummary, sum_values_counter]
  severities := by
    have hmem : ∀ x ∈ (reportOn o).findings.map fun item => item.2.severity.value,
        x ∈ severityRanks.keys := by
      intro x hx
      obtain ⟨item, -, rfl⟩ := List.mem_map.mp hx
      exact value_mem_severityRanks _
    exact (sum_tally severityRanks.nodup hmem).trans (List.length_map _)
  categories := by
    have hmem : ∀ x ∈ (reportOn o).findings.map Prod.fst, x ∈ categoryRanks.keys := by
      intro x hx
      obtain ⟨item, hitem, rfl⟩ := List.mem_map.mp hx
      refine mem_category_of_mem_allFindings (o := o) ?_
      rw [← runChecks_allFindings]
      exact (sortOn_perm _ _).mem_iff.mp hitem
    exact (sum_tally categoryRanks.nodup hmem).trans (List.length_map _)
  top := by
    rw [← List.take_take, List.take_length]
    rfl
  status := by
    intro first rest hfirst hinfo
    have hsorted : Sorted findingSortKey (reportOn o).findings := sorted_sortOn _ _
    rw [hfirst] at hsorted
    have hstatus := overallStatus_of_sorted hsorted hinfo
    rw [← hfirst] at hstatus
    exact hstatus
  ok := overallStatus_eq_ok_iff (reportOn o).findings

end Report

end Health
end MqSentinel
