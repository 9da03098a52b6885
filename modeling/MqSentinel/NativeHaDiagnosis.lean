import MqSentinel.HealthChecks
import MqSentinel.NativeHaMatcher
import MqSentinel.RegexSearch

/-!
# The Native HA diagnosis

`run_native_ha_checks` sends two queries: the rows of the instances, and the reply about
the recovery group, which is searched with three regular expressions.  A query that
raises counts as an empty answer.  The counts of the evidence are made from the rows
again, beside those of the matcher; `Agrees` compares them with the findings.

The matcher returns early only when there is neither a row nor a recovery group.  With a
recovery group alone it looks for an active instance among no rows.
-/

namespace MqSentinel
namespace NativeHa

open Regex Rcs CodePoint
open Rcs.NativeHa

section Parser

/-- `LABEL\s*\(\s*(value)\s*\)`, ignoring case. -/
def parenthesised (label : String) (value : Rx CodePoint) : Gx Nat CodePoint :=
  let blanks : Gx Nat CodePoint := .plain (Rx.star (Rx.cls isSpace))
  Gx.seqs
    [ .plain (ciRx label), blanks, .plain (litRx "("), blanks, .group 1 value, blanks,
      .plain (litRx ")") ]

/-- `[A-Z0-9._%/]`, ignoring case. -/
def isGroupChar (c : CodePoint) : Bool :=
  c.reFold.isLowerAscii || c.isDigitAscii || (lit "._%/").contains c

variable (U : UnicodeData)

/-- `_CRR_LAG_RE` -/
def crrLag : Gx Nat CodePoint :=
  parenthesised "REPLICATIONLAG" (Rx.plus (Rx.cls U.isdecimal))

/-- `_RG_RE` -/
def recoveryGroup : Gx Nat CodePoint :=
  parenthesised "RECOVERYGROUP" (Rx.plus (Rx.cls isGroupChar))

/-- `_CRR_ROLE_RE` -/
def crrRole : Gx Nat CodePoint :=
  parenthesised "RGROLE" (Rx.plus (Rx.cls fun c => c.reFold.isLowerAscii))

/-- `m.group(1)` -/
def group1 (m : Match Nat CodePoint) : PyStr :=
  (m.group 1).getD []

/-- `m.group(1) if m else ""` -/
def textOf (m : Option (Match Nat CodePoint)) : PyStr :=
  (m.map group1).getD []

/-- `int(lag_m.group(1)) if lag_m else 0` -/
def lagSeconds (lagM : Option (Match Nat CodePoint)) : Option Int :=
  match lagM with
  | none => some 0
  | some m => PyInt.ofStr U (group1 m)

/-- The dictionary of `_parse_crr`. -/
def crrRow (group : PyStr) (lag : Int) (role : PyStr) : Row :=
  OrderedDict.ofList
    [ (lit "enabled", .bool true), (lit "recovery_group", .str group),
      (lit "lag_seconds", .int lag), (lit "role", .str role) ]

/-- `_parse_crr`; the outer `none` is the `ValueError` of a number with too many digits. -/
def parseCrr (raw : PyStr) : Option (Option Row) :=
  if raw = [] then some none
  else
    let rgM := recoveryGroup.search raw
    let lagM := (crrLag U).search raw
    if rgM = none ∧ lagM = none then some none
    else
      (lagSeconds U lagM).map fun lag =>
        some (crrRow (textOf rgM) lag (textOf (crrRole.search raw)))

end Parser

section Tool

variable (U : UnicodeData) (registry : KCRegistry) (mqVersion : Option PyStr)

/-- `NativeHACheckResult` -/
structure NativeHACheckResult where
  findings : List RCSFinding
  rawEvidence : Health.Evidence

/-- The rows of the instances. -/
def instances (connector : Health.Connector) : List Row :=
  Health.safeRows connector (lit "DISPLAY NATIVEHASTATUS")

/-- `rg_raw` -/
def rgRaw (connector : Health.Connector) : PyStr :=
  Health.safeRaw connector (lit "DISPLAY QMSTATUS RECOVERYGROUP")

/-- `raw` in `run_native_ha_checks`. -/
def rawData (rows : List Row) (crr : Option Row) : RawData where
  instances := rows
  quorumRequired := .int (if rows = [] then 0 else rows.length / 2 + 1 : Nat)
  crr := crr

/-- `bool(crr and crr.get("enabled"))` -/
def crrEnabled (crr : Option Row) : Bool :=
  crr.elim false fun fields => fields.nonempty && (fields.get "enabled").truthy

/-- `int((crr or {}).get("lag_seconds") or 0)` -/
def crrLagSeconds (crr : Option Row) : Option Int :=
  ((crr.getD OrderedDict.empty).get "lag_seconds" |>.orElse (.int 0)).toInt U

/-- `run_native_ha_checks`; `none` is an exception. -/
def runNativeHaChecks (connector : Health.Connector) : Option NativeHACheckResult := do
  let rows := instances connector
  let crr ← parseCrr U (rgRaw connector)
  let findings ← matchNativeHaFindings U registry mqVersion (rawData rows crr)
  let lag ← crrLagSeconds U crr
  return {
    findings := findings
    rawEvidence := OrderedDict.ofList
      [ (lit "instance_count", .int rows.length),
        (lit "in_sync_count", .int (rows.countP (isInSync U))),
        (lit "active_count", .int (rows.countP (isActive U))),
        (lit "crr_enabled", .bool (crrEnabled crr)),
        (lit "crr_lag_seconds", .int lag) ] }

end Tool

section Agreement

/-- A finding with this title has been returned. -/
def Reports (findings : List RCSFinding) (title : String) : Prop :=
  ∃ f ∈ findings, lit title <+: f.issue

/-- A count of the evidence. -/
def count (result : NativeHACheckResult) (key : String) : Int :=
  match result.rawEvidence.get? (lit key) with
  | some (.int n) => n
  | _ => 0

/-- The findings agree with the counts of the evidence. -/
structure Agrees (result : NativeHACheckResult) : Prop where
  quorum :
    Reports result.findings "Native HA quorum at risk: " ↔
      0 < count result "instance_count" ∧
        count result "in_sync_count" < count result "instance_count" / 2 + 1
  noActive :
    Reports result.findings "Native HA group has no ACTIVE instance" ↔
      0 < count result "instance_count" ∧ count result "active_count" = 0
  splitBrain :
    Reports result.findings "Native HA reports " ↔ 2 ≤ count result "active_count"
  idle :
    count result "instance_count" = 0 →
      ∀ f ∈ result.findings, lit "Cross-region replication lag is " <+: f.issue

variable (U : UnicodeData)

/-- The reply names a recovery group or a replication lag. -/
def Replicated (raw : PyStr) : Prop :=
  recoveryGroup.search raw ≠ none ∨ (crrLag U).search raw ≠ none

/-- The replication lag has no more digits than `int()` reads. -/
def LagReadable (raw : PyStr) : Prop :=
  ∀ m, (crrLag U).search raw = some m → (group1 m).length ≤ PyInt.maxStrDigits

end Agreement

section Titles

/-- All findings have this title. -/
def Titled (title : String) (findings : List RCSFinding) : Prop :=
  ∀ f ∈ findings, lit title <+: f.issue

/-- Findings with one title are not reported under another one. -/
theorem Titled.not_reports
    {title other : String} {findings : List RCSFinding} (h : Titled title findings)
    (hpre : ¬ lit title <+: lit other) (hpre' : ¬ lit other <+: lit title) :
    ¬ Reports findings other := by
  rintro ⟨f, hf, hother⟩
  rcases List.prefix_or_prefix_of_prefix (h f hf) hother with h | h
  · exact hpre h
  · exact hpre' h

theorem reports_append
    (xs ys : List RCSFinding) (title : String) :
    Reports (xs ++ ys) title ↔ Reports xs title ∨ Reports ys title := by
  simp only [Reports, List.mem_append, or_and_right, exists_or]

theorem Titled.reports_iff
    {title : String} {findings : List RCSFinding} (h : Titled title findings) :
    Reports findings title ↔ findings ≠ [] := by
  constructor
  · rintro ⟨f, hf, -⟩
    exact List.ne_nil_of_mem hf
  · intro hne
    obtain ⟨f, hf⟩ := List.exists_mem_of_ne_nil findings hne
    exact ⟨f, hf, h f hf⟩

variable (U : UnicodeData) (registry : KCRegistry) (mqVersion : Option PyStr)

theorem titled_checkReplicas (rows : List Row) :
    Titled "Native HA replica " (checkReplicas U registry mqVersion rows) := by
  intro f hf
  obtain ⟨row, -, hrow⟩ := List.mem_filterMap.mp hf
  split_ifs at hrow
  obtain rfl := Option.some_inj.mp hrow
  simp only [findingReplica, List.append_assoc]
  exact List.prefix_append _ _

theorem titled_checkLogReplayLag (rows : List Row) :
    Titled "Native HA replica " (checkLogReplayLag U registry mqVersion rows) := by
  intro f hf
  obtain ⟨row, -, hrow⟩ := List.mem_filterMap.mp hf
  unfold replayLag at hrow
  dsimp only at hrow
  split_ifs at hrow
  all_goals
    obtain rfl := Option.some_inj.mp hrow
    simp only [findingReplayLag, List.append_assoc]
    exact List.prefix_append _ _

theorem titled_checkCrrLag (crr : Option Row) :
    Titled "Cross-region replication lag is " (checkCrrLag U registry mqVersion crr) := by
  intro f hf
  cases crr with
  | none =>
      cases hf
  | some fields =>
      unfold checkCrrLag at hf
      dsimp only at hf
      split_ifs at hf
      · cases hf
      · cases hf
      · obtain rfl := List.mem_singleton.mp hf
        simp only [findingCrrLag, List.append_assoc]
        exact List.prefix_append _ _

/-- What `_check_quorum` returns, with the quorum that the tool passes. -/
def quorumPart (rows : List Row) : List RCSFinding :=
  if rows = [] ∨ rows.length / 2 + 1 ≤ rows.countP (isInSync U) then []
  else
    [findingQuorum registry mqVersion (rows.countP (isInSync U)) rows.length
      (rows.length / 2 + 1 : Nat)]

theorem titled_quorumPart (rows : List Row) :
    Titled "Native HA quorum at risk: " (quorumPart U registry mqVersion rows) := by
  intro f hf
  unfold quorumPart at hf
  split_ifs at hf
  · cases hf
  · obtain rfl := List.mem_singleton.mp hf
    simp only [findingQuorum, List.append_assoc]
    exact List.prefix_append _ _

theorem titles_checkActiveInstance (rows : List Row) :
    (Reports (checkActiveInstance U registry mqVersion rows)
        "Native HA group has no ACTIVE instance" ↔ rows.countP (isActive U) = 0) ∧
      (Reports (checkActiveInstance U registry mqVersion rows) "Native HA reports " ↔
        2 ≤ rows.countP (isActive U)) := by
  rw [checkActiveInstance, ← List.countP_eq_length_filter]
  match hactive : rows.countP (isActive U) with
  | 0 =>
      have htitle : Titled "Native HA group has no ACTIVE instance"
          [findingNoActive registry mqVersion rows.length] := by
        intro f hf
        rw [List.mem_singleton.mp hf]
        exact List.prefix_refl _
      have hother : ¬ Reports [findingNoActive registry mqVersion rows.length]
          "Native HA reports " := htitle.not_reports (by decide) (by decide)
      simp [htitle.reports_iff, hother]
  | 1 =>
      simp [Reports]
  | n + 2 =>
      have htitle : Titled "Native HA reports " [findingSplitBrain registry mqVersion (n + 2)] := by
        intro f hf
        rw [List.mem_singleton.mp hf]
        simp only [findingSplitBrain, List.append_assoc]
        exact List.prefix_append _ _
      have hother : ¬ Reports [findingSplitBrain registry mqVersion (n + 2)]
          "Native HA group has no ACTIVE instance" := htitle.not_reports (by decide) (by decide)
      simp [htitle.reports_iff, hother]

theorem not_quorum_checkActiveInstance (rows : List Row) :
    ¬ Reports (checkActiveInstance U registry mqVersion rows) "Native HA quorum at risk: " := by
  rw [checkActiveInstance]
  rintro ⟨f, hf, htitle⟩
  split at hf
  · rw [List.mem_singleton.mp hf] at htitle
    revert htitle
    simp only [findingNoActive]
    decide
  · cases hf
  · rw [List.mem_singleton.mp hf] at htitle
    simp only [findingSplitBrain, List.append_assoc] at htitle
    rcases List.prefix_or_prefix_of_prefix htitle (List.prefix_append _ _) with h | h
    · revert h
      decide
    · revert h
      decide

/-- The findings for some rows. -/
def findingsOf (rows : List Row) (crr : Option Row) : List RCSFinding :=
  quorumPart U registry mqVersion rows ++ checkActiveInstance U registry mqVersion rows ++
    checkReplicas U registry mqVersion rows ++ checkLogReplayLag U registry mqVersion rows ++
    checkCrrLag U registry mqVersion crr

/-- Each title comes from one check only. -/
theorem reports_findingsOf (rows : List Row) (crr : Option Row) :
    (Reports (findingsOf U registry mqVersion rows crr) "Native HA quorum at risk: " ↔
        quorumPart U registry mqVersion rows ≠ []) ∧
      (Reports (findingsOf U registry mqVersion rows crr)
        "Native HA group has no ACTIVE instance" ↔ rows.countP (isActive U) = 0) ∧
      (Reports (findingsOf U registry mqVersion rows crr) "Native HA reports " ↔
        2 ≤ rows.countP (isActive U)) := by
  have hquorum := titled_quorumPart U registry mqVersion rows
  have hreplicas := titled_checkReplicas U registry mqVersion rows
  have hreplay := titled_checkLogReplayLag U registry mqVersion rows
  have hcrr := titled_checkCrrLag U registry mqVersion crr
  have hothers : ∀ title ∈ ["Native HA quorum at risk: ",
      "Native HA group has no ACTIVE instance", "Native HA reports "],
        ¬ Reports (checkReplicas U registry mqVersion rows) title ∧
          ¬ Reports (checkLogReplayLag U registry mqVersion rows) title ∧
          ¬ Reports (checkCrrLag U registry mqVersion crr) title := by
    intro title htitle
    have hpre : ¬ lit "Native HA replica " <+: lit title ∧
        ¬ lit title <+: lit "Native HA replica " ∧
        ¬ lit "Cross-region replication lag is " <+: lit title ∧
        ¬ lit title <+: lit "Cross-region replication lag is " := by
      revert title
      decide
    exact ⟨hreplicas.not_reports hpre.1 hpre.2.1, hreplay.not_reports hpre.1 hpre.2.1,
      hcrr.not_reports hpre.2.2.1 hpre.2.2.2⟩
  obtain ⟨hnone, hmany⟩ := titles_checkActiveInstance U registry mqVersion rows
  simp only [findingsOf, reports_append]
  refine ⟨?_, ?_, ?_⟩
  · have h := hothers "Native HA quorum at risk: " (by simp)
    simp [h, hquorum.reports_iff, not_quorum_checkActiveInstance]
  · have h := hothers "Native HA group has no ACTIVE instance" (by simp)
    have hq : ¬ Reports (quorumPart U registry mqVersion rows)
        "Native HA group has no ACTIVE instance" := hquorum.not_reports (by decide) (by decide)
    simp only [h, hq, hnone, or_false, false_or]
  · have h := hothers "Native HA reports " (by simp)
    have hq : ¬ Reports (quorumPart U registry mqVersion rows) "Native HA reports " :=
      hquorum.not_reports (by decide) (by decide)
    simp only [h, hq, hmany, or_false, false_or]

end Titles

section Numbers

variable (U : UnicodeData)

/-- The number of a replication lag consists of decimal digits. -/
theorem decimal_group1
    {raw : PyStr} {m : Match Nat CodePoint} (h : (crrLag U).search raw = some m) :
    group1 m ≠ [] ∧ ∀ c ∈ group1 m, U.isdecimal c = true := by
  obtain ⟨pre, post, hm⟩ := Gx.exists_captures_of_searchFrom h
  have halways : 1 ∈ (crrLag U).always := by
    simp [crrLag, parenthesised, Gx.seqs, Gx.always]
  obtain ⟨w, hgroup⟩ := Gx.exists_group halways hm
  obtain ⟨r, hr, a, b, hlang⟩ := Gx.lang_of_mem_groups hm (Gx.mem_groups_of_group hgroup)
  have hnamed : (crrLag U).named = [(1, Rx.plus (Rx.cls U.isdecimal))] := rfl
  rw [hnamed, List.mem_singleton, Prod.mk.injEq] at hr
  obtain ⟨-, rfl⟩ := hr
  rw [group1, hgroup]
  exact (Rx.lang_plus_cls _ _ _ _).mp hlang

/-- The number of a match can be read exactly when it is short enough. -/
theorem isSome_lagSeconds_iff (raw : PyStr) :
    (lagSeconds U ((crrLag U).search raw)).isSome = true ↔ LagReadable U raw := by
  unfold LagReadable
  cases hlag : (crrLag U).search raw with
  | none =>
      simp [lagSeconds]
  | some m =>
      obtain ⟨hne, hdecimal⟩ := decimal_group1 U hlag
      rw [lagSeconds, PyInt.isSome_ofStr_iff U hdecimal hne]
      simp

theorem not_replicated_nil :
    ¬ Replicated U [] := by
  have hgroup : recoveryGroup.search [] = none := rfl
  have hlag : (crrLag U).search [] = none := rfl
  simp [Replicated, hgroup, hlag]

/-- What `_parse_crr` returns: nothing for a reply without a group and a lag. -/
theorem parseCrr_cases (raw : PyStr) :
    (¬ Replicated U raw ∧ parseCrr U raw = some none) ∨
      (Replicated U raw ∧ LagReadable U raw ∧
        ∃ group lag role, parseCrr U raw = some (some (crrRow group lag role))) ∨
      (Replicated U raw ∧ ¬ LagReadable U raw ∧ parseCrr U raw = none) := by
  by_cases hraw : raw = []
  · obtain rfl := hraw
    exact Or.inl ⟨not_replicated_nil U, rfl⟩
  · rw [parseCrr, if_neg hraw]
    dsimp only
    by_cases hnone : recoveryGroup.search raw = none ∧ (crrLag U).search raw = none
    · rw [if_pos hnone]
      exact Or.inl ⟨by simp [Replicated, hnone], rfl⟩
    · have hreplicated : Replicated U raw := not_and_or.mp hnone
      rw [if_neg hnone]
      by_cases hlag : LagReadable U raw
      · obtain ⟨lag, hsome⟩ :=
          Option.isSome_iff_exists.mp ((isSome_lagSeconds_iff U raw).mpr hlag)
        rw [hsome]
        exact Or.inr (Or.inl ⟨hreplicated, hlag, _, _, _, rfl⟩)
      · have hnone : lagSeconds U ((crrLag U).search raw) = none := by
          rw [← isSome_lagSeconds_iff, Bool.not_eq_true, Option.isSome_eq_false_iff,
            Option.isNone_iff_eq_none] at hlag
          exact hlag
        rw [hnone]
        exact Or.inr (Or.inr ⟨hreplicated, hlag, rfl⟩)

end Numbers

section Run

variable (U : UnicodeData) (registry : KCRegistry) (mqVersion : Option PyStr)

theorem toInt_rawData_quorum (rows : List Row) (hne : rows ≠ []) (crr : Option Row) :
    (((rawData rows crr).quorumRequired.orElse (.int (requiredQuorum rows.length))).toInt U) =
      some ((rows.length / 2 + 1 : Nat) : Int) := by
  have htruthy : (Cell.int (rows.length / 2 + 1 : Nat)).truthy = true := by
    simp only [Cell.truthy, bne_iff_ne]
    omega
  rw [rawData, if_neg hne, Cell.orElse, if_pos htruthy]
  rfl

theorem checkQuorum_rawData (rows : List Row) (crr : Option Row) :
    checkQuorum U registry mqVersion (rawData rows crr) =
      some (quorumPart U registry mqVersion rows) := by
  rw [checkQuorum, quorumPart]
  dsimp only
  by_cases hnil : rows = []
  · rw [if_pos (Or.inl hnil)]
    simp [rawData, hnil]
  · have hrows : (rawData rows crr).instances = rows := rfl
    rw [hrows, if_neg hnil, toInt_rawData_quorum U rows hnil, Option.map_some,
      ← List.countP_eq_length_filter]
    by_cases henough : rows.length / 2 + 1 ≤ rows.countP (isInSync U)
    · rw [if_pos (by exact_mod_cast henough), if_pos (Or.inr henough)]
    · rw [if_neg (by exact_mod_cast henough), if_neg (by simp [hnil, henough])]

/-- With a row or a recovery group every check is made. -/
theorem matchNativeHaFindings_rawData
    (rows : List Row) (crr : Option Row)
    (hcrr : rows = [] → ∃ fields, crr = some fields ∧ fields.nonempty = true) :
    matchNativeHaFindings U registry mqVersion (rawData rows crr) =
      some (findingsOf U registry mqVersion rows crr) := by
  have hgo : ¬ ((rawData rows crr).instances = [] ∧
      ((rawData rows crr).crr.elim false OrderedDict.nonempty) = false) := by
    rintro ⟨hnil, hempty⟩
    obtain ⟨fields, rfl, hfields⟩ := hcrr hnil
    rw [rawData, Option.elim_some, hfields] at hempty
    cases hempty
  rw [matchNativeHaFindings, if_neg hgo, checkQuorum_rawData]
  rfl

/-- The evidence of a run. -/
def evidenceOf (rows : List Row) (crr : Option Row) (lag : Int) : Health.Evidence :=
  OrderedDict.ofList
    [ (lit "instance_count", .int rows.length),
      (lit "in_sync_count", .int (rows.countP (isInSync U))),
      (lit "active_count", .int (rows.countP (isActive U))),
      (lit "crr_enabled", .bool (crrEnabled crr)),
      (lit "crr_lag_seconds", .int lag) ]

theorem counts_evidenceOf
    (findings : List RCSFinding) (rows : List Row) (crr : Option Row) (lag : Int) :
    count ⟨findings, evidenceOf U rows crr lag⟩ "instance_count" = rows.length ∧
      count ⟨findings, evidenceOf U rows crr lag⟩ "in_sync_count" = rows.countP (isInSync U) ∧
      count ⟨findings, evidenceOf U rows crr lag⟩ "active_count" = rows.countP (isActive U) := by
  have hnodup : [lit "instance_count", lit "in_sync_count", lit "active_count",
      lit "crr_enabled", lit "crr_lag_seconds"].Nodup := by
    decide
  have htotal : (evidenceOf U rows crr lag).get? (lit "instance_count") =
      some (.int rows.length) :=
    OrderedDict.get?_ofList_of_mem (by exact hnodup) (by simp)
  have hsync : (evidenceOf U rows crr lag).get? (lit "in_sync_count") =
      some (.int (rows.countP (isInSync U))) :=
    OrderedDict.get?_ofList_of_mem (by exact hnodup) (by simp)
  have hactive : (evidenceOf U rows crr lag).get? (lit "active_count") =
      some (.int (rows.countP (isActive U))) :=
    OrderedDict.get?_ofList_of_mem (by exact hnodup) (by simp)
  simp only [count, htotal, hsync, hactive, and_self]

/-- With rows the findings agree with the counts. -/
theorem agrees_findingsOf
    {rows : List Row} (hne : rows ≠ []) (crr : Option Row) (lag : Int) :
    Agrees ⟨findingsOf U registry mqVersion rows crr, evidenceOf U rows crr lag⟩ := by
  have hpos : 0 < rows.length := List.length_pos_iff.mpr hne
  obtain ⟨htotal, hsync, hactive⟩ :=
    counts_evidenceOf U (findingsOf U registry mqVersion rows crr) rows crr lag
  obtain ⟨hquorum, hnone, hmany⟩ := reports_findingsOf U registry mqVersion rows crr
  constructor
  · rw [htotal, hsync, hquorum, quorumPart]
    split_ifs with hcase
    · simp only [hne, false_or] at hcase
      simp only [ne_eq, not_true_eq_false, false_iff, not_and, not_lt]
      omega
    · simp only [hne, false_or] at hcase
      simp only [ne_eq, reduceCtorEq, not_false_eq_true, true_iff]
      omega
  · rw [htotal, hactive, hnone]
    omega
  · rw [hactive, hmany]
    omega
  · rw [htotal]
    intro hzero
    omega

/-- Without rows a recovery group leads to the finding about the active instance. -/
theorem not_agrees_without_rows (crr : Option Row) (lag : Int) :
    ¬ Agrees ⟨findingsOf U registry mqVersion [] crr, evidenceOf U [] crr lag⟩ := by
  intro hagrees
  obtain ⟨htotal, -, -⟩ :=
    counts_evidenceOf U (findingsOf U registry mqVersion [] crr) [] crr lag
  obtain ⟨-, hnone, -⟩ := reports_findingsOf U registry mqVersion [] crr
  have hpos := (hagrees.noActive.mp (hnone.mpr rfl)).1
  rw [htotal] at hpos
  simp at hpos

/-- Without rows and without a recovery group nothing is reported. -/
theorem agrees_nothing (lag : Int) :
    Agrees ⟨[], evidenceOf U [] none lag⟩ := by
  obtain ⟨htotal, -, hactive⟩ := counts_evidenceOf U [] [] none lag
  constructor
  · simp [Reports, htotal]
  · simp [Reports, htotal]
  · rw [hactive]
    simp [Reports]
  · intro _ f hf
    cases hf

theorem crrLagSeconds_crrRow (group : PyStr) (lag : Int) (role : PyStr) :
    crrLagSeconds U (some (crrRow group lag role)) = some lag := by
  have hget : (crrRow group lag role).get? (lit "lag_seconds") = some (.int lag) := by
    refine OrderedDict.get?_ofList_of_mem ?_ (by simp)
    show [lit "enabled", lit "recovery_group", lit "lag_seconds", lit "role"].Nodup
    decide
  rw [crrLagSeconds, Option.getD_some, Row.get, hget]
  exact Cell.toInt_orElse_zero U lag

/-- A run whose reply could be parsed, with a row or a recovery group. -/
theorem runNativeHaChecks_of_parse
    {connector : Health.Connector} {group : PyStr} {lag : Int} {role : PyStr}
    (hparse : parseCrr U (rgRaw connector) = some (some (crrRow group lag role))) :
    runNativeHaChecks U registry mqVersion connector =
      some ⟨findingsOf U registry mqVersion (instances connector)
          (some (crrRow group lag role)),
        evidenceOf U (instances connector) (some (crrRow group lag role)) lag⟩ := by
  have hmatch := matchNativeHaFindings_rawData U registry mqVersion
    (instances connector) (some (crrRow group lag role))
    (fun _ => ⟨_, rfl, rfl⟩)
  simp only [runNativeHaChecks, hparse, hmatch, crrLagSeconds_crrRow, Option.bind_eq_bind,
    Option.bind_some]
  rfl

/-- A recovery group without instance rows leads to a run that does not agree. -/
theorem not_agrees_of_replicated
    {connector : Health.Connector} (hrows : instances connector = [])
    (hyes : Replicated U (rgRaw connector)) :
    ¬ ∃ result, runNativeHaChecks U registry mqVersion connector = some result ∧
      Agrees result := by
  rintro ⟨result, hresult, hagrees⟩
  rcases parseCrr_cases U (rgRaw connector) with
    ⟨hno, -⟩ | ⟨-, -, group, lag, role, hparse⟩ | ⟨-, -, hparse⟩
  · exact hno hyes
  · rw [runNativeHaChecks_of_parse U registry mqVersion hparse] at hresult
    obtain rfl := Option.some_inj.mp hresult
    rw [hrows] at hagrees
    exact not_agrees_without_rows U registry mqVersion _ _ hagrees
  · simp only [runNativeHaChecks, hparse] at hresult
    cases hresult

/--
A run returns findings that agree with its counts exactly when the lag of the reply can be
read and, where no instance row was obtained, the reply names no recovery group.
-/
theorem counts_agree_iff (connector : Health.Connector) :
    (∃ result, runNativeHaChecks U registry mqVersion connector = some result ∧
        Agrees result) ↔
      LagReadable U (rgRaw connector) ∧
        (instances connector = [] → ¬ Replicated U (rgRaw connector)) := by
  by_cases hidle : instances connector = [] ∧ Replicated U (rgRaw connector)
  · exact iff_of_false (not_agrees_of_replicated U registry mqVersion hidle.1 hidle.2)
      fun h => h.2 hidle.1 hidle.2
  · have hcondition : instances connector = [] → ¬ Replicated U (rgRaw connector) :=
      fun hrows hyes => hidle ⟨hrows, hyes⟩
    rcases parseCrr_cases U (rgRaw connector) with
      ⟨hno, hparse⟩ | ⟨hyes, hlag, group, lag, role, hparse⟩ | ⟨-, hlag, hparse⟩
    · have hlag : LagReadable U (rgRaw connector) := by
        intro m hm
        exact absurd (Or.inr (by rw [hm]; simp)) hno
      refine iff_of_true ?_ ⟨hlag, hcondition⟩
      by_cases hrows : instances connector = []
      · refine ⟨⟨[], evidenceOf U [] none 0⟩, ?_, agrees_nothing U 0⟩
        simp only [runNativeHaChecks, hparse, hrows]
        rfl
      · have hmatch := matchNativeHaFindings_rawData U registry mqVersion
          (instances connector) none (fun h => absurd h hrows)
        refine ⟨_, ?_, agrees_findingsOf U registry mqVersion hrows none 0⟩
        simp only [runNativeHaChecks, hparse, hmatch, Option.bind_eq_bind, Option.bind_some]
        rfl
    · have hrows : instances connector ≠ [] := fun hrows => hcondition hrows hyes
      exact iff_of_true
        ⟨_, runNativeHaChecks_of_parse U registry mqVersion hparse,
          agrees_findingsOf U registry mqVersion hrows _ _⟩
        ⟨hlag, hcondition⟩
    · refine iff_of_false ?_ fun h => hlag h.1
      rintro ⟨result, hresult, -⟩
      simp only [runNativeHaChecks, hparse] at hresult
      cases hresult

end Run

section RecoveryOnly

/-- A connector that knows the recovery group only. -/
def recoveryOnly : Health.Connector where
  executeMqsc := fun command =>
    if command = lit "DISPLAY QMSTATUS RECOVERYGROUP" then
      .ok ⟨[], lit "RECOVERYGROUP(EAST) REPLICATIONLAG(5)"⟩
    else .error (lit "MQConnectionError")
  browseDlq := fun _ _ => .error (lit "MQConnectionError")

/-- No instance row was obtained, and an instance is missed. -/
theorem recovery_group_alone_disagrees :
    ¬ ∃ result,
        runNativeHaChecks UnicodeData.basic
          ⟨OrderedDict.empty, OrderedDict.empty, OrderedDict.empty⟩ none recoveryOnly =
            some result ∧ Agrees result := by
  refine not_agrees_of_replicated _ _ _ rfl (Or.inl ?_)
  decide +kernel

end RecoveryOnly

end NativeHa
end MqSentinel
