import MqSentinel.FindingTitles
import MqSentinel.MultiInstanceDiagnosis
import MqSentinel.ZosMatcher

/-!
# z/OS diagnosis

`run_zos_checks` sends five queries, gathers the group and the state of the channel
initiator from the rows it gets, and counts the rows.  Each row that is in trouble, as the
matcher reads it, gives one finding of its own kind with its own name and number, and no
other row gives any; a query that fails reads like one without rows.
-/

namespace MqSentinel
namespace Zos

open Rcs Rcs.Zos MqSentinel.NativeHa FindingTitles
open Sanitizer (PyValue)

/-- The rows of the five queries. -/
structure Replies where
  group : List Row
  chinit : List Row
  pagesets : List Row
  bufferpools : List Row
  cfStructures : List Row

/-- `ZosCheckResult` -/
structure ZosCheckResult where
  findings : List RCSFinding
  rawEvidence : Health.Evidence

/-- `{"name": name, "status": status}` -/
def memberRow (name status : PyStr) : Row :=
  OrderedDict.ofList [(lit "name", .str name), (lit "status", .str status)]

/-- `str(row.get("STATUS", ""))` -/
def memberStatus (row : Row) : PyStr :=
  (row.getOr "STATUS" (.str [])).toStr

/-- One turn of the loop over the rows of the group. -/
def groupStep (acc : PyStr × List Row) (row : Row) : PyStr × List Row :=
  let qsgName :=
    match row.get? (lit "QSGNAME") with
    | some name => if acc.1 = [] then name.toStr else acc.1
    | none => acc.1
  match row.get? (lit "QMNAME") with
  | some name => (qsgName, acc.2 ++ [memberRow name.toStr (memberStatus row)])
  | none => (qsgName, acc.2)

/-- `qsg_name` and `members`. -/
def readGroup (rows : List Row) : PyStr × List Row :=
  rows.foldl groupStep ([], [])

/-- `chin_status` -/
def chinStatus (rows : List Row) : PyStr :=
  match rows.findSome? fun row => row.get? (lit "CHINIT") with
  | some status => status.toStr
  | none => []

/-- `raw` in `run_zos_checks`. -/
def rawData (replies : Replies) : RawData where
  group := ⟨.str (readGroup replies.group).1, (readGroup replies.group).2⟩
  chin :=
    if chinStatus replies.chinit = [] then OrderedDict.empty
    else OrderedDict.ofList [(lit "status", .str (chinStatus replies.chinit))]
  pagesets := replies.pagesets
  bufferpools := replies.bufferpools
  cfStructures := replies.cfStructures

section Run

variable (U : UnicodeData) (registry : KCRegistry) (mqVersion : Option PyStr)

/-- What `run_zos_checks` makes of the replies. -/
def checkReplies (replies : Replies) : ZosCheckResult where
  findings := matchZosFindings U registry mqVersion (rawData replies)
  rawEvidence := OrderedDict.ofList
    [ (lit "qsg_name", .str (readGroup replies.group).1),
      (lit "qsg_member_count", .int (readGroup replies.group).2.length),
      (lit "pageset_count", .int replies.pagesets.length),
      (lit "bufferpool_count", .int replies.bufferpools.length),
      (lit "cf_structure_count", .int replies.cfStructures.length),
      (lit "chin_status", .str (chinStatus replies.chinit)) ]

/-- The replies of a connector. -/
def repliesOf (connector : Health.Connector) : Replies where
  group := Health.safeRows connector (lit "DISPLAY GROUP")
  chinit := Health.safeRows connector (lit "DISPLAY QMSTATUS CHINIT")
  pagesets := Health.safeRows connector (lit "DISPLAY USAGE PSID(*)")
  bufferpools := Health.safeRows connector (lit "DISPLAY USAGE BUFFPOOL(*)")
  cfStructures := Health.safeRows connector (lit "DISPLAY CFSTATUS(*) ALL")

/-- `run_zos_checks` -/
def runZosChecks (connector : Health.Connector) : ZosCheckResult :=
  checkReplies U registry mqVersion (repliesOf connector)

/-- `diagnose_zos_qsg_issues` -/
def diagnoseZosQsgIssues (qmName : PyStr) (connector : Health.Connector) :
    Miqm.ToolResponse :=
  let result := runZosChecks U registry mqVersion connector
  { tool := lit "diagnose_zos_qsg_issues"
    qmName := qmName
    findings := result.findings
    rawEvidence := result.rawEvidence }

end Run

section Trouble

variable (U : UnicodeData)

/-- The row is one of a member. -/
def IsMember (row : Row) : Bool :=
  (row.get? (lit "QMNAME")).isSome

/-- A member that does not run. -/
def MemberDown (row : Row) : Bool :=
  IsMember row && !decide (U.upperStr (memberStatus row) ∈ [lit "ACTIVE", lit "RUNNING"])

/-- The channel initiator is named and does not run. -/
def ChinDown (rows : List Row) : Prop :=
  chinStatus rows ≠ [] ∧
    U.upperStr (chinStatus rows) ∉ [lit "RUNNING", lit "ACTIVE", lit "STARTED"]

instance (rows : List Row) : Decidable (ChinDown U rows) :=
  inferInstanceAs (Decidable (_ ∧ _))

/-- A page set that is nearly full. -/
def PagesetFull (row : Row) : Bool :=
  decide (pagesetHigh ≤ usePct U row)

/-- A buffer pool that is short of free pages. -/
def BufferpoolLow (row : Row) : Bool :=
  decide (freePct U row < bufferpoolLowFreePct)

/-- A structure that cannot be used. -/
def StructureDown (row : Row) : Bool :=
  decide (structureStatus U row ∉ [lit "ACTIVE", lit "AVAILABLE"])

variable (registry : KCRegistry) (mqVersion : Option PyStr)

/-- The findings about members. -/
def memberFindings (rows : List Row) : List RCSFinding :=
  (rows.filter (MemberDown U)).map fun row =>
    findingMember registry mqVersion (readGroup rows).1 (row.get "QMNAME").toStr
      (U.upperStr (memberStatus row))

/-- The finding about the channel initiator, if it is down. -/
def chinFindings (rows : List Row) : List RCSFinding :=
  if ChinDown U rows then [findingChin registry mqVersion (U.upperStr (chinStatus rows))] else []

/-- The findings about page sets. -/
def pagesetFindings (rows : List Row) : List RCSFinding :=
  (rows.filter (PagesetFull U)).map fun row =>
    findingPageset registry mqVersion (psid row) (usePct U row)

/-- The findings about buffer pools. -/
def bufferpoolFindings (rows : List Row) : List RCSFinding :=
  (rows.filter (BufferpoolLow U)).map fun row =>
    findingBufferpool registry mqVersion (bpid row) (freePct U row)

/-- The findings about coupling facility structures. -/
def structureFindings (rows : List Row) : List RCSFinding :=
  (rows.filter (StructureDown U)).map fun row =>
    findingCfStructure registry mqVersion (structureName row) (structureStatus U row)

/-- A count of the evidence. -/
def evidenceCount (result : ZosCheckResult) (key : String) : Option PyValue :=
  result.rawEvidence.get? (lit key)

/--
The counts are those of the rows.  Under each title stand the findings about the rows in
trouble, one for each of them in their order and with their own names and numbers, and
there are no others.
-/
structure Accounts (replies : Replies) (result : ZosCheckResult) : Prop where
  members : evidenceCount result "qsg_member_count" =
    some (.int (replies.group.countP IsMember))
  pagesets : evidenceCount result "pageset_count" = some (.int replies.pagesets.length)
  bufferpools : evidenceCount result "bufferpool_count" = some (.int replies.bufferpools.length)
  structures : evidenceCount result "cf_structure_count" =
    some (.int replies.cfStructures.length)
  membersDown : under "QSG member " result.findings =
    memberFindings U registry mqVersion replies.group
  chinDown : under "Channel initiator (CHIN) status is " result.findings =
    chinFindings U registry mqVersion replies.chinit
  pagesetsFull : under "Page set " result.findings =
    pagesetFindings U registry mqVersion replies.pagesets
  bufferpoolsLow : under "Buffer pool " result.findings =
    bufferpoolFindings U registry mqVersion replies.bufferpools
  structuresDown : under "CF structure " result.findings =
    structureFindings U registry mqVersion replies.cfStructures
  nothingElse : result.findings =
    under "QSG member " result.findings ++
      under "Channel initiator (CHIN) status is " result.findings ++
      under "Page set " result.findings ++ under "Buffer pool " result.findings ++
      under "CF structure " result.findings

end Trouble

section Members

theorem members_foldl
    (rows : List Row) :
    ∀ acc : PyStr × List Row,
      (rows.foldl groupStep acc).2 =
        acc.2 ++ (rows.filter IsMember).map fun row =>
          memberRow (row.get "QMNAME").toStr (memberStatus row) := by
  induction rows with
  | nil =>
      intro acc
      simp
  | cons row rows ih =>
      intro acc
      rw [List.foldl_cons, ih]
      cases hname : row.get? (lit "QMNAME") with
      | none =>
          simp [groupStep, IsMember, hname]
      | some name =>
          simp [groupStep, IsMember, Row.get, hname]

/-- The members are the rows with a queue manager name, in their order. -/
theorem members_readGroup
    (rows : List Row) :
    (readGroup rows).2 = (rows.filter IsMember).map fun row =>
      memberRow (row.get "QMNAME").toStr (memberStatus row) := by
  rw [readGroup, members_foldl]
  rfl

theorem status_memberRow
    (name status : PyStr) :
    ((memberRow name status).getOr "status" (.str [])).toStr = status := by
  have hget : (memberRow name status).get? (lit "status") = some (.str status) :=
    OrderedDict.get?_ofList_of_mem
      (by show [lit "name", lit "status"].Nodup; decide) (by simp)
  rw [Row.getOr, hget]
  rfl

end Members

section Findings

variable (U : UnicodeData) (registry : KCRegistry) (mqVersion : Option PyStr)

theorem titled_checkQsgMembers (group : Group) :
    Titled "QSG member " (checkQsgMembers U registry mqVersion group) := by
  refine titled_filterMap (fun m f hf => ?_) _
  dsimp only at hf
  split_ifs at hf
  obtain rfl := Option.some_inj.mp hf
  simp only [findingMember, List.append_assoc]
  exact List.prefix_append _ _

theorem titled_checkChin (chin : Row) :
    Titled "Channel initiator (CHIN) status is " (checkChin U registry mqVersion chin) := by
  intro f hf
  unfold checkChin at hf
  dsimp only at hf
  split_ifs at hf
  · cases hf
  · cases hf
  · obtain rfl := List.mem_singleton.mp hf
    exact List.prefix_append _ _

theorem titled_checkPagesets (rows : List Row) :
    Titled "Page set " (checkPagesets U registry mqVersion rows) := by
  refine titled_filterMap (fun m f hf => ?_) _
  split_ifs at hf
  obtain rfl := Option.some_inj.mp hf
  simp only [findingPageset, List.append_assoc]
  exact List.prefix_append _ _

theorem titled_checkBufferpools (rows : List Row) :
    Titled "Buffer pool " (checkBufferpools U registry mqVersion rows) := by
  refine titled_filterMap (fun m f hf => ?_) _
  split_ifs at hf
  obtain rfl := Option.some_inj.mp hf
  simp only [findingBufferpool, List.append_assoc]
  exact List.prefix_append _ _

theorem titled_checkCfStructures (rows : List Row) :
    Titled "CF structure " (checkCfStructures U registry mqVersion rows) := by
  refine titled_filterMap (fun m f hf => ?_) _
  split_ifs at hf
  obtain rfl := Option.some_inj.mp hf
  simp only [findingCfStructure, List.append_assoc]
  exact List.prefix_append _ _

/-- A check that passes over some rows reports the others, each with its own finding. -/
theorem filterMap_troubled
    {α : Type} {up : α → Prop} [DecidablePred up] {down : α → Bool}
    (h : ∀ a, down a = true ↔ ¬ up a) (finding : α → RCSFinding) (xs : List α) :
    (xs.filterMap fun a => if up a then none else some (finding a)) =
      (xs.filter down).map finding := by
  induction xs with
  | nil =>
      rfl
  | cons a xs ih =>
      by_cases hup : up a
      · have hdown : ¬ down a = true := fun hdown => (h a).mp hdown hup
        rw [List.filterMap_cons_none (by rw [if_pos hup]), List.filter_cons_of_neg hdown, ih]
      · rw [List.filterMap_cons_some (by rw [if_neg hup]),
          List.filter_cons_of_pos ((h a).mpr hup), List.map_cons, ih]

theorem checkQsgMembers_eq (replies : Replies) :
    checkQsgMembers U registry mqVersion (rawData replies).group =
      memberFindings U registry mqVersion replies.group := by
  have hqsg : ((Cell.str (readGroup replies.group).1).orElse (.str [])).toStr =
      (readGroup replies.group).1 := by
    cases (readGroup replies.group).1 with
    | nil => rfl
    | cons c cs => rfl
  have hname : ∀ name status, ((memberRow name status).getOr "name"
      (.str (lit "<unknown>"))).toStr = name := by
    intro name status
    have hget : (memberRow name status).get? (lit "name") = some (.str name) :=
      OrderedDict.get?_ofList_of_mem
        (by show [lit "name", lit "status"].Nodup; decide) (by simp)
    rw [Row.getOr, hget]
    rfl
  rw [checkQsgMembers, rawData, members_readGroup, List.filterMap_map]
  simp only [Function.comp_def, status_memberRow, hname, hqsg]
  have hdown : ∀ row, (!decide (U.upperStr (memberStatus row) ∈
      [lit "ACTIVE", lit "RUNNING"])) = true ↔
        ¬ U.upperStr (memberStatus row) ∈ [lit "ACTIVE", lit "RUNNING"] := by
    simp
  rw [filterMap_troubled hdown, List.filter_filter, memberFindings]
  congr 2
  funext row
  exact Bool.and_comm _ _

theorem checkChin_eq (replies : Replies) :
    checkChin U registry mqVersion (rawData replies).chin =
      chinFindings U registry mqVersion replies.chinit := by
  by_cases hnil : chinStatus replies.chinit = []
  · simp [checkChin, rawData, chinFindings, ChinDown, hnil, OrderedDict.nonempty,
      OrderedDict.empty]
  · have hget : (OrderedDict.ofList [(lit "status", Cell.str (chinStatus replies.chinit))]).get?
        (lit "status") = some (.str (chinStatus replies.chinit)) :=
      OrderedDict.get?_ofList_of_mem (by simp) (by simp)
    have hstatus : Row.getOr
        (OrderedDict.ofList [(lit "status", Cell.str (chinStatus replies.chinit))])
        "status" (.str []) = .str (chinStatus replies.chinit) := by
      rw [Row.getOr, hget, Option.getD_some]
    have hnonempty : (OrderedDict.ofList
        [(lit "status", Cell.str (chinStatus replies.chinit))]).nonempty = true := by
      rfl
    simp only [checkChin, rawData, if_neg hnil, hnonempty, hstatus, Cell.toStr, Bool.not_true,
      Bool.false_eq_true, if_false]
    by_cases hup : U.upperStr (chinStatus replies.chinit) ∈
        [lit "RUNNING", lit "ACTIVE", lit "STARTED"]
    · rw [if_pos hup, chinFindings, if_neg fun h => h.2 hup]
    · rw [if_neg hup, chinFindings, if_pos ⟨hnil, hup⟩]

theorem checkPagesets_eq (rows : List Row) :
    checkPagesets U registry mqVersion rows = pagesetFindings U registry mqVersion rows :=
  filterMap_troubled (by simp [PagesetFull]) _ rows

theorem checkBufferpools_eq (rows : List Row) :
    checkBufferpools U registry mqVersion rows = bufferpoolFindings U registry mqVersion rows :=
  filterMap_troubled (by simp [BufferpoolLow]) _ rows

theorem checkCfStructures_eq (rows : List Row) :
    checkCfStructures U registry mqVersion rows = structureFindings U registry mqVersion rows :=
  filterMap_troubled (by simp [StructureDown]) _ rows

/-- The findings of the five checks. -/
def parts (raw : RawData) : Parts :=
  [ (["QSG member "], checkQsgMembers U registry mqVersion raw.group),
    (["Channel initiator (CHIN) status is "], checkChin U registry mqVersion raw.chin),
    (["Page set "], checkPagesets U registry mqVersion raw.pagesets),
    (["Buffer pool "], checkBufferpools U registry mqVersion raw.bufferpools),
    (["CF structure "], checkCfStructures U registry mqVersion raw.cfStructures) ]

theorem matchZosFindings_parts (raw : RawData) :
    matchZosFindings U registry mqVersion raw =
      (parts U registry mqVersion raw).flatMap Prod.snd := by
  simp [matchZosFindings, parts]

/-- Under a title stand the findings of the check that has it. -/
theorem under_matchZosFindings
    (raw : RawData) {title : String} {findings : List RCSFinding}
    (hmem : ([title], findings) ∈ parts U registry mqVersion raw) (h : Titled title findings) :
    under title (matchZosFindings U registry mqVersion raw) = findings := by
  have htitled : ∀ p ∈ parts U registry mqVersion raw, TitledIn p.1 p.2 := by
    simp only [parts, List.forall_mem_cons]
    exact ⟨titledIn_singleton (titled_checkQsgMembers U registry mqVersion _),
      titledIn_singleton (titled_checkChin U registry mqVersion _),
      titledIn_singleton (titled_checkPagesets U registry mqVersion _),
      titledIn_singleton (titled_checkBufferpools U registry mqVersion _),
      titledIn_singleton (titled_checkCfStructures U registry mqVersion _),
      fun _ hnil => nomatch hnil⟩
  have hapart : TitlesApart ((parts U registry mqVersion raw).map Prod.fst) := by
    show TitlesApart [["QSG member "], ["Channel initiator (CHIN) status is "], ["Page set "],
      ["Buffer pool "], ["CF structure "]]
    decide
  rw [matchZosFindings_parts, under_parts htitled hapart hmem (by simp), under_of_titled h]

/--
Whatever the five queries return or raise, the counts of the evidence are those of the rows,
each member, channel initiator, page set, buffer pool and structure in trouble is reported
exactly once under its own title, and nothing else is.
-/
theorem zos_report_accounts (connector : Health.Connector) :
    Accounts U registry mqVersion (repliesOf connector)
      (runZosChecks U registry mqVersion connector) := by
  have hmembers : (readGroup (repliesOf connector).group).2.length =
      (repliesOf connector).group.countP IsMember := by
    rw [members_readGroup, List.length_map, List.countP_eq_length_filter]
  have hkeys : [lit "qsg_name", lit "qsg_member_count", lit "pageset_count",
      lit "bufferpool_count", lit "cf_structure_count", lit "chin_status"].Nodup := by
    decide
  let raw := rawData (repliesOf connector)
  have hunder := @under_matchZosFindings U registry mqVersion raw
  have hqsg := hunder (by simp [parts])
    (titled_checkQsgMembers U registry mqVersion raw.group)
  have hchin := hunder (by simp [parts]) (titled_checkChin U registry mqVersion raw.chin)
  have hpagesets := hunder (by simp [parts])
    (titled_checkPagesets U registry mqVersion raw.pagesets)
  have hbufferpools := hunder (by simp [parts])
    (titled_checkBufferpools U registry mqVersion raw.bufferpools)
  have hstructures := hunder (by simp [parts])
    (titled_checkCfStructures U registry mqVersion raw.cfStructures)
  constructor
  · rw [← hmembers]
    exact OrderedDict.get?_ofList_of_mem (by exact hkeys) (by simp)
  · exact OrderedDict.get?_ofList_of_mem (by exact hkeys) (by simp)
  · exact OrderedDict.get?_ofList_of_mem (by exact hkeys) (by simp)
  · exact OrderedDict.get?_ofList_of_mem (by exact hkeys) (by simp)
  · exact hqsg.trans (checkQsgMembers_eq U registry mqVersion _)
  · exact hchin.trans (checkChin_eq U registry mqVersion _)
  · exact hpagesets.trans (checkPagesets_eq U registry mqVersion _)
  · exact hbufferpools.trans (checkBufferpools_eq U registry mqVersion _)
  · exact hstructures.trans (checkCfStructures_eq U registry mqVersion _)
  · rw [runZosChecks, checkReplies, hqsg, hchin, hpagesets, hbufferpools, hstructures]
    rfl

end Findings

end Zos
end MqSentinel
