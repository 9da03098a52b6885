import MqSentinel.HealthChecks
import MqSentinel.MiqmMatcher
import MqSentinel.RegexScanning

/-!
# The multi-instance diagnosis

`diagnose_multi_instance_issues` asks the host for `dspmq -x` and `dspmq -o standby`.
Both list every queue manager of the host.  The instance lines are parsed with the name
of their queue manager, but the name is compared with nothing afterwards, so a line for
another queue manager counts like a line for the one that was asked about.  The pattern
also reads across line ends: a status that is not closed takes the next line with it, and
with it the line of another queue manager.

The response is the envelope before it is sanitized.  Of the detected topology only the
version of the queue manager is used, which comes from MQSC replies.
-/

namespace MqSentinel
namespace Miqm

open Regex Rcs CodePoint
open Rcs.Miqm (isActive hostName checkNoActive checkStandbyPermission checkDualActive
  checkFailoverHistory findingDualActive matchMiqmFindings)

/-- The named groups of `_INSTANCE_LINE_RE`. -/
inductive Group where
  | qm
  | status
  | host
  | mode
deriving DecidableEq

/-- One or more characters of a class. -/
def oneOrMore (p : CodePoint → Bool) : Rx CodePoint :=
  Rx.plus (Rx.cls p)

/-- `\s+NAME\((?P<k>\S+)\)`, ignoring case. -/
def field (name : String) (k : Group) : Gx Group CodePoint :=
  Gx.seqs
    [ .plain (oneOrMore isSpace), .plain (ciRx (name ++ "(")),
      .group k (oneOrMore fun c => !c.isSpace), .plain (litRx ")") ]

/--
`_INSTANCE_LINE_RE`:
`QMNAME\((?P<qm>\S+)\)\s+STATUS\((?P<status>[^)]+)\)` and, each of them optional,
`\s+INSTANCE\((?P<host>\S+)\)` and `\s+MODE\((?P<mode>\S+)\)`.
-/
def instanceLine : Gx Group CodePoint :=
  Gx.seqs
    [ .plain (ciRx "QMNAME("), .group .qm (oneOrMore fun c => !c.isSpace), .plain (litRx ")"),
      .plain (oneOrMore isSpace), .plain (ciRx "STATUS("),
      .group .status (oneOrMore fun c => c != ch ')'), .plain (litRx ")"),
      .opt (field "INSTANCE" .host),
      .opt (field "MODE" .mode) ]

/-- `_STANDBY_PERMITTED_RE`: `STANDBY\(\s*PERMITTED\s*\)`, ignoring case. -/
def standbyPermitted : Rx CodePoint :=
  Rx.seqs
    [ ciRx "STANDBY(", Rx.star (Rx.cls isSpace), ciRx "PERMITTED", Rx.star (Rx.cls isSpace),
      litRx ")" ]

/-- An instance line of a listing. -/
abbrev Line := Match Group CodePoint

/-- `m.group(k) or ""` -/
def text (m : Line) (k : Group) : PyStr :=
  (m.group k).getD []

/-- The instance lines of a listing. -/
def instanceLines (raw : PyStr) : List Line :=
  Gx.findIter instanceLine raw

/-- The instance lines for the queue manager `q`. -/
def ownLines (q : PyStr) (raw : PyStr) : List Line :=
  (instanceLines raw).filter fun m => text m .qm = q

/-- The instance lines for the other queue managers. -/
def otherLines (q : PyStr) (raw : PyStr) : List Line :=
  (instanceLines raw).filter fun m => text m .qm ≠ q

/-- `QMNAME(q)`, the keyword in any letter case. -/
def naming (q : PyStr) : Rx CodePoint :=
  Rx.seqs [ciRx "QMNAME(", Rx.word (q.map one), litRx ")"]

/-- The lines of a text that name the queue manager `q`. -/
def linesFor (q : PyStr) (raw : PyStr) : List PyStr :=
  (raw.splitOn lf).filter (naming q).search

/-- The lines of a text that do not. -/
def linesBeside (q : PyStr) (raw : PyStr) : List PyStr :=
  (raw.splitOn lf).filter fun l => !(naming q).search l

/-- What the tool calls on a connector. -/
structure Connector extends Health.Connector where
  executeShell : List PyStr → Except PyStr PyStr

/-- `_safe_shell` -/
def safeShell (connector : Connector) (argv : List PyStr) : PyStr :=
  match connector.executeShell argv with
  | .error _ => []
  | .ok out => out

/-- `_safe_log_tail` -/
def safeLogTail (connector : Connector) : PyStr :=
  Health.safeRaw connector.toConnector (lit "DISPLAY QMSTATUS")

/-- `dspmq_x` -/
def dspmqX (connector : Connector) : PyStr :=
  safeShell connector [lit "dspmq", lit "-x"]

/-- `dspmq_standby` -/
def dspmqStandby (connector : Connector) : PyStr :=
  safeShell connector [lit "dspmq", lit "-o", lit "standby"]

/-- `MIQMCheckResult` -/
structure MIQMCheckResult where
  findings : List RCSFinding
  rawEvidence : Health.Evidence

/-- `ToolResponse`, without the topology and the clock reading. -/
structure ToolResponse where
  tool : PyStr
  qmName : PyStr
  findings : List RCSFinding
  rawEvidence : Health.Evidence

section Tool

variable (U : UnicodeData)

/-- `_infer_role` -/
def inferRole (status : PyStr) : PyStr :=
  let s := U.upperStr status
  if lit "STANDBY" <:+: s then lit "STANDBY"
  else if lit "RUNNING" <:+: s ∨ lit "ACTIVE" <:+: s then lit "ACTIVE"
  else lit "NONE"

/-- `instance_type` in `_parse_instances`. -/
def instanceType (m : Line) : PyStr :=
  match U.upperStr (text m .mode) with
  | [] => inferRole U (strip (text m .status))
  | mode => mode

/-- The entry of a line. -/
def instanceRow (m : Line) : Row :=
  OrderedDict.ofList
    [ (lit "qm_name", .str (text m .qm)), (lit "host", .str (text m .host)),
      (lit "status", .str (strip (text m .status))),
      (lit "instance_type", .str (instanceType U m)), (lit "role", .str (instanceType U m)) ]

/-- `_parse_instances` -/
def parseInstances (raw : PyStr) : List Row :=
  if raw = [] then [] else (instanceLines raw).map (instanceRow U)

/-- `active_count` in `run_miqm_checks`. -/
def activeCount (instances : List Row) : Nat :=
  instances.countP fun i =>
    U.upperStr (i.getOr "instance_type" (.str [])).toStr == lit "ACTIVE"

/-- `raw` in `run_miqm_checks`. -/
def rawData (connector : Connector) : Rcs.Miqm.RawData where
  instances := parseInstances U (dspmqX connector)
  standbyPermitted := standbyPermitted.search (dspmqStandby connector)
  sharedFsOk := .none
  errorLogTail := safeLogTail connector

variable (registry : KCRegistry) (mqVersion : Option PyStr)

/-- `run_miqm_checks` -/
def runMiqmChecks (connector : Connector) : MIQMCheckResult :=
  let raw := rawData U connector
  { findings := matchMiqmFindings U registry mqVersion raw
    rawEvidence := OrderedDict.ofList
      [ (lit "instance_count", .int raw.instances.length),
        (lit "active_count", .int (activeCount U raw.instances)),
        (lit "standby_permitted", .bool raw.standbyPermitted) ] }

/-- `diagnose_multi_instance_issues` -/
def diagnoseMultiInstanceIssues (qmName : PyStr) (connector : Connector) : ToolResponse :=
  let result := runMiqmChecks U registry mqVersion connector
  { tool := lit "diagnose_multi_instance_issues"
    qmName := qmName
    findings := result.findings
    rawEvidence := result.rawEvidence }

end Tool

/-- The findings and the two counts agree. -/
def SameDiagnosis (r r' : ToolResponse) : Prop :=
  r.findings = r'.findings ∧
    r.rawEvidence.get? (lit "instance_count") = r'.rawEvidence.get? (lit "instance_count") ∧
    r.rawEvidence.get? (lit "active_count") = r'.rawEvidence.get? (lit "active_count")

section Hosts

/-- Words without spaces are read back from what stands before the next space. -/
theorem append_space_inj
    {x y r t : PyStr} {c : CodePoint} (hc : c.isSpace = true)
    (hx : ∀ d ∈ x, d.isSpace = false) (hy : ∀ d ∈ y, d.isSpace = false)
    (h : x ++ c :: r = y ++ c :: t) :
    x = y ∧ r = t := by
  induction x generalizing y with
  | nil =>
      cases y with
      | nil =>
          exact ⟨rfl, (List.cons.inj h).2⟩
      | cons e y =>
          obtain ⟨rfl, _⟩ := List.cons.inj h
          exact absurd (hy c (by simp)) (by simp [hc])
  | cons d x ih =>
      cases y with
      | nil =>
          obtain ⟨rfl, _⟩ := List.cons.inj h
          exact absurd (hx d (by simp)) (by simp [hc])
      | cons e y =>
          obtain ⟨rfl, htail⟩ := List.cons.inj h
          obtain ⟨rfl, hrest⟩ := ih (fun a ha => hx a (List.mem_cons_of_mem _ ha))
            (fun a ha => hy a (List.mem_cons_of_mem _ ha)) htail
          exact ⟨rfl, hrest⟩

/-- A list of names without spaces can be read back from `", ".join(...)`. -/
theorem joinStr_comma_inj
    {xs ys : List PyStr} (hlen : xs.length = ys.length)
    (hx : ∀ x ∈ xs, ∀ c ∈ x, c.isSpace = false)
    (hy : ∀ y ∈ ys, ∀ c ∈ y, c.isSpace = false)
    (h : joinStr ", " xs = joinStr ", " ys) :
    xs = ys := by
  induction xs generalizing ys with
  | nil =>
      exact (List.length_eq_zero_iff.mp hlen.symm).symm
  | cons x xs ih =>
      cases ys with
      | nil =>
          cases hlen
      | cons y ys =>
          have hlen' : xs.length = ys.length := by simpa using hlen
          obtain ⟨hx₀, hx⟩ := List.forall_mem_cons.mp hx
          obtain ⟨hy₀, hy⟩ := List.forall_mem_cons.mp hy
          cases xs with
          | nil =>
              obtain rfl := List.length_eq_zero_iff.mp hlen'.symm
              simpa [joinStr] using h
          | cons x' xs =>
              cases ys with
              | nil =>
                  cases hlen'
              | cons y' ys =>
                  have hsep : lit ", " = [ch ','] ++ [ch ' '] := by rfl
                  have hcomma : ∀ {z : PyStr}, (∀ d ∈ z, d.isSpace = false) →
                      ∀ d ∈ z ++ [ch ','], d.isSpace = false := by
                    intro z hz d hd
                    rcases List.mem_append.mp hd with hd | hd
                    · exact hz d hd
                    · rw [List.mem_singleton.mp hd]
                      decide
                  simp only [joinStr, List.intercalate_cons_cons, hsep] at h
                  obtain ⟨hhead, htail⟩ := append_space_inj (c := ch ' ')
                    (x := x ++ [ch ',']) (y := y ++ [ch ',']) (by decide)
                    (hcomma hx₀) (hcomma hy₀) (by simpa using h)
                  have hrest : x' :: xs = y' :: ys := ih hlen' hx hy (by
                    rw [joinStr, joinStr, hsep]
                    exact htail)
                  rw [(List.append_left_inj _).mp hhead, hrest]

end Hosts

section Matcher

variable (U : UnicodeData) (registry : KCRegistry) (mqVersion : Option PyStr)

/-- Without a probe of the file system the findings are those of four checks. -/
theorem matchMiqmFindings_of_no_probe
    (instances : List Row) (permitted : Bool) (path : Cell) (logTail : PyStr) :
    matchMiqmFindings U registry mqVersion ⟨instances, permitted, .none, path, logTail⟩ =
      checkNoActive U registry mqVersion instances ++
        checkStandbyPermission registry mqVersion permitted instances ++
        checkDualActive U registry mqVersion instances ++
        checkFailoverHistory U registry mqVersion logTail := by
  rw [matchMiqmFindings]
  by_cases hempty : instances = [] ∧ logTail = []
  · obtain ⟨rfl, rfl⟩ := hempty
    simp [checkNoActive, checkStandbyPermission, checkDualActive, checkFailoverHistory]
  · rw [if_neg fun h => hempty ⟨h.1, h.2.2⟩]
    simp [Rcs.Miqm.checkSharedFs]

/-- The first check sees only how many instances there are and how many are active. -/
theorem checkNoActive_congr
    {xs ys : List Row} (hlen : xs.length = ys.length)
    (hactive : xs.countP (isActive U) = ys.countP (isActive U)) :
    checkNoActive U registry mqVersion xs = checkNoActive U registry mqVersion ys := by
  have hnil : ∀ zs : List Row, zs.filter (isActive U) = [] ↔ zs.countP (isActive U) = 0 := by
    intro zs
    rw [List.countP_eq_length_filter, List.length_eq_zero_iff]
  have hempty : xs = [] ↔ ys = [] := by
    rw [← List.length_eq_zero_iff, ← List.length_eq_zero_iff, hlen]
  simp only [checkNoActive, ne_eq, hnil, hactive, hempty, hlen]

theorem checkStandbyPermission_eq_iff
    {xs ys : List Row} (hlen : xs.length = ys.length) (p p' : Bool) :
    checkStandbyPermission registry mqVersion p xs =
        checkStandbyPermission registry mqVersion p' ys ↔
      (xs ≠ [] → p = p') := by
  have hempty : xs = [] ↔ ys = [] := by
    rw [← List.length_eq_zero_iff, ← List.length_eq_zero_iff, hlen]
  by_cases hxs : xs = []
  · simp [checkStandbyPermission, hxs, hempty.mp hxs]
  · have hys : ys ≠ [] := fun h => hxs (hempty.mpr h)
    cases p <;> cases p' <;> simp [checkStandbyPermission, hxs, hys]

/-- The third check also sees the hosts, once two instances are active. -/
theorem checkDualActive_eq_iff
    {xs ys : List Row} (hactive : xs.countP (isActive U) = ys.countP (isActive U)) :
    checkDualActive U registry mqVersion xs = checkDualActive U registry mqVersion ys ↔
      (1 < xs.countP (isActive U) →
        joinStr ", " ((xs.filter (isActive U)).map hostName) =
          joinStr ", " ((ys.filter (isActive U)).map hostName)) := by
  simp only [checkDualActive, ← List.countP_eq_length_filter, ← hactive]
  by_cases hle : xs.countP (isActive U) ≤ 1
  · simp [hle]
  · have hlt : 1 < xs.countP (isActive U) := by omega
    simp only [hle, if_false, hlt, true_imp_iff, List.cons.injEq, and_true]
    constructor
    · intro h
      have hevidence := congrArg RCSFinding.evidence h
      simp only [findingDualActive, List.cons.injEq, Prod.mk.injEq] at hevidence
      exact hevidence.2.1.2
    · intro h
      rw [h]

theorem length_checkDualActive
    (xs : List Row) :
    (checkDualActive U registry mqVersion xs).length =
      if xs.countP (isActive U) ≤ 1 then 0 else 1 := by
  simp only [checkDualActive, ← List.countP_eq_length_filter]
  split <;> rfl

end Matcher

section Lines

variable (U : UnicodeData)

/-- The line is that of an active instance. -/
def activeLine (m : Line) : Bool :=
  U.upperStr (instanceType U m) == lit "ACTIVE"

theorem instanceRow_get?
    (m : Line) {k : PyStr} {v : Cell}
    (h : (k, v) ∈
      [ (lit "qm_name", Cell.str (text m .qm)), (lit "host", .str (text m .host)),
        (lit "status", .str (strip (text m .status))),
        (lit "instance_type", .str (instanceType U m)),
        (lit "role", .str (instanceType U m)) ]) :
    (instanceRow U m).get? k = some v := by
  refine OrderedDict.get?_ofList_of_mem ?_ h
  simp [lit_injective.eq_iff]

@[simp] theorem isActive_instanceRow
    (m : Line) :
    isActive U (instanceRow U m) = activeLine U m := by
  have htype : (instanceRow U m).get? (lit "instance_type") =
      some (.str (instanceType U m)) := instanceRow_get? U m (by simp)
  simp [isActive, Row.getOr, htype, Cell.toStr, activeLine]

@[simp] theorem hostName_instanceRow
    (m : Line) :
    hostName (instanceRow U m) = text m .host := by
  have hhost : (instanceRow U m).get? (lit "host") = some (.str (text m .host)) :=
    instanceRow_get? U m (by simp)
  simp [hostName, Row.getOr, hhost, Cell.toStr]

theorem parseInstances_eq
    (raw : PyStr) :
    parseInstances U raw = (instanceLines raw).map (instanceRow U) := by
  rw [parseInstances]
  split
  · rename_i hraw
    subst hraw
    rfl
  · rfl

theorem countP_parseInstances
    (raw : PyStr) :
    (parseInstances U raw).countP (isActive U) = (instanceLines raw).countP (activeLine U) := by
  rw [parseInstances_eq, List.countP_map]
  apply List.countP_congr
  intro m _
  simp

theorem activeCount_parseInstances
    (raw : PyStr) :
    activeCount U (parseInstances U raw) = (instanceLines raw).countP (activeLine U) := by
  rw [activeCount, parseInstances_eq, List.countP_map]
  apply List.countP_congr
  intro m _
  have htype : (instanceRow U m).get? (lit "instance_type") =
      some (.str (instanceType U m)) := instanceRow_get? U m (by simp)
  simp [Row.getOr, htype, Cell.toStr, activeLine]

/-- The hosts of the active instances, in the order of the listing. -/
def activeHosts (raw : PyStr) : List PyStr :=
  ((instanceLines raw).filter (activeLine U)).map fun m => text m .host

theorem hostNames_parseInstances
    (raw : PyStr) :
    ((parseInstances U raw).filter (isActive U)).map hostName = activeHosts U raw := by
  have hcomp : isActive U ∘ instanceRow U = activeLine U := by
    funext m
    simp
  rw [parseInstances_eq, List.filter_map, List.map_map, hcomp]
  apply List.map_congr_left
  intro m _
  simp

/-- What a group takes is of the class that its expression repeats. -/
theorem class_of_mem_text
    {raw : PyStr} {m : Line} (hm : m ∈ instanceLines raw) {k : Group} {p : CodePoint → Bool}
    (hk : ∀ r, (k, r) ∈ instanceLine.named → r = oneOrMore p) :
    ∀ c ∈ text m k, p c = true := by
  rw [text, Match.group]
  cases hlookup : m.groups.lookup k with
  | none =>
      simp
  | some w =>
      have hmem : (k, w) ∈ m.groups := by
        obtain ⟨front, back, hsplit, _⟩ := List.lookup_eq_some_iff.mp hlookup
        simp [hsplit]
      obtain ⟨r, hr, a, b, hw⟩ := Gx.lang_of_mem_findIter hm hmem
      rw [hk r hr] at hw
      exact ((Rx.lang_plus_cls _ a w b).mp hw).2

/-- A host of a line has no spaces: its group is `\S+`. -/
theorem host_no_space
    {raw : PyStr} {m : Line} (hm : m ∈ instanceLines raw) :
    ∀ c ∈ text m .host, c.isSpace = false := by
  intro c hc
  have hclass := class_of_mem_text hm (p := fun c => !c.isSpace)
    (by simp [instanceLine, field, Gx.seqs, Gx.named]) c hc
  simpa using hclass

theorem activeHosts_no_space
    (raw : PyStr) :
    ∀ x ∈ activeHosts U raw, ∀ c ∈ x, c.isSpace = false := by
  intro x hx
  obtain ⟨m, hm, rfl⟩ := List.mem_map.mp hx
  exact host_no_space (List.mem_of_mem_filter hm)

theorem length_activeHosts
    (raw : PyStr) :
    (activeHosts U raw).length = (instanceLines raw).countP (activeLine U) := by
  rw [activeHosts, List.length_map, List.countP_eq_length_filter]

/-- Every line is for the queue manager or for another one. -/
theorem length_own_add_other
    (q raw : PyStr) :
    (ownLines q raw).length + (otherLines q raw).length = (instanceLines raw).length := by
  simp only [ownLines, otherLines]
  have := List.length_eq_length_filter_add (l := instanceLines raw) fun m => decide (text m .qm = q)
  simpa using this.symm

theorem countP_own_add_other
    (q raw : PyStr) :
    (ownLines q raw).countP (activeLine U) + (otherLines q raw).countP (activeLine U) =
      (instanceLines raw).countP (activeLine U) := by
  have := List.countP_eq_countP_filter_add (instanceLines raw) (activeLine U)
    fun m => decide (text m .qm = q)
  simpa [ownLines, otherLines] using this.symm

end Lines

section TextLines

/-- An instance line is read from a text that names its queue manager. -/
theorem naming_of_mem_instanceLines
    {raw : PyStr} {m : Line} (hm : m ∈ instanceLines raw) :
    (naming (text m .qm)).HasMatch raw := by
  obtain ⟨pre, post, hcapture, before, rfl⟩ := Gx.mem_captures_of_mem_findIterFrom raw [] 0 hm
  rw [instanceLine, Gx.seqs, Gx.mem_captures_seq_iff] at hcapture
  obtain ⟨x, hx, m, hcapture, rfl⟩ := hcapture
  obtain ⟨keyword, post, rfl, hkeyword, rfl⟩ := Gx.mem_captures_plain_iff.mp hx
  rw [List.drop_left, Gx.seqs, Gx.mem_captures_seq_iff] at hcapture
  obtain ⟨x, hx, m, hcapture, rfl⟩ := hcapture
  obtain ⟨qm, post, rfl, _, rfl⟩ := Gx.mem_captures_group_iff.mp hx
  rw [List.drop_left, Gx.seqs, Gx.mem_captures_seq_iff] at hcapture
  obtain ⟨x, hx, m, _, rfl⟩ := hcapture
  obtain ⟨close, post, rfl, hclose, rfl⟩ := Gx.mem_captures_plain_iff.mp hx
  have hqm : text (Match.append ⟨keyword, []⟩
      (Match.append ⟨qm, [(.qm, qm)]⟩ (Match.append ⟨close, []⟩ m))) .qm = qm := by
    simp [text, Match.group, Match.append]
  rw [hqm]
  refine ⟨before, keyword ++ (qm ++ (close ++ [])), post, by simp, ?_⟩
  rw [naming, Rx.seqs, ciRx, Rx.lang_seq_word]
  refine ⟨keyword, _, rfl, (Rx.lang_word _ _ _ _).mp hkeyword, ?_⟩
  rw [Rx.seqs, Rx.lang_seq_word]
  refine ⟨qm, _, rfl, (fits_one_iff qm qm).mpr rfl, ?_⟩
  rw [Rx.seqs, litRx, Rx.lang_seq_word]
  exact ⟨close, [], rfl, (Rx.lang_word _ _ _ _).mp hclose, by simp [Rx.seqs]⟩

/-- A text that does not name the queue manager has no line for it. -/
theorem ownLines_of_not_naming
    {q l : PyStr} (h : (naming q).search l = false) :
    ownLines q l = [] := by
  rw [ownLines, List.filter_eq_nil_iff]
  intro m hm hq
  have hnaming := naming_of_mem_instanceLines hm
  rw [of_decide_eq_true hq, ← Rx.search_iff_hasMatch, h] at hnaming
  cases hnaming

/-- Only the lines with the name matter for what is collected of each line. -/
theorem flatMap_linesFor
    {β : Type} (q : PyStr) {f : PyStr → List β}
    (hf : ∀ l, (naming q).search l = false → f l = []) (ls : List PyStr) :
    (ls.filter (naming q).search).flatMap f = ls.flatMap f := by
  induction ls with
  | nil =>
      rfl
  | cons l ls ih =>
      by_cases hl : (naming q).search l = true
      · rw [List.filter_cons_of_pos hl, List.flatMap_cons, List.flatMap_cons, ih]
      · rw [List.filter_cons_of_neg hl, List.flatMap_cons, ih, hf l (by simpa using hl),
          List.nil_append]

/--
Both listings are read line by line: no instance line of the first and no
`STANDBY(PERMITTED)` of the second one takes more than one line of the text.
-/
structure ReadByLine (connector : Connector) : Prop where
  instances : instanceLines (dspmqX connector) =
    ((dspmqX connector).splitOn lf).flatMap instanceLines
  standby : standbyPermitted.HasMatch (dspmqStandby connector) ↔
    ∃ l ∈ (dspmqStandby connector).splitOn lf, standbyPermitted.HasMatch l

/-- Read line by line, the lines for the queue manager come from the text lines with its name. -/
theorem ownLines_of_readByLine
    {connector : Connector} (h : ReadByLine connector) (q : PyStr) :
    ownLines q (dspmqX connector) = (linesFor q (dspmqX connector)).flatMap (ownLines q) := by
  rw [linesFor, flatMap_linesFor q fun l => ownLines_of_not_naming, ownLines, h.instances,
    List.filter_flatMap]
  rfl

/-- One of these lines permits standby instances. -/
def Permits (ls : List PyStr) : Prop :=
  ∃ l ∈ ls, standbyPermitted.HasMatch l

theorem hasMatch_of_readByLine
    {connector : Connector} (h : ReadByLine connector) (q : PyStr) :
    standbyPermitted.HasMatch (dspmqStandby connector) ↔
      Permits (linesFor q (dspmqStandby connector)) ∨
        Permits (linesBeside q (dspmqStandby connector)) := by
  rw [h.standby]
  simp only [Permits, linesFor, linesBeside, List.mem_filter, ← or_and_right, ← exists_or,
    ← and_or_left]
  refine exists_congr fun l => and_congr_left fun _ => ?_
  cases (naming q).search l <;> simp

end TextLines

section TwoRuns

variable (U : UnicodeData)

/--
What is read in the two runs weighs the same: the lines for the queue manager and for the
others together are as many, and as many of them active; the active lines name the same
hosts in the same order, where there is more than one of them; and standby instances are
permitted in both listings or in neither, where there is a line at all.
-/
structure WeighAlike (q : PyStr) (connector connector' : Connector) : Prop where
  lines :
    (ownLines q (dspmqX connector)).length + (otherLines q (dspmqX connector)).length =
      (ownLines q (dspmqX connector')).length + (otherLines q (dspmqX connector')).length
  actives :
    (ownLines q (dspmqX connector)).countP (activeLine U) +
        (otherLines q (dspmqX connector)).countP (activeLine U) =
      (ownLines q (dspmqX connector')).countP (activeLine U) +
        (otherLines q (dspmqX connector')).countP (activeLine U)
  hosts : 1 < (instanceLines (dspmqX connector)).countP (activeLine U) →
    activeHosts U (dspmqX connector) = activeHosts U (dspmqX connector')
  permitted : instanceLines (dspmqX connector) ≠ [] →
    (standbyPermitted.HasMatch (dspmqStandby connector) ↔
      standbyPermitted.HasMatch (dspmqStandby connector'))

/--
The lines for the other queue managers weigh the same in two pairs of listings: as many
lines, as many of them active; the active lines name the same hosts in the same order,
where the listing has more than one of them; and standby instances are permitted in
both listings or in neither, where the listing has a line at all.
-/
structure OthersAlike (q raw raw' standby standby' : PyStr) : Prop where
  lines : (otherLines q raw).length = (otherLines q raw').length
  actives : (otherLines q raw).countP (activeLine U) = (otherLines q raw').countP (activeLine U)
  hosts : 1 < (instanceLines raw).countP (activeLine U) → activeHosts U raw = activeHosts U raw'
  permitted : instanceLines raw ≠ [] →
    (standbyPermitted.HasMatch standby ↔ standbyPermitted.HasMatch standby')

variable (registry : KCRegistry) (mqVersion : Option PyStr)

theorem instanceCount_eq
    (q : PyStr) (connector : Connector) :
    (diagnoseMultiInstanceIssues U registry mqVersion q connector).rawEvidence.get?
        (lit "instance_count") = some (.int (instanceLines (dspmqX connector)).length) := by
  refine OrderedDict.get?_ofList_of_mem ?_ ?_
  · simp [lit_injective.eq_iff]
  · simp [rawData, parseInstances_eq]

theorem activeCount_eq
    (q : PyStr) (connector : Connector) :
    (diagnoseMultiInstanceIssues U registry mqVersion q connector).rawEvidence.get?
        (lit "active_count") =
      some (.int ((instanceLines (dspmqX connector)).countP (activeLine U))) := by
  refine OrderedDict.get?_ofList_of_mem ?_ ?_
  · simp [lit_injective.eq_iff]
  · simp [rawData, activeCount_parseInstances]

/-- The findings of two runs with equal counts and equal log tails. -/
theorem findings_eq_iff
    {q : PyStr} {connector connector' : Connector}
    (hmqsc : connector.executeMqsc = connector'.executeMqsc)
    (hlen : (instanceLines (dspmqX connector)).length =
      (instanceLines (dspmqX connector')).length)
    (hactive : (instanceLines (dspmqX connector)).countP (activeLine U) =
      (instanceLines (dspmqX connector')).countP (activeLine U)) :
    (diagnoseMultiInstanceIssues U registry mqVersion q connector).findings =
        (diagnoseMultiInstanceIssues U registry mqVersion q connector').findings ↔
      (instanceLines (dspmqX connector) ≠ [] →
        standbyPermitted.search (dspmqStandby connector) =
          standbyPermitted.search (dspmqStandby connector')) ∧
      (1 < (instanceLines (dspmqX connector)).countP (activeLine U) →
        joinStr ", " (activeHosts U (dspmqX connector)) =
          joinStr ", " (activeHosts U (dspmqX connector'))) := by
  have hlog : safeLogTail connector = safeLogTail connector' := by
    rw [safeLogTail, safeLogTail, Health.safeRaw, Health.safeRaw, hmqsc]
  have hlen' : (parseInstances U (dspmqX connector)).length =
      (parseInstances U (dspmqX connector')).length := by
    simpa [parseInstances_eq] using hlen
  have hactive' : (parseInstances U (dspmqX connector)).countP (isActive U) =
      (parseInstances U (dspmqX connector')).countP (isActive U) := by
    simpa only [countP_parseInstances] using hactive
  have hdual : (checkDualActive U registry mqVersion
        (parseInstances U (dspmqX connector))).length =
      (checkDualActive U registry mqVersion (parseInstances U (dspmqX connector'))).length := by
    rw [length_checkDualActive, length_checkDualActive, hactive']
  have hfindings : ∀ c : Connector,
      (diagnoseMultiInstanceIssues U registry mqVersion q c).findings =
        checkNoActive U registry mqVersion (parseInstances U (dspmqX c)) ++
          checkStandbyPermission registry mqVersion
            (standbyPermitted.search (dspmqStandby c)) (parseInstances U (dspmqX c)) ++
          checkDualActive U registry mqVersion (parseInstances U (dspmqX c)) ++
          checkFailoverHistory U registry mqVersion (safeLogTail c) :=
    fun c => matchMiqmFindings_of_no_probe U registry mqVersion _ _ _ _
  have hempty : parseInstances U (dspmqX connector) ≠ [] ↔
      instanceLines (dspmqX connector) ≠ [] := by
    simp [parseInstances_eq]
  -- the first and the last segment agree, and the third has one length in both runs
  rw [hfindings, hfindings, checkNoActive_congr U registry mqVersion hlen' hactive', hlog,
    List.append_left_inj, List.append_assoc, List.append_assoc, List.append_right_inj,
    ← hempty, ← checkStandbyPermission_eq_iff registry mqVersion hlen', ←
    countP_parseInstances, ← hostNames_parseInstances, ← hostNames_parseInstances,
    ← checkDualActive_eq_iff U registry mqVersion hactive']
  constructor
  · intro h
    exact List.append_inj' h hdual
  · rintro ⟨hstandby, hdual_eq⟩
    rw [hstandby, hdual_eq]

/-- Two runs agree in their diagnosis exactly when what they read weighs the same. -/
theorem sameDiagnosis_iff_weighAlike
    (q : PyStr) {connector connector' : Connector}
    (hmqsc : connector.executeMqsc = connector'.executeMqsc) :
    SameDiagnosis (diagnoseMultiInstanceIssues U registry mqVersion q connector)
        (diagnoseMultiInstanceIssues U registry mqVersion q connector') ↔
      WeighAlike U q connector connector' := by
  have hlines := length_own_add_other q (dspmqX connector)
  have hlines' := length_own_add_other q (dspmqX connector')
  have hactives := countP_own_add_other U q (dspmqX connector)
  have hactives' := countP_own_add_other U q (dspmqX connector')
  have hsearch : ∀ s : PyStr, standbyPermitted.search s = true ↔ standbyPermitted.HasMatch s :=
    Rx.search_iff_hasMatch standbyPermitted
  simp only [SameDiagnosis, instanceCount_eq, activeCount_eq, Option.some.injEq,
    Sanitizer.PyValue.int.injEq, Int.natCast_inj]
  constructor
  · rintro ⟨hfindings, hlen, hactive⟩
    obtain ⟨hpermitted, hhosts⟩ :=
      (findings_eq_iff U registry mqVersion hmqsc hlen hactive).mp hfindings
    refine ⟨by omega, by omega, ?_, ?_⟩
    · intro hmany
      refine joinStr_comma_inj ?_ (activeHosts_no_space U _) (activeHosts_no_space U _)
        (hhosts hmany)
      rw [length_activeHosts, length_activeHosts, hactive]
    · intro hsome
      rw [← hsearch, ← hsearch, hpermitted hsome]
  · rintro ⟨hothers, hother_actives, hhosts, hpermitted⟩
    have hlen : (instanceLines (dspmqX connector)).length =
        (instanceLines (dspmqX connector')).length := by omega
    have hactive : (instanceLines (dspmqX connector)).countP (activeLine U) =
        (instanceLines (dspmqX connector')).countP (activeLine U) := by omega
    refine ⟨(findings_eq_iff U registry mqVersion hmqsc hlen hactive).mpr ⟨?_, ?_⟩,
      hlen, hactive⟩
    · intro hsome
      exact Bool.eq_iff_iff.mpr (by rw [hsearch, hsearch, hpermitted hsome])
    · intro hmany
      rw [hhosts hmany]

/-- Where the lines for the queue manager are read alike, the others have to weigh the same. -/
theorem weighAlike_iff_othersAlike
    {q : PyStr} {connector connector' : Connector}
    (hown : ownLines q (dspmqX connector) = ownLines q (dspmqX connector')) :
    WeighAlike U q connector connector' ↔
      OthersAlike U q (dspmqX connector) (dspmqX connector')
        (dspmqStandby connector) (dspmqStandby connector') := by
  constructor
  · rintro ⟨hlines, hactives, hhosts, hpermitted⟩
    rw [hown] at hlines hactives
    exact ⟨by omega, by omega, hhosts, hpermitted⟩
  · rintro ⟨hlines, hactives, hhosts, hpermitted⟩
    exact ⟨by rw [hown, hlines], by rw [hown, hactives], hhosts, hpermitted⟩

/--
**Two runs that agree on the text lines for the queue manager agree in their diagnosis
exactly when what they read weighs the same: where the lines for the queue manager are
read alike, when the lines for the other queue managers do.**

They are read alike where both runs read line by line.  Then a line for the queue manager
that permits standby instances settles the permission, and otherwise the other lines do.
-/
theorem same_diagnosis_iff
    (q : PyStr) (connector connector' : Connector)
    (hmqsc : connector.executeMqsc = connector'.executeMqsc)
    (hinstances : linesFor q (dspmqX connector) = linesFor q (dspmqX connector'))
    (hstandby : linesFor q (dspmqStandby connector) = linesFor q (dspmqStandby connector')) :
    (SameDiagnosis (diagnoseMultiInstanceIssues U registry mqVersion q connector)
        (diagnoseMultiInstanceIssues U registry mqVersion q connector') ↔
      WeighAlike U q connector connector') ∧
    (ownLines q (dspmqX connector) = ownLines q (dspmqX connector') →
      (SameDiagnosis (diagnoseMultiInstanceIssues U registry mqVersion q connector)
          (diagnoseMultiInstanceIssues U registry mqVersion q connector') ↔
        OthersAlike U q (dspmqX connector) (dspmqX connector')
          (dspmqStandby connector) (dspmqStandby connector'))) ∧
    (ReadByLine connector → ReadByLine connector' →
      ownLines q (dspmqX connector) = ownLines q (dspmqX connector') ∧
      ((standbyPermitted.HasMatch (dspmqStandby connector) ↔
          standbyPermitted.HasMatch (dspmqStandby connector')) ↔
        Permits (linesFor q (dspmqStandby connector)) ∨
          (Permits (linesBeside q (dspmqStandby connector)) ↔
            Permits (linesBeside q (dspmqStandby connector'))))) := by
  have hweigh := sameDiagnosis_iff_weighAlike U registry mqVersion q hmqsc
  refine ⟨hweigh, fun hown => hweigh.trans (weighAlike_iff_othersAlike U hown), ?_⟩
  intro hread hread'
  constructor
  · rw [ownLines_of_readByLine hread, ownLines_of_readByLine hread', hinstances]
  · rw [hasMatch_of_readByLine hread q, hasMatch_of_readByLine hread' q, ← hstandby]
    tauto

/-- A host with these two listings, and no MQSC replies. -/
def hostListing (raw standby : String) : Connector where
  executeMqsc _ := .error (lit "ConnectionError")
  browseDlq _ _ := .error (lit "ConnectionError")
  executeShell argv :=
    if argv = [lit "dspmq", lit "-x"] then .ok (lit raw)
    else if argv = [lit "dspmq", lit "-o", lit "standby"] then .ok (lit standby)
    else .error (lit "CommandNotAllowedError")

@[simp] theorem dspmqStandby_hostListing
    (raw standby : String) :
    dspmqStandby (hostListing raw standby) = lit standby := by
  simp [dspmqStandby, safeShell, hostListing, lit_injective.eq_iff]

/-- Two queue managers of which only the one is asked about. -/
def besideStandby (other : String) : Connector :=
  hostListing
    ("QMNAME(QM1) STATUS(Running) MODE(Active)\nQMNAME(" ++ other ++
      ") STATUS(Ended) MODE(Standby)")
    "QMNAME(QM1) STANDBY(Permitted)"

def noPages : KCRegistry :=
  ⟨OrderedDict.empty, OrderedDict.empty, OrderedDict.empty⟩

theorem same_diagnosis_iff_beside :
    SameDiagnosis
      (diagnoseMultiInstanceIssues UnicodeData.basic noPages none (lit "QM1")
        (besideStandby "QM2"))
      (diagnoseMultiInstanceIssues UnicodeData.basic noPages none (lit "QM1")
        (besideStandby "QM3")) := by
  obtain ⟨_, halike, _⟩ := same_diagnosis_iff UnicodeData.basic noPages none (lit "QM1")
    (besideStandby "QM2") (besideStandby "QM3") rfl (by decide +kernel) (by decide +kernel)
  refine (halike ?_).mpr ⟨?_, ?_, ?_, ?_⟩
  · decide +kernel
  · decide +kernel
  · decide +kernel
  · decide +kernel
  · simp only [besideStandby, dspmqStandby_hostListing, implies_true]

/-- A status that is not closed takes the next line with it. -/
example :
    ownLines (lit "QM1") (lit ("QMNAME(QM2) STATUS(Running)\n" ++
        "QMNAME(QM1) STATUS(Running) INSTANCE(h1)")) ≠ [] ∧
      ownLines (lit "QM1") (lit ("QMNAME(QM2) STATUS(Running\n" ++
        "QMNAME(QM1) STATUS(Running) INSTANCE(h1)")) = [] := by
  decide +kernel

/-- One queue manager, alone on its host or with another one that runs there too. -/
def runningHost (rest : String) : Connector :=
  hostListing ("QMNAME(QM1) STATUS(Running) INSTANCE(h1) MODE(Active)" ++ rest)
    "QMNAME(QM1) STANDBY(Permitted)"

/-- A second active queue manager of the host changes the diagnosis of the first. -/
theorem neighbour_changes_diagnosis :
    ¬ (linesFor (lit "QM1") (dspmqX (runningHost "")) =
          linesFor (lit "QM1") (dspmqX (runningHost
            "\nQMNAME(QM2) STATUS(Running) INSTANCE(h1) MODE(Active)")) →
        linesFor (lit "QM1") (dspmqStandby (runningHost "")) =
          linesFor (lit "QM1") (dspmqStandby (runningHost
            "\nQMNAME(QM2) STATUS(Running) INSTANCE(h1) MODE(Active)")) →
        SameDiagnosis
          (diagnoseMultiInstanceIssues UnicodeData.basic noPages none (lit "QM1")
            (runningHost ""))
          (diagnoseMultiInstanceIssues UnicodeData.basic noPages none (lit "QM1")
            (runningHost "\nQMNAME(QM2) STATUS(Running) INSTANCE(h1) MODE(Active)"))) := by
  intro h
  have hstandby : ∀ rest, dspmqStandby (runningHost rest) =
      lit "QMNAME(QM1) STANDBY(Permitted)" :=
    fun rest => dspmqStandby_hostListing _ _
  obtain ⟨_, hcount, _⟩ := h (by decide +kernel) (by rw [hstandby, hstandby])
  rw [instanceCount_eq, instanceCount_eq, Option.some_inj, Sanitizer.PyValue.int.injEq] at hcount
  revert hcount
  decide +kernel

end TwoRuns

end Miqm
end MqSentinel
