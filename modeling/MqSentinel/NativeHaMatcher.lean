import MqSentinel.RcsEngine
import MqSentinel.RawRows

/-!
# Native HA findings

`match_native_ha_findings` reads the rows of `DISPLAY NATIVEHASTATUS` and the fields of
cross-region replication.  A quorum that cannot be read as a number ends it with an
exception, which `none` stands for; the other numbers have a default.
-/

namespace MqSentinel
namespace Rcs
namespace NativeHa

/-- The argument of the matcher.  An absent `quorum_required` is `None`. -/
structure RawData where
  instances : List Row
  quorumRequired : Cell := .none
  crr : Option Row := none

def lagPctMedium : Int := 95
def lagPctHigh : Int := 80
def lagBytesHigh : Int := 10000000
def crrLagHigh : Int := 60
def crrLagCritical : Int := 300

/-- `_required_quorum` -/
def requiredQuorum (total : Nat) : Nat :=
  total / 2 + 1

/-- `text or default` on strings. -/
def orText (text default : PyStr) : PyStr :=
  if text.isEmpty then default else text

section Matcher

variable (U : UnicodeData)

/-- `str(row.get(key, "")).upper()` -/
def upperCell (row : Row) (key : String) : PyStr :=
  U.upperStr (row.getOr key (.str [])).toStr

/-- `str(row.get("INSTANCE", "<unknown>"))` -/
def instanceName (row : Row) : PyStr :=
  (row.getOr "INSTANCE" (.str (lit "<unknown>"))).toStr

def isActive (row : Row) : Bool :=
  upperCell U row "ROLE" == lit "ACTIVE"

def isInSync (row : Row) : Bool :=
  upperCell U row "INSYNC" == lit "YES"

variable (registry : KCRegistry) (mqVersion : Option PyStr)

/-- The finding of `_check_quorum`. -/
def findingQuorum (inSync total : Nat) (required : Int) : RCSFinding where
  issue := lit "Native HA quorum at risk: " ++ natStr inSync ++ lit "/" ++ natStr total ++
    lit " " ++ lit "replicas in sync (need " ++ PyInt.toStr required ++ lit ")"
  severity := .critical
  rootCause :=
    lit "Fewer in-sync replicas than the required quorum. The active " ++
    lit "instance can continue to serve while a single peer remains, " ++
    lit "but a further loss will halt the QM. Investigate replica " ++
    lit "connectivity, log device health, and pod scheduling."
  fixSteps := [ lit "DISPLAY NATIVEHASTATUS", lit "DISPLAY QMSTATUS" ]
  verifyCommands := [ lit "DISPLAY NATIVEHASTATUS" ]
  docRefs := registry.lookupTopic (lit "native_ha_quorum_lost") mqVersion
  confidence := lit "High"
  evidence :=
    [ (lit "in_sync", natStr inSync), (lit "total", natStr total),
      (lit "required", PyInt.toStr required) ]
  remediationSteps :=
    [ { scenario := lit "Restart unhealthy replica pods in Kubernetes"
        commands := [ lit "kubectl -n mq rollout restart statefulset/QM_NAME" ]
        notes :=
          lit "Replace 'mq' namespace and statefulset name with yours. " ++
          lit "Watch INSYNC=YES return for each replica." },
      { scenario := lit "Verify PVC + storage class health"
        commands :=
          [ lit "kubectl -n mq get pvc", lit "kubectl -n mq describe pvc data-QM_NAME-1" ]
        notes := lit "Common quorum-loss cause: a replica's PVC stuck in Pending." } ]

/-- `_check_quorum` -/
def checkQuorum (raw : RawData) : Option (List RCSFinding) :=
  let instances := raw.instances
  if instances = [] then some []
  else
    let inSync := instances.filter (isInSync U)
    ((raw.quorumRequired.orElse (.int (requiredQuorum instances.length))).toInt U).map
      fun required =>
        if (inSync.length : Int) ≥ required then []
        else [findingQuorum registry mqVersion inSync.length instances.length required]

/-- The first finding of `_check_active_instance`. -/
def findingNoActive (total : Nat) : RCSFinding where
  issue := lit "Native HA group has no ACTIVE instance"
  severity := .critical
  rootCause :=
    lit "No instance reports ROLE(ACTIVE). The QM is offline to " ++
    lit "applications until an instance is elected active. This " ++
    lit "usually follows a quorum loss or a coordinated restart."
  fixSteps := [ lit "DISPLAY NATIVEHASTATUS", lit "DISPLAY QMSTATUS" ]
  verifyCommands := [ lit "DISPLAY NATIVEHASTATUS" ]
  docRefs := registry.lookupTopic (lit "native_ha_quorum_lost") mqVersion
  confidence := lit "High"
  evidence := [ (lit "actives", lit "0"), (lit "total", natStr total) ]
  remediationSteps :=
    [ { scenario := lit "Election will run automatically once quorum returns"
        commands :=
          [ lit "kubectl -n mq get pods -l app.kubernetes.io/name=ibm-mq",
            lit "kubectl -n mq logs QM_NAME-0 | tail -100" ]
        notes :=
          lit "Bring replicas back online (PVC, node, network). MQ elects " ++
          lit "ACTIVE within seconds of quorum returning." } ]

/-- The second finding of `_check_active_instance`. -/
def findingSplitBrain (actives : Nat) : RCSFinding where
  issue := lit "Native HA reports " ++ natStr actives ++ lit " ACTIVE instances (split-brain)"
  severity := .critical
  rootCause :=
    lit "Two or more replicas claim the ACTIVE role simultaneously. " ++
    lit "This indicates a split-brain or stale election state. Stop " ++
    lit "client traffic and engage IBM support before manual intervention."
  fixSteps := [ lit "DISPLAY NATIVEHASTATUS" ]
  verifyCommands := [ lit "DISPLAY NATIVEHASTATUS" ]
  docRefs := registry.lookupTopic (lit "native_ha_quorum_lost") mqVersion
  confidence := lit "High"
  evidence := [ (lit "actives", natStr actives) ]
  remediationSteps :=
    [ { scenario := lit "STOP client traffic, then engage IBM support"
        commands :=
          [ lit "# 1. Update upstream load balancer to drain traffic.",
            lit "# 2. Open IBM support case — Native HA split-brain.",
            lit "# 3. Do NOT manually elect — risk of data loss." ]
        notes :=
          lit "⚠️ This is rare and dangerous. Two ACTIVE replicas means the " ++
          lit "quorum logic failed, possibly due to a network partition during " ++
          lit "a leader transition. Manual override risks unrecoverable data loss." } ]

/-- `_check_active_instance` -/
def checkActiveInstance (instances : List Row) : List RCSFinding :=
  match (instances.filter (isActive U)).length with
  | 0 => [findingNoActive registry mqVersion instances.length]
  | 1 => []
  | actives => [findingSplitBrain registry mqVersion actives]

/-- The finding of `_check_replicas`. -/
def findingReplica (row : Row) : RCSFinding :=
  let name := instanceName row
  let role := upperCell U row "ROLE"
  let status := upperCell U row "STATUS"
  let inSync := upperCell U row "INSYNC"
  { issue := lit "Native HA replica " ++ name ++ lit " status=" ++
      orText status (lit "UNKNOWN") ++ lit " " ++ lit "insync=" ++ orText inSync (lit "UNKNOWN")
    severity := .high
    amqCode := some (lit "AMQ3209")
    rootCause :=
      lit "Replica is not actively replicating. Common causes: " ++
      lit "pod scheduled on tainted node, persistent volume " ++
      lit "unavailable, network partition between replicas, or " ++
      lit "the replica process not yet caught up after restart."
    fixSteps := [ lit "DISPLAY NATIVEHASTATUS", lit "DISPLAY QMSTATUS" ]
    verifyCommands := [ lit "DISPLAY NATIVEHASTATUS" ]
    docRefs := registry.lookupAmq U (lit "AMQ3209") mqVersion
    confidence := lit "High"
    evidence :=
      [ (lit "instance", name), (lit "role", orText role (lit "UNKNOWN")),
        (lit "status", orText status (lit "UNKNOWN")),
        (lit "insync", orText inSync (lit "UNKNOWN")) ]
    remediationSteps :=
      [ { scenario := lit "Restart the unhealthy replica pod"
          commands := [ lit "kubectl -n mq delete pod " ++ name ]
          notes :=
            lit "StatefulSet recreates it; INSYNC=YES returns " ++
            lit "once log replay completes." },
        { scenario := lit "Inspect the replica's log for replication errors"
          commands :=
            [ lit "kubectl -n mq logs " ++ name ++
                lit " --tail=200 | grep -E 'AMQ32|AMQ30'" ]
          notes :=
            lit "Look for AMQ3209/AMQ3035 series — those name the underlying cause." } ] }

/-- `_check_replicas` -/
def checkReplicas (instances : List Row) : List RCSFinding :=
  instances.filterMap fun row =>
    if isActive U row then none
    else if upperCell U row "STATUS" ∉ [lit "RUNNING", lit "REPLICA"] ∨
        upperCell U row "INSYNC" = lit "NO" then
      some (findingReplica U registry mqVersion row)
    else none

/-- `pct` of a row. -/
def replayPct (row : Row) : Int :=
  ((row.getOr "REPLAYPCT" (.int 100)).toInt U).getD 100

/-- `backlog` of a row. -/
def backlog (row : Row) : Int :=
  ((row.getOr "BACKLOG" (.int 0)).toInt U).getD 0

/-- The finding of `_check_log_replay_lag`. -/
def findingReplayLag (name : PyStr) (pct backlog : Int) (severity : Severity)
    (reason : PyStr) : RCSFinding where
  issue := lit "Native HA replica " ++ name ++ lit " log replay lag (" ++ PyInt.toStr pct ++
    lit "%)"
  severity := severity
  rootCause := reason
  fixSteps := [ lit "DISPLAY NATIVEHASTATUS", lit "DISPLAY QMSTATUS" ]
  verifyCommands := [ lit "DISPLAY NATIVEHASTATUS" ]
  docRefs := registry.lookupTopic (lit "native_ha_log_replication") mqVersion
  confidence := lit "High"
  evidence :=
    [ (lit "instance", name), (lit "replay_pct", PyInt.toStr pct),
      (lit "backlog_bytes", PyInt.toStr backlog) ]
  remediationSteps :=
    [ { scenario := lit "Increase IOPS on the lagging replica's storage"
        commands :=
          [ lit "kubectl -n mq describe pod " ++ name ++ lit " | grep -A5 'Volumes:'",
            lit "# Then resize PVC (StorageClass must support it):",
            lit "kubectl -n mq patch pvc data-QM_NAME-1 -p \\\n" ++
              lit "  '\x7b\"spec\":\x7b\"resources\":\x7b\"requests\":\x7b" ++
              lit "\"storage\":\"200Gi\"\x7d\x7d\x7d\x7d'" ]
        notes :=
          lit "Persistent lag with low backlog often means IOPS-bound. " ++
          lit "Resize the PVC or migrate to a faster StorageClass." } ]

/-- The body of the loop of `_check_log_replay_lag`. -/
def replayLag (row : Row) : Option RCSFinding :=
  if isActive U row then none
  else
    let name := instanceName row
    let pct := replayPct U row
    let bytes := backlog U row
    if pct < lagPctHigh ∨ bytes > lagBytesHigh then
      some (findingReplayLag registry mqVersion name pct bytes .high
        (lit "Replica " ++ name ++ lit " is far behind the active log " ++
          lit "(" ++ PyInt.toStr pct ++ lit "% replay, " ++ PyInt.toStr bytes ++
          lit " bytes backlog). At this rate the " ++
          lit "replica may not catch up under sustained load."))
    else if pct < lagPctMedium then
      some (findingReplayLag registry mqVersion name pct bytes .medium
        (lit "Replica " ++ name ++ lit " replay is at " ++ PyInt.toStr pct ++
          lit "%. Watch for trend; if " ++
          lit "replay percentage continues to drop, escalate to HIGH."))
    else none

/-- `_check_log_replay_lag` -/
def checkLogReplayLag (instances : List Row) : List RCSFinding :=
  instances.filterMap (replayLag U registry mqVersion)

/-- The finding of `_check_crr_lag`. -/
def findingCrrLag (lag : Int) (group role : PyStr) : RCSFinding where
  issue := lit "Cross-region replication lag is " ++ PyInt.toStr lag ++ lit "s (group " ++
    orText group (lit "UNKNOWN") ++ lit ")"
  severity := if lag ≥ crrLagCritical then .critical else .high
  rootCause :=
    lit "CRR async replication to recovery group " ++ orText group (lit "<unknown>") ++
    lit " " ++ lit "is " ++ PyInt.toStr lag ++
    lit " seconds behind. RPO degrades linearly with lag; " ++
    lit "investigate inter-region network and replica health."
  fixSteps := [ lit "DISPLAY QMSTATUS RECOVERYGROUP", lit "DISPLAY NATIVEHASTATUS" ]
  verifyCommands := [ lit "DISPLAY QMSTATUS RECOVERYGROUP" ]
  docRefs := registry.lookupTopic (lit "native_ha_crr") mqVersion
  confidence := lit "High"
  evidence :=
    [ (lit "lag_seconds", PyInt.toStr lag), (lit "recovery_group", group),
      (lit "role", role) ]
  remediationSteps :=
    [ { scenario := lit "Investigate inter-region network bandwidth/latency"
        commands :=
          [ lit "# From the LIVE region, to the RECOVERY region's CRR endpoint:",
            lit "iperf3 -c recovery.region.example -t 30",
            lit "ping -c 100 recovery.region.example" ]
        notes :=
          lit "CRR throughput tracks available bandwidth. RTT > 50ms with sustained " ++
          lit "write load is a common cause of growing lag." },
      { scenario := lit "Verify recovery-group QMs are healthy"
        commands :=
          [ lit "# In the RECOVERY region:", lit "DISPLAY QMSTATUS",
            lit "DISPLAY NATIVEHASTATUS" ]
        notes :=
          lit "If the recovery side has its own replica issue, CRR lag will grow " ++
          lit "regardless of network." } ]

/-- `_check_crr_lag` -/
def checkCrrLag (crr : Option Row) : List RCSFinding :=
  match crr with
  | none => []
  | some fields =>
      if !fields.nonempty || !(fields.get "enabled").truthy then []
      else
        let lag := ((fields.getOr "lag_seconds" (.int 0)).toInt U).getD 0
        if lag < crrLagHigh then []
        else
          [findingCrrLag registry mqVersion lag
            (fields.getOr "recovery_group" (.str [])).toStr (fields.getOr "role" (.str [])).toStr]

/-- `match_native_ha_findings` -/
def matchNativeHaFindings (raw : RawData) : Option (List RCSFinding) :=
  if raw.instances = [] ∧ (raw.crr.elim false OrderedDict.nonempty) = false then some []
  else
    (checkQuorum U registry mqVersion raw).map fun quorum =>
      quorum ++ checkActiveInstance U registry mqVersion raw.instances ++
        checkReplicas U registry mqVersion raw.instances ++
        checkLogReplayLag U registry mqVersion raw.instances ++
        checkCrrLag U registry mqVersion raw.crr

end Matcher

end NativeHa
end Rcs
end MqSentinel
