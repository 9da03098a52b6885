import MqSentinel.DlqMatcher

/-!
# RDQM findings

`match_rdqm_findings` reads what the tool took from `rdqmstatus`, `crm_mon` and
`drbdadm status`.  Quorum is judged by the number of nodes that the second parser
counted, and an entry with `split_brain` is left out of the two other DRBD checks.
-/

namespace MqSentinel
namespace Rcs
namespace Rdqm

/-- `_BAD_DRBD_CONN` -/
def badDrbdConn : List PyStr :=
  [lit "WFConnection", lit "StandAlone", lit "Disconnecting", lit "Unconnected", lit "Timeout"]

/-- `_DEGRADED_DRBD_CONN` -/
def degradedDrbdConn : List PyStr :=
  [ lit "SyncTarget", lit "SyncSource", lit "VerifyS", lit "VerifyT", lit "PausedSyncT",
    lit "PausedSyncS" ]

/-- `_BAD_DRBD_DISK` -/
def badDrbdDisk : List PyStr :=
  [lit "Inconsistent", lit "Outdated", lit "DUnknown", lit "Failed", lit "Diskless"]

/-- The `pacemaker` dictionary; a missing key reads like the default. -/
structure Pacemaker where
  totalNodes : Int := 0
  onlineNodes : List PyStr := []
  offlineNodes : List PyStr := []
  failedResources : List Row := []

/-- The argument of the matcher; an empty dictionary of `pacemaker` is `none`. -/
structure RawData where
  rdqmStatus : Row := OrderedDict.empty
  pacemaker : Option Pacemaker := none
  drbd : List Row := []

section Matcher

variable (registry : KCRegistry) (mqVersion : Option PyStr)

/-- The finding of `_check_pacemaker_quorum`. -/
def findingQuorumLost (online : List PyStr) (total required : Int) : RCSFinding where
  issue := lit "Pacemaker quorum lost: " ++ natStr online.length ++ lit "/" ++
    PyInt.toStr total ++ lit " nodes online (need " ++ PyInt.toStr required ++ lit ")"
  severity := .critical
  rootCause :=
    lit "Pacemaker has lost quorum. Without a majority of nodes, the " ++
    lit "cluster cannot safely run resources and RDQM-managed QMs " ++
    lit "are stopped or fenced. Investigate node connectivity, " ++
    lit "fencing devices, and pacemaker.service status on each host."
  fixSteps := [ lit "crm_mon -1", lit "rdqmstatus" ]
  verifyCommands := [ lit "crm_mon -1" ]
  docRefs := registry.lookupTopic (lit "rdqm_pacemaker") mqVersion
  confidence := lit "High"
  evidence :=
    [ (lit "online", joinStr "," online), (lit "total", PyInt.toStr total),
      (lit "required", PyInt.toStr required) ]
  remediationSteps :=
    [ { scenario := lit "Bring offline nodes back online (run ON the offline host)"
        commands :=
          [ lit "systemctl status pacemaker corosync",
            lit "systemctl start corosync",
            lit "systemctl start pacemaker" ]
        notes := lit "Quorum returns once a majority of nodes reach the same view." },
      { scenario := lit "Fencing devices are misconfigured"
        commands := [ lit "pcs stonith status", lit "pcs stonith cleanup" ]
        notes :=
          lit "Stuck STONITH operations prevent recovery. Engage your platform " ++
          lit "team if cleanup doesn't help." } ]

/-- `_check_pacemaker_quorum` -/
def checkPacemakerQuorum (pace : Pacemaker) : List RCSFinding :=
  let required := pace.totalNodes / 2 + 1
  if pace.totalNodes ≤ 0 then []
  else if required ≤ pace.onlineNodes.length then []
  else [findingQuorumLost registry mqVersion pace.onlineNodes pace.totalNodes required]

/-- The finding of `_check_offline_nodes`. -/
def findingOfflineNodes (offline : List PyStr) : RCSFinding where
  issue := lit "Pacemaker reports " ++ natStr offline.length ++ lit " offline node(s): " ++
    joinStr ", " offline
  severity := .high
  rootCause :=
    lit "One or more cluster nodes are offline from Pacemaker's view. " ++
    lit "Causes typically include the node being powered off, a " ++
    lit "network partition, or pacemaker.service / corosync stopped. " ++
    lit "The cluster runs degraded until the node returns."
  fixSteps := [ lit "crm_mon -1", lit "rdqmstatus" ]
  verifyCommands := [ lit "crm_mon -1" ]
  docRefs := registry.lookupTopic (lit "rdqm_pacemaker") mqVersion
  confidence := lit "High"
  evidence := [ (lit "offline", joinStr "," offline) ]
  remediationSteps :=
    [ { scenario := lit "Restore the offline node (run ON each offline host)"
        commands :=
          [ lit "systemctl start corosync",
            lit "systemctl start pacemaker",
            lit "crm_mon -1" ]
        notes :=
          lit "If the host itself is unreachable, escalate to platform/network team." } ]

/-- `_check_offline_nodes` -/
def checkOfflineNodes (pace : Pacemaker) : List RCSFinding :=
  if pace.offlineNodes = [] then []
  else [findingOfflineNodes registry mqVersion pace.offlineNodes]

/-- The finding of `_check_failed_resources` for one entry. -/
def findingFailedResource (f : Row) : RCSFinding :=
  let resource := (f.getOr "resource" (.str (lit "<unknown>"))).toStr
  let node := (f.getOr "node" (.str [])).toStr
  let status := (f.getOr "status" (.str [])).toStr
  { issue := lit "Pacemaker resource " ++ resource ++ lit " failed on " ++
      (if node.isEmpty then lit "unknown node" else node)
    severity := .high
    rootCause :=
      lit "Resource " ++ resource ++ lit " reports " ++
      (if status.isEmpty then lit "failed" else status) ++ lit ". Failed " ++
      lit "resources block automatic failover and require manual " ++
      lit "investigation of the underlying service (RDQM agent, " ++
      lit "filesystem, virtual IP, or DRBD device)."
    fixSteps := [ lit "crm_mon -1", lit "rdqmstatus" ]
    verifyCommands := [ lit "crm_mon -1" ]
    docRefs := registry.lookupTopic (lit "rdqm_troubleshooting") mqVersion
    confidence := lit "Medium"
    evidence :=
      [ (lit "resource", resource), (lit "node", node), (lit "status", status) ]
    remediationSteps :=
      [ { scenario := lit "Clean up the failed resource after fixing root cause"
          commands := [ lit "pcs resource cleanup " ++ resource, lit "crm_mon -1" ]
          notes :=
            lit "cleanup retries the resource. If it fails again, the underlying " ++
            lit "service (RDQM agent / filesystem / VIP / DRBD) still has an issue." } ] }

/-- `_check_failed_resources` -/
def checkFailedResources (pace : Pacemaker) : List RCSFinding :=
  pace.failedResources.map (findingFailedResource registry mqVersion)

/-- `str(d.get("resource", "<unknown>"))` -/
def resourceName (d : Row) : PyStr :=
  (d.getOr "resource" (.str (lit "<unknown>"))).toStr

/-- The finding of `_check_drbd_split_brain` for one resource. -/
def findingSplitBrain (name : PyStr) : RCSFinding where
  issue := lit "DRBD split-brain detected on resource " ++ name
  severity := .critical
  rootCause :=
    lit "Both peers have written to the same DRBD resource while " ++
    lit "disconnected, producing divergent block-level state. " ++
    lit "Manual operator action is required to choose the " ++
    lit "authoritative copy and discard the other — the MCP " ++
    lit "intentionally does NOT suggest the destructive commands."
  fixSteps := [ lit "drbdadm status " ++ name, lit "rdqmstatus", lit "crm_mon -1" ]
  verifyCommands := [ lit "drbdadm status " ++ name ]
  docRefs := registry.lookupTopic (lit "rdqm_split_brain") mqVersion
  confidence := lit "High"
  evidence := [ (lit "resource", name) ]
  remediationSteps :=
    [ { scenario := lit "Resolve split-brain — IRREVERSIBLE, IBM SUPPORT FIRST"
        commands :=
          [ lit "# Step 1: identify the VICTIM (side whose data you DISCARD).",
            lit "#   This is a business decision — DO NOT pick automatically.",
            lit "# Step 2: On the VICTIM node:",
            lit "drbdadm disconnect " ++ name,
            lit "drbdadm secondary " ++ name,
            lit "drbdadm -- --discard-my-data connect " ++ name,
            lit "# Step 3: On the SURVIVOR node:",
            lit "drbdadm connect " ++ name ]
        notes :=
          lit "⚠️ DATA LOSS WARNING: --discard-my-data PERMANENTLY DISCARDS " ++
          lit "the victim's data since divergence. Engage IBM Support and " ++
          lit "your DR runbook owner before running. There is no undo." } ]

/-- `_check_drbd_split_brain` -/
def checkDrbdSplitBrain (drbdResources : List Row) : List RCSFinding :=
  (drbdResources.filter fun d => (d.get "split_brain").truthy).map fun d =>
    findingSplitBrain registry mqVersion (resourceName d)

/-- The severity and the cause of a connection state. -/
def connectionCause (name conn : PyStr) : Severity × PyStr :=
  if conn ∈ badDrbdConn then
    (.high,
      lit "DRBD resource " ++ name ++ lit " reports " ++ conn ++ lit ": replication is not " ++
      lit "active. Check inter-node network reachability, DRBD ports " ++
      lit "(7788+), and any firewall changes.")
  else if conn ∈ degradedDrbdConn then
    (.medium,
      lit "DRBD resource " ++ name ++ lit " is in " ++ conn ++ lit ": a sync is in progress " ++
      lit "or paused. Monitor — promote-blocking states extend RPO.")
  else
    (.medium,
      lit "DRBD resource " ++ name ++ lit " reports unexpected connection state " ++ conn ++
      lit ". Verify against the DRBD manual.")

/-- The finding of `_check_drbd_connection` for one entry. -/
def findingConnection (name conn : PyStr) : RCSFinding where
  issue := lit "DRBD resource " ++ name ++ lit " connection_state=" ++ conn
  severity := (connectionCause name conn).1
  rootCause := (connectionCause name conn).2
  fixSteps := [ lit "drbdadm status " ++ name, lit "rdqmstatus" ]
  verifyCommands := [ lit "drbdadm status " ++ name ]
  docRefs := registry.lookupTopic (lit "rdqm_troubleshooting") mqVersion
  confidence := lit "Medium"
  evidence := [ (lit "resource", name), (lit "connection_state", conn) ]
  remediationSteps :=
    [ { scenario := lit "Reconnect after fixing network/firewall"
        commands := [ lit "drbdadm connect " ++ name, lit "drbdadm status " ++ name ]
        notes :=
          lit "DRBD ports default to 7788+ per resource. Confirm both " ++
          lit "iptables/firewalld and any inter-node ACLs allow them." } ]

/-- The connection fault of an entry, whatever its split-brain flag. -/
def connectionFault (d : Row) : Option RCSFinding :=
  let conn := strip (d.getOr "connection_state" (.str [])).toStr
  if conn = [] ∨ conn = lit "Connected" then none
  else some (findingConnection registry mqVersion (resourceName d) conn)

/-- `_check_drbd_connection` -/
def checkDrbdConnection (drbdResources : List Row) : List RCSFinding :=
  (drbdResources.filter fun d => !(d.get "split_brain").truthy).filterMap
    (connectionFault registry mqVersion)

/-- The finding of `_check_drbd_disk_state` for one side of an entry. -/
def findingDisk (name who state : PyStr) : RCSFinding where
  issue := lit "DRBD " ++ who ++ lit " disk on " ++ name ++ lit " is " ++ state
  severity := .high
  rootCause :=
    lit "The " ++ who ++ lit " disk for DRBD resource " ++ name ++ lit " reports " ++
    state ++ lit ". Promotion of this side risks data loss " ++
    lit "until the disk returns to UpToDate via a successful " ++
    lit "resync from a healthy peer."
  fixSteps := [ lit "drbdadm status " ++ name, lit "rdqmstatus" ]
  verifyCommands := [ lit "drbdadm status " ++ name ]
  docRefs := registry.lookupTopic (lit "rdqm_troubleshooting") mqVersion
  confidence := lit "High"
  evidence := [ (lit "resource", name), (lit "side", who), (lit "state", state) ]
  remediationSteps :=
    [ { scenario := lit "Wait for resync from a healthy peer"
        commands :=
          [ lit "drbdadm status " ++ name,
            lit "# Watch 'replication:SyncTarget' progress." ]
        notes :=
          lit "⚠️ Do NOT manually promote the Inconsistent side — risk of data " ++
          lit "loss. Let DRBD resync from a peer that is UpToDate." } ]

/-- The disk fault of one side of an entry, whatever its split-brain flag. -/
def diskFault (d : Row) (who key : String) : Option RCSFinding :=
  let state := strip (d.getOr key (.str [])).toStr
  if state = [] ∨ state = lit "UpToDate" then none
  else if state ∉ badDrbdDisk then none
  else some (findingDisk registry mqVersion (resourceName d) (lit who) state)

/-- The disk faults of an entry. -/
def diskFaults (d : Row) : List RCSFinding :=
  (diskFault registry mqVersion d "local" "disk_state").toList ++
    (diskFault registry mqVersion d "peer" "peer_disk_state").toList

/-- `_check_drbd_disk_state` -/
def checkDrbdDiskState (drbdResources : List Row) : List RCSFinding :=
  (drbdResources.filter fun d => !(d.get "split_brain").truthy).flatMap
    (diskFaults registry mqVersion)

/-- The finding of `_check_rdqm_no_running_node`. -/
def findingNoRunningNode (qm haState : PyStr) : RCSFinding where
  issue := lit "RDQM " ++ qm ++ lit " has no running node (ha_state=" ++
    (if haState.isEmpty then lit "unknown" else haState) ++ lit ")"
  severity := .critical
  rootCause :=
    lit "rdqmstatus reports no node currently running the QM. " ++
    lit "Pacemaker may have failed to start the resource, the " ++
    lit "preferred node may be offline, or DRBD is not promoting. " ++
    lit "The QM is unavailable to applications."
  fixSteps := [ lit "rdqmstatus", lit "crm_mon -1" ]
  verifyCommands := [ lit "rdqmstatus" ]
  docRefs := registry.lookupTopic (lit "rdqm_overview") mqVersion
  confidence := lit "Medium"
  evidence := [ (lit "qm_name", qm), (lit "ha_state", haState) ]
  remediationSteps :=
    [ { scenario := lit "Move the QM to the preferred node"
        commands := [ lit "pcs resource move " ++ qm ++ lit "-master rdqm-1", lit "crm_mon -1" ]
        notes :=
          lit "Replace 'rdqm-1' with your preferred host. Pacemaker also " ++
          lit "needs DRBD UpToDate on the target." },
      { scenario := lit "Restart the resource group after fixing root cause"
        commands :=
          [ lit "pcs resource cleanup " ++ qm ++ lit "-master",
            lit "pcs resource cleanup " ++ qm ++ lit "-slave" ]
        notes := lit "Cleanup clears Pacemaker's failure history and retries." } ]

/-- `_check_rdqm_no_running_node` -/
def checkRdqmNoRunningNode (rdqm : Row) : List RCSFinding :=
  if rdqm.items = [] then []
  else
    let qm := (rdqm.getOr "qm_name" (.str (lit "<unknown>"))).toStr
    let running := strip ((rdqm.get "running_node").orElse (.str [])).toStr
    let haState := strip (rdqm.getOr "ha_state" (.str [])).toStr
    if running ≠ [] then [] else [findingNoRunningNode registry mqVersion qm haState]

/-- `match_rdqm_findings` -/
def matchRdqmFindings (raw : RawData) : List RCSFinding :=
  if raw.rdqmStatus.items = [] ∧ raw.pacemaker = none ∧ raw.drbd = [] then []
  else
    let pace := raw.pacemaker.getD {}
    checkPacemakerQuorum registry mqVersion pace ++
      checkOfflineNodes registry mqVersion pace ++
      checkFailedResources registry mqVersion pace ++
      checkDrbdSplitBrain registry mqVersion raw.drbd ++
      checkDrbdConnection registry mqVersion raw.drbd ++
      checkDrbdDiskState registry mqVersion raw.drbd ++
      checkRdqmNoRunningNode registry mqVersion raw.rdqmStatus

end Matcher

section Members

variable {registry : KCRegistry} {mqVersion : Option PyStr} {pace : Pacemaker}
variable {drbd : List Row} {d : Row} {f : RCSFinding}

theorem mem_checkPacemakerQuorum_iff :
    f ∈ checkPacemakerQuorum registry mqVersion pace ↔
      (0 < pace.totalNodes ∧ (pace.onlineNodes.length : Int) < pace.totalNodes / 2 + 1) ∧
        f = findingQuorumLost registry mqVersion pace.onlineNodes pace.totalNodes
          (pace.totalNodes / 2 + 1) := by
  simp only [checkPacemakerQuorum]
  split_ifs with hnone henough
  · exact iff_of_false (List.not_mem_nil) (by omega)
  · exact iff_of_false (List.not_mem_nil) (by omega)
  · rw [List.mem_singleton]
    exact ⟨fun h => ⟨by omega, h⟩, And.right⟩

theorem mem_checkOfflineNodes_iff :
    f ∈ checkOfflineNodes registry mqVersion pace ↔
      pace.offlineNodes ≠ [] ∧ f = findingOfflineNodes registry mqVersion pace.offlineNodes := by
  rw [checkOfflineNodes]
  split_ifs with hnone
  · simp [hnone]
  · simp [hnone]

theorem mem_checkFailedResources_iff :
    f ∈ checkFailedResources registry mqVersion pace ↔
      ∃ row ∈ pace.failedResources, f = findingFailedResource registry mqVersion row := by
  simp only [checkFailedResources, List.mem_map, eq_comm]

theorem mem_checkDrbdSplitBrain_iff :
    f ∈ checkDrbdSplitBrain registry mqVersion drbd ↔
      ∃ d ∈ drbd, (d.get "split_brain").truthy = true ∧
        f = findingSplitBrain registry mqVersion (resourceName d) := by
  simp only [checkDrbdSplitBrain, List.mem_map, List.mem_filter, and_assoc, eq_comm]

theorem mem_checkDrbdConnection_iff :
    f ∈ checkDrbdConnection registry mqVersion drbd ↔
      ∃ d ∈ drbd, (d.get "split_brain").truthy = false ∧
        connectionFault registry mqVersion d = some f := by
  simp only [checkDrbdConnection, List.mem_filterMap, List.mem_filter, and_assoc,
    Bool.not_eq_true']

theorem mem_checkDrbdDiskState_iff :
    f ∈ checkDrbdDiskState registry mqVersion drbd ↔
      ∃ d ∈ drbd, (d.get "split_brain").truthy = false ∧
        f ∈ diskFaults registry mqVersion d := by
  simp only [checkDrbdDiskState, List.mem_flatMap, List.mem_filter, and_assoc,
    Bool.not_eq_true']

/-- A connection fault names the resource of its entry. -/
theorem exists_of_connectionFault
    (h : connectionFault registry mqVersion d = some f) :
    ∃ conn, f = findingConnection registry mqVersion (resourceName d) conn := by
  simp only [connectionFault] at h
  split_ifs at h
  exact ⟨_, (Option.some_inj.mp h).symm⟩

theorem exists_of_diskFault
    {who key : String} (h : diskFault registry mqVersion d who key = some f) :
    ∃ state, f = findingDisk registry mqVersion (resourceName d) (lit who) state := by
  simp only [diskFault] at h
  split_ifs at h
  exact ⟨_, (Option.some_inj.mp h).symm⟩

/-- A disk fault names the resource of its entry. -/
theorem exists_of_mem_diskFaults
    (h : f ∈ diskFaults registry mqVersion d) :
    ∃ who state, f = findingDisk registry mqVersion (resourceName d) who state := by
  rw [diskFaults, List.mem_append, Option.mem_toList, Option.mem_toList] at h
  rcases h with h | h
  · exact ⟨_, exists_of_diskFault h⟩
  · exact ⟨_, exists_of_diskFault h⟩

theorem exists_of_mem_checkRdqmNoRunningNode
    {rdqm : Row} (h : f ∈ checkRdqmNoRunningNode registry mqVersion rdqm) :
    ∃ qm haState, f = findingNoRunningNode registry mqVersion qm haState := by
  simp only [checkRdqmNoRunningNode] at h
  split_ifs at h
  · cases h
  · cases h
  · exact ⟨_, _, List.mem_singleton.mp h⟩

end Members

end Rdqm
end Rcs
end MqSentinel
