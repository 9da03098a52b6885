import MqSentinel.ChannelMatcher
import MqSentinel.DlqMatcher

/-!
# Multi-instance findings

`match_miqm_findings` reads the instances that `dspmq -x` lists, the standby permission,
the state of the shared file system and the tail of the error log.  Every entry of
`instances` counts, whatever queue manager it names.
-/

namespace MqSentinel
namespace Rcs
namespace Miqm

open Regex

/-- The argument of the matcher. -/
structure RawData where
  instances : List Row
  standbyPermitted : Bool
  sharedFsOk : Cell := .none
  sharedFsPath : Cell := .none
  errorLogTail : PyStr

section Matcher

variable (U : UnicodeData)

/-- `_AMQ_FAILOVER_RE`: `\bAMQ7228\b|\bAMQ7230\b|\bAMQ7232\b` -/
def amqFailover : Rx CodePoint :=
  let code (s : String) : Rx CodePoint :=
    Rx.seq (Rx.edge U.isWord) (Rx.seq (litRx s) (Rx.edge U.isWord))
  Rx.alt (code "AMQ7228") (Rx.alt (code "AMQ7230") (code "AMQ7232"))

/-- `str(i.get("instance_type", i.get("role", ""))).upper() == "ACTIVE"` -/
def isActive (row : Row) : Bool :=
  U.upperStr (row.getOr "instance_type" (row.getOr "role" (.str []))).toStr == lit "ACTIVE"

/-- `str(i.get("host", "?"))` -/
def hostName (row : Row) : PyStr :=
  (row.getOr "host" (.str (lit "?"))).toStr

variable (registry : KCRegistry) (mqVersion : Option PyStr)

/-- The finding of `_check_no_active`. -/
def findingNoActive (total : Nat) : RCSFinding where
  issue := lit "MIQM has no ACTIVE instance"
  severity := .critical
  rootCause :=
    lit "Neither configured instance reports ACTIVE. Applications cannot " ++
    lit "connect until an instance assumes the active role. Check shared " ++
    lit "filesystem availability and lease renewal on each host."
  fixSteps := [ lit "dspmq -o standby", lit "dspmq -x" ]
  verifyCommands := [ lit "dspmq -x" ]
  docRefs := registry.lookupTopic (lit "miqm_troubleshooting") mqVersion
  confidence := lit "High"
  evidence := [ (lit "total_instances", natStr total) ]
  remediationSteps :=
    [ { scenario := lit "Start the QM with standby permitted"
        commands :=
          [ lit "# On the primary host:",
            lit "strmqm -x QM_NAME",
            lit "# On the standby host (after primary is up):",
            lit "strmqm -x QM_NAME" ]
        notes := lit "-x enables standby. Confirm shared FS is mounted on both hosts first." } ]

/-- `_check_no_active` -/
def checkNoActive (instances : List Row) : List RCSFinding :=
  if instances = [] then []
  else if instances.filter (isActive U) ≠ [] then []
  else [findingNoActive registry mqVersion instances.length]

/-- The finding of `_check_standby_permission`. -/
def findingStandbyNotPermitted : RCSFinding where
  issue := lit "MIQM standby instances are not permitted"
  severity := .high
  rootCause :=
    lit "The QM was started without `-x` (or STANDBY(NOT PERMITTED) is " ++
    lit "configured). Failover will not happen automatically — the active " ++
    lit "instance is a single point of failure."
  fixSteps := [ lit "dspmq -o standby" ]
  verifyCommands := [ lit "dspmq -o standby" ]
  docRefs := registry.lookupTopic (lit "miqm_overview") mqVersion
  confidence := lit "High"
  evidence := [ (lit "standby_permitted", lit "false") ]
  remediationSteps :=
    [ { scenario := lit "Restart the QM with -x to permit standby"
        commands := [ lit "endmqm -i QM_NAME", lit "strmqm -x QM_NAME" ]
        notes :=
          lit "endmqm -i is immediate shutdown; coordinate with applications. " ++
          lit "Then start the standby on the other host: strmqm -x QM_NAME" } ]

/-- `_check_standby_permission` -/
def checkStandbyPermission (permitted : Bool) (instances : List Row) : List RCSFinding :=
  if permitted ∨ instances = [] then [] else [findingStandbyNotPermitted registry mqVersion]

/-- The finding of `_check_dual_active`. -/
def findingDualActive (actives : Nat) (hosts : PyStr) : RCSFinding where
  issue := lit "MIQM reports " ++ natStr actives ++ lit " ACTIVE instances (" ++ hosts ++
    lit ")"
  severity := .critical
  rootCause :=
    lit "Only one MIQM instance can hold the shared-filesystem lock. " ++
    lit "Two ACTIVE instances usually indicates the shared filesystem " ++
    lit "lost its lock semantics (NFS misconfiguration, GPFS quorum " ++
    lit "issue) — risking message corruption."
  fixSteps := [ lit "dspmq -x", lit "dspmq -o standby" ]
  verifyCommands := [ lit "dspmq -x" ]
  docRefs := registry.lookupTopic (lit "miqm_troubleshooting") mqVersion
  confidence := lit "High"
  evidence := [ (lit "active_count", natStr actives), (lit "hosts", hosts) ]
  remediationSteps :=
    [ { scenario := lit "STOP traffic, identify rogue, end one instance"
        commands :=
          [ lit "# 1. Drain upstream load balancer / VIP.",
            lit "# 2. On the rogue host (NOT the legitimate active):",
            lit "endmqm -i QM_NAME",
            lit "# 3. Confirm only ONE instance is active:",
            lit "dspmq -x" ]
        notes :=
          lit "⚠️ Risk of corruption — engage IBM Support. The shared FS lock should " ++
          lit "prevent this; if it didn't, the FS is misconfigured (NFS lease, GPFS quorum)." } ]

/-- `_check_dual_active` -/
def checkDualActive (instances : List Row) : List RCSFinding :=
  let actives := instances.filter (isActive U)
  if actives.length ≤ 1 then []
  else
    [findingDualActive registry mqVersion actives.length (joinStr ", " (actives.map hostName))]

/-- The finding of `_check_shared_fs`. -/
def findingSharedFs (path : PyStr) : RCSFinding where
  issue := lit "MIQM shared filesystem health probe failed (" ++
    (if path.isEmpty then lit "unknown path" else path) ++ lit ")"
  severity := .high
  rootCause :=
    lit "The shared filesystem hosting the QM data + log is unreachable " ++
    lit "or denying writes. Without it, the active instance will fence " ++
    lit "itself and standby cannot promote either."
  fixSteps := [ lit "dspmq -x", lit "dspmq -o standby" ]
  verifyCommands := [ lit "dspmq -x" ]
  docRefs := registry.lookupTopic (lit "miqm_troubleshooting") mqVersion
  confidence := lit "Medium"
  evidence := [ (lit "path", path) ]
  remediationSteps :=
    [ { scenario := lit "Verify shared filesystem mount and lock semantics"
        commands :=
          [ lit "# On EACH host:",
            lit "mount | grep '" ++ path ++ lit "'",
            lit "touch " ++ path ++ lit "/.miqm-write-test && rm " ++ path ++
              lit "/.miqm-write-test",
            lit "# NFSv4 lease must be < 90s; GPFS quorum must be intact." ]
        notes :=
          lit "MIQM requires posix file locks. NFSv3 'soft' mounts break this. " ++
          lit "Use NFSv4 with 'hard,intr' or GPFS." } ]

/-- `_check_shared_fs` -/
def checkSharedFs (fsOk path : Cell) : List RCSFinding :=
  if fsOk = .none ∨ fsOk.truthy then []
  else [findingSharedFs registry mqVersion (path.orElse (.str [])).toStr]

/-- The finding of `_check_failover_history`. -/
def findingFailover (events : Nat) : RCSFinding where
  issue := lit "MIQM error log shows " ++ natStr events ++ lit " failover-related event(s)"
  severity := .medium
  rootCause :=
    lit "Recent AMQ7228/AMQ7230/AMQ7232 events indicate the QM " ++
    lit "transitioned active/standby. Investigate the trigger to " ++
    lit "ensure the cause is understood (network, FS, planned)."
  fixSteps := [ lit "dspmq -x" ]
  verifyCommands := [ lit "dspmq -x" ]
  docRefs := registry.lookupTopic (lit "miqm_troubleshooting") mqVersion
  confidence := lit "Medium"
  evidence := [ (lit "failover_events", natStr events) ]
  remediationSteps :=
    [ { scenario := lit "Investigate the trigger in AMQERR.LOG"
        commands :=
          [ lit "# Read recent AMQERR for context (read-only, safe):",
            lit "tail -200 /var/mqm/qmgrs/QM_NAME/errors/AMQERR01.LOG" ]
        notes :=
          lit "Frequent failovers point to flaky network or shared-FS leases. " ++
          lit "Isolated events are usually benign (planned maintenance)." } ]

/-- `_check_failover_history` -/
def checkFailoverHistory (logTail : PyStr) : List RCSFinding :=
  if logTail = [] ∨ (amqFailover U).search logTail = false then []
  else [findingFailover registry mqVersion (hits (amqFailover U) logTail).length]

/-- `match_miqm_findings` -/
def matchMiqmFindings (raw : RawData) : List RCSFinding :=
  if raw.instances = [] ∧ raw.sharedFsOk = .none ∧ raw.errorLogTail = [] then []
  else
    checkNoActive U registry mqVersion raw.instances ++
      checkStandbyPermission registry mqVersion raw.standbyPermitted raw.instances ++
      checkDualActive U registry mqVersion raw.instances ++
      checkSharedFs registry mqVersion raw.sharedFsOk raw.sharedFsPath ++
      checkFailoverHistory U registry mqVersion raw.errorLogTail

end Matcher

end Miqm
end Rcs
end MqSentinel
