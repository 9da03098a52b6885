import MqSentinel.NativeHaMatcher

/-!
# z/OS findings

`match_zos_findings` reads the members of a queue sharing group, the channel initiator,
page sets, buffer pools and coupling facility structures.  The five checks do not look
at each other's rows.
-/

namespace MqSentinel
namespace Rcs
namespace Zos

open Rcs.NativeHa (orText)

/-- `group`: its name and its members. -/
structure Group where
  qsgName : Cell := .none
  members : List Row := []

/-- The argument of the matcher. -/
structure RawData where
  group : Group := {}
  chin : Row := OrderedDict.empty
  pagesets : List Row := []
  bufferpools : List Row := []
  cfStructures : List Row := []

def pagesetHigh : Int := 80
def pagesetCritical : Int := 95
def bufferpoolLowFreePct : Int := 10

/-- The finding of `_check_pagesets`. -/
def findingPageset (registry : KCRegistry) (mqVersion : Option PyStr)
    (psid : PyStr) (usePct : Int) : RCSFinding where
  issue := lit "Page set " ++ psid ++ lit " utilization is " ++ PyInt.toStr usePct ++ lit "%"
  severity := if usePct ≥ pagesetCritical then .critical else .high
  rootCause :=
    lit "Page set " ++ psid ++ lit " is " ++ PyInt.toStr usePct ++
    lit "% full. At 100% the QM cannot " ++
    lit "accept further messages routed to queues backed by this page " ++
    lit "set. Add an extension or expand the page set."
  fixSteps :=
    [ lit "DISPLAY USAGE PSID(" ++ psid ++ lit ")", lit "DISPLAY QUEUE(*) STGCLASS" ]
  verifyCommands := [ lit "DISPLAY USAGE PSID(" ++ psid ++ lit ")" ]
  docRefs := registry.lookupTopic (lit "zos_pageset") mqVersion
  confidence := lit "High"
  evidence := [ (lit "psid", psid), (lit "use_pct", PyInt.toStr usePct) ]
  remediationSteps :=
    [ { scenario := lit "Expand the page set with an extension dataset"
        commands :=
          [ lit "# Allocate new dataset via JCL (sample):",
            lit "//ALLOCNEW EXEC PGM=IEFBR14",
            lit "//NEWPS DD DSN=CSQ.PAGESET.PS" ++ psid ++
              lit ".EXT01,DISP=(NEW,CATLG,DELETE),",
            -- no f prefix in the source: the braces are printed
            lit "//            SPACE=(CYL,(100,100,0)),LIKE=CSQ.PAGESET.PS\x7bpsid\x7d",
            lit "# Then define to MQ via CSQUTIL FORMAT/EXTEND or DSN command." ]
        notes :=
          lit "Coordinate with z/OS storage team. Adding an extension is " ++
          lit "non-disruptive but requires DASD allocation." },
      { scenario := lit "Rebalance queues to a different page set"
        commands :=
          [ lit "DISPLAY QUEUE(*) WHERE(STGCLASS LIKE 'PS" ++ psid ++ lit "*')",
            lit "# Move high-traffic queues to a less-full STGCLASS:",
            lit "ALTER QLOCAL('NOISY.QUEUE') STGCLASS('STGCLASS_FOR_PS2')" ]
        notes :=
          lit "STGCLASS change affects new messages only. Drain queue first " ++
          lit "if you need existing messages migrated." } ]

/-- The finding of `_check_bufferpools`. -/
def findingBufferpool (registry : KCRegistry) (mqVersion : Option PyStr)
    (bpid : PyStr) (freePct : Int) : RCSFinding where
  issue := lit "Buffer pool " ++ bpid ++ lit " free pages at " ++ PyInt.toStr freePct ++ lit "%"
  severity := .high
  rootCause :=
    lit "Buffer pool " ++ bpid ++ lit " has only " ++ PyInt.toStr freePct ++
    lit "% free pages. " ++
    lit "Low free counts cause page-stealing and degrade message " ++
    lit "throughput. Increase the buffer pool size or rebalance " ++
    lit "page set allocation."
  fixSteps := [ lit "DISPLAY USAGE BUFFPOOL(" ++ bpid ++ lit ")" ]
  verifyCommands := [ lit "DISPLAY USAGE BUFFPOOL(" ++ bpid ++ lit ")" ]
  docRefs := registry.lookupTopic (lit "zos_bufferpool") mqVersion
  confidence := lit "High"
  evidence := [ (lit "bufferpool", bpid), (lit "free_pct", PyInt.toStr freePct) ]
  remediationSteps :=
    [ { scenario := lit "Increase buffer pool size dynamically"
        commands :=
          [ lit "ALTER BUFFPOOL(" ++ bpid ++ lit ") BUFFERS(50000)",
            lit "DISPLAY USAGE BUFFPOOL(" ++ bpid ++ lit ")" ]
        notes :=
          lit "Persists across restart. Sized in 4KiB pages — 50,000 " ++
          lit "buffers ≈ 200MB. Region size (REGION=) on the MSTR " ++
          lit "JCL must accommodate." } ]

section Matcher

variable (U : UnicodeData) (registry : KCRegistry) (mqVersion : Option PyStr)

/-- The finding of `_check_qsg_members`. -/
def findingMember (qsg name status : PyStr) : RCSFinding where
  issue := lit "QSG member " ++ name ++ lit " status=" ++ orText status (lit "UNKNOWN")
  severity := .high
  rootCause :=
    lit "Queue manager " ++ name ++ lit " in QSG " ++ orText qsg (lit "unknown") ++
    lit " is not ACTIVE. " ++
    lit "Inactive QSG members reduce capacity for shared-queue workload " ++
    lit "and may indicate the QM is stopped, abended, or partitioned " ++
    lit "from the coupling facility."
  fixSteps := [ lit "DISPLAY GROUP", lit "DISPLAY QMSTATUS" ]
  verifyCommands := [ lit "DISPLAY GROUP" ]
  docRefs := registry.lookupTopic (lit "zos_qsg_overview") mqVersion
  confidence := lit "High"
  evidence := [ (lit "qsg", qsg), (lit "member", name), (lit "status", status) ]
  remediationSteps :=
    [ { scenario := lit "Start the inactive QM (z/OS operator command)"
        commands := [ lit "/" ++ name ++ lit " START QMGR", lit "DISPLAY GROUP" ]
        notes :=
          lit "z/OS console / SDSF. Replace \x7bname\x7d with the started-task prefix." } ]

/-- `_check_qsg_members` -/
def checkQsgMembers (group : Group) : List RCSFinding :=
  let qsg := (group.qsgName.orElse (.str [])).toStr
  group.members.filterMap fun m =>
    let name := (m.getOr "name" (.str (lit "<unknown>"))).toStr
    let status := U.upperStr (m.getOr "status" (.str [])).toStr
    if status ∈ [lit "ACTIVE", lit "RUNNING"] then none
    else some (findingMember registry mqVersion qsg name status)

/-- The finding of `_check_chin`. -/
def findingChin (status : PyStr) : RCSFinding where
  issue := lit "Channel initiator (CHIN) status is " ++ orText status (lit "UNKNOWN")
  severity := .critical
  rootCause :=
    lit "The CHIN address space is not running. All distributed channel " ++
    lit "traffic to and from this z/OS QM is halted. Investigate the " ++
    lit "CHIN log and JES output for abend codes."
  fixSteps := [ lit "DISPLAY QMSTATUS CHINIT", lit "DISPLAY CHSTATUS(*) ALL" ]
  verifyCommands := [ lit "DISPLAY QMSTATUS CHINIT" ]
  docRefs := registry.lookupTopic (lit "zos_chin") mqVersion
  confidence := lit "High"
  evidence := [ (lit "chin_status", status) ]
  remediationSteps :=
    [ { scenario := lit "Start the channel initiator address space"
        commands := [ lit "+CSQ8 START CHINIT", lit "DISPLAY QMSTATUS CHINIT" ]
        notes :=
          lit "z/OS operator command (SDSF or console). Replace 'CSQ8' " ++
          lit "with your QM's command prefix." } ]

/-- `_check_chin` -/
def checkChin (chin : Row) : List RCSFinding :=
  if !chin.nonempty then []
  else
    let status := U.upperStr (chin.getOr "status" (.str [])).toStr
    if status ∈ [lit "RUNNING", lit "ACTIVE", lit "STARTED"] then []
    else [findingChin registry mqVersion status]

/-- `psid` of a row. -/
def psid (row : Row) : PyStr :=
  (((row.get "PSID").orElse (row.get "psid")).orElse (.str (lit "?"))).toStr

/-- `use_pct` of a row. -/
def usePct (row : Row) : Int :=
  ((((row.get "USEPCT").orElse (row.get "use_pct")).orElse (.int 0)).toInt U).getD 0

/-- `_check_pagesets` -/
def checkPagesets (pagesets : List Row) : List RCSFinding :=
  pagesets.filterMap fun ps =>
    if usePct U ps < pagesetHigh then none
    else some (findingPageset registry mqVersion (psid ps) (usePct U ps))

/-- `bpid` of a row. -/
def bpid (row : Row) : PyStr :=
  (((row.get "BUFFPOOL").orElse (row.get "bufferpool")).orElse (.str (lit "?"))).toStr

/-- `free_pct` of a row. -/
def freePct (row : Row) : Int :=
  ((((row.get "FREEPCT").orElse (row.get "free_pct")).orElse (.int 100)).toInt U).getD 100

/-- `_check_bufferpools` -/
def checkBufferpools (bufferpools : List Row) : List RCSFinding :=
  bufferpools.filterMap fun bp =>
    if freePct U bp ≥ bufferpoolLowFreePct then none
    else some (findingBufferpool registry mqVersion (bpid bp) (freePct U bp))

/-- The finding of `_check_cf_structures`. -/
def findingCfStructure (name status : PyStr) : RCSFinding where
  issue := lit "CF structure " ++ name ++ lit " status=" ++ orText status (lit "UNKNOWN")
  severity :=
    if status ∈ [lit "FAILED", lit "DAMAGED", lit "FAILED-CONNECTED", lit "INACCESSIBLE"] then
      .critical
    else .high
  rootCause :=
    lit "Coupling facility structure " ++ name ++ lit " is in " ++
    orText status (lit "UNKNOWN") ++ lit " " ++
    lit "state. Shared queues backed by this structure are unavailable " ++
    lit "until the structure is recovered or reallocated."
  fixSteps := [ lit "DISPLAY CFSTATUS(" ++ name ++ lit ") ALL" ]
  verifyCommands := [ lit "DISPLAY CFSTATUS(" ++ name ++ lit ")" ]
  docRefs := registry.lookupTopic (lit "zos_cf_structure") mqVersion
  confidence := lit "High"
  evidence := [ (lit "structure", name), (lit "status", status) ]
  remediationSteps :=
    [ { scenario := lit "Recover the failed structure (sysplex operator)"
        commands :=
          [ lit "D XCF,STR,STRNAME=" ++ name, lit "SETXCF FORCE,STR,STRNAME=" ++ name,
            lit "# Then re-allocate via CFRM policy ACTIVATE if needed." ]
        notes :=
          lit "⚠️ SETXCF FORCE discards in-flight structure data. Engage IBM " ++
          lit "Support before running. Verify alternate CF exists in CFRM policy first." } ]

/-- `name` of a structure row. -/
def structureName (row : Row) : PyStr :=
  (((row.get "STRUCTURE").orElse (row.get "structure")).orElse
    (.str (lit "<unknown>"))).toStr

/-- `status` of a structure row. -/
def structureStatus (row : Row) : PyStr :=
  U.upperStr (((row.get "STATUS").orElse (row.get "status")).orElse (.str [])).toStr

/-- `_check_cf_structures` -/
def checkCfStructures (cfStructures : List Row) : List RCSFinding :=
  cfStructures.filterMap fun s =>
    if structureStatus U s ∈ [lit "ACTIVE", lit "AVAILABLE"] then none
    else some (findingCfStructure registry mqVersion (structureName s) (structureStatus U s))

/-- `match_zos_findings`; without any data the five checks find nothing either. -/
def matchZosFindings (raw : RawData) : List RCSFinding :=
  checkQsgMembers U registry mqVersion raw.group ++
    checkChin U registry mqVersion raw.chin ++
    checkPagesets U registry mqVersion raw.pagesets ++
    checkBufferpools U registry mqVersion raw.bufferpools ++
    checkCfStructures U registry mqVersion raw.cfStructures

end Matcher

end Zos
end Rcs
end MqSentinel
