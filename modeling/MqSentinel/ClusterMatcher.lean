import MqSentinel.DlqMatcher
import MqSentinel.RegexEngine

/-!
# Cluster findings

`match_cluster_findings` reads the rows of `DISPLAY CLUSQMGR` and the text of
`DISPLAY QMGR REPOS REPOSNL`.  The age of an entry is measured against the clock, whose
readings are a parameter; times are microseconds since the first day of the year 1.
-/

namespace MqSentinel
namespace Rcs
namespace Cluster

open Regex CodePoint

/-- The argument of the matcher. -/
structure RawData where
  clusqmgrs : List Row
  repos : PyStr
  thisQm : PyStr

/-- The clock when the cutoff is computed, and when the age in a row is. -/
structure Clock where
  start : Int
  atRow : Nat → Int

/-- `_STALE_DAYS` -/
def staleDays : Nat := 7

/-- `_BAD_CHANNEL_STATUS` -/
def badChannelStatus : List PyStr :=
  [lit "RETRYING", lit "STOPPED", lit "PAUSED", lit "INACTIVE_FAILED"]

def dayMicros : Int := 86400 * 1000000

section Dates

def isLeap (y : Nat) : Bool :=
  y % 4 == 0 && (y % 100 != 0 || y % 400 == 0)

def daysInMonth (y m : Nat) : Nat :=
  if m = 2 then (if isLeap y then 29 else 28)
  else if m = 4 ∨ m = 6 ∨ m = 9 ∨ m = 11 then 30
  else 31

/-- `date(y, m, d).toordinal()`; `none` is the `ValueError`. -/
def toOrdinal (y m d : Nat) : Option Nat :=
  if y = 0 ∨ m = 0 ∨ 12 < m ∨ d = 0 ∨ daysInMonth y m < d then none
  else
    some ((y - 1) * 365 + (y - 1) / 4 - (y - 1) / 100 + (y - 1) / 400 +
      ((List.range' 1 (m - 1)).map (daysInMonth y)).sum + d)

variable (U : UnicodeData)

/-- `1[0-2]|0[1-9]|[1-9]` -/
def monthRx : Rx CodePoint :=
  Rx.alt (Rx.seq (litRx "1") (Rx.cls fun c => c ∈ lit "012"))
    (Rx.alt (Rx.seq (litRx "0") (Rx.cls fun c => c ∈ lit "123456789"))
      (Rx.cls fun c => c ∈ lit "123456789"))

/-- `3[0-1]|[1-2]\d|0[1-9]|[1-9]| [1-9]` -/
def dayRx : Rx CodePoint :=
  Rx.alt (Rx.seq (litRx "3") (Rx.cls fun c => c ∈ lit "01"))
    (Rx.alt (Rx.seq (Rx.cls fun c => c ∈ lit "12") (Rx.cls U.isdecimal))
      (Rx.alt (Rx.seq (litRx "0") (Rx.cls fun c => c ∈ lit "123456789"))
        (Rx.alt (Rx.cls fun c => c ∈ lit "123456789")
          (Rx.seq (litRx " ") (Rx.cls fun c => c ∈ lit "123456789")))))

/-- The expression that `strptime` makes of `%Y-%m-%d`. -/
def ymdRx : Rx CodePoint :=
  Rx.seqs [Rx.word (List.replicate 4 U.isdecimal), litRx "-", monthRx, litRx "-", dayRx U]

/-- The number in a field of the format. -/
def fieldValue (s : PyStr) : Nat :=
  PyInt.value ((s.filter U.isdecimal).map U.digit)

/-- `datetime.strptime(s, "%Y-%m-%d")` at midnight; `none` is the `ValueError`. -/
def strptimeYmd (s : PyStr) : Option Int :=
  if Rx.first (ymdRx U) [] s = some s.length then
    let rest := s.drop 5
    let month := rest.takeWhile (· != ch '-')
    let day := rest.drop (month.length + 1)
    (toOrdinal (fieldValue U (s.take 4)) (fieldValue U month) (fieldValue U day)).map
      fun n => ((n : Int) - 1) * dayMicros
  else none

end Dates

/-- The text from the first occurrence of `needle` on. -/
def fromFirst (needle : PyStr) : PyStr → Option PyStr
  | [] => if needle.isEmpty then some [] else none
  | c :: cs => if needle.isPrefixOf (c :: cs) then some (c :: cs) else fromFirst needle cs

/-- The loop of `_self_full_repo_clusters`, on the text from its position on. -/
def reposNames : Nat → PyStr → List PyStr
  | 0, _ => []
  | n + 1, text =>
      match fromFirst (lit "REPOS(") text with
      | none => []
      | some found =>
          let body := found.drop 6
          if ch ')' ∈ body then
            let name := strip (body.takeWhile (· != ch ')'))
            (if name ≠ [] ∧ name ≠ lit " " then [name] else []) ++
              reposNames n (body.dropWhile (· != ch ')'))
          else []

section Matcher

variable (U : UnicodeData)

/-- `_self_full_repo_clusters` -/
def selfFullRepoClusters (reposText : PyStr) : List PyStr :=
  reposNames (U.upperStr reposText).length (U.upperStr reposText)

/-- A cell of a row as upper-case text. -/
def upperCell (row : Row) (key : String) : PyStr :=
  U.upperStr (row.getOr key (.str [])).toStr

variable (registry : KCRegistry) (mqVersion : Option PyStr)

/-- The finding of `_check_full_repos`. -/
def findingNoFullRepo (cluster : PyStr) (members : List Row) : RCSFinding where
  issue := lit "Cluster " ++ cluster ++ lit " has no visible full repository"
  severity := .critical
  rootCause :=
    lit "No CLUSQMGR entry in cluster " ++ cluster ++ lit " reports " ++
    lit "QMTYPE(REPOS), and this QM is not itself a full " ++
    lit "repository. New cluster definitions cannot propagate " ++
    lit "until at least one full repository is reachable."
  fixSteps :=
    [ lit "DISPLAY CLUSQMGR(*) WHERE(CLUSTER EQ " ++ cluster ++ lit ")",
      lit "DISPLAY QMGR REPOS REPOSNL" ]
  verifyCommands :=
    [ lit "DISPLAY CLUSQMGR(*) WHERE(CLUSTER EQ " ++ cluster ++ lit ") QMTYPE" ]
  docRefs := registry.lookupTopic (lit "cluster_partial_repository") mqVersion
  confidence := lit "High"
  evidence :=
    [ (lit "cluster", cluster), (lit "members_visible", natStr members.length),
      (lit "full_repos_visible", lit "0") ]
  remediationSteps :=
    [ { scenario := lit "This QM should be a full repository for the cluster"
        commands := [ lit "ALTER QMGR REPOS('" ++ cluster ++ lit "')" ]
        notes := lit "A cluster must have at least 1 (ideally 2) full repositories." },
      { scenario := lit "A different QM should be the full repo — restart its CLUSSDR"
        commands := [ lit "START CHANNEL('TO.REMOTE_FULL_REPO')" ]
        notes :=
          lit "Replace channel name with the CLUSSDR pointing to the " ++
          lit "configured full repository. Confirm with " ++
          lit "DISPLAY CHANNEL(*) CHLTYPE(CLUSSDR)." } ]

/-- `cluster` of a row in `_check_full_repos`. -/
def clusterName (row : Row) : PyStr :=
  strip (row.getOr "CLUSTER" (.str [])).toStr

/-- `by_cluster` -/
def byCluster (rows : List Row) : OrderedDict PyStr (List Row) :=
  groupBy clusterName (rows.filter fun r => clusterName r ≠ [])

/-- `_check_full_repos` -/
def checkFullRepos (rows : List Row) (reposText : PyStr) : List RCSFinding :=
  (byCluster rows).items.filterMap fun (cluster, members) =>
    let fullRepos := members.filter fun m => upperCell U m "QMTYPE" = lit "REPOS"
    if cluster ∈ selfFullRepoClusters U reposText then none
    else if fullRepos = [] then some (findingNoFullRepo registry mqVersion cluster members)
    else none

/-- The finding of `_check_unhealthy_channels`. -/
def findingUnhealthyChannel (row : Row) (channel status : PyStr) : RCSFinding :=
  let cluster := (row.getOr "CLUSTER" (.str [])).toStr
  let conname := (row.getOr "CONNAME" (.str [])).toStr
  { issue := lit "Cluster channel " ++ channel ++ lit " status is " ++ status
    severity := .high
    amqCode := some (lit "AMQ9764")
    rootCause :=
      lit "Cluster channel " ++ channel ++ lit " (cluster " ++ cluster ++ lit ") reports " ++
      status ++ lit ". Cluster sender/receiver channels must remain " ++
      lit "RUNNING for repository updates and workload distribution."
    fixSteps :=
      [ lit "DISPLAY CHSTATUS('" ++ channel ++ lit "') ALL",
        lit "DISPLAY CHANNEL('" ++ channel ++ lit "') CONNAME XMITQ SSLCIPH",
        lit "DISPLAY LSSTATUS(*) ALL",
        lit "PING CHANNEL(" ++ channel ++ lit ")" ]
    verifyCommands := [ lit "DISPLAY CHSTATUS('" ++ channel ++ lit "') CURRENT" ]
    docRefs := registry.lookupAmq U (lit "AMQ9764") mqVersion
    confidence := lit "High"
    evidence :=
      [ (lit "channel", channel), (lit "cluster", cluster), (lit "conname", conname),
        (lit "status", status) ]
    remediationSteps :=
      [ { scenario := lit "Channel needs restart after network repair"
          commands :=
            [ lit "STOP CHANNEL('" ++ channel ++ lit "') MODE(QUIESCE)",
              lit "START CHANNEL('" ++ channel ++ lit "')" ]
          notes := lit "Only after confirming connectivity to the remote CONNAME." },
        { scenario := lit "Sequence numbers desynced (last resort)"
          commands :=
            [ lit "RESET CHANNEL('" ++ channel ++ lit "') SEQNUM(1)",
              lit "START CHANNEL('" ++ channel ++ lit "')" ]
          notes :=
            lit "⚠️ RESET can cause duplicate messages. Only after coordinating " ++
            lit "with the remote QM owner." } ] }

/-- `channel` in `_check_unhealthy_channels`. -/
def unhealthyChannelName (row : Row) : PyStr :=
  (((row.get "CHANNEL").orElse (row.get "CLUSQMGR")).orElse (.str (lit "<unknown>"))).toStr

/-- `_check_unhealthy_channels` -/
def checkUnhealthyChannels (rows : List Row) : List RCSFinding :=
  rows.filterMap fun r =>
    if upperCell U r "STATUS" ∈ badChannelStatus then
      some (findingUnhealthyChannel U registry mqVersion r (unhealthyChannelName r)
        (upperCell U r "STATUS"))
    else none

/-- `name` of a row: `str(r.get("CLUSQMGR", "<unknown>"))` -/
def memberName (row : Row) : PyStr :=
  (row.getOr "CLUSQMGR" (.str (lit "<unknown>"))).toStr

/-- `r.get('CHANNEL', name)` as text. -/
def staleChannel (row : Row) : PyStr :=
  (row.getOr "CHANNEL" (.str (memberName row))).toStr

/-- The finding of `_check_stale_entries`. -/
def findingStaleEntry (row : Row) (clusdate : PyStr) (ageDays : Int) : RCSFinding :=
  let name := memberName row
  let cluster := (row.getOr "CLUSTER" (.str [])).toStr
  let age := PyInt.toStr ageDays
  { issue := lit "Stale CLUSQMGR entry for " ++ name ++ lit " (last updated " ++ age ++
      lit " days ago)"
    severity := .medium
    amqCode := some (lit "AMQ9456")
    rootCause :=
      lit "CLUSQMGR " ++ name ++ lit " in cluster " ++ cluster ++ lit " has not received an " ++
      lit "update from a full repository for " ++ age ++ lit " days " ++
      lit "(threshold: " ++ natStr staleDays ++ lit "). This usually indicates the " ++
      lit "cluster sender channel to the full repository is broken or " ++
      lit "the remote QM is offline."
    fixSteps :=
      [ lit "DISPLAY CLUSQMGR('" ++ name ++ lit "') ALL",
        lit "DISPLAY CHSTATUS('" ++ staleChannel row ++ lit "') ALL",
        lit "DISPLAY QMGR REPOS REPOSNL" ]
    verifyCommands := [ lit "DISPLAY CLUSQMGR('" ++ name ++ lit "') CLUSDATE CLUSTIME" ]
    docRefs := registry.lookupAmq U (lit "AMQ9456") mqVersion
    confidence := lit "Medium"
    evidence :=
      [ (lit "clusqmgr", name), (lit "cluster", cluster), (lit "last_update", clusdate),
        (lit "age_days", age) ]
    remediationSteps :=
      [ { scenario := lit "Refresh cluster state after fixing the underlying channel"
          commands := [ lit "REFRESH CLUSTER('" ++ cluster ++ lit "') REPOS(YES)" ]
          notes :=
            lit "⚠️ REFRESH CLUSTER is intrusive and triggers a full re-sync. " ++
            lit "Schedule in a maintenance window. REPOS(YES) re-resolves " ++
            lit "repository data without touching application objects." } ] }

/-- `clusdate` of a row. -/
def clusdate (row : Row) : PyStr :=
  strip (row.getOr "CLUSDATE" (.str [])).toStr

/-- The age in days of an entry that is older than the cutoff. -/
def staleAge (start now : Int) (row : Row) : Option Int :=
  if clusdate row = [] then none
  else
    match strptimeYmd U (clusdate row) with
    | none => none
    | some parsed =>
        if parsed ≥ start - staleDays * dayMicros then none
        else some ((now - parsed) / dayMicros)

/-- `_check_stale_entries` -/
def checkStaleEntries (clock : Clock) (rows : List Row) : List RCSFinding :=
  rows.zipIdx.filterMap fun (r, i) =>
    (staleAge U clock.start (clock.atRow i) r).map
      fun age => findingStaleEntry U registry mqVersion r (clusdate r) age

/-- The finding of `_check_suspended_members`. -/
def findingSuspended (row : Row) : RCSFinding :=
  let name := memberName row
  let cluster := (row.getOr "CLUSTER" (.str [])).toStr
  { issue := lit "Cluster member " ++ name ++ lit " is SUSPEND(YES) in cluster " ++ cluster
    severity := .medium
    rootCause :=
      lit "A suspended cluster member does not receive workload " ++
      lit "from the cluster. This may be intentional (maintenance) " ++
      lit "or a forgotten state from a prior incident."
    fixSteps := [ lit "DISPLAY CLUSQMGR('" ++ name ++ lit "') SUSPEND" ]
    verifyCommands := [ lit "DISPLAY CLUSQMGR('" ++ name ++ lit "') SUSPEND" ]
    confidence := lit "Medium"
    evidence := [ (lit "clusqmgr", name), (lit "cluster", cluster) ]
    remediationSteps :=
      [ { scenario := lit "Member should return to active service"
          commands := [ lit "RESUME QMGR CLUSTER('" ++ cluster ++ lit "')" ]
          notes :=
            lit "Run on the SUSPENDED QM. Confirm with team it's no " ++
            lit "longer in maintenance." } ] }

/-- `_check_suspended_members` -/
def checkSuspendedMembers (rows : List Row) : List RCSFinding :=
  rows.filterMap fun r =>
    if upperCell U r "SUSPEND" = lit "YES" then some (findingSuspended r) else none

/-- The finding of `_check_self_only_membership`. -/
def findingSelfOnly (thisQm : PyStr) : RCSFinding where
  issue := lit "QM " ++ thisQm ++ lit " sees itself as the only cluster member"
  severity := .high
  rootCause :=
    lit "DISPLAY CLUSQMGR returns only the local QM. Either no other " ++
    lit "members are reachable, or the cluster sender channel to the " ++
    lit "full repository has never started successfully."
  fixSteps :=
    [ lit "DISPLAY CHSTATUS(*) WHERE(CHLTYPE EQ CLUSSDR)",
      lit "DISPLAY QMGR REPOS REPOSNL",
      lit "DISPLAY CLUSQMGR(*) ALL" ]
  verifyCommands := [ lit "DISPLAY CLUSQMGR(*) ALL" ]
  confidence := lit "Medium"
  evidence := [ (lit "this_qm", thisQm), (lit "members_visible", lit "1") ]
  remediationSteps :=
    [ { scenario := lit "Start the cluster-sender channel to the full repository"
        commands := [ lit "START CHANNEL('TO.FULL_REPO_QM')" ]
        notes :=
          lit "Replace channel name with your configured CLUSSDR. " ++
          lit "Confirm CONNAME is reachable first." } ]

/-- `_check_self_only_membership` -/
def checkSelfOnlyMembership (rows : List Row) (thisQm : PyStr) : List RCSFinding :=
  if thisQm = [] ∨ rows = [] then []
  else if rows.any fun r => (r.getOr "CLUSQMGR" (.str [])).toStr != thisQm then []
  else [findingSelfOnly thisQm]

/-- `match_cluster_findings` -/
def matchClusterFindings (clock : Clock) (raw : RawData) : List RCSFinding :=
  let rows := raw.clusqmgrs
  if rows = [] ∧ raw.repos = [] then []
  else
    checkFullRepos U registry mqVersion rows raw.repos ++
      checkUnhealthyChannels U registry mqVersion rows ++
      checkStaleEntries U registry mqVersion clock rows ++
      checkSuspendedMembers U rows ++
      checkSelfOnlyMembership rows raw.thisQm

end Matcher

end Cluster
end Rcs
end MqSentinel
