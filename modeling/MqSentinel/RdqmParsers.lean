import MqSentinel.HealthReport
import MqSentinel.MultiInstanceDiagnosis
import MqSentinel.RdqmMatcher
import MqSentinel.RegexSearch

/-!
# The RDQM diagnosis

`diagnose_rdqm_issues` runs `rdqmstatus`, `crm_mon -1` and `drbdadm status` and parses
each text with regular expressions of its own.  The first two are searched as a whole;
the third is read line by line, with the resource and the peer at hand as state.
-/

namespace MqSentinel
namespace Rdqm

open Regex Rcs CodePoint
open Miqm (oneOrMore safeShell)
open Rcs.Rdqm (Pacemaker matchRdqmFindings)

/-- What `^`, `$` and `.` take for a line end. -/
def isNewline (c : CodePoint) : Bool :=
  c == lf

/-- `\s` -/
def space : Rx CodePoint :=
  Rx.cls isSpace

/-- `\S+` -/
def word : Rx CodePoint :=
  oneOrMore fun c => !c.isSpace

/-- `.+` -/
def restOfLine : Rx CodePoint :=
  oneOrMore fun c => !isNewline c

section Status

/-- A label that stands at the start of a line, its colon, and what follows it. -/
def labelled (label : Rx CodePoint) (value : List (Gx Nat CodePoint)) : Gx Nat CodePoint :=
  Gx.onLine isNewline
    (Gx.seqs (.plain label :: .plain (litRx ":") :: .plain (Rx.plus space) :: value))

/-- `_RDQM_QM_NAME_RE`: `^Queue manager name:\s+(\S+)` -/
def rdqmQmName : Gx Nat CodePoint :=
  labelled (litRx "Queue manager name") [.group 1 word]

/-- `_RDQM_HA_STATE_RE`: `^(?:HA )?(?:current )?status:\s+(.+)$`, ignoring case. -/
def rdqmHaState : Gx Nat CodePoint :=
  labelled (Rx.seqs [Rx.opt (ciRx "HA "), Rx.opt (ciRx "current "), ciRx "status"])
    [.group 1 restOfLine, .plain (Rx.lineEnd isNewline)]

/-- `_RDQM_RUNNING_RE`: `^(?:Running on|Current node):\s+(\S+)`, ignoring case. -/
def rdqmRunning : Gx Nat CodePoint :=
  labelled (Rx.alt (ciRx "Running on") (ciRx "Current node")) [.group 1 word]

/-- `_RDQM_PREFERRED_RE`: `^Preferred location:\s+(\S+)`, ignoring case. -/
def rdqmPreferred : Gx Nat CodePoint :=
  labelled (ciRx "Preferred location") [.group 1 word]

/--
`_RDQM_REPLICA_LINE_RE`: `^\s*Node:\s+(\S+)\s+(?:HA replica|Status):\s+(.+)$`, ignoring
case.
-/
def rdqmReplicaLine : Gx Nat CodePoint :=
  Gx.onLine isNewline
    (Gx.seqs
      [ .plain (Rx.star space), .plain (ciRx "Node:"), .plain (Rx.plus space), .group 1 word,
        .plain (Rx.plus space), .plain (Rx.alt (ciRx "HA replica") (ciRx "Status")),
        .plain (litRx ":"), .plain (Rx.plus space), .group 2 restOfLine,
        .plain (Rx.lineEnd isNewline) ])

/-- `m.group(k)` of a group that takes part in every match. -/
def text (m : Match Nat CodePoint) (k : Nat) : PyStr :=
  (m.group k).getD []

/-- The dictionary that `_parse_rdqmstatus` returns. -/
structure RdqmStatus where
  qmName : PyStr
  haState : PyStr
  runningNode : PyStr
  preferredLocation : PyStr
  haReplicas : List (PyStr × PyStr)

/-- `_parse_rdqmstatus`; the empty dictionary is `none`. -/
def parseRdqmstatus (raw fallbackQm : PyStr) : Option RdqmStatus :=
  if raw = [] then none
  else
    some {
      qmName := ((rdqmQmName.search raw).map (text · 1)).getD fallbackQm
      haState := ((rdqmHaState.search raw).map fun m => strip (text m 1)).getD []
      runningNode := ((rdqmRunning.search raw).map (text · 1)).getD []
      preferredLocation := ((rdqmPreferred.search raw).map (text · 1)).getD []
      haReplicas := (rdqmReplicaLine.findIter raw).map fun m => (text m 1, strip (text m 2)) }

/-- The dictionary as the matcher reads it; it does not read the replicas. -/
def RdqmStatus.toRow (status : RdqmStatus) : Row :=
  OrderedDict.ofList
    [ (lit "qm_name", .str status.qmName), (lit "ha_state", .str status.haState),
      (lit "running_node", .str status.runningNode),
      (lit "preferred_location", .str status.preferredLocation) ]

/-- The argument of the matcher for this reply. -/
def statusRow (status : Option RdqmStatus) : Row :=
  (status.map RdqmStatus.toRow).getD OrderedDict.empty

end Status

section CrmMon

variable (U : UnicodeData)

/-- `_CRM_NODE_LINE_RE`: `^\* Node\s+(\S+):\s+(\S+)` -/
def crmNodeLine : Gx Nat CodePoint :=
  Gx.onLine isNewline
    (Gx.seqs
      [ .plain (litRx "* Node"), .plain (Rx.plus space), .group 1 word, .plain (litRx ":"),
        .plain (Rx.plus space), .group 2 word ])

/-- `^label\s*\[\s*([^\]]+)\s*\]` -/
def crmListLine (label : String) : Gx Nat CodePoint :=
  Gx.onLine isNewline
    (Gx.seqs
      [ .plain (litRx label), .plain (Rx.star space), .plain (litRx "["),
        .plain (Rx.star space), .group 1 (oneOrMore fun c => c != ch ']'),
        .plain (Rx.star space), .plain (litRx "]") ])

/-- `_CRM_ONLINE_LINE_RE` -/
def crmOnlineLine : Gx Nat CodePoint :=
  crmListLine "Online:"

/-- `_CRM_OFFLINE_LINE_RE` -/
def crmOfflineLine : Gx Nat CodePoint :=
  crmListLine "OFFLINE:"

/--
`_CRM_FAILED_RE`, ignoring case:
`\*\s+(\S+).*?(FAILED|Stopped|Stop \(disabled\)|unmanaged)\s+(?:on|because)?\s*(\S*)`
-/
def crmFailed : Scanner Nat CodePoint :=
  let resource : Gx Nat CodePoint :=
    Gx.seqs [.plain (litRx "*"), .plain (Rx.plus space), .group 1 word]
  let fault : Gx Nat CodePoint :=
    Gx.seqs
      [ .group 2
          (Rx.alt (ciRx "FAILED")
            (Rx.alt (ciRx "Stopped") (Rx.alt (ciRx "Stop (disabled)") (ciRx "unmanaged")))),
        .plain (Rx.plus space), .plain (Rx.opt (Rx.alt (ciRx "on") (ciRx "because"))),
        .plain (Rx.star space), .group 3 (Rx.star (Rx.cls fun c => !c.isSpace)) ]
  (Scanner.ofGx resource).andThen
    (Scanner.lazily (fun c => !isNewline c) (Scanner.ofGx fault))

/-- The nodes of a list line, when the reply has one. -/
def listedNodes (line : Gx Nat CodePoint) (raw : PyStr) : List PyStr :=
  ((line.search raw).map fun m => split (text m 1)).getD []

/-- The nodes of the node lines with one of these states. -/
def nodesInState (states : List PyStr) (raw : PyStr) : List PyStr :=
  ((crmNodeLine.findIter raw).filter fun m => U.lower (text m 2) ∈ states).map (text · 1)

/-- The entry of a failed resource. -/
def failedRow (m : Match Nat CodePoint) : Row :=
  OrderedDict.ofList
    [ (lit "resource", .str (text m 1)), (lit "status", .str (text m 2)),
      (lit "node", .str (text m 3)) ]

/-- `_parse_crm_mon`; the empty dictionary is `none`. -/
def parseCrmMon (raw : PyStr) : Option Pacemaker :=
  if raw = [] then none
  else
    let listedOnline := listedNodes crmOnlineLine raw
    let listedOffline := listedNodes crmOfflineLine raw
    -- the node lines count only where no list names a node
    let perNode := listedOnline = [] ∧ listedOffline = []
    let online := if perNode then nodesInState U [lit "online"] raw else listedOnline
    let offline :=
      if perNode then nodesInState U [lit "offline", lit "standby"] raw else listedOffline
    let failed :=
      if lit "Failed Resource Actions" <:+: raw ∨ lit "Failed Actions" <:+: raw then
        (crmFailed.findIter raw).map failedRow
      else []
    some {
      totalNodes := online.length + offline.length
      onlineNodes := online
      offlineNodes := offline
      failedResources := failed }

end CrmMon

section Drbd

/-- The named groups of the three DRBD patterns. -/
inductive DrbdGroup where
  | name
  | role
  | disk
  | peer
  | conn
  | peerRole
  | peerDisk
deriving DecidableEq

/-- `^(?P<name>\S+)\s+role:(?P<role>\S+)\s+disk:(?P<disk>\S+)\s*$` -/
def drbdResourceHeader : Gx DrbdGroup CodePoint :=
  Gx.seqs
    [ .plain Rx.textStart, .group .name word, .plain (Rx.plus space), .plain (litRx "role:"),
      .group .role word, .plain (Rx.plus space), .plain (litRx "disk:"), .group .disk word,
      .plain (Rx.star space), .plain (Rx.textEnd isNewline) ]

/-- `^\s+(?P<peer>\S+)\s+connection:(?P<conn>\S+)\s*$` -/
def drbdPeerHeader : Gx DrbdGroup CodePoint :=
  Gx.seqs
    [ .plain Rx.textStart, .plain (Rx.plus space), .group .peer word, .plain (Rx.plus space),
      .plain (litRx "connection:"), .group .conn word, .plain (Rx.star space),
      .plain (Rx.textEnd isNewline) ]

/-- `^\s+role:(?P<peer_role>\S+)\s+(?:peer-disk|peer disk):(?P<peer_disk>\S+)` -/
def drbdPeerDetail : Gx DrbdGroup CodePoint :=
  Gx.seqs
    [ .plain Rx.textStart, .plain (Rx.plus space), .plain (litRx "role:"),
      .group .peerRole word, .plain (Rx.plus space),
      .plain (Rx.alt (litRx "peer-disk") (litRx "peer disk")), .plain (litRx ":"),
      .group .peerDisk word ]

/-- `_DRBD_SPLIT_BRAIN_RE`: `split.?brain`, ignoring case. -/
def drbdSplitBrain : Rx CodePoint :=
  Rx.seqs [ciRx "split", Rx.opt (Rx.cls fun c => !isNewline c), ciRx "brain"]

/-- `m.group(k)` of a group that takes part in every match. -/
def drbdText (m : Match DrbdGroup CodePoint) (k : DrbdGroup) : PyStr :=
  (m.group k).getD []

/-- `current_resource` -/
structure Resource where
  name : PyStr
  role : PyStr
  disk : PyStr
deriving DecidableEq

/-- `pending_peer` -/
structure Peer where
  peer : PyStr
  conn : PyStr
  peerRole : PyStr := []
  peerDisk : PyStr := []

/-- The variables of the loop. -/
structure DrbdState where
  out : List Row := []
  currentResource : Option Resource := none
  pendingPeer : Option Peer := none

/-- The entry of a peer. -/
def drbdEntry (splitBrain : Bool) (r : Resource) (p : Peer) : Row :=
  OrderedDict.ofList
    [ (lit "resource", .str r.name), (lit "role", .str r.role), (lit "disk_state", .str r.disk),
      (lit "peer", .str p.peer), (lit "connection_state", .str p.conn),
      (lit "peer_role", .str p.peerRole), (lit "peer_disk_state", .str p.peerDisk),
      (lit "split_brain", .bool splitBrain) ]

/-- `_flush_peer`: the entries with the one at hand. -/
def flushPeer (splitBrain : Bool) (st : DrbdState) : List Row :=
  match st.currentResource, st.pendingPeer with
  | some r, some p => st.out ++ [drbdEntry splitBrain r p]
  | _, _ => st.out

/-- One round of the loop. -/
def drbdLine (splitBrain : Bool) (st : DrbdState) (line : PyStr) : DrbdState :=
  match drbdResourceHeader.first [] line with
  | some rh =>
      { out := flushPeer splitBrain st
        currentResource :=
          some ⟨drbdText rh .name, drbdText rh .role, drbdText rh .disk⟩ }
  | none =>
      match drbdPeerHeader.first [] line, st.currentResource with
      | some ph, some r =>
          { out := flushPeer splitBrain st
            currentResource := some r
            pendingPeer := some { peer := drbdText ph .peer, conn := drbdText ph .conn } }
      | _, _ =>
          match drbdPeerDetail.first [] line, st.pendingPeer with
          | some pd, some p =>
              { st with
                pendingPeer :=
                  some { p with
                    peerRole := drbdText pd .peerRole
                    peerDisk := drbdText pd .peerDisk } }
          | _, _ => st

/-- The entry for a marker without a peer. -/
def unknownEntry : Row :=
  OrderedDict.ofList
    [ (lit "resource", .str (lit "<unknown>")), (lit "role", .str []),
      (lit "disk_state", .str []), (lit "connection_state", .str []),
      (lit "peer_role", .str []), (lit "peer_disk_state", .str []),
      (lit "split_brain", .bool true) ]

/-- `_parse_drbd` -/
def parseDrbd (raw : PyStr) : List Row :=
  if raw = [] then []
  else
    let splitBrain := drbdSplitBrain.search raw
    let out := flushPeer splitBrain ((splitlines raw).foldl (drbdLine splitBrain) {})
    if out = [] ∧ splitBrain then [unknownEntry] else out

end Drbd

section Reading

variable {κ : Type} {g : Gx κ CodePoint} {m : Match κ CodePoint} {pre rest : PyStr}

/-- A word: not empty, and without white space. -/
def IsWord (w : PyStr) : Prop :=
  w ≠ [] ∧ ∀ c ∈ w, c.isSpace = false

/-- `\S+` reads a word up to white space or the end. -/
theorem first_word_seq
    (k : κ) {w : PyStr} (hw : IsWord w) (hrest : rest.head?.all isSpace = true)
    (hm : g.first (w.reverse ++ pre) rest = some m) :
    (Gx.seq (.group k word) g).first pre (w ++ rest) = some (Match.append ⟨w, [(k, w)]⟩ m) := by
  obtain ⟨hne, hall⟩ := hw
  have htake : (w ++ rest).takeWhile (fun c => !c.isSpace) = w := by
    rw [List.takeWhile_append_of_pos fun c hc => by rw [hall c hc]; rfl]
    cases rest with
    | nil =>
        simp
    | cons c rest =>
        rw [List.takeWhile_cons_of_neg (by simpa using hrest), List.append_nil]
  have hhead : (w ++ rest).head?.any (fun c => !c.isSpace) = true := by
    cases w with
    | nil =>
        exact absurd rfl hne
    | cons c w =>
        simp [hall c (by simp)]
  have hword := Gx.first_group_plus hhead k pre
  rw [htake] at hword
  refine Gx.first_seq hword ?_
  rwa [List.drop_left]

/-- `\s+` reads one blank in front of something else. -/
theorem first_blank_seq
    (hrest : rest.head?.all (fun c => !c.isSpace) = true)
    (hm : g.first (ch ' ' :: pre) rest = some m) :
    (Gx.seq (.plain (Rx.plus space)) g).first pre (ch ' ' :: rest) =
      some (Match.append ⟨[ch ' '], []⟩ m) := by
  have htake : (ch ' ' :: rest).takeWhile isSpace = [ch ' '] := by
    have hblank : (ch ' ').isSpace = true := rfl
    rw [List.takeWhile_cons_of_pos hblank]
    cases rest with
    | nil =>
        rfl
    | cons c rest =>
        rw [List.takeWhile_cons_of_neg]
        simpa using hrest
  have hhead : (ch ' ' :: rest).head?.any isSpace = true := rfl
  have hspace : (Gx.plain (Rx.plus space) : Gx κ CodePoint).first pre (ch ' ' :: rest) =
      some ⟨(ch ' ' :: rest).takeWhile isSpace, []⟩ := Gx.first_plain_plus hhead pre
  rw [htake] at hspace
  exact Gx.first_seq hspace hm

/-- A literal reads a word that fits it. -/
theorem first_fits_seq
    {ps : List (CodePoint → Bool)} {w : PyStr} (hw : Rx.Fits ps w)
    (hm : g.first (w.reverse ++ pre) rest = some m) :
    (Gx.seq (.plain (Rx.word ps)) g).first pre (w ++ rest) =
      some (Match.append ⟨w, []⟩ m) := by
  have hstarts : Rx.startsWith ps (w ++ rest) = true :=
    (Rx.startsWith_iff _ _).mpr ⟨w, rest, rfl, hw⟩
  have hlength : ps.length = w.length := hw.length_eq
  have hword : (Gx.plain (Rx.word ps) : Gx κ CodePoint).first pre (w ++ rest) =
      some ⟨w, []⟩ := by
    rw [Gx.first_plain, Rx.first, Rx.ends_word, if_pos hstarts, hlength]
    simp
  refine Gx.first_seq hword ?_
  rwa [List.drop_left]

/-- A literal reads itself. -/
theorem first_lit_seq
    (s : String) (hm : g.first ((lit s).reverse ++ pre) rest = some m) :
    (Gx.seq (.plain (litRx s)) g).first pre (lit s ++ rest) =
      some (Match.append ⟨lit s, []⟩ m) :=
  first_fits_seq ((fits_one_iff _ _).mpr rfl) hm

/-- Without the literal, nothing matches. -/
theorem first_lit_none
    (s : String) (g : Gx κ CodePoint) (pre : PyStr) {post : PyStr} (h : ¬ lit s <+: post) :
    (Gx.seq (.plain (litRx s)) g).first pre post = none := by
  refine Gx.first_seq_none fun x hx => ?_
  obtain ⟨n, hn, rfl⟩ := List.mem_map.mp hx
  obtain ⟨v, b, rfl, rfl, hv⟩ := (Rx.mem_ends_iff _ pre _ n).mp hn
  rw [litRx, Rx.lang_word, fits_one_iff] at hv
  subst hv
  exact absurd (List.prefix_append _ _) h

/-- `\s*` takes all white space, when what comes behind leads on. -/
theorem first_spaces_seq
    {blanks : PyStr} (hblanks : ∀ c ∈ blanks, c.isSpace = true)
    (hrest : rest.head?.all (fun c => !c.isSpace) = true)
    (hm : g.first (blanks.reverse ++ pre) rest = some m) :
    (Gx.seq (.plain (Rx.star space)) g).first pre (blanks ++ rest) =
      some (Match.append ⟨blanks, []⟩ m) := by
  have htake : (blanks ++ rest).takeWhile isSpace = blanks := by
    rw [List.takeWhile_append_of_pos hblanks]
    cases rest with
    | nil =>
        simp
    | cons c rest =>
        rw [List.takeWhile_cons_of_neg (by simpa using hrest), List.append_nil]
  have hspace : (Gx.plain (Rx.star space) : Gx κ CodePoint).first pre (blanks ++ rest) =
      some ⟨(blanks ++ rest).takeWhile isSpace, []⟩ := Gx.first_plain_star isSpace pre _
  rw [htake] at hspace
  refine Gx.first_seq hspace ?_
  rwa [List.drop_left]

end Reading

section Tool

variable (U : UnicodeData) (registry : KCRegistry) (mqVersion : Option PyStr)

/-- `RDQMCheckResult` -/
structure RDQMCheckResult where
  findings : List RCSFinding
  rawEvidence : Health.Evidence

/-- The argument of the matcher for the three replies. -/
def rawData (rdqmRaw crmRaw drbdRaw qmName : PyStr) : Rcs.Rdqm.RawData where
  rdqmStatus := statusRow (parseRdqmstatus rdqmRaw qmName)
  pacemaker := parseCrmMon U crmRaw
  drbd := parseDrbd drbdRaw

/-- `run_rdqm_checks` -/
def runRdqmChecks (connector : Miqm.Connector) (qmName : PyStr) : RDQMCheckResult :=
  let rdqmRaw := safeShell connector [lit "rdqmstatus"]
  let raw := rawData U rdqmRaw (safeShell connector [lit "crm_mon", lit "-1"])
    (safeShell connector [lit "drbdadm", lit "status"]) qmName
  let pace := raw.pacemaker.getD {}
  { findings := matchRdqmFindings registry mqVersion raw
    rawEvidence := OrderedDict.ofList
      [ (lit "pacemaker_total", .int pace.totalNodes),
        (lit "pacemaker_online", .int pace.onlineNodes.length),
        (lit "pacemaker_offline", .int pace.offlineNodes.length),
        (lit "pacemaker_failed_resources", .int pace.failedResources.length),
        (lit "drbd_resources", .int raw.drbd.length),
        (lit "drbd_split_brain", .bool (raw.drbd.any fun d => (d.get "split_brain").truthy)),
        (lit "rdqm_running_node",
          .str ((raw.rdqmStatus.get "running_node").orElse (.str [])).toStr) ] }

/-- `diagnose_rdqm_issues` -/
def diagnoseRdqmIssues (qmName : PyStr) (connector : Miqm.Connector) : Miqm.ToolResponse :=
  let result := runRdqmChecks U registry mqVersion connector qmName
  { tool := lit "diagnose_rdqm_issues"
    qmName := qmName
    findings := result.findings
    rawEvidence := result.rawEvidence }

end Tool

end Rdqm
end MqSentinel
