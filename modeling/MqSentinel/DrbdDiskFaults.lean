import MqSentinel.DrbdRendering

/-!
# Faults of local disks

The state of a local disk stands in the header of its resource.  The parser copies it to
the entry of every peer, and the matcher looks at every entry: a faulty disk is reported
once for each peer, and not at all without one.
-/

namespace MqSentinel
namespace Rdqm

open Regex Rcs CodePoint
open Rcs.Rdqm (badDrbdDisk findingDisk matchRdqmFindings checkDrbdDiskState checkDrbdSplitBrain
  checkDrbdConnection checkPacemakerQuorum checkOfflineNodes checkFailedResources
  checkRdqmNoRunningNode diskFault diskFaults resourceName connectionFault)

/-- The finding about the local disk of a resource. -/
def LocalDisk (name : PyStr) (f : RCSFinding) : Prop :=
  (lit "resource", name) ∈ f.evidence ∧ (lit "side", lit "local") ∈ f.evidence

instance (name : PyStr) (f : RCSFinding) : Decidable (LocalDisk name f) :=
  inferInstanceAs (Decidable (_ ∧ _))

section Counting

variable (registry : KCRegistry) (mqVersion : Option PyStr)

theorem strip_of_isWord
    {w : PyStr} (h : IsWord w) :
    strip w = w := by
  have hfront : lstrip w = w := by
    refine List.dropWhile_eq_self_iff.mpr fun hlen => ?_
    simp [h.2 _ (List.getElem_mem hlen)]
  have hback : rstrip w = w := by
    refine List.rdropWhile_eq_self_iff.mpr fun hne => ?_
    simp [h.2 _ (List.getLast_mem hne)]
  rw [strip, hfront, hback]

/-- The cells of an entry that the check of the disks reads. -/
theorem cells_drbdEntry (b : Bool) (r : Resource) (p : Peer) :
    (drbdEntry b r p).get "split_brain" = .bool b ∧
      (drbdEntry b r p).getOr "disk_state" (.str []) = .str r.disk ∧
      (drbdEntry b r p).getOr "peer_disk_state" (.str []) = .str p.peerDisk := by
  have hnodup : [lit "resource", lit "role", lit "disk_state", lit "peer",
      lit "connection_state", lit "peer_role", lit "peer_disk_state", lit "split_brain"].Nodup := by
    decide
  have hflag := (get?_drbdEntry b r p).2
  have hdisk : (drbdEntry b r p).get? (lit "disk_state") = some (.str r.disk) :=
    OrderedDict.get?_ofList_of_mem (by exact hnodup) (by simp)
  have hpeer : (drbdEntry b r p).get? (lit "peer_disk_state") = some (.str p.peerDisk) :=
    OrderedDict.get?_ofList_of_mem (by exact hnodup) (by simp)
  simp [Row.get, Row.getOr, hflag, hdisk, hpeer]

theorem localDisk_findingDisk_iff (name resource who state : PyStr) :
    LocalDisk name (findingDisk registry mqVersion resource who state) ↔
      resource = name ∧ who = lit "local" := by
  have hkeys : lit "resource" ≠ lit "side" ∧ lit "resource" ≠ lit "state" ∧
      lit "side" ≠ lit "resource" ∧ lit "side" ≠ lit "state" := by
    decide
  simp only [LocalDisk, findingDisk, List.mem_cons, Prod.mk.injEq, List.not_mem_nil, or_false,
    hkeys, false_and, false_or, true_and, or_false]
  exact and_congr eq_comm eq_comm

/-- An entry has one finding about its local disk when that has failed. -/
theorem countP_diskFaults (name : PyStr) {r : Resource} (hdisk : IsWord r.disk) (p : Peer) :
    (diskFaults registry mqVersion (drbdEntry false r p)).countP (LocalDisk name) =
      if r.name = name ∧ r.disk ∈ badDrbdDisk then 1 else 0 := by
  have hgood : lit "UpToDate" ∉ badDrbdDisk := by decide
  have hlocal : (diskFault registry mqVersion (drbdEntry false r p) "local" "disk_state") =
      if r.disk ∈ badDrbdDisk then
        some (findingDisk registry mqVersion r.name (lit "local") r.disk)
      else none := by
    rw [diskFault, (cells_drbdEntry false r p).2.1, resourceName_drbdEntry,
      show (Cell.str r.disk).toStr = r.disk from rfl, strip_of_isWord hdisk]
    split_ifs with hnone hbad hbad
    · rcases hnone with hnone | hnone
      · exact absurd hnone hdisk.1
      · rw [hnone] at hbad
        exact absurd hbad hgood
    · rfl
    · rfl
    · rfl
  have hpeer : ((diskFault registry mqVersion (drbdEntry false r p) "peer"
      "peer_disk_state").toList).countP (LocalDisk name) = 0 := by
    rw [List.countP_eq_zero]
    intro f hf
    obtain ⟨state, rfl⟩ := Rcs.Rdqm.exists_of_diskFault (Option.mem_toList.mp hf)
    rw [decide_eq_true_eq, localDisk_findingDisk_iff]
    rintro ⟨-, hwho⟩
    revert hwho
    decide
  rw [diskFaults, List.countP_append, hpeer, Nat.add_zero, hlocal]
  by_cases hbad : r.disk ∈ badDrbdDisk
  · by_cases hname : r.name = name
    · simp [hbad, hname, localDisk_findingDisk_iff]
    · simp [hbad, hname, localDisk_findingDisk_iff]
  · simp [hbad]

/-- No other check has a finding about a local disk. -/
theorem countP_of_evidence
    (name : PyStr) {findings : List RCSFinding}
    (h : ∀ f ∈ findings, lit "side" ∉ f.evidence.map Prod.fst) :
    findings.countP (LocalDisk name) = 0 := by
  rw [List.countP_eq_zero]
  intro f hf hlocal
  exact h f hf (List.mem_map_of_mem (of_decide_eq_true hlocal).2)

theorem countP_otherChecks
    (name : PyStr) (pace : Rcs.Rdqm.Pacemaker) (rdqm : Row) (drbd : List Row) :
    (checkPacemakerQuorum registry mqVersion pace).countP (LocalDisk name) = 0 ∧
      (checkOfflineNodes registry mqVersion pace).countP (LocalDisk name) = 0 ∧
      (checkFailedResources registry mqVersion pace).countP (LocalDisk name) = 0 ∧
      (checkDrbdSplitBrain registry mqVersion drbd).countP (LocalDisk name) = 0 ∧
      (checkDrbdConnection registry mqVersion drbd).countP (LocalDisk name) = 0 ∧
      (checkRdqmNoRunningNode registry mqVersion rdqm).countP (LocalDisk name) = 0 := by
  refine ⟨?_, ?_, ?_, ?_, ?_, ?_⟩
  · refine countP_of_evidence name fun f hf => ?_
    obtain ⟨-, rfl⟩ := Rcs.Rdqm.mem_checkPacemakerQuorum_iff.mp hf
    show lit "side" ∉ [lit "online", lit "total", lit "required"]
    decide
  · refine countP_of_evidence name fun f hf => ?_
    obtain ⟨-, rfl⟩ := Rcs.Rdqm.mem_checkOfflineNodes_iff.mp hf
    show lit "side" ∉ [lit "offline"]
    decide
  · refine countP_of_evidence name fun f hf => ?_
    obtain ⟨row, -, rfl⟩ := Rcs.Rdqm.mem_checkFailedResources_iff.mp hf
    show lit "side" ∉ [lit "resource", lit "node", lit "status"]
    decide
  · refine countP_of_evidence name fun f hf => ?_
    obtain ⟨row, -, -, rfl⟩ := Rcs.Rdqm.mem_checkDrbdSplitBrain_iff.mp hf
    show lit "side" ∉ [lit "resource"]
    decide
  · refine countP_of_evidence name fun f hf => ?_
    obtain ⟨row, -, -, hrow⟩ := Rcs.Rdqm.mem_checkDrbdConnection_iff.mp hf
    obtain ⟨conn, rfl⟩ := Rcs.Rdqm.exists_of_connectionFault hrow
    show lit "side" ∉ [lit "resource", lit "connection_state"]
    decide
  · refine countP_of_evidence name fun f hf => ?_
    obtain ⟨qm, haState, rfl⟩ := Rcs.Rdqm.exists_of_mem_checkRdqmNoRunningNode hf
    show lit "side" ∉ [lit "qm_name", lit "ha_state"]
    decide

/-- The findings about a local disk are those of the disk check. -/
theorem countP_matchRdqmFindings (name : PyStr) (raw : Rcs.Rdqm.RawData) :
    (matchRdqmFindings registry mqVersion raw).countP (LocalDisk name) =
      (checkDrbdDiskState registry mqVersion raw.drbd).countP (LocalDisk name) := by
  obtain ⟨hquorum, hoffline, hfailed, hsplit, hconn, hrunning⟩ :=
    countP_otherChecks registry mqVersion name (raw.pacemaker.getD {}) raw.rdqmStatus raw.drbd
  rw [matchRdqmFindings]
  split_ifs with hempty
  · rw [hempty.2.2]
    rfl
  · simp only [List.countP_append, hquorum, hoffline, hfailed, hsplit, hconn, hrunning,
      Nat.zero_add, Nat.add_zero]

/-- Counting through lists that count alike. -/
theorem countP_flatMap_const
    {α β : Type} {p : β → Bool} {f : α → List β} {xs : List α} {n : Nat}
    (h : ∀ x ∈ xs, (f x).countP p = n) :
    (xs.flatMap f).countP p = xs.length * n := by
  induction xs with
  | nil =>
      simp
  | cons x xs ih =>
      rw [List.flatMap_cons, List.countP_append, h x (by simp),
        ih fun y hy => h y (List.mem_cons_of_mem _ hy), List.length_cons, Nat.succ_mul,
        Nat.add_comm]

/-- A resource has as many findings about its local disk as peers, when it has failed. -/
theorem countP_entries
    (name : PyStr) (r : ResourceLines) :
    (checkDrbdDiskState registry mqVersion (r.entries false)).countP (LocalDisk name) =
      if r.resource.name = name ∧ r.resource.disk ∈ badDrbdDisk then r.peers.length else 0 := by
  have hall : (r.entries false).filter (fun d => !(d.get "split_brain").truthy) =
      r.entries false := by
    refine List.filter_eq_self.mpr fun d hd => ?_
    obtain ⟨p, -, rfl⟩ := List.mem_map.mp hd
    rw [(cells_drbdEntry false r.resource p.toPeer).1]
    rfl
  have hone : ∀ d ∈ r.entries false,
      (diskFaults registry mqVersion d).countP (LocalDisk name) =
        if r.resource.name = name ∧ r.resource.disk ∈ badDrbdDisk then 1 else 0 := by
    intro d hd
    obtain ⟨p, -, rfl⟩ := List.mem_map.mp hd
    exact countP_diskFaults registry mqVersion name r.words.2.2 p.toPeer
  have hlength : (r.entries false).length = r.peers.length := by
    rw [ResourceLines.entries, List.length_map]
  rw [checkDrbdDiskState, hall, countP_flatMap_const hone, hlength]
  split_ifs
  · exact Nat.mul_one _
  · exact Nat.mul_zero _

theorem checkDrbdDiskState_append (xs ys : List Row) :
    checkDrbdDiskState registry mqVersion (xs ++ ys) =
      checkDrbdDiskState registry mqVersion xs ++ checkDrbdDiskState registry mqVersion ys := by
  simp [checkDrbdDiskState]

/-- Resources with other names have nothing to do with it. -/
theorem countP_others
    (name : PyStr) {rs : List ResourceLines} (h : ∀ r ∈ rs, r.resource.name ≠ name) :
    (checkDrbdDiskState registry mqVersion (rs.flatMap (ResourceLines.entries false))).countP
      (LocalDisk name) = 0 := by
  induction rs with
  | nil =>
      rfl
  | cons r rs ih =>
      rw [List.flatMap_cons, checkDrbdDiskState_append, List.countP_append, countP_entries,
        if_neg (fun hname => h r (by simp) hname.1),
        ih fun r' hr' => h r' (List.mem_cons_of_mem _ hr')]

/-- Among distinct names a failed disk is reported once for each peer. -/
theorem countP_resource
    {rs : List ResourceLines} (hdistinct : (rs.map fun r => r.resource.name).Nodup)
    {r : ResourceLines} (hr : r ∈ rs) (hbad : r.resource.disk ∈ badDrbdDisk) :
    (checkDrbdDiskState registry mqVersion (rs.flatMap (ResourceLines.entries false))).countP
      (LocalDisk r.resource.name) = r.peers.length := by
  obtain ⟨before, after, rfl⟩ := List.append_of_mem hr
  rw [List.map_append, List.map_cons, List.nodup_append, List.nodup_cons] at hdistinct
  obtain ⟨-, ⟨hafter, -⟩, hcross⟩ := hdistinct
  have hbefore : ∀ x ∈ before, x.resource.name ≠ r.resource.name := by
    intro x hx
    exact hcross _ (List.mem_map_of_mem hx) _ (by simp)
  have hbehind : ∀ x ∈ after, x.resource.name ≠ r.resource.name := by
    intro x hx heq
    exact hafter (List.mem_map.mpr ⟨x, hx, heq⟩)
  rw [List.flatMap_append, List.flatMap_cons, checkDrbdDiskState_append,
    checkDrbdDiskState_append, List.countP_append, List.countP_append,
    countP_others registry mqVersion _ hbefore, countP_others registry mqVersion _ hbehind,
    countP_entries, if_pos ⟨rfl, hbad⟩, Nat.zero_add, Nat.add_zero]

/--
Every failed local disk is reported exactly once if and only if every resource with a
failed disk has exactly one peer.
-/
theorem local_faults_once_iff
    (rdqm : Row) (pacemaker : Option Rcs.Rdqm.Pacemaker) (rs : List ResourceLines)
    (terminated : Bool) (hdistinct : (rs.map fun r => r.resource.name).Nodup)
    (hclean : ¬ drbdSplitBrain.HasMatch (rendered rs terminated)) :
    (∀ r ∈ rs, r.resource.disk ∈ badDrbdDisk →
        (matchRdqmFindings registry mqVersion
          ⟨rdqm, pacemaker, parseDrbd (rendered rs terminated)⟩).countP
            (LocalDisk r.resource.name) = 1) ↔
      ∀ r ∈ rs, r.resource.disk ∈ badDrbdDisk → r.peers.length = 1 := by
  rw [← Rx.search_iff_hasMatch, Bool.not_eq_true] at hclean
  refine forall₂_congr fun r hr => forall_congr' fun hbad => ?_
  rw [countP_matchRdqmFindings, parseDrbd_of_search hclean,
    countP_resource registry mqVersion hdistinct hr hbad]

end Counting

section Witness

/-- A peer with a sound connection. -/
def soundPeer (name : String) (h : IsWord (lit name)) : PeerLines where
  peer := lit name
  conn := lit "Connected"
  peerRole := lit "Primary"
  peerDisk := lit "UpToDate"
  indent := lit "  "
  detailIndent := lit "    "
  words := ⟨h, by unfold IsWord; decide⟩
  indents := isIndent_blanks

/-- A resource whose local disk has failed. -/
def failedDisk (peers : List PeerLines) : ResourceLines where
  resource := ⟨lit "qm1", lit "Secondary", lit "Inconsistent"⟩
  peers := peers
  words := by unfold IsWord; decide

/-- The tables of the registry do not matter. -/
def emptyRegistry : KCRegistry :=
  ⟨OrderedDict.empty, OrderedDict.empty, OrderedDict.empty⟩

/-- One such resource with one peer. -/
def failedWithOnePeer : List ResourceLines :=
  [failedDisk [soundPeer "node2" (by unfold IsWord; decide)]]

/-- The same resource with two peers. -/
def failedWithTwoPeers : List ResourceLines :=
  [failedDisk [soundPeer "node2" (by unfold IsWord; decide),
    soundPeer "node3" (by unfold IsWord; decide)]]

theorem fault_of_one_peer_once :
    (matchRdqmFindings emptyRegistry none
      ⟨OrderedDict.empty, none, parseDrbd (rendered failedWithOnePeer true)⟩).countP
        (LocalDisk (lit "qm1")) = 1 := by
  have hdistinct : (failedWithOnePeer.map fun r => r.resource.name).Nodup :=
    List.nodup_singleton _
  have hclean : ¬ drbdSplitBrain.HasMatch (rendered failedWithOnePeer true) := by
    rw [← Rx.search_iff_hasMatch]
    decide +kernel
  have hpeers : ∀ r ∈ failedWithOnePeer, r.resource.disk ∈ badDrbdDisk →
      r.peers.length = 1 := by
    intro r hr _
    rw [List.mem_singleton.mp hr]
    rfl
  have honce := (local_faults_once_iff emptyRegistry none OrderedDict.empty none
    failedWithOnePeer true hdistinct hclean).mpr hpeers
  have hbad : lit "Inconsistent" ∈ badDrbdDisk := by decide
  exact honce _ (List.mem_singleton.mpr rfl) hbad

/-- With two peers the same disk is reported twice. -/
theorem fault_of_two_peers_twice :
    (lit "qm1", lit "Inconsistent") ∈
        failedWithTwoPeers.map (fun r => (r.resource.name, r.resource.disk)) ∧
      lit "Inconsistent" ∈ badDrbdDisk ∧
      (failedWithTwoPeers.map fun r => r.resource.name).Nodup ∧
      ¬ drbdSplitBrain.HasMatch (rendered failedWithTwoPeers true) ∧
      (matchRdqmFindings emptyRegistry none
        ⟨OrderedDict.empty, none, parseDrbd (rendered failedWithTwoPeers true)⟩).countP
          (LocalDisk (lit "qm1")) = 2 := by
  rw [← Rx.search_iff_hasMatch]
  decide +kernel

end Witness

end Rdqm
end MqSentinel
