import MqSentinel.FindingTitles
import MqSentinel.RdqmParsers

/-!
# RDQM evidence

`run_rdqm_checks` returns counts beside its findings.  Both come from the same three
replies, and they agree: each finding about Pacemaker, about split-brain and, provided
`rdqmstatus` printed anything, about the running node is there exactly when the evidence
beside it says so.
-/

namespace MqSentinel
namespace Rdqm

open Rcs Rcs.Rdqm MqSentinel.NativeHa FindingTitles

/-- The findings agree with the evidence; `reply` is what `rdqmstatus` printed. -/
structure Agrees (reply : PyStr) (result : RDQMCheckResult) : Prop where
  nodes :
    evidenceInt result.rawEvidence "pacemaker_total" =
      evidenceInt result.rawEvidence "pacemaker_online" +
        evidenceInt result.rawEvidence "pacemaker_offline"
  quorum :
    titledCount "Pacemaker quorum lost: " result.findings =
      if 0 < evidenceInt result.rawEvidence "pacemaker_total" ∧
          evidenceInt result.rawEvidence "pacemaker_online" <
            evidenceInt result.rawEvidence "pacemaker_total" / 2 + 1 then 1 else 0
  offline :
    titledCount "Pacemaker reports " result.findings =
      if 0 < evidenceInt result.rawEvidence "pacemaker_offline" then 1 else 0
  failed :
    (titledCount "Pacemaker resource " result.findings : Int) =
      evidenceInt result.rawEvidence "pacemaker_failed_resources"
  splitBrain :
    0 < titledCount "DRBD split-brain detected on resource " result.findings ↔
      evidenceBool result.rawEvidence "drbd_split_brain" = true
  noDrbd :
    evidenceInt result.rawEvidence "drbd_resources" = 0 →
      titledCount "DRBD " result.findings = 0
  running :
    titledCount "RDQM " result.findings =
      if reply ≠ [] ∧ strip (evidenceStr result.rawEvidence "rdqm_running_node") = [] then 1
      else 0

section Findings

variable (registry : KCRegistry) (mqVersion : Option PyStr)

theorem titled_checkPacemakerQuorum (pace : Pacemaker) :
    Titled "Pacemaker quorum lost: " (checkPacemakerQuorum registry mqVersion pace) := by
  intro f hf
  obtain ⟨-, rfl⟩ := mem_checkPacemakerQuorum_iff.mp hf
  simp only [findingQuorumLost, List.append_assoc]
  exact List.prefix_append _ _

theorem titled_checkOfflineNodes (pace : Pacemaker) :
    Titled "Pacemaker reports " (checkOfflineNodes registry mqVersion pace) := by
  intro f hf
  obtain ⟨-, rfl⟩ := mem_checkOfflineNodes_iff.mp hf
  simp only [findingOfflineNodes, List.append_assoc]
  exact List.prefix_append _ _

theorem titled_checkFailedResources (pace : Pacemaker) :
    Titled "Pacemaker resource " (checkFailedResources registry mqVersion pace) := by
  intro f hf
  obtain ⟨row, -, rfl⟩ := mem_checkFailedResources_iff.mp hf
  simp only [findingFailedResource, List.append_assoc]
  exact List.prefix_append _ _

theorem titled_checkDrbdSplitBrain (drbd : List Row) :
    Titled "DRBD split-brain detected on resource "
      (checkDrbdSplitBrain registry mqVersion drbd) := by
  intro f hf
  obtain ⟨d, -, -, rfl⟩ := mem_checkDrbdSplitBrain_iff.mp hf
  exact List.prefix_append _ _

theorem titled_checkDrbdConnection (drbd : List Row) :
    Titled "DRBD resource " (checkDrbdConnection registry mqVersion drbd) := by
  intro f hf
  obtain ⟨d, -, -, hfault⟩ := mem_checkDrbdConnection_iff.mp hf
  obtain ⟨conn, rfl⟩ := exists_of_connectionFault hfault
  simp only [findingConnection, List.append_assoc]
  exact List.prefix_append _ _

theorem titledIn_checkDrbdDiskState (drbd : List Row) :
    TitledIn ["DRBD local disk on ", "DRBD peer disk on "]
      (checkDrbdDiskState registry mqVersion drbd) := by
  intro f hf
  obtain ⟨d, -, -, hfault⟩ := mem_checkDrbdDiskState_iff.mp hf
  rw [diskFaults, List.mem_append, Option.mem_toList, Option.mem_toList] at hfault
  rcases hfault with hfault | hfault
  · obtain ⟨state, rfl⟩ := exists_of_diskFault hfault
    refine ⟨"DRBD local disk on ", by simp, ?_⟩
    simp only [findingDisk, List.append_assoc]
    exact List.prefix_append _ _
  · obtain ⟨state, rfl⟩ := exists_of_diskFault hfault
    refine ⟨"DRBD peer disk on ", by simp, ?_⟩
    simp only [findingDisk, List.append_assoc]
    exact List.prefix_append _ _

theorem titled_checkRdqmNoRunningNode (status : Row) :
    Titled "RDQM " (checkRdqmNoRunningNode registry mqVersion status) := by
  intro f hf
  obtain ⟨qm, haState, rfl⟩ := exists_of_mem_checkRdqmNoRunningNode hf
  simp only [findingNoRunningNode, List.append_assoc]
  exact List.prefix_append _ _

/-- The findings of the seven checks. -/
def parts (raw : RawData) : Parts :=
  let pace := raw.pacemaker.getD {}
  [ (["Pacemaker quorum lost: "], checkPacemakerQuorum registry mqVersion pace),
    (["Pacemaker reports "], checkOfflineNodes registry mqVersion pace),
    (["Pacemaker resource "], checkFailedResources registry mqVersion pace),
    (["DRBD split-brain detected on resource "],
      checkDrbdSplitBrain registry mqVersion raw.drbd),
    (["DRBD resource "], checkDrbdConnection registry mqVersion raw.drbd),
    (["DRBD local disk on ", "DRBD peer disk on "],
      checkDrbdDiskState registry mqVersion raw.drbd),
    (["RDQM "], checkRdqmNoRunningNode registry mqVersion raw.rdqmStatus) ]

/-- Without any data the seven checks find nothing either. -/
theorem matchRdqmFindings_parts (raw : RawData) :
    matchRdqmFindings registry mqVersion raw =
      (parts registry mqVersion raw).flatMap Prod.snd := by
  rw [matchRdqmFindings]
  split_ifs with hnone
  · obtain ⟨hstatus, hpace, hdrbd⟩ := hnone
    simp [parts, hpace, hdrbd, checkPacemakerQuorum, checkOfflineNodes, checkFailedResources,
      checkDrbdSplitBrain, checkDrbdConnection, checkDrbdDiskState, checkRdqmNoRunningNode,
      hstatus]
  · simp [parts]

theorem titledIn_parts (raw : RawData) :
    ∀ p ∈ parts registry mqVersion raw, TitledIn p.1 p.2 := by
  simp only [parts, List.forall_mem_cons]
  exact ⟨titledIn_singleton (titled_checkPacemakerQuorum registry mqVersion _),
    titledIn_singleton (titled_checkOfflineNodes registry mqVersion _),
    titledIn_singleton (titled_checkFailedResources registry mqVersion _),
    titledIn_singleton (titled_checkDrbdSplitBrain registry mqVersion _),
    titledIn_singleton (titled_checkDrbdConnection registry mqVersion _),
    titledIn_checkDrbdDiskState registry mqVersion _,
    titledIn_singleton (titled_checkRdqmNoRunningNode registry mqVersion _),
    fun _ hnil => nomatch hnil⟩

/-- A title is counted in the check that has it. -/
theorem titledCount_matchRdqmFindings
    (raw : RawData) {title : String} {findings : List RCSFinding}
    (hmem : ([title], findings) ∈ parts registry mqVersion raw) (h : Titled title findings) :
    titledCount title (matchRdqmFindings registry mqVersion raw) = findings.length := by
  have hapart : TitlesApart ((parts registry mqVersion raw).map Prod.fst) := by
    show TitlesApart [["Pacemaker quorum lost: "], ["Pacemaker reports "],
      ["Pacemaker resource "], ["DRBD split-brain detected on resource "], ["DRBD resource "],
      ["DRBD local disk on ", "DRBD peer disk on "], ["RDQM "]]
    decide
  rw [matchRdqmFindings_parts, titledCount_parts (titledIn_parts registry mqVersion raw) hapart
    hmem (by simp), titledCount_of_titled h]

theorem length_checkPacemakerQuorum (pace : Pacemaker) :
    (checkPacemakerQuorum registry mqVersion pace).length =
      if 0 < pace.totalNodes ∧ (pace.onlineNodes.length : Int) < pace.totalNodes / 2 + 1 then 1
      else 0 := by
  simp only [checkPacemakerQuorum]
  split_ifs
  all_goals first
    | rfl
    | omega

theorem length_checkOfflineNodes (pace : Pacemaker) :
    (checkOfflineNodes registry mqVersion pace).length =
      if 0 < (pace.offlineNodes.length : Int) then 1 else 0 := by
  rw [checkOfflineNodes]
  by_cases hnone : pace.offlineNodes = []
  · simp [hnone]
  · have hpos : 0 < pace.offlineNodes.length := List.length_pos_iff.mpr hnone
    simp [hnone]

theorem length_checkRdqmNoRunningNode (reply qmName : PyStr) :
    (checkRdqmNoRunningNode registry mqVersion
        (statusRow (parseRdqmstatus reply qmName))).length =
      if reply ≠ [] ∧ strip (((statusRow (parseRdqmstatus reply qmName)).get
        "running_node").orElse (.str [])).toStr = [] then 1 else 0 := by
  rw [checkRdqmNoRunningNode]
  by_cases hreply : reply = []
  · simp [hreply, parseRdqmstatus, statusRow, OrderedDict.empty]
  · have hitems : (statusRow (parseRdqmstatus reply qmName)).items ≠ [] := by
      rw [parseRdqmstatus, if_neg hreply]
      exact List.cons_ne_nil _ _
    rw [if_neg hitems]
    dsimp only
    split_ifs with h₁ h₂ h₃
    · exact absurd h₂.2 h₁
    · rfl
    · rfl
    · exact absurd ⟨hreply, not_not.mp h₁⟩ h₃

end Findings

section Run

variable (U : UnicodeData) (registry : KCRegistry) (mqVersion : Option PyStr)

/-- The two lists of nodes are counted in the total. -/
theorem totalNodes_parseCrmMon (raw : PyStr) :
    ((parseCrmMon U raw).getD {}).totalNodes =
      ((parseCrmMon U raw).getD {}).onlineNodes.length +
        ((parseCrmMon U raw).getD {}).offlineNodes.length := by
  by_cases hraw : raw = []
  · simp [parseCrmMon, hraw]
  · simp only [parseCrmMon, if_neg hraw, Option.getD_some]

/-- The evidence of a run. -/
def evidenceItems (raw : RawData) : List (PyStr × Sanitizer.PyValue) :=
  let pace := raw.pacemaker.getD {}
  [ (lit "pacemaker_total", .int pace.totalNodes),
    (lit "pacemaker_online", .int pace.onlineNodes.length),
    (lit "pacemaker_offline", .int pace.offlineNodes.length),
    (lit "pacemaker_failed_resources", .int pace.failedResources.length),
    (lit "drbd_resources", .int raw.drbd.length),
    (lit "drbd_split_brain", .bool (raw.drbd.any fun d => (d.get "split_brain").truthy)),
    (lit "rdqm_running_node",
      .str ((raw.rdqmStatus.get "running_node").orElse (.str [])).toStr) ]

theorem nodup_evidenceItems (raw : RawData) :
    ((evidenceItems raw).map Prod.fst).Nodup := by
  show [lit "pacemaker_total", lit "pacemaker_online", lit "pacemaker_offline",
    lit "pacemaker_failed_resources", lit "drbd_resources", lit "drbd_split_brain",
    lit "rdqm_running_node"].Nodup
  decide

/-- Entries with a split-brain flag are reported. -/
theorem checkDrbdSplitBrain_pos_iff (drbd : List Row) :
    0 < (checkDrbdSplitBrain registry mqVersion drbd).length ↔
      (drbd.any fun d => (d.get "split_brain").truthy) = true := by
  simp [checkDrbdSplitBrain, List.length_pos_iff, List.filter_eq_nil_iff]

/-- Without entries there is no finding about DRBD. -/
theorem titledCount_drbd
    {raw : RawData} (hdrbd : raw.drbd = []) :
    titledCount "DRBD " (matchRdqmFindings registry mqVersion raw) = 0 := by
  have hapart := titledIn_parts registry mqVersion raw
  simp only [parts, List.forall_mem_cons] at hapart
  rw [matchRdqmFindings_parts]
  simp only [parts, List.flatMap_cons, List.flatMap_nil, titledCount_append, hdrbd]
  rw [titledCount_of_apart hapart.1 (by decide), titledCount_of_apart hapart.2.1 (by decide),
    titledCount_of_apart hapart.2.2.1 (by decide),
    titledCount_of_apart hapart.2.2.2.2.2.2.1 (by decide)]
  rfl

/--
Whatever the three commands print or raise, the findings of a run agree with the counts that
are returned beside them.
-/
theorem rdqm_report_agrees (connector : Miqm.Connector) (qmName : PyStr) :
    Agrees (Miqm.safeShell connector [lit "rdqmstatus"])
      (runRdqmChecks U registry mqVersion connector qmName) := by
  set reply := Miqm.safeShell connector [lit "rdqmstatus"] with hreply
  set crmReply := Miqm.safeShell connector [lit "crm_mon", lit "-1"]
  set raw := rawData U reply crmReply
    (Miqm.safeShell connector [lit "drbdadm", lit "status"]) qmName with hraw
  have hrun : runRdqmChecks U registry mqVersion connector qmName =
      ⟨matchRdqmFindings registry mqVersion raw, OrderedDict.ofList (evidenceItems raw)⟩ := rfl
  have hnodup := nodup_evidenceItems raw
  have hcount := @titledCount_matchRdqmFindings registry mqVersion raw
  have htotal : evidenceInt (OrderedDict.ofList (evidenceItems raw)) "pacemaker_total" =
      (raw.pacemaker.getD {}).totalNodes :=
    evidenceInt_of_mem hnodup List.mem_cons_self
  have honline : evidenceInt (OrderedDict.ofList (evidenceItems raw)) "pacemaker_online" =
      (raw.pacemaker.getD {}).onlineNodes.length :=
    evidenceInt_of_mem hnodup (by simp [evidenceItems])
  have hoffline : evidenceInt (OrderedDict.ofList (evidenceItems raw)) "pacemaker_offline" =
      (raw.pacemaker.getD {}).offlineNodes.length :=
    evidenceInt_of_mem hnodup (by simp [evidenceItems])
  have hfailed : evidenceInt (OrderedDict.ofList (evidenceItems raw))
      "pacemaker_failed_resources" = (raw.pacemaker.getD {}).failedResources.length :=
    evidenceInt_of_mem hnodup (by simp [evidenceItems])
  have hdrbd : evidenceInt (OrderedDict.ofList (evidenceItems raw)) "drbd_resources" =
      raw.drbd.length :=
    evidenceInt_of_mem hnodup (by simp [evidenceItems])
  have hsplit : evidenceBool (OrderedDict.ofList (evidenceItems raw)) "drbd_split_brain" =
      raw.drbd.any fun d => (d.get "split_brain").truthy :=
    evidenceBool_of_mem hnodup (by simp [evidenceItems])
  have hrunning : evidenceStr (OrderedDict.ofList (evidenceItems raw)) "rdqm_running_node" =
      ((raw.rdqmStatus.get "running_node").orElse (.str [])).toStr :=
    evidenceStr_of_mem hnodup (by simp [evidenceItems])
  rw [hrun]
  constructor
  · rw [htotal, honline, hoffline]
    exact totalNodes_parseCrmMon U crmReply
  · rw [htotal, honline, hcount (by simp [parts])
      (titled_checkPacemakerQuorum registry mqVersion (raw.pacemaker.getD {}))]
    exact length_checkPacemakerQuorum registry mqVersion _
  · rw [hoffline, hcount (by simp [parts])
      (titled_checkOfflineNodes registry mqVersion (raw.pacemaker.getD {}))]
    exact length_checkOfflineNodes registry mqVersion _
  · rw [hfailed, hcount (by simp [parts])
      (titled_checkFailedResources registry mqVersion (raw.pacemaker.getD {}))]
    simp [checkFailedResources]
  · rw [hsplit, hcount (by simp [parts])
      (titled_checkDrbdSplitBrain registry mqVersion raw.drbd)]
    exact checkDrbdSplitBrain_pos_iff registry mqVersion _
  · rw [hdrbd]
    intro hnone
    exact titledCount_drbd registry mqVersion (List.length_eq_zero_iff.mp (by omega))
  · rw [hrunning, hcount (by simp [parts])
      (titled_checkRdqmNoRunningNode registry mqVersion raw.rdqmStatus)]
    exact length_checkRdqmNoRunningNode registry mqVersion reply qmName

end Run

end Rdqm
end MqSentinel
