import MqSentinel.Citations

/-!
# The keys of the evidence of findings

The sanitizer cleans the values of a dictionary and keeps its keys.  The evidence of a
finding is a dictionary whose values come from the queue manager; here its keys are shown
to come from the source, for every finding of every matcher.
-/

namespace MqSentinel
namespace Rcs

/-- The names of the keys that the matchers give to their evidence. -/
def evidenceNames : List String :=
  [ "channel", "status", "rqmname", "amq_code", "cluster", "members_visible",
    "full_repos_visible", "conname", "clusqmgr", "last_update", "age_days", "this_qm",
    "queue_name", "queue_depth", "sample_size", "reason_code", "count", "top_destinations",
    "top_applications", "high_backout_count", "total_instances", "standby_permitted",
    "active_count", "hosts", "path", "failover_events", "in_sync", "total", "required",
    "actives", "instance", "role", "insync", "replay_pct", "backlog_bytes", "lag_seconds",
    "recovery_group", "online", "offline", "resource", "node", "connection_state", "side",
    "state", "qm_name", "ha_state", "qsg", "member", "chin_status", "psid", "use_pct",
    "bufferpool", "free_pct", "structure" ]

/-- The keys themselves. -/
def evidenceKeys : List PyStr :=
  evidenceNames.map lit

/-- The evidence of a finding is a dictionary with keys of the source only. -/
structure Keyed (f : RCSFinding) : Prop where
  known : ∀ k ∈ f.evidence.map Prod.fst, k ∈ evidenceKeys
  nodup : (f.evidence.map Prod.fst).Nodup

attribute [local simp] evidenceNames

theorem keyed_of_keys
    {f : RCSFinding} (keys : List String) (h : f.evidence.map Prod.fst = keys.map lit)
    (hkeys : (∀ k ∈ keys, k ∈ evidenceNames) ∧ keys.Nodup) :
    Keyed f := by
  constructor
  · rw [h]
    exact List.forall_mem_map.mpr fun k hk => List.mem_map_of_mem (hkeys.1 k hk)
  · rw [h]
    exact hkeys.2.map lit_injective

section Channels

open Channels

variable {U : UnicodeData} {registry : KCRegistry} {mqVersion : Option PyStr}

theorem channels_keyed (order : SetOrder) (raw : Channels.RawData) :
    ∀ f ∈ matchChannelFailures U registry mqVersion order raw, Keyed f := by
  rw [matchChannelFailures, List.forall_mem_append]
  constructor
  · intro f hf
    obtain ⟨row, _, hsome⟩ := List.mem_filterMap.mp hf
    rcases rowFinding_cases hsome with rfl | rfl | ⟨-, rfl⟩ | rfl
    · exact keyed_of_keys ["channel", "status", "rqmname"] rfl (by simp)
    · exact keyed_of_keys ["channel", "status"] rfl (by simp)
    · exact keyed_of_keys ["channel", "status"] rfl (by simp)
    · exact keyed_of_keys ["channel", "status"] rfl (by simp)
  · intro f hf
    obtain ⟨amq, _, hsome⟩ := List.mem_filterMap.mp hf
    obtain rfl := eq_of_codeFinding hsome
    exact keyed_of_keys ["amq_code"] rfl (by simp)

end Channels

section DeadLetter

open DeadLetter

variable {U : UnicodeData} {registry : KCRegistry} {mqVersion : Option PyStr}

theorem dlq_keyed
    {browse : BrowseDict} {findings : List RCSFinding}
    (h : matchDlqFindings U registry mqVersion browse = some findings) :
    ∀ f ∈ findings, Keyed f := by
  have hreadable := readable_of_matchDlqFindings U registry mqVersion h
  rw [matchDlqFindings_of_readable U registry mqVersion hreadable, Option.some_inj] at h
  subst h
  rw [findingsOf, List.forall_mem_append, List.forall_mem_append]
  refine ⟨⟨?_, ?_⟩, ?_⟩
  · intro f hf
    split_ifs at hf
    · obtain rfl := List.mem_singleton.mp hf
      exact keyed_of_keys ["queue_name", "queue_depth", "sample_size"] rfl (by simp)
    · cases hf
  · intro f hf
    obtain ⟨p, _, rfl⟩ := List.mem_map.mp hf
    exact keyed_of_keys ["reason_code", "count", "top_destinations", "top_applications"] rfl
      (by simp)
  · intro f hf
    split_ifs at hf
    · cases hf
    · obtain rfl := List.mem_singleton.mp hf
      exact keyed_of_keys ["queue_name", "high_backout_count", "top_destinations"] rfl (by simp)

end DeadLetter

section Cluster

open Cluster

variable {U : UnicodeData} {registry : KCRegistry} {mqVersion : Option PyStr}

theorem cluster_keyed (clock : Clock) (raw : Cluster.RawData) :
    ∀ f ∈ matchClusterFindings U registry mqVersion clock raw, Keyed f := by
  unfold matchClusterFindings
  dsimp only
  split_ifs
  · simp
  · simp only [List.forall_mem_append]
    refine ⟨⟨⟨⟨?_, ?_⟩, ?_⟩, ?_⟩, ?_⟩
    · intro f hf
      obtain ⟨⟨cluster, members⟩, _, hsome⟩ := List.mem_filterMap.mp hf
      dsimp only at hsome
      split_ifs at hsome
      obtain rfl := Option.some_inj.mp hsome
      exact keyed_of_keys ["cluster", "members_visible", "full_repos_visible"] rfl (by simp)
    · intro f hf
      obtain ⟨row, _, hsome⟩ := List.mem_filterMap.mp hf
      split_ifs at hsome
      obtain rfl := Option.some_inj.mp hsome
      exact keyed_of_keys ["channel", "cluster", "conname", "status"] rfl (by simp)
    · intro f hf
      obtain ⟨⟨row, i⟩, _, hsome⟩ := List.mem_filterMap.mp hf
      obtain ⟨age, _, rfl⟩ := Option.map_eq_some_iff.mp hsome
      exact keyed_of_keys ["clusqmgr", "cluster", "last_update", "age_days"] rfl (by simp)
    · intro f hf
      obtain ⟨row, _, hsome⟩ := List.mem_filterMap.mp hf
      split_ifs at hsome
      obtain rfl := Option.some_inj.mp hsome
      exact keyed_of_keys ["clusqmgr", "cluster"] rfl (by simp)
    · intro f hf
      unfold checkSelfOnlyMembership at hf
      split_ifs at hf
      · cases hf
      · cases hf
      · obtain rfl := List.mem_singleton.mp hf
        exact keyed_of_keys ["this_qm", "members_visible"] rfl (by simp)

end Cluster

section NativeHa

open Rcs.NativeHa

variable {U : UnicodeData} {registry : KCRegistry} {mqVersion : Option PyStr}

theorem nativeHa_keyed
    {raw : NativeHa.RawData} {findings : List RCSFinding}
    (h : matchNativeHaFindings U registry mqVersion raw = some findings) :
    ∀ f ∈ findings, Keyed f := by
  unfold matchNativeHaFindings at h
  split_ifs at h
  · obtain rfl := Option.some_inj.mp h
    simp
  · obtain ⟨quorum, hquorum, rfl⟩ := Option.map_eq_some_iff.mp h
    simp only [List.forall_mem_append]
    refine ⟨⟨⟨⟨?_, ?_⟩, ?_⟩, ?_⟩, ?_⟩
    · intro f hf
      unfold checkQuorum at hquorum
      dsimp only at hquorum
      split_ifs at hquorum
      · obtain rfl := Option.some_inj.mp hquorum
        cases hf
      · obtain ⟨required, _, rfl⟩ := Option.map_eq_some_iff.mp hquorum
        split_ifs at hf
        · cases hf
        · obtain rfl := List.mem_singleton.mp hf
          exact keyed_of_keys ["in_sync", "total", "required"] rfl (by simp)
    · intro f hf
      unfold checkActiveInstance at hf
      split at hf
      · obtain rfl := List.mem_singleton.mp hf
        exact keyed_of_keys ["actives", "total"] rfl (by simp)
      · cases hf
      · obtain rfl := List.mem_singleton.mp hf
        exact keyed_of_keys ["actives"] rfl (by simp)
    · intro f hf
      obtain ⟨row, _, hsome⟩ := List.mem_filterMap.mp hf
      split_ifs at hsome
      obtain rfl := Option.some_inj.mp hsome
      exact keyed_of_keys ["instance", "role", "status", "insync"] rfl (by simp)
    · intro f hf
      obtain ⟨row, _, hsome⟩ := List.mem_filterMap.mp hf
      unfold replayLag at hsome
      dsimp only at hsome
      split_ifs at hsome
      all_goals
        obtain rfl := Option.some_inj.mp hsome
        exact keyed_of_keys ["instance", "replay_pct", "backlog_bytes"] rfl (by simp)
    · intro f hf
      unfold checkCrrLag at hf
      split at hf
      · cases hf
      · dsimp only at hf
        split_ifs at hf
        · cases hf
        · cases hf
        · obtain rfl := List.mem_singleton.mp hf
          exact keyed_of_keys ["lag_seconds", "recovery_group", "role"] rfl (by simp)

end NativeHa

section Rdqm

open Rcs.Rdqm

variable {U : UnicodeData} {registry : KCRegistry} {mqVersion : Option PyStr}

theorem rdqm_keyed (raw : Rdqm.RawData) :
    ∀ f ∈ matchRdqmFindings registry mqVersion raw, Keyed f := by
  unfold matchRdqmFindings
  dsimp only
  split_ifs
  · simp
  · simp only [List.forall_mem_append]
    refine ⟨⟨⟨⟨⟨⟨?_, ?_⟩, ?_⟩, ?_⟩, ?_⟩, ?_⟩, ?_⟩
    · intro f hf
      obtain ⟨-, rfl⟩ := mem_checkPacemakerQuorum_iff.mp hf
      exact keyed_of_keys ["online", "total", "required"] rfl (by simp)
    · intro f hf
      obtain ⟨-, rfl⟩ := mem_checkOfflineNodes_iff.mp hf
      exact keyed_of_keys ["offline"] rfl (by simp)
    · intro f hf
      obtain ⟨entry, -, rfl⟩ := mem_checkFailedResources_iff.mp hf
      exact keyed_of_keys ["resource", "node", "status"] rfl (by simp)
    · intro f hf
      obtain ⟨entry, -, -, rfl⟩ := mem_checkDrbdSplitBrain_iff.mp hf
      exact keyed_of_keys ["resource"] rfl (by simp)
    · intro f hf
      obtain ⟨entry, -, -, hsome⟩ := mem_checkDrbdConnection_iff.mp hf
      obtain ⟨conn, rfl⟩ := exists_of_connectionFault hsome
      exact keyed_of_keys ["resource", "connection_state"] rfl (by simp)
    · intro f hf
      obtain ⟨entry, -, -, hentry⟩ := mem_checkDrbdDiskState_iff.mp hf
      obtain ⟨who, state, rfl⟩ := exists_of_mem_diskFaults hentry
      exact keyed_of_keys ["resource", "side", "state"] rfl (by simp)
    · intro f hf
      obtain ⟨qm, haState, rfl⟩ := exists_of_mem_checkRdqmNoRunningNode hf
      exact keyed_of_keys ["qm_name", "ha_state"] rfl (by simp)

end Rdqm

section Zos

open Rcs.Zos

variable {U : UnicodeData} {registry : KCRegistry} {mqVersion : Option PyStr}

theorem zos_keyed (raw : Zos.RawData) :
    ∀ f ∈ matchZosFindings U registry mqVersion raw, Keyed f := by
  simp only [matchZosFindings, List.forall_mem_append]
  refine ⟨⟨⟨⟨?_, ?_⟩, ?_⟩, ?_⟩, ?_⟩
  · intro f hf
    obtain ⟨row, _, hsome⟩ := List.mem_filterMap.mp hf
    dsimp only at hsome
    split_ifs at hsome
    obtain rfl := Option.some_inj.mp hsome
    exact keyed_of_keys ["qsg", "member", "status"] rfl (by simp)
  · intro f hf
    unfold checkChin at hf
    dsimp only at hf
    split_ifs at hf
    · cases hf
    · cases hf
    · obtain rfl := List.mem_singleton.mp hf
      exact keyed_of_keys ["chin_status"] rfl (by simp)
  · intro f hf
    obtain ⟨row, _, hsome⟩ := List.mem_filterMap.mp hf
    split_ifs at hsome
    obtain rfl := Option.some_inj.mp hsome
    exact keyed_of_keys ["psid", "use_pct"] rfl (by simp)
  · intro f hf
    obtain ⟨row, _, hsome⟩ := List.mem_filterMap.mp hf
    split_ifs at hsome
    obtain rfl := Option.some_inj.mp hsome
    exact keyed_of_keys ["bufferpool", "free_pct"] rfl (by simp)
  · intro f hf
    obtain ⟨row, _, hsome⟩ := List.mem_filterMap.mp hf
    split_ifs at hsome
    obtain rfl := Option.some_inj.mp hsome
    exact keyed_of_keys ["structure", "status"] rfl (by simp)

end Zos

section Miqm

open Rcs.Miqm

variable {U : UnicodeData} {registry : KCRegistry} {mqVersion : Option PyStr}

theorem miqm_keyed (raw : Miqm.RawData) :
    ∀ f ∈ matchMiqmFindings U registry mqVersion raw, Keyed f := by
  unfold matchMiqmFindings
  split_ifs
  · simp
  · simp only [List.forall_mem_append]
    refine ⟨⟨⟨⟨?_, ?_⟩, ?_⟩, ?_⟩, ?_⟩
    · intro f hf
      unfold checkNoActive at hf
      split_ifs at hf
      · cases hf
      · cases hf
      · obtain rfl := List.mem_singleton.mp hf
        exact keyed_of_keys ["total_instances"] rfl (by simp)
    · intro f hf
      unfold checkStandbyPermission at hf
      split_ifs at hf
      · cases hf
      · obtain rfl := List.mem_singleton.mp hf
        exact keyed_of_keys ["standby_permitted"] rfl (by simp)
    · intro f hf
      unfold checkDualActive at hf
      dsimp only at hf
      split_ifs at hf
      · cases hf
      · obtain rfl := List.mem_singleton.mp hf
        exact keyed_of_keys ["active_count", "hosts"] rfl (by simp)
    · intro f hf
      unfold checkSharedFs at hf
      split_ifs at hf
      · cases hf
      · obtain rfl := List.mem_singleton.mp hf
        exact keyed_of_keys ["path"] rfl (by simp)
    · intro f hf
      unfold checkFailoverHistory at hf
      split_ifs at hf
      · cases hf
      · obtain rfl := List.mem_singleton.mp hf
        exact keyed_of_keys ["failover_events"] rfl (by simp)

end Miqm

end Rcs
end MqSentinel
