import MqSentinel.ChannelMatcher
import MqSentinel.DlqMatcher
import MqSentinel.ClusterMatcher
import MqSentinel.NativeHaMatcher
import MqSentinel.RdqmMatcher
import MqSentinel.ZosMatcher
import MqSentinel.MiqmMatcher
import MqSentinel.KcRegistry

/-!
# The citations of the findings

A finding cites what one lookup of the registry gives: the lookup of its message code
if it has one, else that of its reason code, else that of a topic; some findings cite
nothing.  Each of the seven matchers keeps to this rule (`Cites`), one case for each
kind of finding.

Over a registry that can be cited the rule says that no citation is invented, that a
finding with a known code cites a page, and that no page for another release is cited
next to one for the release of the queue manager.
-/

namespace MqSentinel
namespace Rcs

/-- A lookup of the registry. -/
inductive Lookup where
  | reason (code : Int)
  | amq (code : PyStr)
  | topic (name : PyStr)

namespace Lookup

/-- The lookup is by the code that the finding carries, if it carries one. -/
def Behind (f : RCSFinding) : Lookup → Prop
  | reason n => f.amqCode = none ∧ f.reasonCode = some n
  | amq code => f.amqCode = some code
  | topic _ => f.amqCode = none ∧ f.reasonCode = none

variable (U : UnicodeData) (registry : KCRegistry) (mqVersion : Option PyStr)

/-- What the registry holds for the lookup. -/
def entry : Lookup → List KCDocRef
  | reason n => (registry.byReason.get? n).getD []
  | amq code => (registry.byAmq.get? (U.upperStr code)).getD []
  | topic name => (registry.topics.get? name).getD []

/-- What the lookup returns. -/
def pages : Lookup → List KCDocRef
  | reason n => registry.lookupReason n mqVersion
  | amq code => registry.lookupAmq U code mqVersion
  | topic name => registry.lookupTopic name mqVersion

theorem pages_eq (l : Lookup) :
    l.pages U registry mqVersion = filterVersion (l.entry U registry) mqVersion := by
  cases l with
  | reason n => rfl
  | amq code => rfl
  | topic name => rfl

variable {U registry}

/-- An entry of the registry is made of its pages. -/
theorem mem_refs_of_mem_entry
    {l : Lookup} {r : KCDocRef} (h : r ∈ l.entry U registry) :
    r ∈ registry.refs := by
  have hvalue : ∀ {κ : Type} [DecidableEq κ] (d : OrderedDict κ (List KCDocRef)) (k : κ),
      r ∈ (d.get? k).getD [] → ∃ refs ∈ d.values, r ∈ refs := by
    intro κ _ d k hr
    cases hget : d.get? k with
    | none =>
        simp [hget] at hr
    | some refs =>
        rw [hget, Option.getD_some] at hr
        exact ⟨refs, List.mem_map.mpr ⟨_, OrderedDict.mem_items_of_get? hget, rfl⟩, hr⟩
  simp only [KCRegistry.refs, List.mem_flatten, List.mem_append]
  cases l with
  | reason n =>
      obtain ⟨refs, hrefs, hr⟩ := hvalue _ _ h
      exact ⟨refs, Or.inl (Or.inl hrefs), hr⟩
  | amq code =>
      obtain ⟨refs, hrefs, hr⟩ := hvalue _ _ h
      exact ⟨refs, Or.inl (Or.inr hrefs), hr⟩
  | topic name =>
      obtain ⟨refs, hrefs, hr⟩ := hvalue _ _ h
      exact ⟨refs, Or.inr hrefs, hr⟩

end Lookup

section Rule

variable (U : UnicodeData) (registry : KCRegistry) (mqVersion : Option PyStr)

/-- The rule that the findings of the matchers keep to. -/
structure Cites (f : RCSFinding) : Prop where
  source : (f.amqCode = none ∧ f.reasonCode = none ∧ f.docRefs = []) ∨
    ∃ l : Lookup, l.Behind f ∧ f.docRefs = l.pages U registry mqVersion
  /-- Only a failed connection carries codes of both kinds. -/
  both : ∀ n code, f.reasonCode = some n → f.amqCode = some code → code = lit "AMQ9202"

/-- A code of the finding is a key of the registry. -/
def HasKnownCode (f : RCSFinding) : Prop :=
  (∃ code ∈ registry.byAmq.keys, f.amqCode = some code) ∨
    ∃ n ∈ registry.byReason.keys, f.reasonCode = some n

/-- The citations of a finding are closed over the registry. -/
structure Closed (f : RCSFinding) : Prop where
  registered : ∀ r ∈ f.docRefs, r ∈ registry.allRefs
  cited : HasKnownCode registry f → f.docRefs ≠ []
  release : ∀ r ∈ f.docRefs, ∃ l : Lookup, l.Behind f ∧ r ∈ l.pages U registry mqVersion ∧
    ∀ v, mqVersion = some v →
      (∃ other ∈ l.entry U registry, majorMinor v ∈ other.mqVersions) →
        majorMinor v ∈ r.mqVersions

variable {U registry mqVersion}

theorem cites_nothing
    {f : RCSFinding} (hamq : f.amqCode = none) (hreason : f.reasonCode = none)
    (hrefs : f.docRefs = []) :
    Cites U registry mqVersion f where
  source := Or.inl ⟨hamq, hreason, hrefs⟩
  both n code hn _ := by
    rw [hreason] at hn
    cases hn

theorem cites_topic
    {f : RCSFinding} (name : PyStr) (hamq : f.amqCode = none) (hreason : f.reasonCode = none)
    (hrefs : f.docRefs = registry.lookupTopic name mqVersion) :
    Cites U registry mqVersion f where
  source := Or.inr ⟨.topic name, ⟨hamq, hreason⟩, hrefs⟩
  both n code hn _ := by
    rw [hreason] at hn
    cases hn

theorem cites_reason
    {f : RCSFinding} (n : Int) (hamq : f.amqCode = none) (hreason : f.reasonCode = some n)
    (hrefs : f.docRefs = registry.lookupReason n mqVersion) :
    Cites U registry mqVersion f where
  source := Or.inr ⟨.reason n, ⟨hamq, hreason⟩, hrefs⟩
  both n code _ hcode := by
    rw [hamq] at hcode
    cases hcode

theorem cites_amq
    {f : RCSFinding} (code : PyStr) (hamq : f.amqCode = some code)
    (hboth : f.reasonCode = none ∨ code = lit "AMQ9202")
    (hrefs : f.docRefs = registry.lookupAmq U code mqVersion) :
    Cites U registry mqVersion f where
  source := Or.inr ⟨.amq code, hamq, hrefs⟩
  both n code' hn hcode := by
    rw [hamq, Option.some_inj] at hcode
    subst hcode
    rcases hboth with hreason | hconn
    · rw [hreason] at hn
      cases hn
    · exact hconn

/-- A lookup of a known code returns a page. -/
theorem Lookup.pages_ne_nil
    {κ : Type} [DecidableEq κ] {d : OrderedDict κ (List KCDocRef)} {k : κ}
    (hfilled : ∀ e ∈ d.items, e.2 ≠ []) (hk : k ∈ d.keys) :
    filterVersion ((d.get? k).getD []) mqVersion ≠ [] := by
  obtain ⟨e, he, rfl⟩ := List.mem_map.mp hk
  have hget : d.get? e.1 = some e.2 := OrderedDict.get?_eq_some_iff.mpr he
  rw [hget, Option.getD_some]
  exact filterVersion_ne_nil (hfilled e he)

/-- The rule closes the citations over a registry that can be cited. -/
theorem Cites.closed
    {f : RCSFinding} (hcurated : registry.Curated U) (h : Cites U registry mqVersion f) :
    Closed U registry mqVersion f := by
  have hamq : ∀ code ∈ registry.byAmq.keys, registry.lookupAmq U code mqVersion ≠ [] := by
    intro code hcode
    have hupper : U.upperStr code = code := by
      obtain ⟨e, he, rfl⟩ := List.mem_map.mp hcode
      exact (hcurated.codes e he).2
    rw [KCRegistry.lookupAmq, hupper]
    exact Lookup.pages_ne_nil (fun e he => (hcurated.codes e he).1) hcode
  rcases h.source with ⟨hnoamq, hnoreason, hnone⟩ | ⟨l, hbehind, hrefs⟩
  · refine ⟨by simp [hnone], ?_, by simp [hnone]⟩
    rintro (⟨code, _, hcode⟩ | ⟨n, _, hn⟩)
    · rw [hnoamq] at hcode
      cases hcode
    · rw [hnoreason] at hn
      cases hn
  · have hentry : ∀ r ∈ f.docRefs, r ∈ l.entry U registry := by
      intro r hr
      rw [hrefs, l.pages_eq] at hr
      exact mem_of_mem_filterVersion hr
    refine ⟨?_, ?_, ?_⟩
    · intro r hr
      exact hcurated.mem_allRefs_iff.mpr (Lookup.mem_refs_of_mem_entry (hentry r hr))
    · intro hknown
      rw [hrefs]
      cases l with
      | topic name =>
          rcases hknown with ⟨code, _, hcode⟩ | ⟨n, _, hn⟩
          · rw [hbehind.1] at hcode
            cases hcode
          · rw [hbehind.2] at hn
            cases hn
      | reason n =>
          rcases hknown with ⟨code, _, hcode⟩ | ⟨m, hm, hreason⟩
          · rw [hbehind.1] at hcode
            cases hcode
          · rw [hbehind.2, Option.some_inj] at hreason
            subst hreason
            exact Lookup.pages_ne_nil hcurated.reasons hm
      | amq code =>
          have hcode : f.amqCode = some code := hbehind
          rcases hknown with ⟨code', hkey, hcode'⟩ | ⟨n, _, hreason⟩
          · rw [hcode, Option.some_inj] at hcode'
            subst hcode'
            exact hamq code hkey
          · rw [Lookup.pages, h.both n code hreason hcode]
            exact hamq _ hcurated.connError
    · intro r hr
      refine ⟨l, hbehind, hrefs ▸ hr, ?_⟩
      rintro v rfl ⟨other, hother, hlisted⟩
      have hv : v ≠ [] := by
        rintro rfl
        exact hcurated.releases other (Lookup.mem_refs_of_mem_entry hother) hlisted
      rw [hrefs, l.pages_eq] at hr
      exact listed_of_mem_filterVersion hv hr hother hlisted

end Rule

section Channels

open Channels

variable {U : UnicodeData} {registry : KCRegistry} {mqVersion : Option PyStr}

theorem channels_cites (order : SetOrder) (raw : Channels.RawData) :
    ∀ f ∈ matchChannelFailures U registry mqVersion order raw, Cites U registry mqVersion f := by
  have hrow : ∀ row f, rowFinding U registry mqVersion row = some f →
      Cites U registry mqVersion f := by
    intro row f hf
    rcases rowFinding_cases hf with rfl | rfl | ⟨-, rfl⟩ | rfl
    · exact cites_reason 2035 rfl rfl rfl
    · exact cites_amq (lit "AMQ9202") rfl (Or.inr rfl) rfl
    · exact cites_nothing rfl rfl rfl
    · exact cites_nothing rfl rfl rfl
  have hcode : ∀ amq f, codeFinding U registry mqVersion amq = some f →
      Cites U registry mqVersion f := by
    intro amq f hf
    obtain rfl := eq_of_codeFinding hf
    exact cites_amq amq rfl (Or.inl rfl) rfl
  rw [matchChannelFailures, List.forall_mem_append]
  constructor
  · intro f hf
    obtain ⟨row, _, hsome⟩ := List.mem_filterMap.mp hf
    exact hrow row f hsome
  · intro f hf
    obtain ⟨amq, _, hsome⟩ := List.mem_filterMap.mp hf
    exact hcode amq f hsome

end Channels

section DeadLetter

open DeadLetter

variable {U : UnicodeData} {registry : KCRegistry} {mqVersion : Option PyStr}

theorem dlq_cites
    {browse : BrowseDict} {findings : List RCSFinding}
    (h : matchDlqFindings U registry mqVersion browse = some findings) :
    ∀ f ∈ findings, Cites U registry mqVersion f := by
  have hreadable := readable_of_matchDlqFindings U registry mqVersion h
  rw [matchDlqFindings_of_readable U registry mqVersion hreadable, Option.some_inj] at h
  subst h
  rw [findingsOf, List.forall_mem_append, List.forall_mem_append]
  refine ⟨⟨?_, ?_⟩, ?_⟩
  · intro f hf
    split_ifs at hf
    · obtain rfl := List.mem_singleton.mp hf
      exact cites_nothing rfl rfl rfl
    · cases hf
  · intro f hf
    obtain ⟨p, _, rfl⟩ := List.mem_map.mp hf
    exact cites_reason p.1 rfl rfl rfl
  · intro f hf
    split_ifs at hf
    · cases hf
    · obtain rfl := List.mem_singleton.mp hf
      exact cites_nothing rfl rfl rfl

end DeadLetter

section Cluster

open Cluster

variable {U : UnicodeData} {registry : KCRegistry} {mqVersion : Option PyStr}

theorem cluster_cites (clock : Clock) (raw : Cluster.RawData) :
    ∀ f ∈ matchClusterFindings U registry mqVersion clock raw,
      Cites U registry mqVersion f := by
  unfold matchClusterFindings
  dsimp only
  split_ifs
  · simp
  · simp only [List.forall_mem_append]
    refine ⟨⟨⟨⟨?_, ?_⟩, ?_⟩, ?_⟩, ?_⟩
    · intro f hf
      obtain ⟨⟨cluster, members⟩, _, hsome⟩ := List.mem_filterMap.mp hf
      dsimp only at hsome
      split_ifs at hsome
      obtain rfl := Option.some_inj.mp hsome
      exact cites_topic (lit "cluster_partial_repository") rfl rfl rfl
    · intro f hf
      obtain ⟨row, _, hsome⟩ := List.mem_filterMap.mp hf
      split_ifs at hsome
      obtain rfl := Option.some_inj.mp hsome
      exact cites_amq (lit "AMQ9764") rfl (Or.inl rfl) rfl
    · intro f hf
      obtain ⟨⟨row, i⟩, _, hsome⟩ := List.mem_filterMap.mp hf
      obtain ⟨age, _, rfl⟩ := Option.map_eq_some_iff.mp hsome
      exact cites_amq (lit "AMQ9456") rfl (Or.inl rfl) rfl
    · intro f hf
      obtain ⟨row, _, hsome⟩ := List.mem_filterMap.mp hf
      split_ifs at hsome
      obtain rfl := Option.some_inj.mp hsome
      exact cites_nothing rfl rfl rfl
    · intro f hf
      unfold checkSelfOnlyMembership at hf
      split_ifs at hf
      · cases hf
      · cases hf
      · obtain rfl := List.mem_singleton.mp hf
        exact cites_nothing rfl rfl rfl

end Cluster

section NativeHa

open Rcs.NativeHa

variable {U : UnicodeData} {registry : KCRegistry} {mqVersion : Option PyStr}

theorem nativeHa_cites
    {raw : NativeHa.RawData} {findings : List RCSFinding}
    (h : matchNativeHaFindings U registry mqVersion raw = some findings) :
    ∀ f ∈ findings, Cites U registry mqVersion f := by
  unfold matchNativeHaFindings at h
  split_ifs at h
  · obtain rfl := Option.some_inj.mp h
    simp
  · obtain ⟨quorum, hquorum, rfl⟩ := Option.map_eq_some_iff.mp h
    simp only [List.forall_mem_append]
    refine ⟨⟨⟨⟨?_, ?_⟩, ?_⟩, ?_⟩, ?_⟩
    · intro f hf
      unfold checkQuorum at hquorum
      dsimp only at hquorum
      split_ifs at hquorum
      · obtain rfl := Option.some_inj.mp hquorum
        cases hf
      · obtain ⟨required, _, rfl⟩ := Option.map_eq_some_iff.mp hquorum
        split_ifs at hf
        · cases hf
        · obtain rfl := List.mem_singleton.mp hf
          exact cites_topic (lit "native_ha_quorum_lost") rfl rfl rfl
    · intro f hf
      unfold checkActiveInstance at hf
      split at hf
      · obtain rfl := List.mem_singleton.mp hf
        exact cites_topic (lit "native_ha_quorum_lost") rfl rfl rfl
      · cases hf
      · obtain rfl := List.mem_singleton.mp hf
        exact cites_topic (lit "native_ha_quorum_lost") rfl rfl rfl
    · intro f hf
      obtain ⟨row, _, hsome⟩ := List.mem_filterMap.mp hf
      split_ifs at hsome
      obtain rfl := Option.some_inj.mp hsome
      exact cites_amq (lit "AMQ3209") rfl (Or.inl rfl) rfl
    · intro f hf
      obtain ⟨row, _, hsome⟩ := List.mem_filterMap.mp hf
      unfold replayLag at hsome
      dsimp only at hsome
      split_ifs at hsome
      all_goals
        obtain rfl := Option.some_inj.mp hsome
        exact cites_topic (lit "native_ha_log_replication") rfl rfl rfl
    · intro f hf
      unfold checkCrrLag at hf
      split at hf
      · cases hf
      · dsimp only at hf
        split_ifs at hf
        · cases hf
        · cases hf
        · obtain rfl := List.mem_singleton.mp hf
          exact cites_topic (lit "native_ha_crr") rfl rfl rfl

end NativeHa

section Rdqm

open Rcs.Rdqm

variable {U : UnicodeData} {registry : KCRegistry} {mqVersion : Option PyStr}

theorem rdqm_cites (raw : Rdqm.RawData) :
    ∀ f ∈ matchRdqmFindings registry mqVersion raw, Cites U registry mqVersion f := by
  unfold matchRdqmFindings
  dsimp only
  split_ifs
  · simp
  · simp only [List.forall_mem_append]
    refine ⟨⟨⟨⟨⟨⟨?_, ?_⟩, ?_⟩, ?_⟩, ?_⟩, ?_⟩, ?_⟩
    · intro f hf
      obtain ⟨-, rfl⟩ := mem_checkPacemakerQuorum_iff.mp hf
      exact cites_topic (lit "rdqm_pacemaker") rfl rfl rfl
    · intro f hf
      obtain ⟨-, rfl⟩ := mem_checkOfflineNodes_iff.mp hf
      exact cites_topic (lit "rdqm_pacemaker") rfl rfl rfl
    · intro f hf
      obtain ⟨entry, -, rfl⟩ := mem_checkFailedResources_iff.mp hf
      exact cites_topic (lit "rdqm_troubleshooting") rfl rfl rfl
    · intro f hf
      obtain ⟨entry, -, -, rfl⟩ := mem_checkDrbdSplitBrain_iff.mp hf
      exact cites_topic (lit "rdqm_split_brain") rfl rfl rfl
    · intro f hf
      obtain ⟨entry, -, -, hsome⟩ := mem_checkDrbdConnection_iff.mp hf
      obtain ⟨conn, rfl⟩ := exists_of_connectionFault hsome
      exact cites_topic (lit "rdqm_troubleshooting") rfl rfl rfl
    · intro f hf
      obtain ⟨entry, -, -, hentry⟩ := mem_checkDrbdDiskState_iff.mp hf
      obtain ⟨who, state, rfl⟩ := exists_of_mem_diskFaults hentry
      exact cites_topic (lit "rdqm_troubleshooting") rfl rfl rfl
    · intro f hf
      obtain ⟨qm, haState, rfl⟩ := exists_of_mem_checkRdqmNoRunningNode hf
      exact cites_topic (lit "rdqm_overview") rfl rfl rfl

end Rdqm

section Zos

open Rcs.Zos

variable {U : UnicodeData} {registry : KCRegistry} {mqVersion : Option PyStr}

theorem zos_cites (raw : Zos.RawData) :
    ∀ f ∈ matchZosFindings U registry mqVersion raw, Cites U registry mqVersion f := by
  simp only [matchZosFindings, List.forall_mem_append]
  refine ⟨⟨⟨⟨?_, ?_⟩, ?_⟩, ?_⟩, ?_⟩
  · intro f hf
    obtain ⟨row, _, hsome⟩ := List.mem_filterMap.mp hf
    dsimp only at hsome
    split_ifs at hsome
    obtain rfl := Option.some_inj.mp hsome
    exact cites_topic (lit "zos_qsg_overview") rfl rfl rfl
  · intro f hf
    unfold checkChin at hf
    dsimp only at hf
    split_ifs at hf
    · cases hf
    · cases hf
    · obtain rfl := List.mem_singleton.mp hf
      exact cites_topic (lit "zos_chin") rfl rfl rfl
  · intro f hf
    obtain ⟨row, _, hsome⟩ := List.mem_filterMap.mp hf
    split_ifs at hsome
    obtain rfl := Option.some_inj.mp hsome
    exact cites_topic (lit "zos_pageset") rfl rfl rfl
  · intro f hf
    obtain ⟨row, _, hsome⟩ := List.mem_filterMap.mp hf
    split_ifs at hsome
    obtain rfl := Option.some_inj.mp hsome
    exact cites_topic (lit "zos_bufferpool") rfl rfl rfl
  · intro f hf
    obtain ⟨row, _, hsome⟩ := List.mem_filterMap.mp hf
    split_ifs at hsome
    obtain rfl := Option.some_inj.mp hsome
    exact cites_topic (lit "zos_cf_structure") rfl rfl rfl

end Zos

section Miqm

open Rcs.Miqm

variable {U : UnicodeData} {registry : KCRegistry} {mqVersion : Option PyStr}

theorem miqm_cites (raw : Miqm.RawData) :
    ∀ f ∈ matchMiqmFindings U registry mqVersion raw, Cites U registry mqVersion f := by
  unfold matchMiqmFindings
  split_ifs
  · simp
  · simp only [List.forall_mem_append]
    refine ⟨⟨⟨⟨?_, ?_⟩, ?_⟩, ?_⟩, ?_⟩
    · intro f hf
      unfold checkNoActive at hf
      split_ifs at hf
      · cases hf
      · cases hf
      · obtain rfl := List.mem_singleton.mp hf
        exact cites_topic (lit "miqm_troubleshooting") rfl rfl rfl
    · intro f hf
      unfold checkStandbyPermission at hf
      split_ifs at hf
      · cases hf
      · obtain rfl := List.mem_singleton.mp hf
        exact cites_topic (lit "miqm_overview") rfl rfl rfl
    · intro f hf
      unfold checkDualActive at hf
      dsimp only at hf
      split_ifs at hf
      · cases hf
      · obtain rfl := List.mem_singleton.mp hf
        exact cites_topic (lit "miqm_troubleshooting") rfl rfl rfl
    · intro f hf
      unfold checkSharedFs at hf
      split_ifs at hf
      · cases hf
      · obtain rfl := List.mem_singleton.mp hf
        exact cites_topic (lit "miqm_troubleshooting") rfl rfl rfl
    · intro f hf
      unfold checkFailoverHistory at hf
      split_ifs at hf
      · cases hf
      · obtain rfl := List.mem_singleton.mp hf
        exact cites_topic (lit "miqm_troubleshooting") rfl rfl rfl

end Miqm

/-- What one of the seven matchers is called on. -/
inductive MatcherCall where
  | channelFailures (order : SetOrder) (raw : Channels.RawData)
  | dlqFindings (browse : DeadLetter.BrowseDict)
  | clusterFindings (clock : Cluster.Clock) (raw : Cluster.RawData)
  | nativeHaFindings (raw : NativeHa.RawData)
  | rdqmFindings (raw : Rdqm.RawData)
  | zosFindings (raw : Zos.RawData)
  | miqmFindings (raw : Miqm.RawData)

/-- The findings of the matcher; there are none when it raises. -/
def MatcherCall.findings (U : UnicodeData) (registry : KCRegistry) (mqVersion : Option PyStr) :
    MatcherCall → List RCSFinding
  | channelFailures order raw =>
      Channels.matchChannelFailures U registry mqVersion order raw
  | dlqFindings browse => (DeadLetter.matchDlqFindings U registry mqVersion browse).getD []
  | clusterFindings clock raw => Cluster.matchClusterFindings U registry mqVersion clock raw
  | nativeHaFindings raw => (NativeHa.matchNativeHaFindings U registry mqVersion raw).getD []
  | rdqmFindings raw => Rdqm.matchRdqmFindings registry mqVersion raw
  | zosFindings raw => Zos.matchZosFindings U registry mqVersion raw
  | miqmFindings raw => Miqm.matchMiqmFindings U registry mqVersion raw

/-- All seven matchers keep to the rule. -/
theorem MatcherCall.cites
    {U : UnicodeData} {registry : KCRegistry} {mqVersion : Option PyStr} {f : RCSFinding}
    (call : MatcherCall) (hf : f ∈ call.findings U registry mqVersion) :
    Cites U registry mqVersion f := by
  have hraised : ∀ result : Option (List RCSFinding), f ∈ result.getD [] →
      ∃ findings, result = some findings ∧ f ∈ findings := by
    rintro (_ | findings) hmem
    · cases hmem
    · exact ⟨findings, rfl, hmem⟩
  cases call with
  | channelFailures order raw => exact channels_cites order raw f hf
  | dlqFindings browse =>
      obtain ⟨findings, hresult, hmem⟩ := hraised _ hf
      exact dlq_cites hresult f hmem
  | clusterFindings clock raw => exact cluster_cites clock raw f hf
  | nativeHaFindings raw =>
      obtain ⟨findings, hresult, hmem⟩ := hraised _ hf
      exact nativeHa_cites hresult f hmem
  | rdqmFindings raw => exact rdqm_cites raw f hf
  | zosFindings raw => exact zos_cites raw f hf
  | miqmFindings raw => exact miqm_cites raw f hf

/--
For every call of a matcher, every version of the queue manager and every finding: the
pages it cites are pages of the registry, it cites a page when one of its codes is known,
and no page that lacks the release is cited when its lookup holds one that lists it.
-/
theorem citations_closed (U : UnicodeData) (mqVersion : Option PyStr) (call : MatcherCall) :
    ∀ f ∈ call.findings U KCRegistry.seeded mqVersion,
      Closed U KCRegistry.seeded mqVersion f := by
  intro f hf
  exact (call.cites hf).closed (seeded_curated U)

/-- A channel whose connection was broken. -/
def brokenRow : Row :=
  OrderedDict.ofList [(lit "CHANNEL", .str (lit "TO.QM2")), (lit "REASON", .int 2009)]

/-- The finding for that channel of a queue manager of release 9.4 cites a page. -/
theorem citations_closed_brokenRow :
    (Channels.findingConnError UnicodeData.basic KCRegistry.seeded (some (lit "9.4.0.5"))
      (lit "TO.QM2") brokenRow 2009).docRefs ≠ [] := by
  have hrow : Channels.rowFinding UnicodeData.basic KCRegistry.seeded (some (lit "9.4.0.5"))
      brokenRow = some (Channels.findingConnError UnicodeData.basic KCRegistry.seeded
        (some (lit "9.4.0.5")) (lit "TO.QM2") brokenRow 2009) := by
    have hname : Channels.channelName brokenRow = lit "TO.QM2" := by decide
    have hreason : Channels.channelReason UnicodeData.basic brokenRow = 2009 := by decide
    simp [Channels.rowFinding, hname, hreason]
  have hmem := List.mem_filterMap.mpr ⟨brokenRow, List.mem_singleton.mpr rfl, hrow⟩
  exact (citations_closed UnicodeData.basic (some (lit "9.4.0.5"))
    (.channelFailures ⟨List.dedup, fun xs => List.Perm.refl _⟩ ⟨[brokenRow], []⟩) _
    (List.mem_append_left _ hmem)).cited (Or.inr ⟨2009, by decide, rfl⟩)

end Rcs
end MqSentinel
