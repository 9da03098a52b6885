import MqSentinel.RcsEngine

/-!
# The registry of Knowledge Center pages

`KCRegistry()` fills three tables: pages by reason code, by message code and by topic.
All pages are on one host and differ in the last part of the address.  `all_refs`
lists the pages once for each address; as no address stands for two pages, that is
every page of the tables.

The version filter keeps the pages for the release when there are some and all pages
otherwise, so that an entry of the registry never loses all its pages.
-/

namespace MqSentinel
namespace Rcs

/-- `major_minor` in `_filter_version`. -/
def majorMinor (version : PyStr) : PyStr :=
  List.intercalate [ch '.'] ((version.splitOn (ch '.')).take 2)

section Filter

variable {refs : List KCDocRef} {version : Option PyStr} {r : KCDocRef}

theorem filterVersion_some
    {v : PyStr} (hv : v ≠ []) :
    filterVersion refs (some v) =
      if refs.filter (fun r => majorMinor v ∈ r.mqVersions) = [] then refs
      else refs.filter fun r => majorMinor v ∈ r.mqVersions := by
  cases v with
  | nil =>
      exact absurd rfl hv
  | cons c v =>
      unfold filterVersion
      dsimp only
      split_ifs with hkept
      · rw [show (refs.filter fun r => List.intercalate [ch '.']
          (((c :: v).splitOn (ch '.')).take 2) ∈ r.mqVersions) = [] from hkept]
      · split
        · next hnil => exact absurd hnil hkept
        · rfl

theorem mem_of_mem_filterVersion
    (h : r ∈ filterVersion refs version) :
    r ∈ refs := by
  rcases version with _ | v
  · exact h
  · by_cases hv : v = []
    · subst hv
      exact h
    · rw [filterVersion_some hv] at h
      split_ifs at h with hkept
      · exact h
      · exact (List.mem_filter.mp h).1

/-- The filter leaves something of every entry. -/
theorem filterVersion_ne_nil
    (h : refs ≠ []) :
    filterVersion refs version ≠ [] := by
  rcases version with _ | v
  · exact h
  · by_cases hv : v = []
    · subst hv
      exact h
    · rw [filterVersion_some hv]
      split_ifs with hkept
      · exact h
      · exact hkept

/-- Once a page lists the release, pages that do not list it are dropped. -/
theorem listed_of_mem_filterVersion
    {v : PyStr} (hv : v ≠ []) {other : KCDocRef}
    (h : r ∈ filterVersion refs (some v)) (hother : other ∈ refs)
    (hlisted : majorMinor v ∈ other.mqVersions) :
    majorMinor v ∈ r.mqVersions := by
  rw [filterVersion_some hv] at h
  have hmem : other ∈ refs.filter fun r => majorMinor v ∈ r.mqVersions := by
    simp [hother, hlisted]
  rw [if_neg (List.ne_nil_of_mem hmem)] at h
  simpa using (List.mem_filter.mp h).2

end Filter

/-- The address that all pages share. -/
def ibmMq : PyStr :=
  lit "https://www.ibm.com/docs/en/ibm-mq/9.4?topic="

theorem ibmMq_hosted
    (page : PyStr) :
    allowedHosts.any (fun h => decide (lit "://" ++ h ++ lit "/" <:+: ibmMq ++ page)) = true := by
  have hhost : lit "://" ++ lit "www.ibm.com" ++ lit "/" <:+: ibmMq := by
    decide +kernel
  have hpage := hhost.trans (List.prefix_append ibmMq page).isInfix
  simpa [allowedHosts] using hpage

/-- The arguments of `KCDocRef`, the address without the part that all pages share. -/
structure Page where
  title : String
  page : String
  versions : List String

def fromV94 : List String :=
  ["9.4"]

def fromV93 : List String :=
  "9.3" :: fromV94

def fromV92 : List String :=
  "9.2" :: fromV93

/-- `_by_reason` -/
def reasonPages : List (Int × List Page) :=
  [
    (2035,
      [⟨"2035 (07F3) MQRC_NOT_AUTHORIZED",
        "codes-2035-07f3-rc2035-mqrc-not-authorized", fromV92⟩]),
    (2033,
      [⟨"2033 (07F1) MQRC_NO_MSG_AVAILABLE",
        "codes-2033-07f1-rc2033-mqrc-no-msg-available", fromV92⟩]),
    (2080,
      [⟨"2080 (0820) MQRC_TRUNCATED_MSG_FAILED",
        "codes-2080-0820-rc2080-mqrc-truncated-msg-failed", fromV92⟩]),
    (2030,
      [⟨"2030 (07EE) MQRC_MSG_TOO_BIG_FOR_Q",
        "codes-2030-07ee-rc2030-mqrc-msg-too-big-q", fromV92⟩]),
    (2051,
      [⟨"2051 (0803) MQRC_PUT_INHIBITED",
        "codes-2051-0803-rc2051-mqrc-put-inhibited", fromV92⟩]),
    (2053, [⟨"2053 (0805) MQRC_Q_FULL", "codes-2053-0805-rc2053-mqrc-q-full", fromV92⟩]),
    (2079,
      [⟨"2079 (081F) MQRC_TRUNCATED_MSG_ACCEPTED",
        "codes-2079-081f-rc2079-mqrc-truncated-msg-accepted", fromV92⟩]),
    (2009,
      [⟨"2009 (07D9) MQRC_CONNECTION_BROKEN",
        "codes-2009-07d9-rc2009-mqrc-connection-broken", fromV92⟩]),
    (2058,
      [⟨"2058 (080A) MQRC_Q_MGR_NAME_ERROR",
        "codes-2058-080a-rc2058-mqrc-q-mgr-name-error", fromV92⟩]),
    (2059,
      [⟨"2059 (080B) MQRC_Q_MGR_NOT_AVAILABLE",
        "codes-2059-080b-rc2059-mqrc-q-mgr-not-available", fromV92⟩]),
    (2161,
      [⟨"2161 (0871) MQRC_Q_MGR_QUIESCING",
        "codes-2161-0871-rc2161-mqrc-q-mgr-quiescing", fromV92⟩]),
    (2162,
      [⟨"2162 (0872) MQRC_Q_MGR_STOPPING",
        "codes-2162-0872-rc2162-mqrc-q-mgr-stopping", fromV92⟩]),
    (2085,
      [⟨"2085 (0825) MQRC_UNKNOWN_OBJECT_NAME",
        "codes-2085-0825-rc2085-mqrc-unknown-object-name", fromV92⟩]),
    (2087,
      [⟨"2087 (0827) MQRC_UNKNOWN_REMOTE_Q_MGR",
        "codes-2087-0827-rc2087-mqrc-unknown-remote-q-mgr", fromV92⟩]),
    (2189,
      [⟨"2189 (088D) MQRC_CLUSTER_RESOLUTION_ERROR",
        "codes-2189-088d-rc2189-mqrc-cluster-resolution-error", fromV92⟩]),
    (2016,
      [⟨"2016 (07E0) MQRC_GET_INHIBITED",
        "codes-2016-07e0-rc2016-mqrc-get-inhibited", fromV92⟩]),
    (2192,
      [⟨"2192 (0890) MQRC_PAGESET_FULL (STORAGE_MEDIUM_FULL)",
        "codes-2192-0890-rc2192-mqrc-storage-medium-full", fromV92⟩]),
    (2042,
      [⟨"2042 (07FA) MQRC_OBJECT_IN_USE",
        "codes-2042-07fa-rc2042-mqrc-object-in-use", fromV92⟩]),
    (2393,
      [⟨"2393 (0959) MQRC_SSL_INITIALIZATION_ERROR",
        "codes-2393-0959-rc2393-mqrc-ssl-initialization-error", fromV92⟩]),
    (2397,
      [⟨"2397 (095D) MQRC_JSSE_ERROR",
        "codes-2397-095d-rc2397-mqrc-jsse-error", fromV92⟩]),
    (2400,
      [⟨"2400 (0960) MQRC_UNSUPPORTED_CIPHER_SUITE",
        "codes-2400-0960-rc2400-mqrc-unsupported-cipher-suite", fromV92⟩])
  ]

/-- `_by_amq` -/
def amqPages : List (String × List Page) :=
  [
    ("AMQ9202", [⟨"AMQ9202E: Remote host not available", "messages-amq9202e", fromV92⟩]),
    ("AMQ9208", [⟨"AMQ9208E: Error on receive from host", "messages-amq9208e", fromV92⟩]),
    ("AMQ9503", [⟨"AMQ9503E: Channel negotiation failed", "messages-amq9503e", fromV92⟩]),
    ("AMQ9456",
      [⟨"AMQ9456E: Update not received from full repository",
        "messages-amq9456e", fromV92⟩]),
    ("AMQ9484", [⟨"AMQ9484E: Cluster channel error", "messages-amq9484e", fromV92⟩]),
    ("AMQ9508",
      [⟨"AMQ9508E: Program cannot connect to queue manager",
        "messages-amq9508e", fromV92⟩]),
    ("AMQ9764", [⟨"AMQ9764E: Cluster send channel not started", "messages-amq9764e", fromV92⟩]),
    ("AMQ3209", [⟨"AMQ3209I: Native HA replica is not in sync", "messages-amq3209i", fromV93⟩])
  ]

/-- `_topics` -/
def topicPages : List (String × List Page) :=
  [
    ("cluster_partial_repository",
      [⟨"Repositories in a cluster",
        "clusters-cluster-repositories", fromV92⟩]),
    ("cluster_refresh",
      [⟨"REFRESH CLUSTER (refresh cluster)",
        "commands-refresh-cluster", fromV92⟩]),
    ("cluster_stale_entry",
      [⟨"Troubleshooting cluster problems",
        "clusters-troubleshooting", fromV92⟩]),
    ("native_ha_overview", [⟨"Native HA", "ha-native", fromV93⟩]),
    ("native_ha_quorum_lost",
      [⟨"Troubleshooting Native HA",
        "ha-troubleshooting-native", fromV93⟩]),
    ("native_ha_log_replication",
      [⟨"Native HA log replication",
        "native-ha-log-replication", fromV93⟩]),
    ("native_ha_crr",
      [⟨"Cross-region replication for Native HA",
        "ha-cross-region-replication", fromV94⟩]),
    ("rdqm_overview", [⟨"RDQM high availability", "availability-rdqm-high", fromV92⟩]),
    ("rdqm_troubleshooting", [⟨"Troubleshooting RDQM", "rdqm-troubleshooting", fromV92⟩]),
    ("rdqm_split_brain",
      [⟨"Resolving DRBD split-brain on RDQM",
        "rdqm-resolving-drbd-split-brain", fromV92⟩]),
    ("rdqm_pacemaker", [⟨"Pacemaker on RDQM", "rdqm-pacemaker", fromV92⟩]),
    ("zos_qsg_overview",
      [⟨"Queue sharing groups (z/OS)",
        "zos-queue-sharing-groups", fromV92⟩]),
    ("zos_chin", [⟨"The channel initiator on z/OS", "zos-channel-initiator", fromV92⟩]),
    ("zos_pageset", [⟨"Managing page sets on z/OS", "zos-managing-page-sets", fromV92⟩]),
    ("zos_bufferpool", [⟨"Buffer pools on z/OS", "zos-buffer-pools", fromV92⟩]),
    ("zos_cf_structure",
      [⟨"Coupling facility structures (z/OS)",
        "zos-coupling-facility-structures", fromV92⟩]),
    ("miqm_overview",
      [⟨"Multi-instance queue managers",
        "availability-multi-instance-queue-managers", fromV92⟩]),
    ("miqm_troubleshooting",
      [⟨"Troubleshooting multi-instance queue managers",
        "availability-troubleshooting-multi-instance", fromV92⟩])
  ]

/-- `KCDocRef(...)` -/
def Page.ref (p : Page) : KCDocRef where
  title := lit p.title
  url := ibmMq ++ lit p.page
  mqVersions := p.versions.map lit
  hosted := ibmMq_hosted (lit p.page)

/-- `KCRegistry()` -/
def KCRegistry.seeded : KCRegistry where
  byReason := ⟨reasonPages.map fun e => (e.1, e.2.map Page.ref), by decide⟩
  byAmq :=
    ⟨amqPages.map fun e => (lit e.1, e.2.map Page.ref), by
      have hkeys : (amqPages.map Prod.fst).Nodup := by decide
      simpa [Function.comp_def] using hkeys.map lit_injective⟩
  topics :=
    ⟨topicPages.map fun e => (lit e.1, e.2.map Page.ref), by
      have hkeys : (topicPages.map Prod.fst).Nodup := by decide
      simpa [Function.comp_def] using hkeys.map lit_injective⟩

namespace KCRegistry

/-- The pages of the three tables, in the order in which `all_refs` visits them. -/
def refs (registry : KCRegistry) : List KCDocRef :=
  (registry.byReason.values ++ registry.byAmq.values ++ registry.topics.values).flatten

/-- `all_refs` -/
def allRefs (registry : KCRegistry) : List KCDocRef :=
  (registry.refs.foldl (fun seen ref => seen.setDefault ref.url ref)
    OrderedDict.empty).values

/-- What the matchers rely on: the registry can be cited. -/
structure Curated (U : UnicodeData) (registry : KCRegistry) : Prop where
  urls : ∀ r ∈ registry.refs, ∀ s ∈ registry.refs, r.url = s.url → r = s
  releases : ∀ r ∈ registry.refs, [] ∉ r.mqVersions
  reasons : ∀ e ∈ registry.byReason.items, e.2 ≠ []
  codes : ∀ e ∈ registry.byAmq.items, e.2 ≠ [] ∧ U.upperStr e.1 = e.1
  connError : lit "AMQ9202" ∈ registry.byAmq.keys

variable {U : UnicodeData} {registry : KCRegistry}

/-- No page shadows another one. -/
theorem Curated.mem_allRefs_iff
    (h : registry.Curated U) {r : KCDocRef} :
    r ∈ registry.allRefs ↔ r ∈ registry.refs := by
  rw [allRefs, OrderedDict.mem_values_foldl_setDefault registry.refs OrderedDict.empty
    (by simp [OrderedDict.empty]) (by simpa [OrderedDict.empty, OrderedDict.values] using h.urls)]
  simp [OrderedDict.empty, OrderedDict.values]

end KCRegistry

/-- Every page of the tables, in their order. -/
def allPages : List Page :=
  (reasonPages.map Prod.snd ++ amqPages.map Prod.snd ++ topicPages.map Prod.snd).flatten

theorem refs_seeded :
    KCRegistry.seeded.refs = allPages.map Page.ref := by
  simp [KCRegistry.refs, KCRegistry.seeded, OrderedDict.values, allPages, List.map_flatten,
    Function.comp_def]

/-- Pages have one address only when they are the same page. -/
theorem ref_eq_of_url_eq
    {p q : Page} (hp : p ∈ allPages) (hq : q ∈ allPages)
    (h : p.ref.url = q.ref.url) :
    p = q := by
  have hpages : (allPages.map Page.page).Nodup := by decide
  have hpage : p.page = q.page := lit_injective (List.append_cancel_left h)
  exact List.inj_on_of_nodup_map hpages hp hq hpage

/-- The registry that the server is started with can be cited. -/
theorem seeded_curated (U : UnicodeData) :
    KCRegistry.seeded.Curated U where
  urls := by
    rw [refs_seeded]
    simp only [List.forall_mem_map]
    intro p hp q hq hurl
    rw [ref_eq_of_url_eq hp hq hurl]
  releases := by
    rw [refs_seeded]
    simp only [List.forall_mem_map]
    have hversions : ∀ p ∈ allPages, "" ∉ p.versions := by decide
    intro p hp hblank
    obtain ⟨v, hv, hnil⟩ := List.mem_map.mp hblank
    exact hversions p hp (lit_injective (hnil.trans rfl : lit v = lit "") ▸ hv)
  reasons := by
    have hfilled : ∀ e ∈ reasonPages, e.2 ≠ [] := by decide
    simp only [KCRegistry.seeded, List.forall_mem_map]
    intro e he hnil
    exact hfilled e he (List.map_eq_nil_iff.mp hnil)
  codes := by
    have hfilled : ∀ e ∈ amqPages, e.2 ≠ [] := by decide
    have hupper : ∀ e ∈ amqPages, ∀ c ∈ lit e.1, c.isAscii = true ∧ c.toUpperAscii = c := by
      decide
    simp only [KCRegistry.seeded, List.forall_mem_map]
    intro e he
    exact ⟨fun hnil => hfilled e he (List.map_eq_nil_iff.mp hnil),
      UnicodeData.upperStr_eq_self (hupper e he)⟩
  connError := by
    have hcode : "AMQ9202" ∈ amqPages.map Prod.fst := by decide
    simpa [KCRegistry.seeded, OrderedDict.keys, Function.comp_def] using
      List.mem_map_of_mem (f := lit) hcode

end Rcs
end MqSentinel
