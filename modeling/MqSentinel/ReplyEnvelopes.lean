import MqSentinel.ConnectorSessions
import MqSentinel.FindingKeys
import MqSentinel.SanitizerOutput

/-!
# What a tool replies

`ToolResponse.to_dict`, `RCSFinding.as_dict` and the envelope of `full_mq_health_check`
make one dictionary of the topology, the findings and the evidence, and sanitize it.
The sanitizer keeps the keys of a dictionary as they are, so a key must not come from a
queue manager.

Whatever a connector answers, every string of a reply is clean and bounded, and every key
is one that the source writes (`replies_contained`).
-/

namespace MqSentinel
namespace Sanitizer

mutual

/-- Every key of every dictionary of a value satisfies `P`. -/
def EveryKey (P : PyStr → Prop) : PyValue → Prop
  | .list xs => EveryKeyAll P xs
  | .tuple xs => EveryKeyAll P xs
  | .dict items => EveryKeyItems P items
  | _ => True

def EveryKeyAll (P : PyStr → Prop) : List PyValue → Prop
  | [] => True
  | x :: xs => EveryKey P x ∧ EveryKeyAll P xs

def EveryKeyItems (P : PyStr → Prop) : List (PyStr × PyValue) → Prop
  | [] => True
  | (k, v) :: items => P k ∧ EveryKey P v ∧ EveryKeyItems P items

end

section Keys

variable {P : PyStr → Prop}

@[simp] theorem everyKey_list_iff (xs : List PyValue) :
    EveryKey P (.list xs) ↔ ∀ x ∈ xs, EveryKey P x := by
  rw [EveryKey]
  induction xs with
  | nil => simp [EveryKeyAll]
  | cons x xs ih => rw [EveryKeyAll, ih, List.forall_mem_cons]

@[simp] theorem everyKey_dict_iff (items : List (PyStr × PyValue)) :
    EveryKey P (.dict items) ↔ ∀ p ∈ items, P p.1 ∧ EveryKey P p.2 := by
  rw [EveryKey]
  induction items with
  | nil => simp [EveryKeyItems]
  | cons p items ih =>
      obtain ⟨k, v⟩ := p
      rw [EveryKeyItems, ih, List.forall_mem_cons, and_assoc]

variable (U : UnicodeData) (nfkc : PyStr → PyStr) (hosts : List PyStr) (maxLen : Nat)

mutual

/-- The sanitizer adds no key. -/
theorem everyKey_sanitizeValue :
    ∀ v : PyValue, EveryKey P v → EveryKey P (sanitizeValue U nfkc hosts maxLen v)
  | .none, _ => trivial
  | .bool _, _ => trivial
  | .int _, _ => trivial
  | .float _, _ => trivial
  | .str _, _ => trivial
  | .list xs, h => everyKey_sanitizeAll xs h
  | .tuple xs, h => everyKey_sanitizeAll xs h
  | .dict items, h => everyKey_sanitizeItems items h

theorem everyKey_sanitizeAll :
    ∀ xs : List PyValue, EveryKeyAll P xs →
      EveryKeyAll P (sanitizeAll U nfkc hosts maxLen xs)
  | [], _ => trivial
  | x :: xs, h => ⟨everyKey_sanitizeValue x h.1, everyKey_sanitizeAll xs h.2⟩

theorem everyKey_sanitizeItems :
    ∀ items : List (PyStr × PyValue), EveryKeyItems P items →
      EveryKeyItems P (sanitizeItems U nfkc hosts maxLen items)
  | [], _ => trivial
  | (_, v) :: items, h =>
      ⟨h.1, everyKey_sanitizeValue v h.2.1, everyKey_sanitizeItems items h.2.2⟩

end

end Keys

end Sanitizer

namespace Replies

open Dialogues Dialogues.Dialogue Rcs Sanitizer Sessions
open Server (Diagnostic)
open Detect (TopologyFingerprint)
open Health (Evidence)

section Envelopes

/-- A dictionary that the source writes out. -/
def dictOf (items : List (String × PyValue)) : PyValue :=
  .dict (items.map fun p => (lit p.1, p.2))

def strOrNone : Option PyStr → PyValue
  | none => .none
  | some s => .str s

def intOrNone : Option Int → PyValue
  | none => .none
  | some n => .int n

def strList (xs : List PyStr) : PyValue :=
  .list (xs.map .str)

/-- A dictionary of strings. -/
def strDict (items : List (PyStr × PyStr)) : PyValue :=
  .dict (items.map fun p => (p.1, .str p.2))

/-- A dictionary of counts. -/
def countDict (counts : OrderedDict PyStr Nat) : PyValue :=
  .dict (counts.items.map fun p => (p.1, .int p.2))

/-- `_EXECUTION_POLICY` -/
def executionPolicy : PyStr :=
  lit ("MQ-Sentinel never executes remediation_steps. These are IBM-recommended fix " ++
    "commands returned as TEXT only for the operator to review and run manually " ++
    "in a change window. The MCP server is read-only by construction.")

variable (U : UnicodeData) (nfkc : PyStr → PyStr)

/-- `sanitize_mq_output`, with its defaults. -/
def sanitized (v : PyValue) : PyValue :=
  sanitizeValue U nfkc defaultDocHosts maxStringLen v

def docRefDict (d : KCDocRef) : PyValue :=
  dictOf [("title", .str d.title), ("url", .str d.url)]

def remediationDict (s : RemediationScenario) : PyValue :=
  dictOf
    [ ("scenario", .str s.scenario), ("commands", strList s.commands), ("notes", .str s.notes) ]

/-- The dictionary of `as_dict`, before it is sanitized. -/
def findingDict (f : RCSFinding) : PyValue :=
  dictOf
    [ ("issue", .str f.issue), ("severity", .str f.severity.value),
      ("reason_code", intOrNone f.reasonCode), ("amq_code", strOrNone f.amqCode),
      ("root_cause", .str f.rootCause), ("fix_steps", strList f.fixSteps),
      ("verify_commands", strList f.verifyCommands),
      ("doc_refs", .list (f.docRefs.map docRefDict)), ("confidence", .str f.confidence),
      ("evidence", strDict f.evidence),
      ("remediation_steps", .list (f.remediationSteps.map remediationDict)),
      ("execution_policy", .str executionPolicy) ]

/-- `RCSFinding.as_dict` -/
def asDict (f : RCSFinding) : PyValue :=
  sanitized U nfkc (findingDict f)

/-- `{**finding.as_dict(), "category": category}` -/
def withCategory (category : PyStr) : PyValue → PyValue
  | .dict items => .dict (items ++ [(lit "category", .str category)])
  | v => v

/-- `_topology_to_dict`, which `to_dict` writes out once more. -/
def topologyToDict (t : TopologyFingerprint) : PyValue :=
  dictOf
    [ ("topology", .str t.topology.value), ("mq_version", strOrNone t.mqVersion),
      ("platform", strOrNone t.platform), ("is_clustered", .bool t.isClustered),
      ("is_native_ha", .bool t.isNativeHa), ("is_rdqm", .bool t.isRdqm),
      ("has_standby", .bool t.hasStandby), ("evidence", strDict t.evidence) ]

/-- `ToolResponse.to_dict` -/
def toDict (tool qmName : PyStr) (topology : TopologyFingerprint) (findings : List RCSFinding)
    (rawEvidence : Evidence) (generatedAt : PyStr) : PyValue :=
  sanitized U nfkc (dictOf
    [ ("tool", .str tool), ("qm_name", .str qmName), ("topology", topologyToDict topology),
      ("findings", .list (findings.map (asDict U nfkc))),
      ("raw_evidence", .dict rawEvidence.items), ("generated_at", .str generatedAt),
      ("trust_level", .str (lit "rcs_findings")) ])

def topIssueDict (i : Health.TopIssue) : PyValue :=
  dictOf [("severity", .str i.severity), ("category", .str i.category), ("issue", .str i.issue)]

/-- What `_build_summary` returns. -/
def summaryDict (s : Health.Summary) : PyValue :=
  dictOf
    [ ("total_findings", .int s.totalFindings), ("overall_status", .str s.overallStatus),
      ("by_severity", countDict s.bySeverity), ("by_category", countDict s.byCategory),
      ("top_issues", .list (s.topIssues.map topIssueDict)) ]

def skippedDict (s : Health.Skipped) : PyValue :=
  dictOf [("category", .str s.category), ("error", .str s.error)]

/-- What `full_mq_health_check` returns. -/
def healthReply (qmName : PyStr) (topology : TopologyFingerprint) (r : Health.Report)
    (durationMs : Int) (startedAt : PyStr) : PyValue :=
  sanitized U nfkc (dictOf
    [ ("tool", .str Diagnostic.healthCheck.toolName), ("qm_name", .str qmName),
      ("topology", topologyToDict topology), ("summary", summaryDict r.summary),
      ("findings", .list (r.findings.map fun item => withCategory item.1 (asDict U nfkc item.2))),
      ("raw_evidence", .dict (r.rawEvidence.items.map fun p => (p.1, .dict p.2.items))),
      ("checks_run", strList r.checksRun),
      ("checks_skipped", .list (r.checksSkipped.map skippedDict)),
      ("duration_ms", .int durationMs), ("generated_at", .str startedAt),
      ("trust_level", .str (lit "rcs_findings")) ])

/-- The reply of a tool, from what it has in hand when its connection is closed. -/
def reply (d : Diagnostic) (qmName : PyStr) (topology : TopologyFingerprint) (durationMs : Int)
    (generatedAt : PyStr) : Collected → PyValue
  | .report findings rawEvidence =>
      toDict U nfkc d.toolName qmName topology findings rawEvidence generatedAt
  | .outcomes o =>
      healthReply U nfkc qmName topology (Health.reportOn o) durationMs generatedAt

end Envelopes

/-- The names of the keys of the envelopes. -/
def envelopeNames : List String :=
  [ "tool", "qm_name", "topology", "findings", "raw_evidence", "generated_at", "trust_level",
    "mq_version", "platform", "is_clustered", "is_native_ha", "is_rdqm", "has_standby",
    "evidence", "version_query", "platform_query", "qmstatus_present", "clusqmgr_present",
    "issue", "severity", "reason_code", "amq_code", "root_cause", "fix_steps",
    "verify_commands", "doc_refs", "title", "url", "confidence", "remediation_steps",
    "scenario", "commands", "notes", "execution_policy", "category", "summary",
    "total_findings", "overall_status", "by_severity", "by_category", "top_issues", "CRITICAL",
    "HIGH", "MEDIUM", "LOW", "INFO", "channels", "dlq", "cluster", "checks_run",
    "checks_skipped", "error", "duration_ms" ]

/-- The names of the keys of the evidence of the checks. -/
def checkNames : List String :=
  [ "channels_examined", "log_tail_lines", "dlq_name", "queue_depth", "sample_size",
    "bodies_read", "clusqmgr_rows", "clusters_seen", "this_qm", "instance_count",
    "in_sync_count", "active_count", "crr_enabled", "crr_lag_seconds", "pacemaker_total",
    "pacemaker_online", "pacemaker_offline", "pacemaker_failed_resources", "drbd_resources",
    "drbd_split_brain", "rdqm_running_node", "qsg_name", "qsg_member_count", "pageset_count",
    "bufferpool_count", "cf_structure_count", "chin_status", "standby_permitted" ]

/-- The names of all keys that the source writes. -/
def sourceNames : List String :=
  envelopeNames ++ (checkNames ++ evidenceNames)

/-- A key that the source writes. -/
def SourceKey (k : PyStr) : Prop :=
  k ∈ sourceNames.map lit

instance : DecidablePred SourceKey :=
  fun k => inferInstanceAs (Decidable (k ∈ sourceNames.map lit))

attribute [local simp] envelopeNames checkNames evidenceNames sourceNames

section Keys

theorem sourceKeys_lit (names : List String)
    (h : ∀ n ∈ names, n ∈ sourceNames) :
    ∀ k ∈ names.map lit, SourceKey k :=
  List.forall_mem_map.mpr fun n hn => List.mem_map_of_mem (h n hn)

theorem sourceKey_lit (name : String)
    (h : name ∈ sourceNames) :
    SourceKey (lit name) :=
  List.mem_map_of_mem h

theorem sourceKey_of_keyed
    {f : RCSFinding} (h : Keyed f) :
    ∀ k ∈ f.evidence.map Prod.fst, SourceKey k := by
  intro k hk
  rw [SourceKey, sourceNames, List.map_append, List.map_append]
  exact List.mem_append_right _ (List.mem_append_right _ (h.known k hk))

/-- A written-out dictionary whose keys are of the source. -/
theorem everyKey_dictOf
    {items : List (String × PyValue)} (keys : List String) (h : items.map Prod.fst = keys)
    (hkeys : ∀ k ∈ keys, k ∈ sourceNames)
    (hvalues : ∀ v ∈ items.map Prod.snd, EveryKey SourceKey v) :
    EveryKey SourceKey (dictOf items) := by
  rw [dictOf, everyKey_dict_iff]
  intro p hp
  obtain ⟨q, hq, rfl⟩ := List.mem_map.mp hp
  exact ⟨List.mem_map_of_mem (hkeys q.1 (h ▸ List.mem_map_of_mem hq)),
    hvalues q.2 (List.mem_map_of_mem hq)⟩

@[simp] theorem everyKey_str (s : PyStr) :
    EveryKey SourceKey (.str s) :=
  trivial

@[simp] theorem everyKey_int (n : Int) :
    EveryKey SourceKey (.int n) :=
  trivial

@[simp] theorem everyKey_bool (b : Bool) :
    EveryKey SourceKey (.bool b) :=
  trivial

@[simp] theorem everyKey_strOrNone (s : Option PyStr) :
    EveryKey SourceKey (strOrNone s) := by
  cases s <;> trivial

@[simp] theorem everyKey_intOrNone (n : Option Int) :
    EveryKey SourceKey (intOrNone n) := by
  cases n <;> trivial

@[simp] theorem everyKey_strList (xs : List PyStr) :
    EveryKey SourceKey (strList xs) := by
  simp [strList]

theorem everyKey_strDict
    {items : List (PyStr × PyStr)} (h : ∀ k ∈ items.map Prod.fst, SourceKey k) :
    EveryKey SourceKey (strDict items) := by
  rw [strDict, everyKey_dict_iff]
  intro p hp
  obtain ⟨q, hq, rfl⟩ := List.mem_map.mp hp
  exact ⟨h q.1 (List.mem_map_of_mem hq), trivial⟩

theorem everyKey_countDict
    {counts : OrderedDict PyStr Nat} (h : ∀ k ∈ counts.items.map Prod.fst, SourceKey k) :
    EveryKey SourceKey (countDict counts) := by
  rw [countDict, everyKey_dict_iff]
  intro p hp
  obtain ⟨q, hq, rfl⟩ := List.mem_map.mp hp
  exact ⟨h q.1 (List.mem_map_of_mem hq), trivial⟩

theorem everyKey_docRefDict (d : KCDocRef) :
    EveryKey SourceKey (docRefDict d) :=
  everyKey_dictOf ["title", "url"] rfl (by simp) (by simp)

theorem everyKey_remediationDict (s : RemediationScenario) :
    EveryKey SourceKey (remediationDict s) :=
  everyKey_dictOf ["scenario", "commands", "notes"] rfl (by simp) (by simp)

theorem everyKey_findingDict
    {f : RCSFinding} (h : Keyed f) :
    EveryKey SourceKey (findingDict f) := by
  refine everyKey_dictOf ["issue", "severity", "reason_code", "amq_code", "root_cause",
    "fix_steps", "verify_commands", "doc_refs", "confidence", "evidence", "remediation_steps",
    "execution_policy"] rfl (by simp) ?_
  have hevidence : EveryKey SourceKey (strDict f.evidence) :=
    everyKey_strDict (sourceKey_of_keyed h)
  simp [hevidence, everyKey_docRefDict, everyKey_remediationDict]

variable (U : UnicodeData) (nfkc : PyStr → PyStr)

theorem everyKey_sanitized
    {v : PyValue} (h : EveryKey SourceKey v) :
    EveryKey SourceKey (sanitized U nfkc v) :=
  everyKey_sanitizeValue U nfkc defaultDocHosts maxStringLen v h

theorem everyKey_asDict
    {f : RCSFinding} (h : Keyed f) :
    EveryKey SourceKey (asDict U nfkc f) :=
  everyKey_sanitized U nfkc (everyKey_findingDict h)

theorem everyKey_withCategory
    {v : PyValue} (category : PyStr) (h : EveryKey SourceKey v) :
    EveryKey SourceKey (withCategory category v) := by
  cases v with
  | dict items =>
      rw [withCategory, everyKey_dict_iff, List.forall_mem_append]
      refine ⟨(everyKey_dict_iff items).mp h, fun p hp => ?_⟩
      obtain rfl := List.mem_singleton.mp hp
      exact ⟨sourceKey_lit "category" (by simp), trivial⟩
  | _ => exact h

/-- The evidence of a fingerprint has the keys that `detect` gives it. -/
def Fingerprinted (t : TopologyFingerprint) : Prop :=
  t.evidence.map Prod.fst = [lit "version_query", lit "platform_query", lit "qmstatus_present",
    lit "clusqmgr_present"]

theorem everyKey_topologyToDict
    {t : TopologyFingerprint} (h : Fingerprinted t) :
    EveryKey SourceKey (topologyToDict t) := by
  refine everyKey_dictOf ["topology", "mq_version", "platform", "is_clustered", "is_native_ha",
    "is_rdqm", "has_standby", "evidence"] rfl (by simp) ?_
  have hevidence : EveryKey SourceKey (strDict t.evidence) := by
    refine everyKey_strDict ?_
    rw [h]
    exact sourceKeys_lit ["version_query", "platform_query", "qmstatus_present",
      "clusqmgr_present"] (by simp)
  simp [hevidence]

end Keys

section Checks

/-- What a check returns has keys of the source only. -/
def Contained (r : List RCSFinding × Evidence) : Prop :=
  (∀ f ∈ r.1, Keyed f) ∧ EveryKey SourceKey (.dict r.2.items)

theorem everyKey_ofList
    {items : List (PyStr × PyValue)} (keys : List String)
    (h : items.map Prod.fst = keys.map lit)
    (hkeys : ∀ k ∈ keys, k ∈ sourceNames)
    (hvalues : ∀ v ∈ items.map Prod.snd, EveryKey SourceKey v) :
    EveryKey SourceKey (.dict (OrderedDict.ofList items).items) := by
  rw [everyKey_dict_iff]
  intro p hp
  have hmem := OrderedDict.mem_of_mem_ofList hp
  have hk : p.1 ∈ keys.map lit := h ▸ List.mem_map_of_mem hmem
  exact ⟨sourceKeys_lit keys hkeys p.1 hk, hvalues p.2 (List.mem_map_of_mem hmem)⟩

variable (U : UnicodeData) (isdigit : CodePoint → Bool) (invalidLiteral : PyStr)
variable (registry : KCRegistry) (mqVersion : Option PyStr)

theorem returns_orValueError {α : Type} (a : Option α) :
    Returns (fun v => a = some v) (orValueError invalidLiteral a) := by
  cases a with
  | none =>
      intro t v h
      cases (goes_done_iff.mp h).2
  | some v => exact returns_pure rfl

theorem contained_runChannelChecks (order : SetOrder) :
    Returns Contained (runChannelChecks U registry mqVersion order) := by
  refine returns_bind fun channels => returns_bind fun logTail => returns_pure ?_
  refine ⟨channels_keyed order _, ?_⟩
  exact everyKey_ofList ["channels_examined", "log_tail_lines"] rfl (by simp) (by simp)

theorem contained_runDlqChecks (sampleSize : Int) :
    Returns Contained (runDlqChecks U invalidLiteral registry mqVersion sampleSize) := by
  unfold runDlqChecks
  split_ifs
  · intro t r h
    cases (goes_done_iff.mp h).2
  · refine returns_bind fun dlqName => returns_bind fun browse => ?_
    refine (returns_orValueError invalidLiteral _).bind fun findings hfindings => returns_pure ?_
    refine ⟨dlq_keyed hfindings, ?_⟩
    exact everyKey_ofList ["dlq_name", "queue_depth", "sample_size", "bodies_read"] rfl
      (by simp) (by simp)

theorem contained_runClusterChecks (clock : Cluster.Clock) (fallbackQmName : PyStr) :
    Returns Contained (runClusterChecks U registry mqVersion clock fallbackQmName) := by
  refine returns_bind fun clusqmgrs => returns_bind fun repos => returns_bind fun name =>
    returns_pure ?_
  refine ⟨cluster_keyed clock _, ?_⟩
  exact everyKey_ofList ["clusqmgr_rows", "clusters_seen", "this_qm"] rfl (by simp) (by simp)

theorem contained_runNativeHaChecks :
    Returns Contained (runNativeHaChecks U invalidLiteral registry mqVersion) := by
  refine returns_bind fun rows => returns_bind fun rgRaw => returns_bind fun crr => ?_
  refine (returns_orValueError invalidLiteral _).bind fun findings hfindings => ?_
  refine returns_bind fun lag => returns_pure ⟨nativeHa_keyed hfindings, ?_⟩
  exact everyKey_ofList ["instance_count", "in_sync_count", "active_count", "crr_enabled",
    "crr_lag_seconds"] rfl (by simp) (by simp)

theorem contained_runRdqmChecks (qmName : PyStr) :
    Returns Contained (runRdqmChecks U registry mqVersion qmName) := by
  refine returns_bind fun rdqmRaw => returns_bind fun crmRaw => returns_bind fun drbdRaw =>
    returns_pure ?_
  refine ⟨rdqm_keyed _, ?_⟩
  exact everyKey_ofList ["pacemaker_total", "pacemaker_online", "pacemaker_offline",
    "pacemaker_failed_resources", "drbd_resources", "drbd_split_brain", "rdqm_running_node"]
    rfl (by simp) (by simp)

theorem contained_runZosChecks :
    Returns Contained (runZosChecks U registry mqVersion) := by
  refine returns_bind fun group => returns_bind fun chinit => returns_bind fun pagesets =>
    returns_bind fun bufferpools => returns_bind fun cfStructures => returns_pure ?_
  refine ⟨zos_keyed _, ?_⟩
  exact everyKey_ofList ["qsg_name", "qsg_member_count", "pageset_count", "bufferpool_count",
    "cf_structure_count", "chin_status"] rfl (by simp) (by simp)

theorem contained_runMiqmChecks :
    Returns Contained (runMiqmChecks U registry mqVersion) := by
  refine returns_bind fun dspmqX => returns_bind fun dspmqStandby => returns_bind fun logTail =>
    returns_pure ?_
  refine ⟨miqm_keyed _, ?_⟩
  exact everyKey_ofList ["instance_count", "active_count", "standby_permitted"] rfl (by simp)
    (by simp)

/-- The outcome of a check that returned. -/
def OutcomeContained (o : Health.CheckOutcome) : Prop :=
  ∀ r, o = .ok r → Contained r

theorem contained_attempted
    {d : Session (List RCSFinding × Evidence)} (h : Returns Contained d) :
    Returns OutcomeContained (attempted d) := by
  refine Returns.except (h.bind fun r hr => returns_pure ?_) fun exc => ?_
  · intro r' heq
    cases heq
    exact hr
  · split_ifs
    · refine returns_pure fun r heq => ?_
      cases heq
    · intro t o hgoes
      cases (goes_done_iff.mp hgoes).2

/-- What a tool has in hand when its `with` block is over. -/
def CollectedContained : Collected → Prop
  | .report findings rawEvidence => Contained (findings, rawEvidence)
  | .outcomes o => ∀ entry ∈ o.entries, OutcomeContained entry.2

theorem contained_reported
    {d : Session (List RCSFinding × Evidence)} (h : Returns Contained d) :
    Returns CollectedContained (reported d) :=
  h.bind fun _ hr => returns_pure hr

theorem contained_checks (order : SetOrder) (clock : Cluster.Clock) (qmName : PyStr)
    (sample : Int) (d : Diagnostic) :
    Returns CollectedContained
      (checks U invalidLiteral registry mqVersion order clock qmName sample d) := by
  cases d with
  | channels => exact contained_reported (contained_runChannelChecks U registry mqVersion order)
  | dlq =>
      exact contained_reported (contained_runDlqChecks U invalidLiteral registry mqVersion sample)
  | cluster =>
      exact contained_reported (contained_runClusterChecks U registry mqVersion clock qmName)
  | healthCheck =>
      refine (contained_attempted
        (contained_runChannelChecks U registry mqVersion order)).bind fun channels hchannels => ?_
      refine (contained_attempted
        (contained_runDlqChecks U invalidLiteral registry mqVersion sample)).bind
          fun dlq hdlq => ?_
      refine (contained_attempted
        (contained_runClusterChecks U registry mqVersion clock qmName)).bind
          fun cluster hcluster => returns_pure ?_
      simp only [CollectedContained, Health.Outcomes.entries, List.forall_mem_cons]
      exact ⟨hchannels, hdlq, hcluster, by simp⟩
  | nativeHa =>
      exact contained_reported (contained_runNativeHaChecks U invalidLiteral registry mqVersion)
  | rdqm => exact contained_reported (contained_runRdqmChecks U registry mqVersion qmName)
  | zos => exact contained_reported (contained_runZosChecks U registry mqVersion)
  | miqm => exact contained_reported (contained_runMiqmChecks U registry mqVersion)

theorem fingerprinted_detect :
    Returns Fingerprinted (detect U isdigit invalidLiteral) := by
  refine returns_bind fun reported => returns_bind fun version => returns_bind fun platform =>
    returns_bind fun qmstatus => returns_bind fun isRdqm => returns_bind fun hasStandby =>
    returns_bind fun clusqmgr => returns_pure rfl

end Checks

section Report

theorem everyKey_tally
    {keys : List PyStr} (h : ∀ k ∈ keys, SourceKey k) (counts : OrderedDict PyStr Nat) :
    EveryKey SourceKey (countDict (tally keys counts)) := by
  refine everyKey_countDict fun k hk => ?_
  obtain ⟨p, hp, rfl⟩ := List.mem_map.mp hk
  obtain ⟨key, hkey, rfl⟩ := List.mem_map.mp (OrderedDict.mem_of_mem_ofList hp)
  exact h key hkey

theorem everyKey_summaryDict (findings : List Health.Tagged) :
    EveryKey SourceKey (summaryDict (Health.buildSummary findings)) := by
  refine everyKey_dictOf ["total_findings", "overall_status", "by_severity", "by_category",
    "top_issues"] rfl (by simp) ?_
  have hseverity (counts : OrderedDict PyStr Nat) :
      EveryKey SourceKey (countDict (tally Health.severityRanks.keys counts)) :=
    everyKey_tally (sourceKeys_lit ["CRITICAL", "HIGH", "MEDIUM", "LOW", "INFO"] (by simp)) counts
  have hcategory (counts : OrderedDict PyStr Nat) :
      EveryKey SourceKey (countDict (tally Health.categoryRanks.keys counts)) :=
    everyKey_tally (sourceKeys_lit ["channels", "dlq", "cluster"] (by simp)) counts
  have htop : EveryKey SourceKey
      (.list ((Health.buildSummary findings).topIssues.map topIssueDict)) := by
    rw [everyKey_list_iff, List.forall_mem_map]
    exact fun i _ => everyKey_dictOf ["severity", "category", "issue"] rfl (by simp) (by simp)
  simp only [List.map_cons, List.map_nil, List.forall_mem_cons]
  exact ⟨trivial, trivial, hseverity _, hcategory _, htop, by simp⟩

/-- Every item of the evidence of the categories is of the source. -/
def EvidenceContained (p : Health.Progress) : Prop :=
  ∀ e ∈ p.categoryEvidence.items, SourceKey e.1 ∧ EveryKey SourceKey (.dict e.2.items)

theorem EvidenceContained.addCategory
    {p : Health.Progress} {name : PyStr} {fn : Health.CheckOutcome} (h : EvidenceContained p)
    (hname : SourceKey name) (hfn : OutcomeContained fn) :
    EvidenceContained (Health.addCategory name fn p) := by
  cases fn with
  | error exc => exact h
  | ok r =>
      intro e he
      rcases OrderedDict.mem_assign he with rfl | he
      · exact ⟨hname, (hfn r rfl).2⟩
      · exact h e he

theorem contained_reportOn
    {o : Health.Outcomes} (h : ∀ entry ∈ o.entries, OutcomeContained entry.2) :
    (∀ item ∈ (Health.reportOn o).findings, Keyed item.2) ∧
      ∀ e ∈ (Health.reportOn o).rawEvidence.items,
        SourceKey e.1 ∧ EveryKey SourceKey (.dict e.2.items) := by
  constructor
  · intro item hitem
    have hmem := (StableSort.sortOn_perm _ _).mem_iff.mp hitem
    rw [Health.runChecks_allFindings] at hmem
    obtain ⟨⟨name, outcome⟩, hentry, htagged⟩ := List.mem_flatMap.mp hmem
    cases outcome with
    | error exc => cases htagged
    | ok r =>
        obtain ⟨f, hf, rfl⟩ := List.mem_map.mp htagged
        exact (h _ hentry r rfl).1 f hf
  · simp only [Health.Outcomes.entries, List.forall_mem_cons] at h
    obtain ⟨hchannels, hdlq, hcluster, -⟩ := h
    have hstart : EvidenceContained {} := by
      intro e he
      cases he
    exact ((hstart.addCategory (sourceKey_lit "channels" (by simp)) hchannels).addCategory
      (sourceKey_lit "dlq" (by simp)) hdlq).addCategory (sourceKey_lit "cluster" (by simp)) hcluster

variable (U : UnicodeData) (nfkc : PyStr → PyStr)

theorem everyKey_toDict (tool qmName generatedAt : PyStr)
    {topology : TopologyFingerprint} {findings : List RCSFinding} {rawEvidence : Evidence}
    (htopology : Fingerprinted topology) (h : Contained (findings, rawEvidence)) :
    EveryKey SourceKey (toDict U nfkc tool qmName topology findings rawEvidence generatedAt) := by
  refine everyKey_sanitized U nfkc (everyKey_dictOf ["tool", "qm_name", "topology", "findings",
    "raw_evidence", "generated_at", "trust_level"] rfl (by simp) ?_)
  have hfindings : EveryKey SourceKey (.list (findings.map (asDict U nfkc))) := by
    rw [everyKey_list_iff, List.forall_mem_map]
    exact fun f hf => everyKey_asDict U nfkc (h.1 f hf)
  simp only [List.map_cons, List.map_nil, List.forall_mem_cons]
  exact ⟨trivial, trivial, everyKey_topologyToDict htopology, hfindings, h.2, trivial, trivial,
    by simp⟩

theorem everyKey_healthReply (qmName startedAt : PyStr) (durationMs : Int)
    {topology : TopologyFingerprint} {o : Health.Outcomes} (htopology : Fingerprinted topology)
    (h : ∀ entry ∈ o.entries, OutcomeContained entry.2) :
    EveryKey SourceKey
      (healthReply U nfkc qmName topology (Health.reportOn o) durationMs startedAt) := by
  obtain ⟨hkeyed, hevidence⟩ := contained_reportOn h
  refine everyKey_sanitized U nfkc (everyKey_dictOf ["tool", "qm_name", "topology", "summary",
    "findings", "raw_evidence", "checks_run", "checks_skipped", "duration_ms", "generated_at",
    "trust_level"] rfl (by simp) ?_)
  have hfindings : EveryKey SourceKey (.list ((Health.reportOn o).findings.map
      fun item => withCategory item.1 (asDict U nfkc item.2))) := by
    rw [everyKey_list_iff, List.forall_mem_map]
    exact fun item hitem => everyKey_withCategory _ (everyKey_asDict U nfkc (hkeyed item hitem))
  have hraw : EveryKey SourceKey (.dict ((Health.reportOn o).rawEvidence.items.map
      fun p => (p.1, .dict p.2.items))) := by
    rw [everyKey_dict_iff, List.forall_mem_map]
    exact hevidence
  have hskipped : EveryKey SourceKey
      (.list ((Health.reportOn o).checksSkipped.map skippedDict)) := by
    rw [everyKey_list_iff, List.forall_mem_map]
    exact fun s _ => everyKey_dictOf ["category", "error"] rfl (by simp) (by simp)
  simp only [List.map_cons, List.map_nil, List.forall_mem_cons]
  exact ⟨trivial, trivial, everyKey_topologyToDict htopology, everyKey_summaryDict _, hfindings,
    hraw, everyKey_strList _, hskipped, trivial, trivial, trivial, by simp⟩

/--
**Replies are contained.**  Whatever a connector answers to a tool, and whatever it raises,
the reply holds clean and bounded strings only, and no key of any of its dictionaries
comes from the connector.
-/
theorem replies_contained (isdigit : CodePoint → Bool) (invalidLiteral : PyStr)
    (registry : KCRegistry) (order : SetOrder) (clock : Cluster.Clock) (d : Diagnostic)
    (qmName generatedAt : PyStr) (sample durationMs : Int) :
    Returns (fun r =>
        EveryString (CleanString maxStringLen)
          (reply U nfkc d qmName r.1 durationMs generatedAt r.2) ∧
        EveryKey SourceKey (reply U nfkc d qmName r.1 durationMs generatedAt r.2))
      (session U isdigit invalidLiteral registry order clock d qmName sample) := by
  refine (fingerprinted_detect U isdigit invalidLiteral).bind fun topology htopology => ?_
  refine (contained_checks U invalidLiteral registry topology.mqVersion order clock qmName
    sample d).bind fun collected hcollected => returns_pure ?_
  cases collected with
  | report findings rawEvidence =>
      exact ⟨everyString_sanitizeValue U nfkc _ _ _,
        everyKey_toDict U nfkc d.toolName qmName generatedAt htopology hcollected⟩
  | outcomes o =>
      exact ⟨everyString_sanitizeValue U nfkc _ _ _,
        everyKey_healthReply U nfkc qmName generatedAt durationMs htopology hcollected⟩

end Report

end Replies
end MqSentinel
