import MqSentinel.Dialogues
import MqSentinel.Dispatcher
import MqSentinel.HostCommands
import MqSentinel.NativeHaDiagnosis
import MqSentinel.RdqmParsers
import MqSentinel.SuggestedCommands
import MqSentinel.TopologyDetection
import MqSentinel.ZosDiagnosis

/-!
# The tools as sessions with a connector

A tool puts its requests to a connector one after the other and goes on from what came
back, an exception included; the connector may keep a state, so that the same request is
answered differently the second time.  `session` is `TopologyDetector.detect` followed by
the checks of the tool, as they run between `connect` and `disconnect`.

Here the requests are counted out: whatever is answered, they follow the plan of the
tool, and every request of a plan is read-only (`session_follows_plan`).
-/

namespace MqSentinel
namespace Sessions

open Dialogues Dialogues.Dialogue Rcs
open Server (Diagnostic)
open Detect (TopologyFingerprint)
open Health (MQSCResult Evidence)

/-- A request to a connector. -/
inductive Request where
  | mqsc (command : PyStr)
  | shell (argv : List PyStr)
  | browse (queueName : PyStr) (maxMessages : Int)
deriving DecidableEq

/-- What a request is answered with. -/
def Request.Answer : Request → Type
  | mqsc _ => MQSCResult
  | shell _ => PyStr
  | browse _ _ => Dlq.BrowseResult

/-- A part of a tool that talks to its connector. -/
abbrev Session (α : Type) := Dialogue PyException Request.Answer α

/-- What `except Exception` catches. -/
def Ordinary (exc : PyException) : Prop :=
  exc.isInstance "Exception" = true

instance (exc : PyException) : Decidable (Ordinary exc) :=
  inferInstanceAs (Decidable (_ = true))

/-- `execute_mqsc` -/
def executeMqsc (command : String) : Session MQSCResult :=
  query (Request.mqsc (lit command))

/-- `execute_shell` -/
def executeShell (argv : List String) : Session PyStr :=
  query (Request.shell (argv.map lit))

/-- `browse_dlq` -/
def browseDlq (queueName : PyStr) (maxMessages : Int) : Session Dlq.BrowseResult :=
  query (Request.browse queueName maxMessages)

/-- `try: ... except Exception as exc: return recover(exc)` -/
def catching {α : Type} (recover : PyException → α) (d : Session α) : Session α :=
  d.except fun exc => if Ordinary exc then pure (recover exc) else raise exc

/-- `try: ... except Exception: return default` -/
def rescued {α : Type} (default : α) (d : Session α) : Session α :=
  catching (fun _ => default) d

/-- `_safe_rows`, and `_collect_channel_status` -/
def safeRows (command : String) : Session (List Row) :=
  rescued [] do
    let result ← executeMqsc command
    return result.rows

/-- `_safe_raw`, and `_safe_log_tail` -/
def safeRaw (command : String) : Session PyStr :=
  rescued [] do
    let result ← executeMqsc command
    return result.raw

/-- `_safe_attr` -/
def safeAttr (command attr : String) : Session (Option PyStr) :=
  rescued none do
    let result ← executeMqsc command
    return (result.rows.findSome? fun row => row.get? (lit attr)).map Cell.toStr

/-- `_safe_shell` -/
def safeShell (argv : List String) : Session PyStr :=
  rescued [] (executeShell argv)

/-- `_read_error_log_tail` -/
def readErrorLogTail : Session PyStr :=
  rescued [] do
    let result ← executeMqsc "DISPLAY QMSTATUS"
    return Health.tailLines result.raw

/-- `_resolve_dlq_name` -/
def resolveDlqName : Session PyStr :=
  rescued (lit "SYSTEM.DEAD.LETTER.QUEUE") do
    let result ← executeMqsc "DISPLAY QMGR DEADQ"
    return match result.rows.find? fun row => (row.get "DEADQ").truthy with
      | none => lit "SYSTEM.DEAD.LETTER.QUEUE"
      | some row => (row.get "DEADQ").toStr

section Tools

variable (U : UnicodeData) (isdigit : CodePoint → Bool)

-- The text of the `ValueError` of `int`, which quotes what it could not read.
variable (invalidLiteral : PyStr)

/-- A value, or the `ValueError` that stands for its absence. -/
def orValueError {α : Type} : Option α → Session α
  | some a => pure a
  | none => raise (.valueError invalidLiteral)

/-- `_shell_indicates_rdqm` -/
def shellIndicatesRdqm : Session Bool :=
  rescued false do
    let out ← executeShell ["rdqmstatus"]
    return decide (lit "Node:" <:+: out) || Detect.mentions U "DRBD" out

/-- `_dspmq_indicates_standby` -/
def dspmqIndicatesStandby : Session Bool :=
  rescued false do
    let out ← executeShell ["dspmq", "-o", "standby"]
    return Detect.mentions U "PERMITTED" out || Detect.mentions U "STANDBY" out

/-- What `detect` makes of the answers. -/
def fingerprint (version platform : Option PyStr) (qmstatus : PyStr) (isRdqm hasStandby : Bool)
    (clusqmgr : PyStr) : TopologyFingerprint :=
  let isZos := decide (lit "MVS" <+: U.upperStr (platform.getD [])) ||
    Detect.mentions U "ZOS" (platform.getD [])
  let isNativeHa := Detect.mentions U "NATIVEHA" qmstatus || Detect.mentions U "INSYNC" qmstatus
  let isClustered := !(strip clusqmgr).isEmpty
  let isUniformCluster := Detect.mentions U "UNIFORM" clusqmgr
  { topology :=
      Detect.classify isZos isNativeHa isRdqm hasStandby isClustered isUniformCluster
    mqVersion := version
    platform := platform
    isZos := isZos
    isClustered := isClustered
    isUniformCluster := isUniformCluster
    hasStandby := hasStandby
    isNativeHa := isNativeHa
    isRdqm := isRdqm
    evidence :=
      [ (lit "version_query", version.getD []), (lit "platform_query", platform.getD []),
        (lit "qmstatus_present", Detect.boolStr (!qmstatus.isEmpty)),
        (lit "clusqmgr_present", Detect.boolStr isClustered) ] }

/-- `TopologyDetector.detect` -/
def detect : Session TopologyFingerprint := do
  let reported ← safeAttr "DISPLAY QMGR VERSION" "VERSION"
  let version ← orValueError invalidLiteral
    (Detect.normalizeMqVersion U isdigit reported).toOption
  let platform ← safeAttr "DISPLAY QMGR PLATFORM" "PLATFORM"
  let qmstatus ← safeRaw "DISPLAY QMSTATUS"
  let isRdqm ← shellIndicatesRdqm U
  let hasStandby ← dspmqIndicatesStandby U
  let clusqmgr ← safeRaw "DISPLAY CLUSQMGR(*) CLUSTER"
  return fingerprint U version platform qmstatus isRdqm hasStandby clusqmgr

variable (registry : KCRegistry) (mqVersion : Option PyStr)

/-- `run_channel_checks` -/
def runChannelChecks (order : SetOrder) : Session (List RCSFinding × Evidence) := do
  let channels ← safeRows "DISPLAY CHSTATUS(*) ALL"
  let logTail ← readErrorLogTail
  return (Channels.matchChannelFailures U registry mqVersion order ⟨channels, logTail⟩,
    OrderedDict.ofList
      [ (lit "channels_examined", .int channels.length),
        (lit "log_tail_lines", .int (splitlines logTail).length) ])

/-- What `run_dlq_checks` makes of a browse. -/
def dlqReport (browse : Dlq.BrowseResult) : Session (List RCSFinding × Evidence) := do
  let findings ← orValueError invalidLiteral
    (DeadLetter.matchDlqFindings U registry mqVersion (Health.browseDict browse))
  return (findings, OrderedDict.ofList
    [ (lit "dlq_name", .str browse.queueName),
      (lit "queue_depth", .int browse.queueDepth),
      (lit "sample_size", .int browse.sampleSize),
      (lit "bodies_read", .bool false) ])

/-- `run_dlq_checks` -/
def runDlqChecks (sampleSize : Int) : Session (List RCSFinding × Evidence) :=
  if sampleSize < 1 ∨ sampleSize > Health.maxSample then
    raise (.valueError (lit "sample_size must be in [1, 500]"))
  else do
    let dlqName ← resolveDlqName
    let browse ← browseDlq dlqName sampleSize
    dlqReport U invalidLiteral registry mqVersion browse

/-- `_safe_attr(...) or fallback_qm_name` -/
def thisQm (fallbackQmName : PyStr) : Option PyStr → PyStr
  | none => fallbackQmName
  | some [] => fallbackQmName
  | some name => name

/-- `run_cluster_checks` -/
def runClusterChecks (clock : Cluster.Clock) (fallbackQmName : PyStr) :
    Session (List RCSFinding × Evidence) := do
  let clusqmgrs ← safeRows "DISPLAY CLUSQMGR(*) ALL"
  let repos ← safeRaw "DISPLAY QMGR REPOS REPOSNL"
  let name ← safeAttr "DISPLAY QMGR QMNAME" "QMNAME"
  let raw : Cluster.RawData := ⟨clusqmgrs, repos, thisQm fallbackQmName name⟩
  return (Cluster.matchClusterFindings U registry mqVersion clock raw,
    OrderedDict.ofList
      [ (lit "clusqmgr_rows", .int raw.clusqmgrs.length),
        (lit "clusters_seen", .list ((Health.clustersSeen raw.clusqmgrs).map .str)),
        (lit "this_qm", .str raw.thisQm) ])

/-- `run_native_ha_checks` -/
def runNativeHaChecks : Session (List RCSFinding × Evidence) := do
  let rows ← safeRows "DISPLAY NATIVEHASTATUS"
  let rgRaw ← safeRaw "DISPLAY QMSTATUS RECOVERYGROUP"
  let crr ← orValueError invalidLiteral (MqSentinel.NativeHa.parseCrr U rgRaw)
  let findings ← orValueError invalidLiteral
    (NativeHa.matchNativeHaFindings U registry mqVersion (MqSentinel.NativeHa.rawData rows crr))
  let lag ← orValueError invalidLiteral (MqSentinel.NativeHa.crrLagSeconds U crr)
  return (findings, OrderedDict.ofList
    [ (lit "instance_count", .int rows.length),
      (lit "in_sync_count", .int (rows.countP (NativeHa.isInSync U))),
      (lit "active_count", .int (rows.countP (NativeHa.isActive U))),
      (lit "crr_enabled", .bool (MqSentinel.NativeHa.crrEnabled crr)),
      (lit "crr_lag_seconds", .int lag) ])

/-- `run_rdqm_checks` -/
def runRdqmChecks (qmName : PyStr) : Session (List RCSFinding × Evidence) := do
  let rdqmRaw ← safeShell ["rdqmstatus"]
  let crmRaw ← safeShell ["crm_mon", "-1"]
  let drbdRaw ← safeShell ["drbdadm", "status"]
  let raw := MqSentinel.Rdqm.rawData U rdqmRaw crmRaw drbdRaw qmName
  let pace := raw.pacemaker.getD {}
  return (Rdqm.matchRdqmFindings registry mqVersion raw, OrderedDict.ofList
    [ (lit "pacemaker_total", .int pace.totalNodes),
      (lit "pacemaker_online", .int pace.onlineNodes.length),
      (lit "pacemaker_offline", .int pace.offlineNodes.length),
      (lit "pacemaker_failed_resources", .int pace.failedResources.length),
      (lit "drbd_resources", .int raw.drbd.length),
      (lit "drbd_split_brain", .bool (raw.drbd.any fun d => (d.get "split_brain").truthy)),
      (lit "rdqm_running_node",
        .str ((raw.rdqmStatus.get "running_node").orElse (.str [])).toStr) ])

/-- `run_zos_checks` -/
def runZosChecks : Session (List RCSFinding × Evidence) := do
  let group ← safeRows "DISPLAY GROUP"
  let chinit ← safeRows "DISPLAY QMSTATUS CHINIT"
  let pagesets ← safeRows "DISPLAY USAGE PSID(*)"
  let bufferpools ← safeRows "DISPLAY USAGE BUFFPOOL(*)"
  let cfStructures ← safeRows "DISPLAY CFSTATUS(*) ALL"
  let result := MqSentinel.Zos.checkReplies U registry mqVersion
    ⟨group, chinit, pagesets, bufferpools, cfStructures⟩
  return (result.findings, result.rawEvidence)

/-- `run_miqm_checks` -/
def runMiqmChecks : Session (List RCSFinding × Evidence) := do
  let dspmqX ← safeShell ["dspmq", "-x"]
  let dspmqStandby ← safeShell ["dspmq", "-o", "standby"]
  let logTail ← safeRaw "DISPLAY QMSTATUS"
  let raw : Miqm.RawData :=
    { instances := MqSentinel.Miqm.parseInstances U dspmqX
      standbyPermitted := MqSentinel.Miqm.standbyPermitted.search dspmqStandby
      sharedFsOk := .none
      errorLogTail := logTail }
  return (Miqm.matchMiqmFindings U registry mqVersion raw, OrderedDict.ofList
    [ (lit "instance_count", .int raw.instances.length),
      (lit "active_count", .int (MqSentinel.Miqm.activeCount U raw.instances)),
      (lit "standby_permitted", .bool raw.standbyPermitted) ])

/-- `_safe_run`, which keeps the class of what was raised. -/
def attempted (d : Session (List RCSFinding × Evidence)) : Session Health.CheckOutcome :=
  catching (fun exc => .error (lit exc.className)) do
    let result ← d
    return .ok result

/-- What a tool has in hand when its `with` block is over. -/
inductive Collected where
  | report (findings : List RCSFinding) (rawEvidence : Evidence)
  | outcomes (o : Health.Outcomes)

/-- The findings and the evidence of a check. -/
def reported (d : Session (List RCSFinding × Evidence)) : Session Collected := do
  let result ← d
  return .report result.1 result.2

/-- The body of a tool's `with` block. -/
def checks (order : SetOrder) (clock : Cluster.Clock) (qmName : PyStr) (sample : Int) :
    Diagnostic → Session Collected
  | .channels => reported (runChannelChecks U registry mqVersion order)
  | .dlq => reported (runDlqChecks U invalidLiteral registry mqVersion sample)
  | .cluster => reported (runClusterChecks U registry mqVersion clock qmName)
  | .healthCheck => do
      let channels ← attempted (runChannelChecks U registry mqVersion order)
      let dlq ← attempted (runDlqChecks U invalidLiteral registry mqVersion sample)
      let cluster ← attempted (runClusterChecks U registry mqVersion clock qmName)
      return .outcomes ⟨channels, dlq, cluster⟩
  | .nativeHa => reported (runNativeHaChecks U invalidLiteral registry mqVersion)
  | .rdqm => reported (runRdqmChecks U registry mqVersion qmName)
  | .zos => reported (runZosChecks U registry mqVersion)
  | .miqm => reported (runMiqmChecks U registry mqVersion)

/-- A tool between `connect` and `disconnect`. -/
def session (order : SetOrder) (clock : Cluster.Clock) (d : Diagnostic) (qmName : PyStr)
    (sample : Int) : Session (TopologyFingerprint × Collected) := do
  let topology ← detect U isdigit invalidLiteral
  let collected ←
    checks U invalidLiteral registry topology.mqVersion order clock qmName sample d
  return (topology, collected)

end Tools

section Plans

/-- An MQSC request of the source. -/
def mqsc (command : String) : Request :=
  .mqsc (lit command)

/-- A shell request of the source. -/
def shell (argv : List String) : Request :=
  .shell (argv.map lit)

/-- The requests of `detect`. -/
def detectionPlan : List Request :=
  [ mqsc "DISPLAY QMGR VERSION", mqsc "DISPLAY QMGR PLATFORM", mqsc "DISPLAY QMSTATUS",
    shell ["rdqmstatus"], shell ["dspmq", "-o", "standby"],
    mqsc "DISPLAY CLUSQMGR(*) CLUSTER" ]

def channelsPlan : List Request :=
  [mqsc "DISPLAY CHSTATUS(*) ALL", mqsc "DISPLAY QMSTATUS"]

/-- Nothing is asked for a sample size outside the bounds. -/
def dlqPlan (sample : Int) (dlqName : PyStr) : List Request :=
  if sample < 1 ∨ sample > Health.maxSample then []
  else [mqsc "DISPLAY QMGR DEADQ", .browse dlqName sample]

def clusterPlan : List Request :=
  [ mqsc "DISPLAY CLUSQMGR(*) ALL", mqsc "DISPLAY QMGR REPOS REPOSNL",
    mqsc "DISPLAY QMGR QMNAME" ]

/-- The requests of the checks, once the dead-letter queue has its name. -/
def checkPlan (sample : Int) (dlqName : PyStr) : Diagnostic → List Request
  | .channels => channelsPlan
  | .dlq => dlqPlan sample dlqName
  | .cluster => clusterPlan
  | .healthCheck => channelsPlan ++ (dlqPlan sample dlqName ++ clusterPlan)
  | .nativeHa => [mqsc "DISPLAY NATIVEHASTATUS", mqsc "DISPLAY QMSTATUS RECOVERYGROUP"]
  | .rdqm => [shell ["rdqmstatus"], shell ["crm_mon", "-1"], shell ["drbdadm", "status"]]
  | .zos =>
      [ mqsc "DISPLAY GROUP", mqsc "DISPLAY QMSTATUS CHINIT", mqsc "DISPLAY USAGE PSID(*)",
        mqsc "DISPLAY USAGE BUFFPOOL(*)", mqsc "DISPLAY CFSTATUS(*) ALL" ]
  | .miqm =>
      [shell ["dspmq", "-x"], shell ["dspmq", "-o", "standby"], mqsc "DISPLAY QMSTATUS"]

/-- What a connector may be asked: the guards accept it, and a browse is bounded. -/
def Permitted (U : UnicodeData) (repr : PyStr → PyStr) : Request → Prop
  | .mqsc command => MqSentinel.Allowlist.assertMqscAllowed U command = .ok ()
  | .shell argv => MqSentinel.Allowlist.assertShellAllowed U repr argv = .ok ()
  | .browse _ maxMessages => 1 ≤ maxMessages ∧ maxMessages ≤ 500

end Plans

section Following

/-- The requests follow the plans, and no ordinary exception comes out. -/
structure Recovers {α : Type} (plans : Language Request) (d : Session α) : Prop where
  asks : Asks Ordinary plans d
  raises : RaisesOnly (fun exc => ¬ Ordinary exc) d

/-- The handler of a `catching` block asks nothing and lets nothing ordinary out. -/
theorem recovers_catching
    {α : Type} {recover : PyException → α} {d : Session α} {plans : Language Request}
    (h : Asks Ordinary plans d) :
    Recovers plans (catching recover d) := by
  constructor
  · refine h.except (fun exc => ?_) (fun exc a t hgoes => ?_) (fun exc exc' t hgoes hexc' => ?_)
    · split_ifs with hexc
      · exact asks_done _
      · exact asks_done _
    · split_ifs at hgoes with hexc
      · exact hexc
      · cases (goes_done_iff.mp hgoes).2
    · split_ifs at hgoes with hexc
      · exact hexc
      · cases (goes_done_iff.mp hgoes).2
        exact hexc'
  · intro t exc hgoes
    rcases goes_except_iff.mp hgoes with ⟨a, -, heq⟩ | ⟨t₁, t₂, exc', -, h₂, -⟩
    · cases heq
    · split_ifs at h₂ with hexc
      · cases (goes_pure_iff.mp h₂).2
      · cases (goes_done_iff.mp h₂).2
        exact hexc

/-- One request whose answer is read. -/
theorem asks_read
    {α : Type} (q : Request) (read : q.Answer → Session α)
    (hread : ∀ a, Asks Ordinary {[]} (read a)) :
    Asks Ordinary {[q]} (query q >>= read) :=
  (asks_query q).bind_silent hread

theorem recovers_safeRows (command : String) :
    Recovers {[mqsc command]} (safeRows command) :=
  recovers_catching (asks_read (mqsc command) _ fun _ => asks_done _)

theorem recovers_safeRaw (command : String) :
    Recovers {[mqsc command]} (safeRaw command) :=
  recovers_catching (asks_read (mqsc command) _ fun _ => asks_done _)

theorem recovers_safeAttr (command attr : String) :
    Recovers {[mqsc command]} (safeAttr command attr) :=
  recovers_catching (asks_read (mqsc command) _ fun _ => asks_done _)

theorem recovers_safeShell (argv : List String) :
    Recovers {[shell argv]} (safeShell argv) :=
  recovers_catching (asks_query (shell argv))

theorem recovers_readErrorLogTail :
    Recovers {[mqsc "DISPLAY QMSTATUS"]} readErrorLogTail :=
  recovers_catching (asks_read (mqsc "DISPLAY QMSTATUS") _ fun _ => asks_done _)

theorem recovers_resolveDlqName :
    Recovers {[mqsc "DISPLAY QMGR DEADQ"]} resolveDlqName :=
  recovers_catching (asks_read (mqsc "DISPLAY QMGR DEADQ") _ fun _ => asks_done _)

theorem asks_orValueError
    {α : Type} {p : PyException → Prop} (invalidLiteral : PyStr) (a : Option α) :
    Asks p {[]} (orValueError invalidLiteral a) := by
  cases a with
  | none => exact asks_done _
  | some a => exact asks_done _

/-- A part that recovers, and what follows it. -/
theorem Recovers.next
    {α β : Type} {d : Session α} {f : α → Session β} {q : Request} {plan : List Request}
    {p : PyException → Prop} (hp : ∀ exc, p exc → Ordinary exc)
    (hd : Recovers {[q]} d) (hf : ∀ a, Asks p {plan} (f a)) :
    Asks p {q :: plan} (d >>= f) :=
  (hd.asks.weaken hp).bind_plan hf
    (Or.inl fun t exc h => mt (hp exc) (hd.raises t exc h))

variable (U : UnicodeData) (isdigit : CodePoint → Bool) (invalidLiteral : PyStr)

theorem recovers_shellIndicatesRdqm :
    Recovers {[shell ["rdqmstatus"]]} (shellIndicatesRdqm U) :=
  recovers_catching (asks_read (shell ["rdqmstatus"]) _ fun _ => asks_done _)

theorem recovers_dspmqIndicatesStandby :
    Recovers {[shell ["dspmq", "-o", "standby"]]} (dspmqIndicatesStandby U) :=
  recovers_catching (asks_read (shell ["dspmq", "-o", "standby"]) _ fun _ => asks_done _)

/-- The version may end the detection after its first request. -/
theorem asks_detect :
    Asks (fun _ => False) {detectionPlan} (detect U isdigit invalidLiteral) := by
  have hp : ∀ exc : PyException, False → Ordinary exc := fun _ => False.elim
  refine Recovers.next hp (recovers_safeAttr _ _) fun reported => ?_
  refine (asks_orValueError invalidLiteral _).bind_plan (l := []) (fun version => ?_)
    (Or.inl fun _ _ _ => id)
  refine Recovers.next hp (recovers_safeAttr _ _) fun platform => ?_
  refine Recovers.next hp (recovers_safeRaw _) fun qmstatus => ?_
  refine Recovers.next hp (recovers_shellIndicatesRdqm U) fun isRdqm => ?_
  refine Recovers.next hp (recovers_dspmqIndicatesStandby U) fun hasStandby => ?_
  exact Recovers.next hp (recovers_safeRaw _) fun clusqmgr => asks_done _

variable (registry : KCRegistry) (mqVersion : Option PyStr)

theorem asks_runChannelChecks (order : SetOrder) :
    Asks Ordinary {channelsPlan} (runChannelChecks U registry mqVersion order) := by
  refine Recovers.next (fun _ => id) (recovers_safeRows _) fun channels => ?_
  exact Recovers.next (fun _ => id) recovers_readErrorLogTail fun logTail => asks_done _

/-- The plans of the dead-letter check, one for each name of the queue. -/
def dlqPlans (sample : Int) : Language Request :=
  {plan | ∃ dlqName, plan = dlqPlan sample dlqName}

theorem asks_runDlqChecks (sample : Int) :
    Asks Ordinary (dlqPlans sample)
      (runDlqChecks U invalidLiteral registry mqVersion sample) := by
  unfold runDlqChecks
  split_ifs with hsample
  · refine (asks_done _).mono ?_
    rintro plan rfl
    exact ⟨[], (if_pos hsample).symm⟩
  · have hbrowse : ∀ dlqName, Asks Ordinary
        {plan | ∃ dlqName, plan = [Request.browse dlqName sample]}
        (browseDlq dlqName sample >>= dlqReport U invalidLiteral registry mqVersion) := by
      intro dlqName
      refine (asks_read (.browse dlqName sample) _ fun browse => ?_).mono ?_
      · exact (asks_orValueError invalidLiteral _).bind_silent fun findings => asks_done _
      · rintro plan rfl
        exact ⟨dlqName, rfl⟩
    refine (Asks.bind recovers_resolveDlqName.asks hbrowse ⟨_, [], rfl⟩
      (Or.inl recovers_resolveDlqName.raises)).mono ?_
    intro plan hplan
    obtain ⟨l, rfl, m, ⟨dlqName, rfl⟩, rfl⟩ := Language.mem_mul.mp hplan
    exact ⟨dlqName, (if_neg hsample).symm⟩

theorem asks_runClusterChecks (clock : Cluster.Clock) (fallbackQmName : PyStr) :
    Asks Ordinary {clusterPlan}
      (runClusterChecks U registry mqVersion clock fallbackQmName) := by
  refine Recovers.next (fun _ => id) (recovers_safeRows _) fun clusqmgrs => ?_
  refine Recovers.next (fun _ => id) (recovers_safeRaw _) fun repos => ?_
  exact Recovers.next (fun _ => id) (recovers_safeAttr _ _) fun name => asks_done _

theorem asks_runNativeHaChecks :
    Asks Ordinary
      {[mqsc "DISPLAY NATIVEHASTATUS", mqsc "DISPLAY QMSTATUS RECOVERYGROUP"]}
      (runNativeHaChecks U invalidLiteral registry mqVersion) := by
  refine Recovers.next (fun _ => id) (recovers_safeRows _) fun rows => ?_
  refine Recovers.next (fun _ => id) (recovers_safeRaw _) fun rgRaw => ?_
  refine (asks_orValueError invalidLiteral _).bind_silent fun crr => ?_
  refine (asks_orValueError invalidLiteral _).bind_silent fun findings => ?_
  exact (asks_orValueError invalidLiteral _).bind_silent fun lag => asks_done _

theorem asks_runRdqmChecks (qmName : PyStr) :
    Asks Ordinary
      {[shell ["rdqmstatus"], shell ["crm_mon", "-1"], shell ["drbdadm", "status"]]}
      (runRdqmChecks U registry mqVersion qmName) := by
  refine Recovers.next (fun _ => id) (recovers_safeShell _) fun rdqmRaw => ?_
  refine Recovers.next (fun _ => id) (recovers_safeShell _) fun crmRaw => ?_
  exact Recovers.next (fun _ => id) (recovers_safeShell _) fun drbdRaw => asks_done _

theorem asks_runZosChecks :
    Asks Ordinary
      {[ mqsc "DISPLAY GROUP", mqsc "DISPLAY QMSTATUS CHINIT", mqsc "DISPLAY USAGE PSID(*)",
        mqsc "DISPLAY USAGE BUFFPOOL(*)", mqsc "DISPLAY CFSTATUS(*) ALL" ]}
      (runZosChecks U registry mqVersion) := by
  refine Recovers.next (fun _ => id) (recovers_safeRows _) fun group => ?_
  refine Recovers.next (fun _ => id) (recovers_safeRows _) fun chinit => ?_
  refine Recovers.next (fun _ => id) (recovers_safeRows _) fun pagesets => ?_
  refine Recovers.next (fun _ => id) (recovers_safeRows _) fun bufferpools => ?_
  exact Recovers.next (fun _ => id) (recovers_safeRows _) fun cfStructures => asks_done _

theorem asks_runMiqmChecks :
    Asks Ordinary
      {[shell ["dspmq", "-x"], shell ["dspmq", "-o", "standby"], mqsc "DISPLAY QMSTATUS"]}
      (runMiqmChecks U registry mqVersion) := by
  refine Recovers.next (fun _ => id) (recovers_safeShell _) fun dspmqX => ?_
  refine Recovers.next (fun _ => id) (recovers_safeShell _) fun dspmqStandby => ?_
  exact Recovers.next (fun _ => id) (recovers_safeRaw _) fun logTail => asks_done _

theorem recovers_attempted
    {d : Session (List RCSFinding × Evidence)} {plans : Language Request}
    (h : Asks Ordinary plans d) :
    Recovers plans (attempted d) := by
  exact recovers_catching (h.bind_silent fun _ => asks_done _)

theorem asks_reported
    {d : Session (List RCSFinding × Evidence)} {plans : Language Request}
    (h : Asks Ordinary plans d) :
    Asks Ordinary plans (reported d) := by
  exact h.bind_silent fun _ => asks_done _

/-- The plans of a tool's checks, one for each name of the dead-letter queue. -/
def checkPlans (sample : Int) (d : Diagnostic) : Language Request :=
  {plan | ∃ dlqName, plan = checkPlan sample dlqName d}

theorem singleton_le_checkPlans
    {sample : Int} {d : Diagnostic} {plan : List Request}
    (h : ∀ dlqName, checkPlan sample dlqName d = plan) :
    ({plan} : Language Request) ≤ checkPlans sample d := by
  rintro l rfl
  exact ⟨[], (h []).symm⟩

theorem asks_checks
    (order : SetOrder) (clock : Cluster.Clock) (qmName : PyStr) (sample : Int)
    (d : Diagnostic) :
    Asks Ordinary (checkPlans sample d)
      (checks U invalidLiteral registry mqVersion order clock qmName sample d) := by
  cases d with
  | channels =>
      exact (asks_reported (asks_runChannelChecks U registry mqVersion order)).mono
        (singleton_le_checkPlans fun _ => rfl)
  | dlq =>
      exact asks_reported (asks_runDlqChecks U invalidLiteral registry mqVersion sample)
  | cluster =>
      exact (asks_reported (asks_runClusterChecks U registry mqVersion clock qmName)).mono
        (singleton_le_checkPlans fun _ => rfl)
  | healthCheck =>
      have hchannels := recovers_attempted (asks_runChannelChecks U registry mqVersion order)
      have hdlq := recovers_attempted
        (asks_runDlqChecks U invalidLiteral registry mqVersion sample)
      have hcluster := recovers_attempted
        (asks_runClusterChecks U registry mqVersion clock qmName)
      have hlast : ∀ channels dlq, Asks Ordinary {clusterPlan} (do
          let cluster ← attempted (runClusterChecks U registry mqVersion clock qmName)
          return Collected.outcomes ⟨channels, dlq, cluster⟩) := fun channels dlq =>
        hcluster.asks.bind_silent fun _ => asks_done _
      refine (Asks.bind hchannels.asks
        (fun channels => Asks.bind hdlq.asks (fun dlq => hlast channels dlq)
          ⟨_, rfl⟩ (Or.inl hdlq.raises))
        ⟨_, Language.append_mem_mul ⟨[], rfl⟩ rfl⟩ (Or.inl hchannels.raises)).mono ?_
      intro plan hplan
      obtain ⟨l, rfl, m, hm, rfl⟩ := Language.mem_mul.mp hplan
      obtain ⟨l, ⟨dlqName, rfl⟩, m, rfl, rfl⟩ := Language.mem_mul.mp hm
      exact ⟨dlqName, rfl⟩
  | nativeHa =>
      exact (asks_reported (asks_runNativeHaChecks U invalidLiteral registry mqVersion)).mono
        (singleton_le_checkPlans fun _ => rfl)
  | rdqm =>
      exact (asks_reported (asks_runRdqmChecks U registry mqVersion qmName)).mono
        (singleton_le_checkPlans fun _ => rfl)
  | zos =>
      exact (asks_reported (asks_runZosChecks U registry mqVersion)).mono
        (singleton_le_checkPlans fun _ => rfl)
  | miqm =>
      exact (asks_reported (asks_runMiqmChecks U registry mqVersion)).mono
        (singleton_le_checkPlans fun _ => rfl)

end Following

section ReadOnly

variable (U : UnicodeData) (repr : PyStr → PyStr)

/-- Fixed `DISPLAY` commands. -/
theorem permitted_displays
    (commands : List String)
    (h : ∀ c ∈ commands, opensReadOnly (lit c) = true ∧ Plain (lit c)) :
    ∀ q ∈ commands.map mqsc, Permitted U repr q := by
  intro q hq
  obtain ⟨command, hcommand, rfl⟩ := List.mem_map.mp hq
  exact accepted_fixed U (h command hcommand).1 (h command hcommand).2

/-- A shell request that is a suggested command, split. -/
theorem permitted_shell
    {command : PyStr} {argv : List String} (h : HostCommands.Accepted U repr command)
    (hsplit : split command = argv.map lit) :
    Permitted U repr (shell argv) := by
  rw [HostCommands.Accepted, hsplit] at h
  exact h

theorem permitted_rdqmstatus :
    Permitted U repr (shell ["rdqmstatus"]) :=
  permitted_shell U repr (HostCommands.accepted_rdqmstatus U repr) (by decide +kernel)

theorem permitted_dspmqStandby :
    Permitted U repr (shell ["dspmq", "-o", "standby"]) :=
  permitted_shell U repr (HostCommands.accepted_dspmqStandby U repr) (by decide +kernel)

theorem permitted_drbdadm :
    Permitted U repr (shell ["drbdadm", "status"]) :=
  (HostCommands.assert_drbdadm_iff U repr [lit "status"]).mpr (by decide +kernel)

theorem permitted_detectionPlan :
    ∀ q ∈ detectionPlan, Permitted U repr q := by
  have hdisplays := permitted_displays U repr
    [ "DISPLAY QMGR VERSION", "DISPLAY QMGR PLATFORM", "DISPLAY QMSTATUS",
      "DISPLAY CLUSQMGR(*) CLUSTER" ] (by decide)
  simp only [List.map_cons, List.map_nil, List.forall_mem_cons] at hdisplays
  obtain ⟨hversion, hplatform, hqmstatus, hclusqmgr, hnil⟩ := hdisplays
  simp only [detectionPlan, List.forall_mem_cons]
  exact ⟨hversion, hplatform, hqmstatus, permitted_rdqmstatus U repr,
    permitted_dspmqStandby U repr, hclusqmgr, hnil⟩

theorem permitted_channelsPlan :
    ∀ q ∈ channelsPlan, Permitted U repr q :=
  permitted_displays U repr ["DISPLAY CHSTATUS(*) ALL", "DISPLAY QMSTATUS"] (by decide)

theorem permitted_dlqPlan (sample : Int) (dlqName : PyStr) :
    ∀ q ∈ dlqPlan sample dlqName, Permitted U repr q := by
  unfold dlqPlan
  split_ifs with hsample
  · exact List.forall_mem_nil _
  · have hbounds : 1 ≤ sample ∧ sample ≤ 500 := by
      simp only [Health.maxSample, not_or, not_lt] at hsample
      exact hsample
    have hname := permitted_displays U repr ["DISPLAY QMGR DEADQ"] (by decide)
    simp only [List.map_cons, List.map_nil, List.forall_mem_cons] at hname
    simp only [List.forall_mem_cons]
    exact ⟨hname.1, hbounds, List.forall_mem_nil _⟩

theorem permitted_clusterPlan :
    ∀ q ∈ clusterPlan, Permitted U repr q :=
  permitted_displays U repr
    ["DISPLAY CLUSQMGR(*) ALL", "DISPLAY QMGR REPOS REPOSNL", "DISPLAY QMGR QMNAME"] (by decide)

theorem permitted_checkPlan (sample : Int) (dlqName : PyStr) (d : Diagnostic) :
    ∀ q ∈ checkPlan sample dlqName d, Permitted U repr q := by
  cases d with
  | channels =>
      exact permitted_channelsPlan U repr
  | dlq =>
      exact permitted_dlqPlan U repr sample dlqName
  | cluster =>
      exact permitted_clusterPlan U repr
  | healthCheck =>
      simp only [checkPlan, List.forall_mem_append]
      exact ⟨permitted_channelsPlan U repr, permitted_dlqPlan U repr sample dlqName,
        permitted_clusterPlan U repr⟩
  | nativeHa =>
      exact permitted_displays U repr
        ["DISPLAY NATIVEHASTATUS", "DISPLAY QMSTATUS RECOVERYGROUP"] (by decide)
  | rdqm =>
      simp only [checkPlan, List.forall_mem_cons]
      exact ⟨permitted_rdqmstatus U repr,
        permitted_shell U repr (HostCommands.accepted_crmMon U repr) (by decide +kernel),
        permitted_drbdadm U repr, List.forall_mem_nil _⟩
  | zos =>
      exact permitted_displays U repr
        [ "DISPLAY GROUP", "DISPLAY QMSTATUS CHINIT", "DISPLAY USAGE PSID(*)",
          "DISPLAY USAGE BUFFPOOL(*)", "DISPLAY CFSTATUS(*) ALL" ] (by decide)
  | miqm =>
      have hqmstatus := permitted_displays U repr ["DISPLAY QMSTATUS"] (by decide)
      simp only [checkPlan, List.forall_mem_cons]
      exact ⟨permitted_shell U repr (HostCommands.accepted_dspmqX U repr) (by decide +kernel),
        permitted_dspmqStandby U repr, hqmstatus _ List.mem_cons_self, List.forall_mem_nil _⟩

variable (isdigit : CodePoint → Bool) (invalidLiteral : PyStr) (registry : KCRegistry)

/-- What has been asked when a session ends, one way or the other. -/
theorem asks_session
    (order : SetOrder) (clock : Cluster.Clock) (d : Diagnostic) (qmName : PyStr)
    (sample : Int) :
    Asks (fun _ => False) {plan | ∃ dlqName, plan = detectionPlan ++ checkPlan sample dlqName d}
      (session U isdigit invalidLiteral registry order clock d qmName sample) := by
  refine (Asks.bind (asks_detect U isdigit invalidLiteral) (fun topology =>
    ((asks_checks U invalidLiteral registry topology.mqVersion order clock qmName sample
      d).weaken fun _ => False.elim).bind_silent fun _ => asks_done _)
    ⟨_, [], rfl⟩ (Or.inl fun _ _ _ => id)).mono ?_
  intro plan hplan
  obtain ⟨l, rfl, m, ⟨dlqName, rfl⟩, rfl⟩ := Language.mem_mul.mp hplan
  exact ⟨dlqName, rfl⟩

/--
Whatever a connector answers, and however its answers change, the requests of a tool
follow its plan, all of it if the tool returns, and each of them is permitted.
-/
theorem session_follows_plan
    {σ : Type} (connector : (q : Request) → σ → Except PyException q.Answer × σ) (s : σ)
    (order : SetOrder) (clock : Cluster.Clock) (d : Diagnostic) (qmName : PyStr)
    (sample : Int) :
    let o := (session U isdigit invalidLiteral registry order clock d qmName sample).run
      connector s
    (∃ dlqName,
      questions o.events <+: detectionPlan ++ checkPlan sample dlqName d ∧
        ((∃ r, o.result = .ok r) →
          questions o.events = detectionPlan ++ checkPlan sample dlqName d)) ∧
      ∀ q ∈ questions o.events, Permitted U repr q := by
  intro o
  obtain ⟨plan, ⟨dlqName, rfl⟩, hfront, hall⟩ :=
    asks_session U isdigit invalidLiteral registry order clock d qmName sample _ _
      (goes_run connector _ s)
  refine ⟨⟨dlqName, hfront, ?_⟩, fun q hq => ?_⟩
  · rintro ⟨r, hr⟩
    refine hall fun exc hexc => ?_
    cases hr.symm.trans hexc
  · rcases List.mem_append.mp (hfront.mem hq) with hq | hq
    · exact permitted_detectionPlan U repr q hq
    · exact permitted_checkPlan U repr sample dlqName d q hq

end ReadOnly

end Sessions
end MqSentinel
