import MqSentinel.ConnectorSessions

/-!
# Sessions and the checks on a connector without a state

`detect` and the checks of the other modules take a connector whose answer to a request
is always the same.  A session may hear different answers as the connector's state goes
on; it asks nothing twice in its detection, and nothing twice in its checks, so each half
of it is the one on the answers that it heard (`session_refines_checks`).

`Mirrors` compares outcomes: the same value, or the same class of an ordinary exception.
-/

namespace MqSentinel
namespace Sessions

open Dialogues Dialogues.Dialogue Rcs
open Server (Diagnostic)
open Detect (TopologyFingerprint)
open Health (Evidence)

/-- The answers to the requests, known beforehand. -/
abbrev Oracle := (q : Request) → Except PyException q.Answer

/-- The name of the class of an exception. -/
def classOf (exc : PyException) : PyStr :=
  lit exc.className

/-- The connector that gives these answers. -/
def connectorOf (oracle : Oracle) : MqSentinel.Miqm.Connector where
  executeMqsc command := (oracle (.mqsc command)).mapError classOf
  browseDlq queueName maxMessages := (oracle (.browse queueName maxMessages)).mapError classOf
  executeShell argv := (oracle (.shell argv)).mapError classOf

/-- The same value, or an exception of the same class; only the ordinary ones count. -/
def Mirrors {α : Type} : Except PyException α → Except PyStr α → Prop
  | .ok a, r => r = .ok a
  | .error exc, r => Ordinary exc → r = .error (classOf exc)

/-- A `catching` block, where the handler sees the class of an exception. -/
def recovered {α : Type} (recover : PyStr → α) : Except PyStr α → Except PyStr α
  | .ok a => .ok a
  | .error exc => .ok (recover exc)

section Outcomes

variable {α β : Type} {oracle : Oracle}

theorem Mirrors.bind
    {d : Session α} {f : α → Session β} {r : Except PyStr α} {g : α → Except PyStr β}
    (hd : Mirrors (d.answered oracle) r) (hf : ∀ a, Mirrors ((f a).answered oracle) (g a)) :
    Mirrors ((d >>= f).answered oracle) (r >>= g) := by
  rw [answered_bind]
  cases hans : d.answered oracle with
  | ok a =>
      rw [hans] at hd
      obtain rfl : r = .ok a := hd
      exact hf a
  | error exc =>
      rw [hans] at hd
      intro hexc
      rw [hd hexc]
      rfl

/-- A part that mirrors a value. -/
theorem Mirrors.bind_ok
    {d : Session α} {f : α → Session β} {a : α} {r : Except PyStr β}
    (hd : Mirrors (d.answered oracle) (.ok a)) (hf : Mirrors ((f a).answered oracle) r) :
    Mirrors ((d >>= f).answered oracle) r := by
  rw [answered_bind]
  cases hans : d.answered oracle with
  | ok a' =>
      rw [hans] at hd
      obtain rfl : a = a' := Except.ok.inj hd
      exact hf
  | error exc =>
      rw [hans] at hd
      intro hexc
      cases hd hexc

theorem mirrors_pure (a : α) :
    Mirrors ((pure a : Session α).answered oracle) (.ok a) := by
  rfl

/-- What a handler makes of an exception depends on its class. -/
theorem mirrors_catching
    {recover : PyException → α} {recover' : PyStr → α} {d : Session α} {r : Except PyStr α}
    (hd : Mirrors (d.answered oracle) r)
    (hrecover : ∀ exc, recover exc = recover' (classOf exc)) :
    Mirrors ((catching recover d).answered oracle) (recovered recover' r) := by
  rw [catching, answered_except]
  cases hans : d.answered oracle with
  | ok a =>
      rw [hans] at hd
      obtain rfl : r = .ok a := hd
      rfl
  | error exc =>
      rw [hans] at hd
      by_cases hexc : Ordinary exc
      · rw [hd hexc]
        simp only [if_pos hexc, answered_pure, recovered, ← hrecover]
        rfl
      · simp only [if_neg hexc]
        exact fun h => absurd h hexc

theorem mirrors_answer (answer : Except PyException α) :
    Mirrors answer (answer.mapError classOf) := by
  cases answer with
  | ok a => rfl
  | error exc => exact fun _ => rfl

theorem mirrors_query (q : Request) :
    Mirrors ((query q : Session q.Answer).answered oracle) ((oracle q).mapError classOf) :=
  mirrors_answer (oracle q)

/-- A part with a default for an exception. -/
theorem mirrors_rescued
    {default value : α} {d : Session α} {r : Except PyStr α}
    (hd : Mirrors (d.answered oracle) r) (hvalue : recovered (fun _ => default) r = .ok value) :
    Mirrors ((rescued default d).answered oracle) (.ok value) := by
  rw [← hvalue]
  exact mirrors_catching hd fun _ => rfl

/-- One request whose answer is read, with a default for an exception. -/
theorem mirrors_rescued_read
    {default value : α} {q : Request} {read : q.Answer → α}
    (hok : ∀ a, oracle q = .ok a → read a = value)
    (herror : ∀ exc, oracle q = .error exc → default = value) :
    Mirrors ((rescued default (query q >>= fun a => pure (read a))).answered oracle)
      (.ok value) := by
  refine mirrors_rescued (Mirrors.bind (mirrors_query q) fun a => mirrors_pure (read a))
    ?_
  cases hans : oracle q with
  | ok a => exact congrArg Except.ok (hok a hans)
  | error exc => exact congrArg Except.ok (herror exc hans)

end Outcomes

section Requests

variable (oracle : Oracle)

@[simp] theorem executeMqsc_connectorOf (command : PyStr) :
    (connectorOf oracle).executeMqsc command = (oracle (.mqsc command)).mapError classOf := by
  rfl

@[simp] theorem browseDlq_connectorOf (queueName : PyStr) (maxMessages : Int) :
    (connectorOf oracle).browseDlq queueName maxMessages =
      (oracle (.browse queueName maxMessages)).mapError classOf := by
  rfl

@[simp] theorem executeShell_connectorOf (argv : List PyStr) :
    (connectorOf oracle).executeShell argv = (oracle (.shell argv)).mapError classOf := by
  rfl

theorem mirrors_safeRows (command : String) :
    Mirrors ((safeRows command).answered oracle)
      (.ok (Health.safeRows (connectorOf oracle).toConnector (lit command))) := by
  refine mirrors_rescued_read (q := .mqsc (lit command)) (fun result h => ?_) fun exc h => ?_
  · simp [Health.safeRows, h, Except.mapError]
  · simp [Health.safeRows, h, Except.mapError]

theorem mirrors_safeRaw (command : String) :
    Mirrors ((safeRaw command).answered oracle)
      (.ok (Health.safeRaw (connectorOf oracle).toConnector (lit command))) := by
  refine mirrors_rescued_read (q := .mqsc (lit command)) (fun result h => ?_) fun exc h => ?_
  · simp [Health.safeRaw, h, Except.mapError]
  · simp [Health.safeRaw, h, Except.mapError]

theorem mirrors_safeAttr (command attr : String) :
    Mirrors ((safeAttr command attr).answered oracle)
      (.ok (Health.safeAttr (connectorOf oracle).toConnector (lit command) attr)) := by
  refine mirrors_rescued_read (q := .mqsc (lit command)) (fun result h => ?_) fun exc h => ?_
  · simp [Health.safeAttr, h, Except.mapError]
  · simp [Health.safeAttr, h, Except.mapError]

theorem mirrors_readErrorLogTail :
    Mirrors (readErrorLogTail.answered oracle)
      (.ok (Health.readErrorLogTail (connectorOf oracle).toConnector)) := by
  refine mirrors_rescued_read (q := .mqsc (lit "DISPLAY QMSTATUS")) (fun result h => ?_)
    fun exc h => ?_
  · simp [Health.readErrorLogTail, h, Except.mapError]
  · simp [Health.readErrorLogTail, h, Except.mapError]

theorem mirrors_resolveDlqName :
    Mirrors (resolveDlqName.answered oracle)
      (.ok (Health.resolveDlqName (connectorOf oracle).toConnector)) := by
  refine mirrors_rescued_read (q := .mqsc (lit "DISPLAY QMGR DEADQ")) (fun result h => ?_)
    fun exc h => ?_
  · cases hfind : result.rows.find? fun row => (row.get "DEADQ").truthy with
    | none => simp [Health.resolveDlqName, h, Except.mapError, hfind]
    | some row => simp [Health.resolveDlqName, h, Except.mapError, hfind]
  · simp [Health.resolveDlqName, h, Except.mapError]

theorem mirrors_safeShell (argv : List String) :
    Mirrors ((safeShell argv).answered oracle)
      (.ok (MqSentinel.Miqm.safeShell (connectorOf oracle) (argv.map lit))) := by
  refine mirrors_rescued (mirrors_answer (oracle (.shell (argv.map lit)))) ?_
  rw [MqSentinel.Miqm.safeShell, executeShell_connectorOf]
  cases oracle (.shell (argv.map lit)) with
  | ok out => rfl
  | error exc => rfl

variable (U : UnicodeData) (isdigit : CodePoint → Bool) (invalidLiteral : PyStr)

theorem mirrors_shellIndicatesRdqm :
    Mirrors ((shellIndicatesRdqm U).answered oracle)
      (.ok (Detect.shellIndicatesRdqm U (connectorOf oracle))) := by
  refine mirrors_rescued_read (q := .shell [lit "rdqmstatus"]) (fun out h => ?_) fun exc h => ?_
  · simp [Detect.shellIndicatesRdqm, h, Except.mapError]
  · simp [Detect.shellIndicatesRdqm, h, Except.mapError]

theorem mirrors_dspmqIndicatesStandby :
    Mirrors ((dspmqIndicatesStandby U).answered oracle)
      (.ok (Detect.dspmqIndicatesStandby U (connectorOf oracle))) := by
  refine mirrors_rescued_read (q := .shell [lit "dspmq", lit "-o", lit "standby"])
    (fun out h => ?_) fun exc h => ?_
  · simp [Detect.dspmqIndicatesStandby, h, Except.mapError]
  · simp [Detect.dspmqIndicatesStandby, h, Except.mapError]

/-- What a list of calls raises, one of them has raised. -/
theorem exists_error_of_mapM
    {α β ε : Type} {f : α → Except ε β} {xs : List α} {e : ε} (h : xs.mapM f = .error e) :
    ∃ x ∈ xs, f x = .error e := by
  induction xs with
  | nil =>
      cases h
  | cons x xs ih =>
      rw [List.mapM_cons] at h
      cases hx : f x with
      | error e' =>
          rw [hx] at h
          cases h
          exact ⟨x, List.mem_cons_self, hx⟩
      | ok y =>
          cases hxs : xs.mapM f with
          | error e' =>
              rw [hx, hxs] at h
              cases h
              obtain ⟨x', hx', hraised⟩ := ih hxs
              exact ⟨x', List.mem_cons_of_mem _ hx', hraised⟩
          | ok ys =>
              rw [hx, hxs] at h
              cases h

/-- The version that is normalised, or its `ValueError`. -/
theorem mirrors_normalizeMqVersion (reported : Option PyStr) :
    Mirrors ((orValueError invalidLiteral
        (Detect.normalizeMqVersion U isdigit reported).toOption).answered oracle)
      (Detect.normalizeMqVersion U isdigit reported) := by
  cases h : Detect.normalizeMqVersion U isdigit reported with
  | ok version =>
      rfl
  | error exc =>
      have hclass : exc = lit "ValueError" := by
        unfold Detect.normalizeMqVersion at h
        split at h
        · cases h
        · next v =>
            split_ifs at h
            cases hfields : [0, 2, 4, 6].mapM (Detect.versionField U v) with
            | ok fields =>
                rw [hfields] at h
                cases h
            | error e =>
                rw [hfields] at h
                cases h
                obtain ⟨i, -, hfield⟩ := exists_error_of_mapM hfields
                unfold Detect.versionField at hfield
                split at hfield
                · cases hfield
                  rfl
                · cases hfield
      rw [hclass]
      exact fun _ => rfl

/-- Detection has the outcome of `detect` on the same answers. -/
theorem mirrors_detect :
    Mirrors ((detect U isdigit invalidLiteral).answered oracle)
      (Detect.detect U isdigit (connectorOf oracle)) := by
  refine Mirrors.bind_ok (mirrors_safeAttr oracle "DISPLAY QMGR VERSION" "VERSION") ?_
  refine Mirrors.bind (mirrors_normalizeMqVersion oracle U isdigit invalidLiteral _)
    fun version => ?_
  refine Mirrors.bind_ok (mirrors_safeAttr oracle "DISPLAY QMGR PLATFORM" "PLATFORM") ?_
  refine Mirrors.bind_ok (mirrors_safeRaw oracle "DISPLAY QMSTATUS") ?_
  refine Mirrors.bind_ok (mirrors_shellIndicatesRdqm oracle U) ?_
  refine Mirrors.bind_ok (mirrors_dspmqIndicatesStandby oracle U) ?_
  refine Mirrors.bind_ok (mirrors_safeRaw oracle "DISPLAY CLUSQMGR(*) CLUSTER") ?_
  exact mirrors_pure _

variable (registry : KCRegistry) (mqVersion : Option PyStr)

theorem mirrors_runChannelChecks (order : SetOrder) :
    Mirrors ((runChannelChecks U registry mqVersion order).answered oracle)
      (.ok (Health.runChannelChecks U registry mqVersion order
        (connectorOf oracle).toConnector)) := by
  refine Mirrors.bind_ok (mirrors_safeRows oracle "DISPLAY CHSTATUS(*) ALL") ?_
  exact Mirrors.bind_ok (mirrors_readErrorLogTail oracle) (mirrors_pure _)

/-- What `run_dlq_checks` makes of a browse, on a connector without a state. -/
def outcomeOfBrowse (browse : Dlq.BrowseResult) : Health.CheckOutcome :=
  match DeadLetter.matchDlqFindings U registry mqVersion (Health.browseDict browse) with
  | none => .error (lit "ValueError")
  | some findings =>
      .ok (findings, OrderedDict.ofList
        [ (lit "dlq_name", .str browse.queueName),
          (lit "queue_depth", .int browse.queueDepth),
          (lit "sample_size", .int browse.sampleSize),
          (lit "bodies_read", .bool false) ])

theorem mirrors_dlqReport (browse : Dlq.BrowseResult) :
    Mirrors ((dlqReport U invalidLiteral registry mqVersion browse).answered oracle)
      (outcomeOfBrowse U registry mqVersion browse) := by
  unfold dlqReport outcomeOfBrowse
  cases DeadLetter.matchDlqFindings U registry mqVersion (Health.browseDict browse) with
  | none => exact fun _ => rfl
  | some findings => rfl

theorem mirrors_runDlqChecks (sampleSize : Int) :
    Mirrors ((runDlqChecks U invalidLiteral registry mqVersion sampleSize).answered oracle)
      (Health.runDlqChecks U registry mqVersion (connectorOf oracle).toConnector
        sampleSize) := by
  unfold runDlqChecks Health.runDlqChecks
  split_ifs with hsample
  · exact fun _ => rfl
  · refine Mirrors.bind_ok (mirrors_resolveDlqName oracle) ?_
    refine (congrArg (Mirrors _) ?_).mp (Mirrors.bind (mirrors_query
      (.browse (Health.resolveDlqName (connectorOf oracle).toConnector) sampleSize))
      (mirrors_dlqReport oracle U invalidLiteral registry mqVersion))
    rw [browseDlq_connectorOf]
    cases oracle (.browse (Health.resolveDlqName (connectorOf oracle).toConnector)
        sampleSize) with
    | error exc => rfl
    | ok browse => rfl

theorem mirrors_runClusterChecks (clock : Cluster.Clock) (fallbackQmName : PyStr) :
    Mirrors ((runClusterChecks U registry mqVersion clock fallbackQmName).answered oracle)
      (.ok (Health.runClusterChecks U registry mqVersion clock
        (connectorOf oracle).toConnector fallbackQmName)) := by
  refine Mirrors.bind_ok (mirrors_safeRows oracle "DISPLAY CLUSQMGR(*) ALL") ?_
  refine Mirrors.bind_ok (mirrors_safeRaw oracle "DISPLAY QMGR REPOS REPOSNL") ?_
  exact Mirrors.bind_ok (mirrors_safeAttr oracle "DISPLAY QMGR QMNAME" "QMNAME")
    (mirrors_pure _)

theorem mirrors_runNativeHaChecks :
    Mirrors ((runNativeHaChecks U invalidLiteral registry mqVersion).answered oracle)
      (match MqSentinel.NativeHa.runNativeHaChecks U registry mqVersion
          (connectorOf oracle).toConnector with
        | none => .error (lit "ValueError")
        | some result => .ok (result.findings, result.rawEvidence)) := by
  refine Mirrors.bind_ok (mirrors_safeRows oracle "DISPLAY NATIVEHASTATUS") ?_
  refine Mirrors.bind_ok (mirrors_safeRaw oracle "DISPLAY QMSTATUS RECOVERYGROUP") ?_
  unfold MqSentinel.NativeHa.runNativeHaChecks MqSentinel.NativeHa.instances
    MqSentinel.NativeHa.rgRaw
  generalize Health.safeRows (connectorOf oracle).toConnector (lit "DISPLAY NATIVEHASTATUS") =
    rows
  generalize Health.safeRaw (connectorOf oracle).toConnector
    (lit "DISPLAY QMSTATUS RECOVERYGROUP") = rgRaw
  cases MqSentinel.NativeHa.parseCrr U rgRaw with
  | none =>
      exact fun _ => rfl
  | some crr =>
      refine Mirrors.bind_ok (mirrors_pure crr) ?_
      cases hfindings : NativeHa.matchNativeHaFindings U registry mqVersion
          (MqSentinel.NativeHa.rawData rows crr) with
      | none =>
          simp only [Option.bind_eq_bind, Option.bind_some, hfindings, Option.bind_none]
          exact fun _ => rfl
      | some findings =>
          refine Mirrors.bind_ok (mirrors_pure findings) ?_
          simp only [Option.bind_eq_bind, Option.bind_some, hfindings]
          cases MqSentinel.NativeHa.crrLagSeconds U crr with
          | none => exact fun _ => rfl
          | some lag => exact mirrors_pure _

theorem mirrors_runRdqmChecks (qmName : PyStr) :
    Mirrors ((runRdqmChecks U registry mqVersion qmName).answered oracle)
      (.ok ((MqSentinel.Rdqm.runRdqmChecks U registry mqVersion (connectorOf oracle)
          qmName).findings,
        (MqSentinel.Rdqm.runRdqmChecks U registry mqVersion (connectorOf oracle)
          qmName).rawEvidence)) := by
  refine Mirrors.bind_ok (mirrors_safeShell oracle ["rdqmstatus"]) ?_
  refine Mirrors.bind_ok (mirrors_safeShell oracle ["crm_mon", "-1"]) ?_
  exact Mirrors.bind_ok (mirrors_safeShell oracle ["drbdadm", "status"]) (mirrors_pure _)

theorem mirrors_runZosChecks :
    Mirrors ((runZosChecks U registry mqVersion).answered oracle)
      (.ok ((MqSentinel.Zos.runZosChecks U registry mqVersion
          (connectorOf oracle).toConnector).findings,
        (MqSentinel.Zos.runZosChecks U registry mqVersion
          (connectorOf oracle).toConnector).rawEvidence)) := by
  refine Mirrors.bind_ok (mirrors_safeRows oracle "DISPLAY GROUP") ?_
  refine Mirrors.bind_ok (mirrors_safeRows oracle "DISPLAY QMSTATUS CHINIT") ?_
  refine Mirrors.bind_ok (mirrors_safeRows oracle "DISPLAY USAGE PSID(*)") ?_
  refine Mirrors.bind_ok (mirrors_safeRows oracle "DISPLAY USAGE BUFFPOOL(*)") ?_
  exact Mirrors.bind_ok (mirrors_safeRows oracle "DISPLAY CFSTATUS(*) ALL") (mirrors_pure _)

theorem mirrors_runMiqmChecks :
    Mirrors ((runMiqmChecks U registry mqVersion).answered oracle)
      (.ok ((MqSentinel.Miqm.runMiqmChecks U registry mqVersion
          (connectorOf oracle)).findings,
        (MqSentinel.Miqm.runMiqmChecks U registry mqVersion
          (connectorOf oracle)).rawEvidence)) := by
  refine Mirrors.bind_ok (mirrors_safeShell oracle ["dspmq", "-x"]) ?_
  refine Mirrors.bind_ok (mirrors_safeShell oracle ["dspmq", "-o", "standby"]) ?_
  exact Mirrors.bind_ok (mirrors_safeRaw oracle "DISPLAY QMSTATUS") (mirrors_pure _)

/-- A check whose exceptions are kept by their class. -/
theorem mirrors_attempted
    {d : Session (List RCSFinding × Evidence)} {r : Health.CheckOutcome}
    (hd : Mirrors (d.answered oracle) r) :
    Mirrors ((attempted d).answered oracle) (.ok r) := by
  have hcatching : Mirrors ((attempted d).answered oracle)
      (recovered Except.error
        (r >>= fun result => (.ok (.ok result) : Except PyStr Health.CheckOutcome))) :=
    mirrors_catching (hd.bind fun result => mirrors_pure (Except.ok result)) fun _ => rfl
  cases r with
  | ok result => exact hcatching
  | error exc => exact hcatching

theorem mirrors_reported
    {d : Session (List RCSFinding × Evidence)} {r : Health.CheckOutcome}
    (hd : Mirrors (d.answered oracle) r) :
    Mirrors ((reported d).answered oracle)
      (r >>= fun result => .ok (.report result.1 result.2)) :=
  hd.bind fun _ => mirrors_pure _

/-- What the checks of a tool give on a connector without a state. -/
def checksOn (order : SetOrder) (clock : Cluster.Clock) (qmName : PyStr) (sample : Int)
    (connector : MqSentinel.Miqm.Connector) : Diagnostic → Except PyStr Collected
  | .channels =>
      let result := Health.runChannelChecks U registry mqVersion order connector.toConnector
      .ok (.report result.1 result.2)
  | .dlq => do
      let result ← Health.runDlqChecks U registry mqVersion connector.toConnector sample
      return .report result.1 result.2
  | .cluster =>
      let result := Health.runClusterChecks U registry mqVersion clock connector.toConnector
        qmName
      .ok (.report result.1 result.2)
  | .healthCheck =>
      .ok (.outcomes (Health.outcomes U registry mqVersion order clock connector.toConnector
        qmName sample))
  | .nativeHa =>
      match MqSentinel.NativeHa.runNativeHaChecks U registry mqVersion
          connector.toConnector with
      | none => .error (lit "ValueError")
      | some result => .ok (.report result.findings result.rawEvidence)
  | .rdqm =>
      let result := MqSentinel.Rdqm.runRdqmChecks U registry mqVersion connector qmName
      .ok (.report result.findings result.rawEvidence)
  | .zos =>
      let result := MqSentinel.Zos.runZosChecks U registry mqVersion connector.toConnector
      .ok (.report result.findings result.rawEvidence)
  | .miqm =>
      let result := MqSentinel.Miqm.runMiqmChecks U registry mqVersion connector
      .ok (.report result.findings result.rawEvidence)

theorem mirrors_checks
    (order : SetOrder) (clock : Cluster.Clock) (qmName : PyStr) (sample : Int)
    (d : Diagnostic) :
    Mirrors
      ((checks U invalidLiteral registry mqVersion order clock qmName sample d).answered oracle)
      (checksOn U registry mqVersion order clock qmName sample (connectorOf oracle) d) := by
  have hchannels := mirrors_runChannelChecks oracle U registry mqVersion order
  have hdlq := mirrors_runDlqChecks oracle U invalidLiteral registry mqVersion sample
  have hcluster := mirrors_runClusterChecks oracle U registry mqVersion clock qmName
  cases d with
  | channels =>
      exact mirrors_reported oracle hchannels
  | dlq =>
      exact mirrors_reported oracle hdlq
  | cluster =>
      exact mirrors_reported oracle hcluster
  | healthCheck =>
      refine Mirrors.bind_ok (mirrors_attempted oracle hchannels) ?_
      refine Mirrors.bind_ok (mirrors_attempted oracle hdlq) ?_
      exact Mirrors.bind_ok (mirrors_attempted oracle hcluster) (mirrors_pure _)
  | nativeHa =>
      have hreported := mirrors_reported oracle
        (mirrors_runNativeHaChecks oracle U invalidLiteral registry mqVersion)
      refine (congrArg (Mirrors _) ?_).mp hreported
      rw [checksOn]
      cases MqSentinel.NativeHa.runNativeHaChecks U registry mqVersion
          (connectorOf oracle).toConnector with
      | none => rfl
      | some result => rfl
  | rdqm =>
      exact mirrors_reported oracle (mirrors_runRdqmChecks oracle U registry mqVersion qmName)
  | zos =>
      exact mirrors_reported oracle (mirrors_runZosChecks oracle U registry mqVersion)
  | miqm =>
      exact mirrors_reported oracle (mirrors_runMiqmChecks oracle U registry mqVersion)

end Requests

section Refinement

variable (U : UnicodeData) (isdigit : CodePoint → Bool) (invalidLiteral : PyStr)
variable (registry : KCRegistry)

theorem nodup_detectionPlan : detectionPlan.Nodup := by
  decide +kernel

theorem nodup_checkPlan (sample : Int) (dlqName : PyStr) (d : Diagnostic) :
    (checkPlan sample dlqName d).Nodup := by
  cases d with
  | dlq =>
      simp only [checkPlan, dlqPlan]
      split_ifs
      · exact List.nodup_nil
      · simp [mqsc]
  | healthCheck =>
      simp only [checkPlan, dlqPlan]
      split_ifs
      · decide +kernel
      · have hfixed : (channelsPlan ++ mqsc "DISPLAY QMGR DEADQ" :: clusterPlan).Nodup := by
          decide +kernel
        have hbrowse : Request.browse dlqName sample ∉
            channelsPlan ++ mqsc "DISPLAY QMGR DEADQ" :: clusterPlan := by
          simp [channelsPlan, clusterPlan, mqsc]
        have hperm : ((channelsPlan ++ [mqsc "DISPLAY QMGR DEADQ"]) ++
            Request.browse dlqName sample :: clusterPlan).Perm
            (Request.browse dlqName sample ::
              ((channelsPlan ++ [mqsc "DISPLAY QMGR DEADQ"]) ++ clusterPlan)) :=
          List.perm_middle
        simp only [List.append_assoc, List.singleton_append] at hperm
        exact hperm.nodup_iff.mpr (List.nodup_cons.mpr ⟨hbrowse, hfixed⟩)
  | channels | cluster | nativeHa | rdqm | zos | miqm =>
      simp only [checkPlan]
      decide +kernel

/-- The outcome of a part that asks nothing twice, on the answers that were heard. -/
theorem mirrors_of_goes
    {α : Type} {d : Session α} {t : List (Exchange PyException Request.Answer)}
    {r : Except PyException α} {r' : Oracle → Except PyStr α} (oracle : Oracle)
    (h : Goes d t r) (hnodup : (questions t).Nodup)
    (hmirrors : ∀ oracle, Mirrors (d.answered oracle) (r' oracle)) :
    Mirrors r (r' (heard oracle t)) := by
  have hanswered := hmirrors (heard oracle t)
  rwa [result_eq_answered_heard oracle h hnodup] at hanswered

/--
A run of a tool on a connector that may answer differently every time has the outcome of
detection and checks on two connectors without a state: the answers that its first half
heard, and those that its second half heard.
-/
theorem session_refines_checks
    {σ : Type} (connector : (q : Request) → σ → Except PyException q.Answer × σ) (s : σ)
    (order : SetOrder) (clock : Cluster.Clock) (d : Diagnostic) (qmName : PyStr)
    (sample : Int) (unheard : Oracle) :
    let o := (session U isdigit invalidLiteral registry order clock d qmName sample).run
      connector s
    ∃ t₁ t₂, o.events = t₁ ++ t₂ ∧
      Mirrors o.result (do
        let topology ← Detect.detect U isdigit (connectorOf (heard unheard t₁))
        let collected ← checksOn U registry topology.mqVersion order clock qmName sample
          (connectorOf (heard unheard t₂)) d
        return (topology, collected)) := by
  intro o
  have hgoes := goes_run connector
    (session U isdigit invalidLiteral registry order clock d qmName sample) s
  have hdetect (t : List (Exchange PyException Request.Answer))
      (r : Except PyException TopologyFingerprint)
      (h : Goes (detect U isdigit invalidLiteral) t r) :
      Mirrors r (Detect.detect U isdigit (connectorOf (heard unheard t))) := by
    obtain ⟨plan, rfl, hfront, -⟩ := asks_detect U isdigit invalidLiteral t r h
    exact mirrors_of_goes unheard h (nodup_detectionPlan.sublist hfront.sublist)
      fun oracle => mirrors_detect oracle U isdigit invalidLiteral
  rcases goes_bind_iff.mp hgoes with ⟨exc, h, hr⟩ | ⟨t₁, t₂, topology, h₁, h₂, ht⟩
  · refine ⟨o.events, [], (List.append_nil _).symm, ?_⟩
    rw [show o.result = .error exc from hr]
    intro hexc
    rw [hdetect _ _ h hexc]
    rfl
  · refine ⟨t₁, t₂, ht, ?_⟩
    rw [show Detect.detect U isdigit (connectorOf (heard unheard t₁)) = .ok topology from
      hdetect _ _ h₁]
    obtain ⟨plan, ⟨dlqName, rfl⟩, hfront, -⟩ :=
      (asks_checks U invalidLiteral registry topology.mqVersion order clock qmName sample
        d).bind_silent (fun collected => asks_done (.ok (topology, collected))) _ _ h₂
    exact mirrors_of_goes unheard h₂
      ((nodup_checkPlan sample dlqName d).sublist hfront.sublist) fun oracle =>
        (mirrors_checks oracle U invalidLiteral registry topology.mqVersion order clock qmName
          sample d).bind fun collected => mirrors_pure (topology, collected)

end Refinement

end Sessions
end MqSentinel
