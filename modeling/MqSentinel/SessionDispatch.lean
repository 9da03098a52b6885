import MqSentinel.ConnectorSessions
import MqSentinel.DispatchMediation
import MqSentinel.InventorySecrecy

/-!
# What a dispatched call sends

The dispatcher over connectors that are spoken to in sessions: `detect` and the checks of
a tool run on the link of the connector that `openQm` has made, and every request of
theirs is kept in the world, in order.

A call sends nothing, or it sends the plan of the tool it names, or a front of it, for a
caller who has passed the guard (`dispatch_sends`).
-/

namespace MqSentinel
namespace Sessions

open Dialogues Dialogues.Dialogue Effects Effects.Prog Server Rcs Rbac
open Detect (TopologyFingerprint)

/-- The outer world, and the requests that have been sent. -/
structure Wire (ω : Type) where
  world : ω
  sent : List Request

/-- A connector, as a session meets it. -/
abbrev Link (ω : Type) := (q : Request) → ω → Except PyException q.Answer × ω

section Wire

variable {ω ρ κ χ : Type}

/-- A call that sends nothing. -/
def aside {α : Type} (f : Call ω α) : Call (Wire ω) α :=
  fun w => ((f w.world).1, { w with world := (f w.world).2 })

/-- A session on a link. -/
def talk {α : Type} (link : Link ω) (d : Session α) : Call (Wire ω) α :=
  fun w =>
    let o := d.run link w.world
    (o.result, ⟨o.state, w.sent ++ questions o.events⟩)

/-- The choices that the checks depend on beside their connector. -/
structure Setting (ω : Type) where
  unicode : UnicodeData
  isdigit : CodePoint → Bool
  /-- The text of the `ValueError` of `int`. -/
  invalidLiteral : PyStr
  registry : KCRegistry
  order : SetOrder
  /-- `datetime.now(UTC)` -/
  clock : ω → Cluster.Clock

/-- The checks of a tool on a link; 50 stands for a sample size that is not given. -/
def checksOver (setting : Setting ω) (link : Link ω) (d : Diagnostic)
    (topology : TopologyFingerprint) (qmName : PyStr) (sample : Option Int) :
    Call (Wire ω) Collected :=
  fun w =>
    talk link (checks setting.unicode setting.invalidLiteral setting.registry
      topology.mqVersion setting.order (setting.clock w.world) qmName (sample.getD 50) d) w

/-- The checks, and what the tool makes of them before its `with` block is over. -/
def reportOver (setting : Setting ω) (link : Link ω)
    (render : Diagnostic → TopologyFingerprint → PyStr → Collected → Call ω Json)
    (d : Diagnostic) (topology : TopologyFingerprint) (qmName : PyStr) (sample : Option Int) :
    Call (Wire ω) Json :=
  fun w =>
    match checksOver setting link d topology qmName sample w with
    | (.error exc, w) => (.error exc, w)
    | (.ok collected, w) => aside (render d topology qmName collected) w

/--
The surroundings of a server whose connectors are the links of `link`; `render` is what a
tool makes of what it has collected.
-/
def sessionEnv (env : Env ω ρ κ χ TopologyFingerprint) (setting : Setting ω)
    (link : κ → Link ω)
    (render : Diagnostic → TopologyFingerprint → PyStr → Collected → Call ω Json) :
    Env (Wire ω) ρ κ χ TopologyFingerprint where
  version := env.version
  environment := env.environment
  connectorMode := env.connectorMode
  repr := env.repr
  sanitize := env.sanitize
  verify token := aside (env.verify token)
  allow subject w limiter := env.allow subject w.world limiter
  inventory :=
    { get := fun qmName => aside (env.inventory.get qmName)
      listAll := aside env.inventory.listAll }
  resolve secretRef := aside (env.resolve secretRef)
  connectorFactory := aside env.connectorFactory
  connect connector entry credential := aside (env.connect connector entry credential)
  detect connector :=
    talk (link connector) (detect setting.unicode setting.isdigit setting.invalidLiteral)
  disconnect connector := aside (env.disconnect connector)
  checks d connector := reportOver setting (link connector) render d
  healthReport qmName collected := aside (env.healthReport qmName collected)
  isoNow w := env.isoNow w.world
  elapsedMs w w' := env.elapsedMs w.world w'.world
  orjson := env.orjson
  encodeError := env.encodeError
  hexdigest := env.hexdigest

end Wire

section Sending

variable {ω ρ α β : Type}

/-- What a part of the server has sent, behind what had been sent before. -/
def Sends (plans : Language Request) (x : Tool (Wire ω) ρ α) : Prop :=
  ∀ s, ∃ l, (x s).state.world.sent = s.world.sent ++ l ∧ (l = [] ∨ ∃ plan ∈ plans, l <+: plan)

/-- A part of the server that sends nothing. -/
def Quiet (x : Tool (Wire ω) ρ α) : Prop :=
  ∀ s, (x s).state.world.sent = s.world.sent

/-- Something is sent only where something guarded is seen. -/
def SendsGuarded (plans : Language Request) (x : Tool (Wire ω) ρ α) : Prop :=
  ∀ s, ∃ l, (x s).state.world.sent = s.world.sent ++ l ∧
    (l = [] ∨ (∃ e ∈ (x s).events, e.guarded = true) ∧ ∃ plan ∈ plans, l <+: plan)

variable {plans : Language Request}

theorem quiet_ret
    (a : α) :
    Quiet (ret a : Tool (Wire ω) ρ α) :=
  fun _ => rfl

theorem quiet_raise
    (exc : PyException) :
    Quiet (raise exc : Tool (Wire ω) ρ α) :=
  fun _ => rfl

theorem quiet_emit
    (e : Effect) :
    Quiet (emit e : Tool (Wire ω) ρ PUnit) :=
  fun _ => rfl

theorem quiet_aside
    (f : Call ω α) :
    Quiet (call (aside f) : Tool (Wire ω) ρ α) :=
  fun _ => rfl

theorem Quiet.bind
    {x : Tool (Wire ω) ρ α} {f : α → Tool (Wire ω) ρ β} (hx : Quiet x)
    (hf : ∀ a, Quiet (f a)) :
    Quiet (x >>= f) := by
  intro s
  cases hr : (x s).result with
  | ok a =>
      rw [bind_of_ok hr, after_state, hf a]
      exact hx s
  | error exc =>
      rw [bind_of_error hr]
      exact hx s

theorem Quiet.except
    {x : Tool (Wire ω) ρ α} {handler : PyException → Tool (Wire ω) ρ α} (hx : Quiet x)
    (hh : ∀ exc, Quiet (handler exc)) :
    Quiet (x.except handler) := by
  intro s
  unfold Prog.except
  split
  · exact hx s
  · next exc _ =>
      rw [after_state, hh exc]
      exact hx s

theorem Quiet.sendsGuarded
    {x : Tool (Wire ω) ρ α} (hx : Quiet x) :
    SendsGuarded plans x := by
  intro s
  exact ⟨[], (hx s).trans (List.append_nil _).symm, Or.inl rfl⟩

/-- What is sent behind a quiet part. -/
theorem Quiet.bind_sends
    {x : Tool (Wire ω) ρ α} {f : α → Tool (Wire ω) ρ β} (hx : Quiet x)
    (hf : ∀ a, Sends plans (f a)) :
    Sends plans (x >>= f) := by
  intro s
  cases hr : (x s).result with
  | ok a =>
      obtain ⟨l, hl, hplan⟩ := hf a (x s).state
      refine ⟨l, ?_, hplan⟩
      rw [bind_of_ok hr, after_state, hl, hx s]
  | error exc =>
      refine ⟨[], ?_, Or.inl rfl⟩
      rw [bind_of_error hr, List.append_nil]
      exact hx s

theorem Quiet.bind_sendsGuarded
    {x : Tool (Wire ω) ρ α} {f : α → Tool (Wire ω) ρ β} (hx : Quiet x)
    (hf : ∀ a, SendsGuarded plans (f a)) :
    SendsGuarded plans (x >>= f) := by
  intro s
  cases hr : (x s).result with
  | ok a =>
      obtain ⟨l, hl, hplan⟩ := hf a (x s).state
      refine ⟨l, ?_, hplan.imp_right fun ⟨⟨e, he, hguarded⟩, hplan⟩ => ⟨⟨e, ?_, hguarded⟩, hplan⟩⟩
      · rw [bind_of_ok hr, after_state, hl, hx s]
      · rw [bind_of_ok hr, after_events]
        exact List.mem_append_right _ he
  | error exc =>
      refine ⟨[], ?_, Or.inl rfl⟩
      rw [bind_of_error hr, List.append_nil]
      exact hx s

/-- What is sent once something guarded has been seen. -/
theorem sendsGuarded_emit_bind
    {e : Effect} (hguarded : e.guarded = true) {f : PUnit → Tool (Wire ω) ρ β}
    (hf : ∀ a, Sends plans (f a)) :
    SendsGuarded plans (emit e >>= f) := by
  intro s
  obtain ⟨l, hl, hplan⟩ := hf ⟨⟩ s
  refine ⟨l, hl, hplan.imp_right fun hplan => ⟨⟨e, ?_, hguarded⟩, hplan⟩⟩
  exact List.mem_cons_self

theorem SendsGuarded.bind_quiet
    {x : Tool (Wire ω) ρ α} {f : α → Tool (Wire ω) ρ β} (hx : SendsGuarded plans x)
    (hf : ∀ a, Quiet (f a)) :
    SendsGuarded plans (x >>= f) := by
  intro s
  obtain ⟨l, hl, hplan⟩ := hx s
  cases hr : (x s).result with
  | ok a =>
      refine ⟨l, ?_, hplan.imp_right fun ⟨⟨e, he, hguarded⟩, hplan⟩ => ⟨⟨e, ?_, hguarded⟩, hplan⟩⟩
      · rw [bind_of_ok hr, after_state, hf a, hl]
      · rw [bind_of_ok hr, after_events]
        exact List.mem_append_left _ he
  | error exc =>
      rw [bind_of_error hr]
      exact ⟨l, hl, hplan⟩

theorem SendsGuarded.mono
    {plans' : Language Request} {x : Tool (Wire ω) ρ α} (hx : SendsGuarded plans x)
    (hle : plans ≤ plans') :
    SendsGuarded plans' x := by
  intro s
  obtain ⟨l, hl, hplan⟩ := hx s
  exact ⟨l, hl, hplan.imp_right fun ⟨he, plan, hplan, hfront⟩ =>
    ⟨he, plan, hle hplan, hfront⟩⟩

theorem Sends.finallyDo
    {x : Tool (Wire ω) ρ α} {fin : Tool (Wire ω) ρ PUnit} (hx : Sends plans x)
    (hfin : Quiet fin) :
    Sends plans (x.finallyDo fin) := by
  intro s
  obtain ⟨l, hl, hplan⟩ := hx s
  refine ⟨l, ?_, hplan⟩
  rw [finallyDo_state, hfin, hl]

end Sending

section Tools

variable {ω ρ κ χ : Type} (env : Env ω ρ κ χ TopologyFingerprint) (setting : Setting ω)
variable (link : κ → Link ω)
variable (render : Diagnostic → TopologyFingerprint → PyStr → Collected → Call ω Json)
variable (inv : InMemoryInventory)

/-- The plans of a tool. -/
def toolPlans (sample : Int) (d : Diagnostic) : Language Request :=
  {plan | ∃ dlqName, plan = detectionPlan ++ checkPlan sample dlqName d}

/-- The surroundings over the given inventory. -/
abbrev served : Env (Wire ω) ρ κ χ TopologyFingerprint :=
  withInventory (sessionEnv env setting link render) inv

/-- The checks send what their session asks. -/
theorem sent_reportOver
    (link : Link ω) (d : Diagnostic) (topology : TopologyFingerprint) (qmName : PyStr)
    (sample : Option Int) (w : Wire ω) :
    (reportOver setting link render d topology qmName sample w).2.sent =
      (checksOver setting link d topology qmName sample w).2.sent := by
  unfold reportOver
  split
  · next h => rw [h]
  · next h => rw [h, aside]

/-- The body of a `with` block sends the plan of its tool, or a front of it. -/
theorem sends_body
    (d : Diagnostic) (connector : κ) (qmName : PyStr) (sample : Option Int) :
    Sends (toolPlans (sample.getD 50) d) (do
      let fingerprint ← call ((served env setting link render inv).detect connector)
      call ((served env setting link render inv).checks d connector fingerprint qmName
        sample) : Tool (Wire ω) ρ Json) := by
  intro s
  have hgoes := goes_run (link connector)
    (detect setting.unicode setting.isdigit setting.invalidLiteral) s.world.world
  obtain ⟨plan, rfl, hfront, hall⟩ := asks_detect _ _ _ _ _ hgoes
  cases hr : (call ((served env setting link render inv).detect connector) s).result with
  | error exc =>
      rw [bind_of_error hr]
      exact ⟨_, rfl, Or.inr ⟨_, ⟨[], rfl⟩, hfront.trans (List.prefix_append _ _)⟩⟩
  | ok topology =>
      have hdetect := hall fun exc hexc => by cases hr.symm.trans hexc
      rw [bind_of_ok hr, after_state]
      change ∃ l, (reportOver setting (link connector) render d topology qmName
        sample _).2.sent = _ ∧ _
      rw [sent_reportOver]
      obtain ⟨plan, ⟨dlqName, rfl⟩, hfront, -⟩ := asks_checks setting.unicode
        setting.invalidLiteral setting.registry topology.mqVersion setting.order _ qmName
        (sample.getD 50) d _ _ (goes_run (link connector) _ _)
      refine ⟨_, List.append_assoc _ _ _, Or.inr ⟨_, ⟨dlqName, rfl⟩, ?_⟩⟩
      rw [hdetect]
      exact (List.prefix_append_right_inj _).mpr hfront

theorem quiet_lookup
    (qmName : PyStr) :
    Quiet (lookup (served env setting link render inv) qmName : Tool (Wire ω) ρ QMEntry) := by
  intro s
  rw [(lookup_spec _ inv qmName s).2.2]

theorem quiet_checkAction
    (p : Principal) (action : Action) :
    Quiet (checkAction (served env setting link render inv) p action :
      Tool (Wire ω) ρ Unit) :=
  fun _ => rfl

theorem sendsGuarded_runInside
    (d : Diagnostic) (qmName : PyStr) (sample : Option Int) :
    SendsGuarded (toolPlans (sample.getD 50) d)
      (runInside (served env setting link render inv) d qmName sample :
        Tool (Wire ω) ρ Json) := by
  refine (quiet_lookup env setting link render inv qmName).bind_sendsGuarded fun entry => ?_
  refine sendsGuarded_emit_bind rfl fun _ => ?_
  refine (quiet_aside _).bind_sends fun credential => ?_
  refine (quiet_emit _).bind_sends fun _ => ?_
  refine (quiet_aside _).bind_sends fun connector => ?_
  refine (quiet_emit _).bind_sends fun _ => ?_
  refine (quiet_aside _).bind_sends fun _ => ?_
  exact (sends_body env setting link render inv d connector qmName sample).finallyDo
    (quiet_aside _)

theorem sendsGuarded_authorised
    {plans : Language Request} (qmName : PyStr) (p : Principal) {tool : Tool (Wire ω) ρ Json}
    (htool : SendsGuarded plans tool) :
    SendsGuarded plans (authorised (served env setting link render inv) qmName p tool) := by
  refine Quiet.bind_sendsGuarded (Quiet.except (quiet_lookup env setting link render inv qmName)
    fun exc => ?_) fun entry => ?_
  · unfold unknownQm
    split_ifs
    · exact Quiet.bind (quiet_checkAction env setting link render inv p _) fun _ =>
        quiet_raise exc
    · exact quiet_raise exc
  · exact (quiet_checkAction env setting link render inv p _).bind_sendsGuarded fun _ => htool

theorem quiet_requireQmName
    (params : OrderedDict PyStr Json) :
    Quiet (requireQmName params : Tool (Wire ω) ρ PyStr) := by
  intro s
  rcases requireQmName_cases params s with ⟨qmName, -, h⟩ | ⟨exc, h⟩
  · rw [h]
  · rw [h]

theorem quiet_requireSample
    (key : PyStr) (params : OrderedDict PyStr Json) :
    Quiet (requireSample key params : Tool (Wire ω) ρ Int) := by
  intro s
  rcases requireSample_cases key params s with ⟨n, h⟩ | ⟨exc, h⟩
  · rw [h]
  · rw [h]

/-- The plans of the tool of a name. -/
def plansOf (tool : PyStr) : Language Request :=
  {plan | ∃ d sample, tool = Diagnostic.toolName d ∧ plan ∈ toolPlans sample d}

theorem sendsGuarded_diagnostic
    {tool : PyStr} {d : Diagnostic} (htool : tool = d.toolName) (p : Principal)
    (qmName : PyStr) (sample : Option Int) :
    SendsGuarded (plansOf tool)
      (authorised (served env setting link render inv) qmName p
        (runInside (served env setting link render inv) d qmName sample) :
        Tool (Wire ω) ρ Json) :=
  (sendsGuarded_authorised env setting link render inv qmName p
    (sendsGuarded_runInside env setting link render inv d qmName sample)).mono
      fun _ hplan => ⟨d, _, htool, hplan⟩

theorem sendsGuarded_runTool
    (tool : PyStr) (params : OrderedDict PyStr Json) (p : Principal) :
    SendsGuarded (plansOf tool)
      (runTool (served env setting link render inv) tool params p : Tool (Wire ω) ρ Json) := by
  have hdiagnostic := @sendsGuarded_diagnostic ω ρ κ χ env setting link render inv tool
  unfold runTool
  split_ifs with _ hchannels hdlq hcluster hhealth hnative hrdqm hzos hmiqm
  · exact Quiet.sendsGuarded (Quiet.bind (quiet_aside env.inventory.listAll) fun _ =>
      quiet_ret _)
  · exact (quiet_requireQmName params).bind_sendsGuarded fun qmName =>
      hdiagnostic hchannels p qmName none
  · refine (quiet_requireQmName params).bind_sendsGuarded fun qmName => ?_
    exact (quiet_requireSample _ params).bind_sendsGuarded fun sample =>
      hdiagnostic hdlq p qmName (some sample)
  · exact (quiet_requireQmName params).bind_sendsGuarded fun qmName =>
      hdiagnostic hcluster p qmName none
  · refine (quiet_requireQmName params).bind_sendsGuarded fun qmName => ?_
    refine (quiet_requireSample _ params).bind_sendsGuarded fun sample => ?_
    have hinside := (sendsGuarded_runInside env setting link render inv .healthCheck qmName
      (some sample) : SendsGuarded _ (_ : Tool (Wire ω) ρ Json))
    refine (sendsGuarded_authorised env setting link render inv qmName p
      (hinside.bind_quiet fun collected => ?_)).mono fun _ hplan =>
        ⟨.healthCheck, _, hhealth, hplan⟩
    exact quiet_aside _
  · exact (quiet_requireQmName params).bind_sendsGuarded fun qmName =>
      hdiagnostic hnative p qmName none
  · exact (quiet_requireQmName params).bind_sendsGuarded fun qmName =>
      hdiagnostic hrdqm p qmName none
  · exact (quiet_requireQmName params).bind_sendsGuarded fun qmName =>
      hdiagnostic hzos p qmName none
  · exact (quiet_requireQmName params).bind_sendsGuarded fun qmName =>
      hdiagnostic hmiqm p qmName none
  · exact (quiet_raise _).sendsGuarded

/-- Nothing is sent in a `try` block that does not get to its tool. -/
theorem sent_serve
    (token tool : PyStr) (params : OrderedDict PyStr Json) (s : CallState (Wire ω) ρ) :
    (serve (served env setting link render inv) token tool params s).state.1.world.sent =
        s.1.world.sent ∨
      ∃ p, ((served env setting link render inv).verify token s.1.world).1 = .ok p ∧
        allowAnswer (served env setting link render inv) token p s.1 = .ok true := by
  generalize henv : served env setting link render inv = env'
  have hquiet : (env'.verify token s.1.world).2.sent = s.1.world.sent := by
    rw [← henv]
    rfl
  cases hverify : (env'.verify token s.1.world).1 with
  | error exc =>
      left
      unfold serve
      simp only [bind_apply, onFst_apply, verify_result, hverify]
      exact hquiet
  | ok p =>
      cases hallow : (allow env' p.subject (verify env' token s.1).state).result with
      | error exc =>
          left
          unfold serve
          simp only [bind_apply, onFst_apply, verify_result, hverify, assign, modifySnd_apply,
            after_state, hallow]
          exact hquiet
      | ok admitted =>
          cases admitted with
          | false =>
              left
              unfold serve
              simp only [bind_apply, onFst_apply, verify_result, hverify, assign,
                modifySnd_apply, after_state, hallow]
              exact hquiet
          | true =>
              exact Or.inr ⟨p, rfl, hallow⟩

omit env in
/-- The effects of a `try` block whose caller is admitted. -/
theorem events_serve_admitted
    {φ : Type} {env : Env ω ρ κ χ φ} {token : PyStr} {p : Principal} (tool : PyStr)
    (params : OrderedDict PyStr Json) {s : CallState ω ρ}
    (hverify : (env.verify token s.1.world).1 = .ok p)
    (hadmitted : allowAnswer env token p s.1 = .ok true) :
    (serve env token tool params s).events =
      .verify token (some p) :: .allow p.subject (some true) ::
        (runTool env tool params p (toolHost env token p s.1)).events := by
  have hevent : (verify env token s.1).events = [.verify token (some p)] := by
    simp [verify, observed, call, hverify, Except.toOption]
  have hallow : (allow env p.subject (verify env token s.1).state).result = .ok true :=
    hadmitted
  have hallowed : (allow env p.subject (verify env token s.1).state).events =
      [.allow p.subject (some true)] :=
    congrArg (fun r : Except PyException Bool => [Effect.allow p.subject r.toOption]) hallow
  have hhost : (allow env p.subject (verify env token s.1).state).state =
      toolHost env token p s.1 := rfl
  unfold serve
  simp only [bind_apply, onFst_apply, verify_result, hverify, assign, modifySnd_apply,
    after_events, hevent, hallow, hallowed, hhost, if_true]
  cases (runTool env tool params p (toolHost env token p s.1)).result with
  | error exc => simp
  | ok v => simp

/-- What a `try` block sends, and behind which guard. -/
theorem serve_sends
    (token tool : PyStr) (params : OrderedDict PyStr Json) (s : CallState (Wire ω) ρ) :
    ∃ sent,
      (serve (served env setting link render inv) token tool params s).state.1.world.sent =
        s.1.world.sent ++ sent ∧
      (sent = [] ∨ (∃ plan ∈ plansOf tool, sent <+: plan) ∧
        Mediated (sessionEnv env setting link render) inv token params s.1
          (serve (served env setting link render inv) token tool params s).events) := by
  rcases sent_serve env setting link render inv token tool params s with
    hnone | ⟨p, hverify, hallow⟩
  · exact ⟨[], by rw [hnone, List.append_nil], Or.inl rfl⟩
  · rw [(serve_admitted _ tool params hverify hallow).2,
      events_serve_admitted tool params hverify hallow]
    obtain ⟨sent, hsent, hplan⟩ := sendsGuarded_runTool env setting link render inv tool params p
      (toolHost (served env setting link render inv) token p s.1)
    refine ⟨sent, hsent, hplan.imp_right ?_⟩
    rintro ⟨⟨e, he, hguarded⟩, hfront⟩
    refine ⟨hfront, ?_⟩
    rcases guarded_runTool (sessionEnv env setting link render) inv tool params p
      (toolHost (served env setting link render inv) token p s.1) with
      hnone | ⟨qmName, hget, ⟨guard⟩⟩
    · rw [hnone e he] at hguarded
      cases hguarded
    · exact mediated_of_guard _ inv hverify hget guard

/--
**What a call sends.**  Every request that a dispatched call sends is permitted; and
where it sends any, they are the plan of the tool that the call names, or a front of it,
and the call is behind its guard.
-/
theorem dispatch_sends
    (entries : List QMEntry) (token tool : PyStr) (params : OrderedDict PyStr Json)
    (s : CallState (Wire ω) ρ) :
    let o := dispatch (served env setting link render (.ofEntries entries)) token tool params s
    ∃ sent, o.state.1.world.sent = s.1.world.sent ++ sent ∧
      (∀ q ∈ sent, Permitted setting.unicode env.repr q) ∧
      (sent = [] ∨
        (∃ d sample dlqName, tool = Diagnostic.toolName d ∧
          sent <+: detectionPlan ++ checkPlan sample dlqName d) ∧
        Mediated (sessionEnv env setting link render) (.ofEntries entries) token params s.1
          o.events) := by
  intro o
  obtain ⟨hhost, hevents⟩ := dispatch_frame
    (served env setting link render (.ofEntries entries)) token tool params s
  obtain ⟨sent, hsent, hplan⟩ := serve_sends env setting link render (.ofEntries entries)
    token tool params (s.1, startLocals, s.2.2)
  refine ⟨sent, (congrArg (fun host => host.world.sent) hhost).trans hsent, ?_, ?_⟩
  · rcases hplan with rfl | ⟨⟨plan, ⟨d, sample, -, dlqName, rfl⟩, hfront⟩, -⟩
    · exact List.forall_mem_nil _
    · intro q hq
      rcases List.mem_append.mp (hfront.mem hq) with hq | hq
      · exact permitted_detectionPlan _ _ q hq
      · exact permitted_checkPlan _ _ sample dlqName d q hq
  · refine hplan.imp_right ?_
    rintro ⟨⟨plan, ⟨d, sample, htool, dlqName, rfl⟩, hfront⟩, hmediated⟩
    refine ⟨⟨d, sample, dlqName, htool, hfront⟩, ?_⟩
    rw [show o.events = _ from hevents]
    exact hmediated

end Tools

end Sessions
end MqSentinel
