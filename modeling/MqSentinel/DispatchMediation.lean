import MqSentinel.DispatchAudit

/-!
# Complete mediation

A call reaches the secrets backend or a connector only behind its guard: the token
was verified, the limiter admitted the subject, the queue manager is in the inventory
and the caller's roles grant what its environment needs.  The entry that `openQm`
looks up again is the one that was authorised.

`Guard` is the shape of the effects of a tool; `guard_authorised` proves it of the
one guard that all tool methods share, and `guard_runTool` of the dispatcher.
-/

namespace MqSentinel
namespace Server

open Effects Effects.Prog Rbac

/-- The effects that must not happen without a guard. -/
def Effect.guarded : Effect → Bool
  | .resolve _ => true
  | .makeConnector => true
  | .connect _ => true
  | _ => false

/-- The effects of opening the queue manager of an entry. -/
def Opens (qmName : PyStr) (entry : QMEntry) (e : Effect) : Prop :=
  e = .lookup qmName (some entry) ∨ e = .resolve entry.secretRef ∨ e = .makeConnector ∨
    e = .connect entry

/-- The effects of a tool method that gets through its guard. -/
structure Guard (inv : InMemoryInventory) (p : Principal) (qmName : PyStr)
    (events : List Effect) where
  entry : QMEntry
  rest : List Effect
  found : inv.get? qmName = some entry
  granted : readAction entry ∈ allowed p
  order : events = .lookup qmName (some entry) ::
    .authorize p (readAction entry) true :: rest
  opens : ∀ e ∈ rest, Opens qmName entry e

/-- Nothing guarded happens, or it happens behind the guard. -/
def Guarded (inv : InMemoryInventory) (p : Principal) (params : OrderedDict PyStr Json)
    (events : List Effect) : Prop :=
  (∀ e ∈ events, e.guarded = false) ∨
    ∃ qmName, params.get? (lit "qm_name") = some (.str qmName) ∧
      Nonempty (Guard inv p qmName events)

section

variable {ω ρ κ χ φ : Type}

/-- The environment with an in-memory inventory of the given entries. -/
def withInventory (env : Env ω ρ κ χ φ) (inv : InMemoryInventory) : Env ω ρ κ χ φ :=
  { env with inventory := inMemoryRegistry env.repr inv }

variable (env : Env ω ρ κ χ φ) (inv : InMemoryInventory)

theorem call_events
    {α : Type} (f : Call ω α) (host : Host ω ρ) :
    (call f host).events = [] := by
  rfl

theorem emitsOnly_call
    {α : Type} {q : Effect → Prop} (f : Call ω α) :
    EmitsOnly q (call f : Tool ω ρ α) := by
  intro s e he
  rw [call_events] at he
  cases he

/-- A lookup shows what the inventory holds. -/
theorem lookup_spec
    (qmName : PyStr) (host : Host ω ρ) :
    (lookup (withInventory env inv) qmName host).events =
        [.lookup qmName (inv.get? qmName)] ∧
      (lookup (withInventory env inv) qmName host).result.toOption = inv.get? qmName ∧
      (lookup (withInventory env inv) qmName host).state = host := by
  cases hget : inv.get? qmName with
  | none =>
      simp [lookup, observed, call, withInventory, inMemoryRegistry, hget, Except.toOption]
  | some entry =>
      simp [lookup, observed, call, withInventory, inMemoryRegistry, hget, Except.toOption]

/-- **`open_qm`** opens what the inventory holds under the name. -/
theorem emitsOnly_openQm
    {qmName : PyStr} {entry : QMEntry} (hentry : inv.get? qmName = some entry)
    {body : κ → φ → Tool ω ρ Json} (hbody : ∀ c f, EmitsOnly (Opens qmName entry) (body c f)) :
    EmitsOnly (Opens qmName entry) (openQm (withInventory env inv) qmName body) := by
  unfold openQm
  refine EmitsOnly.bind_ok ?_ ?_
  · intro host e he
    rw [(lookup_spec env inv qmName host).1, List.mem_singleton, hentry] at he
    exact Or.inl he
  · intro host found hfound
    have hsame : found = entry := by
      have hoption := (lookup_spec env inv qmName host).2.1
      rw [hfound, hentry] at hoption
      exact Option.some.inj hoption
    subst hsame
    have hrest : EmitsOnly (Opens qmName found) (do
        Prog.emit (.resolve found.secretRef)
        let credential ← call ((withInventory env inv).resolve found.secretRef)
        Prog.emit .makeConnector
        let connector ← call (withInventory env inv).connectorFactory
        Prog.emit (.connect found)
        call ((withInventory env inv).connect connector found credential)
        Prog.finallyDo
          (do
            let fingerprint ← call ((withInventory env inv).detect connector)
            body connector fingerprint)
          (call ((withInventory env inv).disconnect connector)) : Tool ω ρ Json) := by
      have hresolve : Opens qmName found (.resolve found.secretRef) := Or.inr (Or.inl rfl)
      have hmake : Opens qmName found .makeConnector := Or.inr (Or.inr (Or.inl rfl))
      have hconnect : Opens qmName found (.connect found) := Or.inr (Or.inr (Or.inr rfl))
      refine (emitsOnly_emit hresolve).bind fun _ => ?_
      refine (emitsOnly_call _).bind fun credential => ?_
      refine (emitsOnly_emit hmake).bind fun _ => ?_
      refine (emitsOnly_call _).bind fun connector => ?_
      refine (emitsOnly_emit hconnect).bind fun _ => ?_
      refine (emitsOnly_call _).bind fun _ => ?_
      exact ((emitsOnly_call _).bind fun fingerprint => hbody connector fingerprint).finallyDo
        (emitsOnly_call _)
    exact hrest _

theorem emitsOnly_runInside
    {qmName : PyStr} {entry : QMEntry} (hentry : inv.get? qmName = some entry)
    (d : Diagnostic) (sample : Option Int) :
    EmitsOnly (Opens qmName entry) (runInside (withInventory env inv) d qmName sample : Tool ω ρ Json) :=
  emitsOnly_openQm env inv hentry fun _ _ => emitsOnly_call _

theorem emitsOnly_fullMqHealthCheck
    {qmName : PyStr} {entry : QMEntry} (hentry : inv.get? qmName = some entry)
    (sample : Int) :
    EmitsOnly (Opens qmName entry)
      (fullMqHealthCheck (withInventory env inv) qmName sample : Tool ω ρ Json) :=
  (emitsOnly_runInside env inv hentry _ _).bind fun _ => emitsOnly_call _

/-- An authorisation shows whether it was granted. -/
theorem checkAction_spec
    (p : Principal) (action : Action) (host : Host ω ρ) :
    (checkAction env p action host).events =
        [.authorize p action (decide (action ∈ allowed p))] ∧
      (checkAction env p action host).result = authorize env.repr p action := by
  refine ⟨?_, rfl⟩
  by_cases h : action ∈ allowed p
  · simp [checkAction, observed, authorize, h, Except.toOption]
  · simp [checkAction, observed, authorize, h, Except.toOption]

/-- The report of an unknown name guards nothing. -/
theorem emitsOnly_unknownQm
    (p : Principal) (exc : PyException) :
    EmitsOnly (fun e => e.guarded = false) (unknownQm env p exc : Tool ω ρ QMEntry) := by
  unfold unknownQm
  split_ifs
  · refine EmitsOnly.bind ?_ fun _ => emitsOnly_raise exc
    intro host e he
    rw [(checkAction_spec env p _ host).1, List.mem_singleton] at he
    rw [he]
    rfl
  · exact emitsOnly_raise exc

theorem unknownQm_raises
    (p : Principal) (exc : PyException) (host : Host ω ρ) :
    ∃ exc', (unknownQm env p exc host).result = .error exc' := by
  unfold unknownQm
  split_ifs
  · rw [bind_apply]
    cases (checkAction env p .readNonprod host).result with
    | ok _ =>
        exact ⟨exc, rfl⟩
    | error exc' =>
        exact ⟨exc', rfl⟩
  · exact ⟨exc, rfl⟩

/-- **The guard of the tool methods.** -/
theorem guard_authorised
    {qmName : PyStr} (p : Principal) {tool : Tool ω ρ Json}
    (htool : ∀ entry, inv.get? qmName = some entry → EmitsOnly (Opens qmName entry) tool)
    (host : Host ω ρ) :
    (∀ e ∈ (authorised (withInventory env inv) qmName p tool host).events,
        e.guarded = false) ∨
      Nonempty (Guard inv p qmName
        (authorised (withInventory env inv) qmName p tool host).events) := by
  obtain ⟨hevents, hresult, _⟩ := lookup_spec env inv qmName host
  unfold authorised
  rw [bind_apply, except]
  cases hlookup : (lookup (withInventory env inv) qmName host).result with
  | error exc =>
      -- the name is unknown, and the handler raises
      left
      obtain ⟨exc', hraise⟩ := unknownQm_raises (withInventory env inv) p exc
        (lookup (withInventory env inv) qmName host).state
      simp only [after_result, hraise, after_events, hevents]
      intro e he
      rcases List.mem_cons.mp he with rfl | he
      · rfl
      · exact emitsOnly_unknownQm _ p exc _ e he
  | ok entry =>
      rw [hlookup] at hresult
      have hget : inv.get? qmName = some entry := hresult.symm
      simp only [hlookup, hevents, hget, after_events]
      generalize (lookup (withInventory env inv) qmName host).state = host₁
      obtain ⟨hcheck, hauth⟩ :=
        checkAction_spec (withInventory env inv) p (readAction entry) host₁
      rw [bind_apply, hauth]
      by_cases hgrant : readAction entry ∈ allowed p
      · -- granted: the tool runs behind its guard
        right
        simp only [authorize, hgrant, if_true, after_events, hcheck, decide_true]
        exact ⟨entry, _, hget, hgrant, rfl, htool entry hget _⟩
      · left
        simp only [authorize, hgrant, if_false, hcheck]
        intro e he
        rcases List.mem_cons.mp he with rfl | he
        · rfl
        · rw [List.mem_singleton.mp he]
          rfl

/-- The queue manager name, or an exception; nothing is shown. -/
theorem requireQmName_cases
    (params : OrderedDict PyStr Json) (host : Host ω ρ) :
    (∃ qmName, params.get? (lit "qm_name") = some (.str qmName) ∧
        requireQmName params host = ⟨.ok qmName, host, []⟩) ∨
      ∃ exc, requireQmName params host = ⟨.error exc, host, []⟩ := by
  cases hget : params.get? (lit "qm_name") with
  | none =>
      exact Or.inr ⟨_, by rw [requireQmName, hget]; rfl⟩
  | some v =>
      cases v with
      | str qmName =>
          exact Or.inl ⟨qmName, rfl, by rw [requireQmName, hget]; rfl⟩
      | _ =>
          exact Or.inr ⟨_, by rw [requireQmName, hget]; rfl⟩

/-- The sample size, or an exception; nothing is shown. -/
theorem requireSample_cases
    (key : PyStr) (params : OrderedDict PyStr Json) (host : Host ω ρ) :
    (∃ n, requireSample key params host = ⟨.ok n, host, []⟩) ∨
      ∃ exc, requireSample key params host = ⟨.error exc, host, []⟩ := by
  cases hget : params.get? key with
  | none =>
      exact Or.inl ⟨_, by rw [requireSample, hget]; rfl⟩
  | some v =>
      cases v with
      | int n =>
          exact Or.inl ⟨n, by rw [requireSample, hget]; rfl⟩
      | bool b =>
          exact Or.inl ⟨_, by rw [requireSample, hget]; rfl⟩
      | _ =>
          exact Or.inr ⟨_, by rw [requireSample, hget]; rfl⟩

/-- A guarded tool is guarded behind the reading of its name. -/
theorem guarded_requireQmName
    {p : Principal} {params : OrderedDict PyStr Json} {f : PyStr → Tool ω ρ Json}
    (h : ∀ qmName host, (∀ e ∈ (f qmName host).events, e.guarded = false) ∨
      Nonempty (Guard inv p qmName (f qmName host).events)) (host : Host ω ρ) :
    Guarded inv p params ((requireQmName params >>= f) host).events := by
  rcases requireQmName_cases params host with ⟨qmName, hget, hname⟩ | ⟨exc, hexc⟩
  · rw [bind_apply, hname]
    exact (h qmName host).imp_right fun hguard => ⟨qmName, hget, hguard⟩
  · left
    rw [bind_apply, hexc]
    intro e he
    cases he

/-- And behind the reading of its sample size. -/
theorem guard_requireSample
    {p : Principal} {key qmName : PyStr} {params : OrderedDict PyStr Json}
    {f : Int → Tool ω ρ Json}
    (h : ∀ n host, (∀ e ∈ (f n host).events, e.guarded = false) ∨
      Nonempty (Guard inv p qmName (f n host).events)) (host : Host ω ρ) :
    (∀ e ∈ ((requireSample key params >>= f) host).events, e.guarded = false) ∨
      Nonempty (Guard inv p qmName ((requireSample key params >>= f) host).events) := by
  rcases requireSample_cases key params host with ⟨n, hn⟩ | ⟨exc, hexc⟩
  · rw [bind_apply, hn]
    exact h n host
  · left
    rw [bind_apply, hexc]
    intro e he
    cases he

theorem guarded_health
    {p : Principal} {params : OrderedDict PyStr Json} (host : Host ω ρ) :
    Guarded inv p params (health env p host).events := by
  left
  have hhealth : EmitsOnly (fun e => e.guarded = false) (health env p : Tool ω ρ Json) :=
    (emitsOnly_call _).bind fun _ => emitsOnly_ret _
  exact hhealth host

/-- **Every tool is guarded**, whatever its name and parameters. -/
theorem guarded_runTool
    (tool : PyStr) (params : OrderedDict PyStr Json) (p : Principal) (host : Host ω ρ) :
    Guarded inv p params (runTool (withInventory env inv) tool params p host).events := by
  have hinside : ∀ d qmName (host : Host ω ρ),
      (∀ e ∈ (authorised (withInventory env inv) qmName p
          (runInside (withInventory env inv) d qmName none) host).events,
          e.guarded = false) ∨
        Nonempty (Guard inv p qmName (authorised (withInventory env inv) qmName p
          (runInside (withInventory env inv) d qmName none) host).events) :=
    fun d qmName host => guard_authorised env inv p
      (fun entry hget => emitsOnly_runInside env inv hget d none) host
  unfold runTool
  split_ifs
  · exact guarded_health _ inv host
  · exact guarded_requireQmName inv (hinside .channels) host
  · refine guarded_requireQmName inv (fun qmName => guard_requireSample inv fun n => ?_) host
    exact guard_authorised env inv p
      (fun entry hget => emitsOnly_runInside env inv hget .dlq (some n))
  · exact guarded_requireQmName inv (hinside .cluster) host
  · refine guarded_requireQmName inv (fun qmName => guard_requireSample inv fun n => ?_) host
    exact guard_authorised env inv p
      (fun entry hget => emitsOnly_fullMqHealthCheck env inv hget n)
  · exact guarded_requireQmName inv (hinside .nativeHa) host
  · exact guarded_requireQmName inv (hinside .rdqm) host
  · exact guarded_requireQmName inv (hinside .zos) host
  · exact guarded_requireQmName inv (hinside .miqm) host
  · left
    intro e he
    cases he

/-- The `finally` block shows nothing and leaves the host alone. -/
theorem recordCall_frame
    (started : ω) (tool : PyStr) (params : OrderedDict PyStr Json) (s : CallState ω ρ) :
    (recordCall env started tool params s).state.1 = s.1 ∧
      (recordCall env started tool params s).events = [] := by
  unfold recordCall
  dsimp only
  split
  · exact ⟨rfl, rfl⟩
  · split <;> exact ⟨rfl, rfl⟩

theorem noteError_frame
    (exc : PyException) (s : CallState ω ρ) :
    (noteError exc s).state.1 = s.1 ∧ (noteError exc s).events = [] := by
  unfold noteError
  split_ifs
  · exact ⟨rfl, rfl⟩
  · exact ⟨rfl, rfl⟩

/-- What a call does to the host and shows is what its `try` block does and shows. -/
theorem dispatch_frame
    (token tool : PyStr) (params : OrderedDict PyStr Json) (s : CallState ω ρ) :
    (dispatch env token tool params s).state.1 =
        (serve env token tool params (s.1, startLocals, s.2.2)).state.1 ∧
      (dispatch env token tool params s).events =
        (serve env token tool params (s.1, startLocals, s.2.2)).events := by
  have hattempt : (attempt env token tool params (s.1, startLocals, s.2.2)).state.1 =
        (serve env token tool params (s.1, startLocals, s.2.2)).state.1 ∧
      (attempt env token tool params (s.1, startLocals, s.2.2)).events =
        (serve env token tool params (s.1, startLocals, s.2.2)).events := by
    unfold attempt except
    split
    · exact ⟨rfl, rfl⟩
    · next exc _ =>
        obtain ⟨hhost, hevents⟩ := noteError_frame exc
          (serve env token tool params (s.1, startLocals, s.2.2)).state
        exact ⟨hhost, by rw [after_events, hevents, List.append_nil]⟩
  obtain ⟨hhost, hevents⟩ := recordCall_frame env s.1.world tool params
    (attempt env token tool params (s.1, startLocals, s.2.2)).state
  rw [dispatch_eq, finallyDo_state, finallyDo_events, hevents, List.append_nil]
  exact ⟨hhost.trans hattempt.1, hattempt.2⟩

/-- A refused token ends the `try` block at once. -/
theorem serve_of_unverified
    {token : PyStr} (tool : PyStr) (params : OrderedDict PyStr Json) {s : CallState ω ρ}
    {exc : PyException} (h : (env.verify token s.1.world).1 = .error exc) :
    (serve env token tool params s).state.1.limiter = s.1.limiter ∧
      (serve env token tool params s).events = [.verify token none] := by
  have hevent : (verify env token s.1).events = [.verify token none] := by
    simp [verify, observed, call, h, Except.toOption]
  unfold serve
  simp only [bind_apply, onFst_apply, verify_result, h, hevent]
  exact ⟨rfl, trivial⟩

/-- The effects of a `try` block with a verified caller. -/
theorem serve_of_verified
    {token : PyStr} (tool : PyStr) (params : OrderedDict PyStr Json) {s : CallState ω ρ}
    {p : Principal} (h : (env.verify token s.1.world).1 = .ok p) :
    ∃ admitted rest, (serve env token tool params s).events =
        .verify token (some p) :: .allow p.subject admitted :: rest ∧
      ((admitted = some true ∧ ∃ host, rest = (runTool env tool params p host).events) ∨
        rest = []) := by
  have hevent : (verify env token s.1).events = [.verify token (some p)] := by
    simp [verify, observed, call, h, Except.toOption]
  unfold serve
  simp only [bind_apply, onFst_apply, verify_result, h, hevent, assign, modifySnd_apply,
    after_events, List.nil_append]
  generalize (verify env token s.1).state = host₁
  have hallow : (allow env p.subject host₁).events =
      [.allow p.subject (allow env p.subject host₁).result.toOption] := by
    rfl
  rw [hallow]
  cases ha : (allow env p.subject host₁).result with
  | error exc =>
      exact ⟨none, [], rfl, Or.inr rfl⟩
  | ok admitted =>
      generalize (allow env p.subject host₁).state = host₂
      cases admitted with
      | false =>
          exact ⟨some false, [], rfl, Or.inr rfl⟩
      | true =>
          refine ⟨some true, (runTool env tool params p host₂).events, ?_,
            Or.inl ⟨rfl, host₂, rfl⟩⟩
          cases hr : (runTool env tool params p host₂).result with
          | error exc =>
              simp [bind_apply, hr, Except.toOption]
          | ok v =>
              simp [bind_apply, hr, Except.toOption]

/--
The effects of a call behind its guard: the token is verified as `p`, the limiter
admits the subject of `p`, the entry under the given name is found and authorised for
`p`, and only then it is opened, and no other entry.
-/
def Mediated (token : PyStr) (params : OrderedDict PyStr Json) (host : Host ω ρ)
    (events : List Effect) : Prop :=
  ∃ p qmName entry rest,
    (env.verify token host.world).1 = .ok p ∧
    params.get? (lit "qm_name") = some (.str qmName) ∧
    inv.get? qmName = some entry ∧
    (entry.environment = .prod → Action.readProd ∈ allowed p) ∧
    (entry.environment ≠ .prod → Action.readNonprod ∈ allowed p) ∧
    events = .verify token (some p) :: .allow p.subject (some true) ::
      .lookup qmName (some entry) :: .authorize p (readAction entry) true :: rest ∧
    ∀ e ∈ rest, Opens qmName entry e

theorem mediated_of_guard
    {token qmName : PyStr} {params : OrderedDict PyStr Json} {host : Host ω ρ}
    {p : Principal} {events : List Effect}
    (hverify : (env.verify token host.world).1 = .ok p)
    (hget : params.get? (lit "qm_name") = some (.str qmName))
    (guard : Guard inv p qmName events) :
    Mediated env inv token params host
      (.verify token (some p) :: .allow p.subject (some true) :: events) := by
  obtain ⟨entry, rest, hfound, hgranted, horder, hopens⟩ := guard
  subst horder
  refine ⟨p, qmName, entry, rest, hverify, hget, hfound, ?_, ?_, rfl, hopens⟩
  · intro hprod
    rwa [readAction, if_pos hprod] at hgranted
  · intro hnonprod
    rwa [readAction, if_neg hnonprod] at hgranted

/--
**Complete mediation.**  Over any inventory list, a call that reaches the secrets
backend or a connector does so behind its guard; and a call whose token is refused
neither asks the limiter nor changes it.
-/
theorem complete_mediation
    (entries : List QMEntry) (token tool : PyStr) (params : OrderedDict PyStr Json)
    (s : CallState ω ρ) :
    ((∃ e ∈ (dispatch (withInventory env (.ofEntries entries)) token tool params s).events,
        e.guarded = true) →
      Mediated env (.ofEntries entries) token params s.1
        (dispatch (withInventory env (.ofEntries entries)) token tool params s).events) ∧
    ((∃ exc, (env.verify token s.1.world).1 = .error exc) →
      (∀ e ∈ (dispatch (withInventory env (.ofEntries entries)) token tool params s).events,
          ∀ subject admitted, e ≠ .allow subject admitted) ∧
        (dispatch (withInventory env (.ofEntries entries)) token tool params s).state.1.limiter =
          s.1.limiter) := by
  generalize InMemoryInventory.ofEntries entries = inv
  obtain ⟨hhost, hevents⟩ := dispatch_frame (withInventory env inv) token tool params s
  rw [hhost, hevents]
  constructor
  · rintro ⟨e, he, hguarded⟩
    cases hverify : (env.verify token s.1.world).1 with
    | error exc =>
        have hserve := (serve_of_unverified (withInventory env inv) tool params
          (s := (s.1, startLocals, s.2.2)) hverify).2
        rw [hserve, List.mem_singleton] at he
        rw [he] at hguarded
        cases hguarded
    | ok p =>
        obtain ⟨admitted, rest, hserve, hrest⟩ := serve_of_verified (withInventory env inv)
          tool params (s := (s.1, startLocals, s.2.2)) hverify
        rw [hserve] at he ⊢
        have hmem : e ∈ rest := by
          rcases List.mem_cons.mp he with rfl | he
          · cases hguarded
          · rcases List.mem_cons.mp he with rfl | he
            · cases hguarded
            · exact he
        rcases hrest with ⟨rfl, host, rfl⟩ | rfl
        · rcases guarded_runTool env inv tool params p host with hnone | ⟨qmName, hget, ⟨guard⟩⟩
          · rw [hnone e hmem] at hguarded
            cases hguarded
          · exact mediated_of_guard env inv hverify hget guard
        · cases hmem
  · rintro ⟨exc, hverify⟩
    obtain ⟨hlimiter, hserve⟩ := serve_of_unverified (withInventory env inv)
      tool params (s := (s.1, startLocals, s.2.2)) hverify
    refine ⟨?_, hlimiter⟩
    rw [hserve]
    intro e he subject admitted hallow
    rw [List.mem_singleton.mp he] at hallow
    cases hallow

end

/-- A diagnosis of the sample queue manager. -/
def channelParams : OrderedDict PyStr Json :=
  OrderedDict.ofList [(lit "qm_name", .str (lit "QM1"))]

theorem complete_mediation_channels :
    Mediated sampleEnv (.ofEntries [sampleEntry]) (lit "token") channelParams sampleState.1
      (dispatch (withInventory sampleEnv (.ofEntries [sampleEntry])) (lit "token")
        Diagnostic.channels.toolName channelParams sampleState).events :=
  (complete_mediation sampleEnv [sampleEntry] (lit "token") Diagnostic.channels.toolName
    channelParams sampleState).1 ⟨.makeConnector, by decide +kernel, rfl⟩

end Server
end MqSentinel
