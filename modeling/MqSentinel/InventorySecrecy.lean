import MqSentinel.DispatchMediation

/-!
# What a refused caller learns

A caller whose roles do not grant `read:nonprod` is refused by every tool that asks for
a queue manager, and is shown an empty list by `health`.  The refusal names the action
that was missing, and the action depends on the entry: two inventories are told apart
exactly when the queue manager that is asked for is a production one in only one of them.
-/

namespace MqSentinel
namespace Server

open Effects Effects.Prog Rbac

theorem toolName_inj {d d' : Diagnostic} :
    d.toolName = d'.toolName ↔ d = d' := by
  cases d <;> cases d' <;> simp [Diagnostic.toolName, lit_injective.eq_iff]

theorem toolName_ne_health (d : Diagnostic) :
    ¬ d.toolName = lit "health" := by
  cases d <;> simp [Diagnostic.toolName, lit_injective.eq_iff]

/-- A sample size that the dispatcher accepts. -/
def sampleAccepted (key : PyStr) (params : OrderedDict PyStr Json) : Bool :=
  match params.get? key with
  | none => true
  | some (.int _) => true
  | some (.bool _) => true
  | some _ => false

/-- The tools that take nothing but a queue manager. -/
def plainTools : List PyStr :=
  [ Diagnostic.channels.toolName, Diagnostic.cluster.toolName, Diagnostic.nativeHa.toolName,
    Diagnostic.rdqm.toolName, Diagnostic.zos.toolName, Diagnostic.miqm.toolName ]

/-- The queue manager that a call asks for, if its tool takes one and its parameters are accepted. -/
def asked (tool : PyStr) (params : OrderedDict PyStr Json) : Option PyStr :=
  match params.get? (lit "qm_name") with
  | some (.str qmName) =>
      if tool ∈ plainTools then some qmName
      else if tool = Diagnostic.dlq.toolName ∧ sampleAccepted (lit "sample_size") params = true then
        some qmName
      else if tool = Diagnostic.healthCheck.toolName ∧
          sampleAccepted (lit "dlq_sample_size") params = true then
        some qmName
      else none
  | _ => none

/-- The action that the inventory requires for a name; unknown names count as non-production. -/
def requiredAction (inv : InMemoryInventory) (qmName : PyStr) : Action :=
  match inv.get? qmName with
  | some entry => readAction entry
  | none => .readNonprod

/-- A production queue manager of the inventory. -/
def IsProd (inv : InMemoryInventory) (qmName : PyStr) : Prop :=
  ∃ entry, inv.get? qmName = some entry ∧ entry.environment = .prod

theorem requiredAction_eq_readProd_iff {inv : InMemoryInventory} {qmName : PyStr} :
    requiredAction inv qmName = .readProd ↔ IsProd inv qmName := by
  unfold requiredAction IsProd readAction
  cases inv.get? qmName with
  | none => simp
  | some entry => simp

theorem requiredAction_cases (inv : InMemoryInventory) (qmName : PyStr) :
    requiredAction inv qmName = .readProd ∨ requiredAction inv qmName = .readNonprod := by
  unfold requiredAction readAction
  split
  · split_ifs <;> simp
  · exact Or.inr rfl

/-- Two inventories require the same action when they agree on what is production. -/
theorem requiredAction_eq_iff {inv₁ inv₂ : InMemoryInventory} {qmName : PyStr} :
    requiredAction inv₁ qmName = requiredAction inv₂ qmName ↔
      (IsProd inv₁ qmName ↔ IsProd inv₂ qmName) := by
  rw [← requiredAction_eq_readProd_iff, ← requiredAction_eq_readProd_iff]
  rcases requiredAction_cases inv₁ qmName with h₁ | h₁
  · rcases requiredAction_cases inv₂ qmName with h₂ | h₂
    · simp [h₁, h₂]
    · simp [h₁, h₂]
  · rcases requiredAction_cases inv₂ qmName with h₂ | h₂
    · simp [h₁, h₂]
    · simp [h₁, h₂]

section

variable {ω ρ κ χ φ : Type} (env : Env ω ρ κ χ φ)

/-- The exception of a caller who lacks an action. -/
def refusal (p : Principal) (action : Action) : PyException :=
  .authorizationError
    (lit "principal " ++ env.repr p.subject ++ lit " lacks required action " ++
      env.repr action.value)

variable {env}
variable {p : Principal} (hread : Action.readNonprod ∉ allowed p)

include hread

variable (env) in
theorem authorize_refused (action : Action) (haction : action ≠ .auditView) :
    authorize env.repr p action = .error (refusal env p action) := by
  have hnot : action ∉ allowed p := by
    cases action with
    | readNonprod => exact hread
    | readProd => exact fun h => hread (readNonprod_of_readProd h)
    | auditView => exact absurd rfl haction
  rw [authorize, if_neg hnot]
  rfl

/-- Behind every tool method's guard: the refusal, and nothing else changes. -/
theorem authorised_refused
    (inv : InMemoryInventory) (qmName : PyStr) (tool : Tool ω ρ Json) (host : Host ω ρ) :
    (authorised (withInventory env inv) qmName p tool host).result =
        .error (refusal env p (requiredAction inv qmName)) ∧
      (authorised (withInventory env inv) qmName p tool host).state = host := by
  have hcheck : ∀ action, action ≠ .auditView → ∀ host : Host ω ρ,
      (checkAction (withInventory env inv) p action host).result =
          .error (refusal env p action) ∧
        (checkAction (withInventory env inv) p action host).state = host := by
    intro action haction host
    exact ⟨authorize_refused (withInventory env inv) hread action haction, rfl⟩
  obtain ⟨-, hfound, hstate⟩ := lookup_spec env inv qmName host
  unfold authorised requiredAction
  rw [bind_apply, except]
  cases hget : inv.get? qmName with
  | none =>
      have hlookup : (lookup (withInventory env inv) qmName host).result =
          .error (.lookupError (lit "QM " ++ env.repr qmName ++ lit " not in inventory")) := by
        simp [lookup, observed, call, withInventory, inMemoryRegistry, hget]
      obtain ⟨hresult, hhost⟩ := hcheck .readNonprod (by decide) host
      have hlookupError : ∀ text,
          (PyException.lookupError text).isInstance "LookupError" = true := fun _ => rfl
      simp only [hlookup, unknownQm, hlookupError, if_true, bind_apply, hstate, hresult, hhost,
        after_result, after_state]
      exact ⟨trivial, trivial⟩
  | some entry =>
      have hlookup : (lookup (withInventory env inv) qmName host).result = .ok entry := by
        simp [lookup, observed, call, withInventory, inMemoryRegistry, hget]
      have haction : readAction entry ≠ .auditView := by
        unfold readAction
        split_ifs <;> decide
      obtain ⟨hresult, hhost⟩ := hcheck (readAction entry) haction host
      simp only [hlookup, bind_apply, hstate, hresult, hhost, after_result, after_state]
      exact ⟨trivial, trivial⟩

omit hread in
theorem requireQmName_of_str
    {params : OrderedDict PyStr Json} {qmName : PyStr}
    (hget : params.get? (lit "qm_name") = some (.str qmName)) (host : Host ω ρ) :
    requireQmName params host = ⟨.ok qmName, host, []⟩ := by
  rw [requireQmName, hget]
  rfl

omit hread in
theorem requireSample_of_accepted
    {key : PyStr} {params : OrderedDict PyStr Json} (h : sampleAccepted key params = true)
    (host : Host ω ρ) :
    ∃ n, requireSample key params host = ⟨.ok n, host, []⟩ := by
  unfold sampleAccepted at h
  unfold requireSample
  split at h
  · next hget => exact ⟨50, by rw [hget]; rfl⟩
  · next n hget => exact ⟨n, by rw [hget]; rfl⟩
  · next b hget => exact ⟨_, by rw [hget]; rfl⟩
  · cases h

omit hread in
theorem requireSample_of_refused
    {key : PyStr} {params : OrderedDict PyStr Json} (h : ¬ sampleAccepted key params = true)
    (host : Host ω ρ) :
    ∃ exc, requireSample key params host = ⟨.error exc, host, []⟩ := by
  unfold sampleAccepted at h
  unfold requireSample
  cases hget : params.get? key with
  | none =>
      simp [hget] at h
  | some v =>
      cases v with
      | int n => simp [hget] at h
      | bool b => simp [hget] at h
      | _ => exact ⟨_, rfl⟩

/-- A call that asks for a queue manager is refused. -/
theorem runTool_asked
    {tool qmName : PyStr} {params : OrderedDict PyStr Json}
    (hasked : asked tool params = some qmName)
    (inv : InMemoryInventory) (host : Host ω ρ) :
    (runTool (withInventory env inv) tool params p host).result =
        .error (refusal env p (requiredAction inv qmName)) ∧
      (runTool (withInventory env inv) tool params p host).state = host := by
  unfold asked at hasked
  split at hasked
  swap
  · cases hasked
  · next q hget =>
      have hname := requireQmName_of_str hget host
      have hplain : ∀ body : PyStr → Tool ω ρ Json,
          ((requireQmName params >>= fun name =>
            authorised (withInventory env inv) name p (body name)) host).result =
              .error (refusal env p (requiredAction inv q)) ∧
          ((requireQmName params >>= fun name =>
            authorised (withInventory env inv) name p (body name)) host).state = host := by
        intro body
        rw [bind_of_ok (by rw [hname]), hname]
        exact authorised_refused hread inv q (body q) host
      have hsampled : ∀ key, sampleAccepted key params = true →
          ∀ body : PyStr → Int → Tool ω ρ Json,
          ((requireQmName params >>= fun name => requireSample key params >>= fun n =>
            authorised (withInventory env inv) name p (body name n)) host).result =
              .error (refusal env p (requiredAction inv q)) ∧
          ((requireQmName params >>= fun name => requireSample key params >>= fun n =>
            authorised (withInventory env inv) name p (body name n)) host).state = host := by
        intro key haccepted body
        obtain ⟨n, hn⟩ := requireSample_of_accepted haccepted host
        rw [bind_of_ok (by rw [hname]), hname]
        dsimp only [after]
        rw [bind_of_ok (by rw [hn]), hn]
        exact authorised_refused hread inv q (body q n) host
      unfold runTool
      split_ifs at hasked with htool hdlq hhealth
      · obtain rfl := Option.some.inj hasked
        simp only [plainTools, List.mem_cons, List.not_mem_nil, or_false] at htool
        rcases htool with rfl | rfl | rfl | rfl | rfl | rfl
        all_goals
          simp only [toolName_ne_health, toolName_inj, reduceCtorEq, if_true, if_false]
          exact hplain _
      · obtain rfl := Option.some.inj hasked
        obtain ⟨rfl, haccepted⟩ := hdlq
        simp only [toolName_ne_health, toolName_inj, reduceCtorEq, if_true, if_false]
        exact hsampled _ haccepted _
      · obtain rfl := Option.some.inj hasked
        obtain ⟨rfl, haccepted⟩ := hhealth
        simp only [toolName_ne_health, toolName_inj, reduceCtorEq, if_true, if_false]
        exact hsampled _ haccepted _

variable (env) in
/-- No queue manager is listed. -/
theorem filter_canRead_refused (entries : List QMEntry) :
    entries.filter (canRead env.repr p) = [] := by
  refine List.filter_eq_nil_iff.mpr fun entry _ h => ?_
  have hgrant := canRead_iff.mp h
  unfold readAction at hgrant
  split_ifs at hgrant
  · exact hread (readNonprod_of_readProd hgrant)
  · exact hread hgrant

variable (env p) in
omit hread in
/-- A diagnostic that asks for no queue manager rejects its parameters. -/
theorem runTool_rejected
    {d : Diagnostic} {params : OrderedDict PyStr Json} (hasked : asked d.toolName params = none)
    (host : Host ω ρ) :
    ∃ exc, ∀ inv, (runTool (withInventory env inv) d.toolName params p host).result = .error exc ∧
      (runTool (withInventory env inv) d.toolName params p host).state = host := by
  rcases requireQmName_cases params host with ⟨q, hget, hname⟩ | ⟨exc, hname⟩
  · have hsampled : ∀ key, ¬ sampleAccepted key params = true →
        ∃ exc, ∀ body : PyStr → Int → Tool ω ρ Json,
          ((requireQmName params >>= fun name => requireSample key params >>=
            fun n => body name n) host).result = .error exc ∧
          ((requireQmName params >>= fun name => requireSample key params >>=
            fun n => body name n) host).state = host := by
      intro key hrefused
      obtain ⟨exc, hexc⟩ := requireSample_of_refused hrefused host
      refine ⟨exc, fun body => ?_⟩
      rw [bind_of_ok (by rw [hname]), hname]
      dsimp only [after]
      rw [bind_of_error (by rw [hexc]), hexc]
      exact ⟨rfl, rfl⟩
    unfold asked at hasked
    rw [hget] at hasked
    dsimp only at hasked
    unfold runTool
    cases d with
    | dlq =>
        have hrefused : ¬ sampleAccepted (lit "sample_size") params = true := by
          intro h
          simp [plainTools, toolName_inj, h] at hasked
        obtain ⟨exc, hbody⟩ := hsampled _ hrefused
        refine ⟨exc, fun inv => ?_⟩
        simp only [toolName_ne_health, toolName_inj, reduceCtorEq, if_true, if_false]
        exact hbody _
    | healthCheck =>
        have hrefused : ¬ sampleAccepted (lit "dlq_sample_size") params = true := by
          intro h
          simp [plainTools, toolName_inj, h] at hasked
        obtain ⟨exc, hbody⟩ := hsampled _ hrefused
        refine ⟨exc, fun inv => ?_⟩
        simp only [toolName_ne_health, toolName_inj, reduceCtorEq, if_true, if_false]
        exact hbody _
    | _ =>
        simp [plainTools] at hasked
  · have hrejected : ∀ body : PyStr → Tool ω ρ Json,
        ((requireQmName params >>= body) host).result = .error exc ∧
          ((requireQmName params >>= body) host).state = host := by
      intro body
      rw [bind_of_error (by rw [hname]), hname]
      exact ⟨rfl, rfl⟩
    refine ⟨exc, fun inv => ?_⟩
    unfold runTool
    cases d
    all_goals
      simp only [toolName_ne_health, toolName_inj, reduceCtorEq, if_true, if_false]
      exact hrejected _

variable (env) in
/-- Any other call ends in the same way whatever the inventory. -/
theorem runTool_not_asked
    {tool : PyStr} {params : OrderedDict PyStr Json} (hasked : asked tool params = none)
    (host : Host ω ρ) :
    ∃ result, ∀ inv, (runTool (withInventory env inv) tool params p host).result = result ∧
      (runTool (withInventory env inv) tool params p host).state = host := by
  by_cases hhealth : tool = lit "health"
  · subst hhealth
    refine ⟨(health (withInventory env (.ofEntries [])) p host).result, fun inv => ?_⟩
    have hanswer : ∀ inv, (health (withInventory env inv) p host).result =
        .ok (env.sanitize (.obj
          [(lit "status", .str (lit "ok")),
            (lit "version", .str env.version),
            (lit "environment", .str env.environment),
            (lit "connector", .str
              (if env.connectorMode = lit "pymqi" then lit "live" else lit "demo-fixtures")),
            (lit "principal", .str p.subject),
            (lit "queue_managers", .arr [])])) := by
      intro inv
      have hempty : inv.listAll.filter (canRead (withInventory env inv).repr p) = [] :=
        filter_canRead_refused (withInventory env inv) hread _
      simp only [health, bind_apply, call, withInventory, inMemoryRegistry, pure_apply,
        after_result]
      rw [show inv.listAll.filter (canRead env.repr p) = [] from hempty]
      rfl
    unfold runTool
    rw [if_pos rfl, hanswer, hanswer]
    exact ⟨rfl, rfl⟩
  · by_cases hdiagnostic : ∃ d : Diagnostic, tool = d.toolName
    · obtain ⟨d, rfl⟩ := hdiagnostic
      obtain ⟨exc, hrejected⟩ := runTool_rejected env p hasked host
      exact ⟨.error exc, hrejected⟩
    · refine ⟨.error (.lookupError (lit "unknown tool: " ++ tool)), fun inv => ?_⟩
      have hother : ∀ d : Diagnostic, ¬ tool = d.toolName :=
        fun d h => hdiagnostic ⟨d, h⟩
      unfold runTool
      simp only [hhealth, hother, if_false]
      exact ⟨rfl, rfl⟩

variable {token : PyStr} {s : CallState ω ρ}

/-- The host when the tool starts. -/
def toolHost (env : Env ω ρ κ χ φ) (token : PyStr) (p : Principal) (host : Host ω ρ) :
    Host ω ρ :=
  ⟨(env.verify token host.world).2,
    (env.allow p.subject (env.verify token host.world).2 host.limiter).2⟩

/-- The locals when the tool is over. -/
def toolLocals (p : Principal) (l : Locals) (r : Except PyException Json) : Locals :=
  match r with
  | .ok _ => { l with principal := some p, outcome := lit "ok" }
  | .error _ => { l with principal := some p }

/-- What the rate limiter answers for a verified caller. -/
def allowAnswer (env : Env ω ρ κ χ φ) (token : PyStr) (p : Principal) (host : Host ω ρ) :
    Except PyException Bool :=
  (env.allow p.subject (env.verify token host.world).2 host.limiter).1

variable (env) in
omit hread in
/-- How the `try` block of an admitted caller ends: as its tool does. -/
theorem serve_admitted
    (tool : PyStr) (params : OrderedDict PyStr Json)
    (hverify : (env.verify token s.1.world).1 = .ok p)
    (hadmitted : allowAnswer env token p s.1 = .ok true) :
    (serve env token tool params s).result =
        (runTool env tool params p (toolHost env token p s.1)).result ∧
      (serve env token tool params s).state =
        ((runTool env tool params p (toolHost env token p s.1)).state,
          toolLocals p s.2.1 (runTool env tool params p (toolHost env token p s.1)).result,
          s.2.2) := by
  have hallow : (allow env p.subject (verify env token s.1).state).result = .ok true :=
    hadmitted
  have hhost : (allow env p.subject (verify env token s.1).state).state =
      toolHost env token p s.1 := rfl
  unfold serve
  simp only [bind_apply, onFst_apply, verify_result, hverify, assign, modifySnd_apply,
    after_result, after_state, hallow, hhost, if_true]
  cases hr : (runTool env tool params p (toolHost env token p s.1)).result with
  | error exc =>
      exact ⟨rfl, rfl⟩
  | ok v =>
      exact ⟨rfl, rfl⟩

omit hread in
/-- Without the limiter's consent the inventory plays no part. -/
theorem serve_not_admitted
    (tool : PyStr) (params : OrderedDict PyStr Json)
    (hverify : (env.verify token s.1.world).1 = .ok p)
    (hadmitted : ¬ allowAnswer env token p s.1 = .ok true) (inv : InMemoryInventory) :
    serve (withInventory env inv) token tool params s = serve env token tool params s := by
  have hallow : allow (withInventory env inv) p.subject = allow env p.subject := rfl
  have hverified : verify (withInventory env inv) token = verify env token := rfl
  unfold serve
  simp only [bind_apply, onFst_apply, hverified, verify_result, hverify, assign,
    modifySnd_apply, hallow]
  cases ha : (allow env p.subject (verify env token s.1).state).result with
  | error exc =>
      rfl
  | ok admitted =>
      cases admitted with
      | false =>
          rfl
      | true =>
          exact absurd ha hadmitted

/-- The `try` block, apart from the refusal, is the same for every inventory. -/
theorem serve_refused
    (tool : PyStr) (params : OrderedDict PyStr Json)
    (hverify : (env.verify token s.1.world).1 = .ok p) :
    ((∀ qmName, asked tool params = some qmName → ¬ allowAnswer env token p s.1 = .ok true) ∧
      ∃ result state, ∀ inv, (serve (withInventory env inv) token tool params s).result = result ∧
        (serve (withInventory env inv) token tool params s).state = state) ∨
    allowAnswer env token p s.1 = .ok true ∧ ∃ qmName state, asked tool params = some qmName ∧
      ∀ inv, (serve (withInventory env inv) token tool params s).result =
          .error (refusal env p (requiredAction inv qmName)) ∧
        (serve (withInventory env inv) token tool params s).state = state := by
  by_cases hadmitted : allowAnswer env token p s.1 = .ok true
  · cases hasked : asked tool params with
    | none =>
        left
        obtain ⟨result, hresult⟩ := runTool_not_asked env hread hasked (toolHost env token p s.1)
        refine ⟨fun _ h => (nomatch h), result, (toolHost env token p s.1, toolLocals p s.2.1 result, s.2.2),
          fun inv => ?_⟩
        obtain ⟨hr, hst⟩ := serve_admitted (withInventory env inv) tool params hverify
          hadmitted
        have hhost : toolHost (withInventory env inv) token p s.1 = toolHost env token p s.1 := rfl
        rw [hhost, (hresult inv).1] at hr hst
        rw [(hresult inv).2] at hst
        exact ⟨hr, hst⟩
    | some qmName =>
        right
        refine ⟨hadmitted, qmName, (toolHost env token p s.1,
          { s.2.1 with principal := some p }, s.2.2), rfl, fun inv => ?_⟩
        obtain ⟨hresult, hstate⟩ := runTool_asked hread hasked inv (toolHost env token p s.1)
        obtain ⟨hr, hst⟩ := serve_admitted (withInventory env inv) tool params hverify
          hadmitted
        have hhost : toolHost (withInventory env inv) token p s.1 = toolHost env token p s.1 := rfl
        rw [hhost, hresult] at hr hst
        rw [hstate] at hst
        exact ⟨hr, hst⟩
  · left
    refine ⟨fun _ _ => hadmitted, (serve env token tool params s).result,
      (serve env token tool params s).state, fun inv => ?_⟩
    rw [serve_not_admitted tool params hverify hadmitted inv]
    exact ⟨rfl, rfl⟩

omit hread in
/-- The `except` block looks at the class of an exception only. -/
theorem noteError_state
    (p : Principal) (action action' : Action) (t : CallState ω ρ) :
    (noteError (refusal env p action) t).state = (noteError (refusal env p action') t).state := by
  rfl

/-- The `except` block changes nothing about that. -/
theorem attempt_refused
    (tool : PyStr) (params : OrderedDict PyStr Json)
    (hverify : (env.verify token s.1.world).1 = .ok p) :
    ((∀ qmName, asked tool params = some qmName → ¬ allowAnswer env token p s.1 = .ok true) ∧
      ∃ result state, ∀ inv,
        (attempt (withInventory env inv) token tool params s).result = result ∧
          (attempt (withInventory env inv) token tool params s).state = state) ∨
    allowAnswer env token p s.1 = .ok true ∧ ∃ qmName state, asked tool params = some qmName ∧
      ∀ inv, (attempt (withInventory env inv) token tool params s).result =
          .error (refusal env p (requiredAction inv qmName)) ∧
        (attempt (withInventory env inv) token tool params s).state = state := by
  rcases serve_refused hread tool params hverify with
    ⟨hunasked, result, state, hserve⟩ | ⟨hadmitted, qmName, state, hasked, hserve⟩
  · left
    refine ⟨hunasked, ?_⟩
    cases result with
    | ok v =>
        refine ⟨.ok v, state, fun inv => ?_⟩
        obtain ⟨hr, hst⟩ := hserve inv
        simp only [attempt, except, hr]
        exact ⟨trivial, hst⟩
    | error exc =>
        refine ⟨.error exc, (noteError exc state).state, fun inv => ?_⟩
        obtain ⟨hr, hst⟩ := hserve inv
        simp only [attempt, except, hr, hst, after_result, after_state]
        exact ⟨(noteError_spec exc state).1, trivial⟩
  · right
    refine ⟨hadmitted, qmName, (noteError (refusal env p .readNonprod) state).state, hasked,
      fun inv => ?_⟩
    obtain ⟨hr, hst⟩ := hserve inv
    simp only [attempt, except, hr, hst, after_result, after_state]
    exact ⟨(noteError_spec _ state).1, noteError_state p _ _ state⟩

variable (env token s) in
omit hread in
/-- What a call gives its caller: what the `try` block ends with, if it can be recorded. -/
theorem dispatch_result
    (tool : PyStr) {params : OrderedDict PyStr Json} (hser : SerialisesCall env.orjson params) :
    (Recordable env token tool params s.1 →
      (dispatch env token tool params s).result =
        (attempt env token tool params (s.1, startLocals, s.2.2)).result) ∧
    (¬ Recordable env token tool params s.1 →
      ∃ exc, (recordCall env s.1.world tool params
          (attempt env token tool params (s.1, startLocals, s.2.2)).state).result = .error exc ∧
        (dispatch env token tool params s).result = .error exc) := by
  obtain ⟨-, -, hlocals⟩ := attempt_locals env token tool params s
  rw [dispatch_eq, finallyDo]
  constructor
  · intro hrecordable
    obtain ⟨logger, e, hok, -⟩ := recordCall_of_recordable env hser s.1.world hlocals hrecordable
    simp only [hok]
  · intro hrecordable
    obtain ⟨exc, hrun⟩ := recordCall_of_not_recordable env hser s.1.world hlocals hrecordable
    have hresult : (recordCall env s.1.world tool params
        (attempt env token tool params (s.1, startLocals, s.2.2)).state).result = .error exc := by
      rw [hrun]
    refine ⟨exc, hresult, ?_⟩
    simp only [hresult]

omit hread in
theorem refusal_inj
    (hrepr : Function.Injective env.repr) {action action' : Action} :
    refusal env p action = refusal env p action' ↔ action = action' := by
  refine ⟨fun h => ?_, fun h => by rw [h]⟩
  have hmessage := congrArg PyException.message h
  simp only [refusal, PyException.authorizationError, List.append_cancel_left_eq] at hmessage
  have hvalue : action.value = action'.value := hrepr hmessage
  cases action <;> cases action' <;> first | rfl | exact absurd hvalue (by decide)

/--
**What a refused caller learns.**  Under two inventories a call without `read:nonprod`
ends in the same way exactly when the two agree on whether the queue manager that it asks
for is a production one, or the call does not get as far as its authorisation, or its
record cannot be written.
-/
theorem inventory_hidden_iff
    (tool : PyStr) (params : OrderedDict PyStr Json)
    (hser : SerialisesCall env.orjson params) (hrepr : Function.Injective env.repr)
    (hverify : (env.verify token s.1.world).1 = .ok p) (inv₁ inv₂ : InMemoryInventory) :
    (dispatch (withInventory env inv₁) token tool params s).result =
        (dispatch (withInventory env inv₂) token tool params s).result ↔
      ∀ qmName, asked tool params = some qmName → allowAnswer env token p s.1 = .ok true →
        Recordable env token tool params s.1 → (IsProd inv₁ qmName ↔ IsProd inv₂ qmName) := by
  have hattempt := attempt_refused (s := (s.1, startLocals, s.2.2)) hread tool params hverify
  obtain ⟨hown₁, hlost₁⟩ := dispatch_result (withInventory env inv₁) token s tool hser
  obtain ⟨hown₂, hlost₂⟩ := dispatch_result (withInventory env inv₂) token s tool hser
  by_cases hrecordable : Recordable env token tool params s.1
  · rw [hown₁ hrecordable, hown₂ hrecordable]
    rcases hattempt with ⟨hunasked, result, state, hsame⟩ |
      ⟨hadmitted, qmName, state, hasked, hrefused⟩
    · rw [(hsame inv₁).1, (hsame inv₂).1]
      exact ⟨fun _ qmName hasked hadmitted => absurd hadmitted (hunasked qmName hasked),
        fun _ => rfl⟩
    · rw [(hrefused inv₁).1, (hrefused inv₂).1, Except.error.injEq, refusal_inj hrepr,
        requiredAction_eq_iff]
      constructor
      · intro hprod q hq _ _
        obtain rfl := Option.some.inj (hasked.symm.trans hq)
        exact hprod
      · intro hprod
        exact hprod qmName hasked hadmitted hrecordable
  · -- the record is refused in both runs, and with it the same exception leaves
    obtain ⟨exc₁, hrun₁, hresult₁⟩ := hlost₁ hrecordable
    obtain ⟨exc₂, hrun₂, hresult₂⟩ := hlost₂ hrecordable
    have hstate : (attempt (withInventory env inv₁) token tool params
          (s.1, startLocals, s.2.2)).state =
        (attempt (withInventory env inv₂) token tool params
          (s.1, startLocals, s.2.2)).state := by
      rcases hattempt with ⟨-, result, state, hsame⟩ | ⟨-, qmName, state, -, hrefused⟩
      · rw [(hsame inv₁).2, (hsame inv₂).2]
      · rw [(hrefused inv₁).2, (hrefused inv₂).2]
    rw [hstate] at hrun₁
    obtain rfl : exc₂ = exc₁ := Except.error.inj (hrun₂.symm.trans hrun₁)
    rw [hresult₁, hresult₂]
    exact ⟨fun _ _ _ _ h => absurd h hrecordable, fun _ => rfl⟩

end

section Sample

/-- A verified caller without a role. -/
def rolelessPrincipal : Principal :=
  ⟨lit "eve", none, []⟩

/-- A server that knows that caller only. -/
def rolelessEnv : Env Unit Nat Unit Unit Unit :=
  { sampleEnv with verify := fun _ world => (.ok rolelessPrincipal, world) }

/-- The inventory with the sample queue manager. -/
def devInventory : InMemoryInventory :=
  .ofEntries [sampleEntry]

/-- The same queue manager as a production one. -/
def prodInventory : InMemoryInventory :=
  .ofEntries [{ sampleEntry with environment := .prod }]

theorem inventory_hidden_health :
    (dispatch (withInventory rolelessEnv devInventory) (lit "token") (lit "health")
        channelParams sampleState).result =
      (dispatch (withInventory rolelessEnv prodInventory) (lit "token") (lit "health")
        channelParams sampleState).result := by
  refine (inventory_hidden_iff (p := rolelessPrincipal) (by decide) _ _
    (serialisesCall_of_exact (Orjson.serialisesExactly_reference [])) ?_ rfl _ _).mpr ?_
  · intro x y h
    simpa [rolelessEnv, sampleEnv] using h
  · intro qmName hasked
    have hnone : asked (lit "health") channelParams = none := by
      decide
    rw [hnone] at hasked
    cases hasked

/-- The refusal tells a production queue manager from an unknown one. -/
theorem production_name_told_apart :
    ¬ (dispatch (withInventory rolelessEnv devInventory) (lit "token")
          Diagnostic.channels.toolName channelParams sampleState).result =
        (dispatch (withInventory rolelessEnv prodInventory) (lit "token")
          Diagnostic.channels.toolName channelParams sampleState).result := by
  decide +kernel

end Sample

end Server
end MqSentinel
