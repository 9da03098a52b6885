import MqSentinel.Dispatcher

/-!
# One audit record for each call

Whatever a call does, its `finally` block writes one record, and the caller gets
what the `try` block ended with.  The block can fail in one way: the parameters, the
tool name or the verified subject and tenant hold something that the serialiser
refuses.  Then nothing is appended and the caller gets the serialiser's exception.

`serve_locals` says what the `try` block leaves in the locals, and `recordCall_of_recordable`
and `recordCall_of_not_recordable` what the `finally` block does.
-/

namespace MqSentinel
namespace Server

open Effects Effects.Prog Audit

section

variable {ω ρ κ χ φ : Type} (env : Env ω ρ κ χ φ)

/-- The locals at the start of a call. -/
def startLocals : Locals :=
  ⟨none, lit "error", none⟩

/-- The verified caller, if any. -/
def verifiedPrincipal (token : PyStr) (host : Host ω ρ) : Option Principal :=
  (env.verify token host.world).1.toOption

/-- What the `try` block ends with: the tool's own result or exception. -/
def ownOutcome (token tool : PyStr) (params : OrderedDict PyStr Json)
    (s : CallState ω ρ) : Except PyException Json :=
  (serve env token tool params (s.1, startLocals, s.2.2)).result

/-- The locals after the `try` block, given how it ended. -/
structure ServedLocals (token : PyStr) (host : Host ω ρ) (r : Except PyException Json)
    (l : Locals) : Prop where
  principal : l.principal = verifiedPrincipal env token host
  outcome : l.outcome = lit "ok" ↔ ∃ v, r = .ok v
  encodable : Json.utf8Encodable l.outcome = true

@[simp] theorem verify_result
    (token : PyStr) (host : Host ω ρ) :
    (verify env token host).result = (env.verify token host.world).1 := by
  rfl

theorem outcome_ok_ne_error :
    lit "error" ≠ lit "ok" := by
  decide

theorem outcome_ok_ne_denied :
    lit "denied" ≠ lit "ok" := by
  decide

/-- **The `try` block** leaves the logger alone and its ending in the locals. -/
theorem serve_locals
    (token tool : PyStr) (params : OrderedDict PyStr Json) (host : Host ω ρ)
    (logger : AuditLogger) :
    (serve env token tool params (host, startLocals, logger)).state.2.2 = logger ∧
      ServedLocals env token host
        (serve env token tool params (host, startLocals, logger)).result
        (serve env token tool params (host, startLocals, logger)).state.2.1 := by
  unfold serve
  cases hp : (env.verify token host.world).1 with
  | error exc =>
      have hprincipal : verifiedPrincipal env token host = none := by
        rw [verifiedPrincipal, hp]
        rfl
      simp only [bind_apply, onFst_apply, verify_result, hp]
      exact ⟨trivial, hprincipal.symm, by simp [startLocals, outcome_ok_ne_error],
        utf8Encodable_lit _⟩
  | ok p =>
      have hprincipal : verifiedPrincipal env token host = some p := by
        rw [verifiedPrincipal, hp]
        rfl
      simp only [bind_apply, onFst_apply, verify_result, hp, assign, modifySnd_apply,
        after_result, after_state]
      generalize (verify env token host).state = host₁
      cases ha : (allow env p.subject host₁).result with
      | error exc =>
          exact ⟨rfl, hprincipal.symm, by simp [startLocals, outcome_ok_ne_error],
            utf8Encodable_lit _⟩
      | ok admitted =>
          generalize (allow env p.subject host₁).state = host₂
          cases admitted with
          | false =>
              simp only [Bool.false_eq_true, if_false, bind_apply, modifySnd_apply,
                raise_apply, after_result, after_state]
              exact ⟨trivial, hprincipal.symm, by simp [outcome_ok_ne_denied],
                utf8Encodable_lit _⟩
          | true =>
              cases hr : (runTool env tool params p host₂).result with
              | error exc =>
                  simp only [if_true, bind_apply, onFst_apply, hr, after_result, after_state]
                  exact ⟨trivial, hprincipal.symm, by simp [startLocals, outcome_ok_ne_error],
                    utf8Encodable_lit _⟩
              | ok v =>
                  simp only [if_true, bind_apply, onFst_apply, hr, modifySnd_apply,
                    pure_apply, after_result, after_state]
                  exact ⟨trivial, hprincipal.symm, by simp, utf8Encodable_lit _⟩

/-- The `except` block raises again and leaves all but the error text alone. -/
theorem noteError_spec
    (exc : PyException) (s : CallState ω ρ) :
    (noteError exc s).result = .error exc ∧
      (noteError exc s).state.2.2 = s.2.2 ∧
      (noteError exc s).state.2.1.principal = s.2.1.principal ∧
      (noteError exc s).state.2.1.outcome = s.2.1.outcome := by
  unfold noteError
  split_ifs
  · simp only [bind_apply, assign, modifySnd_apply, raise_apply, after_result, after_state]
    exact ⟨trivial, trivial, trivial, trivial⟩
  · exact ⟨rfl, rfl, rfl, rfl⟩

/-- What the `finally` block finds. -/
theorem attempt_locals
    (token tool : PyStr) (params : OrderedDict PyStr Json) (s : CallState ω ρ) :
    let o := attempt env token tool params (s.1, startLocals, s.2.2)
    o.result = ownOutcome env token tool params s ∧ o.state.2.2 = s.2.2 ∧
      ServedLocals env token s.1 (ownOutcome env token tool params s) o.state.2.1 := by
  intro o
  obtain ⟨hlogger, hlocals⟩ := serve_locals env token tool params s.1 s.2.2
  have hresult : o.result = ownOutcome env token tool params s :=
    except_result_of_reraise (fun exc s' => (noteError_spec exc s').1) _
  refine ⟨hresult, ?_⟩
  cases hown : ownOutcome env token tool params s with
  | ok v =>
      have ho : o = serve env token tool params (s.1, startLocals, s.2.2) := by
        have hserve : (serve env token tool params (s.1, startLocals, s.2.2)).result = .ok v :=
          hown
        simp only [o, attempt, except, hserve]
      rw [ho]
      exact ⟨hlogger, hown ▸ hlocals⟩
  | error exc =>
      have hserve : (serve env token tool params (s.1, startLocals, s.2.2)).result =
          .error exc :=
        hown
      have ho : o.state = (noteError exc
          (serve env token tool params (s.1, startLocals, s.2.2)).state).state := by
        simp only [o, attempt, except, hserve, after_state]
      obtain ⟨_, hlogger', hprincipal, houtcome⟩ := noteError_spec exc
        (serve env token tool params (s.1, startLocals, s.2.2)).state
      rw [ho]
      refine ⟨hlogger'.trans hlogger, ?_, ?_, ?_⟩
      · exact hprincipal.trans hlocals.principal
      · rw [houtcome]
        exact hown ▸ hlocals.outcome
      · rw [houtcome]
        exact hlocals.encodable

/-- `after` is `before` with one record of the event appended. -/
def Appended (before after : AuditLogger) (e : AuditEvent) : Prop :=
  ∃ ts hash line,
    env.orjson.dumps (.obj (sealedRecord ts e before.state.prevHash hash)) = some line ∧
    after.state.file = some (before.state.file.getD [] ++ (line ++ [newline]))

/-- A record makes the file longer. -/
theorem not_appended_self
    (logger : AuditLogger) (e : AuditEvent) :
    ¬ Appended env logger logger e := by
  rintro ⟨ts, hash, line, _, hfile⟩
  cases hf : logger.state.file with
  | none =>
      rw [hf] at hfile
      cases hfile
  | some content =>
      rw [hf, Option.getD_some, Option.some.injEq] at hfile
      have := congrArg List.length hfile
      simp at this

/-- The texts of an event that come from outside can be written. -/
def EventEncodable (e : AuditEvent) : Prop :=
  Json.utf8Encodable e.actor = true ∧ (Json.ofOption e.tenant).serialisable = true ∧
    Json.utf8Encodable e.tool = true ∧ (Json.ofOption e.targetQm).serialisable = true

/-- The record of a call is serialisable when the texts from outside are. -/
theorem serialisable_record_iff
    (logger : AuditLogger) (ts : String) {paramsHash : String}
    {name : PyStr} {params : OrderedDict PyStr Json} {duration : DurationMs}
    {locals : Locals} (hlocals : Json.utf8Encodable locals.outcome = true)
    {extra : List (PyStr × Json)} (hextra : Json.serialisableItems extra = true) :
    let e := auditEvent name params (lit paramsHash) duration locals
    (Json.obj (linkedRecord (lit ts) e logger.state.prevHash ++ extra)).serialisable = true ↔
      EventEncodable e := by
  intro e
  have hduration : -(2 ^ 63) ≤ e.durationMs ∧ e.durationMs < 2 ^ 64 := by
    have hlow := duration.property.1
    have hhigh := duration.property.2
    change -(2 ^ 63) ≤ duration.val ∧ duration.val < 2 ^ 64
    omega
  have herror : (Json.ofOption e.error).serialisable = true := by
    change (Json.ofOption (locals.error.map lit)).serialisable = true
    cases locals.error with
    | none =>
        rfl
    | some name =>
        exact utf8Encodable_lit name
  have hhash : Json.utf8Encodable e.paramsHash = true := utf8Encodable_lit _
  have houtcome : Json.utf8Encodable e.outcome = true := hlocals
  simp only [Json.serialisable, linkedRecord, baseRecord, Json.serialisableItems_append,
    Json.serialisableItems, utf8Encodable_lit, logger.encodable, hextra, hduration, herror,
    hhash, houtcome, EventEncodable, and_self, decide_true, Bool.and_true, Bool.true_and,
    Bool.and_eq_true]

/-- What the record takes from outside the server can be written. -/
def Recordable (token tool : PyStr) (params : OrderedDict PyStr Json)
    (host : Host ω ρ) : Prop :=
  (Json.obj params.items).serialisable = true ∧ Json.utf8Encodable tool = true ∧
    ∀ p, verifiedPrincipal env token host = some p →
      Json.utf8Encodable p.subject = true ∧ (Json.ofOption p.tenant).serialisable = true

/-- The queue manager name of serialisable parameters can be written. -/
theorem serialisable_targetQm
    {params : OrderedDict PyStr Json} (h : (Json.obj params.items).serialisable = true) :
    (Json.ofOption (targetQm params)).serialisable = true := by
  unfold targetQm
  split
  · next qmName hget =>
      rw [Json.serialisable] at h
      exact Json.serialisable_of_mem h (OrderedDict.mem_items_of_get? hget)
  · rfl

/-- The event of a call, given the locals that the `try` block leaves. -/
theorem eventEncodable_iff
    {token tool paramsHash : PyStr} {params : OrderedDict PyStr Json} {host : Host ω ρ}
    {r : Except PyException Json} {duration : DurationMs} {locals : Locals}
    (hparams : (Json.obj params.items).serialisable = true)
    (hlocals : ServedLocals env token host r locals) :
    EventEncodable (auditEvent tool params paramsHash duration locals) ↔
      Recordable env token tool params host := by
  have htarget := serialisable_targetQm hparams
  have hactor : Json.utf8Encodable (lit "unauthenticated") = true := utf8Encodable_lit _
  unfold EventEncodable Recordable auditEvent
  rw [hlocals.principal]
  cases verifiedPrincipal env token host with
  | none =>
      have htenant : (Json.ofOption none).serialisable = true := rfl
      simp [htarget, htenant, hactor, hparams]
  | some p =>
      simp [htarget, hparams, and_comm, and_assoc, and_left_comm]

section Serialiser

/-- What a call serialises, its parameters and audit records, is serialised exactly. -/
structure SerialisesCall (oj : Orjson) (params : OrderedDict PyStr Json) : Prop where
  parameters : oj.SerialisesExactlyAt (.obj params.items)
  linked : ∀ ts e prev, oj.SerialisesExactlyAt (.obj (linkedRecord ts e prev))
  sealedUp : ∀ ts e prev hash, oj.SerialisesExactlyAt (.obj (sealedRecord ts e prev hash))

theorem serialisesCall_of_exact
    {oj : Orjson} (h : oj.SerialisesExactly) {params : OrderedDict PyStr Json} :
    SerialisesCall oj params :=
  ⟨h _, fun _ _ _ => h _, fun _ _ _ _ => h _⟩

variable {env}

/-- `dumps` of a serialisable value. -/
theorem exists_dumps
    {v : Json} (hser : env.orjson.SerialisesExactlyAt v) (h : v.serialisable = true) :
    (∃ b, env.orjson.dumps v = some b) ∧ ∃ b, env.orjson.dumpsSorted v = some b := by
  obtain ⟨hdump, hsorted⟩ := hser
  rw [h] at hdump hsorted
  exact ⟨Option.isSome_iff_exists.mp hdump, Option.isSome_iff_exists.mp hsorted⟩

theorem dumpsSorted_eq_none
    {v : Json} (hser : env.orjson.SerialisesExactlyAt v) (h : ¬ v.serialisable = true) :
    env.orjson.dumpsSorted v = none := by
  have hsorted := hser.2
  rw [Bool.eq_false_iff.mpr h] at hsorted
  exact Option.isNone_iff_eq_none.mp (by simpa using hsorted)

variable (env) {params : OrderedDict PyStr Json} (hser : SerialisesCall env.orjson params)

include hser

/-- An encodable event is appended. -/
theorem auditWrite_of_encodable
    (logger : AuditLogger) (ts : String) {paramsHash : String} {tool : PyStr}
    {duration : DurationMs} {locals : Locals}
    (hlocals : Json.utf8Encodable locals.outcome = true)
    (h : EventEncodable (auditEvent tool params (lit paramsHash) duration locals)) :
    ∃ logger', auditWrite env logger (lit ts)
        (auditEvent tool params (lit paramsHash) duration locals) = .ok logger' ∧
      Appended env logger logger'
        (auditEvent tool params (lit paramsHash) duration locals) := by
  have hlinked := (serialisable_record_iff logger ts hlocals
    (show Json.serialisableItems [] = true from rfl)).mpr h
  rw [List.append_nil] at hlinked
  obtain ⟨canonical, hcanonical⟩ := (exists_dumps (hser.linked _ _ _) hlinked).2
  have hhash : Json.serialisableItems [(lit "hash", .str (sha env canonical))] = true := by
    simp [Json.serialisableItems, Json.serialisable, utf8Encodable_lit, sha]
  have hsealed := (serialisable_record_iff logger ts hlocals hhash).mpr h
  obtain ⟨line, hline⟩ := (exists_dumps (hser.sealedUp _ _ _ _) hsealed).1
  have hwrite : Audit.write env.orjson (sha env) (lit ts)
      (auditEvent tool params (lit paramsHash) duration locals)
      logger.state.prevHash logger.state.file =
        some (sha env canonical, logger.state.file.getD [] ++ (line ++ [newline])) := by
    simp only [Audit.write, hcanonical, hline]
  unfold auditWrite
  split
  · next hnone =>
      rw [hwrite] at hnone
      cases hnone
  · next r hsome =>
      obtain rfl := Option.some.inj (hwrite.symm.trans hsome)
      exact ⟨_, rfl, lit ts, sha env canonical, line, hline, rfl⟩

/-- Any other event is refused. -/
theorem auditWrite_of_not_encodable
    (logger : AuditLogger) (ts : String) {paramsHash : String} {tool : PyStr}
    {duration : DurationMs} {locals : Locals}
    (hlocals : Json.utf8Encodable locals.outcome = true)
    (h : ¬ EventEncodable (auditEvent tool params (lit paramsHash) duration locals)) :
    ∃ exc, auditWrite env logger (lit ts)
      (auditEvent tool params (lit paramsHash) duration locals) = .error exc := by
  have hlinked := mt (serialisable_record_iff logger ts hlocals
    (show Json.serialisableItems [] = true from rfl)).mp h
  rw [List.append_nil] at hlinked
  have hwrite : Audit.write env.orjson (sha env) (lit ts)
      (auditEvent tool params (lit paramsHash) duration locals)
      logger.state.prevHash logger.state.file = none := by
    simp only [Audit.write, dumpsSorted_eq_none (hser.linked _ _ _) hlinked]
  unfold auditWrite
  split
  · exact ⟨_, rfl⟩
  · next r hsome =>
      rw [hwrite] at hsome
      cases hsome

/-- **The `finally` block on recordable inputs** appends one record and is silent. -/
theorem recordCall_of_recordable
    {token tool : PyStr} {host : Host ω ρ}
    {r : Except PyException Json} (started : ω) {s : CallState ω ρ}
    (hlocals : ServedLocals env token host r s.2.1)
    (h : Recordable env token tool params host) :
    ∃ logger' e, (recordCall env started tool params s).result = .ok () ∧
      (recordCall env started tool params s).state.2.2 = logger' ∧
      Appended env s.2.2 logger' e ∧
      e.actor = (s.2.1.principal.map Principal.subject).getD (lit "unauthenticated") ∧
      e.outcome = s.2.1.outcome := by
  obtain ⟨canonical, hcanonical⟩ := (exists_dumps hser.parameters h.1).2
  have hhash : hashParams env params = .ok (lit (env.hexdigest canonical)) := by
    simp only [hashParams, hcanonical]
    rfl
  have hevent : EventEncodable (auditEvent tool params (lit (env.hexdigest canonical))
      (env.elapsedMs started s.1.world) s.2.1) :=
    (eventEncodable_iff env h.1 hlocals).mpr h
  obtain ⟨logger', hwrite, happended⟩ := auditWrite_of_encodable env hser s.2.2
    (env.isoNow s.1.world) hlocals.encodable hevent
  have hrun : recordCall env started tool params s = ⟨.ok (), (s.1, s.2.1, logger'), []⟩ := by
    simp only [recordCall, hhash, hwrite]
  exact ⟨logger', _, by rw [hrun], by rw [hrun], happended, rfl, rfl⟩

/-- **The `finally` block on other inputs** raises and appends nothing. -/
theorem recordCall_of_not_recordable
    {token tool : PyStr} {host : Host ω ρ}
    {r : Except PyException Json} (started : ω) {s : CallState ω ρ}
    (hlocals : ServedLocals env token host r s.2.1)
    (h : ¬ Recordable env token tool params host) :
    ∃ exc, recordCall env started tool params s = ⟨.error exc, s, []⟩ := by
  by_cases hparams : (Json.obj params.items).serialisable = true
  · obtain ⟨canonical, hcanonical⟩ := (exists_dumps hser.parameters hparams).2
    have hhash : hashParams env params = .ok (lit (env.hexdigest canonical)) := by
      simp only [hashParams, hcanonical]
      rfl
    have hevent : ¬ EventEncodable (auditEvent tool params (lit (env.hexdigest canonical))
        (env.elapsedMs started s.1.world) s.2.1) :=
      mt (eventEncodable_iff env hparams hlocals).mp h
    obtain ⟨exc, hwrite⟩ := auditWrite_of_not_encodable env hser s.2.2
      (env.isoNow s.1.world) hlocals.encodable hevent
    exact ⟨exc, by simp only [recordCall, hhash, hwrite]⟩
  · refine ⟨env.encodeError (.obj params.items), ?_⟩
    simp only [recordCall, hashParams, dumpsSorted_eq_none hser.parameters hparams]

end Serialiser

/--
What a call owes its audit log: one record more, under the verified subject and
with the outcome `ok` exactly when the call returns, and the caller gets what the
`try` block ended with.
-/
structure AuditedOnce (token tool : PyStr) (params : OrderedDict PyStr Json)
    (s : CallState ω ρ) : Prop where
  own : (dispatch env token tool params s).result = ownOutcome env token tool params s
  recorded : ∃ e, Appended env s.2.2 (dispatch env token tool params s).state.2.2 e ∧
    e.actor = ((verifiedPrincipal env token s.1).map Principal.subject).getD
      (lit "unauthenticated") ∧
    (e.outcome = lit "ok" ↔ ∃ v, (dispatch env token tool params s).result = .ok v)

/-- `dispatch` as its `try` and `finally` blocks, from fresh locals. -/
theorem dispatch_eq
    (token tool : PyStr) (params : OrderedDict PyStr Json) (s : CallState ω ρ) :
    dispatch env token tool params s =
      finallyDo (attempt env token tool params) (recordCall env s.1.world tool params)
        (s.1, startLocals, s.2.2) := by
  unfold dispatch
  simp only [bind_apply, get_apply, assign, modifySnd_apply, after, List.nil_append]
  rfl

section Iff

variable {env}
variable {token tool : PyStr} {params : OrderedDict PyStr Json} {s : CallState ω ρ}

theorem recordable_of_auditedOnce
    (hser : SerialisesCall env.orjson params) (h : AuditedOnce env token tool params s) :
    Recordable env token tool params s.1 := by
  obtain ⟨_, hlogger, hlocals⟩ := attempt_locals env token tool params s
  obtain ⟨_, e, happended, _, _⟩ := h
  by_contra hrec
  obtain ⟨exc, hrun⟩ := recordCall_of_not_recordable env hser s.1.world hlocals hrec
  rw [dispatch_eq, finallyDo, hrun] at happended
  dsimp only at happended
  rw [hlogger] at happended
  exact not_appended_self env s.2.2 e happended

theorem auditedOnce_of_recordable
    (hser : SerialisesCall env.orjson params) (h : Recordable env token tool params s.1) :
    AuditedOnce env token tool params s := by
  obtain ⟨hresult, hlogger, hlocals⟩ := attempt_locals env token tool params s
  obtain ⟨logger', e, hok, hstate, happended, hactor, houtcome⟩ :=
    recordCall_of_recordable env hser s.1.world hlocals h
  have hdispatch : (dispatch env token tool params s).result =
      ownOutcome env token tool params s := by
    rw [dispatch_eq, finallyDo]
    simp only [hok, hresult]
  have hlogger' : (dispatch env token tool params s).state.2.2 = logger' := by
    rw [dispatch_eq, finallyDo]
    simp only [hok, hstate]
  refine ⟨hdispatch, e, ?_, ?_, ?_⟩
  · rw [hlogger', ← hlogger]
    exact happended
  · rw [hactor, hlocals.principal]
  · rw [houtcome, hdispatch]
    exact hlocals.outcome

end Iff

/--
**Every recordable call is audited once, and no other is.**  A call whose
parameters, tool name, subject or tenant the serialiser refuses leaves no record,
and its caller gets another exception.
-/
theorem audited_once_iff_recordable
    (hser : env.orjson.SerialisesExactly)
    (token tool : PyStr) (params : OrderedDict PyStr Json) (s : CallState ω ρ) :
    AuditedOnce env token tool params s ↔ Recordable env token tool params s.1 :=
  ⟨recordable_of_auditedOnce (serialisesCall_of_exact hser),
    auditedOnce_of_recordable (serialisesCall_of_exact hser)⟩

end

section Sample

def samplePrincipal : Principal :=
  ⟨lit "ann", none, [lit "nonprod-read"]⟩

/-- A development queue manager. -/
def sampleEntry : QMEntry where
  qmName := lit "QM1"
  host := lit "localhost"
  port := 1414
  channel := lit "APP.SVRCONN"
  environment := .dev
  secretRef := lit "demo"

/-- A server whose connector answers nothing; the limiter counts its tokens. -/
def sampleEnv : Env Unit Nat Unit Unit Unit where
  version := lit "1.0"
  environment := lit "dev"
  connectorMode := lit "fixture"
  repr s := CodePoint.quote :: s ++ [CodePoint.quote]
  sanitize := id
  verify token world :=
    if token = [] then
      (.error ⟨"TokenVerificationError", ["PermissionError", "OSError", "Exception"],
        lit "empty token"⟩, world)
    else (.ok samplePrincipal, world)
  allow _ _ tokens := (.ok (decide (0 < tokens)), tokens - 1)
  inventory := inMemoryRegistry id (InMemoryInventory.ofEntries [sampleEntry])
  resolve _ world := (.ok (), world)
  connectorFactory world := (.ok (), world)
  connect _ _ _ world := (.ok (), world)
  detect _ world := (.ok (), world)
  disconnect _ world := (.ok (), world)
  checks _ _ _ _ _ world := (.ok (.obj []), world)
  healthReport _ collected world := (.ok collected, world)
  isoNow _ := "2026-01-01T00:00:00+00:00"
  elapsedMs _ _ := ⟨3, by decide⟩
  orjson := Orjson.reference []
  encodeError _ := ⟨"JSONEncodeError", ["TypeError", "Exception"],
    lit "Integer exceeds 64-bit range"⟩
  hexdigest b :=
    if b = Json.text (.obj []) then
      "44136fa355b3678a1146ad16f7e8649e94fb4fc21fe77e8310c060f61caaff8a"
    else "b808f8af80b2374bda99a7bbecf5f4400f736563f3d076597deeaa26e10240a5"

/-- A full bucket and an empty log. -/
def sampleState : CallState Unit Nat :=
  (⟨(), 60⟩, startLocals, ⟨⟨none, genesisHash⟩, by decide⟩)

theorem audited_once_iff_recordable_health :
    AuditedOnce sampleEnv (lit "token") (lit "health") OrderedDict.empty sampleState := by
  refine (audited_once_iff_recordable sampleEnv (Orjson.serialisesExactly_reference [])
    _ _ _ _).mpr ⟨by decide, by decide, ?_⟩
  intro p hp
  have hsample : verifiedPrincipal sampleEnv (lit "token") sampleState.1 =
      some samplePrincipal := by
    decide
  obtain rfl := Option.some.inj (hsample.symm.trans hp)
  decide

/-- `{"n": 18446744073709551616}`, which a JSON decoder produces. -/
def oversizedParams : OrderedDict PyStr Json :=
  OrderedDict.ofList [(lit "n", .int (2 ^ 64))]

/-- A verified call that succeeds, with an integer of 65 bits among its parameters. -/
theorem oversized_integer_not_audited :
    ¬ AuditedOnce sampleEnv (lit "token") (lit "health") oversizedParams sampleState := by
  intro h
  have hrec := recordable_of_auditedOnce
    (serialisesCall_of_exact (Orjson.serialisesExactly_reference [])) h
  have hparams : (Json.obj oversizedParams.items).serialisable = false := by
    decide
  rw [hrec.1] at hparams
  cases hparams

end Sample

end Server
end MqSentinel
