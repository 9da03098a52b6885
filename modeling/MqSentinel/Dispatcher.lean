import MqSentinel.AuditRuns
import MqSentinel.AccessControl
import MqSentinel.EffectTraces

/-!
# The tool dispatcher

`dispatch` verifies the token, asks the rate limiter, runs one of nine tools and
writes the audit record in a `finally` block.  A tool method looks its queue
manager up and authorises the caller before it opens a connection with `openQm`.

What lies outside (the verifier, the limiter, the inventory, the secrets backend,
the connector and the checks that run on it, the clock) is a field of `Env` and may
do anything to the outer world `ω`, raising included.  Structured logging is left
out.  The observer sees the calls that mediation is about, as `Effect`s.
-/

namespace MqSentinel
namespace Server

open Effects Rbac Audit

/-- A call to the outside. -/
abbrev Call (ω α : Type) := ω → Except PyException α × ω

/-- What the dispatcher asks of an inventory. -/
structure InventoryRegistry (ω : Type) where
  get : PyStr → Call ω QMEntry
  listAll : Call ω (List QMEntry)

/-- An in-memory inventory, which never fails but for an unknown name. -/
def inMemoryRegistry {ω : Type} (repr : PyStr → PyStr) (inv : InMemoryInventory) :
    InventoryRegistry ω where
  get qmName world :=
    match inv.get? qmName with
    | some entry => (.ok entry, world)
    | none =>
        (.error (.lookupError (lit "QM " ++ repr qmName ++ lit " not in inventory")), world)
  listAll world := (.ok inv.listAll, world)

/-- The tools that open a connection. -/
inductive Diagnostic where
  | channels
  | dlq
  | cluster
  | healthCheck
  | nativeHa
  | rdqm
  | zos
  | miqm
deriving DecidableEq

/-- `TOOL_NAME` of the tool's module. -/
def Diagnostic.toolName : Diagnostic → PyStr
  | channels => lit "diagnose_failed_channels"
  | dlq => lit "analyze_dlq_and_suggest_reprocessing"
  | cluster => lit "check_cluster_health"
  | healthCheck => lit "full_mq_health_check"
  | nativeHa => lit "diagnose_native_ha_issues"
  | rdqm => lit "diagnose_rdqm_issues"
  | zos => lit "diagnose_zos_qsg_issues"
  | miqm => lit "diagnose_multi_instance_issues"

/-- A duration in whole milliseconds. -/
abbrev DurationMs := { d : Int // -(2 ^ 63) ≤ d ∧ d < 2 ^ 63 }

/--
The surroundings of a server: `ω` is the outer world, `ρ` the state of the
limiter, `κ` a connector, `χ` a credential and `φ` a topology fingerprint.
-/
structure Env (ω ρ κ χ φ : Type) where
  version : PyStr
  environment : PyStr
  connectorMode : PyStr
  /-- `repr` of a string -/
  repr : PyStr → PyStr
  /-- `sanitize_mq_output` -/
  sanitize : Json → Json
  verify : PyStr → Call ω Principal
  /-- `RateLimiter.allow`, which reads the clock -/
  allow : PyStr → ω → ρ → Except PyException Bool × ρ
  inventory : InventoryRegistry ω
  resolve : PyStr → Call ω χ
  connectorFactory : Call ω κ
  connect : κ → QMEntry → χ → Call ω Unit
  detect : κ → Call ω φ
  disconnect : κ → Call ω Unit
  /-- The body of the tool's `with` block, given its sample size if it has one. -/
  checks : Diagnostic → κ → φ → PyStr → Option Int → Call ω Json
  /-- What `full_mq_health_check` does after its `with` block. -/
  healthReport : PyStr → Json → Call ω Json
  /-- `datetime.now(UTC).isoformat()` -/
  isoNow : ω → String
  /-- `int((time.monotonic() - started) * 1000)`, from the worlds at both readings -/
  elapsedMs : ω → ω → DurationMs
  orjson : Orjson
  /-- What `orjson.dumps` raises on a value. -/
  encodeError : Json → PyException
  /-- `hashlib.sha256(...).hexdigest()` -/
  hexdigest : PyBytes → String

/-- What the observer sees; `none` is an exception. -/
inductive Effect where
  | verify (token : PyStr) (principal : Option Principal)
  | allow (subject : PyStr) (admitted : Option Bool)
  | lookup (qmName : PyStr) (entry : Option QMEntry)
  | authorize (p : Principal) (action : Action) (granted : Bool)
  | resolve (secretRef : PyStr)
  | makeConnector
  | connect (entry : QMEntry)
deriving DecidableEq

/-- The outer world and the buckets of the rate limiter. -/
structure Host (ω ρ : Type) where
  world : ω
  limiter : ρ

/-- A part of the server that runs on the host. -/
abbrev Tool (ω ρ α : Type) := Prog PyException Effect (Host ω ρ) α

section Tools

variable {ω ρ κ χ φ : Type} (env : Env ω ρ κ χ φ)

/-- A call to the outside, as a part of the server. -/
def call {α : Type} (f : Call ω α) : Tool ω ρ α :=
  fun s => ⟨(f s.world).1, { s with world := (f s.world).2 }, []⟩

def verify (token : PyStr) : Tool ω ρ Principal :=
  Prog.observed (fun r => .verify token r.toOption) (call (env.verify token))

/-- `self._rate.allow(subject)` -/
def allow (subject : PyStr) : Tool ω ρ Bool :=
  Prog.observed (fun r => .allow subject r.toOption) fun s =>
    ⟨(env.allow subject s.world s.limiter).1,
      { s with limiter := (env.allow subject s.world s.limiter).2 }, []⟩

/-- `inventory.get(qm_name)` -/
def lookup (qmName : PyStr) : Tool ω ρ QMEntry :=
  Prog.observed (fun r => .lookup qmName r.toOption) (call (env.inventory.get qmName))

/-- `authorize(principal, action)` -/
def checkAction (p : Principal) (action : Action) : Tool ω ρ Unit :=
  Prog.observed (fun r => .authorize p action r.toOption.isSome) fun s =>
    ⟨authorize env.repr p action, s, []⟩

/--
`open_qm`: the entry is looked up again, and `disconnect` runs whatever happens
once the connection is open.
-/
def openQm {α : Type} (qmName : PyStr) (body : κ → φ → Tool ω ρ α) : Tool ω ρ α := do
  let entry ← lookup env qmName
  Prog.emit (.resolve entry.secretRef)
  let credential ← call (env.resolve entry.secretRef)
  Prog.emit .makeConnector
  let connector ← call env.connectorFactory
  Prog.emit (.connect entry)
  call (env.connect connector entry credential)
  Prog.finallyDo
    (do
      let fingerprint ← call (env.detect connector)
      body connector fingerprint)
    (call (env.disconnect connector))

/-- A tool that reports from inside its `with` block. -/
def runInside (d : Diagnostic) (qmName : PyStr) (sample : Option Int) : Tool ω ρ Json :=
  openQm env qmName fun connector fingerprint =>
    call (env.checks d connector fingerprint qmName sample)

/-- `full_mq_health_check`, which reports after its `with` block. -/
def fullMqHealthCheck (qmName : PyStr) (dlqSampleSize : Int) : Tool ω ρ Json := do
  let collected ← runInside env .healthCheck qmName (some dlqSampleSize)
  call (env.healthReport qmName collected)

/--
The `except LookupError` block of the tool methods: an unknown name is reported only
to callers who may read non-production.
-/
def unknownQm (p : Principal) (exc : PyException) : Tool ω ρ QMEntry :=
  if exc.isInstance "LookupError" then do
    checkAction env p .readNonprod
    Prog.raise exc
  else Prog.raise exc

/-- The guard of every tool method: the entry's environment decides the action. -/
def authorised (qmName : PyStr) (p : Principal) (tool : Tool ω ρ Json) :
    Tool ω ρ Json := do
  let entry ← Prog.except (lookup env qmName) (unknownQm env p)
  checkAction env p (readAction entry)
  tool

def diagnoseChannels (qmName : PyStr) (p : Principal) : Tool ω ρ Json :=
  authorised env qmName p (runInside env .channels qmName none)

def analyzeDlq (qmName : PyStr) (p : Principal) (sampleSize : Int) : Tool ω ρ Json :=
  authorised env qmName p (runInside env .dlq qmName (some sampleSize))

def checkClusterHealth (qmName : PyStr) (p : Principal) : Tool ω ρ Json :=
  authorised env qmName p (runInside env .cluster qmName none)

def fullHealthCheck (qmName : PyStr) (p : Principal) (dlqSampleSize : Int) :
    Tool ω ρ Json :=
  authorised env qmName p (fullMqHealthCheck env qmName dlqSampleSize)

def diagnoseNativeHa (qmName : PyStr) (p : Principal) : Tool ω ρ Json :=
  authorised env qmName p (runInside env .nativeHa qmName none)

def diagnoseRdqm (qmName : PyStr) (p : Principal) : Tool ω ρ Json :=
  authorised env qmName p (runInside env .rdqm qmName none)

def diagnoseZos (qmName : PyStr) (p : Principal) : Tool ω ρ Json :=
  authorised env qmName p (runInside env .zos qmName none)

def diagnoseMiqm (qmName : PyStr) (p : Principal) : Tool ω ρ Json :=
  authorised env qmName p (runInside env .miqm qmName none)

/-- One queue manager in the answer of `health`. -/
def healthEntry (e : QMEntry) : Json :=
  .obj [(lit "qm_name", .str e.qmName),
    (lit "environment", .str e.environment.value),
    (lit "topology_hint", .str e.topologyHint.value)]

/-- `health`: the queue managers that the caller may read. -/
def health (p : Principal) : Tool ω ρ Json := do
  let entries ← call env.inventory.listAll
  return env.sanitize (.obj
    [(lit "status", .str (lit "ok")),
      (lit "version", .str env.version),
      (lit "environment", .str env.environment),
      (lit "connector", .str
        (if env.connectorMode = lit "pymqi" then lit "live" else lit "demo-fixtures")),
      (lit "principal", .str p.subject),
      (lit "queue_managers", .arr ((entries.filter (canRead env.repr p)).map healthEntry))])

/-- `qm_name`, which must be a string. -/
def requireQmName (params : OrderedDict PyStr Json) : Tool ω ρ PyStr :=
  match params.get? (lit "qm_name") with
  | some (.str qmName) => Prog.ret qmName
  | _ => Prog.raise (.valueError (lit "qm_name (str) parameter required"))

/-- A sample size, 50 unless given; a boolean is an `int`. -/
def requireSample (key : PyStr) (params : OrderedDict PyStr Json) : Tool ω ρ Int :=
  match params.get? key with
  | none => Prog.ret 50
  | some (.int n) => Prog.ret n
  | some (.bool b) => Prog.ret (if b then 1 else 0)
  | some _ => Prog.raise (.valueError (key ++ lit " must be an int"))

/-- The chain of `elif`s over the tool names. -/
def runTool (tool : PyStr) (params : OrderedDict PyStr Json) (p : Principal) :
    Tool ω ρ Json :=
  if tool = lit "health" then health env p
  else if tool = Diagnostic.channels.toolName then do
    let qmName ← requireQmName params
    diagnoseChannels env qmName p
  else if tool = Diagnostic.dlq.toolName then do
    let qmName ← requireQmName params
    let sample ← requireSample (lit "sample_size") params
    analyzeDlq env qmName p sample
  else if tool = Diagnostic.cluster.toolName then do
    let qmName ← requireQmName params
    checkClusterHealth env qmName p
  else if tool = Diagnostic.healthCheck.toolName then do
    let qmName ← requireQmName params
    let sample ← requireSample (lit "dlq_sample_size") params
    fullHealthCheck env qmName p sample
  else if tool = Diagnostic.nativeHa.toolName then do
    let qmName ← requireQmName params
    diagnoseNativeHa env qmName p
  else if tool = Diagnostic.rdqm.toolName then do
    let qmName ← requireQmName params
    diagnoseRdqm env qmName p
  else if tool = Diagnostic.zos.toolName then do
    let qmName ← requireQmName params
    diagnoseZos env qmName p
  else if tool = Diagnostic.miqm.toolName then do
    let qmName ← requireQmName params
    diagnoseMiqm env qmName p
  else Prog.raise (.lookupError (lit "unknown tool: " ++ tool))

end Tools

/-- No character of a Lean string is a surrogate. -/
theorem utf8Encodable_lit
    (s : String) :
    Json.utf8Encodable (lit s) = true := by
  simp only [Json.utf8Encodable, lit, List.all_map, List.all_eq_true, Function.comp_apply,
    decide_eq_true_eq]
  intro c _
  have hc : c.toNat < 0xD800 ∨ 0xDFFF < c.toNat ∧ c.toNat < 0x110000 := c.valid
  simp only [ch]
  omega

/-- The audit logger; the hash it remembers can be written. -/
structure AuditLogger where
  state : LogState
  encodable : Json.utf8Encodable state.prevHash = true

/-- The local variables that the `finally` block reads. -/
structure Locals where
  principal : Option Principal
  outcome : PyStr
  error : Option String

/-- The state of a call: the host, the locals and the logger. -/
abbrev CallState (ω ρ : Type) := Host ω ρ × Locals × AuditLogger

section Dispatch

variable {ω ρ κ χ φ : Type} (env : Env ω ρ κ χ φ)

/-- SHA-256 of the environment as text. -/
def sha (b : PyBytes) : PyStr :=
  lit (env.hexdigest b)

/-- A written hash is the digest of the canonical text. -/
theorem encodable_of_write
    {ts : PyStr} {e : AuditEvent} {prev : PyStr} {file : Option PyBytes}
    {r : PyStr × PyBytes} (h : Audit.write env.orjson (sha env) ts e prev file = some r) :
    Json.utf8Encodable r.1 = true := by
  unfold Audit.write at h
  split at h
  · cases h
  · split at h
    · cases h
    · obtain rfl := Option.some.inj h
      exact utf8Encodable_lit _

/-- `self._audit.write(event)` -/
def auditWrite (logger : AuditLogger) (ts : PyStr) (e : AuditEvent) :
    Except PyException AuditLogger :=
  match h : Audit.write env.orjson (sha env) ts e logger.state.prevHash logger.state.file with
  | none => .error (env.encodeError (.obj (linkedRecord ts e logger.state.prevHash)))
  | some r => .ok ⟨⟨some r.2, r.1⟩, encodable_of_write env h⟩

/-- A hash read from the file can be written, for a parser that yields nothing else. -/
theorem encodable_of_loadLastHash
    {oj : Orjson} (hloads : ∀ b v, oj.loads b = some v → v.serialisable = true)
    {file : Option PyBytes} {hash : PyStr} (h : loadLastHash oj file = some hash) :
    Json.utf8Encodable hash = true := by
  have hgenesis : Json.utf8Encodable genesisHash = true := by
    decide
  unfold loadLastHash at h
  split at h
  · obtain rfl := Option.some.inj h
    exact hgenesis
  · split at h
    · obtain rfl := Option.some.inj h
      exact hgenesis
    · next v hv =>
        split at h
        · cases h
        · next record hrecord =>
            split at h
            · next stored hstored =>
                obtain rfl := Option.some.inj h
                cases v with
                | obj items =>
                    obtain rfl := Option.some.inj hrecord
                    have hmem := OrderedDict.mem_of_mem_ofList
                      (OrderedDict.mem_items_of_get? hstored)
                    have hitems := hloads _ _ hv
                    rw [Json.serialisable] at hitems
                    exact Json.serialisable_of_mem hitems hmem
                | _ =>
                    cases hrecord
            · obtain rfl := Option.some.inj h
              exact hgenesis

/-- `AuditLogger(log_path)` -/
def openAuditLogger
    (hloads : ∀ b v, env.orjson.loads b = some v → v.serialisable = true)
    (file : Option PyBytes) : Option AuditLogger :=
  match h : loadLastHash env.orjson file with
  | none => none
  | some hash => some ⟨⟨file, hash⟩, encodable_of_loadLastHash hloads h⟩

/-- `_hash_params(params or {})` -/
def hashParams (params : OrderedDict PyStr Json) : Except PyException PyStr :=
  match env.orjson.dumpsSorted (.obj params.items) with
  | none => .error (env.encodeError (.obj params.items))
  | some canonical => .ok (sha env canonical)

/-- `target_qm` of the record. -/
def targetQm (params : OrderedDict PyStr Json) : Option PyStr :=
  match params.get? (lit "qm_name") with
  | some (.str qmName) => some qmName
  | _ => none

/-- The event of a call, with its parameters hashed. -/
def auditEvent (tool : PyStr) (params : OrderedDict PyStr Json) (paramsHash : PyStr)
    (duration : DurationMs) (locals : Locals) : AuditEvent where
  actor := (locals.principal.map Principal.subject).getD (lit "unauthenticated")
  tenant := locals.principal.bind Principal.tenant
  tool := tool
  targetQm := targetQm params
  paramsHash := paramsHash
  outcome := locals.outcome
  durationMs := duration.val
  error := locals.error.map lit

/-- The `finally` block. -/
def recordCall (started : ω) (tool : PyStr) (params : OrderedDict PyStr Json) :
    Prog PyException Effect (CallState ω ρ) Unit :=
  fun s =>
    let now := s.1.world
    match hashParams env params with
    | .error exc => ⟨.error exc, s, []⟩
    | .ok paramsHash =>
        let e := auditEvent tool params paramsHash (env.elapsedMs started now) s.2.1
        match auditWrite env s.2.2 (lit (env.isoNow now)) e with
        | .error exc => ⟨.error exc, s, []⟩
        | .ok logger => ⟨.ok (), (s.1, s.2.1, logger), []⟩

/-- Assignment to the locals. -/
def assign (f : Locals → Locals) : Prog PyException Effect (CallState ω ρ) Unit :=
  Prog.modifySnd fun t => (f t.1, t.2)

/-- The `try` block. -/
def serve (token tool : PyStr) (params : OrderedDict PyStr Json) :
    Prog PyException Effect (CallState ω ρ) Json := do
  let p ← Prog.onFst (verify env token)
  assign fun l => { l with principal := some p }
  let admitted ← Prog.onFst (allow env p.subject)
  if admitted then do
    let result ← Prog.onFst (runTool env tool params p)
    assign fun l => { l with outcome := lit "ok" }
    return result
  else do
    assign fun l => { l with outcome := lit "denied" }
    Prog.raise (.permissionError (lit "rate limit exceeded"))

/-- The `except` block. -/
def noteError (exc : PyException) : Prog PyException Effect (CallState ω ρ) Json :=
  if exc.isInstance "Exception" then do
    assign fun l => { l with error := some exc.className }
    Prog.raise exc
  else Prog.raise exc

/-- The `try` block with its `except` block. -/
def attempt (token tool : PyStr) (params : OrderedDict PyStr Json) :
    Prog PyException Effect (CallState ω ρ) Json :=
  Prog.except (serve env token tool params) noteError

/-- `MQSentinelServer.dispatch` -/
def dispatch (token tool : PyStr) (params : OrderedDict PyStr Json) :
    Prog PyException Effect (CallState ω ρ) Json := do
  let started ← Prog.get
  assign fun _ => ⟨none, lit "error", none⟩
  Prog.finallyDo (attempt env token tool params) (recordCall env started.1.world tool params)

end Dispatch

end Server
end MqSentinel
