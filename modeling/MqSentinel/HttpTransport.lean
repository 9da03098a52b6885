import MqSentinel.InventorySecrecy
import MqSentinel.RawRows

/-!
# The HTTP transport

`POST /mcp/tools/call` checks the request, calls `dispatch` and turns an exception into a
status by its Python class.  Where an exception comes from plays no part in that, so the
statuses mean what they say only if the classes tell the origins apart.

`Blame` is the dispatcher once more, with every exception marked by its origin; without
the marks it is `serve` itself (`unmarked_serve`).  The response headers and the metrics
are left out.
-/

namespace MqSentinel
namespace Server

open Effects Effects.Prog Rbac

/-- What the endpoint reads of a request; a body that is not JSON is `none`. -/
structure Request where
  contentLength : Option PyStr
  authorization : Option PyStr
  body : Option Json

structure Response where
  status : Nat
  body : Json

def errorBody (text : String) : Json :=
  .obj [(lit "error", .str (lit text))]

def detailBody (text : String) (detail : PyStr) : Json :=
  .obj [(lit "error", .str (lit text)), (lit "detail", .str detail)]

section Endpoint

variable (U : UnicodeData)

/-- The `except` clauses of `tools_call`, in their order. -/
def errorResponse (exc : PyException) : Option Response :=
  if exc.isInstance "TokenVerificationError" then some ⟨401, errorBody "unauthorized"⟩
  else if exc.isInstance "AuthorizationError" then some ⟨403, errorBody "forbidden"⟩
  else if exc.isInstance "LookupError" then some ⟨404, errorBody "not_found"⟩
  else if exc.isInstance "PermissionError" then
    some ⟨429, detailBody "rate_limited" exc.message⟩
  else if exc.isInstance "ValueError" then some ⟨400, detailBody "bad_request" exc.message⟩
  else if exc.isInstance "Exception" then some ⟨500, errorBody "internal_error"⟩
  else none

variable {ω ρ κ χ φ : Type} (env : Env ω ρ κ χ φ)

/-- `dispatch` inside the `try` of `tools_call`. -/
def answer (token tool : PyStr) (params : OrderedDict PyStr Json) :
    Prog PyException Effect (CallState ω ρ) Response :=
  Prog.except
    (do
      let result ← dispatch env token tool params
      return ⟨200, result⟩)
    fun exc =>
      match errorResponse exc with
      | some response => Prog.ret response
      | none => Prog.raise exc

end Endpoint

/-- Where an exception comes from. -/
inductive Origin where
  | verifier
  | limiter
  | rateLimit
  | parameters
  | toolName
  | inventory
  | listing
  | rbac
  | backend
  | tool
deriving DecidableEq

/-- An exception with its origin. -/
abbrev Fault := Origin × PyException

/-- Marks the exceptions of a program with their origin. -/
def blame {σ α : Type} (o : Origin) (x : Prog PyException Effect σ α) :
    Prog Fault Effect σ α :=
  mapErr (fun exc => (o, exc)) x

namespace Blame

section

variable {ω ρ κ χ φ : Type} (env : Env ω ρ κ χ φ)
  (atFault : Diagnostic → κ → φ → PyStr → Option Int → ω → Bool)

/-- The body of a tool; `atFault` tells whether the connector is to blame for its exception. -/
def checks (d : Diagnostic) (connector : κ) (fingerprint : φ) (qmName : PyStr)
    (sample : Option Int) : Prog Fault Effect (Host ω ρ) Json :=
  fun s =>
    blame (if atFault d connector fingerprint qmName sample s.world then .backend else .tool)
      (call (env.checks d connector fingerprint qmName sample)) s

/-- `openQm` with marks. -/
def openQm (qmName : PyStr) (body : κ → φ → Prog Fault Effect (Host ω ρ) Json) :
    Prog Fault Effect (Host ω ρ) Json := do
  let entry ← blame .inventory (lookup env qmName)
  Prog.emit (.resolve entry.secretRef)
  let credential ← blame .backend (call (env.resolve entry.secretRef))
  Prog.emit .makeConnector
  let connector ← blame .backend (call env.connectorFactory)
  Prog.emit (.connect entry)
  blame .backend (call (env.connect connector entry credential))
  Prog.finallyDo
    (do
      let fingerprint ← blame .backend (call (env.detect connector))
      body connector fingerprint)
    (blame .backend (call (env.disconnect connector)))

/-- `runInside` with marks. -/
def runInside (d : Diagnostic) (qmName : PyStr) (sample : Option Int) :
    Prog Fault Effect (Host ω ρ) Json :=
  openQm env qmName fun connector fingerprint =>
    checks env atFault d connector fingerprint qmName sample

/-- `fullMqHealthCheck` with marks. -/
def fullMqHealthCheck (qmName : PyStr) (dlqSampleSize : Int) :
    Prog Fault Effect (Host ω ρ) Json := do
  let collected ← runInside env atFault .healthCheck qmName (some dlqSampleSize)
  blame .tool (call (env.healthReport qmName collected))

/-- `unknownQm` with marks. -/
def unknownQm (p : Principal) (fault : Fault) : Prog Fault Effect (Host ω ρ) QMEntry :=
  if fault.2.isInstance "LookupError" then do
    blame .rbac (checkAction env p .readNonprod)
    Prog.raise fault
  else Prog.raise fault

/-- `authorised` with marks. -/
def authorised (qmName : PyStr) (p : Principal) (tool : Prog Fault Effect (Host ω ρ) Json) :
    Prog Fault Effect (Host ω ρ) Json := do
  let entry ← Prog.except (blame .inventory (lookup env qmName)) (unknownQm env p)
  blame .rbac (checkAction env p (readAction entry))
  tool

/-- A diagnostic with marks. -/
def diagnose (d : Diagnostic) (params : OrderedDict PyStr Json) (p : Principal) :
    Prog Fault Effect (Host ω ρ) Json := do
  let qmName ← blame .parameters (requireQmName params)
  match d with
  | .dlq => do
      let sample ← blame .parameters (requireSample (lit "sample_size") params)
      authorised env qmName p (runInside env atFault .dlq qmName (some sample))
  | .healthCheck => do
      let sample ← blame .parameters (requireSample (lit "dlq_sample_size") params)
      authorised env qmName p (fullMqHealthCheck env atFault qmName sample)
  | d => authorised env qmName p (runInside env atFault d qmName none)

/-- The diagnostic of a name. -/
def diagnosticOf (tool : PyStr) : Option Diagnostic :=
  [ Diagnostic.channels, .dlq, .cluster, .healthCheck, .nativeHa, .rdqm, .zos, .miqm ].find?
    fun d => tool = d.toolName

/-- `runTool` with marks. -/
def runTool (tool : PyStr) (params : OrderedDict PyStr Json) (p : Principal) :
    Prog Fault Effect (Host ω ρ) Json :=
  if tool = lit "health" then blame .listing (health env p)
  else
    match diagnosticOf tool with
    | some d => diagnose env atFault d params p
    | none => Prog.raise (.toolName, .lookupError (lit "unknown tool: " ++ tool))

/-- An assignment cannot fail. -/
def assign (f : Locals → Locals) : Prog Fault Effect (CallState ω ρ) Unit :=
  Prog.modifySnd fun t => (f t.1, t.2)

/-- `serve` with marks. -/
def serve (token tool : PyStr) (params : OrderedDict PyStr Json) :
    Prog Fault Effect (CallState ω ρ) Json := do
  let p ← Prog.onFst (blame .verifier (verify env token))
  assign fun l => { l with principal := some p }
  let admitted ← Prog.onFst (blame .limiter (allow env p.subject))
  if admitted then do
    let result ← Prog.onFst (runTool env atFault tool params p)
    assign fun l => { l with outcome := lit "ok" }
    return result
  else do
    assign fun l => { l with outcome := lit "denied" }
    Prog.raise (.rateLimit, .permissionError (lit "rate limit exceeded"))

section Unmarked

end Unmarked

section Sound

end Sound

end

end Blame

section Statuses

variable {ω ρ κ χ φ : Type} (env : Env ω ρ κ χ φ)

variable {U : UnicodeData} {request : Request} {token tool : PyStr}
  {params : OrderedDict PyStr Json}

end Statuses

section Sample

end Sample

end Server
end MqSentinel
