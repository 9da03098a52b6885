import MqSentinel.DispatchAudit
import MqSentinel.RawRows

/-!
# The live connection

`PymqiConnector.connect` opens a connection and then a PCF handle on it; `disconnect`
gives both back and forgets them, whatever fails on the way.  `open_qm` calls `disconnect`
in a `finally` block that begins behind `connect`: a connection whose PCF handle cannot be
built stays open.

Every call into pymqi is a field of `Api` and may raise.  `liveEnv` puts the connector
under the dispatcher's `openQm`.
-/

namespace MqSentinel
namespace Pymqi

open Effects Server

/-- `MQCredential`, without the password of the keystore, which no call reads. -/
structure MQCredential where
  user : PyStr
  password : PyStr
  keystorePath : Option PyStr := none
  certLabel : Option PyStr := none

/-- The fields of `pymqi.CD` that depend on the entry. -/
structure ChannelDefinition where
  channelName : PyStr
  connectionName : PyStr
  sslCipherSpec : Option PyStr

/-- The fields of `pymqi.SCO`. -/
structure SslOptions where
  keyRepository : PyStr
  certificateLabel : Option PyStr

/-- `if x:` on an optional string. -/
def given : Option PyStr → Option PyStr
  | some (c :: s) => some (c :: s)
  | _ => none

def channelDefinition (entry : QMEntry) : ChannelDefinition where
  channelName := entry.channel
  connectionName := entry.host ++ lit "(" ++ natStr entry.port ++ lit ")"
  sslCipherSpec := given entry.cipherSpec

def sslOptions (credential : MQCredential) : Option SslOptions :=
  (given credential.keystorePath).map fun path => ⟨path, given credential.certLabel⟩

/-- pymqi: `η` is a `QueueManager` and `π` a `PCFExecute`. -/
structure Api (ω η π : Type) where
  /-- `_import_pymqi` -/
  load : Call ω Unit
  /-- Filling in `CD` and `SCO`. -/
  options : ChannelDefinition → Option SslOptions → Call ω Unit
  /-- `pymqi.QueueManager(None)` -/
  queueManager : Call ω η
  connectWithOptions : η → PyStr → ChannelDefinition → Option SslOptions → PyStr → PyStr →
    Call ω Unit
  pcfExecute : η → Call ω π
  disconnectPcf : π → Call ω Unit
  disconnectQm : η → Call ω Unit
  /-- `getattr(exc, "reason", None)`, when it is an integer -/
  reason : PyException → Option Int

/-- What is seen of the connection: that it was opened, and each attempt to close. -/
inductive Trace (η π : Type) where
  | connected (qmgr : η)
  | disconnectPcf (pcf : π)
  | disconnectQm (qmgr : η)
deriving DecidableEq

/-- The fields of a `PymqiConnector`. -/
structure Connector (η π : Type) where
  qmgr : Option η := none
  pcf : Option π := none
  entry : Option QMEntry := none

/-- A method of the connector. -/
abbrev Method (ω η π α : Type) := Prog PyException (Trace η π) (ω × Connector η π) α

section Methods

variable {ω η π : Type} (pm : Api ω η π)

/-- A call into pymqi. -/
def api {α : Type} (f : Call ω α) : Method ω η π α :=
  fun s => ⟨(f s.1).1, ((f s.1).2, s.2), []⟩

/-- `MQConnectionError`; only the reason code of the cause is told. -/
def connectionError (entry : QMEntry) (exc : PyException) : PyException :=
  let detail :=
    match pm.reason exc with
    | some reason => lit " (MQRC " ++ PyInt.toStr reason ++ lit ")"
    | none => []
  ⟨"MQConnectionError", ["RuntimeError", "Exception"],
    lit "failed to connect to " ++ entry.qmName ++ detail⟩

/-- The `try` block of `connect`. -/
def openHandles (entry : QMEntry) (credential : MQCredential) : Method ω η π Unit := do
  let qmgr ← api pm.queueManager
  Prog.modifySnd fun c => { c with qmgr := some qmgr }
  api (pm.connectWithOptions qmgr entry.qmName (channelDefinition entry)
    (sslOptions credential) credential.user credential.password)
  Prog.emit (.connected qmgr)
  let pcf ← api (pm.pcfExecute qmgr)
  Prog.modifySnd fun c => { c with pcf := some pcf }
  Prog.modifySnd fun c => { c with entry := some entry }

/-- `connect` -/
def connect (entry : QMEntry) (credential : MQCredential) : Method ω η π Unit := do
  api pm.load
  api (pm.options (channelDefinition entry) (sslOptions credential))
  Prog.except (openHandles pm entry credential) fun exc =>
    if exc.isInstance "Exception" then Prog.raise (connectionError pm entry exc)
    else Prog.raise exc

/-- `if self._pcf is not None: self._pcf.disconnect()` -/
def closePcf : Method ω η π Unit := do
  let s ← Prog.get
  match s.2.pcf with
  | none => Prog.ret ()
  | some pcf =>
      Prog.emit (.disconnectPcf pcf)
      api (pm.disconnectPcf pcf)

/-- `if self._qmgr is not None: self._qmgr.disconnect()` -/
def closeQm : Method ω η π Unit := do
  let s ← Prog.get
  match s.2.qmgr with
  | none => Prog.ret ()
  | some qmgr =>
      Prog.emit (.disconnectQm qmgr)
      api (pm.disconnectQm qmgr)

/-- The innermost `finally` block of `disconnect`. -/
def forget : Method ω η π Unit :=
  Prog.modifySnd fun _ => {}

/-- `disconnect` -/
def disconnect : Method ω η π Unit :=
  Prog.finallyDo (closePcf pm) (Prog.finallyDo (closeQm pm) forget)

end Methods

/-- The outer world, the connector of the run, and what was seen of its connection. -/
structure World (ω η π : Type) where
  outer : ω
  connector : Connector η π
  trace : List (Trace η π)

section Live

variable {ω ρ η π φ : Type}

/-- A method of the connector as a call of the dispatcher. -/
def method {α : Type} (x : Method ω η π α) : Call (World ω η π) α :=
  fun w =>
    ((x (w.outer, w.connector)).result,
      ⟨(x (w.outer, w.connector)).state.1, (x (w.outer, w.connector)).state.2,
        w.trace ++ (x (w.outer, w.connector)).events⟩)

/-- A call that does not touch the fields of the connector. -/
def outside {α : Type} (f : Call ω α) : Call (World ω η π) α :=
  fun w => ((f w.outer).1, { w with outer := (f w.outer).2 })

/-- The surroundings of a server whose connector is the live one. -/
def liveEnv (env : Env ω ρ (Connector η π) MQCredential φ) (pm : Api ω η π) :
    Env (World ω η π) ρ Unit MQCredential φ where
  version := env.version
  environment := env.environment
  connectorMode := env.connectorMode
  repr := env.repr
  sanitize := env.sanitize
  verify token := outside (env.verify token)
  allow subject w limiter := env.allow subject w.outer limiter
  inventory :=
    { get := fun qmName => outside (env.inventory.get qmName)
      listAll := outside env.inventory.listAll }
  resolve secretRef := outside (env.resolve secretRef)
  connectorFactory w := (.ok (), { w with connector := {} })
  connect _ entry credential := method (connect pm entry credential)
  detect _ w := outside (env.detect w.connector) w
  disconnect _ := method (disconnect pm)
  checks d _ fingerprint qmName sample w :=
    outside (env.checks d w.connector fingerprint qmName sample) w
  healthReport qmName collected := outside (env.healthReport qmName collected)
  isoNow w := env.isoNow w.outer
  elapsedMs w w' := env.elapsedMs w.outer w'.outer
  orjson := env.orjson
  encodeError := env.encodeError
  hexdigest := env.hexdigest

end Live

section Connection

variable {ω η π : Type} (pm : Api ω η π)

/-- The queue manager that `connect_with_options` has connected, and the world then. -/
def connectedQm (entry : QMEntry) (credential : MQCredential) (world : ω) :
    Option (η × ω) :=
  match pm.load world with
  | (.error _, _) => none
  | (.ok _, w₁) =>
      match pm.options (channelDefinition entry) (sslOptions credential) w₁ with
      | (.error _, _) => none
      | (.ok _, w₂) =>
          match pm.queueManager w₂ with
          | (.error _, _) => none
          | (.ok qmgr, w₃) =>
              match pm.connectWithOptions qmgr entry.qmName (channelDefinition entry)
                  (sslOptions credential) credential.user credential.password w₃ with
              | (.error _, _) => none
              | (.ok _, w₄) => some (qmgr, w₄)

/-- A step of `connect` that raises before anything is connected. -/
structure NotConnected (o : Outcome PyException (Trace η π) (ω × Connector η π) Unit) :
    Prop where
  raised : o.result.toOption = none
  unseen : o.events = []

/-- What `connect` does to a new connector. -/
theorem connect_apply
    (entry : QMEntry) (credential : MQCredential) (world : ω) :
    match connectedQm pm entry credential world with
    | none => NotConnected (connect pm entry credential (world, {}))
    | some (qmgr, w) =>
        (connect pm entry credential (world, {})).events = [.connected qmgr] ∧
          match (pm.pcfExecute qmgr w).1 with
          | .error _ =>
              (connect pm entry credential (world, {})).result.toOption = none
          | .ok pcf =>
              (connect pm entry credential (world, {})).result = .ok () ∧
                (connect pm entry credential (world, {})).state =
                  ((pm.pcfExecute qmgr w).2, ⟨some qmgr, some pcf, some entry⟩) := by
  have hreraise : ∀ (exc : PyException) (s : ω × Connector η π),
      ((if exc.isInstance "Exception" then Prog.raise (connectionError pm entry exc)
        else Prog.raise exc : Method ω η π Unit) s).result.toOption = none ∧
      ((if exc.isInstance "Exception" then Prog.raise (connectionError pm entry exc)
        else Prog.raise exc : Method ω η π Unit) s).events = [] := by
    intro exc s
    split <;> exact ⟨rfl, rfl⟩
  rw [connectedQm, connect]
  simp only [Prog.bind_apply, api]
  rcases pm.load world with ⟨loaded, w₁⟩
  cases loaded with
  | error exc =>
      exact ⟨rfl, rfl⟩
  | ok u =>
  simp only
  rcases pm.options (channelDefinition entry) (sslOptions credential) w₁ with ⟨filled, w₂⟩
  cases filled with
  | error exc =>
      exact ⟨rfl, rfl⟩
  | ok u =>
  simp only [Prog.except, openHandles, Prog.bind_apply, api]
  rcases pm.queueManager w₂ with ⟨made, w₃⟩
  cases made with
  | error exc =>
      exact ⟨(hreraise exc _).1, by simp [(hreraise exc _).2]⟩
  | ok qmgr =>
  simp only [Prog.modifySnd_apply]
  rcases pm.connectWithOptions qmgr entry.qmName (channelDefinition entry)
    (sslOptions credential) credential.user credential.password w₃ with ⟨connected, w₄⟩
  cases connected with
  | error exc =>
      exact ⟨(hreraise exc _).1, by simp [(hreraise exc _).2]⟩
  | ok u =>
  simp only [Prog.emit]
  rcases hpcf : pm.pcfExecute qmgr w₄ with ⟨built, w₅⟩
  cases built with
  | error exc =>
      exact ⟨by simp [(hreraise exc _).2], (hreraise exc _).1⟩
  | ok pcf =>
      exact ⟨rfl, rfl, rfl⟩

/-- `disconnect` gives the connection back and forgets it, whatever raises. -/
theorem disconnect_apply
    {c : Connector η π} {qmgr : η} (hc : c.qmgr = some qmgr) (world : ω) :
    .disconnectQm qmgr ∈ (disconnect pm (world, c)).events ∧
      (∀ other, .connected other ∉ (disconnect pm (world, c)).events) ∧
        (disconnect pm (world, c)).state.2 = {} := by
  have hpcf : (closePcf pm (world, c)).state.2 = c ∧
      ∀ other, .connected other ∉ (closePcf pm (world, c)).events := by
    rw [closePcf, Prog.bind_apply]
    simp only [Prog.get_apply]
    cases c.pcf with
    | none =>
        exact ⟨rfl, by simp [Prog.after, Prog.ret]⟩
    | some pcf =>
        exact ⟨rfl, by simp [Prog.after, Prog.bind_apply, Prog.emit, api]⟩
  have hqm : ∀ w : ω, (closeQm pm (w, c)).events = [.disconnectQm qmgr] := by
    intro w
    rw [closeQm, Prog.bind_apply]
    simp [Prog.get_apply, hc, Prog.bind_apply, Prog.emit, api]
  obtain ⟨hfields, hother⟩ := hpcf
  rw [disconnect, Prog.finallyDo_events, Prog.finallyDo_state, Prog.finallyDo_events,
    Prog.finallyDo_state]
  rw [← Prod.mk.eta (p := (closePcf pm (world, c)).state), hfields, hqm]
  refine ⟨by simp, fun other hmem => ?_, rfl⟩
  rcases List.mem_append.mp hmem with hmem | hmem
  · exact hother other hmem
  · simp [forget] at hmem

end Connection

section Runs

variable {ω ρ η π φ : Type} (env : Env ω ρ (Connector η π) MQCredential φ) (pm : Api ω η π)

/-- A tool on the live connector, from a given outer world. -/
def toolRun (d : Diagnostic) (qmName : PyStr) (sample : Option Int) (world : ω) (limiter : ρ) :
    Outcome PyException Effect (Host (World ω η π) ρ) Json :=
  runInside (liveEnv env pm) d qmName sample ⟨⟨world, {}, []⟩, limiter⟩

/-- The connection that was opened, if any, was given back behind that, and is forgotten. -/
def Released (w : World ω η π) : Prop :=
  ∀ qmgr, .connected qmgr ∈ w.trace →
    [.connected qmgr, .disconnectQm qmgr].Sublist w.trace ∧ w.connector = {}

/-- A part of the tool that leaves the connection as it is. -/
def KeepsConnection {α : Type} (x : Tool (World ω η π) ρ α) : Prop :=
  ∀ s, (x s).state.world.connector = s.world.connector ∧
    (x s).state.world.trace = s.world.trace

theorem keepsConnection_call
    {α : Type} {f : Call (World ω η π) α}
    (h : ∀ w, (f w).2.connector = w.connector ∧ (f w).2.trace = w.trace) :
    KeepsConnection (ρ := ρ) (call f) := by
  intro s
  exact h s.world

theorem KeepsConnection.bind
    {α β : Type} {x : Tool (World ω η π) ρ α} {f : α → Tool (World ω η π) ρ β}
    (hx : KeepsConnection x) (hf : ∀ a, KeepsConnection (f a)) :
    KeepsConnection (x >>= f) := by
  intro s
  obtain ⟨hconnector, htrace⟩ := hx s
  cases hr : (x s).result with
  | ok a =>
      obtain ⟨hconnector', htrace'⟩ := hf a (x s).state
      rw [Prog.bind_of_ok hr, Prog.after_state]
      exact ⟨hconnector'.trans hconnector, htrace'.trans htrace⟩
  | error exc =>
      rw [Prog.bind_of_error hr]
      exact ⟨hconnector, htrace⟩

/-- Once `connect` has returned, the connection is given back. -/
theorem released_finally
    {body : Tool (World ω η π) ρ Json} (hbody : KeepsConnection body)
    {s : Host (World ω η π) ρ} {qmgr : η} (hqmgr : s.world.connector.qmgr = some qmgr)
    (htrace : s.world.trace = [.connected qmgr]) :
    Released (Prog.finallyDo body (call (method (disconnect pm))) s).state.world := by
  obtain ⟨hconnector, hkept⟩ := hbody s
  rw [← hconnector] at hqmgr
  obtain ⟨hclosed, hother, hforgot⟩ := disconnect_apply pm hqmgr (body s).state.world.outer
  have hend : (call (ρ := ρ) (method (disconnect pm)) (body s).state).state.world.trace =
      [.connected qmgr] ++ (disconnect pm
        ((body s).state.world.outer, (body s).state.world.connector)).events := by
    rw [← htrace, ← hkept]
    rfl
  intro qmgr' hmem
  rw [Prog.finallyDo_state] at hmem ⊢
  rw [hend, List.singleton_append] at hmem ⊢
  refine ⟨?_, hforgot⟩
  rcases List.mem_cons.mp hmem with heq | hmem
  · cases heq
    exact List.Sublist.cons_cons _ (List.singleton_sublist.mpr hclosed)
  · exact absurd hmem (hother qmgr')

/-- In the run, the PCF handle cannot be built on the connection that was opened. -/
def PcfRefused (qmName : PyStr) (world : ω) : Prop :=
  ∃ entry w₁ credential w₂ qmgr w₃ exc,
    env.inventory.get qmName world = (.ok entry, w₁) ∧
      env.resolve entry.secretRef w₁ = (.ok credential, w₂) ∧
        connectedQm pm entry credential w₂ = some (qmgr, w₃) ∧
          (pm.pcfExecute qmgr w₃).1 = .error exc

/--
**No connection leaks exactly when a PCF handle can be built on every connection that is
opened**, whatever else fails.
-/
theorem connection_released_iff
    (d : Diagnostic) (qmName : PyStr) (sample : Option Int) (world : ω) (limiter : ρ) :
    Released (toolRun env pm d qmName sample world limiter).state.world ↔
      ¬ PcfRefused env pm qmName world := by
  have hquiet : ∀ w : World ω η π, w.trace = [] → Released w := by
    intro w hw qmgr hmem
    rw [hw] at hmem
    cases hmem
  unfold toolRun runInside openQm lookup
  simp only [Prog.bind_apply, Prog.observed, call, liveEnv, outside, Prog.emit]
  rcases hget : env.inventory.get qmName world with ⟨found, w₁⟩
  cases found with
  | error exc =>
      refine iff_of_true (hquiet _ rfl) ?_
      rintro ⟨entry, w, _, _, _, _, _, hget', -⟩
      rw [hget] at hget'
      cases hget'
  | ok entry =>
  simp only
  rcases hresolve : env.resolve entry.secretRef w₁ with ⟨resolved, w₂⟩
  cases resolved with
  | error exc =>
      refine iff_of_true (hquiet _ rfl) ?_
      rintro ⟨entry', w, credential, w', _, _, _, hget', hresolve', -⟩
      rw [hget] at hget'
      cases hget'
      rw [hresolve] at hresolve'
      cases hresolve'
  | ok credential =>
  simp only [method, Prog.after_state]
  have hrefused : PcfRefused env pm qmName world ↔ ∃ qmgr w₃ exc,
      connectedQm pm entry credential w₂ = some (qmgr, w₃) ∧
        (pm.pcfExecute qmgr w₃).1 = .error exc := by
    constructor
    · rintro ⟨entry', w, credential', w', qmgr, w₃, exc, hget', hresolve', hconn, hpcf⟩
      rw [hget] at hget'
      cases hget'
      rw [hresolve] at hresolve'
      cases hresolve'
      exact ⟨qmgr, w₃, exc, hconn, hpcf⟩
    · rintro ⟨qmgr, w₃, exc, hconn, hpcf⟩
      exact ⟨entry, w₁, credential, w₂, qmgr, w₃, exc, hget, hresolve, hconn, hpcf⟩
  rw [hrefused]
  have hconnect := connect_apply pm entry credential w₂
  generalize connect pm entry credential (w₂, {}) = o at hconnect ⊢
  rcases hconn : connectedQm pm entry credential w₂ with _ | ⟨qmgr, w₃⟩
  · rw [hconn] at hconnect
    obtain ⟨hraised, hunseen⟩ := hconnect
    cases hresult : o.result with
    | ok u =>
        rw [hresult] at hraised
        cases hraised
    | error exc =>
        exact iff_of_true (hquiet _ (by simp [hunseen])) (by simp)
  · rw [hconn] at hconnect
    obtain ⟨hseen, hpcf⟩ := hconnect
    rcases hbuilt : (pm.pcfExecute qmgr w₃).1 with exc | pcf
    · rw [hbuilt] at hpcf
      cases hresult : o.result with
      | ok u =>
          rw [hresult] at hpcf
          cases hpcf
      | error exc' =>
          refine iff_of_false ?_ (fun h => h ⟨qmgr, w₃, exc, rfl, hbuilt⟩)
          intro hreleased
          have hmem := (hreleased qmgr (by simp [hseen])).1.length_le
          simp [hseen] at hmem
    · rw [hbuilt] at hpcf
      obtain ⟨hresult, hstate⟩ := hpcf
      rw [hresult]
      refine iff_of_true ?_ ?_
      · have hopen : o.state.2.qmgr = some qmgr := by rw [hstate]
        refine released_finally pm ?_ hopen (by simp [hseen])
        exact KeepsConnection.bind (keepsConnection_call fun _ => ⟨rfl, rfl⟩)
          fun _ => keepsConnection_call fun _ => ⟨rfl, rfl⟩
      · rintro ⟨qmgr', w₃', exc, heq, hexc⟩
        cases heq
        rw [hbuilt] at hexc
        cases hexc

/-- A server whose tools answer nothing. -/
def quietEnv : Env Unit Nat (Connector Unit Unit) MQCredential Unit :=
  { sampleEnv with
    resolve := fun _ world => (.ok { user := lit "app", password := lit "secret" }, world)
    connectorFactory := fun world => (.ok {}, world)
    connect := fun _ _ _ world => (.ok (), world)
    detect := fun _ world => (.ok (), world)
    disconnect := fun _ world => (.ok (), world)
    checks := fun _ _ _ _ _ world => (.ok (.obj []), world) }

/-- pymqi on a queue manager whose command server refuses PCF. -/
def refusingApi : Api Unit Unit Unit where
  load world := (.ok (), world)
  options _ _ world := (.ok (), world)
  queueManager world := (.ok (), world)
  connectWithOptions _ _ _ _ _ _ world := (.ok (), world)
  pcfExecute _ world := (.error ⟨"MQMIError", ["Error", "Exception"], lit "MQI Error"⟩, world)
  disconnectPcf _ world := (.ok (), world)
  disconnectQm _ world := (.ok (), world)
  reason _ := some 2035

/-- The connection is open when the tool is over. -/
theorem refused_pcf_leaks :
    ¬ Released (toolRun quietEnv refusingApi .channels (lit "QM1") none () 60).state.world := by
  have htrace : (toolRun quietEnv refusingApi .channels (lit "QM1") none () 60).state.world.trace =
      [.connected ()] := by
    decide +kernel
  intro h
  have hlen := (h () (by rw [htrace]; simp)).1.length_le
  rw [htrace] at hlen
  simp at hlen

end Runs

end Pymqi
end MqSentinel
