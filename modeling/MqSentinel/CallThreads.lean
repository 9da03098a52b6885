import MqSentinel.Dialogues
import MqSentinel.InventorySecrecy

/-!
# A call as a thread

`dispatch` blocks on a worker thread, and other calls go on in between.  Here it is a
dialogue: each question is one step that other calls cannot divide, or one that touches
nothing they share.  The limiter reads the clock before it takes its lock, and the logger
stamps a record before it takes its own, so both readings are questions of their own.

Answered by one host without interruption, the dialogue does what `dispatch` does
(`run_conversation`).
-/

namespace MqSentinel
namespace Server

open Dialogues Dialogues.Dialogue Effects Rbac Audit

/-- What a call asks of the clock, of what lies outside and of what is shared. -/
inductive Ask (ω : Type) where
  | look
  | verify (token : PyStr)
  | allow (subject : PyStr) (seen : ω)
  | runTool (tool : PyStr) (params : OrderedDict PyStr Json) (p : Principal)
  | write (ts : PyStr) (e : AuditEvent)

/-- What is answered. -/
abbrev Ask.Answer {ω : Type} : Ask ω → Type
  | look => ω
  | verify _ => Principal
  | allow _ _ => Bool
  | runTool _ _ _ => Json
  | write _ _ => Unit

/-- A part of a call. -/
abbrev Thread (ω α : Type) := Dialogue PyException (Ask.Answer (ω := ω)) α

section Thread

/-- A reading of the clock. -/
def look {ω : Type} : Thread ω ω :=
  query Ask.look

/-- `self._verifier.verify(token)` -/
def askVerifier {ω : Type} (token : PyStr) : Thread ω Principal :=
  query (Ask.verify token)

/-- The part of `RateLimiter.allow` that holds the lock. -/
def askLimiter {ω : Type} (subject : PyStr) (seen : ω) : Thread ω Bool :=
  query (Ask.allow subject seen)

/-- The tool of the call. -/
def askTool {ω : Type} (tool : PyStr) (params : OrderedDict PyStr Json) (p : Principal) :
    Thread ω Json :=
  query (Ask.runTool tool params p)

/-- The part of `AuditLogger.write` that holds the lock. -/
def askLogger {ω : Type} (ts : PyStr) (e : AuditEvent) : Thread ω Unit :=
  query (Ask.write ts e)

variable {ω ρ κ χ φ : Type} (env : Env ω ρ κ χ φ)

/-- The class of an exception, where `except Exception` catches it. -/
def noted (exc : PyException) : Option String :=
  if exc.isInstance "Exception" then some exc.className else none

/-- The error that a `try` block leaves. -/
def errorOf : Except PyException Json → Option String
  | .ok _ => none
  | .error exc => noted exc

/-- The outcome that a tool leaves. -/
def outcomeOf : Except PyException Json → PyStr
  | .ok _ => lit "ok"
  | .error _ => lit "error"

/-- `AuditLogger.write`, which stamps the record before it takes the lock. -/
def writeRecord (e : AuditEvent) : Thread ω Unit := do
  let stamped ← look
  askLogger (lit (env.isoNow stamped)) e

/-- The `finally` block. -/
def recording (started : ω) (tool : PyStr) (params : OrderedDict PyStr Json) (locals : Locals) :
    Thread ω Unit := do
  let now ← look
  let paramsHash ← done (hashParams env params)
  writeRecord env (auditEvent tool params paramsHash (env.elapsedMs started now) locals)

/-- The end of a call whose `try` block ends with the given locals and result. -/
def concluding (started : ω) (tool : PyStr) (params : OrderedDict PyStr Json) (locals : Locals)
    (r : Except PyException Json) : Thread ω Json := do
  recording env started tool params locals
  done r

/-- `RateLimiter.allow`, which reads the clock before it takes the lock. -/
def admission (p : Principal) : Thread ω Bool := do
  let seen ← look
  askLimiter p.subject seen

/-- The tool of an admitted caller, and the end of the call. -/
def serving (started : ω) (tool : PyStr) (params : OrderedDict PyStr Json) (p : Principal) :
    Thread ω Json :=
  (askTool tool params p).follow fun r =>
    concluding env started tool params ⟨some p, outcomeOf r, errorOf r⟩ r

/-- `MQSentinelServer.dispatch` -/
def conversation (token tool : PyStr) (params : OrderedDict PyStr Json) : Thread ω Json := do
  let started ← look
  (askVerifier token).follow fun
    | .error exc => concluding env started tool params ⟨none, lit "error", noted exc⟩ (.error exc)
    | .ok p =>
        (admission p).follow fun
          | .error exc =>
              concluding env started tool params ⟨some p, lit "error", noted exc⟩ (.error exc)
          | .ok false =>
              let exc := .permissionError (lit "rate limit exceeded")
              concluding env started tool params ⟨some p, lit "denied", noted exc⟩ (.error exc)
          | .ok true => serving env started tool params p

/-- The host and the logger of one uninterrupted call. -/
def hostAnswer : (q : Ask ω) → Host ω ρ × AuditLogger →
    Except PyException q.Answer × (Host ω ρ × AuditLogger)
  | .look, s => (.ok s.1.world, s)
  | .verify token, s =>
      ((env.verify token s.1.world).1, (⟨(env.verify token s.1.world).2, s.1.limiter⟩, s.2))
  | .allow subject seen, s =>
      ((env.allow subject seen s.1.limiter).1,
        (⟨s.1.world, (env.allow subject seen s.1.limiter).2⟩, s.2))
  | .runTool tool params p, s =>
      ((runTool env tool params p s.1).result, ((runTool env tool params p s.1).state, s.2))
  | .write ts e, s =>
      match auditWrite env s.2 ts e with
      | .error exc => (.error exc, s)
      | .ok logger => (.ok (), (s.1, logger))

end Thread

section Uninterrupted

variable {ω ρ κ χ φ : Type} (env : Env ω ρ κ χ φ)

/-- What is left of a state where the locals are forgotten. -/
def CallState.shared (s : CallState ω ρ) : Host ω ρ × AuditLogger :=
  (s.1, s.2.2)

/-- The thread ends as the program does, in the same state. -/
def Agrees {α : Type} (d : Thread ω α) (t : Host ω ρ × AuditLogger)
    (o : Outcome PyException Effect (CallState ω ρ) α) : Prop :=
  (d.run (hostAnswer env) t).result = o.result ∧
    (d.run (hostAnswer env) t).state = CallState.shared o.state

@[simp] theorem run_look
    (t : Host ω ρ × AuditLogger) :
    (look.run (hostAnswer env) t).result = .ok t.1.world ∧
      (look.run (hostAnswer env) t).state = t := by
  exact ⟨rfl, rfl⟩

theorem hostAnswer_write
    (ts : PyStr) (e : AuditEvent) (t : Host ω ρ × AuditLogger) :
    hostAnswer env (.write ts e) t =
      ((auditWrite env t.2 ts e).map fun _ => (),
        (t.1, ((auditWrite env t.2 ts e).toOption).getD t.2)) := by
  rw [hostAnswer]
  cases auditWrite env t.2 ts e with
  | error exc => rfl
  | ok logger => rfl

theorem run_writeRecord
    (e : AuditEvent) (t : Host ω ρ × AuditLogger) :
    ((writeRecord env e).run (hostAnswer env) t).result =
        (auditWrite env t.2 (lit (env.isoNow t.1.world)) e).map (fun _ => ()) ∧
      ((writeRecord env e).run (hostAnswer env) t).state =
        (t.1, ((auditWrite env t.2 (lit (env.isoNow t.1.world)) e).toOption).getD t.2) := by
  unfold writeRecord
  simp only [run_bind, run_look, Prog.after_result, Prog.after_state]
  change (hostAnswer env _ t).1 = _ ∧ (hostAnswer env _ t).2 = _
  rw [hostAnswer_write]
  exact ⟨rfl, rfl⟩

theorem agrees_recording
    (started : ω) (tool : PyStr) (params : OrderedDict PyStr Json) (s : CallState ω ρ) :
    Agrees env (recording env started tool params s.2.1) (CallState.shared s)
      (recordCall env started tool params s) := by
  obtain ⟨host, locals, logger⟩ := s
  unfold Agrees recording recordCall
  simp only [CallState.shared, run_bind, run_look, run_done, Prog.after_result,
    Prog.after_state]
  cases hashParams env params with
  | error exc =>
      exact ⟨rfl, rfl⟩
  | ok paramsHash =>
      obtain ⟨hresult, hstate⟩ := run_writeRecord env
        (auditEvent tool params paramsHash (env.elapsedMs started host.world) locals)
        (host, logger)
      simp only [Prog.after_result, Prog.after_state, hresult, hstate]
      cases auditWrite env logger (lit (env.isoNow host.world))
          (auditEvent tool params paramsHash (env.elapsedMs started host.world) locals) with
      | error exc => exact ⟨rfl, rfl⟩
      | ok logger => exact ⟨rfl, rfl⟩

/-- A thread with the locals of a `try` block that is over, as `try` and `finally`. -/
theorem agrees_concluding
    (started : ω) (tool : PyStr) (params : OrderedDict PyStr Json)
    {x : Prog PyException Effect (CallState ω ρ) Json} {s : CallState ω ρ} :
    Agrees env (concluding env started tool params (x s).state.2.1 (x s).result)
      (CallState.shared (x s).state)
      (Prog.finallyDo x (recordCall env started tool params) s) := by
  obtain ⟨hresult, hstate⟩ := agrees_recording env started tool params (x s).state
  unfold Agrees concluding Prog.finallyDo
  simp only [run_bind, run_done, hresult, hstate]
  cases (recordCall env started tool params (x s).state).result with
  | ok _ => exact ⟨rfl, rfl⟩
  | error exc => exact ⟨rfl, rfl⟩

/-- The `except` block keeps the class of an exception that it catches. -/
theorem noteError_apply
    (exc : PyException) (s : CallState ω ρ) (hnone : s.2.1.error = none) :
    noteError exc s =
      ⟨.error exc, (s.1, { s.2.1 with error := noted exc }, s.2.2), []⟩ := by
  obtain ⟨host, ⟨principal, outcome, error⟩, logger⟩ := s
  obtain rfl : error = none := hnone
  unfold noteError noted
  split_ifs
  · rfl
  · rfl

/-- How the `try` block with its `except` block ends. -/
theorem attempt_of_serve
    (token tool : PyStr) (params : OrderedDict PyStr Json) {s t : CallState ω ρ}
    {r : Except PyException Json} (hresult : (serve env token tool params s).result = r)
    (hstate : (serve env token tool params s).state = t) (hnone : t.2.1.error = none) :
    (attempt env token tool params s).result = r ∧
      (attempt env token tool params s).state =
        (t.1, { t.2.1 with error := errorOf r }, t.2.2) := by
  obtain ⟨host, ⟨principal, outcome, error⟩, logger⟩ := t
  obtain rfl : error = none := hnone
  unfold attempt Prog.except
  cases r with
  | ok v =>
      simp only [hresult, hstate]
      exact ⟨trivial, rfl⟩
  | error exc =>
      simp only [hresult, hstate, Prog.after_result, Prog.after_state]
      rw [noteError_apply exc _ rfl]
      exact ⟨rfl, rfl⟩

/-- How the `try` block of an unverified caller ends. -/
theorem serve_unverified
    {token : PyStr} (tool : PyStr) (params : OrderedDict PyStr Json) {s : CallState ω ρ}
    {exc : PyException} (h : (env.verify token s.1.world).1 = .error exc) :
    (serve env token tool params s).result = .error exc ∧
      (serve env token tool params s).state =
        ((⟨(env.verify token s.1.world).2, s.1.limiter⟩, s.2) : CallState ω ρ) := by
  unfold serve
  simp only [Prog.bind_apply, Prog.onFst_apply, verify_result, h]
  exact ⟨trivial, rfl⟩

/-- How the `try` block of a caller ends whom the limiter does not admit. -/
theorem serve_unadmitted
    {token : PyStr} (tool : PyStr) (params : OrderedDict PyStr Json) {s : CallState ω ρ}
    {p : Principal} (hverify : (env.verify token s.1.world).1 = .ok p) :
    (∀ exc, allowAnswer env token p s.1 = .error exc →
      (serve env token tool params s).result = .error exc ∧
        (serve env token tool params s).state =
          (toolHost env token p s.1, { s.2.1 with principal := some p }, s.2.2)) ∧
    (allowAnswer env token p s.1 = .ok false →
      (serve env token tool params s).result =
          .error (.permissionError (lit "rate limit exceeded")) ∧
        (serve env token tool params s).state =
          (toolHost env token p s.1,
            { s.2.1 with principal := some p, outcome := lit "denied" }, s.2.2)) := by
  have hhost : (allow env p.subject (verify env token s.1).state).state =
      toolHost env token p s.1 := rfl
  constructor
  · intro exc hallow
    replace hallow : (allow env p.subject (verify env token s.1).state).result = .error exc :=
      hallow
    unfold serve
    simp only [Prog.bind_apply, Prog.onFst_apply, verify_result, hverify, assign,
      Prog.modifySnd_apply, Prog.after_result, Prog.after_state, hallow, hhost]
    exact ⟨trivial, trivial⟩
  · intro hallow
    replace hallow : (allow env p.subject (verify env token s.1).state).result = .ok false :=
      hallow
    unfold serve
    simp only [Prog.bind_apply, Prog.onFst_apply, verify_result, hverify, assign,
      Prog.modifySnd_apply, Prog.after_result, Prog.after_state, hallow, hhost,
      Bool.false_eq_true, if_false]
    exact ⟨rfl, rfl⟩

/-- A `try` block that is over leads to the end of the call that its locals give. -/
theorem agrees_of_attempt
    {token tool : PyStr} {params : OrderedDict PyStr Json} {s t : CallState ω ρ}
    {r : Except PyException Json}
    (hattempt : (attempt env token tool params (s.1, startLocals, s.2.2)).result = r ∧
      (attempt env token tool params (s.1, startLocals, s.2.2)).state = t) :
    Agrees env (concluding env s.1.world tool params t.2.1 r) (CallState.shared t)
      (dispatch env token tool params s) := by
  obtain ⟨rfl, rfl⟩ := hattempt
  rw [dispatch_eq]
  exact agrees_concluding env s.1.world tool params

/--
**A call that nobody interrupts.**  As a thread, answered by its host, a call has the
result of `dispatch` and leaves the host and the logger as `dispatch` does.
-/
theorem run_conversation
    (token tool : PyStr) (params : OrderedDict PyStr Json) (s : CallState ω ρ) :
    Agrees env (conversation env token tool params) (CallState.shared s)
      (dispatch env token tool params s) := by
  have hstart (d : ω → Thread ω Json) :
      ((look >>= d).run (hostAnswer env) (CallState.shared s)).result =
          ((d s.1.world).run (hostAnswer env) (CallState.shared s)).result ∧
        ((look >>= d).run (hostAnswer env) (CallState.shared s)).state =
          ((d s.1.world).run (hostAnswer env) (CallState.shared s)).state := by
    simp only [run_bind, run_look, Prog.after_result, Prog.after_state]
    exact ⟨rfl, rfl⟩
  unfold Agrees conversation
  rw [(hstart _).1, (hstart _).2, run_follow, Prog.after_result, Prog.after_state]
  have hverifier : (askVerifier token).run (hostAnswer env) (CallState.shared s) =
      ⟨(env.verify token s.1.world).1, (⟨(env.verify token s.1.world).2, s.1.limiter⟩, s.2.2),
        [⟨.verify token, (env.verify token s.1.world).1⟩]⟩ := rfl
  rw [hverifier]
  cases hverify : (env.verify token s.1.world).1 with
  | error exc =>
      obtain ⟨hresult, hstate⟩ := serve_unverified env tool params
        (s := (s.1, startLocals, s.2.2)) hverify
      have hend := agrees_of_attempt env
        (attempt_of_serve env token tool params hresult hstate rfl)
      change Agrees env (concluding env s.1.world tool params
        ⟨none, lit "error", noted exc⟩ (.error exc)) _ _
      exact hend
  | ok p =>
      have hadmission : ((admission p).run (hostAnswer env)
            (⟨(env.verify token s.1.world).2, s.1.limiter⟩, s.2.2)).result =
          allowAnswer env token p s.1 ∧
        ((admission p).run (hostAnswer env)
            (⟨(env.verify token s.1.world).2, s.1.limiter⟩, s.2.2)).state =
          (toolHost env token p s.1, s.2.2) := by
        unfold admission
        simp only [run_bind, run_look, Prog.after_result, Prog.after_state]
        exact ⟨rfl, rfl⟩
      simp only [run_follow, Prog.after_result, Prog.after_state, hadmission]
      cases hallow : allowAnswer env token p s.1 with
      | error exc =>
          obtain ⟨hresult, hstate⟩ := (serve_unadmitted env tool params
            (s := (s.1, startLocals, s.2.2)) hverify).1 exc hallow
          have hend := agrees_of_attempt env
            (attempt_of_serve env token tool params hresult hstate rfl)
          change Agrees env (concluding env s.1.world tool params
            ⟨some p, lit "error", noted exc⟩ (.error exc)) _ _
          exact hend
      | ok admitted =>
          cases admitted with
          | false =>
              obtain ⟨hresult, hstate⟩ := (serve_unadmitted env tool params
                (s := (s.1, startLocals, s.2.2)) hverify).2 hallow
              have hend := agrees_of_attempt env
                (attempt_of_serve env token tool params hresult hstate rfl)
              change Agrees env (concluding env s.1.world tool params
                ⟨some p, lit "denied", noted (.permissionError (lit "rate limit exceeded"))⟩
                (.error (.permissionError (lit "rate limit exceeded")))) _ _
              exact hend
          | true =>
              obtain ⟨hresult, hstate⟩ := serve_admitted env tool params
                (s := (s.1, startLocals, s.2.2)) hverify hallow
              have hlocals : toolLocals p startLocals
                  (runTool env tool params p (toolHost env token p s.1)).result =
                    ⟨some p, outcomeOf (runTool env tool params p
                      (toolHost env token p s.1)).result, none⟩ := by
                cases (runTool env tool params p (toolHost env token p s.1)).result with
                | error exc => rfl
                | ok v => rfl
              rw [hlocals] at hstate
              have hend := agrees_of_attempt env
                (attempt_of_serve env token tool params hresult hstate rfl)
              have htool : (askTool tool params p).run (hostAnswer env)
                  (toolHost env token p s.1, s.2.2) =
                ⟨(runTool env tool params p (toolHost env token p s.1)).result,
                  ((runTool env tool params p (toolHost env token p s.1)).state, s.2.2),
                  [⟨.runTool tool params p,
                    (runTool env tool params p (toolHost env token p s.1)).result⟩]⟩ := rfl
              simp only [serving, run_follow, Prog.after_result, Prog.after_state, htool]
              exact hend

end Uninterrupted

end Server
end MqSentinel
