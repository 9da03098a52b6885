import MqSentinel.CallCourses
import MqSentinel.Interleavings
import MqSentinel.RateLimiter

/-!
# Calls that go on at the same time

Any number of calls share the limiter and the audit log.  `serves` says what each question
of a call does to them: the limiter and the logger answer under their locks, and between
any two answers the world may become another one.  A write that fails leaves the file as it
was, and the limiter's clock and buckets are rational numbers.

Whatever the order of the steps, the log passes the verifier and holds the calls' own
records (`records_across_calls`), every tool runs for a caller who was verified and admitted
in the same call (`tool_behind_admission`), and no subject gets more tools run than its
bucket holds (`tools_within_quota`).  A call that nobody interrupts is `dispatch`
(`dispatch_interleaves`).
-/

namespace MqSentinel
namespace Server

open Dialogues Dialogues.Dialogue Effects Rbac Audit RateLimit

/-- The arguments of `dispatch`. -/
structure ToolCall where
  token : PyStr
  tool : PyStr
  params : OrderedDict PyStr Json

/-- What the calls share. -/
abbrev Shared (ω : Type) := Host ω RateLimiter × AuditLogger

section Party

variable {ι ω ρ κ χ φ : Type}

/-- The call as a thread. -/
def ToolCall.thread (env : Env ω ρ κ χ φ) (c : ToolCall) : Thread ω Json :=
  conversation env c.token c.tool c.params

/-- The limiter and the logger are as they were. -/
def Untouched (s s' : Shared ω) : Prop :=
  s'.1.limiter = s.1.limiter ∧ s'.2 = s.2

variable (env : Env ω RateLimiter κ χ φ) (monotonic : ω → ℚ)

/-- The clock, the verifier, the tools, the limiter and the logger, as the calls find them. -/
def serves : Party PyException (Shared ω) (Ask.Answer (ω := ω))
  | .look, s, a, s' => (∃ seen, a = .ok seen) ∧ Untouched s s'
  | .verify _, s, _, s' => Untouched s s'
  | .runTool _ _ _, s, _, s' => Untouched s s'
  | .allow subject seen, s, a, s' =>
      a = .ok (s.1.limiter.allow subject (monotonic seen) 1).1 ∧
        s'.1.limiter = (s.1.limiter.allow subject (monotonic seen) 1).2 ∧ s'.2 = s.2
  | .write ts e, s, a, s' =>
      s'.1.limiter = s.1.limiter ∧
        ((∃ exc, a = .error exc ∧ s'.2 = s.2) ∨
          a = .ok () ∧ auditWrite env s.2 ts e = .ok s'.2)

/-- The surroundings ask the limiter of the calls, which reads `monotonic`. -/
def AsksLimiter : Prop :=
  ∀ subject w (limiter : RateLimiter), env.allow subject w limiter =
    (.ok (limiter.allow subject (monotonic w) 1).1, (limiter.allow subject (monotonic w) 1).2)

end Party

section Log

variable {ι ω κ χ φ : Type} [DecidableEq ι]
variable {env : Env ω RateLimiter κ χ φ} {monotonic : ω → ℚ} {calls : ι → ToolCall}
variable {trace : List (ι × Heard ω)} {threads : ι → Thread ω Json} {s₀ s : Shared ω}

theorem step_of_auditWrite
    {logger logger' : AuditLogger} {ts : PyStr} {e : AuditEvent}
    (h : auditWrite env logger ts e = .ok logger') :
    step env.orjson (sha env) logger.state (.write ts e) = some logger'.state := by
  unfold auditWrite at h
  split at h
  · cases h
  · next r hwrite =>
      cases h
      simp only [step, hwrite, Option.map_some]

/-- The log is made of the entries of what was written, at every point. -/
theorem represents_logged
    (h : Interleaves (serves env monotonic) (fun i => (calls i).thread env) s₀ trace threads s)
    {earlier : List (PyStr × AuditEvent)}
    (hstart : ∃ entries : List (LogEntry env.orjson (sha env)),
      Represents s₀.2.state entries earlier) :
    ∃ entries : List (LogEntry env.orjson (sha env)),
      Represents s.2.state entries (earlier ++ logged (trace.map Prod.snd)) := by
  refine h.invariant (fun t s => ∃ entries : List (LogEntry env.orjson (sha env)),
    Represents s.2.state entries (earlier ++ logged (t.map Prod.snd))) ?_ ?_
  · simpa [logged] using hstart
  intro t s i q k a s' hinv _ hanswer
  have hlogged : earlier ++ logged ((t ++ [(i, (⟨q, a⟩ : Heard ω))]).map Prod.snd) =
      (earlier ++ logged (t.map Prod.snd)) ++ logged [(⟨q, a⟩ : Heard ω)] := by
    rw [List.map_append, logged, List.filterMap_append, List.append_assoc]
    rfl
  have hsame (hlog : s'.2 = s.2) (hnone : logged [(⟨q, a⟩ : Heard ω)] = []) :
      ∃ entries : List (LogEntry env.orjson (sha env)), Represents s'.2.state entries
        (earlier ++ logged ((t ++ [(i, (⟨q, a⟩ : Heard ω))]).map Prod.snd)) := by
    rw [hlogged, hnone, List.append_nil, hlog]
    exact hinv
  cases q with
  | look => exact hsame hanswer.2.2 rfl
  | verify token => exact hsame hanswer.2 rfl
  | allow subject seen => exact hsame hanswer.2.2 rfl
  | runTool tool params p => exact hsame hanswer.2 rfl
  | write ts e =>
      obtain ⟨-, ⟨exc, rfl, hlog⟩ | ⟨rfl, hwrite⟩⟩ := hanswer
      · exact hsame hlog rfl
      · obtain ⟨entries, hrep⟩ := hinv
        obtain ⟨entry, -, hnext⟩ := hrep.of_step_write (step_of_auditWrite hwrite)
        rw [hlogged]
        exact ⟨entries ++ [entry], hnext⟩

/-- What a call has heard so far is the front of what it could hear to its end. -/
theorem exists_course
    (h : Interleaves (serves env monotonic) (fun i => (calls i).thread env) s₀ trace threads s)
    (i : ι) :
    ∃ rest r, Goes (conversation env (calls i).token (calls i).tool (calls i).params)
      (view i trace ++ rest) r :=
  (h.leads_view i).exists_goes fun _ => .error ⟨"Exception", [], []⟩

/--
**The log of concurrent calls.**  The log passes the verifier and holds what it held
before and then exactly the events that were put on record, in their order.  No call has
two of them, and a call that is over has its own one, or ends with what kept it from it.
-/
theorem records_across_calls
    (h : Interleaves (serves env monotonic) (fun i => (calls i).thread env) s₀ trace threads s)
    (hrt : RoundTrips env.orjson) {entries : List (LogEntry env.orjson (sha env))}
    {earlier : List (PyStr × AuditEvent)} (hs₀ : Represents s₀.2.state entries earlier) :
    verifyChain env.orjson (sha env) s.2.state.file = .ok () ∧
      List.Forall₂ IsRecordOf (records env.orjson s.2.state.file)
        (earlier ++ logged (trace.map Prod.snd)) ∧
      ∀ i, (logged (view i trace)).length ≤ 1 ∧
        ∀ r, threads i = .done r → Accounted env (calls i).token (calls i).tool
          (calls i).params (view i trace) r := by
  obtain ⟨entries, hrep⟩ := represents_logged h ⟨entries, hs₀⟩
  refine ⟨hrep.verifyChain_ok hrt, ?_, fun i => ⟨?_, fun r hdone => ?_⟩⟩
  · rw [records_of_content hrt hrep.content, ← hrep.origins, List.forall₂_map_left_iff,
      List.forall₂_map_right_iff, List.forall₂_same]
    exact fun entry _ => ⟨entry.prev, entry.hash, rfl⟩
  · obtain ⟨rest, r, hgoes⟩ := exists_course h i
    have hall := length_logged_le hgoes
    rw [logged, List.filterMap_append, List.length_append] at hall
    exact (Nat.le_add_right _ _).trans hall
  · exact accounted_of_goes (h.goes_view hdone)

end Log

section Admission

variable {ι ω κ χ φ : Type} [DecidableEq ι]
variable {env : Env ω RateLimiter κ χ φ} {monotonic : ω → ℚ} {calls : ι → ToolCall}
variable {trace : List (ι × Heard ω)} {threads : ι → Thread ω Json} {s₀ s : Shared ω}

/--
**Mediation across interleavings.**  A tool that runs was asked for by its own call, whose
caller was verified and admitted before, and the call asks for nothing more.
-/
theorem tool_behind_admission
    (h : Interleaves (serves env monotonic) (fun i => (calls i).thread env) s₀ trace threads s)
    {before after : List (ι × Heard ω)} {i : ι} {tool : PyStr} {params : OrderedDict PyStr Json}
    {p : Principal} {a : Except PyException Json}
    (htrace : trace = before ++ (i, ⟨.runTool tool params p, a⟩) :: after) :
    tool = (calls i).tool ∧ params = (calls i).params ∧
      (∃ started seen, view i before = admittedFront (calls i).token p started seen) ∧
      ∀ x, (i, x) ∈ after → x.1.isFinal = true := by
  obtain ⟨rest, r, hgoes⟩ := exists_course h i
  have hview : view i trace ++ rest =
      view i before ++ ⟨.runTool tool params p, a⟩ :: (view i after ++ rest) := by
    rw [htrace, view_append, ← List.singleton_append, view_append, view_singleton_self,
      List.singleton_append, List.append_assoc, List.cons_append]
  rw [hview] at hgoes
  obtain ⟨htool, hparams, hfront, hfinal⟩ := front_of_runTool hgoes
  exact ⟨htool, hparams, hfront,
    fun x hx => hfinal x (List.mem_append_left _ (mem_view_iff.mpr hx))⟩

/-- The decision of the limiter that an exchange is. -/
def decided (monotonic : ω → ℚ) : Heard ω → Option CallRecord
  | ⟨.allow subject seen, .ok admitted⟩ => some ⟨subject, monotonic seen, admitted⟩
  | _ => none

/-- The decisions of the limiter are a run of it, in the order in which it had its lock. -/
theorem decisions_eq_runCalls
    (h : Interleaves (serves env monotonic) (fun i => (calls i).thread env) s₀ trace threads s) :
    ∃ asked, (trace.map Prod.snd).filterMap (decided monotonic) = runCalls s₀.1.limiter asked ∧
      s.1.limiter = limiterAfter s₀.1.limiter asked := by
  refine h.invariant (fun t s => ∃ asked,
    (t.map Prod.snd).filterMap (decided monotonic) = runCalls s₀.1.limiter asked ∧
      s.1.limiter = limiterAfter s₀.1.limiter asked) ⟨[], rfl, rfl⟩ ?_
  rintro t s i q k a s' ⟨asked, hdecided, hlimiter⟩ _ hanswer
  have hmap : ((t ++ [(i, (⟨q, a⟩ : Heard ω))]).map Prod.snd).filterMap (decided monotonic) =
      runCalls s₀.1.limiter asked ++ [(⟨q, a⟩ : Heard ω)].filterMap (decided monotonic) := by
    rw [List.map_append, List.filterMap_append, hdecided]
    rfl
  rw [hmap]
  have hsame (hstay : s'.1.limiter = s.1.limiter)
      (hnone : [(⟨q, a⟩ : Heard ω)].filterMap (decided monotonic) = []) :
      ∃ asked', runCalls s₀.1.limiter asked ++
          [(⟨q, a⟩ : Heard ω)].filterMap (decided monotonic) = runCalls s₀.1.limiter asked' ∧
        s'.1.limiter = limiterAfter s₀.1.limiter asked' :=
    ⟨asked, by rw [hnone, List.append_nil], hstay.trans hlimiter⟩
  cases q with
  | look => exact hsame hanswer.2.1 rfl
  | verify token => exact hsame hanswer.1 rfl
  | runTool tool params p => exact hsame hanswer.1 rfl
  | write ts e => exact hsame hanswer.1 rfl
  | allow subject seen =>
      obtain ⟨rfl, hafter, -⟩ := hanswer
      refine ⟨asked ++ [(subject, monotonic seen)], ?_, ?_⟩
      · rw [runCalls_append, hlimiter]
        rfl
      · rw [limiterAfter_append, hafter, hlimiter]
        rfl

/-- The admissions of a subject are the admitted decisions on its key. -/
theorem countP_isAdmissionOf
    (monotonic : ω → ℚ) (subject : PyStr) (t : List (Heard ω)) :
    t.countP (isAdmissionOf subject) = admittedOn subject (t.filterMap (decided monotonic)) := by
  rw [admittedOn, List.countP_filterMap]
  refine List.countP_congr fun x _ => ?_
  obtain ⟨q, a⟩ := x
  cases q with
  | allow key seen =>
      cases a with
      | error exc => simp [isAdmissionOf, decided]
      | ok admitted => simp [isAdmissionOf, decided]
  | _ => simp [isAdmissionOf, decided]

/--
**The quota of a subject.**  Calls that go on at the same time on a server that was used
before run no more tools for a subject than the burst and what is filled in the time in
which the limiter is asked for it.
-/
theorem tools_within_quota
    (h : Interleaves (serves env monotonic) (fun i => (calls i).thread env) s₀ trace threads s)
    {ratePerMinute burst : Int} (hrate : 0 ≤ ratePerMinute) (hburst : 0 ≤ burst)
    {past : List (PyStr × ℚ)}
    (hs₀ : s₀.1.limiter = limiterAfter (newLimiter ratePerMinute burst) past)
    {subject : PyStr} {lo hi : ℚ} (hle : lo ≤ hi)
    (hwindow : ∀ i seen a, (i, ⟨.allow subject seen, a⟩) ∈ trace →
      lo ≤ monotonic seen ∧ monotonic seen ≤ hi) :
    ((trace.map Prod.snd).countP (isToolFor subject) : ℚ) ≤
      burst + (hi - lo) * (ratePerMinute / 60) := by
  have hadmitted : (trace.map Prod.snd).countP (isToolFor subject) ≤
      (trace.map Prod.snd).countP (isAdmissionOf subject) := by
    refine countP_le_of_view fun i => ?_
    obtain ⟨rest, r, hgoes⟩ := exists_course h i
    exact countP_isToolFor_le hgoes subject
  obtain ⟨asked, hdecided, -⟩ := decisions_eq_runCalls h
  have hquota : (admittedOn subject (runCalls s₀.1.limiter asked) : ℚ) ≤
      burst + (hi - lo) * (ratePerMinute / 60) := by
    rw [hs₀]
    refine admittedOn_window_le hrate hburst past asked hle fun c hc hkey => ?_
    rw [← hs₀, ← hdecided] at hc
    obtain ⟨⟨q, a⟩, hmem, hsome⟩ := List.mem_filterMap.mp hc
    unfold decided at hsome
    split at hsome
    · next key seen admitted heq =>
        cases heq
        obtain rfl := Option.some.inj hsome
        obtain rfl : key = subject := hkey
        obtain ⟨⟨i, x⟩, hx, rfl⟩ := List.mem_map.mp hmem
        exact hwindow i seen _ hx
    · cases hsome
  rw [countP_isAdmissionOf monotonic, hdecided] at hadmitted
  exact (Nat.cast_le.mpr hadmitted).trans hquota

end Admission

section Uninterrupted

variable {ι ω κ χ φ : Type} [DecidableEq ι]
variable (env : Env ω RateLimiter κ χ φ) {monotonic : ω → ℚ}

/-- A part of the server that leaves the limiter alone. -/
abbrev KeepsLimiter {α : Type} (x : Tool ω RateLimiter α) : Prop :=
  Prog.Keeps Host.limiter x

variable {env}

theorem keepsLimiter_call
    {α : Type} (f : Call ω α) :
    KeepsLimiter (call f) := by
  intro s
  rfl

theorem keepsLimiter_openQm
    {α : Type} (qmName : PyStr) {body : κ → φ → Tool ω RateLimiter α}
    (hbody : ∀ connector fingerprint, KeepsLimiter (body connector fingerprint)) :
    KeepsLimiter (openQm env qmName body) := by
  have hemit (e : Effect) : KeepsLimiter (Prog.emit e : Tool ω RateLimiter PUnit) :=
    Prog.keeps_of_state fun _ => rfl
  refine Prog.Keeps.bind (keepsLimiter_call _).observed fun entry => ?_
  refine Prog.Keeps.bind (hemit _) fun _ => ?_
  refine Prog.Keeps.bind (keepsLimiter_call _) fun credential => ?_
  refine Prog.Keeps.bind (hemit _) fun _ => ?_
  refine Prog.Keeps.bind (keepsLimiter_call _) fun connector => ?_
  refine Prog.Keeps.bind (hemit _) fun _ => ?_
  refine Prog.Keeps.bind (keepsLimiter_call _) fun _ => ?_
  refine Prog.Keeps.finallyDo ?_ (keepsLimiter_call _)
  exact Prog.Keeps.bind (keepsLimiter_call _) fun fingerprint => hbody connector fingerprint

theorem keepsLimiter_authorised
    (qmName : PyStr) (p : Principal) {tool : Tool ω RateLimiter Json} (htool : KeepsLimiter tool) :
    KeepsLimiter (authorised env qmName p tool) := by
  have hcheck (action : Action) : KeepsLimiter (checkAction env p action) :=
    Prog.keeps_of_state fun _ => rfl
  have hraise (exc : PyException) :
      KeepsLimiter (Prog.raise exc : Tool ω RateLimiter QMEntry) :=
    Prog.keeps_of_state fun _ => rfl
  refine Prog.Keeps.bind ?_ fun entry => Prog.Keeps.bind (hcheck _) fun _ => htool
  refine Prog.Keeps.except (keepsLimiter_call _).observed fun exc => ?_
  unfold unknownQm
  split_ifs
  · exact Prog.Keeps.bind (hcheck _) fun _ => hraise exc
  · exact hraise exc

theorem keepsLimiter_runInside
    (d : Diagnostic) (qmName : PyStr) (sample : Option Int) :
    KeepsLimiter (runInside env d qmName sample) :=
  keepsLimiter_openQm qmName fun _ _ => keepsLimiter_call _

/-- No tool touches the limiter. -/
theorem keepsLimiter_runTool
    (tool : PyStr) (params : OrderedDict PyStr Json) (p : Principal) :
    KeepsLimiter (runTool env tool params p) := by
  have hname : KeepsLimiter (requireQmName params : Tool ω RateLimiter PyStr) := by
    unfold requireQmName
    split <;> exact Prog.keeps_of_state fun _ => rfl
  have hsample (key : PyStr) :
      KeepsLimiter (requireSample key params : Tool ω RateLimiter Int) := by
    unfold requireSample
    split <;> exact Prog.keeps_of_state fun _ => rfl
  have hinside (d : Diagnostic) (sample : Option Int) (qmName : PyStr) :
      KeepsLimiter (authorised env qmName p (runInside env d qmName sample)) :=
    keepsLimiter_authorised qmName p (keepsLimiter_runInside d qmName sample)
  have hnamed (d : Diagnostic) : KeepsLimiter (requireQmName params >>= fun qmName =>
      authorised env qmName p (runInside env d qmName none)) :=
    hname.bind fun qmName => hinside d none qmName
  unfold runTool
  split_ifs
  · exact (keepsLimiter_call _).bind fun _ => Prog.keeps_of_state fun _ => rfl
  · exact hnamed .channels
  · exact hname.bind fun qmName => (hsample _).bind fun n => hinside .dlq (some n) qmName
  · exact hnamed .cluster
  · refine hname.bind fun qmName => (hsample _).bind fun n => ?_
    exact keepsLimiter_authorised qmName p
      ((keepsLimiter_runInside .healthCheck qmName (some n)).bind fun _ => keepsLimiter_call _)
  · exact hnamed .nativeHa
  · exact hnamed .rdqm
  · exact hnamed .zos
  · exact hnamed .miqm
  · exact Prog.keeps_of_state fun _ => rfl

/-- One host alone answers as the server among its calls may. -/
theorem serves_hostAnswer
    (hlimiter : AsksLimiter env monotonic) (q : Ask ω) (s : Shared ω) :
    serves env monotonic q s (hostAnswer env q s).1 (hostAnswer env q s).2 := by
  cases q with
  | look => exact ⟨⟨_, rfl⟩, rfl, rfl⟩
  | verify token => exact ⟨rfl, rfl⟩
  | allow subject seen =>
      have hallow := hlimiter subject seen s.1.limiter
      exact ⟨congrArg Prod.fst hallow, congrArg Prod.snd hallow, rfl⟩
  | runTool tool params p => exact ⟨keepsLimiter_runTool tool params p s.1, rfl⟩
  | write ts e =>
      rw [hostAnswer_write]
      cases hwrite : auditWrite env s.2 ts e with
      | error exc => exact ⟨rfl, Or.inl ⟨exc, rfl, rfl⟩⟩
      | ok logger => exact ⟨rfl, Or.inr ⟨rfl, hwrite⟩⟩

/--
**A call that nobody interrupts** is one of the interleavings, with the result and the
state that `dispatch` leaves.
-/
theorem dispatch_interleaves
    (hlimiter : AsksLimiter env monotonic) (threads : ι → Thread ω Json) (i : ι) (c : ToolCall)
    (hi : threads i = c.thread env) (s : CallState ω RateLimiter) :
    ∃ trace, Interleaves (serves env monotonic) threads (CallState.shared s) trace
      (Function.update threads i (.done (dispatch env c.token c.tool c.params s).result))
      (CallState.shared (dispatch env c.token c.tool c.params s).state) := by
  have hrun := interleaves_run (serves_hostAnswer hlimiter) threads i (CallState.shared s)
  obtain ⟨hresult, hstate⟩ := run_conversation env c.token c.tool c.params s
  rw [hi, ToolCall.thread, hresult, hstate] at hrun
  exact ⟨_, hrun⟩

end Uninterrupted

section Sample

/-- The event of a successful call of `health`. -/
def healthEvent : AuditEvent where
  actor := lit "ann"
  tenant := none
  tool := lit "health"
  targetQm := none
  paramsHash := lit "44136fa355b3678a1146ad16f7e8649e94fb4fc21fe77e8310c060f61caaff8a"
  outcome := lit "ok"
  durationMs := 3

/-- SHA-256 of the first record. -/
def firstDigest : String :=
  "b808f8af80b2374bda99a7bbecf5f4400f736563f3d076597deeaa26e10240a5"

/-- SHA-256 of the second record. -/
def secondDigest : String :=
  "ef36303901d007e9d969b50fdd77f987ed05bc6f5bf045e1405915e0b560f30d"

def sharedHexdigest (b : PyBytes) : String :=
  if b = Json.text (.obj []) then
    "44136fa355b3678a1146ad16f7e8649e94fb4fc21fe77e8310c060f61caaff8a"
  else if b = (Json.obj (linkedRecord sampleTime healthEvent genesisHash)).sortKeys.text then
    firstDigest
  else secondDigest

/-- The sample server with the limiter of the calls, its clock standing still. -/
def sharedEnv : Env Unit RateLimiter Unit Unit Unit :=
  { sampleEnv with
    allow := fun subject _ limiter =>
      (.ok (limiter.allow subject 0 1).1, (limiter.allow subject 0 1).2)
    orjson := readableOrjson
      [.obj (sealedRecord sampleTime healthEvent genesisHash (lit firstDigest)),
        .obj (sealedRecord sampleTime healthEvent (lit firstDigest) (lit secondDigest))]
    hexdigest := sharedHexdigest }

theorem roundTrips_sharedEnv :
    RoundTrips sharedEnv.orjson :=
  roundTrips_readableOrjson (by decide +kernel)

theorem asksLimiter_sharedEnv :
    AsksLimiter sharedEnv fun _ => 0 :=
  fun _ _ _ => rfl

/-- A limiter that admits two calls a minute, and an empty log. -/
def sharedStart : Shared Unit :=
  (⟨(), newLimiter 2 2⟩, sampleState.2.2)

def sharedCalls (_ : Bool) : ToolCall :=
  ⟨lit "token", lit "health", OrderedDict.empty⟩

/-- Two calls in turn, step by step. -/
def sharedSchedule : List Bool :=
  (List.replicate 8 [false, true]).flatten

def sharedRun :=
  play (hostAnswer sharedEnv) sharedSchedule (fun i => (sharedCalls i).thread sharedEnv)
    sharedStart

theorem interleaves_sharedRun :
    Interleaves (serves sharedEnv fun _ => 0) (fun i => (sharedCalls i).thread sharedEnv)
      sharedStart sharedRun.1 sharedRun.2.1 sharedRun.2.2 :=
  interleaves_play (serves_hostAnswer asksLimiter_sharedEnv) _ _ _

/-- Both calls are on record. -/
theorem records_across_calls_two :
    (logged (sharedRun.1.map Prod.snd)).length = 2 ∧
      verifyChain sharedEnv.orjson (sha sharedEnv) sharedRun.2.2.2.state.file = .ok () ∧
      List.Forall₂ IsRecordOf (records sharedEnv.orjson sharedRun.2.2.2.state.file)
        ([] ++ logged (sharedRun.1.map Prod.snd)) ∧
      ∀ i, (logged (view i sharedRun.1)).length ≤ 1 ∧
        ∀ r, sharedRun.2.1 i = .done r → Accounted sharedEnv (sharedCalls i).token
          (sharedCalls i).tool (sharedCalls i).params (view i sharedRun.1) r :=
  ⟨by decide +kernel, records_across_calls interleaves_sharedRun roundTrips_sharedEnv
    (represents_start (Or.inl rfl))⟩

/-- Two tools are the whole quota of a burst of two. -/
theorem tools_within_quota_two :
    (sharedRun.1.map Prod.snd).countP (isToolFor (lit "ann")) = 2 ∧
      ((sharedRun.1.map Prod.snd).countP (isToolFor (lit "ann")) : ℚ) ≤
        ((2 : Int) : ℚ) + (0 - 0) * (((2 : Int) : ℚ) / 60) := by
  have hstart : sharedStart.1.limiter = limiterAfter (newLimiter 2 2) [] := rfl
  refine ⟨by decide +kernel, ?_⟩
  exact tools_within_quota interleaves_sharedRun (by decide) (by decide) hstart le_rfl
    fun _ _ _ _ => ⟨le_rfl, le_rfl⟩

/-- One of the tools that ran, with what stands in front of it. -/
theorem tool_behind_admission_two :
    ∃ before after i tool params p a,
      sharedRun.1 = before ++ (i, ⟨.runTool tool params p, a⟩) :: after ∧
      tool = (sharedCalls i).tool ∧ params = (sharedCalls i).params ∧
      (∃ started seen, view i before = admittedFront (sharedCalls i).token p started seen) ∧
      ∀ x, (i, x) ∈ after → x.1.isFinal = true := by
  have hcount : 0 < (sharedRun.1.map Prod.snd).countP (isToolFor (lit "ann")) := by
    decide +kernel
  obtain ⟨x, hx, hsubject⟩ := List.countP_pos_iff.mp hcount
  obtain ⟨tool, params, p, a, rfl, -⟩ := isToolFor_iff.mp hsubject
  obtain ⟨⟨i, y⟩, hmem, rfl⟩ := List.mem_map.mp hx
  obtain ⟨before, after, htrace⟩ := List.append_of_mem hmem
  exact ⟨before, after, i, tool, params, p, a, htrace,
    tool_behind_admission interleaves_sharedRun htrace⟩

theorem dispatch_interleaves_health :
    ∃ trace, Interleaves (serves sharedEnv fun _ => 0)
      (fun i => (sharedCalls i).thread sharedEnv) sharedStart trace
      (Function.update (fun i => (sharedCalls i).thread sharedEnv) false
        (.done (dispatch sharedEnv (lit "token") (lit "health") OrderedDict.empty
          (sharedStart.1, startLocals, sharedStart.2)).result))
      (CallState.shared (dispatch sharedEnv (lit "token") (lit "health") OrderedDict.empty
        (sharedStart.1, startLocals, sharedStart.2)).state) :=
  dispatch_interleaves asksLimiter_sharedEnv _ false (sharedCalls false) rfl
    (sharedStart.1, startLocals, sharedStart.2)

end Sample

end Server
end MqSentinel
