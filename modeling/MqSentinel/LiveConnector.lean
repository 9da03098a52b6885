import MqSentinel.ConnectorSessions
import MqSentinel.EscapedReplies
import MqSentinel.Interpretations
import MqSentinel.ShellAllowlist

/-!
# The live connector on its two interfaces

Between `connect` and `disconnect` a `PymqiConnector` answers the requests of a tool by
calls to pymqi and to the operating system.  It is a layer: a request goes through its
guard, and only then is anything called.

Whatever program puts requests to it and whatever it is answered, every call that it
makes is read-only, and it gets no more messages than the browses ask for
(`live_readonly`).  No program can tell two systems apart by the bytes behind the header
of a message, but for those that are exposed (`bodies_hidden_from_programs`).  Against a
queue the browse is the one that `Dlq.browseDlq` describes (`browse_agrees`).
-/

namespace MqSentinel
namespace Live

open Dialogues Dialogues.Dialogue Sessions
open Dlq (DLQHeader MessageDescriptor QueueHandle)
open Health (MQSCResult)

/-- The options of `MQOPEN` that matter here. -/
inductive OpenOption where
  | input
  | output
  | browse
  | inquire
  | failIfQuiescing
deriving DecidableEq

/-- The options of `MQGET`; one without a browse option takes the message off the queue. -/
inductive GetOption where
  | browseFirst
  | browseNext
  | failIfQuiescing
deriving DecidableEq

/-- A call to pymqi, or to the operating system. -/
inductive ApiCall where
  | escape (command : PyStr)
  | run (argv : List PyStr)
  | openQueue (queueName : PyStr) (options : List OpenOption)
  | inquireDepth
  | get (options : List GetOption)
  | close
deriving DecidableEq

/-- `subprocess.CompletedProcess`, with the streams as text. -/
structure CompletedProcess where
  stdout : PyStr
  stderr : PyStr

/-- What a call returns. -/
abbrev ApiCall.Answer : ApiCall → Type
  | escape _ => Option (List Mqsc.ReplyField)
  | run _ => CompletedProcess
  | openQueue _ _ => Unit
  | inquireDepth => Int
  | get _ => PyBytes × MessageDescriptor
  | close => Unit

/-- A part of the connector. -/
abbrev Method (α : Type) := Dialogue PyException ApiCall.Answer α

def mqConnectionError (message : PyStr) : PyException :=
  ⟨"MQConnectionError", ["RuntimeError", "Exception"], message⟩

def commandNotAllowed (message : PyStr) : PyException :=
  ⟨"CommandNotAllowedError", ["PermissionError", "OSError", "Exception"], message⟩

/-- A guard, as the exception that it raises. -/
def guarded : Except PyStr Unit → Method Unit
  | .ok _ => pure ()
  | .error message => raise (commandNotAllowed message)

/-- `_LOCAL_HOSTS` -/
def localHosts : List PyStr :=
  [lit "localhost", lit "127.0.0.1", lit "::1"]

section Shlex

/-- A character that `shlex.quote` leaves alone. -/
def isSafe (c : CodePoint) : Bool :=
  c.isAlnumAscii || decide (c ∈ lit "_@%+=:,./-")

/-- `shlex.quote` -/
def quoteArg (s : PyStr) : PyStr :=
  if s = [] then lit "''"
  else if s.all isSafe then s
  else ch '\'' :: s.flatMap (fun c => if c = ch '\'' then lit "'\"'\"'" else [c]) ++ [ch '\'']

/-- `shlex.join` -/
def shlexJoin (argv : List PyStr) : PyStr :=
  List.intercalate (lit " ") (argv.map quoteArg)

end Shlex

section Methods

variable (U : UnicodeData) (repr : PyStr → PyStr) (sha256hex : PyBytes → PyStr)

-- `exc.reason` of an `MQMIError`.
variable (reason : PyException → Int)

variable (c : Dlq.PymqiConnector)

/-- `execute_mqsc` -/
def executeMqsc (command : PyStr) : Method MQSCResult :=
  if c.connected then do
    guarded (Allowlist.assertMqscAllowed U command)
    let response ← (query (ApiCall.escape command)).except fun exc =>
      if Ordinary exc then
        raise (mqConnectionError (lit "MQSC execution failed for " ++ repr command))
      else raise exc
    let raw := Mqsc.escapedReplyText response
    return ⟨(Mqsc.parseMqscReply U raw).map Detect.attrsRow, raw⟩
  else raise (mqConnectionError (lit "not connected"))

/-- `self._entry is None or self._entry.host.lower() not in _LOCAL_HOSTS`, the other way. -/
def isLocal : Bool :=
  c.entry.any fun entry => decide (U.lower entry.host ∈ localHosts)

/-- `execute_shell` -/
def executeShell (argv : List PyStr) : Method PyStr := do
  guarded (Allowlist.assertShellAllowed U repr argv)
  if isLocal U c then do
    let proc ← (query (ApiCall.run argv)).except fun exc =>
      if exc.isInstance "FileNotFoundError" then
        raise (mqConnectionError (lit "binary not found: " ++ argv.headD []))
      else if exc.isInstance "TimeoutExpired" then
        raise (mqConnectionError (lit "timeout running " ++ shlexJoin argv))
      else raise exc
    return proc.stdout ++ proc.stderr
  else raise (mqConnectionError (argv.headD [] ++ lit (
    " describes the local machine; it only runs when MQ-Sentinel " ++
    "is on the queue manager's host (inventory host: localhost)")))

/-- The options of the calls of `get`, in their order. -/
def getOptions (first : Bool) : List GetOption :=
  [if first then .browseFirst else .browseNext, .failIfQuiescing]

/-- The loop over `max_messages` calls of `get`. -/
def browseLoop : Nat → Bool → List DLQHeader → Method (List DLQHeader)
  | 0, _, headers => pure headers
  | n + 1, first, headers => (query (ApiCall.get (getOptions first))).follow fun answer =>
      match answer with
      | .ok (raw, md) =>
          browseLoop n false (headers ++ (Dlq.parseDlhSafely sha256hex raw md).toList)
      | .error exc =>
          if exc.isInstance "MQMIError" then
            if reason exc = Dlq.noMsgAvailable then pure headers
            else raise (mqConnectionError
              (lit "DLQ browse failed (reason " ++ PyInt.toStr (reason exc) ++ lit ")"))
          else raise exc

/-- The depth of the queue, which is 0 when it cannot be had. -/
def inquired : Method Int :=
  (query ApiCall.inquireDepth).except fun exc => if Ordinary exc then pure 0 else raise exc

/-- The `try` block of `browse_dlq`. -/
def browseQueue (queueName : PyStr) (maxMessages : Nat) : Method (Int × List DLQHeader) := do
  query (ApiCall.openQueue queueName [.browse, .inquire, .failIfQuiescing])
  let depth ← inquired
  let headers ← browseLoop sha256hex reason maxMessages true []
  query ApiCall.close
  return (depth, headers)

/-- The `except` clause of `browse_dlq`. -/
def browseFailure (queueName : PyStr) (exc : PyException) : PyException :=
  if exc.isInstance "MQConnectionError" then exc
  else if Ordinary exc then mqConnectionError (lit "DLQ browse failed for " ++ repr queueName)
  else exc

/-- `browse_dlq` -/
def browseDlq (queueName : PyStr) (maxMessages : Int) : Method Dlq.BrowseResult :=
  if ¬ c.connected then raise (mqConnectionError (lit "not connected"))
  else if maxMessages < 1 ∨ maxMessages > 500 then
    raise (.valueError (lit "max_messages must be in [1, 500]"))
  else do
    let browsed ← (browseQueue sha256hex reason queueName maxMessages.toNat).except fun exc =>
      raise (browseFailure repr queueName exc)
    return {
      queueName := queueName
      qmName := (c.entry.map QMEntry.qmName).getD []
      sampleSize := browsed.2.length
      queueDepth := browsed.1
      headers := browsed.2 }

/-- The live connector, as a tool finds it between `connect` and `disconnect`. -/
def connector : Layer PyException Request.Answer ApiCall.Answer
  | .mqsc command => executeMqsc U repr c command
  | .shell argv => executeShell U repr c argv
  | .browse queueName maxMessages => browseDlq repr sha256hex reason c queueName maxMessages

end Methods

section Plans

variable (U : UnicodeData) (repr : PyStr → PyStr) (c : Dlq.PymqiConnector)

/-- The calls of `get`, the next one being the first or not. -/
def getsPlan : Bool → Nat → List ApiCall
  | _, 0 => []
  | first, k + 1 => .get (getOptions first) :: getsPlan false k

/-- The calls of a browse that gets `k` times. -/
def browsePlan (queueName : PyStr) (k : Nat) : List ApiCall :=
  [.openQueue queueName [.browse, .inquire, .failIfQuiescing], .inquireDepth] ++
    (getsPlan true k ++ [.close])

/-- What comes through the guards. -/
def Admitted : Request → Prop
  | .mqsc command => c.connected = true ∧ Allowlist.assertMqscAllowed U command = .ok ()
  | .shell argv => Allowlist.assertShellAllowed U repr argv = .ok () ∧ isLocal U c = true
  | .browse _ maxMessages => c.connected = true ∧ 1 ≤ maxMessages ∧ maxMessages ≤ 500

/-- The calls that carry out a request. -/
def callPlans : Request → Language ApiCall
  | .mqsc command => {[.escape command]}
  | .shell argv => {[.run argv]}
  | .browse queueName maxMessages =>
      {plan | ∃ k ≤ maxMessages.toNat, plan = browsePlan queueName k}

/-- Nothing is called for a request that is refused. -/
def guardedPlans (r : Request) : Language ApiCall :=
  {plan | Admitted U repr c r ∧ plan ∈ callPlans r ∨ ¬ Admitted U repr c r ∧ plan = []}

/-- A call that changes nothing at the queue manager or on the machine. -/
def ApiCall.ReadOnly : ApiCall → Prop
  | escape command => Allowlist.assertMqscAllowed U command = .ok ()
  | run argv => Allowlist.assertShellAllowed U repr argv = .ok () ∧ isLocal U c = true
  | openQueue _ options => OpenOption.input ∉ options ∧ OpenOption.output ∉ options
  | inquireDepth => True
  | get options => GetOption.browseFirst ∈ options ∨ GetOption.browseNext ∈ options
  | close => True

/-- A call of `get`. -/
def ApiCall.isGet : ApiCall → Bool
  | get _ => true
  | _ => false

/-- How many messages a request may look at. -/
def sampleBound : Request → Nat
  | .browse _ maxMessages => if maxMessages ≤ 500 then maxMessages.toNat else 0
  | _ => 0

theorem forall_mem_getsPlan
    {p : ApiCall → Prop} (h : ∀ first, p (.get (getOptions first))) :
    ∀ first k, ∀ q ∈ getsPlan first k, p q
  | _, 0 => List.forall_mem_nil _
  | first, k + 1 =>
      List.forall_mem_cons.mpr ⟨h first, forall_mem_getsPlan h false k⟩

theorem countP_getsPlan :
    ∀ first k, (getsPlan first k).countP ApiCall.isGet = k
  | _, 0 => rfl
  | first, k + 1 => by
      rw [getsPlan, List.countP_cons_of_pos rfl, countP_getsPlan false k]

/-- Whatever a plan calls is read-only. -/
theorem readOnly_of_mem_guardedPlans
    {r : Request} {plan : List ApiCall} (hplan : plan ∈ guardedPlans U repr c r) :
    ∀ q ∈ plan, q.ReadOnly U repr c := by
  rcases hplan with ⟨hadmitted, hplan⟩ | ⟨-, rfl⟩
  · cases r with
    | mqsc command =>
        obtain rfl : plan = [.escape command] := hplan
        exact List.forall_mem_singleton.mpr hadmitted.2
    | shell argv =>
        obtain rfl : plan = [.run argv] := hplan
        exact List.forall_mem_singleton.mpr hadmitted
    | browse queueName maxMessages =>
        obtain ⟨k, -, rfl⟩ := hplan
        have hget : ∀ first, (ApiCall.get (getOptions first)).ReadOnly U repr c := by
          intro first
          cases first with
          | false => exact Or.inr List.mem_cons_self
          | true => exact Or.inl List.mem_cons_self
        have hopen : (ApiCall.openQueue queueName
            [.browse, .inquire, .failIfQuiescing]).ReadOnly U repr c := by
          constructor <;> decide
        simp only [browsePlan, List.forall_mem_append, List.forall_mem_cons]
        exact ⟨⟨hopen, trivial, List.forall_mem_nil _⟩,
          forall_mem_getsPlan hget true k, trivial, List.forall_mem_nil _⟩
  · exact List.forall_mem_nil _

/-- No plan gets more messages than its request may look at. -/
theorem countP_isGet_of_mem_guardedPlans
    {r : Request} {plan : List ApiCall} (hplan : plan ∈ guardedPlans U repr c r) :
    plan.countP ApiCall.isGet ≤ sampleBound r := by
  rcases hplan with ⟨hadmitted, hplan⟩ | ⟨-, rfl⟩
  · cases r with
    | mqsc command =>
        obtain rfl : plan = [.escape command] := hplan
        exact Nat.zero_le _
    | shell argv =>
        obtain rfl : plan = [.run argv] := hplan
        exact Nat.zero_le _
    | browse queueName maxMessages =>
        obtain ⟨k, hk, rfl⟩ := hplan
        rw [browsePlan, List.countP_append, List.countP_append, countP_getsPlan, sampleBound,
          if_pos hadmitted.2.2]
        simpa [ApiCall.isGet] using hk
  · exact Nat.zero_le _

end Plans

section Calls

variable (U : UnicodeData) (repr : PyStr → PyStr) (sha256hex : PyBytes → PyStr)
variable (reason : PyException → Int) (c : Dlq.PymqiConnector)

/-- What is refused calls nothing. -/
theorem asks_refused
    {r : Request} (h : ¬ Admitted U repr c r) (exc : PyException) :
    Asks (fun _ => False) (guardedPlans U repr c r) (raise exc : Method r.Answer) := by
  refine (asks_done _).mono ?_
  rintro plan rfl
  exact Or.inr ⟨h, rfl⟩

/-- What is admitted follows the plans of its calls. -/
theorem asks_admitted
    {r : Request} {d : Method r.Answer} (h : Admitted U repr c r)
    (hd : Asks (fun _ => False) (callPlans r) d) :
    Asks (fun _ => False) (guardedPlans U repr c r) d :=
  hd.mono fun _ hplan => Or.inl ⟨h, hplan⟩

/-- A handler that raises leaves the plan as it is. -/
theorem asks_except_raising
    {α : Type} {d : Method α} {handler : PyException → Method α} {plans : Language ApiCall}
    (h : Asks (fun _ => False) plans d) (hh : ∀ exc, ∃ exc', handler exc = raise exc') :
    Asks (fun _ => False) plans (d.except handler) := by
  refine h.except (fun exc => ?_) (fun exc a t hgoes => ?_) fun _ _ _ _ => id
  · obtain ⟨exc', heq⟩ := hh exc
    rw [heq]
    exact asks_done _
  · obtain ⟨exc', heq⟩ := hh exc
    rw [heq] at hgoes
    cases (goes_done_iff.mp hgoes).2

/-- Behind a guard that has let the request through. -/
theorem guarded_bind
    {α : Type} (u : Unit) (f : Unit → Method α) :
    guarded (.ok u) >>= f = f u := by
  rfl

theorem asks_executeMqsc (command : PyStr) :
    Asks (fun _ => False) (guardedPlans U repr c (.mqsc command))
      (executeMqsc U repr c command) := by
  unfold executeMqsc
  split_ifs with hconnected
  · cases hguard : Allowlist.assertMqscAllowed U command with
    | error message =>
        have hrefused : ¬ Admitted U repr c (.mqsc command) := fun h => by
          cases hguard.symm.trans h.2
        exact asks_refused U repr c hrefused _
    | ok u =>
        rw [guarded_bind]
        refine asks_admitted U repr c ⟨hconnected, hguard⟩ ?_
        refine Asks.bind_silent (asks_except_raising (asks_query _) fun exc => ?_)
          fun response => asks_done _
        split_ifs
        · exact ⟨_, rfl⟩
        · exact ⟨_, rfl⟩
  · have hrefused : ¬ Admitted U repr c (.mqsc command) := fun h => hconnected h.1
    exact asks_refused U repr c hrefused _

theorem asks_executeShell (argv : List PyStr) :
    Asks (fun _ => False) (guardedPlans U repr c (.shell argv))
      (executeShell U repr c argv) := by
  unfold executeShell
  cases hguard : Allowlist.assertShellAllowed U repr argv with
  | error message =>
      have hrefused : ¬ Admitted U repr c (.shell argv) := fun h => by
        cases hguard.symm.trans h.1
      exact asks_refused U repr c hrefused _
  | ok u =>
      rw [guarded_bind]
      split_ifs with hlocal
      · refine asks_admitted U repr c ⟨hguard, hlocal⟩ ?_
        refine Asks.bind_silent (asks_except_raising (asks_query _) fun exc => ?_)
          fun proc => asks_done _
        split_ifs
        · exact ⟨_, rfl⟩
        · exact ⟨_, rfl⟩
        · exact ⟨_, rfl⟩
      · have hrefused : ¬ Admitted U repr c (.shell argv) := fun h => hlocal h.2
        exact asks_refused U repr c hrefused _

/-- The plans of `n` rounds of the loop. -/
def getsPlans (first : Bool) (n : Nat) : Language ApiCall :=
  {plan | ∃ k ≤ n, plan = getsPlan first k}

theorem asks_browseLoop (n : Nat) (first : Bool) (headers : List DLQHeader) :
    Asks (fun _ => False) (getsPlans first n) (browseLoop sha256hex reason n first headers) := by
  induction n generalizing first headers with
  | zero =>
      refine (asks_done _).mono ?_
      rintro plan rfl
      exact ⟨0, Nat.le_refl 0, rfl⟩
  | succ n ih =>
      have hempty : ({[]} : Language ApiCall) ≤ getsPlans false n := by
        rintro plan rfl
        exact ⟨0, Nat.zero_le n, rfl⟩
      refine (asks_ask (L := getsPlans false n) fun answer => ?_).mono ?_
      · cases answer with
        | ok message =>
            exact ih false _
        | error exc =>
            refine Asks.mono ?_ hempty
            change Asks _ _ (if _ then _ else _)
            split_ifs
            · exact asks_done _
            · exact asks_done _
            · exact asks_done _
      · intro plan hplan
        obtain ⟨l, rfl, m, ⟨k, hk, rfl⟩, rfl⟩ := Language.mem_mul.mp hplan
        exact ⟨k + 1, Nat.succ_le_succ hk, rfl⟩

theorem asks_inquired :
    Asks Ordinary {[ApiCall.inquireDepth]} inquired := by
  refine (asks_query _).except (fun exc => ?_) (fun exc depth t hgoes => ?_)
    fun exc exc' t hgoes hexc' => ?_
  · split_ifs
    · exact asks_done _
    · exact asks_done _
  · split_ifs at hgoes with hexc
    · exact hexc
    · cases (goes_done_iff.mp hgoes).2
  · split_ifs at hgoes with hexc
    · exact hexc
    · cases (goes_done_iff.mp hgoes).2
      exact hexc'

theorem asks_browseQueue (queueName : PyStr) (maxMessages : Nat) :
    Asks (fun _ => False) {plan | ∃ k ≤ maxMessages, plan = browsePlan queueName k}
      (browseQueue sha256hex reason queueName maxMessages) := by
  have hquiet : ∀ {α : Type} {d : Method α},
      RaisesOnly (fun _ => ¬ False) d := fun _ _ _ => id
  have hdepth : Asks (fun _ => False) {[ApiCall.inquireDepth]} inquired :=
    asks_inquired.weaken fun _ => False.elim
  have hrest : ∀ depth : Int, Asks (fun _ => False) (getsPlans true maxMessages * {[.close]})
      (browseLoop sha256hex reason maxMessages true [] >>= fun headers =>
        (query ApiCall.close : Method Unit) >>= fun _ => pure (depth, headers)) :=
    fun depth => Asks.bind (asks_browseLoop sha256hex reason maxMessages true [])
      (fun headers => (asks_query _).bind_silent fun _ => asks_done _) ⟨_, rfl⟩ (Or.inl hquiet)
  have hempty : ∀ n, [] ∈ getsPlans true n := fun n => ⟨0, Nat.zero_le n, rfl⟩
  have hclose : [] ++ [.close] ∈ getsPlans true maxMessages * {[.close]} :=
    Language.append_mem_mul (hempty maxMessages) rfl
  refine (Asks.bind (asks_query _) (fun _ => Asks.bind hdepth hrest ⟨_, hclose⟩ (Or.inl hquiet))
    ⟨_, Language.append_mem_mul rfl hclose⟩ (Or.inl hquiet)).mono ?_
  intro plan hplan
  obtain ⟨_, rfl, l, hl, rfl⟩ := Language.mem_mul.mp hplan
  obtain ⟨_, rfl, m, hm, rfl⟩ := Language.mem_mul.mp hl
  obtain ⟨_, ⟨k, hk, rfl⟩, _, rfl, rfl⟩ := Language.mem_mul.mp hm
  exact ⟨k, hk, rfl⟩

theorem asks_browseDlq (queueName : PyStr) (maxMessages : Int) :
    Asks (fun _ => False) (guardedPlans U repr c (.browse queueName maxMessages))
      (browseDlq repr sha256hex reason c queueName maxMessages) := by
  unfold browseDlq
  split_ifs with hconnected hbounds
  · have hrefused : ¬ Admitted U repr c (.browse queueName maxMessages) := fun h => by
      have hle := h.2
      omega
    exact asks_refused U repr c hrefused _
  · have hadmitted : Admitted U repr c (.browse queueName maxMessages) :=
      ⟨hconnected, by omega, by omega⟩
    refine asks_admitted U repr c hadmitted ?_
    exact Asks.bind_silent (asks_except_raising
      (asks_browseQueue sha256hex reason queueName maxMessages.toNat) fun exc => ⟨_, rfl⟩)
      fun browsed => asks_done _
  · have hrefused : ¬ Admitted U repr c (.browse queueName maxMessages) :=
      fun h => hconnected h.1
    exact asks_refused U repr c hrefused _

/-- The calls for a request follow its plans, whatever they are answered. -/
theorem asks_connector (r : Request) :
    Asks (fun _ => False) (guardedPlans U repr c r)
      (connector U repr sha256hex reason c r) := by
  cases r with
  | mqsc command => exact asks_executeMqsc U repr c command
  | shell argv => exact asks_executeShell U repr c argv
  | browse queueName maxMessages =>
      exact asks_browseDlq U repr sha256hex reason c queueName maxMessages

/-- What is called for a request is the beginning of one of its plans. -/
theorem exists_plan
    {r : Request} {t : List (Exchange PyException ApiCall.Answer)} {a : Except PyException r.Answer}
    (h : Goes (connector U repr sha256hex reason c r) t a) :
    ∃ plan ∈ guardedPlans U repr c r, questions t <+: plan := by
  obtain ⟨plan, hplan, hfront, -⟩ := asks_connector U repr sha256hex reason c r t a h
  exact ⟨plan, hplan, hfront⟩

variable {U repr sha256hex reason c}
variable {u : List (Exchange PyException Request.Answer)}
variable {t : List (Exchange PyException ApiCall.Answer)}

theorem readOnly_of_carries
    (h : Carries (connector U repr sha256hex reason c) u t) :
    ∀ q ∈ questions t, q.ReadOnly U repr c := by
  have hcalls : ∀ x ∈ t, x.1.ReadOnly U repr c := by
    refine h.forall_of fun x _ t a hgoes y hy => ?_
    obtain ⟨plan, hplan, hfront⟩ := exists_plan U repr sha256hex reason c hgoes
    exact readOnly_of_mem_guardedPlans U repr c hplan _ (hfront.mem (List.mem_map_of_mem hy))
  exact List.forall_mem_map.mpr hcalls

theorem countP_isGet_of_carries
    (h : Carries (connector U repr sha256hex reason c) u t) :
    (questions t).countP ApiCall.isGet ≤ ((questions u).map sampleBound).sum := by
  rw [questions, List.countP_map]
  refine h.countP_le fun q t a hgoes => ?_
  obtain ⟨plan, hplan, hfront⟩ := exists_plan U repr sha256hex reason c hgoes
  rw [← List.countP_map]
  exact (hfront.sublist.countP_le).trans (countP_isGet_of_mem_guardedPlans U repr c hplan)

/--
**The live connector reads only.**  Whatever program puts requests to it and however the
queue manager and the machine answer, each call that it makes is read-only, and it gets
no more messages than the requests that were asked may look at.
-/
theorem live_readonly
    {α : Type} {d : Dialogue PyException Request.Answer α} {r : Except PyException α}
    (h : Goes (d.interpret (connector U repr sha256hex reason c)) t r) :
    (∀ q ∈ questions t, q.ReadOnly U repr c) ∧
      ∃ u, Goes d u r ∧ Carries (connector U repr sha256hex reason c) u t ∧
        (questions t).countP ApiCall.isGet ≤ ((questions u).map sampleBound).sum := by
  obtain ⟨u, hu, hcarries⟩ := goes_interpret_iff.mp h
  exact ⟨readOnly_of_carries hcarries, u, hu, hcarries, countP_isGet_of_carries hcarries⟩

/-- The plans of a tool look at no more messages than its sample. -/
theorem sum_sampleBound_le (sample : Int) (dlqName : PyStr) (d : Server.Diagnostic) :
    ((detectionPlan ++ checkPlan sample dlqName d).map sampleBound).sum ≤
      if 1 ≤ sample ∧ sample ≤ 500 then sample.toNat else 0 := by
  have hdlq : ((dlqPlan sample dlqName).map sampleBound).sum ≤
      if 1 ≤ sample ∧ sample ≤ 500 then sample.toNat else 0 := by
    unfold dlqPlan
    by_cases hsample : sample < 1 ∨ sample > Health.maxSample
    · rw [if_pos hsample]
      exact Nat.zero_le _
    · have hbounds : 1 ≤ sample ∧ sample ≤ 500 := by
        simp only [Health.maxSample] at hsample
        omega
      rw [if_neg hsample, if_pos hbounds]
      simp [sampleBound, mqsc, hbounds.2]
  rw [List.map_append, List.sum_append, show (detectionPlan.map sampleBound).sum = 0 from rfl,
    Nat.zero_add]
  cases d with
  | dlq => exact hdlq
  | healthCheck =>
      simpa [checkPlan, channelsPlan, clusterPlan, mqsc, sampleBound] using hdlq
  | _ => exact Nat.zero_le _

/--
**A tool on the live connector.**  Whatever the queue manager and the machine answer, and
however that changes while it runs, a tool makes read-only calls, and it browses no more
messages than its sample: none if that is out of bounds, and never more than 500.
-/
theorem tool_on_live_connector
    {σ : Type} (party : (q : ApiCall) → σ → Except PyException q.Answer × σ) (s : σ)
    (isdigit : CodePoint → Bool) (invalidLiteral : PyStr) (registry : Rcs.KCRegistry)
    (order : Rcs.SetOrder) (clock : Rcs.Cluster.Clock) (d : Server.Diagnostic) (qmName : PyStr)
    (sample : Int) :
    let live := (session U isdigit invalidLiteral registry order clock d qmName sample).interpret
      (connector U repr sha256hex reason c)
    let calls := questions (live.run party s).events
    (∀ q ∈ calls, q.ReadOnly U repr c) ∧
      calls.countP ApiCall.isGet ≤ if 1 ≤ sample ∧ sample ≤ 500 then sample.toNat else 0 := by
  intro live calls
  obtain ⟨u, hu, hcarries⟩ := goes_interpret_iff.mp (goes_run party live s)
  refine ⟨readOnly_of_carries hcarries, (countP_isGet_of_carries hcarries).trans ?_⟩
  obtain ⟨plan, ⟨dlqName, rfl⟩, hfront, -⟩ :=
    asks_session U isdigit invalidLiteral registry order clock d qmName sample u _ hu
  exact ((hfront.map sampleBound).sublist.sum_le_sum fun _ _ => Nat.zero_le _).trans
    (sum_sampleBound_le sample dlqName d)

end Calls

section Secrecy

/-- Answers that differ in bytes of a message that are not exposed, if at all. -/
inductive SameButBody : (q : ApiCall) → Except PyException q.Answer →
    Except PyException q.Answer → Prop
  | same (q : ApiCall) (a : Except PyException q.Answer) : SameButBody q a a
  | body (options : List GetOption) (raw raw' : PyBytes) (md : MessageDescriptor)
      (h : Dlq.AgreeOnExposed raw raw') :
      SameButBody (.get options) (.ok (raw, md)) (.ok (raw', md))

variable (U : UnicodeData) (repr : PyStr → PyStr) (sha256hex : PyBytes → PyStr)
variable (reason : PyException → Int) (c : Dlq.PymqiConnector)

/-- Only `get` is answered with a body. -/
theorem SameButBody.matches
    {q : ApiCall} {a a' : Except PyException q.Answer} (h : SameButBody q a a')
    (hq : q.isGet = false) :
    Matches Eq a a' := by
  cases h with
  | same q a => exact matches_refl a
  | body options raw raw' md hagree => cases hq

theorem alike_call
    {q : ApiCall} (hq : q.isGet = false) :
    Alike SameButBody Eq (query q) (query q) :=
  alike_query fun _ _ h => h.matches hq

theorem alike_done
    {α : Type} (r : Except PyException α) :
    Alike SameButBody Eq (done r : Method α) (done r) :=
  Alike.done (matches_refl r)

theorem alike_ite
    {α : Type} {p : Prop} [Decidable p] {d d' : Method α}
    (hd : Alike SameButBody Eq d d) (hd' : Alike SameButBody Eq d' d') :
    Alike SameButBody Eq (if p then d else d') (if p then d else d') := by
  split_ifs
  · exact hd
  · exact hd'

/-- What follows on the same value. -/
theorem alike_bind
    {α β : Type} {d : Method α} {f : α → Method β} (hd : Alike SameButBody Eq d d)
    (hf : ∀ a, Alike SameButBody Eq (f a) (f a)) :
    Alike SameButBody Eq (d >>= f) (d >>= f) := by
  refine hd.bind fun a b h => ?_
  rw [h]
  exact hf b

theorem alike_guarded (verdict : Except PyStr Unit) :
    Alike SameButBody Eq (guarded verdict) (guarded verdict) := by
  cases verdict with
  | ok u => exact alike_done _
  | error message => exact alike_done _

/-- The loop keeps the header of a message and lets go of the rest. -/
theorem alike_browseLoop (n : Nat) (first : Bool) (headers : List DLQHeader) :
    Alike SameButBody Eq (browseLoop sha256hex reason n first headers)
      (browseLoop sha256hex reason n first headers) := by
  induction n generalizing first headers with
  | zero =>
      exact alike_done _
  | succ n ih =>
      refine Alike.ask _ _ _ fun a a' ha => ?_
      cases ha with
      | same _ a =>
          cases a with
          | ok message =>
              exact ih false _
          | error exc =>
              exact alike_ite (alike_ite (alike_done _) (alike_done _)) (alike_done _)
      | body _ raw raw' md hagree =>
          have hheader := hagree.parse_eq sha256hex md
          simp only [Dialogue.follow, hheader]
          exact ih false _

theorem alike_browseDlq (queueName : PyStr) (maxMessages : Int) :
    Alike SameButBody Eq (browseDlq repr sha256hex reason c queueName maxMessages)
      (browseDlq repr sha256hex reason c queueName maxMessages) := by
  have hinquired : Alike SameButBody Eq inquired inquired := by
    refine Alike.except (alike_call (q := .inquireDepth) rfl) fun exc => ?_
    exact alike_ite (alike_done _) (alike_done _)
  have hqueue : Alike SameButBody Eq
      (browseQueue sha256hex reason queueName maxMessages.toNat)
      (browseQueue sha256hex reason queueName maxMessages.toNat) := by
    refine alike_bind (alike_call (q := .openQueue queueName _) rfl) fun _ => ?_
    refine alike_bind hinquired fun depth => ?_
    refine alike_bind (alike_browseLoop sha256hex reason _ true []) fun headers => ?_
    exact alike_bind (alike_call (q := .close) rfl) fun _ => alike_done _
  refine alike_ite (alike_done _) (alike_ite (alike_done _) ?_)
  exact alike_bind (hqueue.except fun exc => alike_done _) fun browsed => alike_done _

/-- The connector makes no difference between bytes that are not exposed. -/
theorem alike_connector (r : Request) :
    Alike SameButBody Eq (connector U repr sha256hex reason c r)
      (connector U repr sha256hex reason c r) := by
  cases r with
  | mqsc command =>
      refine alike_ite (alike_bind (alike_guarded _) fun _ => alike_bind ?_ fun response =>
        alike_done _) (alike_done _)
      exact (alike_call (q := .escape command) rfl).except fun exc =>
        alike_ite (alike_done _) (alike_done _)
  | shell argv =>
      refine alike_bind (alike_guarded _) fun _ => alike_ite (alike_bind ?_ fun proc =>
        alike_done _) (alike_done _)
      exact (alike_call (q := .run argv) rfl).except fun exc =>
        alike_ite (alike_done _) (alike_ite (alike_done _) (alike_done _))
  | browse queueName maxMessages =>
      exact alike_browseDlq repr sha256hex reason c queueName maxMessages

/--
**Bodies stay on the queue.**  Two systems that answer alike but for bytes of messages
that are not exposed cannot be told apart by any program on the live connector: it makes
the same calls and has the same result.
-/
theorem bodies_hidden_from_programs
    {α σ τ : Type} (d : Dialogue PyException Request.Answer α) {states : σ → τ → Prop}
    {party : (q : ApiCall) → σ → Except PyException q.Answer × σ}
    {party' : (q : ApiCall) → τ → Except PyException q.Answer × τ}
    (hparty : Simulates SameButBody states party party')
    {s : σ} {s' : τ} (hs : states s s') :
    let live := d.interpret (connector U repr sha256hex reason c)
    (live.run party s).result = (live.run party' s').result ∧
      questions (live.run party s).events = questions (live.run party' s').events := by
  intro live
  have halike : Alike SameButBody Eq live live :=
    alike_interpret (alike_connector U repr sha256hex reason c) d
  obtain ⟨hresult, hcalls⟩ := halike.run hparty hs
  exact ⟨hresult.eq, hcalls⟩

end Secrecy

section Queues

variable (repr : PyStr → PyStr) (sha256hex : PyBytes → PyStr)
variable (reason : PyException → Int) (c : Dlq.PymqiConnector)

/-- `pymqi.MQMIError` -/
def mqmiError (reason : Int) : PyException :=
  ⟨"MQMIError", ["Error", "Exception"], PyInt.toStr reason⟩

/-- Any other exception of pymqi. -/
def pymqiError : PyException :=
  ⟨"PYIFError", ["Error", "Exception"], []⟩

/-- A queue as the party of a browse; its state is what the calls of `get` still do. -/
def queueParty (q : QueueHandle) (call : ApiCall) (gets : List Dlq.GetOutcome) :
    Except PyException call.Answer × List Dlq.GetOutcome :=
  match call with
  | .openQueue _ _ => (if q.opens then .ok () else .error pymqiError, gets)
  | .inquireDepth => (q.depth.elim (.error pymqiError) .ok, gets)
  | .get _ =>
      match gets with
      | [] => (.error (mqmiError Dlq.noMsgAvailable), [])
      | .message raw md :: rest => (.ok (raw, md), rest)
      | .mqmiError reason :: rest => (.error (mqmiError reason), rest)
      | .otherError :: rest => (.error pymqiError, rest)
  | .close => (if q.closes then .ok () else .error pymqiError, gets)
  | .escape _ => (.error pymqiError, gets)
  | .run _ => (.error pymqiError, gets)

/-- What `browse_dlq` raises, as an exception. -/
def browseException : Dlq.BrowseError → PyException
  | .notConnected => mqConnectionError (lit "not connected")
  | .badMaxMessages => .valueError (lit "max_messages must be in [1, 500]")
  | .browseFailedReason reason =>
      mqConnectionError (lit "DLQ browse failed (reason " ++ PyInt.toStr reason ++ lit ")")
  | .browseFailedFor queueName =>
      mqConnectionError (lit "DLQ browse failed for " ++ repr queueName)

/-- The same before the `try` block of `browse_dlq` is left. -/
def innerException : Dlq.BrowseError → PyException
  | .browseFailedFor _ => pymqiError
  | e => browseException repr e

/-- `try: d except Exception: raise wrapped`, and what is made of the value. -/
theorem result_wrapped
    {α β σ : Type} (party : (q : ApiCall) → σ → Except PyException q.Answer × σ)
    (d : Method α) (wrap : PyException → PyException) (f : α → β) (s : σ) :
    (((d.except fun exc => raise (wrap exc)) >>= fun a => pure (f a)).run party s).result =
      ((d.run party s).result.mapError wrap).map f := by
  rw [run_bind, Dialogue.except, run_follow]
  cases (d.run party s).result with
  | ok a => rfl
  | error exc => rfl

/-- The errors of the loop. -/
theorem error_of_browseLoop
    {queueName : PyStr} {e : Dlq.BrowseError} {n : Nat} {gets : List Dlq.GetOutcome}
    {headers : List DLQHeader}
    (h : Dlq.browseLoop sha256hex queueName n gets headers = .error e) :
    (∃ r, e = .browseFailedReason r) ∨ e = .browseFailedFor queueName := by
  fun_induction Dlq.browseLoop sha256hex queueName n gets headers with
  | case1 | case2 | case3 => cases h
  | case4 n r rest headers hr =>
      cases h
      exact Or.inl ⟨r, rfl⟩
  | case5 =>
      cases h
      exact Or.inr rfl
  | case6 n raw md rest headers ih =>
      exact ih h

variable {reason} (hreason : ∀ r, reason (mqmiError r) = r)
include hreason

theorem browseLoop_agrees (q : QueueHandle) (queueName : PyStr) (n : Nat) (first : Bool)
    (gets : List Dlq.GetOutcome) (headers : List DLQHeader) :
    ((browseLoop sha256hex reason n first headers).run (queueParty q) gets).result =
      (Dlq.browseLoop sha256hex queueName n gets headers).mapError (innerException repr) := by
  induction n generalizing first gets headers with
  | zero =>
      rfl
  | succ n ih =>
      -- The queue is at its end, or it fails: one test tells the two apart.
      have hraised : ∀ r rest,
          ((if reason (mqmiError r) = Dlq.noMsgAvailable then pure headers
            else raise (mqConnectionError (lit "DLQ browse failed (reason " ++
              PyInt.toStr (reason (mqmiError r)) ++ lit ")")) : Method _).run
                (queueParty q) rest).result =
            (if r = Dlq.noMsgAvailable then Except.ok headers
              else .error (.browseFailedReason r)).mapError (innerException repr) := by
        intro r rest
        rw [hreason]
        split_ifs
        · rfl
        · rfl
      cases gets with
      | nil =>
          exact hraised Dlq.noMsgAvailable []
      | cons outcome rest =>
          cases outcome with
          | message raw md => exact ih false rest _
          | mqmiError r => exact hraised r rest
          | otherError => rfl

/-- What a `try` block's body comes to, against a queue that opens. -/
theorem browseQueue_agrees (q : QueueHandle) (queueName : PyStr) (n : Nat)
    (hopens : q.opens = true) :
    ((browseQueue sha256hex reason queueName n).run (queueParty q) q.gets).result =
      ((Dlq.browseLoop sha256hex queueName n q.gets []).mapError (innerException repr)).bind
        fun headers => if q.closes then .ok (q.depth.getD 0, headers) else .error pymqiError := by
  have hopen : (queueParty q (.openQueue queueName [.browse, .inquire, .failIfQuiescing])
      q.gets) = (.ok (), q.gets) := by
    simp [queueParty, hopens]
  have hinquired : ∃ events, inquired.run (queueParty q) q.gets =
      ⟨.ok (q.depth.getD 0), q.gets, events⟩ := by
    cases hdepth : q.depth with
    | none => exact ⟨_, by simp [inquired, Dialogue.except, query, follow, run, queueParty, hdepth]; rfl⟩
    | some depth => exact ⟨_, by simp [inquired, Dialogue.except, query, follow, run, queueParty, hdepth]; rfl⟩
  obtain ⟨events, hinquired⟩ := hinquired
  simp only [browseQueue, run_bind, run_query, hopen, hinquired]
  rw [← browseLoop_agrees repr sha256hex hreason q queueName n true q.gets []]
  cases ((browseLoop sha256hex reason n true []).run (queueParty q) q.gets).result with
  | error exc => rfl
  | ok headers =>
      simp only [queueParty, Except.bind]
      cases q.closes with
      | true => rfl
      | false => rfl

/--
**The two accounts of a browse agree.**  Against a queue the live connector's browse has
the result, or raises what stands for the error, of the browse that secrecy is about.
-/
theorem browse_agrees (q : QueueHandle) (queueName : PyStr) (maxMessages : Int) :
    ((browseDlq repr sha256hex reason c queueName maxMessages).run (queueParty q)
      q.gets).result =
        (Dlq.browseDlq sha256hex c q queueName maxMessages).mapError (browseException repr) := by
  unfold browseDlq Dlq.browseDlq
  cases hconnected : c.connected with
  | false => rfl
  | true =>
      simp only [not_true_eq_false, if_false]
      by_cases hbounds : maxMessages < 1 ∨ maxMessages > 500
      · rw [if_pos hbounds, if_pos hbounds]
        rfl
      rw [if_neg hbounds, if_neg hbounds, result_wrapped]
      by_cases hopens : q.opens = true
      · rw [browseQueue_agrees repr sha256hex hreason q queueName maxMessages.toNat hopens,
          if_neg (not_not.mpr hopens)]
        cases hloop : Dlq.browseLoop sha256hex queueName maxMessages.toNat q.gets [] with
        | ok headers =>
            cases q.closes with
            | true => rfl
            | false => rfl
        | error e =>
            rcases error_of_browseLoop sha256hex hloop with ⟨r, rfl⟩ | rfl
            · rfl
            · rfl
      · have hopen : (queueParty q (.openQueue queueName [.browse, .inquire, .failIfQuiescing])
            q.gets) = (.error pymqiError, q.gets) := by
          simp [queueParty, hopens]
        rw [if_pos hopens]
        simp only [browseQueue, run_bind, run_query, hopen]
        rfl

end Queues

section Queues

/-- Outcomes that agree up to bytes that are not exposed. -/
def AgreeOnShown : Dlq.GetOutcome → Dlq.GetOutcome → Prop
  | .message raw md, .message raw' md' => md = md' ∧ Dlq.AgreeOnExposed raw raw'
  | o, o' => o = o'

/-- Queues that agree up to bytes that are not exposed answer alike. -/
theorem simulates_queueParty
    {q q' : QueueHandle} (hopens : q.opens = q'.opens) (hdepth : q.depth = q'.depth)
    (hcloses : q.closes = q'.closes) :
    Simulates SameButBody (List.Forall₂ AgreeOnShown) (queueParty q) (queueParty q') := by
  intro call gets gets' hgets
  cases call with
  | get options =>
      cases hgets with
      | nil =>
          exact ⟨SameButBody.same _ _, List.Forall₂.nil⟩
      | @cons o o' rest rest' ho hrest =>
          cases o with
          | message raw md =>
              cases o' with
              | message raw' md' =>
                  obtain ⟨rfl, hraw⟩ := ho
                  exact ⟨SameButBody.body _ raw raw' md hraw, hrest⟩
              | mqmiError r => cases ho
              | otherError => cases ho
          | mqmiError r =>
              obtain rfl : Dlq.GetOutcome.mqmiError r = o' := ho
              exact ⟨SameButBody.same _ _, hrest⟩
          | otherError =>
              obtain rfl : Dlq.GetOutcome.otherError = o' := ho
              exact ⟨SameButBody.same _ _, hrest⟩
  | openQueue queueName options =>
      simp only [queueParty, hopens]
      exact ⟨SameButBody.same _ _, hgets⟩
  | inquireDepth =>
      simp only [queueParty, hdepth]
      exact ⟨SameButBody.same _ _, hgets⟩
  | close =>
      simp only [queueParty, hcloses]
      exact ⟨SameButBody.same _ _, hgets⟩
  | escape command => exact ⟨SameButBody.same _ _, hgets⟩
  | run argv => exact ⟨SameButBody.same _ _, hgets⟩

end Queues

section Sample

/-- A connector that is connected. -/
def sampleConnector : Dlq.PymqiConnector :=
  ⟨true, none⟩

/-- A queue with one message: the magic, and a last byte behind the exposed ones. -/
def sampleQueue (body : UInt8) : QueueHandle :=
  ⟨true, none, [.message (Dlq.sampleMessage 0x41 ++ [body]) {}], true⟩

theorem live_readonly_browse :
    let live := (query (Request.browse (lit "DLQ") 2) : Session Dlq.BrowseResult).interpret
      (connector UnicodeData.basic id (fun _ => []) (fun _ => 2033) sampleConnector)
    let calls := questions (live.run (queueParty (sampleQueue 7)) (sampleQueue 7).gets).events
    (∀ q ∈ calls, q.ReadOnly UnicodeData.basic id sampleConnector) ∧
      calls.countP ApiCall.isGet ≤ 2 := by
  intro live calls
  obtain ⟨hreadonly, u, hu, -, hgets⟩ := live_readonly
    (goes_run (queueParty (sampleQueue 7)) live (sampleQueue 7).gets)
  obtain rfl := goes_query_iff.mp hu
  exact ⟨hreadonly, hgets⟩

theorem bodies_hidden_from_programs_browse :
    let live := (query (Request.browse (lit "DLQ") 2) : Session Dlq.BrowseResult).interpret
      (connector UnicodeData.basic id (fun _ => []) (fun _ => 2033) sampleConnector)
    (live.run (queueParty (sampleQueue 7)) (sampleQueue 7).gets).result =
      (live.run (queueParty (sampleQueue 8)) (sampleQueue 8).gets).result := by
  have hlength : (Dlq.sampleMessage 0x41).length = 204 := by
    rw [Dlq.sampleMessage, List.length_append, List.length_append, List.length_replicate,
      List.length_replicate]
    rfl
  have hraw : Dlq.AgreeOnExposed (Dlq.sampleMessage 0x41 ++ [7])
      (Dlq.sampleMessage 0x41 ++ [8]) := by
    have htake : ∀ (body : UInt8) (n : Nat), n ≤ 204 →
        (Dlq.sampleMessage 0x41 ++ [body]).take n = (Dlq.sampleMessage 0x41).take n :=
      fun body n hn => List.take_append_of_le_length (by rwa [hlength])
    constructor
    · constructor
      · simp only [List.length_append, List.length_singleton]
      · rw [htake _ _ (by decide), htake _ _ (by decide)]
    · intro _
      rw [PyBytes.slice, PyBytes.slice, htake _ _ (by decide), htake _ _ (by decide)]
  have hgets : List.Forall₂ AgreeOnShown (sampleQueue 7).gets (sampleQueue 8).gets :=
    List.Forall₂.cons ⟨rfl, hraw⟩ List.Forall₂.nil
  have hparty : Simulates SameButBody (List.Forall₂ AgreeOnShown) (queueParty (sampleQueue 7))
      (queueParty (sampleQueue 8)) := simulates_queueParty rfl rfl rfl
  exact (bodies_hidden_from_programs UnicodeData.basic id (fun _ => []) (fun _ => 2033)
    sampleConnector (query (Request.browse (lit "DLQ") 2)) hparty hgets).1

end Sample

end Live
end MqSentinel
