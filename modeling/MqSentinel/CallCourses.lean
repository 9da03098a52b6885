import MqSentinel.CallThreads

/-!
# The courses of a call

What can be heard in a call, whatever is answered to its questions.  A `Course` is the
`try` block, from the verifier to the tool, with the locals that it leaves; behind it
come the exchanges of the `finally` block.

A call that is over has written one record of its own or has ended with the exception
that kept it from doing so (`accounted_of_goes`).  Its tool is asked once at most, and
only behind the verifier and the limiter (`front_of_runTool`).
-/

namespace MqSentinel
namespace Server

open Dialogues Dialogues.Dialogue Effects Rbac Audit

/-- What is heard in a call. -/
abbrev Heard (ω : Type) := Exchange PyException (Ask.Answer (ω := ω))

section Courses

variable {ω ρ κ χ φ : Type} (env : Env ω ρ κ χ φ)

/-- The exchanges of a `try` block, the locals that it leaves and how it ends. -/
inductive Course (token tool : PyStr) (params : OrderedDict PyStr Json) :
    List (Heard ω) → Locals → Except PyException Json → Prop
  | unverified (exc : PyException) :
      Course token tool params [⟨.verify token, .error exc⟩]
        ⟨none, lit "error", noted exc⟩ (.error exc)
  | unclocked (p : Principal) (exc : PyException) :
      Course token tool params [⟨.verify token, .ok p⟩, ⟨.look, .error exc⟩]
        ⟨some p, lit "error", noted exc⟩ (.error exc)
  | unanswered (p : Principal) (seen : ω) (exc : PyException) :
      Course token tool params
        [⟨.verify token, .ok p⟩, ⟨.look, .ok seen⟩, ⟨.allow p.subject seen, .error exc⟩]
        ⟨some p, lit "error", noted exc⟩ (.error exc)
  | refused (p : Principal) (seen : ω) :
      Course token tool params
        [⟨.verify token, .ok p⟩, ⟨.look, .ok seen⟩, ⟨.allow p.subject seen, .ok false⟩]
        ⟨some p, lit "denied", noted (.permissionError (lit "rate limit exceeded"))⟩
        (.error (.permissionError (lit "rate limit exceeded")))
  | served (p : Principal) (seen : ω) (r : Except PyException Json) :
      Course token tool params
        [⟨.verify token, .ok p⟩, ⟨.look, .ok seen⟩, ⟨.allow p.subject seen, .ok true⟩,
          ⟨.runTool tool params p, r⟩]
        ⟨some p, outcomeOf r, errorOf r⟩ r

/-- The event that a question and its answer put on record. -/
def written : Heard ω → Option (PyStr × AuditEvent)
  | ⟨.write ts e, .ok _⟩ => some (ts, e)
  | _ => none

/-- The events on record. -/
def logged (t : List (Heard ω)) : List (PyStr × AuditEvent) :=
  t.filterMap written

/-- What kept a call from its record. -/
def Lost (params : OrderedDict PyStr Json) (t : List (Heard ω)) (exc : PyException) : Prop :=
  hashParams env params = .error exc ∨ ⟨.look, .error exc⟩ ∈ t ∨
    ∃ ts e, ⟨.write ts e, .error exc⟩ ∈ t

/-- A question of the `finally` block. -/
def Ask.isFinal : Ask ω → Bool
  | .look => true
  | .write _ _ => true
  | _ => false

/-- What can be heard of the `finally` block. -/
theorem goes_recording
    {started : ω} {tool : PyStr} {params : OrderedDict PyStr Json} {locals : Locals}
    {t : List (Heard ω)} {r : Except PyException Unit}
    (h : Goes (recording env started tool params locals) t r) :
    (∃ now stamped paramsHash, hashParams env params = .ok paramsHash ∧
      t = [⟨.look, .ok now⟩, ⟨.look, .ok stamped⟩,
        ⟨.write (lit (env.isoNow stamped))
          (auditEvent tool params paramsHash (env.elapsedMs started now) locals), .ok ()⟩] ∧
      r = .ok ()) ∨
    (logged t = [] ∧ (∀ x ∈ t, x.1.isFinal = true) ∧ ∃ exc, r = .error exc ∧
      Lost env params t exc) := by
  rcases goes_bind_iff.mp h with ⟨exc, hlook, rfl⟩ | ⟨t₁, t₂, now, hlook, hrest, rfl⟩
  · obtain rfl := goes_query_iff.mp hlook
    exact Or.inr ⟨rfl, by simp [Ask.isFinal], exc, rfl, Or.inr (Or.inl List.mem_cons_self)⟩
  obtain rfl := goes_query_iff.mp hlook
  rcases goes_bind_iff.mp hrest with ⟨exc, hhash, rfl⟩ | ⟨t₃, t₄, paramsHash, hhash, hwrite, rfl⟩
  · obtain ⟨rfl, heq⟩ := goes_done_iff.mp hhash
    exact Or.inr ⟨rfl, by simp [Ask.isFinal], exc, rfl, Or.inl heq.symm⟩
  obtain ⟨rfl, heq⟩ := goes_done_iff.mp hhash
  rcases goes_bind_iff.mp hwrite with ⟨exc, hlook, rfl⟩ | ⟨t₅, t₆, stamped, hlook, hlog, rfl⟩
  · obtain rfl := goes_query_iff.mp hlook
    refine Or.inr ⟨rfl, by simp [Ask.isFinal], exc, rfl, Or.inr (Or.inl ?_)⟩
    exact List.mem_cons_of_mem _ List.mem_cons_self
  obtain rfl := goes_query_iff.mp hlook
  obtain rfl := goes_query_iff.mp hlog
  cases r with
  | ok _ =>
      exact Or.inl ⟨now, stamped, paramsHash, heq.symm, rfl, rfl⟩
  | error exc =>
      refine Or.inr ⟨rfl, by simp [Ask.isFinal], exc, rfl,
        Or.inr (Or.inr ⟨lit (env.isoNow stamped),
          auditEvent tool params paramsHash (env.elapsedMs started now) locals, ?_⟩)⟩
      exact List.mem_cons_of_mem _ (List.mem_cons_of_mem _ List.mem_cons_self)

/-- What can be heard of the `finally` block, and how the call ends. -/
theorem goes_concluding
    {started : ω} {tool : PyStr} {params : OrderedDict PyStr Json} {locals : Locals}
    {ended r : Except PyException Json} {t : List (Heard ω)}
    (h : Goes (concluding env started tool params locals ended) t r) :
    (∃ now stamped paramsHash, hashParams env params = .ok paramsHash ∧
      t = [⟨.look, .ok now⟩, ⟨.look, .ok stamped⟩,
        ⟨.write (lit (env.isoNow stamped))
          (auditEvent tool params paramsHash (env.elapsedMs started now) locals), .ok ()⟩] ∧
      r = ended) ∨
    (logged t = [] ∧ (∀ x ∈ t, x.1.isFinal = true) ∧ ∃ exc, r = .error exc ∧
      Lost env params t exc) := by
  rcases goes_bind_iff.mp h with ⟨exc, hrec, rfl⟩ | ⟨t₁, t₂, _, hrec, hend, rfl⟩
  · rcases goes_recording env hrec with ⟨_, _, _, _, _, heq⟩ | ⟨hlog, hfinal, exc', heq, hlost⟩
    · cases heq
    · cases heq
      exact Or.inr ⟨hlog, hfinal, exc, rfl, hlost⟩
  · obtain ⟨rfl, rfl⟩ := goes_done_iff.mp hend
    rw [List.append_nil]
    rcases goes_recording env hrec with
      ⟨now, stamped, paramsHash, hhash, rfl, _⟩ | ⟨_, _, exc, heq, _⟩
    · exact Or.inl ⟨now, stamped, paramsHash, hhash, rfl, rfl⟩
    · cases heq

/-- What can be heard of a call: its first look at the clock, a course and the end. -/
theorem goes_conversation
    {token tool : PyStr} {params : OrderedDict PyStr Json} {t : List (Heard ω)}
    {r : Except PyException Json} (h : Goes (conversation env token tool params) t r) :
    (∃ exc, t = [⟨.look, .error exc⟩] ∧ r = .error exc) ∨
    ∃ started front locals ended back, Course token tool params front locals ended ∧
      t = ⟨.look, .ok started⟩ :: (front ++ back) ∧
      Goes (concluding env started tool params locals ended) back r := by
  rcases goes_bind_iff.mp h with ⟨exc, hlook, rfl⟩ | ⟨t₁, t₂, started, hlook, hbody, rfl⟩
  · exact Or.inl ⟨exc, goes_query_iff.mp hlook, rfl⟩
  right
  obtain rfl := goes_query_iff.mp hlook
  obtain ⟨t₃, t₄, verified, hverify, hrest, rfl⟩ := goes_follow_iff.mp hbody
  obtain rfl := goes_query_iff.mp hverify
  cases verified with
  | error exc =>
      exact ⟨started, _, _, _, t₄, Course.unverified exc, rfl, hrest⟩
  | ok p =>
      obtain ⟨t₅, t₆, admitted, hadmission, hserve, rfl⟩ := goes_follow_iff.mp hrest
      rcases goes_bind_iff.mp hadmission with
        ⟨exc, hlook, rfl⟩ | ⟨t₇, t₈, seen, hlook, hallow, rfl⟩
      · obtain rfl := goes_query_iff.mp hlook
        exact ⟨started, _, _, _, t₆, Course.unclocked p exc, rfl, hserve⟩
      · obtain rfl := goes_query_iff.mp hlook
        obtain rfl := goes_query_iff.mp hallow
        cases admitted with
        | error exc =>
            exact ⟨started, _, _, _, t₆, Course.unanswered p seen exc, rfl, hserve⟩
        | ok admitted =>
            cases admitted with
            | false =>
                exact ⟨started, _, _, _, t₆, Course.refused p seen, rfl, hserve⟩
            | true =>
                obtain ⟨t₉, t₁₀, ended, htool, hend, rfl⟩ := goes_follow_iff.mp hserve
                obtain rfl := goes_query_iff.mp htool
                exact ⟨started, _, _, _, t₁₀, Course.served p seen ended, rfl, hend⟩

/-- What the locals of a call tell about what was heard in it. -/
structure Tells (token : PyStr) (t : List (Heard ω)) (ended : Except PyException Json)
    (locals : Locals) : Prop where
  principal : ∀ p, locals.principal = some p ↔ ⟨.verify token, .ok p⟩ ∈ t
  ok : locals.outcome = lit "ok" ↔ ∃ v, ended = .ok v
  denied : locals.outcome = lit "denied" ↔ ∃ subject seen, ⟨.allow subject seen, .ok false⟩ ∈ t
  error : locals.error = errorOf ended

variable {env}
variable {token tool : PyStr} {params : OrderedDict PyStr Json}
variable {front back t : List (Heard ω)} {locals : Locals} {ended r : Except PyException Json}

theorem Course.tells
    (h : Course token tool params front locals ended) :
    Tells token front ended locals := by
  have hdenied : lit "error" ≠ lit "denied" ∧ lit "ok" ≠ lit "denied" ∧
      lit "error" ≠ lit "ok" ∧ lit "denied" ≠ lit "ok" := by
    decide
  cases h with
  | unverified exc =>
      constructor <;> simp [hdenied, errorOf]
  | unclocked p exc =>
      constructor <;> simp [hdenied, errorOf, eq_comm (a := p)]
  | unanswered p seen exc =>
      constructor <;> simp [hdenied, errorOf, eq_comm (a := p)]
  | refused p seen =>
      constructor <;> simp [hdenied, errorOf, eq_comm (a := p)]
  | served p seen =>
      cases ended with
      | error exc => constructor <;> simp [hdenied, errorOf, outcomeOf, eq_comm (a := p)]
      | ok v => constructor <;> simp [hdenied, errorOf, outcomeOf, eq_comm (a := p)]

theorem Course.logged_eq_nil
    (h : Course token tool params front locals ended) :
    logged front = [] := by
  cases h <;> rfl

/-- What was heard of the verifier and the limiter is heard before the `finally` block. -/
theorem Tells.around
    (h : Tells token front ended locals) (hback : ∀ x ∈ back, x.1.isFinal = true)
    (started : Except PyException ω) :
    Tells token (⟨.look, started⟩ :: (front ++ back)) ended locals := by
  have hmem (x : Heard ω) (hx : x.1.isFinal = false) :
      x ∈ (⟨.look, started⟩ :: (front ++ back) : List (Heard ω)) ↔ x ∈ front := by
    rw [List.mem_cons, List.mem_append]
    constructor
    · rintro (rfl | hfront | hx')
      · cases hx
      · exact hfront
      · rw [hback x hx'] at hx
        cases hx
    · exact fun hfront => Or.inr (Or.inl hfront)
  refine ⟨fun p => ?_, h.ok, ?_, h.error⟩
  · rw [hmem _ rfl]
    exact h.principal p
  · rw [h.denied]
    exact exists_congr fun subject => exists_congr fun seen => (hmem _ rfl).symm

/-- The one record of a call that was heard in `t` and ended with `r`. -/
def IsOwnRecord (env : Env ω ρ κ χ φ) (token tool : PyStr) (params : OrderedDict PyStr Json)
    (t : List (Heard ω)) (r : Except PyException Json) (e : AuditEvent) : Prop :=
  ∃ paramsHash duration locals, hashParams env params = .ok paramsHash ∧
    e = auditEvent tool params paramsHash duration locals ∧ Tells token t r locals

/-- A call has written its one record, or ends with what kept it from doing so. -/
def Accounted (env : Env ω ρ κ χ φ) (token tool : PyStr) (params : OrderedDict PyStr Json)
    (t : List (Heard ω)) (r : Except PyException Json) : Prop :=
  (∃ ts e, logged t = [(ts, e)] ∧ IsOwnRecord env token tool params t r e) ∨
    logged t = [] ∧ ∃ exc, r = .error exc ∧ Lost env params t exc

/-- **Every call that is over accounts for itself.** -/
theorem accounted_of_goes
    (h : Goes (conversation env token tool params) t r) :
    Accounted env token tool params t r := by
  rcases goes_conversation env h with
    ⟨exc, rfl, rfl⟩ | ⟨started, front, locals, ended, back, hcourse, rfl, hback⟩
  · exact Or.inr ⟨rfl, exc, rfl, Or.inr (Or.inl List.mem_cons_self)⟩
  have hlogged : logged (⟨.look, .ok started⟩ :: (front ++ back)) = logged back := by
    change logged (front ++ back) = _
    rw [logged, List.filterMap_append, ← logged, hcourse.logged_eq_nil]
    rfl
  rcases goes_concluding env hback with
    ⟨now, stamped, paramsHash, hhash, rfl, rfl⟩ | ⟨hlog, hfinal, exc, rfl, hlost⟩
  · refine Or.inl ⟨_, _, hlogged, paramsHash, _, locals, hhash, rfl, ?_⟩
    exact hcourse.tells.around (by simp [Ask.isFinal]) _
  · refine Or.inr ⟨hlogged.trans hlog, exc, rfl, ?_⟩
    have hsub : ∀ x ∈ back, x ∈ (⟨.look, .ok started⟩ :: (front ++ back) : List (Heard ω)) :=
      fun x hx => List.mem_cons_of_mem _ (List.mem_append_right _ hx)
    rcases hlost with hhash | hlook | ⟨ts, e, hwrite⟩
    · exact Or.inl hhash
    · exact Or.inr (Or.inl (hsub _ hlook))
    · exact Or.inr (Or.inr ⟨ts, e, hsub _ hwrite⟩)

theorem length_logged_le
    (h : Goes (conversation env token tool params) t r) :
    (logged t).length ≤ 1 := by
  rcases accounted_of_goes h with ⟨ts, e, hlog, -⟩ | ⟨hlog, -⟩
  · rw [hlog, List.length_singleton]
  · rw [hlog]
    exact Nat.zero_le 1

theorem isFinal_of_concluding
    {started : ω} (h : Goes (concluding env started tool params locals ended) back r) :
    ∀ x ∈ back, x.1.isFinal = true := by
  rcases goes_concluding env h with ⟨now, stamped, paramsHash, -, rfl, -⟩ | ⟨-, hfinal, -⟩
  · simp [Ask.isFinal]
  · exact hfinal

/-- The exchanges of a call in front of its tool. -/
def admittedFront (token : PyStr) (p : Principal) (started seen : ω) : List (Heard ω) :=
  [⟨.look, .ok started⟩, ⟨.verify token, .ok p⟩, ⟨.look, .ok seen⟩,
    ⟨.allow p.subject seen, .ok true⟩]

/-- **A tool is asked for a caller who was verified and admitted**, and only once. -/
theorem front_of_runTool
    {tool' : PyStr} {params' : OrderedDict PyStr Json} {p : Principal} {a : Except PyException Json}
    (h : Goes (conversation env token tool params)
      (front ++ ⟨.runTool tool' params' p, a⟩ :: back) r) :
    tool' = tool ∧ params' = params ∧
      (∃ started seen, front = admittedFront token p started seen) ∧
      ∀ x ∈ back, x.1.isFinal = true := by
  generalize hx : (⟨.runTool tool' params' p, a⟩ : Heard ω) = x at h
  have hkind : x.1.isFinal = false := by
    rw [← hx]
    rfl
  rcases goes_conversation env h with
    ⟨exc, ht, -⟩ | ⟨started, before, locals, ended, after, hcourse, ht, hafter⟩
  · obtain ⟨rfl, rfl, rfl⟩ : front = [] ∧ x = _ ∧ back = [] := by
      simpa [List.append_eq_cons_iff] using ht
    cases hkind
  have hfinal := isFinal_of_concluding hafter
  have hnot : x ∉ after := by
    intro hmem
    rw [hfinal x hmem] at hkind
    cases hkind
  have hmem : x ∈ (⟨.look, .ok started⟩ :: (before ++ after) : List (Heard ω)) := by
    rw [← ht]
    exact List.mem_append_right _ List.mem_cons_self
  subst hx
  cases hcourse with
  | unverified exc =>
      simp [hnot] at hmem
  | unclocked q exc =>
      simp [hnot] at hmem
  | unanswered q seen exc =>
      simp [hnot] at hmem
  | refused q seen =>
      simp [hnot] at hmem
  | served q seen =>
      have hsplit : front ++ ⟨.runTool tool' params' p, a⟩ :: back =
          admittedFront token q started seen ++ ⟨.runTool tool params q, ended⟩ :: after := ht
      have hfront : (⟨.runTool tool' params' p, a⟩ : Heard ω) ∉
          admittedFront token q started seen := by
        simp [admittedFront]
      obtain ⟨rfl, heq, rfl⟩ :=
        (List.append_cons_inj_of_notMem hfront hnot).mp hsplit.symm
      cases heq
      exact ⟨rfl, rfl, ⟨started, seen, rfl⟩, hfinal⟩

/-- The tool is asked on behalf of the subject. -/
def isToolFor (subject : PyStr) : Heard ω → Bool
  | ⟨.runTool _ _ p, _⟩ => p.subject = subject
  | _ => false

/-- The limiter admits the subject. -/
def isAdmissionOf (subject : PyStr) : Heard ω → Bool
  | ⟨.allow key _, .ok admitted⟩ => key = subject && admitted
  | _ => false

theorem isToolFor_iff
    {subject : PyStr} {x : Heard ω} :
    isToolFor subject x = true ↔
      ∃ tool params p a, x = ⟨.runTool tool params p, a⟩ ∧ p.subject = subject := by
  constructor
  · intro h
    unfold isToolFor at h
    split at h
    · exact ⟨_, _, _, _, rfl, of_decide_eq_true h⟩
    · cases h
  · rintro ⟨tool, params, p, a, rfl, rfl⟩
    exact decide_eq_true rfl

/-- However far a call has got, there is an admission behind its tool. -/
theorem countP_isToolFor_le
    {v rest : List (Heard ω)} (h : Goes (conversation env token tool params) (v ++ rest) r)
    (subject : PyStr) :
    v.countP (isToolFor subject) ≤ v.countP (isAdmissionOf subject) := by
  by_cases hnone : ∀ x ∈ v, ¬ isToolFor subject x = true
  · rw [List.countP_eq_zero.mpr hnone]
    exact Nat.zero_le _
  · push Not at hnone
    obtain ⟨x, hx, hsubject⟩ := hnone
    obtain ⟨tool', params', p, a, rfl, rfl⟩ := isToolFor_iff.mp hsubject
    obtain ⟨before, after, rfl⟩ := List.append_of_mem hx
    rw [List.append_assoc, List.cons_append] at h
    obtain ⟨-, -, ⟨started, seen, rfl⟩, hfinal⟩ := front_of_runTool h
    have hafter : after.countP (isToolFor p.subject) = 0 := by
      refine List.countP_eq_zero.mpr fun x hx htool => ?_
      obtain ⟨tool', params', p, a, rfl, -⟩ := isToolFor_iff.mp htool
      cases hfinal _ (List.mem_append_left _ hx)
    have htools : (admittedFront token p started seen).countP (isToolFor p.subject) = 0 := by
      simp [admittedFront, isToolFor]
    have hadmission : (admittedFront token p started seen).countP
        (isAdmissionOf p.subject) = 1 := by
      simp [admittedFront, isAdmissionOf]
    rw [List.countP_append, List.countP_append, List.countP_cons_of_pos hsubject, htools, hafter,
      hadmission]
    omega

end Courses

end Server
end MqSentinel
