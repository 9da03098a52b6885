import Mathlib
import MqSentinel.EffectTraces

/-!
# Programs that put questions to a party

A `Dialogue` asks one question after another and goes on from each answer, which may be
an exception.  It can be run against a party with a state of its own, where the observer
sees every question with its answer, or evaluated on an oracle, which always gives the
same answer to the same question.

`Goes` relates a dialogue to what can be heard in it.  A run in which no question comes
twice is the evaluation on the answers that were heard (`result_eq_answered_heard`).
`Returns p` speaks of the results of a dialogue over all answers.
`Asks p plans` says that the questions follow one of the plans, whatever is answered, and
get to its end unless an exception outside `p` cuts them short.
-/

namespace MqSentinel
namespace Dialogues

open Effects

/-- A program that asks questions in `Q`, answered in `A`, and ends with a result. -/
inductive Dialogue (ξ : Type) {Q : Type} (A : Q → Type) (α : Type) where
  | done (result : Except ξ α)
  | ask (q : Q) (k : Except ξ (A q) → Dialogue ξ A α)

/-- A question with its answer. -/
abbrev Exchange (ξ : Type) {Q : Type} (A : Q → Type) := (q : Q) × Except ξ (A q)

namespace Dialogue

variable {ξ Q : Type} {A : Q → Type} {σ α β : Type}

/-- Goes on from the result, exception or not. -/
def follow (f : Except ξ α → Dialogue ξ A β) : Dialogue ξ A α → Dialogue ξ A β
  | done r => f r
  | ask q k => ask q fun a => follow f (k a)

/-- `return a` -/
def ret (a : α) : Dialogue ξ A α :=
  done (.ok a)

/-- `raise e` -/
def raise (e : ξ) : Dialogue ξ A α :=
  done (.error e)

/-- One program after the other. -/
def andThen (d : Dialogue ξ A α) (f : α → Dialogue ξ A β) : Dialogue ξ A β :=
  d.follow fun r =>
    match r with
    | .ok a => f a
    | .error e => raise e

instance : Monad (Dialogue ξ A) where
  pure := ret
  bind := andThen

/-- One question. -/
def query (q : Q) : Dialogue ξ A (A q) :=
  ask q done

/-- `try: d except ...: handler`; a handler that does not apply raises again. -/
def except (d : Dialogue ξ A α) (handler : ξ → Dialogue ξ A α) : Dialogue ξ A α :=
  d.follow fun r =>
    match r with
    | .ok a => ret a
    | .error e => handler e

/-- The dialogue with a party that keeps a state. -/
def run (party : (q : Q) → σ → Except ξ (A q) × σ) :
    Dialogue ξ A α → Prog ξ (Exchange ξ A) σ α
  | done r => fun s => ⟨r, s, []⟩
  | ask q k => fun s =>
      Prog.after [⟨q, (party q s).1⟩] (run party (k (party q s).1) (party q s).2)

/-- The result when every answer is known beforehand. -/
def answered (oracle : (q : Q) → Except ξ (A q)) : Dialogue ξ A α → Except ξ α
  | done r => r
  | ask q k => answered oracle (k (oracle q))

/-- What can be heard in a dialogue, with the result it leads to. -/
inductive Goes : Dialogue ξ A α → List (Exchange ξ A) → Except ξ α → Prop
  | done (r : Except ξ α) : Goes (done r) [] r
  | ask (q : Q) (k : Except ξ (A q) → Dialogue ξ A α) (a : Except ξ (A q))
      {t : List (Exchange ξ A)} {r : Except ξ α} (h : Goes (k a) t r) :
      Goes (ask q k) (⟨q, a⟩ :: t) r

/-- The questions of a transcript. -/
def questions (t : List (Exchange ξ A)) : List Q :=
  t.map Sigma.fst

@[simp] theorem questions_cons
    (x : Exchange ξ A) (t : List (Exchange ξ A)) :
    questions (x :: t) = x.1 :: questions t := by
  rfl

@[simp] theorem questions_append
    (t u : List (Exchange ξ A)) :
    questions (t ++ u) = questions t ++ questions u := by
  exact List.map_append

theorem goes_done_iff
    {r r' : Except ξ α} {t : List (Exchange ξ A)} :
    Goes (done r) t r' ↔ t = [] ∧ r' = r := by
  constructor
  · intro h
    cases h
    exact ⟨rfl, rfl⟩
  · rintro ⟨rfl, rfl⟩
    exact Goes.done _

theorem goes_pure_iff
    {a : α} {t : List (Exchange ξ A)} {r : Except ξ α} :
    Goes (pure a : Dialogue ξ A α) t r ↔ t = [] ∧ r = .ok a :=
  goes_done_iff

theorem goes_query_iff
    {q : Q} {t : List (Exchange ξ A)} {r : Except ξ (A q)} :
    Goes (query q) t r ↔ t = [⟨q, r⟩] := by
  constructor
  · intro h
    cases h with
    | ask q k a h =>
        obtain ⟨rfl, rfl⟩ := goes_done_iff.mp h
        rfl
  · rintro rfl
    exact Goes.ask q _ r (Goes.done r)

/-- What is heard of a program and its continuation is heard of one and then of the other. -/
theorem goes_follow_iff
    {d : Dialogue ξ A α} {f : Except ξ α → Dialogue ξ A β} {t : List (Exchange ξ A)}
    {r : Except ξ β} :
    Goes (d.follow f) t r ↔ ∃ t₁ t₂ r₁, Goes d t₁ r₁ ∧ Goes (f r₁) t₂ r ∧ t = t₁ ++ t₂ := by
  constructor
  · intro h
    induction d generalizing t with
    | done r₀ =>
        exact ⟨[], t, r₀, Goes.done r₀, h, rfl⟩
    | ask q k ih =>
        cases h with
        | ask q k a h =>
            obtain ⟨t₁, t₂, r₁, h₁, h₂, rfl⟩ := ih a h
            exact ⟨_, t₂, r₁, Goes.ask q _ a h₁, h₂, rfl⟩
  · rintro ⟨t₁, t₂, r₁, h₁, h₂, rfl⟩
    induction h₁ with
    | done r₀ =>
        exact h₂
    | ask q k a h ih =>
        exact Goes.ask q _ a (ih h₂)

theorem goes_bind_iff
    {d : Dialogue ξ A α} {f : α → Dialogue ξ A β} {t : List (Exchange ξ A)} {r : Except ξ β} :
    Goes (d >>= f) t r ↔
      (∃ e, Goes d t (.error e) ∧ r = .error e) ∨
        ∃ t₁ t₂ a, Goes d t₁ (.ok a) ∧ Goes (f a) t₂ r ∧ t = t₁ ++ t₂ := by
  refine goes_follow_iff.trans ⟨?_, ?_⟩
  · rintro ⟨t₁, t₂, r₁, h₁, h₂, rfl⟩
    cases r₁ with
    | error e =>
        obtain ⟨rfl, rfl⟩ := goes_done_iff.mp h₂
        exact Or.inl ⟨e, by rwa [List.append_nil], rfl⟩
    | ok a =>
        exact Or.inr ⟨t₁, t₂, a, h₁, h₂, rfl⟩
  · rintro (⟨e, h, rfl⟩ | ⟨t₁, t₂, a, h₁, h₂, rfl⟩)
    · exact ⟨t, [], .error e, h, Goes.done _, (List.append_nil t).symm⟩
    · exact ⟨t₁, t₂, .ok a, h₁, h₂, rfl⟩

/-- What was heard when a program and its continuation have a value. -/
theorem goes_bind_ok
    {d : Dialogue ξ A α} {f : α → Dialogue ξ A β} {t : List (Exchange ξ A)} {b : β}
    (h : Goes (d >>= f) t (.ok b)) :
    ∃ t₁ t₂ a, Goes d t₁ (.ok a) ∧ Goes (f a) t₂ (.ok b) ∧ t = t₁ ++ t₂ := by
  rcases goes_bind_iff.mp h with ⟨e, -, heq⟩ | hboth
  · cases heq
  · exact hboth

theorem goes_query_bind
    {q : Q} {f : A q → Dialogue ξ A β} {t : List (Exchange ξ A)} {r : Except ξ β}
    (h : Goes (query q >>= f) t r) :
    (∃ e, t = [⟨q, .error e⟩]) ∨ ∃ a rest, Goes (f a) rest r ∧ t = ⟨q, .ok a⟩ :: rest := by
  rcases goes_bind_iff.mp h with ⟨e, h₁, -⟩ | ⟨t₁, rest, a, h₁, h₂, rfl⟩
  · exact Or.inl ⟨e, goes_query_iff.mp h₁⟩
  · obtain rfl := goes_query_iff.mp h₁
    exact Or.inr ⟨a, rest, h₂, rfl⟩

theorem goes_query_bind_ok
    {q : Q} {f : A q → Dialogue ξ A β} {t : List (Exchange ξ A)} {b : β}
    (h : Goes (query q >>= f) t (.ok b)) :
    ∃ a rest, Goes (f a) rest (.ok b) ∧ t = ⟨q, .ok a⟩ :: rest := by
  obtain ⟨t₁, rest, a, h₁, h₂, rfl⟩ := goes_bind_ok h
  obtain rfl := goes_query_iff.mp h₁
  exact ⟨a, rest, h₂, rfl⟩

theorem goes_except_iff
    {d : Dialogue ξ A α} {handler : ξ → Dialogue ξ A α} {t : List (Exchange ξ A)}
    {r : Except ξ α} :
    Goes (d.except handler) t r ↔
      (∃ a, Goes d t (.ok a) ∧ r = .ok a) ∨
        ∃ t₁ t₂ e, Goes d t₁ (.error e) ∧ Goes (handler e) t₂ r ∧ t = t₁ ++ t₂ := by
  refine goes_follow_iff.trans ⟨?_, ?_⟩
  · rintro ⟨t₁, t₂, r₁, h₁, h₂, rfl⟩
    cases r₁ with
    | error e =>
        exact Or.inr ⟨t₁, t₂, e, h₁, h₂, rfl⟩
    | ok a =>
        obtain ⟨rfl, rfl⟩ := goes_done_iff.mp h₂
        exact Or.inl ⟨a, by rwa [List.append_nil], rfl⟩
  · rintro (⟨a, h, rfl⟩ | ⟨t₁, t₂, e, h₁, h₂, rfl⟩)
    · exact ⟨t, [], .ok a, h, Goes.done _, (List.append_nil t).symm⟩
    · exact ⟨t₁, t₂, .error e, h₁, h₂, rfl⟩

/-- A run is one of the ways in which the dialogue goes. -/
theorem goes_run
    (party : (q : Q) → σ → Except ξ (A q) × σ) (d : Dialogue ξ A α) (s : σ) :
    Goes d (d.run party s).events (d.run party s).result := by
  induction d generalizing s with
  | done r =>
      exact Goes.done r
  | ask q k ih =>
      exact Goes.ask q k _ (ih _ _)

/-- What is heard in a run has been said by the party. -/
theorem answered_by_party
    {party : (q : Q) → σ → Except ξ (A q) × σ} {d : Dialogue ξ A α} {s : σ} {x : Exchange ξ A}
    (hx : x ∈ (d.run party s).events) :
    ∃ s', x.2 = (party x.1 s').1 := by
  induction d generalizing s with
  | done r =>
      cases hx
  | ask q k ih =>
      rcases List.mem_cons.mp hx with rfl | hx
      · exact ⟨s, rfl⟩
      · exact ih _ hx

/-- A program and its continuation run one after the other. -/
theorem run_follow
    (party : (q : Q) → σ → Except ξ (A q) × σ) (d : Dialogue ξ A α)
    (f : Except ξ α → Dialogue ξ A β) (s : σ) :
    (d.follow f).run party s =
      Prog.after (d.run party s).events
        ((f (d.run party s).result).run party (d.run party s).state) := by
  induction d generalizing s with
  | done r =>
      rfl
  | ask q k ih =>
      have hrest := ih (party q s).1 (party q s).2
      simp only [follow, run, hrest, Prog.after, List.append_assoc]

@[simp] theorem run_done
    (party : (q : Q) → σ → Except ξ (A q) × σ) (r : Except ξ α) (s : σ) :
    (done r : Dialogue ξ A α).run party s = ⟨r, s, []⟩ := by
  rfl

@[simp] theorem run_query
    (party : (q : Q) → σ → Except ξ (A q) × σ) (q : Q) (s : σ) :
    (query q : Dialogue ξ A (A q)).run party s =
      ⟨(party q s).1, (party q s).2, [⟨q, (party q s).1⟩]⟩ := by
  rfl

theorem run_bind
    (party : (q : Q) → σ → Except ξ (A q) × σ) (d : Dialogue ξ A α)
    (f : α → Dialogue ξ A β) (s : σ) :
    (d >>= f).run party s =
      match (d.run party s).result with
      | .ok a => Prog.after (d.run party s).events ((f a).run party (d.run party s).state)
      | .error e => ⟨.error e, (d.run party s).state, (d.run party s).events⟩ := by
  change (d.follow _).run party s = _
  rw [run_follow]
  cases (d.run party s).result with
  | ok a => rfl
  | error e => simp [raise, Prog.after]

/-- An oracle that agrees with what was heard leads to the same result. -/
theorem answered_of_goes
    {oracle : (q : Q) → Except ξ (A q)} {d : Dialogue ξ A α} {t : List (Exchange ξ A)}
    {r : Except ξ α} (h : Goes d t r) (hagrees : ∀ x ∈ t, oracle x.1 = x.2) :
    d.answered oracle = r := by
  induction h with
  | done r =>
      rfl
  | ask q k a h ih =>
      have ha : oracle q = a := hagrees ⟨q, a⟩ List.mem_cons_self
      rw [answered, ha]
      exact ih fun x hx => hagrees x (List.mem_cons_of_mem _ hx)

theorem answered_follow
    (oracle : (q : Q) → Except ξ (A q)) (d : Dialogue ξ A α)
    (f : Except ξ α → Dialogue ξ A β) :
    (d.follow f).answered oracle = (f (d.answered oracle)).answered oracle := by
  induction d with
  | done r =>
      rfl
  | ask q k ih =>
      exact ih (oracle q)

@[simp] theorem answered_pure
    (oracle : (q : Q) → Except ξ (A q)) (a : α) :
    (pure a : Dialogue ξ A α).answered oracle = .ok a := by
  rfl

theorem answered_bind
    (oracle : (q : Q) → Except ξ (A q)) (d : Dialogue ξ A α) (f : α → Dialogue ξ A β) :
    (d >>= f).answered oracle =
      match d.answered oracle with
      | .ok a => (f a).answered oracle
      | .error e => .error e := by
  change (d.follow _).answered oracle = _
  rw [answered_follow]
  cases d.answered oracle with
  | error e => rfl
  | ok a => rfl

theorem answered_except
    (oracle : (q : Q) → Except ξ (A q)) (d : Dialogue ξ A α) (handler : ξ → Dialogue ξ A α) :
    (d.except handler).answered oracle =
      match d.answered oracle with
      | .ok a => .ok a
      | .error e => (handler e).answered oracle := by
  rw [Dialogue.except, answered_follow]
  cases d.answered oracle with
  | error e => rfl
  | ok a => rfl

section Heard

variable [DecidableEq Q]

/-- The first answer that was heard to a question, and the oracle's where there is none. -/
def heard (oracle : (q : Q) → Except ξ (A q)) :
    List (Exchange ξ A) → (q : Q) → Except ξ (A q)
  | [], q => oracle q
  | ⟨q', a⟩ :: t, q => if h : q' = q then h ▸ a else heard oracle t q

theorem heard_of_mem
    {oracle : (q : Q) → Except ξ (A q)} {t : List (Exchange ξ A)}
    (hnodup : (questions t).Nodup) {x : Exchange ξ A} (hx : x ∈ t) :
    heard oracle t x.1 = x.2 := by
  induction t with
  | nil =>
      cases hx
  | cons y t ih =>
      obtain ⟨hfresh, hrest⟩ := List.nodup_cons.mp hnodup
      rcases List.mem_cons.mp hx with rfl | hx
      · simp [heard]
      · have hne : y.1 ≠ x.1 := by
          intro heq
          exact hfresh (heq ▸ List.mem_map_of_mem hx)
        rw [heard, dif_neg hne]
        exact ih hrest hx

/-- Where no question comes twice, the party's state has played no part. -/
theorem result_eq_answered_heard
    (oracle : (q : Q) → Except ξ (A q)) {d : Dialogue ξ A α} {t : List (Exchange ξ A)}
    {r : Except ξ α} (h : Goes d t r) (hnodup : (questions t).Nodup) :
    d.answered (heard oracle t) = r :=
  answered_of_goes h fun _ hx => heard_of_mem hnodup hx

end Heard

section Results

/-- Every result that the dialogue returns satisfies `p`, whatever is answered. -/
def Returns (p : α → Prop) (d : Dialogue ξ A α) : Prop :=
  ∀ t a, Goes d t (.ok a) → p a

theorem returns_pure
    {p : α → Prop} {a : α} (h : p a) :
    Returns p (pure a : Dialogue ξ A α) := by
  intro t a' hgoes
  cases (goes_pure_iff.mp hgoes).2
  exact h

theorem Returns.bind
    {p : α → Prop} {q : β → Prop} {d : Dialogue ξ A α} {f : α → Dialogue ξ A β}
    (hd : Returns p d) (hf : ∀ a, p a → Returns q (f a)) :
    Returns q (d >>= f) := by
  intro t b hgoes
  rcases goes_bind_iff.mp hgoes with ⟨e, -, heq⟩ | ⟨t₁, t₂, a, h₁, h₂, -⟩
  · cases heq
  · exact hf a (hd t₁ a h₁) t₂ b h₂

/-- Nothing is asked of the first part. -/
theorem returns_bind
    {q : β → Prop} {d : Dialogue ξ A α} {f : α → Dialogue ξ A β}
    (hf : ∀ a, Returns q (f a)) :
    Returns q (d >>= f) :=
  Returns.bind (p := fun _ => True) (fun _ _ _ => trivial) fun a _ => hf a

theorem Returns.except
    {p : α → Prop} {d : Dialogue ξ A α} {handler : ξ → Dialogue ξ A α}
    (hd : Returns p d) (hh : ∀ e, Returns p (handler e)) :
    Returns p (d.except handler) := by
  intro t a hgoes
  rcases goes_except_iff.mp hgoes with ⟨a', h₁, heq⟩ | ⟨t₁, t₂, e, -, h₂, -⟩
  · cases heq
    exact hd t _ h₁
  · exact hh e t₂ a h₂

end Results

section Questions

/-- Whatever is answered, only questions in `p` are put. -/
def AsksOnly (p : Q → Prop) (d : Dialogue ξ A α) : Prop :=
  ∀ t r, Goes d t r → ∀ q ∈ questions t, p q

variable {p : Q → Prop}

theorem asksOnly_done
    (r : Except ξ α) :
    AsksOnly p (done r : Dialogue ξ A α) := by
  intro t r' h
  obtain ⟨rfl, -⟩ := goes_done_iff.mp h
  exact List.forall_mem_nil _

theorem asksOnly_query
    {q : Q} (hq : p q) :
    AsksOnly p (query q : Dialogue ξ A (A q)) := by
  intro t r h
  obtain rfl := goes_query_iff.mp h
  exact List.forall_mem_singleton.mpr hq

theorem AsksOnly.bind
    {d : Dialogue ξ A α} {f : α → Dialogue ξ A β}
    (hd : AsksOnly p d) (hf : ∀ a, AsksOnly p (f a)) :
    AsksOnly p (d >>= f) := by
  intro t r h
  rcases goes_bind_iff.mp h with ⟨e, h₁, -⟩ | ⟨t₁, t₂, a, h₁, h₂, rfl⟩
  · exact hd t _ h₁
  · rw [questions_append, List.forall_mem_append]
    exact ⟨hd t₁ _ h₁, hf a t₂ r h₂⟩

theorem asksOnly_ite
    {c : Prop} {_ : Decidable c} {d d' : Dialogue ξ A α} (hd : AsksOnly p d) (hd' : AsksOnly p d') :
    AsksOnly p (if c then d else d') := by
  split_ifs
  · exact hd
  · exact hd'

end Questions

section Plans

/-- Every exception of the dialogue satisfies `p`. -/
def RaisesOnly (p : ξ → Prop) (d : Dialogue ξ A α) : Prop :=
  ∀ t e, Goes d t (.error e) → p e

/-- The questions follow a plan, and all of it unless an exception outside `p` ends them. -/
def Asks (p : ξ → Prop) (plans : Language Q) (d : Dialogue ξ A α) : Prop :=
  ∀ t r, Goes d t r → ∃ plan ∈ plans, questions t <+: plan ∧
    ((∀ e, r = .error e → p e) → questions t = plan)

variable {p : ξ → Prop} {L M : Language Q}

theorem Asks.mono
    {d : Dialogue ξ A α} (h : Asks p L d) (hle : L ≤ M) :
    Asks p M d := by
  intro t r ht
  obtain ⟨plan, hplan, hasked⟩ := h t r ht
  exact ⟨plan, hle hplan, hasked⟩

theorem Asks.weaken
    {q : ξ → Prop} {d : Dialogue ξ A α} (h : Asks p L d) (hq : ∀ e, q e → p e) :
    Asks q L d := by
  intro t r ht
  obtain ⟨plan, hplan, hfront, hall⟩ := h t r ht
  exact ⟨plan, hplan, hfront, fun he => hall fun e hr => hq e (he e hr)⟩

theorem asks_done
    (r : Except ξ α) :
    Asks p {[]} (done r : Dialogue ξ A α) := by
  intro t r' h
  obtain ⟨rfl, -⟩ := goes_done_iff.mp h
  exact ⟨[], rfl, List.prefix_rfl, fun _ => rfl⟩

theorem asks_query
    (q : Q) :
    Asks p {[q]} (query q : Dialogue ξ A (A q)) := by
  intro t r h
  obtain rfl := goes_query_iff.mp h
  exact ⟨[q], rfl, List.prefix_rfl, fun _ => rfl⟩

/-- A question, and then a plan whatever the answer was. -/
theorem asks_ask
    {q : Q} {k : Except ξ (A q) → Dialogue ξ A α} (h : ∀ a, Asks p L (k a)) :
    Asks p ({[q]} * L) (ask q k) := by
  intro t r hgoes
  cases hgoes with
  | ask q k a hgoes =>
      obtain ⟨plan, hplan, hfront, hall⟩ := h a _ r hgoes
      refine ⟨[q] ++ plan, Language.append_mem_mul rfl hplan, ?_, fun he => ?_⟩
      · exact List.cons_prefix_cons.mpr ⟨rfl, hfront⟩
      · exact congrArg (List.cons q) (hall he)

/--
Plans one after the other.  Where the first part may raise in `p`, the second has to
have an empty plan.
-/
theorem Asks.bind
    {d : Dialogue ξ A α} {f : α → Dialogue ξ A β}
    (hd : Asks p L d) (hf : ∀ a, Asks p M (f a)) (hne : ∃ m, m ∈ M)
    (hraise : RaisesOnly (fun e => ¬ p e) d ∨ [] ∈ M) :
    Asks p (L * M) (d >>= f) := by
  intro t r h
  rcases goes_bind_iff.mp h with ⟨e, h₁, rfl⟩ | ⟨t₁, t₂, a, h₁, h₂, rfl⟩
  · obtain ⟨plan, hplan, hfront, hall⟩ := hd t _ h₁
    rcases hraise with hraise | hempty
    · obtain ⟨m, hm⟩ := hne
      refine ⟨plan ++ m, Language.append_mem_mul hplan hm,
        hfront.trans (List.prefix_append plan m), fun he => ?_⟩
      exact absurd (he e rfl) (hraise t e h₁)
    · refine ⟨plan ++ [], Language.append_mem_mul hplan hempty, ?_, fun he => ?_⟩
      · rwa [List.append_nil]
      · rw [List.append_nil]
        refine hall fun e' heq => ?_
        cases heq
        exact he e rfl
  · obtain ⟨l, hl, -, hall⟩ := hd t₁ _ h₁
    obtain ⟨m, hm, hfront, hrest⟩ := hf a t₂ r h₂
    have hfirst : questions t₁ = l := hall fun e heq => by cases heq
    refine ⟨l ++ m, Language.append_mem_mul hl hm, ?_, fun he => ?_⟩
    · rw [questions_append, hfirst]
      exact (List.prefix_append_right_inj l).mpr hfront
    · rw [questions_append, hfirst, hrest he]

/-- Fixed plans one after the other. -/
theorem Asks.bind_plan
    {d : Dialogue ξ A α} {f : α → Dialogue ξ A β} {l m : List Q}
    (hd : Asks p {l} d) (hf : ∀ a, Asks p {m} (f a))
    (hraise : RaisesOnly (fun e => ¬ p e) d ∨ m = []) :
    Asks p {l ++ m} (d >>= f) := by
  have hempty : RaisesOnly (fun e => ¬ p e) d ∨ [] ∈ ({m} : Language Q) :=
    hraise.imp_right fun h => by rw [h]; rfl
  refine (Asks.bind hd hf ⟨m, rfl⟩ hempty).mono ?_
  intro plan hplan
  obtain ⟨l', rfl, m', rfl, rfl⟩ := Language.mem_mul.mp hplan
  rfl

/-- What asks nothing leaves the plan as it is. -/
theorem Asks.bind_silent
    {d : Dialogue ξ A α} {f : α → Dialogue ξ A β}
    (hd : Asks p L d) (hf : ∀ a, Asks p {[]} (f a)) :
    Asks p L (d >>= f) := by
  have hbind := Asks.bind hd hf ⟨[], rfl⟩ (Or.inr rfl)
  refine hbind.mono fun plan hplan => ?_
  obtain ⟨l, hl, m, rfl, rfl⟩ := Language.mem_mul.mp hplan
  rwa [List.append_nil]

/-- A handler that asks nothing leaves the plan as it is. -/
theorem Asks.except
    {d : Dialogue ξ A α} {handler : ξ → Dialogue ξ A α}
    (hd : Asks p L d) (hh : ∀ e, Asks p {[]} (handler e))
    (hcaught : ∀ e a t, Goes (handler e) t (.ok a) → p e)
    (hraised : ∀ e e' t, Goes (handler e) t (.error e') → p e' → p e) :
    Asks p L (d.except handler) := by
  intro t r h
  rcases goes_except_iff.mp h with ⟨a, h₁, rfl⟩ | ⟨t₁, t₂, e, h₁, h₂, rfl⟩
  · obtain ⟨plan, hplan, hfront, hall⟩ := hd t _ h₁
    exact ⟨plan, hplan, hfront, fun _ => hall fun _ heq => by cases heq⟩
  · obtain ⟨plan, hplan, hfront, hall⟩ := hd t₁ _ h₁
    have hsilent : questions t₂ = [] := by
      obtain ⟨m, hm, hpre, -⟩ := hh e t₂ r h₂
      obtain rfl : m = [] := hm
      exact List.prefix_nil.mp hpre
    rw [questions_append, hsilent, List.append_nil]
    refine ⟨plan, hplan, hfront, fun he => hall fun e' heq => ?_⟩
    cases heq
    cases r with
    | ok a => exact hcaught e a t₂ h₂
    | error e' => exact hraised e e' t₂ h₂ (he e' rfl)

end Plans

end Dialogue

end Dialogues
end MqSentinel
