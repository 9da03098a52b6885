import Mathlib.Data.List.Basic
import Mathlib.Tactic

/-!
# Programs with state, exceptions and observed effects

A program maps a state to its result or exception, the state after it, and the
effects that an observer saw, in order.  Exceptions end a program but keep its
state and effects.  `except` and `finallyDo` are the two handlers of Python: an
exception out of either handler replaces the one that was under way.

`EmitsOnly p x` says that every effect of `x`, from any state, satisfies `p`, and
`Keeps f x` that `x` leaves what `f` reads of the state as it is.  Both pass through
each combinator.
-/

namespace MqSentinel
namespace Effects

universe u v w

/-- What a run leaves behind. -/
structure Outcome (ξ ε σ α : Type*) where
  result : Except ξ α
  state : σ
  events : List ε

/-- A program with exceptions `ξ`, effects `ε` and state `σ`. -/
def Prog (ξ ε σ α : Type*) := σ → Outcome ξ ε σ α

namespace Prog

variable {ξ : Type u} {ε : Type v} {σ τ α β : Type w}

/-- `return a` -/
def ret (a : α) : Prog ξ ε σ α :=
  fun s => ⟨.ok a, s, []⟩

/-- `raise e` -/
def raise (e : ξ) : Prog ξ ε σ α :=
  fun s => ⟨.error e, s, []⟩

/-- The rest of a run, behind the effects of its first part. -/
def after (events : List ε) (o : Outcome ξ ε σ β) : Outcome ξ ε σ β :=
  ⟨o.result, o.state, events ++ o.events⟩

/-- One program after the other. -/
def andThen (x : Prog ξ ε σ α) (f : α → Prog ξ ε σ β) : Prog ξ ε σ β :=
  fun s =>
    match (x s).result with
    | .ok a => after (x s).events (f a (x s).state)
    | .error e => ⟨.error e, (x s).state, (x s).events⟩

instance : Monad (Prog ξ ε σ) where
  pure := ret
  bind := andThen

/-- The state itself. -/
def get : Prog ξ ε σ σ :=
  fun s => ⟨.ok s, s, []⟩

/-- An effect seen by the observer. -/
def emit (e : ε) : Prog ξ ε σ PUnit :=
  fun s => ⟨.ok ⟨⟩, s, [e]⟩

/-- A call whose result is seen by the observer when it is over. -/
def observed (event : Except ξ α → ε) (x : Prog ξ ε σ α) : Prog ξ ε σ α :=
  fun s => ⟨(x s).result, (x s).state, (x s).events ++ [event (x s).result]⟩

/-- `try: x except ...: handler`; a handler that does not apply raises again. -/
def except (x : Prog ξ ε σ α) (handler : ξ → Prog ξ ε σ α) : Prog ξ ε σ α :=
  fun s =>
    match (x s).result with
    | .ok _ => x s
    | .error e => after (x s).events (handler e (x s).state)

/-- `try: x finally: fin` -/
def finallyDo (x : Prog ξ ε σ α) (fin : Prog ξ ε σ PUnit) : Prog ξ ε σ α :=
  fun s =>
    let o := fin (x s).state
    match o.result with
    | .ok _ => ⟨(x s).result, o.state, (x s).events ++ o.events⟩
    | .error e => ⟨.error e, o.state, (x s).events ++ o.events⟩

/-- A program on the first part of a state. -/
def onFst (x : Prog ξ ε σ α) : Prog ξ ε (σ × τ) α :=
  fun s => ⟨(x s.1).result, ((x s.1).state, s.2), (x s.1).events⟩

/-- An update of the second part of a state. -/
def modifySnd (f : τ → τ) : Prog ξ ε (σ × τ) PUnit :=
  fun s => ⟨.ok ⟨⟩, (s.1, f s.2), []⟩

theorem bind_apply
    (x : Prog ξ ε σ α) (f : α → Prog ξ ε σ β) (s : σ) :
    (x >>= f) s =
      match (x s).result with
      | .ok a => after (x s).events (f a (x s).state)
      | .error e => ⟨.error e, (x s).state, (x s).events⟩ := by
  rfl

theorem bind_of_ok
    {x : Prog ξ ε σ α} {f : α → Prog ξ ε σ β} {s : σ} {a : α}
    (h : (x s).result = .ok a) :
    (x >>= f) s = after (x s).events (f a (x s).state) := by
  rw [bind_apply, h]

theorem bind_of_error
    {x : Prog ξ ε σ α} {f : α → Prog ξ ε σ β} {s : σ} {e : ξ}
    (h : (x s).result = .error e) :
    (x >>= f) s = ⟨.error e, (x s).state, (x s).events⟩ := by
  rw [bind_apply, h]

@[simp] theorem pure_apply
    (a : α) (s : σ) :
    (pure a : Prog ξ ε σ α) s = ⟨.ok a, s, []⟩ := by
  rfl

@[simp] theorem raise_apply
    (e : ξ) (s : σ) :
    (raise e : Prog ξ ε σ α) s = ⟨.error e, s, []⟩ := by
  rfl

@[simp] theorem get_apply
    (s : σ) :
    (get : Prog ξ ε σ σ) s = ⟨.ok s, s, []⟩ := by
  rfl

@[simp] theorem onFst_apply
    (x : Prog ξ ε σ α) (s : σ × τ) :
    onFst x s = ⟨(x s.1).result, ((x s.1).state, s.2), (x s.1).events⟩ := by
  rfl

@[simp] theorem modifySnd_apply
    (f : τ → τ) (s : σ × τ) :
    (modifySnd f : Prog ξ ε (σ × τ) PUnit) s = ⟨.ok ⟨⟩, (s.1, f s.2), []⟩ := by
  rfl

@[simp] theorem after_result
    (es : List ε) (o : Outcome ξ ε σ α) :
    (after es o).result = o.result := by
  rfl

@[simp] theorem after_state
    (es : List ε) (o : Outcome ξ ε σ α) :
    (after es o).state = o.state := by
  rfl

@[simp] theorem after_events
    (es : List ε) (o : Outcome ξ ε σ α) :
    (after es o).events = es ++ o.events := by
  rfl

/-- A handler that raises whatever it is given changes at most the state. -/
theorem except_result_of_reraise
    {x : Prog ξ ε σ α} {handler : ξ → Prog ξ ε σ α}
    (h : ∀ e s, (handler e s).result = .error e) (s : σ) :
    (x.except handler s).result = (x s).result := by
  unfold except
  cases hx : (x s).result with
  | ok a =>
      exact hx
  | error e =>
      exact h e _

theorem finallyDo_state
    (x : Prog ξ ε σ α) (fin : Prog ξ ε σ PUnit) (s : σ) :
    (x.finallyDo fin s).state = (fin (x s).state).state := by
  unfold finallyDo
  dsimp only
  cases (fin (x s).state).result <;> rfl

theorem finallyDo_events
    (x : Prog ξ ε σ α) (fin : Prog ξ ε σ PUnit) (s : σ) :
    (x.finallyDo fin s).events = (x s).events ++ (fin (x s).state).events := by
  unfold finallyDo
  dsimp only
  cases (fin (x s).state).result <;> rfl

section EmitsOnly

/-- Every effect of the program satisfies `p`. -/
def EmitsOnly (p : ε → Prop) (x : Prog ξ ε σ α) : Prop :=
  ∀ s, ∀ e ∈ (x s).events, p e

variable {p q : ε → Prop}

theorem emitsOnly_ret
    (a : α) :
    EmitsOnly p (ret a : Prog ξ ε σ α) := by
  intro s e he
  cases he

theorem emitsOnly_raise
    (x : ξ) :
    EmitsOnly p (raise x : Prog ξ ε σ α) := by
  intro s e he
  cases he

theorem emitsOnly_emit
    {e : ε} (h : p e) :
    EmitsOnly p (emit e : Prog ξ ε σ PUnit) := by
  intro s e' he'
  rw [List.mem_singleton.mp he']
  exact h

theorem EmitsOnly.bind
    {x : Prog ξ ε σ α} {f : α → Prog ξ ε σ β}
    (hx : EmitsOnly p x) (hf : ∀ a, EmitsOnly p (f a)) :
    EmitsOnly p (x >>= f) := by
  intro s e he
  cases hr : (x s).result with
  | ok a =>
      rw [bind_of_ok hr, after, List.mem_append] at he
      rcases he with he | he
      · exact hx s e he
      · exact hf a _ e he
  | error exc =>
      rw [bind_of_error hr] at he
      exact hx s e he

/-- Sequencing where the second program may rely on how the first one ended. -/
theorem EmitsOnly.bind_ok
    {x : Prog ξ ε σ α} {f : α → Prog ξ ε σ β}
    (hx : EmitsOnly p x)
    (hf : ∀ s a, (x s).result = .ok a → ∀ e ∈ (f a (x s).state).events, p e) :
    EmitsOnly p (x >>= f) := by
  intro s e he
  cases hr : (x s).result with
  | ok a =>
      rw [bind_of_ok hr, after, List.mem_append] at he
      rcases he with he | he
      · exact hx s e he
      · exact hf s a hr e he
  | error exc =>
      rw [bind_of_error hr] at he
      exact hx s e he

theorem EmitsOnly.finallyDo
    {x : Prog ξ ε σ α} {fin : Prog ξ ε σ PUnit}
    (hx : EmitsOnly p x) (hfin : EmitsOnly p fin) :
    EmitsOnly p (x.finallyDo fin) := by
  intro s e he
  rw [finallyDo_events] at he
  rcases List.mem_append.mp he with he | he
  · exact hx s e he
  · exact hfin _ e he

end EmitsOnly

section Keeps

variable {θ : Type w}

/-- The program leaves what `f` reads of the state as it is. -/
def Keeps (f : σ → θ) (x : Prog ξ ε σ α) : Prop :=
  ∀ s, f (x s).state = f s

variable {f : σ → θ}

theorem keeps_of_state
    {x : Prog ξ ε σ α} (h : ∀ s, (x s).state = s) :
    Keeps f x := by
  intro s
  rw [h s]

theorem Keeps.bind
    {x : Prog ξ ε σ α} {k : α → Prog ξ ε σ β} (hx : Keeps f x) (hk : ∀ a, Keeps f (k a)) :
    Keeps f (x >>= k) := by
  intro s
  cases hr : (x s).result with
  | ok a =>
      rw [bind_of_ok hr, after_state]
      exact (hk a _).trans (hx s)
  | error exc =>
      rw [bind_of_error hr]
      exact hx s

theorem Keeps.observed
    {x : Prog ξ ε σ α} {event : Except ξ α → ε} (hx : Keeps f x) :
    Keeps f (observed event x) :=
  hx

theorem Keeps.except
    {x : Prog ξ ε σ α} {handler : ξ → Prog ξ ε σ α}
    (hx : Keeps f x) (hh : ∀ exc, Keeps f (handler exc)) :
    Keeps f (x.except handler) := by
  intro s
  unfold Prog.except
  split
  · exact hx s
  · exact (hh _ _).trans (hx s)

theorem Keeps.finallyDo
    {x : Prog ξ ε σ α} {fin : Prog ξ ε σ PUnit} (hx : Keeps f x) (hfin : Keeps f fin) :
    Keeps f (x.finallyDo fin) := by
  intro s
  rw [finallyDo_state]
  exact (hfin _).trans (hx s)

end Keeps

section MapErr

variable {ζ : Type u}

/-- The same program with its exceptions renamed. -/
def mapErr (f : ξ → ζ) (x : Prog ξ ε σ α) : Prog ζ ε σ α :=
  fun s => ⟨(x s).result.mapError f, (x s).state, (x s).events⟩

end MapErr

section RaisesOnly

/-- Every exception of the program satisfies `p`. -/
def RaisesOnly (p : ξ → Prop) (x : Prog ξ ε σ α) : Prop :=
  ∀ s e, (x s).result = .error e → p e

variable {p : ξ → Prop}

theorem RaisesOnly.bind
    {x : Prog ξ ε σ α} {f : α → Prog ξ ε σ β}
    (hx : RaisesOnly p x) (hf : ∀ a, RaisesOnly p (f a)) :
    RaisesOnly p (x >>= f) := by
  intro s e h
  cases hr : (x s).result with
  | ok a =>
      rw [bind_of_ok hr] at h
      exact hf a _ e h
  | error exc =>
      rw [bind_of_error hr] at h
      cases h
      exact hx s _ hr

theorem RaisesOnly.except
    {x : Prog ξ ε σ α} {handler : ξ → Prog ξ ε σ α}
    (hh : ∀ exc, (∃ s, (x s).result = .error exc) → RaisesOnly p (handler exc)) :
    RaisesOnly p (x.except handler) := by
  intro s e h
  unfold Prog.except at h
  split at h
  · next hok =>
      rw [hok] at h
      cases h
  · next exc hr =>
      exact hh exc ⟨s, hr⟩ _ e h

theorem RaisesOnly.finallyDo
    {x : Prog ξ ε σ α} {fin : Prog ξ ε σ PUnit}
    (hx : RaisesOnly p x) (hfin : RaisesOnly p fin) :
    RaisesOnly p (x.finallyDo fin) := by
  intro s e h
  unfold Prog.finallyDo at h
  dsimp only at h
  split at h
  · exact hx s e h
  · next exc hr =>
      cases h
      exact hfin _ _ hr

theorem RaisesOnly.onFst
    {x : Prog ξ ε σ α} (hx : RaisesOnly p x) :
    RaisesOnly p (onFst x : Prog ξ ε (σ × τ) α) :=
  fun s e h => hx s.1 e h

end RaisesOnly

end Prog

end Effects
end MqSentinel
