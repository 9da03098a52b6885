import Mathlib.Algebra.Order.BigOperators.Group.List
import MqSentinel.Dialogues

/-!
# Parties that ask another party

A layer answers each question of a dialogue by a dialogue of its own with a party below.
`interpret` puts a dialogue on a layer: what can be heard of it below is what the layer
asks for one question after the other (`goes_interpret_iff`).

`Alike` is for two runs.  What a layer makes no difference between stays hidden from
every program on top of it (`alike_interpret`, `Alike.run`).
-/

namespace MqSentinel
namespace Dialogues

open Effects

namespace Dialogue

variable {ξ Q R : Type} {A : Q → Type} {B : R → Type} {σ α : Type}

/-- A party made of dialogues with another one. -/
abbrev Layer (ξ : Type) {Q R : Type} (A : Q → Type) (B : R → Type) :=
  (q : Q) → Dialogue ξ B (A q)

/-- The dialogue with the party below. -/
def interpret (layer : Layer ξ A B) : Dialogue ξ A α → Dialogue ξ B α
  | done r => done r
  | ask q k => (layer q).follow fun a => interpret layer (k a)

/-- What is heard below while a transcript goes on above. -/
inductive Carries (layer : Layer ξ A B) : List (Exchange ξ A) → List (Exchange ξ B) → Prop
  | nil : Carries layer [] []
  | cons {q : Q} {a : Except ξ (A q)} {u : List (Exchange ξ A)} {t₁ t₂ : List (Exchange ξ B)}
      (h : Goes (layer q) t₁ a) (hrest : Carries layer u t₂) :
      Carries layer (⟨q, a⟩ :: u) (t₁ ++ t₂)

variable {layer : Layer ξ A B}

theorem goes_interpret_iff
    {d : Dialogue ξ A α} {t : List (Exchange ξ B)} {r : Except ξ α} :
    Goes (d.interpret layer) t r ↔ ∃ u, Goes d u r ∧ Carries layer u t := by
  constructor
  · intro h
    induction d generalizing t with
    | done r₀ =>
        obtain ⟨rfl, rfl⟩ := goes_done_iff.mp h
        exact ⟨[], Goes.done _, Carries.nil⟩
    | ask q k ih =>
        obtain ⟨t₁, t₂, a, h₁, h₂, rfl⟩ := goes_follow_iff.mp h
        obtain ⟨u, hu, hcarries⟩ := ih a h₂
        exact ⟨_, Goes.ask q k a hu, Carries.cons h₁ hcarries⟩
  · rintro ⟨u, hu, hcarries⟩
    induction hu generalizing t with
    | done r₀ =>
        cases hcarries
        exact Goes.done _
    | ask q k a _ ih =>
        cases hcarries with
        | cons h₁ hrest => exact goes_follow_iff.mpr ⟨_, _, a, h₁, ih hrest, rfl⟩

/-- What the layer keeps to for every question that was asked, holds of all that is heard. -/
theorem Carries.forall_of
    {u : List (Exchange ξ A)} {t : List (Exchange ξ B)} {p : Exchange ξ B → Prop}
    (h : Carries layer u t)
    (hlayer : ∀ x ∈ u, ∀ t a, Goes (layer x.1) t a → ∀ y ∈ t, p y) :
    ∀ y ∈ t, p y := by
  induction h with
  | nil =>
      exact List.forall_mem_nil _
  | cons h₁ _ ih =>
      rw [List.forall_mem_append]
      exact ⟨hlayer _ List.mem_cons_self _ _ h₁,
        ih fun x hx => hlayer x (List.mem_cons_of_mem _ hx)⟩

/-- Bounds for the questions add up. -/
theorem Carries.countP_le
    {u : List (Exchange ξ A)} {t : List (Exchange ξ B)} {p : Exchange ξ B → Bool} {w : Q → Nat}
    (h : Carries layer u t) (hlayer : ∀ q t a, Goes (layer q) t a → t.countP p ≤ w q) :
    t.countP p ≤ ((questions u).map w).sum := by
  induction h with
  | nil =>
      exact Nat.zero_le _
  | cons h₁ _ ih =>
      rw [List.countP_append, questions_cons, List.map_cons, List.sum_cons]
      exact Nat.add_le_add (hlayer _ _ _ h₁) ih

section Related

variable {β γ δ τ : Type} {rel : (q : Q) → Except ξ (A q) → Except ξ (A q) → Prop}

/-- The same exception, or values that `p` relates. -/
inductive Matches (p : α → β → Prop) : Except ξ α → Except ξ β → Prop
  | ok {a : α} {b : β} (h : p a b) : Matches p (.ok a) (.ok b)
  | error (e : ξ) : Matches p (.error e) (.error e)

theorem Matches.eq
    {r r' : Except ξ α} (h : Matches Eq r r') :
    r = r' := by
  cases h with
  | ok h => rw [h]
  | error e => rfl

theorem matches_refl
    (r : Except ξ α) :
    Matches Eq r r := by
  cases r with
  | ok a => exact Matches.ok rfl
  | error e => exact Matches.error e

/-- Related answers make no difference to what is asked, and lead to matching results. -/
inductive Alike (rel : (q : Q) → Except ξ (A q) → Except ξ (A q) → Prop) (p : α → β → Prop) :
    Dialogue ξ A α → Dialogue ξ A β → Prop
  | done {r : Except ξ α} {r' : Except ξ β} (h : Matches p r r') :
      Alike rel p (done r) (done r')
  | ask (q : Q) (k : Except ξ (A q) → Dialogue ξ A α) (k' : Except ξ (A q) → Dialogue ξ A β)
      (h : ∀ a a', rel q a a' → Alike rel p (k a) (k' a')) :
      Alike rel p (ask q k) (ask q k')

variable {p : α → β → Prop} {p' : γ → δ → Prop}
variable {d : Dialogue ξ A α} {d' : Dialogue ξ A β}

theorem Alike.follow
    {f : Except ξ α → Dialogue ξ A γ} {f' : Except ξ β → Dialogue ξ A δ}
    (hd : Alike rel p d d') (hf : ∀ r r', Matches p r r' → Alike rel p' (f r) (f' r')) :
    Alike rel p' (d.follow f) (d'.follow f') := by
  induction hd with
  | done h =>
      exact hf _ _ h
  | ask q k k' _ ih =>
      exact Alike.ask q _ _ ih

theorem Alike.bind
    {f : α → Dialogue ξ A γ} {f' : β → Dialogue ξ A δ}
    (hd : Alike rel p d d') (hf : ∀ a b, p a b → Alike rel p' (f a) (f' b)) :
    Alike rel p' (d >>= f) (d' >>= f') := by
  refine hd.follow fun r r' h => ?_
  cases h with
  | ok h => exact hf _ _ h
  | error e => exact Alike.done (Matches.error e)

theorem Alike.except
    {handler : ξ → Dialogue ξ A α} {handler' : ξ → Dialogue ξ A β}
    (hd : Alike rel p d d') (hh : ∀ e, Alike rel p (handler e) (handler' e)) :
    Alike rel p (d.except handler) (d'.except handler') := by
  refine hd.follow fun r r' h => ?_
  cases h with
  | ok h => exact Alike.done (Matches.ok h)
  | error e => exact hh e

/-- A question, when what relates its answers makes them match. -/
theorem alike_query
    {q : Q} {p : A q → A q → Prop} (hq : ∀ a a', rel q a a' → Matches p a a') :
    Alike rel p (query q) (query q) :=
  Alike.ask q _ _ fun a a' h => Alike.done (hq a a' h)

/-- A layer that makes no difference between related answers hides them from every program. -/
theorem alike_interpret
    {R : Type} {B : R → Type} {rel : (q : R) → Except ξ (B q) → Except ξ (B q) → Prop}
    {layer : Layer ξ A B} (hlayer : ∀ q, Alike rel Eq (layer q) (layer q))
    (d : Dialogue ξ A α) :
    Alike rel Eq (d.interpret layer) (d.interpret layer) := by
  induction d with
  | done r =>
      exact Alike.done (matches_refl r)
  | ask q k ih =>
      refine (hlayer q).follow fun r r' h => ?_
      rw [h.eq]
      exact ih r'

/-- Two parties that stay related give related answers. -/
def Simulates (rel : (q : Q) → Except ξ (A q) → Except ξ (A q) → Prop)
    (states : σ → τ → Prop) (party : (q : Q) → σ → Except ξ (A q) × σ)
    (party' : (q : Q) → τ → Except ξ (A q) × τ) : Prop :=
  ∀ q s s', states s s' →
    rel q (party q s).1 (party' q s').1 ∧ states (party q s).2 (party' q s').2

/-- Runs against related parties ask the same and end with matching results. -/
theorem Alike.run
    {states : σ → τ → Prop} {party : (q : Q) → σ → Except ξ (A q) × σ}
    {party' : (q : Q) → τ → Except ξ (A q) × τ} (hparty : Simulates rel states party party')
    (hd : Alike rel p d d') {s : σ} {s' : τ} (hs : states s s') :
    Matches p (d.run party s).result (d'.run party' s').result ∧
      questions (d.run party s).events = questions (d'.run party' s').events := by
  induction hd generalizing s s' with
  | done h =>
      exact ⟨h, rfl⟩
  | ask q k k' _ ih =>
      obtain ⟨hrel, hnext⟩ := hparty q s s' hs
      obtain ⟨hresult, hquestions⟩ := ih _ _ hrel hnext
      exact ⟨hresult, congrArg (List.cons q) hquestions⟩

end Related

end Dialogue

end Dialogues
end MqSentinel
