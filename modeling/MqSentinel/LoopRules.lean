import Mathlib.Order.Basic

/-!
# Loops with indices

A loop is its round: from a state it goes on with the next one, ends with a result or
raises.  `runLoop` repeats the round a given number of times at most, and `endless` is
what it gives when that was not enough.

`runLoop_total` is the rule of total correctness.  An invariant says what a round keeps,
and a variant, which falls with every round, how many rounds there can be.
-/

namespace MqSentinel
namespace Loop

universe u v w

/-- How a round ends that does not raise. -/
inductive Round (σ : Type u) (ρ : Type v) where
  | next (state : σ)
  | done (result : ρ)

variable {σ : Type u} {ρ : Type v} {ε : Type w}

/-- At most `fuel` rounds of a loop. -/
def runLoop (round : σ → Except ε (Round σ ρ)) (endless : ε) : Nat → σ → Except ε ρ
  | 0, _ => .error endless
  | fuel + 1, state =>
      match round state with
      | .error err => .error err
      | .ok (.done result) => .ok result
      | .ok (.next state') => runLoop round endless fuel state'

section Rules

variable {round : σ → Except ε (Round σ ρ)} {endless : ε}

theorem runLoop_done
    {state : σ} {result : ρ} (h : round state = .ok (.done result)) (fuel : Nat) :
    runLoop round endless (fuel + 1) state = .ok result := by
  rw [runLoop, h]

theorem runLoop_next
    {state state' : σ} (h : round state = .ok (.next state')) (fuel : Nat) :
    runLoop round endless (fuel + 1) state = runLoop round endless fuel state' := by
  rw [runLoop, h]

/-- A round that ends the loop as required, or keeps the invariant and makes progress. -/
def RoundCorrect (round : σ → Except ε (Round σ ρ)) (inv : σ → Prop) (post : ρ → Prop)
    (variant : σ → Nat) (state : σ) : Prop :=
  (∃ result, round state = .ok (.done result) ∧ post result) ∨
    ∃ state', round state = .ok (.next state') ∧ inv state' ∧ variant state' < variant state

/-- **Total correctness of a loop**, with more rounds than the variant counts. -/
theorem runLoop_total
    (inv : σ → Prop) (variant : σ → Nat) {post : ρ → Prop}
    (hround : ∀ state, inv state → RoundCorrect round inv post variant state) :
    ∀ {fuel : Nat} {state : σ}, inv state → variant state < fuel →
      ∃ result, runLoop round endless fuel state = .ok result ∧ post result := by
  intro fuel
  induction fuel with
  | zero =>
      intro state _ hfuel
      exact absurd hfuel (Nat.not_lt_zero _)
  | succ fuel ih =>
      intro state hinv hfuel
      rcases hround state hinv with ⟨result, hdone, hpost⟩ | ⟨state', hnext, hinv', hlt⟩
      · exact ⟨result, runLoop_done hdone fuel, hpost⟩
      · rw [runLoop_next hnext]
        exact ih hinv' (by omega)

end Rules

end Loop
end MqSentinel
