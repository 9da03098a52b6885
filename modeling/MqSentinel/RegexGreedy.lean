import MqSentinel.RegexSubstitution

/-!
# What a greedy matcher reports

`Rx.first` of an expression is the head of a list that is longer than one ever needs.
For literals and for repeated classes it has a closed form: a literal is there or not,
and a repeated class runs as far as the class does.  The other lemmas put such closed
forms together.
-/

namespace MqSentinel
namespace Regex

universe u

variable {α : Type u}

namespace Rx

/-- A literal has one length. -/
theorem ends_word
    (ps : List (α → Bool)) (pre post : List α) :
    ends (word ps) pre post = if startsWith ps post then [ps.length] else [] := by
  induction ps generalizing pre post with
  | nil =>
      rfl
  | cons p ps ih =>
      have hstep : ends (word (p :: ps)) pre post =
          (ends (cls p) pre post).flatMap fun n =>
            (ends (word ps) ((post.take n).reverse ++ pre) (post.drop n)).map (n + ·) := by
        rfl
      rw [hstep]
      cases post with
      | nil =>
          rfl
      | cons c cs =>
          by_cases hc : p c = true
          · simp only [ends, hc, if_true, List.flatMap_cons, List.flatMap_nil,
              List.append_nil, List.drop_succ_cons, List.drop_zero, ih, startsWith,
              Bool.true_and]
            split
            · simp [Nat.add_comm]
            · rfl
          · simp [ends, hc, startsWith]

/-- Behind a part with one length the other part is tried once. -/
theorem ends_seq_of_singleton
    {r s : Rx α} {pre post : List α} {n : Nat}
    (h : ends r pre post = [n]) :
    ends (seq r s) pre post =
      (ends s ((post.take n).reverse ++ pre) (post.drop n)).map (n + ·) := by
  rw [ends, h]
  simp

theorem ends_seq_of_nil
    {r s : Rx α} {pre post : List α}
    (h : ends r pre post = []) :
    ends (seq r s) pre post = [] := by
  rw [ends, h]
  rfl

/-- A repeated class gives back one character after the other. -/
theorem ends_star_cls
    (p : α → Bool) (pre post : List α) :
    ends (star (cls p)) pre post = (List.range ((post.takeWhile p).length + 1)).reverse := by
  have hfuel : ∀ (fuel : Nat) (pre post : List α), post.length ≤ fuel →
      starEnds (ends (cls p)) fuel pre post =
        (List.range ((post.takeWhile p).length + 1)).reverse := by
    intro fuel
    induction fuel with
    | zero =>
        intro pre post hlen
        obtain rfl : post = [] := List.length_eq_zero_iff.mp (by omega)
        rfl
    | succ fuel ih =>
        intro pre post hlen
        cases post with
        | nil =>
            rfl
        | cons c cs =>
            by_cases hc : p c = true
            · have hrest := ih (c :: pre) cs (by simpa using hlen)
              rw [List.takeWhile_cons_of_pos hc, List.length_cons, List.range_succ_eq_map]
              simp [starEnds, ends, hc, hrest, Nat.add_comm 1]
            · simp [starEnds, ends, hc]
  exact hfuel post.length pre post le_rfl

theorem ends_plus_cls
    (p : α → Bool) (pre post : List α) :
    ends (plus (cls p)) pre post =
      (List.range (post.takeWhile p).length).reverse.map (1 + ·) := by
  cases post with
  | nil =>
      rfl
  | cons c cs =>
      by_cases hc : p c = true
      · have hone : ends (cls p) pre (c :: cs) = [1] := by simp [ends, hc]
        rw [plus, ends_seq_of_singleton hone, List.drop_succ_cons, List.drop_zero, ends_star_cls,
          List.takeWhile_cons_of_pos hc, List.length_cons]
      · have hnil : ends (cls p) pre (c :: cs) = [] := by simp [ends, hc]
        rw [plus, ends_seq_of_nil hnil, List.takeWhile_cons_of_neg hc]
        rfl

/-- A repeated class runs as far as the class does. -/
theorem first_star_cls
    (p : α → Bool) (pre post : List α) :
    first (star (cls p)) pre post = some (post.takeWhile p).length := by
  rw [first, ends_star_cls, List.range_succ]
  simp

theorem first_plus_cls
    (p : α → Bool) (pre post : List α) :
    first (plus (cls p)) pre post =
      if (post.takeWhile p).length = 0 then none else some (post.takeWhile p).length := by
  rw [first, ends_plus_cls]
  cases (post.takeWhile p).length with
  | zero =>
      rfl
  | succ n =>
      rw [List.range_succ]
      simp [Nat.add_comm]

end Rx

end Regex
end MqSentinel
