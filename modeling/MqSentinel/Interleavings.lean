import Mathlib.Algebra.BigOperators.Group.Finset.Basic
import Mathlib.Algebra.Order.BigOperators.Group.Finset
import Mathlib.Logic.Function.Basic
import MqSentinel.Dialogues

/-!
# Interleaved dialogues

Any number of dialogues go on with one party that keeps a shared state.  A step answers
the question that one of them has reached; which one, and with what answer, is open.

Each dialogue hears its own part of the trace as if it were alone (`goes_view`), and what
every answer keeps holds in every state reached (`Interleaves.invariant`).  A dialogue
that runs from its beginning to its end is one of the interleavings (`interleaves_run`).
-/

namespace MqSentinel
namespace Dialogues

open Effects Dialogue

/-- What a party may answer in a state, and the state that it is in afterwards. -/
abbrev Party (ξ σ : Type) {Q : Type} (A : Q → Type) :=
  (q : Q) → σ → Except ξ (A q) → σ → Prop

variable {ξ Q : Type} {A : Q → Type} {σ α ι : Type}

/-- The dialogue has become another one, after what was heard in between. -/
inductive Leads : Dialogue ξ A α → List (Exchange ξ A) → Dialogue ξ A α → Prop
  | refl (d : Dialogue ξ A α) : Leads d [] d
  | ask (q : Q) (k : Except ξ (A q) → Dialogue ξ A α) (a : Except ξ (A q))
      {t : List (Exchange ξ A)} {d : Dialogue ξ A α} (h : Leads (k a) t d) :
      Leads (ask q k) (⟨q, a⟩ :: t) d

theorem Leads.snoc
    {d : Dialogue ξ A α} {t : List (Exchange ξ A)} {q : Q}
    {k : Except ξ (A q) → Dialogue ξ A α} (h : Leads d t (.ask q k)) (a : Except ξ (A q)) :
    Leads d (t ++ [⟨q, a⟩]) (k a) := by
  generalize hd : Dialogue.ask q k = d' at h
  induction h with
  | refl d =>
      subst hd
      exact Leads.ask q k a (Leads.refl _)
  | ask q' k' a' _ ih =>
      exact Leads.ask q' k' a' (ih hd)

theorem Leads.goes
    {d : Dialogue ξ A α} {t u : List (Exchange ξ A)} {d' : Dialogue ξ A α} {r : Except ξ α}
    (h : Leads d t d') (hu : Goes d' u r) :
    Goes d (t ++ u) r := by
  induction h with
  | refl d => exact hu
  | ask q k a _ ih => exact Goes.ask q k a (ih hu)

/-- What is heard can go on to an end. -/
theorem Leads.exists_goes
    {d d' : Dialogue ξ A α} {t : List (Exchange ξ A)} (h : Leads d t d')
    (oracle : (q : Q) → Except ξ (A q)) :
    ∃ u r, Goes d (t ++ u) r := by
  have hgoes := goes_run (fun q (s : Unit) => (oracle q, s)) d' ()
  exact ⟨_, _, h.goes hgoes⟩

variable [DecidableEq ι]

/-- Runs of many dialogues from their beginnings, one exchange at a time. -/
inductive Interleaves (party : Party ξ σ A) (start : ι → Dialogue ξ A α) (s₀ : σ) :
    List (ι × Exchange ξ A) → (ι → Dialogue ξ A α) → σ → Prop
  | refl : Interleaves party start s₀ [] start s₀
  | step {t : List (ι × Exchange ξ A)} {threads : ι → Dialogue ξ A α} {s s' : σ}
      (h : Interleaves party start s₀ t threads s) (i : ι) {q : Q}
      {k : Except ξ (A q) → Dialogue ξ A α} (hask : threads i = .ask q k)
      {a : Except ξ (A q)} (ha : party q s a s') :
      Interleaves party start s₀ (t ++ [(i, ⟨q, a⟩)]) (Function.update threads i (k a)) s'

/-- What one of the dialogues hears. -/
def view (i : ι) (t : List (ι × Exchange ξ A)) : List (Exchange ξ A) :=
  t.filterMap fun x => if x.1 = i then some x.2 else none

@[simp] theorem view_nil
    (i : ι) :
    view i ([] : List (ι × Exchange ξ A)) = [] := by
  rfl

@[simp] theorem view_append
    (i : ι) (t u : List (ι × Exchange ξ A)) :
    view i (t ++ u) = view i t ++ view i u := by
  exact List.filterMap_append

@[simp] theorem view_singleton_self
    (i : ι) (x : Exchange ξ A) :
    view i [(i, x)] = [x] := by
  simp [view]

theorem view_singleton_of_ne
    {i j : ι} (h : j ≠ i) (x : Exchange ξ A) :
    view i [(j, x)] = [] := by
  simp [view, h]

theorem mem_view_iff
    {i : ι} {x : Exchange ξ A} {t : List (ι × Exchange ξ A)} :
    x ∈ view i t ↔ (i, x) ∈ t := by
  simp only [view, List.mem_filterMap, Option.ite_none_right_eq_some, Option.some.injEq]
  constructor
  · rintro ⟨⟨j, y⟩, hmem, rfl, rfl⟩
    exact hmem
  · intro hmem
    exact ⟨(i, x), hmem, rfl, rfl⟩

/-- What is counted in a trace is counted in the views of the dialogues that take part. -/
theorem countP_eq_sum_view
    (p : Exchange ξ A → Bool) (parts : Finset ι) {t : List (ι × Exchange ξ A)}
    (h : ∀ x ∈ t, x.1 ∈ parts) :
    (t.map Prod.snd).countP p = ∑ i ∈ parts, (view i t).countP p := by
  induction t with
  | nil =>
      simp
  | cons x t ih =>
      have hrest := ih fun y hy => h y (List.mem_cons_of_mem _ hy)
      have hone : ∀ i, (view i (x :: t)).countP p =
          (if x.1 = i then (if p x.2 then 1 else 0) else 0) + (view i t).countP p := by
        intro i
        rw [← List.singleton_append, view_append, List.countP_append]
        by_cases hi : x.1 = i
        · subst hi
          rw [view_singleton_self, if_pos rfl, List.countP_singleton]
        · rw [view_singleton_of_ne hi, if_neg hi, List.countP_nil]
      rw [List.map_cons, List.countP_cons, hrest, Finset.sum_congr rfl fun i _ => hone i,
        Finset.sum_add_distrib, Finset.sum_ite_eq, if_pos (h x List.mem_cons_self), add_comm]

/-- Where every dialogue has at most as many of these as of those, so has the trace. -/
theorem countP_le_of_view
    {p q : Exchange ξ A → Bool} {t : List (ι × Exchange ξ A)}
    (h : ∀ i, (view i t).countP p ≤ (view i t).countP q) :
    (t.map Prod.snd).countP p ≤ (t.map Prod.snd).countP q := by
  have hparts : ∀ x ∈ t, x.1 ∈ (t.map Prod.fst).toFinset := by
    intro x hx
    exact List.mem_toFinset.mpr (List.mem_map_of_mem hx)
  rw [countP_eq_sum_view p _ hparts, countP_eq_sum_view q _ hparts]
  exact Finset.sum_le_sum fun i _ => h i

section Runs

variable {party : Party ξ σ A} {start threads : ι → Dialogue ξ A α} {s₀ s : σ}
variable {t : List (ι × Exchange ξ A)}

/-- Each dialogue has gone on with what it heard itself. -/
theorem Interleaves.leads_view
    (h : Interleaves party start s₀ t threads s) (i : ι) :
    Leads (start i) (view i t) (threads i) := by
  induction h with
  | refl =>
      exact Leads.refl _
  | step h j hask ha ih =>
      rename_i q k a
      rw [view_append]
      by_cases hij : j = i
      · subst hij
        rw [view_singleton_self, Function.update_self]
        rw [hask] at ih
        exact ih.snoc a
      · rw [view_singleton_of_ne hij, List.append_nil, Function.update_of_ne (Ne.symm hij)]
        exact ih

/-- A dialogue that is over has gone as it could have gone alone. -/
theorem Interleaves.goes_view
    (h : Interleaves party start s₀ t threads s) {i : ι} {r : Except ξ α}
    (hdone : threads i = .done r) :
    Goes (start i) (view i t) r := by
  have hleads := h.leads_view i
  rw [hdone] at hleads
  have hgoes := hleads.goes (Goes.done r)
  rwa [List.append_nil] at hgoes

/-- What every answer keeps, of the trace and the shared state, holds at every point. -/
theorem Interleaves.invariant
    (inv : List (ι × Exchange ξ A) → σ → Prop) (hstart : inv [] s₀)
    (hstep : ∀ t s i q k a s', inv t s → Leads (start i) (view i t) (.ask q k) →
      party q s a s' → inv (t ++ [(i, ⟨q, a⟩)]) s')
    (h : Interleaves party start s₀ t threads s) :
    inv t s := by
  induction h with
  | refl =>
      exact hstart
  | step h i hask ha ih =>
      have hleads := h.leads_view i
      rw [hask] at hleads
      exact hstep _ _ i _ _ _ _ ih hleads ha

theorem Interleaves.trans
    {t' : List (ι × Exchange ξ A)} {threads' : ι → Dialogue ξ A α} {s' : σ}
    (h : Interleaves party start s₀ t threads s)
    (h' : Interleaves party threads s t' threads' s') :
    Interleaves party start s₀ (t ++ t') threads' s' := by
  induction h' with
  | refl =>
      rwa [List.append_nil]
  | step _ i hask ha ih =>
      rw [← List.append_assoc]
      exact Interleaves.step ih i hask ha

/-- A dialogue that nobody interrupts. -/
theorem interleaves_run
    {answer : (q : Q) → σ → Except ξ (A q) × σ}
    (hparty : ∀ q s, party q s (answer q s).1 (answer q s).2)
    (start : ι → Dialogue ξ A α) (i : ι) (s : σ) :
    Interleaves party start s (((start i).run answer s).events.map fun x => (i, x))
      (Function.update start i (.done ((start i).run answer s).result))
      ((start i).run answer s).state := by
  generalize hd : start i = d
  induction d generalizing start s with
  | done r =>
      have hself : Function.update start i (.done r) = start := by
        rw [← hd, Function.update_eq_self]
      change Interleaves party start s [] (Function.update start i (.done r)) s
      rw [hself]
      exact Interleaves.refl
  | ask q k ih =>
      have hstart : Interleaves party start s [] start s := Interleaves.refl
      have hfirst := hstart.step i hd (hparty q s)
      have hrest := ih _ (Function.update start i (k (answer q s).1)) (answer q s).2
        (Function.update_self ..)
      have hall := hfirst.trans hrest
      rw [Function.update_idem] at hall
      exact hall

/-- Who has the next exchange, as a schedule, where the party's answers are fixed. -/
def play (answer : (q : Q) → σ → Except ξ (A q) × σ) :
    List ι → (ι → Dialogue ξ A α) → σ →
      List (ι × Exchange ξ A) × (ι → Dialogue ξ A α) × σ
  | [], threads, s => ([], threads, s)
  | i :: schedule, threads, s =>
      match threads i with
      | .done _ => play answer schedule threads s
      | .ask q k =>
          let rest := play answer schedule (Function.update threads i (k (answer q s).1))
            (answer q s).2
          ((i, ⟨q, (answer q s).1⟩) :: rest.1, rest.2)

/-- Every schedule is one of the interleavings. -/
theorem interleaves_play
    {answer : (q : Q) → σ → Except ξ (A q) × σ}
    (hparty : ∀ q s, party q s (answer q s).1 (answer q s).2) (schedule : List ι)
    (start : ι → Dialogue ξ A α) (s : σ) :
    Interleaves party start s (play answer schedule start s).1
      (play answer schedule start s).2.1 (play answer schedule start s).2.2 := by
  induction schedule generalizing start s with
  | nil =>
      exact Interleaves.refl
  | cons i schedule ih =>
      rw [play]
      split
      · exact ih start s
      · next q k hask =>
          have hstart : Interleaves party start s [] start s := Interleaves.refl
          have hfirst := hstart.step i hask (hparty q s)
          exact hfirst.trans (ih _ _)

end Runs

end Dialogues
end MqSentinel
