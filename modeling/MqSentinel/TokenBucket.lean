import Mathlib.Algebra.Order.Field.Basic
import Mathlib.Data.List.Induction
import Mathlib.Tactic.Linarith
import Mathlib.Tactic.Ring

/-!
# Token buckets

A bucket holds at most `burst` tokens and is filled at a fixed rate.  A call reads
the clock, fills the bucket for the time since the last call, and takes one token
when there is one.

The bucket forgets its past, the specification does not: `Allows` bounds a demand by
every earlier call, counting what was admitted since then.  `Tracks` says that the
level of a bucket at some time is the largest demand that its past allows then.  After
a call it holds at every time (`tracks_spend`), and so it does along every run.  The
clock may go backwards and the rate may be negative; nothing below depends on either.
-/

namespace TokenBucket

universe u

variable {K : Type u}

/-- The size of a bucket and the tokens that are added per unit of time. -/
structure Params (K : Type u) where
  burst : K
  rate : K

/-- The state of a bucket after a call. -/
structure Bucket (K : Type u) where
  tokens : K
  lastRefill : K

/-- A call that was made at `now`, and whether it was admitted. -/
structure Entry (K : Type u) where
  now : K
  admitted : Bool

/-- The admitted calls of a list. -/
def admittedCount (calls : List (Entry K)) : Nat :=
  calls.countP Entry.admitted

section Field

variable [Field K] [LinearOrder K]

/-- The tokens that are there at `now`. -/
def level (p : Params K) (b : Bucket K) (now : K) : K :=
  min p.burst (b.tokens + (now - b.lastRefill) * p.rate)

/-- One call: one token is taken when there is one. -/
def spend (p : Params K) (b : Bucket K) (now : K) : Bool × Bucket K :=
  if 1 ≤ level p b now then (true, ⟨level p b now - 1, now⟩)
  else (false, ⟨level p b now, now⟩)

/-- A bucket that is first used at `now`. -/
def fresh (p : Params K) (now : K) : Bucket K :=
  ⟨p.burst, now⟩

/-- The calls of a bucket, none standing for one that is not there yet. -/
def runFrom (p : Params K) : Option (Bucket K) → List K → List (Entry K)
  | _, [] => []
  | b, now :: times =>
      let result := spend p (b.getD (fresh p now)) now
      ⟨now, result.1⟩ :: runFrom p (some result.2) times

/-- The calls of a new bucket. -/
def run (p : Params K) (times : List K) : List (Entry K) :=
  runFrom p none times

/--
A demand of `x` tokens at `now` is within the burst, and for every earlier call it is
within the burst and the filling since then, together with what was admitted since.
-/
def Allows (p : Params K) (past : List (Entry K)) (now x : K) : Prop :=
  x ≤ p.burst ∧
    ∀ older i recent, past = older ++ i :: recent →
      x + admittedCount (i :: recent) ≤ p.burst + (now - i.now) * p.rate

/-- The level of the bucket at `now` is the largest demand that its past allows. -/
def Tracks (p : Params K) (past : List (Entry K)) (b : Bucket K) (now : K) : Prop :=
  ∀ x, x ≤ level p b now ↔ Allows p past now x

end Field

@[simp] theorem admittedCount_nil :
    admittedCount ([] : List (Entry K)) = 0 := by
  rfl

theorem admittedCount_append (xs ys : List (Entry K)) :
    admittedCount (xs ++ ys) = admittedCount xs + admittedCount ys :=
  List.countP_append

@[simp] theorem admittedCount_singleton (e : Entry K) :
    admittedCount [e] = if e.admitted then 1 else 0 := by
  cases h : e.admitted <;> simp [admittedCount, h]

section Call

variable [Field K] [LinearOrder K]
variable {p : Params K}

/-- A call is admitted when there is a token. -/
theorem admitted_spend_iff (b : Bucket K) (now : K) :
    (spend p b now).1 = true ↔ 1 ≤ level p b now := by
  unfold spend
  split_ifs with hlevel <;> simp [hlevel]

/-- What a call leaves behind. -/
theorem tokens_spend (b : Bucket K) (now : K) :
    (spend p b now).2.tokens =
      level p b now - admittedCount [⟨now, (spend p b now).1⟩] ∧
    (spend p b now).2.lastRefill = now := by
  unfold spend
  split_ifs <;> simp

/-- The first call finds the bucket full. -/
theorem tracks_fresh (now : K) :
    Tracks p [] (fresh p now) now := by
  intro x
  simp [level, fresh, Allows]

end Call

section Run

variable [Field K] [LinearOrder K] [IsStrictOrderedRing K]
variable {p : Params K}

/-- A past with one more call allows what the shorter past allowed at that call. -/
theorem allows_concat_iff
    (past : List (Entry K)) (e : Entry K) (now x : K) :
    Allows p (past ++ [e]) now x ↔
      x ≤ p.burst ∧
        Allows p past e.now (x + admittedCount [e] - (now - e.now) * p.rate) := by
  have hfilling : ∀ i : Entry K,
      (now - i.now) * p.rate = (now - e.now) * p.rate + (e.now - i.now) * p.rate := by
    intro i
    ring
  constructor
  · rintro ⟨hburst, hall⟩
    refine ⟨hburst, ?_, ?_⟩
    · have hlast := hall past e [] rfl
      linarith
    · intro older i recent hpast
      have hi := hall older i (recent ++ [e]) (by rw [hpast]; simp)
      rw [← List.cons_append, admittedCount_append, hfilling i] at hi
      push_cast at hi
      linarith
  · rintro ⟨hburst, hlast, hall⟩
    refine ⟨hburst, ?_⟩
    intro older i recent hpast
    rcases List.eq_nil_or_concat recent with rfl | ⟨recent', e', rfl⟩
    · -- the call in question is the last one
      obtain ⟨-, hie⟩ := List.append_inj' hpast rfl
      obtain rfl : e = i := by simpa using hie
      linarith
    · have hsplit : past ++ [e] = (older ++ i :: recent') ++ [e'] := by
        rw [hpast]
        simp
      obtain ⟨hpast', hee⟩ := List.append_inj' hsplit rfl
      obtain rfl : e = e' := by simpa using hee
      have hi := hall older i recent' hpast'
      rw [List.concat_eq_append, ← List.cons_append, admittedCount_append, hfilling i]
      push_cast
      linarith

/-- A call after which the bucket tracks its past at every time. -/
theorem tracks_spend
    {past : List (Entry K)} {b : Bucket K} {now : K}
    (h : Tracks p past b now) (later : K) :
    Tracks p (past ++ [⟨now, (spend p b now).1⟩]) (spend p b now).2 later := by
  obtain ⟨htokens, hrefill⟩ := tokens_spend (p := p) b now
  intro x
  rw [allows_concat_iff, ← h, level, htokens, hrefill, le_min_iff]
  constructor
  · rintro ⟨hburst, hx⟩
    exact ⟨hburst, by linarith⟩
  · rintro ⟨hburst, hx⟩
    exact ⟨hburst, by linarith⟩

/-- In every run a call is admitted exactly when the calls before it allow one token. -/
theorem admitted_runFrom_iff
    (times : List K) :
    ∀ {past : List (Entry K)} {b : Option (Bucket K)},
      (∀ now, Tracks p past (b.getD (fresh p now)) now) →
      ∀ {before : List (Entry K)} {e : Entry K} {after : List (Entry K)},
        runFrom p b times = before ++ e :: after →
        (e.admitted = true ↔ Allows p (past ++ before) e.now 1) := by
  induction times with
  | nil =>
      intro past b _ before e after hrun
      simp [runFrom] at hrun
  | cons now times ih =>
      intro past b htracks before e after hrun
      have hnow := htracks now
      cases before with
      | nil =>
          simp only [runFrom, List.nil_append, List.cons.injEq] at hrun
          obtain ⟨rfl, -⟩ := hrun
          rw [List.append_nil]
          exact (admitted_spend_iff _ now).trans (hnow 1)
      | cons d before =>
          simp only [runFrom, List.cons_append, List.cons.injEq] at hrun
          obtain ⟨rfl, hrest⟩ := hrun
          have hnext := ih (fun later => tracks_spend hnow later) hrest
          rwa [List.append_assoc, List.singleton_append] at hnext

theorem admitted_run_iff
    {times : List K} {before after : List (Entry K)} {e : Entry K}
    (hrun : run p times = before ++ e :: after) :
    e.admitted = true ↔ Allows p before e.now 1 := by
  simpa using admitted_runFrom_iff times (fun now => tracks_fresh now) hrun

/-- Calls from some time on, none of them admitted behind the last that was. -/
theorem admittedCount_le_of_allows
    (older : List (Entry K)) {recent : List (Entry K)} {lo hi : K} (hrate : 0 ≤ p.rate) (hburst : 0 ≤ p.burst)
    (hle : lo ≤ hi) (hwindow : ∀ e ∈ recent, lo ≤ e.now ∧ e.now ≤ hi)
    (hallows : ∀ before e after, recent = before ++ e :: after → e.admitted = true →
      Allows p (older ++ before) e.now 1) :
    (admittedCount recent : K) ≤ p.burst + (hi - lo) * p.rate := by
  induction recent using List.reverseRecOn with
  | nil =>
      have hfilling := mul_nonneg (sub_nonneg.mpr hle) hrate
      rw [admittedCount_nil, Nat.cast_zero]
      linarith
  | append_singleton recent e ih =>
      have hfront := ih (fun e he => hwindow e (List.mem_append_left _ he))
        fun before e' after hsplit => hallows before e' (after ++ [e]) (by rw [hsplit]; simp)
      rw [admittedCount_append, admittedCount_singleton]
      cases hadmitted : e.admitted with
      | false =>
          simpa using hfront
      | true =>
          obtain ⟨hone, hall⟩ := hallows recent e [] rfl hadmitted
          cases recent with
          | nil =>
              have hfilling := mul_nonneg (sub_nonneg.mpr hle) hrate
              simp only [admittedCount_nil, if_true, zero_add, Nat.cast_one]
              linarith
          | cons i recent =>
              have hfirst := hall older i recent rfl
              have hspan : (e.now - i.now) * p.rate ≤ (hi - lo) * p.rate := by
                refine mul_le_mul_of_nonneg_right ?_ hrate
                have hi' := hwindow i List.mem_cons_self
                have he := hwindow e (List.mem_append_right _ List.mem_cons_self)
                linarith
              simp only [if_true]
              push_cast
              linarith

/-- However a run began, the calls of a window fit into the burst and its filling. -/
theorem admittedCount_window_le
    {times : List K} {older recent : List (Entry K)} {lo hi : K} (hrate : 0 ≤ p.rate)
    (hburst : 0 ≤ p.burst) (hle : lo ≤ hi) (hrun : run p times = older ++ recent)
    (hwindow : ∀ e ∈ recent, lo ≤ e.now ∧ e.now ≤ hi) :
    (admittedCount recent : K) ≤ p.burst + (hi - lo) * p.rate := by
  refine admittedCount_le_of_allows older hrate hburst hle hwindow ?_
  intro before e after hsplit hadmitted
  have hcall : run p times = (older ++ before) ++ e :: after := by
    rw [hrun, hsplit, List.append_assoc]
  exact (admitted_run_iff hcall).mp hadmitted

end Run

end TokenBucket
