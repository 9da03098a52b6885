import MqSentinel.OrderedDict
import MqSentinel.PyText
import MqSentinel.TokenBucket
import Mathlib.Data.Rat.Cast.Order

/-!
# The rate limiter

`RateLimiter.allow` keeps one token bucket for each key.  A run is the sequence of
calls in the order in which they take the lock; the clock is read before that, so the
readings of a run need not increase.

The calls of one key are a run of one token bucket (`filter_runCalls`): no other key
takes part.  The closed form of the decision is then the one of `TokenBucket`.
-/

namespace MqSentinel
namespace RateLimit

open TokenBucket

/-- `RateLimiter`, with exact fractions for the floats of its buckets. -/
structure RateLimiter where
  ratePerMinute : Int := 60
  burst : Int := 60
  buckets : OrderedDict PyStr (Bucket ℚ) := OrderedDict.empty

namespace RateLimiter

/-- `RateLimiter.allow(key, cost)`, the clock being read as `now`. -/
def allow (limiter : RateLimiter) (key : PyStr) (now : ℚ) (cost : ℚ) :
    Bool × RateLimiter :=
  let refillRate : ℚ := limiter.ratePerMinute / 60
  let bucket := (limiter.buckets.get? key).getD ⟨limiter.burst, now⟩
  let elapsed := now - bucket.lastRefill
  let tokens := min (limiter.burst : ℚ) (bucket.tokens + elapsed * refillRate)
  if cost ≤ tokens then
    (true, { limiter with buckets := limiter.buckets.set key ⟨tokens - cost, now⟩ })
  else
    (false, { limiter with buckets := limiter.buckets.set key ⟨tokens, now⟩ })

/-- The bucket of every key. -/
def params (limiter : RateLimiter) : Params ℚ :=
  ⟨limiter.burst, limiter.ratePerMinute / 60⟩

end RateLimiter

open RateLimiter

/-- A call of `allow` with cost 1, when it was made and what it returned. -/
structure CallRecord where
  key : PyStr
  now : ℚ
  admitted : Bool
deriving DecidableEq

/-- The calls in the order of the lock. -/
def runCalls : RateLimiter → List (PyStr × ℚ) → List CallRecord
  | _, [] => []
  | limiter, (key, now) :: calls =>
      let result := limiter.allow key now 1
      ⟨key, now, result.1⟩ :: runCalls result.2 calls

/-- The limiter after the calls. -/
def limiterAfter : RateLimiter → List (PyStr × ℚ) → RateLimiter
  | limiter, [] => limiter
  | limiter, (key, now) :: calls => limiterAfter (limiter.allow key now 1).2 calls

/-- The admitted calls on a key. -/
def admittedOn (key : PyStr) (calls : List CallRecord) : Nat :=
  calls.countP fun c => c.key = key ∧ c.admitted

/-- A limiter without buckets. -/
def newLimiter (ratePerMinute burst : Int) : RateLimiter :=
  { ratePerMinute := ratePerMinute, burst := burst }

/-- A call as the bucket of its key sees it. -/
def CallRecord.entry (c : CallRecord) : Entry ℚ :=
  ⟨c.now, c.admitted⟩

/-- A call of the bucket of `key` as the limiter sees it. -/
def recordOf (key : PyStr) (e : Entry ℚ) : CallRecord :=
  ⟨key, e.now, e.admitted⟩

/-- The calls on one key. -/
def onKey (key : PyStr) (calls : List CallRecord) : List CallRecord :=
  calls.filter fun c => c.key = key

/-- One call is one call of the bucket of its key, and leaves the other buckets alone. -/
theorem allow_eq (limiter : RateLimiter) (key : PyStr) (now : ℚ) :
    let result := spend limiter.params
      ((limiter.buckets.get? key).getD (fresh limiter.params now)) now
    limiter.allow key now 1 =
      (result.1, { limiter with buckets := limiter.buckets.set key result.2 }) := by
  simp only [allow, spend, level, fresh, params]
  split_ifs with hlevel <;> simp [hlevel]

/-- The calls on a key are the run of its bucket over the times of these calls. -/
theorem onKey_runCalls
    (key : PyStr) (calls : List (PyStr × ℚ)) :
    ∀ limiter : RateLimiter,
      (onKey key (runCalls limiter calls)).map CallRecord.entry =
        runFrom limiter.params (limiter.buckets.get? key)
          ((calls.filter fun c => c.1 = key).map Prod.snd) := by
  induction calls with
  | nil =>
      intro limiter
      rfl
  | cons call calls ih =>
      intro limiter
      obtain ⟨k, now⟩ := call
      rw [runCalls, allow_eq]
      by_cases hk : k = key
      · subst hk
        have hrest := ih { limiter with
          buckets := limiter.buckets.set k (spend limiter.params
            ((limiter.buckets.get? k).getD (fresh limiter.params now)) now).2 }
        simp only [onKey] at hrest ⊢
        simp only [List.filter_cons, decide_true, if_true, List.map_cons, hrest, runFrom,
          OrderedDict.get?_set, CallRecord.entry]
        rfl
      · have hrest := ih { limiter with
          buckets := limiter.buckets.set k (spend limiter.params
            ((limiter.buckets.get? k).getD (fresh limiter.params now)) now).2 }
        have hk' : ¬ key = k := fun h => hk h.symm
        simp only [onKey] at hrest ⊢
        simp only [List.filter_cons, hk, decide_false, Bool.false_eq_true, if_false, hrest,
          OrderedDict.get?_set, hk']
        rfl

theorem runCalls_append
    (calls later : List (PyStr × ℚ)) (limiter : RateLimiter) :
    runCalls limiter (calls ++ later) =
      runCalls limiter calls ++ runCalls (limiterAfter limiter calls) later := by
  induction calls generalizing limiter with
  | nil => rfl
  | cons call calls ih =>
      rw [List.cons_append, runCalls, ih, runCalls, limiterAfter, List.cons_append]

theorem limiterAfter_append
    (calls later : List (PyStr × ℚ)) (limiter : RateLimiter) :
    limiterAfter limiter (calls ++ later) =
      limiterAfter (limiterAfter limiter calls) later := by
  induction calls generalizing limiter with
  | nil => rfl
  | cons call calls ih => rw [List.cons_append, limiterAfter, ih, limiterAfter]

/-- The calls on a key are known from what its bucket sees. -/
theorem map_recordOf_onKey
    (key : PyStr) (calls : List CallRecord) :
    ((onKey key calls).map CallRecord.entry).map (recordOf key) = onKey key calls := by
  have hself : ∀ c ∈ onKey key calls, recordOf key c.entry = c := by
    intro c hc
    obtain rfl : c.key = key := by simpa using List.of_mem_filter hc
    rfl
  rw [List.map_map]
  exact (List.map_congr_left hself).trans (List.map_id _)

/-- A run of calls on one key holds no other calls. -/
theorem onKey_runCalls_filter
    (key : PyStr) (calls : List (PyStr × ℚ)) :
    ∀ limiter : RateLimiter,
      onKey key (runCalls limiter (calls.filter fun c => c.1 = key)) =
        runCalls limiter (calls.filter fun c => c.1 = key) := by
  induction calls with
  | nil =>
      intro limiter
      rfl
  | cons call calls ih =>
      intro limiter
      by_cases hk : call.1 = key
      · have hrest := ih (limiter.allow call.1 call.2 1).2
        simp only [onKey] at hrest ⊢
        simp only [List.filter_cons, hk, decide_true, if_true, runCalls]
        rw [hk] at hrest
        rw [hrest]
      · simpa only [List.filter_cons, hk, decide_false, Bool.false_eq_true, if_false]
          using ih limiter

/-- The calls on a key go as if there were no other calls. -/
theorem onKey_runCalls_eq_alone
    (key : PyStr) (calls : List (PyStr × ℚ)) (limiter : RateLimiter) :
    onKey key (runCalls limiter calls) =
      runCalls limiter (calls.filter fun c => c.1 = key) := by
  have halone := onKey_runCalls key (calls.filter fun c => c.1 = key) limiter
  simp only [List.filter_filter, Bool.and_self] at halone
  rw [← map_recordOf_onKey, onKey_runCalls, ← halone, map_recordOf_onKey,
    onKey_runCalls_filter]

theorem admittedOn_eq
    (key : PyStr) (calls : List CallRecord) :
    admittedOn key calls = admittedCount ((onKey key calls).map CallRecord.entry) := by
  simp only [admittedOn, admittedCount, onKey, List.countP_map, List.countP_filter]
  congr 1
  funext c
  simp [CallRecord.entry, Bool.and_comm]

/-- However the limiter was used before, a window admits what its bucket can hold. -/
theorem admittedOn_window_le
    {ratePerMinute burst : Int} (hrate : 0 ≤ ratePerMinute) (hburst : 0 ≤ burst)
    (past calls : List (PyStr × ℚ)) {key : PyStr} {lo hi : ℚ} (hle : lo ≤ hi)
    (hwindow : ∀ c ∈ runCalls (limiterAfter (newLimiter ratePerMinute burst) past) calls,
      c.key = key → lo ≤ c.now ∧ c.now ≤ hi) :
    (admittedOn key (runCalls (limiterAfter (newLimiter ratePerMinute burst) past) calls) : ℚ) ≤
      burst + (hi - lo) * (ratePerMinute / 60) := by
  have hbucket := onKey_runCalls key (past ++ calls) (newLimiter ratePerMinute burst)
  rw [runCalls_append, onKey, List.filter_append, List.map_append] at hbucket
  have hburst' : (0 : ℚ) ≤ (newLimiter ratePerMinute burst).params.burst :=
    Int.cast_nonneg hburst
  have hrate' : (0 : ℚ) ≤ (newLimiter ratePerMinute burst).params.rate :=
    div_nonneg (Int.cast_nonneg hrate) (by norm_num)
  rw [admittedOn_eq]
  refine admittedCount_window_le hrate' hburst' hle hbucket.symm ?_
  intro e he
  obtain ⟨c, hc, rfl⟩ := List.mem_map.mp he
  obtain ⟨hmem, hkey⟩ := List.mem_filter.mp hc
  exact hwindow c hmem (of_decide_eq_true hkey)

/-- A call in the past of a bucket is a call in the past of the limiter. -/
theorem exists_call_of_entry
    {key : PyStr} {calls : List CallRecord} {older recent : List (Entry ℚ)} {i : Entry ℚ}
    (h : (onKey key calls).map CallRecord.entry = older ++ i :: recent) :
    ∃ before c after, calls = before ++ c :: after ∧ c.key = key ∧ c.entry = i ∧
      (onKey key after).map CallRecord.entry = recent := by
  obtain ⟨xs, ys, hsplit, -, hys⟩ := List.map_eq_append_iff.mp h
  obtain ⟨c, zs, rfl, hc, hzs⟩ := List.map_eq_cons_iff.mp hys
  obtain ⟨before, rest, rfl, -, hrest⟩ := List.filter_eq_append_iff.mp hsplit
  obtain ⟨skipped, after, rfl, -, hkey, hafter⟩ := List.filter_eq_cons_iff.mp hrest
  refine ⟨before ++ skipped, c, after, by simp, by simpa using hkey, hc, ?_⟩
  rw [onKey, hafter, hzs]

/-- The past of a bucket allows one token exactly when the calls on its key do. -/
theorem allows_one_iff
    (p : Params ℚ) (before : List CallRecord) (e : CallRecord) :
    Allows p ((onKey e.key before).map CallRecord.entry) e.now 1 ↔
      ∀ older recent i, before = older ++ recent →
        (recent ++ [e]).head? = some i → i.key = e.key →
        (admittedOn e.key recent : ℚ) + 1 ≤ p.burst + (e.now - i.now) * p.rate := by
  constructor
  · rintro ⟨hburst, hall⟩ older recent i hbefore hhead hkey
    cases recent with
    | nil =>
        obtain rfl : e = i := by simpa using hhead
        simpa [admittedOn] using hburst
    | cons c recent =>
        obtain rfl : c = i := by simpa using hhead
        have hi := hall ((onKey e.key older).map CallRecord.entry) c.entry
          ((onKey e.key recent).map CallRecord.entry)
          (by simp [hbefore, onKey, hkey])
        rw [admittedOn_eq, show onKey e.key (c :: recent) = c :: onKey e.key recent by
          simp [onKey, hkey], List.map_cons, add_comm]
        exact hi
  · intro hall
    constructor
    · simpa [admittedOn] using hall before [] e (by simp) rfl rfl
    · intro older i recent hpast
      obtain ⟨front, c, after, rfl, hkey, rfl, rfl⟩ := exists_call_of_entry hpast
      have hc := hall front (c :: after) c rfl rfl hkey
      rw [admittedOn_eq, show onKey e.key (c :: after) = c :: onKey e.key after by
        simp [onKey, hkey], List.map_cons, add_comm] at hc
      exact hc

/--
In every run of a new limiter a call is admitted exactly when, for every call `i` on
its key up to itself, the calls admitted on the key from `i` on and this one fit into
the burst and what was filled in between; and the calls on a key go as if there were
no others.
-/
theorem rateLimiter_exact
    (ratePerMinute burst : Int) (calls : List (PyStr × ℚ))
    {before after : List CallRecord} {e : CallRecord}
    (hrun : runCalls (newLimiter ratePerMinute burst) calls = before ++ e :: after) :
    (e.admitted = true ↔
      ∀ older recent i, before = older ++ recent →
        (recent ++ [e]).head? = some i → i.key = e.key →
        (admittedOn e.key recent : ℚ) + 1 ≤
          burst + (e.now - i.now) * ratePerMinute / 60) ∧
    ∀ key, onKey key (before ++ e :: after) =
      runCalls (newLimiter ratePerMinute burst) (calls.filter fun c => c.1 = key) := by
  constructor
  · have hbucket := onKey_runCalls e.key calls (newLimiter ratePerMinute burst)
    rw [hrun] at hbucket
    have hsplit : run (newLimiter ratePerMinute burst).params
        ((calls.filter fun c => c.1 = e.key).map Prod.snd) =
          (onKey e.key before).map CallRecord.entry ++
            e.entry :: (onKey e.key after).map CallRecord.entry := by
      have hnew : (newLimiter ratePerMinute burst).buckets.get? e.key = none := rfl
      rw [hnew] at hbucket
      simpa [onKey, run] using hbucket.symm
    have hadmitted : e.admitted = true ↔ _ :=
      (admitted_run_iff hsplit).trans (allows_one_iff _ before e)
    simpa only [newLimiter, RateLimiter.params, mul_div_assoc] using hadmitted
  · intro key
    rw [← hrun]
    exact onKey_runCalls_eq_alone key calls (newLimiter ratePerMinute burst)

/-- A burst of one and a token a second, two keys, and a clock that runs back once. -/
theorem rateLimiter_exact_two_keys :
    ∃ older : List CallRecord, ∃ e : CallRecord,
      runCalls (newLimiter 60 1)
        [(lit "a", 0), (lit "b", 5), (lit "a", 1), (lit "a", 1 / 2), (lit "a", 2)] =
          older ++ e :: [] ∧
      e.admitted = true ∧
      (e.admitted = true ↔
        ∀ past recent i, older = past ++ recent →
          (recent ++ [e]).head? = some i → i.key = e.key →
          (admittedOn e.key recent : ℚ) + 1 ≤
            (1 : Int) + (e.now - i.now) * (60 : Int) / 60) := by
  have hrun : runCalls (newLimiter 60 1)
      [(lit "a", 0), (lit "b", 5), (lit "a", 1), (lit "a", 1 / 2), (lit "a", 2)] =
        [⟨lit "a", 0, true⟩, ⟨lit "b", 5, true⟩, ⟨lit "a", 1, true⟩,
          ⟨lit "a", 1 / 2, false⟩] ++ ⟨lit "a", 2, true⟩ :: [] := by
    decide +kernel
  exact ⟨_, _, hrun, rfl, (rateLimiter_exact 60 1 _ hrun).1⟩

end RateLimit
end MqSentinel
