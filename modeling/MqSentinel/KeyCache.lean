import MqSentinel.JsonValues

/-!
# The cache of signing keys

`RealOIDCVerifier._get_jwks` returns the cached keys while they are younger than the time
to live and asks the endpoint otherwise.  A fetch that fails leaves the cache alone; any
other body is stored, whatever it is.

`Good` says what a call owes to the key set held before it, and `Meets` which answers a
run must not get: JSON that is no key set, while a key set is held that is too old.  The
calls of a run are good exactly when the run gets no such answer
(`run_keeps_keys_iff`).  Nothing is assumed of the clock, so its readings have any type
with a difference and an order.
-/

namespace MqSentinel
namespace Oidc

/-- What the endpoint answers, as `_get_jwks` tells it apart. -/
inductive Answer where
  | transportError
  | errorStatus
  | notJson
  | json (value : Json)

/-- A JSON object with a list of keys. -/
def isKeySet : Json → Bool
  | .obj items =>
      match items.lookup (lit "keys") with
      | some (.arr _) => true
      | _ => false
  | _ => false

namespace Answer

/-- The key set that an answer delivers. -/
def keySet : Answer → Option Json
  | json value => if isKeySet value then some value else none
  | _ => none

/-- The body is JSON, but no key set. -/
def Misleading : Answer → Prop
  | json value => isKeySet value = false
  | _ => False

end Answer

/-- A key set and the clock reading of its fetch. -/
structure Held (T : Type) where
  keys : Json
  since : T

/-- The part of `RealOIDCVerifier` that `_get_jwks` reads and writes. -/
structure RealOIDCVerifier (T : Type) where
  jwksUrl : Option PyStr
  ttl : T
  cachedJwks : Option Json
  cachedAt : T

/-- A call of `_get_jwks`: the answer that was fetched in it, and what it returned. -/
structure CallRecord (T : Type) where
  now : T
  fetched : Option Answer
  returned : Except PyStr (Option Json)

variable {T : Type}

/-- `None` for JSON's `null`, as a Python value of the cache. -/
def ofResponse : Json → Option Json
  | .null => none
  | value => some value

namespace RealOIDCVerifier

/-- `bool(self._jwks_url)` -/
def hasUrl (v : RealOIDCVerifier T) : Bool :=
  v.jwksUrl.any fun url => !url.isEmpty

/-- `__init__`; `none` is the `ValueError` without an URL and without keys. -/
def init [Zero T] (jwksUrl : Option PyStr) (jwks : Option (List (PyStr × Json))) (ttl now : T) :
    Option (RealOIDCVerifier T) :=
  let given := jwks.any fun items => !items.isEmpty
  if !(jwksUrl.any fun url => !url.isEmpty) && !given then none
  else some ⟨jwksUrl, ttl, jwks.map .obj, if given then now else 0⟩

/-- The fetch of `_get_jwks` and what becomes of its answer. -/
def fetch (v : RealOIDCVerifier T) (now : T) (answer : Answer) :
    CallRecord T × RealOIDCVerifier T :=
  match answer with
  | .json value =>
      (⟨now, some answer, .ok (ofResponse value)⟩,
        { v with cachedJwks := ofResponse value, cachedAt := now })
  | _ =>
      match v.cachedJwks with
      | some jwks => (⟨now, some answer, .ok (some jwks)⟩, v)
      | none => (⟨now, some answer, .error (lit "TokenVerificationError")⟩, v)

/-- The key set in the cache. -/
def held (v : RealOIDCVerifier T) : Option (Held T) :=
  match v.cachedJwks with
  | some jwks => if isKeySet jwks then some ⟨jwks, v.cachedAt⟩ else none
  | none => none

end RealOIDCVerifier

section Step

variable {v : RealOIDCVerifier T} {now : T} {answer : Answer}

theorem keySet_of_misleading
    {answer : Answer} (h : answer.Misleading) :
    answer.keySet = none := by
  cases answer with
  | json value =>
      rw [Answer.keySet, if_neg (by simpa using (show isKeySet value = false from h))]
  | transportError =>
      rfl
  | errorStatus =>
      rfl
  | notJson =>
      rfl

theorem ofResponse_of_isKeySet
    {value : Json} (h : isKeySet value = true) :
    ofResponse value = some value := by
  cases value with
  | null =>
      cases h
  | _ =>
      rfl

/-- What the cache holds. -/
theorem held_eq_some_iff
    {h : Held T} :
    v.held = some h ↔
      v.cachedJwks = some h.keys ∧ isKeySet h.keys = true ∧ v.cachedAt = h.since := by
  obtain ⟨keys, since⟩ := h
  unfold RealOIDCVerifier.held
  cases v.cachedJwks with
  | none =>
      simp
  | some jwks =>
      by_cases hkeys : isKeySet jwks = true
      · simp only [hkeys, if_true, Option.some_inj, Held.mk.injEq]
        constructor
        · rintro ⟨rfl, rfl⟩
          exact ⟨rfl, hkeys, rfl⟩
        · rintro ⟨rfl, -, rfl⟩
          exact ⟨rfl, rfl⟩
      · simp only [hkeys, if_false, reduceCtorEq, false_iff, Option.some_inj, not_and]
        rintro rfl h
        exact absurd h hkeys

/-- A fetch that delivers a key set stores and returns it. -/
theorem fetch_of_keySet
    (v : RealOIDCVerifier T) (now : T) {keys : Json} (h : answer.keySet = some keys) :
    (v.fetch now answer).1.returned = .ok (some keys) ∧
      (v.fetch now answer).2.held = some ⟨keys, now⟩ := by
  cases answer with
  | json value =>
      by_cases hvalue : isKeySet value = true
      · rw [Answer.keySet, if_pos hvalue, Option.some_inj] at h
        subst h
        refine ⟨by simp [RealOIDCVerifier.fetch, ofResponse_of_isKeySet hvalue], ?_⟩
        rw [held_eq_some_iff]
        exact ⟨ofResponse_of_isKeySet hvalue, hvalue, rfl⟩
      · rw [Answer.keySet, if_neg hvalue] at h
        cases h
  | transportError =>
      cases h
  | errorStatus =>
      cases h
  | notJson =>
      cases h

/-- A fetch that fails leaves the cache as it is. -/
theorem fetch_of_failed
    (v : RealOIDCVerifier T) (now : T) (hset : answer.keySet = none)
    (hhonest : ¬ answer.Misleading) :
    (v.fetch now answer).2 = v ∧
      ∀ jwks, v.cachedJwks = some jwks → (v.fetch now answer).1.returned = .ok (some jwks) := by
  have hjson : ∀ value, answer ≠ .json value := by
    rintro value rfl
    cases hvalue : isKeySet value with
    | true => simp [Answer.keySet, hvalue] at hset
    | false => exact hhonest hvalue
  cases answer with
  | json value =>
      exact absurd rfl (hjson value)
  | _ =>
      unfold RealOIDCVerifier.fetch
      cases hcached : v.cachedJwks with
      | none => exact ⟨rfl, fun _ h => by cases h⟩
      | some jwks => exact ⟨rfl, fun _ h => by rw [Option.some_inj] at h; rw [h]⟩

/-- JSON that is no key set replaces what was held. -/
theorem fetch_of_misleading
    (h : answer.Misleading) :
    (v.fetch now answer).2.held = none ∧
      ∀ keys, isKeySet keys = true → (v.fetch now answer).1.returned ≠ .ok (some keys) := by
  cases answer with
  | json value =>
      have hvalue : isKeySet value = false := h
      have hstored : ∀ keys, ofResponse value = some keys → isKeySet keys = false := by
        intro keys hkeys
        cases value <;> simp_all [ofResponse]
      constructor
      · rw [Option.eq_none_iff_forall_ne_some]
        intro held hheld
        obtain ⟨hcached, hkeys, -⟩ := held_eq_some_iff.mp hheld
        rw [hstored _ hcached] at hkeys
        cases hkeys
      · intro keys hkeys hreturned
        have hcached : ofResponse value = some keys := by
          simpa [RealOIDCVerifier.fetch] using hreturned
        rw [hstored _ hcached] at hkeys
        cases hkeys
  | transportError =>
      cases h
  | errorStatus =>
      cases h
  | notJson =>
      cases h

theorem fetched_fetch
    (v : RealOIDCVerifier T) (now : T) (answer : Answer) :
    (v.fetch now answer).1.fetched = some answer ∧ (v.fetch now answer).1.now = now := by
  unfold RealOIDCVerifier.fetch
  cases answer with
  | json value =>
      exact ⟨rfl, rfl⟩
  | _ =>
      cases v.cachedJwks with
      | none => exact ⟨rfl, rfl⟩
      | some jwks => exact ⟨rfl, rfl⟩

end Step

section Calls

variable {T : Type} [Sub T] [LT T] [DecidableLT T]

namespace RealOIDCVerifier

/-- `(now - self._cached_at) < self._ttl` -/
def Fresh (v : RealOIDCVerifier T) (now : T) : Prop :=
  now - v.cachedAt < v.ttl

instance (v : RealOIDCVerifier T) (now : T) : Decidable (v.Fresh now) :=
  inferInstanceAs (Decidable (now - v.cachedAt < v.ttl))

/-- `_get_jwks`, the clock being read as `now`; `answer` is what a fetch would get. -/
def getJwks (v : RealOIDCVerifier T) (now : T) (answer : Answer) :
    CallRecord T × RealOIDCVerifier T :=
  if v.cachedJwks.isSome ∧ v.Fresh now then (⟨now, none, .ok v.cachedJwks⟩, v)
  else if v.hasUrl = false then
    match v.cachedJwks with
    | some jwks => (⟨now, none, .ok (some jwks)⟩, v)
    | none => (⟨now, none, .error (lit "TokenVerificationError")⟩, v)
  else v.fetch now answer

/-- The calls of a run. -/
def run : RealOIDCVerifier T → List (T × Answer) → List (CallRecord T)
  | _, [] => []
  | v, (now, answer) :: calls => (v.getJwks now answer).1 :: (v.getJwks now answer).2.run calls

end RealOIDCVerifier

/-- The key set that is held after a call. -/
def heldAfter (latest : Option (Held T)) (c : CallRecord T) : Option (Held T) :=
  match c.fetched.bind Answer.keySet with
  | some keys => some ⟨keys, c.now⟩
  | none => latest

/-- What a call owes to the key set that was held before it. -/
structure Good (ttl : T) (latest : Option (Held T)) (c : CallRecord T) : Prop where
  /-- The latest key set is returned. -/
  keeps : ∀ h, heldAfter latest c = some h → c.returned = .ok (some h.keys)
  /-- For a key set that is too old a fetch is tried, and what it delivers is returned. -/
  stale : ∀ h, latest = some h → ¬ c.now - h.since < ttl →
    ∃ answer, c.fetched = some answer ∧
      ∀ keys, answer.keySet = some keys → c.returned = .ok (some keys)

/-- All calls of a run are good. -/
def AllGood (ttl : T) : Option (Held T) → List (CallRecord T) → Prop
  | _, [] => True
  | latest, c :: cs => Good ttl latest c ∧ AllGood ttl (heldAfter latest c) cs

/-- While a key set is held and too old, the endpoint does not mislead. -/
def Meets : RealOIDCVerifier T → List (T × Answer) → Prop
  | _, [] => True
  | v, (now, answer) :: calls =>
      (v.held ≠ none → ¬ v.Fresh now → ¬ answer.Misleading) ∧ Meets (v.getJwks now answer).2 calls

variable {v : RealOIDCVerifier T} {now : T} {answer : Answer}

/-- A call returns fresh keys or fetches. -/
theorem getJwks_cases
    (hurl : v.hasUrl = true) (now : T) (answer : Answer) :
    (v.cachedJwks.isSome = true ∧ v.Fresh now ∧
        v.getJwks now answer = (⟨now, none, .ok v.cachedJwks⟩, v)) ∨
      ((v.held ≠ none → ¬ v.Fresh now) ∧ v.getJwks now answer = v.fetch now answer) := by
  unfold RealOIDCVerifier.getJwks
  by_cases hfresh : v.cachedJwks.isSome = true ∧ v.Fresh now
  · rw [if_pos hfresh]
    exact Or.inl ⟨hfresh.1, hfresh.2, rfl⟩
  · rw [if_neg hfresh, if_neg (by simp [hurl])]
    refine Or.inr ⟨?_, rfl⟩
    intro hheld hnow
    obtain ⟨h, hh⟩ := Option.ne_none_iff_exists'.mp hheld
    refine hfresh ⟨?_, hnow⟩
    rw [(held_eq_some_iff.mp hh).1, Option.isSome_some]

theorem settings_getJwks
    (v : RealOIDCVerifier T) (now : T) (answer : Answer) :
    (v.getJwks now answer).2.hasUrl = v.hasUrl ∧ (v.getJwks now answer).2.ttl = v.ttl := by
  unfold RealOIDCVerifier.getJwks RealOIDCVerifier.fetch
  split_ifs
  · exact ⟨rfl, rfl⟩
  · cases v.cachedJwks with
    | none => exact ⟨rfl, rfl⟩
    | some jwks => exact ⟨rfl, rfl⟩
  · cases answer with
    | json value => exact ⟨rfl, rfl⟩
    | _ =>
        cases v.cachedJwks with
        | none => exact ⟨rfl, rfl⟩
        | some jwks => exact ⟨rfl, rfl⟩

/-- A call that is not misled is good, and the cache holds the latest key set. -/
theorem good_getJwks
    (hurl : v.hasUrl = true)
    (hhonest : v.held ≠ none → ¬ v.Fresh now → ¬ answer.Misleading) :
    Good v.ttl v.held (v.getJwks now answer).1 ∧
      (v.getJwks now answer).2.held = heldAfter v.held (v.getJwks now answer).1 := by
  rcases getJwks_cases hurl now answer with
    ⟨-, hfresh, hcall⟩ | ⟨hstale, hcall⟩
  · rw [hcall]
    refine ⟨⟨?_, ?_⟩, rfl⟩
    · intro h hh
      rw [(held_eq_some_iff.mp hh).1]
    · intro h hh hold
      rw [← (held_eq_some_iff.mp hh).2.2] at hold
      exact absurd hfresh hold
  · obtain ⟨hfetched, hnow⟩ := fetched_fetch v now answer
    rw [hcall]
    cases hset : answer.keySet with
    | some keys =>
        obtain ⟨hreturned, hheld⟩ := fetch_of_keySet v now hset
        have hafter : heldAfter v.held (v.fetch now answer).1 = some ⟨keys, now⟩ := by
          simp [heldAfter, hfetched, hset, hnow]
        refine ⟨⟨?_, ?_⟩, by rw [hheld, hafter]⟩
        · intro h hh
          rw [hafter, Option.some_inj] at hh
          rw [hreturned, ← hh]
        · intro h hh hold
          refine ⟨answer, hfetched, fun keys' hkeys' => ?_⟩
          rw [hset, Option.some_inj] at hkeys'
          rw [hreturned, hkeys']
    | none =>
        have hafter : heldAfter v.held (v.fetch now answer).1 = v.held := by
          simp [heldAfter, hfetched, hset]
        have htried : ∃ a, (v.fetch now answer).1.fetched = some a ∧
            ∀ keys, a.keySet = some keys → (v.fetch now answer).1.returned = .ok (some keys) :=
          ⟨answer, hfetched, fun keys hkeys => by rw [hset] at hkeys; cases hkeys⟩
        by_cases hmislead : answer.Misleading
        · have hnone : v.held = none := by
            by_contra hheld
            exact hhonest hheld (hstale hheld) hmislead
          refine ⟨⟨?_, fun _ _ _ => htried⟩, ?_⟩
          · intro h hh
            rw [hafter, hnone] at hh
            cases hh
          · rw [hafter, hnone, (fetch_of_misleading hmislead).1]
        · obtain ⟨hsame, hreturned⟩ := fetch_of_failed v now hset hmislead
          refine ⟨⟨?_, fun _ _ _ => htried⟩, by rw [hafter, hsame]⟩
          intro h hh
          rw [hafter] at hh
          exact hreturned _ (held_eq_some_iff.mp hh).1

/-- A misled call loses the key set. -/
theorem not_good_getJwks
    (hurl : v.hasUrl = true) (hheld : v.held ≠ none) (hstale : ¬ v.Fresh now)
    (hmislead : answer.Misleading) :
    ¬ Good v.ttl v.held (v.getJwks now answer).1 := by
  obtain ⟨h, hh⟩ := Option.ne_none_iff_exists'.mp hheld
  rcases getJwks_cases hurl now answer with ⟨-, hfresh, -⟩ | ⟨-, hcall⟩
  · exact absurd hfresh hstale
  · rw [hcall]
    intro hgood
    have hafter : heldAfter v.held (v.fetch now answer).1 = some h := by
      simp [heldAfter, fetched_fetch, keySet_of_misleading hmislead, hh]
    exact (fetch_of_misleading hmislead).2 _ (held_eq_some_iff.mp hh).2.1
      (hgood.keeps h hafter)

/--
In a run of calls the latest key set is returned, a fetch being tried when it is too old,
exactly when no fetch over a key set is answered with JSON that is no key set.
-/
theorem run_keeps_keys_iff
    (v : RealOIDCVerifier T) (hurl : v.hasUrl = true) (calls : List (T × Answer)) :
    AllGood v.ttl v.held (v.run calls) ↔ Meets v calls := by
  induction calls generalizing v with
  | nil =>
      exact Iff.rfl
  | cons call calls ih =>
      obtain ⟨now, answer⟩ := call
      obtain ⟨hurl', httl⟩ := settings_getJwks v now answer
      by_cases hhonest : v.held ≠ none → ¬ v.Fresh now → ¬ answer.Misleading
      · obtain ⟨hgood, hheld⟩ := good_getJwks hurl hhonest
        have hrest := ih (v.getJwks now answer).2 (by rw [hurl', hurl])
        rw [httl, hheld] at hrest
        simp only [RealOIDCVerifier.run, AllGood, Meets, hgood, true_and, hrest]
        exact ⟨fun h => ⟨hhonest, h⟩, And.right⟩
      · refine iff_of_false ?_ fun h => hhonest h.1
        push Not at hhonest
        obtain ⟨hsome, hstale, hmislead⟩ := hhonest
        exact fun h => not_good_getJwks hurl hsome hstale hmislead h.1

end Calls

section Runs

/-- The address of the keys, a key set, and a verifier that has fetched nothing. -/
def keysUrl : PyStr := lit "https://login.example.com/.well-known/jwks.json"
def someKeys : Json := .obj [(lit "keys", .arr [])]
def newVerifier : RealOIDCVerifier Int := ⟨some keysUrl, 600, none, 0⟩

/-- A key set is served stale while the endpoint is down. -/
theorem served_stale :
    AllGood newVerifier.ttl newVerifier.held
      (newVerifier.run [(0, .json someKeys), (700, .transportError)]) := by
  refine (run_keeps_keys_iff newVerifier rfl _).mpr ⟨fun h => absurd rfl h, ?_, trivial⟩
  exact fun _ _ h => h

/-- An empty list, answered when the keys are too old, replaces them. -/
theorem keys_replaced_by_list :
    RealOIDCVerifier.init (some keysUrl) none 600 0 = some newVerifier ∧
      ¬ AllGood newVerifier.ttl newVerifier.held
        (newVerifier.run [(0, .json someKeys), (700, .json (.arr []))]) := by
  refine ⟨rfl, ?_⟩
  rintro ⟨-, hgood, -⟩
  have hreturned := hgood.keeps ⟨someKeys, 0⟩ rfl
  cases hreturned

end Runs

end Oidc
end MqSentinel
