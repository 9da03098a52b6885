import MqSentinel.Dialogues
import MqSentinel.DispatchMediation
import MqSentinel.KeyCache

/-!
# The verification of a token

`verify` asks for the signing keys, picks one, has the token decoded with it and the
claims validated, and makes a principal of the claims.  The keys come from the cache;
the cryptography is authlib's.  Both are parties: they may answer anything.

A principal comes out only of claims that were decoded from this token, with a key that
the token's header selects, and then validated (`principal_was_decoded`).  A refusal says
which step refused, and nothing of the token (`refusals_say_no_more`).  Behind the
dispatcher this means that a queue manager is opened only for validated claims that name
a role for its environment (`production_needs_claims`).
-/

namespace MqSentinel
namespace Oidc

open Dialogues Dialogues.Dialogue

/-- The attributes of a claims registry option that are given. -/
structure ClaimsOptions where
  /-- `iss`, essential -/
  issuer : PyStr
  /-- `aud`, essential; `exp` is essential as well -/
  audience : PyStr
deriving DecidableEq

/-- The claims of a token. -/
abbrev Claims := OrderedDict PyStr Json

/-- What is asked while a token is verified; `κ` is a key of authlib. -/
inductive Ask (κ : Type) where
  | getJwks
  | deserializeHeader (segment : PyStr)
  | importKey (jwk : Json)
  | importKeySet (jwks : Option Json)
  | decode (token : PyStr) (key : κ) (options : ClaimsOptions)
  | validate (claims : Claims) (options : ClaimsOptions) (leeway : Int)

variable {κ : Type}

/-- The answers; `none` is Python's `None` in the place of the keys. -/
abbrev Ask.Answer : Ask κ → Type
  | getJwks => Option Json
  | deserializeHeader _ => Json
  | importKey _ => κ
  | importKeySet _ => κ
  | decode _ _ _ => Claims
  | validate _ _ _ => Unit

/-- A part of the verifier. -/
abbrev Method (κ α : Type) := Dialogue PyException (Ask.Answer (κ := κ)) α

/-- What was asked, and what came back. -/
abbrev Heard (κ : Type) := Exchange PyException (Ask.Answer (κ := κ))

def tokenVerificationError (message : PyStr) : PyException :=
  ⟨"TokenVerificationError", ["PermissionError", "OSError", "Exception"], message⟩

def attributeError (message : PyStr) : PyException :=
  ⟨"AttributeError", ["Exception"], message⟩

def typeError (message : PyStr) : PyException :=
  ⟨"TypeError", ["Exception"], message⟩

/-- `bool(value)` -/
def truthy : Json → Bool
  | .null => false
  | .bool b => b
  | .int n => n != 0
  | .float bits => bits != 0 && bits != 0x8000000000000000
  | .str s => !s.isEmpty
  | .arr xs => !xs.isEmpty
  | .obj items => !items.isEmpty

/-- `type(value).__name__` -/
def typeName : Json → String
  | .null => "NoneType"
  | .bool _ => "bool"
  | .int _ => "int"
  | .float _ => "float"
  | .str _ => "str"
  | .arr _ => "list"
  | .obj _ => "dict"

/-- Calling `get` on what is no dictionary. -/
def noGet (value : Json) : PyException :=
  attributeError (lit ("'" ++ typeName value ++ "' object has no attribute 'get'"))

/-- Going through what is no collection. -/
def notIterable (value : Json) : PyException :=
  typeError (lit ("'" ++ typeName value ++ "' object is not iterable"))

/-- The settings of a `RealOIDCVerifier`. -/
structure VerifierOptions where
  issuer : PyStr
  audience : PyStr
  rolesClaim : PyStr := lit "roles"
  tenantClaim : PyStr := lit "tenant"
  leeway : Int := 30
  algorithms : List PyStr :=
    [lit "RS256", lit "RS384", lit "RS512", lit "ES256", lit "ES384", lit "PS256"]

section Verify

-- `==`, and `str` of what is no string.
variable (same : Json → Json → Bool) (strOf : Json → PyStr) (v : VerifierOptions)

/-- `str(value)` -/
def toStr : Json → PyStr
  | .str s => s
  | value => strOf value

/-- `_claims_options` -/
def claimsOptions : ClaimsOptions :=
  ⟨v.issuer, v.audience⟩

/-- The `kid` of a header, when there is one. -/
def kidOf : Json → Option Json
  | .obj items => (items.lookup (lit "kid")).filter truthy
  | _ => none

/-- What the loop `for k in jwks.get("keys", [])` goes through. -/
def keysOf : Option Json → Except PyException (List Json)
  | none => .error (noGet .null)
  | some (.obj items) =>
      match items.lookup (lit "keys") with
      | none => .ok []
      | some (.arr keys) => .ok keys
      | some (.obj members) => .ok (members.map fun m => .str m.1)
      | some (.str s) => .ok (s.map fun c => .str [c])
      | some value => .error (notIterable value)
  | some value => .error (noGet value)

/-- `k.get("alg") and k["alg"] not in self._algorithms` -/
def algDisallowed (jwk : List (PyStr × Json)) : Bool :=
  match jwk.lookup (lit "alg") with
  | none => false
  | some (.str alg) => !alg.isEmpty && decide (alg ∉ v.algorithms)
  | some alg => truthy alg

/-- The key that has the `kid`, and what is made of it. -/
def importMatching (kid : Json) : List Json → Method κ κ
  | [] => raise (tokenVerificationError (lit "no matching JWK for token kid"))
  | .obj jwk :: rest =>
      if (jwk.lookup (lit "kid")).any (same · kid) then
        if algDisallowed v jwk then
          raise (tokenVerificationError (lit "disallowed signing algorithm"))
        else query (Ask.importKey (.obj jwk))
      else importMatching kid rest
  | value :: _ => raise (noGet value)

/-- `token.split(".")[0]` -/
def headerSegment (token : PyStr) : PyStr :=
  beforeFirst (ch '.') token

/-- `_select_key` -/
def selectKey (token : PyStr) (jwks : Option Json) : Method κ κ :=
  (query (Ask.deserializeHeader (headerSegment token))).follow fun header =>
    match header with
    | .error exc =>
        if exc.isInstance "Exception" then query (Ask.importKeySet jwks) else raise exc
    | .ok header =>
        match kidOf header with
        | none => query (Ask.importKeySet jwks)
        | some kid =>
            match keysOf jwks with
            | .error exc => raise exc
            | .ok keys => importMatching same v kid keys

/-- What the `except` clause of `verify` is for. -/
def isRefusal (exc : PyException) : Bool :=
  exc.isInstance "JoseError" || exc.isInstance "ValueError" || exc.isInstance "KeyError"

/-- `f"token verification failed: {type(exc).__name__}"` -/
def refusalOf (exc : PyException) : PyException :=
  tokenVerificationError (lit "token verification failed: " ++ lit exc.className)

/-- The `try` block of `verify`. -/
def decoded (token : PyStr) : Method κ Claims := do
  let jwks ← query Ask.getJwks
  let key ← selectKey same v token jwks
  let claims ← query (Ask.decode token key (claimsOptions v))
  query (Ask.validate claims (claimsOptions v) v.leeway)
  return claims

/-- `str(claims.get("sub") or "")` -/
def subjectOf (claims : Claims) : PyStr :=
  match claims.get? (lit "sub") with
  | some sub => if truthy sub then toStr strOf sub else []
  | none => []

/-- `str(tenant) if tenant is not None else None` -/
def tenantOf (claims : Claims) : Option PyStr :=
  match claims.get? v.tenantClaim with
  | none => none
  | some .null => none
  | some tenant => some (toStr strOf tenant)

/-- The strings of a list. -/
def strings (xs : List Json) : List PyStr :=
  xs.filterMap fun x =>
    match x with
    | .str s => some s
    | _ => none

/-- The fallback of `_extract_roles`. -/
def realmRoles (claims : Claims) : List PyStr :=
  match claims.get? (lit "realm_access") with
  | some (.obj realm) =>
      match realm.lookup (lit "roles") with
      | some (.arr inner) => strings inner
      | _ => []
  | _ => []

/-- `_extract_roles` -/
def extractRoles (claims : Claims) : List PyStr :=
  match claims.get? v.rolesClaim with
  | some (.arr raw) => strings raw
  | some (.str raw) => split (raw.map fun c => if c = ch ',' then ch ' ' else c)
  | _ => realmRoles claims

/-- The principal that claims with a subject make. -/
def principalOf (claims : Claims) : Principal :=
  ⟨subjectOf strOf claims, tenantOf strOf v claims, extractRoles v claims⟩

/-- `verify` -/
def verify (token : PyStr) : Method κ Principal :=
  if token = [] then raise (tokenVerificationError (lit "missing token"))
  else do
    let claims ← (decoded same v token).except fun exc =>
      raise (if isRefusal exc then refusalOf exc else exc)
    if subjectOf strOf claims = [] then
      raise (tokenVerificationError (lit "token missing 'sub' claim"))
    else return principalOf strOf v claims

end Verify

section Decoding

variable (same : Json → Json → Bool) (strOf : Json → PyStr) (v : VerifierOptions)

/-- The whole key set is used for a token whose header names no key. -/
def Unnamed (t : List (Heard κ)) (segment : PyStr) : Prop :=
  (∃ exc, ⟨.deserializeHeader segment, .error exc⟩ ∈ t) ∨
    ∃ header, ⟨.deserializeHeader segment, .ok header⟩ ∈ t ∧ kidOf header = none

/-- The first key with the `kid`, if its algorithm is not ruled out. -/
def Named (keys : List Json) (kid : Json) (jwk : List (PyStr × Json)) : Prop :=
  (∃ before after, keys = before ++ .obj jwk :: after ∧
    ∀ k ∈ before, ∃ other, k = .obj other ∧ (other.lookup (lit "kid")).any (same · kid) = false) ∧
  (jwk.lookup (lit "kid")).any (same · kid) = true ∧ algDisallowed v jwk = false

/-- The key comes from the key set, and it is the one that the header names. -/
def Selected (t : List (Heard κ)) (token : PyStr) (jwks : Option Json) (key : κ) : Prop :=
  Unnamed t (headerSegment token) ∧ ⟨.importKeySet jwks, .ok key⟩ ∈ t ∨
    ∃ header kid keys jwk, ⟨.deserializeHeader (headerSegment token), .ok header⟩ ∈ t ∧
      kidOf header = some kid ∧ keysOf jwks = .ok keys ∧ Named same v keys kid jwk ∧
        ⟨.importKey (.obj jwk), .ok key⟩ ∈ t

/-- The claims of the token, decoded with a selected key and validated. -/
def Decoded (t : List (Heard κ)) (token : PyStr) (claims : Claims) : Prop :=
  ∃ jwks key, ⟨.getJwks, .ok jwks⟩ ∈ t ∧ Selected same v t token jwks key ∧
    ⟨.decode token key (claimsOptions v), .ok claims⟩ ∈ t ∧
      ⟨.validate claims (claimsOptions v) v.leeway, .ok ()⟩ ∈ t

variable {same strOf v}
variable {t u : List (Heard κ)} {token : PyStr} {jwks : Option Json} {key : κ} {claims : Claims}

theorem Selected.mono
    (h : Selected same v t token jwks key) (hsub : t ⊆ u) :
    Selected same v u token jwks key := by
  rcases h with ⟨hunnamed, hset⟩ | ⟨header, kid, keys, jwk, hheader, hkid, hkeys, hnamed, hkey⟩
  · refine Or.inl ⟨?_, hsub hset⟩
    rcases hunnamed with ⟨exc, hexc⟩ | ⟨header, hheader, hkid⟩
    · exact Or.inl ⟨exc, hsub hexc⟩
    · exact Or.inr ⟨header, hsub hheader, hkid⟩
  · exact Or.inr ⟨header, kid, keys, jwk, hsub hheader, hkid, hkeys, hnamed, hsub hkey⟩

/-- The loop ends at the first key that has the `kid`. -/
theorem named_of_goes
    {keys : List Json} {kid : Json} (h : Goes (importMatching same v kid keys) t (.ok key)) :
    ∃ jwk, Named same v keys kid jwk ∧ ⟨.importKey (.obj jwk), .ok key⟩ ∈ t := by
  induction keys with
  | nil =>
      cases (goes_done_iff.mp h).2
  | cons k rest ih =>
      cases k with
      | obj jwk =>
          unfold importMatching at h
          split_ifs at h with hkid hdisallowed
          · cases (goes_done_iff.mp h).2
          · obtain rfl := goes_query_iff.mp h
            refine ⟨jwk, ⟨⟨[], rest, rfl, List.forall_mem_nil _⟩, hkid, ?_⟩,
              List.mem_singleton_self _⟩
            simpa using hdisallowed
          · obtain ⟨jwk', ⟨⟨before, after, rfl, hbefore⟩, hmatch⟩, hkey⟩ := ih h
            refine ⟨jwk', ⟨⟨.obj jwk :: before, after, rfl, ?_⟩, hmatch⟩, hkey⟩
            exact List.forall_mem_cons.mpr ⟨⟨jwk, rfl, by simpa using hkid⟩, hbefore⟩
      | _ =>
          cases (goes_done_iff.mp h).2

theorem selected_of_goes
    (h : Goes (selectKey same v token jwks) t (.ok key)) :
    Selected same v t token jwks key := by
  obtain ⟨t₁, t₂, header, h₁, h₂, rfl⟩ := goes_follow_iff.mp h
  obtain rfl := goes_query_iff.mp h₁
  cases header with
  | error exc =>
      dsimp only at h₂
      split_ifs at h₂
      · obtain rfl := goes_query_iff.mp h₂
        exact Or.inl ⟨Or.inl ⟨exc, List.mem_cons_self⟩, by simp⟩
      · cases (goes_done_iff.mp h₂).2
  | ok header =>
      dsimp only at h₂
      cases hkid : kidOf header with
      | none =>
          rw [hkid] at h₂
          obtain rfl := goes_query_iff.mp h₂
          exact Or.inl ⟨Or.inr ⟨header, List.mem_cons_self, hkid⟩, by simp⟩
      | some kid =>
          rw [hkid] at h₂
          cases hkeys : keysOf jwks with
          | error exc =>
              rw [hkeys] at h₂
              cases (goes_done_iff.mp h₂).2
          | ok keys =>
              rw [hkeys] at h₂
              obtain ⟨jwk, hnamed, hkey⟩ := named_of_goes h₂
              exact Or.inr ⟨header, kid, keys, jwk, List.mem_cons_self, hkid, hkeys, hnamed,
                List.mem_cons_of_mem _ hkey⟩

theorem decoded_of_goes
    (h : Goes (decoded same v token) t (.ok claims)) :
    Decoded same v t token claims := by
  obtain ⟨jwks, t₁, h₁, rfl⟩ := goes_query_bind_ok h
  obtain ⟨t₂, t₃, key, h₂, h₃, rfl⟩ := goes_bind_ok h₁
  obtain ⟨found, t₄, h₄, rfl⟩ := goes_query_bind_ok h₃
  obtain ⟨u, t₅, h₅, rfl⟩ := goes_query_bind_ok h₄
  obtain ⟨rfl, heq⟩ := goes_pure_iff.mp h₅
  cases heq
  refine ⟨jwks, key, List.mem_cons_self, (selected_of_goes h₂).mono fun x hx => ?_, ?_, ?_⟩
  · exact List.mem_cons_of_mem _ (List.mem_append_left _ hx)
  · simp
  · simp

/--
**A principal is made of validated claims.**  Whatever the key endpoint and authlib
answer: the claims were decoded from this token, with the key that its header selects out
of the key set, and then validated against the configured issuer and audience; and the
principal is what these claims say, with a subject.
-/
theorem principal_was_decoded
    {p : Principal} (h : Goes (verify same strOf v token) t (.ok p)) :
    ∃ claims, Decoded same v t token claims ∧ p = principalOf strOf v claims ∧
      p.subject ≠ [] := by
  unfold verify at h
  split_ifs at h with htoken
  · cases (goes_done_iff.mp h).2
  obtain ⟨t₁, t₂, claims, h₁, h₂, rfl⟩ := goes_bind_ok h
  split_ifs at h₂ with hsubject
  · cases (goes_done_iff.mp h₂).2
  obtain ⟨rfl, heq⟩ := goes_pure_iff.mp h₂
  cases heq
  rcases goes_except_iff.mp h₁ with ⟨found, h₃, heq⟩ | ⟨_, _, _, -, h₃, -⟩
  · cases heq
    rw [List.append_nil]
    exact ⟨claims, decoded_of_goes h₃, rfl, hsubject⟩
  · cases (goes_done_iff.mp h₃).2

end Decoding

section Refusals

variable {same : Json → Json → Bool} {strOf : Json → PyStr} {v : VerifierOptions}
variable {t : List (Heard κ)} {token : PyStr} {jwks : Option Json} {exc : PyException}

/-- The texts of the verifier's own refusals. -/
def refusalTexts : List PyStr :=
  [ lit "missing token", lit "no matching JWK for token kid",
    lit "disallowed signing algorithm", lit "token missing 'sub' claim" ]

/-- Why a step of the verification failed. -/
inductive Cause (t : List (Heard κ)) : PyException → Prop
  | own {message : PyStr} (h : message ∈ refusalTexts) : Cause t (tokenVerificationError message)
  | heard {q : Ask κ} {exc : PyException} (h : ⟨q, .error exc⟩ ∈ t) : Cause t exc
  | noGet (value : Json) : Cause t (noGet value)
  | notIterable (value : Json) : Cause t (notIterable value)

theorem Cause.mono
    {u : List (Heard κ)} (h : Cause t exc) (hsub : t ⊆ u) :
    Cause u exc := by
  cases h with
  | own h => exact Cause.own h
  | heard h => exact Cause.heard (hsub h)
  | noGet value => exact Cause.noGet value
  | notIterable value => exact Cause.notIterable value

theorem cause_of_query
    {q : Ask κ} (h : Goes (query q) t (.error exc)) :
    Cause t exc := by
  obtain rfl := goes_query_iff.mp h
  exact Cause.heard List.mem_cons_self

theorem cause_of_importMatching
    {keys : List Json} {kid : Json}
    (h : Goes (importMatching same v kid keys : Method κ κ) t (.error exc)) :
    Cause t exc := by
  induction keys with
  | nil =>
      cases (goes_done_iff.mp h).2
      exact Cause.own (by decide)
  | cons k rest ih =>
      cases k with
      | obj jwk =>
          unfold importMatching at h
          split_ifs at h with hkid hdisallowed
          · cases (goes_done_iff.mp h).2
            exact Cause.own (by decide)
          · exact cause_of_query h
          · exact ih h
      | _ =>
          cases (goes_done_iff.mp h).2
          exact Cause.noGet _

theorem cause_of_keysOf
    (h : keysOf jwks = .error exc) :
    Cause t exc := by
  unfold keysOf at h
  split at h
  · cases h
    exact Cause.noGet _
  · split at h
    · cases h
    · cases h
    · cases h
    · cases h
    · cases h
      exact Cause.notIterable _
  · cases h
    exact Cause.noGet _

theorem cause_of_selectKey
    (h : Goes (selectKey same v token jwks : Method κ κ) t (.error exc)) :
    Cause t exc := by
  obtain ⟨t₁, t₂, header, h₁, h₂, rfl⟩ := goes_follow_iff.mp h
  have hcause : Cause t₂ exc ∨ header = .error exc := by
    cases header with
    | error exc' =>
        dsimp only at h₂
        split_ifs at h₂
        · exact Or.inl (cause_of_query h₂)
        · cases (goes_done_iff.mp h₂).2
          exact Or.inr rfl
    | ok header =>
        left
        dsimp only at h₂
        cases hkid : kidOf header with
        | none =>
            rw [hkid] at h₂
            exact cause_of_query h₂
        | some kid =>
            rw [hkid] at h₂
            cases hkeys : keysOf jwks with
            | error exc' =>
                rw [hkeys] at h₂
                cases (goes_done_iff.mp h₂).2
                exact cause_of_keysOf hkeys
            | ok keys =>
                rw [hkeys] at h₂
                exact cause_of_importMatching h₂
  rcases hcause with hcause | rfl
  · exact hcause.mono (List.subset_append_right t₁ t₂)
  · exact (cause_of_query h₁).mono (List.subset_append_left t₁ t₂)

/-- A step that fails, or what comes behind it. -/
theorem cause_of_bind
    {α β : Type} {d : Method κ α} {f : α → Method κ β}
    (hd : ∀ t, Goes d t (.error exc) → Cause t exc)
    (hf : ∀ a t, Goes (f a) t (.error exc) → Cause t exc)
    (h : Goes (d >>= f) t (.error exc)) :
    Cause t exc := by
  rcases goes_bind_iff.mp h with ⟨e, h₁, heq⟩ | ⟨t₁, t₂, a, -, h₂, rfl⟩
  · cases heq
    exact hd t h₁
  · exact (hf a t₂ h₂).mono (List.subset_append_right t₁ t₂)

theorem cause_of_decoded
    (h : Goes (decoded same v token : Method κ Claims) t (.error exc)) :
    Cause t exc := by
  refine cause_of_bind (fun _ => cause_of_query) (fun jwks _ h => ?_) h
  refine cause_of_bind (fun _ => cause_of_selectKey) (fun key _ h => ?_) h
  refine cause_of_bind (fun _ => cause_of_query) (fun claims _ h => ?_) h
  refine cause_of_bind (fun _ => cause_of_query) (fun _ _ h => ?_) h
  cases (goes_done_iff.mp h).2

/--
**A refusal says which step refused.**  What `verify` raises is one of its own four
texts; or the name of an exception that a step was answered with, and nothing else of it;
or, for exceptions that are no refusals, what that step or the malformed key set raised.
-/
theorem refusals_say_no_more
    (h : Goes (verify same strOf v token : Method κ Principal) t (.error exc)) :
    (∃ message ∈ refusalTexts, exc = tokenVerificationError message) ∨
      (∃ exc', Cause t exc' ∧ isRefusal exc' = true ∧ exc = refusalOf exc') ∨
        Cause t exc ∧ isRefusal exc = false := by
  unfold verify at h
  split_ifs at h with htoken
  · cases (goes_done_iff.mp h).2
    exact Or.inl ⟨_, by decide, rfl⟩
  rcases goes_bind_iff.mp h with ⟨e, h₁, heq⟩ | ⟨t₁, t₂, claims, -, h₂, rfl⟩
  · cases heq
    rcases goes_except_iff.mp h₁ with ⟨_, -, heq⟩ | ⟨t₁, t₂, exc', h₂, h₃, rfl⟩
    · cases heq
    · have hcause := (cause_of_decoded h₂).mono (List.subset_append_left t₁ t₂)
      obtain ⟨rfl, heq⟩ := goes_done_iff.mp h₃
      cases hrefusal : isRefusal exc' with
      | true =>
          rw [hrefusal, if_pos rfl] at heq
          cases heq
          exact Or.inr (Or.inl ⟨exc', hcause, hrefusal, rfl⟩)
      | false =>
          rw [hrefusal] at heq
          cases heq
          exact Or.inr (Or.inr ⟨hcause, hrefusal⟩)
  · split_ifs at h₂ with hsubject
    · cases (goes_done_iff.mp h₂).2
      exact Or.inl ⟨_, by decide, rfl⟩
    · cases (goes_done_iff.mp h₂).2

end Refusals

section Server

open Rbac Server

/-- The roles that grant an action. -/
def grantingRoles : Action → List PyStr
  | .readNonprod => [lit "nonprod-read", lit "prod-read", lit "admin-audit"]
  | .readProd => [lit "prod-read", lit "admin-audit"]
  | .auditView => [lit "admin-audit"]

/-- What a principal may do goes back to one of its roles. -/
theorem exists_role_of_allowed
    {p : Principal} {action : Action} (h : action ∈ allowed p) :
    ∃ name ∈ p.roles, name ∈ grantingRoles action := by
  have hroles : ∀ q ∈ roles, ∀ action ∈ q.2.grants, q.1 ∈ grantingRoles action := by
    decide
  obtain ⟨name, hname, hgrant⟩ := List.mem_flatMap.mp h
  refine ⟨name, hname, ?_⟩
  cases hfind : findRole name with
  | none =>
      simp [hfind] at hgrant
  | some role =>
      obtain ⟨q, hq, rfl⟩ := Option.map_eq_some_iff.mp hfind
      rw [hfind] at hgrant
      obtain rfl : q.1 = name := by simpa using List.find?_some hq
      exact hroles q (List.mem_of_find?_eq_some hq) action hgrant

variable {ω ρ ξ χ φ : Type} (env : Env ω ρ ξ χ φ)
variable (same : Json → Json → Bool) (strOf : Json → PyStr) (v : VerifierOptions)
variable (party : (q : Ask κ) → ω → Except PyException q.Answer × ω)

/-- A server whose tokens are verified by asking `party`. -/
def oidcEnv : Env ω ρ ξ χ φ :=
  { env with
    verify := fun token world =>
      (((verify same strOf v token).run party world).result,
        ((verify same strOf v token).run party world).state) }

/-- A tool connects to an entry only for a principal who may read it. -/
theorem granted_of_connect
    (inv : InMemoryInventory) {tool : PyStr} {params : OrderedDict PyStr Json} {p : Principal}
    {host : Host ω ρ} {entry : QMEntry}
    (h : Effect.connect entry ∈ (runTool (withInventory env inv) tool params p host).events) :
    readAction entry ∈ allowed p := by
  rcases guarded_runTool env inv tool params p host with hnone | ⟨qmName, -, ⟨guard⟩⟩
  · cases hnone _ h
  · have hrest : Effect.connect entry ∈ guard.rest := by
      rw [guard.order] at h
      simpa using h
    rcases guard.opens _ hrest with heq | heq | heq | heq
    · cases heq
    · cases heq
    · cases heq
    · cases heq
      exact guard.granted

/--
**A queue manager is opened for validated claims only.**  If a call connects
to a queue manager, the claims of its token were decoded with a selected key and
validated in this call, and they name a role for the environment of that queue manager.
-/
theorem production_needs_claims
    (entries : List QMEntry) (token tool : PyStr) (params : OrderedDict PyStr Json)
    (s : CallState ω ρ) (entry : QMEntry)
    (h : Effect.connect entry ∈ (dispatch (withInventory (oidcEnv env same strOf v party)
      (.ofEntries entries)) token tool params s).events) :
    ∃ claims, Decoded same v ((verify same strOf v token).run party s.1.world).events token claims ∧
      ∃ name ∈ extractRoles v claims, name ∈ grantingRoles (readAction entry) := by
  generalize InMemoryInventory.ofEntries entries = inv at h
  rw [(dispatch_frame (withInventory (oidcEnv env same strOf v party) inv) token tool params
    s).2] at h
  cases hverify : ((verify same strOf v token).run party s.1.world).result with
  | error exc =>
      have hserve := (serve_of_unverified (withInventory (oidcEnv env same strOf v party) inv)
        tool params (s := (s.1, startLocals, s.2.2)) hverify).2
      rw [hserve, List.mem_singleton] at h
      cases h
  | ok p =>
      obtain ⟨admitted, rest, hserve, hrest⟩ := serve_of_verified
        (withInventory (oidcEnv env same strOf v party) inv) tool params
        (s := (s.1, startLocals, s.2.2)) hverify
      have hmem : Effect.connect entry ∈ rest := by
        rw [hserve] at h
        simpa using h
      rcases hrest with ⟨-, host, rfl⟩ | rfl
      · have hgranted := granted_of_connect (oidcEnv env same strOf v party) inv hmem
        obtain ⟨claims, hdecoded, rfl, -⟩ :=
          principal_was_decoded (hverify ▸ goes_run party _ s.1.world)
        exact ⟨claims, hdecoded, exists_role_of_allowed hgranted⟩
      · cases hmem

end Server

section Sample

open Rbac Server Effects

/-- A key with the `kid` `"a"`. -/
def sampleJwk : Json :=
  .obj [(lit "kid", .str (lit "a"))]

def sampleVerifier : VerifierOptions where
  issuer := lit "https://idp"
  audience := lit "mq"

/-- The claims of a user who may read production. -/
def sampleClaims : Claims :=
  OrderedDict.ofList [(lit "sub", .str (lit "ann")), (lit "roles", .arr [.str (lit "prod-read")])]

/-- authlib's answer to a token whose signature is wrong. -/
def badSignature : PyException :=
  ⟨"BadSignatureError", ["JoseError", "Exception"], lit "bad_signature: "⟩

/-- An identity provider with one key; `claims` is what decoding a token gives. -/
def sampleParty (claims : Except PyException Claims) (q : Ask Unit) (world : Unit) :
    Except PyException q.Answer × Unit :=
  match q with
  | .getJwks => (.ok (some (.obj [(lit "keys", .arr [sampleJwk])])), world)
  | .deserializeHeader _ => (.ok sampleJwk, world)
  | .importKey _ => (.ok (), world)
  | .importKeySet _ => (.ok (), world)
  | .decode _ _ _ => (claims, world)
  | .validate _ _ _ => (.ok (), world)

/-- Equality of values without numbers, which is all that the sample compares. -/
def sampleSame (v w : Json) : Bool :=
  decide (v = w)

/-- The verification of `"a.b.c"`; no claim of the sample needs `str`. -/
def sampleRun (claims : Except PyException Claims) :
    Outcome PyException (Heard Unit) Unit Principal :=
  (verify sampleSame (fun _ => []) sampleVerifier (lit "a.b.c")).run (sampleParty claims) ()

theorem goes_sampleRun (claims : Except PyException Claims) :
    Goes (verify sampleSame (fun _ => []) sampleVerifier (lit "a.b.c")) (sampleRun claims).events
      (sampleRun claims).result :=
  goes_run (sampleParty claims) _ ()

theorem result_sampleRun_ok :
    (sampleRun (.ok sampleClaims)).result = .ok ⟨lit "ann", none, [lit "prod-read"]⟩ := by
  decide +kernel

theorem result_sampleRun_error :
    (sampleRun (.error badSignature)).result =
      .error (tokenVerificationError (lit "token verification failed: BadSignatureError")) := by
  decide +kernel

theorem principal_was_decoded_ann :
    ∃ claims, Decoded sampleSame sampleVerifier (sampleRun (.ok sampleClaims)).events
        (lit "a.b.c") claims ∧
      ⟨lit "ann", none, [lit "prod-read"]⟩ = principalOf (fun _ => []) sampleVerifier claims ∧
        lit "ann" ≠ [] :=
  principal_was_decoded (result_sampleRun_ok ▸ goes_sampleRun (.ok sampleClaims))

theorem refusals_say_no_more_bad_signature :
    let exc := tokenVerificationError (lit "token verification failed: BadSignatureError")
    (∃ message ∈ refusalTexts, exc = tokenVerificationError message) ∨
      (∃ exc', Cause (sampleRun (.error badSignature)).events exc' ∧ isRefusal exc' = true ∧
        exc = refusalOf exc') ∨
        Cause (sampleRun (.error badSignature)).events exc ∧ isRefusal exc = false :=
  refusals_say_no_more (result_sampleRun_error ▸ goes_sampleRun (.error badSignature))

theorem production_needs_claims_channels :
    ∃ claims, Decoded sampleSame sampleVerifier (sampleRun (.ok sampleClaims)).events
        (lit "a.b.c") claims ∧
      ∃ name ∈ extractRoles sampleVerifier claims,
        name ∈ grantingRoles (readAction sampleEntry) :=
  production_needs_claims sampleEnv sampleSame (fun _ => []) sampleVerifier
    (sampleParty (.ok sampleClaims)) [sampleEntry] (lit "a.b.c") Diagnostic.channels.toolName
    channelParams sampleState sampleEntry (by decide +kernel)

end Sample

end Oidc
end MqSentinel
