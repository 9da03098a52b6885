import MqSentinel.Inventory

/-!
# Roles and actions

A principal's roles grant actions, and `authorize` raises unless the required one
is among them.  Reading a production queue manager needs `read:prod`; every other
environment needs `read:nonprod`.
-/

namespace MqSentinel

/--
A Python exception: its class, the classes above it up to `Exception`, and its
text.  Class names have no lone surrogates.
-/
structure PyException where
  className : String
  bases : List String
  message : PyStr
deriving DecidableEq

namespace PyException

/-- What `except name:` catches. -/
def isInstance (exc : PyException) (name : String) : Bool :=
  exc.className == name || exc.bases.contains name

def permissionError (message : PyStr) : PyException :=
  ⟨"PermissionError", ["OSError", "Exception"], message⟩

def authorizationError (message : PyStr) : PyException :=
  ⟨"AuthorizationError", ["PermissionError", "OSError", "Exception"], message⟩

def lookupError (message : PyStr) : PyException :=
  ⟨"LookupError", ["Exception"], message⟩

def valueError (message : PyStr) : PyException :=
  ⟨"ValueError", ["Exception"], message⟩

end PyException

/-- The verified caller; the order of the roles plays no part. -/
structure Principal where
  subject : PyStr
  tenant : Option PyStr
  roles : List PyStr
deriving DecidableEq

namespace Rbac

inductive Action where
  | readNonprod
  | readProd
  | auditView
deriving DecidableEq

def Action.value : Action → PyStr
  | readNonprod => lit "read:nonprod"
  | readProd => lit "read:prod"
  | auditView => lit "audit:view"

structure Role where
  name : PyStr
  grants : List Action
deriving DecidableEq

/-- `_ROLES` -/
def roles : List (PyStr × Role) :=
  [(lit "nonprod-read", ⟨lit "nonprod-read", [.readNonprod]⟩),
    (lit "prod-read", ⟨lit "prod-read", [.readNonprod, .readProd]⟩),
    (lit "admin-audit", ⟨lit "admin-audit", [.readNonprod, .readProd, .auditView]⟩)]

/-- `_ROLES.get(name)` -/
def findRole (name : PyStr) : Option Role :=
  (roles.find? fun p => p.1 = name).map Prod.snd

/-- Everything that the roles of a principal grant; unknown roles grant nothing. -/
def allowed (p : Principal) : List Action :=
  p.roles.flatMap fun name => ((findRole name).map Role.grants).getD []

/-- `authorize`; `repr` is the `repr` of a string. -/
def authorize (repr : PyStr → PyStr) (p : Principal) (action : Action) :
    Except PyException Unit :=
  if action ∈ allowed p then .ok ⟨⟩
  else
    .error (.authorizationError
      (lit "principal " ++ repr p.subject ++ lit " lacks required action " ++
        repr action.value))

/-- The action that reading an entry needs. -/
def readAction (entry : QMEntry) : Action :=
  if entry.environment = .prod then .readProd else .readNonprod

/-- `_can_read` -/
def canRead (repr : PyStr → PyStr) (p : Principal) (entry : QMEntry) : Bool :=
  match authorize repr p (readAction entry) with
  | .ok _ => true
  | .error _ => false

theorem authorize_ok_iff
    {r : PyStr → PyStr} {p : Principal} {a : Action} :
    authorize r p a = .ok ⟨⟩ ↔ a ∈ allowed p := by
  unfold authorize
  split_ifs with h <;> simp [h]

theorem canRead_iff
    {repr : PyStr → PyStr} {p : Principal} {entry : QMEntry} :
    canRead repr p entry = true ↔ readAction entry ∈ allowed p := by
  have hauth := authorize_ok_iff (r := repr) (p := p) (a := readAction entry)
  rw [← hauth, canRead]
  cases authorize repr p (readAction entry) <;> simp

/-- A role that grants `read:prod` grants `read:nonprod` too. -/
theorem readNonprod_of_readProd
    {p : Principal} (h : Action.readProd ∈ allowed p) :
    Action.readNonprod ∈ allowed p := by
  have hroles : ∀ q ∈ roles, Action.readProd ∈ q.2.grants → Action.readNonprod ∈ q.2.grants := by
    decide
  obtain ⟨name, hname, hgrant⟩ := List.mem_flatMap.mp h
  refine List.mem_flatMap.mpr ⟨name, hname, ?_⟩
  cases hfind : findRole name with
  | none =>
      simp [hfind] at hgrant
  | some role =>
      obtain ⟨q, hq, rfl⟩ := Option.map_eq_some_iff.mp hfind
      rw [hfind] at hgrant
      exact hroles q (List.mem_of_find?_eq_some hq) hgrant

end Rbac
end MqSentinel
