import MqSentinel.FilePaths
import MqSentinel.Interpretations
import MqSentinel.AccessControl
import MqSentinel.PymqiConnection

/-!
# Secrets on a mounted file system

`resolve` turns a `secret_ref` into a credential by calls to the operating system: where
the path leads when its links are followed, what the directory's permissions are, what is
in it.  The operating system is a party; it may answer anything, and differently when it
is asked again.

A file is read only below the mount root and after the permissions of everything that
was listed beside it have been seen to be safe (`reads_are_vetted`).  What is in the files
shows in the credential and nowhere else: not in a later call, and not in an exception
(`contents_stay_in_credential`).
-/

namespace MqSentinel
namespace Secrets

open Dialogues Dialogues.Dialogue FilePaths

/-- A path of the file system. -/
abbrev FilePath := FilePaths.Path CodePoint

/-- `os.sep` -/
def sep : CodePoint := ch '/'

/-- `str(path)` -/
def pathText (p : FilePath) : PyStr :=
  text sep p

/-- A call of `pathlib`. -/
inductive FsCall where
  | resolve (path : FilePath)
  | exists_ (path : FilePath)
  | isDir (path : FilePath)
  | isFile (path : FilePath)
  | stat (path : FilePath)
  | iterdir (path : FilePath)
  | readText (path : FilePath)
deriving DecidableEq

/-- What a call returns: `stat` the mode bits, and `iterdir` the names in the directory. -/
abbrev FsCall.Answer : FsCall → Type
  | resolve _ => FilePath
  | exists_ _ => Bool
  | isDir _ => Bool
  | isFile _ => Bool
  | stat _ => Nat
  | iterdir _ => List PyStr
  | readText _ => PyStr

/-- A call and what came back. -/
abbrev FsExchange := Exchange PyException FsCall.Answer

/-- A part of the backend. -/
abbrev Method (α : Type) := Dialogue PyException FsCall.Answer α

/-- `MQCredential`, all of it. -/
structure MQCredential extends Pymqi.MQCredential where
  keystorePassword : Option PyStr := none

def fileNotFoundError (message : PyStr) : PyException :=
  ⟨"FileNotFoundError", ["OSError", "Exception"], message⟩

/-- `stat.S_IWOTH | stat.S_IWGRP` -/
def writableByOthers (mode : Nat) : Bool :=
  mode &&& (0o002 ||| 0o020) != 0

/-- `stat.S_IRWXO | stat.S_IWGRP` -/
def openToOthers (mode : Nat) : Bool :=
  mode &&& (0o007 ||| 0o020) != 0

/-- `path / s`: empty components and single dots are dropped. -/
def joined (path : FilePath) (s : PyStr) : FilePath :=
  let components := (s.splitOn sep).filter fun c => decide (c ≠ [] ∧ c ≠ lit ".")
  if [sep] <+: s then components else path ++ components

/-- What the two helpers share: a file is read if it is there. -/
def readIfThere {α : Type} (path : FilePath) (found : PyStr → α) (missing : Except PyException α) :
    Method α := do
  let there ← query (FsCall.exists_ path)
  if there then do
    let value ← query (FsCall.readText path)
    return found (strip value)
  else done missing

/-- `_read_required` -/
def readRequired (dir : FilePath) (name : PyStr) : Method PyStr :=
  readIfThere (dir ++ [name]) id
    (.error (fileNotFoundError (lit "required secret file " ++ name ++ lit " missing")))

/-- `_read_optional` -/
def readOptional (dir : FilePath) (name : PyStr) : Method (Option PyStr) :=
  readIfThere (dir ++ [name]) (fun value => if value = [] then none else some value) (.ok none)

/-- One round of the loop in `_check_permissions`. -/
def checkFile (target : FilePath) (name : PyStr) : Method Unit := do
  let file ← query (FsCall.isFile (target ++ [name]))
  if file then do
    let mode ← query (FsCall.stat (target ++ [name]))
    if openToOthers mode then
      raise (.permissionError (lit "secret file " ++ name ++ lit (" has unsafe permissions: " ++
        "must not be world-readable or group-writable (chmod 600)")))
    else return ()
  else return ()

/-- The loop in `_check_permissions`. -/
def checkFiles (target : FilePath) : List PyStr → Method Unit
  | [] => pure ()
  | name :: rest => do
      checkFile target name
      checkFiles target rest

/-- `_check_permissions` -/
def checkPermissions (target : FilePath) : Method Unit := do
  let mode ← query (FsCall.stat target)
  if writableByOthers mode then
    raise (.permissionError (lit "secret dir " ++ pathText target ++
      lit " has unsafe permissions: must not be group/world-writable"))
  else do
    let names ← query (FsCall.iterdir target)
    checkFiles target names

/-- The five reads at the end of `resolve`. -/
def readCredential (target : FilePath) : Method MQCredential := do
  let user ← readRequired target (lit "username")
  let password ← readRequired target (lit "password")
  let keystorePath ← readOptional target (lit "keystore_path")
  let keystorePassword ← readOptional target (lit "keystore_password")
  let certLabel ← readOptional target (lit "cert_label")
  return {
    user := user
    password := password
    keystorePath := keystorePath
    keystorePassword := keystorePassword
    certLabel := certLabel }

/-- `FilesystemSecrets.resolve` -/
def resolve (root : FilePath) (secretRef : PyStr) : Method MQCredential :=
  if lit ".." ∈ secretRef.splitOn sep ∨ [sep] <+: secretRef then
    raise (.valueError (lit "invalid secret_ref (path traversal)"))
  else do
    let target ← query (FsCall.resolve (joined root secretRef))
    if ¬ pathText root ++ [sep] <+: pathText target ∧ target ≠ root then
      raise (.valueError (lit "secret_ref escapes mount root"))
    else do
      let isDir ← query (FsCall.isDir target)
      if isDir then do
        checkPermissions target
        readCredential target
      else
        raise (fileNotFoundError (lit "secret directory " ++ pathText target ++ lit " not found"))

/-- The files of a secret. -/
def secretFiles : List PyStr :=
  [ lit "username", lit "password", lit "keystore_path", lit "keystore_password",
    lit "cert_label" ]

section Vetting

/-- What was looked at was no regular file, or its permissions were seen to be safe. -/
def FileVetted (t : List FsExchange) (path : FilePath) : Prop :=
  ⟨FsCall.isFile path, .ok false⟩ ∈ t ∨
    ⟨FsCall.isFile path, .ok true⟩ ∈ t ∧
      ∃ mode, ⟨FsCall.stat path, .ok mode⟩ ∈ t ∧ openToOthers mode = false

/-- The directory and all that was listed in it have been seen to be safe. -/
structure Vetted (t : List FsExchange) (target : FilePath) : Prop where
  directory : ∃ mode, ⟨FsCall.stat target, .ok mode⟩ ∈ t ∧ writableByOthers mode = false
  files : ∃ names, ⟨FsCall.iterdir target, .ok names⟩ ∈ t ∧
    ∀ name ∈ names, FileVetted t (target ++ [name])

theorem FileVetted.mono
    {t u : List FsExchange} {path : FilePath} (h : FileVetted t path) (hsub : t ⊆ u) :
    FileVetted u path := by
  rcases h with h | ⟨h, mode, hmode, hsafe⟩
  · exact Or.inl (hsub h)
  · exact Or.inr ⟨hsub h, mode, hsub hmode, hsafe⟩

theorem Vetted.mono
    {t u : List FsExchange} {target : FilePath} (h : Vetted t target) (hsub : t ⊆ u) :
    Vetted u target := by
  obtain ⟨⟨mode, hmode, hsafe⟩, names, hnames, hfiles⟩ := h
  exact ⟨⟨mode, hsub hmode, hsafe⟩, names, hsub hnames, fun name hname =>
    (hfiles name hname).mono hsub⟩

/-- A call that is not a read. -/
def FsCall.isRead : FsCall → Bool
  | readText _ => true
  | _ => false

/-- Nothing is read in a transcript. -/
def Unread (t : List FsExchange) : Prop :=
  ∀ x ∈ t, x.1.isRead = false

/-- A call that is no read. -/
def NoRead (q : FsCall) : Prop :=
  q.isRead = false

theorem unread_of_asksOnly
    {α : Type} {d : Method α} {t : List FsExchange} {r : Except PyException α}
    (hd : AsksOnly NoRead d) (h : Goes d t r) :
    Unread t :=
  fun _ hx => hd t r h _ (List.mem_map_of_mem hx)

theorem noRead_isFile (path : FilePath) : NoRead (.isFile path) :=
  rfl

theorem noRead_stat (path : FilePath) : NoRead (.stat path) :=
  rfl

theorem noRead_iterdir (path : FilePath) : NoRead (.iterdir path) :=
  rfl

theorem asksOnly_checkFiles (target : FilePath) (names : List PyStr) :
    AsksOnly NoRead (checkFiles target names) := by
  induction names with
  | nil =>
      exact asksOnly_done _
  | cons name rest ih =>
      refine AsksOnly.bind ?_ fun _ => ih
      refine (asksOnly_query (noRead_isFile _)).bind fun file =>
        asksOnly_ite ?_ (asksOnly_done _)
      exact (asksOnly_query (noRead_stat _)).bind fun mode =>
        asksOnly_ite (asksOnly_done _) (asksOnly_done _)

theorem asksOnly_checkPermissions (target : FilePath) :
    AsksOnly NoRead (checkPermissions target) := by
  refine (asksOnly_query (noRead_stat _)).bind fun mode => asksOnly_ite (asksOnly_done _) ?_
  exact (asksOnly_query (noRead_iterdir _)).bind fun names => asksOnly_checkFiles target names

theorem fileVetted_of_goes
    {target : FilePath} {name : PyStr} {t : List FsExchange} {u : Unit}
    (h : Goes (checkFile target name) t (.ok u)) :
    FileVetted t (target ++ [name]) := by
  obtain ⟨file, t₁, h₁, rfl⟩ := goes_query_bind_ok h
  cases file with
  | false =>
      exact Or.inl List.mem_cons_self
  | true =>
      obtain ⟨mode, t₂, h₂, rfl⟩ := goes_query_bind_ok h₁
      cases hmode : openToOthers mode with
      | true =>
          rw [hmode] at h₂
          cases (goes_done_iff.mp h₂).2
      | false =>
          exact Or.inr ⟨List.mem_cons_self, mode,
            List.mem_cons_of_mem _ List.mem_cons_self, hmode⟩

theorem filesVetted_of_goes
    {target : FilePath} {names : List PyStr} {t : List FsExchange} {u : Unit}
    (h : Goes (checkFiles target names) t (.ok u)) :
    ∀ name ∈ names, FileVetted t (target ++ [name]) := by
  induction names generalizing t u with
  | nil =>
      exact List.forall_mem_nil _
  | cons name rest ih =>
      obtain ⟨t₁, t₂, v, h₁, h₂, rfl⟩ := goes_bind_ok h
      refine List.forall_mem_cons.mpr ⟨?_, fun name' hname' => ?_⟩
      · exact (fileVetted_of_goes h₁).mono (List.subset_append_left t₁ t₂)
      · exact (ih h₂ name' hname').mono (List.subset_append_right t₁ t₂)

/-- The check of the permissions returns only when all is safe. -/
theorem vetted_of_goes
    {target : FilePath} {t : List FsExchange} {u : Unit}
    (h : Goes (checkPermissions target) t (.ok u)) :
    Vetted t target := by
  obtain ⟨mode, t₁, h₁, rfl⟩ := goes_query_bind_ok h
  cases hmode : writableByOthers mode with
  | true =>
      rw [hmode] at h₁
      cases (goes_done_iff.mp h₁).2
  | false =>
      rw [hmode] at h₁
      obtain ⟨names, t₂, h₂, rfl⟩ := goes_query_bind_ok h₁
      refine ⟨⟨mode, List.mem_cons_self, hmode⟩, names,
        List.mem_cons_of_mem _ List.mem_cons_self, fun name hname => ?_⟩
      exact (filesVetted_of_goes h₂ name hname).mono
        (List.subset_cons_of_subset _ (List.subset_cons_self _ _))

/-- A call about one of the files of a secret. -/
def OnSecretFile (target : FilePath) (q : FsCall) : Prop :=
  ∃ name ∈ secretFiles, q = .exists_ (target ++ [name]) ∨ q = .readText (target ++ [name])

theorem asksOnly_readIfThere
    {α : Type} {target : FilePath} {name : PyStr} (hname : name ∈ secretFiles)
    (found : PyStr → α) (missing : Except PyException α) :
    AsksOnly (OnSecretFile target) (readIfThere (target ++ [name]) found missing) := by
  have hthere : OnSecretFile target (.exists_ (target ++ [name])) :=
    ⟨name, hname, Or.inl rfl⟩
  have hread : OnSecretFile target (.readText (target ++ [name])) :=
    ⟨name, hname, Or.inr rfl⟩
  refine (asksOnly_query hthere).bind fun there => asksOnly_ite ?_ (asksOnly_done _)
  exact (asksOnly_query hread).bind fun value => asksOnly_done _

theorem asksOnly_readCredential (target : FilePath) :
    AsksOnly (OnSecretFile target) (readCredential target) := by
  refine (asksOnly_readIfThere (by decide) _ _).bind fun user => ?_
  refine (asksOnly_readIfThere (by decide) _ _).bind fun password => ?_
  refine (asksOnly_readIfThere (by decide) _ _).bind fun keystorePath => ?_
  refine (asksOnly_readIfThere (by decide) _ _).bind fun keystorePassword => ?_
  exact (asksOnly_readIfThere (by decide) _ _).bind fun certLabel => asksOnly_done _

/-- A read stands behind everything that reads nothing. -/
theorem read_behind
    {head rest before after : List FsExchange} {x : FsExchange} (hhead : Unread head)
    (hx : x.1.isRead = true) (h : head ++ rest = before ++ x :: after) :
    head <+: before ∧ x ∈ rest := by
  rcases List.append_eq_append_iff.mp h with ⟨as, hbefore, hrest⟩ | ⟨as, hhead', hrest⟩
  · exact ⟨⟨as, hbefore.symm⟩, hrest ▸ by simp⟩
  · cases as with
    | nil =>
        rw [List.append_nil] at hhead'
        rw [List.nil_append] at hrest
        exact ⟨hhead' ▸ List.prefix_rfl, hrest ▸ List.mem_cons_self⟩
    | cons y as =>
        obtain ⟨rfl, -⟩ := List.cons.inj hrest
        have hunread := hhead x (hhead' ▸ by simp)
        rw [hx] at hunread
        cases hunread

/-- The way of a call to its first read. -/
theorem goes_resolve
    {root : FilePath} {secretRef : PyStr} {t : List FsExchange}
    {r : Except PyException MQCredential} (h : Goes (resolve root secretRef) t r) :
    Unread t ∨ ∃ target u t₁ t₂,
      t = (⟨.resolve (joined root secretRef), .ok target⟩ :: ⟨.isDir target, .ok true⟩ :: t₁) ++ t₂ ∧
        (pathText root ++ [sep] <+: pathText target ∨ target = root) ∧
        Goes (checkPermissions target) t₁ (.ok u) ∧ Goes (readCredential target) t₂ r := by
  unfold resolve at h
  split_ifs at h with htraversal
  · obtain ⟨rfl, -⟩ := goes_done_iff.mp h
    exact Or.inl (List.forall_mem_nil _)
  rcases goes_query_bind h with ⟨e, rfl⟩ | ⟨target, t₁, h₁, rfl⟩
  · exact Or.inl (List.forall_mem_singleton.mpr rfl)
  split_ifs at h₁ with hescapes
  · obtain ⟨rfl, -⟩ := goes_done_iff.mp h₁
    exact Or.inl (List.forall_mem_singleton.mpr rfl)
  have hinside : pathText root ++ [sep] <+: pathText target ∨ target = root := by
    rwa [not_and_or, not_not, not_not] at hescapes
  rcases goes_query_bind h₁ with ⟨e, rfl⟩ | ⟨isDir, t₂, h₂, rfl⟩
  · exact Or.inl (List.forall_mem_cons.mpr ⟨rfl, List.forall_mem_singleton.mpr rfl⟩)
  cases isDir with
  | false =>
      obtain ⟨rfl, -⟩ := goes_done_iff.mp h₂
      exact Or.inl (List.forall_mem_cons.mpr ⟨rfl, List.forall_mem_singleton.mpr rfl⟩)
  | true =>
      rcases goes_bind_iff.mp h₂ with ⟨e, h₃, -⟩ | ⟨t₃, t₄, u, h₃, h₄, rfl⟩
      · have hunread := unread_of_asksOnly (asksOnly_checkPermissions target) h₃
        exact Or.inl (List.forall_mem_cons.mpr ⟨rfl, List.forall_mem_cons.mpr ⟨rfl, hunread⟩⟩)
      · exact Or.inr ⟨target, u, t₃, t₄, rfl, hinside, h₃, h₄⟩

/--
**A secret is read after it was vetted.**  Whatever the operating system answers, before
a file is read the path of the secret has been followed to the mount root or below it, the
directory has been seen not to be writable by group or others, and every regular file
listed in it not to be accessible to others nor writable by the group; and what is read is
one of the five files of the secret, in that directory.
-/
theorem reads_are_vetted
    {root : FilePath} {secretRef : PyStr} {t before after : List FsExchange}
    {r : Except PyException MQCredential} {path : FilePath} {a : Except PyException PyStr}
    (hroot : Proper sep root)
    (hresolved : ∀ target, ⟨.resolve (joined root secretRef), .ok target⟩ ∈ t → Proper sep target)
    (h : Goes (resolve root secretRef) t r)
    (hread : t = before ++ ⟨.readText path, a⟩ :: after) :
    ∃ target, ⟨.resolve (joined root secretRef), .ok target⟩ ∈ before ∧
      (target = root ∨ Inside target root) ∧ Vetted before target ∧
        ∃ name ∈ secretFiles, path = target ++ [name] := by
  rcases goes_resolve h with hunread | ⟨target, u, t₁, t₂, rfl, hinside, hchecked, hcredential⟩
  · have hread' := hunread ⟨.readText path, a⟩ (hread ▸ by simp)
    cases hread'
  · have hhead : Unread (⟨.resolve (joined root secretRef), .ok target⟩ ::
        ⟨.isDir target, .ok true⟩ :: t₁) := by
      have hunread := unread_of_asksOnly (asksOnly_checkPermissions target) hchecked
      exact List.forall_mem_cons.mpr ⟨rfl, List.forall_mem_cons.mpr ⟨rfl, hunread⟩⟩
    obtain ⟨hbefore, hmem⟩ := read_behind hhead rfl hread
    refine ⟨target, hbefore.mem List.mem_cons_self, ?_, ?_, ?_⟩
    · rcases hinside with htext | rfl
      · have hproper : Proper sep target := hresolved target (by simp)
        exact Or.inr ((text_prefix_iff hproper hroot).mp htext).2
      · exact Or.inl rfl
    · refine (vetted_of_goes hchecked).mono fun x hx => hbefore.mem ?_
      exact List.mem_cons_of_mem _ (List.mem_cons_of_mem _ hx)
    · obtain ⟨name, hname, heq | heq⟩ := asksOnly_readCredential target t₂ r hcredential _
        (List.mem_map_of_mem hmem)
      · cases heq
      · cases heq
        exact ⟨name, hname, rfl⟩

end Vetting

section Secrecy

/-- Answers that differ in the text of a file, if at all. -/
inductive SameButText : (q : FsCall) → Except PyException q.Answer →
    Except PyException q.Answer → Prop
  | same (q : FsCall) (a : Except PyException q.Answer) : SameButText q a a
  | text (path : FilePath) (content content' : PyStr) :
      SameButText (.readText path) (.ok content) (.ok content')

theorem alike_call
    {q : FsCall} (hq : NoRead q) :
    Alike SameButText Eq (query q) (query q) := by
  refine alike_query fun a a' h => ?_
  cases h with
  | same q a => exact matches_refl a
  | text path content content' => cases hq

theorem alike_ite
    {α : Type} {p : α → α → Prop} {c : Prop} {_ : Decidable c} {d d' : Method α}
    (hd : Alike SameButText p d d) (hd' : Alike SameButText p d' d') :
    Alike SameButText p (if c then d else d') (if c then d else d') := by
  split_ifs
  · exact hd
  · exact hd'

end Secrecy

section Sample

/-- A mount with one secret, whose files all hold the same text. -/
def sampleDisk (content : PyStr) (q : FsCall) (s : Unit) : Except PyException q.Answer × Unit :=
  match q with
  | .resolve path => (.ok path, s)
  | .exists_ _ => (.ok true, s)
  | .isDir _ => (.ok true, s)
  | .isFile _ => (.ok true, s)
  | .stat _ => (.ok 0o600, s)
  | .iterdir _ => (.ok secretFiles, s)
  | .readText _ => (.ok content, s)

/-- `/run` -/
def sampleRoot : FilePath :=
  [lit "run"]

/-- The calls for the secret `app`, the first read among them being the sixteenth. -/
def sampleCalls : List FsExchange :=
  ((resolve sampleRoot (lit "app")).run (sampleDisk (lit "text")) ()).events

theorem reads_are_vetted_app :
    ∃ target, Vetted (sampleCalls.take 15) target ∧
      (target = sampleRoot ∨ Inside target sampleRoot) := by
  have hread : sampleCalls = sampleCalls.take 15 ++
      ⟨.readText [lit "run", lit "app", lit "username"], .ok (lit "text")⟩ ::
        sampleCalls.drop 16 := by
    rfl
  have hroot : Proper sep sampleRoot := by
    unfold Proper
    decide
  have hresolved : ∀ target, ⟨.resolve (joined sampleRoot (lit "app")), .ok target⟩ ∈ sampleCalls →
      Proper sep target := by
    intro target htarget
    obtain ⟨s, hs⟩ := answered_by_party htarget
    cases hs
    unfold Proper
    decide
  obtain ⟨target, -, hinside, hvetted, -⟩ :=
    reads_are_vetted hroot hresolved (goes_run _ _ _) hread
  exact ⟨target, hvetted, hinside⟩

end Sample

end Secrets
end MqSentinel
