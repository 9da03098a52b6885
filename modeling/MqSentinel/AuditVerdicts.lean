import MqSentinel.AuditRuns

/-!
# Verdicts on an audit log

`verify-audit` reports a `ValueError` of `verify_chain` as a failed chain.  The loop calls
`get` on whatever a line holds, so that a line with other JSON than an object ends it with
an `AttributeError`, which is no verdict.  A file without such a line behind an intact
chain always gets one.
-/

namespace MqSentinel

namespace Json

/-- Items are serialisable when their keys and values are. -/
theorem serialisableItems_iff
    {items : List (PyStr × Json)} :
    serialisableItems items = true ↔
      ∀ p ∈ items, utf8Encodable p.1 = true ∧ serialisable p.2 = true := by
  induction items with
  | nil =>
      simp [serialisableItems]
  | cons p items ih =>
      simp [serialisableItems, ih]

/-- A record without one of its fields can be serialised like the whole one. -/
theorem serialisable_erase
    {v : Json} {record : OrderedDict PyStr Json} (hv : v.serialisable = true)
    (h : v.asDict = some record) (k : PyStr) :
    (obj (record.erase k).items).serialisable = true := by
  cases v with
  | obj items =>
      obtain rfl := Option.some_inj.mp h
      refine serialisableItems_iff.mpr fun p hp => ?_
      rw [OrderedDict.items_erase] at hp
      exact serialisableItems_iff.mp hv p
        (OrderedDict.mem_of_mem_ofList (List.mem_of_mem_filter hp))
  | null | bool | int | float | str | arr =>
      cases h

end Json

namespace Audit

open HashChain

/-- The subclasses of `ValueError` among the exceptions of `verify_chain`. -/
def VerifyError.isValueError : VerifyError → Bool
  | .invalidJson | .prevHashMismatch _ | .recordHashMismatch _ => true
  | .notAnObject | .notSerialisable => false

/-- `True` or a `ValueError`. -/
def IsVerdict (result : Except VerifyError Unit) : Prop :=
  ∀ err, result = .error err → err.isValueError = true

/-- What the `verify-audit` command prints; the failure exits with status 2. -/
inductive VerifyReport where
  | chainOk
  | chainFailed (err : VerifyError)
deriving DecidableEq

/-- What is relied on of the serialiser: it accepts again what it has read. -/
structure ReadsSerialisable (oj : Orjson) : Prop where
  serialises : oj.SerialisesExactly
  loads_serialisable : ∀ line v, oj.loads line = some v → v.serialisable = true

section Verdicts

variable (oj : Orjson) (sha : PyBytes → PyStr)

/-- `verify_audit`: only a `ValueError` is caught. -/
def verifyAudit (file : Option PyBytes) : Except VerifyError VerifyReport :=
  match verifyChain oj sha file with
  | .ok () => .ok .chainOk
  | .error err => if err.isValueError then .ok (.chainFailed err) else .error err

/-- The body of the loop: the hash that the next record has to store. -/
def checkLine (lineNum : Nat) (prevHash : PyStr) (raw : PyBytes) : Except VerifyError PyStr :=
  if isBlankLine raw then .ok prevHash
  else
    match oj.loads raw with
    | none => .error .invalidJson
    | some v =>
        match v.asDict with
        | none => .error .notAnObject
        | some record =>
            if record.get? (lit "prev_hash") ≠ some (.str prevHash) then
              .error (.prevHashMismatch lineNum)
            else
              match oj.dumpsSorted (.obj (record.erase (lit "hash")).items) with
              | none => .error .notSerialisable
              | some canonical =>
                  if record.get? (lit "hash") ≠ some (.str (sha canonical)) then
                    .error (.recordHashMismatch lineNum)
                  else .ok (sha canonical)

/-- The lines hold records that are sealed and linked, from the genesis hash on. -/
def Intact (lines : List PyBytes) : Prop :=
  ∃ rs, List.Forall₂ (fun line r => parseRecord oj line = some r)
      (lines.filter fun line => !isBlankLine line) rs ∧
    (∀ r ∈ rs, Sealed oj sha r) ∧
    Linked storedPrev (recordDigest oj sha) (some (.str genesisHash)) rs

/-- A line with JSON that is not an object. -/
def HoldsOtherJson (raw : PyBytes) : Prop :=
  isBlankLine raw = false ∧ ∃ v, oj.loads raw = some v ∧ v.asDict = none

end Verdicts

section Loop

variable {oj : Orjson} {sha : PyBytes → PyStr}

/-- The loop checks line after line. -/
theorem verifyLines_cons
    (lineNum : Nat) (prevHash : PyStr) (raw : PyBytes) (rest : List PyBytes) :
    verifyLines oj sha lineNum prevHash (raw :: rest) =
      (checkLine oj sha lineNum prevHash raw).bind fun prevHash' =>
        verifyLines oj sha (lineNum + 1) prevHash' rest := by
  rw [verifyLines, checkLine]
  cases hblank : isBlankLine raw with
  | true =>
      rfl
  | false =>
      cases hload : oj.loads raw with
      | none =>
          rfl
      | some v =>
          cases hdict : v.asDict with
          | none =>
              simp [hdict, Except.bind]
          | some record =>
              by_cases hprev : record.get? (lit "prev_hash") = some (.str prevHash)
              · cases hdump : oj.dumpsSorted (.obj (record.erase (lit "hash")).items) with
                | none =>
                    simp [hdict, hprev, hdump, Except.bind]
                | some canonical =>
                    by_cases hhash : record.get? (lit "hash") = some (.str (sha canonical))
                    · simp [hdict, hprev, hdump, hhash, Except.bind]
                    · simp [hdict, hprev, hdump, hhash, Except.bind]
              · simp [hdict, hprev, Except.bind]

/-- Only JSON that is not an object ends the check of a line with another exception. -/
theorem checkLine_error_iff
    (hoj : ReadsSerialisable oj) (lineNum : Nat) (prevHash : PyStr) (raw : PyBytes) :
    (∃ err, checkLine oj sha lineNum prevHash raw = .error err ∧ err.isValueError = false) ↔
      HoldsOtherJson oj raw := by
  unfold HoldsOtherJson checkLine
  cases hblank : isBlankLine raw with
  | true =>
      simp
  | false =>
      cases hload : oj.loads raw with
      | none =>
          simp [VerifyError.isValueError]
      | some v =>
          cases hdict : v.asDict with
          | none =>
              simp [hdict, VerifyError.isValueError]
          | some record =>
              -- an object is compared and serialised again, which cannot fail
              have hserialisable := Json.serialisable_erase
                (hoj.loads_serialisable raw v hload) hdict (lit "hash")
              rw [← (hoj.serialises _).2] at hserialisable
              obtain ⟨canonical, hdump⟩ := Option.isSome_iff_exists.mp hserialisable
              simp only [hdict, hdump]
              split_ifs <;> simp [VerifyError.isValueError, hdict]

/-- What a run over the lines comes to depends on the lines that it reaches. -/
theorem isVerdict_verifyLines_iff
    (hoj : ReadsSerialisable oj) (lines : List PyBytes) :
    ∀ (lineNum : Nat) (prevHash : PyStr),
      IsVerdict (verifyLines oj sha lineNum prevHash lines) ↔
        ∀ front line back, lines = front ++ line :: back →
          verifyLines oj sha lineNum prevHash front = .ok () → ¬ HoldsOtherJson oj line := by
  induction lines with
  | nil =>
      intro lineNum prevHash
      simp [verifyLines, IsVerdict]
  | cons raw rest ih =>
      intro lineNum prevHash
      have hraw : (∃ err, checkLine oj sha lineNum prevHash raw = .error err ∧
          err.isValueError = false) ↔ HoldsOtherJson oj raw :=
        checkLine_error_iff hoj lineNum prevHash raw
      cases hcheck : checkLine oj sha lineNum prevHash raw with
      | error err =>
          -- no line behind this one is reached
          have hstop : ∀ rest', verifyLines oj sha lineNum prevHash (raw :: rest') =
              .error err := by
            intro rest'
            rw [verifyLines_cons, hcheck]
            rfl
          rw [hcheck] at hraw
          rw [hstop, IsVerdict]
          constructor
          · rintro hverdict front line back hlines hfront hother
            cases front with
            | nil =>
                obtain ⟨rfl, rfl⟩ := List.cons_eq_cons.mp hlines
                obtain ⟨_, ⟨⟩, hvalue⟩ := hraw.mpr hother
                rw [hverdict err rfl] at hvalue
                cases hvalue
            | cons raw' front =>
                obtain ⟨rfl, rfl⟩ := List.cons_eq_cons.mp hlines
                rw [hstop] at hfront
                cases hfront
          · rintro hlines _ ⟨⟩
            by_contra hvalue
            exact hlines [] raw rest rfl rfl
              (hraw.mp ⟨err, rfl, Bool.eq_false_iff.mpr hvalue⟩)
      | ok prevHash' =>
          have hgo : ∀ rest', verifyLines oj sha lineNum prevHash (raw :: rest') =
              verifyLines oj sha (lineNum + 1) prevHash' rest' := by
            intro rest'
            rw [verifyLines_cons, hcheck]
            rfl
          have hobject : ¬ HoldsOtherJson oj raw := by
            rw [← hraw, hcheck]
            rintro ⟨err, herr, -⟩
            cases herr
          rw [hgo, ih]
          constructor
          · intro hrest front line back hlines hfront
            cases front with
            | nil =>
                obtain ⟨rfl, rfl⟩ := List.cons_eq_cons.mp hlines
                exact hobject
            | cons raw' front =>
                obtain ⟨rfl, rfl⟩ := List.cons_eq_cons.mp hlines
                rw [hgo] at hfront
                exact hrest front line back rfl hfront
          · rintro hlines front line back rfl hfront
            refine hlines (raw :: front) line back rfl ?_
            rw [hgo, hfront]

/-- Lines are reached behind records that are sealed and linked. -/
theorem verifyLines_genesis_iff
    (lines : List PyBytes) :
    verifyLines oj sha 1 genesisHash lines = .ok () ↔ Intact oj sha lines :=
  verifyLines_ok_iff lines 1 genesisHash

/-- The command ends without an exception when it gets a verdict. -/
theorem verifyAudit_isOk_iff
    (file : Option PyBytes) :
    (verifyAudit oj sha file).isOk = true ↔ IsVerdict (verifyChain oj sha file) := by
  unfold verifyAudit IsVerdict
  cases hchain : verifyChain oj sha file with
  | ok =>
      simp [Except.isOk, Except.toBool]
  | error err =>
      cases hvalue : err.isValueError <;> simp [hvalue, Except.isOk, Except.toBool]

/--
Verification gives a verdict, and the command reports one, if and only if no line behind
an intact chain holds other JSON than an object.
-/
theorem verdict_iff
    (hoj : ReadsSerialisable oj) (file : Option PyBytes) :
    (IsVerdict (verifyChain oj sha file) ∧ (verifyAudit oj sha file).isOk = true) ↔
      ∀ front line back, fileLines (file.getD []) = front ++ line :: back →
        Intact oj sha front → ¬ HoldsOtherJson oj line := by
  have hlines : verifyChain oj sha file =
      verifyLines oj sha 1 genesisHash (fileLines (file.getD [])) := by
    cases file with
    | none =>
        rfl
    | some content =>
        rfl
  rw [verifyAudit_isOk_iff, and_self_iff, hlines, isVerdict_verifyLines_iff hoj]
  simp only [verifyLines_genesis_iff]

end Loop

section Sample

theorem mem_of_loads_reference
    {known : List Json} {line : PyBytes} {v : Json}
    (h : (Orjson.reference known).loads line = some v) :
    v ∈ known :=
  List.mem_of_find?_eq_some h

theorem readsSerialisable_reference
    {known : List Json} (h : ∀ v ∈ known, v.serialisable = true) :
    ReadsSerialisable (Orjson.reference known) where
  serialises := Orjson.serialisesExactly_reference known
  loads_serialisable := fun _ v hload => h v (mem_of_loads_reference hload)

/-- A record with a line behind it that is not JSON. -/
def garbageFile : Option PyBytes :=
  some ((sampleRecord genesisHash).text ++ [newline] ++ Json.ascii "garbage")

theorem verdict_garbage :
    IsVerdict (verifyChain (Orjson.reference [sampleRecord genesisHash]) sampleSha garbageFile) ∧
      (verifyAudit (Orjson.reference [sampleRecord genesisHash]) sampleSha garbageFile).isOk =
        true := by
  refine (verdict_iff (readsSerialisable_reference (by decide +kernel)) garbageFile).mpr ?_
  rintro front line back - - ⟨-, v, hload, hdict⟩
  have hv := List.mem_singleton.mp (mem_of_loads_reference hload)
  rw [hv] at hdict
  cases hdict

/-- A log of two brackets ends the verification, and the command, with an `AttributeError`. -/
theorem brackets_get_no_verdict :
    ¬ IsVerdict (verifyChain (Orjson.reference [.arr []]) sampleSha
        (some (Json.ascii "[]" ++ [newline]))) ∧
      verifyAudit (Orjson.reference [.arr []]) sampleSha
        (some (Json.ascii "[]" ++ [newline])) = .error .notAnObject := by
  have hchain : verifyChain (Orjson.reference [.arr []]) sampleSha
      (some (Json.ascii "[]" ++ [newline])) = .error .notAnObject := by
    decide +kernel
  refine ⟨fun hverdict => ?_, ?_⟩
  · cases hverdict _ hchain
  · rw [verifyAudit, hchain]
    rfl

end Sample

end Audit
end MqSentinel
