import MqSentinel.JsonValues
import MqSentinel.HashChain

/-!
# The audit log

One JSON record a line.  `write` stores the hash of the previous record in
`prev_hash`, hashes the record in its canonical form (sorted keys) and appends the
record with that hash under `hash`.  `loadLastHash` picks the chain up after a
restart, and `verifyChain` checks a whole file.

The file is its bytes, or `none` when it does not exist.  `sha` is
`hashlib.sha256(...).hexdigest()`.  An exception is `none` in `write` and
`loadLastHash`; the verifier's exceptions are named.

The records of a file form a hash chain in the sense of `HashChain`, with
`storedPrev` and `recordDigest`, and `verifyChain_ok_iff` says that the verifier
accepts exactly the files whose lines are sealed and linked.
-/

namespace MqSentinel
namespace Audit

open HashChain

/-- `"0" * 64` -/
def genesisHash : PyStr :=
  List.replicate 64 (ch '0')

structure AuditEvent where
  actor : PyStr
  tenant : Option PyStr
  tool : PyStr
  targetQm : Option PyStr
  paramsHash : PyStr
  outcome : PyStr
  durationMs : Int
  error : Option PyStr := none
deriving DecidableEq

/-- `\n` -/
def newline : UInt8 := 0x0A

/-- The characters that `bytes.strip()` removes. -/
def isBlankByte (b : UInt8) : Bool :=
  b == 0x20 || decide (0x09 ≤ b.toNat ∧ b.toNat ≤ 0x0D)

/-- `not line.strip()` -/
def isBlankLine (line : PyBytes) : Bool :=
  line.all isBlankByte

/-- The lines of a file opened in binary mode, each with its newline. -/
def fileLines : PyBytes → List PyBytes
  | [] => []
  | b :: bs =>
      if b = newline then [b] :: fileLines bs
      else
        match fileLines bs with
        | [] => [[b]]
        | l :: ls => (b :: l) :: ls

/-- The lines that hold a record. -/
def recordLines (file : Option PyBytes) : List PyBytes :=
  (fileLines (file.getD [])).filter fun line => !isBlankLine line

section Logger

variable (oj : Orjson) (sha : PyBytes → PyStr)

/-- The record of an event before the two hashes are added; `ts` is the time stamp. -/
def baseRecord (ts : PyStr) (e : AuditEvent) : List (PyStr × Json) :=
  [(lit "ts", .str ts),
    (lit "actor", .str e.actor),
    (lit "tenant", .ofOption e.tenant),
    (lit "tool", .str e.tool),
    (lit "target_qm", .ofOption e.targetQm),
    (lit "params_hash", .str e.paramsHash),
    (lit "outcome", .str e.outcome),
    (lit "duration_ms", .int e.durationMs),
    (lit "error", .ofOption e.error)]

/-- The record that is hashed. -/
def linkedRecord (ts : PyStr) (e : AuditEvent) (prev : PyStr) : List (PyStr × Json) :=
  baseRecord ts e ++ [(lit "prev_hash", .str prev)]

/-- The record that is written. -/
def sealedRecord (ts : PyStr) (e : AuditEvent) (prev hash : PyStr) :
    List (PyStr × Json) :=
  linkedRecord ts e prev ++ [(lit "hash", .str hash)]

/-- `AuditLogger.write`: the new hash and the new file. -/
def write (ts : PyStr) (e : AuditEvent) (prev : PyStr) (file : Option PyBytes) :
    Option (PyStr × PyBytes) :=
  match oj.dumpsSorted (.obj (linkedRecord ts e prev)) with
  | none => none
  | some canonical =>
      match oj.dumps (.obj (sealedRecord ts e prev (sha canonical))) with
      | none => none
      | some line => some (sha canonical, file.getD [] ++ (line ++ [newline]))

/-- `AuditLogger._load_last_hash`. -/
def loadLastHash (file : Option PyBytes) : Option PyStr :=
  match (recordLines file).getLast? with
  | none => some genesisHash
  | some line =>
      match oj.loads line with
      | none => some genesisHash
      | some v =>
          match v.asDict with
          | none => none
          | some record =>
              match record.get? (lit "hash") with
              | some (.str h) => some h
              | _ => some genesisHash

/-- What `verify_chain` raises. -/
inductive VerifyError where
  /-- `orjson.JSONDecodeError`, a `ValueError` -/
  | invalidJson
  /-- `AttributeError`: the line is JSON, but no object -/
  | notAnObject
  /-- `ValueError(f"audit chain broken at line {line_num}: prev_hash mismatch")` -/
  | prevHashMismatch (lineNum : Nat)
  /-- `TypeError`: the record cannot be serialised again -/
  | notSerialisable
  /-- `ValueError(f"audit chain broken at line {line_num}: record hash mismatch")` -/
  | recordHashMismatch (lineNum : Nat)
deriving DecidableEq

/-- The loop of `verify_chain`, from line `lineNum` on. -/
def verifyLines : Nat → PyStr → List PyBytes → Except VerifyError Unit
  | _, _, [] => .ok ()
  | lineNum, prevHash, raw :: rest =>
      if isBlankLine raw then verifyLines (lineNum + 1) prevHash rest
      else
        match oj.loads raw with
        | none => .error .invalidJson
        | some v =>
            match v.asDict with
            | none => .error .notAnObject
            | some record =>
                if record.get? (lit "prev_hash") ≠ some (.str prevHash) then
                  .error (.prevHashMismatch lineNum)
                else
                  match oj.dumpsSorted (.obj (record.erase (lit "hash")).items) with
                  | none => .error .notSerialisable
                  | some canonical =>
                      if record.get? (lit "hash") ≠ some (.str (sha canonical)) then
                        .error (.recordHashMismatch lineNum)
                      else verifyLines (lineNum + 1) (sha canonical) rest

/-- `verify_chain`: a missing file is accepted. -/
def verifyChain (file : Option PyBytes) : Except VerifyError Unit :=
  match file with
  | none => .ok ()
  | some content => verifyLines oj sha 1 genesisHash (fileLines content)

/-- A line as a record. -/
def parseRecord (line : PyBytes) : Option (OrderedDict PyStr Json) :=
  (oj.loads line).bind Json.asDict

/-- The records of a file, by position. -/
def records (file : Option PyBytes) : List (OrderedDict PyStr Json) :=
  (recordLines file).filterMap (parseRecord oj)

/-- The hash of the predecessor, as stored. -/
def storedPrev (record : OrderedDict PyStr Json) : Option Json :=
  record.get? (lit "prev_hash")

/-- The hash of a record without its `hash` field. -/
def recordDigest (record : OrderedDict PyStr Json) : Option Json :=
  (oj.dumpsSorted (.obj (record.erase (lit "hash")).items)).map fun canonical =>
    .str (sha canonical)

/-- A record that stores its own hash. -/
def Sealed (record : OrderedDict PyStr Json) : Prop :=
  ∃ canonical, oj.dumpsSorted (.obj (record.erase (lit "hash")).items) = some canonical ∧
    record.get? (lit "hash") = some (.str (sha canonical))

end Logger

section Verifier

variable {oj : Orjson} {sha : PyBytes → PyStr}

/-- A line that is not blank is accepted when it is sealed and stores the last hash. -/
theorem verifyLines_cons_ok_iff
    {lineNum : Nat} {prevHash : PyStr} {raw : PyBytes} {rest : List PyBytes}
    (hraw : isBlankLine raw = false) :
    verifyLines oj sha lineNum prevHash (raw :: rest) = .ok () ↔
      ∃ record canonical, parseRecord oj raw = some record ∧
        record.get? (lit "prev_hash") = some (.str prevHash) ∧
        oj.dumpsSorted (.obj (record.erase (lit "hash")).items) = some canonical ∧
        record.get? (lit "hash") = some (.str (sha canonical)) ∧
        verifyLines oj sha (lineNum + 1) (sha canonical) rest = .ok () := by
  rw [verifyLines, hraw]
  unfold parseRecord
  cases hload : oj.loads raw with
  | none =>
      simp
  | some v =>
      cases hdict : v.asDict with
      | none =>
          simp [hdict]
      | some record =>
          by_cases hprev : record.get? (lit "prev_hash") = some (.str prevHash)
          · cases hdump : oj.dumpsSorted (.obj (record.erase (lit "hash")).items) with
            | none =>
                simp [hdict, hprev, hdump]
            | some canonical =>
                by_cases hhash : record.get? (lit "hash") = some (.str (sha canonical))
                · simp [hdict, hprev, hdump, hhash]
                · simp [hdict, hprev, hdump, hhash]
          · simp [hdict, hprev]

/-- The loop accepts exactly the sealed and linked lines. -/
theorem verifyLines_ok_iff
    (lines : List PyBytes) :
    ∀ (lineNum : Nat) (prevHash : PyStr),
      verifyLines oj sha lineNum prevHash lines = .ok () ↔
        ∃ rs, List.Forall₂ (fun line r => parseRecord oj line = some r)
            (lines.filter fun line => !isBlankLine line) rs ∧
          (∀ r ∈ rs, Sealed oj sha r) ∧
          Linked storedPrev (recordDigest oj sha) (some (.str prevHash)) rs := by
  induction lines with
  | nil =>
      intro lineNum prevHash
      simp [verifyLines]
  | cons raw rest ih =>
      intro lineNum prevHash
      cases hblank : isBlankLine raw with
      | true =>
          simp only [verifyLines, hblank, if_true, ih, List.filter_cons, Bool.not_true,
            Bool.false_eq_true, if_false]
      | false =>
          rw [verifyLines_cons_ok_iff hblank]
          simp only [List.filter_cons, hblank, Bool.not_false, if_true]
          constructor
          · rintro ⟨record, canonical, hparse, hprev, hdump, hhash, hrest⟩
            obtain ⟨rs, hrs, hsealed, hlinked⟩ := (ih _ _).mp hrest
            refine ⟨record :: rs, List.Forall₂.cons hparse hrs, ?_, hprev, ?_⟩
            · intro r hr
              rcases List.mem_cons.mp hr with rfl | hr
              · exact ⟨canonical, hdump, hhash⟩
              · exact hsealed r hr
            · have hdigest : recordDigest oj sha record = some (.str (sha canonical)) := by
                simp [recordDigest, hdump]
              rw [hdigest]
              exact hlinked
          · rintro ⟨rs, hrs, hsealed, hlinked⟩
            cases hrs with
            | @cons _ record _ rs hparse hrs =>
                obtain ⟨canonical, hdump, hhash⟩ := hsealed record (by simp)
                obtain ⟨hprev, hlinked⟩ := hlinked
                have hdigest :
                    recordDigest oj sha record = some (.str (sha canonical)) := by
                  simp [recordDigest, hdump]
                rw [hdigest] at hlinked
                refine ⟨record, canonical, hparse, hprev, hdump, hhash, ?_⟩
                exact (ih _ _).mpr
                  ⟨rs, hrs, fun r hr => hsealed r (List.mem_cons_of_mem _ hr), hlinked⟩

/-- Lines that all parse are the records of the file. -/
theorem filterMap_eq_of_forall₂
    {lines : List PyBytes} {rs : List (OrderedDict PyStr Json)}
    (h : List.Forall₂ (fun line r => parseRecord oj line = some r) lines rs) :
    lines.filterMap (parseRecord oj) = rs := by
  induction h with
  | nil =>
      rfl
  | cons hline _ ih =>
      simp [hline, ih]

/-- **What `verify_chain` accepts**: every line holds a record, sealed and linked. -/
theorem verifyChain_ok_iff
    (file : Option PyBytes) :
    verifyChain oj sha file = .ok () ↔
      List.Forall₂ (fun line r => parseRecord oj line = some r)
          (recordLines file) (records oj file) ∧
        (∀ r ∈ records oj file, Sealed oj sha r) ∧
        Linked storedPrev (recordDigest oj sha) (some (.str genesisHash))
          (records oj file) := by
  cases file with
  | none =>
      simp [verifyChain, records, recordLines, fileLines]
  | some content =>
      rw [verifyChain, verifyLines_ok_iff]
      constructor
      · rintro ⟨rs, hrs, hsealed, hlinked⟩
        have hrecords : records oj (some content) = rs := filterMap_eq_of_forall₂ hrs
        rw [hrecords]
        exact ⟨hrs, hsealed, hlinked⟩
      · rintro ⟨hrs, hsealed, hlinked⟩
        exact ⟨records oj (some content), hrs, hsealed, hlinked⟩

end Verifier

/-- A line without a newline inside is read back whole. -/
theorem fileLines_line
    {line : PyBytes} (hline : newline ∉ line) (rest : PyBytes) :
    fileLines (line ++ newline :: rest) = (line ++ [newline]) :: fileLines rest := by
  induction line with
  | nil =>
      simp [fileLines]
  | cons b line ih =>
      have hb : b ≠ newline := fun h => hline (by simp [h])
      have htail : newline ∉ line := fun h => hline (List.mem_cons_of_mem _ h)
      simp [fileLines, hb, ih htail]

/-- A file of terminated lines is read back line by line. -/
theorem fileLines_flatten
    {lines : List PyBytes} (hlines : ∀ l ∈ lines, newline ∉ l) :
    fileLines (lines.map (· ++ [newline])).flatten = lines.map (· ++ [newline]) := by
  induction lines with
  | nil =>
      rfl
  | cons l ls ih =>
      have hl : newline ∉ l := hlines l (by simp)
      have htail := ih fun x hx => hlines x (List.mem_cons_of_mem _ hx)
      simp only [List.map_cons, List.flatten_cons, List.append_assoc, List.singleton_append]
      rw [fileLines_line hl, htail]

end Audit
end MqSentinel
