import MqSentinel.AuditLog

/-!
# Runs of the audit logger

A run is any sequence of writes and restarts on one file.  The state is the file
and the hash that the live logger remembers, and the invariant `Represents` says
that the file is the concatenation of the lines of linked entries, one for each
write, and that the remembered hash is the hash of the last of them.

An entry carries the serialisations that `write` produced, so everything the
loader and the verifier see of a line can be read off its entry.
-/

namespace MqSentinel
namespace Audit

open HashChain

/-- What a caller does with the log. -/
inductive Op where
  | write (ts : PyStr) (e : AuditEvent)
  | restart
deriving DecidableEq

/-- The file, and `_prev_hash` of the live logger. -/
structure LogState where
  file : Option PyBytes
  prevHash : PyStr
deriving DecidableEq

/-- The writes of a run, in order. -/
def writesOf : List Op → List (PyStr × AuditEvent)
  | [] => []
  | .write ts e :: ops => (ts, e) :: writesOf ops
  | .restart :: ops => writesOf ops

section Steps

variable (oj : Orjson) (sha : PyBytes → PyStr)

/-- `AuditLogger(log_path)` -/
def openLogger (file : Option PyBytes) : Option LogState :=
  (loadLastHash oj file).map fun h => ⟨file, h⟩

/-- One operation; `none` is an exception. -/
def step (st : LogState) : Op → Option LogState
  | .write ts e => (write oj sha ts e st.prevHash st.file).map fun r => ⟨some r.2, r.1⟩
  | .restart => openLogger oj st.file

/-- A whole run. -/
def run : LogState → List Op → Option LogState
  | st, [] => some st
  | st, op :: ops => (step oj sha st op).bind fun st' => run st' ops

/-- A hash that can stand in `prev_hash`. -/
def IsHash (p : PyStr) : Prop :=
  p = genesisHash ∨ ∃ b, p = sha b

/-- An event whose record serialises, whatever its place in the chain. -/
def Writable (ts : PyStr) (e : AuditEvent) : Prop :=
  ∀ p, IsHash sha p →
    ∃ canonical line, oj.dumpsSorted (.obj (linkedRecord ts e p)) = some canonical ∧
      oj.dumps (.obj (sealedRecord ts e p (sha canonical))) = some line

/--
What is relied on of the serialiser for audit records: `loads` inverts `dumps` on
a terminated line, the text has no line break, and it starts with a brace.
-/
def RoundTrips : Prop :=
  ∀ ts e p h line, oj.dumps (.obj (sealedRecord ts e p h)) = some line →
    oj.loads (line ++ [newline]) = some (.obj (sealedRecord ts e p h)) ∧
      newline ∉ line ∧ line.head? = some 0x7B

end Steps

/-- The keys of a written record, in order. -/
def recordKeys : List PyStr :=
  [lit "ts", lit "actor", lit "tenant", lit "tool", lit "target_qm", lit "params_hash",
    lit "outcome", lit "duration_ms", lit "error", lit "prev_hash", lit "hash"]

theorem map_fst_sealedRecord
    (ts : PyStr) (e : AuditEvent) (p h : PyStr) :
    (sealedRecord ts e p h).map Prod.fst = recordKeys := by
  rfl

theorem nodup_sealedRecord
    (ts : PyStr) (e : AuditEvent) (p h : PyStr) :
    ((sealedRecord ts e p h).map Prod.fst).Nodup := by
  rw [map_fst_sealedRecord]
  decide

/-- One written line, with the serialisations it came from. -/
structure LogEntry (oj : Orjson) (sha : PyBytes → PyStr) where
  ts : PyStr
  event : AuditEvent
  prev : PyStr
  canonical : PyBytes
  line : PyBytes
  hcanonical : oj.dumpsSorted (.obj (linkedRecord ts event prev)) = some canonical
  hline : oj.dumps (.obj (sealedRecord ts event prev (sha canonical))) = some line

namespace LogEntry

variable {oj : Orjson} {sha : PyBytes → PyStr}

def hash (entry : LogEntry oj sha) : PyStr :=
  sha entry.canonical

/-- The event written, with its time stamp. -/
def origin (entry : LogEntry oj sha) : PyStr × AuditEvent :=
  (entry.ts, entry.event)

/-- The record as a dictionary. -/
def dict (entry : LogEntry oj sha) : OrderedDict PyStr Json :=
  ⟨sealedRecord entry.ts entry.event entry.prev entry.hash, nodup_sealedRecord _ _ _ _⟩

@[simp] theorem storedPrev_dict
    (entry : LogEntry oj sha) :
    storedPrev entry.dict = some (.str entry.prev) := by
  rfl

@[simp] theorem hash_dict
    (entry : LogEntry oj sha) :
    entry.dict.get? (lit "hash") = some (.str entry.hash) := by
  rfl

theorem items_erase_dict
    (entry : LogEntry oj sha) :
    (entry.dict.erase (lit "hash")).items =
      linkedRecord entry.ts entry.event entry.prev := by
  rfl

@[simp] theorem recordDigest_dict
    (entry : LogEntry oj sha) :
    recordDigest oj sha entry.dict = some (.str entry.hash) := by
  simp [recordDigest, items_erase_dict, entry.hcanonical, hash]

theorem sealed_dict
    (entry : LogEntry oj sha) :
    Sealed oj sha entry.dict :=
  ⟨entry.canonical, by rw [items_erase_dict, entry.hcanonical], rfl⟩

/-- The line in the file. -/
def fileLine (entry : LogEntry oj sha) : PyBytes :=
  entry.line ++ [newline]

/-- The text of an entry is read back as its dictionary. -/
theorem parseRecord_fileLine
    (hrt : RoundTrips oj) (entry : LogEntry oj sha) :
    parseRecord oj entry.fileLine = some entry.dict := by
  obtain ⟨hload, _, _⟩ := hrt _ _ _ _ _ entry.hline
  have hitems : OrderedDict.ofList
      (sealedRecord entry.ts entry.event entry.prev (sha entry.canonical)) = entry.dict := by
    apply OrderedDict.ext
    exact OrderedDict.items_ofList_of_nodup (nodup_sealedRecord _ _ _ _)
  simp [parseRecord, fileLine, hload, Json.asDict, hitems]

theorem isBlankLine_fileLine
    (hrt : RoundTrips oj) (entry : LogEntry oj sha) :
    isBlankLine entry.fileLine = false := by
  obtain ⟨_, _, hhead⟩ := hrt _ _ _ _ _ entry.hline
  obtain ⟨rest, hrest⟩ := List.head?_eq_some_iff.mp hhead
  rw [fileLine, hrest]
  rfl

end LogEntry

section Invariant

variable {oj : Orjson} {sha : PyBytes → PyStr}

/-- The file that holds the given entries. -/
def fileOf (entries : List (LogEntry oj sha)) : PyBytes :=
  (entries.map LogEntry.fileLine).flatten

/-- The state after the given writes, held in the given entries. -/
structure Represents (st : LogState) (entries : List (LogEntry oj sha))
    (writes : List (PyStr × AuditEvent)) : Prop where
  content : st.file.getD [] = fileOf entries
  origins : entries.map LogEntry.origin = writes
  linked : Linked LogEntry.prev LogEntry.hash genesisHash entries
  remembered : st.prevHash = lastDigest LogEntry.hash genesisHash entries

theorem fileLines_fileOf
    (hrt : RoundTrips oj) (entries : List (LogEntry oj sha)) :
    fileLines (fileOf entries) = entries.map LogEntry.fileLine := by
  have hlines : ∀ l ∈ entries.map LogEntry.line, newline ∉ l := by
    intro l hl
    obtain ⟨entry, _, rfl⟩ := List.mem_map.mp hl
    exact (hrt _ _ _ _ _ entry.hline).2.1
  have hmap : (entries.map LogEntry.line).map (· ++ [newline]) =
      entries.map LogEntry.fileLine := by
    simp [LogEntry.fileLine]
  have := fileLines_flatten hlines
  rwa [hmap] at this

theorem recordLines_of_content
    (hrt : RoundTrips oj) {file : Option PyBytes} {entries : List (LogEntry oj sha)}
    (h : file.getD [] = fileOf entries) :
    recordLines file = entries.map LogEntry.fileLine := by
  rw [recordLines, h, fileLines_fileOf hrt, List.filter_eq_self]
  intro line hline
  obtain ⟨entry, _, rfl⟩ := List.mem_map.mp hline
  simp [entry.isBlankLine_fileLine hrt]

theorem records_of_content
    (hrt : RoundTrips oj) {file : Option PyBytes} {entries : List (LogEntry oj sha)}
    (h : file.getD [] = fileOf entries) :
    records oj file = entries.map LogEntry.dict := by
  rw [records, recordLines_of_content hrt h, List.filterMap_map]
  have hparse : (fun entry : LogEntry oj sha => parseRecord oj entry.fileLine) =
      fun entry => some entry.dict := by
    funext entry
    exact entry.parseRecord_fileLine hrt
  show List.filterMap (fun entry : LogEntry oj sha => parseRecord oj entry.fileLine) entries =
    entries.map LogEntry.dict
  rw [hparse]
  exact congrFun List.filterMap_eq_map entries

/-- The dictionaries of linked entries are linked. -/
theorem linked_dict
    (entries : List (LogEntry oj sha)) :
    ∀ h : PyStr, Linked LogEntry.prev LogEntry.hash h entries →
      Linked storedPrev (recordDigest oj sha) (some (.str h))
        (entries.map LogEntry.dict) := by
  induction entries with
  | nil =>
      intro h _
      trivial
  | cons entry entries ih =>
      intro h hlinked
      obtain ⟨hprev, hrest⟩ := hlinked
      refine ⟨by rw [entry.storedPrev_dict, hprev], ?_⟩
      rw [entry.recordDigest_dict]
      exact ih entry.hash hrest

theorem isHash_lastDigest
    (entries : List (LogEntry oj sha)) :
    IsHash sha (lastDigest LogEntry.hash genesisHash entries) := by
  rcases List.eq_nil_or_concat entries with rfl | ⟨front, entry, rfl⟩
  · exact Or.inl rfl
  · rw [List.concat_eq_append, lastDigest_concat]
    exact Or.inr ⟨entry.canonical, rfl⟩

/-- What a write that goes through does. -/
theorem step_write_eq
    {st st' : LogState} {ts : PyStr} {e : AuditEvent}
    (hstep : step oj sha st (.write ts e) = some st') :
    ∃ canonical line, oj.dumpsSorted (.obj (linkedRecord ts e st.prevHash)) = some canonical ∧
      oj.dumps (.obj (sealedRecord ts e st.prevHash (sha canonical))) = some line ∧
      st' = ⟨some (st.file.getD [] ++ (line ++ [newline])), sha canonical⟩ := by
  simp only [step, write] at hstep
  split at hstep
  · cases hstep
  · next canonical hcanonical =>
      split at hstep
      · cases hstep
      · next line hline =>
          obtain rfl := Option.some_inj.mp hstep
          exact ⟨canonical, line, hcanonical, hline, rfl⟩

namespace Represents

variable {st : LogState} {entries : List (LogEntry oj sha)}
variable {writes : List (PyStr × AuditEvent)}

/-- A represented file passes the verifier. -/
theorem verifyChain_ok
    (h : Represents st entries writes) (hrt : RoundTrips oj) :
    verifyChain oj sha st.file = .ok () := by
  rw [verifyChain_ok_iff, recordLines_of_content hrt h.content,
    records_of_content hrt h.content]
  refine ⟨?_, ?_, linked_dict entries genesisHash h.linked⟩
  · rw [List.forall₂_map_left_iff, List.forall₂_map_right_iff, List.forall₂_same]
    exact fun entry _ => entry.parseRecord_fileLine hrt
  · intro r hr
    obtain ⟨entry, _, rfl⟩ := List.mem_map.mp hr
    exact entry.sealed_dict

/-- The loader finds the hash that the logger remembers. -/
theorem loadLastHash_eq
    (h : Represents st entries writes) (hrt : RoundTrips oj) :
    loadLastHash oj st.file = some st.prevHash := by
  rw [loadLastHash, recordLines_of_content hrt h.content, h.remembered]
  rcases List.eq_nil_or_concat entries with rfl | ⟨front, entry, rfl⟩
  · rfl
  · rw [List.concat_eq_append, lastDigest_concat, List.map_append, List.map_singleton,
      List.getLast?_concat]
    have hparse := entry.parseRecord_fileLine hrt
    obtain ⟨v, hload, hdict⟩ := Option.bind_eq_some_iff.mp hparse
    simp [hload, hdict]

/-- The last record stores the hash that the logger remembers. -/
theorem hash_of_last
    (h : Represents st entries writes) (hrt : RoundTrips oj) :
    (((records oj st.file).getLast?.bind fun r => r.get? (lit "hash")).getD
      (.str genesisHash)) = .str st.prevHash := by
  rw [records_of_content hrt h.content, h.remembered]
  rcases List.eq_nil_or_concat entries with rfl | ⟨front, entry, rfl⟩
  · rfl
  · rw [List.concat_eq_append, lastDigest_concat, List.map_append, List.map_singleton,
      List.getLast?_concat]
    simp

/-- A write that goes through adds the line of an entry. -/
theorem of_step_write
    (h : Represents st entries writes) {st' : LogState} {ts : PyStr} {e : AuditEvent}
    (hstep : step oj sha st (.write ts e) = some st') :
    ∃ entry : LogEntry oj sha,
      st'.file.getD [] = st.file.getD [] ++ entry.fileLine ∧
        Represents st' (entries ++ [entry]) (writes ++ [(ts, e)]) := by
  obtain ⟨canonical, line, hcanonical, hline, rfl⟩ := step_write_eq hstep
  let entry : LogEntry oj sha := ⟨ts, e, st.prevHash, canonical, line, hcanonical, hline⟩
  refine ⟨entry, rfl, ?_⟩
  constructor
  · simp [h.content, fileOf, LogEntry.fileLine, entry]
  · simp [h.origins, LogEntry.origin, entry]
  · exact (linked_concat _ _ _ _ _).mpr ⟨h.linked, h.remembered⟩
  · rw [lastDigest_concat]
    rfl

/-- A serialisable write appends one entry. -/
theorem step_write
    (h : Represents st entries writes) {ts : PyStr} {e : AuditEvent}
    (hw : Writable oj sha ts e) :
    ∃ (st' : LogState) (entry : LogEntry oj sha),
      step oj sha st (.write ts e) = some st' ∧
        Represents st' (entries ++ [entry]) (writes ++ [(ts, e)]) := by
  have hprev : IsHash sha st.prevHash := by
    rw [h.remembered]
    exact isHash_lastDigest entries
  obtain ⟨canonical, line, hcanonical, hline⟩ := hw st.prevHash hprev
  have hstep : step oj sha st (.write ts e) =
      some ⟨some (st.file.getD [] ++ (line ++ [newline])), sha canonical⟩ := by
    simp [step, write, hcanonical, hline]
  obtain ⟨entry, -, hafter⟩ := h.of_step_write hstep
  exact ⟨_, entry, hstep, hafter⟩

/-- A restart changes nothing. -/
theorem step_restart
    (h : Represents st entries writes) (hrt : RoundTrips oj) :
    step oj sha st .restart = some st := by
  simp [step, openLogger, h.loadLastHash_eq hrt]

end Represents

/-- **Runs keep the invariant**, from any represented state. -/
theorem run_represents
    (hrt : RoundTrips oj) (ops : List Op) :
    ∀ (st : LogState) (entries : List (LogEntry oj sha))
      (writes : List (PyStr × AuditEvent)),
      Represents st entries writes →
      (∀ ts e, Op.write ts e ∈ ops → Writable oj sha ts e) →
      ∃ (st' : LogState) (entries' : List (LogEntry oj sha)),
        run oj sha st ops = some st' ∧ Represents st' entries' (writes ++ writesOf ops) := by
  induction ops with
  | nil =>
      intro st entries writes h _
      exact ⟨st, entries, rfl, by simpa [writesOf] using h⟩
  | cons op ops ih =>
      intro st entries writes h hw
      have hw' : ∀ ts e, Op.write ts e ∈ ops → Writable oj sha ts e :=
        fun ts e hmem => hw ts e (List.mem_cons_of_mem _ hmem)
      cases op with
      | write ts e =>
          obtain ⟨st₁, entry, hstep, h₁⟩ := h.step_write (hw ts e (by simp))
          obtain ⟨st', entries', hrun, h'⟩ := ih st₁ _ _ h₁ hw'
          exact ⟨st', entries', by simp [run, hstep, hrun], by simpa [writesOf] using h'⟩
      | restart =>
          obtain ⟨st', entries', hrun, h'⟩ := ih st entries writes h hw'
          exact ⟨st', entries', by simp [run, h.step_restart hrt, hrun],
            by simpa [writesOf] using h'⟩

theorem represents_start
    {file : Option PyBytes} (hfile : file = none ∨ file = some []) :
    Represents ⟨file, genesisHash⟩ ([] : List (LogEntry oj sha)) [] := by
  constructor
  · rcases hfile with rfl | rfl <;> rfl
  · rfl
  · trivial
  · rfl

/-- The record of a write: its own fields, a previous hash and a hash. -/
def IsRecordOf (r : OrderedDict PyStr Json) (w : PyStr × AuditEvent) : Prop :=
  ∃ p h, r.items = sealedRecord w.1 w.2 p h

/--
**The audit chain over whole runs.**  From a missing or empty file, every run of
serialisable writes and restarts goes through; afterwards the file passes the
verifier, holds one record for each write in order, and the logger remembers the
hash of the last one.
-/
theorem audit_chain_invariant
    (hrt : RoundTrips oj)
    (file : Option PyBytes) (hfile : file = none ∨ file = some [])
    (ops : List Op)
    (hw : ∀ ts e, Op.write ts e ∈ ops → Writable oj sha ts e) :
    ∃ st, (openLogger oj file).bind (fun st₀ => run oj sha st₀ ops) = some st ∧
      verifyChain oj sha st.file = .ok () ∧
      List.Forall₂ IsRecordOf (records oj st.file) (writesOf ops) ∧
      ((records oj st.file).getLast?.bind fun r => r.get? (lit "hash")).getD
        (.str genesisHash) = .str st.prevHash := by
  have hstart : Represents ⟨file, genesisHash⟩ ([] : List (LogEntry oj sha)) [] :=
    represents_start hfile
  have hopen : openLogger oj file = some ⟨file, genesisHash⟩ := by
    have := hstart.loadLastHash_eq hrt
    simp only at this
    simp [openLogger, this]
  obtain ⟨st, entries, hrun, h⟩ := run_represents hrt ops _ _ _ hstart hw
  refine ⟨st, by simp [hopen, hrun], h.verifyChain_ok hrt, ?_, h.hash_of_last hrt⟩
  have horigins : entries.map LogEntry.origin = writesOf ops := by
    simpa using h.origins
  rw [records_of_content hrt h.content, ← horigins, List.forall₂_map_left_iff,
    List.forall₂_map_right_iff, List.forall₂_same]
  exact fun entry _ => ⟨entry.prev, entry.hash, rfl⟩

end Invariant

section Sample

/-- `dumps` restricted to the values it can read back. -/
def readableOrjson (known : List Json) : Orjson :=
  { Orjson.reference known with
    dumps := fun v => if v ∈ known then some v.text else none }

theorem roundTrips_readableOrjson
    {known : List Json}
    (h : ∀ v ∈ known, (readableOrjson known).loads (v.text ++ [newline]) = some v ∧
      newline ∉ v.text ∧ v.text.head? = some 0x7B) :
    RoundTrips (readableOrjson known) := by
  intro ts e p hash line hline
  simp only [readableOrjson] at hline
  split_ifs at hline with hknown
  obtain rfl := Option.some.inj hline
  exact h _ hknown

def sampleTime : PyStr :=
  lit "2026-01-01T00:00:00+00:00"

def sampleEvent : AuditEvent where
  actor := lit "ann"
  tenant := none
  tool := lit "diagnose_qm"
  targetQm := some (lit "QM1")
  paramsHash := lit "ab12"
  outcome := lit "ok"
  durationMs := 7

/-- SHA-256 of the first sample record. -/
def firstHash : PyStr :=
  lit "a847ce95501c4c15d1fda5714d098cb9e05287cd7b88bfad96409b912c6e2859"

/-- SHA-256 of the second sample record. -/
def secondHash : PyStr :=
  lit "565c84e42a2f4902572a223c43b487a92b5fc62e2c0a0e44e85a5a70b1972635"

/-- The canonical text of the sample record with the given predecessor. -/
def sampleCanonical (prev : PyStr) : PyBytes :=
  (Json.obj (linkedRecord sampleTime sampleEvent prev)).sortKeys.text

def sampleSha (b : PyBytes) : PyStr :=
  if b = sampleCanonical genesisHash then firstHash else secondHash

/-- The sample record in a chain. -/
def sampleRecord (prev : PyStr) : Json :=
  .obj (sealedRecord sampleTime sampleEvent prev (sampleSha (sampleCanonical prev)))

def sampleOrjson : Orjson :=
  readableOrjson
    [sampleRecord genesisHash, sampleRecord firstHash, sampleRecord secondHash]

theorem roundTrips_sampleOrjson :
    RoundTrips sampleOrjson :=
  roundTrips_readableOrjson (by decide +kernel)

theorem writable_sampleEvent :
    Writable sampleOrjson sampleSha sampleTime sampleEvent := by
  have hdump : ∀ p ∈ [genesisHash, firstHash, secondHash],
      sampleOrjson.dumpsSorted (.obj (linkedRecord sampleTime sampleEvent p)) =
          some (sampleCanonical p) ∧
        sampleOrjson.dumps (sampleRecord p) = some (sampleRecord p).text := by
    decide +kernel
  intro p hp
  have hmem : p ∈ [genesisHash, firstHash, secondHash] := by
    rcases hp with rfl | ⟨b, rfl⟩
    · simp
    · unfold sampleSha
      split_ifs <;> simp
  obtain ⟨hcanonical, hline⟩ := hdump p hmem
  exact ⟨sampleCanonical p, (sampleRecord p).text, hcanonical, hline⟩

/-- Two writes with a restart between them. -/
def sampleOps : List Op :=
  [.write sampleTime sampleEvent, .restart, .write sampleTime sampleEvent]

theorem audit_chain_invariant_two_writes :
    ∃ st, (openLogger sampleOrjson none).bind
        (fun st₀ => run sampleOrjson sampleSha st₀ sampleOps) = some st ∧
      verifyChain sampleOrjson sampleSha st.file = .ok () ∧
      List.Forall₂ IsRecordOf (records sampleOrjson st.file) (writesOf sampleOps) ∧
      ((records sampleOrjson st.file).getLast?.bind fun r => r.get? (lit "hash")).getD
        (.str genesisHash) = .str st.prevHash := by
  refine audit_chain_invariant roundTrips_sampleOrjson none (Or.inl rfl) sampleOps ?_
  intro ts e hmem
  have hsample : ts = sampleTime ∧ e = sampleEvent := by
    simpa [sampleOps] using hmem
  obtain ⟨rfl, rfl⟩ := hsample
  exact writable_sampleEvent

end Sample

end Audit
end MqSentinel
