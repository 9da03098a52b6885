import MqSentinel.AuditRuns
import MqSentinel.JsonScan

/-!
# A crash in the middle of an append

A crash may leave any part of the last append in the file.  A logger that is opened
then reads the last line: a whole record gives its hash, and a torn one gives the
genesis hash.  In both cases the next record is written behind what is there, with no
line break between them, so that one line holds the torn record and the new one.

No such line is JSON (`JsonScan`).  The log is accepted after the crash exactly when
nothing or all of the append is left, or when only the line break is missing and
nothing is written any more.
-/

namespace MqSentinel
namespace Audit

open HashChain JsonScan

/--
What is relied on of the serialiser for object texts: `loads` accepts complete texts
only and ignores a line break at the end, and `dumps` ends an object with a brace.
-/
structure StrictObjects (oj : Orjson) : Prop where
  loads_complete : ∀ text v, oj.loads text = some v → text.head? = some 0x7B → Complete text
  loads_newline : ∀ text, newline ∉ text → oj.loads (text ++ [newline]) = oj.loads text
  dumps_brace : ∀ items line, oj.dumps (.obj items) = some line →
    line.getLast? = some 0x7D

/-- The bytes of the file. -/
def LogState.content (st : LogState) : PyBytes :=
  st.file.getD []

/-- What an operation between two states added to the file. -/
def appended (st st' : LogState) : PyBytes :=
  st'.content.drop st.content.length

/-- The file after a crash that left `kept` bytes of the append. -/
def tornFile (st st' : LogState) (kept : Nat) : PyBytes :=
  st.content ++ (appended st st').take kept

section Lines

/-- Lines that end in a line break can be read apart from what follows. -/
theorem fileLines_append
    {lines : List PyBytes} (hlines : ∀ l ∈ lines, newline ∉ l) (rest : PyBytes) :
    fileLines ((lines.map (· ++ [newline])).flatten ++ rest) =
      lines.map (· ++ [newline]) ++ fileLines rest := by
  induction lines with
  | nil =>
      rfl
  | cons l lines ih =>
      have hl : newline ∉ l := hlines l (by simp)
      have htail := ih fun x hx => hlines x (List.mem_cons_of_mem _ hx)
      simp only [List.map_cons, List.flatten_cons, List.append_assoc, List.cons_append,
        List.nil_append]
      rw [fileLines_line hl, htail]

/-- A last line without its line break. -/
theorem fileLines_torn
    {line : PyBytes} (hline : newline ∉ line) (hne : line ≠ []) :
    fileLines line = [line] := by
  induction line with
  | nil => exact absurd rfl hne
  | cons b line ih =>
      have hb : b ≠ newline := fun h => hline (by simp [h])
      have htail : newline ∉ line := fun h => hline (List.mem_cons_of_mem _ h)
      cases line with
      | nil => simp [fileLines, hb]
      | cons c line =>
          rw [fileLines, if_neg hb, ih htail (by simp)]

end Lines

section Crash

variable {oj : Orjson} {sha : PyBytes → PyStr}
variable {st st' : LogState} {entries : List (LogEntry oj sha)}
variable {writes : List (PyStr × AuditEvent)}

/-- A run that goes through keeps the entries and adds to them. -/
theorem Represents.of_run
    (hrt : RoundTrips oj) (ops : List Op) :
    ∀ {st : LogState} {entries : List (LogEntry oj sha)} {writes : List (PyStr × AuditEvent)},
      Represents st entries writes → run oj sha st ops = some st' →
      ∃ new, Represents st' (entries ++ new) (writes ++ writesOf ops) := by
  induction ops with
  | nil =>
      intro st entries writes h hrun
      obtain rfl := Option.some_inj.mp hrun
      exact ⟨[], by simpa [writesOf] using h⟩
  | cons op ops ih =>
      intro st entries writes h hops
      obtain ⟨st₁, hstep, hrun⟩ := Option.bind_eq_some_iff.mp hops
      cases op with
      | write ts e =>
          obtain ⟨entry, _, h₁⟩ := h.of_step_write hstep
          obtain ⟨new, h'⟩ := ih h₁ hrun
          exact ⟨entry :: new, by simpa [writesOf] using h'⟩
      | restart =>
          rw [h.step_restart hrt, Option.some_inj] at hstep
          obtain rfl := hstep
          exact ih h hrun

/-- A represented log stays accepted and keeps its records. -/
theorem Represents.survives
    (h : Represents st entries writes) (hrt : RoundTrips oj) {ops : List Op}
    (hrun : run oj sha st ops = some st') :
    verifyChain oj sha st'.file = .ok () ∧
      ∀ r ∈ records oj st.file, r ∈ records oj st'.file := by
  obtain ⟨new, h'⟩ := Represents.of_run hrt ops h hrun
  refine ⟨h'.verifyChain_ok hrt, ?_⟩
  rw [records_of_content hrt h.content, records_of_content hrt h'.content, List.map_append]
  intro r hr
  exact List.mem_append_left _ hr

/-- A whole log is opened again and survives. -/
theorem Represents.reopened_survives
    (h : Represents st entries writes) (hrt : RoundTrips oj) :
    ∃ st₀, openLogger oj (some st.content) = some st₀ ∧
      ∀ later st₁, run oj sha st₀ later = some st₁ →
        verifyChain oj sha st₁.file = .ok () ∧
          ∀ r ∈ records oj (some st.content), r ∈ records oj st₁.file := by
  have hreopened : Represents ⟨some st.content, st.prevHash⟩ entries writes :=
    ⟨h.content, h.origins, h.linked, h.remembered⟩
  have hload := hreopened.loadLastHash_eq hrt
  exact ⟨⟨some st.content, st.prevHash⟩, by simpa [openLogger] using hload,
    fun later st₁ hrun => hreopened.survives hrt hrun⟩

/-- Whatever is done with a log, its bytes stay, and the first write goes behind them. -/
theorem run_appends
    (ops : List Op) :
    ∀ {st : LogState}, run oj sha st ops = some st' →
      (writesOf ops = [] ∧ st'.content = st.content) ∨ writesOf ops ≠ [] ∧
        ∃ ts e p h line rest, oj.dumps (.obj (sealedRecord ts e p h)) = some line ∧
          st'.content = st.content ++ (line ++ newline :: rest) := by
  induction ops with
  | nil =>
      intro st hrun
      obtain rfl := Option.some_inj.mp hrun
      exact Or.inl ⟨rfl, rfl⟩
  | cons op ops ih =>
      intro st hops
      obtain ⟨st₁, hstep, hrun⟩ := Option.bind_eq_some_iff.mp hops
      cases op with
      | write ts e =>
          obtain ⟨canonical, line, _, hline, rfl⟩ := step_write_eq hstep
          refine Or.inr ⟨by simp [writesOf], ts, e, st.prevHash, sha canonical, line, ?_⟩
          rcases ih hrun with ⟨_, hcontent⟩ | ⟨_, _, _, _, _, line', rest, _, hcontent⟩
          · exact ⟨[], hline, hcontent⟩
          · refine ⟨line' ++ newline :: rest, hline, ?_⟩
            rw [hcontent]
            simp [LogState.content]
      | restart =>
          obtain ⟨h, _, rfl⟩ := Option.map_eq_some_iff.mp hstep
          have hagain : run oj sha ⟨st.file, h⟩ ops = some st' := hrun
          simpa [LogState.content, writesOf] using ih hagain

/-- The lines of an accepted file are JSON. -/
theorem loads_of_accepted
    {file : Option PyBytes} (h : verifyChain oj sha file = .ok ())
    {line : PyBytes} (hline : line ∈ recordLines file) :
    ∃ v, oj.loads line = some v := by
  obtain ⟨hparsed, _, _⟩ := (verifyChain_ok_iff file).mp h
  generalize recordLines file = lines at hparsed hline
  generalize records oj file = rs at hparsed
  induction hparsed with
  | nil => cases hline
  | cons hhead _ ih =>
      rcases List.mem_cons.mp hline with rfl | hline
      · obtain ⟨v, hv, _⟩ := Option.bind_eq_some_iff.mp hhead
        exact ⟨v, hv⟩
      · exact ih hline

/-- The lines behind the entries. -/
theorem recordLines_append
    (hrt : RoundTrips oj) (entries : List (LogEntry oj sha)) (rest : PyBytes) :
    recordLines (some (fileOf entries ++ rest)) =
      entries.map LogEntry.fileLine ++ recordLines (some rest) := by
  have hlines : ∀ l ∈ entries.map LogEntry.line, newline ∉ l := by
    intro l hl
    obtain ⟨entry, _, rfl⟩ := List.mem_map.mp hl
    exact (hrt _ _ _ _ _ entry.hline).2.1
  have hmap : (entries.map LogEntry.line).map (· ++ [newline]) =
      entries.map LogEntry.fileLine := by
    simp [LogEntry.fileLine]
  have hfile := fileLines_append hlines rest
  rw [hmap] at hfile
  have hwhole : ∀ line ∈ entries.map LogEntry.fileLine, (!isBlankLine line) = true := by
    intro line hline
    obtain ⟨entry, _, rfl⟩ := List.mem_map.mp hline
    simp [entry.isBlankLine_fileLine hrt]
  rw [recordLines, Option.getD_some, fileOf, hfile, List.filter_append,
    List.filter_eq_self.mpr hwhole]
  rfl

theorem LogEntry.complete_fileLine
    (hrt : RoundTrips oj) (hstrict : StrictObjects oj) (entry : LogEntry oj sha) :
    Complete entry.fileLine := by
  obtain ⟨hload, _, hhead⟩ := hrt _ _ _ _ _ entry.hline
  refine hstrict.loads_complete _ _ hload ?_
  rw [LogEntry.fileLine, List.head?_append, hhead]
  rfl

/-- A text that starts with a brace is a line to be read. -/
theorem recordLines_of_brace
    {line : PyBytes} (hline : newline ∉ line) (hhead : line.head? = some 0x7B) :
    recordLines (some line) = [line] ∧
      ∀ rest, ∃ lines, recordLines (some (line ++ newline :: rest)) =
        (line ++ [newline]) :: lines := by
  obtain ⟨tail, rfl⟩ := List.head?_eq_some_iff.mp hhead
  have hblank : ∀ back, isBlankLine (0x7B :: tail ++ back) = false := by
    intro back
    rfl
  constructor
  · rw [recordLines, Option.getD_some, fileLines_torn hline (by simp)]
    simpa using hblank []
  · intro rest
    refine ⟨recordLines (some rest), ?_⟩
    rw [recordLines, Option.getD_some, fileLines_line hline, List.filter_cons,
      hblank [newline]]
    rfl

/-- A cut in front of the last brace leaves a text that is not JSON. -/
theorem LogEntry.not_complete_take
    (hrt : RoundTrips oj) (hstrict : StrictObjects oj) (entry : LogEntry oj sha) {kept : Nat}
    (hkept : kept < entry.line.length) :
    ¬ Complete (entry.line.take kept) := by
  have hlast := hstrict.dumps_brace _ _ entry.hline
  have hwhole := entry.complete_fileLine hrt hstrict
  rw [LogEntry.fileLine, ← List.take_append_drop kept entry.line, List.append_assoc] at hwhole
  refine not_complete_of_cut hwhole ⟨0x7D, ?_, rfl⟩
  have hdrop : (entry.line.drop kept).getLast? = some 0x7D := by
    rw [List.getLast?_drop, if_neg (by omega), hlast]
  exact List.mem_append_left _ (List.mem_of_getLast? hdrop)

/-- The torn log is not accepted, whatever is written behind it. -/
theorem not_accepted_of_torn
    (hrt : RoundTrips oj) (hstrict : StrictObjects oj)
    (entry : LogEntry oj sha) {kept : Nat} (hpos : 0 < kept) (hkept : kept ≤ entry.line.length)
    {st₀ : LogState} (hfile : st₀.content = fileOf entries ++ entry.line.take kept)
    {later : List Op} (hlater : kept = entry.line.length → writesOf later ≠ [])
    (hrun : run oj sha st₀ later = some st') :
    verifyChain oj sha st'.file ≠ .ok () := by
  intro haccepted
  obtain ⟨_, hnewline, hhead⟩ := hrt _ _ _ _ _ entry.hline
  have hcut : newline ∉ entry.line.take kept :=
    fun hmem => hnewline (List.mem_of_mem_take hmem)
  have hbrace : (entry.line.take kept).head? = some 0x7B := by
    rw [List.head?_take, if_neg (by omega), hhead]
  have hread : ∀ line, line ∈ recordLines (some st'.content) → line.head? = some 0x7B →
      Complete line := by
    intro line hline hfirst
    have hsame : recordLines st'.file = recordLines (some st'.content) := rfl
    rw [← hsame] at hline
    obtain ⟨v, hv⟩ := loads_of_accepted haccepted hline
    exact hstrict.loads_complete _ _ hv hfirst
  rcases run_appends later hrun with
    ⟨hnone, hcontent⟩ | ⟨_, ts, e, p, h, line, rest, hline, hcontent⟩
  · have hshort : kept < entry.line.length := by
      rcases hkept.lt_or_eq with hlt | heq
      · exact hlt
      · exact absurd hnone (hlater heq)
    refine entry.not_complete_take hrt hstrict hshort (hread _ ?_ hbrace)
    rw [hcontent, hfile, recordLines_append hrt, (recordLines_of_brace hcut hbrace).1]
    exact List.mem_append_right _ (List.mem_singleton.mpr rfl)
  · obtain ⟨hload, hbreak, hfirst⟩ := hrt _ _ _ _ _ hline
    have hglued : newline ∉ entry.line.take kept ++ line := by
      simp [hcut, hbreak]
    have hglued_brace : (entry.line.take kept ++ line).head? = some 0x7B := by
      rw [List.head?_append, hbrace]
      rfl
    obtain ⟨lines, hlines⟩ := (recordLines_of_brace hglued hglued_brace).2 rest
    have hcomplete : Complete (line ++ [newline]) :=
      hstrict.loads_complete _ _ hload (by rw [List.head?_append, hfirst]; rfl)
    have hne : entry.line.take kept ≠ [] := by
      intro hnil
      rw [hnil] at hbrace
      cases hbrace
    refine not_complete_append hne hcomplete ?_
    rw [← List.append_assoc]
    refine hread _ ?_ (by rw [List.head?_append, hglued_brace]; rfl)
    rw [hcontent, hfile, List.append_assoc, ← List.append_assoc (entry.line.take kept),
      recordLines_append hrt, hlines]
    exact List.mem_append_right _ (List.mem_cons_self)

/-- Without its line break the last record can still be read. -/
theorem parseRecord_line
    (hrt : RoundTrips oj) (hstrict : StrictObjects oj) (entry : LogEntry oj sha) :
    parseRecord oj entry.line = some entry.dict := by
  have hnewline := (hrt _ _ _ _ _ entry.hline).2.1
  have hwhole := entry.parseRecord_fileLine hrt
  rwa [parseRecord, LogEntry.fileLine, hstrict.loads_newline _ hnewline] at hwhole

/-- A log that misses its last line break is opened, and accepted as it is. -/
theorem Represents.without_newline
    {entry : LogEntry oj sha} (h : Represents st (entries ++ [entry]) writes)
    (hrt : RoundTrips oj) (hstrict : StrictObjects oj) :
    (∃ hash, loadLastHash oj (some (fileOf entries ++ entry.line)) = some hash) ∧
      verifyChain oj sha (some (fileOf entries ++ entry.line)) = .ok () := by
  obtain ⟨_, hnewline, hhead⟩ := hrt _ _ _ _ _ entry.hline
  have hparse := parseRecord_line hrt hstrict entry
  have hlines : recordLines (some (fileOf entries ++ entry.line)) =
      entries.map LogEntry.fileLine ++ [entry.line] := by
    rw [recordLines_append hrt, (recordLines_of_brace hnewline hhead).1]
  have hforall : List.Forall₂ (fun line r => parseRecord oj line = some r)
      (entries.map LogEntry.fileLine ++ [entry.line]) ((entries ++ [entry]).map LogEntry.dict) := by
    rw [List.map_append]
    refine List.rel_append ?_ (List.Forall₂.cons hparse List.Forall₂.nil)
    rw [List.forall₂_map_left_iff, List.forall₂_map_right_iff, List.forall₂_same]
    exact fun entry _ => entry.parseRecord_fileLine hrt
  have hrecords : records oj (some (fileOf entries ++ entry.line)) =
      (entries ++ [entry]).map LogEntry.dict := by
    rw [records, hlines]
    exact filterMap_eq_of_forall₂ hforall
  constructor
  · obtain ⟨v, hload, hdict⟩ := Option.bind_eq_some_iff.mp hparse
    refine ⟨entry.hash, ?_⟩
    rw [loadLastHash, hlines, List.getLast?_concat]
    simp [hload, hdict]
  · rw [verifyChain_ok_iff, hlines, hrecords]
    refine ⟨hforall, ?_, linked_dict _ _ h.linked⟩
    intro r hr
    obtain ⟨entry, _, rfl⟩ := List.mem_map.mp hr
    exact entry.sealed_dict

/-- A torn record is taken for the start of a new chain. -/
theorem loadLastHash_torn
    (hrt : RoundTrips oj) (hstrict : StrictObjects oj)
    (entry : LogEntry oj sha) {kept : Nat} (hpos : 0 < kept) (hkept : kept < entry.line.length) :
    loadLastHash oj (some (fileOf entries ++ entry.line.take kept)) = some genesisHash := by
  obtain ⟨_, hnewline, hhead⟩ := hrt _ _ _ _ _ entry.hline
  have hcut : newline ∉ entry.line.take kept :=
    fun hmem => hnewline (List.mem_of_mem_take hmem)
  have hbrace : (entry.line.take kept).head? = some 0x7B := by
    rw [List.head?_take, if_neg (by omega), hhead]
  have hload : oj.loads (entry.line.take kept) = none := by
    cases hv : oj.loads (entry.line.take kept) with
    | none => rfl
    | some v =>
        exact absurd (hstrict.loads_complete _ _ hv hbrace)
          (entry.not_complete_take hrt hstrict hkept)
  rw [loadLastHash, recordLines_append hrt, (recordLines_of_brace hcut hbrace).1,
    List.getLast?_concat]
  simp [hload]

/-- The cuts that do no harm: nothing is lost or nothing is left of the append, or only the
line break is missing and nothing is written any more. -/
def HarmlessCut (st st' : LogState) (kept : Nat) (later : List Op) : Prop :=
  kept = 0 ∨ (appended st st').length ≤ kept ∨
    (kept + 1 = (appended st st').length ∧ writesOf later = [])

/--
**Crashes in the middle of an append.**  After every run from a missing or empty file and
one more write, of which a crash leaves `kept` bytes, the log can be opened again.  What
is done with it then leaves a file that the verifier accepts, with every record that the
crash left whole, exactly when the cut does no harm.
-/
theorem crash_survived_iff
    (hrt : RoundTrips oj) (hstrict : StrictObjects oj)
    {file : Option PyBytes} (hfile : file = none ∨ file = some [])
    {ops : List Op} (hops : (openLogger oj file).bind (fun st => run oj sha st ops) = some st)
    {ts : PyStr} {e : AuditEvent} (hlast : step oj sha st (.write ts e) = some st')
    (kept : Nat) :
    ∃ st₀, openLogger oj (some (tornFile st st' kept)) = some st₀ ∧
      ∀ later st₁, run oj sha st₀ later = some st₁ →
        ((verifyChain oj sha st₁.file = .ok () ∧
            ∀ r ∈ records oj (some (tornFile st st' kept)), r ∈ records oj st₁.file) ↔
          HarmlessCut st st' kept later) := by
  have hstart : Represents ⟨file, genesisHash⟩ ([] : List (LogEntry oj sha)) [] :=
    represents_start hfile
  have hopen : openLogger oj file = some ⟨file, genesisHash⟩ := by
    have hload := hstart.loadLastHash_eq hrt
    simp only at hload
    simp [openLogger, hload]
  rw [hopen, Option.bind_some] at hops
  obtain ⟨entries, h⟩ := Represents.of_run hrt ops hstart hops
  obtain ⟨entry, hfile', h'⟩ := h.of_step_write hlast
  have hcontent : st'.content = st.content ++ entry.fileLine := hfile'
  rw [List.nil_append] at h h'
  have happended : appended st st' = entry.fileLine := by
    rw [appended, hcontent, List.drop_left]
  have hlength : entry.fileLine.length = entry.line.length + 1 := by
    simp [LogEntry.fileLine]
  have hentries : st.content = fileOf entries := h.content
  simp only [HarmlessCut, tornFile, happended]
  rcases Nat.eq_zero_or_pos kept with rfl | hpos
  · rw [List.take_zero, List.append_nil]
    obtain ⟨st₀, hst₀, hall⟩ := h.reopened_survives hrt
    exact ⟨st₀, hst₀, fun later st₁ hrun => iff_of_true (hall later st₁ hrun) (Or.inl rfl)⟩
  rcases Nat.lt_or_ge kept entry.fileLine.length with hshort | hwhole
  swap
  · rw [List.take_of_length_le hwhole, ← hcontent]
    obtain ⟨st₀, hst₀, hall⟩ := h'.reopened_survives hrt
    exact ⟨st₀, hst₀, fun later st₁ hrun =>
      iff_of_true (hall later st₁ hrun) (Or.inr (Or.inl hwhole))⟩
  have hkept : kept ≤ entry.line.length := by omega
  have htorn : entry.fileLine.take kept = entry.line.take kept := by
    rw [LogEntry.fileLine, List.take_append_of_le_length hkept]
  rw [htorn, hentries]
  have hload : ∃ hash, loadLastHash oj (some (fileOf entries ++ entry.line.take kept)) =
      some hash := by
    rcases hkept.lt_or_eq with hlt | rfl
    · exact ⟨genesisHash, loadLastHash_torn hrt hstrict entry hpos hlt⟩
    · rw [List.take_length]
      exact (h'.without_newline hrt hstrict).1
  obtain ⟨hash, hload⟩ := hload
  refine ⟨⟨some (fileOf entries ++ entry.line.take kept), hash⟩, by simp [openLogger, hload], ?_⟩
  intro later st₁ hrun
  by_cases hquiet : kept = entry.line.length ∧ writesOf later = []
  · refine iff_of_true ?_ (Or.inr (Or.inr ⟨by omega, hquiet.2⟩))
    have hsame : st₁.content = fileOf entries ++ entry.line := by
      rcases run_appends later hrun with ⟨_, hcontent₁⟩ | ⟨hwrites, _⟩
      · rw [hcontent₁, hquiet.1, List.take_length]
        rfl
      · exact absurd hquiet.2 hwrites
    have hlines : recordLines st₁.file = recordLines (some (fileOf entries ++ entry.line)) := by
      rw [← hsame]
      rfl
    have hrecords : records oj st₁.file = records oj (some (fileOf entries ++ entry.line)) := by
      rw [records, hlines, records]
    rw [hquiet.1, List.take_length, verifyChain_ok_iff, hlines, hrecords, ← verifyChain_ok_iff]
    exact ⟨(h'.without_newline hrt hstrict).2, fun r hr => hr⟩
  · refine iff_of_false ?_ ?_
    · rintro ⟨haccepted, _⟩
      exact not_accepted_of_torn hrt hstrict entry hpos hkept rfl
        (fun heq hnone => hquiet ⟨heq, hnone⟩) hrun haccepted
    · rintro (hzero | hle | ⟨hlast, hnone⟩)
      · omega
      · omega
      · exact hquiet ⟨by omega, hnone⟩

end Crash

section Sample

theorem strictObjects_sampleOrjson :
    StrictObjects sampleOrjson := by
  have hknown : ∀ v ∈ [sampleRecord genesisHash, sampleRecord firstHash, sampleRecord secondHash],
      Complete v.text ∧ Complete (v.text ++ [newline]) ∧ newline ∉ v.text ∧
        v.text.getLast? = some 0x7D := by
    decide +kernel
  constructor
  · intro text v hv _
    have hmem := List.mem_of_find?_eq_some hv
    have htext := List.find?_some hv
    simp only [Bool.or_eq_true, beq_iff_eq] at htext
    rcases htext with rfl | rfl
    · exact (hknown v hmem).1
    · exact (hknown v hmem).2.1
  · intro text htext
    have hloads : ∀ b, sampleOrjson.loads b =
        [sampleRecord genesisHash, sampleRecord firstHash, sampleRecord secondHash].find?
          fun v => v.text == b || v.text ++ [0x0A] == b := fun _ => rfl
    rw [hloads, hloads]
    refine List.find?_congr fun v hv => ?_
    have hlong : (v.text == text ++ [newline]) = false := by
      rw [beq_eq_false_iff_ne]
      intro heq
      exact (hknown v hv).2.2.1 (by simp [heq])
    have hback : (v.text ++ [0x0A] == text) = false := by
      rw [beq_eq_false_iff_ne]
      rintro rfl
      simp [newline] at htext
    rw [hlong, hback, Bool.false_or, Bool.or_false, Bool.eq_iff_iff]
    simp [newline]
  · intro items line hline
    simp only [sampleOrjson, readableOrjson] at hline
    split_ifs at hline with hmem
    obtain rfl := Option.some_inj.mp hline
    exact (hknown _ hmem).2.2.2

/-- A log of one record. -/
def oneRecord : LogState where
  file := some ((sampleRecord genesisHash).text ++ [newline])
  prevHash := firstHash

/-- A log of two records. -/
def twoRecords : LogState where
  file := some ((sampleRecord genesisHash).text ++ [newline] ++
    ((sampleRecord firstHash).text ++ [newline]))
  prevHash := secondHash

theorem run_oneRecord :
    (openLogger sampleOrjson none).bind (fun st =>
      run sampleOrjson sampleSha st [.write sampleTime sampleEvent]) = some oneRecord := by
  decide +kernel

theorem step_twoRecords :
    step sampleOrjson sampleSha oneRecord (.write sampleTime sampleEvent) =
      some twoRecords := by
  decide +kernel

theorem crash_survived_iff_sample :
    ∃ st₀, openLogger sampleOrjson (some (tornFile oneRecord twoRecords 10)) = some st₀ ∧
      ∀ later st₁, run sampleOrjson sampleSha st₀ later = some st₁ →
        ((verifyChain sampleOrjson sampleSha st₁.file = .ok () ∧
            ∀ r ∈ records sampleOrjson (some (tornFile oneRecord twoRecords 10)),
              r ∈ records sampleOrjson st₁.file) ↔
          HarmlessCut oneRecord twoRecords 10 later) :=
  crash_survived_iff roundTrips_sampleOrjson strictObjects_sampleOrjson (Or.inl rfl)
    run_oneRecord step_twoRecords 10

/-- Ten bytes of the second record, and the next record behind them: no chain any more. -/
theorem torn_append_breaks_chain :
    (openLogger sampleOrjson none).bind (fun st =>
        run sampleOrjson sampleSha st [.write sampleTime sampleEvent]) = some oneRecord ∧
      step sampleOrjson sampleSha oneRecord (.write sampleTime sampleEvent) =
        some twoRecords ∧
      ∃ st₀ st₁, openLogger sampleOrjson (some (tornFile oneRecord twoRecords 10)) = some st₀ ∧
        run sampleOrjson sampleSha st₀ [.write sampleTime sampleEvent] = some st₁ ∧
        verifyChain sampleOrjson sampleSha st₁.file = .error .invalidJson := by
  refine ⟨run_oneRecord, step_twoRecords,
    ⟨some (tornFile oneRecord twoRecords 10), genesisHash⟩,
    ⟨some (tornFile oneRecord twoRecords 10 ++ ((sampleRecord genesisHash).text ++ [newline])),
      firstHash⟩, ?_⟩
  decide +kernel

end Sample

end Audit
end MqSentinel
