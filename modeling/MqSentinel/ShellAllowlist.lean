import MqSentinel.PyText
import MqSentinel.RegexAnchors

/-!
# The shell guard

`assert_shell_allowed` joins the arguments with blanks and matches the line against the
pattern of the binary; what runs afterwards is the list itself.  `\s+` and `$` let a line
through that the list does not stand for: an argument may be empty, may hold the white
space that the pattern expects between two arguments, or may end in a line feed.  Where
every argument is a word, the guard judges what runs.
-/

namespace MqSentinel
namespace Allowlist

open Regex CodePoint

/-- A character of `[A-Z0-9._%/]`. -/
def isQmNameChar (c : CodePoint) : Bool :=
  c.isUpperAscii || c.isDigitAscii || decide (c ∈ lit "._%/")

/-- `[A-Z0-9._%/]{1,48}` -/
def qmName : Rx CodePoint :=
  Rx.seq (Rx.cls isQmNameChar) (Rx.atMost (Rx.cls isQmNameChar) 47)

/-- `\s+` -/
def gap : Rx CodePoint :=
  Rx.plus (Rx.cls isSpace)

/-- A character of `[a-z0-9_-]`. -/
def isResourceChar (c : CodePoint) : Bool :=
  c.isLowerAscii || c.isDigitAscii || decide (c ∈ lit "_-")

section Patterns

variable (U : UnicodeData)

/-- `-[mnosxa]|-o\s+\w+` -/
def dspmqFlag : Rx CodePoint :=
  Rx.alt (Rx.seq (litRx "-") (Rx.cls fun c => decide (c ∈ lit "mnosxa")))
    (Rx.seq (litRx "-o") (Rx.seq gap (Rx.plus (Rx.cls U.isWord))))

/-- `|(-[mnosxa]|-o\s+\w+)(\s+(-[mnosxa]|-o\s+\w+))*` -/
def dspmqArgs : Rx CodePoint :=
  Rx.alt Rx.eps (Rx.seq (dspmqFlag U) (Rx.star (Rx.seq gap (dspmqFlag U))))

/-- `|-[pf]` -/
def dspmqverArgs : Rx CodePoint :=
  Rx.alt Rx.eps (Rx.seq (litRx "-") (Rx.cls fun c => decide (c ∈ lit "pf")))

/-- `|-m\s+[A-Z0-9._%/]{1,48}` -/
def rdqmstatusArgs : Rx CodePoint :=
  Rx.alt Rx.eps (Rx.seq (litRx "-m") (Rx.seq gap qmName))

/-- `|-[1rnfA]+` -/
def crmMonArgs : Rx CodePoint :=
  Rx.alt Rx.eps (Rx.seq (litRx "-") (Rx.plus (Rx.cls fun c => decide (c ∈ lit "1rnfA"))))

/-- `status(\s+[a-z0-9_-]+)?` -/
def drbdadmArgs : Rx CodePoint :=
  Rx.seq (litRx "status") (Rx.opt (Rx.seq gap (Rx.plus (Rx.cls isResourceChar))))

/-- The diagnostic binaries, with what stands between `^` and `$` in their patterns. -/
def shellArgs : List (PyStr × Rx CodePoint) :=
  [ (lit "dspmq", dspmqArgs U), (lit "dspmqinf", qmName), (lit "dspmqver", dspmqverArgs),
    (lit "rdqmstatus", rdqmstatusArgs), (lit "crm_mon", crmMonArgs),
    (lit "drbdadm", drbdadmArgs) ]

/-- `^…$` -/
def anchored (r : Rx CodePoint) : Rx CodePoint :=
  Rx.seq Rx.textStart (Rx.seq r (Rx.textEnd (one lf)))

/-- `_SHELL_ALLOWED` -/
def shellAllowed : List (PyStr × Rx CodePoint) :=
  (shellArgs U).map fun p => (p.1, anchored p.2)

/-- `" ".join(argv[1:])` -/
def argLine (args : List PyStr) : PyStr :=
  List.intercalate [ch ' '] args

variable (repr : PyStr → PyStr)

/--
`assert_shell_allowed`: the text of the `CommandNotAllowedError`, or acceptance; `repr` is
the `repr` of a string.
-/
def assertShellAllowed (argv : List PyStr) : Except PyStr Unit :=
  match argv with
  | [] => .error (lit "empty argv")
  | binary :: args =>
      match (shellAllowed U).lookup binary with
      | none => .error (lit "binary '" ++ binary ++ lit "' not in shell allowlist")
      | some pattern =>
          if Rx.matchesAt pattern (argLine args) then .ok ()
          else
            .error (lit "arguments for '" ++ binary ++ lit "' failed validation: " ++
              repr (argLine args))

end Patterns

/-- Quotes and the characters that a shell does not take literally. -/
def shellMetaChars : PyStr :=
  quote :: dquote :: lit "|&;<>()$`\\*?[]\x7b\x7d#~=!^"

def isShellMeta (c : CodePoint) : Bool :=
  decide (c ∈ shellMetaChars)

/-- An argument that is one word. -/
def IsArg (a : PyStr) : Prop :=
  a ≠ [] ∧ ∀ c ∈ a, c.isSpace = false

/-- The list that runs is what the guard has judged. -/
structure JudgedAsRun (U : UnicodeData) (argv : List PyStr) : Prop where
  words : ∀ a ∈ argv.tail, a ≠ [] ∧
    ∀ c ∈ a, c.isSpace = false ∧ c.isLineBoundary = false ∧ isShellMeta c = false
  line : ∃ binary args, argv.head? = some binary ∧ (binary, args) ∈ shellArgs U ∧
    Rx.Lang args [] (argLine argv.tail) []
  split : argv.tail ≠ [] → (argLine argv.tail).splitOn (ch ' ') = argv.tail

section Characters

variable {U : UnicodeData}

/-- What a pattern takes: white space, and nothing that a shell reads. -/
def Harmless (c : CodePoint) : Prop :=
  c.isSpace = true ∨ isShellMeta c = false

theorem harmless_of_mem
    {c : CodePoint} (h : c ∈ lit "-mnosxapf1rAstatus_.%/") :
    Harmless c := by
  right
  revert c
  decide

theorem harmless_of_alnum
    {c : CodePoint} (h : c.isAlnumAscii = true) :
    Harmless c := by
  right
  have hmeta : ∀ d ∈ shellMetaChars, d.isAlnumAscii = false := by
    decide
  by_contra hnot
  rw [hmeta c (by simpa [isShellMeta] using hnot)] at h
  cases h

/-- The characters that a shell reads are no word characters. -/
theorem harmless_of_isWord
    {c : CodePoint} (h : U.isWord c = true) :
    Harmless c := by
  have hmeta : ∀ d ∈ shellMetaChars, d.isAscii = true ∧ d.isAlnumAscii = false ∧
      d ≠ ch '_' := by
    decide
  right
  by_contra hnot
  obtain ⟨hascii, halnum, hunderscore⟩ := hmeta c (by simpa [isShellMeta] using hnot)
  rw [UnicodeData.isWord, U.isalnum_ascii c hascii, halnum] at h
  simp [hunderscore] at h

theorem only_gap :
    Rx.Only Harmless gap := by
  exact ⟨fun _ h => Or.inl h, fun _ h => Or.inl h⟩

theorem only_qmName :
    Rx.Only Harmless qmName := by
  have hchar : ∀ c, isQmNameChar c = true → Harmless c := by
    intro c hc
    simp only [isQmNameChar, Bool.or_eq_true, decide_eq_true_eq] at hc
    rcases hc with (hc | hc) | hc
    · exact harmless_of_alnum (by simp [isAlnumAscii, hc])
    · exact harmless_of_alnum (by simp [isAlnumAscii, hc])
    · refine harmless_of_mem ?_
      revert c
      decide
  exact ⟨hchar, Rx.only_atMost (r := Rx.cls isQmNameChar) hchar 47⟩

theorem only_litRx
    {s : String} (h : ∀ c ∈ lit s, Harmless c) :
    Rx.Only Harmless (litRx s) := by
  refine Rx.only_word ?_
  intro p hp c hc
  obtain ⟨d, hd, rfl⟩ := List.mem_map.mp hp
  have hcd : c = d := by simpa [one] using hc
  rw [hcd]
  exact h d hd

/-- No pattern takes a quote or a character that a shell reads. -/
theorem only_shellArgs :
    ∀ p ∈ shellArgs U, Rx.Only Harmless p.2 := by
  have hset : ∀ {s : String}, (∀ c ∈ lit s, c ∈ lit "-mnosxapf1rAstatus_.%/") →
      ∀ c, decide (c ∈ lit s) = true → Harmless c := by
    intro s hs c hc
    exact harmless_of_mem (hs c (of_decide_eq_true hc))
  have hword : ∀ c, U.isWord c = true → Harmless c := fun c hc => harmless_of_isWord hc
  have hresource : ∀ c, isResourceChar c = true → Harmless c := by
    intro c hc
    simp only [isResourceChar, Bool.or_eq_true] at hc
    rcases hc with (hc | hc) | hc
    · exact harmless_of_alnum (by simp [isAlnumAscii, hc])
    · exact harmless_of_alnum (by simp [isAlnumAscii, hc])
    · exact hset (by decide) c hc
  have hdash : Rx.Only Harmless (litRx "-") :=
    only_litRx fun c hc => harmless_of_mem (by revert c; decide)
  have hflag : Rx.Only Harmless (dspmqFlag U) :=
    ⟨⟨hdash, hset (by decide)⟩,
      only_litRx fun c hc => harmless_of_mem (by revert c; decide), only_gap, hword, hword⟩
  intro p hp
  simp only [shellArgs, List.mem_cons, List.not_mem_nil, or_false] at hp
  rcases hp with rfl | rfl | rfl | rfl | rfl | rfl
  · exact ⟨trivial, hflag, only_gap, hflag⟩
  · exact only_qmName
  · exact ⟨trivial, hdash, hset (by decide)⟩
  · exact ⟨trivial, only_litRx fun c hc => harmless_of_mem (by revert c; decide), only_gap,
      only_qmName⟩
  · exact ⟨trivial, hdash, hset (by decide), hset (by decide)⟩
  · exact ⟨only_litRx fun c hc => harmless_of_mem (by revert c; decide),
      ⟨only_gap, hresource, hresource⟩, trivial⟩

end Characters

section Guard

variable {U : UnicodeData} {repr : PyStr → PyStr} {argv : List PyStr}

theorem mem_argLine
    {args : List PyStr} {c : CodePoint} (h : c ∈ argLine args) :
    c = ch ' ' ∨ ∃ a ∈ args, c ∈ a := by
  induction args with
  | nil =>
      cases h
  | cons a args ih =>
      cases args with
      | nil =>
          right
          exact ⟨a, by simp, by simpa [argLine] using h⟩
      | cons b args =>
          rw [argLine, List.intercalate_cons_cons, List.append_assoc, List.mem_append,
            List.singleton_append, List.mem_cons] at h
          rcases h with h | h | h
          · exact Or.inr ⟨a, by simp, h⟩
          · exact Or.inl h
          · rcases ih h with h | ⟨d, hd, hc⟩
            · exact Or.inl h
            · exact Or.inr ⟨d, List.mem_cons_of_mem _ hd, hc⟩

theorem mem_argLine_of_mem
    {args : List PyStr} {a : PyStr} (ha : a ∈ args) {c : CodePoint} (hc : c ∈ a) :
    c ∈ argLine args := by
  induction args with
  | nil =>
      cases ha
  | cons b args ih =>
      cases args with
      | nil =>
          obtain rfl := List.mem_singleton.mp ha
          simpa [argLine] using hc
      | cons d args =>
          rw [argLine, List.intercalate_cons_cons, List.append_assoc, List.mem_append,
            List.singleton_append, List.mem_cons]
          rcases List.mem_cons.mp ha with rfl | ha
          · exact Or.inl hc
          · exact Or.inr (Or.inr (ih ha))

/-- What the guard has seen of an accepted list. -/
theorem of_assertShellAllowed
    (h : assertShellAllowed U repr argv = .ok ()) :
    ∃ binary args, argv.head? = some binary ∧ (binary, args) ∈ shellArgs U ∧
      ∃ w v, argLine argv.tail = w ++ v ∧ Rx.Lang args [] w v ∧ (v = [] ∨ v = [lf]) := by
  unfold assertShellAllowed at h
  cases argv with
  | nil =>
      cases h
  | cons binary args =>
      dsimp only at h
      cases hpattern : (shellAllowed U).lookup binary with
      | none =>
          rw [hpattern] at h
          cases h
      | some pattern =>
          rw [hpattern] at h
          dsimp only at h
          split at h
          · rename_i hmatch
            have hmem : (binary, pattern) ∈ shellAllowed U := by
              obtain ⟨l₁, l₂, hsplit, -⟩ := List.lookup_eq_some_iff.mp hpattern
              rw [hsplit]
              simp
            obtain ⟨⟨name, body⟩, hbody, heq⟩ := List.mem_map.mp hmem
            simp only [Prod.mk.injEq] at heq
            obtain ⟨rfl, rfl⟩ := heq
            obtain ⟨w, v, hline, hw, hv⟩ := (Rx.matchesAt_anchored_iff _ _ _).mp hmatch
            refine ⟨name, body, rfl, hbody, w, v, hline, hw, ?_⟩
            rcases hv with hv | ⟨c, rfl, hc⟩
            · exact Or.inl hv
            · right
              rw [show c = lf by simpa [one] using hc]
          · cases h

/--
**The guard judges the list that runs exactly when every argument is a word**: none is
empty, and none holds white space.
-/
theorem shell_guard_judges_run_iff
    (h : assertShellAllowed U repr argv = .ok ()) :
    JudgedAsRun U argv ↔ ∀ a ∈ argv.tail, IsArg a := by
  constructor
  · intro hjudged a ha
    obtain ⟨hne, hchars⟩ := hjudged.words a ha
    exact ⟨hne, fun c hc => (hchars c hc).1⟩
  · intro hargs
    obtain ⟨binary, args, hbinary, hmem, w, v, hline, hw, hv⟩ := of_assertShellAllowed h
    have hwhole : v = [] := by
      rcases hv with hv | rfl
      · exact hv
      · exfalso
        rcases mem_argLine (c := lf) (by rw [hline]; simp) with hblank | ⟨a, ha, hlf⟩
        · revert hblank
          decide
        · have hspace := (hargs a ha).2 lf hlf
          revert hspace
          decide
    subst hwhole
    rw [List.append_nil] at hline
    refine ⟨?_, ⟨binary, args, hbinary, hmem, by rwa [hline]⟩, ?_⟩
    · intro a ha
      obtain ⟨hne, hspace⟩ := hargs a ha
      refine ⟨hne, fun c hc => ⟨hspace c hc, ?_, ?_⟩⟩
      · by_contra hbreak
        have := isSpace_of_isLineBoundary (by simpa using hbreak)
        rw [hspace c hc] at this
        cases this
      · have hmatched : c ∈ w := by
          rw [← hline]
          exact mem_argLine_of_mem ha hc
        rcases Rx.lang_only (only_shellArgs _ hmem) hw c hmatched with hblank | hmeta
        · rw [hspace c hc] at hblank
          cases hblank
        · exact hmeta
    · intro hne
      refine List.splitOn_intercalate (ch ' ') ?_ hne
      intro a ha hblank
      have hspace := (hargs a ha).2 _ hblank
      revert hspace
      decide

theorem shell_guard_judges_run_dspmq :
    JudgedAsRun UnicodeData.basic [lit "dspmq", lit "-o", lit "standby"] :=
  (@shell_guard_judges_run_iff UnicodeData.basic id [lit "dspmq", lit "-o", lit "standby"]
    (by decide +kernel)).mpr (by unfold IsArg; decide +kernel)

/-- A name that ends in a line feed is accepted. -/
theorem trailing_line_feed_accepted :
    assertShellAllowed UnicodeData.basic id [lit "dspmqinf", lit "QM1" ++ [lf]] = .ok () ∧
      ¬ JudgedAsRun UnicodeData.basic [lit "dspmqinf", lit "QM1" ++ [lf]] := by
  refine ⟨by decide +kernel, fun h => ?_⟩
  have hspace := ((h.words (lit "QM1" ++ [lf]) (by simp)).2 lf (by simp)).1
  revert hspace
  decide

end Guard

end Allowlist
end MqSentinel
