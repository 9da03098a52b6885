import MqSentinel.SanitizerPipeline
import MqSentinel.RegexOverlap

/-!
# The words of the injection markers

Without its word boundaries an injection marker is one of a few words, upper and lower
case apart: `Spells` says so of an expression.  What is then needed of the words is that
two of them never overlap, except that one with an `s` at its end goes on with the one
without (`decide` goes through the list).

`FoldedLetters` is what Unicode says of the characters that `re.IGNORECASE` takes for
ASCII letters.
-/

namespace MqSentinel
namespace Sanitizer

open Regex CodePoint

/-- The expression matches the words that fold to a member of the list, in any context. -/
def Spells (L : List PyStr) (r : Rx CodePoint) : Prop :=
  ∀ pre w post, Rx.Lang r pre w post ↔ w.map reFold ∈ L

section Spells

theorem spells_ciRx
    (s : String) :
    Spells [(lit s).map reFold] (ciRx s) := by
  intro pre w post
  rw [ciRx, Rx.lang_word, fits_ci_iff, List.mem_singleton]

theorem Spells.alt
    {L M : List PyStr} {r s : Rx CodePoint} (hr : Spells L r) (hs : Spells M s) :
    Spells (L ++ M) (Rx.alt r s) := by
  intro pre w post
  rw [Rx.lang_alt, hr, hs, List.mem_append]

theorem Spells.opt
    {L : List PyStr} {r : Rx CodePoint} (hr : Spells L r) :
    Spells (L ++ [[]]) (Rx.opt r) := by
  intro pre w post
  rw [Rx.lang_opt, hr, List.mem_append, List.mem_singleton, List.map_eq_nil_iff]

theorem Spells.seq
    {L M : List PyStr} {r s : Rx CodePoint} (hr : Spells L r) (hs : Spells M s) :
    Spells (L.flatMap fun x => M.map (x ++ ·)) (Rx.seq r s) := by
  intro pre w post
  rw [Rx.lang_seq, List.mem_flatMap]
  constructor
  · rintro ⟨u, v, rfl, hu, hv⟩
    refine ⟨u.map reFold, (hr _ _ _).mp hu, List.mem_map.mpr ⟨v.map reFold, (hs _ _ _).mp hv, ?_⟩⟩
    simp
  · rintro ⟨x, hx, hw⟩
    obtain ⟨y, hy, hxy⟩ := List.mem_map.mp hw
    obtain ⟨u, v, rfl, rfl, rfl⟩ := List.map_eq_append_iff.mp hxy.symm
    exact ⟨u, v, rfl, (hr _ _ _).mpr hx, (hs _ _ _).mpr hy⟩

theorem Spells.of_eq
    {L M : List PyStr} {r : Rx CodePoint} (hr : Spells L r) (h : L = M) :
    Spells M r := by
  rwa [← h]

end Spells

/-- The words of `ignore (?:all )?previous instructions?`. -/
def ignoreWords : List PyStr :=
  [ lit "ignore all previous instructions", lit "ignore all previous instruction",
    lit "ignore previous instructions", lit "ignore previous instruction" ]

/-- The words of `disregard (?:the )?(?:prior|above) (?:prompt|instructions?)`. -/
def disregardWords : List PyStr :=
  [ lit "disregard the prior prompt", lit "disregard the prior instructions",
    lit "disregard the prior instruction", lit "disregard the above prompt",
    lit "disregard the above instructions", lit "disregard the above instruction",
    lit "disregard prior prompt", lit "disregard prior instructions",
    lit "disregard prior instruction", lit "disregard above prompt",
    lit "disregard above instructions", lit "disregard above instruction" ]

def nowWords : List PyStr :=
  [lit "you are now"]

/-- The words of `new instructions?:`. -/
def newWords : List PyStr :=
  [lit "new instructions:", lit "new instruction:"]

/-- The words of the markers that a word boundary ends. -/
def closedWords : List PyStr :=
  ignoreWords ++ disregardWords ++ nowWords

/-- The words of the markers that a word boundary starts. -/
def coreWords : List PyStr :=
  closedWords ++ newWords

/-- The first two letters of these words. -/
def heads : List PyStr :=
  [lit "ig", lit "di", lit "yo", lit "ne"]

theorem spells_ignorePrevious :
    Spells ignoreWords ignorePrevious := by
  refine ((spells_ciRx "ignore ").seq ((spells_ciRx "all ").opt.seq
    ((spells_ciRx "previous instruction").seq (spells_ciRx "s").opt))).of_eq ?_
  simp only [ignoreWords, lit, String.reduceToList, List.map_cons, List.map_nil]
  decide +kernel

theorem spells_disregardPrior :
    Spells disregardWords disregardPrior := by
  refine ((spells_ciRx "disregard ").seq ((spells_ciRx "the ").opt.seq
    (((spells_ciRx "prior").alt (spells_ciRx "above")).seq ((spells_ciRx " ").seq
      ((spells_ciRx "prompt").alt
        ((spells_ciRx "instruction").seq (spells_ciRx "s").opt)))))).of_eq ?_
  simp only [disregardWords, lit, String.reduceToList, List.map_cons, List.map_nil]
  decide +kernel

theorem spells_youAreNow :
    Spells nowWords youAreNow := by
  refine (spells_ciRx "you are now").of_eq ?_
  decide +kernel

theorem spells_newInstructions :
    Spells newWords newInstructions := by
  refine ((spells_ciRx "new instruction").seq ((spells_ciRx "s").opt.seq
    (spells_ciRx ":"))).of_eq ?_
  decide +kernel

/-- A character that does not end a word of a marker. -/
def isGap (c : CodePoint) : Bool :=
  c == ch ' ' || c == ch ':'

/-- The lists of words, evaluated once for all the lemmas below. -/
theorem coreWords_evaluated :
    (∀ x ∈ coreWords, x.take 2 ∈ heads ∧ 2 ≤ x.length ∧
      ∀ c ∈ x, c.isLowerAscii = true ∨ isGap c = true) ∧
    (∀ x ∈ closedWords, ∃ c ∈ x.getLast?, c.isLowerAscii = true) ∧
    (∀ x ∈ coreWords, ∀ k < x.length, k ≠ 0 → (∃ c ∈ (x.take k).getLast?, isGap c = true) →
      ∀ h ∈ heads, ¬ (x.drop k).take 2 <+: h) ∧
    (∀ x ∈ coreWords, ∀ y ∈ coreWords, x <+: y →
      x = y ∨ (x ∈ closedWords ∧ y = x ++ [ch 's'])) ∧
    (∀ x ∈ coreWords, x ++ [ch 's'] ∈ coreWords → x ++ [ch 's', ch 's'] ∉ coreWords) ∧
    (∀ x ∈ coreWords, ch ' ' ∈ x) ∧
    ∀ x ∈ closedWords, x ∉ newWords := by
  simp only [coreWords, closedWords, ignoreWords, disregardWords, nowWords, newWords, heads, lit,
    String.reduceToList, List.map_cons, List.map_nil, List.cons_append, List.nil_append]
  decide +kernel

/-- A core starts with one of the heads and goes on with letters, blanks and colons. -/
theorem coreWords_head :
    ∀ x ∈ coreWords, x.take 2 ∈ heads ∧ 2 ≤ x.length ∧
      ∀ c ∈ x, c.isLowerAscii = true ∨ isGap c = true :=
  coreWords_evaluated.1

/-- The last letter of a closed word. -/
theorem closedWords_last :
    ∀ x ∈ closedWords, ∃ c ∈ x.getLast?, c.isLowerAscii = true :=
  coreWords_evaluated.2.1

/-- No word starts behind a gap of another one. -/
theorem coreWords_inside :
    ∀ x ∈ coreWords, ∀ k < x.length, k ≠ 0 → (∃ c ∈ (x.take k).getLast?, isGap c = true) →
      ∀ h ∈ heads, ¬ (x.drop k).take 2 <+: h :=
  coreWords_evaluated.2.2.1

/-- A word that starts like another one is the same up to an `s`. -/
theorem coreWords_prefix :
    ∀ x ∈ coreWords, ∀ y ∈ coreWords, x <+: y →
      x = y ∨ (x ∈ closedWords ∧ y = x ++ [ch 's']) :=
  coreWords_evaluated.2.2.2.1

/-- Only one `s` is optional. -/
theorem coreWords_once :
    ∀ x ∈ coreWords, x ++ [ch 's'] ∈ coreWords → x ++ [ch 's', ch 's'] ∉ coreWords :=
  coreWords_evaluated.2.2.2.2.1

/-- Every word has a blank in it. -/
theorem coreWords_blank :
    ∀ x ∈ coreWords, ch ' ' ∈ x :=
  coreWords_evaluated.2.2.2.2.2.1

theorem newWords_closed :
    ∀ x ∈ closedWords, x ∉ newWords :=
  coreWords_evaluated.2.2.2.2.2.2

/-- Outside ASCII, what `re.IGNORECASE` takes for an ASCII letter is a letter. -/
def FoldedLetters (U : UnicodeData) : Prop :=
  ∀ c, c.isAscii = false → c.reFold.isAscii = true → U.isalnum c = true

section Boundaries

/-- What a character folds to: one of four letters has a letter outside ASCII, too. -/
theorem reFold_cases
    (c : CodePoint) :
    (c.isAscii = false ∧ c.reFold.isLowerAscii = true) ∨
      (c.isUpperAscii = true ∧ c.reFold.isLowerAscii = true) ∨ c.reFold = c := by
  by_cases hupper : c.isUpperAscii = true
  · right; left
    have hval := hupper
    simp only [isUpperAscii, decide_eq_true_eq] at hval
    refine ⟨hupper, ?_⟩
    rw [reFold, if_neg (by omega), if_neg (by omega), if_neg (by omega), toLowerAscii,
      dif_pos hupper]
    simp only [isLowerAscii, decide_eq_true_eq]
    omega
  · by_cases hspecial : c.val = 0x130 ∨ c.val = 0x131 ∨ c.val = 0x17F ∨ c.val = 0x212A
    · left
      have hascii : c.isAscii = false := by
        simp only [isAscii, decide_eq_false_iff_not]
        omega
      refine ⟨hascii, ?_⟩
      rw [reFold]
      split
      · decide
      · split
        · decide
        · rw [if_pos (by omega)]
          decide
    · right; right
      rw [reFold, if_neg (by omega), if_neg (by omega), if_neg (by omega), toLowerAscii,
        dif_neg hupper]

/-- Only letters are folded together. -/
theorem eq_of_reFold
    {c d : CodePoint} (hd : d.isLowerAscii = false) (h : c.reFold = d) :
    c = d := by
  rcases reFold_cases c with ⟨-, hlower⟩ | ⟨-, hlower⟩ | hsame
  · rw [h, hd] at hlower
    cases hlower
  · rw [h, hd] at hlower
    cases hlower
  · rw [← hsame, h]

variable {U : UnicodeData}

theorem isWord_of_fold
    (hletters : FoldedLetters U) {c : CodePoint} (hc : c.reFold.isLowerAscii = true) :
    U.isWord c = true := by
  have halnum : U.isalnum c = true := by
    cases hascii : c.isAscii with
    | false =>
        refine hletters c hascii ?_
        simp only [isLowerAscii, isAscii, decide_eq_true_eq] at hc ⊢
        omega
    | true =>
        rw [U.isalnum_ascii c hascii, isAlnumAscii]
        rcases reFold_cases c with ⟨hnot, -⟩ | ⟨hupper, -⟩ | hsame
        · rw [hascii] at hnot
          cases hnot
        · simp [hupper]
        · rw [hsame] at hc
          simp [hc]
  rw [UnicodeData.isWord, halnum, Bool.true_or]

/-- ASCII characters that are no letters, digits or underscores. -/
theorem isWord_of_ascii
    {c : CodePoint} (hascii : c.isAscii = true) :
    U.isWord c = (c.isAlnumAscii || c == ch '_') := by
  rw [UnicodeData.isWord, U.isalnum_ascii c hascii]

/-- The nearest character is none of a word; a text in front is given backwards. -/
def NoWord (U : UnicodeData) (s : PyStr) : Prop :=
  s.head?.any U.isWord = false

/-- A word of a core, with its case left open. -/
def IsCore (w : PyStr) : Prop :=
  w.map reFold ∈ coreWords

/-- A word of a core that a word boundary has to end. -/
def IsClosed (w : PyStr) : Prop :=
  w.map reFold ∈ closedWords

instance (w : PyStr) : Decidable (IsCore w) :=
  inferInstanceAs (Decidable (w.map reFold ∈ coreWords))

theorem IsClosed.isCore
    {w : PyStr} (h : IsClosed w) :
    IsCore w := by
  exact List.mem_append_left _ h

/-- The first two letters of a core. -/
theorem IsCore.two
    {w : PyStr} (h : IsCore w) :
    ∃ c d t, w = c :: d :: t ∧ [c.reFold, d.reFold] ∈ heads := by
  obtain ⟨hhead, hlen, -⟩ := coreWords_head _ h
  match w, hlen, hhead with
  | c :: d :: t, _, hhead => exact ⟨c, d, t, rfl, hhead⟩

theorem heads_lower :
    ∀ x ∈ heads, ∀ c ∈ x, c.isLowerAscii = true := by
  decide +kernel

/-- The characters of a core: letters, blanks and colons. -/
theorem IsCore.chars
    {w : PyStr} (h : IsCore w) :
    ∀ c ∈ w, c.reFold.isLowerAscii = true ∨ isGap c.reFold = true := by
  intro c hc
  exact (coreWords_head _ h).2.2 _ (List.mem_map_of_mem hc)

/-- A character of a core is neither white space nor one of these, a gap apart. -/
theorem IsCore.ne
    {w : PyStr} (h : IsCore w) {d : CodePoint} (hd : d.reFold.isLowerAscii = false)
    (hgap : isGap d.reFold = false) :
    ∀ c ∈ w, c ≠ d := by
  rintro c hc rfl
  rcases h.chars c hc with hlower | hgap'
  · rw [hlower] at hd
    cases hd
  · rw [hgap'] at hgap
    cases hgap

theorem IsCore.blank
    {w : PyStr} (h : IsCore w) :
    ch ' ' ∈ w := by
  obtain ⟨c, hc, hfold⟩ := List.mem_map.mp (coreWords_blank _ h)
  rwa [← eq_of_reFold (by decide) hfold]

theorem IsCore.head_word
    (hletters : FoldedLetters U) {w : PyStr} (h : IsCore w) :
    ∃ c t, w = c :: t ∧ U.isWord c = true := by
  obtain ⟨c, d, t, rfl, hhead⟩ := h.two
  exact ⟨c, d :: t, rfl, isWord_of_fold hletters (heads_lower _ hhead _ (by simp))⟩

theorem IsClosed.last_word
    (hletters : FoldedLetters U) {w : PyStr} (h : IsClosed w) :
    ∃ t c, w = t ++ [c] ∧ U.isWord c = true := by
  obtain ⟨e, he, hlower⟩ := closedWords_last _ h
  rw [Option.mem_def, List.getLast?_map, Option.map_eq_some_iff] at he
  obtain ⟨c, hc, rfl⟩ := he
  obtain ⟨t, rfl⟩ := List.getLast?_eq_some_iff.mp hc
  exact ⟨t, c, rfl, isWord_of_fold hletters hlower⟩

/-- The markers that are closed by a word boundary. -/
theorem lang_word_iff
    (hletters : FoldedLetters U) {L : List PyStr} {core : Rx CodePoint}
    (hspells : Spells L core) (hL : ∀ x ∈ L, x ∈ closedWords) (pre w post : PyStr) :
    Rx.Lang (word U core) pre w post ↔
      w.map reFold ∈ L ∧ NoWord U pre ∧ NoWord U post := by
  have hedges : ∀ {w : PyStr}, w.map reFold ∈ L →
      (w ++ post).head?.any U.isWord = true ∧ (w.reverse ++ pre).head?.any U.isWord = true := by
    intro w hw
    have hclosed : IsClosed w := hL _ hw
    obtain ⟨c, t, rfl, hc⟩ := hclosed.isCore.head_word hletters
    obtain ⟨t', e, hsplit, he⟩ := hclosed.last_word hletters
    refine ⟨by simpa using hc, ?_⟩
    rw [hsplit]
    simpa using he
  rw [word, Rx.edge, Rx.lang_seq_look, Rx.lang_seq]
  constructor
  · rintro ⟨hpre, u, v, rfl, hu, rfl, hpost⟩
    rw [List.append_nil] at hpre
    have hu' := (hspells _ _ _).mp hu
    obtain ⟨hstart, hend⟩ := hedges hu'
    rw [hstart] at hpre
    dsimp only at hpost
    rw [hend] at hpost
    refine ⟨by simpa using hu', ?_, ?_⟩
    · simpa [NoWord] using hpre
    · simpa [NoWord] using hpost
  · rintro ⟨hw, hpre, hpost⟩
    obtain ⟨hstart, hend⟩ := hedges hw
    refine ⟨?_, w, [], by simp, (hspells _ _ _).mpr hw, rfl, ?_⟩
    · rw [hstart, hpre]
      rfl
    · dsimp only
      rw [hend, hpost]
      rfl

/-- The marker that takes white space along. -/
theorem lang_newInstructions_iff
    (hletters : FoldedLetters U) (pre w post : PyStr) :
    Rx.Lang (Rx.seq (Rx.edge U.isWord) (Rx.seq newInstructions (Rx.star (Rx.cls isSpace))))
        pre w post ↔
      NoWord U pre ∧
        ∃ n s, w = n ++ s ∧ n.map reFold ∈ newWords ∧ ∀ c ∈ s, c.isSpace = true := by
  have hedge : ∀ {n : PyStr} (t : PyStr), n.map reFold ∈ newWords →
      (n ++ t).head?.any U.isWord = true := by
    intro n t hn
    have hcore : IsCore n := List.mem_append_right _ hn
    obtain ⟨c, t, rfl, hc⟩ := hcore.head_word hletters
    simpa using hc
  rw [Rx.edge, Rx.lang_seq_look, Rx.lang_seq]
  constructor
  · rintro ⟨hpre, n, s, rfl, hn, hs⟩
    rw [Rx.lang_star_cls] at hs
    have hn' := (spells_newInstructions _ _ _).mp hn
    rw [List.append_assoc, hedge _ hn'] at hpre
    exact ⟨by simpa [NoWord] using hpre, n, s, rfl, hn', hs⟩
  · rintro ⟨hpre, n, s, rfl, hn, hs⟩
    refine ⟨?_, n, s, rfl, (spells_newInstructions _ _ _).mpr hn, ?_⟩
    · rw [List.append_assoc, hedge _ hn, hpre]
      rfl
    · rwa [Rx.lang_star_cls]

end Boundaries

end Sanitizer
end MqSentinel
