import MqSentinel.RegexEngine
import Mathlib.Data.List.DropRight

/-!
# Python text

A Python string is a sequence of code points, surrogates included, so `PyStr` is
a list of natural numbers below `0x110000` and not a `String`.  The whitespace
class, the line boundaries and the case folding of `re.IGNORECASE` on ASCII
patterns are given exactly; they are short.

The large Unicode tables (`str.isalnum`, `str.isdecimal`, `str.upper`,
`str.lower`) change with the Unicode version.  They are the fields of
`UnicodeData`, and its other fields are what every version says of them.
-/

namespace MqSentinel

open Regex

/-- A Python character. -/
structure CodePoint where
  val : Nat
  isLt : val < 0x110000
deriving DecidableEq

/-- A Python `str`. -/
abbrev PyStr := List CodePoint

instance : LawfulBEq PyStr :=
  inferInstance

/-- The code point of a Lean character. -/
def ch (c : Char) : CodePoint :=
  ⟨c.toNat, by
    have := c.valid
    simp only [UInt32.isValidChar, Nat.isValidChar] at this
    simp only [Char.toNat]
    omega⟩

/-- A string literal. -/
def lit (s : String) : PyStr :=
  s.toList.map ch

theorem lit_injective : Function.Injective lit := by
  have hch : Function.Injective ch := by
    intro c c' h
    exact Char.ext (UInt32.toNat_inj.mp (congrArg CodePoint.val h))
  intro s t h
  exact String.ext (hch.list_map h)

namespace CodePoint

@[ext] theorem ext
    {c d : CodePoint} (h : c.val = d.val) :
    c = d := by
  cases c
  cases d
  simp only [mk.injEq]
  exact h

/-- Lines separated by `\n`. -/
def lf : CodePoint := ⟨0x0A, by decide⟩

def cr : CodePoint := ⟨0x0D, by decide⟩

def nul : CodePoint := ⟨0x00, by decide⟩

def tab : CodePoint := ⟨0x09, by decide⟩

/-- The apostrophe, MQSC's quote. -/
def quote : CodePoint := ⟨0x27, by decide⟩

/-- The double quotation mark. -/
def dquote : CodePoint := ⟨0x22, by decide⟩

/-- The horizontal ellipsis. -/
def ellipsis : CodePoint := ⟨0x2026, by decide⟩

/-- `str.isascii` on one character. -/
def isAscii (c : CodePoint) : Bool :=
  decide (c.val < 0x80)

def isUpperAscii (c : CodePoint) : Bool :=
  decide (0x41 ≤ c.val ∧ c.val ≤ 0x5A)

def isLowerAscii (c : CodePoint) : Bool :=
  decide (0x61 ≤ c.val ∧ c.val ≤ 0x7A)

def isDigitAscii (c : CodePoint) : Bool :=
  decide (0x30 ≤ c.val ∧ c.val ≤ 0x39)

/-- An ASCII letter or digit. -/
def isAlnumAscii (c : CodePoint) : Bool :=
  c.isUpperAscii || c.isLowerAscii || c.isDigitAscii

/-- `str.isspace` on one character: also `\s`, and what `split` and `strip` use. -/
def isSpace (c : CodePoint) : Bool :=
  decide ((0x09 ≤ c.val ∧ c.val ≤ 0x0D) ∨ (0x1C ≤ c.val ∧ c.val ≤ 0x20) ∨
    c.val = 0x85 ∨ c.val = 0xA0 ∨ c.val = 0x1680 ∨
    (0x2000 ≤ c.val ∧ c.val ≤ 0x200A) ∨ c.val = 0x2028 ∨ c.val = 0x2029 ∨
    c.val = 0x202F ∨ c.val = 0x205F ∨ c.val = 0x3000)

/-- The boundaries of `str.splitlines`. -/
def isLineBoundary (c : CodePoint) : Bool :=
  decide ((0x0A ≤ c.val ∧ c.val ≤ 0x0D) ∨ (0x1C ≤ c.val ∧ c.val ≤ 0x1E) ∨
    c.val = 0x85 ∨ c.val = 0x2028 ∨ c.val = 0x2029)

theorem isSpace_of_isLineBoundary
    {c : CodePoint} (h : c.isLineBoundary = true) :
    c.isSpace = true := by
  simp only [isLineBoundary, isSpace, decide_eq_true_eq] at h ⊢
  omega

/-- Upper-casing of ASCII letters, everything else unchanged. -/
def toUpperAscii (c : CodePoint) : CodePoint :=
  if h : c.isLowerAscii then
    ⟨c.val - 0x20, by
      have := c.isLt
      omega⟩
  else c

/-- Lower-casing of ASCII letters, everything else unchanged. -/
def toLowerAscii (c : CodePoint) : CodePoint :=
  if h : c.isUpperAscii then
    ⟨c.val + 0x20, by
      simp only [isUpperAscii, decide_eq_true_eq] at h
      omega⟩
  else c

/-- U+0131, the dotless `i`: its upper case is `I`. -/
def dotlessI : CodePoint := ⟨0x131, by decide⟩

/-- U+017F, the long `s`: its upper case is `S`. -/
def longS : CodePoint := ⟨0x17F, by decide⟩

/-- U+212A, the kelvin sign: its lower case is `k`. -/
def kelvin : CodePoint := ⟨0x212A, by decide⟩

/--
The letter that `re.IGNORECASE` compares with an ASCII pattern letter: besides
the two ASCII cases, U+0130 and U+0131 count as `i`, U+017F as `s` and U+212A as
`k`.
-/
def reFold (c : CodePoint) : CodePoint :=
  if c.val = 0x130 ∨ c.val = 0x131 then ch 'i'
  else if c.val = 0x17F then ch 's'
  else if c.val = 0x212A then ch 'k'
  else c.toLowerAscii

/-- White space folds to itself. -/
theorem reFold_of_isSpace
    {c : CodePoint} (h : c.isSpace = true) :
    c.reFold = c := by
  simp only [isSpace, decide_eq_true_eq] at h
  have hupper : c.isUpperAscii = false := by
    simp only [isUpperAscii, decide_eq_false_iff_not]
    omega
  rw [reFold, if_neg (by omega), if_neg (by omega), if_neg (by omega), toLowerAscii,
    dif_neg (by rw [hupper]; decide)]

/-- Only white space folds to white space. -/
theorem isSpace_of_reFold
    {c : CodePoint} (h : c.reFold.isSpace = true) :
    c.isSpace = true := by
  rw [reFold] at h
  split_ifs at h
  · exact absurd h (by decide)
  · exact absurd h (by decide)
  · exact absurd h (by decide)
  · rw [toLowerAscii] at h
    split_ifs at h with hupper
    · simp only [isUpperAscii, isSpace, decide_eq_true_eq] at hupper h
      omega
    · exact h

end CodePoint

open CodePoint

/-- A literal pattern character. -/
def one (c : CodePoint) : CodePoint → Bool :=
  fun d => d == c

/-- A literal pattern character under `re.IGNORECASE`. -/
def ci (c : CodePoint) : CodePoint → Bool :=
  fun d => d.reFold == c.reFold

/-- A literal pattern string. -/
def litRx (s : String) : Rx CodePoint :=
  Rx.word ((lit s).map one)

/-- A literal pattern string under `re.IGNORECASE`. -/
def ciRx (s : String) : Rx CodePoint :=
  Rx.word ((lit s).map ci)

/-- A literal matches itself. -/
theorem fits_one_iff
    (l w : PyStr) :
    Rx.Fits (l.map one) w ↔ w = l := by
  induction l generalizing w with
  | nil =>
      simp [Rx.Fits]
  | cons c l ih =>
      constructor
      · intro h
        cases h with
        | @cons _ d _ v hd hv =>
            have hdc : d = c := by simpa [one] using hd
            rw [hdc, (ih v).mp hv]
      · rintro rfl
        exact List.Forall₂.cons (by simp [one]) ((ih l).mpr rfl)

/-- Under `re.IGNORECASE` a literal matches the words that fold to it. -/
theorem fits_ci_iff
    (l w : PyStr) :
    Rx.Fits (l.map ci) w ↔ w.map reFold = l.map reFold := by
  induction l generalizing w with
  | nil =>
      simp [Rx.Fits]
  | cons c l ih =>
      constructor
      · intro h
        cases h with
        | @cons _ d _ v hd hv =>
            have hdc : d.reFold = c.reFold := by simpa [ci] using hd
            simp [hdc, (ih v).mp hv]
      · intro h
        cases w with
        | nil =>
            simp at h
        | cons d v =>
            simp only [List.map_cons, List.cons.injEq] at h
            exact List.Forall₂.cons (by simp [ci, h.1]) ((ih v).mpr h.2)

/-- `str.lstrip()`. -/
def lstrip (s : PyStr) : PyStr :=
  s.dropWhile isSpace

/-- `str.rstrip()`. -/
def rstrip (s : PyStr) : PyStr :=
  s.rdropWhile isSpace

/-- `str.strip()`. -/
def strip (s : PyStr) : PyStr :=
  rstrip (lstrip s)

theorem lstrip_eq_nil_iff
    (s : PyStr) :
    lstrip s = [] ↔ ∀ c ∈ s, c.isSpace = true := by
  exact List.dropWhile_eq_nil_iff

theorem strip_eq_nil_iff
    (s : PyStr) :
    strip s = [] ↔ ∀ c ∈ s, c.isSpace = true := by
  rw [strip, rstrip, lstrip, List.rdropWhile_eq_nil_iff]
  constructor
  · intro h c hc
    by_contra hnot
    have hne : s.dropWhile isSpace ≠ [] := by
      intro hnil
      exact hnot (List.dropWhile_eq_nil_iff.mp hnil c hc)
    have hhead := List.head_dropWhile_not isSpace hne
    rw [h _ (List.head_mem hne)] at hhead
    cases hhead
  · intro h
    rw [List.dropWhile_eq_nil_iff.mpr h]
    intro c hc
    cases hc

/-- A text is what is left of it and white space. -/
theorem exists_rstrip_append
    (s : PyStr) :
    ∃ ws, s = rstrip s ++ ws ∧ ∀ c ∈ ws, c.isSpace = true := by
  exact ⟨s.rtakeWhile isSpace, (List.rdropWhile_append_rtakeWhile).symm,
    fun _ hc => List.mem_rtakeWhile_imp hc⟩

theorem rstrip_append_spaces
    {ws : PyStr} (hws : ∀ c ∈ ws, c.isSpace = true) (s : PyStr) :
    rstrip (s ++ ws) = rstrip s := by
  induction ws using List.reverseRecOn with
  | nil =>
      rw [List.append_nil]
  | append_singleton ws c ih =>
      rw [← List.append_assoc, rstrip, List.rdropWhile_concat_pos _ _ _ (hws c (by simp))]
      exact ih fun d hd => hws d (by simp [hd])

theorem lstrip_append
    {s : PyStr} (hs : lstrip s ≠ []) (t : PyStr) :
    lstrip (s ++ t) = lstrip s ++ t := by
  rw [lstrip] at hs
  rw [lstrip, List.dropWhile_append]
  simp [lstrip, hs]

theorem strip_append_spaces
    {ws : PyStr} (hws : ∀ c ∈ ws, c.isSpace = true) (s : PyStr) :
    strip (s ++ ws) = strip s := by
  by_cases hs : lstrip s = []
  · have hspaces := (lstrip_eq_nil_iff s).mp hs
    rw [(strip_eq_nil_iff s).mpr hspaces, strip_eq_nil_iff]
    intro c hc
    exact (List.mem_append.mp hc).elim (hspaces c) (hws c)
  · rw [strip, lstrip_append hs, rstrip_append_spaces hws]
    rfl

/-- `str.split()`: the maximal runs of characters that are no whitespace. -/
def split (s : PyStr) : List PyStr :=
  (s.splitOnP isSpace).filter fun w => !w.isEmpty

section Split

theorem split_append_space
    (s t : PyStr) {c : CodePoint} (hc : c.isSpace = true) :
    split (s ++ c :: t) = split s ++ split t := by
  rw [split, List.splitOnP_append_cons s t hc, List.filter_append]
  rfl

@[simp] theorem split_nil :
    split [] = [] := by
  rfl

theorem split_word
    {w : PyStr} (hw : ∀ c ∈ w, c.isSpace = false) :
    split w = if w = [] then [] else [w] := by
  rw [split, List.splitOnP_eq_singleton hw]
  cases w <;> simp

/-- Nothing is stripped between two characters that are no white space. -/
theorem strip_enclosed
    {c d : CodePoint} (hc : c.isSpace = false) (hd : d.isSpace = false) (s : PyStr) :
    strip (c :: (s ++ [d])) = c :: (s ++ [d]) := by
  have hright : rstrip (c :: s ++ [d]) = c :: s ++ [d] :=
    List.rdropWhile_concat_neg _ _ _ (by simp [hd])
  rw [strip, lstrip, List.dropWhile_cons_of_neg (by simp [hc])]
  exact hright

theorem split_lstrip
    (s : PyStr) :
    split (lstrip s) = split s := by
  induction s with
  | nil =>
      rfl
  | cons c s ih =>
      cases hc : c.isSpace with
      | false =>
          simp [lstrip, hc]
      | true =>
          have hcons := split_append_space [] s hc
          simp only [List.nil_append, split_nil] at hcons
          rw [hcons, ← ih]
          simp [lstrip, hc]

theorem split_rstrip
    (s : PyStr) :
    split (rstrip s) = split s := by
  induction s using List.reverseRecOn with
  | nil =>
      rfl
  | append_singleton s c ih =>
      cases hc : c.isSpace with
      | false =>
          rw [rstrip, List.rdropWhile_concat_neg _ _ _ (by simp [hc])]
      | true =>
          rw [rstrip, List.rdropWhile_concat_pos _ _ _ hc, split_append_space s [] hc]
          rw [rstrip] at ih
          simpa using ih

theorem split_strip
    (s : PyStr) :
    split (strip s) = split s := by
  rw [strip, split_rstrip, split_lstrip]

/-- A text is a word, or a word, a space and a text. -/
theorem words_induction
    {motive : PyStr → Prop}
    (word : ∀ w, (∀ c ∈ w, c.isSpace = false) → motive w)
    (space : ∀ w c t, (∀ d ∈ w, d.isSpace = false) → c.isSpace = true → motive t →
      motive (w ++ c :: t))
    (s : PyStr) :
    motive s := by
  have hlength : ∀ (n : Nat) (s : PyStr), s.length ≤ n → motive s := by
    intro n
    induction n with
    | zero =>
        intro s hs
        obtain rfl := List.length_eq_zero_iff.mp (Nat.le_zero.mp hs)
        exact word [] (by simp)
    | succ n ih =>
        intro s hs
        have hword : ∀ c ∈ s.takeWhile fun c => !c.isSpace, c.isSpace = false := by
          intro c hc
          simpa using List.mem_takeWhile_imp hc
        have hsplit : (s.takeWhile fun c => !c.isSpace) ++
            (s.dropWhile fun c => !c.isSpace) = s :=
          List.takeWhile_append_dropWhile
        cases hrest : s.dropWhile fun c => !c.isSpace with
        | nil =>
            rw [hrest, List.append_nil] at hsplit
            rw [← hsplit]
            exact word _ hword
        | cons c t =>
            have hc : c.isSpace = true := by
              have hhead := List.head?_dropWhile_not (fun c : CodePoint => !c.isSpace) s
              rw [hrest] at hhead
              simpa using hhead
            rw [hrest] at hsplit
            have hlen := congrArg List.length hsplit
            simp only [List.length_append, List.length_cons] at hlen
            rw [← hsplit]
            exact space _ c t hword hc (ih t (by omega))
  exact hlength s.length s le_rfl

end Split

/-- `str.split(sep, 1)[0]` for a one-character separator. -/
def beforeFirst (sep : CodePoint) (s : PyStr) : PyStr :=
  s.takeWhile (· ≠ sep)

/-- `str.splitlines()`. -/
def splitlines : PyStr → List PyStr
  | [] => []
  | c :: cs =>
      if c = cr ∧ cs.head? = some lf then splitlines cs
      else if c.isLineBoundary then [] :: splitlines cs
      else
        match splitlines cs with
        | [] => [[c]]
        | l :: ls => (c :: l) :: ls

/-- The upper cases of the sharp s and of the Latin ligatures. -/
def ligatures : List PyStr :=
  [lit "SS", lit "FF", lit "FI", lit "FL", lit "FFI", lit "FFL", lit "ST"]

/-- The Unicode tables of the interpreter, with what every version says of them. -/
structure UnicodeData where
  /-- `str.isalnum` on one character. -/
  isalnum : CodePoint → Bool
  /-- `str.isdecimal` on one character: also `\d`. -/
  isdecimal : CodePoint → Bool
  /-- The value of a decimal digit. -/
  digit : CodePoint → Nat
  /-- `str.upper` on one character, with its full mapping. -/
  upper : CodePoint → PyStr
  /-- `str.lower`. -/
  lower : PyStr → PyStr
  isalnum_ascii : ∀ c, c.isAscii = true → isalnum c = c.isAlnumAscii
  isalnum_space : ∀ c, c.isSpace = true → isalnum c = false
  isalnum_ellipsis : isalnum ellipsis = false
  isdecimal_ascii : ∀ c, c.isAscii = true → isdecimal c = c.isDigitAscii
  isdecimal_isalnum : ∀ c, isdecimal c = true → isalnum c = true
  digit_ascii : ∀ c, c.isDigitAscii = true → digit c = c.val - 0x30
  upper_ascii : ∀ c, c.isAscii = true → upper c = [c.toUpperAscii]
  upper_dotlessI : upper dotlessI = lit "I"
  upper_longS : upper longS = lit "S"
  /-- No other character has a wholly ASCII upper case. -/
  upper_nonascii : ∀ c, c.isAscii = false → c ≠ dotlessI → c ≠ longS →
    (∃ d ∈ upper c, d.isAscii = false) ∨ upper c ∈ ligatures
  upper_letter : ∀ c, c.isAscii = false → ∀ d ∈ upper c, d.isAscii = true →
    d.isUpperAscii = true
  lower_ascii : ∀ s : PyStr, (∀ c ∈ s, c.isAscii = true) → lower s = s.map toLowerAscii
  lower_nonascii : ∀ s : PyStr, (∃ c ∈ s, c.isAscii = false ∧ c ≠ kelvin) →
    ∃ d ∈ lower s, d.isAscii = false

/--
The letter that upper-casing makes of a character when it makes one ASCII letter of
it: besides the two ASCII cases, U+0131 counts as `I` and U+017F as `S`.
-/
def CodePoint.looseUpper (c : CodePoint) : CodePoint :=
  if c = dotlessI then ch 'I' else if c = longS then ch 'S' else c.toUpperAscii

theorem CodePoint.looseUpper_of_ascii
    {c : CodePoint} (hc : c.isAscii = true) :
    c.looseUpper = c.toUpperAscii := by
  have hI : c ≠ dotlessI := by
    rintro rfl
    cases hc
  have hS : c ≠ longS := by
    rintro rfl
    cases hc
  rw [looseUpper, if_neg hI, if_neg hS]

theorem CodePoint.toUpperAscii_of_nonascii
    {c : CodePoint} (hc : c.isAscii = false) :
    c.toUpperAscii = c := by
  unfold toUpperAscii
  rw [dif_neg]
  simp only [isAscii, decide_eq_false_iff_not, isLowerAscii, decide_eq_true_eq] at hc ⊢
  omega

/-- An ASCII upper case comes from an ASCII character. -/
theorem CodePoint.isAscii_of_toUpperAscii
    {c : CodePoint} (h : c.toUpperAscii.isAscii = true) :
    c.isAscii = true := by
  by_contra hc
  have hc' : c.isAscii = false := by simpa using hc
  rw [toUpperAscii_of_nonascii hc'] at h
  exact hc h

namespace UnicodeData

/-- `str.upper()`. -/
def upperStr (U : UnicodeData) (s : PyStr) : PyStr :=
  s.flatMap U.upper

/-- `\w`. -/
def isWord (U : UnicodeData) (c : CodePoint) : Bool :=
  U.isalnum c || c == ch '_'

/-- ASCII with the two letters whose upper case is ASCII. -/
def basic : UnicodeData where
  isalnum := isAlnumAscii
  isdecimal := isDigitAscii
  digit c := c.val - 0x30
  upper c := [c.looseUpper]
  lower s := s.map toLowerAscii
  isalnum_ascii _ _ := rfl
  isalnum_space c hc := by
    simp only [isSpace, isAlnumAscii, isUpperAscii, isLowerAscii, isDigitAscii,
      Bool.or_eq_false_iff, decide_eq_true_eq, decide_eq_false_iff_not] at hc ⊢
    omega
  isalnum_ellipsis := by decide
  isdecimal_ascii _ _ := rfl
  isdecimal_isalnum c hc := by
    simp [isAlnumAscii, hc]
  digit_ascii _ _ := rfl
  upper_ascii c hc := by
    rw [looseUpper_of_ascii hc]
  upper_dotlessI := by decide
  upper_longS := by decide
  upper_nonascii c hc hI hS := by
    refine Or.inl ⟨c, ?_, hc⟩
    rw [looseUpper, if_neg hI, if_neg hS, toUpperAscii_of_nonascii hc]
    exact List.mem_singleton.mpr rfl
  upper_letter c hc d hd hascii := by
    rw [List.mem_singleton] at hd
    unfold looseUpper at hd
    split_ifs at hd
    · rw [hd]
      decide
    · rw [hd]
      decide
    · rw [hd, toUpperAscii_of_nonascii hc, hc] at hascii
      cases hascii
  lower_ascii _ _ := rfl
  lower_nonascii s hs := by
    obtain ⟨c, hc, hascii, _⟩ := hs
    refine ⟨c.toLowerAscii, List.mem_map_of_mem hc, ?_⟩
    have hupper : ¬ c.isUpperAscii = true := by
      simp only [isAscii, decide_eq_false_iff_not, isUpperAscii, decide_eq_true_eq] at hascii ⊢
      omega
    rw [toLowerAscii, dif_neg hupper]
    exact hascii

variable (U : UnicodeData)

/-- Upper-casing makes the loose upper case of a character, or no ASCII letter. -/
theorem upper_cases
    (c : CodePoint) :
    U.upper c = [c.looseUpper] ∨
      c.looseUpper.isAscii = false ∧
        ((∃ d ∈ U.upper c, d.isAscii = false) ∨ U.upper c ∈ ligatures) := by
  cases hc : c.isAscii with
  | true =>
      left
      rw [U.upper_ascii c hc, looseUpper_of_ascii hc]
  | false =>
      by_cases hI : c = dotlessI
      · subst hI
        exact Or.inl U.upper_dotlessI
      · by_cases hS : c = longS
        · subst hS
          exact Or.inl U.upper_longS
        · refine Or.inr ⟨?_, U.upper_nonascii c hc hI hS⟩
          rw [looseUpper, if_neg hI, if_neg hS, toUpperAscii_of_nonascii hc, hc]

theorem upperStr_eq_self
    {U : UnicodeData} {s : PyStr}
    (h : ∀ c ∈ s, c.isAscii = true ∧ c.toUpperAscii = c) :
    U.upperStr s = s := by
  induction s with
  | nil =>
      rfl
  | cons c s ih =>
      obtain ⟨hascii, hupper⟩ := h c (by simp)
      have htail : U.upperStr s = s := ih fun d hd => h d (List.mem_cons_of_mem c hd)
      calc
        U.upperStr (c :: s) = U.upper c ++ U.upperStr s := rfl
        _ = c :: s := by rw [U.upper_ascii c hascii, hupper, htail]; rfl

/-- **An upper case without ligatures** is read off letter by letter. -/
theorem upperStr_eq_iff
    (s : PyStr) :
    ∀ {verb : PyStr}, (∀ c ∈ verb, c.isAscii = true) →
      (∀ l ∈ ligatures, ¬ l <:+: verb) →
      (U.upperStr s = verb ↔ s.map looseUpper = verb) := by
  induction s with
  | nil =>
      intro verb _ _
      rfl
  | cons c s ih =>
      intro verb hascii hlig
      have hcons : U.upperStr (c :: s) = U.upper c ++ U.upperStr s := rfl
      rw [hcons, List.map_cons]
      rcases U.upper_cases c with hone | ⟨hloose, hupper⟩
      · rw [hone]
        cases verb with
        | nil =>
            simp
        | cons d verb =>
            have htail : U.upperStr s = verb ↔ s.map looseUpper = verb := ih
              (fun e he => hascii e (List.mem_cons_of_mem _ he))
              (fun l hl hsub => hlig l hl (hsub.trans (List.suffix_cons d verb).isInfix))
            simp [htail]
      · -- neither side can be the verb
        constructor
        · intro h
          exfalso
          rcases hupper with ⟨d, hd, hdascii⟩ | hmem
          · have hd' : d ∈ verb := by
              rw [← h]
              exact List.mem_append_left _ hd
            rw [hascii d hd'] at hdascii
            cases hdascii
          · exact hlig _ hmem (h ▸ (List.prefix_append _ _).isInfix)
        · intro h
          exfalso
          have hd' : c.looseUpper ∈ verb := by
            rw [← h]
            exact List.mem_cons_self
          rw [hascii _ hd'] at hloose
          cases hloose

/-- The part in front of a parenthesis may be upper-cased before or after it is taken. -/
theorem beforeFirst_upperStr
    (s : PyStr) :
    beforeFirst (ch '(') (U.upperStr s) = U.upperStr (beforeFirst (ch '(') s) := by
  induction s with
  | nil =>
      rfl
  | cons c s ih =>
      have hcons : U.upperStr (c :: s) = U.upper c ++ U.upperStr s := rfl
      rw [hcons]
      by_cases hc : c = ch '('
      · subst hc
        have hparen : U.upper (ch '(') = [ch '('] := by
          rw [U.upper_ascii _ (by decide)]
          decide
        simp [beforeFirst, hparen, upperStr]
      · have hnot : ∀ d ∈ U.upper c, d ≠ ch '(' := by
          intro d hd hparen
          subst hparen
          cases hascii : c.isAscii with
          | true =>
              rw [U.upper_ascii c hascii, List.mem_singleton] at hd
              refine hc ?_
              unfold toUpperAscii at hd
              split_ifs at hd with hlower
              · have hval := congrArg CodePoint.val hd
                simp only [isLowerAscii, decide_eq_true_eq] at hlower
                simp only [ch] at hval
                have hp : '('.toNat = 40 := rfl
                omega
              · exact hd.symm
          | false =>
              have := U.upper_letter c hascii _ hd (by decide)
              revert this
              decide
        have htake : ∀ x y : PyStr, (∀ d ∈ x, d ≠ ch '(') →
            beforeFirst (ch '(') (x ++ y) = x ++ beforeFirst (ch '(') y := by
          intro x y hx
          exact List.takeWhile_append_of_pos fun d hd => by simpa using hx d hd
        rw [htake _ _ hnot, ih]
        have hstep : beforeFirst (ch '(') (c :: s) = c :: beforeFirst (ch '(') s := by
          simp [beforeFirst, hc]
        rw [hstep]
        rfl

end UnicodeData

end MqSentinel
