import MqSentinel.OrderedDict
import MqSentinel.PyText

/-!
# Raw rows

What the matchers read of IBM MQ: rows of named cells.  A cell that came from a reply
is a string; callers that build rows themselves also put numbers, booleans and `None`
into them.

`PyInt.ofStr` is `int()` on a string, with the Unicode digits, the underscores between
digits and the limit on their number; the matchers catch its errors or pass them on.
-/

namespace MqSentinel

open CodePoint

namespace PyInt

/-- `sys.int_info.default_max_str_digits` -/
def maxStrDigits : Nat := 4300

/-- Digits with single underscores between them; `digit` tells whether one stands in front. -/
def digitsFrom (U : UnicodeData) : Bool → PyStr → Option (List Nat)
  | digit, [] => if digit then some [] else none
  | digit, c :: cs =>
      if U.isdecimal c then (digitsFrom U true cs).map (U.digit c :: ·)
      else if c = ch '_' ∧ digit then digitsFrom U false cs
      else none

/-- The digits of a numeral without its sign. -/
def digits (U : UnicodeData) (s : PyStr) : Option (List Nat) :=
  match digitsFrom U false s with
  | none => none
  | some ds => if ds.length > maxStrDigits then none else some ds

/-- The number with these digits. -/
def value (ds : List Nat) : Nat :=
  ds.foldl (fun n d => 10 * n + d) 0

/-- What `int()` strips: white space without the four separators of ASCII. -/
def isMargin (c : CodePoint) : Bool :=
  c.isSpace && !decide (0x1C ≤ c.val ∧ c.val ≤ 0x1F)

/-- `int(s)`; `none` is the `ValueError`. -/
def ofStr (U : UnicodeData) (s : PyStr) : Option Int :=
  match (s.dropWhile isMargin).rdropWhile isMargin with
  | [] => none
  | c :: cs =>
      if c = ch '-' then (digits U cs).map fun ds => -(value ds : Int)
      else if c = ch '+' then (digits U cs).map fun ds => (value ds : Int)
      else (digits U (c :: cs)).map fun ds => (value ds : Int)

/-- `str(n)` -/
def toStr (n : Int) : PyStr :=
  lit (toString n)

section Decimals

variable (U : UnicodeData)

/-- A decimal digit is neither a sign nor white space. -/
theorem decimal_ne
    {c : CodePoint} (h : U.isdecimal c = true) :
    isMargin c = false ∧ c ≠ ch '-' ∧ c ≠ ch '+' := by
  have hspace : c.isSpace = false := by
    by_contra hspace
    have halnum := U.isdecimal_isalnum c h
    rw [U.isalnum_space c (by simpa using hspace)] at halnum
    cases halnum
  refine ⟨by simp [isMargin, hspace], ?_, ?_⟩
  · rintro rfl
    rw [U.isdecimal_ascii _ (by decide)] at h
    revert h
    decide
  · rintro rfl
    rw [U.isdecimal_ascii _ (by decide)] at h
    revert h
    decide

theorem digitsFrom_of_decimal
    {w : PyStr} (h : ∀ c ∈ w, U.isdecimal c = true) (b : Bool) (hb : b = true ∨ w ≠ []) :
    digitsFrom U b w = some (w.map U.digit) := by
  induction w generalizing b with
  | nil =>
      obtain rfl : b = true := by simpa using hb
      rfl
  | cons c w ih =>
      rw [digitsFrom, if_pos (h c (by simp)),
        ih (fun d hd => h d (List.mem_cons_of_mem _ hd)) true (Or.inl rfl)]
      rfl

/-- What `int()` makes of decimal digits, when there are not too many. -/
theorem ofStr_of_decimal
    {w : PyStr} (h : ∀ c ∈ w, U.isdecimal c = true) (hne : w ≠ []) :
    ofStr U w =
      if w.length ≤ maxStrDigits then some (value (w.map U.digit) : Int) else none := by
  have hfront : w.dropWhile isMargin = w := by
    refine List.dropWhile_eq_self_iff.mpr fun hlen => ?_
    simp [(decimal_ne U (h _ (List.getElem_mem hlen))).1]
  have hback : w.rdropWhile isMargin = w := by
    refine List.rdropWhile_eq_self_iff.mpr fun hne => ?_
    simp [(decimal_ne U (h _ (List.getLast_mem hne))).1]
  have hdigits : digits U w =
      if w.length ≤ maxStrDigits then some (w.map U.digit) else none := by
    rw [digits, digitsFrom_of_decimal U h false (Or.inr hne)]
    dsimp only
    rw [List.length_map]
    split_ifs with hlong hshort hshort
    · omega
    · rfl
    · rfl
    · omega
  rw [ofStr, hfront, hback]
  cases w with
  | nil =>
      exact absurd rfl hne
  | cons c w =>
      obtain ⟨-, hminus, hplus⟩ := decimal_ne U (h c (by simp))
      dsimp only
      rw [if_neg hminus, if_neg hplus, hdigits]
      split_ifs <;> rfl

/-- `int()` reads a decimal number unless it has too many digits. -/
theorem isSome_ofStr_iff
    {w : PyStr} (h : ∀ c ∈ w, U.isdecimal c = true) (hne : w ≠ []) :
    (ofStr U w).isSome = true ↔ w.length ≤ maxStrDigits := by
  rw [ofStr_of_decimal U h hne]
  split_ifs with hlen
  · simp [hlen]
  · simp [hlen]

/-- `int(str(n))`, as far as numbers can be that long. -/
theorem ofStr_toStr (n : Nat) :
    ofStr U (toStr n) = if n < 10 ^ maxStrDigits then some (n : Int) else none := by
  have htext : toStr n = (Nat.toDigits 10 n).map ch := by
    rw [toStr, lit]
    exact congrArg _ Nat.toList_repr
  have hdigit : ∀ c ∈ Nat.toDigits 10 n, (ch c).isDigitAscii = true := by
    intro c hc
    have hrange := Char.isDigit_iff_toNat.mp
      (Nat.isDigit_of_mem_toDigits (by decide) (by decide) hc)
    exact decide_eq_true hrange
  have hdecimal : ∀ c ∈ toStr n, U.isdecimal c = true := by
    rw [htext, List.forall_mem_map]
    intro c hc
    have hascii : (ch c).isAscii = true := by
      have := hdigit c hc
      simp only [isDigitAscii, isAscii, decide_eq_true_eq] at this ⊢
      omega
    rw [U.isdecimal_ascii _ hascii, hdigit c hc]
  have hvalue : ∀ (cs : List Char) (k : Nat), (∀ c ∈ cs, (ch c).isDigitAscii = true) →
      (cs.map fun c => U.digit (ch c)).foldl (fun m d => 10 * m + d) k =
        Nat.ofDigitChars 10 cs k := by
    intro cs
    induction cs with
    | nil =>
        simp
    | cons c cs ih =>
        intro k hcs
        rw [List.map_cons, List.foldl_cons, Nat.ofDigitChars_cons,
          ih _ fun d hd => hcs d (List.mem_cons_of_mem _ hd), U.digit_ascii _ (hcs c (by simp))]
        rfl
  have hne : toStr n ≠ [] := by
    rw [htext]
    simp
  rw [ofStr_of_decimal U hdecimal hne, htext, List.length_map, value, List.map_map]
  simp only [Nat.length_toDigits_le_iff (b := 10) (by decide) (k := maxStrDigits)
    (by decide)]
  rw [show (U.digit ∘ ch) = fun c => U.digit (ch c) from rfl, hvalue _ _ hdigit,
    Nat.ofDigitChars_toDigits (by decide) (by decide)]

end Decimals

end PyInt

/-- `str(n)` of a length or a count. -/
def natStr (n : Nat) : PyStr :=
  PyInt.toStr n

/-- A value in a row. -/
inductive Cell where
  | none
  | bool (b : Bool)
  | int (n : Int)
  | str (s : PyStr)
deriving DecidableEq

namespace Cell

/-- Truth value. -/
def truthy : Cell → Bool
  | none => false
  | bool b => b
  | int n => n != 0
  | str s => !s.isEmpty

/-- `x or y` -/
def orElse (x y : Cell) : Cell :=
  if x.truthy then x else y

/-- `str(x)` -/
def toStr : Cell → PyStr
  | none => lit "None"
  | bool true => lit "True"
  | bool false => lit "False"
  | int n => PyInt.toStr n
  | str s => s

/-- `int(x)`; `none` is the `TypeError` or the `ValueError`. -/
def toInt (U : UnicodeData) : Cell → Option Int
  | none => Option.none
  | bool b => some (if b then 1 else 0)
  | int n => some n
  | str s => PyInt.ofStr U s

/-- `int(n or 0)` is the number. -/
theorem toInt_orElse_zero (U : UnicodeData) (n : Int) :
    ((int n).orElse (int 0)).toInt U = some n := by
  unfold orElse truthy
  by_cases hn : n = 0
  · simp [hn, toInt]
  · simp [hn, toInt]

/-- A value that is not there gives way to the default. -/
theorem toInt_orElse_int (U : UnicodeData) (x : Cell) (d : Int) :
    ((x.orElse (int d)).toInt U).getD d = if x.truthy then (x.toInt U).getD d else d := by
  by_cases hx : x.truthy = true
  · simp [orElse, hx]
  · simp [orElse, hx, toInt]

/-- The second value counts when the first is not there. -/
theorem toInt_orElse_orElse (U : UnicodeData) (x y : Cell) (d : Int) :
    (((x.orElse y).orElse (int d)).toInt U).getD d =
      if x.truthy then (x.toInt U).getD d else ((y.orElse (int d)).toInt U).getD d := by
  by_cases hx : x.truthy = true
  · simp [orElse, hx]
  · simp [orElse, hx]

end Cell

/-- A row. -/
abbrev Row := OrderedDict PyStr Cell

namespace Row

/-- `row.get(key)` -/
def get (row : Row) (key : String) : Cell :=
  (row.get? (lit key)).getD .none

/-- `row.get(key, default)` -/
def getOr (row : Row) (key : String) (default : Cell) : Cell :=
  (row.get? (lit key)).getD default

section Update

variable (row : Row) (c : Cell) {key other : String}

theorem get_set_self : get (row.set (lit key) c) key = c := by
  simp [get]

theorem get_set_of_ne (h : other ≠ key) :
    get (row.set (lit key) c) other = row.get other := by
  simp [get, lit_injective.ne h]

theorem getOr_set_self (d : Cell) : getOr (row.set (lit key) c) key d = c := by
  simp [getOr]

theorem getOr_set_of_ne (h : other ≠ key) (d : Cell) :
    getOr (row.set (lit key) c) other d = row.getOr other d := by
  simp [getOr, lit_injective.ne h]

end Update

end Row

end MqSentinel
