import MqSentinel.PyText

/-!
# Python bytes

Slices, stripping, big-endian integers and UTF-8 decoding with
`errors="replace"`.

The decoder reads one byte at a time.  Between characters it is in `start`;
inside one it is in `more`, which knows how many continuation bytes are owed and
the range of the next one.  A byte outside that range ends the sequence with one
U+FFFD and is then read as a first byte, which is the replacement policy of
CPython: one U+FFFD for each maximal well-formed prefix.
-/

namespace MqSentinel

open CodePoint

/-- A Python `bytes` value. -/
abbrev PyBytes := List UInt8

namespace PyBytes

/-- `b[i:j]`. -/
def slice (b : PyBytes) (i j : Nat) : PyBytes :=
  (b.take j).drop i

/-- `b.rstrip(b" \x00")`. -/
def rstripBlankNul (b : PyBytes) : PyBytes :=
  b.rdropWhile fun c => c == 0x20 || c == 0x00

/-- The unsigned big-endian value. -/
def toNatBig (b : PyBytes) : Nat :=
  b.foldl (fun n c => 256 * n + c.toNat) 0

/-- `int.from_bytes(b, "big", signed=True)`. -/
def toIntBig (b : PyBytes) : Int :=
  if 2 * toNatBig b < 256 ^ b.length then (toNatBig b : Int)
  else (toNatBig b : Int) - (256 ^ b.length : Nat)

/-- U+FFFD. -/
def replacement : CodePoint := ⟨0xFFFD, by decide⟩

/-- The code point `n`. -/
def codePoint (n : Nat) : CodePoint :=
  if h : n < 0x110000 then ⟨n, h⟩ else replacement

/-- The decoder between two bytes. -/
inductive Utf8State where
  | start
  | more (owed acc lo hi : Nat) (hlo : 0x80 ≤ lo)

/-- A byte that starts a character or stands alone. -/
def utf8First (b : UInt8) : PyStr × Utf8State :=
  let n := b.toNat
  if n < 0x80 then ([codePoint n], .start)
  else if 0xC2 ≤ n ∧ n ≤ 0xDF then ([], .more 1 (n - 0xC0) 0x80 0xBF (by decide))
  else if n = 0xE0 then ([], .more 2 0 0xA0 0xBF (by decide))
  else if n = 0xED then ([], .more 2 0xD 0x80 0x9F (by decide))
  else if 0xE1 ≤ n ∧ n ≤ 0xEF then ([], .more 2 (n - 0xE0) 0x80 0xBF (by decide))
  else if n = 0xF0 then ([], .more 3 0 0x90 0xBF (by decide))
  else if 0xF1 ≤ n ∧ n ≤ 0xF3 then ([], .more 3 (n - 0xF0) 0x80 0xBF (by decide))
  else if n = 0xF4 then ([], .more 3 4 0x80 0x8F (by decide))
  else ([replacement], .start)

/-- One byte: what it completes, and the state after it. -/
def utf8Step : Utf8State → UInt8 → PyStr × Utf8State
  | .start, b => utf8First b
  | .more owed acc lo hi _, b =>
      if lo ≤ b.toNat ∧ b.toNat ≤ hi then
        if owed ≤ 1 then ([codePoint (64 * acc + (b.toNat - 0x80))], .start)
        else
          ([], .more (owed - 1) (64 * acc + (b.toNat - 0x80)) 0x80 0xBF (by decide))
      else
        (replacement :: (utf8First b).1, (utf8First b).2)

/-- The end of the input. -/
def utf8Finish : Utf8State → PyStr
  | .start => []
  | .more .. => [replacement]

def utf8Run : Utf8State → PyBytes → PyStr
  | q, [] => utf8Finish q
  | q, b :: bs => (utf8Step q b).1 ++ utf8Run (utf8Step q b).2 bs

/-- `b.decode(errors="replace")`. -/
def decodeReplace (b : PyBytes) : PyStr :=
  utf8Run .start b

theorem utf8First_ascii
    {b : UInt8} (hb : b.toNat < 0x80) :
    utf8First b = ([codePoint b.toNat], .start) := by
  simp [utf8First, hb]

/-- An ASCII byte at the end is decoded by itself, whatever stands before it. -/
theorem utf8Run_snoc_ascii
    {b : UInt8} (hb : b.toNat < 0x80) :
    ∀ (bs : PyBytes) (q : Utf8State),
      utf8Run q (bs ++ [b]) = utf8Run q bs ++ [codePoint b.toNat]
  | [], .start => by
      simp [utf8Run, utf8Step, utf8Finish, utf8First_ascii hb]
  | [], .more owed acc lo hi hlo => by
      have hrange : ¬ (lo ≤ b.toNat ∧ b.toNat ≤ hi) := by omega
      simp [utf8Run, utf8Step, utf8Finish, hrange, utf8First_ascii hb]
  | c :: bs, q => by
      simp only [List.cons_append, utf8Run, utf8Run_snoc_ascii hb bs,
        List.append_assoc]

theorem decodeReplace_snoc_ascii
    {b : UInt8} (hb : b.toNat < 0x80) (bs : PyBytes) :
    decodeReplace (bs ++ [b]) = decodeReplace bs ++ [codePoint b.toNat] :=
  utf8Run_snoc_ascii hb bs .start

theorem rstripBlankNul_snoc
    {b : UInt8} (hblank : b ≠ 0x20) (hnul : b ≠ 0x00) (bs : PyBytes) :
    rstripBlankNul (bs ++ [b]) = bs ++ [b] := by
  apply List.rdropWhile_concat_neg
  simp [hblank, hnul]

end PyBytes

end MqSentinel
