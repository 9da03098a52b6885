import MqSentinel.PyBytes
import MqSentinel.OrderedDict

/-!
# JSON values and their serialiser

`Json` holds what Python's JSON decoder produces: integers of any size, floats
(as their 64 bits), strings that may contain lone surrogates, lists, and objects
as items in insertion order.

`orjson` is a third-party package.  Its functions are the fields of `Orjson`, and
what is relied on is stated as a property of them where it is used.
-/

namespace MqSentinel

/-- A JSON value as Python holds it. -/
inductive Json where
  | null
  | bool (b : Bool)
  | int (n : Int)
  | float (bits : UInt64)
  | str (s : PyStr)
  | arr (xs : List Json)
  | obj (items : List (PyStr × Json))

namespace Json

mutual

/-- Structural equality. -/
def beq : Json → Json → Bool
  | null, null => true
  | bool b, bool c => b == c
  | int n, int m => n == m
  | float x, float y => x == y
  | str s, str t => s == t
  | arr xs, arr ys => beqAll xs ys
  | obj ps, obj qs => beqItems ps qs
  | _, _ => false

def beqAll : List Json → List Json → Bool
  | [], [] => true
  | x :: xs, y :: ys => beq x y && beqAll xs ys
  | _, _ => false

def beqItems : List (PyStr × Json) → List (PyStr × Json) → Bool
  | [], [] => true
  | p :: ps, q :: qs => p.1 == q.1 && beq p.2 q.2 && beqItems ps qs
  | _, _ => false

end

mutual

theorem beq_iff : ∀ v w : Json, beq v w = true ↔ v = w
  | null, w => by
      cases w <;> simp [beq]
  | bool _, w => by
      cases w <;> simp [beq]
  | int _, w => by
      cases w <;> simp [beq]
  | float _, w => by
      cases w <;> simp [beq]
  | str _, w => by
      cases w <;> simp [beq]
  | arr xs, w => by
      cases w with
      | arr ys =>
          simp [beq, beqAll_iff xs ys]
      | _ =>
          simp [beq]
  | obj ps, w => by
      cases w with
      | obj qs =>
          simp [beq, beqItems_iff ps qs]
      | _ =>
          simp [beq]

theorem beqAll_iff : ∀ xs ys : List Json, beqAll xs ys = true ↔ xs = ys
  | [], ys => by
      cases ys <;> simp [beqAll]
  | x :: xs, ys => by
      cases ys with
      | nil =>
          simp [beqAll]
      | cons y ys =>
          simp [beqAll, beq_iff x y, beqAll_iff xs ys]

theorem beqItems_iff :
    ∀ ps qs : List (PyStr × Json), beqItems ps qs = true ↔ ps = qs
  | [], qs => by
      cases qs <;> simp [beqItems]
  | (k, v) :: ps, qs => by
      cases qs with
      | nil =>
          simp [beqItems]
      | cons q qs =>
          simp [beqItems, beq_iff v q.2, beqItems_iff ps qs, Prod.ext_iff]

end

instance : DecidableEq Json :=
  fun v w => decidable_of_iff _ (beq_iff v w)

/-- No lone surrogate. -/
def utf8Encodable (s : PyStr) : Bool :=
  s.all fun c => decide (c.val < 0xD800 ∨ 0xDFFF < c.val)

mutual

/--
What `orjson.dumps` accepts: integers in `[-2^63, 2^64-1]` and strings that have
a UTF-8 form, keys included.
-/
def serialisable : Json → Bool
  | null => true
  | bool _ => true
  | int n => decide (-(2 ^ 63) ≤ n ∧ n < 2 ^ 64)
  | float _ => true
  | str s => utf8Encodable s
  | arr xs => serialisableAll xs
  | obj items => serialisableItems items

def serialisableAll : List Json → Bool
  | [] => true
  | x :: xs => serialisable x && serialisableAll xs

def serialisableItems : List (PyStr × Json) → Bool
  | [] => true
  | p :: ps => utf8Encodable p.1 && serialisable p.2 && serialisableItems ps

end

/-- Optional text: `None` is `null`. -/
def ofOption : Option PyStr → Json
  | none => null
  | some s => str s

theorem serialisableItems_append
    (ps qs : List (PyStr × Json)) :
    serialisableItems (ps ++ qs) = (serialisableItems ps && serialisableItems qs) := by
  induction ps with
  | nil =>
      simp [serialisableItems]
  | cons p ps ih =>
      simp [serialisableItems, ih, Bool.and_assoc]

/-- The values of serialisable items are serialisable. -/
theorem serialisable_of_mem
    {p : PyStr × Json} {ps : List (PyStr × Json)}
    (h : serialisableItems ps = true) (hp : p ∈ ps) :
    serialisable p.2 = true := by
  induction ps with
  | nil =>
      cases hp
  | cons q ps ih =>
      simp only [serialisableItems, Bool.and_eq_true] at h
      rcases List.mem_cons.mp hp with rfl | hp
      · exact h.1.2
      · exact ih h.2 hp

/-- An object as a dictionary: of equal keys the last value counts. -/
def asDict : Json → Option (OrderedDict PyStr Json)
  | obj items => some (OrderedDict.ofList items)
  | _ => none

end Json

/-- The functions of `orjson`; `none` is an exception. -/
structure Orjson where
  /-- `orjson.dumps(v)` -/
  dumps : Json → Option PyBytes
  /-- `orjson.dumps(v, option=orjson.OPT_SORT_KEYS)` -/
  dumpsSorted : Json → Option PyBytes
  /-- `orjson.loads(b)` -/
  loads : PyBytes → Option Json

/-- `dumps` serialises the value if it is serialisable, with and without sorted keys. -/
def Orjson.SerialisesExactlyAt (oj : Orjson) (v : Json) : Prop :=
  (oj.dumps v).isSome = v.serialisable ∧ (oj.dumpsSorted v).isSome = v.serialisable

/-- `dumps` serialises exactly the serialisable values, with and without sorted keys. -/
def Orjson.SerialisesExactly (oj : Orjson) : Prop :=
  ∀ v, oj.SerialisesExactlyAt v

section Reference

/-!
## A reference serialiser

The compact text of a value, with its keys sorted or not.  Floats are written as
their bits, and control characters always in the long form.
-/

namespace Json

/-- ASCII text as bytes. -/
def ascii (s : String) : PyBytes :=
  s.toList.map fun c => UInt8.ofNat c.toNat

def hexDigit (n : Nat) : UInt8 :=
  if n < 10 then UInt8.ofNat (0x30 + n) else UInt8.ofNat (0x57 + n)

/-- The UTF-8 form of a code point. -/
def utf8Bytes (c : CodePoint) : PyBytes :=
  let n := c.val
  if n < 0x80 then [UInt8.ofNat n]
  else if n < 0x800 then [UInt8.ofNat (0xC0 + n / 0x40), UInt8.ofNat (0x80 + n % 0x40)]
  else if n < 0x10000 then
    [UInt8.ofNat (0xE0 + n / 0x1000), UInt8.ofNat (0x80 + n / 0x40 % 0x40),
      UInt8.ofNat (0x80 + n % 0x40)]
  else
    [UInt8.ofNat (0xF0 + n / 0x40000), UInt8.ofNat (0x80 + n / 0x1000 % 0x40),
      UInt8.ofNat (0x80 + n / 0x40 % 0x40), UInt8.ofNat (0x80 + n % 0x40)]

/-- A character inside a JSON string. -/
def escaped (c : CodePoint) : PyBytes :=
  if c.val = 0x22 ∨ c.val = 0x5C then [0x5C, UInt8.ofNat c.val]
  else if c.val < 0x20 then
    [0x5C, 0x75, 0x30, 0x30, hexDigit (c.val / 16), hexDigit (c.val % 16)]
  else utf8Bytes c

def stringText (s : PyStr) : PyBytes :=
  0x22 :: s.flatMap escaped ++ [0x22]

def natText (n : Nat) : PyBytes :=
  (Nat.toDigits 10 n).map fun c => UInt8.ofNat c.toNat

mutual

/-- The compact text of a value. -/
def text : Json → PyBytes
  | null => ascii "null"
  | bool b => ascii (if b then "true" else "false")
  | int n => (if n < 0 then [0x2D] else []) ++ natText n.natAbs
  | float bits => natText bits.toNat
  | str s => stringText s
  | arr xs => 0x5B :: textAll xs ++ [0x5D]
  | obj items => 0x7B :: textItems items ++ [0x7D]

def textAll : List Json → PyBytes
  | [] => []
  | [x] => text x
  | x :: xs => text x ++ 0x2C :: textAll xs

def textItems : List (PyStr × Json) → PyBytes
  | [] => []
  | [p] => stringText p.1 ++ 0x3A :: text p.2
  | p :: ps => stringText p.1 ++ 0x3A :: text p.2 ++ 0x2C :: textItems ps

end

/-- Keys in the order of their code points. -/
def keyLe : PyStr → PyStr → Bool
  | [], _ => true
  | _ :: _, [] => false
  | c :: s, d :: t => decide (c.val < d.val) || (c == d && keyLe s t)

/-- An item put in its place among sorted items. -/
def insertItem (p : PyStr × Json) : List (PyStr × Json) → List (PyStr × Json)
  | [] => [p]
  | q :: qs => if keyLe p.1 q.1 then p :: q :: qs else q :: insertItem p qs

mutual

/-- The value with the keys of every object sorted. -/
def sortKeys : Json → Json
  | arr xs => arr (sortKeysAll xs)
  | obj items => obj (sortKeysItems items)
  | v => v

def sortKeysAll : List Json → List Json
  | [] => []
  | x :: xs => sortKeys x :: sortKeysAll xs

def sortKeysItems : List (PyStr × Json) → List (PyStr × Json)
  | [] => []
  | p :: ps => insertItem (p.1, sortKeys p.2) (sortKeysItems ps)

end

end Json

/-- The reference serialiser; it reads back the texts of the values in `known`. -/
def Orjson.reference (known : List Json) : Orjson where
  dumps v := if v.serialisable then some v.text else none
  dumpsSorted v := if v.serialisable then some v.sortKeys.text else none
  loads b := known.find? fun v => v.text == b || v.text ++ [0x0A] == b

theorem Orjson.serialisesExactly_reference
    (known : List Json) :
    (Orjson.reference known).SerialisesExactly := by
  intro v
  cases hv : v.serialisable <;> simp [SerialisesExactlyAt, reference, hv]

end Reference

end MqSentinel
