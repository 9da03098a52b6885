import MqSentinel.SanitizerPipeline

/-!
# What the sanitizer returns

Control characters, zero-width characters and tag characters are filtered out of the
text before anything is put in, and the redaction tokens and the truncation mark hold
none of them.  So a sanitized string is clean whatever the normalisation did, and the
cut bounds its length.

Over a value the sanitizer is a map: `SameShape` compares what it returns with what it
was given, and `EveryString` says something of each string leaf.
-/

namespace MqSentinel
namespace Sanitizer

open Regex CodePoint

/-- A character that the sanitizer strips. -/
def isStripped (c : CodePoint) : Bool :=
  isControl c || isZeroWidth c || isTagChar c

/-- A string as the sanitizer promises it. -/
structure CleanString (maxLen : Nat) (s : PyStr) : Prop where
  no_control : ∀ c ∈ s, isControl c = false
  no_zero_width : ∀ c ∈ s, isZeroWidth c = false
  no_tag : ∀ c ∈ s, isTagChar c = false
  bounded : s.length ≤ maxLen + 12

mutual

/-- The same kinds, keys and lengths, and the same leaves where they are no strings. -/
def SameShape : PyValue → PyValue → Prop
  | .none, .none => True
  | .bool b, .bool c => b = c
  | .int n, .int m => n = m
  | .float x, .float y => x = y
  | .str _, .str _ => True
  | .list xs, .list ys => SameShapeAll xs ys
  | .tuple xs, .tuple ys => SameShapeAll xs ys
  | .dict ps, .dict qs => SameShapeItems ps qs
  | _, _ => False

def SameShapeAll : List PyValue → List PyValue → Prop
  | [], [] => True
  | x :: xs, y :: ys => SameShape x y ∧ SameShapeAll xs ys
  | _, _ => False

def SameShapeItems : List (PyStr × PyValue) → List (PyStr × PyValue) → Prop
  | [], [] => True
  | (k, v) :: ps, (l, w) :: qs => k = l ∧ SameShape v w ∧ SameShapeItems ps qs
  | _, _ => False

end

mutual

/-- Every string leaf of a value satisfies `P`. -/
def EveryString (P : PyStr → Prop) : PyValue → Prop
  | .str s => P s
  | .list xs => EveryStringAll P xs
  | .tuple xs => EveryStringAll P xs
  | .dict items => EveryStringItems P items
  | _ => True

def EveryStringAll (P : PyStr → Prop) : List PyValue → Prop
  | [] => True
  | x :: xs => EveryString P x ∧ EveryStringAll P xs

def EveryStringItems (P : PyStr → Prop) : List (PyStr × PyValue) → Prop
  | [] => True
  | (_, v) :: items => EveryString P v ∧ EveryStringItems P items

end

section Strings

variable (U : UnicodeData)
variable (nfkc : PyStr → PyStr)

/-- The last three passes over a normalised text are filters. -/
theorem clean_eq_filter (value : PyStr) :
    clean nfkc value =
      (((sub ansiEscape (fun _ => []) (nfkc value)).filter fun c => !isControl c).filter
        fun c => !isZeroWidth c).filter fun c => !isTagChar c := by
  simp only [clean, controlChars, zeroWidth, tagChars, sub_cls_erase]

theorem isStripped_of_mem_clean (value : PyStr) :
    ∀ c ∈ clean nfkc value, isStripped c = false := by
  intro c hc
  simp only [clean_eq_filter, List.mem_filter, Bool.not_eq_true'] at hc
  obtain ⟨⟨⟨-, hcontrol⟩, hzero⟩, htag⟩ := hc
  simp [isStripped, hcontrol, hzero, htag]

theorem isStripped_of_mem_redacted :
    ∀ c ∈ redacted, isStripped c = false := by
  decide +kernel

theorem isStripped_of_mem_redactedUrl :
    ∀ c ∈ redactedUrl, isStripped c = false := by
  decide +kernel

theorem isStripped_of_mem_truncationMark :
    ∀ c ∈ truncationMark, isStripped c = false := by
  decide +kernel

/-- The redaction of the markers, one pattern after another, keeps a text clean. -/
theorem isStripped_of_mem_scrub
    {text : PyStr} (htext : ∀ c ∈ text, isStripped c = false) :
    ∀ c ∈ scrubInjectionMarkers U text, isStripped c = false := by
  unfold scrubInjectionMarkers
  generalize injectionMarkers U = patterns
  induction patterns generalizing text with
  | nil =>
      exact htext
  | cons pattern patterns ih =>
      exact ih (forall_mem_sub htext fun _ _ => isStripped_of_mem_redacted)

theorem isStripped_of_mem_dropDisallowedUrls
    (hosts : List PyStr)
    {text : PyStr} (htext : ∀ c ∈ text, isStripped c = false) :
    ∀ c ∈ dropDisallowedUrls U hosts text, isStripped c = false := by
  apply forall_mem_sub htext
  intro m hm
  by_cases hallowed : hostAllowed U hosts m = true
  · simpa [hallowed] using hm
  · simpa [hallowed] using isStripped_of_mem_redactedUrl

theorem isStripped_of_mem_truncate
    (maxLen : Nat)
    {text : PyStr} (htext : ∀ c ∈ text, isStripped c = false) :
    ∀ c ∈ truncate maxLen text, isStripped c = false := by
  unfold truncate
  split
  · intro c hc
    rcases List.mem_append.mp hc with hfront | hmark
    · exact htext c (List.mem_of_mem_take hfront)
    · exact isStripped_of_mem_truncationMark c hmark
  · exact htext

theorem length_truncate_le (maxLen : Nat) (text : PyStr) :
    (truncate maxLen text).length ≤ maxLen + 12 := by
  have hmark : truncationMark.length = 12 := by
    decide +kernel
  unfold truncate
  split
  · simp only [List.length_append, List.length_take, hmark]
    omega
  · omega

/-- The sanitizer on one string. -/
theorem cleanString_sanitizeMqOutput
    (hosts : List PyStr) (maxLen : Nat) (value : PyStr) :
    CleanString maxLen (sanitizeMqOutput U nfkc hosts maxLen value) := by
  have hclean : ∀ c ∈ sanitizeMqOutput U nfkc hosts maxLen value, isStripped c = false :=
    isStripped_of_mem_truncate maxLen
      (isStripped_of_mem_dropDisallowedUrls U hosts
        (isStripped_of_mem_scrub U (isStripped_of_mem_clean nfkc value)))
  simp only [isStripped, Bool.or_eq_false_iff] at hclean
  exact
    { no_control := fun c hc => (hclean c hc).1.1
      no_zero_width := fun c hc => (hclean c hc).1.2
      no_tag := fun c hc => (hclean c hc).2
      bounded := length_truncate_le maxLen _ }

end Strings

section Values

variable (U : UnicodeData)
variable (nfkc : PyStr → PyStr)
variable (hosts : List PyStr) (maxLen : Nat)

mutual

/-- The sanitizer changes no shape and no leaf but strings. -/
theorem sameShape_sanitizeValue :
    ∀ v : PyValue, SameShape v (sanitizeValue U nfkc hosts maxLen v)
  | .none => trivial
  | .bool _ => rfl
  | .int _ => rfl
  | .float _ => rfl
  | .str _ => trivial
  | .list xs => sameShape_sanitizeAll xs
  | .tuple xs => sameShape_sanitizeAll xs
  | .dict items => sameShape_sanitizeItems items

theorem sameShape_sanitizeAll :
    ∀ xs : List PyValue, SameShapeAll xs (sanitizeAll U nfkc hosts maxLen xs)
  | [] => trivial
  | x :: xs => ⟨sameShape_sanitizeValue x, sameShape_sanitizeAll xs⟩

theorem sameShape_sanitizeItems :
    ∀ items : List (PyStr × PyValue),
      SameShapeItems items (sanitizeItems U nfkc hosts maxLen items)
  | [] => trivial
  | (_, v) :: items => ⟨rfl, sameShape_sanitizeValue v, sameShape_sanitizeItems items⟩

end

mutual

/-- Every string leaf of a sanitized value went through the sanitizer. -/
theorem everyString_sanitizeValue :
    ∀ v : PyValue, EveryString (CleanString maxLen) (sanitizeValue U nfkc hosts maxLen v)
  | .none => trivial
  | .bool _ => trivial
  | .int _ => trivial
  | .float _ => trivial
  | .str s => cleanString_sanitizeMqOutput U nfkc hosts maxLen s
  | .list xs => everyString_sanitizeAll xs
  | .tuple xs => everyString_sanitizeAll xs
  | .dict items => everyString_sanitizeItems items

theorem everyString_sanitizeAll :
    ∀ xs : List PyValue,
      EveryStringAll (CleanString maxLen) (sanitizeAll U nfkc hosts maxLen xs)
  | [] => trivial
  | x :: xs => ⟨everyString_sanitizeValue x, everyString_sanitizeAll xs⟩

theorem everyString_sanitizeItems :
    ∀ items : List (PyStr × PyValue),
      EveryStringItems (CleanString maxLen) (sanitizeItems U nfkc hosts maxLen items)
  | [] => trivial
  | (_, v) :: items => ⟨everyString_sanitizeValue v, everyString_sanitizeItems items⟩

end

/-- A sanitized value has its shape, its other leaves, and clean bounded strings. -/
theorem sanitizer_output_invariant (v : PyValue) :
    SameShape v (sanitizeValue U nfkc hosts maxLen v) ∧
      EveryString (CleanString maxLen) (sanitizeValue U nfkc hosts maxLen v) :=
  ⟨sameShape_sanitizeValue U nfkc hosts maxLen v,
    everyString_sanitizeValue U nfkc hosts maxLen v⟩

end Values

end Sanitizer
end MqSentinel
