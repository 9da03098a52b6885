import MqSentinel.MqscParser

/-!
# Reading the attributes of one line

`readOn` is the attribute loop entered with some attributes already read.  Its four
equations say what a round does with whitespace, with an attribute and with any other
token, and the theorems about whole lines use nothing else of the loop.

A value is read up to its own closing parenthesis when its quotes are closed and its
parentheses balance (`readFrom_closed`); inside an open quoted string it takes the rest
of the line (`readFrom_unclosed`).
-/

namespace MqSentinel
namespace Mqsc

open Regex CodePoint

section Keys

/-- `[A-Z][A-Z0-9_]*` -/
def isKey : PyStr → Bool
  | [] => false
  | c :: cs => c.isUpperAscii && cs.all isKeyChar

theorem keyChar_of_isKey
    {k : PyStr} (hk : isKey k = true) :
    ∀ c ∈ k, isKeyChar c = true := by
  cases k with
  | nil =>
      cases hk
  | cons c cs =>
      rw [isKey, Bool.and_eq_true, List.all_eq_true] at hk
      intro d hd
      rcases List.mem_cons.mp hd with rfl | hd
      · simp [isKeyChar, hk.1]
      · exact hk.2 d hd

/-- A key is read up to the first character that is none of its own. -/
theorem matchKey_append
    {k rest : PyStr} (hk : isKey k = true)
    (hrest : ∀ c ∈ rest.head?, isKeyChar c = false) :
    matchKey (k ++ rest) = some (k, rest) := by
  cases k with
  | nil =>
      cases hk
  | cons c cs =>
      rw [isKey, Bool.and_eq_true, List.all_eq_true] at hk
      obtain ⟨hc, hcs⟩ := hk
      have hend : rest.takeWhile isKeyChar = [] ∧ rest.dropWhile isKeyChar = rest := by
        cases rest with
        | nil =>
            exact ⟨rfl, rfl⟩
        | cons d rest =>
            have hd := hrest d rfl
            simp [hd]
      rw [List.cons_append, matchKey, if_pos hc, List.takeWhile_append_of_pos hcs,
        List.dropWhile_append_of_pos hcs, hend.1, hend.2, List.append_nil]

theorem matchKey_eq_some
    {s k rest : PyStr} (h : matchKey s = some (k, rest)) :
    s = k ++ rest ∧ k ≠ [] := by
  cases s with
  | nil =>
      cases h
  | cons c cs =>
      simp only [matchKey] at h
      split_ifs at h with hc
      simp only [Option.some.injEq, Prod.mk.injEq] at h
      obtain ⟨rfl, rfl⟩ := h
      exact ⟨by rw [List.cons_append, List.takeWhile_append_dropWhile], by simp⟩

/-- The text starts with `KEY(`. -/
def startsPair (s : PyStr) : Bool :=
  match matchKey s with
  | some (_, c :: _) => c == ch '('
  | _ => false

/-- Whether a token starts with `KEY(` does not depend on what follows it. -/
theorem startsPair_append_space
    (w t : PyStr) {c : CodePoint} (hc : c.isSpace = true) :
    startsPair (w ++ c :: t) = startsPair w := by
  have hkey : isKeyChar c = false := not_key_of_isStop (isStop_of_isSpace hc)
  have hparen : (c == ch '(') = false := by
    rw [beq_eq_false_iff_ne]
    rintro rfl
    revert hc
    decide
  cases w with
  | nil =>
      have hupper := not_upper_of_isStop (isStop_of_isSpace hc)
      simp [startsPair, matchKey, hupper]
  | cons d w =>
      have hdrop : (w ++ c :: t).dropWhile isKeyChar = w.dropWhile isKeyChar ++ c :: t := by
        rw [List.dropWhile_append]
        split_ifs with hnil
        · rw [List.isEmpty_iff.mp hnil]
          simp [hkey]
        · rfl
      unfold startsPair matchKey
      rw [List.cons_append]
      by_cases hd : d.isUpperAscii = true
      · simp only [hd, if_true, hdrop]
        cases w.dropWhile isKeyChar with
        | nil =>
            simpa using hparen
        | cons e x =>
            rfl
      · simp [hd]

end Keys

section Values

/--
Quotes are closed and parentheses balanced outside of them, from inside `depth` open
parentheses and, with `quoted`, inside a quoted string.
-/
def closed : Nat → Bool → PyStr → Bool
  | depth, quoted, [] => depth == 0 && !quoted
  | depth, true, c :: cs => closed depth (c != quote) cs
  | depth, false, c :: cs =>
      if c = quote then closed depth true cs
      else if c = ch '(' then closed (depth + 1) false cs
      else if c = ch ')' then depth != 0 && closed (depth - 1) false cs
      else closed depth false cs

/-- **A value is read up to its own parenthesis.** -/
theorem readFrom_closed
    (rest : PyStr) :
    ∀ (v : PyStr) (depth : Nat) (quoted : Bool), closed depth quoted v = true →
      readFrom (depth + 1) quoted (v ++ ch ')' :: rest) = (v, rest)
  | [], depth, quoted, h => by
      simp only [closed, Bool.and_eq_true, beq_iff_eq, Bool.not_eq_true'] at h
      obtain ⟨rfl, rfl⟩ := h
      have hquote : ch ')' ≠ quote := by decide
      have hopen : ch ')' ≠ ch '(' := by decide
      simp [readFrom, hquote, hopen]
  | c :: v, depth, false, h => by
      rw [List.cons_append, readFrom]
      unfold closed at h
      split_ifs at h ⊢ with hquote hopen hclose hdepth
      · simp [readFrom_closed rest v depth true h]
      · simp [readFrom_closed rest v (depth + 1) false h]
      · -- the last open parenthesis is not closed inside the value
        rw [Bool.and_eq_true, bne_iff_ne] at h
        omega
      · rw [Bool.and_eq_true, bne_iff_ne] at h
        have hsucc : depth + 1 - 1 = depth - 1 + 1 := by omega
        rw [hsucc, readFrom_closed rest v (depth - 1) false h.2]
        rfl
      · simp [readFrom_closed rest v depth false h]
  | [c], depth, true, h => by
      by_cases hc : c = quote
      · subst hc
        have hnext := readFrom_closed rest [] depth false (by simpa [closed] using h)
        have hquote : ch ')' ≠ quote := by decide
        rw [List.nil_append] at hnext
        simp [readFrom, hquote, hnext]
      · simp [closed, hc] at h
  | c :: d :: v, depth, true, h => by
      rw [List.cons_append, List.cons_append, readFrom]
      unfold closed at h
      by_cases hc : c = quote
      · rw [if_pos hc]
        have hcq : (c != quote) = false := by simp [hc]
        rw [hcq] at h
        by_cases hd : d = quote
        · -- an escaped quote closes and opens again
          rw [if_pos hd]
          have hv : closed depth true v = true := by
            simpa [closed, hd] using h
          simp [readFrom_closed rest v depth true hv]
        · rw [if_neg hd]
          have := readFrom_closed rest (d :: v) depth false h
          rw [List.cons_append] at this
          simp [this]
      · rw [if_neg hc]
        have hcq : (c != quote) = true := by simp [hc]
        rw [hcq] at h
        have := readFrom_closed rest (d :: v) depth true h
        rw [List.cons_append] at this
        simp [this]

/-- The text of a quoted string, with its quotes doubled. -/
def escape (t : PyStr) : PyStr :=
  t.flatMap fun c => if c = quote then [quote, quote] else [c]

@[simp] theorem escape_nil :
    escape [] = [] := by
  rfl

@[simp] theorem escape_append
    (s t : PyStr) :
    escape (s ++ t) = escape s ++ escape t := by
  simp [escape]

theorem escape_cons_quote
    (t : PyStr) :
    escape (quote :: t) = quote :: quote :: escape t := by
  simp [escape]

theorem escape_cons_of_ne
    {c : CodePoint} (hc : c ≠ quote) (t : PyStr) :
    escape (c :: t) = c :: escape t := by
  simp [escape, hc]

/-- A quoted string that is not closed takes the rest of the line. -/
theorem readFrom_unclosed
    (depth : Nat) (t : PyStr) :
    readFrom depth true (escape t) = (escape t, []) := by
  induction t with
  | nil =>
      simp [readFrom]
  | cons c t ih =>
      by_cases hc : c = quote
      · subst hc
        simp [escape_cons_quote, readFrom, ih]
      · rw [escape_cons_of_ne hc]
        cases ht : escape t with
        | nil =>
            simp [readFrom]
        | cons d x =>
            rw [ht] at ih
            simp [readFrom, hc, ih]

/-- A quoted string with its quotes doubled is closed by its last quote. -/
theorem closed_escape
    (t : PyStr) :
    closed 0 true (escape t ++ [quote]) = true := by
  induction t with
  | nil =>
      simp [closed]
  | cons c t ih =>
      by_cases hc : c = quote
      · subst hc
        simpa [escape_cons_quote, closed] using ih
      · have hopen : (c != quote) = true := by simp [hc]
        rw [escape_cons_of_ne hc, List.cons_append, closed, hopen]
        exact ih

/-- What is left behind a value is no longer than what was there. -/
theorem length_readFrom_le
    (depth : Nat) (quoted : Bool) (s : PyStr) :
    (readFrom depth quoted s).2.length ≤ s.length := by
  fun_induction readFrom depth quoted s with
  | case1 | case2 | case8 =>
      simp
  | case3 _ _ ih | case4 _ _ _ _ ih | case5 _ _ _ _ _ ih | case6 _ _ ih | case7 _ _ _ ih
  | case9 _ _ _ _ _ ih | case10 _ _ _ _ _ _ ih =>
      simp only [Prod.map_snd, id_eq, List.length_cons] at ih ⊢
      omega

end Values

section Tokens

/-- `KEY(VALUE)` is read as an attribute, whatever follows it. -/
theorem attributeToken_pair
    {k v : PyStr} (hk : isKey k = true) (hv : closed 0 false v = true) (hstrip : strip v = v)
    (pairsOnly : Bool) (rest : PyStr) :
    attributeToken pairsOnly (k ++ ch '(' :: (v ++ ch ')' :: rest)) = some (k, v, rest) := by
  have hparen : ∀ c ∈ (ch '(' :: (v ++ ch ')' :: rest)).head?, isKeyChar c = false := by
    intro c hc
    obtain rfl : ch '(' = c := by simpa using hc
    decide
  have hread : readValue (v ++ ch ')' :: rest) = (v, rest) := by
    rw [readValue, readFrom_closed rest v 0 false hv]
    simp [hstrip]
  rw [attributeToken, matchKey_append hk hparen]
  simp only [if_true, hread]

/-- A bare keyword is read as an attribute when the line may hold them. -/
theorem attributeToken_bare
    {k rest : PyStr} (hk : isKey k = true) (hrest : ∀ c ∈ rest.head?, c.isSpace = true) :
    attributeToken false (k ++ rest) = some (k, [], rest) := by
  have hkey : ∀ c ∈ rest.head?, isKeyChar c = false :=
    fun c hc => not_key_of_isStop (isStop_of_isSpace (hrest c hc))
  rw [attributeToken, matchKey_append hk hkey]
  cases rest with
  | nil =>
      rfl
  | cons c rest =>
      have hc := hrest c rfl
      have hparen : c ≠ ch '(' := by
        rintro rfl
        revert hc
        decide
      simp [hparen, hc]

/-- Where only pairs count, an attribute is what starts with `KEY(`. -/
theorem isSome_attributeToken_true
    (s : PyStr) :
    (attributeToken true s).isSome = startsPair s := by
  unfold attributeToken startsPair
  cases matchKey s with
  | none =>
      rfl
  | some p =>
      obtain ⟨k, rest⟩ := p
      cases rest with
      | nil =>
          rfl
      | cons c rest =>
          by_cases hc : c = ch '('
          · simp [hc]
          · simp [hc]

/-- An attribute takes at least its key. -/
theorem length_attributeToken_lt
    {pairsOnly : Bool} {s k v rest : PyStr}
    (h : attributeToken pairsOnly s = some (k, v, rest)) :
    rest.length < s.length := by
  unfold attributeToken at h
  split at h
  next => cases h
  next key hmatch =>
      split_ifs at h
      obtain ⟨rfl, hne⟩ := matchKey_eq_some hmatch
      have hpos := List.length_pos_iff.mpr hne
      simp only [Option.some.injEq, Prod.mk.injEq] at h
      rw [← h.2.2, List.length_append, List.length_nil]
      omega
  next key c cs hmatch =>
      obtain ⟨rfl, hne⟩ := matchKey_eq_some hmatch
      have hpos := List.length_pos_iff.mpr hne
      rw [List.length_append, List.length_cons]
      split_ifs at h
      · simp only [Option.some.injEq, Prod.mk.injEq] at h
        have hrest : (readValue cs).2 = rest := by rw [h.2]
        have hle : (readValue cs).2.length ≤ cs.length := length_readFrom_le 1 false cs
        rw [hrest] at hle
        omega
      · simp only [Option.some.injEq, Prod.mk.injEq] at h
        rw [← h.2.2, List.length_cons]
        omega

theorem length_skipToken_lt
    {c : CodePoint} (hc : c.isSpace = false) (s : PyStr) :
    (skipToken (c :: s)).length < (c :: s).length := by
  rw [skipToken, List.dropWhile_cons_of_pos (by simp [hc]), List.length_cons]
  exact Nat.lt_succ_of_le (List.length_dropWhile_le _ s)

end Tokens

section Loop

/-- The rounds that are left do not matter as long as there are enough. -/
theorem parseFrom_fuel
    (pairsOnly : Bool) :
    ∀ (n m : Nat) (attrs : Attrs) (s : PyStr), s.length ≤ n → s.length ≤ m →
      parseFrom pairsOnly n attrs s = parseFrom pairsOnly m attrs s
  | 0, 0, _, _, _, _ => rfl
  | 0, m + 1, attrs, s, hn, _ => by
      obtain rfl := List.length_eq_zero_iff.mp (Nat.le_zero.mp hn)
      rfl
  | n + 1, 0, attrs, s, _, hm => by
      obtain rfl := List.length_eq_zero_iff.mp (Nat.le_zero.mp hm)
      rfl
  | n + 1, m + 1, attrs, [], _, _ => rfl
  | n + 1, m + 1, attrs, c :: s, hn, hm => by
      rw [List.length_cons] at hn hm
      rw [parseFrom, parseFrom]
      by_cases hc : c.isSpace = true
      · rw [if_pos hc, if_pos hc]
        exact parseFrom_fuel pairsOnly n m attrs s (by omega) (by omega)
      · rw [if_neg hc, if_neg hc]
        cases htoken : attributeToken pairsOnly (c :: s) with
        | some p =>
            obtain ⟨k, v, rest⟩ := p
            have hlt := length_attributeToken_lt htoken
            rw [List.length_cons] at hlt
            exact parseFrom_fuel pairsOnly n m _ rest (by omega) (by omega)
        | none =>
            have hlt := length_skipToken_lt (by simpa using hc) s
            rw [List.length_cons] at hlt
            have hskip := parseFrom_fuel pairsOnly n m attrs (skipToken (c :: s))
              (by omega) (by omega)
            simp only [hskip]

/-- The loop of `_parse_attributes` with the attributes `attrs` already read. -/
def readOn (pairsOnly : Bool) (attrs : Attrs) (s : PyStr) : Attrs :=
  parseFrom pairsOnly s.length attrs s

@[simp] theorem readOn_nil
    (pairsOnly : Bool) (attrs : Attrs) :
    readOn pairsOnly attrs [] = attrs := by
  rfl

/-- Whitespace is passed over. -/
theorem readOn_space
    (pairsOnly : Bool) (attrs : Attrs) {c : CodePoint} (hc : c.isSpace = true) (s : PyStr) :
    readOn pairsOnly attrs (c :: s) = readOn pairsOnly attrs s := by
  rw [readOn, List.length_cons, parseFrom, if_pos hc]
  rfl

theorem readOn_spaces
    (pairsOnly : Bool) (attrs : Attrs) {ws : PyStr} (hws : ∀ c ∈ ws, c.isSpace = true)
    (s : PyStr) :
    readOn pairsOnly attrs (ws ++ s) = readOn pairsOnly attrs s := by
  induction ws with
  | nil =>
      rfl
  | cons c ws ih =>
      rw [List.cons_append, readOn_space _ _ (hws c (by simp))]
      exact ih fun d hd => hws d (List.mem_cons_of_mem _ hd)

/-- An attribute is stored, and the loop goes on behind it. -/
theorem readOn_attribute
    {pairsOnly : Bool} (attrs : Attrs) {s k v rest : PyStr}
    (hs : ∀ c ∈ s.head?, c.isSpace = false)
    (htoken : attributeToken pairsOnly s = some (k, v, rest)) :
    readOn pairsOnly attrs s = readOn pairsOnly (attrs.set k v) rest := by
  have hlt := length_attributeToken_lt htoken
  cases s with
  | nil =>
      cases hlt
  | cons c s =>
      have hc := hs c rfl
      rw [List.length_cons] at hlt
      rw [readOn, List.length_cons, parseFrom, if_neg (by simp [hc]), htoken]
      exact parseFrom_fuel pairsOnly _ _ _ rest (by omega) le_rfl

/-- Any other token is passed over, except at the start of an attribute line. -/
theorem readOn_skip
    {pairsOnly : Bool} {attrs : Attrs} {s : PyStr}
    (hs : ∀ c ∈ s.head?, c.isSpace = false)
    (htoken : attributeToken pairsOnly s = none)
    (hkeep : attrs.nonempty = true ∨ pairsOnly = true) :
    readOn pairsOnly attrs s = readOn pairsOnly attrs (skipToken s) := by
  cases s with
  | nil =>
      rfl
  | cons c s =>
      have hc := hs c rfl
      have hlt := length_skipToken_lt hc s
      rw [List.length_cons] at hlt
      have hgo : ¬ (!attrs.nonempty && !pairsOnly) = true := by
        rcases hkeep with h | h <;> simp [h]
      rw [readOn, List.length_cons, parseFrom, if_neg (by simp [hc]), htoken]
      simp only [if_neg hgo]
      exact parseFrom_fuel pairsOnly _ _ _ _ (by omega) le_rfl

/-- On the first token of an attribute line the line is dropped. -/
theorem readOn_dropped
    {pairsOnly : Bool} {attrs : Attrs} {s : PyStr} (hne : s ≠ [])
    (hs : ∀ c ∈ s.head?, c.isSpace = false)
    (htoken : attributeToken pairsOnly s = none)
    (hfirst : (!attrs.nonempty && !pairsOnly) = true) :
    readOn pairsOnly attrs s = OrderedDict.empty := by
  cases s with
  | nil =>
      exact absurd rfl hne
  | cons c s =>
      have hc := hs c rfl
      rw [readOn, List.length_cons, parseFrom, if_neg (by simp [hc]), htoken]
      simp only [if_pos hfirst]

/-- A word and a space: where only pairs count, the word is passed over or starts a pair. -/
theorem readOn_word
    (attrs : Attrs) {w y : PyStr}
    (hw : ∀ c ∈ w, c.isSpace = false) (hy : ∀ c ∈ y.head?, c.isSpace = true)
    (hpair : startsPair w = false) :
    readOn true attrs (w ++ y) = readOn true attrs y := by
  cases w with
  | nil =>
      rfl
  | cons c w =>
      have hc : c.isSpace = false := hw c (by simp)
      have hstart : startsPair (c :: w ++ y) = false := by
        cases y with
        | nil =>
            rwa [List.append_nil]
        | cons d y =>
            rwa [startsPair_append_space _ _ (hy d rfl)]
      have htoken : attributeToken true (c :: w ++ y) = none := by
        rw [← Option.isNone_iff_eq_none, ← Option.not_isSome, isSome_attributeToken_true, hstart]
        rfl
      have hskip : skipToken (c :: w ++ y) = y := by
        rw [skipToken, List.dropWhile_append_of_pos fun d hd => by simp [hw d hd]]
        cases y with
        | nil =>
            rfl
        | cons d y =>
            rw [List.dropWhile_cons_of_neg (by simp [hy d rfl])]
      rw [readOn_skip (by simpa using hc) htoken (Or.inr rfl), hskip]

/-- **Prose in front of pairs** is passed over. -/
theorem readOn_prose
    (attrs : Attrs) {prose y : PyStr}
    (hprose : ch '(' ∉ prose) (hy : ∀ c ∈ y.head?, c.isSpace = true) :
    readOn true attrs (prose ++ y) = readOn true attrs y := by
  have hword : ∀ w : PyStr, ch '(' ∉ w → startsPair w = false := by
    intro w hw
    unfold startsPair
    split
    next k c rest hmatch =>
        obtain ⟨rfl, _⟩ := matchKey_eq_some hmatch
        rw [beq_eq_false_iff_ne]
        rintro rfl
        exact hw (by simp)
    next => rfl
  induction prose using words_induction with
  | word w hw =>
      exact readOn_word attrs hw hy (hword w hprose)
  | space w c t hw hc ih =>
      simp only [List.mem_append, List.mem_cons, not_or] at hprose
      rw [List.append_assoc, List.cons_append,
        readOn_word attrs hw (by simpa using hc) (hword w hprose.1), readOn_space _ _ hc]
      exact ih hprose.2.2

/-- Once an attribute is read, the row stays. -/
theorem nonempty_readOn
    {pairsOnly : Bool} {attrs : Attrs} (hattrs : attrs.nonempty = true) (s : PyStr) :
    (readOn pairsOnly attrs s).nonempty = true := by
  have hfuel : ∀ (n : Nat) (attrs : Attrs) (s : PyStr), attrs.nonempty = true →
      (parseFrom pairsOnly n attrs s).nonempty = true := by
    intro n
    induction n with
    | zero =>
        intro attrs s h
        exact h
    | succ n ih =>
        intro attrs s h
        cases s with
        | nil =>
            exact h
        | cons c s =>
            rw [parseFrom]
            by_cases hc : c.isSpace = true
            · rw [if_pos hc]
              exact ih attrs s h
            · rw [if_neg hc]
              cases attributeToken pairsOnly (c :: s) with
              | some p =>
                  exact ih _ _ (OrderedDict.nonempty_set attrs p.1 p.2.1)
              | none =>
                  simp only [h, Bool.not_true, Bool.false_and, Bool.false_eq_true, if_false]
                  exact ih attrs _ h
  exact hfuel s.length attrs s hattrs

/-- **A message line yields a row** exactly when one of its tokens starts with `KEY(`. -/
theorem nonempty_readOn_iff
    (s : PyStr) :
    (readOn true OrderedDict.empty s).nonempty = true ↔
      ∃ w ∈ split s, startsPair w = true := by
  have hfound : ∀ w y : PyStr, (∀ c ∈ w, c.isSpace = false) →
      (∀ c ∈ y.head?, c.isSpace = true) → startsPair w = true →
      (readOn true OrderedDict.empty (w ++ y)).nonempty = true := by
    intro w y hw hy hpair
    have hstart : startsPair (w ++ y) = true := by
      cases y with
      | nil =>
          rwa [List.append_nil]
      | cons d y =>
          rwa [startsPair_append_space _ _ (hy d rfl)]
    obtain ⟨⟨k, v, rest⟩, htoken⟩ :=
      Option.isSome_iff_exists.mp ((isSome_attributeToken_true (w ++ y)).trans hstart)
    have hhead : ∀ c ∈ (w ++ y).head?, c.isSpace = false := by
      cases w with
      | nil =>
          cases hpair
      | cons d w =>
          simpa using hw d (by simp)
    rw [readOn_attribute _ hhead htoken]
    exact nonempty_readOn (OrderedDict.nonempty_set _ k v) rest
  induction s using words_induction with
  | word w hw =>
      rw [split_word hw]
      cases hpair : startsPair w with
      | true =>
          have hne : w ≠ [] := by
            rintro rfl
            cases hpair
          have := hfound w [] hw (by simp) hpair
          rw [List.append_nil] at this
          simp [this, hne, hpair]
      | false =>
          have := readOn_word OrderedDict.empty (y := []) hw (by simp) hpair
          rw [List.append_nil, readOn_nil] at this
          rw [this]
          by_cases hne : w = []
          · simp [hne, OrderedDict.nonempty, OrderedDict.empty]
          · simp [hne, hpair, OrderedDict.nonempty, OrderedDict.empty]
  | space w c t hw hc ih =>
      have hhead : ∀ d ∈ (c :: t).head?, d.isSpace = true := by simpa using hc
      rw [split_append_space w t hc, split_word hw]
      cases hpair : startsPair w with
      | true =>
          have hne : w ≠ [] := by
            rintro rfl
            cases hpair
          have := hfound w (c :: t) hw hhead hpair
          simp [this, hne, hpair]
      | false =>
          rw [readOn_word OrderedDict.empty hw hhead hpair, readOn_space _ _ hc]
          by_cases hne : w = []
          · simpa [hne] using ih
          · simpa [hne, hpair] using ih

end Loop

end Mqsc
end MqSentinel
