import MqSentinel.OrderedDict
import MqSentinel.PyText
import MqSentinel.RegexSubstitution

/-!
# The MQSC reply parser

The reply is cut at inline message ids, then into lines, and every message line
starts a new row.  The attributes of a line are read by a loop over its characters
(`parseFrom`), and a value by a loop inside that one (`readFrom`).

The rest of the module says what each of the three loops does on a text whose shape
is known: where the inline pattern matches, which lines are message lines, and how a
round of the attribute loop ends.
-/

namespace MqSentinel
namespace Mqsc

open Regex CodePoint

/-- One row: the attributes of an object in the order in which they were first read. -/
abbrev Attrs := OrderedDict PyStr PyStr

/-- `[ \t]` -/
def isBlank (c : CodePoint) : Bool :=
  c == ch ' ' || c == tab

/-- `[A-Z0-9_]` -/
def isKeyChar (c : CodePoint) : Bool :=
  c.isUpperAscii || c.isDigitAscii || c == ch '_'

section Patterns

variable (U : UnicodeData)

/-- `AMQ\d{4}[A-Z]:` -/
def amqId : List (CodePoint → Bool) :=
  (lit "AMQ").map one ++ List.replicate 4 U.isdecimal ++ [isUpperAscii, one (ch ':')]

/-- `CSQ[A-Z0-9]\d{3}[A-Z]` -/
def csqId : List (CodePoint → Bool) :=
  (lit "CSQ").map one ++ [fun c => c.isUpperAscii || c.isDigitAscii] ++
    List.replicate 3 U.isdecimal ++ [isUpperAscii]

/-- `_MESSAGE_LINE`, behind its `^`: `\s*(?:AMQ\d{4}[A-Z]:|CSQ[A-Z0-9]\d{3}[A-Z]\b)` -/
def messageLine : Rx CodePoint :=
  Rx.seq (Rx.star (Rx.cls isSpace))
    (Rx.alt (Rx.word (amqId U)) (Rx.seq (Rx.word (csqId U)) (Rx.edge U.isWord)))

/-- `_INLINE_AMQ`: `(?<=\S)[ \t]+(?=AMQ\d{4}[A-Z]:)` -/
def inlineAmq : Rx CodePoint :=
  Rx.seq (Rx.behind fun c => !c.isSpace)
    (Rx.seq (Rx.plus (Rx.cls isBlank)) (Rx.ahead (Rx.word (amqId U))))

/-- `_MESSAGE_LINE.match(line)` -/
def isMessageLine (line : PyStr) : Bool :=
  (Rx.first (messageLine U) [] line).isSome

/-- `_INLINE_AMQ.sub("\n", text)` -/
def breakInline (text : PyStr) : PyStr :=
  sub (inlineAmq U) (fun _ => [lf]) text

end Patterns

/-- `_KEY.match(line, i)`: the key that starts here and what follows it. -/
def matchKey : PyStr → Option (PyStr × PyStr)
  | [] => none
  | c :: cs =>
      if c.isUpperAscii then some (c :: cs.takeWhile isKeyChar, cs.dropWhile isKeyChar)
      else none

/--
The loop of `_read_value`: the text read and what follows it, with `depth` open
parentheses, and `quoted` inside a quoted string.
-/
def readFrom : Nat → Bool → PyStr → PyStr × PyStr
  | _, _, [] => ([], [])
  | _, true, [c] => ([c], [])
  | depth, true, c :: d :: cs =>
      if c = quote then
        -- '' is an escaped quote
        if d = quote then (readFrom depth true cs).map (c :: d :: ·) id
        else (readFrom depth false (d :: cs)).map (c :: ·) id
      else (readFrom depth true (d :: cs)).map (c :: ·) id
  | depth, false, c :: cs =>
      if c = quote then (readFrom depth true cs).map (c :: ·) id
      else if c = ch '(' then (readFrom (depth + 1) false cs).map (c :: ·) id
      else if c = ch ')' then
        if depth - 1 = 0 then ([], cs) else (readFrom (depth - 1) false cs).map (c :: ·) id
      else (readFrom depth false cs).map (c :: ·) id

/-- `_read_value`, from just after the parenthesis. -/
def readValue (s : PyStr) : PyStr × PyStr :=
  (readFrom 1 false s).map strip id

/--
The attribute that starts here, with its value and what follows it.  There is none
where the source finds no attribute token.
-/
def attributeToken (pairsOnly : Bool) (s : PyStr) : Option (PyStr × PyStr × PyStr) :=
  match matchKey s with
  | none => none
  | some (key, []) => if pairsOnly then none else some (key, [], [])
  | some (key, c :: cs) =>
      if c = ch '(' then some (key, readValue cs)
      else if c.isSpace && !pairsOnly then some (key, [], c :: cs)
      else none

/-- `while i < n and not line[i].isspace(): i += 1` -/
def skipToken (s : PyStr) : PyStr :=
  s.dropWhile fun c => !c.isSpace

/-- The loop of `_parse_attributes`; every round consumes a character. -/
def parseFrom (pairsOnly : Bool) : Nat → Attrs → PyStr → Attrs
  | 0, attrs, _ => attrs
  | _ + 1, attrs, [] => attrs
  | fuel + 1, attrs, c :: cs =>
      if c.isSpace then parseFrom pairsOnly fuel attrs cs
      else
        match attributeToken pairsOnly (c :: cs) with
        | some (key, value, rest) => parseFrom pairsOnly fuel (attrs.set key value) rest
        | none =>
            -- on the first token this is prose: drop the line
            if !attrs.nonempty && !pairsOnly then OrderedDict.empty
            else parseFrom pairsOnly fuel attrs (skipToken (c :: cs))

/-- `_parse_attributes` -/
def parseAttributes (pairsOnly : Bool) (line : PyStr) : Attrs :=
  parseFrom pairsOnly line.length OrderedDict.empty line

/-- `if current: rows.append(current)` -/
def flush : Option Attrs → List Attrs
  | none => []
  | some attrs => if attrs.nonempty then [attrs] else []

section Reply

variable (U : UnicodeData)

/-- The loop of `parse_mqsc_reply` over the lines, from the row that is being read. -/
def parseLines : Option Attrs → List PyStr → List Attrs
  | current, [] => flush current
  | current, line :: lines =>
      if isMessageLine U line then
        flush current ++ parseLines (some (parseAttributes true line)) lines
      else
        match current with
        | none => parseLines none lines
        | some attrs => parseLines (some (attrs.update (parseAttributes false line))) lines

theorem parseLines_message
    (current : Option Attrs) {line : PyStr} (hline : isMessageLine U line = true)
    (lines : List PyStr) :
    parseLines U current (line :: lines) =
      flush current ++ parseLines U (some (parseAttributes true line)) lines := by
  cases current <;> simp [parseLines, hline]

theorem parseLines_attributes
    (attrs : Attrs) {line : PyStr} (hline : isMessageLine U line = false)
    (lines : List PyStr) :
    parseLines U (some attrs) (line :: lines) =
      parseLines U (some (attrs.update (parseAttributes false line))) lines := by
  simp [parseLines, hline]

/-- `parse_mqsc_reply` -/
def parseMqscReply (text : PyStr) : List Attrs :=
  parseLines U none (splitlines (breakInline U text))

end Reply

section MessageIds

/-- A character that stands in no message id. -/
def isStop (c : CodePoint) : Bool :=
  c == ch '(' || c == ch ')' || c == quote || c.isSpace

variable (U : UnicodeData)

/-- The text starts with a distributed message id. -/
def startsAmq (s : PyStr) : Bool :=
  Rx.startsWith (amqId U) s

theorem isSpace_of_isBlank
    {c : CodePoint} (hc : isBlank c = true) :
    c.isSpace = true := by
  simp only [isBlank, Bool.or_eq_true, beq_iff_eq] at hc
  rcases hc with rfl | rfl <;> decide

theorem isStop_of_isSpace
    {c : CodePoint} (hc : c.isSpace = true) :
    isStop c = true := by
  simp [isStop, hc]

theorem not_upper_of_isStop
    {c : CodePoint} (hc : isStop c = true) :
    c.isUpperAscii = false := by
  simp only [isStop, Bool.or_eq_true, beq_iff_eq] at hc
  rcases hc with ((rfl | rfl) | rfl) | hc
  · decide
  · decide
  · decide
  · simp only [isSpace, isUpperAscii, decide_eq_true_eq, decide_eq_false_iff_not] at hc ⊢
    omega

theorem not_alnum_of_isStop
    {c : CodePoint} (hc : isStop c = true) :
    U.isalnum c = false := by
  simp only [isStop, Bool.or_eq_true, beq_iff_eq] at hc
  rcases hc with ((rfl | rfl) | rfl) | hc
  · rw [U.isalnum_ascii _ (by decide)]
    decide
  · rw [U.isalnum_ascii _ (by decide)]
    decide
  · rw [U.isalnum_ascii _ (by decide)]
    decide
  · exact U.isalnum_space c hc

theorem not_decimal_of_isStop
    {c : CodePoint} (hc : isStop c = true) :
    U.isdecimal c = false := by
  by_contra hdigit
  have := U.isdecimal_isalnum c (by simpa using hdigit)
  rw [not_alnum_of_isStop U hc] at this
  cases this

theorem not_key_of_isStop
    {c : CodePoint} (hc : isStop c = true) :
    isKeyChar c = false := by
  have hupper := not_upper_of_isStop hc
  have hdigit : c.isDigitAscii = false := by
    by_contra h
    have hascii : c.isAscii = true := by
      simp only [isDigitAscii, isAscii, Bool.not_eq_false, decide_eq_true_eq] at h ⊢
      omega
    have := not_decimal_of_isStop UnicodeData.basic hc
    exact h this
  have hline : (c == ch '_') = false := by
    rw [beq_eq_false_iff_ne]
    rintro rfl
    revert hc
    decide
  simp [isKeyChar, hupper, hdigit, hline]

theorem ne_of_upper
    {c d : CodePoint} (hc : c.isUpperAscii = false) (hd : d.isUpperAscii = true) :
    (c == d) = false := by
  rw [beq_eq_false_iff_ne]
  rintro rfl
  rw [hc] at hd
  cases hd

/-- No part of a message id fits a stop. -/
theorem amqId_stop
    {c : CodePoint} (hc : isStop c = true) :
    ∀ p ∈ amqId U, p c = false := by
  have hupper := not_upper_of_isStop hc
  have hcolon : (c == ch ':') = false := by
    rw [beq_eq_false_iff_ne]
    rintro rfl
    revert hc
    decide
  have hword : ∀ d ∈ lit "AMQ", d.isUpperAscii = true := by decide
  intro p hp
  simp only [amqId, List.mem_append, List.mem_map, List.mem_replicate, List.mem_cons,
    List.not_mem_nil, or_false] at hp
  rcases hp with (⟨d, hd, rfl⟩ | ⟨_, rfl⟩) | rfl | rfl
  · exact ne_of_upper hupper (hword d hd)
  · exact not_decimal_of_isStop U hc
  · exact hupper
  · exact hcolon

theorem csqId_stop
    {c : CodePoint} (hc : isStop c = true) :
    ∀ p ∈ csqId U, p c = false := by
  have hupper := not_upper_of_isStop hc
  have hword : ∀ d ∈ lit "CSQ", d.isUpperAscii = true := by decide
  have hkey : c.isDigitAscii = false := by
    have := not_key_of_isStop hc
    simp only [isKeyChar, Bool.or_eq_false_iff] at this
    exact this.1.2
  intro p hp
  simp only [csqId, List.mem_append, List.mem_map, List.mem_replicate, List.mem_cons,
    List.not_mem_nil, or_false] at hp
  rcases hp with ((⟨d, hd, rfl⟩ | rfl) | ⟨_, rfl⟩) | rfl
  · exact ne_of_upper hupper (hword d hd)
  · simp [hupper, hkey]
  · exact not_decimal_of_isStop U hc
  · exact hupper

theorem startsAmq_append_stop
    {c : CodePoint} (hc : isStop c = true) (x t : PyStr) :
    startsAmq U (x ++ c :: t) = startsAmq U x :=
  Rx.startsWith_append_stop (amqId_stop U hc) x t

/-- An id starts with a letter. -/
theorem startsAmq_cons_stop
    {c : CodePoint} (hc : isStop c = true) (t : PyStr) :
    startsAmq U (c :: t) = false :=
  startsAmq_append_stop U hc [] t

/-- A message id has a colon. -/
theorem colon_mem_of_startsAmq
    {s : PyStr} (h : startsAmq U s = true) :
    ch ':' ∈ s := by
  obtain ⟨u, v, rfl, hu⟩ := (Rx.startsWith_iff _ _).mp h
  have hcolon : ∀ (ps : List (CodePoint → Bool)) (u : PyStr),
      Rx.Fits ps u → one (ch ':') ∈ ps → ch ':' ∈ u := by
    intro ps u hfits
    induction hfits with
    | nil =>
        intro hmem
        cases hmem
    | @cons p c ps u hp _ ih =>
        intro hmem
        rcases List.mem_cons.mp hmem with rfl | hmem
        · have hc : c = ch ':' := by simpa [one] using hp
          simp [hc]
        · exact List.mem_cons_of_mem _ (ih hmem)
  exact List.mem_append_left _ (hcolon _ _ hu (by simp [amqId]))

end MessageIds

section InlineBreaks

variable (U : UnicodeData)

/-- Blanks start here, and behind them a message id. -/
def breaksAt (s : PyStr) : Bool :=
  s.head?.any isBlank && startsAmq U (s.dropWhile isBlank)

theorem lang_inlineAmq
    (pre w post : PyStr) :
    Rx.Lang (inlineAmq U) pre w post ↔
      pre.head?.any (fun c => !c.isSpace) = true ∧
        (w ≠ [] ∧ ∀ c ∈ w, isBlank c = true) ∧ startsAmq U post = true := by
  unfold inlineAmq Rx.behind
  rw [Rx.lang_seq_look]
  refine and_congr_right fun _ => ?_
  have hahead : ∀ pre v : PyStr,
      Rx.Lang (Rx.ahead (Rx.word (amqId U))) pre v post ↔
        v = [] ∧ startsAmq U post = true := by
    intro pre v
    rw [Rx.lang_ahead, startsAmq, Rx.startsWith_iff]
    simp only [Rx.lang_word]
  rw [Rx.lang_seq]
  simp only [hahead, Rx.lang_plus_cls]
  constructor
  · rintro ⟨u, v, rfl, hu, rfl, hpost⟩
    exact ⟨by simpa using hu, hpost⟩
  · rintro ⟨hw, hpost⟩
    exact ⟨w, [], by simp, hw, rfl, hpost⟩

/-- The blanks of a break are all the blanks in front of the id. -/
theorem takeWhile_blanks
    {w v : PyStr} (hw : ∀ c ∈ w, isBlank c = true) (hv : v.head?.any isBlank = false) :
    (w ++ v).takeWhile isBlank = w ∧ (w ++ v).dropWhile isBlank = v := by
  rw [List.takeWhile_append_of_pos hw, List.dropWhile_append_of_pos hw]
  cases v with
  | nil =>
      simp
  | cons c v =>
      have hc : isBlank c = false := by simpa using hv
      simp [hc]

theorem not_blank_of_startsAmq
    {s : PyStr} (h : startsAmq U s = true) :
    s.head?.any isBlank = false := by
  cases s with
  | nil =>
      rfl
  | cons c s =>
      by_contra hc
      have hc : isBlank c = true := by simpa using hc
      rw [startsAmq_cons_stop U (isStop_of_isSpace (isSpace_of_isBlank hc))] at h
      cases h

/-- **Where the inline pattern matches**, and what it takes. -/
theorem first_inlineAmq
    (pre post : PyStr) :
    Rx.first (inlineAmq U) pre post =
      if pre.head?.any (fun c => !c.isSpace) && breaksAt U post then
        some (post.takeWhile isBlank).length
      else none := by
  by_cases h : (pre.head?.any (fun c => !c.isSpace) && breaksAt U post) = true
  · rw [if_pos h]
    rw [Bool.and_eq_true, breaksAt, Bool.and_eq_true] at h
    obtain ⟨hpre, hblank, hid⟩ := h
    have hsplit : post.takeWhile isBlank ++ post.dropWhile isBlank = post :=
      List.takeWhile_append_dropWhile
    have hne : post.takeWhile isBlank ≠ [] := by
      cases post with
      | nil =>
          simp at hblank
      | cons c post =>
          have hc : isBlank c = true := by simpa using hblank
          simp [hc]
    have hblanks : ∀ c ∈ post.takeWhile isBlank, isBlank c = true :=
      fun c hc => List.mem_takeWhile_imp hc
    have hlang : Rx.Lang (inlineAmq U) pre (post.takeWhile isBlank) (post.dropWhile isBlank) :=
      (lang_inlineAmq U _ _ _).mpr ⟨hpre, ⟨hne, hblanks⟩, hid⟩
    have hfirst := Rx.first_eq_some_of_unique hlang (by
        intro x y hxy hx
        rw [hsplit] at hxy
        obtain ⟨_, ⟨_, hxblank⟩, hy⟩ := (lang_inlineAmq U _ _ _).mp hx
        rw [hxy]
        exact (takeWhile_blanks hxblank (not_blank_of_startsAmq U hy)).1.symm)
    rwa [hsplit] at hfirst
  · rw [if_neg h, Rx.first_eq_none_iff]
    intro w v hsplit hw
    obtain ⟨hpre, ⟨hne, hblanks⟩, hid⟩ := (lang_inlineAmq U _ _ _).mp hw
    refine h ?_
    obtain ⟨_, hdrop⟩ := takeWhile_blanks hblanks (not_blank_of_startsAmq U hid)
    rw [hpre, hsplit, breaksAt, hdrop, hid]
    cases w with
    | nil =>
        exact absurd rfl hne
    | cons c w =>
        simp [hblanks c (by simp)]

/-- Neither an id nor the blanks of a break reach into `y` from the left. -/
structure Bounds (y : PyStr) : Prop where
  stop : ∀ c ∈ y.head?, isStop c = true
  no_id : startsAmq U (y.dropWhile isBlank) = false

theorem bounds_nil :
    Bounds U [] := by
  constructor
  · simp
  · rfl

theorem bounds_cons
    {c : CodePoint} (hc : isStop c = true) (hblank : isBlank c = false) (y : PyStr) :
    Bounds U (c :: y) := by
  constructor
  · simpa using hc
  · rw [List.dropWhile_cons_of_neg (by simp [hblank])]
    exact startsAmq_cons_stop U hc y

variable {U}

theorem Bounds.startsAmq_append
    {y : PyStr} (hy : Bounds U y) (x : PyStr) :
    startsAmq U (x ++ y) = startsAmq U x := by
  cases y with
  | nil =>
      rw [List.append_nil]
  | cons c y =>
      exact startsAmq_append_stop U (hy.stop c rfl) x y

theorem Bounds.not_breaksAt
    {y : PyStr} (hy : Bounds U y) :
    breaksAt U y = false := by
  rw [breaksAt, hy.no_id, Bool.and_false]

theorem Bounds.first_append
    {y : PyStr} (hy : Bounds U y) {b : PyStr} (hb : b ≠ []) (pre : PyStr) :
    Rx.first (inlineAmq U) pre (b ++ y) = Rx.first (inlineAmq U) pre b := by
  have hhead : (b ++ y).head? = b.head? := by
    cases b with
    | nil =>
        exact absurd rfl hb
    | cons c b =>
        rfl
  by_cases hblanks : ∀ c ∈ b, isBlank c = true
  · -- the blanks reach up to `y`, and no id is behind them
    have hx : breaksAt U (b ++ y) = false := by
      rw [breaksAt, List.dropWhile_append_of_pos hblanks, hy.no_id, Bool.and_false]
    have hdrop : b.dropWhile isBlank = [] := by
      rw [List.dropWhile_eq_nil_iff]
      exact hblanks
    have hb' : breaksAt U b = false := by
      rw [breaksAt, hdrop]
      exact Bool.and_false _
    rw [first_inlineAmq, first_inlineAmq, hx, hb', Bool.and_false]
    rfl
  · have hdrop : b.dropWhile isBlank ≠ [] := by
      rwa [Ne, List.dropWhile_eq_nil_iff]
    have hsplit : b = b.takeWhile isBlank ++ b.dropWhile isBlank :=
      List.takeWhile_append_dropWhile.symm
    have hblank : ∀ c ∈ b.takeWhile isBlank, isBlank c = true :=
      fun c hc => List.mem_takeWhile_imp hc
    have hend : ((b.dropWhile isBlank) ++ y).head?.any isBlank = false := by
      have := List.head?_dropWhile_not isBlank b
      cases hd : b.dropWhile isBlank with
      | nil =>
          exact absurd hd hdrop
      | cons c d =>
          rw [hd] at this
          simpa using this
    have htake : (b ++ y).takeWhile isBlank = b.takeWhile isBlank ∧
        (b ++ y).dropWhile isBlank = b.dropWhile isBlank ++ y := by
      have := takeWhile_blanks hblank hend
      rwa [← List.append_assoc, ← hsplit] at this
    have hx : breaksAt U (b ++ y) = breaksAt U b := by
      rw [breaksAt, breaksAt, hhead, htake.2, hy.startsAmq_append]
    rw [first_inlineAmq, first_inlineAmq, hx, htake.1]

/-- **Inline breaking is local**: a bound separates the texts around it. -/
theorem Bounds.breakInline_append
    {y : PyStr} (hy : Bounds U y) (x : PyStr) :
    breakInline U (x ++ y) = breakInline U x ++ breakInline U y := by
  have hleft := tokensFrom_append (r := inlineAmq U) (y := y) x [] 0 (Nat.zero_le _)
    fun a b _ hb => hy.first_append hb _
  have hright : tokensFrom (inlineAmq U) (x.reverse ++ []) 0 y = tokens (inlineAmq U) y := by
    cases y with
    | nil =>
        rfl
    | cons c y =>
        have hnone : ∀ pre, Rx.first (inlineAmq U) pre (c :: y) = none := by
          intro pre
          rw [first_inlineAmq, hy.not_breaksAt, Bool.and_false]
          rfl
        rw [tokens, tokensFrom, tokensFrom, hnone, hnone]
        have hcontext : ∀ a post,
            Rx.first (inlineAmq U) (a ++ c :: (x.reverse ++ [])) post =
              Rx.first (inlineAmq U) (a ++ [c]) post := by
          intro a post
          rw [first_inlineAmq, first_inlineAmq]
          cases a <;> rfl
        exact congrArg _ (tokensFrom_congr hcontext y [] 0)
  rw [breakInline, sub, tokens, hleft, hright, render_append]
  rfl

variable (U)

/-- Somewhere a blank is directly followed by a message id. -/
def hasInlineId : PyStr → Bool
  | [] => false
  | c :: s => isBlank c && startsAmq U s || hasInlineId s

theorem hasInlineId_of_breaksAt
    (s : PyStr) (h : breaksAt U s = true) :
    hasInlineId U s = true := by
  induction s with
  | nil =>
      cases h
  | cons c s ih =>
      rw [breaksAt, Bool.and_eq_true] at h
      obtain ⟨hblank, hid⟩ := h
      have hc : isBlank c = true := by simpa using hblank
      rw [List.dropWhile_cons_of_pos hc] at hid
      rw [hasInlineId, hc, Bool.true_and, Bool.or_eq_true]
      cases hs : s.head?.any isBlank with
      | true =>
          right
          apply ih
          rw [breaksAt, hs, hid]
          rfl
      | false =>
          left
          have hdrop : ([] ++ s).dropWhile isBlank = s := (takeWhile_blanks (by simp) hs).2
          rw [List.nil_append] at hdrop
          rwa [hdrop] at hid

theorem hasInlineId_of_suffix
    {a b : PyStr} (h : hasInlineId U b = true) :
    hasInlineId U (a ++ b) = true := by
  induction a with
  | nil =>
      exact h
  | cons c a ih =>
      rw [List.cons_append, hasInlineId, ih, Bool.or_true]

/-- A text without an inline id is not broken. -/
theorem breakInline_of_not_hasInlineId
    {s : PyStr} (h : hasInlineId U s = false) :
    breakInline U s = s := by
  have htokens : tokens (inlineAmq U) s = s.map Tok.lit := by
    apply tokensFrom_of_none
    intro a b hsplit _
    have hb : breaksAt U b = false := by
      by_contra hbreak
      have hid := hasInlineId_of_breaksAt U b (by simpa using hbreak)
      rw [hsplit, hasInlineId_of_suffix U hid] at h
      cases h
    rw [first_inlineAmq, hb, Bool.and_false]
    rfl
  rw [breakInline, sub, htokens, render_map_lit]

/--
The rest of a text from its first inline message id on; `after` says whether the text
stands behind a character that is no whitespace.
-/
def inlineTailFrom : Bool → PyStr → Option PyStr
  | _, [] => none
  | after, c :: s =>
      if after && breaksAt U (c :: s) then some ((c :: s).dropWhile isBlank)
      else inlineTailFrom (!c.isSpace) s

/-- The rest of a text from its first inline message id on. -/
def inlineTail (s : PyStr) : Option PyStr :=
  inlineTailFrom U false s

/-- The pass copies the text up to its first inline id and goes on there. -/
theorem tokensFrom_inlineTail
    (s : PyStr) :
    ∀ pre : PyStr,
      (inlineTailFrom U (pre.head?.any fun c => !c.isSpace) s = none ∧
        tokensFrom (inlineAmq U) pre 0 s = s.map Tok.lit) ∨
      ∃ u w v, inlineTailFrom U (pre.head?.any fun c => !c.isSpace) s = some v ∧
        s = u ++ w ++ v ∧ (u = [] → pre ≠ []) ∧
        (w ≠ [] ∧ ∀ c ∈ w, isBlank c = true) ∧ startsAmq U v = true ∧
        tokensFrom (inlineAmq U) pre 0 s =
          u.map Tok.lit ++
            Tok.hit w :: tokensFrom (inlineAmq U) (w.reverse ++ (u.reverse ++ pre)) 0 v := by
  induction s with
  | nil =>
      intro pre
      exact Or.inl ⟨rfl, rfl⟩
  | cons c s ih =>
      intro pre
      have hfirst := first_inlineAmq U pre (c :: s)
      by_cases hbreak : ((pre.head?.any fun c => !c.isSpace) && breaksAt U (c :: s)) = true
      · rw [if_pos hbreak] at hfirst
        right
        rw [inlineTailFrom, if_pos hbreak]
        rw [Bool.and_eq_true] at hbreak
        obtain ⟨hpre, hbreak⟩ := hbreak
        rw [breaksAt, Bool.and_eq_true] at hbreak
        have hc : isBlank c = true := by simpa using hbreak.1
        have hsplit : (c :: s).takeWhile isBlank ++ (c :: s).dropWhile isBlank = c :: s :=
          List.takeWhile_append_dropWhile
        have hw : (c :: s).takeWhile isBlank ≠ [] := by
          simp [hc]
        have hblanks : ∀ d ∈ (c :: s).takeWhile isBlank, isBlank d = true :=
          fun d hd => List.mem_takeWhile_imp hd
        have hfirst' : Rx.first (inlineAmq U) pre
            ((c :: s).takeWhile isBlank ++ (c :: s).dropWhile isBlank) =
              some ((c :: s).takeWhile isBlank).length := by
          rwa [hsplit]
        have htokens := tokensFrom_of_first hw hfirst'
        rw [hsplit] at htokens
        refine ⟨[], _, _, rfl, hsplit.symm, ?_, ⟨hw, hblanks⟩,
          hbreak.2, htokens⟩
        rintro _ rfl
        cases hpre
      · rw [if_neg hbreak] at hfirst
        have hstep : inlineTailFrom U (pre.head?.any fun c => !c.isSpace) (c :: s) =
            inlineTailFrom U ((c :: pre).head?.any fun c => !c.isSpace) s := by
          rw [inlineTailFrom, if_neg hbreak]
          rfl
        rw [hstep, tokensFrom, hfirst]
        rcases ih (c :: pre) with ⟨hnone, hlits⟩ | ⟨u, w, v, hsome, rfl, _, hw, hv, htokens⟩
        · exact Or.inl ⟨hnone, by rw [hlits]; rfl⟩
        · exact Or.inr ⟨c :: u, w, v, hsome, by simp, by simp, hw, hv,
            by rw [htokens]; simp⟩

/-- **A text is broken at its first inline id**, and behind it on its own. -/
theorem breakInline_cases
    (s : PyStr) :
    (inlineTail U s = none ∧ breakInline U s = s) ∨
      ∃ u w v, inlineTail U s = some v ∧ s = u ++ w ++ v ∧ u ≠ [] ∧
        (w ≠ [] ∧ ∀ c ∈ w, isBlank c = true) ∧ startsAmq U v = true ∧
        breakInline U s = u ++ lf :: breakInline U v := by
  rcases tokensFrom_inlineTail U s [] with
    ⟨hnone, hlits⟩ | ⟨u, w, v, hsome, hs, hu, ⟨hw, hblanks⟩, hv, htokens⟩
  · exact Or.inl ⟨hnone, by rw [breakInline, sub, tokens, hlits, render_map_lit]⟩
  · have hcontext : ∀ a post,
        Rx.first (inlineAmq U) (a ++ (w.reverse ++ (u.reverse ++ []))) post =
          Rx.first (inlineAmq U) (a ++ []) post := by
      intro a post
      rw [first_inlineAmq, first_inlineAmq]
      cases a with
      | cons c a =>
          rfl
      | nil =>
          rcases List.eq_nil_or_concat w with rfl | ⟨x, c, rfl⟩
          · exact absurd rfl hw
          · have hc := isSpace_of_isBlank (hblanks c (by simp))
            simp [hc]
    have htail := tokensFrom_congr hcontext v [] 0
    rw [List.nil_append] at htail
    refine Or.inr ⟨u, w, v, hsome, hs, fun h => hu h rfl, ⟨hw, hblanks⟩, hv, ?_⟩
    rw [breakInline, sub, tokens, htokens, htail, render_append, render_map_lit]
    rfl

/-- Inline ids do not reach across a stop. -/
theorem hasInlineId_append_stop
    {c : CodePoint} (hc : isStop c = true) (x t : PyStr) :
    hasInlineId U (x ++ c :: t) = (hasInlineId U x || hasInlineId U (c :: t)) := by
  induction x with
  | nil =>
      rfl
  | cons d x ih =>
      simp only [List.cons_append, hasInlineId, startsAmq_append_stop U hc]
      rw [ih, hasInlineId, Bool.or_assoc]

end InlineBreaks

section MessageLines

variable (U : UnicodeData)

/-- The text starts with a z/OS message id, and the word ends there. -/
def StartsCsq (s : PyStr) : Prop :=
  ∃ u v, s = u ++ v ∧ Rx.Fits (csqId U) u ∧ v.head?.any U.isWord = false

theorem isWord_of_isKeyChar
    {c : CodePoint} (hc : isKeyChar c = true) :
    U.isWord c = true := by
  simp only [isKeyChar, Bool.or_eq_true, or_assoc] at hc
  have halnum : c.isUpperAscii = true ∨ c.isDigitAscii = true → U.isalnum c = true := by
    intro h
    have hascii : c.isAscii = true := by
      simp only [isUpperAscii, isDigitAscii, isAscii, decide_eq_true_eq] at h ⊢
      omega
    rw [U.isalnum_ascii c hascii, isAlnumAscii]
    rcases h with h | h <;> simp [h]
  rw [UnicodeData.isWord, Bool.or_eq_true]
  rcases hc with h | h | h
  · exact Or.inl (halnum (Or.inl h))
  · exact Or.inl (halnum (Or.inr h))
  · exact Or.inr h

/-- A z/OS id starts with a letter and ends with one. -/
theorem fits_csqId_ends
    {u : PyStr} (hu : Rx.Fits (csqId U) u) :
    (∃ c t, u = c :: t ∧ c.isSpace = false) ∧
      ∃ c t, u = t ++ [c] ∧ c.isUpperAscii = true := by
  constructor
  · have hfits : Rx.Fits (one (ch 'C') :: (csqId U).tail) u := hu
    cases hfits with
    | @cons _ c _ t hc _ =>
        have hc : c = ch 'C' := by simpa [one] using hc
        refine ⟨c, t, rfl, ?_⟩
        rw [hc]
        decide
  · have hreverse : Rx.Fits (csqId U).reverse u.reverse :=
      List.forall₂_reverse_iff.mpr hu
    have hfits : Rx.Fits (isUpperAscii :: (csqId U).reverse.tail) u.reverse := hreverse
    cases hlast : u.reverse with
    | nil =>
        rw [hlast] at hfits
        cases hfits
    | cons c t =>
        rw [hlast] at hfits
        cases hfits with
        | cons hc _ =>
            exact ⟨c, t.reverse, by simpa using congrArg List.reverse hlast, hc⟩

theorem startsAmq_head
    {s : PyStr} (h : startsAmq U s = true) :
    ∃ c t, s = c :: t ∧ c.isSpace = false := by
  cases s with
  | nil =>
      cases h
  | cons c t =>
      refine ⟨c, t, rfl, ?_⟩
      by_contra hc
      rw [startsAmq_cons_stop U (isStop_of_isSpace (by simpa using hc))] at h
      cases h

/-- **Message lines**: an id behind the indentation. -/
theorem isMessageLine_iff
    (line : PyStr) :
    isMessageLine U line = true ↔
      startsAmq U (lstrip line) = true ∨ StartsCsq U (lstrip line) := by
  have hedge : ∀ {pre u v : PyStr}, Rx.Fits (csqId U) u →
      (Rx.Lang (Rx.edge U.isWord) (u.reverse ++ pre) [] v ↔
        v.head?.any U.isWord = false) := by
    intro pre u v hu
    obtain ⟨_, c, t, rfl, hc⟩ := fits_csqId_ends U hu
    have hword := isWord_of_isKeyChar U (c := c) (by simp [isKeyChar, hc])
    simp [Rx.edge, hword]
  have hstrip : ∀ {a b : PyStr}, (∀ c ∈ a, c.isSpace = true) →
      (∃ c t, b = c :: t ∧ c.isSpace = false) → lstrip (a ++ b) = b := by
    intro a b ha hb
    obtain ⟨c, t, rfl, hc⟩ := hb
    rw [lstrip, List.dropWhile_append_of_pos ha, List.dropWhile_cons_of_neg (by simp [hc])]
  have hsome : isMessageLine U line = true ↔
      ∃ w v, line = w ++ v ∧ Rx.Lang (messageLine U) [] w v := by
    rw [isMessageLine, Option.isSome_iff_ne_none, Ne, Rx.first_eq_none_iff]
    push Not
    rfl
  rw [hsome]
  constructor
  · rintro ⟨w, v, rfl, hw⟩
    obtain ⟨a, b, rfl, ha, hb⟩ := (Rx.lang_seq _ _ _ _ _).mp hw
    rw [Rx.lang_star_cls] at ha
    rw [List.append_assoc]
    rcases (Rx.lang_alt _ _ _ _ _).mp hb with hamq | hcsq
    · left
      rw [Rx.lang_word] at hamq
      have hid : startsAmq U (b ++ v) = true :=
        (Rx.startsWith_iff _ _).mpr ⟨b, v, rfl, hamq⟩
      rwa [hstrip ha (startsAmq_head U hid)]
    · right
      obtain ⟨u, x, rfl, hu, hx⟩ := (Rx.lang_seq_word _ _ _ _ _).mp hcsq
      have hxnil : x = [] := hx.1
      subst hxnil
      rw [hedge hu] at hx
      rw [List.append_nil]
      obtain ⟨⟨c, t, hct, hc⟩, _⟩ := fits_csqId_ends U hu
      rw [hstrip ha ⟨c, t ++ v, by rw [hct]; rfl, hc⟩]
      exact ⟨u, v, rfl, hu, hx⟩
  · intro h
    have hsplit : line = line.takeWhile isSpace ++ lstrip line :=
      List.takeWhile_append_dropWhile.symm
    have hspaces : ∀ c ∈ line.takeWhile isSpace, c.isSpace = true :=
      fun c hc => List.mem_takeWhile_imp hc
    rcases h with h | ⟨u, v, huv, hu, hv⟩
    · obtain ⟨u, v, huv, hu⟩ := (Rx.startsWith_iff _ _).mp h
      refine ⟨line.takeWhile isSpace ++ u, v, ?_, ?_⟩
      · rw [List.append_assoc, ← huv, ← hsplit]
      · refine (Rx.lang_seq _ _ _ _ _).mpr ⟨_, u, rfl, ?_, Or.inl ?_⟩
        · rwa [Rx.lang_star_cls]
        · rwa [Rx.lang_word]
    · refine ⟨line.takeWhile isSpace ++ u, v, ?_, ?_⟩
      · rw [List.append_assoc, ← huv, ← hsplit]
      · refine (Rx.lang_seq _ _ _ _ _).mpr ⟨_, u, rfl, ?_, Or.inr ?_⟩
        · rwa [Rx.lang_star_cls]
        · refine (Rx.lang_seq_word _ _ _ _ _).mpr ⟨u, [], by simp, hu, ?_⟩
          exact (hedge hu).mpr hv

theorem isMessageLine_of_startsAmq
    {line : PyStr} (h : startsAmq U line = true) :
    isMessageLine U line = true := by
  obtain ⟨c, t, rfl, hc⟩ := startsAmq_head U h
  have hstrip : lstrip (c :: t) = c :: t := by
    rw [lstrip, List.dropWhile_cons_of_neg (by simp [hc])]
  rw [isMessageLine_iff, hstrip]
  exact Or.inl h

/-- Whitespace alone is no message line. -/
theorem not_isMessageLine_of_spaces
    {line : PyStr} (h : ∀ c ∈ line, c.isSpace = true) :
    isMessageLine U line = false := by
  have hstrip : lstrip line = [] := by
    rw [lstrip, List.dropWhile_eq_nil_iff]
    exact h
  by_contra hline
  have hline := (isMessageLine_iff U line).mp (by simpa using hline)
  rw [hstrip] at hline
  rcases hline with hamq | ⟨u, v, huv, hu, _⟩
  · cases hamq
  · obtain ⟨⟨c, t, rfl, _⟩, _⟩ := fits_csqId_ends U hu
    cases huv

end MessageLines

end Mqsc
end MqSentinel
