import MqSentinel.MqscLayout

/-!
# Text inside quotes

The reply is cut at inline message ids before quotes are understood, so an id inside a
quoted value cuts the value.  What is in front of the id is read as an unterminated
value (`parse_slot`), and what is behind it as message lines of their own
(`parseLines_tail`), whose pairs make new rows.

A `QuotedReply` is a printed reply with one quoted value left open, and
`contained_iff` says for which texts in it the value stays in its place.
-/

namespace MqSentinel
namespace Mqsc

open Regex CodePoint

/-- A quoted string as it is printed: the quotes inside are doubled. -/
def quoted (t : PyStr) : PyStr :=
  quote :: (escape t ++ [quote])

/-- The lines of an object with one quoted value left open. -/
structure Slot where
  above : List Line
  left : List Cell
  gap : PyStr
  key : PyStr
  right : List Cell
  trailing : PyStr
  below : List Line

namespace Slot

/-- The open attribute with a text filled in. -/
def cell (s : Slot) (t : PyStr) : Cell :=
  ⟨s.gap, s.key, some (quoted t)⟩

def line (s : Slot) (t : PyStr) : Line :=
  ⟨s.left ++ s.cell t :: s.right, s.trailing⟩

def lines (s : Slot) (t : PyStr) : List Line :=
  s.above ++ s.line t :: s.below

/-- What stands in front of the quoted string in its line. -/
def front (s : Slot) : PyStr :=
  cellsText s.left ++ (s.gap ++ (s.key ++ [ch '(']))

/-- What stands behind the quoted string in its line. -/
def back (s : Slot) : PyStr :=
  ch ')' :: (cellsText s.right ++ s.trailing)

theorem text_line
    (s : Slot) (t : PyStr) :
    (s.line t).text = s.front ++ (quoted t ++ s.back) := by
  simp [line, cell, Line.text, cellsText, Cell.text, Attribute.text, Attribute.suffix, front,
    back]

/-- The attributes printed before the open one. -/
def itemsBefore (s : Slot) : List (PyStr × PyStr) :=
  linesItems s.above ++ items s.left

/-- The attributes printed after the open one. -/
def itemsAfter (s : Slot) : List (PyStr × PyStr) :=
  items s.right ++ linesItems s.below

theorem linesItems_lines
    (s : Slot) (t : PyStr) :
    linesItems (s.lines t) = s.itemsBefore ++ (s.key, quoted t) :: s.itemsAfter := by
  simp [lines, line, cell, linesItems, items, itemsBefore, itemsAfter, Attribute.item]

end Slot

/-- A printed reply with one quoted value left open; it is well formed with an empty text. -/
structure QuotedReply (U : UnicodeData) where
  before : List (PrintedObject U)
  heading : Heading U
  slot : Slot
  after : List (PrintedObject U)
  printable : ∀ l ∈ slot.lines [], l.Printable U
  first : ∀ l ∈ (slot.lines []).head?, OnMessageLine l.cells
  distinct : ((linesItems (slot.lines [])).map Prod.fst).Nodup

namespace QuotedReply

variable {U : UnicodeData}

/-- The lines of the reply with a text filled in. -/
def textLines (r : QuotedReply U) (t : PyStr) : List PyStr :=
  r.before.flatMap PrintedObject.textLines ++
    (headed r.heading.text ((r.slot.lines t).map Line.text) ++
      r.after.flatMap PrintedObject.textLines)

/-- As many rows as there are objects. -/
def objectCount (r : QuotedReply U) : Nat :=
  r.before.length + 1 + r.after.length

/--
Two results have as many rows as objects, and differ at most in the open attribute of
its own row.
-/
def Contained (r : QuotedReply U) (rows rows' : List Attrs) : Prop :=
  rows.length = r.objectCount ∧ rows'.length = r.objectCount ∧
    (∀ j, j ≠ r.before.length → rows[j]? = rows'[j]?) ∧
    rows[r.before.length]?.map (fun d => d.erase r.slot.key) =
      rows'[r.before.length]?.map (fun d => d.erase r.slot.key)

/-- No inline message id in the quoted text. -/
def Unbroken (U : UnicodeData) (t : PyStr) : Prop :=
  inlineTail U (quoted t) = none

/--
Where the quoted text holds an inline message id, no attribute of the object stands
below, and from the first id to the end of the line no token starts with `KEY(`.
-/
def Harmless (r : QuotedReply U) (t : PyStr) : Prop :=
  ∀ v ∈ inlineTail U (quoted t),
    linesItems r.slot.below = [] ∧ ∀ w ∈ split (v ++ r.slot.back), startsPair w = false

end QuotedReply

section SlotShape

variable {U : UnicodeData} (r : QuotedReply U)

theorem QuotedReply.line_printable :
    (r.slot.line []).Printable U :=
  r.printable _ (by simp [Slot.lines])

theorem QuotedReply.key_printable :
    isKey r.slot.key = true ∧ ¬ Rx.Fits (csqId U) r.slot.key := by
  have := r.line_printable.cells.printable (r.slot.cell []) (by simp [Slot.line])
  exact ⟨this.key, this.not_csq⟩

theorem QuotedReply.gap_blanks :
    ∀ c ∈ r.slot.gap, isBlank c = true :=
  r.line_printable.cells.blanks (r.slot.cell []) (by simp [Slot.line])

/-- The first cells of a line may stand in a line. -/
theorem CellsPrintable.of_append
    {cells more : List Cell} (h : CellsPrintable U (cells ++ more)) :
    CellsPrintable U cells := by
  refine ⟨fun c hc => h.printable c (List.mem_append_left _ hc),
    fun c hc => h.blanks c (List.mem_append_left _ hc), ?_⟩
  intro c hc
  apply h.spaced c
  cases cells with
  | nil =>
      cases hc
  | cons d cells =>
      exact List.mem_append_left _ hc

theorem QuotedReply.left_printable :
    CellsPrintable U r.slot.left :=
  r.line_printable.cells.of_append

theorem QuotedReply.gap_ne
    (hleft : r.slot.left ≠ []) :
    r.slot.gap ≠ [] := by
  refine r.line_printable.cells.spaced (r.slot.cell []) ?_
  cases h : r.slot.left with
  | nil =>
      exact absurd h hleft
  | cons c left =>
      simp [Slot.line, h]

theorem QuotedReply.right_spaced :
    ∀ c ∈ r.slot.right, c.gap ≠ [] := by
  intro c hc
  refine r.line_printable.cells.spaced c ?_
  cases h : r.slot.left with
  | nil =>
      simpa [Slot.line, h] using hc
  | cons d left =>
      simp [Slot.line, h, hc]

theorem QuotedReply.right_printable :
    CellsPrintable U r.slot.right :=
  ⟨fun c hc => r.line_printable.cells.printable c (by simp [Slot.line, hc]),
    fun c hc => r.line_printable.cells.blanks c (by simp [Slot.line, hc]),
    fun c hc => r.right_spaced c (List.mem_of_mem_tail hc)⟩

theorem QuotedReply.trailing_blanks :
    ∀ c ∈ r.slot.trailing, isBlank c = true :=
  r.line_printable.trailing

/-- The blanks in front of the open attribute separate it from the cells to its left. -/
theorem QuotedReply.head_gap
    (hleft : r.slot.left ≠ []) (z : PyStr) :
    ∀ c ∈ (r.slot.gap ++ z).head?, c.isSpace = true := by
  cases hgap : r.slot.gap with
  | nil =>
      exact absurd hgap (r.gap_ne hleft)
  | cons d gap =>
      intro c hc
      have hd := r.gap_blanks d (by rw [hgap]; simp)
      have hdc : d = c := by simpa using hc
      rw [← hdc]
      exact isSpace_of_isBlank hd

/-- The text in front of the quoted string is not broken. -/
theorem QuotedReply.front_no_id :
    hasInlineId U r.slot.front = false := by
  have hline := r.line_printable.no_id
  rw [r.slot.text_line] at hline
  have hstop : isStop quote = true := by decide
  have htext : r.slot.front ++ (quoted [] ++ r.slot.back) =
      r.slot.front ++ quote :: (escape [] ++ [quote] ++ r.slot.back) := by
    simp [quoted]
  rw [htext, hasInlineId_append_stop U hstop, Bool.or_eq_false_iff] at hline
  exact hline.1

theorem QuotedReply.front_one_line :
    ∀ c ∈ r.slot.front, c.isLineBoundary = false := by
  intro c hc
  refine r.line_printable.one_line c ?_
  rw [r.slot.text_line]
  exact List.mem_append_left _ hc

theorem QuotedReply.back_one_line :
    ∀ c ∈ r.slot.back, c.isLineBoundary = false := by
  intro c hc
  refine r.line_printable.one_line c ?_
  rw [r.slot.text_line]
  exact List.mem_append_right _ (List.mem_append_right _ hc)

/-- The text behind the quoted string is not broken, and no break reaches into it. -/
theorem QuotedReply.back_no_id :
    hasInlineId U r.slot.back = false := by
  have hblank : isBlank (ch ')') = false := by decide
  have htrailing : hasInlineId U r.slot.trailing = false := by
    have := hasInlineId_blanks (U := U) r.trailing_blanks (y := []) rfl rfl
    rwa [List.append_nil] at this
  rw [Slot.back, hasInlineId, hblank, Bool.false_and, Bool.false_or]
  exact r.right_printable.no_id (head_blanks r.trailing_blanks) htrailing

theorem QuotedReply.bounds_back
    (z : PyStr) :
    Bounds U (r.slot.back ++ z) :=
  bounds_cons U (by decide) (by decide) _

/-- However the quoted text goes on, its line is no message line. -/
theorem QuotedReply.not_isMessageLine
    (z : PyStr) :
    isMessageLine U (r.slot.front ++ z) = false := by
  have hparen : ∀ c ∈ (ch '(' :: z).head?, isStop c = true := by
    intro c hc
    obtain rfl : ch '(' = c := by simpa using hc
    decide
  have htext : r.slot.front ++ z =
      cellsText r.slot.left ++ (r.slot.gap ++ (r.slot.key ++ ch '(' :: z)) := by
    simp [Slot.front]
  rw [htext]
  by_cases hleft : r.slot.left = []
  · have hline := not_isMessageLine_attribute (a := ⟨r.slot.key, none⟩) r.key_printable
      r.gap_blanks hparen
    rw [hleft]
    exact hline
  · exact r.left_printable.not_isMessageLine (r.head_gap hleft _) fun h => absurd h hleft

theorem quoted_one_line
    {t : PyStr} (ht : ∀ c ∈ t, c.isLineBoundary = false) :
    ∀ c ∈ quoted t, c.isLineBoundary = false := by
  have hquote : quote.isLineBoundary = false := by decide
  have hescape : ∀ c ∈ escape t, c.isLineBoundary = false := by
    intro c hc
    obtain ⟨d, hd, hc⟩ := List.mem_flatMap.mp hc
    split_ifs at hc with hdq
    · have hcq : c = quote := by simpa using hc
      rw [hcq]
      exact hquote
    · have hcd : c = d := by simpa using hc
      rw [hcd]
      exact ht d hd
  intro c hc
  simp only [quoted, List.mem_cons, List.mem_append, List.not_mem_nil, or_false] at hc
  rcases hc with rfl | hc | rfl
  · exact hquote
  · exact hescape c hc
  · exact hquote

/-- What is broken is the quoted string alone. -/
theorem QuotedReply.breakInline_line
    (t : PyStr) {e t' : PyStr} (he : LineEnd e t') :
    breakInline U ((r.slot.line t).text ++ e) =
      r.slot.front ++ (breakInline U (quoted t) ++ (r.slot.back ++ breakInline U e)) := by
  have hback : breakInline U (r.slot.back ++ e) = r.slot.back ++ breakInline U e := by
    rw [he.bounds.breakInline_append, breakInline_of_not_hasInlineId U r.back_no_id]
  have hquoted : Bounds U (quoted t ++ (r.slot.back ++ e)) :=
    bounds_cons U (by decide) (by decide) _
  rw [r.slot.text_line, List.append_assoc, List.append_assoc, hquoted.breakInline_append,
    breakInline_of_not_hasInlineId U r.front_no_id, (r.bounds_back e).breakInline_append, hback]

end SlotShape

section ReadingTheSlot

variable {U : UnicodeData} (r : QuotedReply U)

/-- Only pairs stand on the message line. -/
theorem QuotedReply.pairs
    (habove : r.slot.above = []) :
    OnMessageLine (r.slot.left ++ r.slot.cell [] :: r.slot.right) :=
  r.first (r.slot.line []) (by simp [Slot.lines, habove])

/-- The line is read up to the quoted string. -/
theorem QuotedReply.readOn_front
    {pairsOnly : Bool} (hpairs : pairsOnly = true → r.slot.above = []) {z v rest : PyStr}
    (hvalue : readValue z = (v, rest)) :
    readOn pairsOnly OrderedDict.empty (r.slot.front ++ z) =
      readOn pairsOnly (OrderedDict.ofList (items r.slot.left ++ [(r.slot.key, v)])) rest := by
  have htext : r.slot.front ++ z =
      cellsText r.slot.left ++ (r.slot.gap ++ (r.slot.key ++ ch '(' :: z)) := by
    simp [Slot.front]
  have hleft : pairsOnly = true → ∀ c ∈ r.slot.left, c.attr.value.isSome = true :=
    fun h c hc => (r.pairs (hpairs h) c (List.mem_append_left _ hc)).2
  have hparen : ∀ c ∈ (ch '(' :: z).head?, isKeyChar c = false := by
    intro c hc
    obtain rfl : ch '(' = c := by simpa using hc
    decide
  have htoken : attributeToken pairsOnly (r.slot.key ++ ch '(' :: z) =
      some (r.slot.key, v, rest) := by
    rw [attributeToken, matchKey_append r.key_printable.1 hparen]
    simp only [if_true, hvalue]
  rw [htext, readOn_cells _ r.left_printable hleft (fun h => r.head_gap h _),
    readOn_spaces _ _ fun c hc => isSpace_of_isBlank (r.gap_blanks c hc),
    readOn_attribute _ (head_key r.key_printable.1 _) htoken, OrderedDict.ofList_append]
  rfl

/-- A closed quoted string is the value of its key, and the line goes on behind it. -/
theorem QuotedReply.readOn_unbroken
    {pairsOnly : Bool} (hpairs : pairsOnly = true → r.slot.above = []) (t : PyStr) :
    readOn pairsOnly OrderedDict.empty (r.slot.line t).text =
      OrderedDict.ofList (items r.slot.left ++ (r.slot.key, quoted t) :: items r.slot.right) := by
  have hquote : quote.isSpace = false := by decide
  have hclosed : closed 0 false (quoted t) = true := by
    simpa [quoted, closed] using closed_escape t
  have hstrip : strip (quoted t) = quoted t := by
    rw [quoted]
    exact strip_enclosed hquote hquote (escape t)
  have hvalue : readValue (quoted t ++ r.slot.back) =
      (quoted t, cellsText r.slot.right ++ r.slot.trailing) := by
    rw [readValue, Slot.back, readFrom_closed _ _ 0 false hclosed]
    simp [hstrip]
  have hright : pairsOnly = true → ∀ c ∈ r.slot.right, c.attr.value.isSome = true :=
    fun h c hc => (r.pairs (hpairs h) c (by simp [hc])).2
  have hitems : items r.slot.left ++ (r.slot.key, quoted t) :: items r.slot.right =
      (items r.slot.left ++ [(r.slot.key, quoted t)]) ++ items r.slot.right := by
    simp
  rw [r.slot.text_line, r.readOn_front hpairs hvalue,
    readOn_cells _ r.right_printable hright (fun _ => head_blanks r.trailing_blanks),
    readOn_blanks _ _ r.trailing_blanks, hitems, OrderedDict.ofList_append _ (items r.slot.right)]

/-- What a break leaves of the quoted string is an unterminated value. -/
theorem readValue_broken
    {t u w v : PyStr} (hsplit : quoted t = u ++ w ++ v) (hu : u ≠ []) (hw : w ≠ [])
    (hblanks : ∀ c ∈ w, isBlank c = true) :
    readValue u = (strip u, []) := by
  have hcut : ∀ (t x y : PyStr) {c : CodePoint}, c ≠ quote →
      escape t ++ [quote] = x ++ c :: y → ∃ t', x = escape t' := by
    intro t
    induction t with
    | nil =>
        intro x y c hc h
        cases x with
        | nil =>
            exact absurd (List.cons.inj h).1.symm hc
        | cons d x =>
            have := (List.cons.inj h).2
            simp at this
    | cons d t ih =>
        intro x y c hc h
        by_cases hd : d = quote
        · subst hd
          rw [escape_cons_quote] at h
          match x, h with
          | [], h =>
              exact absurd (List.cons.inj h).1.symm hc
          | [_], h =>
              exact absurd (List.cons.inj (List.cons.inj h).2).1.symm hc
          | a :: b :: x, h =>
              simp only [List.cons_append, List.cons.injEq] at h
              obtain ⟨rfl, rfl, h⟩ := h
              obtain ⟨t', rfl⟩ := ih x y hc h
              exact ⟨quote :: t', (escape_cons_quote t').symm⟩
        · rw [escape_cons_of_ne hd] at h
          cases x with
          | nil =>
              exact ⟨[], rfl⟩
          | cons a x =>
              simp only [List.cons_append, List.cons.injEq] at h
              obtain ⟨rfl, h⟩ := h
              obtain ⟨t', rfl⟩ := ih x y hc h
              exact ⟨d :: t', (escape_cons_of_ne hd t').symm⟩
  cases u with
  | nil =>
      exact absurd rfl hu
  | cons a u =>
      cases w with
      | nil =>
          exact absurd rfl hw
      | cons c w =>
          have hc : c ≠ quote := by
            rintro rfl
            have := hblanks quote (by simp)
            revert this
            decide
          have hsplit' : quote :: (escape t ++ [quote]) = a :: (u ++ c :: (w ++ v)) := by
            simpa [quoted] using hsplit
          obtain ⟨rfl, htail⟩ := List.cons.inj hsplit'
          obtain ⟨t', rfl⟩ := hcut t u _ hc htail
          have hread : readFrom 1 false (quote :: escape t') = (quote :: escape t', []) := by
            simp [readFrom, readFrom_unclosed]
          rw [readValue, hread]
          rfl

/-- A broken quoted string is the last value of its line. -/
theorem QuotedReply.readOn_broken
    {pairsOnly : Bool} (hpairs : pairsOnly = true → r.slot.above = []) {u : PyStr}
    (hvalue : readValue u = (strip u, [])) :
    readOn pairsOnly OrderedDict.empty (r.slot.front ++ u) =
      OrderedDict.ofList (items r.slot.left ++ [(r.slot.key, strip u)]) := by
  rw [r.readOn_front hpairs hvalue, readOn_nil]

/-- The lines above the open attribute are printable, and so are those below it. -/
theorem QuotedReply.above_printable :
    ∀ l ∈ r.slot.above, l.Printable U :=
  fun l hl => r.printable l (by simp [Slot.lines, hl])

theorem QuotedReply.below_printable :
    ∀ l ∈ r.slot.below, l.Printable U :=
  fun l hl => r.printable l (by simp [Slot.lines, hl])

/-- The keys of the object are distinct, whatever the text. -/
theorem QuotedReply.keys_nodup
    (v : PyStr) :
    ((r.slot.itemsBefore ++ (r.slot.key, v) :: r.slot.itemsAfter).map Prod.fst).Nodup := by
  have := r.distinct
  rw [r.slot.linesItems_lines] at this
  simpa using this

/-- On the message line the front starts with white space. -/
theorem QuotedReply.head_front
    (habove : r.slot.above = []) (x : PyStr) :
    ∀ c ∈ (r.slot.front ++ x).head?, c.isSpace = true := by
  have hgaps := r.pairs habove
  have htext : r.slot.front ++ x =
      cellsText r.slot.left ++ (r.slot.gap ++ (r.slot.key ++ ch '(' :: x)) := by
    simp [Slot.front]
  have hgap : ∀ c ∈ (r.slot.gap ++ (r.slot.key ++ ch '(' :: x)).head?, c.isSpace = true := by
    have hne := (hgaps (r.slot.cell []) (by simp)).1
    intro c hc
    cases hg : r.slot.gap with
    | nil =>
        exact absurd hg hne
    | cons d gap =>
        have hd := r.gap_blanks d (by rw [hg]; simp)
        have hdc : d = c := by simpa [hg] using hc
        rw [← hdc]
        exact isSpace_of_isBlank hd
  rw [htext]
  exact head_cellsText_append r.left_printable.blanks
    (fun c hc => (hgaps c (List.mem_append_left _ hc)).1) hgap

/--
**The object up to the line of the open attribute.**  Whatever that line is cut into,
its first piece `y` is read into the row, and `s` is left.
-/
theorem QuotedReply.parse_slot
    (t : PyStr) (current : Option Attrs) {ls : List PyStr} {text : PyStr}
    (htext : Layout (headed r.heading.text ((r.slot.lines t).map Line.text) ++ ls) text) :
    ∃ e t', LineEnd e t' ∧ Layout (r.slot.below.map Line.text ++ ls) t' ∧
      ∀ (z s : PyStr) (ls' : List PyStr) (ps : List (PyStr × PyStr)),
        breakInline U ((r.slot.line t).text ++ e) = r.slot.front ++ (z ++ s) →
        (∀ c ∈ z, c.isLineBoundary = false) →
        EndsLine U s ls' →
        (∀ pairsOnly, (pairsOnly = true → r.slot.above = []) →
          readOn pairsOnly OrderedDict.empty (r.slot.front ++ z) = OrderedDict.ofList ps) →
        (ps.map Prod.fst).Nodup →
        parseText U current text =
          flush current ++
            parseLines U (some (OrderedDict.ofList (linesItems r.slot.above ++ ps))) ls' := by
  have hnodup := r.keys_nodup (quoted t)
  have hprintable := r.above_printable
  have hnot := r.not_isMessageLine
  have hitems : r.slot.itemsBefore = linesItems r.slot.above ++ items r.slot.left := rfl
  rw [hitems] at hnodup
  cases habove : r.slot.above with
  | nil =>
      -- the open attribute is on the message line
      have hlines : (r.slot.lines t).map Line.text =
          (r.slot.line t).text :: r.slot.below.map Line.text := by
        simp [Slot.lines, habove]
      rw [hlines] at htext
      obtain ⟨e, t', rfl, he, ht⟩ := htext.uncons
      refine ⟨e, t', he, ht, ?_⟩
      intro z s ls' ps hbreak hz hs hread _
      have hfrontHead := r.head_front habove
      have hfront : Bounds U r.slot.front := by
        refine bounds_of_no_id (fun c hc => isStop_of_isSpace ?_) r.front_no_id
        have := hfrontHead [] c
        rw [List.append_nil] at this
        exact this hc
      have hquoted : Bounds U (quoted t ++ (r.slot.back ++ e)) :=
        bounds_cons U (by decide) (by decide) _
      have hheading : breakInline U (r.heading.text ++ (r.slot.line t).text ++ e) =
          breakInline U r.heading.text ++ (r.slot.front ++ z ++ s) := by
        have hsplit : (r.slot.line t).text ++ e =
            r.slot.front ++ (quoted t ++ (r.slot.back ++ e)) := by
          rw [r.slot.text_line, List.append_assoc, List.append_assoc]
        rw [List.append_assoc r.slot.front, ← hbreak, List.append_assoc, hsplit,
          ← List.append_assoc, hquoted.breakInline_append, hfront.breakInline_append,
          hquoted.breakInline_append, List.append_assoc]
      have hone : ∀ c ∈ r.slot.front ++ z, c.isLineBoundary = false := by
        intro c hc
        exact (List.mem_append.mp hc).elim (r.front_one_line c) (hz c)
      rw [parseText, hheading, parseLines_heading hone (hfrontHead z) hs _ r.heading.text current
        le_rfl r.heading.startsAmq r.heading.plain r.heading.one_line,
        hread true fun _ => rfl]
      rfl
  | cons a above =>
      -- it is on a line of its own
      have hlines : (r.slot.lines t).map Line.text =
          a.text :: (above.map Line.text ++
            (r.slot.line t).text :: r.slot.below.map Line.text) := by
        simp [Slot.lines, habove]
      rw [hlines] at htext
      obtain ⟨e₀, t₀, rfl, he₀, ht₀⟩ := htext.uncons
      rw [habove] at hprintable hnodup
      have ha := hprintable a (by simp)
      have hshare : OnMessageLine a.cells := r.first a (by simp [Slot.lines, habove])
      have hsum : linesItems (a :: above) = items a.cells ++ linesItems above := by
        simp [linesItems]
      rw [hsum, List.map_append, List.map_append, List.map_append] at hnodup
      have hkeys := (List.nodup_append.mp hnodup).1
      have hkeys := (List.nodup_append.mp (List.nodup_append.mp hkeys).1).2.1
      have htail : Layout (above.map Line.text ++
          ((r.slot.line t).text :: (r.slot.below.map Line.text ++ ls))) t₀ := by
        simpa using ht₀
      have hread₀ : readOn true OrderedDict.empty a.text = OrderedDict.ofList (items a.cells) :=
        readOn_line OrderedDict.empty ha fun _ c hc => (hshare c hc).2
      obtain ⟨t₁, ht₁, hparse⟩ := parseText_lines
        (fun l hl => hprintable l (List.mem_cons_of_mem _ hl))
        (OrderedDict.ofList (items a.cells)) hkeys htail
      obtain ⟨e, t', rfl, he, ht⟩ := ht₁.uncons
      refine ⟨e, t', he, ht, ?_⟩
      intro z s ls' ps hbreak hz hs hread hps
      have hone : ∀ c ∈ r.slot.front ++ z, c.isLineBoundary = false := by
        intro c hc
        exact (List.mem_append.mp hc).elim (r.front_one_line c) (hz c)
      have hattrs : parseAttributes false (r.slot.front ++ z) = OrderedDict.ofList ps :=
        hread false (by simp)
      rw [List.append_assoc, parseText_message_line current r.heading.startsAmq
        r.heading.plain r.heading.one_line ha.one_line (ha.head_space hshare) ha.no_id he₀,
        hread₀, hparse, parseText, hbreak, ← List.append_assoc, hs _ _ hone,
        parseLines_attributes U _ (hnot z), hattrs, OrderedDict.update_ofList _ hps, hsum,
        OrderedDict.ofList_append, OrderedDict.ofList_append]
      rfl

end ReadingTheSlot

section Containment

variable {U : UnicodeData}

theorem split_blanks_append
    {w : PyStr} (hw : w ≠ []) (hblanks : ∀ c ∈ w, isBlank c = true) (x y : PyStr) :
    split (x ++ (w ++ y)) = split x ++ split y := by
  cases w with
  | nil =>
      exact absurd rfl hw
  | cons c w =>
      have hc := isSpace_of_isBlank (hblanks c (by simp))
      have hspaces : ∀ d ∈ w, d.isSpace = true :=
        fun d hd => isSpace_of_isBlank (hblanks d (List.mem_cons_of_mem _ hd))
      have hdrop : ∀ ws : PyStr, (∀ d ∈ ws, d.isSpace = true) → split (ws ++ y) = split y := by
        intro ws hws
        induction ws with
        | nil =>
            rfl
        | cons d ws ih =>
            have := split_append_space [] (ws ++ y) (hws d (by simp))
            rw [List.nil_append, split_nil, List.nil_append] at this
            rw [List.cons_append, this, ih fun a ha => hws a (List.mem_cons_of_mem _ ha)]
      rw [List.cons_append, split_append_space _ _ hc, hdrop w hspaces]

/--
**What stands behind an inline id** is read as message lines of their own: nothing comes
of them exactly when none of their tokens starts with `KEY(`.
-/
theorem parseLines_tail
    {y s : PyStr} {ls : List PyStr}
    (hy : ∀ c ∈ y, c.isLineBoundary = false)
    (hstop : ∀ c ∈ y.head?, isStop c = true)
    (hs : EndsLine U s ls) :
    ∀ (n : Nat) (x : PyStr), x.length ≤ n →
      startsAmq U x = true → (∀ c ∈ x, c.isLineBoundary = false) →
      ∃ rows attrs,
        (∀ current, parseLines U current (splitlines (breakInline U x ++ (y ++ s))) =
          flush current ++ (rows ++ parseLines U (some attrs) ls)) ∧
        ((rows = [] ∧ attrs.nonempty = false) ↔
          ∀ w ∈ split (x ++ y), startsPair w = false) := by
  have hempty : ∀ z : PyStr,
      (readOn true OrderedDict.empty z).nonempty = false ↔
        ∀ w ∈ split z, startsPair w = false := by
    intro z
    have := nonempty_readOn_iff z
    constructor
    · intro h w hw
      by_contra hpair
      rw [this.mpr ⟨w, hw, by simpa using hpair⟩] at h
      cases h
    · intro h
      by_contra hne
      obtain ⟨w, hw, hpair⟩ := this.mp (by simpa using hne)
      rw [h w hw] at hpair
      cases hpair
  intro n
  induction n with
  | zero =>
      intro x hn hx _
      obtain rfl := List.length_eq_zero_iff.mp (Nat.le_zero.mp hn)
      cases hx
  | succ n ih =>
      intro x hn hx hone
      rcases breakInline_cases U x with
        ⟨_, hsame⟩ | ⟨u, w, v, _, rfl, hu, ⟨hw, hblanks⟩, hv, hbreak⟩
      · have hxy : ∀ c ∈ x ++ y, c.isLineBoundary = false := by
          intro c hc
          exact (List.mem_append.mp hc).elim (hone c) (hy c)
        have hline : isMessageLine U (x ++ y) = true := by
          apply isMessageLine_of_startsAmq
          cases y with
          | nil =>
              rwa [List.append_nil]
          | cons c y =>
              rwa [startsAmq_append_stop U (hstop c rfl)]
        refine ⟨[], parseAttributes true (x ++ y), ?_, ?_⟩
        · intro current
          rw [hsame, ← List.append_assoc, hs current _ hxy, parseLines_message U current hline]
          rfl
        · rw [← hempty]
          simp [parseAttributes, readOn]
      · have huline : isMessageLine U u = true := by
          apply isMessageLine_of_startsAmq
          cases w with
          | nil =>
              exact absurd rfl hw
          | cons c w =>
              have hc := isStop_of_isSpace (isSpace_of_isBlank (hblanks c (by simp)))
              rw [List.append_assoc, List.cons_append, startsAmq_append_stop U hc] at hx
              exact hx
        have hone' : ∀ c ∈ u, c.isLineBoundary = false := fun c hc => hone c (by simp [hc])
        have hlength : v.length ≤ n := by
          have := List.length_pos_iff.mpr hu
          simp only [List.length_append] at hn
          omega
        obtain ⟨rows, attrs, hparse, hrows⟩ :=
          ih v hlength hv fun c hc => hone c (by simp [hc])
        refine ⟨flush (some (parseAttributes true u)) ++ rows, attrs, ?_, ?_⟩
        · intro current
          rw [hbreak, List.append_assoc, List.cons_append, splitlines_append hone'
            (splitlines_lf _), parseLines_message U current huline, hparse, List.append_assoc]
        · have hsplit : split (u ++ w ++ v ++ y) = split u ++ split (v ++ y) := by
            rw [List.append_assoc, List.append_assoc]
            exact split_blanks_append hw hblanks u (v ++ y)
          have hflush : flush (some (parseAttributes true u)) = [] ↔
              ∀ w ∈ split u, startsPair w = false := by
            rw [← hempty, flush_eq_nil]
            rfl
          rw [hsplit, List.append_eq_nil_iff, hflush, and_assoc, hrows]
          simp only [List.mem_append, or_imp, forall_and]

variable (r : QuotedReply U)

/-- The row of the open attribute. -/
theorem erase_row
    {before after : List (PyStr × PyStr)} {k v : PyStr}
    (hnodup : ((before ++ (k, v) :: after).map Prod.fst).Nodup) :
    ((OrderedDict.ofList (before ++ (k, v) :: after)).erase k).items = before ++ after := by
  rw [OrderedDict.items_erase, OrderedDict.items_ofList_of_nodup hnodup]
  have hsub : ∀ ps : List (PyStr × PyStr), (∀ p ∈ ps, p.1 ≠ k) →
      ps.filter (fun p => decide (p.1 ≠ k)) = ps := by
    intro ps hps
    exact List.filter_eq_self.mpr fun p hp => by simpa using hps p hp
  rw [List.map_append, List.map_cons, List.nodup_append, List.nodup_cons] at hnodup
  obtain ⟨_, ⟨hafter, _⟩, hdisjoint⟩ := hnodup
  have hbefore : ∀ p ∈ before, p.1 ≠ k :=
    fun p hp => hdisjoint p.1 (List.mem_map_of_mem hp) k (by simp)
  have hafter' : ∀ p ∈ after, p.1 ≠ k := by
    intro p hp hk
    have hmem : p.1 ∈ after.map Prod.fst := List.mem_map_of_mem hp
    rw [hk] at hmem
    exact hafter hmem
  simp only [List.filter_append, List.filter_cons]
  rw [hsub _ hbefore, hsub _ hafter']
  simp

/-- Once attributes are assigned, the row is not empty. -/
theorem nonempty_assignAll
    (ps : List (PyStr × PyStr)) :
    ∀ attrs : Attrs, (assignAll attrs ps).nonempty = false ↔
      attrs.nonempty = false ∧ ps = [] := by
  induction ps with
  | nil =>
      intro attrs
      simp [assignAll]
  | cons p ps ih =>
      intro attrs
      have hset := OrderedDict.nonempty_set attrs p.1 p.2
      have := ih (attrs.set p.1 p.2)
      rw [hset] at this
      simpa [assignAll] using this

/-- What a reply is read as, with the text `t` filled in. -/
theorem QuotedReply.parse_text
    {t text : PyStr} (ht : ∀ c ∈ t, c.isLineBoundary = false)
    (htext : Layout (r.textLines t) text) :
    ∃ row extra,
      parseMqscReply U text =
        (r.before.map fun o => OrderedDict.ofList o.attributes) ++
          row :: (extra ++ r.after.map fun o => OrderedDict.ofList o.attributes) ∧
      (extra = [] ↔ r.Harmless t) ∧
      (Unbroken U t → (row.erase r.slot.key).items = r.slot.itemsBefore ++ r.slot.itemsAfter) ∧
      (¬ Unbroken U t → (row.erase r.slot.key).items = r.slot.itemsBefore) := by
  rw [QuotedReply.textLines] at htext
  obtain ⟨rows₀, current, t₀, ht₀, hbefore, hrows₀⟩ := parseText_objects r.before none text htext
  obtain ⟨e, t₁, he, ht₁, hslot⟩ := r.parse_slot t current ht₀
  have hbreak := r.breakInline_line t he
  have hquoted := quoted_one_line ht
  have hkeys := r.keys_nodup
  have hbelow : ((linesItems r.slot.below).map Prod.fst).Nodup := by
    have := r.keys_nodup []
    rw [List.map_append, List.map_cons, List.nodup_append, List.nodup_cons, Slot.itemsAfter,
      List.map_append, List.nodup_append] at this
    exact this.2.1.2.2.1
  have hstart : ∀ x, parseText U current t₀ = flush current ++ x →
      parseMqscReply U text = (r.before.map fun o => OrderedDict.ofList o.attributes) ++ x := by
    intro x hx
    have hparse : parseMqscReply U text = parseText U none text := rfl
    rw [hparse, hbefore, hx, ← List.append_assoc, hrows₀]
    rfl
  rcases breakInline_cases U (quoted t) with
    ⟨hunbroken, hsame⟩ | ⟨u, w, v, htail, hsplit, hu, ⟨hw, hblanks⟩, hv, hcut⟩
  · -- the line is one piece
    have hone : ∀ c ∈ quoted t ++ r.slot.back, c.isLineBoundary = false := by
      intro c hc
      exact (List.mem_append.mp hc).elim (hquoted c) (r.back_one_line c)
    have hread : ∀ pairsOnly, (pairsOnly = true → r.slot.above = []) →
        readOn pairsOnly OrderedDict.empty (r.slot.front ++ (quoted t ++ r.slot.back)) =
          OrderedDict.ofList
            (items r.slot.left ++ (r.slot.key, quoted t) :: items r.slot.right) := by
      intro pairsOnly hpairs
      rw [← r.slot.text_line]
      exact r.readOn_unbroken hpairs t
    have hrow : linesItems r.slot.above ++
        (items r.slot.left ++ (r.slot.key, quoted t) :: items r.slot.right) ++
          linesItems r.slot.below =
        r.slot.itemsBefore ++ (r.slot.key, quoted t) :: r.slot.itemsAfter := by
      simp [Slot.itemsBefore, Slot.itemsAfter]
    have hps : ((items r.slot.left ++
        (r.slot.key, quoted t) :: items r.slot.right).map Prod.fst).Nodup := by
      have := hkeys (quoted t)
      rw [← hrow, List.map_append, List.nodup_append, List.map_append, List.nodup_append] at this
      exact this.1.2.1
    have hpieces : breakInline U ((r.slot.line t).text ++ e) =
        r.slot.front ++ ((quoted t ++ r.slot.back) ++ breakInline U e) := by
      rw [hbreak, hsame, List.append_assoc]
    have hparse := hslot _ _ _ _ hpieces hone he.endsLine hread hps
    obtain ⟨t₂, ht₂, hlines⟩ := parseText_lines r.below_printable
      (OrderedDict.ofList (linesItems r.slot.above ++
        (items r.slot.left ++ (r.slot.key, quoted t) :: items r.slot.right))) hbelow ht₁
    have hrest := parseText_objects_end ht₂ (some (OrderedDict.ofList
      (r.slot.itemsBefore ++ (r.slot.key, quoted t) :: r.slot.itemsAfter)))
    rw [assignAll, ← OrderedDict.ofList_append, hrow, hrest,
      flush_ofList (hkeys (quoted t)) (by simp)] at hlines
    refine ⟨_, [], ?_, ?_, fun _ => erase_row (hkeys (quoted t)),
      fun h => absurd hunbroken h⟩
    · refine hstart _ ?_
      rw [hparse]
      exact congrArg _ hlines
    · simp [QuotedReply.Harmless, hunbroken]
  · -- the line is cut behind `u`
    have hvalue := readValue_broken hsplit hu hw hblanks
    have hone : ∀ c ∈ u ++ w ++ v, c.isLineBoundary = false := by
      rw [← hsplit]
      exact hquoted
    have hpieces : breakInline U ((r.slot.line t).text ++ e) =
        r.slot.front ++ (u ++ lf :: (breakInline U v ++ (r.slot.back ++ breakInline U e))) := by
      rw [hbreak, hcut]
      simp
    have hrow : linesItems r.slot.above ++ (items r.slot.left ++ [(r.slot.key, strip u)]) =
        r.slot.itemsBefore ++ [(r.slot.key, strip u)] := by
      simp [Slot.itemsBefore]
    have hkeys' : ((r.slot.itemsBefore ++ [(r.slot.key, strip u)]).map Prod.fst).Nodup := by
      have := hkeys (strip u)
      rw [List.append_cons, List.map_append, List.nodup_append] at this
      exact this.1
    have hps : ((items r.slot.left ++ [(r.slot.key, strip u)]).map Prod.fst).Nodup := by
      rw [← hrow, List.map_append, List.nodup_append] at hkeys'
      exact hkeys'.2.1
    have hparse := hslot u _ _ _ hpieces (fun c hc => hone c (by simp [hc])) (endsLine_lf _)
      (fun _ hpairs => r.readOn_broken hpairs hvalue) hps
    have hback : ∀ c ∈ r.slot.back.head?, isStop c = true := by
      intro c hc
      obtain rfl : ch ')' = c := by simpa [Slot.back] using hc
      decide
    obtain ⟨rows, attrs, htailRows, hnone⟩ := parseLines_tail r.back_one_line hback he.endsLine
      v.length v le_rfl hv fun c hc => hone c (by simp [hc])
    obtain ⟨t₂, ht₂, hlines⟩ := parseText_lines r.below_printable attrs hbelow ht₁
    have hrest := parseText_objects_end ht₂ (some (assignAll attrs (linesItems r.slot.below)))
    rw [hrest] at hlines
    have herase := erase_row hkeys'
    rw [List.append_nil] at herase
    refine ⟨OrderedDict.ofList (r.slot.itemsBefore ++ [(r.slot.key, strip u)]),
      rows ++ flush (some (assignAll attrs (linesItems r.slot.below))), ?_, ?_, ?_,
      fun _ => herase⟩
    · refine hstart _ ?_
      rw [hparse, hrow, htailRows, flush_ofList hkeys' (by simp)]
      have htext : parseLines U (some attrs) (splitlines (breakInline U t₁)) = _ := hlines
      rw [htext]
      simp
    · rw [List.append_eq_nil_iff, flush_eq_nil, nonempty_assignAll, ← and_assoc, hnone]
      simp [QuotedReply.Harmless, htail, and_comm]
    · intro h
      rw [Unbroken, htail] at h
      cases h

/--
**Two texts in the same place.**  The rows are as many as the objects and agree outside
the open attribute exactly when both texts are harmless and, with attributes to the
right on the line, both are cut or neither.
-/
theorem QuotedReply.contained_iff
    {t t' text text' : PyStr}
    (ht : ∀ c ∈ t, c.isLineBoundary = false) (ht' : ∀ c ∈ t', c.isLineBoundary = false)
    (htext : Layout (r.textLines t) text) (htext' : Layout (r.textLines t') text') :
    r.Contained (parseMqscReply U text) (parseMqscReply U text') ↔
      r.Harmless t ∧ r.Harmless t' ∧
        (r.slot.right = [] ∨ (Unbroken U t ↔ Unbroken U t')) := by
  obtain ⟨row, extra, hparse, hextra, hwhole, hcut⟩ := r.parse_text ht htext
  obtain ⟨row', extra', hparse', hextra', hwhole', hcut'⟩ := r.parse_text ht' htext'
  have hlength : ∀ (row : Attrs) (extra : List Attrs),
      ((r.before.map fun o => OrderedDict.ofList o.attributes) ++
        row :: (extra ++ r.after.map fun o => OrderedDict.ofList o.attributes)).length =
          r.objectCount ↔ extra = [] := by
    intro row extra
    simp only [List.length_append, List.length_cons, List.length_map, QuotedReply.objectCount]
    rw [← List.length_eq_zero_iff]
    omega
  have hhere : ∀ (row : Attrs) (extra : List Attrs),
      ((r.before.map fun o => OrderedDict.ofList o.attributes) ++
        row :: (extra ++ r.after.map fun o => OrderedDict.ofList o.attributes))[
          r.before.length]? = some row := by
    intro row extra
    rw [List.getElem?_append_right (by simp)]
    simp
  have hrows : row.erase r.slot.key = row'.erase r.slot.key ↔
      (row.erase r.slot.key).items = (row'.erase r.slot.key).items :=
    ⟨fun h => by rw [h], OrderedDict.ext⟩
  have hright : items r.slot.right = [] ↔ r.slot.right = [] := List.map_eq_nil_iff
  rw [QuotedReply.Contained, hparse, hparse', hlength, hlength, hhere, hhere, hextra, hextra',
    Option.map_some, Option.map_some, Option.some.injEq, hrows]
  constructor
  · rintro ⟨hharmless, hharmless', _, hsame⟩
    refine ⟨hharmless, hharmless', ?_⟩
    by_cases hu : Unbroken U t
    · by_cases hu' : Unbroken U t'
      · exact Or.inr (iff_of_true hu hu')
      · left
        rw [hwhole hu, hcut' hu', List.append_right_eq_self, Slot.itemsAfter,
          List.append_eq_nil_iff] at hsame
        exact hright.mp hsame.1
    · by_cases hu' : Unbroken U t'
      · left
        rw [hcut hu, hwhole' hu', List.self_eq_append_right, Slot.itemsAfter,
          List.append_eq_nil_iff] at hsame
        exact hright.mp hsame.1
      · exact Or.inr (iff_of_false hu hu')
  · rintro ⟨hharmless, hharmless', hsame⟩
    have hbelow : ∀ {t : PyStr}, r.Harmless t → ¬ Unbroken U t →
        linesItems r.slot.below = [] := by
      intro t h hu
      obtain ⟨v, hv⟩ := Option.ne_none_iff_exists'.mp hu
      exact (h v hv).1
    have hnil : extra = [] := hextra.mpr hharmless
    have hnil' : extra' = [] := hextra'.mpr hharmless'
    refine ⟨hharmless, hharmless', ?_, ?_⟩
    · intro j hj
      rw [hnil, hnil']
      rcases Nat.lt_or_gt_of_ne hj with hlt | hgt
      · rw [List.getElem?_append_left (by simpa using hlt),
          List.getElem?_append_left (by simpa using hlt)]
      · rw [List.getElem?_append_right (by simpa using hgt.le),
          List.getElem?_append_right (by simpa using hgt.le)]
        obtain ⟨k, hk⟩ : ∃ k, j - (r.before.map fun o =>
            OrderedDict.ofList o.attributes).length = k + 1 := by
          refine ⟨j - r.before.length - 1, ?_⟩
          rw [List.length_map]
          omega
        rw [hk]
        rfl
    · by_cases hu : Unbroken U t
      · by_cases hu' : Unbroken U t'
        · rw [hwhole hu, hwhole' hu']
        · have hr : r.slot.right = [] := by
            rcases hsame with hr | hiff
            · exact hr
            · exact absurd (hiff.mp hu) hu'
          rw [hwhole hu, hcut' hu', Slot.itemsAfter, hr, hbelow hharmless' hu']
          simp [items]
      · by_cases hu' : Unbroken U t'
        · have hr : r.slot.right = [] := by
            rcases hsame with hr | hiff
            · exact hr
            · exact absurd (hiff.mpr hu') hu
          rw [hcut hu, hwhole' hu', Slot.itemsAfter, hr, hbelow hharmless hu]
          simp [items]
        · rw [hcut hu, hcut' hu']

end Containment

section Forgery

/-- A queue whose description is left open. -/
def sampleReply : QuotedReply UnicodeData.basic where
  before := []
  heading :=
    { id := lit "AMQ8409I:"
      prose := lit " Display Queue details."
      id_fits := by decide
      prose_line := by decide
      prose_plain := by decide }
  slot :=
    { above := [⟨[], []⟩]
      left := [⟨lit "   ", lit "QUEUE", some (lit "APP.IN")⟩]
      gap := lit "   "
      key := lit "DESCR"
      right := [⟨lit "   ", lit "CURDEPTH", some (lit "12")⟩]
      trailing := []
      below := [] }
  after := []
  printable := by decide +kernel
  first := by decide
  distinct := by decide

/-- The text of `sampleReply`, its lines ended by a newline. -/
def sampleText (t : PyStr) : PyStr :=
  lit "AMQ8409I: Display Queue details." ++ lf ::
    (lit "   QUEUE(APP.IN)   DESCR(" ++ quoted t ++ lit ")   CURDEPTH(12)" ++ lf :: [])

theorem layout_sampleText
    (t : PyStr) :
    Layout (sampleReply.textLines t) (sampleText t) := by
  have hline : (sampleReply.slot.line t).text =
      lit "   QUEUE(APP.IN)   DESCR(" ++ quoted t ++ lit ")   CURDEPTH(12)" := by
    rw [Slot.text_line, ← List.append_assoc]
    rfl
  have hlines : sampleReply.textLines t =
      [lit "AMQ8409I: Display Queue details.", (sampleReply.slot.line t).text] := rfl
  rw [hlines, hline]
  have hcr : ∀ text : PyStr, ¬ (lf = cr ∧ text.head? = some lf) :=
    fun _ h => absurd h.1 (by decide)
  exact Layout.ended _ (by decide) (hcr _) (Layout.ended _ (by decide) (hcr _) Layout.nil)

theorem contained_iff_sample :
    sampleReply.Contained
        (parseMqscReply UnicodeData.basic (sampleText (lit "Orders")))
        (parseMqscReply UnicodeData.basic (sampleText (lit "see AMQ8409I"))) ↔
      sampleReply.Harmless (lit "Orders") ∧ sampleReply.Harmless (lit "see AMQ8409I") ∧
        (sampleReply.slot.right = [] ∨
          (QuotedReply.Unbroken UnicodeData.basic (lit "Orders") ↔
            QuotedReply.Unbroken UnicodeData.basic (lit "see AMQ8409I"))) :=
  sampleReply.contained_iff (by decide) (by decide) (layout_sampleText _) (layout_sampleText _)

/-- A description that holds a message id and a pair makes a row of its own. -/
theorem description_forges_row :
    Layout (sampleReply.textLines (lit "x AMQ8417I: CHANNEL(EVIL)"))
        (sampleText (lit "x AMQ8417I: CHANNEL(EVIL)")) ∧
      Layout (sampleReply.textLines (lit "x")) (sampleText (lit "x")) ∧
      ((parseMqscReply UnicodeData.basic
          (sampleText (lit "x AMQ8417I: CHANNEL(EVIL)"))).map OrderedDict.items)[1]? =
        some [(lit "CHANNEL", lit "EVIL"), (lit "CURDEPTH", lit "12")] ∧
      ¬ sampleReply.Contained
        (parseMqscReply UnicodeData.basic (sampleText (lit "x AMQ8417I: CHANNEL(EVIL)")))
        (parseMqscReply UnicodeData.basic (sampleText (lit "x"))) := by
  refine ⟨layout_sampleText _, layout_sampleText _, by decide +kernel, ?_⟩
  rintro ⟨hrows, _⟩
  revert hrows
  decide +kernel

end Forgery

end Mqsc
end MqSentinel
