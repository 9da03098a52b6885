import MqSentinel.MqscAttributes

/-!
# Printed replies

What MQSC prints for a list of objects, with the freedom its output has: every object
is a message line and its attributes behind it, on the same line or on further ones,
with any blanks between them.  `parseMqscReply_printed` shows that the parser reads the
objects back from every such text.

The proof follows the layout.  A cell is read by one round of the attribute loop
(`readOn_cell`), a line by its cells (`readOn_cells`), and an object by its lines
(`parseText_object`).
-/

namespace MqSentinel
namespace Mqsc

open Regex CodePoint

/-- A printed attribute: `KEY(VALUE)`, or a bare keyword. -/
structure Attribute where
  key : PyStr
  value : Option PyStr
deriving DecidableEq

namespace Attribute

/-- What stands behind the key. -/
def suffix (a : Attribute) : PyStr :=
  match a.value with
  | none => []
  | some v => ch '(' :: (v ++ [ch ')'])

/-- The attribute as it is printed. -/
def text (a : Attribute) : PyStr :=
  a.key ++ a.suffix

/-- The attribute as it is read: a bare keyword has the empty value. -/
def item (a : Attribute) : PyStr × PyStr :=
  (a.key, a.value.getD [])

end Attribute

section Printable

variable (U : UnicodeData)

/-- A value that is printed between parentheses. -/
structure IsValue (v : PyStr) : Prop where
  one_line : ∀ c ∈ v, c.isLineBoundary = false
  stripped : strip v = v
  closed : closed 0 false v = true
  no_id : hasInlineId U v = false

/-- The key is a key, not shaped like a z/OS message id, and the value is a value. -/
structure Attribute.Printable (a : Attribute) : Prop where
  key : isKey a.key = true
  not_csq : ¬ Rx.Fits (csqId U) a.key
  value : ∀ v ∈ a.value, IsValue U v

/-- An attribute with the blanks in front of it. -/
structure Cell where
  gap : PyStr
  attr : Attribute
deriving DecidableEq

def Cell.text (c : Cell) : PyStr :=
  c.gap ++ c.attr.text

/-- Cells next to each other. -/
def cellsText (cells : List Cell) : PyStr :=
  cells.flatMap Cell.text

/-- The attributes of cells, as they are read. -/
def items (cells : List Cell) : List (PyStr × PyStr) :=
  cells.map fun c => c.attr.item

/-- Cells that may stand in one line: only the first may have no blanks in front of it. -/
structure CellsPrintable (cells : List Cell) : Prop where
  printable : ∀ c ∈ cells, c.attr.Printable U
  blanks : ∀ c ∈ cells, ∀ d ∈ c.gap, isBlank d = true
  spaced : ∀ c ∈ cells.tail, c.gap ≠ []

/-- The attributes of one line, and the blanks at its end. -/
structure Line where
  cells : List Cell
  trailing : PyStr
deriving DecidableEq

def Line.text (l : Line) : PyStr :=
  cellsText l.cells ++ l.trailing

structure Line.Printable (l : Line) : Prop where
  cells : CellsPrintable U l.cells
  trailing : ∀ c ∈ l.trailing, isBlank c = true

instance (v : PyStr) : Decidable (IsValue U v) :=
  decidable_of_iff
    ((∀ c ∈ v, c.isLineBoundary = false) ∧ strip v = v ∧ Mqsc.closed 0 false v = true ∧
      hasInlineId U v = false)
    ⟨fun h => ⟨h.1, h.2.1, h.2.2.1, h.2.2.2⟩,
      fun h => ⟨h.one_line, h.stripped, h.closed, h.no_id⟩⟩

instance (a : Attribute) : Decidable (a.Printable U) :=
  decidable_of_iff
    (isKey a.key = true ∧ ¬ Rx.Fits (csqId U) a.key ∧ ∀ v ∈ a.value, IsValue U v)
    ⟨fun h => ⟨h.1, h.2.1, h.2.2⟩, fun h => ⟨h.key, h.not_csq, h.value⟩⟩

instance (cells : List Cell) : Decidable (CellsPrintable U cells) :=
  decidable_of_iff
    ((∀ c ∈ cells, c.attr.Printable U) ∧ (∀ c ∈ cells, ∀ d ∈ c.gap, isBlank d = true) ∧
      ∀ c ∈ cells.tail, c.gap ≠ [])
    ⟨fun h => ⟨h.1, h.2.1, h.2.2⟩, fun h => ⟨h.printable, h.blanks, h.spaced⟩⟩

instance (l : Line) : Decidable (l.Printable U) :=
  decidable_of_iff
    (CellsPrintable U l.cells ∧ ∀ c ∈ l.trailing, isBlank c = true)
    ⟨fun h => ⟨h.1, h.2⟩, fun h => ⟨h.cells, h.trailing⟩⟩

/-- The cells may stand on the message line: pairs, each behind blanks. -/
def OnMessageLine (cells : List Cell) : Prop :=
  ∀ c ∈ cells, c.gap ≠ [] ∧ c.attr.value.isSome = true

instance (cells : List Cell) : Decidable (OnMessageLine cells) :=
  inferInstanceAs (Decidable (∀ c ∈ cells, c.gap ≠ [] ∧ c.attr.value.isSome = true))

/-- `AMQnnnnX: prose`, the part of a message line in front of its pairs. -/
structure Heading where
  id : PyStr
  prose : PyStr
  id_fits : Rx.Fits (amqId U) id
  prose_line : ∀ c ∈ prose, c.isLineBoundary = false
  prose_plain : ch '(' ∉ prose

variable {U}

def Heading.text (h : Heading U) : PyStr :=
  h.id ++ h.prose

variable (U)

/-- An object as it is printed; its first line shares the message line. -/
structure PrintedObject where
  heading : Heading U
  lines : List Line
  printable : ∀ l ∈ lines, l.Printable U
  first : ∀ l ∈ lines.head?, OnMessageLine l.cells
  distinct : ((lines.flatMap fun l => items l.cells).map Prod.fst).Nodup
  nonempty : (lines.flatMap fun l => items l.cells) ≠ []

variable {U}

/-- The attribute map of an object: key and value in the order of printing. -/
def PrintedObject.attributes (o : PrintedObject U) : List (PyStr × PyStr) :=
  o.lines.flatMap fun l => items l.cells

/-- The heading in front of the first of some lines. -/
def headed (heading : PyStr) : List PyStr → List PyStr
  | [] => [heading]
  | l :: ls => (heading ++ l) :: ls

def PrintedObject.textLines (o : PrintedObject U) : List PyStr :=
  headed o.heading.text (o.lines.map Line.text)

/--
Lines written one below the other, each ended by a line boundary; the last one may be
left unterminated.
-/
inductive Layout : List PyStr → PyStr → Prop
  | nil : Layout [] []
  | last (l : PyStr) : Layout [l] l
  | ended (l : PyStr) {c : CodePoint} {ls : List PyStr} {text : PyStr} :
      c.isLineBoundary = true → ¬ (c = cr ∧ text.head? = some lf) →
      Layout ls text → Layout (l :: ls) (l ++ c :: text)
  | crlf (l : PyStr) {ls : List PyStr} {text : PyStr} :
      Layout ls text → Layout (l :: ls) (l ++ cr :: lf :: text)

end Printable

section ReadingCells

variable {U : UnicodeData}

theorem head_cellsText_append
    {cells : List Cell} {rest : PyStr}
    (hblanks : ∀ c ∈ cells, ∀ d ∈ c.gap, isBlank d = true)
    (hgaps : ∀ c ∈ cells, c.gap ≠ [])
    (hrest : ∀ c ∈ rest.head?, c.isSpace = true) :
    ∀ c ∈ (cellsText cells ++ rest).head?, c.isSpace = true := by
  cases cells with
  | nil =>
      exact hrest
  | cons cell cells =>
      intro c hc
      cases hgap : cell.gap with
      | nil =>
          exact absurd hgap (hgaps cell (by simp))
      | cons d gap =>
          have hd := hblanks cell (by simp) d (by rw [hgap]; simp)
          have hcd : d = c := by
            simpa [cellsText, Cell.text, hgap] using hc
          rw [← hcd]
          exact isSpace_of_isBlank hd

/-- The key of a printable attribute starts with a letter. -/
theorem head_key
    {k : PyStr} (hk : isKey k = true) (rest : PyStr) :
    ∀ c ∈ (k ++ rest).head?, c.isSpace = false := by
  cases k with
  | nil =>
      cases hk
  | cons d k =>
      intro c hc
      have hcd : d = c := by simpa using hc
      have hd := keyChar_of_isKey hk d (by simp)
      by_contra hspace
      rw [hcd, not_key_of_isStop (isStop_of_isSpace (by simpa using hspace))] at hd
      cases hd

/-- **One cell is one round** of the attribute loop, behind its blanks. -/
theorem readOn_cell
    {pairsOnly : Bool} {c : Cell} (attrs : Attrs) {rest : PyStr}
    (hattr : c.attr.Printable U)
    (hblanks : ∀ d ∈ c.gap, isBlank d = true)
    (hpair : pairsOnly = true → c.attr.value.isSome = true)
    (hrest : ∀ d ∈ rest.head?, d.isSpace = true) :
    readOn pairsOnly attrs (c.text ++ rest) =
      readOn pairsOnly (attrs.set c.attr.item.1 c.attr.item.2) rest := by
  have hgap : ∀ d ∈ c.gap, d.isSpace = true := fun d hd => isSpace_of_isBlank (hblanks d hd)
  rw [Cell.text, List.append_assoc, readOn_spaces _ _ hgap]
  have hkey := hattr.key
  have hvalue := hattr.value
  unfold Attribute.text Attribute.suffix Attribute.item
  cases hv : c.attr.value with
  | none =>
      have hattributes : pairsOnly = false := by
        cases pairsOnly with
        | false =>
            rfl
        | true =>
            rw [hv] at hpair
            cases hpair rfl
      subst hattributes
      rw [List.append_nil]
      exact readOn_attribute attrs (head_key hkey rest) (attributeToken_bare hkey hrest)
  | some v =>
      have hv := hvalue v (by simp [hv])
      have htoken := attributeToken_pair hkey hv.closed hv.stripped pairsOnly rest
      have htext : c.attr.key ++ ch '(' :: (v ++ [ch ')']) ++ rest =
          c.attr.key ++ ch '(' :: (v ++ ch ')' :: rest) := by
        simp
      simp only [htext]
      exact readOn_attribute attrs (head_key hkey _) htoken

/-- **The cells of a line** are read one after the other. -/
theorem readOn_cells
    {pairsOnly : Bool} {cells : List Cell} (attrs : Attrs) {rest : PyStr}
    (hcells : CellsPrintable U cells)
    (hpair : pairsOnly = true → ∀ c ∈ cells, c.attr.value.isSome = true)
    (hrest : cells ≠ [] → ∀ d ∈ rest.head?, d.isSpace = true) :
    readOn pairsOnly attrs (cellsText cells ++ rest) =
      readOn pairsOnly ((items cells).foldl (fun d p => d.set p.1 p.2) attrs) rest := by
  induction cells generalizing attrs with
  | nil =>
      rfl
  | cons c cells ih =>
      have hgaps : ∀ d ∈ cells, d.gap ≠ [] := hcells.spaced
      have htail : CellsPrintable U cells :=
        ⟨fun d hd => hcells.printable d (List.mem_cons_of_mem _ hd),
          fun d hd => hcells.blanks d (List.mem_cons_of_mem _ hd),
          fun d hd => hgaps d (List.mem_of_mem_tail hd)⟩
      have hhead := head_cellsText_append htail.blanks hgaps (hrest (by simp))
      have htext : cellsText (c :: cells) ++ rest = c.text ++ (cellsText cells ++ rest) := by
        simp [cellsText]
      rw [htext, readOn_cell attrs (hcells.printable c (by simp)) (hcells.blanks c (by simp))
        (fun h => hpair h c (by simp)) hhead,
        ih _ htail (fun h d hd => hpair h d (List.mem_cons_of_mem _ hd))
          fun _ => hrest (by simp)]
      rfl

theorem readOn_blanks
    (pairsOnly : Bool) (attrs : Attrs) {ws : PyStr} (hws : ∀ c ∈ ws, isBlank c = true) :
    readOn pairsOnly attrs ws = attrs := by
  have := readOn_spaces pairsOnly attrs (fun c hc => isSpace_of_isBlank (hws c hc)) []
  simpa using this

theorem head_blanks
    {ws : PyStr} (hws : ∀ c ∈ ws, isBlank c = true) :
    ∀ c ∈ ws.head?, c.isSpace = true :=
  fun c hc => isSpace_of_isBlank (hws c (List.mem_of_mem_head? hc))

theorem readOn_line
    {pairsOnly : Bool} {l : Line} (attrs : Attrs)
    (hl : l.Printable U)
    (hpair : pairsOnly = true → ∀ c ∈ l.cells, c.attr.value.isSome = true) :
    readOn pairsOnly attrs l.text =
      (items l.cells).foldl (fun d p => d.set p.1 p.2) attrs := by
  rw [Line.text, readOn_cells attrs hl.cells hpair fun _ => head_blanks hl.trailing,
    readOn_blanks _ _ hl.trailing]

end ReadingCells

section LineShape

variable {U : UnicodeData}

theorem not_boundary_of_keyChar
    {c : CodePoint} (hc : isKeyChar c = true) :
    c.isLineBoundary = false := by
  by_contra h
  have hspace := isSpace_of_isLineBoundary (by simpa using h)
  rw [not_key_of_isStop (isStop_of_isSpace hspace)] at hc
  cases hc

theorem not_boundary_of_isBlank
    {c : CodePoint} (hc : isBlank c = true) :
    c.isLineBoundary = false := by
  simp only [isBlank, Bool.or_eq_true, beq_iff_eq] at hc
  rcases hc with rfl | rfl <;> decide

theorem not_blank_of_isLineBoundary
    {c : CodePoint} (hc : c.isLineBoundary = true) :
    isBlank c = false := by
  by_contra h
  rw [not_boundary_of_isBlank (by simpa using h)] at hc
  cases hc

/-- A printed attribute stays on its line. -/
theorem Attribute.Printable.one_line
    {a : Attribute} (ha : a.Printable U) :
    ∀ c ∈ a.text, c.isLineBoundary = false := by
  have hkey := fun c hc => not_boundary_of_keyChar (keyChar_of_isKey ha.key c hc)
  have hvalue := ha.value
  intro c hc
  unfold Attribute.text Attribute.suffix at hc
  cases hv : a.value with
  | none =>
      rw [hv] at hc
      exact hkey c (by simpa using hc)
  | some v =>
      simp only [hv, List.mem_append, List.mem_cons, List.not_mem_nil, or_false] at hc
      rcases hc with hc | rfl | hc | rfl
      · exact hkey c hc
      · decide
      · exact (hvalue v (by simp [hv])).one_line c hc
      · decide

/-- No message id starts inside a key. -/
theorem startsAmq_key
    {k rest : PyStr} (hk : isKey k = true) (hrest : ∀ c ∈ rest.head?, isStop c = true) :
    startsAmq U (k ++ rest) = false := by
  have hkey : startsAmq U k = false := by
    by_contra h
    have hcolon := keyChar_of_isKey hk _ (colon_mem_of_startsAmq U (by simpa using h))
    revert hcolon
    decide
  cases rest with
  | nil =>
      rwa [List.append_nil]
  | cons c rest =>
      rwa [startsAmq_append_stop U (hrest c rfl)]

theorem hasInlineId_of_no_blank
    {x : PyStr} (hx : ∀ c ∈ x, isBlank c = false) (y : PyStr) :
    hasInlineId U (x ++ y) = hasInlineId U y := by
  induction x with
  | nil =>
      rfl
  | cons c x ih =>
      rw [List.cons_append, hasInlineId, hx c (by simp), Bool.false_and, Bool.false_or]
      exact ih fun d hd => hx d (List.mem_cons_of_mem _ hd)

theorem not_blank_of_keyChar
    {c : CodePoint} (hc : isKeyChar c = true) :
    isBlank c = false := by
  by_contra h
  have hstop := isStop_of_isSpace (isSpace_of_isBlank (by simpa using h))
  rw [not_key_of_isStop hstop] at hc
  cases hc

/-- Blanks bring an id into the text only in front of one. -/
theorem hasInlineId_blanks
    {ws : PyStr} (hws : ∀ c ∈ ws, isBlank c = true) {y : PyStr}
    (hid : startsAmq U y = false) (hy : hasInlineId U y = false) :
    hasInlineId U (ws ++ y) = false := by
  induction ws with
  | nil =>
      exact hy
  | cons c ws ih =>
      have hws' : ∀ d ∈ ws, isBlank d = true := fun d hd => hws d (List.mem_cons_of_mem _ hd)
      have hnext : startsAmq U (ws ++ y) = false := by
        cases ws with
        | nil =>
            exact hid
        | cons d ws =>
            exact startsAmq_cons_stop U (isStop_of_isSpace (isSpace_of_isBlank (hws' d (by simp)))) _
      rw [List.cons_append, hasInlineId, hnext, Bool.and_false, Bool.false_or]
      exact ih hws'

theorem head_suffix_append
    {a : Attribute} {rest : PyStr} (hrest : ∀ c ∈ rest.head?, isStop c = true) :
    ∀ c ∈ (a.suffix ++ rest).head?, isStop c = true := by
  unfold Attribute.suffix
  cases a.value with
  | none =>
      exact hrest
  | some v =>
      intro c hc
      obtain rfl : ch '(' = c := by simpa using hc
      decide

theorem hasInlineId_suffix
    {a : Attribute} (ha : a.Printable U) (rest : PyStr) :
    hasInlineId U (a.suffix ++ rest) = hasInlineId U rest := by
  have hvalue := ha.value
  unfold Attribute.suffix
  cases hv : a.value with
  | none =>
      rfl
  | some v =>
      have hopen : isBlank (ch '(') = false := by decide
      have hclose : isBlank (ch ')') = false := by decide
      have hstop : isStop (ch ')') = true := by decide
      have htext : ch '(' :: (v ++ [ch ')']) ++ rest = ch '(' :: (v ++ ch ')' :: rest) := by
        simp
      simp only [htext]
      rw [hasInlineId, hopen, Bool.false_and, Bool.false_or, hasInlineId_append_stop U hstop,
        (hvalue v (by simp [hv])).no_id, Bool.false_or, hasInlineId, hclose, Bool.false_and,
        Bool.false_or]

/-- Neither at its start nor inside does a printed attribute show an inline id. -/
theorem Attribute.Printable.no_id
    {a : Attribute} (ha : a.Printable U) {rest : PyStr}
    (hrest : ∀ c ∈ rest.head?, isStop c = true) :
    startsAmq U (a.text ++ rest) = false ∧
      hasInlineId U (a.text ++ rest) = hasInlineId U rest := by
  have htext : a.text ++ rest = a.key ++ (a.suffix ++ rest) := by
    rw [Attribute.text, List.append_assoc]
  rw [htext]
  refine ⟨startsAmq_key ha.key (head_suffix_append hrest), ?_⟩
  rw [hasInlineId_of_no_blank fun c hc => not_blank_of_keyChar (keyChar_of_isKey ha.key c hc),
    hasInlineId_suffix ha]

/-- **Printed cells hold no inline id** besides those of what follows them. -/
theorem CellsPrintable.no_id
    {cells : List Cell} (hcells : CellsPrintable U cells) {rest : PyStr}
    (hrest : ∀ c ∈ rest.head?, c.isSpace = true) (hid : hasInlineId U rest = false) :
    hasInlineId U (cellsText cells ++ rest) = false := by
  induction cells with
  | nil =>
      exact hid
  | cons c cells ih =>
      have htail : CellsPrintable U cells :=
        ⟨fun d hd => hcells.printable d (List.mem_cons_of_mem _ hd),
          fun d hd => hcells.blanks d (List.mem_cons_of_mem _ hd),
          fun d hd => hcells.spaced d (List.mem_of_mem_tail hd)⟩
      have hhead := head_cellsText_append htail.blanks hcells.spaced hrest
      have hattr := (hcells.printable c (by simp)).no_id
        fun d hd => isStop_of_isSpace (hhead d hd)
      have htext : cellsText (c :: cells) ++ rest =
          c.gap ++ (c.attr.text ++ (cellsText cells ++ rest)) := by
        simp [cellsText, Cell.text]
      rw [htext]
      exact hasInlineId_blanks (hcells.blanks c (by simp)) hattr.1 (hattr.2.trans (ih htail))

theorem CellsPrintable.one_line
    {cells : List Cell} (hcells : CellsPrintable U cells) :
    ∀ c ∈ cellsText cells, c.isLineBoundary = false := by
  intro c hc
  obtain ⟨cell, hcell, hc⟩ := List.mem_flatMap.mp hc
  rcases List.mem_append.mp hc with hc | hc
  · exact not_boundary_of_isBlank (hcells.blanks cell hcell c hc)
  · exact (hcells.printable cell hcell).one_line c hc

theorem Line.Printable.no_id
    {l : Line} (hl : l.Printable U) :
    hasInlineId U l.text = false := by
  refine hl.cells.no_id (head_blanks hl.trailing) ?_
  have := hasInlineId_blanks (U := U) hl.trailing (y := []) rfl rfl
  rwa [List.append_nil] at this

theorem Line.Printable.one_line
    {l : Line} (hl : l.Printable U) :
    ∀ c ∈ l.text, c.isLineBoundary = false := by
  intro c hc
  rcases List.mem_append.mp hc with hc | hc
  · exact hl.cells.one_line c hc
  · exact not_boundary_of_isBlank (hl.trailing c hc)

/-- No z/OS id starts a line with a key that is none. -/
theorem not_startsCsq_key
    {k rest : PyStr} (hk : isKey k = true) (hcsq : ¬ Rx.Fits (csqId U) k)
    (hrest : ∀ c ∈ rest.head?, isStop c = true) :
    ¬ StartsCsq U (k ++ rest) := by
  rintro ⟨u, v, hsplit, hu, hv⟩
  rcases List.append_eq_append_iff.mp hsplit with ⟨x, rfl, hrest'⟩ | ⟨x, rfl, hx⟩
  · cases x with
    | nil =>
        rw [List.append_nil] at hu
        exact hcsq hu
    | cons c x =>
        -- the id would reach behind the key
        have hc : isStop c = true := hrest c (by rw [hrest']; rfl)
        have hfalse : ∀ (ps : List (CodePoint → Bool)) (u : PyStr), Rx.Fits ps u →
            (∀ p ∈ ps, p c = false) → c ∉ u := by
          intro ps u hfits
          induction hfits with
          | nil =>
              intro _ hmem
              cases hmem
          | @cons p d ps u hp _ ih =>
              intro hps hmem
              rcases List.mem_cons.mp hmem with rfl | hmem
              · rw [hps p (by simp)] at hp
                cases hp
              · exact ih (fun q hq => hps q (List.mem_cons_of_mem _ hq)) hmem
        exact hfalse _ _ hu (csqId_stop U hc) (by simp)
  · cases x with
    | nil =>
        rw [List.append_nil] at hcsq
        exact hcsq hu
    | cons c x =>
        have hword := isWord_of_isKeyChar U (keyChar_of_isKey hk c (by simp))
        rw [hx] at hv
        simp [hword] at hv

/-- A line that starts with an attribute is no message line. -/
theorem not_isMessageLine_attribute
    {a : Attribute} (ha : isKey a.key = true ∧ ¬ Rx.Fits (csqId U) a.key)
    {gap rest : PyStr} (hgap : ∀ c ∈ gap, isBlank c = true)
    (hrest : ∀ c ∈ rest.head?, isStop c = true) :
    isMessageLine U (gap ++ (a.key ++ rest)) = false := by
  have hstrip : lstrip (gap ++ (a.key ++ rest)) = a.key ++ rest := by
    rw [lstrip, List.dropWhile_append_of_pos fun c hc => isSpace_of_isBlank (hgap c hc)]
    have hhead := head_key ha.1 rest
    cases htext : a.key ++ rest with
    | nil =>
        rfl
    | cons c t =>
        rw [htext] at hhead
        rw [List.dropWhile_cons_of_neg (by simp [hhead c rfl])]
  by_contra hline
  have hline := (isMessageLine_iff U _).mp (by simpa using hline)
  rw [hstrip] at hline
  rcases hline with hamq | hcsq
  · rw [startsAmq_key ha.1 hrest] at hamq
    cases hamq
  · exact not_startsCsq_key ha.1 ha.2 hrest hcsq

/-- **An attribute line is no message line.** -/
theorem CellsPrintable.not_isMessageLine
    {cells : List Cell} (hcells : CellsPrintable U cells) {rest : PyStr}
    (hrest : ∀ c ∈ rest.head?, c.isSpace = true)
    (hne : cells = [] → ∀ c ∈ rest, c.isSpace = true) :
    isMessageLine U (cellsText cells ++ rest) = false := by
  cases cells with
  | nil =>
      exact not_isMessageLine_of_spaces U (hne rfl)
  | cons c cells =>
      have hhead := head_cellsText_append
        (fun d hd => hcells.blanks d (List.mem_cons_of_mem _ hd)) hcells.spaced hrest
      have htext : cellsText (c :: cells) ++ rest =
          c.gap ++ (c.attr.key ++ (c.attr.suffix ++ (cellsText cells ++ rest))) := by
        simp [cellsText, Cell.text, Attribute.text]
      have hattr := hcells.printable c (by simp)
      rw [htext]
      exact not_isMessageLine_attribute ⟨hattr.key, hattr.not_csq⟩ (hcells.blanks c (by simp))
        (head_suffix_append fun d hd => isStop_of_isSpace (hhead d hd))

theorem Line.Printable.not_isMessageLine
    {l : Line} (hl : l.Printable U) :
    isMessageLine U l.text = false :=
  hl.cells.not_isMessageLine (head_blanks hl.trailing)
    fun _ c hc => isSpace_of_isBlank (hl.trailing c hc)

end LineShape

section ReadingLines

variable (U : UnicodeData)

/-- `parse_mqsc_reply` on the rest of a reply, with the row `current` begun. -/
def parseText (current : Option Attrs) (text : PyStr) : List Attrs :=
  parseLines U current (splitlines (breakInline U text))

/-- `e` ends a line, and `t` is what follows it. -/
def LineEnd (e t : PyStr) : Prop :=
  (e = [] ∧ t = []) ∨
    (∃ c, c.isLineBoundary = true ∧ ¬ (c = cr ∧ t.head? = some lf) ∧ e = c :: t) ∨
    e = cr :: lf :: t

variable {U}

theorem LineEnd.bounds
    {e t : PyStr} (he : LineEnd e t) :
    Bounds U e := by
  rcases he with ⟨rfl, _⟩ | ⟨c, hc, _, rfl⟩ | rfl
  · exact bounds_nil U
  · exact bounds_cons U (isStop_of_isSpace (isSpace_of_isLineBoundary hc))
      (not_blank_of_isLineBoundary hc) t
  · exact bounds_cons U (by decide) (by decide) (lf :: t)

theorem splitlines_cons
    {c : CodePoint} (hc : c.isLineBoundary = false) {s l : PyStr} {ls : List PyStr}
    (hs : splitlines s = l :: ls) :
    splitlines (c :: s) = (c :: l) :: ls := by
  have hcr : c ≠ cr := by
    rintro rfl
    cases hc
  simp [splitlines, hcr, hc, hs]

/-- A line that is ended is split off. -/
theorem splitlines_append
    {u : PyStr} (hu : ∀ c ∈ u, c.isLineBoundary = false) {s : PyStr} {ls : List PyStr}
    (hs : splitlines s = [] :: ls) :
    splitlines (u ++ s) = u :: ls := by
  induction u with
  | nil =>
      exact hs
  | cons c u ih =>
      exact splitlines_cons (hu c (by simp)) (ih fun d hd => hu d (List.mem_cons_of_mem _ hd))

theorem splitlines_boundary
    {c : CodePoint} (hc : c.isLineBoundary = true) {s : PyStr}
    (hcr : ¬ (c = cr ∧ s.head? = some lf)) :
    splitlines (c :: s) = [] :: splitlines s := by
  simp only [splitlines, hcr, hc, if_false, if_true]

theorem splitlines_lf
    (s : PyStr) :
    splitlines (lf :: s) = [] :: splitlines s :=
  splitlines_boundary (by decide) fun h => absurd h.1 (by decide)

theorem splitlines_crlf
    (s : PyStr) :
    splitlines (cr :: lf :: s) = [] :: splitlines s := by
  rw [← splitlines_lf]
  simp [splitlines]

/-- A line that is not ended is the last one. -/
theorem splitlines_line
    {u : PyStr} (hu : ∀ c ∈ u, c.isLineBoundary = false) (hne : u ≠ []) :
    splitlines u = [u] := by
  induction u with
  | nil =>
      exact absurd rfl hne
  | cons c u ih =>
      have hc := hu c (by simp)
      by_cases hnil : u = []
      · subst hnil
        simp [splitlines, hc]
      · exact splitlines_cons hc (ih (fun d hd => hu d (List.mem_cons_of_mem _ hd)) hnil)

theorem breakInline_cons_stop
    {c : CodePoint} (hc : c.isSpace = true) (hblank : isBlank c = false) (t : PyStr) :
    breakInline U (c :: t) = c :: breakInline U t := by
  have hfirst : ∀ a post,
      Rx.first (inlineAmq U) (a ++ [c]) post = Rx.first (inlineAmq U) (a ++ []) post := by
    intro a post
    rw [first_inlineAmq, first_inlineAmq]
    cases a with
    | nil =>
        simp [hc]
    | cons d a =>
        rfl
  have hbreak : breaksAt U (c :: t) = false := by
    simp [breaksAt, hblank]
  have hnone : Rx.first (inlineAmq U) [] (c :: t) = none := by
    rw [first_inlineAmq, hbreak, Bool.and_false]
    rfl
  have htail := tokensFrom_congr hfirst t [] 0
  rw [List.nil_append] at htail
  rw [breakInline, sub, tokens, tokensFrom, hnone, htail]
  rfl

/-- No break starts a text. -/
theorem head_breakInline
    (t : PyStr) :
    (breakInline U t).head? = t.head? := by
  cases t with
  | nil =>
      rfl
  | cons c t =>
      have hnone : Rx.first (inlineAmq U) [] (c :: t) = none := by
        rw [first_inlineAmq]
        rfl
      rw [breakInline, sub, tokens, tokensFrom, hnone]
      rfl

/-- The end of the text is one more empty line, and it adds nothing. -/
theorem parseLines_empty_line
    (current : Option Attrs) :
    parseLines U current [[]] = parseLines U current [] := by
  have hline : isMessageLine U [] = false := not_isMessageLine_of_spaces U (by simp)
  cases current with
  | none =>
      simp [parseLines, hline]
  | some attrs =>
      simp only [parseLines, hline]
      rfl

variable (U) in
/-- Behind a line, `s` ends it and leaves the lines `ls` to be read. -/
def EndsLine (s : PyStr) (ls : List PyStr) : Prop :=
  ∀ (current : Option Attrs) (u : PyStr), (∀ c ∈ u, c.isLineBoundary = false) →
    parseLines U current (splitlines (u ++ s)) = parseLines U current (u :: ls)

theorem endsLine_lf
    (s : PyStr) :
    EndsLine U (lf :: s) (splitlines s) := by
  intro current u hu
  rw [splitlines_append hu (splitlines_lf s)]

/-- **A line is read on its own**, whichever way it is ended. -/
theorem LineEnd.endsLine
    {e t : PyStr} (he : LineEnd e t) :
    EndsLine U (breakInline U e) (splitlines (breakInline U t)) := by
  intro current u hu
  rcases he with ⟨rfl, rfl⟩ | ⟨c, hc, hcr, rfl⟩ | rfl
  · have hnil : breakInline U [] = [] := by
      rfl
    rw [hnil, List.append_nil]
    by_cases hne : u = []
    · subst hne
      exact (parseLines_empty_line current).symm
    · rw [splitlines_line hu hne]
      rfl
  · have hcr' : ¬ (c = cr ∧ (breakInline U t).head? = some lf) := by
      rwa [head_breakInline]
    rw [breakInline_cons_stop (isSpace_of_isLineBoundary hc) (not_blank_of_isLineBoundary hc),
      splitlines_append hu (splitlines_boundary hc hcr')]
  · rw [breakInline_cons_stop (by decide) (by decide),
      breakInline_cons_stop (by decide) (by decide),
      splitlines_append hu (splitlines_crlf (breakInline U t))]

/-- An attribute line adds its attributes to the row. -/
theorem parseText_attribute_line
    {x e t : PyStr} (attrs : Attrs)
    (hx : ∀ c ∈ x, c.isLineBoundary = false)
    (hid : hasInlineId U x = false)
    (hline : isMessageLine U x = false)
    (he : LineEnd e t) :
    parseText U (some attrs) (x ++ e) =
      parseText U (some (attrs.update (readOn false OrderedDict.empty x))) t := by
  rw [parseText, he.bounds.breakInline_append, breakInline_of_not_hasInlineId U hid,
    he.endsLine _ x hx, parseLines_attributes U attrs hline]
  rfl

theorem bounds_of_no_id
    {y : PyStr} (hhead : ∀ c ∈ y.head?, isStop c = true) (hid : hasInlineId U y = false) :
    Bounds U y := by
  refine ⟨hhead, ?_⟩
  cases y with
  | nil =>
      rfl
  | cons c y =>
      by_cases hc : isBlank c = true
      · by_contra h
        have hbreak : breaksAt U (c :: y) = true := by
          rw [breaksAt]
          simp only [List.head?_cons, Option.any_some, hc, Bool.true_and]
          simpa using h
        rw [hasInlineId_of_breaksAt U _ hbreak] at hid
        cases hid
      · rw [List.dropWhile_cons_of_neg hc]
        exact startsAmq_cons_stop U (hhead c rfl) y

/-- The pieces of a prose that is broken inline are message lines without attributes. -/
theorem parseLines_heading
    {y s : PyStr} {ls : List PyStr}
    (hy : ∀ c ∈ y, c.isLineBoundary = false)
    (hspace : ∀ c ∈ y.head?, c.isSpace = true)
    (hs : EndsLine U s ls) :
    ∀ (n : Nat) (x : PyStr) (current : Option Attrs), x.length ≤ n →
      startsAmq U x = true → ch '(' ∉ x → (∀ c ∈ x, c.isLineBoundary = false) →
      parseLines U current (splitlines (breakInline U x ++ (y ++ s))) =
        flush current ++ parseLines U (some (readOn true OrderedDict.empty y)) ls := by
  intro n
  induction n with
  | zero =>
      intro x current hn hx _ _
      obtain rfl := List.length_eq_zero_iff.mp (Nat.le_zero.mp hn)
      cases hx
  | succ n ih =>
      intro x current hn hx hplain hone
      rcases breakInline_cases U x with
        ⟨_, hsame⟩ | ⟨u, w, v, _, rfl, hu, ⟨hw, hblanks⟩, hv, hbreak⟩
      · have hxy : ∀ c ∈ x ++ y, c.isLineBoundary = false := by
          intro c hc
          exact (List.mem_append.mp hc).elim (hone c) (hy c)
        have hline : isMessageLine U (x ++ y) = true := by
          apply isMessageLine_of_startsAmq
          cases y with
          | nil =>
              rwa [List.append_nil]
          | cons c y =>
              rwa [startsAmq_append_stop U (isStop_of_isSpace (hspace c rfl))]
        have hread : parseAttributes true (x ++ y) = readOn true OrderedDict.empty y :=
          readOn_prose OrderedDict.empty hplain hspace
        rw [hsame, ← List.append_assoc, hs current _ hxy, parseLines_message U current hline,
          hread]
      · have huline : isMessageLine U u = true := by
          apply isMessageLine_of_startsAmq
          cases w with
          | nil =>
              exact absurd rfl hw
          | cons c w =>
              have hc := isStop_of_isSpace (isSpace_of_isBlank (hblanks c (by simp)))
              rw [List.append_assoc, List.cons_append, startsAmq_append_stop U hc] at hx
              exact hx
        simp only [List.mem_append, not_or] at hplain
        have hread : parseAttributes true u = OrderedDict.empty := by
          have := readOn_prose OrderedDict.empty (y := []) hplain.1.1 (by simp)
          rwa [List.append_nil, readOn_nil] at this
        have hone' : ∀ c ∈ u, c.isLineBoundary = false := fun c hc => hone c (by simp [hc])
        have hlength : v.length ≤ n := by
          have := List.length_pos_iff.mpr hu
          simp only [List.length_append] at hn
          omega
        have hstep := ih v (some OrderedDict.empty) hlength hv hplain.2
          fun c hc => hone c (by simp [hc])
        rw [hbreak, List.append_assoc, List.cons_append, splitlines_append hone' (splitlines_lf _),
          parseLines_message U current huline, hread, hstep]
        rfl

/-- **A message line starts a row** with the pairs behind its prose. -/
theorem parseText_message_line
    {x y e t : PyStr} (current : Option Attrs)
    (hx : startsAmq U x = true) (hplain : ch '(' ∉ x)
    (hone : ∀ c ∈ x, c.isLineBoundary = false)
    (hy : ∀ c ∈ y, c.isLineBoundary = false)
    (hspace : ∀ c ∈ y.head?, c.isSpace = true)
    (hid : hasInlineId U y = false)
    (he : LineEnd e t) :
    parseText U current (x ++ (y ++ e)) =
      flush current ++ parseText U (some (readOn true OrderedDict.empty y)) t := by
  have hbounds : Bounds U y :=
    bounds_of_no_id (fun d hd => isStop_of_isSpace (hspace d hd)) hid
  have hbreak : breakInline U (x ++ (y ++ e)) =
      breakInline U x ++ (y ++ breakInline U e) := by
    rw [← List.append_assoc, he.bounds.breakInline_append, hbounds.breakInline_append,
      breakInline_of_not_hasInlineId U hid, List.append_assoc]
  rw [parseText, hbreak]
  exact parseLines_heading hy hspace he.endsLine x.length x current le_rfl hx hplain hone

end ReadingLines

section ReadingObjects

variable {U : UnicodeData}

/-- A layout of some lines is its first line, ended, and a layout of the others. -/
theorem Layout.uncons
    {l : PyStr} {ls : List PyStr} {text : PyStr} (h : Layout (l :: ls) text) :
    ∃ e t, text = l ++ e ∧ LineEnd e t ∧ Layout ls t := by
  cases h with
  | last =>
      exact ⟨[], [], by simp, Or.inl ⟨rfl, rfl⟩, Layout.nil⟩
  | @ended _ c _ t hc hcr ht =>
      exact ⟨c :: t, t, rfl, Or.inr (Or.inl ⟨c, hc, hcr, rfl⟩), ht⟩
  | @crlf _ _ t ht =>
      exact ⟨cr :: lf :: t, t, rfl, Or.inr (Or.inr rfl), ht⟩

/-- The attributes of some lines. -/
def linesItems (lines : List Line) : List (PyStr × PyStr) :=
  lines.flatMap fun l => items l.cells

/-- Some attributes are assigned to a row. -/
def assignAll (attrs : Attrs) (ps : List (PyStr × PyStr)) : Attrs :=
  ps.foldl (fun d p => d.set p.1 p.2) attrs

/-- **Attribute lines** are read one after the other into the row. -/
theorem parseText_lines
    {lines : List Line} (hlines : ∀ l ∈ lines, l.Printable U) :
    ∀ (attrs : Attrs) {ls : List PyStr} {text : PyStr},
      ((linesItems lines).map Prod.fst).Nodup →
      Layout (lines.map Line.text ++ ls) text →
      ∃ t, Layout ls t ∧
        parseText U (some attrs) text =
          parseText U (some (assignAll attrs (linesItems lines))) t := by
  induction lines with
  | nil =>
      intro attrs ls text _ htext
      exact ⟨text, htext, rfl⟩
  | cons l lines ih =>
      intro attrs ls text hnodup htext
      obtain ⟨e, t, rfl, he, ht⟩ := htext.uncons
      have hl := hlines l (by simp)
      have hitems : linesItems (l :: lines) = items l.cells ++ linesItems lines := by
        simp [linesItems]
      rw [hitems, List.map_append, List.nodup_append] at hnodup
      have hread : readOn false OrderedDict.empty l.text = OrderedDict.ofList (items l.cells) :=
        readOn_line OrderedDict.empty hl (by simp)
      obtain ⟨t', ht', hparse⟩ :=
        ih (fun m hm => hlines m (List.mem_cons_of_mem _ hm))
          (assignAll attrs (items l.cells)) hnodup.2.1 ht
      refine ⟨t', ht', ?_⟩
      rw [parseText_attribute_line _ hl.one_line hl.no_id hl.not_isMessageLine he, hread,
        OrderedDict.update_ofList _ hnodup.1, hitems, assignAll, List.foldl_append]
      exact hparse

theorem Heading.startsAmq
    (h : Heading U) :
    startsAmq U h.text = true :=
  (Rx.startsWith_iff _ _).mpr ⟨h.id, h.prose, rfl, h.id_fits⟩

/-- The characters of an id: no parenthesis and no line boundary. -/
theorem not_stop_of_fits_amqId
    {id : PyStr} (hid : Rx.Fits (amqId U) id) :
    ∀ c ∈ id, isStop c = false := by
  have hfits : ∀ (ps : List (CodePoint → Bool)) (u : PyStr), Rx.Fits ps u →
      (∀ p ∈ ps, p ∈ amqId U) → ∀ c ∈ u, isStop c = false := by
    intro ps u h
    induction h with
    | nil =>
        intro _ c hc
        cases hc
    | @cons p d ps u hp _ ih =>
        intro hps c hc
        rcases List.mem_cons.mp hc with rfl | hc
        · by_contra hstop
          rw [amqId_stop U (by simpa using hstop) p (hps p (by simp))] at hp
          cases hp
        · exact ih (fun q hq => hps q (List.mem_cons_of_mem _ hq)) c hc
  exact hfits _ _ hid fun p hp => hp

theorem Heading.plain
    (h : Heading U) :
    ch '(' ∉ h.text := by
  intro hmem
  rcases List.mem_append.mp hmem with hmem | hmem
  · have := not_stop_of_fits_amqId h.id_fits _ hmem
    revert this
    decide
  · exact h.prose_plain hmem

theorem Heading.one_line
    (h : Heading U) :
    ∀ c ∈ h.text, c.isLineBoundary = false := by
  intro c hc
  rcases List.mem_append.mp hc with hc | hc
  · by_contra hboundary
    have hspace := isSpace_of_isLineBoundary (by simpa using hboundary)
    have := not_stop_of_fits_amqId h.id_fits c hc
    rw [isStop_of_isSpace hspace] at this
    cases this
  · exact h.prose_line c hc

/-- The line that shares the message line is bounded by a blank, or empty. -/
theorem Line.Printable.head_space
    {l : Line} (hl : l.Printable U) (hfirst : OnMessageLine l.cells) :
    ∀ c ∈ l.text.head?, c.isSpace = true :=
  head_cellsText_append hl.cells.blanks (fun c hc => (hfirst c hc).1) (head_blanks hl.trailing)

/-- **An object is read as one row**, which replaces the row before it. -/
theorem parseText_object
    (o : PrintedObject U) (current : Option Attrs) {ls : List PyStr} {text : PyStr}
    (htext : Layout (o.textLines ++ ls) text) :
    ∃ t, Layout ls t ∧
      parseText U current text =
        flush current ++ parseText U (some (OrderedDict.ofList o.attributes)) t := by
  have hprintable := o.printable
  have hfirst := o.first
  have hdistinct : ((linesItems o.lines).map Prod.fst).Nodup := o.distinct
  have hattributes : o.attributes = linesItems o.lines := rfl
  unfold PrintedObject.textLines at htext
  cases hlines : o.lines with
  | nil =>
      exact absurd (by rw [hlines]; rfl) o.nonempty
  | cons l lines =>
      rw [hlines] at htext hprintable hfirst hdistinct hattributes
      obtain ⟨e, t, rfl, he, ht⟩ := htext.uncons
      have hl := hprintable l (by simp)
      have hshare := hfirst l rfl
      have hitems : linesItems (l :: lines) = items l.cells ++ linesItems lines := by
        simp [linesItems]
      rw [hitems, List.map_append, List.nodup_append] at hdistinct
      have hread : readOn true OrderedDict.empty l.text = OrderedDict.ofList (items l.cells) :=
        readOn_line OrderedDict.empty hl fun _ c hc => (hshare c hc).2
      obtain ⟨t', ht', hparse⟩ := parseText_lines
        (fun m hm => hprintable m (List.mem_cons_of_mem _ hm))
        (OrderedDict.ofList (items l.cells)) hdistinct.2.1 ht
      refine ⟨t', ht', ?_⟩
      rw [List.append_assoc, parseText_message_line current o.heading.startsAmq
        o.heading.plain o.heading.one_line hl.one_line (hl.head_space hshare) hl.no_id he,
        hread, hattributes, hitems, OrderedDict.ofList_append]
      exact congrArg _ hparse

theorem flush_eq_nil
    (attrs : Attrs) :
    flush (some attrs) = [] ↔ attrs.nonempty = false := by
  rw [flush]
  cases attrs.nonempty <;> simp

theorem flush_ofList
    {ps : List (PyStr × PyStr)} (hps : (ps.map Prod.fst).Nodup) (hne : ps ≠ []) :
    flush (some (OrderedDict.ofList ps)) = [OrderedDict.ofList ps] := by
  have hitems := OrderedDict.items_ofList_of_nodup hps
  have hnonempty : (OrderedDict.ofList ps).nonempty = true := by
    rw [OrderedDict.nonempty, hitems]
    simpa using hne
  simp [flush, hnonempty]

theorem parseText_nil
    (current : Option Attrs) :
    parseText U current [] = flush current := by
  cases current <;> rfl

/-- The objects of a reply are read as their rows, the last of them still begun. -/
theorem parseText_objects
    (objects : List (PrintedObject U)) {ls : List PyStr} :
    ∀ (current : Option Attrs) (text : PyStr),
      Layout (objects.flatMap PrintedObject.textLines ++ ls) text →
      ∃ rows current' t, Layout ls t ∧
        parseText U current text = rows ++ parseText U current' t ∧
        rows ++ flush current' =
          flush current ++ objects.map fun o => OrderedDict.ofList o.attributes := by
  induction objects with
  | nil =>
      intro current text htext
      exact ⟨[], current, text, htext, rfl, by simp⟩
  | cons o objects ih =>
      intro current text htext
      rw [List.flatMap_cons, List.append_assoc] at htext
      obtain ⟨t, ht, hparse⟩ := parseText_object o current htext
      obtain ⟨rows, current', t', ht', hparse', hrows⟩ := ih _ t ht
      have hflush : flush (some (OrderedDict.ofList o.attributes)) =
          [OrderedDict.ofList o.attributes] :=
        flush_ofList o.distinct o.nonempty
      refine ⟨flush current ++ rows, current', t', ht', ?_, ?_⟩
      · rw [hparse, hparse', List.append_assoc]
      · rw [List.append_assoc, hrows, hflush]
        rfl

/-- The rest of a reply, to its end. -/
theorem parseText_objects_end
    {objects : List (PrintedObject U)} {text : PyStr}
    (htext : Layout (objects.flatMap PrintedObject.textLines) text) (current : Option Attrs) :
    parseText U current text =
      flush current ++ objects.map fun o => OrderedDict.ofList o.attributes := by
  rw [← List.append_nil (objects.flatMap _)] at htext
  obtain ⟨rows, current', t, ht, hparse, hrows⟩ := parseText_objects objects current text htext
  cases ht
  rw [hparse, parseText_nil, hrows]

/--
**Parsing undoes rendering.**  From every layout of some objects the parser returns
their attribute maps, in order.
-/
theorem parseMqscReply_printed
    (U : UnicodeData) {objects : List (PrintedObject U)} {text : PyStr}
    (htext : Layout (objects.flatMap PrintedObject.textLines) text) :
    (parseMqscReply U text).map OrderedDict.items =
      objects.map PrintedObject.attributes := by
  have hparse := parseText_objects_end htext none
  have hrows : parseMqscReply U text =
      objects.map fun o => OrderedDict.ofList o.attributes := hparse
  rw [hrows, List.map_map]
  refine List.map_congr_left fun o _ => ?_
  exact OrderedDict.items_ofList_of_nodup o.distinct

/-- A channel as the reply to a `DISPLAY CHSTATUS` shows it. -/
def sampleObject : PrintedObject UnicodeData.basic where
  heading :=
    { id := lit "AMQ8417I:"
      prose := lit " Display Channel Status details."
      id_fits := by decide
      prose_line := by decide
      prose_plain := by decide }
  lines :=
    [⟨[⟨lit "\t", lit "CHANNEL", some (lit "APP.SVRCONN")⟩], []⟩,
      ⟨[⟨lit "   ", lit "CONNAME", some (lit "10.0.0.42(1414)")⟩,
        ⟨lit " ", lit "CURRENT", none⟩], lit " "⟩,
      ⟨[⟨[], lit "DESCR", some (quote :: lit "don" ++ quote :: quote :: lit "t" ++ [quote])⟩], []⟩]
  printable := by decide +kernel
  first := by decide
  distinct := by decide
  nonempty := by decide

theorem parseMqscReply_printed_sample :
    (parseMqscReply UnicodeData.basic
        (lit "AMQ8417I: Display Channel Status details.\tCHANNEL(APP.SVRCONN)" ++ cr :: lf ::
          (lit "   CONNAME(10.0.0.42(1414)) CURRENT " ++ lf ::
            (lit "DESCR(" ++ quote :: lit "don" ++ quote :: quote :: lit "t" ++ [quote] ++
              lit ")")))).map OrderedDict.items =
      [[(lit "CHANNEL", lit "APP.SVRCONN"), (lit "CONNAME", lit "10.0.0.42(1414)"),
        (lit "CURRENT", []),
        (lit "DESCR", quote :: lit "don" ++ quote :: quote :: lit "t" ++ [quote])]] := by
  have htext : Layout ([sampleObject].flatMap PrintedObject.textLines) _ :=
    Layout.crlf _ (Layout.ended _ (c := lf) (by decide) (by decide) (Layout.last _))
  exact parseMqscReply_printed UnicodeData.basic htext

end ReadingObjects

end Mqsc
end MqSentinel
