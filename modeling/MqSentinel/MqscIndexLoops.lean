import MqSentinel.LoopRules
import MqSentinel.MqscQuotedText

/-!
# The attribute reader by index

`_parse_attributes` and `_read_value` as the source has them: loops over an index into the
line, where an index outside of it raises.  `Outside` says which texts end outside of every
quoted segment, and `Closing` where the parenthesis in front of an index is closed.

The loops are proved against the reader of suffixes (`readFrom`, `readOn`), which is proved
against `Closing`.
-/

namespace MqSentinel
namespace Mqsc

open CodePoint Loop

section Source

/-- What the loops can raise; `endless` stands for a loop that does not end. -/
inductive Fault where
  | indexError
  | assertionError
  | endless
deriving DecidableEq

/-- `line[i]` -/
def charAt (line : PyStr) (i : Nat) : Except Fault CodePoint :=
  match (line)[i]? with
  | none => .error .indexError
  | some c => .ok c

/-- `line[i:j]` -/
def between (line : PyStr) (i j : Nat) : PyStr :=
  (line.drop i).take (j - i)

/-- `j < len(line) and line[j] == c` -/
def hasAt (line : PyStr) (j : Nat) (c : CodePoint) : Except Fault Bool :=
  if j < line.length then (charAt line j).map (· == c) else .ok false

/-- A round of the loop over a quoted string; it ends at the closing quote. -/
def quoteRound (line : PyStr) (j : Nat) : Except Fault (Round Nat Nat) :=
  if j < line.length then do
    let c ← charAt line j
    if c = quote then
      if ← hasAt line (j + 1) quote then
        -- '' is an escaped quote
        return .next (j + 2)
      return .done j
    return .next (j + 1)
  else return .done j

/-- The index of the closing quote, or the length of the line. -/
def quoteEnd (line : PyStr) (j : Nat) : Except Fault Nat :=
  runLoop (quoteRound line) .endless (line.length + 1) j

/-- The variables of the loop of `_read_value`. -/
structure ReadState where
  i : Nat
  depth : Int := 1
  out : List PyStr := []

/-- A round of the loop of `_read_value`. -/
def readRound (line : PyStr) (s : ReadState) : Except Fault (Round ReadState (PyStr × Nat)) :=
  if s.i < line.length then do
    let c ← charAt line s.i
    if c = quote then
      let j ← quoteEnd line (s.i + 1)
      return .next ⟨j + 1, s.depth, s.out ++ [between line s.i (j + 1)]⟩
    else if c = ch '(' then return .next ⟨s.i + 1, s.depth + 1, s.out ++ [[c]]⟩
    else if c = ch ')' then
      if s.depth - 1 = 0 then return .done (strip s.out.flatten, s.i + 1)
      else return .next ⟨s.i + 1, s.depth - 1, s.out ++ [[c]]⟩
    else return .next ⟨s.i + 1, s.depth, s.out ++ [[c]]⟩
  else return .done (strip s.out.flatten, s.i)

/-- `_read_value(line, i)` -/
def readValueAt (line : PyStr) (i : Nat) : Except Fault (PyStr × Nat) :=
  runLoop (readRound line) .endless (line.length + 1) { i := i }

/-- A round of `while i < n and not line[i].isspace(): i += 1`. -/
def skipRound (line : PyStr) (i : Nat) : Except Fault (Round Nat Nat) :=
  if i < line.length then do
    let c ← charAt line i
    if c.isSpace then return .done i
    return .next (i + 1)
  else return .done i

def skipTokenAt (line : PyStr) (i : Nat) : Except Fault Nat :=
  runLoop (skipRound line) .endless (line.length + 1) i

/-- `_KEY.match(line, i)`: where the match ends. -/
def keyEnd (line : PyStr) (i : Nat) : Option Nat :=
  (matchKey (line.drop i)).map fun p => i + p.1.length

/-- The variables of the loop of `_parse_attributes`. -/
structure ParseState where
  i : Nat := 0
  attrs : Attrs := OrderedDict.empty

/-- `end < n and line[end] != "(" and not line[end].isspace()` -/
def runsOn (line : PyStr) (e : Nat) : Except Fault Bool :=
  if e < line.length then do
    let c ← charAt line e
    return c != ch '(' && !c.isSpace
  else return false

/-- A round of the loop of `_parse_attributes`. -/
def attributeRound (pairsOnly : Bool) (line : PyStr) (s : ParseState) :
    Except Fault (Round ParseState Attrs) :=
  if s.i < line.length then do
    let c ← charAt line s.i
    if c.isSpace then return .next { s with i := s.i + 1 }
    let found := keyEnd line s.i
    let e := found.getD s.i
    let isPair ← if found.isSome then hasAt line e (ch '(') else pure false
    let other ← if found.isNone then pure true else runsOn line e
    if other || (pairsOnly && !isPair) then
      -- on the first token this is prose: drop the line
      if !s.attrs.nonempty && !pairsOnly then return .done OrderedDict.empty
      let k ← skipTokenAt line s.i
      return .next { s with i := k }
    match found with
    | none => throw .assertionError
    | some e =>
        let key := between line s.i e
        if ← hasAt line e (ch '(') then
          let (value, k) ← readValueAt line (e + 1)
          return .next ⟨k, s.attrs.set key value⟩
        return .next ⟨e, s.attrs.set key []⟩
  else return .done s.attrs

/-- `_parse_attributes` -/
def parseAttributesAt (pairsOnly : Bool) (line : PyStr) : Except Fault Attrs :=
  runLoop (attributeRound pairsOnly line) .endless (line.length + 1) {}

end Source

section Segments

/-- What a character outside of the segments adds to the number of open parentheses. -/
def opens (c : CodePoint) : Int :=
  if c = ch '(' then 1 else if c = ch ')' then -1 else 0

/--
The text ends outside of every quoted segment, and so many more parentheses are opened
than closed outside of them.  A quote right behind a segment would not end it.
-/
inductive Outside : PyStr → Int → Prop where
  | nil : Outside [] 0
  | char {u : PyStr} {d : Int} {c : CodePoint} (hu : Outside u d) (hc : c ≠ quote) :
      Outside (u ++ [c]) (d + opens c)
  | segment {u : PyStr} {d : Int} (hu : Outside u d) (hlast : u.getLast? ≠ some quote)
      (t : PyStr) : Outside (u ++ quoted t) d

/-- At `j` stands a parenthesis that closes the one opened in front of `i`. -/
def Closing (line : PyStr) (i j : Nat) : Prop :=
  i ≤ j ∧ (line)[j]? = some (ch ')') ∧ Outside (between line i j) 0

/-- Inside a segment or not, with the parentheses opened outside. -/
def scan : Bool × Int → PyStr → Bool × Int
  | state, [] => state
  | (inside, d), c :: s =>
      if c = quote then scan (!inside, d) s
      else if inside then scan (inside, d) s
      else scan (inside, d + opens c) s

theorem scan_append
    (state : Bool × Int) (u v : PyStr) :
    scan state (u ++ v) = scan (scan state u) v := by
  fun_induction scan state u with
  | case1 =>
      rfl
  | case2 _ _ _ ih =>
      simpa [scan] using ih
  | case3 _ _ _ hc ih =>
      simpa [scan, hc] using ih
  | case4 _ _ _ _ hc hinside ih =>
      simpa [scan, hc, hinside] using ih

/-- The text of a segment stays inside. -/
theorem scan_escape
    (d : Int) (t : PyStr) :
    scan (true, d) (escape t) = (true, d) := by
  induction t with
  | nil =>
      rfl
  | cons c t ih =>
      by_cases hc : c = quote
      · rw [hc, escape_cons_quote]
        simpa [scan] using ih
      · rw [escape_cons_of_ne hc]
        simpa [scan, hc] using ih

theorem scan_quoted
    (d : Int) (t : PyStr) :
    scan (false, d) (quoted t) = (false, d) := by
  have hinside : scan (false, d) (quoted t) = scan (true, d) (escape t ++ [quote]) := by
    simp [quoted, scan]
  rw [hinside, scan_append, scan_escape]
  simp [scan]

theorem scan_of_outside
    {u : PyStr} {d : Int} (h : Outside u d) :
    scan (false, 0) u = (false, d) := by
  induction h with
  | nil =>
      rfl
  | char _ hc ih =>
      rw [scan_append, ih]
      simp [scan, hc]
  | segment _ _ t ih =>
      rw [scan_append, ih, scan_quoted]

/-- A quote at the end of such a text closes a segment. -/
theorem Outside.eq_segment
    {u : PyStr} {d : Int} (h : Outside u d) (hlast : u.getLast? = some quote) :
    ∃ v t, u = v ++ quoted t ∧ Outside v d ∧ v.getLast? ≠ some quote := by
  cases h with
  | nil =>
      cases hlast
  | char _ hc =>
      rw [List.getLast?_concat] at hlast
      exact absurd (Option.some_inj.mp hlast) hc
  | segment hv hne t =>
      exact ⟨_, t, rfl, hv, hne⟩

/-- What the scan of a text comes to: outside, or inside a segment that is open. -/
theorem scan_cases (u : PyStr) :
    ∀ d, (scan (false, 0) u = (false, d) → Outside u d) ∧
      (scan (false, 0) u = (true, d) →
        ∃ v t, u = v ++ quote :: escape t ∧ Outside v d ∧ v.getLast? ≠ some quote) := by
  induction u using List.reverseRecOn with
  | nil =>
      intro d
      constructor
      · rintro ⟨⟩
        exact Outside.nil
      · rintro ⟨⟩
  | append_singleton u c ih =>
      intro d
      obtain ⟨inside, e, hstate⟩ : ∃ inside e, scan (false, 0) u = (inside, e) :=
        ⟨_, _, rfl⟩
      rw [scan_append, hstate]
      by_cases hc : c = quote
      · subst hc
        cases inside with
        | false =>
            refine ⟨by simp [scan], ?_⟩
            intro h
            obtain rfl : e = d := by simpa [scan] using h
            have hu := (ih e).1 hstate
            by_cases hlast : u.getLast? = some quote
            · -- the quote makes an escaped one of the quote in front of it
              obtain ⟨v, t, rfl, hv, hne⟩ := hu.eq_segment hlast
              exact ⟨v, t ++ [quote], by simp [quoted, escape_cons_quote], hv, hne⟩
            · exact ⟨u, [], by simp, hu, hlast⟩
        | true =>
            refine ⟨?_, by simp [scan]⟩
            intro h
            obtain rfl : e = d := by simpa [scan] using h
            obtain ⟨v, t, rfl, hv, hne⟩ := (ih e).2 hstate
            have hclosed : v ++ quote :: escape t ++ [quote] = v ++ quoted t := by
              simp [quoted]
            rw [hclosed]
            exact Outside.segment hv hne t
      · cases inside with
        | false =>
            refine ⟨?_, by simp [scan, hc]⟩
            intro h
            obtain rfl : e + opens c = d := by simpa [scan, hc] using h
            exact Outside.char ((ih e).1 hstate) hc
        | true =>
            refine ⟨by simp [scan, hc], ?_⟩
            intro h
            obtain rfl : e = d := by simpa [scan, hc] using h
            obtain ⟨v, t, rfl, hv, hne⟩ := (ih e).2 hstate
            exact ⟨v, t ++ [c], by simp [escape_cons_of_ne hc], hv, hne⟩

theorem outside_iff_scan
    {u : PyStr} {d : Int} :
    Outside u d ↔ scan (false, 0) u = (false, d) :=
  ⟨scan_of_outside, (scan_cases u d).1⟩

/--
A text is read up to the first parenthesis that the scan reaches outside of the segments
with no other one open, or to its end.
-/
def ReadsTo (state : Bool × Int) (s : PyStr) (r : PyStr × PyStr) : Prop :=
  (s = r.1 ++ ch ')' :: r.2 ∧ scan state r.1 = (false, 0) ∨ r = (s, [])) ∧
    ∀ v rest, s = v ++ ch ')' :: rest → scan state v = (false, 0) →
      r.1.length ≤ v.length

/-- A character that does not end the value. -/
theorem ReadsTo.cons
    {state state' : Bool × Int} {c : CodePoint} {s : PyStr} {r : PyStr × PyStr}
    (h : ReadsTo state' s r) (hscan : ∀ v, scan state (c :: v) = scan state' v)
    (hgo : c = ch ')' → state ≠ (false, 0)) :
    ReadsTo state (c :: s) (r.map (c :: ·) id) := by
  obtain ⟨hread, hfirst⟩ := h
  constructor
  · rcases hread with ⟨hs, hr⟩ | rfl
    · refine Or.inl ⟨?_, ?_⟩
      · rw [Prod.map_fst, Prod.map_snd, List.cons_append]
        exact congrArg (c :: ·) hs
      · rw [Prod.map_fst, hscan]
        exact hr
    · exact Or.inr rfl
  · intro v rest hs hv
    cases v with
    | nil =>
        obtain ⟨rfl, -⟩ := List.cons_eq_cons.mp hs
        exact absurd hv (hgo rfl)
    | cons d v =>
        obtain ⟨hc, htail⟩ := List.cons_eq_cons.mp hs
        rw [← hc, hscan] at hv
        exact Nat.succ_le_succ (hfirst v rest htail hv)

/-- Inside a segment nothing ends the value. -/
theorem ReadsTo.end_of_line
    {state : Bool × Int} {s : PyStr} (h : ∀ v rest, s = v ++ ch ')' :: rest →
      scan state v ≠ (false, 0)) :
    ReadsTo state s (s, []) :=
  ⟨Or.inr rfl, fun v rest hs hv => absurd hv (h v rest hs)⟩

/-- **Where a value ends.** -/
theorem readFrom_readsTo
    (depth : Nat) (inside : Bool) (s : PyStr) (hdepth : 0 < depth) :
    ReadsTo (inside, (depth : Int) - 1) s (readFrom depth inside s) := by
  fun_induction readFrom depth inside s with
  | case1 =>
      exact ReadsTo.end_of_line (by simp)
  | case2 depth c =>
      refine ReadsTo.end_of_line fun v rest hs => ?_
      cases v with
      | nil =>
          simp [scan]
      | cons d v =>
          simp at hs
  | case3 depth cs ih =>
      -- an escaped quote leaves the segment and enters it again
      have hinner : ReadsTo (false, (depth : Int) - 1) (quote :: cs)
          ((readFrom depth true cs).map (quote :: ·) id) :=
        (ih hdepth).cons (by simp [scan]) (fun h => absurd h (by decide))
      exact hinner.cons (by simp [scan]) (fun h => absurd h (by decide))
  | case4 depth d cs hd ih =>
      exact (ih hdepth).cons (by simp [scan]) (fun h => absurd h (by decide))
  | case5 depth c d cs hc ih =>
      exact (ih hdepth).cons (by simp [scan, hc]) (by simp)
  | case6 depth cs ih =>
      exact (ih hdepth).cons (by simp [scan]) (fun h => absurd h (by decide))
  | case7 depth cs hc ih =>
      have hopen : (depth : Int) - 1 + opens (ch '(') = ((depth + 1 : Nat) : Int) - 1 := by
        simp [opens]
      refine (ih (by omega)).cons (fun v => ?_) (fun h => absurd h (by decide))
      rw [scan, if_neg hc, if_neg (by simp), hopen]
  | case8 depth cs hlast =>
      have hone : depth = 1 := by omega
      subst hone
      exact ⟨Or.inl ⟨rfl, rfl⟩, fun v rest _ _ => Nat.zero_le _⟩
  | case9 depth cs hlast hc hopen ih =>
      have hvalue : opens (ch ')') = -1 := by decide
      have hclose : (depth : Int) - 1 + opens (ch ')') = ((depth - 1 : Nat) : Int) - 1 := by
        rw [hvalue]
        omega
      refine (ih (by omega)).cons (fun v => ?_) (fun _ hstate => ?_)
      · rw [scan, if_neg hc, if_neg (by simp), hclose]
      · rw [Prod.mk.injEq] at hstate
        omega
  | case10 depth c cs hc hopen hclose ih =>
      refine (ih hdepth).cons (fun v => ?_) (fun h => absurd h hclose)
      rw [scan, if_neg hc, if_neg (by simp), opens, if_neg hopen, if_neg hclose, add_zero]

end Segments

section Indices

variable {line : PyStr} {i j k : Nat}

/-- A character inside of the line is read. -/
theorem charAt_of_lt
    (h : i < line.length) :
    ∃ c, charAt line i = .ok c ∧ line.drop i = c :: line.drop (i + 1) := by
  refine ⟨line.get ⟨i, h⟩, ?_, List.drop_eq_getElem_cons h⟩
  rw [charAt, List.getElem?_eq_getElem h]
  rfl

theorem getElem?_eq_some_iff_drop
    {c : CodePoint} :
    (line)[j]? = some c ↔ line.drop j = c :: line.drop (j + 1) := by
  rw [← List.head?_drop]
  constructor
  · intro h
    rw [← List.tail_drop]
    exact List.eq_cons_of_mem_head? h
  · intro h
    rw [h]
    rfl

/-- A look-ahead never leaves the line. -/
theorem hasAt_eq
    (line : PyStr) (j : Nat) (c : CodePoint) :
    hasAt line j c = .ok (decide ((line)[j]? = some c)) := by
  unfold hasAt charAt
  split_ifs with h
  · rw [List.getElem?_eq_getElem h]
    simp only [Except.map, Option.some_inj]
    rfl
  · rw [List.getElem?_eq_none (by omega)]
    rfl

@[simp] theorem between_self
    (line : PyStr) (i : Nat) :
    between line i i = [] := by
  simp [between]

theorem between_append_drop
    (h : i ≤ j) :
    between line i j ++ line.drop j = line.drop i := by
  have hj : line.drop j = (line.drop i).drop (j - i) := by
    rw [List.drop_drop]
    congr 1
    omega
  rw [between, hj, List.take_append_drop]

theorem between_append_between
    (hij : i ≤ j) (hjk : j ≤ k) :
    between line i j ++ between line j k = between line i k := by
  have hj : line.drop j = (line.drop i).drop (j - i) := by
    rw [List.drop_drop]
    congr 1
    omega
  have hk : k - i = (j - i) + (k - j) := by omega
  rw [between, between, between, hj, hk, ← List.take_add]

theorem between_succ
    {c : CodePoint} (h : line.drop i = c :: line.drop (i + 1)) :
    between line i (i + 1) = [c] := by
  rw [between, h]
  simp

theorem between_of_length_le
    (h : line.length ≤ j) :
    between line i j = line.drop i := by
  rw [between, List.take_of_length_le]
  rw [List.length_drop]
  omega

theorem length_between
    (hij : i ≤ j) (hj : j ≤ line.length) :
    (between line i j).length = j - i := by
  rw [between, List.length_take, List.length_drop]
  omega

end Indices

section Values

variable {line : PyStr}

/-- A quote without another one behind it ends the segment. -/
theorem readFrom_quote
    (depth : Nat) {s : PyStr} (h : s.head? ≠ some quote) :
    readFrom depth true (quote :: s) = (readFrom depth false s).map (quote :: ·) id := by
  cases s with
  | nil =>
      simp [readFrom]
  | cons c s =>
      have hc : c ≠ quote := by simpa using h
      simp [readFrom, hc]

theorem readFrom_inside
    (depth : Nat) {c : CodePoint} (hc : c ≠ quote) (s : PyStr) :
    readFrom depth true (c :: s) = (readFrom depth true s).map (c :: ·) id := by
  cases s with
  | nil =>
      simp [readFrom]
  | cons d s =>
      simp [readFrom, hc]

/-- The text from `j` on is read like the text from `k` on behind what is between them. -/
def ReadsLike (line : PyStr) (j k : Nat) (inside : Bool) : Prop :=
  ∀ depth, readFrom depth true (line.drop j) =
    (readFrom depth inside (line.drop k)).map (between line j k ++ ·) id

theorem ReadsLike.refl
    (line : PyStr) (j : Nat) :
    ReadsLike line j j true := by
  intro depth
  simp only [between_self, List.nil_append]
  rfl

theorem ReadsLike.trans
    {j j' k : Nat} {inside : Bool} (h : ReadsLike line j j' true)
    (h' : ReadsLike line j' k inside) (hj : j ≤ j') (hk : j' ≤ k) :
    ReadsLike line j k inside := by
  intro depth
  rw [h depth, h' depth, ← between_append_between hj hk]
  simp only [List.append_assoc]
  rfl

/-- A round of the loop over a quoted string keeps what is read. -/
theorem quoteRound_correct
    {j j' : Nat} (hj : j ≤ j') (hj' : j' ≤ line.length) (hread : ReadsLike line j j' true) :
    RoundCorrect (quoteRound line)
      (fun j' => j ≤ j' ∧ j' ≤ line.length ∧ ReadsLike line j j' true)
      (fun k => j ≤ k ∧ k ≤ line.length ∧ ReadsLike line j (k + 1) false)
      (fun j' => line.length - j') j' := by
  by_cases hlt : j' < line.length
  · obtain ⟨c, hchar, hdrop⟩ := charAt_of_lt hlt
    by_cases hc : c = quote
    · by_cases hnext : (line)[j' + 1]? = some quote
      · -- an escaped quote
        have hdrop' := getElem?_eq_some_iff_drop.mp hnext
        have hlt' : j' + 1 < line.length := (List.getElem?_eq_some_iff.mp hnext).1
        have hskip : ReadsLike line j' (j' + 2) true := by
          intro depth
          rw [hdrop, hdrop', hc, ← between_append_between (Nat.le_succ j')
            (Nat.le_succ (j' + 1)), between_succ hdrop, between_succ hdrop']
          simp [readFrom, hc]
        refine Or.inr ⟨j' + 2, ?_, ⟨by omega, by omega,
          hread.trans hskip hj (by omega)⟩, by dsimp only; omega⟩
        simp [quoteRound, hlt, hchar, hc, hasAt_eq, hnext, bind, Except.bind, pure, Except.pure]
      · have hclose : ReadsLike line j' (j' + 1) false := by
          intro depth
          rw [hdrop, between_succ hdrop, hc,
            readFrom_quote depth (by rwa [List.head?_drop])]
          rfl
        refine Or.inl ⟨j', ?_, hj, hj', hread.trans hclose hj (Nat.le_succ j')⟩
        simp [quoteRound, hlt, hchar, hc, hasAt_eq, hnext, bind, Except.bind, pure, Except.pure]
    · have hgo : ReadsLike line j' (j' + 1) true := by
        intro depth
        rw [hdrop, between_succ hdrop, readFrom_inside depth hc]
        rfl
      refine Or.inr ⟨j' + 1, ?_, ⟨by omega, by omega,
        hread.trans hgo hj (Nat.le_succ j')⟩, by dsimp only; omega⟩
      simp [quoteRound, hlt, hchar, hc, bind, Except.bind, pure, Except.pure]
  · -- the segment is not closed
    have hopen : ReadsLike line j' (j' + 1) false := by
      intro depth
      rw [List.drop_of_length_le (by omega), List.drop_of_length_le (by omega),
        between_of_length_le (by omega), List.drop_of_length_le (by omega)]
      simp [readFrom]
    refine Or.inl ⟨j', ?_, hj, hj', hread.trans hopen hj (Nat.le_succ j')⟩
    simp [quoteRound, hlt, pure, Except.pure]

/-- **The loop over a quoted string** ends, inside of the line or at its end. -/
theorem quoteEnd_spec
    {j : Nat} (hj : j ≤ line.length) :
    ∃ k, quoteEnd line j = .ok k ∧ j ≤ k ∧ k ≤ line.length ∧
      ReadsLike line j (k + 1) false :=
  runLoop_total (fun j' => j ≤ j' ∧ j' ≤ line.length ∧ ReadsLike line j j' true)
    (fun j' => line.length - j') (fun _ h => quoteRound_correct h.1 h.2.1 h.2.2)
    ⟨Nat.le_refl _, hj, ReadsLike.refl line j⟩ (by omega)

/-- What `_read_value` gives for the text from `i` on, in terms of the reader of suffixes. -/
def ValueRead (line : PyStr) (i : Nat) (result : PyStr × Nat) : Prop :=
  (∃ j, i ≤ j ∧ (line)[j]? = some (ch ')') ∧
    readFrom 1 false (line.drop i) = (between line i j, line.drop (j + 1)) ∧
    result = (strip (between line i j), j + 1)) ∨
  readFrom 1 false (line.drop i) = (line.drop i, []) ∧ result.1 = strip (line.drop i) ∧
    (result.2 = line.length ∨ result.2 = line.length + 1)

/-- What the rounds of `_read_value` keep: what is read so far, and how the rest is read. -/
structure ReadInv (line : PyStr) (i : Nat) (s : ReadState) (depth : Nat) : Prop where
  le_index : i ≤ s.i
  index_le : s.i ≤ line.length + 1
  depth_eq : s.depth = depth
  depth_pos : 0 < depth
  out_eq : s.out.flatten = between line i s.i
  reads : readFrom 1 false (line.drop i) =
    (readFrom depth false (line.drop s.i)).map (between line i s.i ++ ·) id

/-- A round that takes the text up to `k`. -/
theorem ReadInv.advance
    {i k : Nat} {s : ReadState} {depth depth' : Nat} (h : ReadInv line i s depth)
    (hk : s.i < k) (hk' : k ≤ line.length + 1) (hdepth : 0 < depth')
    (hreads : readFrom depth false (line.drop s.i) =
      (readFrom depth' false (line.drop k)).map (between line s.i k ++ ·) id) :
    ReadInv line i ⟨k, depth', s.out ++ [between line s.i k]⟩ depth' where
  le_index := Nat.le_trans h.le_index (Nat.le_of_lt hk)
  index_le := hk'
  depth_eq := rfl
  depth_pos := hdepth
  out_eq := by
    rw [List.flatten_append, h.out_eq, List.flatten_singleton]
    exact between_append_between h.le_index (Nat.le_of_lt hk)
  reads := by
    rw [h.reads, hreads, ← between_append_between h.le_index (Nat.le_of_lt hk)]
    simp only [List.append_assoc]
    rfl

/-- A round of `_read_value` ends as required or goes on behind the index. -/
theorem readRound_correct
    {i depth : Nat} {s : ReadState} (h : ReadInv line i s depth) :
    RoundCorrect (readRound line) (fun s => ∃ depth, ReadInv line i s depth)
      (ValueRead line i) (fun s => line.length - s.i) s := by
  by_cases hlt : s.i < line.length
  · obtain ⟨c, hchar, hdrop⟩ := charAt_of_lt hlt
    by_cases hquote : c = quote
    · obtain ⟨k, hend, hk, hk', hlike⟩ := quoteEnd_spec (Nat.succ_le_of_lt hlt)
      have hreads : readFrom depth false (line.drop s.i) =
          (readFrom depth false (line.drop (k + 1))).map (between line s.i (k + 1) ++ ·) id := by
        rw [← between_append_between (Nat.le_succ s.i) (Nat.le_succ_of_le hk),
          between_succ hdrop, hdrop, hquote]
        rw [readFrom, if_pos rfl, hlike depth]
        rfl
      refine Or.inr ⟨_, ?_, ⟨depth, h.advance (by omega) (by omega) h.depth_pos hreads⟩, ?_⟩
      · simp [readRound, hlt, hchar, hquote, hend, h.depth_eq, bind, Except.bind, pure,
          Except.pure]
      · dsimp only
        omega
    · have hgo : ∀ depth' : Nat, 0 < depth' →
          readFrom depth false (c :: line.drop (s.i + 1)) =
            (readFrom depth' false (line.drop (s.i + 1))).map (c :: ·) id →
          readRound line s = .ok (.next ⟨s.i + 1, depth', s.out ++ [[c]]⟩) →
          RoundCorrect (readRound line) (fun s => ∃ depth, ReadInv line i s depth)
            (ValueRead line i) (fun s => line.length - s.i) s := by
        intro depth' hdepth hreads hround
        refine Or.inr ⟨_, hround, ⟨depth', ?_⟩, ?_⟩
        · rw [← between_succ hdrop]
          refine h.advance (by omega) (by omega) hdepth ?_
          rw [between_succ hdrop, hdrop, hreads]
          rfl
        · dsimp only
          omega
      have hround : readRound line s =
          if c = ch '(' then .ok (.next ⟨s.i + 1, s.depth + 1, s.out ++ [[c]]⟩)
          else if c = ch ')' then
            if s.depth - 1 = 0 then .ok (.done (strip s.out.flatten, s.i + 1))
            else .ok (.next ⟨s.i + 1, s.depth - 1, s.out ++ [[c]]⟩)
          else .ok (.next ⟨s.i + 1, s.depth, s.out ++ [[c]]⟩) := by
        simp [readRound, hlt, hchar, hquote, bind, Except.bind, pure, Except.pure]
      rw [h.depth_eq, h.out_eq] at hround
      by_cases hopen : c = ch '('
      · refine hgo (depth + 1) (Nat.succ_pos _) ?_ ?_
        · rw [readFrom, if_neg hquote, if_pos hopen]
        · rw [hround, if_pos hopen]
          rfl
      · by_cases hclose : c = ch ')'
        · by_cases hlast : depth = 1
          · -- the parenthesis in front of the value is closed
            refine Or.inl ⟨(strip (between line i s.i), s.i + 1), ?_, Or.inl ⟨s.i, h.le_index,
              ?_, ?_, rfl⟩⟩
            · rw [hround, if_neg hopen, if_pos hclose, if_pos (by omega)]
            · rw [getElem?_eq_some_iff_drop, hdrop, hclose]
            · rw [h.reads, hdrop, readFrom, if_neg hquote, if_neg hopen, if_pos hclose,
                if_pos (by omega)]
              simp
          · have hpos := h.depth_pos
            refine hgo (depth - 1) (by omega) ?_ ?_
            · rw [readFrom, if_neg hquote, if_neg hopen, if_pos hclose, if_neg (by omega)]
            · have hdepth : (depth : Int) - 1 = ((depth - 1 : Nat) : Int) := by
                omega
              rw [hround, if_neg hopen, if_pos hclose, if_neg (by omega), hdepth]
        · refine hgo depth h.depth_pos ?_ ?_
          · rw [readFrom, if_neg hquote, if_neg hopen, if_neg hclose]
          · rw [hround, if_neg hopen, if_neg hclose]
  · -- the parenthesis is not closed
    have hend : line.drop s.i = [] := List.drop_of_length_le (by omega)
    have hwhole : between line i s.i = line.drop i := between_of_length_le (by omega)
    refine Or.inl ⟨(strip (line.drop i), s.i), ?_, Or.inr ⟨?_, rfl, ?_⟩⟩
    · simp [readRound, hlt, h.out_eq, hwhole, pure, Except.pure]
    · rw [h.reads, hend, hwhole]
      simp [readFrom]
    · have hle := h.index_le
      dsimp only
      omega

/-- **`_read_value` returns**, and what it returns is what the reader of suffixes reads. -/
theorem readValueAt_reads
    {i : Nat} (hi : i ≤ line.length) :
    ∃ result, readValueAt line i = .ok result ∧ ValueRead line i result := by
  refine runLoop_total (fun s => ∃ depth, ReadInv line i s depth) (fun s => line.length - s.i)
    (fun s h => readRound_correct h.choose_spec) ⟨1, ?_⟩ (by dsimp only; omega)
  exact ⟨Nat.le_refl _, Nat.le_succ_of_le hi, rfl, Nat.one_pos, by simp, by
    simp only [between_self, List.nil_append]
    rfl⟩

/-- The parentheses that close the value are those that the scan finds. -/
theorem closing_iff
    {i j : Nat} :
    Closing line i j ↔ i ≤ j ∧ j < line.length ∧
      line.drop i = between line i j ++ ch ')' :: line.drop (j + 1) ∧
      scan (false, 0) (between line i j) = (false, 0) := by
  rw [Closing, outside_iff_scan, getElem?_eq_some_iff_drop]
  constructor
  · rintro ⟨hij, hparen, hscan⟩
    refine ⟨hij, ?_, ?_, hscan⟩
    · by_contra hge
      rw [List.drop_of_length_le (by omega)] at hparen
      cases hparen
    · rw [← hparen, between_append_drop hij]
  · rintro ⟨hij, -, hdrop, hscan⟩
    rw [← between_append_drop hij] at hdrop
    exact ⟨hij, List.append_cancel_left hdrop, hscan⟩

/--
**`_read_value`**: the value ends at the first parenthesis that closes the one opened in
front of `i`; without one it takes the rest of the line, and the index is the length of the
line or one more.
-/
theorem readValueAt_spec
    {i : Nat} (hi : i ≤ line.length) :
    (∀ j, Closing line i j → (∀ k < j, ¬ Closing line i k) →
      readValueAt line i = .ok (strip (between line i j), j + 1)) ∧
    ((∀ j, ¬ Closing line i j) →
      ∃ k, (k = line.length ∨ k = line.length + 1) ∧
        readValueAt line i = .ok (strip (line.drop i), k)) := by
  obtain ⟨result, hresult, hread⟩ := readValueAt_reads hi
  have hto : ReadsTo (false, 0) (line.drop i) (readFrom 1 false (line.drop i)) :=
    readFrom_readsTo 1 false (line.drop i) Nat.one_pos
  have hlength : ∀ j, Closing line i j →
      (readFrom 1 false (line.drop i)).1.length ≤ (between line i j).length := by
    intro j hj
    obtain ⟨-, -, hdrop, hscan⟩ := closing_iff.mp hj
    exact hto.2 _ _ hdrop hscan
  rw [hresult]
  rcases hread with ⟨k, hik, hparen, hread, rfl⟩ | ⟨hread, hvalue, hindex⟩
  · -- the value ends at `k`
    rw [hread] at hto hlength
    have hlt : k < line.length := (List.getElem?_eq_some_iff.mp hparen).1
    have hclosing : Closing line i k := by
      rcases hto.1 with ⟨hdrop, hscan⟩ | hwhole
      · exact closing_iff.mpr ⟨hik, hlt, hdrop, hscan⟩
      · have hlen := congrArg List.length (congrArg Prod.fst hwhole)
        rw [length_between hik hlt.le, List.length_drop] at hlen
        omega
    refine ⟨fun j hj hbefore => ?_, fun hnone => absurd hclosing (hnone k)⟩
    have hjk : ¬ k < j := fun hkj => hbefore k hkj hclosing
    have hkj := hlength j hj
    obtain ⟨hij, hjlt, -, -⟩ := closing_iff.mp hj
    rw [length_between hik hlt.le, length_between hij hjlt.le] at hkj
    have heq : k = j := by omega
    rw [heq]
  · -- the value takes the rest of the line
    refine ⟨fun j hj _ => ?_, fun _ => ⟨result.2, hindex, ?_⟩⟩
    · have hle := hlength j hj
      obtain ⟨hij, hjlt, -, -⟩ := closing_iff.mp hj
      rw [hread, length_between hij hjlt.le, List.length_drop] at hle
      omega
    · rw [← hvalue]

/-- The reader of suffixes, by index. -/
theorem readValueAt_eq
    {i : Nat} (hi : i ≤ line.length) :
    ∃ k, readValueAt line i = .ok ((readValue (line.drop i)).1, k) ∧ i ≤ k ∧
      line.drop k = (readValue (line.drop i)).2 := by
  obtain ⟨⟨value, k⟩, hresult, hread⟩ := readValueAt_reads hi
  refine ⟨k, ?_⟩
  rw [hresult, readValue, Prod.map_fst, Prod.map_snd, id_eq]
  rcases hread with ⟨j, hij, -, hread, hvalue⟩ | ⟨hread, hvalue, hindex⟩
  · obtain ⟨rfl, rfl⟩ := Prod.mk.inj hvalue
    rw [hread]
    exact ⟨rfl, by omega, rfl⟩
  · dsimp only at hvalue hindex
    rw [hread, hvalue]
    exact ⟨rfl, by omega, List.drop_of_length_le (by omega)⟩

end Values

section Attributes

variable {line : PyStr}

/-- The index behind a token. -/
theorem skipTokenAt_eq
    {i : Nat} (hi : i ≤ line.length) :
    ∃ k, skipTokenAt line i = .ok k ∧ i ≤ k ∧ line.drop k = skipToken (line.drop i) := by
  refine runLoop_total
    (fun i' => i ≤ i' ∧ i' ≤ line.length ∧
      skipToken (line.drop i') = skipToken (line.drop i))
    (fun i' => line.length - i') ?_ ⟨Nat.le_refl _, hi, rfl⟩ (by omega)
  rintro i' ⟨hle, hi', hskip⟩
  by_cases hlt : i' < line.length
  · obtain ⟨c, hchar, hdrop⟩ := charAt_of_lt hlt
    cases hc : c.isSpace with
    | true =>
        refine Or.inl ⟨i', ?_, hle, ?_⟩
        · simp [skipRound, hlt, hchar, hc, bind, Except.bind, pure, Except.pure]
        · rw [← hskip, hdrop, skipToken, List.dropWhile_cons_of_neg (by simp [hc])]
    | false =>
        refine Or.inr ⟨i' + 1, ?_, ⟨by omega, by omega, ?_⟩, by dsimp only; omega⟩
        · simp [skipRound, hlt, hchar, hc, bind, Except.bind, pure, Except.pure]
        · rw [← hskip, hdrop, skipToken, skipToken, List.dropWhile_cons_of_pos (by simp [hc])]
  · refine Or.inl ⟨i', by simp [skipRound, hlt, pure, Except.pure], hle, ?_⟩
    rw [← hskip, List.drop_of_length_le (by omega)]
    rfl

theorem runsOn_eq
    (line : PyStr) (e : Nat) :
    runsOn line e = .ok (((line)[e]?).any fun c => c != ch '(' && !c.isSpace) := by
  unfold runsOn charAt
  split_ifs with h
  · rw [List.getElem?_eq_getElem h]
    rfl
  · rw [List.getElem?_eq_none (by omega)]
    rfl

/-- Where a key ends. -/
theorem keyEnd_eq
    {i : Nat} {key rest : PyStr} (h : matchKey (line.drop i) = some (key, rest)) :
    keyEnd line i = some (i + key.length) ∧ i < i + key.length ∧
      line.drop (i + key.length) = rest ∧ between line i (i + key.length) = key := by
  obtain ⟨hdrop, hne⟩ := matchKey_eq_some h
  have hpos := List.length_pos_iff.mpr hne
  refine ⟨by rw [keyEnd, h]; rfl, by omega, ?_, ?_⟩
  · rw [← List.drop_drop, hdrop, List.drop_left]
  · rw [between, hdrop, Nat.add_sub_cancel_left, List.take_left]

/-- What a round of `_parse_attributes` does with a token, by the look-aheads that it makes. -/
theorem attributeRound_token
    (pairsOnly : Bool) {s : ParseState} {c : CodePoint} (hlt : s.i < line.length)
    (hchar : charAt line s.i = .ok c) (hc : c.isSpace = false) :
    attributeRound pairsOnly line s =
      match keyEnd line s.i with
      | none =>
          if !s.attrs.nonempty && !pairsOnly then .ok (.done OrderedDict.empty)
          else (skipTokenAt line s.i).bind fun k => .ok (.next { s with i := k })
      | some e =>
          if (((line)[e]?).any fun c => c != ch '(' && !c.isSpace) ||
              (pairsOnly && !decide ((line)[e]? = some (ch '('))) then
            if !s.attrs.nonempty && !pairsOnly then .ok (.done OrderedDict.empty)
            else (skipTokenAt line s.i).bind fun k => .ok (.next { s with i := k })
          else if (line)[e]? = some (ch '(') then
            (readValueAt line (e + 1)).bind fun p =>
              .ok (.next ⟨p.2, s.attrs.set (between line s.i e) p.1⟩)
          else .ok (.next ⟨e, s.attrs.set (between line s.i e) []⟩) := by
  unfold attributeRound
  rw [if_pos hlt, hchar]
  cases hkey : keyEnd line s.i with
  | none =>
      simp [bind, Except.bind, pure, Except.pure, hc]
  | some e =>
      simp [bind, Except.bind, pure, Except.pure, hc, hasAt_eq, runsOn_eq]

/-- A round that goes on does so behind the index, and what it leaves is read the same way. -/
def RoundReads (pairsOnly : Bool) (line : PyStr) (s : ParseState) : Prop :=
  attributeRound pairsOnly line s =
      .ok (.done (readOn pairsOnly s.attrs (line.drop s.i))) ∨
    ∃ s', attributeRound pairsOnly line s = .ok (.next s') ∧ s.i < s'.i ∧
      readOn pairsOnly s'.attrs (line.drop s'.i) = readOn pairsOnly s.attrs (line.drop s.i)

/-- Any other token than an attribute. -/
theorem roundReads_skip
    {pairsOnly : Bool} {s : ParseState} (hlt : s.i < line.length)
    (hspace : ∀ c ∈ (line.drop s.i).head?, c.isSpace = false)
    (htoken : attributeToken pairsOnly (line.drop s.i) = none)
    (hround : attributeRound pairsOnly line s =
      if !s.attrs.nonempty && !pairsOnly then .ok (.done OrderedDict.empty)
      else (skipTokenAt line s.i).bind fun k => .ok (.next { s with i := k })) :
    RoundReads pairsOnly line s := by
  obtain ⟨c, -, hdrop⟩ := charAt_of_lt hlt
  have hne : line.drop s.i ≠ [] := by
    rw [hdrop]
    exact List.cons_ne_nil _ _
  by_cases hfirst : (!s.attrs.nonempty && !pairsOnly) = true
  · rw [if_pos hfirst] at hround
    refine Or.inl ?_
    rw [hround, readOn_dropped hne hspace htoken hfirst]
  · obtain ⟨k, hskip, -, hrest⟩ := skipTokenAt_eq hlt.le
    rw [if_neg hfirst, hskip] at hround
    refine Or.inr ⟨_, hround, ?_, ?_⟩
    · have hshort := length_skipToken_lt (hspace c (by rw [hdrop]; rfl)) (line.drop (s.i + 1))
      rw [← hdrop, ← hrest, List.length_drop, List.length_drop] at hshort
      dsimp only
      omega
    · have hkeep : s.attrs.nonempty = true ∨ pairsOnly = true := by
        cases hattrs : s.attrs.nonempty <;> cases pairsOnly <;> simp_all
      rw [hrest, readOn_skip hspace htoken hkeep]

theorem roundReads
    (pairsOnly : Bool) (line : PyStr) (s : ParseState) :
    RoundReads pairsOnly line s := by
  by_cases hlt : s.i < line.length
  · obtain ⟨c, hchar, hdrop⟩ := charAt_of_lt hlt
    cases hc : c.isSpace with
    | true =>
        refine Or.inr ⟨{ s with i := s.i + 1 }, ?_, Nat.lt_succ_self _, ?_⟩
        · simp [attributeRound, hlt, hchar, hc, bind, Except.bind, pure, Except.pure]
        · rw [hdrop, readOn_space _ _ hc]
    | false =>
        have hspace : ∀ c ∈ (line.drop s.i).head?, c.isSpace = false := by
          rw [hdrop]
          simpa using hc
        have hround := attributeRound_token pairsOnly hlt hchar hc
        cases hkey : matchKey (line.drop s.i) with
        | none =>
            rw [keyEnd, hkey] at hround
            refine roundReads_skip hlt hspace ?_ hround
            simp [attributeToken, hkey]
        | some p =>
            obtain ⟨key, rest⟩ := p
            obtain ⟨hend, hlt', hrest, hbetween⟩ := keyEnd_eq hkey
            have hnext : (line)[s.i + key.length]? = rest.head? := by
              rw [← hrest, List.head?_drop]
            have hattribute : ∀ k value back,
                attributeToken pairsOnly (line.drop s.i) = some (key, value, back) →
                attributeRound pairsOnly line s = .ok (.next ⟨k, s.attrs.set key value⟩) →
                s.i < k → line.drop k = back → RoundReads pairsOnly line s := by
              rintro k value back htoken hround hk rfl
              exact Or.inr ⟨_, hround, hk, (readOn_attribute s.attrs hspace htoken).symm⟩
            rw [hend] at hround
            simp only [hnext, hbetween] at hround
            cases rest with
            | nil =>
                cases pairsOnly with
                | true =>
                    exact roundReads_skip hlt hspace (by simp [attributeToken, hkey])
                      (by simpa using hround)
                | false =>
                    exact hattribute _ [] [] (by simp [attributeToken, hkey])
                      (by simpa using hround) hlt' hrest
            | cons d rest =>
                by_cases hparen : d = ch '('
                · -- a value in parentheses
                  have hlast : s.i + key.length + 1 ≤ line.length := by
                    have hlen := congrArg List.length hrest
                    rw [List.length_drop, List.length_cons] at hlen
                    omega
                  have hvalue : line.drop (s.i + key.length + 1) = rest := by
                    rw [← List.drop_drop, hrest]
                    rfl
                  obtain ⟨k, hread, hk, hback⟩ := readValueAt_eq hlast
                  rw [hvalue] at hread hback
                  refine hattribute k (readValue rest).1 (readValue rest).2
                    (by simp [attributeToken, hkey, hparen]) ?_ (by omega) hback
                  simpa [hparen, hread, Except.bind] using hround
                · by_cases hbare : (d.isSpace && !pairsOnly) = true
                  · have htoken : attributeToken pairsOnly (line.drop s.i) =
                        some (key, [], d :: rest) := by
                      simp [attributeToken, hkey, hparen, hbare]
                    refine hattribute _ [] _ htoken ?_ hlt' hrest
                    rw [Bool.and_eq_true, Bool.not_eq_true'] at hbare
                    simpa [hparen, hbare.1, hbare.2] using hround
                  · have htoken : attributeToken pairsOnly (line.drop s.i) = none := by
                      simp [attributeToken, hkey, hparen, hbare]
                    refine roundReads_skip hlt hspace htoken ?_
                    cases hd : d.isSpace <;> cases pairsOnly <;> simp_all
  · refine Or.inl ?_
    rw [List.drop_of_length_le (by omega)]
    simp [attributeRound, hlt, pure, Except.pure]

/-- **The loop of `_parse_attributes`** ends without an exception, whatever the line. -/
theorem parseAttributesAt_eq
    (pairsOnly : Bool) (line : PyStr) :
    parseAttributesAt pairsOnly line = .ok (parseAttributes pairsOnly line) := by
  have hrun : ∃ attrs, parseAttributesAt pairsOnly line = .ok attrs ∧
      attrs = parseAttributes pairsOnly line := by
    refine runLoop_total
      (fun s => readOn pairsOnly s.attrs (line.drop s.i) = parseAttributes pairsOnly line)
      (fun s => line.length - s.i) (fun s hinv => ?_) rfl (Nat.lt_succ_self line.length)
    by_cases hlt : s.i < line.length
    · rcases roundReads pairsOnly line s with hdone | ⟨s', hnext, hgo, hread⟩
      · exact Or.inl ⟨_, hdone, hinv⟩
      · exact Or.inr ⟨s', hnext, hread.trans hinv, by dsimp only; omega⟩
    · rw [List.drop_of_length_le (by omega)] at hinv
      exact Or.inl ⟨s.attrs, by simp [attributeRound, hlt, pure, Except.pure], hinv⟩
  obtain ⟨attrs, hresult, rfl⟩ := hrun
  exact hresult

/--
**The value reader and the loop around it.**  A value ends at the first parenthesis that
lies outside of the quoted segments and closes the one opened in front of `i`, or at the end
of the line.  In every round the loop over the attributes ends or moves its index forward,
and it comes to its end, with no index outside of the line and no failed assertion.
-/
theorem value_reader_spec
    (line : PyStr) :
    (∀ i ≤ line.length,
      (∀ j, Closing line i j → (∀ k < j, ¬ Closing line i k) →
        readValueAt line i = .ok (strip (between line i j), j + 1)) ∧
      ((∀ j, ¬ Closing line i j) →
        ∃ k, (k = line.length ∨ k = line.length + 1) ∧
          readValueAt line i = .ok (strip (line.drop i), k))) ∧
    (∀ pairsOnly s, (∃ attrs, attributeRound pairsOnly line s = .ok (.done attrs)) ∨
      ∃ s', attributeRound pairsOnly line s = .ok (.next s') ∧ s.i < s'.i) ∧
    ∀ pairsOnly, parseAttributesAt pairsOnly line = .ok (parseAttributes pairsOnly line) := by
  refine ⟨fun i hi => readValueAt_spec hi, fun pairsOnly s => ?_,
    fun pairsOnly => parseAttributesAt_eq pairsOnly line⟩
  rcases roundReads pairsOnly line s with hdone | ⟨s', hnext, hlt, -⟩
  · exact Or.inl ⟨_, hdone⟩
  · exact Or.inr ⟨s', hnext, hlt⟩

end Attributes

end Mqsc
end MqSentinel
