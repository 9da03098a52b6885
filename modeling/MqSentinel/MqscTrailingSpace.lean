import MqSentinel.MqscLayout

/-!
# White space at the end of a line

A line of a reply is read the same way with white space at its end or without: it is passed
over behind an attribute, it is stripped from a value that is not closed, and a message id
ends in front of it.  So a reply can be read from its lines without their trailing space,
and without the lines that have nothing else (`textLines`).
-/

namespace MqSentinel

open CodePoint

namespace Mqsc

open Regex

section Values

variable {ws : PyStr}

/-- What white space behind a text changes in what is read of it. -/
def Extends (ws : PyStr) (r r' : PyStr × PyStr) : Prop :=
  r' = (r.1, r.2 ++ ws) ∨ r.2 = [] ∧ r' = (r.1 ++ ws, [])

theorem Extends.cons
    {r r' : PyStr × PyStr} (h : Extends ws r r') (c : CodePoint) :
    Extends ws (r.map (c :: ·) id) (r'.map (c :: ·) id) := by
  rcases h with rfl | ⟨hr, rfl⟩
  · exact Or.inl rfl
  · exact Or.inr ⟨hr, rfl⟩

/-- White space ends no value. -/
theorem readFrom_spaces
    (hws : ∀ c ∈ ws, c.isSpace = true) (depth : Nat) (inside : Bool) :
    readFrom depth inside ws = (ws, []) := by
  induction ws with
  | nil =>
      simp [readFrom]
  | cons c ws ih =>
      have hspace := hws c (by simp)
      have htail := ih fun d hd => hws d (List.mem_cons_of_mem _ hd)
      have hquote : c ≠ quote := by
        rintro rfl
        cases hspace
      have hopen : c ≠ ch '(' := by
        rintro rfl
        cases hspace
      have hclose : c ≠ ch ')' := by
        rintro rfl
        cases hspace
      cases inside with
      | false =>
          simp [readFrom, hquote, hopen, hclose, htail]
      | true =>
          cases ws with
          | nil =>
              simp [readFrom]
          | cons d ws =>
              simp [readFrom, hquote, htail]

theorem readFrom_append_spaces
    (hws : ∀ c ∈ ws, c.isSpace = true) (depth : Nat) (inside : Bool) (s : PyStr) :
    Extends ws (readFrom depth inside s) (readFrom depth inside (s ++ ws)) := by
  fun_induction readFrom depth inside s with
  | case1 depth inside =>
      exact Or.inr ⟨rfl, readFrom_spaces hws depth inside⟩
  | case2 depth c =>
      refine Or.inr ⟨rfl, ?_⟩
      cases ws with
      | nil =>
          simp [readFrom]
      | cons d ws =>
          have hd : d ≠ quote := by
            rintro rfl
            exact absurd (hws quote (by simp)) (by decide)
          have hspaces := readFrom_spaces hws depth
          by_cases hc : c = quote <;> simp [readFrom, hc, hd, hspaces]
  | case3 depth cs ih =>
      rw [List.cons_append, List.cons_append, readFrom, if_pos rfl, if_pos rfl]
      exact (ih.cons quote).cons quote
  | case4 depth d cs hd ih =>
      rw [List.cons_append, List.cons_append, readFrom, if_pos rfl, if_neg hd]
      exact ih.cons quote
  | case5 depth c d cs hc ih =>
      rw [List.cons_append, List.cons_append, readFrom, if_neg hc]
      exact ih.cons c
  | case6 depth cs ih =>
      rw [List.cons_append, readFrom, if_pos rfl]
      exact ih.cons quote
  | case7 depth cs hc ih =>
      rw [List.cons_append, readFrom, if_neg hc, if_pos rfl]
      exact ih.cons (ch '(')
  | case8 depth cs hlast hc hopen =>
      rw [List.cons_append, readFrom, if_neg hc, if_neg hopen, if_pos rfl, if_pos hlast]
      exact Or.inl rfl
  | case9 depth cs hlast hc hopen ih =>
      rw [List.cons_append, readFrom, if_neg hc, if_neg hopen, if_pos rfl, if_neg hlast]
      exact ih.cons (ch ')')
  | case10 depth c cs hc hopen hclose ih =>
      rw [List.cons_append, readFrom, if_neg hc, if_neg hopen, if_neg hclose]
      exact ih.cons c

/-- A value is the same with white space behind the text, and space is left behind it. -/
theorem readValue_append_spaces
    (hws : ∀ c ∈ ws, c.isSpace = true) (s : PyStr) :
    ∃ ws', (∀ c ∈ ws', c.isSpace = true) ∧
      readValue (s ++ ws) = ((readValue s).1, (readValue s).2 ++ ws') := by
  unfold readValue
  rcases readFrom_append_spaces hws 1 false s with hread | ⟨hend, hread⟩
  · exact ⟨ws, hws, by rw [hread]; rfl⟩
  · refine ⟨[], by simp, ?_⟩
    rw [hread, Prod.map_fst, Prod.map_snd, hend]
    exact Prod.ext (strip_append_spaces hws _) rfl

end Values

section Tokens

variable {ws : PyStr}

/-- Characters that end a run, behind the text that it is taken from. -/
theorem takeWhile_append_stops
    {p : CodePoint → Bool} (hws : ∀ c ∈ ws, p c = false) (s : PyStr) :
    (s ++ ws).takeWhile p = s.takeWhile p ∧ (s ++ ws).dropWhile p = s.dropWhile p ++ ws := by
  induction s with
  | nil =>
      cases ws with
      | nil =>
          exact ⟨rfl, rfl⟩
      | cons c ws =>
          have hc := hws c (by simp)
          simp [hc]
  | cons c s ih =>
      cases hc : p c with
      | true =>
          simp [hc, ih]
      | false =>
          simp [hc]

theorem matchKey_append_spaces
    (hws : ∀ c ∈ ws, c.isSpace = true) (s : PyStr) :
    matchKey (s ++ ws) = (matchKey s).map fun p => (p.1, p.2 ++ ws) := by
  have hnokey : ∀ c ∈ ws, isKeyChar c = false := fun c hc =>
    not_key_of_isStop (isStop_of_isSpace (hws c hc))
  cases s with
  | nil =>
      cases ws with
      | nil =>
          rfl
      | cons c ws =>
          have hc := not_upper_of_isStop (isStop_of_isSpace (hws c (by simp)))
          simp [matchKey, hc]
  | cons c s =>
      obtain ⟨htake, hdrop⟩ := takeWhile_append_stops hnokey s
      rw [List.cons_append, matchKey, matchKey, htake, hdrop]
      split_ifs <;> rfl

/-- A token is the same with white space behind the text, and space is left behind it. -/
theorem attributeToken_append_spaces
    (pairsOnly : Bool) (hws : ∀ c ∈ ws, c.isSpace = true) (s : PyStr) :
    ∃ ws', (∀ c ∈ ws', c.isSpace = true) ∧
      attributeToken pairsOnly (s ++ ws) =
        (attributeToken pairsOnly s).map fun t => (t.1, t.2.1, t.2.2 ++ ws') := by
  have hkey := matchKey_append_spaces hws s
  cases hmatch : matchKey s with
  | none =>
      rw [hmatch] at hkey
      exact ⟨[], by simp, by simp [attributeToken, hmatch, hkey]⟩
  | some p =>
      obtain ⟨key, rest⟩ := p
      rw [hmatch] at hkey
      cases rest with
      | nil =>
          refine ⟨ws, hws, ?_⟩
          cases ws with
          | nil =>
              cases pairsOnly <;> simp [attributeToken, hmatch]
          | cons c ws =>
              have hc := hws c (by simp)
              have hopen : c ≠ ch '(' := by
                rintro rfl
                cases hc
              cases pairsOnly <;> simp [attributeToken, hmatch, hkey, hopen, hc]
      | cons c rest =>
          by_cases hparen : c = ch '('
          · obtain ⟨ws', hws', hread⟩ := readValue_append_spaces hws rest
            exact ⟨ws', hws', by simp [attributeToken, hmatch, hkey, hparen, hread]⟩
          · refine ⟨ws, hws, ?_⟩
            simp only [attributeToken, hmatch, hkey, Option.map_some, List.cons_append, hparen,
              if_false]
            split_ifs <;> rfl

theorem skipToken_append_spaces
    (hws : ∀ c ∈ ws, c.isSpace = true) (s : PyStr) :
    skipToken (s ++ ws) = skipToken s ++ ws :=
  (takeWhile_append_stops (fun c hc => by rw [hws c hc]; rfl) s).2

/-- **The attributes of a line** are the same with white space at its end. -/
theorem readOn_append_spaces
    (pairsOnly : Bool) :
    ∀ (n : Nat) (s ws : PyStr) (attrs : Attrs), s.length ≤ n →
      (∀ c ∈ ws, c.isSpace = true) →
      readOn pairsOnly attrs (s ++ ws) = readOn pairsOnly attrs s := by
  intro n
  induction n with
  | zero =>
      intro s ws attrs hn hws
      obtain rfl := List.length_eq_zero_iff.mp (Nat.le_zero.mp hn)
      have hspaces := readOn_spaces pairsOnly attrs hws []
      rwa [List.append_nil] at hspaces
  | succ n ih =>
      intro s ws attrs hn hws
      cases s with
      | nil =>
          have hspaces := readOn_spaces pairsOnly attrs hws []
          rwa [List.append_nil] at hspaces
      | cons c s =>
          have hshort : s.length ≤ n := Nat.le_of_succ_le_succ hn
          cases hc : c.isSpace with
          | true =>
              rw [List.cons_append, readOn_space _ _ hc, readOn_space _ _ hc]
              exact ih s ws attrs hshort hws
          | false =>
              have hhead : ∀ d ∈ (c :: s).head?, d.isSpace = false := by
                simpa using hc
              have hhead' : ∀ d ∈ (c :: s ++ ws).head?, d.isSpace = false := by
                simpa using hc
              obtain ⟨ws', hws', htoken⟩ :=
                attributeToken_append_spaces pairsOnly hws (c :: s)
              cases hfirst : attributeToken pairsOnly (c :: s) with
              | some t =>
                  obtain ⟨k, v, rest⟩ := t
                  have hlt := length_attributeToken_lt hfirst
                  rw [List.length_cons] at hlt
                  rw [hfirst] at htoken
                  rw [readOn_attribute attrs hhead hfirst, readOn_attribute attrs hhead' htoken]
                  exact ih rest ws' _ (by omega) hws'
              | none =>
                  have hlt := length_skipToken_lt hc s
                  rw [List.length_cons] at hlt
                  rw [hfirst] at htoken
                  by_cases hkeep : attrs.nonempty = true ∨ pairsOnly = true
                  · rw [readOn_skip hhead hfirst hkeep, readOn_skip hhead' htoken hkeep,
                      skipToken_append_spaces hws]
                    exact ih _ ws attrs (by omega) hws
                  · have hdrop : (!attrs.nonempty && !pairsOnly) = true := by
                      simpa [not_or] using hkeep
                    exact (readOn_dropped (by simp) hhead' htoken hdrop).trans
                      (readOn_dropped (by simp) hhead hfirst hdrop).symm

theorem parseAttributes_append_spaces
    (pairsOnly : Bool) {ws : PyStr} (hws : ∀ c ∈ ws, c.isSpace = true) (s : PyStr) :
    parseAttributes pairsOnly (s ++ ws) = parseAttributes pairsOnly s :=
  readOn_append_spaces pairsOnly s.length s ws _ (Nat.le_refl _) hws

end Tokens

section MessageLines

variable (U : UnicodeData)

/-- A z/OS id ends in front of white space. -/
theorem startsCsq_append_space
    {c : CodePoint} (hc : c.isSpace = true) (s t : PyStr) :
    StartsCsq U (s ++ c :: t) ↔ StartsCsq U s := by
  have hstop : isStop c = true := isStop_of_isSpace hc
  have hword : U.isWord c = false := by
    have hline : c ≠ ch '_' := by
      rintro rfl
      cases hc
    simp [UnicodeData.isWord, not_alnum_of_isStop U hstop, hline]
  have hfits : ∀ {ps : List (CodePoint → Bool)} {u : PyStr}, Rx.Fits ps u →
      (∀ p ∈ ps, p c = false) → c ∉ u := by
    intro ps u hu hps
    induction hu with
    | nil =>
        exact List.not_mem_nil
    | @cons p d ps u hp _ ih =>
        have hd : c ≠ d := by
          rintro rfl
          rw [hps p (by simp)] at hp
          cases hp
        exact List.not_mem_cons_of_ne_of_not_mem hd
          (ih fun q hq => hps q (List.mem_cons_of_mem _ hq))
  constructor
  · rintro ⟨u, v, hsplit, hu, hv⟩
    rcases List.append_eq_append_iff.mp hsplit with ⟨a, rfl, ha⟩ | ⟨a, rfl, ha⟩
    · cases a with
      | nil =>
          exact ⟨s, [], (List.append_nil s).symm, by simpa using hu, rfl⟩
      | cons d a =>
          obtain ⟨rfl, -⟩ := List.cons_eq_cons.mp ha
          exact absurd (by simp) (hfits hu (csqId_stop U hstop))
    · refine ⟨u, a, rfl, hu, ?_⟩
      cases a with
      | nil =>
          rfl
      | cons d a =>
          rw [ha] at hv
          exact hv
  · rintro ⟨u, v, rfl, hu, hv⟩
    refine ⟨u, v ++ c :: t, List.append_assoc _ _ _, hu, ?_⟩
    cases v with
    | nil =>
        simpa using hword
    | cons d v =>
        simpa using hv

/-- What stands behind white space does not make a message line. -/
theorem isMessageLine_append_space
    {c : CodePoint} (hc : c.isSpace = true) {s : PyStr} (hs : lstrip s ≠ []) (t : PyStr) :
    isMessageLine U (s ++ c :: t) = isMessageLine U s := by
  rw [Bool.eq_iff_iff, isMessageLine_iff, isMessageLine_iff, lstrip_append hs,
    startsAmq_append_stop U (isStop_of_isSpace hc), startsCsq_append_space U hc]

theorem isMessageLine_append_spaces
    {ws : PyStr} (hws : ∀ c ∈ ws, c.isSpace = true) (s : PyStr) :
    isMessageLine U (s ++ ws) = isMessageLine U s := by
  by_cases hs : lstrip s = []
  · have hspaces := (lstrip_eq_nil_iff s).mp hs
    rw [not_isMessageLine_of_spaces U hspaces, not_isMessageLine_of_spaces U fun c hc =>
      (List.mem_append.mp hc).elim (hspaces c) (hws c)]
  · cases ws with
    | nil =>
        rw [List.append_nil]
    | cons c ws =>
        exact isMessageLine_append_space U (hws c (by simp)) hs ws

/-- Indentation does not matter. -/
theorem isMessageLine_spaces_append
    {ws : PyStr} (hws : ∀ c ∈ ws, c.isSpace = true) (s : PyStr) :
    isMessageLine U (ws ++ s) = isMessageLine U s := by
  have hstrip : lstrip (ws ++ s) = lstrip s :=
    List.dropWhile_append_of_pos hws
  rw [Bool.eq_iff_iff, isMessageLine_iff, isMessageLine_iff, hstrip]

end MessageLines

section Lines

variable (U : UnicodeData)

/-- Lines without their trailing space, and without those that have nothing else. -/
def trimmed (lines : List PyStr) : List PyStr :=
  (lines.map rstrip).filter fun line => !line.isEmpty

/-- **Only the trimmed lines count.** -/
theorem parseLines_trimmed (lines : List PyStr) :
    ∀ current, parseLines U current (trimmed lines) = parseLines U current lines := by
  induction lines with
  | nil =>
      intro current
      rfl
  | cons line lines ih =>
      intro current
      obtain ⟨ws, hline, hws⟩ := exists_rstrip_append line
      have hmessage : isMessageLine U line = isMessageLine U (rstrip line) := by
        conv_lhs => rw [hline]
        exact isMessageLine_append_spaces U hws _
      have hattrs : ∀ pairsOnly,
          parseAttributes pairsOnly line = parseAttributes pairsOnly (rstrip line) := by
        intro pairsOnly
        conv_lhs => rw [hline]
        exact parseAttributes_append_spaces pairsOnly hws _
      by_cases hblank : rstrip line = []
      · have htrimmed : trimmed (line :: lines) = trimmed lines := by
          simp [trimmed, hblank]
        have hnone : isMessageLine U [] = false :=
          not_isMessageLine_of_spaces U (by simp)
        rw [hblank] at hmessage hattrs
        rw [htrimmed, ih]
        cases current with
        | none =>
            simp [parseLines, hmessage, hnone]
        | some attrs =>
            rw [parseLines_attributes U attrs (hmessage.trans hnone), hattrs]
            rfl
      · have htrimmed : trimmed (line :: lines) = rstrip line :: trimmed lines := by
          simp [trimmed, hblank]
        rw [htrimmed]
        simp only [parseLines, hmessage, hattrs, ih]

/-- The trimmed lines of a text. -/
def textLines (text : PyStr) : List PyStr :=
  trimmed (text.splitOnP isLineBoundary)

/-- `splitlines` cuts at every boundary, up to empty lines. -/
theorem splitlines_pieces (text : PyStr) :
    (splitlines text = [] ∧ text.splitOnP isLineBoundary = [[]]) ∨
      ∃ line lines pieces, splitlines text = line :: lines ∧
        text.splitOnP isLineBoundary = line :: pieces ∧ trimmed lines = trimmed pieces := by
  induction text with
  | nil =>
      exact Or.inl ⟨rfl, rfl⟩
  | cons c text ih =>
      cases hc : c.isLineBoundary with
      | true =>
          have hpieces : (c :: text).splitOnP isLineBoundary =
              [] :: text.splitOnP isLineBoundary := by
            simpa using List.splitOnP_append_cons [] text hc
          have htail : trimmed (splitlines text) = trimmed (text.splitOnP isLineBoundary) := by
            rcases ih with ⟨hlines, hnone⟩ | ⟨line, lines, pieces, hlines, hcut, htrimmed⟩
            · rw [hlines, hnone]
              rfl
            · rw [hlines, hcut]
              simp only [trimmed, List.map_cons, List.filter_cons] at htrimmed ⊢
              rw [htrimmed]
          by_cases hcrlf : c = cr ∧ text.head? = some lf
          · -- the two characters end one line
            obtain ⟨rfl, hhead⟩ := hcrlf
            obtain ⟨t, rfl⟩ : ∃ t, text = lf :: t := ⟨_, List.eq_cons_of_mem_head? hhead⟩
            rw [splitlines_lf] at htail
            exact Or.inr ⟨[], _, _, splitlines_crlf t, hpieces, htail⟩
          · exact Or.inr ⟨[], _, _, splitlines_boundary hc hcrlf, hpieces, htail⟩
      | false =>
          have hpieces : (c :: text).splitOnP isLineBoundary =
              (text.splitOnP isLineBoundary).modifyHead (c :: ·) := by
            rw [List.splitOnP_cons_eq_if_modifyHead, hc]
            rfl
          right
          rcases ih with ⟨hlines, hnone⟩ | ⟨line, lines, pieces, hlines, hcut, htrimmed⟩
          · have hcr : c ≠ cr := by
              rintro rfl
              cases hc
            refine ⟨[c], [], [], by simp [splitlines, hlines, hc, hcr], ?_, rfl⟩
            rw [hpieces, hnone]
            rfl
          · refine ⟨c :: line, lines, pieces, splitlines_cons hc hlines, ?_, htrimmed⟩
            rw [hpieces, hcut]
            rfl

theorem trimmed_splitlines (text : PyStr) :
    trimmed (splitlines text) = textLines text := by
  rcases splitlines_pieces text with ⟨hlines, hnone⟩ | ⟨line, lines, pieces, hlines, hcut, htail⟩
  · rw [textLines, hlines, hnone]
    rfl
  · rw [textLines, hlines, hcut]
    simp only [trimmed, List.map_cons, List.filter_cons] at htail ⊢
    rw [htail]

theorem textLines_append_boundary
    {c : CodePoint} (hc : c.isLineBoundary = true) (x y : PyStr) :
    textLines (x ++ c :: y) = textLines x ++ textLines y := by
  rw [textLines, List.splitOnP_append_cons x y hc, trimmed, List.map_append,
    List.filter_append]
  rfl

theorem textLines_line
    {u : PyStr} (hu : ∀ c ∈ u, c.isLineBoundary = false) :
    textLines u = trimmed [u] := by
  rw [textLines, List.splitOnP_eq_singleton hu]

/-- A text is a line, or it ends with the line behind its last boundary. -/
theorem last_piece (x : PyStr) :
    (∀ c ∈ x, c.isLineBoundary = false) ∨
      ∃ a c b, x = a ++ c :: b ∧ c.isLineBoundary = true ∧
        ∀ d ∈ b, d.isLineBoundary = false := by
  induction x with
  | nil =>
      exact Or.inl (by simp)
  | cons c x ih =>
      rcases ih with hone | ⟨a, d, b, rfl, hd, hb⟩
      · cases hc : c.isLineBoundary with
        | true =>
            exact Or.inr ⟨[], c, x, rfl, hc, hone⟩
        | false =>
            refine Or.inl fun d hd => ?_
            rcases List.mem_cons.mp hd with rfl | hd
            · exact hc
            · exact hone d hd
      · exact Or.inr ⟨c :: a, d, b, rfl, hd, hb⟩

theorem textLines_append_spaces
    {ws : PyStr} (hws : ∀ c ∈ ws, c.isSpace = true) (x : PyStr) :
    textLines (x ++ ws) = textLines x := by
  induction ws using List.reverseRecOn with
  | nil =>
      rw [List.append_nil]
  | append_singleton ws c ih =>
      have hc := hws c (by simp)
      rw [← List.append_assoc]
      refine Eq.trans ?_ (ih fun d hd => hws d (by simp [hd]))
      cases hboundary : c.isLineBoundary with
      | true =>
          rw [textLines_append_boundary hboundary]
          exact List.append_nil _
      | false =>
          -- the space is added to the last line
          have hadd : ∀ u : PyStr, (∀ d ∈ u, d.isLineBoundary = false) →
              textLines (u ++ [c]) = textLines u := by
            intro u hu
            have hu' : ∀ d ∈ u ++ [c], d.isLineBoundary = false :=
              List.forall_mem_append.mpr ⟨hu, by simpa using hboundary⟩
            rw [textLines_line hu, textLines_line hu', trimmed, trimmed, List.map_singleton,
              List.map_singleton, rstrip_append_spaces (by simpa using hc)]
          rcases last_piece (x ++ ws) with hone | ⟨a, d, b, hsplit, hd, hb⟩
          · exact hadd _ hone
          · rw [hsplit, List.append_assoc, List.cons_append, textLines_append_boundary hd,
              textLines_append_boundary hd, hadd b hb]

end Lines

end Mqsc
end MqSentinel
