import MqSentinel.PyText
import MqSentinel.RegexSubstitution

/-!
# The MQSC allowlist

`assertMqscAllowed` judges a copy of a command from which comments are stripped, and
the connector sends the command itself.  `judgedTokens` says what the copy's tokens
are in terms of the command's own: a token with a comment opener inside is cut there,
and everything behind it is gone.

So the guard accepts what the command's own first tokens allow, and besides that the
commands of `Misjudged`: a verb with a comment opener glued to it, and a verb spelled
with a letter that only upper-casing makes an ASCII letter.
-/

namespace MqSentinel
namespace Allowlist

open Regex CodePoint

/-- `_MQSC_ALLOWED_VERBS` -/
def mqscAllowedVerbs : List PyStr :=
  [lit "DISPLAY", lit "DIS", lit "PING"]

/-- `_MQSC_DENIED_VERBS` -/
def mqscDeniedVerbs : List PyStr :=
  [lit "ALTER", lit "DEFINE", lit "DELETE", lit "START", lit "STOP", lit "SUSPEND",
    lit "RESUME", lit "REFRESH", lit "RESET", lit "CLEAR", lit "MOVE", lit "RECOVER",
    lit "SET", lit "BACKUP", lit "END", lit "ARCHIVE", lit "RECORD", lit "REVERIFY",
    lit "CHANGE"]

/-- `_MQSC_FORBIDDEN_CHARS`: `[;\n\r\x00]` -/
def isForbidden (c : CodePoint) : Bool :=
  c == ch ';' || c == lf || c == cr || c == nul

/-- `.*$` with `re.MULTILINE` -/
def toLineEnd : Rx CodePoint :=
  Rx.seq (Rx.star (Rx.cls fun c => c != lf))
    (Rx.look fun _ post => post.isEmpty || post.head? == some lf)

/-- `_MQSC_COMMENT`: `\*.*$|--.*$` -/
def mqscComment : Rx CodePoint :=
  Rx.alt (Rx.seq (Rx.cls (one (ch '*'))) toLineEnd)
    (Rx.seq (Rx.cls (one (ch '-'))) (Rx.seq (Rx.cls (one (ch '-'))) toLineEnd))

/-- `_strip_mqsc_comments` -/
def stripMqscComments (command : PyStr) : PyStr :=
  strip (sub mqscComment (fun _ => []) command)

section Guard

variable (U : UnicodeData)

/-- The text of the `CommandNotAllowedError`, or acceptance. -/
def assertMqscAllowed (command : PyStr) : Except PyStr Unit :=
  if command.isEmpty || (strip command).isEmpty then .error (lit "empty MQSC command")
  else if command.any isForbidden then
    .error (lit "MQSC contains forbidden character (;, newline, NUL)")
  else
    let cleaned := stripMqscComments command
    if cleaned.isEmpty then .error (lit "MQSC command is empty after comment strip")
    else
      match split cleaned with
      | [] => .error (lit "list index out of range")
      | token :: tokens =>
          let verb := U.upperStr token
          if verb ∈ mqscDeniedVerbs then
            .error (lit "MQSC verb '" ++ verb ++ lit "' is denied (read-only mode)")
          else if verb ∉ mqscAllowedVerbs then
            .error (lit "MQSC verb '" ++ verb ++ lit "' is not in allowlist")
          else if verb = lit "PING" then
            let second :=
              match tokens with
              | [] => []
              | t :: _ => beforeFirst (ch '(') (U.upperStr t)
            if second ≠ lit "CHANNEL" then
              .error (lit "PING is only allowed as 'PING CHANNEL'")
            else .ok ()
          else .ok ()

end Guard

section Comments

/-- A comment starts here. -/
def opensComment : PyStr → Bool
  | [] => false
  | [c] => c == ch '*'
  | c :: d :: _ => c == ch '*' || (c == ch '-' && d == ch '-')

/-- What is in front of the first comment opener. -/
def beforeComment : PyStr → PyStr
  | [] => []
  | c :: cs => if opensComment (c :: cs) then [] else c :: beforeComment cs

theorem lang_toLineEnd
    {pre w post : PyStr} (h : lf ∉ w ++ post) :
    Rx.Lang toLineEnd pre w post ↔ post = [] := by
  have hend : (post.isEmpty || post.head? == some lf) = true ↔ post = [] := by
    cases post with
    | nil =>
        simp
    | cons c cs =>
        have hc : c ≠ lf := by
          rintro rfl
          exact h (by simp)
        simp [hc]
  have hline : ∀ c ∈ w, (c != lf) = true := by
    intro c hc
    have : c ≠ lf := by
      rintro rfl
      exact h (List.mem_append_left _ hc)
    simpa using this
  unfold toLineEnd
  rw [Rx.lang_seq]
  constructor
  · rintro ⟨u, v, rfl, _, hlook⟩
    rw [Rx.lang_look] at hlook
    exact hend.mp hlook.2
  · intro hpost
    refine ⟨w, [], by simp, ?_, ?_⟩
    · rw [Rx.lang_star_cls]
      exact hline
    · rw [Rx.lang_look]
      exact ⟨rfl, hend.mpr hpost⟩

/-- On one line, a comment reaches from its opener to the end. -/
theorem lang_mqscComment
    {pre w post : PyStr} (h : lf ∉ w ++ post) :
    Rx.Lang mqscComment pre w post ↔ opensComment w = true ∧ post = [] := by
  have htail : ∀ {c : CodePoint} {v : PyStr}, w = c :: v → lf ∉ v ++ post := by
    intro c v hw hmem
    exact h (by rw [hw]; exact List.mem_cons_of_mem _ hmem)
  unfold mqscComment
  simp only [Rx.lang_alt, Rx.lang_seq_cls, one, beq_iff_eq]
  constructor
  · rintro (⟨c, v, rfl, rfl, hv⟩ | ⟨c, v, rfl, rfl, d, x, rfl, rfl, hx⟩)
    · rw [lang_toLineEnd (htail rfl)] at hv
      refine ⟨?_, hv⟩
      cases v <;> simp [opensComment]
    · rw [lang_toLineEnd (fun hmem => htail rfl (List.mem_cons_of_mem _ hmem))] at hx
      exact ⟨by simp [opensComment], hx⟩
  · rintro ⟨hopen, hpost⟩
    cases w with
    | nil =>
        simp [opensComment] at hopen
    | cons c v =>
        have hv := htail rfl
        by_cases hc : c = ch '*'
        · exact Or.inl ⟨c, v, rfl, hc, (lang_toLineEnd hv).mpr hpost⟩
        · cases v with
          | nil =>
              simp [opensComment, hc] at hopen
          | cons d x =>
              simp only [opensComment, hc, beq_iff_eq, Bool.or_eq_true, Bool.and_eq_true,
                false_or] at hopen
              have hx : lf ∉ x ++ post := fun hmem => hv (List.mem_cons_of_mem _ hmem)
              exact Or.inr ⟨c, d :: x, rfl, hopen.1, d, x, rfl, hopen.2,
                (lang_toLineEnd hx).mpr hpost⟩

/-- The tokens of one line up to its comment. -/
theorem render_scan_mqscComment
    {pre : PyStr} {ts : List (Tok CodePoint)} (hscan : Scan mqscComment pre ts) :
    lf ∉ source ts → render (fun _ => []) ts = beforeComment (source ts) := by
  induction hscan with
  | nil pre =>
      intro _
      rfl
  | @literal pre c ts hfirst _ ih =>
      intro h
      rw [source_lit] at h
      have hopen : opensComment (c :: source ts) = false := by
        by_contra hopen
        have hlang : Rx.Lang mqscComment pre (c :: source ts) [] :=
          (lang_mqscComment (by simpa using h)).mpr ⟨by simpa using hopen, rfl⟩
        rcases hfirst with hnone | hzero
        · exact (Rx.first_eq_none_iff _ _ _).mp hnone _ [] (by simp) hlang
        · obtain ⟨w, v, hsplit, hlen, hw⟩ := Rx.lang_of_first hzero
          obtain rfl := List.length_eq_zero_iff.mp hlen
          rw [List.nil_append] at hsplit
          subst hsplit
          rw [lang_mqscComment (by simpa using h)] at hw
          simp [opensComment] at hw
      rw [render_lit, source_lit, beforeComment, hopen]
      simp [ih fun hmem => h (List.mem_cons_of_mem _ hmem)]
  | @matched pre m ts hne hfirst _ ih =>
      intro h
      rw [source_hit] at h
      obtain ⟨w, v, hsplit, hlen, hw⟩ := Rx.lang_of_first hfirst
      obtain ⟨rfl, rfl⟩ := List.append_inj hsplit hlen.symm
      rw [lang_mqscComment h] at hw
      obtain ⟨hopen, hrest⟩ := hw
      have htail := ih (by rw [hrest]; simp)
      rw [render_hit, source_hit, htail, hrest]
      cases m with
      | nil =>
          exact absurd rfl hne
      | cons c m =>
          simp only [List.append_nil, beforeComment, hopen, if_true]

/-- Stripping the comments of one line keeps what is in front of the first opener. -/
theorem sub_mqscComment
    {command : PyStr} (h : lf ∉ command) :
    sub mqscComment (fun _ => []) command = beforeComment command := by
  have hscan := render_scan_mqscComment (scan_tokens mqscComment command)
  rw [source_tokens] at hscan
  exact hscan h

/-- Only an opener cuts a text, and it is where the rest begins. -/
theorem beforeComment_split
    (s : PyStr) :
    ∃ tail, s = beforeComment s ++ tail ∧ (tail = [] ∨ opensComment tail = true) := by
  induction s with
  | nil =>
      exact ⟨[], rfl, Or.inl rfl⟩
  | cons c s ih =>
      cases hopen : opensComment (c :: s) with
      | true =>
          exact ⟨c :: s, by simp [beforeComment, hopen], Or.inr hopen⟩
      | false =>
          obtain ⟨tail, hs, htail⟩ := ih
          refine ⟨tail, ?_, htail⟩
          simpa [beforeComment, hopen] using hs

/-- A space behind a word neither opens a comment nor continues an opener. -/
theorem opensComment_append_space
    {c d : CodePoint} {w t : PyStr} (hc : c.isSpace = true) :
    opensComment (d :: w ++ c :: t) = opensComment (d :: w) := by
  cases w with
  | nil =>
      have hdash : (c == ch '-') = false := by
        rw [beq_eq_false_iff_ne]
        rintro rfl
        revert hc
        decide
      simp [opensComment, hdash]
  | cons e w =>
      simp [opensComment]

/-- A word is kept with what follows it, or cut with it. -/
theorem beforeComment_append_space
    {c : CodePoint} (hc : c.isSpace = true) (w t : PyStr) :
    beforeComment (w ++ c :: t) =
      if beforeComment w = w then w ++ c :: beforeComment t else beforeComment w := by
  induction w with
  | nil =>
      have hopen : opensComment (c :: t) = false := by
        have hstar : (c == ch '*') = false := by
          rw [beq_eq_false_iff_ne]
          rintro rfl
          revert hc
          decide
        have hdash : (c == ch '-') = false := by
          rw [beq_eq_false_iff_ne]
          rintro rfl
          revert hc
          decide
        cases t <;> simp [opensComment, hstar, hdash]
      simp [beforeComment, hopen]
  | cons d w ih =>
      have hsame := opensComment_append_space (d := d) (w := w) (t := t) hc
      rw [List.cons_append] at hsame ⊢
      cases hopen : opensComment (d :: w) with
      | true =>
          rw [hopen] at hsame
          simp [beforeComment, hopen, hsame]
      | false =>
          rw [hopen] at hsame
          simp only [beforeComment, hopen, hsame, Bool.false_eq_true, if_false, ih,
            List.cons.injEq, true_and]
          split_ifs <;> rfl

/-- The tokens that the guard judges: a token is cut at a comment opener. -/
def judgedTokens : List PyStr → List PyStr
  | [] => []
  | t :: ts =>
      if beforeComment t = t then t :: judgedTokens ts
      else if beforeComment t = [] then []
      else [beforeComment t]

/-- **The tokens of the stripped copy**, from the tokens of the command. -/
theorem split_beforeComment
    (command : PyStr) :
    split (beforeComment command) = judgedTokens (split command) := by
  have hcut : ∀ w : PyStr, (∀ c ∈ w, c.isSpace = false) →
      split (beforeComment w) = if beforeComment w = [] then [] else [beforeComment w] := by
    intro w hw
    apply split_word
    intro c hc
    obtain ⟨tail, hsplit, _⟩ := beforeComment_split w
    exact hw c (hsplit ▸ List.mem_append_left _ hc)
  induction command using words_induction with
  | word w hw =>
      rw [hcut w hw, split_word hw]
      by_cases hnil : w = []
      · subst hnil
        rfl
      · by_cases hsame : beforeComment w = w
        · simp [hnil, hsame, judgedTokens]
        · simp [hnil, hsame, judgedTokens]
  | space w c t hw hc ih =>
      rw [beforeComment_append_space hc, split_append_space _ _ hc, split_word hw]
      by_cases hsame : beforeComment w = w
      · rw [if_pos hsame, split_append_space _ _ hc, split_word hw, ih]
        by_cases hnil : w = []
        · simp [hnil]
        · simp [hnil, hsame, judgedTokens]
      · have hnil : w ≠ [] := by
          rintro rfl
          exact hsame rfl
        rw [if_neg hsame, hcut w hw]
        simp [hnil, hsame, judgedTokens]

end Comments

section Judgement

/-- `t` is the word `verb` up to ASCII case. -/
def isWord (t verb : PyStr) : Prop :=
  t.map toUpperAscii = verb

/-- `t` upper-cases to `verb`: up to ASCII case, and with U+0131 for `I` and U+017F for `S`. -/
def spells (t verb : PyStr) : Prop :=
  t.map looseUpper = verb

/-- What the first tokens of a command allow. -/
def TokensAllowed : List PyStr → Prop
  | [] => False
  | t :: ts =>
      isWord t (lit "DISPLAY") ∨ isWord t (lit "DIS") ∨
        isWord t (lit "PING") ∧
          ∃ u us, ts = u :: us ∧ isWord (beforeFirst (ch '(') u) (lit "CHANNEL")

/-- The judgement on the command itself. -/
def AllowedAsSent (command : PyStr) : Prop :=
  (∀ c ∈ command, isForbidden c = false) ∧ TokensAllowed (split command)

/-- The guard's judgement of the stripped copy, in terms of its tokens. -/
def TokensAccepted : List PyStr → Prop
  | [] => False
  | t :: ts =>
      spells t (lit "DISPLAY") ∨ spells t (lit "DIS") ∨
        spells t (lit "PING") ∧
          ∃ u us, ts = u :: us ∧ spells (beforeFirst (ch '(') u) (lit "CHANNEL")

/--
`t` is spelled like `verb`, but it is not the word: there is a comment opener behind
the word, or a letter that is not ASCII in it.
-/
def Lookalike (t verb : PyStr) : Prop :=
  ∃ word tail, t = word ++ tail ∧ spells word verb ∧
    (tail ≠ [] ∧ opensComment tail = true ∨ tail = [] ∧ ∃ c ∈ word, c.isAscii = false)

/-- First tokens that the guard takes for what they are not. -/
def TokensMisjudged : List PyStr → Prop
  | [] => False
  | t :: ts =>
      Lookalike t (lit "DISPLAY") ∨ Lookalike t (lit "DIS") ∨
        spells t (lit "PING") ∧ ∃ u us, ts = u :: us ∧
          (Lookalike (beforeFirst (ch '(') u) (lit "CHANNEL") ∨
            spells (beforeFirst (ch '(') u) (lit "CHANNEL") ∧ ∃ c ∈ t, c.isAscii = false)

/-- Commands without a forbidden character whose first tokens are misjudged. -/
def Misjudged (command : PyStr) : Prop :=
  (∀ c ∈ command, isForbidden c = false) ∧ TokensMisjudged (split command)

/-- The words that the guard knows. -/
def knownWords : List PyStr :=
  [lit "DISPLAY", lit "DIS", lit "PING", lit "CHANNEL"]

/-- They are ASCII without ligatures and hold no comment opener. -/
theorem knownWords_plain :
    ∀ verb ∈ knownWords, (∀ c ∈ verb, c.isAscii = true) ∧
      (∀ l ∈ ligatures, ¬ l <:+: verb) ∧ ch '*' ∉ verb ∧ ch '-' ∉ verb := by
  decide

/-- A spelling of a known word holds no comment opener. -/
theorem spells_no_opener
    {t verb : PyStr} (hverb : verb ∈ knownWords) (h : spells t verb) :
    ch '*' ∉ t ∧ ch '-' ∉ t := by
  obtain ⟨_, _, hstar, hdash⟩ := knownWords_plain verb hverb
  have hmem : ∀ c, c.looseUpper = c → c ∈ t → c ∈ verb := by
    intro c hc hct
    rw [← h, ← hc]
    exact List.mem_map_of_mem hct
  exact ⟨fun hct => hstar (hmem _ (by decide) hct), fun hct => hdash (hmem _ (by decide) hct)⟩

theorem isAscii_of_isWord
    {t verb : PyStr} (hverb : verb ∈ knownWords) (h : isWord t verb) :
    ∀ c ∈ t, c.isAscii = true := by
  intro c hc
  apply isAscii_of_toUpperAscii
  apply (knownWords_plain verb hverb).1
  rw [← h]
  exact List.mem_map_of_mem hc

/-- A known word is its spelling in ASCII. -/
theorem isWord_iff_spells
    {t verb : PyStr} (hverb : verb ∈ knownWords) :
    isWord t verb ↔ spells t verb ∧ ∀ c ∈ t, c.isAscii = true := by
  have hmap : (∀ c ∈ t, c.isAscii = true) → t.map looseUpper = t.map toUpperAscii :=
    fun hascii => List.map_congr_left fun c hc => looseUpper_of_ascii (hascii c hc)
  constructor
  · intro h
    have hascii := isAscii_of_isWord hverb h
    exact ⟨(hmap hascii).trans h, hascii⟩
  · rintro ⟨h, hascii⟩
    exact (hmap hascii).symm.trans h

theorem mem_of_opensComment
    {t : PyStr} (h : opensComment t = true) :
    ch '*' ∈ t ∨ ch '-' ∈ t := by
  match t, h with
  | [c], h =>
      have hc : c = ch '*' := by simpa [opensComment] using h
      simp [hc]
  | c :: d :: t, h =>
      simp only [opensComment, Bool.or_eq_true, beq_iff_eq, Bool.and_eq_true] at h
      rcases h with rfl | ⟨rfl, _⟩ <;> simp

/-- A text without comment characters is kept up to the opener behind it. -/
theorem beforeComment_append
    {word tail : PyStr} (hstar : ch '*' ∉ word) (hdash : ch '-' ∉ word)
    (htail : tail = [] ∨ opensComment tail = true) :
    beforeComment (word ++ tail) = word := by
  induction word with
  | nil =>
      rcases htail with rfl | hopen
      · rfl
      · cases tail with
        | nil =>
            rfl
        | cons c tail =>
            simp [beforeComment, hopen]
  | cons c word ih =>
      simp only [List.mem_cons, not_or] at hstar hdash
      have hopen : opensComment (c :: word ++ tail) = false := by
        have hc : (c == ch '*') = false := beq_eq_false_iff_ne.mpr fun h => hstar.1 h.symm
        have hd : (c == ch '-') = false := beq_eq_false_iff_ne.mpr fun h => hdash.1 h.symm
        cases hrest : word ++ tail <;> simp [hrest, opensComment, hc, hd]
      rw [List.cons_append] at hopen ⊢
      simp [beforeComment, hopen, ih hstar.2 hdash.2]

/-- **What passes for a known word** once its comment is cut. -/
theorem spells_beforeComment_iff
    {t verb : PyStr} (hverb : verb ∈ knownWords) :
    spells (beforeComment t) verb ↔ isWord t verb ∨ Lookalike t verb := by
  constructor
  · intro h
    obtain ⟨tail, hsplit, htail⟩ := beforeComment_split t
    by_cases hnil : tail = []
    · rw [hnil, List.append_nil] at hsplit
      rw [← hsplit] at h
      by_cases hascii : ∀ c ∈ t, c.isAscii = true
      · exact Or.inl ((isWord_iff_spells hverb).mpr ⟨h, hascii⟩)
      · refine Or.inr ⟨t, [], by simp, h, Or.inr ⟨rfl, ?_⟩⟩
        simpa using hascii
    · exact Or.inr ⟨_, tail, hsplit, h, Or.inl ⟨hnil, htail.resolve_left hnil⟩⟩
  · rintro (h | ⟨word, tail, rfl, h, hcase⟩)
    · have hspells := ((isWord_iff_spells hverb).mp h).1
      obtain ⟨hstar, hdash⟩ := spells_no_opener hverb hspells
      have := beforeComment_append hstar hdash (Or.inl rfl)
      rw [List.append_nil] at this
      rwa [this]
    · obtain ⟨hstar, hdash⟩ := spells_no_opener hverb h
      have htail : tail = [] ∨ opensComment tail = true := by
        rcases hcase with ⟨_, hopen⟩ | ⟨hnil, _⟩
        · exact Or.inr hopen
        · exact Or.inl hnil
      rwa [beforeComment_append hstar hdash htail]

/-- No known word looks like one that it is not. -/
theorem not_lookalike_of_isWord
    {t verb verb' : PyStr} (hverb : verb ∈ knownWords) (h : isWord t verb) :
    ¬ Lookalike t verb' := by
  rintro ⟨word, tail, rfl, _, hcase⟩
  obtain ⟨hspells, hascii⟩ := (isWord_iff_spells hverb).mp h
  obtain ⟨hstar, hdash⟩ := spells_no_opener hverb hspells
  rcases hcase with ⟨_, hopen⟩ | ⟨_, c, hc, hnot⟩
  · rcases mem_of_opensComment hopen with hmem | hmem
    · exact hstar (List.mem_append_right _ hmem)
    · exact hdash (List.mem_append_right _ hmem)
  · rw [hascii c (List.mem_append_left _ hc)] at hnot
    cases hnot

theorem beforeFirst_cons
    (sep c : CodePoint) (s : PyStr) :
    beforeFirst sep (c :: s) = if c = sep then [] else c :: beforeFirst sep s := by
  by_cases h : c = sep <;> simp [beforeFirst, h]

/-- A parenthesis is no part of an opener, so it does not matter which cut comes first. -/
theorem beforeFirst_beforeComment
    (t : PyStr) :
    beforeFirst (ch '(') (beforeComment t) = beforeComment (beforeFirst (ch '(') t) := by
  induction t with
  | nil =>
      rfl
  | cons c t ih =>
      have hopen : c ≠ ch '(' →
          opensComment (c :: beforeFirst (ch '(') t) = opensComment (c :: t) := by
        intro _
        cases t with
        | nil =>
            rfl
        | cons d t =>
            rw [beforeFirst_cons]
            by_cases hd : d = ch '('
            · subst hd
              have hdash : (ch '(' == ch '-') = false := by decide
              simp [opensComment, hdash]
            · simp [hd, opensComment]
      by_cases hc : c = ch '('
      · subst hc
        have hno : opensComment (ch '(' :: t) = false := by
          have hstar : (ch '(' == ch '*') = false := by decide
          have hdash : (ch '(' == ch '-') = false := by decide
          cases t <;> simp [opensComment, hstar, hdash]
        simp [beforeComment, hno, beforeFirst_cons]
      · rw [beforeFirst_cons, if_neg hc]
        cases hcut : opensComment (c :: t) with
        | true =>
            simp [beforeComment, hopen hc, hcut]
            rfl
        | false =>
            simp [beforeComment, hopen hc, hcut, beforeFirst_cons, hc, ih]

theorem isWord_or_lookalike_of_spells
    {t verb : PyStr} (hverb : verb ∈ knownWords) (h : spells t verb) :
    isWord t verb ∨ Lookalike t verb := by
  obtain ⟨hstar, hdash⟩ := spells_no_opener hverb h
  have hkept := beforeComment_append hstar hdash (Or.inl rfl)
  rw [List.append_nil] at hkept
  rw [← spells_beforeComment_iff hverb, hkept]
  exact h

/-- The second token, as the guard reads it. -/
theorem second_accepted_iff
    (ts : List PyStr) :
    (∃ u us, judgedTokens ts = u :: us ∧ spells (beforeFirst (ch '(') u) (lit "CHANNEL")) ↔
      ∃ u us, ts = u :: us ∧ (isWord (beforeFirst (ch '(') u) (lit "CHANNEL") ∨
        Lookalike (beforeFirst (ch '(') u) (lit "CHANNEL")) := by
  have hchannel : lit "CHANNEL" ∈ knownWords := by decide
  have hempty : ¬ spells [] (lit "CHANNEL") := by
    intro h
    cases h
  cases ts with
  | nil =>
      simp [judgedTokens]
  | cons u us =>
      have hcut : (∃ v vs, judgedTokens (u :: us) = v :: vs ∧
            spells (beforeFirst (ch '(') v) (lit "CHANNEL")) ↔
          spells (beforeFirst (ch '(') (beforeComment u)) (lit "CHANNEL") := by
        by_cases hkept : beforeComment u = u
        · simp [judgedTokens, hkept]
        · by_cases hnil : beforeComment u = []
          · have hgone : judgedTokens (u :: us) = [] := by
              rw [judgedTokens, if_neg hkept, if_pos hnil]
            rw [hgone, hnil]
            simpa [beforeFirst] using hempty
          · simp [judgedTokens, hkept, hnil]
      rw [hcut, beforeFirst_beforeComment, spells_beforeComment_iff hchannel]
      simp

/-- The first token as the guard reads it, and the second behind it. -/
theorem tokensAccepted_cons_iff
    (t : PyStr) (ts : List PyStr) :
    TokensAccepted (judgedTokens (t :: ts)) ↔
      spells (beforeComment t) (lit "DISPLAY") ∨ spells (beforeComment t) (lit "DIS") ∨
        spells t (lit "PING") ∧ ∃ u us, judgedTokens ts = u :: us ∧
          spells (beforeFirst (ch '(') u) (lit "CHANNEL") := by
  by_cases hkept : beforeComment t = t
  · simp only [judgedTokens, hkept, if_true, TokensAccepted]
  · have hping : ¬ spells t (lit "PING") := by
      intro h
      obtain ⟨hstar, hdash⟩ := spells_no_opener (by decide) h
      have := beforeComment_append hstar hdash (Or.inl rfl)
      rw [List.append_nil] at this
      exact hkept this
    by_cases hnil : beforeComment t = []
    · have hempty : ∀ verb ∈ [lit "DISPLAY", lit "DIS"], ¬ spells [] verb := by
        intro verb hverb h
        rw [← h] at hverb
        revert hverb
        decide
      have hgone : judgedTokens (t :: ts) = [] := by
        rw [judgedTokens, if_neg hkept, if_pos hnil]
      rw [hgone, hnil]
      simp [TokensAccepted, hping, hempty]
    · simp [judgedTokens, hkept, hnil, TokensAccepted, hping]

/-- **The judgement of the stripped copy**, from the tokens of the command. -/
theorem tokensAccepted_judgedTokens
    (ts : List PyStr) :
    TokensAccepted (judgedTokens ts) ↔ TokensAllowed ts ∨ TokensMisjudged ts := by
  cases ts with
  | nil =>
      simp [judgedTokens, TokensAccepted, TokensAllowed, TokensMisjudged]
  | cons t ts =>
      have hdisplay : lit "DISPLAY" ∈ knownWords := by decide
      have hdis : lit "DIS" ∈ knownWords := by decide
      have hping : lit "PING" ∈ knownWords := by decide
      have hchannel : lit "CHANNEL" ∈ knownWords := by decide
      rw [tokensAccepted_cons_iff, second_accepted_iff, spells_beforeComment_iff hdisplay,
        spells_beforeComment_iff hdis, TokensAllowed, TokensMisjudged]
      constructor
      · rintro ((h | h) | (h | h) | ⟨hspells, u, us, hts, h | h⟩)
        · exact Or.inl (Or.inl h)
        · exact Or.inr (Or.inl h)
        · exact Or.inl (Or.inr (Or.inl h))
        · exact Or.inr (Or.inr (Or.inl h))
        · by_cases hascii : ∀ c ∈ t, c.isAscii = true
          · have hword := (isWord_iff_spells hping).mpr ⟨hspells, hascii⟩
            exact Or.inl (Or.inr (Or.inr ⟨hword, u, us, hts, h⟩))
          · have hnot : ∃ c ∈ t, c.isAscii = false := by simpa using hascii
            have hu := ((isWord_iff_spells hchannel).mp h).1
            exact Or.inr (Or.inr (Or.inr ⟨hspells, u, us, hts, Or.inr ⟨hu, hnot⟩⟩))
        · exact Or.inr (Or.inr (Or.inr ⟨hspells, u, us, hts, Or.inl h⟩))
      · rintro ((h | h | ⟨hword, u, us, hts, h⟩) | h | h | ⟨hspells, u, us, hts, h | ⟨hu, _⟩⟩)
        · exact Or.inl (Or.inl h)
        · exact Or.inr (Or.inl (Or.inl h))
        · exact Or.inr (Or.inr ⟨((isWord_iff_spells hping).mp hword).1, u, us, hts, Or.inl h⟩)
        · exact Or.inl (Or.inr h)
        · exact Or.inr (Or.inl (Or.inr h))
        · exact Or.inr (Or.inr ⟨hspells, u, us, hts, Or.inr h⟩)
        · exact Or.inr (Or.inr ⟨hspells, u, us, hts, isWord_or_lookalike_of_spells hchannel hu⟩)

/-- Tokens that are allowed are not misjudged. -/
theorem not_tokensMisjudged_of_allowed
    {ts : List PyStr} (h : TokensAllowed ts) :
    ¬ TokensMisjudged ts := by
  cases ts with
  | nil =>
      exact False.elim h
  | cons t ts =>
      have hword : ∃ verb ∈ knownWords, isWord t verb := by
        rcases h with h | h | ⟨h, _⟩
        · exact ⟨_, by decide, h⟩
        · exact ⟨_, by decide, h⟩
        · exact ⟨_, by decide, h⟩
      obtain ⟨verb, hverb, ht⟩ := hword
      rintro (hlook | hlook | ⟨hspells, u, us, hts, hsecond⟩)
      · exact not_lookalike_of_isWord hverb ht hlook
      · exact not_lookalike_of_isWord hverb ht hlook
      · have hping : lit "PING" ∈ knownWords := by decide
        have hword : isWord t (lit "PING") :=
          (isWord_iff_spells hping).mpr ⟨hspells, isAscii_of_isWord hverb ht⟩
        have hu : isWord (beforeFirst (ch '(') u) (lit "CHANNEL") := by
          rcases h with h | h | ⟨_, v, vs, hvs, hv⟩
          · have hsame : lit "PING" = lit "DISPLAY" := hword.symm.trans h
            exact absurd hsame (by decide)
          · have hsame : lit "PING" = lit "DIS" := hword.symm.trans h
            exact absurd hsame (by decide)
          · rw [hts, List.cons.injEq] at hvs
            rw [hvs.1]
            exact hv
        rcases hsecond with hlook | ⟨_, c, hc, hnot⟩
        · exact not_lookalike_of_isWord (by decide) hu hlook
        · rw [isAscii_of_isWord hverb ht c hc] at hnot
          cases hnot

/-- An allowed verb is none of the denied ones. -/
theorem not_denied_of_allowed :
    ∀ verb ∈ mqscAllowedVerbs, verb ∉ mqscDeniedVerbs := by
  decide

/-- The upper-cased second token, up to its parenthesis. -/
theorem second_eq_channel_iff
    (U : UnicodeData) (tokens : List PyStr) :
    (match tokens with
      | [] => []
      | t :: _ => beforeFirst (ch '(') (U.upperStr t)) = lit "CHANNEL" ↔
      ∃ u us, tokens = u :: us ∧ spells (beforeFirst (ch '(') u) (lit "CHANNEL") := by
  have hplain := knownWords_plain (lit "CHANNEL") (by decide)
  cases tokens with
  | nil =>
      have hempty : ([] : PyStr) ≠ lit "CHANNEL" := by decide
      simp [hempty]
  | cons t ts =>
      dsimp only
      rw [U.beforeFirst_upperStr, U.upperStr_eq_iff _ hplain.1 hplain.2.1]
      simp [spells]

/-- **What the guard accepts**, from the tokens of the stripped copy. -/
theorem assertMqscAllowed_ok_iff
    (U : UnicodeData) (command : PyStr) :
    assertMqscAllowed U command = .ok () ↔
      (∀ c ∈ command, isForbidden c = false) ∧
        TokensAccepted (judgedTokens (split command)) := by
  by_cases hforbidden : ∀ c ∈ command, isForbidden c = false
  · have hlf : lf ∉ command := by
      intro hmem
      exact absurd (hforbidden lf hmem) (by decide)
    have hany : command.any isForbidden = false := by
      simpa using hforbidden
    have hsplit : split (stripMqscComments command) = judgedTokens (split command) := by
      rw [stripMqscComments, split_strip, sub_mqscComment hlf, split_beforeComment]
    have hverb : ∀ verb ∈ knownWords, ∀ t, U.upperStr t = verb ↔ spells t verb := by
      intro verb hmem t
      obtain ⟨hascii, hlig, _⟩ := knownWords_plain verb hmem
      exact U.upperStr_eq_iff t hascii hlig
    rw [and_iff_right hforbidden]
    by_cases hempty : (command.isEmpty || (strip command).isEmpty) = true
    · have hnone : split command = [] := by
        rcases Bool.or_eq_true _ _ ▸ hempty with h | h
        · rw [List.isEmpty_iff.mp h]
          rfl
        · rw [← split_strip, List.isEmpty_iff.mp h]
          rfl
      simp [assertMqscAllowed, hempty, hnone, judgedTokens, TokensAccepted]
    · rw [← hsplit]
      simp only [assertMqscAllowed, hempty, hany, Bool.false_eq_true, if_false]
      generalize stripMqscComments command = cleaned
      by_cases hcleaned : cleaned.isEmpty = true
      · rw [List.isEmpty_iff.mp hcleaned]
        simp [TokensAccepted]
      · rw [if_neg hcleaned]
        cases hts : split cleaned with
        | nil =>
            simp [TokensAccepted]
        | cons token tokens =>
            have hdisplay := hverb (lit "DISPLAY") (by decide) token
            have hdis := hverb (lit "DIS") (by decide) token
            have hping := hverb (lit "PING") (by decide) token
            have hsecond := second_eq_channel_iff U tokens
            simp only [TokensAccepted, ← hdisplay, ← hdis, ← hping, ← hsecond]
            generalize U.upperStr token = verb
            have hmem : verb ∈ mqscAllowedVerbs ↔
                verb = lit "DISPLAY" ∨ verb = lit "DIS" ∨ verb = lit "PING" := by
              simp [mqscAllowedVerbs]
            by_cases hallowed : verb ∈ mqscAllowedVerbs
            · have hdenied := not_denied_of_allowed verb hallowed
              have hnot_ping : lit "DISPLAY" ≠ lit "PING" ∧ lit "DIS" ≠ lit "PING" := by
                decide
              simp only [hdenied, hallowed, if_false, not_true_eq_false]
              rcases hmem.mp hallowed with rfl | rfl | rfl
              · simp [hnot_ping.1]
              · simp [hnot_ping.2]
              · have hdisplay_ping := Ne.symm hnot_ping.1
                have hdis_ping := Ne.symm hnot_ping.2
                simp [hdisplay_ping, hdis_ping]
            · have hnone := hmem.not.mp hallowed
              simp only [not_or] at hnone
              simp only [hallowed, hnone, false_and, or_self, iff_false, not_false_eq_true,
                if_true]
              split_ifs <;> simp
  · have hany : command.any isForbidden = true := by
      simpa using hforbidden
    unfold assertMqscAllowed
    split_ifs <;> simp [hforbidden]

/-- The guard accepts what is allowed as sent, and what is misjudged. -/
theorem accepted_iff
    (U : UnicodeData) (command : PyStr) :
    assertMqscAllowed U command = .ok () ↔ AllowedAsSent command ∨ Misjudged command := by
  rw [assertMqscAllowed_ok_iff, tokensAccepted_judgedTokens, and_or_left]
  rfl

theorem not_misjudged_of_allowedAsSent
    {command : PyStr} (h : AllowedAsSent command) :
    ¬ Misjudged command :=
  fun hmis => not_tokensMisjudged_of_allowed h.2 hmis.2

/--
**The guard judges what is sent, but for lookalikes.**  Its verdict is that of the
command's own first tokens exactly when the command is not misjudged; every other
disagreement is ruled out, and where they disagree the guard accepts.
-/
theorem guard_judges_sent_iff
    (U : UnicodeData) (command : PyStr) :
    (assertMqscAllowed U command = .ok () ↔ AllowedAsSent command) ↔
      ¬ Misjudged command := by
  rw [accepted_iff]
  constructor
  · intro h hmis
    exact not_misjudged_of_allowedAsSent (h.mp (Or.inr hmis)) hmis
  · intro hmis
    exact ⟨fun h => h.resolve_right hmis, Or.inl⟩

/-- The guard sees `DISPLAY`; the queue manager is sent `DISPLAY--x`. -/
theorem glued_comment_accepted :
    ¬ (assertMqscAllowed UnicodeData.basic (lit "DISPLAY--x") = .ok () ↔
      AllowedAsSent (lit "DISPLAY--x")) := by
  intro h
  have haccepted : assertMqscAllowed UnicodeData.basic (lit "DISPLAY--x") = .ok () := by
    decide +kernel
  have htokens : split (lit "DISPLAY--x") = [lit "DISPLAY--x"] := by
    decide +kernel
  obtain ⟨_, hallowed⟩ := h.mp haccepted
  rw [htokens] at hallowed
  rcases hallowed with hword | hword | ⟨hword, _⟩
  · exact absurd hword (by unfold isWord; decide)
  · exact absurd hword (by unfold isWord; decide)
  · exact absurd hword (by unfold isWord; decide)

end Judgement

end Allowlist
end MqSentinel
