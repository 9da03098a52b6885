import MqSentinel.MqscTrailingSpace
import MqSentinel.PyBytes

/-!
# The texts of a PCF reply

`_escaped_reply_text` joins the escaped replies of all messages of a PCF response to one
text, each without its trailing white space.  When every reply starts with a message line,
the rows of the joined text are those of the replies, one after the other: nothing that a
reply leaves open reaches into the next one.
-/

namespace MqSentinel
namespace Mqsc

open CodePoint

section Connector

/-- A value of an escaped reply; `other` is any value but bytes, by its `str`. -/
inductive ReplyValue where
  | bytes (b : PyBytes)
  | other (s : PyStr)

/-- `record.get(reply_param)` -/
inductive ReplyField where
  | missing
  | single (v : ReplyValue)
  | list (vs : List ReplyValue)

/-- `v.decode(errors="replace") if isinstance(v, bytes) else str(v)` -/
def ReplyValue.text : ReplyValue → PyStr
  | .bytes b => PyBytes.decodeReplace b
  | .other s => s

def ReplyField.values : ReplyField → List ReplyValue
  | .missing => []
  | .single v => [v]
  | .list vs => vs

/-- The texts of the replies, in order. -/
def replyTexts (response : Option (List ReplyField)) : List PyStr :=
  (response.getD []).flatMap fun record => record.values.map ReplyValue.text

/-- `_escaped_reply_text` -/
def escapedReplyText (response : Option (List ReplyField)) : PyStr :=
  List.intercalate [lf] ((replyTexts response).map rstrip)

end Connector

section Texts

variable (U : UnicodeData)

/-- The lines that `parse_mqsc_reply` reads, trimmed. -/
def replyLines (text : PyStr) : List PyStr :=
  textLines (breakInline U text)

theorem parseMqscReply_replyLines (text : PyStr) :
    parseMqscReply U text = parseLines U none (replyLines U text) := by
  rw [replyLines, ← trimmed_splitlines, parseLines_trimmed]
  rfl

/-- A line feed separates the lines in front of it from those behind it. -/
theorem replyLines_append_lf
    (x y : PyStr) :
    replyLines U (x ++ lf :: y) = replyLines U x ++ replyLines U y := by
  have hbounds : Bounds U (lf :: y) :=
    bounds_cons U (by decide) (by decide) y
  rw [replyLines, hbounds.breakInline_append, breakInline_cons_stop (by decide) (by decide),
    textLines_append_boundary (by decide)]
  rfl

theorem not_startsAmq_spaces
    {ws : PyStr} (hws : ∀ c ∈ ws, c.isSpace = true) :
    startsAmq U ws = false := by
  cases ws with
  | nil =>
      rfl
  | cons c ws =>
      exact startsAmq_cons_stop U (isStop_of_isSpace (hws c (by simp))) ws

theorem bounds_spaces
    {ws : PyStr} (hws : ∀ c ∈ ws, c.isSpace = true) :
    Bounds U ws where
  stop := fun c hc => isStop_of_isSpace (hws c (List.mem_of_mem_head? hc))
  no_id := not_startsAmq_spaces U fun c hc =>
    hws c ((List.dropWhile_sublist _).subset hc)

theorem breakInline_spaces
    {ws : PyStr} (hws : ∀ c ∈ ws, c.isSpace = true) :
    breakInline U ws = ws := by
  refine breakInline_of_not_hasInlineId U ?_
  induction ws with
  | nil =>
      rfl
  | cons c ws ih =>
      have htail : ∀ d ∈ ws, d.isSpace = true := fun d hd =>
        hws d (List.mem_cons_of_mem _ hd)
      rw [hasInlineId, not_startsAmq_spaces U htail, ih htail, Bool.and_false]
      rfl

/-- Trailing white space of a reply does not matter. -/
theorem replyLines_rstrip (text : PyStr) :
    replyLines U (rstrip text) = replyLines U text := by
  obtain ⟨ws, htext, hws⟩ := exists_rstrip_append text
  conv_rhs => rw [htext]
  rw [replyLines, replyLines, (bounds_spaces U hws).breakInline_append,
    breakInline_spaces U hws, textLines_append_spaces hws]

/-- The lines of the joined replies are the lines of the replies. -/
theorem replyLines_intercalate (texts : List PyStr) :
    replyLines U (List.intercalate [lf] (texts.map rstrip)) =
      texts.flatMap (replyLines U) := by
  induction texts with
  | nil =>
      rfl
  | cons text texts ih =>
      cases texts with
      | nil =>
          simp [List.intercalate, replyLines_rstrip]
      | cons text' texts =>
          have hjoin : List.intercalate [lf] ((text :: text' :: texts).map rstrip) =
              rstrip text ++ lf :: List.intercalate [lf] ((text' :: texts).map rstrip) := by
            simp [List.intercalate]
          rw [hjoin, replyLines_append_lf, replyLines_rstrip, ih]
          rfl

end Texts

section Separation

variable (U : UnicodeData)

/-- The first line of a text that starts with a message line. -/
theorem textLines_message :
    ∀ (n : Nat) (text : PyStr), text.length ≤ n → isMessageLine U text = true →
      ∃ line lines, textLines text = line :: lines ∧ isMessageLine U line = true := by
  have hone : ∀ b : PyStr, (∀ d ∈ b, d.isLineBoundary = false) → isMessageLine U b = true →
      textLines b = [rstrip b] ∧ isMessageLine U (rstrip b) = true := by
    intro b hb hmessage
    obtain ⟨ws, hsplit, hws⟩ := exists_rstrip_append b
    have hline : isMessageLine U (rstrip b) = true := by
      rwa [hsplit, isMessageLine_append_spaces U hws] at hmessage
    have hne : rstrip b ≠ [] := by
      intro hnil
      rw [hnil, not_isMessageLine_of_spaces U (by simp)] at hline
      cases hline
    refine ⟨?_, hline⟩
    rw [textLines_line hb]
    simp [trimmed, hne]
  intro n
  induction n with
  | zero =>
      intro text hn hmessage
      obtain rfl := List.length_eq_zero_iff.mp (Nat.le_zero.mp hn)
      rw [not_isMessageLine_of_spaces U (by simp)] at hmessage
      cases hmessage
  | succ n ih =>
      intro text hn hmessage
      rcases last_piece text with hsingle | ⟨a, c, b, rfl, hc, hb⟩
      · obtain ⟨hlines, hline⟩ := hone text hsingle hmessage
        exact ⟨_, [], hlines, hline⟩
      · have hspace := isSpace_of_isLineBoundary hc
        rw [textLines_append_boundary hc]
        by_cases ha : lstrip a = []
        · -- only white space stands in front of the last line
          have hspaces := (lstrip_eq_nil_iff a).mp ha
          have hindent : ∀ d ∈ a ++ [c], d.isSpace = true :=
            List.forall_mem_append.mpr ⟨hspaces, by simpa using hspace⟩
          have hnone : textLines a = [] := textLines_append_spaces hspaces []
          have htail : isMessageLine U b = true := by
            rwa [← List.singleton_append, ← List.append_assoc,
              isMessageLine_spaces_append U hindent] at hmessage
          obtain ⟨hlines, hline⟩ := hone b hb htail
          exact ⟨_, [], by rw [hnone, hlines]; rfl, hline⟩
        · rw [isMessageLine_append_space U hspace ha] at hmessage
          obtain ⟨line, lines, hlines, hline⟩ := ih a (by simp at hn; omega) hmessage
          exact ⟨line, lines ++ textLines b, by rw [hlines]; rfl, hline⟩

/-- Inline ids are broken behind the message line only. -/
theorem isMessageLine_breakInline :
    ∀ (n : Nat) (text : PyStr), text.length ≤ n → isMessageLine U text = true →
      isMessageLine U (breakInline U text) = true := by
  intro n
  induction n with
  | zero =>
      intro text hn hmessage
      obtain rfl := List.length_eq_zero_iff.mp (Nat.le_zero.mp hn)
      exact hmessage
  | succ n ih =>
      intro text hn hmessage
      rcases breakInline_cases U text with
        ⟨-, hsame⟩ | ⟨u, w, v, -, rfl, hu, ⟨hw, hblanks⟩, hv, hbreak⟩
      · rwa [hsame]
      · rw [hbreak]
        by_cases hspaces : lstrip u = []
        · -- the first id is the one behind the break
          have hindent : ∀ c ∈ u ++ [lf], c.isSpace = true :=
            List.forall_mem_append.mpr ⟨(lstrip_eq_nil_iff u).mp hspaces, by decide⟩
          have hlength : v.length ≤ n := by
            have hpos := List.length_pos_iff.mpr hu
            simp only [List.length_append] at hn
            omega
          rw [← List.singleton_append, ← List.append_assoc,
            isMessageLine_spaces_append U hindent]
          exact ih v hlength (isMessageLine_of_startsAmq U hv)
        · rw [isMessageLine_append_space U (by decide) hspaces]
          cases w with
          | nil =>
              exact absurd rfl hw
          | cons c w =>
              rwa [List.append_assoc, List.cons_append, isMessageLine_append_space U
                (isSpace_of_isBlank (hblanks c (by simp))) hspaces] at hmessage

/-- A message line starts a row, whatever was read in front of it. -/
theorem parseLines_append_message
    {line : PyStr} (hline : isMessageLine U line = true) (before lines : List PyStr) :
    ∀ current, parseLines U current (before ++ line :: lines) =
      parseLines U current before ++ parseLines U none (line :: lines) := by
  induction before with
  | nil =>
      intro current
      rw [List.nil_append, parseLines_message U current hline, parseLines_message U none hline]
      rfl
  | cons first before ih =>
      intro current
      cases hfirst : isMessageLine U first with
      | true =>
          rw [List.cons_append, parseLines_message U current hfirst,
            parseLines_message U current hfirst, ih, List.append_assoc]
      | false =>
          cases current with
          | none =>
              simp only [List.cons_append, parseLines, hfirst]
              exact ih none
          | some attrs =>
              rw [List.cons_append, parseLines_attributes U attrs hfirst,
                parseLines_attributes U attrs hfirst, ih]

/--
**Replies do not bleed into one another**: when each of them starts with a message line, the
rows of the joined text are the rows of the replies, in their order.
-/
theorem replies_separate
    (response : Option (List ReplyField))
    (h : ∀ text ∈ replyTexts response, isMessageLine U text = true) :
    parseMqscReply U (escapedReplyText response) =
      (replyTexts response).flatMap (parseMqscReply U) := by
  rw [parseMqscReply_replyLines, escapedReplyText, replyLines_intercalate]
  generalize replyTexts response = texts at h
  induction texts using List.reverseRecOn with
  | nil =>
      rfl
  | append_singleton texts text ih =>
      have hmessage := isMessageLine_breakInline U _ text (Nat.le_refl _) (h text (by simp))
      obtain ⟨line, lines, htext, hline⟩ := textLines_message U _ _ (Nat.le_refl _) hmessage
      have hbefore := ih fun t ht => h t (by simp [ht])
      have hlines : replyLines U text = line :: lines := htext
      rw [List.flatMap_append, List.flatMap_append, List.flatMap_singleton,
        List.flatMap_singleton, hlines, parseLines_append_message U hline, hbefore,
        parseMqscReply_replyLines, hlines]

/-- A reply whose last value is not closed, and two that are indented. -/
def openReplies : Option (List ReplyField) :=
  some
    [ .single (.bytes ("AMQ8417I: Details.\n   CHANNEL(A) DESCR('it ".toList.map Char.toUInt8)),
      .missing,
      .list
        [ .other (lit " AMQ8417I: Details.\n   CHANNEL(B) "),
          .other (lit "  CSQM201I !MQ1 DETAILS") ] ]

theorem replies_separate_open :
    parseMqscReply UnicodeData.basic (escapedReplyText openReplies) =
      (replyTexts openReplies).flatMap (parseMqscReply UnicodeData.basic) :=
  replies_separate UnicodeData.basic openReplies (by decide +kernel)

end Separation

end Mqsc
end MqSentinel
