import MqSentinel.PyBytes
import MqSentinel.Inventory

/-!
# Dead-letter headers of the live connector

`parseDlhSafely` turns the front of a browsed message into a `DLQHeader`, and
`browseDlq` runs it over the queue.  What reads a message is a pure function of
its bytes and descriptor, so the secrecy of message bodies is a statement about
two runs: messages that agree on length and on the 172 bytes of the header must
give the same header.

All fields but one are slices of the first 172 bytes.  `dest_q_mgr_name` is
read from bytes 156 to 204 of the whole buffer, so a message of 204 bytes or more
shows 32 bytes of its body, and these are exactly the messages that do.
-/

namespace MqSentinel
namespace Dlq

open PyBytes CodePoint

/-- The attributes of a message descriptor that are read; `none` is an absent attribute. -/
structure MessageDescriptor where
  msgId : Option PyBytes := none
  backoutCount : Option Int := none
deriving DecidableEq

/-- The safe projection of a dead-letter header. -/
structure DLQHeader where
  reasonCode : Int
  feedback : Int
  putApplicationName : PyStr
  putApplicationType : PyStr
  putDate : PyStr
  putTime : PyStr
  destQName : PyStr
  destQMgrName : PyStr
  backoutCount : Int
  bodyLength : Nat
  msgIdHash : PyStr
  encoding : Option PyStr := none
  codedCharSetId : Option PyStr := none
deriving DecidableEq

structure BrowseResult where
  queueName : PyStr
  qmName : PyStr
  sampleSize : Nat
  queueDepth : Int
  headers : List DLQHeader
deriving DecidableEq

/-- `b"MQDLH"`, which the connector expects in front. -/
def magic : PyBytes := [0x4D, 0x51, 0x44, 0x4C, 0x48]

/-- The length of the MQDLH. -/
def headerLength : Nat := 172

/-- A name field: trailing blanks and NULs are dropped, the rest is decoded. -/
def nameField (b : PyBytes) : PyStr :=
  decodeReplace (rstripBlankNul b)

/-- The field that is taken from the whole buffer when it is long enough. -/
def destQMgrNameField (raw : PyBytes) : PyStr :=
  if 204 ≤ raw.length then nameField (slice raw 156 204) else []

section Connector

variable (sha256hex : PyBytes → PyStr)

/-- `PymqiConnector._parse_dlh_safely`. -/
def parseDlhSafely (raw : PyBytes) (md : MessageDescriptor) : Option DLQHeader :=
  if raw = [] ∨ raw.length < headerLength ∨ ¬ magic <+: raw then none
  else
    let view := raw.take headerLength
    some
      { reasonCode := toIntBig (slice view 12 16)
        feedback := toIntBig (slice view 16 20)
        putApplicationType := lit (toString (toIntBig (slice view 60 64)))
        putApplicationName := nameField (slice view 64 92)
        putDate := nameField (slice view 92 100)
        putTime := nameField (slice view 100 108)
        destQName := nameField (slice view 108 156)
        destQMgrName := destQMgrNameField raw
        backoutCount := md.backoutCount.getD 0
        bodyLength := raw.length - headerLength
        msgIdHash := sha256hex (md.msgId.getD []) }

/-- What one `queue.get` does. -/
inductive GetOutcome where
  | message (raw : PyBytes) (md : MessageDescriptor)
  | mqmiError (reason : Int)
  | otherError
deriving DecidableEq

/--
The queue as pymqi presents it.  `gets` lists what the successive calls of `get`
do; after them the queue is at its end.  `depth` is `none` when the inquiry or
its conversion to an integer raises.
-/
structure QueueHandle where
  opens : Bool := true
  depth : Option Int := none
  gets : List GetOutcome := []
  closes : Bool := true

/-- What `browse_dlq` raises. -/
inductive BrowseError where
  /-- `MQConnectionError("not connected")` -/
  | notConnected
  /-- `ValueError("max_messages must be in [1, 500]")` -/
  | badMaxMessages
  /-- `MQConnectionError(f"DLQ browse failed (reason {reason})")` -/
  | browseFailedReason (reason : Int)
  /-- `MQConnectionError(f"DLQ browse failed for {queue_name!r}")` -/
  | browseFailedFor (queueName : PyStr)
deriving DecidableEq

/-- What `browse_dlq` reads of the connector. -/
structure PymqiConnector where
  connected : Bool
  entry : Option QMEntry

/-- `MQRC_NO_MSG_AVAILABLE` -/
def noMsgAvailable : Int := 2033

/-- The loop over `max_messages` calls of `get`. -/
def browseLoop (queueName : PyStr) :
    Nat → List GetOutcome → List DLQHeader → Except BrowseError (List DLQHeader)
  | 0, _, headers => .ok headers
  | _ + 1, [], headers => .ok headers
  | _ + 1, .mqmiError reason :: _, headers =>
      if reason = noMsgAvailable then .ok headers
      else .error (.browseFailedReason reason)
  | _ + 1, .otherError :: _, _ => .error (.browseFailedFor queueName)
  | n + 1, .message raw md :: rest, headers =>
      browseLoop queueName n rest (headers ++ (parseDlhSafely sha256hex raw md).toList)

/-- `PymqiConnector.browse_dlq`. -/
def browseDlq (c : PymqiConnector) (q : QueueHandle) (queueName : PyStr)
    (maxMessages : Int) : Except BrowseError BrowseResult :=
  if ¬ c.connected then .error .notConnected
  else if maxMessages < 1 ∨ maxMessages > 500 then .error .badMaxMessages
  else if ¬ q.opens then .error (.browseFailedFor queueName)
  else
    match browseLoop sha256hex queueName maxMessages.toNat q.gets [] with
    | .error e => .error e
    | .ok headers =>
        if ¬ q.closes then .error (.browseFailedFor queueName)
        else
          .ok
            { queueName := queueName
              qmName := (c.entry.map QMEntry.qmName).getD []
              sampleSize := headers.length
              queueDepth := q.depth.getD 0
              headers := headers }

end Connector

/-- Equal length, and equal on the header. -/
def AgreeOnHeader (raw raw' : PyBytes) : Prop :=
  raw.length = raw'.length ∧ raw.take headerLength = raw'.take headerLength

/-- A message whose body reaches the parsed header. -/
def Exposed (raw : PyBytes) : Prop :=
  204 ≤ raw.length ∧ magic <+: raw

/--
Equal length, and equal on all that is parsed: the header, and behind it the rest of the
manager's name if the message shows it.
-/
structure AgreeOnExposed (raw raw' : PyBytes) : Prop where
  header : AgreeOnHeader raw raw'
  name : Exposed raw → slice raw headerLength 204 = slice raw' headerLength 204

/-- Outcomes that agree up to the bodies of messages. -/
def AgreeOnGet : GetOutcome → GetOutcome → Prop
  | .message raw md, .message raw' md' => md = md' ∧ AgreeOnHeader raw raw'
  | o, o' => o = o'

/-- Queues that agree up to the bodies of their messages. -/
def AgreeOnQueue (q q' : QueueHandle) : Prop :=
  q.opens = q'.opens ∧ q.depth = q'.depth ∧ q.closes = q'.closes ∧
    List.Forall₂ AgreeOnGet q.gets q'.gets

/-- The messages that the loop reads, when no call fails. -/
def readMessages : Nat → List GetOutcome → Option (List (PyBytes × MessageDescriptor))
  | 0, _ => some []
  | _ + 1, [] => some []
  | _ + 1, .mqmiError reason :: _ => if reason = noMsgAvailable then some [] else none
  | _ + 1, .otherError :: _ => none
  | n + 1, .message raw md :: rest => (readMessages n rest).map ((raw, md) :: ·)

/-- Nothing in the environment makes the browse fail. -/
def Browsable (c : PymqiConnector) (q : QueueHandle) (maxMessages : Int) : Prop :=
  c.connected = true ∧ 1 ≤ maxMessages ∧ maxMessages ≤ 500 ∧
    q.opens = true ∧ q.closes = true

section Agreement

variable {raw raw' : PyBytes}

theorem AgreeOnGet.refl (o : GetOutcome) : AgreeOnGet o o := by
  cases o <;> simp [AgreeOnGet, AgreeOnHeader]

/-- Outcomes without a message agree only with themselves. -/
theorem eq_of_agreeOnGet
    {o o' : GetOutcome}
    (ho : ∀ raw md, o ≠ .message raw md) (h : AgreeOnGet o o') :
    o = o' := by
  cases o with
  | message raw md =>
      exact absurd rfl (ho raw md)
  | mqmiError reason =>
      exact h
  | otherError =>
      exact h

/-- The magic stands inside the header. -/
theorem AgreeOnHeader.magic_iff
    (h : AgreeOnHeader raw raw') :
    magic <+: raw ↔ magic <+: raw' := by
  have hfront : ∀ r : PyBytes, magic <+: r ↔ magic <+: r.take headerLength := by
    intro r
    rw [List.prefix_take_iff]
    simp [magic, headerLength]
  rw [hfront raw, hfront raw', h.2]

/-- Only the manager name can tell two agreeing messages apart. -/
theorem parse_eq_of_agree
    (sha256hex : PyBytes → PyStr) (md : MessageDescriptor)
    (h : AgreeOnHeader raw raw')
    (hname : destQMgrNameField raw = destQMgrNameField raw') :
    parseDlhSafely sha256hex raw md = parseDlhSafely sha256hex raw' md := by
  have hnil : raw = [] ↔ raw' = [] := by
    rw [← List.length_eq_zero_iff, ← List.length_eq_zero_iff, h.1]
  unfold parseDlhSafely
  simp only [hnil, h.1, h.2, h.magic_iff, hname]

/-- What is parsed of a message with the magic and a whole header. -/
theorem destQMgrName_of_parse
    (sha256hex : PyBytes → PyStr) (md : MessageDescriptor)
    (hlen : headerLength ≤ raw.length) (hmagic : magic <+: raw) :
    (parseDlhSafely sha256hex raw md).map DLQHeader.destQMgrName =
      some (destQMgrNameField raw) := by
  have hne : raw ≠ [] := by
    rintro rfl
    simp [headerLength] at hlen
  have hguard : ¬ (raw = [] ∨ raw.length < headerLength ∨ ¬ magic <+: raw) := by
    rintro (h | h | h)
    · exact hne h
    · omega
    · exact h hmagic
  simp [parseDlhSafely, hguard]

/-- A message without exposed bytes has the empty manager name or no header. -/
theorem parse_eq_of_not_exposed
    (sha256hex : PyBytes → PyStr) (md : MessageDescriptor)
    (h : AgreeOnHeader raw raw') (hraw : ¬ Exposed raw) :
    parseDlhSafely sha256hex raw md = parseDlhSafely sha256hex raw' md := by
  by_cases hlen : 204 ≤ raw.length
  · have hmagic : ¬ magic <+: raw := fun hm => hraw ⟨hlen, hm⟩
    have hmagic' : ¬ magic <+: raw' := fun hm => hmagic (h.magic_iff.mpr hm)
    simp [parseDlhSafely, hmagic, hmagic']
  · apply parse_eq_of_agree sha256hex md h
    have hlen' : ¬ 204 ≤ raw'.length := by
      rw [← h.1]
      exact hlen
    simp [destQMgrNameField, hlen, hlen']

/-- The manager's name lies in the header and in the bytes behind it. -/
theorem slice_name
    (raw : PyBytes) :
    slice raw 156 204 = (raw.take headerLength).drop 156 ++ slice raw headerLength 204 := by
  have hhead : raw.take headerLength = (raw.take 204).take headerLength := by
    rw [List.take_take]
    rfl
  rw [hhead, slice, slice]
  generalize raw.take 204 = front
  calc
    front.drop 156 = (front.drop 156).take 16 ++ (front.drop 156).drop 16 :=
      (List.take_append_drop 16 _).symm
    _ = (front.take headerLength).drop 156 ++ front.drop headerLength := by
      rw [List.drop_take, List.drop_drop]
      rfl

/-- Messages that agree on what is exposed give the same header. -/
theorem AgreeOnExposed.parse_eq
    (sha256hex : PyBytes → PyStr) (md : MessageDescriptor)
    (h : AgreeOnExposed raw raw') :
    parseDlhSafely sha256hex raw md = parseDlhSafely sha256hex raw' md := by
  by_cases hraw : Exposed raw
  · have hname : slice raw 156 204 = slice raw' 156 204 := by
      rw [slice_name, slice_name, h.header.2, h.name hraw]
    apply parse_eq_of_agree sha256hex md h.header
    rw [destQMgrNameField, destQMgrNameField, h.header.1, hname]
  · exact parse_eq_of_not_exposed sha256hex md h.header hraw

/-- The message with its body overwritten by copies of one byte. -/
def withBody (raw : PyBytes) (b : UInt8) : PyBytes :=
  raw.take headerLength ++ List.replicate (raw.length - headerLength) b

theorem agree_withBody
    (hlen : headerLength ≤ raw.length) (b : UInt8) :
    AgreeOnHeader raw (withBody raw b) := by
  constructor
  · simp only [withBody, List.length_append, List.length_take, List.length_replicate]
    omega
  · simp [withBody, hlen]

/-- The manager name of such a message ends in the byte of its body. -/
theorem destQMgrNameField_withBody
    (hlen : 204 ≤ raw.length) {b : UInt8}
    (hascii : b.toNat < 0x80) (hblank : b ≠ 0x20) (hnul : b ≠ 0x00) :
    ∃ s, destQMgrNameField (withBody raw b) = s ++ [codePoint b.toNat] := by
  have hfront : (raw.take headerLength).length = headerLength := by
    simp only [List.length_take, headerLength]
    omega
  have htotal : (withBody raw b).length = raw.length := by
    have hhead : headerLength ≤ raw.length := by
      simp only [headerLength]
      omega
    exact (agree_withBody hhead b).1.symm
  have hslice : slice (withBody raw b) 156 204 =
      ((raw.take headerLength).drop 156 ++ List.replicate 31 b) ++ [b] := by
    have hbody : (List.replicate (raw.length - headerLength) b).take 32 =
        List.replicate 31 b ++ [b] := by
      rw [List.take_replicate, Nat.min_eq_left (by simp only [headerLength]; omega)]
      rfl
    unfold slice withBody
    rw [List.take_append, hfront]
    simp only [headerLength, Nat.reduceSub]
    rw [show raw.length - 172 = raw.length - headerLength from rfl, hbody,
      List.take_of_length_le (by simp), List.drop_append]
    simp only [List.length_take]
    rw [show 156 - min 172 raw.length = 0 by omega]
    simp
  refine ⟨decodeReplace ((raw.take headerLength).drop 156 ++ List.replicate 31 b), ?_⟩
  rw [destQMgrNameField, if_pos (by omega), hslice, nameField,
    rstripBlankNul_snoc hblank hnul, decodeReplace_snoc_ascii hascii]

/-- An exposed message has a companion that parses to another header. -/
theorem exists_agree_parse_ne
    (sha256hex : PyBytes → PyStr) (md : MessageDescriptor)
    (hraw : Exposed raw) :
    ∃ raw', AgreeOnHeader raw raw' ∧
      parseDlhSafely sha256hex raw' md ≠ parseDlhSafely sha256hex raw md := by
  obtain ⟨hlen, hmagic⟩ := hraw
  have hhead : headerLength ≤ raw.length := by
    simp only [headerLength]
    omega
  have hname : ∀ b : UInt8, (parseDlhSafely sha256hex (withBody raw b) md).map
      DLQHeader.destQMgrName = some (destQMgrNameField (withBody raw b)) := by
    intro b
    have hagree := agree_withBody hhead b
    exact destQMgrName_of_parse sha256hex md (by rw [← hagree.1]; exact hhead)
      (hagree.magic_iff.mp hmagic)
  obtain ⟨s, hs⟩ := destQMgrNameField_withBody hlen (b := 0x41)
    (by decide) (by decide) (by decide)
  obtain ⟨t, ht⟩ := destQMgrNameField_withBody hlen (b := 0x42)
    (by decide) (by decide) (by decide)
  by_contra hall
  push Not at hall
  have hA := hall _ (agree_withBody hhead 0x41)
  have hB := hall _ (agree_withBody hhead 0x42)
  have hsame := (hname 0x41).symm.trans
    ((congrArg _ (hA.trans hB.symm)).trans (hname 0x42))
  rw [hs, ht, Option.some.injEq] at hsame
  have hlast := (List.append_inj' hsame rfl).2
  exact absurd hlast (by decide)

/-- **A message keeps its body to itself exactly when it is not exposed.** -/
theorem parse_ignores_body_iff
    (sha256hex : PyBytes → PyStr) (raw : PyBytes) (md : MessageDescriptor) :
    (∀ raw', AgreeOnHeader raw raw' →
        parseDlhSafely sha256hex raw' md = parseDlhSafely sha256hex raw md)
      ↔ ¬ Exposed raw := by
  constructor
  · intro hall hraw
    obtain ⟨raw', hagree, hne⟩ := exists_agree_parse_ne sha256hex md hraw
    exact hne (hall raw' hagree)
  · intro hraw raw' hagree
    exact (parse_eq_of_not_exposed sha256hex md hagree hraw).symm

end Agreement

section Browse

variable (sha256hex : PyBytes → PyStr)

/-- The headers of the messages read. -/
def headersOf (ms : List (PyBytes × MessageDescriptor)) : List DLQHeader :=
  ms.filterMap fun m => parseDlhSafely sha256hex m.1 m.2

/-- A loop that reads `ms` collects the headers of `ms`. -/
theorem browseLoop_of_readMessages
    (queueName : PyStr) :
    ∀ (n : Nat) (gets : List GetOutcome) (ms : List (PyBytes × MessageDescriptor))
      (headers : List DLQHeader),
      readMessages n gets = some ms →
      browseLoop sha256hex queueName n gets headers =
        .ok (headers ++ headersOf sha256hex ms)
  | 0, gets, ms, headers, h => by
      obtain rfl : [] = ms := by simpa [readMessages] using h
      simp [browseLoop, headersOf]
  | n + 1, [], ms, headers, h => by
      obtain rfl : [] = ms := by simpa [readMessages] using h
      simp [browseLoop, headersOf]
  | n + 1, .mqmiError reason :: _, ms, headers, h => by
      by_cases hr : reason = noMsgAvailable
      · obtain rfl : [] = ms := by simpa [readMessages, hr] using h
        simp [browseLoop, hr, headersOf]
      · simp [readMessages, hr] at h
  | n + 1, .otherError :: _, ms, headers, h => by
      simp [readMessages] at h
  | n + 1, .message raw md :: rest, ms, headers, h => by
      obtain ⟨ms', hms', rfl⟩ := Option.map_eq_some_iff.mp h
      rw [browseLoop, browseLoop_of_readMessages queueName n rest ms' _ hms']
      cases hp : parseDlhSafely sha256hex raw md <;> simp [headersOf, hp]

/-- A loop that fails does so whatever the bodies are. -/
theorem browseLoop_of_not_readMessages
    (queueName : PyStr) :
    ∀ (n : Nat) (gets gets' : List GetOutcome) (headers headers' : List DLQHeader),
      readMessages n gets = none →
      List.Forall₂ AgreeOnGet gets gets' →
      ∃ e, browseLoop sha256hex queueName n gets headers = .error e ∧
        browseLoop sha256hex queueName n gets' headers' = .error e
  | 0, gets, gets', headers, headers', h, hagree => by
      simp [readMessages] at h
  | n + 1, _, _, headers, headers', h, .nil => by
      simp [readMessages] at h
  | n + 1, .mqmiError reason :: _, o :: _, headers, headers', h, .cons ho _ => by
      obtain rfl := eq_of_agreeOnGet (by simp) ho
      by_cases hr : reason = noMsgAvailable
      · simp [readMessages, hr] at h
      · exact ⟨.browseFailedReason reason, by simp [browseLoop, hr],
          by simp [browseLoop, hr]⟩
  | n + 1, .otherError :: _, o :: _, headers, headers', h, .cons ho _ => by
      obtain rfl := eq_of_agreeOnGet (by simp) ho
      exact ⟨.browseFailedFor queueName, by simp [browseLoop], by simp [browseLoop]⟩
  | n + 1, .message raw md :: rest, o :: rest', headers, headers', h, .cons ho hrest => by
      cases o with
      | message raw' md' =>
          have hn : readMessages n rest = none := by
            simpa [readMessages] using h
          simp only [browseLoop]
          exact browseLoop_of_not_readMessages queueName n rest rest' _ _ hn hrest
      | mqmiError reason =>
          simp [AgreeOnGet] at ho
      | otherError =>
          simp [AgreeOnGet] at ho

/-- Messages that agree up to their bodies. -/
def AgreeOnMessage (m m' : PyBytes × MessageDescriptor) : Prop :=
  m.2 = m'.2 ∧ AgreeOnHeader m.1 m'.1

theorem readMessages_of_agree :
    ∀ (n : Nat) (gets gets' : List GetOutcome) (ms : List (PyBytes × MessageDescriptor)),
      readMessages n gets = some ms →
      List.Forall₂ AgreeOnGet gets gets' →
      ∃ ms', readMessages n gets' = some ms' ∧ List.Forall₂ AgreeOnMessage ms ms'
  | 0, gets, gets', ms, h, _ => by
      obtain rfl : [] = ms := by simpa [readMessages] using h
      exact ⟨[], rfl, List.Forall₂.nil⟩
  | n + 1, _, _, ms, h, .nil => by
      obtain rfl : [] = ms := by simpa [readMessages] using h
      exact ⟨[], rfl, List.Forall₂.nil⟩
  | n + 1, .mqmiError reason :: _, o :: _, ms, h, .cons ho _ => by
      obtain rfl := eq_of_agreeOnGet (by simp) ho
      by_cases hr : reason = noMsgAvailable
      · obtain rfl : [] = ms := by simpa [readMessages, hr] using h
        exact ⟨[], by simp [readMessages, hr], List.Forall₂.nil⟩
      · simp [readMessages, hr] at h
  | n + 1, .otherError :: _, o :: _, ms, h, .cons _ _ => by
      simp [readMessages] at h
  | n + 1, .message raw md :: rest, o :: rest', ms, h, .cons ho hrest => by
      obtain ⟨ms₀, hms₀, rfl⟩ := Option.map_eq_some_iff.mp h
      obtain ⟨ms', hms', hagree⟩ := readMessages_of_agree n rest rest' ms₀ hms₀ hrest
      cases o with
      | message raw' md' =>
          exact ⟨(raw', md') :: ms', by simp [readMessages, hms'],
            List.Forall₂.cons ho hagree⟩
      | mqmiError reason =>
          simp [AgreeOnGet] at ho
      | otherError =>
          simp [AgreeOnGet] at ho

/-- Messages without exposed bodies give the same headers. -/
theorem headersOf_eq_of_agree
    {ms ms' : List (PyBytes × MessageDescriptor)}
    (hagree : List.Forall₂ AgreeOnMessage ms ms')
    (hms : ∀ m ∈ ms, ¬ Exposed m.1) :
    headersOf sha256hex ms' = headersOf sha256hex ms := by
  induction hagree with
  | nil =>
      rfl
  | @cons m m' ms ms' hm _ ih =>
      have hparse := parse_eq_of_not_exposed sha256hex m.2 hm.2 (hms m (by simp))
      have htail := ih fun x hx => hms x (List.mem_cons_of_mem _ hx)
      unfold headersOf at htail ⊢
      rw [List.filterMap_cons, List.filterMap_cons, htail, ← hm.1, hparse]

/-- One message of the queue can be replaced by an agreeing one. -/
theorem exists_replace_message
    {raw raw' : PyBytes} {md : MessageDescriptor}
    (hraw : AgreeOnHeader raw raw') :
    ∀ (n : Nat) (gets : List GetOutcome) (ms₁ ms₂ : List (PyBytes × MessageDescriptor)),
      readMessages n gets = some (ms₁ ++ (raw, md) :: ms₂) →
      ∃ gets', List.Forall₂ AgreeOnGet gets gets' ∧
        readMessages n gets' = some (ms₁ ++ (raw', md) :: ms₂)
  | 0, gets, ms₁, ms₂, h => by
      simp [readMessages] at h
  | n + 1, [], ms₁, ms₂, h => by
      simp [readMessages] at h
  | n + 1, .mqmiError reason :: _, ms₁, ms₂, h => by
      by_cases hr : reason = noMsgAvailable <;> simp [readMessages, hr] at h
  | n + 1, .otherError :: _, ms₁, ms₂, h => by
      simp [readMessages] at h
  | n + 1, .message r d :: rest, ms₁, ms₂, h => by
      obtain ⟨ms₀, hms₀, hcons⟩ := Option.map_eq_some_iff.mp h
      cases ms₁ with
      | nil =>
          simp only [List.nil_append, List.cons.injEq, Prod.mk.injEq] at hcons
          obtain ⟨⟨rfl, rfl⟩, rfl⟩ := hcons
          refine ⟨.message raw' d :: rest, List.Forall₂.cons ⟨rfl, hraw⟩ ?_, ?_⟩
          · exact List.forall₂_same.mpr fun o _ => AgreeOnGet.refl o
          · simp [readMessages, hms₀]
      | cons m ms₁ =>
          simp only [List.cons_append, List.cons.injEq] at hcons
          obtain ⟨rfl, rfl⟩ := hcons
          obtain ⟨gets', hagree, hread⟩ :=
            exists_replace_message hraw n rest ms₁ ms₂ hms₀
          exact ⟨.message r d :: gets', List.Forall₂.cons (AgreeOnGet.refl _) hagree,
            by simp [readMessages, hread]⟩

variable (c : PymqiConnector) (q : QueueHandle) (queueName : PyStr) (maxMessages : Int)

/-- A browse that nothing hinders returns the headers of what it reads. -/
theorem browseDlq_of_browsable
    {ms : List (PyBytes × MessageDescriptor)}
    (hb : Browsable c q maxMessages)
    (hms : readMessages maxMessages.toNat q.gets = some ms) :
    browseDlq sha256hex c q queueName maxMessages =
      .ok
        { queueName := queueName
          qmName := (c.entry.map QMEntry.qmName).getD []
          sampleSize := (headersOf sha256hex ms).length
          queueDepth := q.depth.getD 0
          headers := headersOf sha256hex ms } := by
  obtain ⟨hconn, hlo, hhi, hopen, hclose⟩ := hb
  have hrange : ¬ (maxMessages < 1 ∨ maxMessages > 500) := by omega
  simp [browseDlq, hconn, hrange, hopen, hclose,
    browseLoop_of_readMessages sha256hex queueName _ _ _ _ hms]

/-- A browse that the environment makes fail does so whatever the bodies are. -/
theorem browseDlq_of_hindered
    {q' : QueueHandle} (hagree : AgreeOnQueue q q')
    (hb : ¬ (Browsable c q maxMessages ∧
      ∃ ms, readMessages maxMessages.toNat q.gets = some ms)) :
    browseDlq sha256hex c q' queueName maxMessages =
      browseDlq sha256hex c q queueName maxMessages := by
  obtain ⟨hopen, hdepth, hclose, hgets⟩ := hagree
  unfold browseDlq
  by_cases hconn : c.connected = true
  · by_cases hrange : maxMessages < 1 ∨ maxMessages > 500
    · simp [hconn, hrange]
    · by_cases hop : q.opens = true
      · cases hread : readMessages maxMessages.toNat q.gets with
        | none =>
            obtain ⟨e, he, he'⟩ := browseLoop_of_not_readMessages sha256hex queueName
              maxMessages.toNat q.gets q'.gets [] [] hread hgets
            simp [hconn, hrange, ← hopen, hop, he, he']
        | some ms =>
            obtain ⟨ms', hread', _⟩ :=
              readMessages_of_agree maxMessages.toNat q.gets q'.gets ms hread hgets
            have hcl : q.closes = false := by
              by_contra hcl
              exact hb ⟨⟨hconn, by omega, by omega, hop, by simpa using hcl⟩, ms, hread⟩
            simp [hconn, hrange, ← hopen, hop, ← hclose, hcl,
              browseLoop_of_readMessages sha256hex queueName _ _ _ _ hread,
              browseLoop_of_readMessages sha256hex queueName _ _ _ _ hread']
      · simp [hconn, hrange, ← hopen, hop]
  · simp [hconn]

theorem browse_ignores_bodies_iff :
    (∀ q', AgreeOnQueue q q' →
        browseDlq sha256hex c q' queueName maxMessages =
          browseDlq sha256hex c q queueName maxMessages)
      ↔ (Browsable c q maxMessages →
          ∀ ms, readMessages maxMessages.toNat q.gets = some ms →
            ∀ m ∈ ms, ¬ Exposed m.1) := by
  constructor
  · intro hall hb ms hms m hm hexp
    obtain ⟨raw, md⟩ := m
    obtain ⟨ms₁, ms₂, rfl⟩ := List.append_of_mem hm
    obtain ⟨raw', hraw, hne⟩ := exists_agree_parse_ne sha256hex md hexp
    obtain ⟨gets', hgets, hms'⟩ :=
      exists_replace_message hraw maxMessages.toNat q.gets ms₁ ms₂ hms
    have hsame := hall { q with gets := gets' } ⟨rfl, rfl, rfl, hgets⟩
    rw [browseDlq_of_browsable sha256hex c q queueName maxMessages hb hms,
      browseDlq_of_browsable sha256hex c { q with gets := gets' } queueName maxMessages
        hb hms'] at hsame
    have hheaders : headersOf sha256hex (ms₁ ++ (raw', md) :: ms₂) =
        headersOf sha256hex (ms₁ ++ (raw, md) :: ms₂) := by
      injection hsame with hsame
      exact congrArg BrowseResult.headers hsame
    have hlen : raw.length = raw'.length := hraw.1
    have hsome : ∀ r : PyBytes, Exposed r →
        ∃ h, parseDlhSafely sha256hex r md = some h := by
      intro r hr
      have hhead : headerLength ≤ r.length := by
        have := hr.1
        simp only [headerLength]
        omega
      obtain ⟨h, hh, _⟩ := Option.map_eq_some_iff.mp
        (destQMgrName_of_parse sha256hex md hhead hr.2)
      exact ⟨h, hh⟩
    obtain ⟨h, hh⟩ := hsome raw hexp
    obtain ⟨h', hh'⟩ := hsome raw' ⟨hlen ▸ hexp.1, hraw.magic_iff.mp hexp.2⟩
    simp only [headersOf, List.filterMap_append, List.filterMap_cons, hh, hh',
      List.append_cancel_left_eq, List.cons.injEq, and_true] at hheaders
    exact hne (by rw [hh, hh', hheaders])
  · intro hsafe q' hagree
    by_cases hb : Browsable c q maxMessages ∧
        ∃ ms, readMessages maxMessages.toNat q.gets = some ms
    · obtain ⟨hb, ms, hms⟩ := hb
      obtain ⟨hopen, hdepth, hclose, hgets⟩ := hagree
      obtain ⟨ms', hms', hmsagree⟩ :=
        readMessages_of_agree maxMessages.toNat q.gets q'.gets ms hms hgets
      have hb' : Browsable c q' maxMessages := by
        obtain ⟨h₁, h₂, h₃, h₄, h₅⟩ := hb
        exact ⟨h₁, h₂, h₃, hopen ▸ h₄, hclose ▸ h₅⟩
      rw [browseDlq_of_browsable sha256hex c q queueName maxMessages hb hms,
        browseDlq_of_browsable sha256hex c q' queueName maxMessages hb' hms',
        headersOf_eq_of_agree sha256hex hmsagree (hsafe hb ms hms), hdepth]
    · exact browseDlq_of_hindered sha256hex c q queueName maxMessages hagree hb

end Browse

/--
**Bodies of dead-letter messages.**  A parsed header is independent of the body
exactly when the message is shorter than 204 bytes or lacks the magic, and a
browse is independent of all bodies exactly when this holds of every message it
reads.
-/
theorem bodies_hidden_iff_not_exposed
    (sha256hex : PyBytes → PyStr) :
    (∀ (raw : PyBytes) (md : MessageDescriptor),
      (∀ raw', AgreeOnHeader raw raw' →
          parseDlhSafely sha256hex raw' md = parseDlhSafely sha256hex raw md)
        ↔ ¬ Exposed raw) ∧
    (∀ (c : PymqiConnector) (q : QueueHandle) (queueName : PyStr) (maxMessages : Int),
      (∀ q', AgreeOnQueue q q' →
          browseDlq sha256hex c q' queueName maxMessages =
            browseDlq sha256hex c q queueName maxMessages)
        ↔ (Browsable c q maxMessages →
            ∀ ms, readMessages maxMessages.toNat q.gets = some ms →
              ∀ m ∈ ms, ¬ Exposed m.1)) :=
  ⟨parse_ignores_body_iff sha256hex, browse_ignores_bodies_iff sha256hex⟩

/-- A message of 204 bytes: magic, padding up to the header's end, 32 bytes of body. -/
def sampleMessage (body : UInt8) : PyBytes :=
  magic ++ List.replicate 167 0x20 ++ List.replicate 32 body

/-- `hashlib.sha256(b"").hexdigest()` -/
def sha256OfEmpty : PyStr :=
  lit "e3b0c44298fc1c149afbf4c8996fb92427ae41e4649b934ca495991b7852b855"

/-- Two messages that differ in their bodies only, and in their headers. -/
theorem body_reaches_destQMgrName :
    ¬ ∀ raw raw' : PyBytes, AgreeOnHeader raw raw' → ∀ md : MessageDescriptor,
      parseDlhSafely (fun _ => sha256OfEmpty) raw md =
        parseDlhSafely (fun _ => sha256OfEmpty) raw' md := by
  intro h
  have hagree : AgreeOnHeader (sampleMessage 0x41) (sampleMessage 0x42) := by
    unfold AgreeOnHeader
    decide +kernel
  have hname := congrArg (Option.map DLQHeader.destQMgrName) (h _ _ hagree {})
  rw [destQMgrName_of_parse _ _ (by decide +kernel) (by decide +kernel),
    destQMgrName_of_parse _ _ (by decide +kernel) (by decide +kernel)] at hname
  revert hname
  decide +kernel

end Dlq
end MqSentinel
