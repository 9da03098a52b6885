import MqSentinel.DlqHeaderProjection

/-!
# The layout of an MQDLH

`encodeDlh` writes the twelve fields of a dead-letter header in the order and
widths of `cmqc.h`, 172 bytes in all.  `encodeDlh_layout` reads every field back
from its own offset, so the layout loses nothing and `readLayout` is a decoder for it.

`parseDlhSafely` is no such decoder.  It asks for `MQDLH` in front, and the
structure identifier of a dead-letter header is `DLH` followed by a blank, so
every encoded header is turned away.
-/

namespace MqSentinel
namespace Dlq

open PyBytes CodePoint

/-- An `MQLONG`. -/
abbrev MQLong := BitVec 32

/-- The four bytes of an `MQLONG`, most significant first. -/
def longBytes (v : MQLong) : PyBytes :=
  [ UInt8.ofNat (v.toNat / 2 ^ 24), UInt8.ofNat (v.toNat / 2 ^ 16),
    UInt8.ofNat (v.toNat / 2 ^ 8), UInt8.ofNat v.toNat ]

/-- An ASCII text of at most `width` characters that ends in neither a blank nor a NUL. -/
structure CharField (width : Nat) where
  bytes : PyBytes
  fits : bytes.length ≤ width
  ascii : ∀ b ∈ bytes, b.toNat < 0x80
  trimmed : rstripBlankNul bytes = bytes

namespace CharField

variable {width : Nat}

/-- The field as a string. -/
def text (f : CharField width) : PyStr :=
  f.bytes.map fun b => codePoint b.toNat

/-- The field in its place in the header, padded with blanks. -/
def padded (f : CharField width) : PyBytes :=
  f.bytes ++ List.replicate (width - f.bytes.length) 0x20

theorem length_padded (f : CharField width) :
    f.padded.length = width := by
  have := f.fits
  simp only [padded, List.length_append, List.length_replicate]
  omega

end CharField

/-- The contents of an MQDLH.  The date and the time fill their fields. -/
structure DlhFields where
  version : MQLong
  reason : MQLong
  destQName : CharField 48
  destQMgrName : CharField 48
  encoding : MQLong
  codedCharSetId : MQLong
  format : CharField 8
  putApplType : MQLong
  putApplName : CharField 28
  putDate : CharField 8
  putTime : CharField 8
  date_full : putDate.bytes.length = 8
  time_full : putTime.bytes.length = 8

/-- `StrucId`: `DLH` and a blank. -/
def strucId : PyBytes := [0x44, 0x4C, 0x48, 0x20]

/-- The 172 bytes of an MQDLH, big-endian and padded with blanks. -/
def encodeDlh (f : DlhFields) : PyBytes :=
  strucId ++ longBytes f.version ++ longBytes f.reason ++
    f.destQName.padded ++ f.destQMgrName.padded ++
    longBytes f.encoding ++ longBytes f.codedCharSetId ++ f.format.padded ++
    longBytes f.putApplType ++ f.putApplName.padded ++
    f.putDate.padded ++ f.putTime.padded

/-- The parsed header has the fields that were encoded, and the length of the body. -/
def DecodesTo (parsed : Option DLQHeader) (f : DlhFields) (body : PyBytes) : Prop :=
  ∃ h, parsed = some h ∧
    h.reasonCode = f.reason.toInt ∧
    h.destQName = f.destQName.text ∧
    h.destQMgrName = f.destQMgrName.text ∧
    h.putApplicationType = lit (toString f.putApplType.toInt) ∧
    h.putApplicationName = f.putApplName.text ∧
    h.putDate = f.putDate.text ∧
    h.putTime = f.putTime.text ∧
    h.bodyLength = body.length

theorem length_longBytes (v : MQLong) :
    (longBytes v).length = 4 := by
  simp [longBytes]

theorem length_encodeDlh (f : DlhFields) :
    (encodeDlh f).length = headerLength := by
  simp [encodeDlh, strucId, headerLength, length_longBytes, CharField.length_padded]

/-- A number is read back from its four bytes. -/
theorem toIntBig_longBytes (v : MQLong) :
    toIntBig (longBytes v) = v.toInt := by
  have hv := v.isLt
  have hnat : toNatBig (longBytes v) = v.toNat := by
    simp only [toNatBig, longBytes, List.foldl_cons, List.foldl_nil, UInt8.toNat_ofNat']
    omega
  rw [toIntBig, hnat, length_longBytes, BitVec.toInt_eq_toNat_cond]
  norm_num

/-- ASCII bytes are decoded one by one. -/
theorem decodeReplace_ascii
    (bs : PyBytes) (h : ∀ b ∈ bs, b.toNat < 0x80) :
    decodeReplace bs = bs.map fun b => codePoint b.toNat := by
  induction bs using List.reverseRecOn with
  | nil =>
      rfl
  | append_singleton bs b ih =>
      have hb : b.toNat < 0x80 := h b (by simp)
      have hbs : ∀ c ∈ bs, c.toNat < 0x80 := fun c hc => h c (by simp [hc])
      rw [decodeReplace_snoc_ascii hb, ih hbs]
      simp

/-- The padding is stripped again. -/
theorem rstripBlankNul_pad (bs : PyBytes) (n : Nat) :
    rstripBlankNul (bs ++ List.replicate n 0x20) = rstripBlankNul bs := by
  induction n with
  | zero =>
      simp
  | succ n ih =>
      rw [List.replicate_succ', ← List.append_assoc, ← ih]
      exact List.rdropWhile_concat_pos _ _ _ (by decide)

/-- A name field is read back from its place. -/
theorem nameField_padded
    {width : Nat} (f : CharField width) :
    nameField f.padded = f.text := by
  rw [nameField, CharField.padded, rstripBlankNul_pad, f.trimmed,
    decodeReplace_ascii f.bytes f.ascii, CharField.text]

/-- A slice that starts behind the first piece is a slice of the rest. -/
theorem slice_skip
    {front back : PyBytes} {i j : Nat}
    (hi : front.length ≤ i) :
    slice (front ++ back) i j = slice back (i - front.length) (j - front.length) := by
  unfold slice
  by_cases hj : front.length ≤ j
  · rw [List.take_append, List.take_of_length_le hj, List.drop_append,
      List.drop_eq_nil_of_le hi, List.nil_append]
  · have htake : ((front ++ back).take j).length ≤ i := by
      simp only [List.length_take]
      omega
    rw [List.drop_eq_nil_of_le htake, show j - front.length = 0 by omega]
    simp

/-- The first piece is the slice of its length. -/
theorem slice_front
    {front back : PyBytes} {j : Nat}
    (hj : front.length = j) :
    slice (front ++ back) 0 j = front := by
  subst hj
  simp [slice]

/-- Every field of an encoded header stands at its own offset. -/
theorem encodeDlh_layout (f : DlhFields) (body : PyBytes) :
    let raw := encodeDlh f ++ body
    toIntBig (slice raw 8 12) = f.reason.toInt ∧
      nameField (slice raw 12 60) = f.destQName.text ∧
      nameField (slice raw 60 108) = f.destQMgrName.text ∧
      toIntBig (slice raw 124 128) = f.putApplType.toInt ∧
      nameField (slice raw 128 156) = f.putApplName.text ∧
      nameField (slice raw 156 164) = f.putDate.text ∧
      nameField (slice raw 164 172) = f.putTime.text ∧
      raw.length - headerLength = body.length := by
  intro raw
  have hid : strucId.length = 4 := by
    simp [strucId]
  refine ⟨?_, ?_, ?_, ?_, ?_, ?_, ?_, ?_⟩
  case refine_8 =>
    simp [raw, length_encodeDlh]
  all_goals
    simp (disch := simp [hid, length_longBytes, CharField.length_padded]) only
      [raw, encodeDlh, List.append_assoc, slice_skip, slice_front, hid,
        length_longBytes, CharField.length_padded, Nat.reduceSub,
        toIntBig_longBytes, nameField_padded]

/-- The header by the offsets of the layout. -/
def readLayout (raw : PyBytes) : DLQHeader where
  reasonCode := toIntBig (slice raw 8 12)
  feedback := 0
  putApplicationName := nameField (slice raw 128 156)
  putApplicationType := lit (toString (toIntBig (slice raw 124 128)))
  putDate := nameField (slice raw 156 164)
  putTime := nameField (slice raw 164 172)
  destQName := nameField (slice raw 12 60)
  destQMgrName := nameField (slice raw 60 108)
  backoutCount := 0
  bodyLength := raw.length - headerLength
  msgIdHash := []

/-- Reading by the layout undoes encoding. -/
theorem readLayout_encodeDlh (f : DlhFields) (body : PyBytes) :
    DecodesTo (some (readLayout (encodeDlh f ++ body))) f body := by
  have hlayout := encodeDlh_layout f body
  dsimp only at hlayout
  generalize encodeDlh f ++ body = raw at hlayout ⊢
  obtain ⟨hreason, hqueue, hmanager, htype, hname, hdate, htime, hbody⟩ := hlayout
  exact ⟨_, rfl, hreason, hqueue, hmanager, by rw [readLayout, htype], hname, hdate, htime, hbody⟩

/-- No encoded header begins with the magic that the connector asks for. -/
theorem not_magic_encodeDlh (f : DlhFields) (body : PyBytes) :
    ¬ magic <+: encodeDlh f ++ body := by
  simp [magic, encodeDlh, strucId, List.cons_prefix_cons]

/-- The connector parses no encoded header at all. -/
theorem parse_encodeDlh
    (sha256hex : PyBytes → PyStr) (md : MessageDescriptor)
    (f : DlhFields) (body : PyBytes) :
    parseDlhSafely sha256hex (encodeDlh f ++ body) md = none := by
  simp [parseDlhSafely, not_magic_encodeDlh]

/--
The layout has a decoder, and the connector's is none: its decoding undoes encoding for no
header and no body.
-/
theorem decoding_never_undoes_encoding
    (sha256hex : PyBytes → PyStr) (md : MessageDescriptor) :
    (∃ decode : PyBytes → Option DLQHeader,
      ∀ f body, DecodesTo (decode (encodeDlh f ++ body)) f body) ∧
    ∀ f body, ¬ DecodesTo (parseDlhSafely sha256hex (encodeDlh f ++ body) md) f body := by
  refine ⟨⟨fun raw => some (readLayout raw), readLayout_encodeDlh⟩, ?_⟩
  rintro f body ⟨h, hparsed, -⟩
  rw [parse_encodeDlh] at hparsed
  cases hparsed

/-- A message of the queue `Q1` of `QM1`, put at noon with reason 2085. -/
def sampleFields : DlhFields where
  version := 1
  reason := 2085
  destQName := ⟨[0x51, 0x31], by decide, by simp, by decide⟩
  destQMgrName := ⟨[0x51, 0x4D, 0x31], by decide, by simp, by decide⟩
  encoding := 273
  codedCharSetId := 819
  format := ⟨[], by decide, by simp, by decide⟩
  putApplType := 28
  putApplName := ⟨[0x61, 0x70, 0x70], by decide, by simp, by decide⟩
  putDate := ⟨[0x32, 0x30, 0x32, 0x34, 0x30, 0x31, 0x30, 0x31], by decide, by simp, by decide⟩
  putTime := ⟨[0x31, 0x32, 0x30, 0x30, 0x30, 0x30, 0x30, 0x31], by decide, by simp, by decide⟩
  date_full := rfl
  time_full := rfl

/-- Its encoding with a body of one byte is parsed to nothing. -/
theorem sample_header_not_decoded :
    ¬ DecodesTo (parseDlhSafely (fun _ => []) (encodeDlh sampleFields ++ [0x41]) {})
      sampleFields [0x41] := by
  rintro ⟨h, hparsed, -⟩
  have hnone : parseDlhSafely (fun _ => []) (encodeDlh sampleFields ++ [0x41]) {} = none :=
    parse_encodeDlh _ _ _ _
  rw [hnone] at hparsed
  cases hparsed

end Dlq
end MqSentinel
