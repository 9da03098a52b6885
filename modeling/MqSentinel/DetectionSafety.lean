import MqSentinel.TopologyDetection

/-!
# Detection that raises

The queries of the detector are guarded, and its flags are searches in texts.  What is left
is the arithmetic on the version: eight characters for which `isdigit` holds are read in
pairs by `int()`, which wants decimal digits.  A superscript is a digit but no decimal one.
-/

namespace MqSentinel

open CodePoint

section Numerals

variable (U : UnicodeData)

/-- A numeral consists of decimal digits and underscores. -/
theorem PyInt.decimal_of_digitsFrom
    {w : PyStr} {b : Bool} (h : (digitsFrom U b w).isSome = true) :
    ∀ c ∈ w, U.isdecimal c = true ∨ c = ch '_' := by
  induction w generalizing b with
  | nil =>
      simp
  | cons c w ih =>
      rw [digitsFrom] at h
      rw [List.forall_mem_cons]
      split_ifs at h with hdecimal hline
      · rw [Option.isSome_map] at h
        exact ⟨Or.inl hdecimal, ih h⟩
      · exact ⟨Or.inr hline.1, ih h⟩
      · cases h

/-- Of letters and digits `int()` reads the decimal digits only. -/
theorem PyInt.isSome_ofStr_iff_of_alnum
    {w : PyStr} (hne : w ≠ []) (halnum : ∀ c ∈ w, U.isalnum c = true)
    (hlen : w.length ≤ maxStrDigits) :
    (ofStr U w).isSome = true ↔ ∀ c ∈ w, U.isdecimal c = true := by
  have hascii : ∀ c : CodePoint, c.isAscii = true → c.isAlnumAscii = false → c ∉ w := by
    intro c hc hnot hmem
    have hyes := halnum c hmem
    rw [U.isalnum_ascii c hc, hnot] at hyes
    cases hyes
  have hmargin : ∀ c ∈ w, isMargin c = false := by
    intro c hc
    have hspace : c.isSpace = false := by
      by_contra hspace
      have hno := U.isalnum_space c (by simpa using hspace)
      rw [halnum c hc] at hno
      cases hno
    simp [isMargin, hspace]
  constructor
  · intro h
    have hfront : w.dropWhile isMargin = w := by
      refine List.dropWhile_eq_self_iff.mpr fun hpos => ?_
      simp [hmargin _ (List.getElem_mem hpos)]
    have hback : w.rdropWhile isMargin = w := by
      refine List.rdropWhile_eq_self_iff.mpr fun hne => ?_
      simp [hmargin _ (List.getLast_mem hne)]
    rw [ofStr, hfront, hback] at h
    cases w with
    | nil =>
        exact absurd rfl hne
    | cons c w =>
        have hminus : c ≠ ch '-' := by
          rintro rfl
          exact hascii (ch '-') (by decide) (by decide) List.mem_cons_self
        have hplus : c ≠ ch '+' := by
          rintro rfl
          exact hascii (ch '+') (by decide) (by decide) List.mem_cons_self
        simp only [hminus, hplus, if_false, Option.isSome_map] at h
        have hdigits : (digitsFrom U false (c :: w)).isSome = true := by
          rw [digits] at h
          cases hread : digitsFrom U false (c :: w) with
          | none =>
              rw [hread] at h
              cases h
          | some ds =>
              rfl
        intro d hd
        refine (decimal_of_digitsFrom U hdigits d hd).resolve_right ?_
        rintro rfl
        exact hascii _ (by decide) (by decide) hd
  · intro h
    exact (isSome_ofStr_iff U h hne).mpr hlen

end Numerals

namespace Detect

open Miqm

section Version

variable (U : UnicodeData) {isdigit : CodePoint → Bool}

/-- A version of eight digits, all of them decimal. -/
def DecimalVersion (isdigit : CodePoint → Bool) (v : PyStr) : Prop :=
  v.length = 8 → (∀ c ∈ v, isdigit c = true) → ∀ c ∈ v, U.isdecimal c = true

theorem isOk_versionField_iff (v : PyStr) (i : Nat) :
    (∃ field, versionField U v i = .ok field) ↔
      (PyInt.ofStr U ((v.drop i).take 2)).isSome = true := by
  unfold versionField
  cases PyInt.ofStr U ((v.drop i).take 2) with
  | none =>
      simp
  | some n =>
      simp

theorem isOk_mapM_iff
    {α β ε : Type} {f : α → Except ε β} {xs : List α} :
    (∃ ys, xs.mapM f = .ok ys) ↔ ∀ x ∈ xs, ∃ y, f x = .ok y := by
  induction xs with
  | nil =>
      simp [pure, Except.pure]
  | cons x xs ih =>
      rw [List.forall_mem_cons, ← ih, List.mapM_cons]
      cases f x with
      | error e =>
          simp [bind, Except.bind]
      | ok y =>
          cases xs.mapM f with
          | error e =>
              simp [bind, Except.bind]
          | ok ys =>
              simp [bind, Except.bind, pure, Except.pure]

/-- Eight characters are four pairs. -/
theorem forall_mem_pairs_iff
    {v : PyStr} (hlen : v.length = 8) {p : CodePoint → Prop} :
    (∀ i ∈ [0, 2, 4, 6], ∀ c ∈ (v.drop i).take 2, p c) ↔ ∀ c ∈ v, p c := by
  have hlast : (v.drop 6).take 2 = v.drop 6 :=
    List.take_of_length_le (by simp [hlen])
  have hsplit : v = v.take 2 ++ ((v.drop 2).take 2 ++ ((v.drop 4).take 2 ++ v.drop 6)) := by
    rw [show v.drop 6 = (v.drop 4).drop 2 by rw [List.drop_drop], List.take_append_drop,
      show v.drop 4 = (v.drop 2).drop 2 by rw [List.drop_drop], List.take_append_drop,
      List.take_append_drop]
  conv_rhs => rw [hsplit]
  simp [hlast, or_imp, forall_and]

/-- The version is normalised unless a digit of it is no decimal one. -/
theorem isOk_normalizeMqVersion_iff
    (hdigit : ∀ c, isdigit c = true → U.isalnum c = true) (v : PyStr) :
    (∃ version, normalizeMqVersion U isdigit (some v) = .ok version) ↔
      DecimalVersion U isdigit v := by
  unfold DecimalVersion normalizeMqVersion
  dsimp only
  split_ifs with hv
  · obtain ⟨hlen, hall⟩ := hv
    have hdigits : ∀ c ∈ v, isdigit c = true := List.all_eq_true.mp hall
    have hpair : ∀ i ∈ [0, 2, 4, 6],
        ((∃ field, versionField U v i = .ok field) ↔
          ∀ c ∈ (v.drop i).take 2, U.isdecimal c = true) := by
      intro i hi
      rw [isOk_versionField_iff]
      refine PyInt.isSome_ofStr_iff_of_alnum U ?_ ?_ ?_
      · have hpos : 0 < ((v.drop i).take 2).length := by
          rw [List.length_take, List.length_drop, hlen]
          simp only [List.mem_cons, List.not_mem_nil, or_false] at hi
          omega
        exact List.ne_nil_of_length_pos hpos
      · intro c hc
        exact hdigit c (hdigits c (List.mem_of_mem_drop (List.mem_of_mem_take hc)))
      · exact (List.length_take_le _ _).trans (by decide)
    have hfields : (∃ fields, [0, 2, 4, 6].mapM (versionField U v) = .ok fields) ↔
        ∀ c ∈ v, U.isdecimal c = true := by
      rw [isOk_mapM_iff, ← forall_mem_pairs_iff hlen]
      exact forall₂_congr hpair
    have hcond : (v.length = 8 → (∀ c ∈ v, isdigit c = true) →
        ∀ c ∈ v, U.isdecimal c = true) ↔ ∀ c ∈ v, U.isdecimal c = true :=
      ⟨fun h => h hlen hdigits, fun h _ _ => h⟩
    rw [hcond, ← hfields]
    cases [0, 2, 4, 6].mapM (versionField U v) with
    | error e =>
        simp [bind, Except.bind]
    | ok fields =>
        simp [bind, Except.bind, pure, Except.pure]
  · simp only [Except.ok.injEq, exists_eq', true_iff]
    intro hlen hdigits
    exact absurd ⟨hlen, List.all_eq_true.mpr hdigits⟩ hv

/-- The version that the queue manager reports. -/
def reportedVersion (connector : Connector) : Option PyStr :=
  safeAttr connector "DISPLAY QMGR VERSION" "VERSION"

/-- Behind the version nothing raises. -/
theorem isOk_detect_iff (connector : Connector) :
    (∃ fp, detect U isdigit connector = .ok fp) ↔
      ∃ version, normalizeMqVersion U isdigit (reportedVersion connector) = .ok version := by
  rw [detect, reportedVersion]
  cases normalizeMqVersion U isdigit (safeAttr connector "DISPLAY QMGR VERSION" "VERSION") with
  | error e =>
      simp [bind, Except.bind]
  | ok version =>
      simp [bind, Except.bind, pure, Except.pure]

/--
For every connector: the detection returns a fingerprint exactly when the version in the
reply, if there is one, is not of eight digits of which one is no decimal digit.
-/
theorem detect_returns_iff
    (hdigit : ∀ c, isdigit c = true → U.isalnum c = true) (connector : Connector) :
    (∃ fp, detect U isdigit connector = .ok fp) ↔
      ∀ v, reportedVersion connector = some v → DecimalVersion U isdigit v := by
  rw [isOk_detect_iff]
  cases reportedVersion connector with
  | none =>
      simp [normalizeMqVersion]
  | some v =>
      rw [isOk_normalizeMqVersion_iff U hdigit]
      simp

end Version

section Samples

/-- A queue manager with this version, that answers nothing else. -/
def versionHost (version : PyStr) : Connector where
  executeMqsc command :=
    if command = lit "DISPLAY QMGR VERSION" then
      .ok { rows := [OrderedDict.ofList [(lit "VERSION", .str version)]], raw := [] }
    else .error (lit "MQConnectionError")
  browseDlq _ _ := .error (lit "NotImplementedError")
  executeShell _ := .error (lit "NotImplementedError")

/-- `²`, a digit that is no decimal one. -/
def superscriptTwo : CodePoint := ⟨0xB2, by decide⟩

/-- `str.isdigit` on ASCII and the superscript. -/
def isDigitSample (c : CodePoint) : Bool :=
  c.isDigitAscii || c == superscriptTwo

theorem detect_returns_plain :
    (∃ fp, detect UnicodeData.basic isDigitAscii (versionHost (lit "09040000")) = .ok fp) ∧
      reportedVersion (versionHost (lit "09040000")) = some (lit "09040000") := by
  have hversion : reportedVersion (versionHost (lit "09040000")) = some (lit "09040000") := by
    decide +kernel
  refine ⟨(detect_returns_iff UnicodeData.basic ?_ _).mpr ?_, hversion⟩
  · intro c hc
    exact UnicodeData.basic.isdecimal_isalnum c hc
  · intro v hv _ hdigits
    exact hdigits

/-- A superscript in the version ends the detection. -/
theorem superscript_ends_detection :
    ¬ ∃ fp, detect UnicodeData.basic isDigitSample
      (versionHost (lit "0904000" ++ [superscriptTwo])) = .ok fp := by
  rw [isOk_detect_iff]
  rintro ⟨version, hversion⟩
  revert hversion
  have herror : normalizeMqVersion UnicodeData.basic isDigitSample
      (reportedVersion (versionHost (lit "0904000" ++ [superscriptTwo]))) =
        .error (lit "ValueError") := by
    decide +kernel
  rw [herror]
  simp

end Samples

end Detect
end MqSentinel
