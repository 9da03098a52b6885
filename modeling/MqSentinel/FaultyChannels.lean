import MqSentinel.ReportedRows

/-!
# Faulty channel rows

The filter of the channel matcher passes over the healthy rows; a row that it keeps is
faulty.  The branches behind the filter are for the reason codes 2035, 2009 and 2059, for
channels in doubt and for bad states.  A sound row with another reason code is kept and
then falls through all of them, and these are the only rows that are lost.
-/

namespace MqSentinel
namespace Rcs
namespace Channels

/-- A number of elements that is not smaller leaves none out. -/
theorem imp_of_countP_le
    {α : Type} {p q : α → Bool} {xs : List α}
    (hqp : ∀ x ∈ xs, q x = true → p x = true) (hle : xs.countP p ≤ xs.countP q) :
    ∀ x ∈ xs, p x = true → q x = true := by
  induction xs with
  | nil =>
      simp
  | cons x xs ih =>
      rw [List.forall_mem_cons] at hqp ⊢
      have hrest : xs.countP q ≤ xs.countP p :=
        List.countP_mono_left hqp.2
      rw [List.countP_cons, List.countP_cons] at hle
      cases hp : p x with
      | false =>
          rw [hp] at hle hqp
          have hq : q x = false := by simpa using hqp.1
          rw [hq] at hle
          exact ⟨by simp, ih hqp.2 (by simpa using hle)⟩
      | true =>
          cases hq : q x with
          | true =>
              rw [hp, hq] at hle
              exact ⟨fun _ => rfl, ih hqp.2 (by simpa using hle)⟩
          | false =>
              simp only [hp, hq, Bool.false_eq_true, ↓reduceIte] at hle
              omega

section Rows

variable (U : UnicodeData)

/-- A row that the filter keeps. -/
def Faulty (row : Row) : Prop :=
  badChstatusStatus U (channelStatus row) = true ∨ channelReason U row ≠ 0 ∨
    inDoubt U row = true

instance (row : Row) : Decidable (Faulty U row) :=
  inferInstanceAs (Decidable (_ ∨ _ ∨ _))

/-- A row with a reason code that no branch is for, and in a state that none is for. -/
def Unanswered (row : Row) : Prop :=
  channelReason U row ∉ [0, 2035, 2009, 2059] ∧
    badChstatusStatus U (channelStatus row) = false ∧ inDoubt U row = false

/-- The rows that are reported are the faulty ones that a branch is for. -/
theorem reported_iff (row : Row) :
    Reported U row ↔ Faulty U row ∧ ¬ Unanswered U row := by
  unfold Reported Faulty Unanswered
  simp only [List.mem_cons, List.not_mem_nil, or_false, not_or]
  cases badChstatusStatus U (channelStatus row) with
  | true =>
      simp
  | false =>
      cases inDoubt U row with
      | true =>
          simp
      | false =>
          simp only [Bool.false_eq_true, or_false, false_or, and_self, and_true]
          omega

/-- A finding is about a channel: the title and the evidence name it. -/
def NamesChannel (f : RCSFinding) (name : PyStr) : Prop :=
  name <:+: f.issue ∧ (lit "channel", name) ∈ f.evidence

variable (registry : KCRegistry) (mqVersion : Option PyStr)

variable {registry mqVersion} in
theorem namesChannel_of_rowFinding
    {row : Row} {f : RCSFinding} (h : rowFinding U registry mqVersion row = some f) :
    NamesChannel f (channelName row) := by
  rcases rowFinding_cases h with rfl | rfl | ⟨-, rfl⟩ | rfl
  · exact ⟨⟨_, _, rfl⟩, by simp [finding2035]⟩
  · refine ⟨⟨lit "Channel ", lit " connection error (reason " ++
      PyInt.toStr (channelReason U row) ++ lit ")", ?_⟩, by simp [findingConnError]⟩
    simp [findingConnError]
  · exact ⟨⟨_, _, rfl⟩, by simp [findingIndoubt]⟩
  · refine ⟨⟨lit "Channel ", lit " status is " ++ channelStatus row, ?_⟩,
      by simp [findingGenericBadStatus]⟩
    simp [findingGenericBadStatus]

/-- What is said of a row: something about its channel when it is faulty, else nothing. -/
structure Answers (row : Row) (part : List RCSFinding) : Prop where
  faulty : Faulty U row → ∃ f ∈ part, NamesChannel f (channelName row)
  healthy : ¬ Faulty U row → part = []

/--
No faulty row is dropped: the findings of a run, without those for the log, can be dealt
out to the rows so that each faulty row gets one that names its channel and each healthy
row none.
-/
def RowsCovered (order : SetOrder) (raw : RawData) : Prop :=
  ∃ parts : List (List RCSFinding),
    matchChannelFailures U registry mqVersion order raw =
      parts.flatten ++ matchChannelFailures U registry mqVersion order { raw with channels := [] } ∧
    List.Forall₂ (Answers U) raw.channels parts

variable {U} in
/-- There are at least as many findings as faulty rows. -/
theorem countP_faulty_le
    {rows : List Row} {parts : List (List RCSFinding)}
    (h : List.Forall₂ (Answers U) rows parts) :
    rows.countP (fun row => decide (Faulty U row)) ≤ parts.flatten.length := by
  induction h with
  | nil =>
      simp
  | @cons row part rows parts hrow _ ih =>
      rw [List.flatten_cons, List.length_append]
      by_cases hfaulty : Faulty U row
      · obtain ⟨f, hf, -⟩ := hrow.faulty hfaulty
        have hpart : 0 < part.length := List.length_pos_of_mem hf
        rw [List.countP_cons_of_pos (by simpa using hfaulty)]
        omega
      · rw [List.countP_cons_of_neg (by simpa using hfaulty)]
        omega

variable {registry mqVersion} in
theorem reported_of_covered
    {order : SetOrder} {raw : RawData} (h : RowsCovered U registry mqVersion order raw) :
    ∀ row ∈ raw.channels, Faulty U row → Reported U row := by
  obtain ⟨parts, hsplit, hparts⟩ := h
  have hfindings : raw.channels.filterMap (rowFinding U registry mqVersion) = parts.flatten := by
    simpa [matchChannelFailures] using hsplit
  have hsome : ∀ row, (rowFinding U registry mqVersion row).isSome = true ↔ Reported U row := by
    intro row
    rw [← not_iff_not, ← rowFinding_eq_none_iff U registry mqVersion row]
    simp
  have hcount := countP_faulty_le hparts
  rw [← hfindings, List.length_filterMap_eq_countP] at hcount
  intro row hrow hfaulty
  refine (hsome row).mp (imp_of_countP_le ?_ hcount row hrow (by simpa using hfaulty))
  intro other _ hother
  simpa using ((reported_iff U other).mp ((hsome other).mp hother)).1

/--
For every list of channel rows: each faulty row yields a finding that names its channel and
each healthy row none exactly when no row is in a sound state with a reason code other than
0, 2035, 2009 and 2059.
-/
theorem rows_covered_iff (order : SetOrder) (raw : RawData) :
    RowsCovered U registry mqVersion order raw ↔
      ∀ row ∈ raw.channels, ¬ Unanswered U row := by
  constructor
  · intro hcovered row hrow hunanswered
    have hfaulty : Faulty U row := by
      refine Or.inr (Or.inl fun hzero => hunanswered.1 ?_)
      simp [hzero]
    have hreported := reported_of_covered U hcovered row hrow hfaulty
    exact ((reported_iff U row).mp hreported).2 hunanswered
  · intro hanswered
    refine ⟨raw.channels.map fun row => (rowFinding U registry mqVersion row).toList, ?_, ?_⟩
    · rw [← List.flatMap_def, ← List.filterMap_eq_flatMap_toList]
      simp [matchChannelFailures]
    · rw [List.forall₂_map_right_iff, List.forall₂_same]
      intro row hrow
      constructor
      · intro hfaulty
        have hreported := (reported_iff U row).mpr ⟨hfaulty, hanswered row hrow⟩
        cases hfinding : rowFinding U registry mqVersion row with
        | none =>
            exact absurd hreported ((rowFinding_eq_none_iff U registry mqVersion row).mp hfinding)
        | some f =>
            exact ⟨f, by simp, namesChannel_of_rowFinding U hfinding⟩
      · intro hhealthy
        have hquiet : ¬ Reported U row :=
          fun hreported => hhealthy ((reported_iff U row).mp hreported).1
        rw [(rowFinding_eq_none_iff U registry mqVersion row).mpr hquiet]
        rfl

/-- A running channel whose last message says that an object is unknown. -/
def unknownObjectRow : Row :=
  OrderedDict.ofList
    [(lit "CHANNEL", .str (lit "APP.SVRCONN")), (lit "STATUS", .str (lit "RUNNING")),
      (lit "REASON", .int 2085)]

/-- Nothing is said of that channel. -/
theorem unknown_object_dropped :
    ¬ ∀ registry mqVersion order,
      RowsCovered UnicodeData.basic registry mqVersion order ⟨[unknownObjectRow], []⟩ := by
  intro h
  have hreason : channelReason UnicodeData.basic unknownObjectRow = 2085 := by
    decide +kernel
  have hfaulty : Faulty UnicodeData.basic unknownObjectRow := by
    refine Or.inr (Or.inl ?_)
    rw [hreason]
    decide
  have hreported := reported_of_covered UnicodeData.basic
    (h ⟨OrderedDict.empty, OrderedDict.empty, OrderedDict.empty⟩ none
      ⟨List.dedup, fun _ => .refl _⟩)
    unknownObjectRow (by simp) hfaulty
  have hunanswered : Unanswered UnicodeData.basic unknownObjectRow := by
    unfold Unanswered
    rw [hreason]
    decide +kernel
  exact ((reported_iff UnicodeData.basic unknownObjectRow).mp hreported).2 hunanswered

end Rows

end Channels
end Rcs
end MqSentinel
