import MqSentinel.DlqMatcher
import MqSentinel.StableSort

/-!
# Dead-letter headers and their findings

`match_dlq_findings` groups the headers by reason code, sorts the groups and skips the
code zero; a second pass over the same headers looks for backout loops.  For headers
with integer codes and counts the findings account for every header: `Conserved` says
what each part of the list reports, and `dlq_findings_conserve` that the matcher
returns these parts in this order.
-/

namespace MqSentinel
namespace Rcs
namespace DeadLetter

/-- A header with an integer reason code and an integer backout count. -/
structure CodedHeader where
  row : Row
  reason : Int
  backout : Int
  reason_code : row.get? (lit "reason_code") = some (.int reason)
  backout_count : row.get? (lit "backout_count") = some (.int backout)

/-- A browse with such headers and a depth; its sample size is an integer or absent. -/
structure CodedBrowse where
  cells : Row
  headers : List CodedHeader
  depth : Int
  queue_depth : cells.get? (lit "queue_depth") = some (.int depth)
  sample_size : ∀ c, cells.get? (lit "sample_size") = some c → ∃ n, c = .int n

namespace CodedBrowse

/-- The argument of the matcher. -/
def browse (b : CodedBrowse) : BrowseDict where
  cells := b.cells
  headers := b.headers.map CodedHeader.row

/-- The number of headers with a reason code. -/
def countOf (b : CodedBrowse) (reason : Int) : Nat :=
  b.headers.countP fun h => h.reason = reason

/-- The number of headers that were backed out often. -/
def backouts (b : CodedBrowse) : Nat :=
  b.headers.countP fun h => h.backout ≥ backoutThreshold

end CodedBrowse

/-- The finding about the depth of the queue. -/
def ReportsDepth (depth : Int) (f : RCSFinding) : Prop :=
  (∃ name, f.issue = lit "Dead-letter queue " ++ name ++ lit " depth=" ++ PyInt.toStr depth) ∧
    (lit "queue_depth", PyInt.toStr depth) ∈ f.evidence

/-- The finding about `n` headers with a reason code. -/
def ReportsReason (reason : Int) (n : Nat) (f : RCSFinding) : Prop :=
  f.reasonCode = some reason ∧
    f.issue = lit "DLQ contains " ++ natStr n ++ lit " message(s) with reason " ++
      PyInt.toStr reason ∧
    (lit "count", natStr n) ∈ f.evidence

/-- The finding about `n` headers that were backed out often. -/
def ReportsBackouts (n : Nat) (f : RCSFinding) : Prop :=
  f.issue = lit "DLQ contains " ++ natStr n ++ lit " message(s) with backout_count >= " ++
      PyInt.toStr backoutThreshold ∧
    (lit "high_backout_count", natStr n) ∈ f.evidence

/-- The three parts of the findings account for the depth and for every header. -/
structure Conserved (b : CodedBrowse) (depthPart : List RCSFinding) (codes : List Int)
    (reasonPart backoutPart : List RCSFinding) : Prop where
  depth : if 0 < b.depth then ∃ f, depthPart = [f] ∧ ReportsDepth b.depth f else depthPart = []
  ascending : codes.Pairwise (· < ·)
  codes_iff : ∀ r, r ∈ codes ↔ r ≠ 0 ∧ ∃ h ∈ b.headers, h.reason = r
  reasons : List.Forall₂ (fun r f => ReportsReason r (b.countOf r) f) codes reasonPart
  total : (codes.map b.countOf).sum = b.headers.countP fun h => h.reason ≠ 0
  backout :
    if ∃ h ∈ b.headers, h.backout ≥ backoutThreshold then
      ∃ f, backoutPart = [f] ∧ ReportsBackouts b.backouts f
    else backoutPart = []

/-- The groups stand in strictly ascending order of their codes. -/
theorem pairwise_sortedGroups
    (keyed : List (Int × Row)) :
    ((sortedGroups keyed).map Prod.fst).Pairwise (· < ·) := by
  have hfst : (sortedGroups keyed).map Prod.fst =
      ((groupBy Prod.fst keyed).items.mergeSort fun p q => p.1 ≤ q.1).map Prod.fst := by
    simp [sortedGroups, Function.comp_def]
  have hnodup : (((groupBy Prod.fst keyed).items.mergeSort fun p q => p.1 ≤ q.1).map
      Prod.fst).Nodup :=
    (((groupBy Prod.fst keyed).items.mergeSort_perm _).map Prod.fst).nodup_iff.mpr
      (groupBy Prod.fst keyed).nodup
  have hsorted := StableSort.sorted_sortOn (fun p : Int × List (Int × Row) => p.1)
    (groupBy Prod.fst keyed).items
  rw [hfst]
  refine (List.pairwise_map.mpr hsorted).and hnodup |>.imp ?_
  rintro x y ⟨hle, hne⟩
  exact lt_of_le_of_ne hle hne

section Numbers

variable (U : UnicodeData)

theorem headerInt_reason (h : CodedHeader) :
    headerInt U "reason_code" h.row = some h.reason := by
  rw [headerInt, Row.getOr, h.reason_code]
  exact Cell.toInt_orElse_zero U h.reason

theorem headerInt_backout (h : CodedHeader) :
    headerInt U "backout_count" h.row = some h.backout := by
  rw [headerInt, Row.getOr, h.backout_count]
  exact Cell.toInt_orElse_zero U h.backout

theorem reasonOf_row (h : CodedHeader) :
    reasonOf U h.row = h.reason := by
  simp [reasonOf, headerInt_reason]

theorem backoutOf_row (h : CodedHeader) :
    backoutOf U h.row = h.backout := by
  simp [backoutOf, headerInt_backout]

namespace CodedBrowse

variable (b : CodedBrowse)

theorem queueDepth_browse :
    queueDepth U b.browse = some b.depth := by
  rw [queueDepth, Row.getOr, browse, b.queue_depth]
  exact Cell.toInt_orElse_zero U b.depth

theorem sampleSize_browse :
    (sampleSize U b.browse).isSome = true := by
  have hcell : ∃ n, b.cells.getOr "sample_size" (.int b.browse.headers.length) = .int n := by
    cases hget : b.cells.get? (lit "sample_size") with
    | none =>
        exact ⟨b.browse.headers.length, by simp [Row.getOr, hget]⟩
    | some c =>
        obtain ⟨n, rfl⟩ := b.sample_size c hget
        exact ⟨n, by simp [Row.getOr, hget]⟩
  obtain ⟨n, hn⟩ := hcell
  rw [sampleSize, show b.browse.cells = b.cells from rfl, hn, Cell.orElse]
  split_ifs
  · rfl
  · rfl

/-- The matcher can read every number of such a browse. -/
theorem readable : Readable U b.browse where
  depth := by rw [b.queueDepth_browse U, Option.isSome_some]
  sample := b.sampleSize_browse U
  reasons := by
    intro row hrow
    obtain ⟨h, -, rfl⟩ := List.mem_map.mp hrow
    rw [headerInt_reason, Option.isSome_some]
  backouts := by
    intro row hrow
    obtain ⟨h, -, rfl⟩ := List.mem_map.mp hrow
    rw [headerInt_backout, Option.isSome_some]

/-- As many rows as headers have a reason code. -/
theorem length_withReason
    (reason : Int) :
    (withReason U b.browse.headers reason).length = b.countOf reason := by
  rw [withReason, browse, List.filter_map, List.length_map, ← List.countP_eq_length_filter,
    countOf]
  refine List.countP_congr ?_
  intro h _
  simp [reasonOf_row]

/-- As many rows as headers were backed out often. -/
theorem length_highBackout :
    (b.browse.headers.filter fun row => backoutOf U row ≥ backoutThreshold).length =
      b.backouts := by
  rw [browse, List.filter_map, List.length_map, ← List.countP_eq_length_filter, backouts]
  refine List.countP_congr ?_
  intro h _
  simp [backoutOf_row]

/-- The groups of the matcher that give a finding. -/
def groups : List (Int × List Row) :=
  (sortedGroups (b.browse.headers.map fun row => (reasonOf U row, row))).filter
    fun p => p.1 ≠ 0

/-- The groups are the nonzero reason codes that occur, each with its rows. -/
theorem mem_groups_iff
    {reason : Int} {group : List Row} :
    (reason, group) ∈ b.groups U ↔
      reason ≠ 0 ∧ (∃ h ∈ b.headers, h.reason = reason) ∧
        group = withReason U b.browse.headers reason := by
  have hoccurs : (∃ row ∈ b.browse.headers, reasonOf U row = reason) ↔
      ∃ h ∈ b.headers, h.reason = reason := by
    simp [browse, reasonOf_row]
  rw [groups, List.mem_filter, mem_sortedGroups_iff, hoccurs]
  simp only [decide_eq_true_eq]
  tauto

/-- The codes of the groups. -/
theorem mem_codes_iff
    {reason : Int} :
    reason ∈ (b.groups U).map Prod.fst ↔ reason ≠ 0 ∧ ∃ h ∈ b.headers, h.reason = reason := by
  constructor
  · intro hmem
    obtain ⟨⟨r, group⟩, hgroup, rfl⟩ := List.mem_map.mp hmem
    exact ⟨((b.mem_groups_iff U).mp hgroup).1, ((b.mem_groups_iff U).mp hgroup).2.1⟩
  · rintro ⟨hne, hoccurs⟩
    exact List.mem_map_of_mem (f := Prod.fst) ((b.mem_groups_iff U).mpr ⟨hne, hoccurs, rfl⟩)

theorem pairwise_codes :
    ((b.groups U).map Prod.fst).Pairwise (· < ·) :=
  (pairwise_sortedGroups _).sublist (List.filter_sublist.map Prod.fst)

/-- The counts of the codes add up to the headers with a nonzero code. -/
theorem sum_countOf_codes :
    (((b.groups U).map Prod.fst).map b.countOf).sum = b.headers.countP fun h => h.reason ≠ 0 := by
  have hcount : ∀ r ∈ (b.groups U).map Prod.fst,
      b.countOf r = ((b.headers.filter fun h => h.reason ≠ 0).map CodedHeader.reason).count r := by
    intro r hr
    have hne : r ≠ 0 := ((b.mem_codes_iff U).mp hr).1
    rw [List.count, List.countP_map, List.countP_filter, countOf]
    refine List.countP_congr ?_
    intro h _
    simp only [decide_eq_true_eq, Function.comp_apply, beq_iff_eq, Bool.and_eq_true]
    exact ⟨fun heq => ⟨heq, heq ▸ hne⟩, And.left⟩
  have hnodup : ((b.groups U).map Prod.fst).Nodup := (b.pairwise_codes U).imp fun h => ne_of_lt h
  have hmem : ∀ r ∈ (b.headers.filter fun h => h.reason ≠ 0).map CodedHeader.reason,
      r ∈ (b.groups U).map Prod.fst := by
    intro r hr
    obtain ⟨h, hh, rfl⟩ := List.mem_map.mp hr
    obtain ⟨hin, hne⟩ := List.mem_filter.mp hh
    exact (b.mem_codes_iff U).mpr ⟨by simpa using hne, h, hin, rfl⟩
  rw [List.map_congr_left hcount, sum_count_of_nodup hnodup hmem, List.length_map,
    List.countP_eq_length_filter]

end CodedBrowse

end Numbers

section Findings

variable (U : UnicodeData) (registry : KCRegistry) (mqVersion : Option PyStr)

theorem reportsDepth_findingDlqDepth (name : PyStr) (depth sample : Int) :
    ReportsDepth depth (findingDlqDepth name depth sample) :=
  ⟨⟨name, rfl⟩, by simp [findingDlqDepth]⟩

theorem reportsReason_findingForReason (name : PyStr) (reason : Int) (group : List Row) :
    ReportsReason reason group.length
      (findingForReason registry mqVersion name reason group) :=
  ⟨rfl, rfl, by simp [findingForReason]⟩

theorem reportsBackouts_findingBackoutLoop (name : PyStr) (rows : List Row) :
    ReportsBackouts rows.length (findingBackoutLoop name rows) :=
  ⟨rfl, by simp [findingBackoutLoop]⟩

/-- Whatever the headers say, the findings are the depth, one finding for each nonzero
reason code with the number of its headers, and the backouts. -/
theorem dlq_findings_conserve
    (b : CodedBrowse) :
    ∃ depthPart codes reasonPart backoutPart,
      matchDlqFindings U registry mqVersion b.browse =
          some (depthPart ++ reasonPart ++ backoutPart) ∧
        Conserved b depthPart codes reasonPart backoutPart := by
  have hfindings := matchDlqFindings_of_readable U registry mqVersion (b.readable U)
  rw [b.queueDepth_browse U, Option.getD_some] at hfindings
  refine ⟨_, (b.groups U).map Prod.fst, _, _, hfindings, ?_⟩
  refine
    { depth := ?_
      ascending := b.pairwise_codes U
      codes_iff := fun r => b.mem_codes_iff U
      reasons := ?_
      total := b.sum_countOf_codes U
      backout := ?_ }
  · by_cases hdepth : 0 < b.depth
    · rw [if_pos hdepth, if_pos hdepth]
      exact ⟨_, rfl, reportsDepth_findingDlqDepth _ _ _⟩
    · rw [if_neg hdepth, if_neg hdepth]
  · rw [List.forall₂_map_left_iff, List.forall₂_map_right_iff]
    refine List.forall₂_same.mpr ?_
    rintro ⟨reason, group⟩ hgroup
    obtain ⟨-, -, rfl⟩ := (b.mem_groups_iff U).mp hgroup
    rw [← b.length_withReason U]
    exact reportsReason_findingForReason registry mqVersion _ _ _
  · by_cases hmany : ∃ h ∈ b.headers, h.backout ≥ backoutThreshold
    · have hne : b.browse.headers.filter (fun row => backoutOf U row ≥ backoutThreshold) ≠ [] := by
        obtain ⟨h, hh, hback⟩ := hmany
        refine List.ne_nil_of_mem (List.mem_filter.mpr ⟨List.mem_map_of_mem hh, ?_⟩)
        simpa [backoutOf_row] using hback
      rw [if_pos hmany, if_neg hne, ← b.length_highBackout U]
      exact ⟨_, rfl, reportsBackouts_findingBackoutLoop _ _⟩
    · have hnil : b.browse.headers.filter (fun row => backoutOf U row ≥ backoutThreshold) = [] := by
        rw [List.filter_eq_nil_iff]
        intro row hrow hback
        obtain ⟨h, hh, rfl⟩ := List.mem_map.mp hrow
        exact hmany ⟨h, hh, by simpa [backoutOf_row] using hback⟩
      rw [if_neg hmany, if_pos hnil]

/-- A header with a reason code and a backout count. -/
def sampleHeader (reason backout : Int) : CodedHeader where
  row := OrderedDict.ofList
    [(lit "reason_code", .int reason), (lit "backout_count", .int backout)]
  reason := reason
  backout := backout
  reason_code := OrderedDict.get?_ofList_of_mem (by simp [lit_injective.eq_iff]) (by simp)
  backout_count := OrderedDict.get?_ofList_of_mem (by simp [lit_injective.eq_iff]) (by simp)

/-- Three headers, two of them with one code and one that was backed out often. -/
def sampleBrowse : CodedBrowse where
  cells := OrderedDict.ofList [(lit "queue_depth", .int 3), (lit "sample_size", .int 3)]
  headers := [sampleHeader 2053 0, sampleHeader 2085 7, sampleHeader 2053 1]
  depth := 3
  queue_depth := OrderedDict.get?_ofList_of_mem (by simp [lit_injective.eq_iff]) (by simp)
  sample_size := by
    intro c hc
    have hsize : (OrderedDict.ofList [(lit "queue_depth", Cell.int 3),
        (lit "sample_size", .int 3)]).get? (lit "sample_size") = some (.int 3) :=
      OrderedDict.get?_ofList_of_mem (by simp [lit_injective.eq_iff]) (by simp)
    exact ⟨3, Option.some.inj (hc.symm.trans hsize)⟩

example :
    sampleBrowse.countOf 2053 = 2 ∧ sampleBrowse.countOf 2085 = 1 ∧ sampleBrowse.backouts = 1 := by
  decide

end Findings

end DeadLetter
end Rcs
end MqSentinel
