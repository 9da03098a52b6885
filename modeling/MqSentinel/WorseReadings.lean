import MqSentinel.DlqMatcher
import MqSentinel.ZosMatcher

/-!
# Worse readings

Two runs on inputs that differ in one number, which is worse in the second: is what is said
about the object in the second run at least as severe?

A number is read as it stands or from its decimal string, and it is printed into the
finding.  Three things can spoil the comparison: `int()` and `str()` refuse numbers of more
than 4300 digits, the integer 0 is false and gives way to an alternative key, and behind
that to a default.
-/

namespace MqSentinel

namespace Rcs

/-- `str(n)` does not raise. -/
def Printable (n : Int) : Prop :=
  n.natAbs < 10 ^ PyInt.maxStrDigits

instance (n : Int) : Decidable (Printable n) :=
  inferInstanceAs (Decidable (_ < _))

/-- How bad a severity is. -/
def Severity.rank : Severity → Nat
  | critical => 4
  | high => 3
  | medium => 2
  | low => 1
  | info => 0

/-- What is said in front is answered by something at least as severe. -/
def NoMilder (before after : List RCSFinding) : Prop :=
  ∀ f ∈ before, ∃ g ∈ after, f.severity.rank ≤ g.severity.rank

/-- What is said stays as severe exactly under a condition, unless nothing was said. -/
def StaysIff (before after : List RCSFinding) (kept : Prop) : Prop :=
  NoMilder before after ↔ (before ≠ [] → kept)

/-- One finding or none, before and after. -/
theorem staysIff_of_ite
    {p q : Prop} [Decidable p] [Decidable q] {f g : RCSFinding} {kept : Prop}
    (h : p → (q ∧ f.severity.rank ≤ g.severity.rank ↔ kept)) :
    StaysIff (if p then [f] else []) (if q then [g] else []) kept := by
  unfold StaysIff
  by_cases hp : p
  · rw [← h hp]
    by_cases hq : q
    · simp [NoMilder, hp, hq]
    · simp [NoMilder, hp, hq]
  · simp [NoMilder, hp]

section Readings

/-- A cell that gives a number, as an integer or as its decimal string. -/
inductive Gives (n : Nat) : Cell → Prop
  | int : Gives n (.int n)
  | text : Gives n (.str (PyInt.toStr n))

/-- Two readings of one number, a low one and a high one. -/
structure Readings where
  low : Nat
  high : Nat
  lowCell : Cell
  highCell : Cell
  low_gives : Gives low lowCell
  high_gives : Gives high highCell
  lt : low < high

variable {n : Nat} {c : Cell}

theorem printable_natCast : Printable (n : Int) ↔ n < 10 ^ PyInt.maxStrDigits := by
  rw [Printable, Int.natAbs_natCast]

theorem printable_of_le {m : Nat} (h : m ≤ n) (hn : Printable (n : Int)) :
    Printable (m : Int) := by
  rw [printable_natCast] at hn ⊢
  exact h.trans_lt hn

/-- The number is read unless it is a string that is too long. -/
theorem Gives.toInt_eq (U : UnicodeData) (h : Gives n c) :
    c.toInt U = some (n : Int) ∧ (c = .int n ∨ Printable n) ∨
      c.toInt U = none ∧ c ≠ .int n ∧ ¬ Printable n := by
  cases h with
  | int =>
      exact Or.inl ⟨rfl, Or.inl rfl⟩
  | text =>
      rw [printable_natCast, Cell.toInt, PyInt.ofStr_toStr]
      split_ifs with hshort
      · exact Or.inl ⟨rfl, Or.inr hshort⟩
      · exact Or.inr ⟨rfl, by simp, hshort⟩

/-- Only the integer 0 is false. -/
theorem Gives.truthy_eq (h : Gives n c) :
    c.truthy = true ∧ c ≠ .int 0 ∨ c.truthy = false ∧ c = .int 0 ∧ n = 0 := by
  cases h with
  | int =>
      by_cases hzero : n = 0
      · subst hzero
        exact Or.inr ⟨rfl, rfl, rfl⟩
      · simp [Cell.truthy, hzero]
  | text =>
      have hne : PyInt.toStr n ≠ [] := by
        have hdigits : (Nat.repr n).toList ≠ [] := by
          simp
        exact fun h => hdigits (List.map_eq_nil_iff.mp h)
      simp [Cell.truthy, hne]

theorem Gives.truthy_of_pos (h : Gives n c) (hn : 0 < n) :
    c.truthy = true := by
  rcases h.truthy_eq with ⟨htruthy, -⟩ | ⟨-, -, hzero⟩
  · exact htruthy
  · omega

end Readings

section Zos

open Rcs.Zos

variable (U : UnicodeData) (registry : KCRegistry) (mqVersion : Option PyStr)

/-- The numbers in the findings can be printed. -/
def Zos.Prints (raw : Zos.RawData) : Prop :=
  (∀ ps ∈ raw.pagesets, pagesetHigh ≤ usePct U ps → Printable (usePct U ps)) ∧
    ∀ bp ∈ raw.bufferpools, freePct U bp < bufferpoolLowFreePct → Printable (freePct U bp)

instance (raw : Zos.RawData) : Decidable (Zos.Prints U raw) :=
  inferInstanceAs (Decidable (_ ∧ _))

/-- `match_zos_findings`; `none` is the `ValueError` of a number that is too long to print. -/
def Zos.report (raw : Zos.RawData) : Option (List RCSFinding) :=
  if Zos.Prints U raw then some (matchZosFindings U registry mqVersion raw) else none

/-- What a report says about one of the page sets. -/
def Zos.saidOfPageset (raw : Zos.RawData) (ps : Row) : List RCSFinding :=
  if Zos.Prints U raw then checkPagesets U registry mqVersion [ps] else []

/-- What a report says about one of the buffer pools. -/
def Zos.saidOfBufferpool (raw : Zos.RawData) (bp : Row) : List RCSFinding :=
  if Zos.Prints U raw then checkBufferpools U registry mqVersion [bp] else []

variable {U registry mqVersion} in
theorem Zos.mem_report_of_said
    {raw : Zos.RawData} {row : Row} {f : RCSFinding}
    (h : row ∈ raw.pagesets ∧ f ∈ Zos.saidOfPageset U registry mqVersion raw row ∨
      row ∈ raw.bufferpools ∧ f ∈ Zos.saidOfBufferpool U registry mqVersion raw row) :
    ∃ findings, Zos.report U registry mqVersion raw = some findings ∧ f ∈ findings := by
  by_cases hprints : Zos.Prints U raw
  · refine ⟨_, if_pos hprints, ?_⟩
    simp only [matchZosFindings, List.mem_append]
    rcases h with ⟨hrow, hf⟩ | ⟨hrow, hf⟩
    · rw [Zos.saidOfPageset, if_pos hprints] at hf
      obtain ⟨ps, hps, hfound⟩ := List.mem_filterMap.mp hf
      obtain rfl := List.mem_singleton.mp hps
      exact Or.inl (Or.inl (Or.inr (List.mem_filterMap.mpr ⟨_, hrow, hfound⟩)))
    · rw [Zos.saidOfBufferpool, if_pos hprints] at hf
      obtain ⟨bp, hbp, hfound⟩ := List.mem_filterMap.mp hf
      obtain rfl := List.mem_singleton.mp hbp
      exact Or.inl (Or.inr (List.mem_filterMap.mpr ⟨_, hrow, hfound⟩))
  · simp [Zos.saidOfPageset, Zos.saidOfBufferpool, hprints] at h

/-- The value at the other key of a page set. -/
def Zos.alternativeUse (ps : Row) : Int :=
  (((ps.get "use_pct").orElse (.int 0)).toInt U).getD 0

/-- The value at the other key of a buffer pool. -/
def Zos.alternativeFree (bp : Row) : Int :=
  (((bp.get "free_pct").orElse (.int 100)).toInt U).getD 100

variable (raw : Zos.RawData) (front back : List Row)

/-- The input with a page set between others. -/
def Zos.withPageset (ps : Row) : Zos.RawData :=
  { raw with pagesets := front ++ ps :: back }

/-- The input with a buffer pool between others. -/
def Zos.withBufferpool (bp : Row) : Zos.RawData :=
  { raw with bufferpools := front ++ bp :: back }

/-- What is said of a page set with a reading at a key. -/
def Zos.pagesetRun (key : String) (ps : Row) (c : Cell) : List RCSFinding :=
  Zos.saidOfPageset U registry mqVersion
    (Zos.withPageset raw front back (ps.set (lit key) c)) (ps.set (lit key) c)

/-- What is said of a buffer pool with a reading at a key. -/
def Zos.bufferpoolRun (key : String) (bp : Row) (c : Cell) : List RCSFinding :=
  Zos.saidOfBufferpool U registry mqVersion
    (Zos.withBufferpool raw front back (bp.set (lit key) c)) (bp.set (lit key) c)

theorem Zos.saidOfPageset_eq (ps : Row) :
    Zos.saidOfPageset U registry mqVersion (Zos.withPageset raw front back ps) ps =
      if Zos.Prints U { raw with pagesets := front ++ back } ∧ pagesetHigh ≤ usePct U ps ∧
          Printable (usePct U ps) then
        [findingPageset registry mqVersion (psid ps) (usePct U ps)]
      else [] := by
  have hprints : Zos.Prints U (Zos.withPageset raw front back ps) ↔
      Zos.Prints U { raw with pagesets := front ++ back } ∧
        (pagesetHigh ≤ usePct U ps → Printable (usePct U ps)) := by
    simp only [Zos.Prints, Zos.withPageset, List.forall_mem_append, List.forall_mem_cons]
    tauto
  rw [Zos.saidOfPageset, checkPagesets]
  by_cases hhigh : pagesetHigh ≤ usePct U ps
  · simp [hprints, hhigh, not_lt.mpr hhigh]
  · simp [hhigh, not_le.mp hhigh]

theorem Zos.saidOfBufferpool_eq (bp : Row) :
    Zos.saidOfBufferpool U registry mqVersion (Zos.withBufferpool raw front back bp) bp =
      if Zos.Prints U { raw with bufferpools := front ++ back } ∧
          freePct U bp < bufferpoolLowFreePct ∧ Printable (freePct U bp) then
        [findingBufferpool registry mqVersion (bpid bp) (freePct U bp)]
      else [] := by
  have hprints : Zos.Prints U (Zos.withBufferpool raw front back bp) ↔
      Zos.Prints U { raw with bufferpools := front ++ back } ∧
        (freePct U bp < bufferpoolLowFreePct → Printable (freePct U bp)) := by
    simp only [Zos.Prints, Zos.withBufferpool, List.forall_mem_append, List.forall_mem_cons]
    tauto
  rw [Zos.saidOfBufferpool, checkBufferpools]
  by_cases hlow : freePct U bp < bufferpoolLowFreePct
  · simp [hprints, hlow]
  · simp [hlow, not_lt.mp hlow]

theorem Zos.usePct_set_usepct (ps : Row) (c : Cell) :
    usePct U (ps.set (lit "USEPCT") c) =
      if c.truthy then (c.toInt U).getD 0 else Zos.alternativeUse U ps := by
  have hother : Row.get (ps.set (lit "USEPCT") c) "use_pct" = ps.get "use_pct" :=
    Row.get_set_of_ne ps c (by decide)
  rw [usePct, Row.get_set_self, hother, Cell.toInt_orElse_orElse, Zos.alternativeUse]

theorem Zos.usePct_set_use_pct (ps : Row) (c : Cell) :
    usePct U (ps.set (lit "use_pct") c) =
      if (ps.get "USEPCT").truthy then ((ps.get "USEPCT").toInt U).getD 0
      else if c.truthy then (c.toInt U).getD 0 else 0 := by
  have hother : Row.get (ps.set (lit "use_pct") c) "USEPCT" = ps.get "USEPCT" :=
    Row.get_set_of_ne ps c (by decide)
  rw [usePct, Row.get_set_self, hother, Cell.toInt_orElse_orElse, Cell.toInt_orElse_int]

theorem Zos.freePct_set_freepct (bp : Row) (c : Cell) :
    freePct U (bp.set (lit "FREEPCT") c) =
      if c.truthy then (c.toInt U).getD 100 else Zos.alternativeFree U bp := by
  have hother : Row.get (bp.set (lit "FREEPCT") c) "free_pct" = bp.get "free_pct" :=
    Row.get_set_of_ne bp c (by decide)
  rw [freePct, Row.get_set_self, hother, Cell.toInt_orElse_orElse, Zos.alternativeFree]

theorem Zos.freePct_set_free_pct (bp : Row) (c : Cell) :
    freePct U (bp.set (lit "free_pct") c) =
      if (bp.get "FREEPCT").truthy then ((bp.get "FREEPCT").toInt U).getD 100
      else if c.truthy then (c.toInt U).getD 100 else 100 := by
  have hother : Row.get (bp.set (lit "free_pct") c) "FREEPCT" = bp.get "FREEPCT" :=
    Row.get_set_of_ne bp c (by decide)
  rw [freePct, Row.get_set_self, hother, Cell.toInt_orElse_orElse, Cell.toInt_orElse_int]

/-- A fuller page set is not rated lower. -/
theorem Zos.findingPageset_rank_le_iff {pct pct' : Int} (id id' : PyStr) :
    (findingPageset registry mqVersion id pct).severity.rank ≤
        (findingPageset registry mqVersion id' pct').severity.rank ↔
      (pagesetCritical ≤ pct → pagesetCritical ≤ pct') := by
  simp only [findingPageset, ge_iff_le]
  split_ifs with h h' h'
  · simp [h']
  · simp [h, h', Severity.rank]
  · simp [h, Severity.rank]
  · simp [h]

theorem Zos.usepct_law (r : Readings) (ps : Row) :
    StaysIff (Zos.pagesetRun U registry mqVersion raw front back "USEPCT" ps r.lowCell)
      (Zos.pagesetRun U registry mqVersion raw front back "USEPCT" ps r.highCell)
      (Printable r.high ∧ (r.lowCell = .int 0 → pagesetHigh ≤ r.high ∧
          (pagesetCritical ≤ Zos.alternativeUse U ps → pagesetCritical ≤ r.high))) := by
  rw [Zos.pagesetRun, Zos.pagesetRun, Zos.saidOfPageset_eq, Zos.saidOfPageset_eq]
  refine staysIff_of_ite ?_
  rintro ⟨hothers, hhigh, hprint⟩
  have hlt := r.lt
  have hafter : usePct U (ps.set (lit "USEPCT") r.highCell) = (r.highCell.toInt U).getD 0 := by
    rw [Zos.usePct_set_usepct, if_pos (r.high_gives.truthy_of_pos (by omega))]
  rw [Zos.findingPageset_rank_le_iff, hafter, and_iff_right hothers]
  rcases r.high_gives.toInt_eq U with ⟨hint, -⟩ | ⟨hnone, -, hlong⟩
  · rw [hint, Option.getD_some]
    rcases r.low_gives.truthy_eq with ⟨htruthy, hne⟩ | ⟨hfalse, hzero, -⟩
    · rw [Zos.usePct_set_usepct, if_pos htruthy] at hhigh ⊢
      rcases r.low_gives.toInt_eq U with ⟨hlow, -⟩ | ⟨hlow, -⟩
      · rw [hlow, Option.getD_some] at hhigh ⊢
        have hstill : pagesetHigh ≤ r.high := by omega
        have hcritical : pagesetCritical ≤ r.low → pagesetCritical ≤ r.high := by omega
        simp only [hne, hstill, true_and, false_imp_iff, and_true, and_iff_left_iff_imp]
        exact fun _ => hcritical
      · rw [hlow] at hhigh
        exact absurd hhigh (by decide)
    · rw [Zos.usePct_set_usepct, if_neg (by simp [hfalse])]
      simp only [hzero, true_imp_iff]
      exact ⟨fun ⟨⟨h, hp⟩, hc⟩ => ⟨hp, h, hc⟩, fun ⟨hp, h, hc⟩ => ⟨⟨h, hp⟩, hc⟩⟩
  · rw [hnone]
    simp [hlong, pagesetHigh]

/-- The other key counts when there is nothing at the first. -/
theorem Zos.use_pct_law (r : Readings) (ps : Row) :
    StaysIff (Zos.pagesetRun U registry mqVersion raw front back "use_pct" ps r.lowCell)
      (Zos.pagesetRun U registry mqVersion raw front back "use_pct" ps r.highCell)
      ((ps.get "USEPCT").truthy = true ∨ Printable r.high) := by
  rw [Zos.pagesetRun, Zos.pagesetRun, Zos.saidOfPageset_eq, Zos.saidOfPageset_eq]
  refine staysIff_of_ite ?_
  rintro ⟨hothers, hhigh, hprint⟩
  have hlt := r.lt
  rw [Zos.findingPageset_rank_le_iff, and_iff_right hothers]
  rw [Zos.usePct_set_use_pct] at hhigh hprint ⊢
  rw [Zos.usePct_set_use_pct]
  by_cases hfirst : (ps.get "USEPCT").truthy = true
  · simp only [hfirst, if_true, true_or] at hhigh hprint ⊢
    simp [hhigh, hprint]
  · have hpos := r.high_gives.truthy_of_pos (by omega)
    simp only [hfirst, if_false, hpos, if_true, Bool.false_eq_true, false_or] at hhigh ⊢
    have hlow : pagesetHigh ≤ (r.low : Int) ∧
        (if r.lowCell.truthy then (r.lowCell.toInt U).getD 0 else 0) = (r.low : Int) := by
      rcases r.low_gives.toInt_eq U with ⟨hlow, -⟩ | ⟨hlow, -⟩
      · split_ifs at hhigh ⊢
        · rw [hlow, Option.getD_some] at hhigh ⊢
          exact ⟨hhigh, rfl⟩
        · exact absurd hhigh (by decide)
      · split_ifs at hhigh
        · rw [hlow] at hhigh
          exact absurd hhigh (by decide)
        · exact absurd hhigh (by decide)
    rw [hlow.2]
    rcases r.high_gives.toInt_eq U with ⟨hint, -⟩ | ⟨hnone, -, hlong⟩
    · rw [hint, Option.getD_some]
      have hstill : pagesetHigh ≤ (r.high : Int) := by omega
      have hcritical : pagesetCritical ≤ (r.low : Int) → pagesetCritical ≤ (r.high : Int) := by
        omega
      exact ⟨fun h => h.1.2, fun h => ⟨⟨hstill, h⟩, hcritical⟩⟩
    · rw [hnone]
      simp [hlong, pagesetHigh]

/-- A fuller pool was low before, and the integer 0 is not read. -/
theorem Zos.freepct_law (r : Readings) (bp : Row) :
    StaysIff (Zos.bufferpoolRun U registry mqVersion raw front back "FREEPCT" bp r.highCell)
      (Zos.bufferpoolRun U registry mqVersion raw front back "FREEPCT" bp r.lowCell)
      (r.lowCell = .int 0 → Zos.alternativeFree U bp < bufferpoolLowFreePct ∧
          Printable (Zos.alternativeFree U bp)) := by
  rw [Zos.bufferpoolRun, Zos.bufferpoolRun, Zos.saidOfBufferpool_eq,
    Zos.saidOfBufferpool_eq]
  refine staysIff_of_ite ?_
  rintro ⟨hothers, hlow, hprint⟩
  have hlt := r.lt
  have hrank : ∀ id id' pct pct',
      (findingBufferpool registry mqVersion id pct).severity.rank ≤
        (findingBufferpool registry mqVersion id' pct').severity.rank :=
    fun _ _ _ _ => le_refl _
  rw [and_iff_left (hrank _ _ _ _), and_iff_right hothers]
  rw [Zos.freePct_set_freepct, if_pos (r.high_gives.truthy_of_pos (by omega))] at hlow hprint
  rw [Zos.freePct_set_freepct]
  rcases r.high_gives.toInt_eq U with ⟨hhigh, -⟩ | ⟨hhigh, -⟩
  · rw [hhigh, Option.getD_some] at hlow hprint
    rcases r.low_gives.truthy_eq with ⟨htruthy, hne⟩ | ⟨hfalse, hzero, -⟩
    · rw [if_pos htruthy]
      have hprintLow : Printable (r.low : Int) := printable_of_le hlt.le hprint
      rcases r.low_gives.toInt_eq U with ⟨hint, -⟩ | ⟨-, -, hlong⟩
      · have hstill : (r.low : Int) < bufferpoolLowFreePct := by omega
        simp [hint, hne, hstill, hprintLow]
      · exact absurd hprintLow hlong
    · rw [if_neg (by simp [hfalse])]
      simp [hzero]
  · rw [hhigh] at hlow
    exact absurd hlow (by decide)

theorem Zos.free_pct_law (r : Readings) (bp : Row) :
    StaysIff (Zos.bufferpoolRun U registry mqVersion raw front back "free_pct" bp r.highCell)
      (Zos.bufferpoolRun U registry mqVersion raw front back "free_pct" bp r.lowCell)
      ((bp.get "FREEPCT").truthy = true ∨ r.lowCell ≠ .int 0) := by
  rw [Zos.bufferpoolRun, Zos.bufferpoolRun, Zos.saidOfBufferpool_eq,
    Zos.saidOfBufferpool_eq]
  refine staysIff_of_ite ?_
  rintro ⟨hothers, hlow, hprint⟩
  have hlt := r.lt
  have hrank : ∀ id id' pct pct',
      (findingBufferpool registry mqVersion id pct).severity.rank ≤
        (findingBufferpool registry mqVersion id' pct').severity.rank :=
    fun _ _ _ _ => le_refl _
  rw [and_iff_left (hrank _ _ _ _), and_iff_right hothers]
  rw [Zos.freePct_set_free_pct] at hlow hprint ⊢
  by_cases hfirst : (bp.get "FREEPCT").truthy = true
  · rw [if_pos hfirst] at hlow hprint ⊢
    simp [hlow, hprint, hfirst]
  · rw [if_neg hfirst, if_pos (r.high_gives.truthy_of_pos (by omega))] at hlow hprint
    rw [if_neg hfirst]
    rcases r.high_gives.toInt_eq U with ⟨hhigh, -⟩ | ⟨hhigh, -⟩
    · rw [hhigh, Option.getD_some] at hlow hprint
      rcases r.low_gives.truthy_eq with ⟨htruthy, hne⟩ | ⟨hfalse, hzero, -⟩
      · have hprintLow : Printable (r.low : Int) := printable_of_le hlt.le hprint
        rcases r.low_gives.toInt_eq U with ⟨hint, -⟩ | ⟨-, -, hlong⟩
        · have hstill : (r.low : Int) < bufferpoolLowFreePct := by omega
          simp [htruthy, hint, hne, hstill, hprintLow]
        · exact absurd hprintLow hlong
      · rw [if_neg (by simp [hfalse])]
        simp [hzero, hfirst, bufferpoolLowFreePct]
    · rw [hhigh] at hlow
      exact absurd hlow (by decide)

end Zos

section NativeHa

open Rcs.NativeHa

variable (U : UnicodeData) (registry : KCRegistry) (mqVersion : Option PyStr)

/-- `required`, when it can be read. -/
def NativeHa.required (raw : NativeHa.RawData) : Option Int :=
  (raw.quorumRequired.orElse (.int (requiredQuorum raw.instances.length))).toInt U

/-- The quorum can be read, and printed when it is lost. -/
def NativeHa.QuorumPrints (raw : NativeHa.RawData) : Prop :=
  raw.instances = [] ∨ (NativeHa.required U raw).any (fun required =>
    decide (required ≤ ((raw.instances.filter (isInSync U)).length : Int) ∨
      Printable required)) = true

instance (raw : NativeHa.RawData) : Decidable (NativeHa.QuorumPrints U raw) :=
  inferInstanceAs (Decidable (_ ∨ _))

/-- The replay of a replica lags. -/
def NativeHa.Lags (row : Row) : Prop :=
  isActive U row = false ∧ (replayPct U row < lagPctMedium ∨ lagBytesHigh < backlog U row)

instance (row : Row) : Decidable (NativeHa.Lags U row) :=
  inferInstanceAs (Decidable (_ ∧ _))

/-- The replay lags so far that it may not catch up. -/
def NativeHa.LagsFar (row : Row) : Prop :=
  replayPct U row < lagPctHigh ∨ lagBytesHigh < backlog U row

instance (row : Row) : Decidable (NativeHa.LagsFar U row) :=
  inferInstanceAs (Decidable (_ ∨ _))

/-- `lag` of the cross-region fields. -/
def NativeHa.lagSeconds (fields : Row) : Int :=
  ((fields.getOr "lag_seconds" (.int 0)).toInt U).getD 0

/-- The recovery region is behind. -/
def NativeHa.Behind (fields : Row) : Prop :=
  (fields.nonempty = true ∧ (fields.get "enabled").truthy = true) ∧
    crrLagHigh ≤ NativeHa.lagSeconds U fields

instance (fields : Row) : Decidable (NativeHa.Behind U fields) :=
  inferInstanceAs (Decidable (_ ∧ _))

/-- The numbers in the findings on the replay can be printed. -/
def NativeHa.ReplayPrints (instances : List Row) : Prop :=
  ∀ i ∈ instances, NativeHa.Lags U i → Printable (replayPct U i) ∧ Printable (backlog U i)

/-- The number in the finding on the recovery region can be printed. -/
def NativeHa.CrrPrints (crr : Option Row) : Prop :=
  ∀ fields ∈ crr, NativeHa.Behind U fields → Printable (NativeHa.lagSeconds U fields)

instance (instances : List Row) : Decidable (NativeHa.ReplayPrints U instances) :=
  inferInstanceAs (Decidable (∀ i ∈ instances, _))

instance (crr : Option Row) : Decidable (NativeHa.CrrPrints U crr) :=
  inferInstanceAs (Decidable (∀ fields ∈ crr, _))

/-- `match_native_ha_findings`; `none` is also the `ValueError` of a number that is too long. -/
def NativeHa.report (raw : NativeHa.RawData) : Option (List RCSFinding) :=
  if NativeHa.QuorumPrints U raw ∧ NativeHa.ReplayPrints U raw.instances ∧
      NativeHa.CrrPrints U raw.crr then
    matchNativeHaFindings U registry mqVersion raw
  else none

/-- What a report says about the replay of one of the instances. -/
def NativeHa.saidOfReplay (raw : NativeHa.RawData) (row : Row) : List RCSFinding :=
  if (NativeHa.report U registry mqVersion raw).isSome then
    checkLogReplayLag U registry mqVersion [row]
  else []

/-- What a report says about the recovery region. -/
def NativeHa.saidOfCrr (raw : NativeHa.RawData) : List RCSFinding :=
  if (NativeHa.report U registry mqVersion raw).isSome then
    checkCrrLag U registry mqVersion raw.crr
  else []

variable {U registry mqVersion} in
theorem NativeHa.mem_report_of_said
    {raw : NativeHa.RawData} {row : Row} {f : RCSFinding}
    (h : row ∈ raw.instances ∧ f ∈ NativeHa.saidOfReplay U registry mqVersion raw row ∨
      f ∈ NativeHa.saidOfCrr U registry mqVersion raw) :
    ∃ findings, NativeHa.report U registry mqVersion raw = some findings ∧ f ∈ findings := by
  cases hreport : NativeHa.report U registry mqVersion raw with
  | none =>
      simp [NativeHa.saidOfReplay, NativeHa.saidOfCrr, hreport] at h
  | some findings =>
      refine ⟨findings, rfl, ?_⟩
      rw [NativeHa.saidOfReplay, NativeHa.saidOfCrr, hreport] at h
      rw [NativeHa.report] at hreport
      split_ifs at hreport
      unfold matchNativeHaFindings at hreport
      split_ifs at hreport with hempty
      · rcases h with ⟨hrow, -⟩ | hf
        · rw [hempty.1] at hrow
          cases hrow
        · cases hcrr : raw.crr with
          | none =>
              simp [checkCrrLag, hcrr] at hf
          | some fields =>
              have hoff : fields.nonempty = false := by simpa [hcrr] using hempty.2
              simp [checkCrrLag, hcrr, hoff] at hf
      · obtain ⟨quorum, -, rfl⟩ := Option.map_eq_some_iff.mp hreport
        simp only [List.mem_append]
        rcases h with ⟨hrow, hf⟩ | hf
        · obtain ⟨i, hi, hfound⟩ := List.mem_filterMap.mp hf
          obtain rfl := List.mem_singleton.mp hi
          exact Or.inl (Or.inr (List.mem_filterMap.mpr ⟨_, hrow, hfound⟩))
        · exact Or.inr hf

theorem NativeHa.isSome_report_iff (raw : NativeHa.RawData) :
    (NativeHa.report U registry mqVersion raw).isSome = true ↔
      NativeHa.QuorumPrints U raw ∧ NativeHa.ReplayPrints U raw.instances ∧
        NativeHa.CrrPrints U raw.crr := by
  rw [NativeHa.report]
  split_ifs with hprints
  · simp only [hprints, and_self, iff_true]
    have hquorum : (checkQuorum U registry mqVersion raw).isSome = true := by
      rw [checkQuorum]
      split_ifs with hempty
      · rfl
      · have hany := hprints.1.resolve_left hempty
        rw [Option.isSome_map]
        rw [NativeHa.required] at hany
        exact Option.isSome_of_any hany
    rw [matchNativeHaFindings]
    split_ifs
    · rfl
    · rw [Option.isSome_map]
      exact hquorum
  · simp [hprints]

variable (raw : NativeHa.RawData) (front back : List Row)

/-- The input with an instance between others. -/
def NativeHa.withInstance (i : Row) : NativeHa.RawData :=
  { raw with instances := front ++ i :: back }

/-- What is said of the replay of an instance with a reading at a key. -/
def NativeHa.replayRun (key : String) (i : Row) (c : Cell) : List RCSFinding :=
  NativeHa.saidOfReplay U registry mqVersion
    (NativeHa.withInstance raw front back (i.set (lit key) c)) (i.set (lit key) c)

/-- What else is printed when the replay of an instance is read. -/
def NativeHa.OthersPrint (i : Row) : Prop :=
  NativeHa.QuorumPrints U (NativeHa.withInstance raw front back i) ∧
    NativeHa.ReplayPrints U (front ++ back) ∧ NativeHa.CrrPrints U raw.crr

instance (i : Row) : Decidable (NativeHa.OthersPrint U raw front back i) :=
  inferInstanceAs (Decidable (_ ∧ _ ∧ _))

theorem NativeHa.isSome_replayLag_iff (row : Row) :
    (replayLag U registry mqVersion row).isSome = true ↔ NativeHa.Lags U row := by
  have hthresholds : lagPctHigh ≤ lagPctMedium := by
    decide
  unfold replayLag NativeHa.Lags
  dsimp only
  split_ifs with hactive hfar hmedium
  · simp [hactive]
  · have hlags : replayPct U row < lagPctMedium ∨ lagBytesHigh < backlog U row :=
      hfar.imp_left fun h => h.trans_le hthresholds
    simp [hactive, hlags]
  · simp [hactive, hmedium]
  · rw [not_or] at hfar
    simp only [Option.isSome_none, Bool.false_eq_true, false_iff, not_and, not_or]
    exact fun _ => ⟨hmedium, hfar.2⟩

variable {U registry mqVersion} in
theorem NativeHa.severity_of_replayLag
    {row : Row} {f : RCSFinding} (h : replayLag U registry mqVersion row = some f) :
    f.severity = if NativeHa.LagsFar U row then .high else .medium := by
  unfold replayLag at h
  dsimp only at h
  split_ifs at h with hactive hfar hmedium
  · have hfar : NativeHa.LagsFar U row := hfar
    rw [if_pos hfar, ← Option.some_inj.mp h]
    rfl
  · have hfar : ¬ NativeHa.LagsFar U row := hfar
    rw [if_neg hfar, ← Option.some_inj.mp h]
    rfl

/-- What is said of a replay: one finding when it lags. -/
theorem NativeHa.exists_saidOfReplay (i : Row) :
    ∃ f : RCSFinding,
      (NativeHa.Lags U i → f.severity = if NativeHa.LagsFar U i then .high else .medium) ∧
        NativeHa.saidOfReplay U registry mqVersion (NativeHa.withInstance raw front back i) i =
          if NativeHa.OthersPrint U raw front back i ∧ NativeHa.Lags U i ∧
              Printable (replayPct U i) ∧ Printable (backlog U i) then
            [f]
          else [] := by
  have hreport : (NativeHa.report U registry mqVersion
        (NativeHa.withInstance raw front back i)).isSome = true ↔
      NativeHa.OthersPrint U raw front back i ∧
        (NativeHa.Lags U i → Printable (replayPct U i) ∧ Printable (backlog U i)) := by
    rw [NativeHa.isSome_report_iff]
    simp only [NativeHa.OthersPrint, NativeHa.ReplayPrints, NativeHa.withInstance,
      List.forall_mem_append, List.forall_mem_cons]
    exact ⟨fun ⟨hq, ⟨hf, hi, hb⟩, hc⟩ => ⟨⟨hq, ⟨hf, hb⟩, hc⟩, hi⟩,
      fun ⟨⟨hq, ⟨hf, hb⟩, hc⟩, hi⟩ => ⟨hq, ⟨hf, hi, hb⟩, hc⟩⟩
  rw [NativeHa.saidOfReplay, checkLogReplayLag]
  cases hlag : replayLag U registry mqVersion i with
  | none =>
      have hlags : ¬ NativeHa.Lags U i := by
        rw [← NativeHa.isSome_replayLag_iff U registry mqVersion i, hlag]
        simp
      exact ⟨findingReplayLag registry mqVersion [] 0 0 .high [], fun h => absurd h hlags, by
        simp [hlag, hlags]⟩
  | some f =>
      have hlags : NativeHa.Lags U i := by
        rw [← NativeHa.isSome_replayLag_iff U registry mqVersion i, hlag]
        rfl
      refine ⟨f, fun _ => NativeHa.severity_of_replayLag hlag, ?_⟩
      simp only [hreport, hlags, true_imp_iff, true_and, List.filterMap_cons, hlag,
        List.filterMap_nil]

theorem NativeHa.rank_le_iff {p q : Prop} [Decidable p] [Decidable q] :
    (if p then Severity.high else .medium).rank ≤ (if q then Severity.high else .medium).rank ↔
      (p → q) := by
  split_ifs with hp hq hq
  · simp [hq]
  · simp [hp, hq, Severity.rank]
  · simp [hp, Severity.rank]
  · simp [hp]

/-- The rest of an instance does not depend on a number of its replay. -/
theorem NativeHa.othersPrint_set {key : String} (hkey : "INSYNC" ≠ key) (i : Row) (c c' : Cell) :
    NativeHa.OthersPrint U raw front back (i.set (lit key) c) ↔
      NativeHa.OthersPrint U raw front back (i.set (lit key) c') := by
  have hsync : ∀ c, isInSync U (i.set (lit key) c) = isInSync U i := by
    intro c
    rw [isInSync, NativeHa.upperCell, Row.getOr_set_of_ne i c hkey]
    rfl
  have hcount : ∀ c, ((front ++ i.set (lit key) c :: back).filter (isInSync U)).length =
      ((front ++ i :: back).filter (isInSync U)).length := by
    intro c
    simp only [← List.countP_eq_length_filter, List.countP_append, List.countP_cons, hsync c]
  simp only [NativeHa.OthersPrint, NativeHa.QuorumPrints, NativeHa.required,
    NativeHa.withInstance, hcount]
  simp

theorem NativeHa.replaypct_law (r : Readings) (i : Row) :
    StaysIff (NativeHa.replayRun U registry mqVersion raw front back "REPLAYPCT" i r.highCell)
      (NativeHa.replayRun U registry mqVersion raw front back "REPLAYPCT" i r.lowCell)
      (r.lowCell = .int r.low → Printable r.low) := by
  have hactive : ∀ c, isActive U (i.set (lit "REPLAYPCT") c) = isActive U i := by
    intro c
    rw [isActive, NativeHa.upperCell, Row.getOr_set_of_ne i c (by decide)]
    rfl
  have hbacklog : ∀ c, backlog U (i.set (lit "REPLAYPCT") c) = backlog U i := by
    intro c
    rw [backlog, Row.getOr_set_of_ne i c (by decide)]
    rfl
  have hpct : ∀ c, replayPct U (i.set (lit "REPLAYPCT") c) = (c.toInt U).getD 100 := by
    intro c
    rw [replayPct, Row.getOr_set_self]
  obtain ⟨f, hf, hbefore⟩ := NativeHa.exists_saidOfReplay U registry mqVersion raw front back
    (i.set (lit "REPLAYPCT") r.highCell)
  obtain ⟨g, hg, hafter⟩ := NativeHa.exists_saidOfReplay U registry mqVersion raw front back
    (i.set (lit "REPLAYPCT") r.lowCell)
  rw [NativeHa.replayRun, NativeHa.replayRun, hbefore, hafter]
  refine staysIff_of_ite ?_
  rintro ⟨hothers, hlags, hpctPrints, hbacklogPrints⟩
  have hlt := r.lt
  -- the replica still lags: through its backlog, or through a lower percentage
  have hstill : NativeHa.Lags U (i.set (lit "REPLAYPCT") r.lowCell) ∧
      (NativeHa.LagsFar U (i.set (lit "REPLAYPCT") r.highCell) →
        NativeHa.LagsFar U (i.set (lit "REPLAYPCT") r.lowCell)) := by
    simp only [NativeHa.Lags, NativeHa.LagsFar, hactive, hbacklog, hpct] at hlags hpctPrints ⊢
    by_cases hbytes : lagBytesHigh < backlog U i
    · simp [hlags.1, hbytes]
    · have hmedium := hlags.2.resolve_right hbytes
      rcases r.high_gives.toInt_eq U with ⟨hhigh, -⟩ | ⟨hhigh, -⟩
      · rw [hhigh, Option.getD_some] at hmedium hpctPrints ⊢
        rcases r.low_gives.toInt_eq U with ⟨hlow, -⟩ | ⟨-, -, hlong⟩
        · rw [hlow, Option.getD_some]
          exact ⟨⟨hlags.1, Or.inl (by omega)⟩, Or.imp_left fun h => by omega⟩
        · exact absurd (printable_of_le hlt.le hpctPrints) hlong
      · rw [hhigh] at hmedium
        exact absurd hmedium (by decide)
  rw [hf hlags, hg hstill.1, NativeHa.rank_le_iff, and_iff_left hstill.2,
    NativeHa.othersPrint_set U raw front back (by decide) i _ r.highCell, and_iff_right hothers,
    and_iff_right hstill.1, hbacklog, ← hbacklog r.highCell, and_iff_left hbacklogPrints, hpct]
  rcases r.low_gives.toInt_eq U with ⟨hlow, hshort⟩ | ⟨hlow, hne, -⟩
  · rw [hlow, Option.getD_some]
    exact ⟨fun h _ => h, fun h => hshort.elim h id⟩
  · rw [hlow, Option.getD_none]
    have hhundred : Printable 100 := by
      decide +kernel
    simp [hne, hhundred]

theorem NativeHa.backlog_law (r : Readings) (i : Row) :
    StaysIff (NativeHa.replayRun U registry mqVersion raw front back "BACKLOG" i r.lowCell)
      (NativeHa.replayRun U registry mqVersion raw front back "BACKLOG" i r.highCell)
      (Printable r.high ∨ r.highCell ≠ .int r.high ∧
          (replayPct U i < lagPctHigh ∨
            backlog U (i.set (lit "BACKLOG") r.lowCell) ≤ lagBytesHigh)) := by
  have hactive : ∀ c, isActive U (i.set (lit "BACKLOG") c) = isActive U i := by
    intro c
    rw [isActive, NativeHa.upperCell, Row.getOr_set_of_ne i c (by decide)]
    rfl
  have hpct : ∀ c, replayPct U (i.set (lit "BACKLOG") c) = replayPct U i := by
    intro c
    rw [replayPct, Row.getOr_set_of_ne i c (by decide)]
    rfl
  have hbacklog : ∀ c, backlog U (i.set (lit "BACKLOG") c) = (c.toInt U).getD 0 := by
    intro c
    rw [backlog, Row.getOr_set_self]
  obtain ⟨f, hf, hbefore⟩ := NativeHa.exists_saidOfReplay U registry mqVersion raw front back
    (i.set (lit "BACKLOG") r.lowCell)
  obtain ⟨g, hg, hafter⟩ := NativeHa.exists_saidOfReplay U registry mqVersion raw front back
    (i.set (lit "BACKLOG") r.highCell)
  rw [NativeHa.replayRun, NativeHa.replayRun, hbefore, hafter]
  refine staysIff_of_ite ?_
  rintro ⟨hothers, hlags, hpctPrints, hbacklogPrints⟩
  have hlt := r.lt
  have hlagging := hlags.2
  rw [hpct] at hlagging hpctPrints
  rw [hf hlags, NativeHa.othersPrint_set U raw front back (by decide) i _ r.lowCell,
    and_iff_right hothers, hpct, and_iff_right hpctPrints]
  rcases r.high_gives.toInt_eq U with ⟨hhigh, hshort⟩ | ⟨hhigh, hne, hlong⟩
  · -- the backlog is read, and it has grown
    have hle : backlog U (i.set (lit "BACKLOG") r.lowCell) ≤ r.high := by
      rw [hbacklog]
      rcases r.low_gives.toInt_eq U with ⟨hlow, -⟩ | ⟨hlow, -⟩
      · rw [hlow, Option.getD_some]
        omega
      · rw [hlow, Option.getD_none]
        omega
    have hread : backlog U (i.set (lit "BACKLOG") r.highCell) = r.high := by
      rw [hbacklog, hhigh, Option.getD_some]
    have hstill : NativeHa.Lags U (i.set (lit "BACKLOG") r.highCell) := by
      refine ⟨(hactive _).trans ((hactive _).symm.trans hlags.1), ?_⟩
      rw [hpct, hread]
      exact hlagging.imp_right fun h => h.trans_le hle
    have hfar : NativeHa.LagsFar U (i.set (lit "BACKLOG") r.lowCell) →
        NativeHa.LagsFar U (i.set (lit "BACKLOG") r.highCell) := by
      unfold NativeHa.LagsFar
      rw [hpct, hpct, hread]
      exact Or.imp_right fun h => h.trans_le hle
    rw [hg hstill, NativeHa.rank_le_iff, and_iff_left hfar, and_iff_right hstill, hread]
    exact ⟨Or.inl, fun h => h.elim id fun h => hshort.elim (fun heq => absurd heq h.1) id⟩
  · -- the backlog is too long and counts as nothing
    have hread : backlog U (i.set (lit "BACKLOG") r.highCell) = 0 := by
      rw [hbacklog, hhigh, Option.getD_none]
    have hzero : Printable 0 := by
      decide +kernel
    have hnothing : ¬ lagBytesHigh < 0 := by
      decide
    have hthresholds : lagPctHigh ≤ lagPctMedium := by
      decide
    rw [hread, and_iff_left hzero, or_iff_right hlong, and_iff_right hne]
    by_cases hmedium : replayPct U i < lagPctMedium
    · have hstill : NativeHa.Lags U (i.set (lit "BACKLOG") r.highCell) := by
        refine ⟨(hactive _).trans ((hactive _).symm.trans hlags.1), Or.inl ?_⟩
        rwa [hpct]
      rw [hg hstill, NativeHa.rank_le_iff, and_iff_right hstill]
      unfold NativeHa.LagsFar
      rw [hpct, hpct, hread]
      omega
    · have hquiet : ¬ NativeHa.Lags U (i.set (lit "BACKLOG") r.highCell) := by
        rintro ⟨-, hlags⟩
        rw [hpct, hread] at hlags
        exact hlags.elim hmedium hnothing
      have hbytes := hlagging.resolve_left hmedium
      simp only [hquiet, false_and, false_iff]
      omega

/-- The input with these fields of cross-region replication. -/
def NativeHa.withCrr (fields : Row) : NativeHa.RawData :=
  { raw with crr := some fields }

/-- What is said of the recovery region with a lag. -/
def NativeHa.crrRun (fields : Row) (c : Cell) : List RCSFinding :=
  NativeHa.saidOfCrr U registry mqVersion
    (NativeHa.withCrr raw (fields.set (lit "lag_seconds") c))

theorem NativeHa.saidOfCrr_eq (fields : Row) :
    NativeHa.saidOfCrr U registry mqVersion (NativeHa.withCrr raw fields) =
      if (NativeHa.QuorumPrints U raw ∧ NativeHa.ReplayPrints U raw.instances) ∧
          NativeHa.Behind U fields ∧ Printable (NativeHa.lagSeconds U fields) then
        [findingCrrLag registry mqVersion (NativeHa.lagSeconds U fields)
          (fields.getOr "recovery_group" (.str [])).toStr (fields.getOr "role" (.str [])).toStr]
      else [] := by
  have hreport : (NativeHa.report U registry mqVersion
        (NativeHa.withCrr raw fields)).isSome = true ↔
      (NativeHa.QuorumPrints U raw ∧ NativeHa.ReplayPrints U raw.instances) ∧
        (NativeHa.Behind U fields → Printable (NativeHa.lagSeconds U fields)) := by
    have hcrr : NativeHa.CrrPrints U (some fields) ↔
        (NativeHa.Behind U fields → Printable (NativeHa.lagSeconds U fields)) := by
      simp [NativeHa.CrrPrints]
    rw [NativeHa.isSome_report_iff, ← and_assoc]
    exact and_congr Iff.rfl hcrr
  have hcheck : checkCrrLag U registry mqVersion (some fields) =
      if NativeHa.Behind U fields then
        [findingCrrLag registry mqVersion (NativeHa.lagSeconds U fields)
          (fields.getOr "recovery_group" (.str [])).toStr (fields.getOr "role" (.str [])).toStr]
      else [] := by
    by_cases hbehind : NativeHa.Behind U fields
    · have hlag : ¬ NativeHa.lagSeconds U fields < crrLagHigh := not_lt.mpr hbehind.2
      rw [if_pos hbehind]
      simp only [checkCrrLag, hbehind.1, Bool.not_true, Bool.or_self, Bool.false_eq_true, if_false]
      exact if_neg hlag
    · rw [if_neg hbehind]
      simp only [checkCrrLag]
      split_ifs with hoff hlag
      · rfl
      · rfl
      · refine absurd ⟨?_, not_lt.mp hlag⟩ hbehind
        simpa [not_or] using hoff
  rw [NativeHa.saidOfCrr, show (NativeHa.withCrr raw fields).crr = some fields from rfl, hcheck]
  by_cases hbehind : NativeHa.Behind U fields
  · simp only [hreport, hbehind, true_imp_iff, true_and, if_true]
  · simp [hbehind]

theorem NativeHa.lag_seconds_law (r : Readings) (fields : Row) :
    StaysIff (NativeHa.crrRun U registry mqVersion raw fields r.lowCell)
      (NativeHa.crrRun U registry mqVersion raw fields r.highCell)
      (Printable r.high) := by
  have hlag : ∀ c, NativeHa.lagSeconds U (fields.set (lit "lag_seconds") c) =
      (c.toInt U).getD 0 := by
    intro c
    rw [NativeHa.lagSeconds, Row.getOr_set_self]
  have hrank : ∀ lag lag' : Int, lag ≤ lag' → ∀ group role group' role',
      (findingCrrLag registry mqVersion lag group role).severity.rank ≤
        (findingCrrLag registry mqVersion lag' group' role').severity.rank := by
    intro lag lag' hle _ _ _ _
    simp only [findingCrrLag, ge_iff_le]
    split_ifs with h h' h'
    · exact le_refl _
    · omega
    · decide
    · exact le_refl _
  have henabled : ∀ c, Row.get (fields.set (lit "lag_seconds") c) "enabled" =
      fields.get "enabled" := fun c => Row.get_set_of_ne fields c (by decide)
  rw [NativeHa.crrRun, NativeHa.crrRun, NativeHa.saidOfCrr_eq, NativeHa.saidOfCrr_eq]
  refine staysIff_of_ite ?_
  rintro ⟨hothers, ⟨⟨hnonempty, hon⟩, hhigh⟩, hprint⟩
  have hlt := r.lt
  rw [hlag] at hhigh hprint
  have hstill : NativeHa.Behind U (fields.set (lit "lag_seconds") r.highCell) ↔
      crrLagHigh ≤ (r.highCell.toInt U).getD 0 := by
    rw [NativeHa.Behind, hlag, henabled, ← henabled r.lowCell, OrderedDict.nonempty_set]
    simp [hon]
  rw [and_iff_right hothers, hstill, hlag, hlag]
  rcases r.low_gives.toInt_eq U with ⟨hlow, -⟩ | ⟨hlow, -⟩
  · rw [hlow, Option.getD_some] at hhigh ⊢
    rcases r.high_gives.toInt_eq U with ⟨hread, -⟩ | ⟨hnone, -, hlong⟩
    · rw [hread, Option.getD_some, and_iff_left (hrank _ _ (by omega) _ _ _ _),
        and_iff_right (by omega)]
    · rw [hnone, Option.getD_none]
      have hnothing : ¬ crrLagHigh ≤ 0 := by
        decide
      simp [hlong, hnothing]
  · rw [hlow] at hhigh
    exact absurd hhigh (by decide)

end NativeHa

section DeadLetter

open DeadLetter

variable (U : UnicodeData) (registry : KCRegistry) (mqVersion : Option PyStr)

/-- The numbers in the findings of a browse can be printed. -/
def DeadLetter.Prints (browse : BrowseDict) : Prop :=
  (0 < (queueDepth U browse).getD 0 →
      Printable ((queueDepth U browse).getD 0) ∧ Printable ((sampleSize U browse).getD 0)) ∧
    ∀ h ∈ browse.headers, reasonOf U h ≠ 0 → Printable (reasonOf U h)

instance (browse : BrowseDict) : Decidable (DeadLetter.Prints U browse) :=
  inferInstanceAs (Decidable (_ ∧ _))

/-- `match_dlq_findings`; `none` is also the `ValueError` of a number that is too long. -/
def DeadLetter.report (browse : BrowseDict) : Option (List RCSFinding) :=
  if DeadLetter.Prints U browse then matchDlqFindings U registry mqVersion browse else none

/-- What a report says about the depth of the queue. -/
def DeadLetter.saidOfDepth (browse : BrowseDict) : List RCSFinding :=
  if (DeadLetter.report U registry mqVersion browse).isSome ∧
      0 < (queueDepth U browse).getD 0 then
    [findingDlqDepth (queueName browse) ((queueDepth U browse).getD 0)
      ((sampleSize U browse).getD 0)]
  else []

/-- The browse with this depth. -/
def DeadLetter.withDepth (browse : BrowseDict) (c : Cell) : BrowseDict :=
  { browse with cells := browse.cells.set (lit "queue_depth") c }

/-- What is said of the depth of the queue with a reading. -/
def DeadLetter.depthRun (browse : BrowseDict) (c : Cell) : List RCSFinding :=
  DeadLetter.saidOfDepth U registry mqVersion (DeadLetter.withDepth browse c)

theorem DeadLetter.isSome_matchDlqFindings_iff (browse : BrowseDict) :
    (matchDlqFindings U registry mqVersion browse).isSome = true ↔ Readable U browse := by
  constructor
  · intro h
    obtain ⟨findings, hfindings⟩ := Option.isSome_iff_exists.mp h
    exact readable_of_matchDlqFindings U registry mqVersion hfindings
  · intro h
    rw [matchDlqFindings_of_readable U registry mqVersion h]
    rfl

variable {U registry mqVersion} in
theorem DeadLetter.mem_report_of_said
    {browse : BrowseDict} {f : RCSFinding}
    (h : f ∈ DeadLetter.saidOfDepth U registry mqVersion browse) :
    ∃ findings, DeadLetter.report U registry mqVersion browse = some findings ∧ f ∈ findings := by
  unfold DeadLetter.saidOfDepth at h
  split_ifs at h with hsaid
  · obtain ⟨findings, hfindings⟩ := Option.isSome_iff_exists.mp hsaid.1
    refine ⟨findings, hfindings, ?_⟩
    rw [DeadLetter.report] at hfindings
    split_ifs at hfindings
    rw [matchDlqFindings_of_readable U registry mqVersion
      (readable_of_matchDlqFindings U registry mqVersion hfindings), Option.some_inj] at hfindings
    rw [← hfindings, findingsOf, if_pos hsaid.2, List.append_assoc]
    exact List.mem_append_left _ h
  · cases h

/-- A deeper queue is not rated lower. -/
theorem DeadLetter.rank_findingDlqDepth_le
    {depth depth' : Int} (h : depth ≤ depth') (name name' : PyStr) (sample sample' : Int) :
    (findingDlqDepth name depth sample).severity.rank ≤
      (findingDlqDepth name' depth' sample').severity.rank := by
  simp only [findingDlqDepth, gt_iff_lt]
  split_ifs
  all_goals
    first
    | omega
    | decide

theorem DeadLetter.queue_depth_law (r : Readings) (browse : BrowseDict) :
    StaysIff (DeadLetter.depthRun U registry mqVersion browse r.lowCell)
      (DeadLetter.depthRun U registry mqVersion browse r.highCell)
      (Printable r.high) := by
  have hdepth : ∀ c, queueDepth U (DeadLetter.withDepth browse c) =
      (c.orElse (.int 0)).toInt U := by
    intro c
    rw [queueDepth, DeadLetter.withDepth, Row.getOr_set_self]
  have hsample : ∀ c, sampleSize U (DeadLetter.withDepth browse c) = sampleSize U browse := by
    intro c
    rw [sampleSize, DeadLetter.withDepth, Row.getOr_set_of_ne _ c (by decide)]
    rfl
  have hreport : ∀ c, (DeadLetter.report U registry mqVersion
        (DeadLetter.withDepth browse c)).isSome = true ↔
      DeadLetter.Prints U (DeadLetter.withDepth browse c) ∧
        Readable U (DeadLetter.withDepth browse c) := by
    intro c
    rw [← DeadLetter.isSome_matchDlqFindings_iff U registry mqVersion, DeadLetter.report]
    split_ifs with hprints
    · simp [hprints]
    · simp [hprints]
  refine staysIff_of_ite ?_
  rintro ⟨hsome, hlow⟩
  obtain ⟨hprints, hreadable⟩ := (hreport _).mp hsome
  have hlt := r.lt
  have htruthy := r.high_gives.truthy_of_pos (by omega)
  have hhigh : queueDepth U (DeadLetter.withDepth browse r.highCell) = r.highCell.toInt U := by
    rw [hdepth, Cell.orElse, if_pos htruthy]
  have hle : (queueDepth U (DeadLetter.withDepth browse r.lowCell)).getD 0 ≤ r.high := by
    rw [hdepth, Cell.orElse]
    split_ifs
    · rcases r.low_gives.toInt_eq U with ⟨hint, -⟩ | ⟨hnone, -⟩
      · rw [hint, Option.getD_some]
        omega
      · rw [hnone, Option.getD_none]
        omega
    · simp [Cell.toInt]
  rw [hreport]
  rcases r.high_gives.toInt_eq U with ⟨hint, -⟩ | ⟨hnone, -, hlong⟩
  · rw [hint] at hhigh
    have hreadable' : Readable U (DeadLetter.withDepth browse r.highCell) := by
      refine ⟨by simp [hhigh], ?_, hreadable.reasons, hreadable.backouts⟩
      rw [hsample, ← hsample r.lowCell]
      exact hreadable.sample
    have hpos : 0 < (queueDepth U (DeadLetter.withDepth browse r.highCell)).getD 0 := by
      rw [hhigh, Option.getD_some]
      omega
    have hprints' : DeadLetter.Prints U (DeadLetter.withDepth browse r.highCell) ↔
        Printable r.high := by
      have hsamplePrints := (hprints.1 hlow).2
      rw [hsample, ← hsample r.highCell] at hsamplePrints
      rw [DeadLetter.Prints, hhigh, Option.getD_some]
      rw [hhigh, Option.getD_some] at hpos
      exact ⟨fun h => (h.1 hpos).1, fun h => ⟨fun _ => ⟨h, hsamplePrints⟩, hprints.2⟩⟩
    rw [and_iff_left hreadable', and_iff_left hpos, hprints',
      and_iff_left (DeadLetter.rank_findingDlqDepth_le (by rwa [hhigh]) _ _ _ _)]
  · rw [hnone] at hhigh
    simp [hhigh, hlong]

end DeadLetter

/--
For every input and every pair of readings: what is said of the object is at least as severe
with the worse reading exactly under the condition at the end of each part, unless nothing
was said with the better one.
-/
theorem no_milder_iff (U : UnicodeData) (registry : KCRegistry) (mqVersion : Option PyStr)
    (r : Readings) :
    (∀ raw front back ps,
      StaysIff (Zos.pagesetRun U registry mqVersion raw front back "USEPCT" ps r.lowCell)
          (Zos.pagesetRun U registry mqVersion raw front back "USEPCT" ps r.highCell)
          (Printable r.high ∧ (r.lowCell = .int 0 → Zos.pagesetHigh ≤ r.high ∧
            (Zos.pagesetCritical ≤ Zos.alternativeUse U ps → Zos.pagesetCritical ≤ r.high))) ∧
        StaysIff (Zos.pagesetRun U registry mqVersion raw front back "use_pct" ps r.lowCell)
          (Zos.pagesetRun U registry mqVersion raw front back "use_pct" ps r.highCell)
          ((ps.get "USEPCT").truthy = true ∨ Printable r.high)) ∧
    (∀ raw front back bp,
      StaysIff (Zos.bufferpoolRun U registry mqVersion raw front back "FREEPCT" bp r.highCell)
          (Zos.bufferpoolRun U registry mqVersion raw front back "FREEPCT" bp r.lowCell)
          (r.lowCell = .int 0 → Zos.alternativeFree U bp < Zos.bufferpoolLowFreePct ∧
            Printable (Zos.alternativeFree U bp)) ∧
        StaysIff (Zos.bufferpoolRun U registry mqVersion raw front back "free_pct" bp r.highCell)
          (Zos.bufferpoolRun U registry mqVersion raw front back "free_pct" bp r.lowCell)
          ((bp.get "FREEPCT").truthy = true ∨ r.lowCell ≠ .int 0)) ∧
    (∀ raw front back i,
      StaysIff (NativeHa.replayRun U registry mqVersion raw front back "REPLAYPCT" i r.highCell)
          (NativeHa.replayRun U registry mqVersion raw front back "REPLAYPCT" i r.lowCell)
          (r.lowCell = .int r.low → Printable r.low) ∧
        StaysIff (NativeHa.replayRun U registry mqVersion raw front back "BACKLOG" i r.lowCell)
          (NativeHa.replayRun U registry mqVersion raw front back "BACKLOG" i r.highCell)
          (Printable r.high ∨ r.highCell ≠ .int r.high ∧
            (NativeHa.replayPct U i < NativeHa.lagPctHigh ∨
              NativeHa.backlog U (i.set (lit "BACKLOG") r.lowCell) ≤ NativeHa.lagBytesHigh))) ∧
    (∀ raw fields,
      StaysIff (NativeHa.crrRun U registry mqVersion raw fields r.lowCell)
        (NativeHa.crrRun U registry mqVersion raw fields r.highCell) (Printable r.high)) ∧
    ∀ browse,
      StaysIff (DeadLetter.depthRun U registry mqVersion browse r.lowCell)
        (DeadLetter.depthRun U registry mqVersion browse r.highCell) (Printable r.high) :=
  ⟨fun raw front back ps =>
      ⟨Zos.usepct_law U registry mqVersion raw front back r ps,
        Zos.use_pct_law U registry mqVersion raw front back r ps⟩,
    fun raw front back bp =>
      ⟨Zos.freepct_law U registry mqVersion raw front back r bp,
        Zos.free_pct_law U registry mqVersion raw front back r bp⟩,
    fun raw front back i =>
      ⟨NativeHa.replaypct_law U registry mqVersion raw front back r i,
        NativeHa.backlog_law U registry mqVersion raw front back r i⟩,
    fun raw fields => NativeHa.lag_seconds_law U registry mqVersion raw r fields,
    fun browse => DeadLetter.queue_depth_law U registry mqVersion r browse⟩

/-- Five per cent of the pages are free, and then none, as integers. -/
def exhausted : Readings where
  low := 0
  high := 5
  lowCell := .int 0
  highCell := .int 5
  low_gives := .int
  high_gives := .int
  lt := by decide

/-- Of a pool with five per cent of free pages something is said, of one with none nothing. -/
theorem exhausted_pool_unreported :
    ¬ ∀ registry mqVersion raw front back bp,
      NoMilder
        (Zos.bufferpoolRun UnicodeData.basic registry mqVersion raw front back "FREEPCT" bp
          exhausted.highCell)
        (Zos.bufferpoolRun UnicodeData.basic registry mqVersion raw front back "FREEPCT" bp
          exhausted.lowCell) := by
  intro h
  have hmild := (Zos.freepct_law _ _ _ _ _ _ exhausted _).mp
    (h ⟨OrderedDict.empty, OrderedDict.empty, OrderedDict.empty⟩ none {} [] []
      (OrderedDict.ofList [(lit "BUFFPOOL", .int 1)]))
  have hsaid : Zos.bufferpoolRun UnicodeData.basic
      ⟨OrderedDict.empty, OrderedDict.empty, OrderedDict.empty⟩ none {} [] [] "FREEPCT"
      (OrderedDict.ofList [(lit "BUFFPOOL", .int 1)]) exhausted.highCell ≠ [] := by
    decide +kernel
  exact absurd (hmild hsaid rfl).1 (by decide +kernel)

end Rcs
end MqSentinel
