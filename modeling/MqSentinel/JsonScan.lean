import Mathlib.Data.List.Basic
import Mathlib.Tactic

/-!
# Scanning JSON objects

What every JSON text that starts with a brace has in common, whatever stands between
its brackets: a backslash occurs in strings only and starts one of the known escapes,
strings end, and once the first brace is closed only blanks follow.  `Complete` is
this property of a text, decided by one pass over its bytes.

A text that was cut off is not complete, and no complete text can be put behind
another text without spoiling it: if the front ends inside a string, the quotes of
the back part swap their roles and a string is left open at the end.
-/

namespace JsonScan

/-- Where a scan stands; the depth counts the brackets inside the outermost brace. -/
inductive State where
  | value (depth : Nat)
  | string (depth : Nat)
  | escape (depth : Nat)
  | closed
  | invalid
deriving DecidableEq

/-- The blanks between tokens. -/
def isBlank (b : UInt8) : Bool :=
  b == 0x20 || b == 0x09 || b == 0x0A || b == 0x0D

/-- What may stand after a backslash. -/
def isEscape (b : UInt8) : Bool :=
  b ∈ [0x22, 0x5C, 0x2F, 0x62, 0x66, 0x6E, 0x72, 0x74, 0x75]

/-- The end of a bracket. -/
def close : Nat → State
  | 0 => .closed
  | depth + 1 => .value depth

/-- One byte. -/
def step : State → UInt8 → State
  | .value depth, b =>
      if b = 0x22 then .string depth
      else if b = 0x5C then .invalid
      else if b = 0x7B ∨ b = 0x5B then .value (depth + 1)
      else if b = 0x7D ∨ b = 0x5D then close depth
      else .value depth
  | .string depth, b =>
      if b = 0x22 then .value depth
      else if b = 0x5C then .escape depth
      else if b < 0x20 then .invalid
      else .string depth
  | .escape depth, b => if isEscape b then .string depth else .invalid
  | .closed, b => if isBlank b then .closed else .invalid
  | .invalid, _ => .invalid

/-- A scan from a given state. -/
def scan (s : State) (text : List UInt8) : State :=
  text.foldl step s

/-- An object text: a brace that the text closes, with blanks behind it. -/
def Complete : List UInt8 → Prop
  | [] => False
  | b :: text => b = 0x7B ∧ scan (.value 0) text = .closed

instance : DecidablePred Complete
  | [] => inferInstanceAs (Decidable False)
  | b :: text => inferInstanceAs (Decidable (b = 0x7B ∧ scan (.value 0) text = .closed))

@[simp] theorem scan_cons (s : State) (b : UInt8) (text : List UInt8) :
    scan s (b :: text) = scan (step s b) text := by
  rfl

theorem scan_append (s : State) (x y : List UInt8) :
    scan s (x ++ y) = scan (scan s x) y :=
  List.foldl_append

@[simp] theorem scan_invalid (text : List UInt8) :
    scan .invalid text = .invalid := by
  induction text with
  | nil =>
      rfl
  | cons b text ih =>
      exact ih

/-- Only blanks follow the last brace. -/
theorem isBlank_of_scan_closed
    {text : List UInt8} (h : scan .closed text = .closed) :
    ∀ b ∈ text, isBlank b = true := by
  induction text with
  | nil =>
      simp
  | cons b text ih =>
      rw [scan_cons, step] at h
      split_ifs at h with hb
      · exact List.forall_mem_cons.mpr ⟨hb, ih h⟩
      · rw [scan_invalid] at h
        cases h

/-- The same place, inside further brackets. -/
def raise (k : Nat) : State → State
  | .value depth => .value (depth + k + 1)
  | .string depth => .string (depth + k + 1)
  | .escape depth => .escape (depth + k + 1)
  | .closed => .value k
  | .invalid => .invalid

/-- A step inside further brackets, as long as it is valid, sees the same brackets. -/
theorem step_raise
    (k : Nat) {s : State} {b : UInt8} (h : step s b ≠ .invalid) :
    step (raise k s) b = raise k (step s b) := by
  cases s with
  | value depth =>
      have hclose : close (depth + k + 1) = raise k (close depth) := by
        cases depth with
        | zero => simp [close, raise]
        | succ depth => simp [close, raise]; omega
      have hopen : depth + k + 1 + 1 = depth + 1 + k + 1 := by omega
      simp only [raise, step, hclose, hopen]
      split_ifs
      all_goals rfl
  | string depth =>
      simp only [raise, step]
      split_ifs
      all_goals rfl
  | escape depth =>
      simp only [raise, step]
      split_ifs
      all_goals rfl
  | closed =>
      have hblank : isBlank b = true := by
        by_contra hb
        exact h (by simp [step, hb])
      simp only [isBlank, Bool.or_eq_true, beq_iff_eq] at hblank
      rcases hblank with ((rfl | rfl) | rfl) | rfl
      all_goals rfl
  | invalid =>
      rfl

/-- A text that closes its brace leaves the brackets around it as they are. -/
theorem scan_raise
    (k : Nat) (text : List UInt8) :
    ∀ s : State, scan s text ≠ .invalid → scan (raise k s) text = raise k (scan s text) := by
  induction text with
  | nil =>
      intro s _
      rfl
  | cons b text ih =>
      intro s h
      have hstep : step s b ≠ .invalid := by
        intro hb
        rw [scan_cons, hb, scan_invalid] at h
        exact h rfl
      rw [scan_cons, step_raise k hstep, ih _ h, scan_cons]

/-- How a scan stands that takes the insides of strings for their outsides. -/
inductive Swapped : State → State → Prop
  | invalid (s : State) : Swapped s .invalid
  | outside (depth depth' : Nat) : Swapped (.value depth) (.string depth')
  | inside (depth depth' : Nat) : Swapped (.string depth) (.value depth')
  | inside_closed (depth : Nat) : Swapped (.string depth) .closed
  | closed (depth' : Nat) : Swapped .closed (.string depth')

theorem swapped_close
    (depth depth' : Nat) :
    Swapped (.string depth) (close depth') ∧ Swapped (close depth) (.string depth') := by
  constructor
  · cases depth' with
    | zero => exact .inside_closed depth
    | succ depth' => exact .inside depth depth'
  · cases depth with
    | zero => exact .closed depth'
    | succ depth => exact .outside depth depth'

/-- A quote swaps the roles of both scans and a backslash ends one of them. -/
theorem swapped_step
    {s t : State} (h : Swapped s t) (b : UInt8) (hb : step s b ≠ .invalid) :
    Swapped (step s b) (step t b) := by
  cases h with
  | invalid => exact .invalid _
  | outside depth depth' =>
      simp only [step] at hb ⊢
      split_ifs at hb ⊢
      all_goals first
        | exact .invalid _
        | exact .inside _ _
        | exact .outside _ _
        | exact (swapped_close _ _).2
        | exact absurd rfl hb
  | inside depth depth' =>
      simp only [step] at hb ⊢
      split_ifs at hb ⊢
      all_goals first
        | exact .invalid _
        | exact .outside _ _
        | exact .inside _ _
        | exact (swapped_close _ _).1
        | exact absurd rfl hb
  | inside_closed depth =>
      simp only [step] at hb ⊢
      split_ifs at hb ⊢
      all_goals first
        | exact .invalid _
        | exact .inside_closed _
        | exact absurd rfl hb
        | simp_all [isBlank]
  | closed depth' =>
      have hblank : isBlank b = true := by
        by_contra hnot
        exact hb (by simp [step, hnot])
      simp only [isBlank, Bool.or_eq_true, beq_iff_eq] at hblank
      rcases hblank with ((rfl | rfl) | rfl) | rfl
      · exact .closed depth'
      all_goals exact .invalid _

theorem swapped_scan
    (text : List UInt8) :
    ∀ {s t : State}, Swapped s t → scan s text ≠ .invalid →
      Swapped (scan s text) (scan t text) := by
  induction text with
  | nil =>
      intro s t h _
      exact h
  | cons b text ih =>
      intro s t h hs
      have hstep : step s b ≠ .invalid := by
        intro hb
        rw [scan_cons, hb, scan_invalid] at hs
        exact hs rfl
      exact ih (swapped_step h b hstep) hs

/-- **Nothing can be put before an object text**: wherever the front ends, the whole is
not complete. -/
theorem not_closed_append
    {text : List UInt8} (h : Complete text) (s : State) :
    scan s text ≠ .closed := by
  cases text with
  | nil => exact h.elim
  | cons b text =>
      obtain ⟨rfl, hclosed⟩ := h
      have hvalid : scan (.value 0) text ≠ .invalid := by
        rw [hclosed]
        exact fun h => by cases h
      cases s with
      | value depth =>
          have hraise := scan_raise depth text (.value 0) hvalid
          have hstart : step (.value depth) 0x7B = raise depth (.value 0) := by
            simp [step, raise]
          rw [scan_cons, hstart, hraise, hclosed]
          exact fun h => by cases h
      | string depth =>
          have hswapped := swapped_scan text (.outside 0 depth) hvalid
          have hstart : step (.string depth) 0x7B = .string depth := by
            simp [step]
          rw [scan_cons, hstart]
          rw [hclosed] at hswapped
          intro hend
          rw [hend] at hswapped
          cases hswapped
      | escape depth =>
          have hstart : step (.escape depth) 0x7B = .invalid := by
            simp [step, isEscape]
          rw [scan_cons, hstart, scan_invalid]
          exact fun h => by cases h
      | closed =>
          have hstart : step .closed 0x7B = .invalid := by
            simp [step, isBlank]
          rw [scan_cons, hstart, scan_invalid]
          exact fun h => by cases h
      | invalid =>
          rw [scan_invalid]
          exact fun h => by cases h

theorem not_complete_append
    {front text : List UInt8} (hfront : front ≠ []) (h : Complete text) :
    ¬ Complete (front ++ text) := by
  cases front with
  | nil => exact absurd rfl hfront
  | cons b front =>
      rintro ⟨_, hclosed⟩
      rw [List.append_eq, scan_append] at hclosed
      exact not_closed_append h _ hclosed

/-- A text is complete at its end only: what is cut off of it, blanks apart, is missing. -/
theorem not_complete_of_cut
    {front cut : List UInt8} (h : Complete (front ++ cut)) (hcut : ∃ b ∈ cut, isBlank b = false) :
    ¬ Complete front := by
  cases front with
  | nil => exact fun h => h
  | cons b front =>
      rintro ⟨rfl, hclosed⟩
      obtain ⟨_, hwhole⟩ := h
      obtain ⟨c, hc, hblank⟩ := hcut
      rw [List.append_eq, scan_append, hclosed] at hwhole
      have := isBlank_of_scan_closed hwhole c hc
      rw [hblank] at this
      cases this

end JsonScan
