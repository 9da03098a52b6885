import MqSentinel.RegexEngine

/-!
# Anchors

The zero-width tests at the borders of a text and of its lines, for any test of what ends
a line, and bounded repetition.

`Rx.Only P r` says that `r` takes only characters that satisfy `P`; every matched word
then consists of such characters (`lang_only`).
-/

namespace MqSentinel
namespace Regex
namespace Rx

universe u

variable {α : Type u}

/-- `^` -/
def textStart : Rx α :=
  look fun pre _ => pre.isEmpty

/-- `^` with `re.MULTILINE` -/
def lineStart (newline : α → Bool) : Rx α :=
  look fun pre _ => pre.head?.all newline

/-- `$`: at the end, or in front of a line end that is the last character. -/
def textEnd (newline : α → Bool) : Rx α :=
  look fun _ post => post.isEmpty || post.length == 1 && post.all newline

/-- `$` with `re.MULTILINE` -/
def lineEnd (newline : α → Bool) : Rx α :=
  look fun _ post => post.head?.all newline

/-- `r{0,n}` -/
def atMost (r : Rx α) : Nat → Rx α
  | 0 => eps
  | n + 1 => opt (seq r (atMost r n))

/-- `re.match`: the expression matches at the start of the text. -/
def matchesAt (r : Rx α) (text : List α) : Bool :=
  (first r [] text).isSome

theorem matchesAt_iff
    (r : Rx α) (text : List α) :
    matchesAt r text = true ↔ ∃ w v, text = w ++ v ∧ Lang r [] w v := by
  rw [matchesAt, Option.isSome_iff_ne_none, ne_eq, first_eq_none_iff]
  push Not
  rfl

/-- A match from the start of a text to its end, a last line end apart. -/
theorem matchesAt_anchored_iff
    (newline : α → Bool) (r : Rx α) (text : List α) :
    matchesAt (seq textStart (seq r (textEnd newline))) text = true ↔
      ∃ w v, text = w ++ v ∧ Lang r [] w v ∧
        (v = [] ∨ ∃ c, v = [c] ∧ newline c = true) := by
  have hend : ∀ v : List α, (v.isEmpty || v.length == 1 && v.all newline) = true ↔
      v = [] ∨ ∃ c, v = [c] ∧ newline c = true := by
    intro v
    match v with
    | [] => simp
    | [c] => simp
    | _ :: _ :: _ => simp
  rw [matchesAt_iff]
  constructor
  · rintro ⟨w, v, rfl, hw⟩
    rw [textStart, lang_seq_look, lang_seq] at hw
    obtain ⟨-, x, y, rfl, hx, rfl, hv⟩ := hw
    exact ⟨x, v, by simp, by simpa using hx, (hend v).mp hv⟩
  · rintro ⟨w, v, rfl, hw, hv⟩
    refine ⟨w, v, rfl, ?_⟩
    rw [textStart, lang_seq_look, lang_seq]
    exact ⟨rfl, w, [], by simp, by simpa using hw, rfl, (hend v).mpr hv⟩

/-- The expression takes only characters that satisfy `P`. -/
def Only (P : α → Prop) : Rx α → Prop
  | eps => True
  | cls p => ∀ c, p c = true → P c
  | look _ => True
  | ahead _ => True
  | seq r s => Only P r ∧ Only P s
  | alt r s => Only P r ∧ Only P s
  | star r => Only P r

theorem only_word
    {P : α → Prop} {ps : List (α → Bool)} (h : ∀ p ∈ ps, ∀ c, p c = true → P c) :
    Only P (word ps) := by
  induction ps with
  | nil =>
      trivial
  | cons p ps ih =>
      exact ⟨h p (by simp), ih fun q hq => h q (List.mem_cons_of_mem _ hq)⟩

theorem only_atMost
    {P : α → Prop} {r : Rx α} (h : Only P r) (n : Nat) :
    Only P (atMost r n) := by
  induction n with
  | zero =>
      trivial
  | succ n ih =>
      exact ⟨⟨h, ih⟩, trivial⟩

/-- The characters of a match. -/
theorem lang_only
    {P : α → Prop} {r : Rx α} (h : Only P r) :
    ∀ {pre w post : List α}, Lang r pre w post → ∀ c ∈ w, P c := by
  induction r with
  | eps =>
      rintro pre w post rfl c hc
      cases hc
  | cls p =>
      rintro pre w post ⟨d, rfl, hd⟩ c hc
      rw [List.mem_singleton.mp hc]
      exact h d hd
  | look f =>
      rintro pre w post ⟨rfl, -⟩ c hc
      cases hc
  | ahead r _ =>
      rintro pre w post ⟨rfl, -⟩ c hc
      cases hc
  | seq r s ihr ihs =>
      rintro pre w post ⟨u, v, rfl, hu, hv⟩ c hc
      rcases List.mem_append.mp hc with hc | hc
      · exact ihr h.1 hu c hc
      · exact ihs h.2 hv c hc
  | alt r s ihr ihs =>
      rintro pre w post (hw | hw)
      · exact ihr h.1 hw
      · exact ihs h.2 hw
  | star r ih =>
      intro pre w post hw
      change Iter (Lang r) pre w post at hw
      induction hw with
      | nil pre post =>
          intro c hc
          cases hc
      | cons _ hu _ ihv =>
          intro c hc
          rcases List.mem_append.mp hc with hc | hc
          · exact ih h hu c hc
          · exact ihv c hc

end Rx
end Regex
end MqSentinel
