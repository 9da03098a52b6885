import Mathlib.Data.List.Basic
import Mathlib.Tactic

/-!
# A backtracking regular-expression engine

Expressions over an arbitrary alphabet, with two meanings.

* `Rx.Lang r pre w post`: the word `w` is matched by `r` when it stands between
  the left context `pre` (written backwards, nearest character first) and the
  right context `post`.  Zero-width tests look at both contexts.
* `Rx.ends r pre post`: the lengths of the matches that start here, in the order
  in which a backtracking matcher tries them.  Its first entry is the match that
  such an engine reports.

`mem_ends_iff` shows that the two agree.  A class is a Boolean test, so the
engine does not know what a character is.
-/

namespace MqSentinel
namespace Regex

universe u

/-- Regular expressions with zero-width tests. -/
inductive Rx (α : Type u) where
  | eps
  | cls (p : α → Bool)
  | look (f : List α → List α → Bool)
  | ahead (r : Rx α)
  | seq (r s : Rx α)
  | alt (r s : Rx α)
  | star (r : Rx α)

namespace Rx

variable {α : Type u}

/-- Greedy option. -/
def opt (r : Rx α) : Rx α := alt r eps

/-- Greedy repetition, at least once. -/
def plus (r : Rx α) : Rx α := seq r (star r)

/-- One expression after another. -/
def seqs : List (Rx α) → Rx α
  | [] => eps
  | r :: rs => seq r (seqs rs)

/-- A word boundary for the word class `p`. -/
def edge (p : α → Bool) : Rx α :=
  look fun pre post => pre.head?.any p != post.head?.any p

/-- A one-character lookbehind. -/
def behind (p : α → Bool) : Rx α :=
  look fun pre _ => pre.head?.any p

/-- Repetitions of nonempty words of `L`, each in its own context. -/
inductive Iter (L : List α → List α → List α → Prop) :
    List α → List α → List α → Prop
  | nil (pre post : List α) : Iter L pre [] post
  | cons {pre u v post : List α} :
      u ≠ [] →
      L pre u (v ++ post) →
      Iter L (u.reverse ++ pre) v post →
      Iter L pre (u ++ v) post

/-- The words matched between a (reversed) left and a right context. -/
def Lang : Rx α → List α → List α → List α → Prop
  | eps, _, w, _ => w = []
  | cls p, _, w, _ => ∃ c, w = [c] ∧ p c = true
  | look f, pre, w, post => w = [] ∧ f pre post = true
  | ahead r, pre, w, post =>
      w = [] ∧ ∃ u v, post = u ++ v ∧ Lang r pre u v
  | seq r s, pre, w, post =>
      ∃ u v, w = u ++ v ∧ Lang r pre u (v ++ post) ∧
        Lang s (u.reverse ++ pre) v post
  | alt r s, pre, w, post => Lang r pre w post ∨ Lang s pre w post
  | star r, pre, w, post => Iter (Lang r) pre w post

/-- Repetition by a matcher `e`, longest first; every round must advance. -/
def starEnds (e : List α → List α → List Nat) :
    Nat → List α → List α → List Nat
  | 0, _, _ => [0]
  | fuel + 1, pre, post =>
      ((e pre post).filter (· ≠ 0)).flatMap (fun n =>
        (starEnds e fuel ((post.take n).reverse ++ pre) (post.drop n)).map (n + ·))
        ++ [0]

/-- Lengths of the matches that start here, in the matcher's order. -/
def ends : Rx α → List α → List α → List Nat
  | eps, _, _ => [0]
  | cls _, _, [] => []
  | cls p, _, c :: _ => if p c then [1] else []
  | look f, pre, post => if f pre post then [0] else []
  | ahead r, pre, post => if (ends r pre post).isEmpty then [] else [0]
  | seq r s, pre, post =>
      (ends r pre post).flatMap fun n =>
        (ends s ((post.take n).reverse ++ pre) (post.drop n)).map (n + ·)
  | alt r s, pre, post => ends r pre post ++ ends s pre post
  | star r, pre, post => starEnds (ends r) post.length pre post

/-- The match reported at this position, as its length. -/
def first (r : Rx α) (pre post : List α) : Option Nat :=
  (ends r pre post).head?

/-- Some match starts at or after this position. -/
def searchFrom (r : Rx α) : List α → List α → Bool
  | pre, [] => !(ends r pre []).isEmpty
  | pre, c :: cs => !(ends r pre (c :: cs)).isEmpty || searchFrom r (c :: pre) cs

/-- Some match starts somewhere in the text. -/
def search (r : Rx α) (text : List α) : Bool :=
  searchFrom r [] text

/-- The text has a match of `r` somewhere. -/
def HasMatch (r : Rx α) (text : List α) : Prop :=
  ∃ a w b, text = a ++ w ++ b ∧ Lang r a.reverse w b

@[simp] theorem lang_eps
    (pre w post : List α) :
    Lang eps pre w post ↔ w = [] := by
  rfl

@[simp] theorem lang_cls
    (p : α → Bool) (pre w post : List α) :
    Lang (cls p) pre w post ↔ ∃ c, w = [c] ∧ p c = true := by
  rfl

@[simp] theorem lang_look
    (f : List α → List α → Bool) (pre w post : List α) :
    Lang (look f) pre w post ↔ w = [] ∧ f pre post = true := by
  rfl

@[simp] theorem lang_alt
    (r s : Rx α) (pre w post : List α) :
    Lang (alt r s) pre w post ↔ Lang r pre w post ∨ Lang s pre w post := by
  rfl

@[simp] theorem lang_opt
    (r : Rx α) (pre w post : List α) :
    Lang (opt r) pre w post ↔ Lang r pre w post ∨ w = [] := by
  rfl

theorem lang_seq
    (r s : Rx α) (pre w post : List α) :
    Lang (seq r s) pre w post ↔
      ∃ u v, w = u ++ v ∧ Lang r pre u (v ++ post) ∧
        Lang s (u.reverse ++ pre) v post := by
  rfl

theorem lang_ahead
    (r : Rx α) (pre w post : List α) :
    Lang (ahead r) pre w post ↔
      w = [] ∧ ∃ u v, post = u ++ v ∧ Lang r pre u v := by
  rfl

/-- A class in front consumes exactly one character. -/
@[simp] theorem lang_seq_cls
    (p : α → Bool) (s : Rx α) (pre w post : List α) :
    Lang (seq (cls p) s) pre w post ↔
      ∃ c v, w = c :: v ∧ p c = true ∧ Lang s (c :: pre) v post := by
  rw [lang_seq]
  constructor
  · rintro ⟨u, v, rfl, ⟨c, rfl, hc⟩, hs⟩
    exact ⟨c, v, rfl, hc, hs⟩
  · rintro ⟨c, v, rfl, hc, hs⟩
    exact ⟨[c], v, rfl, ⟨c, rfl, hc⟩, hs⟩

/-- A zero-width test in front consumes nothing. -/
@[simp] theorem lang_seq_look
    (f : List α → List α → Bool) (s : Rx α) (pre w post : List α) :
    Lang (seq (look f) s) pre w post ↔
      f pre (w ++ post) = true ∧ Lang s pre w post := by
  rw [lang_seq]
  constructor
  · rintro ⟨u, v, rfl, ⟨rfl, hf⟩, hs⟩
    exact ⟨hf, hs⟩
  · rintro ⟨hf, hs⟩
    exact ⟨[], w, rfl, ⟨rfl, hf⟩, hs⟩

@[simp] theorem lang_seq_eps
    (s : Rx α) (pre w post : List α) :
    Lang (seq eps s) pre w post ↔ Lang s pre w post := by
  rw [lang_seq]
  constructor
  · rintro ⟨u, v, rfl, rfl, hs⟩
    exact hs
  · intro hs
    exact ⟨[], w, rfl, rfl, hs⟩

/-- Sequencing is associative. -/
theorem lang_seq_assoc
    (r s t : Rx α) (pre w post : List α) :
    Lang (seq (seq r s) t) pre w post ↔ Lang (seq r (seq s t)) pre w post := by
  simp only [lang_seq]
  constructor
  · rintro ⟨u, v, rfl, ⟨x, y, rfl, hx, hy⟩, hv⟩
    refine ⟨x, y ++ v, by simp, by simpa using hx, y, v, rfl, hy, ?_⟩
    simpa using hv
  · rintro ⟨x, z, rfl, hx, y, v, rfl, hy, hv⟩
    refine ⟨x ++ y, v, by simp, ⟨x, y, rfl, by simpa using hx, hy⟩, ?_⟩
    simpa using hv

/-- A repeated class matches exactly the words of that class. -/
theorem lang_star_cls
    (p : α → Bool) (pre w post : List α) :
    Lang (star (cls p)) pre w post ↔ ∀ c ∈ w, p c = true := by
  constructor
  · intro h
    change Iter (Lang (cls p)) pre w post at h
    induction h with
    | nil pre post =>
        intro c hc
        cases hc
    | cons hne hu hv ih =>
        obtain ⟨c, rfl, hc⟩ := hu
        intro d hd
        rcases List.mem_cons.mp hd with rfl | hd
        · exact hc
        · exact ih d hd
  · intro h
    change Iter (Lang (cls p)) pre w post
    induction w generalizing pre with
    | nil =>
        exact Iter.nil pre post
    | cons c w ih =>
        have hc : p c = true := h c (by simp)
        have hw := ih ([c].reverse ++ pre)
          (fun d hd => h d (List.mem_cons_of_mem _ hd))
        exact Iter.cons (u := [c]) (by simp) ⟨c, rfl, hc⟩ hw

theorem lang_plus_cls
    (p : α → Bool) (pre w post : List α) :
    Lang (plus (cls p)) pre w post ↔ w ≠ [] ∧ ∀ c ∈ w, p c = true := by
  unfold plus
  rw [lang_seq_cls]
  constructor
  · rintro ⟨c, v, rfl, hc, hv⟩
    rw [lang_star_cls] at hv
    refine ⟨by simp, ?_⟩
    intro d hd
    rcases List.mem_cons.mp hd with rfl | hd
    · exact hc
    · exact hv d hd
  · rintro ⟨hne, hall⟩
    cases w with
    | nil =>
        exact absurd rfl hne
    | cons c v =>
        refine ⟨c, v, rfl, hall c (by simp), ?_⟩
        rw [lang_star_cls]
        exact fun d hd => hall d (List.mem_cons_of_mem _ hd)

/-- A literal prefix, one class for each character. -/
def word (ps : List (α → Bool)) : Rx α :=
  seqs (ps.map cls)

/-- `w` is matched letter by letter by the classes `ps`. -/
def Fits (ps : List (α → Bool)) (w : List α) : Prop :=
  List.Forall₂ (fun p c => p c = true) ps w

instance (ps : List (α → Bool)) (w : List α) : Decidable (Fits ps w) :=
  inferInstanceAs (Decidable (List.Forall₂ (fun p c => p c = true) ps w))

theorem lang_seq_word
    (ps : List (α → Bool)) (s : Rx α) (pre w post : List α) :
    Lang (seq (word ps) s) pre w post ↔
      ∃ u v, w = u ++ v ∧ Fits ps u ∧ Lang s (u.reverse ++ pre) v post := by
  induction ps generalizing pre w with
  | nil =>
      simp [word, seqs, Fits]
  | cons p ps ih =>
      have hstep :
          Lang (seq (word (p :: ps)) s) pre w post ↔
            Lang (seq (cls p) (seq (word ps) s)) pre w post := by
        exact lang_seq_assoc (cls p) (word ps) s pre w post
      rw [hstep, lang_seq_cls]
      constructor
      · rintro ⟨c, v, rfl, hc, hv⟩
        obtain ⟨x, y, rfl, hx, hy⟩ := (ih (c :: pre) v).mp hv
        exact ⟨c :: x, y, rfl, List.Forall₂.cons hc hx, by simpa using hy⟩
      · rintro ⟨u, v, rfl, hu, hv⟩
        cases hu with
        | @cons _ c _ x hc hx =>
            refine ⟨c, x ++ v, rfl, hc, ?_⟩
            exact (ih (c :: pre) (x ++ v)).mpr ⟨x, v, rfl, hx, by simpa using hv⟩

theorem lang_word
    (ps : List (α → Bool)) (pre w post : List α) :
    Lang (word ps) pre w post ↔ Fits ps w := by
  induction ps generalizing pre w with
  | nil =>
      simp [word, seqs, Fits]
  | cons p ps ih =>
      have hstep :
          Lang (word (p :: ps)) pre w post ↔
            Lang (seq (cls p) (word ps)) pre w post := by
        rfl
      rw [hstep, lang_seq_cls]
      constructor
      · rintro ⟨c, v, rfl, hc, hv⟩
        exact List.Forall₂.cons hc ((ih (c :: pre) v).mp hv)
      · intro hw
        cases hw with
        | @cons _ c _ x hc hx =>
            exact ⟨c, x, rfl, hc, (ih (c :: pre) x).mpr hx⟩

/-- The text starts with a word that fits `ps`. -/
def startsWith : List (α → Bool) → List α → Bool
  | [], _ => true
  | _ :: _, [] => false
  | p :: ps, c :: cs => p c && startsWith ps cs

theorem startsWith_iff
    (ps : List (α → Bool)) (s : List α) :
    startsWith ps s = true ↔ ∃ u v, s = u ++ v ∧ Fits ps u := by
  induction ps generalizing s with
  | nil =>
      simp only [startsWith, true_iff]
      exact ⟨[], s, rfl, List.Forall₂.nil⟩
  | cons p ps ih =>
      cases s with
      | nil =>
          constructor
          · intro h
            cases h
          · rintro ⟨u, v, hsplit, hu⟩
            obtain rfl := (List.append_eq_nil_iff.mp hsplit.symm).1
            cases hu
      | cons c s =>
          rw [startsWith, Bool.and_eq_true, ih]
          constructor
          · rintro ⟨hc, u, v, rfl, hu⟩
            exact ⟨c :: u, v, rfl, List.Forall₂.cons hc hu⟩
          · rintro ⟨u, v, hsplit, hu⟩
            cases hu with
            | @cons _ d _ u hd hu =>
                obtain ⟨rfl, rfl⟩ := List.cons.inj hsplit
                exact ⟨hd, u, v, rfl, hu⟩

/-- A character that fits none of the classes ends the text for them. -/
theorem startsWith_append_stop
    {ps : List (α → Bool)} {d : α} (hd : ∀ p ∈ ps, p d = false) (x t : List α) :
    startsWith ps (x ++ d :: t) = startsWith ps x := by
  induction ps generalizing x with
  | nil =>
      rfl
  | cons p ps ih =>
      cases x with
      | nil =>
          simp [startsWith, hd p (by simp)]
      | cons c x =>
          have htail := ih (fun q hq => hd q (List.mem_cons_of_mem _ hq)) x
          simp only [List.cons_append, startsWith, htail]

/-- What it means for a list of lengths to enumerate a language at a position. -/
def Enumerates
    (e : List α → List α → List Nat)
    (L : List α → List α → List α → Prop) : Prop :=
  ∀ pre post n,
    n ∈ e pre post ↔ ∃ w v, post = w ++ v ∧ w.length = n ∧ L pre w v

/-- The continuation after a first part of length `n`. -/
theorem mem_after_iff
    {e : List α → List α → List Nat}
    {L : List α → List α → List α → Prop}
    (he : Enumerates e L)
    (pre u v : List α) (k : Nat) :
    k ∈ (e (((u ++ v).take u.length).reverse ++ pre) ((u ++ v).drop u.length)).map
        (u.length + ·) ↔
      ∃ x y, v = x ++ y ∧ u.length + x.length = k ∧ L (u.reverse ++ pre) x y := by
  rw [List.take_left, List.drop_left, List.mem_map]
  constructor
  · rintro ⟨n, hn, rfl⟩
    obtain ⟨x, y, rfl, rfl, hx⟩ := (he _ _ n).mp hn
    exact ⟨x, y, rfl, rfl, hx⟩
  · rintro ⟨x, y, rfl, rfl, hx⟩
    exact ⟨x.length, (he _ _ _).mpr ⟨x, y, rfl, rfl, hx⟩, rfl⟩

theorem mem_starEnds_iff
    {e : List α → List α → List Nat}
    {L : List α → List α → List α → Prop}
    (he : Enumerates e L) :
    ∀ (fuel : Nat) (pre post : List α) (k : Nat), post.length ≤ fuel →
      (k ∈ starEnds e fuel pre post ↔
        ∃ w v, post = w ++ v ∧ w.length = k ∧ Iter L pre w v)
  | 0, pre, post, k, hfuel => by
      have hpost : post = [] := List.length_eq_zero_iff.mp (by omega)
      subst hpost
      simp only [starEnds, List.mem_singleton]
      constructor
      · rintro rfl
        exact ⟨[], [], rfl, rfl, Iter.nil _ _⟩
      · rintro ⟨w, v, hw, rfl, _⟩
        simp [List.append_eq_nil_iff.mp hw.symm |>.1]
  | fuel + 1, pre, post, k, hfuel => by
      simp only [starEnds, List.mem_append, List.mem_flatMap, List.mem_filter,
        List.mem_singleton]
      constructor
      · rintro (⟨n, ⟨hn, hn0⟩, hk⟩ | rfl)
        · obtain ⟨u, v, rfl, rfl, hu⟩ := (he _ _ n).mp hn
          have hune : u ≠ [] := by
            intro h
            simp [h] at hn0
          rw [List.take_left, List.drop_left, List.mem_map] at hk
          obtain ⟨m, hm, rfl⟩ := hk
          have hlen : v.length ≤ fuel := by
            have := List.length_pos_iff.mpr hune
            simp only [List.length_append] at hfuel
            omega
          obtain ⟨x, y, rfl, rfl, hx⟩ :=
            (mem_starEnds_iff he fuel _ _ m hlen).mp hm
          exact ⟨u ++ x, y, by simp, by simp, Iter.cons hune hu hx⟩
        · exact ⟨[], post, rfl, rfl, Iter.nil _ _⟩
      · rintro ⟨w, v, rfl, rfl, hw⟩
        cases hw with
        | nil =>
            exact Or.inr rfl
        | @cons _ u x _ hne hu hx =>
            left
            have hpos := List.length_pos_iff.mpr hne
            refine ⟨u.length, ⟨?_, by simpa using hpos.ne'⟩, ?_⟩
            · exact (he _ _ _).mpr ⟨u, x ++ v, by simp, rfl, hu⟩
            · rw [List.append_assoc, List.take_left, List.drop_left, List.mem_map]
              have hlen : (x ++ v).length ≤ fuel := by
                simp only [List.length_append] at hfuel ⊢
                omega
              refine ⟨x.length, ?_, by simp⟩
              exact (mem_starEnds_iff he fuel _ _ _ hlen).mpr
                ⟨x, v, rfl, rfl, hx⟩

/-- **The matcher enumerates the language of its expression.** -/
theorem enumerates_ends (r : Rx α) : Enumerates (ends r) (Lang r) := by
  induction r with
  | eps =>
      intro pre post n
      simp only [ends, List.mem_singleton, lang_eps]
      constructor
      · rintro rfl
        exact ⟨[], post, rfl, rfl, rfl⟩
      · rintro ⟨w, v, _, rfl, rfl⟩
        rfl
  | cls p =>
      intro pre post n
      cases post with
      | nil =>
          simp [ends]
      | cons c cs =>
          by_cases hc : p c = true
          · simp only [ends, hc, if_true, List.mem_singleton, lang_cls]
            constructor
            · rintro rfl
              exact ⟨[c], cs, rfl, rfl, c, rfl, hc⟩
            · rintro ⟨w, v, _, rfl, d, rfl, _⟩
              rfl
          · simp only [ends, hc]
            constructor
            · intro h
              cases h
            · rintro ⟨w, v, hw, _, d, rfl, hd⟩
              simp only [List.singleton_append, List.cons.injEq] at hw
              rw [hw.1] at hc
              exact absurd hd hc
  | look f =>
      intro pre post n
      by_cases hf : f pre post = true
      · simp only [ends, hf, if_true, List.mem_singleton, lang_look]
        constructor
        · rintro rfl
          exact ⟨[], post, rfl, rfl, rfl, hf⟩
        · rintro ⟨w, v, _, rfl, rfl, _⟩
          rfl
      · simp only [ends, hf, lang_look]
        constructor
        · intro h
          cases h
        · rintro ⟨w, v, rfl, _, rfl, hv⟩
          exact absurd hv hf
  | ahead r ih =>
      intro pre post n
      have hempty : (ends r pre post).isEmpty = false ↔
          ∃ u v, post = u ++ v ∧ Lang r pre u v := by
        rw [List.isEmpty_eq_false_iff_exists_mem]
        constructor
        · rintro ⟨m, hm⟩
          obtain ⟨u, v, hp, _, hu⟩ := (ih _ _ m).mp hm
          exact ⟨u, v, hp, hu⟩
        · rintro ⟨u, v, hp, hu⟩
          exact ⟨u.length, (ih _ _ _).mpr ⟨u, v, hp, rfl, hu⟩⟩
      simp only [ends, lang_ahead]
      cases hb : (ends r pre post).isEmpty with
      | true =>
          simp only [if_true]
          constructor
          · intro h
            cases h
          · rintro ⟨w, v, rfl, _, rfl, hv⟩
            rw [List.nil_append] at hb
            exact absurd (hempty.mpr hv) (by simp [hb])
      | false =>
          simp only [Bool.false_eq_true, if_false, List.mem_singleton]
          constructor
          · rintro rfl
            exact ⟨[], post, rfl, rfl, rfl, hempty.mp hb⟩
          · rintro ⟨w, v, _, rfl, rfl, _⟩
            rfl
  | seq r s ihr ihs =>
      intro pre post n
      simp only [ends, List.mem_flatMap, lang_seq]
      constructor
      · rintro ⟨m, hm, hn⟩
        obtain ⟨u, v, rfl, rfl, hu⟩ := (ihr _ _ m).mp hm
        obtain ⟨x, y, rfl, rfl, hx⟩ := (mem_after_iff ihs pre u v n).mp hn
        exact ⟨u ++ x, y, by simp, by simp, u, x, rfl, hu, hx⟩
      · rintro ⟨w, v, rfl, rfl, u, x, rfl, hu, hx⟩
        refine ⟨u.length, (ihr _ _ _).mpr ⟨u, x ++ v, by simp, rfl, hu⟩, ?_⟩
        rw [List.append_assoc]
        exact (mem_after_iff ihs pre u (x ++ v) _).mpr
          ⟨x, v, rfl, by simp, hx⟩
  | alt r s ihr ihs =>
      intro pre post n
      simp only [ends, List.mem_append, lang_alt, ihr pre post n, ihs pre post n]
      constructor
      · rintro (⟨w, v, hp, hl, h⟩ | ⟨w, v, hp, hl, h⟩)
        · exact ⟨w, v, hp, hl, Or.inl h⟩
        · exact ⟨w, v, hp, hl, Or.inr h⟩
      · rintro ⟨w, v, hp, hl, h | h⟩
        · exact Or.inl ⟨w, v, hp, hl, h⟩
        · exact Or.inr ⟨w, v, hp, hl, h⟩
  | star r ih =>
      intro pre post n
      exact mem_starEnds_iff ih post.length pre post n le_rfl

theorem mem_ends_iff
    (r : Rx α) (pre post : List α) (n : Nat) :
    n ∈ ends r pre post ↔
      ∃ w v, post = w ++ v ∧ w.length = n ∧ Lang r pre w v :=
  enumerates_ends r pre post n

/-- A reported match is a match. -/
theorem lang_of_first
    {r : Rx α} {pre post : List α} {n : Nat}
    (h : first r pre post = some n) :
    ∃ w v, post = w ++ v ∧ w.length = n ∧ Lang r pre w v := by
  apply (mem_ends_iff r pre post n).mp
  exact List.mem_of_mem_head? (by simpa [first] using h)

/-- Nothing is reported exactly where nothing matches. -/
theorem first_eq_none_iff
    (r : Rx α) (pre post : List α) :
    first r pre post = none ↔ ∀ w v, post = w ++ v → ¬ Lang r pre w v := by
  unfold first
  rw [List.head?_eq_none_iff, List.eq_nil_iff_forall_not_mem]
  constructor
  · intro h w v hp hw
    exact h w.length ((mem_ends_iff r pre post _).mpr ⟨w, v, hp, rfl, hw⟩)
  · intro h n hn
    obtain ⟨w, v, hp, _, hw⟩ := (mem_ends_iff r pre post n).mp hn
    exact h w v hp hw

/-- Where at most one word can match, the matcher reports that word. -/
theorem first_eq_some_of_unique
    {r : Rx α} {pre w v : List α}
    (hw : Lang r pre w v)
    (hunique : ∀ x y, w ++ v = x ++ y → Lang r pre x y → x = w) :
    first r pre (w ++ v) = some w.length := by
  cases hfirst : first r pre (w ++ v) with
  | none =>
      exact absurd hw ((first_eq_none_iff r pre _).mp hfirst w v rfl)
  | some n =>
      obtain ⟨x, y, hsplit, rfl, hx⟩ := lang_of_first hfirst
      rw [hunique x y hsplit hx]

theorem searchFrom_iff
    (r : Rx α) (pre post : List α) :
    searchFrom r pre post = true ↔
      ∃ a w b, post = a ++ w ++ b ∧ Lang r (a.reverse ++ pre) w b := by
  have hhere : ∀ pre post : List α,
      (!(ends r pre post).isEmpty) = true ↔
        ∃ w b, post = w ++ b ∧ Lang r pre w b := by
    intro pre post
    rw [Bool.not_eq_true', List.isEmpty_eq_false_iff_exists_mem]
    constructor
    · rintro ⟨n, hn⟩
      obtain ⟨w, b, hp, _, hw⟩ := (mem_ends_iff r pre post n).mp hn
      exact ⟨w, b, hp, hw⟩
    · rintro ⟨w, b, hp, hw⟩
      exact ⟨w.length, (mem_ends_iff r pre post _).mpr ⟨w, b, hp, rfl, hw⟩⟩
  induction post generalizing pre with
  | nil =>
      rw [searchFrom, hhere]
      constructor
      · rintro ⟨w, b, hp, hw⟩
        exact ⟨[], w, b, hp, hw⟩
      · rintro ⟨a, w, b, hp, hw⟩
        obtain ⟨haw, rfl⟩ := List.append_eq_nil_iff.mp hp.symm
        obtain ⟨rfl, rfl⟩ := List.append_eq_nil_iff.mp haw
        exact ⟨[], [], rfl, hw⟩
  | cons c cs ih =>
      simp only [searchFrom, Bool.or_eq_true, hhere, ih (c :: pre)]
      constructor
      · rintro (⟨w, b, hp, hw⟩ | ⟨a, w, b, rfl, hw⟩)
        · exact ⟨[], w, b, hp, hw⟩
        · exact ⟨c :: a, w, b, rfl, by simpa using hw⟩
      · rintro ⟨a, w, b, hp, hw⟩
        cases a with
        | nil =>
            exact Or.inl ⟨w, b, hp, hw⟩
        | cons d a =>
            obtain ⟨rfl, rfl⟩ := List.cons.inj hp
            exact Or.inr ⟨a, w, b, rfl, by simpa using hw⟩

/-- The search finds a match exactly when the text has one. -/
theorem search_iff_hasMatch
    (r : Rx α) (text : List α) :
    search r text = true ↔ HasMatch r text := by
  simp [search, HasMatch, searchFrom_iff]

instance (r : Rx α) (text : List α) : Decidable (HasMatch r text) :=
  decidable_of_iff _ (search_iff_hasMatch r text)

end Rx
end Regex
end MqSentinel
