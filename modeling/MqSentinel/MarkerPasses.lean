import MqSentinel.InjectionCores

/-!
# What the passes leave

A core can escape its own pass in two ways.  It is glued to the word character behind
it, so that no boundary closes it; or it is glued to a heading `### system` in front,
which the last pass replaces.  `Avoids` lemmas say that no other marker overlaps such a
place, so every pass carries it on; and read backwards, what is left of a core in front
of the guard was such a place from the start.
-/

namespace MqSentinel
namespace Sanitizer

open Regex CodePoint

/-- The words of the markers in brackets. -/
def fencedWords : List PyStr :=
  [ lit "</system>", lit "<system>", lit "</assistant>", lit "<assistant>", lit "</user>",
    lit "<user>", lit "[[system]]" ]

/-- How a run of characters starts that the passes must not touch. -/
def runHeads : List PyStr :=
  heads ++ [lit "##"]

section Fenced

theorem spells_tag_system :
    Spells [lit "</system>", lit "<system>"] (tag "system") := by
  refine ((spells_ciRx "<").seq ((spells_ciRx "/").opt.seq (spells_ciRx "system>"))).of_eq ?_
  simp only [lit, String.reduceToList, List.map_cons, List.map_nil]
  decide +kernel

theorem spells_tag_assistant :
    Spells [lit "</assistant>", lit "<assistant>"] (tag "assistant") := by
  refine ((spells_ciRx "<").seq ((spells_ciRx "/").opt.seq
    (spells_ciRx "assistant>"))).of_eq ?_
  simp only [lit, String.reduceToList, List.map_cons, List.map_nil]
  decide +kernel

theorem spells_tag_user :
    Spells [lit "</user>", lit "<user>"] (tag "user") := by
  refine ((spells_ciRx "<").seq ((spells_ciRx "/").opt.seq (spells_ciRx "user>"))).of_eq ?_
  simp only [lit, String.reduceToList, List.map_cons, List.map_nil]
  decide +kernel

theorem spells_systemBrackets :
    Spells [lit "[[system]]"] systemBrackets := by
  refine (spells_ciRx "[[SYSTEM]]").of_eq ?_
  simp only [lit, String.reduceToList, List.map_cons, List.map_nil]
  decide +kernel

/-- A marker in brackets starts with a bracket and has none of the run heads inside. -/
theorem fencedWords_shape :
    ∀ x ∈ fencedWords, (∃ c ∈ x.head?, c ∈ [ch '<', ch '[']) ∧
      ∀ k < x.length, ∀ h ∈ runHeads, ¬ (x.drop k).take 2 <+: h := by
  simp only [fencedWords, runHeads, heads, lit, String.reduceToList, List.map_cons, List.map_nil]
  decide +kernel

/-- A run that starts with a run head and has no opening bracket. -/
structure Run (v : PyStr) : Prop where
  head : ∃ c d t, v = c :: d :: t ∧ [c.reFold, d.reFold] ∈ runHeads
  unfenced : ∀ c ∈ v, c ≠ ch '<' ∧ c ≠ ch '['

/-- Where a word of a run head starts inside a word, the next two characters are that. -/
theorem take_two_prefix
    {m e t : PyStr} {c d : CodePoint} (hm : m ≠ []) (h : m ++ e = c :: d :: t) :
    (m.map reFold).take 2 <+: [c.reFold, d.reFold] := by
  match m, hm, h with
  | [x], _, h =>
      obtain ⟨rfl, -⟩ := List.cons.inj h
      simp
  | x :: y :: m, _, h =>
      obtain ⟨rfl, htail⟩ := List.cons.inj h
      obtain ⟨rfl, -⟩ := List.cons.inj htail
      simp

/-- No marker in brackets overlaps a run. -/
theorem avoids_of_fenced
    {L : List PyStr} {q : Rx CodePoint} (hq : Spells L q) (hL : ∀ x ∈ L, x ∈ fencedWords)
    {v : PyStr} (hv : Run v) (a b : PyStr) :
    Avoids q a v b := by
  intro d m e htext hm
  have hmem : m.map reFold ∈ fencedWords := hL _ ((hq _ _ _).mp hm)
  obtain ⟨⟨f, hf, hopen⟩, hinside⟩ := fencedWords_shape _ hmem
  rcases overlap_cases htext with h | h | ⟨v₁, v₂, rfl, hv₂, -, hrest⟩ |
    ⟨m₁, m₂, rfl, hm₁, hm₂, -, hrest⟩
  · exact Or.inl h
  · exact Or.inr h
  · exfalso
    obtain ⟨c, t, rfl⟩ : ∃ c t, m = c :: t := by
      cases m with
      | nil =>
          cases hf
      | cons c t =>
          exact ⟨c, t, rfl⟩
    obtain rfl : c.reFold = f := by simpa using hf
    cases v₂ with
    | nil =>
        exact hv₂ rfl
    | cons c' v₂ =>
        obtain ⟨rfl, -⟩ := List.cons.inj hrest
        obtain ⟨hlt, hbracket⟩ := hv.unfenced c (by simp)
        simp only [List.mem_cons, List.not_mem_nil, or_false] at hopen
        rcases hopen with hopen | hopen
        · exact hlt (eq_of_reFold (by decide) hopen)
        · exact hbracket (eq_of_reFold (by decide) hopen)
  · exfalso
    obtain ⟨c, d, t, rfl, hhead⟩ := hv.head
    have hpos := List.length_pos_iff.mpr hm₂
    have hdrop : ((m₁ ++ m₂).map reFold).drop m₁.length = m₂.map reFold := by
      rw [List.map_append, List.drop_append_of_le_length (by simp),
        List.drop_of_length_le (by simp), List.nil_append]
    refine hinside m₁.length (by simpa using hpos) _ hhead ?_
    rw [hdrop]
    exact take_two_prefix hm₂ (by simpa using hrest)

end Fenced

section Heading

/-- No core starts inside `system`. -/
theorem heads_system :
    ∀ k < 6, ∀ h ∈ heads, ¬ ((lit "system").drop k).take 2 <+: h := by
  decide +kernel

/-- `### system` as `systemHeading` matches it. -/
structure IsHeading (m s y : PyStr) : Prop where
  text : m = lit "###" ++ s ++ y
  spaces : ∀ c ∈ s, c.isSpace = true
  folds : y.map reFold = lit "system"

theorem lang_systemHeading_iff
    (pre m post : PyStr) :
    Rx.Lang systemHeading pre m post ↔ ∃ s y, IsHeading m s y := by
  have hhashes : ∀ pre h post, Rx.Lang (ciRx "###") pre h post ↔ h = lit "###" := by
    intro pre h post
    rw [ciRx, Rx.lang_word, fits_ci_iff]
    constructor
    · intro hfold
      have hfold : h.map reFold = [ch '#', ch '#', ch '#'] := hfold
      obtain ⟨a, t, rfl, ha, ht⟩ := List.map_eq_cons_iff.mp hfold
      obtain ⟨b, t, rfl, hb, ht⟩ := List.map_eq_cons_iff.mp ht
      obtain ⟨c, t, rfl, hc, ht⟩ := List.map_eq_cons_iff.mp ht
      obtain rfl := List.map_eq_nil_iff.mp ht
      rw [eq_of_reFold (by decide) ha, eq_of_reFold (by decide) hb, eq_of_reFold (by decide) hc]
      rfl
    · rintro rfl
      rfl
  have hsystem : ∀ pre y post, Rx.Lang (ciRx "system") pre y post ↔
      y.map reFold = lit "system" := by
    intro pre y post
    rw [ciRx, Rx.lang_word, fits_ci_iff]
    exact Iff.rfl
  rw [systemHeading, Rx.lang_seq]
  constructor
  · rintro ⟨h, t, rfl, hh, ht⟩
    obtain ⟨s, y, rfl, hs, hy⟩ := (Rx.lang_seq _ _ _ _ _).mp ht
    obtain rfl := (hhashes _ _ _).mp hh
    exact ⟨s, y, by simp, (Rx.lang_star_cls _ _ _ _).mp hs, (hsystem _ _ _).mp hy⟩
  · rintro ⟨s, y, rfl, hs, hy⟩
    refine ⟨lit "###", s ++ y, by simp, (hhashes _ _ _).mpr rfl, ?_⟩
    rw [Rx.lang_seq]
    exact ⟨s, y, rfl, (Rx.lang_star_cls _ _ _ _).mpr hs, (hsystem _ _ _).mpr hy⟩

end Heading

section Opens

variable {U : UnicodeData}

/-- The markers that start at a word boundary. -/
def openMarkers (U : UnicodeData) : List (Rx CodePoint) :=
  [word U ignorePrevious, word U disregardPrior, word U youAreNow,
    Rx.seq (Rx.edge U.isWord) (Rx.seq newInstructions (Rx.star (Rx.cls isSpace)))]

/-- What such a marker matches: a core at a boundary, and white space behind it. -/
structure Opening (U : UnicodeData) (pre m post n s : PyStr) : Prop where
  start : NoWord U pre
  text : m = n ++ s
  core : IsCore n
  spaces : ∀ c ∈ s, c.isSpace = true
  closed : IsClosed n → NoWord U (s ++ post)

theorem exists_opening
    (hletters : FoldedLetters U) {p : Rx CodePoint} (hp : p ∈ openMarkers U)
    {pre m post : PyStr} (h : Rx.Lang p pre m post) :
    ∃ n s, Opening U pre m post n s := by
  have hword : ∀ {L : List PyStr} {core : Rx CodePoint}, Spells L core →
      (∀ x ∈ L, x ∈ closedWords) → Rx.Lang (word U core) pre m post →
        ∃ n s, Opening U pre m post n s := by
    intro L core hspells hL hm
    obtain ⟨hcore, hpre, hpost⟩ := (lang_word_iff hletters hspells hL pre m post).mp hm
    exact ⟨m, [], hpre, by simp, IsClosed.isCore (hL _ hcore), by simp, fun _ => hpost⟩
  simp only [openMarkers, List.mem_cons, List.not_mem_nil, or_false] at hp
  rcases hp with rfl | rfl | rfl | rfl
  · exact hword spells_ignorePrevious (fun x hx => by simp [closedWords, hx]) h
  · exact hword spells_disregardPrior (fun x hx => by simp [closedWords, hx]) h
  · exact hword spells_youAreNow (fun x hx => by simp [closedWords, hx]) h
  · obtain ⟨hpre, n, s, rfl, hn, hs⟩ := (lang_newInstructions_iff hletters pre m post).mp h
    refine ⟨n, s, hpre, rfl, List.mem_append_right _ hn, hs, ?_⟩
    intro hclosed
    exact absurd hn (newWords_closed _ hclosed)

/-- A closed core between boundaries is matched, and a core with a colon at every one. -/
theorem exists_lang_of_core
    (hletters : FoldedLetters U) {w : PyStr} (hw : IsCore w) :
    ∃ p ∈ openMarkers U, ∀ pre post, NoWord U pre → (IsClosed w → NoWord U post) →
      Rx.Lang p pre w post := by
  have hword : ∀ {L : List PyStr} {core : Rx CodePoint}, Spells L core →
      (∀ x ∈ L, x ∈ closedWords) → w.map reFold ∈ L → ∀ pre post, NoWord U pre →
        (IsClosed w → NoWord U post) → Rx.Lang (word U core) pre w post := by
    intro L core hspells hL hmem pre post hpre hpost
    exact (lang_word_iff hletters hspells hL pre w post).mpr ⟨hmem, hpre, hpost (hL _ hmem)⟩
  rcases List.mem_append.mp hw with hclosed | hnew
  · simp only [closedWords, List.mem_append] at hclosed
    rcases hclosed with (hw | hw) | hw
    · exact ⟨_, by simp [openMarkers],
        hword spells_ignorePrevious (fun x hx => by simp [closedWords, hx]) hw⟩
    · exact ⟨_, by simp [openMarkers],
        hword spells_disregardPrior (fun x hx => by simp [closedWords, hx]) hw⟩
    · exact ⟨_, by simp [openMarkers],
        hword spells_youAreNow (fun x hx => by simp [closedWords, hx]) hw⟩
  · refine ⟨Rx.seq (Rx.edge U.isWord) (Rx.seq newInstructions (Rx.star (Rx.cls isSpace))),
      by simp [openMarkers], fun pre post hpre _ => ?_⟩
    exact (lang_newInstructions_iff hletters pre w post).mpr ⟨hpre, w, [], by simp, hnew, by simp⟩

/-- A core does not start inside another one, where a word could start. -/
theorem no_core_inside
    (hletters : FoldedLetters U) {w₁ w₂ n e b : PyStr} (hw : IsCore (w₁ ++ w₂)) (hw₁ : w₁ ≠ [])
    (hw₂ : w₂ ≠ []) (hstart : NoWord U w₁.reverse) (hn : IsCore n) (h : n ++ e = w₂ ++ b) :
    False := by
  obtain ⟨front, c, rfl⟩ := List.eq_nil_or_concat w₁ |>.resolve_left hw₁
  rw [List.concat_eq_append] at hw hstart
  have hnotword : U.isWord c = false := by
    simpa [NoWord] using hstart
  have hgap : isGap c.reFold = true := by
    rcases hw.chars c (by simp) with hlower | hgap
    · rw [isWord_of_fold hletters hlower] at hnotword
      cases hnotword
    · exact hgap
  obtain ⟨x, y, t, rfl, hhead⟩ := hn.two
  have hpos := List.length_pos_iff.mpr hw₂
  refine coreWords_inside _ hw (front.length + 1) (by simp; omega) (by omega) ?_ _ hhead ?_
  · refine ⟨c.reFold, ?_, hgap⟩
    have htake : ((front ++ [c] ++ w₂).map reFold).take (front.length + 1) =
        (front ++ [c]).map reFold := by
      rw [List.map_append, List.take_left' (by simp)]
    rw [htake]
    simp
  · have hdrop : ((front ++ [c] ++ w₂).map reFold).drop (front.length + 1) = w₂.map reFold := by
      rw [List.map_append, List.drop_left' (by simp)]
    rw [hdrop]
    exact take_two_prefix hw₂ (by simpa using h.symm)

/-- The first letter of a core is none of these. -/
theorem IsCore.head_ne
    {n e : PyStr} {c : CodePoint} {t : PyStr} (hn : IsCore n) (h : n ++ e = c :: t) :
    c.reFold.isLowerAscii = true := by
  obtain ⟨x, y, t', rfl, hhead⟩ := hn.two
  obtain ⟨rfl, -⟩ := List.cons.inj h
  exact heads_lower _ hhead _ (by simp)

/-- The core that a match starts with ends where another core at this place does. -/
theorem core_of_same_start
    {n w e b : PyStr} (hn : IsCore n) (hw : IsCore w) (h : n ++ e = w ++ b) :
    n = w ∨ (IsClosed w ∧ ∃ c, n = w ++ [c] ∧ c.reFold = ch 's') ∨
      (IsClosed n ∧ ∃ c, w = n ++ [c] ∧ c.reFold = ch 's') := by
  have hext : ∀ {x y : PyStr}, IsCore x → IsCore y → ∀ t, y = x ++ t →
      x = y ∨ (IsClosed x ∧ ∃ c, y = x ++ [c] ∧ c.reFold = ch 's') := by
    rintro x _ hx hy t rfl
    rcases coreWords_prefix _ hx _ hy (by simp) with heq | ⟨hclosed, heq⟩
    · left
      rw [List.map_append] at heq
      have hnil : t.map reFold = [] := by simpa using heq
      rw [List.map_eq_nil_iff.mp hnil, List.append_nil]
    · right
      rw [List.map_append] at heq
      obtain ⟨c, rfl, hc⟩ := List.map_eq_singleton_iff.mp (List.append_cancel_left heq)
      exact ⟨hclosed, c, rfl, hc⟩
  rcases List.append_eq_append_iff.mp h with ⟨t, hwn, -⟩ | ⟨t, hnw, -⟩
  · rcases hext hn hw t hwn with heq | hlong
    · exact Or.inl heq
    · exact Or.inr (Or.inr hlong)
  · rcases hext hw hn t hnw with heq | hlong
    · exact Or.inl heq.symm
    · exact Or.inr (Or.inl hlong)

theorem not_word_of_space
    {c : CodePoint} (hc : c.isSpace = true) :
    U.isWord c = false := by
  have hunderscore : c ≠ ch '_' := by
    rintro rfl
    revert hc
    decide
  rw [UnicodeData.isWord, U.isalnum_space c hc, Bool.false_or, beq_eq_false_iff_ne]
  exact hunderscore

/-- Only the last character counts. -/
theorem noWord_reverse_append
    {x y : PyStr} (hy : y ≠ []) :
    NoWord U (x ++ y).reverse ↔ NoWord U y.reverse := by
  obtain ⟨c, t, h⟩ := List.exists_cons_of_ne_nil (List.reverse_ne_nil_iff.mpr hy)
  rw [List.reverse_append, h]
  exact Iff.rfl

/-- Nor does a core start where a match goes on, behind a place where no word does. -/
theorem no_core_across
    (hletters : FoldedLetters U) {m₁ m₂ n s e w b : PyStr} (hn : IsCore n)
    (hs : ∀ c ∈ s, c.isSpace = true) (htext : n ++ s = m₁ ++ m₂) (hm₁ : m₁ ≠ []) (hm₂ : m₂ ≠ [])
    (hstart : NoWord U m₁.reverse) (hw : IsCore w) (h : m₂ ++ e = w ++ b) :
    False := by
  have hspaces : ¬ ∀ c ∈ m₂, c.isSpace = true := by
    intro hall
    obtain ⟨c, t, rfl⟩ := List.exists_cons_of_ne_nil hm₂
    have hword := isWord_of_fold hletters (hw.head_ne h.symm)
    rw [not_word_of_space (hall c (by simp))] at hword
    cases hword
  rcases List.append_eq_append_iff.mp htext with ⟨z, rfl, rfl⟩ | ⟨z, rfl, rfl⟩
  · exact hspaces fun c hc => hs c (List.mem_append_right _ hc)
  · by_cases hz : z = []
    · subst hz
      exact hspaces hs
    · rw [List.append_assoc] at h
      exact no_core_inside hletters hn hm₁ hz hstart hw h.symm

/-- A match that starts with a closed core needs a boundary behind it. -/
theorem not_glued_of_opening
    (hletters : FoldedLetters U) {pre m e n s w b : PyStr} {c : CodePoint}
    (hopen : Opening U pre m e n s) (hw : IsClosed w) (hc : U.isWord c = true)
    (hmax : ¬ IsCore (w ++ [c])) :
    m ++ e ≠ w ++ c :: b := by
  intro h
  rw [hopen.text, List.append_assoc] at h
  rcases core_of_same_start hopen.core hw.isCore h with rfl | ⟨-, f, rfl, -⟩ |
    ⟨hclosed, f, rfl, hf⟩
  · have hpost := hopen.closed hw
    rw [List.append_cancel_left h] at hpost
    simp [NoWord, hc] at hpost
  · rw [List.append_assoc] at h
    obtain ⟨rfl, -⟩ := List.cons.inj (List.append_cancel_left h)
    exact hmax hopen.core
  · have hpost := hopen.closed hclosed
    rw [List.append_assoc] at h
    rw [List.append_cancel_left h] at hpost
    have hword : U.isWord f = true := isWord_of_fold hletters (by rw [hf]; decide)
    simp [NoWord, hword] at hpost

/-- A match does not start inside a closed core, nor right behind it. -/
theorem not_opening_inside
    (hletters : FoldedLetters U) {m e n s w v₁ v₂ b pre : PyStr} {c : CodePoint}
    (hw : IsClosed w) (hv : w ++ [c] = v₁ ++ v₂) (hv₁ : v₁ ≠ []) (hv₂ : v₂ ≠ [])
    (hopen : Opening U (v₁.reverse ++ pre) m e n s) :
    m ++ e ≠ v₂ ++ b := by
  intro h
  have hstart : NoWord U v₁.reverse := by
    have hpre := hopen.start
    obtain ⟨g, t, hg⟩ := List.exists_cons_of_ne_nil (List.reverse_ne_nil_iff.mpr hv₁)
    rw [hg] at hpre ⊢
    exact hpre
  obtain ⟨t, y, hwy, hy⟩ := hw.last_word hletters
  have hwhole : ¬ NoWord U w.reverse := by
    simp [hwy, NoWord, hy]
  rw [hopen.text, List.append_assoc] at h
  rcases List.append_eq_append_iff.mp hv with ⟨z, rfl, hz⟩ | ⟨z, rfl, rfl⟩
  · -- everything of the core is in front: then it ends where the match starts
    have hz' : z = [] := by
      cases z with
      | nil => rfl
      | cons g z => exact absurd (List.append_eq_nil_iff.mp (List.cons.inj hz).2.symm).2 hv₂
    rw [hz', List.append_nil] at hstart
    exact hwhole hstart
  · by_cases hz : z = []
    · rw [hz, List.append_nil] at hwhole
      exact hwhole hstart
    · rw [List.append_assoc] at h
      exact no_core_inside hletters hw.isCore hv₁ hz hstart hopen.core h

/-- No marker that starts at a boundary touches a closed core that a word character follows. -/
theorem avoids_glued
    (hletters : FoldedLetters U) {p : Rx CodePoint} (hp : p ∈ openMarkers U)
    {a w : PyStr} {c : CodePoint} (hstart : NoWord U a.reverse) (hw : IsClosed w)
    (hc : U.isWord c = true) (hmax : ¬ IsCore (w ++ [c])) (b : PyStr) :
    Avoids p a (w ++ [c]) b := by
  intro d m e htext hm
  obtain ⟨n, s, hopen⟩ := exists_opening hletters hp hm
  rcases overlap_cases htext with h | h | ⟨v₁, v₂, hv, hv₂, rfl, hrest⟩ |
    ⟨m₁, m₂, rfl, hm₁, hm₂, rfl, hrest⟩
  · exact Or.inl h
  · exact Or.inr h
  · exfalso
    by_cases hv₁ : v₁ = []
    · subst hv₁
      rw [List.nil_append] at hv
      rw [← hv, List.append_assoc] at hrest
      exact not_glued_of_opening hletters hopen hw hc hmax hrest
    · rw [List.reverse_append] at hopen
      exact not_opening_inside hletters hw hv hv₁ hv₂ hopen hrest
  · rw [noWord_reverse_append hm₁] at hstart
    rw [List.append_assoc] at hrest
    exact (no_core_across hletters hopen.core hopen.spaces hopen.text.symm hm₁ hm₂ hstart
      hw.isCore hrest).elim

theorem IsHeading.cons
    {m s y : PyStr} (h : IsHeading m s y) :
    m = ch '#' :: ch '#' :: ch '#' :: (s ++ y) := by
  rw [h.text]
  rfl

/-- The letters of `system` are letters of words. -/
theorem IsHeading.letters
    {m s y : PyStr} (h : IsHeading m s y) :
    (∃ c t, y = c :: t ∧ c.reFold = ch 's') ∧ (∃ t c, y = t ++ [c] ∧ c.reFold = ch 'm') ∧
      ∀ c ∈ y, c.reFold.isLowerAscii = true := by
  have hfold : y.map reFold = [ch 's', ch 'y', ch 's', ch 't', ch 'e', ch 'm'] := h.folds
  refine ⟨?_, ?_, ?_⟩
  · obtain ⟨c, t, rfl, hc, -⟩ := List.map_eq_cons_iff.mp hfold
    exact ⟨c, t, rfl, hc⟩
  · have hlast : y.map reFold = [ch 's', ch 'y', ch 's', ch 't', ch 'e'] ++ [ch 'm'] := hfold
    obtain ⟨t, u, rfl, -, hu⟩ := List.map_eq_append_iff.mp hlast
    obtain ⟨c, rfl, hc⟩ := List.map_eq_singleton_iff.mp hu
    exact ⟨t, c, rfl, hc⟩
  · have hlower : ∀ d ∈ [ch 's', ch 'y', ch 's', ch 't', ch 'e', ch 'm'],
        d.isLowerAscii = true := by
      decide
    intro c hc
    exact hlower _ (hfold ▸ List.mem_map_of_mem hc)

/-- No core starts inside a heading. -/
theorem no_head_in_heading
    (hletters : FoldedLetters U) {m s y z₁ z₂ e t : PyStr} {c d : CodePoint}
    (hm : IsHeading m s y) (hsplit : m = z₁ ++ z₂) (hz₂ : z₂ ≠ []) (h : z₂ ++ e = c :: d :: t) :
    [c.reFold, d.reFold] ∉ heads := by
  intro hhead
  have hlower : c.reFold.isLowerAscii = true := heads_lower _ hhead _ (by simp)
  have hsuffix : ∀ q, y = q ++ z₂ → False := by
    rintro q hq
    have hfold := hm.folds
    rw [hq, List.map_append] at hfold
    have hlen : q.length + z₂.length = (lit "system").length := by
      have := congrArg List.length hfold
      simpa using this
    have hsix : (lit "system").length = 6 := rfl
    have hpos := List.length_pos_iff.mpr hz₂
    have hdrop : (lit "system").drop q.length = z₂.map reFold := by
      rw [← hfold, List.drop_left' (by simp)]
    refine heads_system q.length (by omega) _ hhead ?_
    rw [hdrop]
    exact take_two_prefix hz₂ h
  rw [hm.text] at hsplit
  rcases List.append_eq_append_iff.mp hsplit with ⟨q, -, hq⟩ | ⟨q, hq, hz⟩
  · exact hsuffix q hq
  · by_cases hnil : q = []
    · rw [hnil, List.nil_append] at hz
      exact hsuffix [] hz.symm
    · obtain ⟨g, q, rfl⟩ := List.exists_cons_of_ne_nil hnil
      rw [hz] at h
      obtain ⟨rfl, -⟩ := List.cons.inj h
      have hmem : g ∈ lit "###" ++ s := by
        rw [hq]
        simp
      rcases List.mem_append.mp hmem with hhash | hspace
      · have hnot : ∀ d ∈ lit "###", d.reFold.isLowerAscii = false := by decide
        rw [hnot g hhash] at hlower
        cases hlower
      · have hword := isWord_of_fold hletters hlower
        rw [not_word_of_space (hm.spaces g hspace)] at hword
        cases hword

/-- No marker that starts at a boundary touches a heading and a core behind it. -/
theorem avoids_headed
    (hletters : FoldedLetters U) {p : Rx CodePoint} (hp : p ∈ openMarkers U)
    {m s y w : PyStr} (hm : IsHeading m s y) (hw : IsCore w) (a b : PyStr) :
    Avoids p a (m ++ w) b := by
  intro d k e htext hk
  obtain ⟨n, s', hopen⟩ := exists_opening hletters hp hk
  obtain ⟨c, c', t, rfl, hhead⟩ := hopen.core.two
  rcases overlap_cases htext with h | h | ⟨v₁, v₂, hv, hv₂, rfl, hrest⟩ |
    ⟨m₁, m₂, rfl, hm₁, hm₂, rfl, hrest⟩
  · exact Or.inl h
  · exact Or.inr h
  · exfalso
    rw [hopen.text, List.append_assoc] at hrest
    rcases List.append_eq_append_iff.mp hv with ⟨z, rfl, rfl⟩ | ⟨z, rfl, rfl⟩
    · -- behind the heading
      by_cases hz : z = []
      · obtain ⟨-, ⟨t', f, hlast, hf⟩, -⟩ := hm.letters
        have hstart := hopen.start
        have hword : U.isWord f = true := isWord_of_fold hletters (by rw [hf]; decide)
        rw [hz, hm.text, hlast] at hstart
        simp [NoWord, hword] at hstart
      · have hstart := hopen.start
        rw [← List.append_assoc, noWord_reverse_append hz] at hstart
        exact no_core_inside hletters hw hz hv₂ hstart hopen.core hrest
    · by_cases hz : z = []
      · subst hz
        obtain ⟨-, ⟨t', f, hlast, hf⟩, -⟩ := hm.letters
        have hstart := hopen.start
        have hword : U.isWord f = true := isWord_of_fold hletters (by rw [hf]; decide)
        have hm' := hm.text
        rw [List.append_nil] at hm'
        rw [hm', hlast] at hstart
        simp [NoWord, hword] at hstart
      · rw [List.append_assoc] at hrest
        exact no_head_in_heading hletters hm rfl hz hrest.symm hhead
  · exfalso
    obtain ⟨g, m₂, rfl⟩ := List.exists_cons_of_ne_nil hm₂
    rw [hm.cons] at hrest
    obtain ⟨rfl, -⟩ := List.cons.inj hrest
    have hmem : ch '#' ∈ (c :: c' :: t) ++ s' := by
      rw [← hopen.text]
      simp
    rcases List.mem_append.mp hmem with hcore | hspace
    · exact hopen.core.ne (by decide) (by decide) _ hcore rfl
    · have := hopen.spaces _ hspace
      revert this
      decide

/-- A heading does not reach into a core. -/
theorem avoids_heading
    (hletters : FoldedLetters U) {v t : PyStr} {c d : CodePoint} (hv : v = c :: d :: t)
    (hhead : [c.reFold, d.reFold] ∈ heads) (hhash : ch '#' ∉ v) (a b : PyStr) :
    Avoids systemHeading a v b := by
  intro a' m e htext hlang
  obtain ⟨s, y, hm⟩ := (lang_systemHeading_iff _ _ _).mp hlang
  rcases overlap_cases htext with h | h | ⟨v₁, v₂, rfl, hv₂, rfl, hrest⟩ |
    ⟨m₁, m₂, rfl, hm₁, hm₂, rfl, hrest⟩
  · exact Or.inl h
  · exact Or.inr h
  · exfalso
    obtain ⟨g, v₂, rfl⟩ := List.exists_cons_of_ne_nil hv₂
    rw [hm.cons] at hrest
    obtain ⟨rfl, -⟩ := List.cons.inj hrest
    exact hhash (by simp)
  · exfalso
    rw [hv] at hrest
    exact no_head_in_heading hletters hm rfl hm₂ hrest hhead

/-- Behind the hashes of a heading there is another character. -/
theorem IsHeading.behind
    {m s y : PyStr} (h : IsHeading m s y) :
    ∃ g t, s ++ y = g :: t ∧ g ≠ ch '#' ∧ ∀ c ∈ s ++ y, c ≠ ch '#' := by
  have hne : ∀ c ∈ s ++ y, c ≠ ch '#' := by
    rintro c hc rfl
    rcases List.mem_append.mp hc with hc | hc
    · have := h.spaces _ hc
      revert this
      decide
    · have := h.letters.2.2 _ hc
      revert this
      decide
  obtain ⟨⟨c, t, rfl, -⟩, -⟩ := h.letters
  cases s with
  | nil => exact ⟨c, t, rfl, hne c (by simp), hne⟩
  | cons g s => exact ⟨g, s ++ c :: t, rfl, hne g (by simp), hne⟩

/-- A heading does not start inside another one. -/
theorem heading_not_inside
    {m s y m' s' y' v₁ v₂ x e : PyStr} (hm : IsHeading m s y) (hm' : IsHeading m' s' y')
    (hsplit : m = v₁ ++ v₂) (hv₁ : v₁ ≠ []) (hv₂ : v₂ ≠ []) :
    v₂ ++ x ≠ m' ++ e := by
  intro h
  obtain ⟨g, t, hgt, hg, hne⟩ := hm.behind
  have htext : ch '#' :: ch '#' :: ch '#' :: (s ++ y) = v₁ ++ v₂ := by
    rw [← hsplit, hm.cons]
  rw [hm'.cons] at h
  match v₁, hv₁, htext with
  | [_], _, htext =>
      obtain ⟨-, rfl⟩ := List.cons.inj htext
      rw [hgt] at h
      simp at h
      exact hg h.1
  | [_, _], _, htext =>
      obtain ⟨-, rfl⟩ := List.cons.inj (List.cons.inj htext).2
      rw [hgt] at h
      simp at h
      exact hg h.1
  | _ :: _ :: _ :: v₁, _, htext =>
      have hback : s ++ y = v₁ ++ v₂ :=
        (List.cons.inj (List.cons.inj (List.cons.inj htext).2).2).2
      obtain ⟨f, v₂, rfl⟩ := List.exists_cons_of_ne_nil hv₂
      obtain ⟨rfl, -⟩ := List.cons.inj h
      exact hne (ch '#') (by rw [hback]; simp) rfl

/-- Two headings at one place are the same. -/
theorem heading_unique
    (hletters : FoldedLetters U) {m s y m' s' y' x e : PyStr} (hm : IsHeading m s y)
    (hm' : IsHeading m' s' y')
    (h : m ++ x = m' ++ e) :
    m = m' := by
  have hspaces : ∀ {m s y : PyStr}, IsHeading m s y → ∀ x,
      (s ++ (y ++ x)).takeWhile isSpace = s := by
    intro m s y hm x
    obtain ⟨⟨c, t, rfl, hc⟩, -⟩ := hm.letters
    have hnot : isSpace c = false := by
      by_contra hspace
      have hword : U.isWord c = true := isWord_of_fold hletters (by rw [hc]; decide)
      rw [not_word_of_space (by simpa using hspace)] at hword
      cases hword
    rw [List.takeWhile_append_of_pos hm.spaces]
    simp [hnot]
  have hlength : ∀ {m s y : PyStr}, IsHeading m s y → y.length = (lit "system").length := by
    intro m s y hm
    have := congrArg List.length hm.folds
    simpa using this
  rw [hm.text, hm'.text] at h ⊢
  simp only [List.append_assoc] at h
  have hback := List.append_cancel_left h
  have hs : s = s' := by
    rw [← hspaces hm x, hback, hspaces hm' e]
  subst hs
  have hy : y = y' :=
    (List.append_inj (List.append_cancel_left hback) (by rw [hlength hm, hlength hm'])).1
  rw [hy]

end Opens

end Sanitizer
end MqSentinel
