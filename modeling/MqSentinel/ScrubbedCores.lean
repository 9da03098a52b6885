import MqSentinel.MarkerPasses
import MqSentinel.RegexPasses

/-!
# Cores in a scrubbed text

A core that stands at a word boundary of a scrubbed text is followed through the nine
passes, backwards to the place that it comes from.  There it is glued to the word
character behind it, or a heading stands in front of it (`exists_site_of_scrub`).  Both
kinds of places do lead to such a core (`scrub_of_glued`, `scrub_of_headed`).

The blank behind the first word of a core keeps what stands in front of it apart, so
the passes make the same of it on its own.
-/

namespace MqSentinel
namespace Sanitizer

open Regex CodePoint

/-- The markers in brackets. -/
def fencedMarkers : List (Rx CodePoint) :=
  [tag "system", tag "assistant", tag "user", systemBrackets]

/-- The markers in front of the last one. -/
def firstMarkers (U : UnicodeData) : List (Rx CodePoint) :=
  openMarkers U ++ fencedMarkers

/-- What a core starts with, up to its first blank. -/
def firstWord (w : PyStr) : PyStr :=
  w.takeWhile fun c => c != ch ' '

variable {U : UnicodeData}

theorem injectionMarkers_eq :
    injectionMarkers U = firstMarkers U ++ [systemHeading] := by
  rfl

theorem scrubInjectionMarkers_eq
    (text : PyStr) :
    scrubInjectionMarkers U text =
      sub systemHeading (fun _ => redacted) (subAll redacted (firstMarkers U) text) := by
  have hall : scrubInjectionMarkers U text = subAll redacted (injectionMarkers U) text := rfl
  rw [hall, injectionMarkers_eq, subAll_append, subAll_cons, subAll_nil]

section Parts

theorem ne_blank_of_mem_firstWord
    {w : PyStr} {c : CodePoint} (hc : c ∈ firstWord w) :
    c ≠ ch ' ' := by
  have := List.mem_takeWhile_imp (p := fun c => c != ch ' ') hc
  simpa using this

/-- A word in front of a blank is the first one. -/
theorem firstWord_of_blank
    {q : PyStr} (hq : ∀ c ∈ q, c ≠ ch ' ') (t : PyStr) :
    firstWord (q ++ ch ' ' :: t) = q := by
  rw [firstWord, List.takeWhile_append_of_pos (by simpa using hq)]
  simp

/-- Behind its first word a core has a blank. -/
theorem IsCore.split
    {w : PyStr} (h : IsCore w) :
    ∃ t, w = firstWord w ++ ch ' ' :: t := by
  have hdrop := List.takeWhile_append_dropWhile (p := fun c => c != ch ' ') (l := w)
  have hhead := List.head?_dropWhile_not (fun c => c != ch ' ') w
  cases hrest : w.dropWhile fun c => c != ch ' ' with
  | nil =>
      exfalso
      rw [hrest, List.append_nil] at hdrop
      have hmem : ch ' ' ∈ firstWord w := by
        rw [firstWord, hdrop]
        exact h.blank
      exact ne_blank_of_mem_firstWord hmem rfl
  | cons c t =>
      rw [hrest] at hdrop hhead
      obtain rfl : c = ch ' ' := by simpa using hhead
      exact ⟨t, hdrop.symm⟩

/-- The first word is the same whatever stands behind the core. -/
theorem IsCore.firstWord_append
    {w : PyStr} (h : IsCore w) (z : PyStr) :
    firstWord (w ++ z) = firstWord w := by
  obtain ⟨t, ht⟩ := h.split
  calc
    firstWord (w ++ z) = firstWord (firstWord w ++ ch ' ' :: (t ++ z)) := by
      rw [← List.cons_append, ← List.append_assoc, ← ht]
    _ = firstWord w := firstWord_of_blank (fun _ => ne_blank_of_mem_firstWord) _

theorem clear_of_blank
    {R w : PyStr} {e e' : CodePoint} (hblank : ch ' ' ∉ R) (hhead : R.head? = some e)
    (hlast : R.getLast? = some e') (hw : ch ' ' ∈ w) (hne : ∀ d ∈ w, d ≠ e ∧ d ≠ e') :
    Clear R w := by
  obtain ⟨l, r, rfl⟩ := List.append_of_mem hw
  exact clear_of_split hblank hhead hlast (fun d hd => (hne d (by simp [hd])).2)
    fun d hd => (hne d (by simp [hd])).1

/-- The zero-width tests of a marker do not see a blank. -/
theorem blind_blank
    {r : Rx CodePoint} (hr : r ∈ injectionMarkers U) (z : PyStr) :
    Rx.Blind (ch ' ' :: z) r := by
  have hblank : U.isWord (ch ' ') = false := not_word_of_space (by decide)
  have hedge : Rx.Blind (ch ' ' :: z) (Rx.edge U.isWord) := by
    intro pre s
    cases s with
    | nil => simp [hblank]
    | cons c s => simp
  simp only [injectionMarkers, List.mem_cons, List.not_mem_nil, or_false] at hr
  have hword : ∀ s : String, Rx.Blind (ch ' ' :: z) (ciRx s) := fun s => Rx.blind_word _ _
  rcases hr with rfl | rfl | rfl | rfl | rfl | rfl | rfl | rfl | rfl
  · exact ⟨hedge, ⟨hword _, ⟨hword _, trivial⟩, hword _, hword _, trivial⟩, hedge⟩
  · exact ⟨hedge, ⟨hword _, ⟨hword _, trivial⟩, ⟨hword _, hword _⟩, hword _, hword _, hword _,
      hword _, trivial⟩, hedge⟩
  · exact ⟨hedge, hword _, hedge⟩
  · exact ⟨hedge, ⟨hword _, ⟨hword _, trivial⟩, hword _⟩, trivial⟩
  · exact ⟨hword _, ⟨hword _, trivial⟩, hword _⟩
  · exact ⟨hword _, ⟨hword _, trivial⟩, hword _⟩
  · exact ⟨hword _, ⟨hword _, trivial⟩, hword _⟩
  · exact hword _
  · exact ⟨hword _, trivial, hword _⟩

end Parts

section Steps

theorem noWord_reverse_iff
    {a : PyStr} :
    NoWord U a.reverse ↔ a.getLast?.any U.isWord = false := by
  rw [NoWord, List.head?_reverse]

/-- A redaction ends with a bracket. -/
theorem noWord_redacted
    (x : PyStr) :
    NoWord U (x ++ redacted).reverse := by
  have hbracket : U.isWord (ch ']') = false := by
    rw [isWord_of_ascii (by decide)]
    decide
  have hlast : redacted = lit "[REDACTED:injection_pattern" ++ [ch ']'] := by decide
  simp [hlast, NoWord, hbracket]

/-- The last character of a marker in brackets. -/
theorem fencedWords_last :
    ∀ x ∈ fencedWords, ∃ c ∈ x.getLast?, c ∈ [ch '>', ch ']'] := by
  decide +kernel

theorem newWords_last :
    ∀ x ∈ newWords, x.getLast? = some (ch ':') := by
  decide +kernel

theorem spells_fencedMarkers :
    ∀ p ∈ fencedMarkers, ∃ L, Spells L p ∧ ∀ x ∈ L, x ∈ fencedWords := by
  intro p hp
  simp only [fencedMarkers, List.mem_cons, List.not_mem_nil, or_false] at hp
  rcases hp with rfl | rfl | rfl | rfl
  · exact ⟨_, spells_tag_system, by decide +kernel⟩
  · exact ⟨_, spells_tag_assistant, by decide +kernel⟩
  · exact ⟨_, spells_tag_user, by decide +kernel⟩
  · exact ⟨_, spells_systemBrackets, by decide +kernel⟩

/-- A character that folds to a bracket or a hash is no word character. -/
theorem not_word_of_fence
    {c d : CodePoint} (hc : c ∈ lit "<>[]#") (hd : d.reFold = c) :
    U.isWord d = false := by
  have hall : ∀ c ∈ lit "<>[]#", c.isLowerAscii = false ∧ c.isAscii = true ∧
      (c.isAlnumAscii || c == ch '_') = false := by
    decide
  obtain ⟨hlower, hascii, hnot⟩ := hall c hc
  rw [eq_of_reFold hlower hd, isWord_of_ascii hascii, hnot]

/-- Such a marker starts and ends with a bracket. -/
theorem edges_of_fenced
    {p : Rx CodePoint} (hp : p ∈ fencedMarkers) {pre m post : PyStr}
    (h : Rx.Lang p pre m post) :
    (∀ e, NoWord U (m ++ e)) ∧ NoWord U m.reverse := by
  obtain ⟨L, hL, hwords⟩ := spells_fencedMarkers p hp
  have hmem := hwords _ ((hL _ _ _).mp h)
  constructor
  · obtain ⟨⟨f, hf, hopen⟩, -⟩ := fencedWords_shape _ hmem
    cases m with
    | nil => cases hf
    | cons c t =>
        obtain rfl : c.reFold = f := by simpa using hf
        have hopens : ∀ f ∈ [ch '<', ch '['], f ∈ lit "<>[]#" := by decide
        intro e
        simp [NoWord, not_word_of_fence (U := U) (hopens _ hopen) rfl]
  · obtain ⟨f, hf, hclose⟩ := fencedWords_last _ hmem
    rw [Option.mem_def, List.getLast?_map, Option.map_eq_some_iff] at hf
    obtain ⟨c, hc, rfl⟩ := hf
    have hcloses : ∀ f ∈ [ch '>', ch ']'], f ∈ lit "<>[]#" := by decide
    rw [noWord_reverse_iff, hc]
    simp [not_word_of_fence (U := U) (hcloses _ hclose) rfl]

/-- A match ends with no word character when a word character follows it. -/
theorem noWord_of_match
    (hletters : FoldedLetters U) {p : Rx CodePoint} (hp : p ∈ firstMarkers U)
    {pre m post : PyStr} (h : Rx.Lang p pre m post) (hpost : ¬ NoWord U post) :
    NoWord U m.reverse := by
  rcases List.mem_append.mp hp with hp | hp
  · obtain ⟨n, s, hopen⟩ := exists_opening hletters hp h
    rw [hopen.text, noWord_reverse_iff]
    by_cases hs : s = []
    · subst hs
      rw [List.append_nil]
      rcases List.mem_append.mp hopen.core with hclosed | hnew
      · exact absurd (hopen.closed hclosed) hpost
      · have hlast := newWords_last _ hnew
        rw [List.getLast?_map, Option.map_eq_some_iff] at hlast
        obtain ⟨c, hc, hfold⟩ := hlast
        obtain rfl := eq_of_reFold (by decide) hfold
        rw [hc]
        simp [isWord_of_ascii (U := U) (c := ch ':') (by decide)]
        decide
    · obtain ⟨t, c, rfl⟩ := (List.eq_nil_or_concat s).resolve_left hs
      rw [List.concat_eq_append, ← List.append_assoc, List.getLast?_concat]
      simp [not_word_of_space (U := U) (hopen.spaces c (by simp))]
  · exact (edges_of_fenced hp h).2

/-- A match starts with no word character, or where none stands in front. -/
theorem noWord_at_match
    (hletters : FoldedLetters U) {p : Rx CodePoint} (hp : p ∈ injectionMarkers U)
    {pre m post : PyStr} (h : Rx.Lang p pre m post) (hpre : ¬ NoWord U pre) (e : PyStr) :
    NoWord U (m ++ e) := by
  rw [injectionMarkers_eq, firstMarkers, List.mem_append, List.mem_append, List.mem_singleton]
    at hp
  rcases hp with (hp | hp) | rfl
  · obtain ⟨n, s, hopen⟩ := exists_opening hletters hp h
    exact absurd hopen.start hpre
  · exact (edges_of_fenced hp h).1 e
  · obtain ⟨s, y, hm⟩ := (lang_systemHeading_iff _ _ _).mp h
    rw [hm.cons]
    simp [NoWord, not_word_of_fence (U := U) (c := ch '#') (by decide) (d := ch '#') (by decide)]

/-- A pass keeps a boundary in front of the run. -/
theorem noWord_front
    {r : Rx CodePoint} {a v b a' b' : PyStr} (h : Carried redacted r a v b a' b')
    (ha : NoWord U a.reverse) :
    NoWord U a'.reverse := by
  rcases h.left with hsame | ⟨d, m, -, -, -, x, rfl⟩
  · rw [noWord_reverse_iff] at ha ⊢
    rwa [hsame]
  · exact noWord_redacted x

/-- And there was one, when the run starts with a word character. -/
theorem noWord_front_back
    (hletters : FoldedLetters U) {r : Rx CodePoint} (hr : r ∈ firstMarkers U)
    {a v b a' b' : PyStr} (h : Carried redacted r a v b a' b') (hv : ¬ NoWord U (v ++ b))
    (ha' : NoWord U a'.reverse) :
    NoWord U a.reverse := by
  rcases h.left with hsame | ⟨d, m, rfl, hm, hlang, -⟩
  · rw [noWord_reverse_iff] at ha' ⊢
    rwa [← hsame]
  · rw [noWord_reverse_append hm]
    exact noWord_of_match hletters hr hlang hv

/-- A boundary behind a run that ends with a word character was there. -/
theorem noWord_behind
    (hletters : FoldedLetters U) {r : Rx CodePoint} (hr : r ∈ injectionMarkers U)
    {a v b a' b' : PyStr} (h : Carried redacted r a v b a' b') (hv : ¬ NoWord U (a ++ v).reverse)
    (hb' : NoWord U b') :
    NoWord U b := by
  rcases h.right with hsame | ⟨m, e, rfl, hm, hlang, -⟩
  · rw [NoWord] at hb' ⊢
    rwa [← hsame]
  · exact noWord_at_match hletters hr hlang hv e

end Steps

section Scrub

/-- A closed core between a boundary and a word character. -/
structure Glued (U : UnicodeData) (a w b : PyStr) : Prop where
  start : NoWord U a.reverse
  closed : IsClosed w
  next : ∃ c t, b = c :: t ∧ U.isWord c = true ∧ ¬ IsCore (w ++ [c])

/-- A text that ends with a heading. -/
def Headed (a : PyStr) : Prop :=
  ∃ d m s y, a = d ++ m ∧ IsHeading m s y

theorem redacted_ne_nil :
    redacted ≠ [] := by
  decide

theorem clear_redacted
    {v : PyStr} (hv : ch ' ' ∈ v) (hne : ∀ d ∈ v, d ≠ ch '[' ∧ d ≠ ch ']') :
    Clear redacted v := by
  exact clear_of_blank (by decide) (by decide) (by decide) hv hne

theorem IsCore.unfenced
    {w : PyStr} (h : IsCore w) :
    ∀ d ∈ w, d ≠ ch '[' ∧ d ≠ ch ']' := by
  exact fun d hd => ⟨h.ne (by decide) (by decide) d hd, h.ne (by decide) (by decide) d hd⟩

theorem IsHeading.unfenced
    {m s y : PyStr} (h : IsHeading m s y) :
    ∀ d ∈ m, d ≠ ch '[' ∧ d ≠ ch ']' ∧ d ≠ ch '<' := by
  intro d hd
  have hfence : ∀ c ∈ lit "[]<", c.isSpace = false ∧ c.reFold.isLowerAscii = false ∧
      c ∉ lit "###" := by
    decide
  have hnot : d ∉ lit "[]<" := by
    intro hmem
    obtain ⟨hspace, hlower, hhash⟩ := hfence d hmem
    rw [h.text] at hd
    rcases List.mem_append.mp hd with hd | hd
    · rcases List.mem_append.mp hd with hd | hd
      · exact hhash hd
      · rw [h.spaces d hd] at hspace
        cases hspace
    · rw [h.letters.2.2 d hd] at hlower
      cases hlower
  have hsplit : lit "[]<" = [ch '[', ch ']', ch '<'] := by rfl
  rw [hsplit] at hnot
  simpa using hnot

theorem starts_word
    (hletters : FoldedLetters U) {w : PyStr} (hw : IsCore w) (z : PyStr) :
    ¬ NoWord U (w ++ z) := by
  obtain ⟨c, t, rfl, hc⟩ := hw.head_word hletters
  simp [NoWord, hc]

theorem ends_word
    (hletters : FoldedLetters U) {w : PyStr} (hw : IsClosed w) (a : PyStr) :
    ¬ NoWord U (a ++ w).reverse := by
  obtain ⟨t, c, rfl, hc⟩ := hw.last_word hletters
  simp [NoWord, hc]

/-- A core between boundaries does not come through its own pass. -/
theorem not_carried_of_boundary
    (hletters : FoldedLetters U) {w z a b a' b' : PyStr} (hw : IsCore w)
    (h : CarriedAll redacted (w ++ z) (firstMarkers U) a b a' b') (hfront : NoWord U a'.reverse)
    (hbehind : IsClosed w → z = [] ∧ NoWord U b') :
    False := by
  obtain ⟨p, hp, hlang⟩ := exists_lang_of_core hletters hw
  have hmem : p ∈ firstMarkers U := List.mem_append_left _ hp
  obtain ⟨M, hM, a₁, b₁, a₂, b₂, hown, hrest⟩ := h.mem hmem
  have hsub : ∀ r ∈ p :: M, r ∈ firstMarkers U := by
    intro r hr
    rcases List.mem_cons.mp hr with rfl | hr
    · exact hmem
    · exact hM r hr
  have hboth : NoWord U a₁.reverse ∧ (IsClosed w → NoWord U b₁) := by
    refine (CarriedAll.cons hown hrest).pull
      (P := fun a b => NoWord U a.reverse ∧ (IsClosed w → NoWord U b)) ?_
      ⟨hfront, fun hclosed => (hbehind hclosed).2⟩
    intro r hr a b a' b' hstep hP
    constructor
    · refine noWord_front_back hletters (hsub r hr) hstep ?_ hP.1
      rw [List.append_assoc]
      exact starts_word hletters hw _
    · intro hclosed
      have hz := (hbehind hclosed).1
      subst hz
      rw [List.append_nil] at hstep
      exact noWord_behind hletters (List.mem_append_left _ (hsub r hr)) hstep
        (ends_word hletters hclosed a) (hP.2 hclosed)
  have hempty : ∀ pre post, ¬ Rx.Lang p pre [] post := by
    intro pre post hnil
    obtain ⟨n, s, hopen⟩ := exists_opening hletters hp hnil
    obtain ⟨c, t, rfl, -⟩ := hopen.core.head_word hletters
    cases hopen.text
  refine hown.not_lang hempty (m := w) (e := z ++ b₁) ?_ (by simp)
    (hlang _ _ hboth.1 fun hclosed => ?_)
  · obtain ⟨c, t, rfl, -⟩ := hw.head_word hletters
    simp
  · rw [(hbehind hclosed).1]
    exact hboth.2 hclosed

/-- What stands in front of the blank of a carried run is scrubbed on its own. -/
theorem subAll_front
    {L : List (Rx CodePoint)} (hL : ∀ r ∈ L, r ∈ injectionMarkers U) {a v b a' b' q t : PyStr}
    (h : CarriedAll redacted v L a b a' b') (hv : v = q ++ ch ' ' :: t) :
    subAll redacted L (a ++ q) = a' ++ q := by
  refine h.prefix hv (by simp) fun r hr z => ?_
  rw [List.cons_append]
  exact blind_blank (hL r hr) _

theorem sub_heading_front
    {a v b a' b' q t : PyStr} (h : Carried redacted systemHeading a v b a' b')
    (hv : v = q ++ ch ' ' :: t) :
    sub systemHeading (fun _ => redacted) (a ++ q) = a' ++ q := by
  refine h.prefix hv (by simp) ?_
  rw [List.cons_append]
  exact blind_blank (U := UnicodeData.basic) (by simp [injectionMarkers]) _

theorem IsCore.split_append
    {w : PyStr} (h : IsCore w) (z : PyStr) :
    ∃ t, w ++ z = firstWord w ++ ch ' ' :: t := by
  obtain ⟨t, ht⟩ := h.split
  exact ⟨t ++ z, by rw [← List.cons_append, ← List.append_assoc, ← ht]⟩

/-- A core of a scrubbed text came through all passes, or a heading stood in front of it. -/
theorem carried_of_scrub
    (hletters : FoldedLetters U) {x a' w z b' : PyStr} (hw : IsCore w)
    (hz : ∀ d ∈ z, d ≠ ch '[' ∧ d ≠ ch ']')
    (h : scrubInjectionMarkers U x = a' ++ (w ++ z) ++ b') (hstart : NoWord U a'.reverse) :
    (∃ a b d e, x = a ++ (w ++ z) ++ b ∧ NoWord U a.reverse ∧ NoWord U d.reverse ∧
      CarriedAll redacted (w ++ z) (firstMarkers U) a b d e ∧
        Carried redacted systemHeading d (w ++ z) e a' b') ∨
      ∃ a b, x = a ++ (w ++ z) ++ b ∧ Headed a ∧
        scrubInjectionMarkers U (a ++ firstWord w) = a' ++ firstWord w := by
  obtain ⟨t, ht⟩ := hw.split_append z
  have hblank : ch ' ' ∈ w ++ z := List.mem_append_left _ hw.blank
  have hne : ∀ d ∈ w ++ z, d ≠ ch '[' ∧ d ≠ ch ']' := by
    intro d hd
    rcases List.mem_append.mp hd with hd | hd
    · exact hw.unfenced d hd
    · exact hz d hd
  rw [scrubInjectionMarkers_eq] at h
  obtain ⟨d, e, hd, hlast⟩ := carried_of_clear redacted_ne_nil (List.ne_nil_of_mem hblank)
    (clear_redacted hblank hne) h
  rcases hlast.left with hsame | ⟨d, m, rfl, hm, hlang, -⟩
  · -- the same character in front: the first markers leave the boundary there
    left
    have hd' : NoWord U d.reverse := by
      rw [noWord_reverse_iff] at hstart ⊢
      rw [← hsame]
      exact hstart
    have hback : ∀ r ∈ firstMarkers U, ∀ a b a' b', NoWord U a'.reverse →
        Carried redacted r a (w ++ z) b a' b' → NoWord U a.reverse := by
      intro r hr a b a' b' ha' hstep
      refine noWord_front_back hletters hr hstep ?_ ha'
      rw [List.append_assoc]
      exact starts_word hletters hw _
    obtain ⟨a, b, hx, ha, hall⟩ := exists_carriedAll_of_clear (R := redacted)
      (L := firstMarkers U) (fun a => NoWord U a.reverse) redacted_ne_nil
      (List.ne_nil_of_mem hblank) (clear_redacted hblank hne) hback x hd hd'
    exact ⟨a, b, d, e, hx, ha, hd', hall, hlast⟩
  · right
    obtain ⟨s, y, hheading⟩ := (lang_systemHeading_iff _ _ _).mp hlang
    have hrun : subAll redacted (firstMarkers U) x = d ++ (m ++ (w ++ z)) ++ e := by
      rw [hd]
      simp
    have hclear : Clear redacted (m ++ (w ++ z)) := by
      refine clear_redacted (List.mem_append_right _ hblank) fun c hc => ?_
      rcases List.mem_append.mp hc with hc | hc
      · exact ⟨(hheading.unfenced c hc).1, (hheading.unfenced c hc).2.1⟩
      · exact hne c hc
    obtain ⟨a, b, hx, -, hall⟩ := exists_carriedAll_of_clear (R := redacted)
      (L := firstMarkers U) (fun _ => True) redacted_ne_nil (by simp [hm]) hclear
      (fun _ _ _ _ _ _ _ _ => trivial) x hrun trivial
    refine ⟨a ++ m, b, by rw [hx]; simp, ⟨a, m, s, y, rfl, hheading⟩, ?_⟩
    rw [scrubInjectionMarkers_eq, List.append_assoc,
      subAll_front (fun r => List.mem_append_left _) hall (t := t)
        (by rw [ht, List.append_assoc]),
      ← List.append_assoc, sub_heading_front hlast ht]

/-- A core that no `s` makes longer. -/
theorem exists_longest
    {w b : PyStr} (hw : IsCore w) :
    ∃ z b', b = z ++ b' ∧ IsCore (w ++ z) ∧
      ∀ c t, b' = c :: t → ¬ IsCore (w ++ z ++ [c]) := by
  have hlonger : ∀ {v : PyStr} {c : CodePoint}, IsCore v → IsCore (v ++ [c]) →
      c.reFold = ch 's' := by
    intro v c hv hlong
    have hvc : (v ++ [c]).map reFold = v.map reFold ++ [c.reFold] := by simp
    rcases coreWords_prefix _ hv _ hlong (by rw [hvc]; simp) with heq | ⟨-, heq⟩
    · rw [hvc] at heq
      simp at heq
    · rw [hvc] at heq
      simpa using heq
  by_cases hlong : ∃ c t, b = c :: t ∧ IsCore (w ++ [c])
  · obtain ⟨c, t, rfl, hlong⟩ := hlong
    refine ⟨[c], t, rfl, hlong, ?_⟩
    rintro d t' - htwice
    have hc := hlonger hw hlong
    have hd := hlonger hlong htwice
    refine coreWords_once _ hw ?_ ?_
    · simpa [IsCore, hc] using hlong
    · simpa [IsCore, hc, hd] using htwice
  · refine ⟨[], b, rfl, by simpa using hw, ?_⟩
    rintro c t rfl hcore
    exact hlong ⟨c, t, rfl, by simpa using hcore⟩

/-- **Where a core of a scrubbed text comes from.** -/
theorem exists_site_of_scrub
    (hletters : FoldedLetters U) {x a' w b' : PyStr} (hw : IsCore w)
    (h : scrubInjectionMarkers U x = a' ++ w ++ b') (hstart : NoWord U a'.reverse) :
    ∃ a v b, x = a ++ v ++ b ∧ IsCore v ∧ firstWord v = firstWord w ∧
      (Glued U a v b ∨ Headed a) ∧
        scrubInjectionMarkers U (a ++ firstWord w) = a' ++ firstWord w := by
  obtain ⟨z, c', rfl, hv, hlongest⟩ := exists_longest (b := b') hw
  have hfirst := hw.firstWord_append z
  generalize hvdef : w ++ z = v at hv hlongest hfirst
  have htext : scrubInjectionMarkers U x = a' ++ v ++ c' := by
    rw [h, ← hvdef]
    simp
  rw [← hfirst]
  by_cases hnext : ∃ c t, c' = c :: t ∧ U.isWord c = true
  · obtain ⟨c, t, rfl, hc⟩ := hnext
    have hfence : ∀ d ∈ [c], d ≠ ch '[' ∧ d ≠ ch ']' := by
      intro d hd
      obtain rfl := List.mem_singleton.mp hd
      constructor
      · rintro rfl
        rw [not_word_of_fence (c := ch '[') (by decide) (by decide)] at hc
        cases hc
      · rintro rfl
        rw [not_word_of_fence (c := ch ']') (by decide) (by decide)] at hc
        cases hc
    have hsplit : scrubInjectionMarkers U x = a' ++ (v ++ [c]) ++ t := by
      rw [htext]
      simp
    rcases carried_of_scrub hletters hv hfence hsplit hstart with
      ⟨a, b, d, e, hx, ha, hd, hall, hlast⟩ | ⟨a, b, hx, ha, hfront⟩
    · obtain ⟨q, hq⟩ := hv.split_append [c]
      refine ⟨a, v, c :: b, by rw [hx]; simp, hv, rfl, Or.inl ⟨ha, ?_, c, b, rfl, hc,
        hlongest c t rfl⟩, ?_⟩
      · by_contra hopen
        exact not_carried_of_boundary hletters hv hall hd fun hclosed => absurd hclosed hopen
      · rw [scrubInjectionMarkers_eq, subAll_front (fun r => List.mem_append_left _) hall hq,
          sub_heading_front hlast hq]
    · exact ⟨a, v, c :: b, by rw [hx]; simp, hv, rfl, Or.inr ha, hfront⟩
  · have hend : NoWord U c' := by
      cases c' with
      | nil => rfl
      | cons c t =>
          have hc : ¬ U.isWord c = true := fun hc => hnext ⟨c, t, rfl, hc⟩
          simpa [NoWord] using hc
    have hsplit : scrubInjectionMarkers U x = a' ++ (v ++ []) ++ c' := by
      rw [htext, List.append_nil]
    rcases carried_of_scrub hletters hv (by simp) hsplit hstart with
      ⟨a, b, d, e, hx, ha, hd, hall, hlast⟩ | ⟨a, b, hx, ha, hfront⟩
    · exfalso
      refine not_carried_of_boundary hletters hv hall hd fun hclosed => ⟨rfl, ?_⟩
      rw [List.append_nil] at hlast
      exact noWord_behind (U := U) hletters (by simp [injectionMarkers]) hlast
        (ends_word hletters hclosed d) hend
    · exact ⟨a, v, b, by simpa using hx, hv, rfl, Or.inr ha, hfront⟩

/-- A core with a character behind it that is no opening bracket. -/
theorem IsCore.run
    {w z : PyStr} (hw : IsCore w) (hz : ∀ c ∈ z, c ≠ ch '<' ∧ c ≠ ch '[') :
    Run (w ++ z) := by
  obtain ⟨c, d, t, rfl, hhead⟩ := hw.two
  refine ⟨⟨c, d, t ++ z, rfl, List.mem_append_left _ hhead⟩, fun e he => ?_⟩
  rcases List.mem_append.mp he with he | he
  · exact ⟨hw.ne (by decide) (by decide) e he, (hw.unfenced e he).1⟩
  · exact hz e he

theorem IsHeading.run
    {m s y w : PyStr} (hm : IsHeading m s y) (hw : IsCore w) :
    Run (m ++ w) := by
  refine ⟨⟨ch '#', ch '#', ch '#' :: (s ++ y ++ w), ?_, by decide⟩, fun e he => ?_⟩
  · rw [hm.cons]
    simp
  · rcases List.mem_append.mp he with he | he
    · exact ⟨(hm.unfenced e he).2.2, (hm.unfenced e he).1⟩
    · exact ⟨hw.ne (by decide) (by decide) e he, (hw.unfenced e he).1⟩

/-- **A glued core comes through.** -/
theorem scrub_of_glued
    (hletters : FoldedLetters U) {a w b : PyStr} (h : Glued U a w b) :
    ∃ a' b', scrubInjectionMarkers U (a ++ w ++ b) = a' ++ w ++ b' ∧ NoWord U a'.reverse ∧
      scrubInjectionMarkers U (a ++ firstWord w) = a' ++ firstWord w := by
  obtain ⟨hstart, hclosed, c, t, rfl, hc, hmax⟩ := h
  have hw := hclosed.isCore
  have hfence : ∀ f ∈ lit "<>[]#", c ≠ f := by
    rintro f hf rfl
    have hsame : ∀ f ∈ lit "<>[]#", f.reFold = f := by decide
    rw [not_word_of_fence hf (hsame _ hf)] at hc
    cases hc
  have hrun : Run (w ++ [c]) := hw.run fun d hd => by
    obtain rfl := List.mem_singleton.mp hd
    exact ⟨hfence _ (by decide), hfence _ (by decide)⟩
  have hhash : ch '#' ∉ w ++ [c] := by
    intro hmem
    rcases List.mem_append.mp hmem with hmem | hmem
    · exact hw.ne (by decide) (by decide) _ hmem rfl
    · exact hfence (ch '#') (by decide) (List.mem_singleton.mp hmem).symm
  have havoid : ∀ r ∈ injectionMarkers U, ∀ a b, NoWord U a.reverse →
      Avoids r a (w ++ [c]) b := by
    intro r hr a b ha
    rw [injectionMarkers_eq, firstMarkers, List.mem_append, List.mem_append,
      List.mem_singleton] at hr
    rcases hr with (hr | hr) | rfl
    · exact avoids_glued hletters hr ha hclosed hc hmax b
    · obtain ⟨L, hL, hwords⟩ := spells_fencedMarkers r hr
      exact avoids_of_fenced hL hwords hrun a b
    · obtain ⟨c₁, c₂, t', hsplit, hhead⟩ := hw.two
      exact avoids_heading (U := U) hletters (t := t' ++ [c]) (by rw [hsplit]; rfl) hhead hhash a b
  obtain ⟨a', b', hall, ha'⟩ := exists_carriedAll (R := redacted) (L := injectionMarkers U)
    (fun a => NoWord U a.reverse) (by simp) havoid
    (fun r _ a b a' b' ha hstep => noWord_front hstep ha) a t hstart
  obtain ⟨q, hq⟩ := hw.split_append [c]
  have hresult := hall.result
  have hfront := subAll_front (fun _ => id) hall hq
  refine ⟨a', c :: b', ?_, ha', hfront⟩
  have htext : a ++ w ++ c :: t = a ++ (w ++ [c]) ++ t := by simp
  have htext' : a' ++ w ++ c :: b' = a' ++ (w ++ [c]) ++ b' := by simp
  rw [htext, htext']
  exact hresult

/-- **A core with a heading in front comes through, and the heading becomes a boundary.** -/
theorem scrub_of_headed
    (hletters : FoldedLetters U) {a w b : PyStr} (ha : Headed a) (hw : IsCore w) :
    ∃ a' b', scrubInjectionMarkers U (a ++ w ++ b) = a' ++ w ++ b' ∧ NoWord U a'.reverse ∧
      scrubInjectionMarkers U (a ++ firstWord w) = a' ++ firstWord w := by
  obtain ⟨d, m, s, y, rfl, hm⟩ := ha
  obtain ⟨q, hq⟩ := hw.split
  have havoid : ∀ r ∈ firstMarkers U, ∀ a b, True → Avoids r a (m ++ w) b := by
    intro r hr a b _
    rcases List.mem_append.mp hr with hr | hr
    · exact avoids_headed hletters hr hm hw a b
    · obtain ⟨L, hL, hwords⟩ := spells_fencedMarkers r hr
      exact avoids_of_fenced hL hwords (hm.run hw) a b
  have hne : m ++ w ≠ [] := by
    rw [hm.cons]
    simp
  have hwne : w ≠ [] := List.ne_nil_of_mem hw.blank
  obtain ⟨a₁, b₁, hall, -⟩ := exists_carriedAll (R := redacted) (L := firstMarkers U)
    (fun _ => True) hne havoid (fun _ _ _ _ _ _ _ _ => trivial) d b trivial
  obtain ⟨c₁, c₂, t', hsplit, hhead⟩ := hw.two
  have hhash : ch '#' ∉ w := fun hmem => hw.ne (by decide) (by decide) _ hmem rfl
  obtain ⟨a', b', hlast⟩ := carried_of_avoids redacted hwne
    (avoids_heading (U := U) hletters hsplit hhead hhash (a₁ ++ m) b₁)
  have hempty : ∀ pre post, ¬ Rx.Lang systemHeading pre [] post := by
    intro pre post hnil
    obtain ⟨s', y', hnil⟩ := (lang_systemHeading_iff _ _ _).mp hnil
    have := hnil.cons
    cases this
  obtain ⟨x, rfl⟩ := hlast.left_of_rigid hempty
    ((lang_systemHeading_iff _ _ _).mpr ⟨s, y, hm⟩) (by
    intro d' m' e' htext hlang
    obtain ⟨s', y', hm'⟩ := (lang_systemHeading_iff _ _ _).mp hlang
    rcases overlap_cases htext with h | h | ⟨v₁, v₂, hv, hv₂, rfl, hrest⟩ |
      ⟨m₁, m₂, rfl, hm₁, hm₂, rfl, hrest⟩
    · exact Or.inl h
    · exact Or.inr (Or.inl h)
    · right; right
      by_cases hv₁ : v₁ = []
      · subst hv₁
        rw [List.nil_append] at hv
        rw [← hv] at hrest
        exact ⟨by simp, heading_unique hletters hm' hm hrest⟩
      · exact absurd hrest.symm (heading_not_inside hm hm' hv hv₁ hv₂)
    · exact absurd hrest (heading_not_inside hm' hm rfl hm₁ hm₂))
  have hrun : d ++ m ++ w ++ b = d ++ (m ++ w) ++ b := by simp
  refine ⟨x ++ redacted, b', ?_, noWord_redacted x, ?_⟩
  · rw [scrubInjectionMarkers_eq, hrun, hall.result, ← hlast.result]
    simp
  · have hfront := subAll_front (U := U) (fun r => List.mem_append_left _) hall
      (q := m ++ firstWord w) (t := q) (by rw [List.append_assoc, ← hq])
    rw [scrubInjectionMarkers_eq, List.append_assoc, hfront, ← List.append_assoc,
      sub_heading_front hlast hq]

end Scrub

end Sanitizer
end MqSentinel
