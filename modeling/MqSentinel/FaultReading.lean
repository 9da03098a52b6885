import MqSentinel.DrbdRendering
import MqSentinel.RegexScanning

/-!
# Where a failed action is read

The pattern for failed actions finds a `*`, a word, and further on in the same line a
keyword; the next word behind the keyword is taken for the node, after an `on` or a
`because`.  It may stand in another line than the keyword.
-/

namespace MqSentinel
namespace Rdqm

open Regex CodePoint

section Reading

/-- Behind the keyword and the white space the pattern skips `on` or `because`. -/
def dropOn (t : PyStr) : PyStr :=
  if Rx.startsWith ((lit "on").map ci) t then t.drop 2
  else if Rx.startsWith ((lit "because").map ci) t then t.drop 7
  else t

/-- The text behind a keyword from the word on that is taken for the node. -/
def fromNode (t : PyStr) : PyStr :=
  lstrip (dropOn (lstrip t))

/-- The word that is taken for the node. -/
def readNode (t : PyStr) : PyStr :=
  (fromNode t).takeWhile fun c => !c.isSpace

/-- What a match leaves of the text behind its keyword. -/
def leftOf (t : PyStr) : PyStr :=
  (fromNode t).dropWhile fun c => !c.isSpace

/-- `\s+(?:on|because)?\s*(\S*)` -/
def nodeRx : Gx Nat CodePoint :=
  Gx.seqs
    [ .plain (Rx.plus space), .plain (Rx.opt (Rx.alt (ciRx "on") (ciRx "because"))),
      .plain (Rx.star space), .group 3 (Rx.star (Rx.cls fun c => !c.isSpace)) ]

theorem first_opt_on
    (pre t : PyStr) :
    ∃ w, (Gx.plain (Rx.opt (Rx.alt (ciRx "on") (ciRx "because")))).first pre t =
        some (⟨w, []⟩ : Match Nat CodePoint) ∧ w ++ dropOn t = t := by
  have hfirst : Rx.first (Rx.opt (Rx.alt (ciRx "on") (ciRx "because"))) pre t =
      some (if Rx.startsWith ((lit "on").map ci) t then 2
        else if Rx.startsWith ((lit "because").map ci) t then 7 else 0) := by
    rw [Rx.first, Rx.opt, Rx.ends, Rx.ends, Rx.ends, ciRx, Rx.ends_word, ciRx, Rx.ends_word]
    by_cases hon : Rx.startsWith ((lit "on").map ci) t = true
    · rw [if_pos hon, if_pos hon]
      rfl
    · by_cases hbecause : Rx.startsWith ((lit "because").map ci) t = true
      · rw [if_neg hon, if_neg hon, if_pos hbecause, if_pos hbecause]
        rfl
      · rw [if_neg hon, if_neg hon, if_neg hbecause, if_neg hbecause]
        rfl
  refine ⟨_, by rw [Gx.first_plain, hfirst]; rfl, ?_⟩
  rw [dropOn]
  split_ifs
  · exact List.take_append_drop 2 t
  · exact List.take_append_drop 7 t
  · rfl

theorem first_star_group
    {p : CodePoint → Bool} (k : Nat) (pre post : PyStr) :
    (Gx.group k (Rx.star (Rx.cls p))).first pre post =
      some ⟨post.takeWhile p, [(k, post.takeWhile p)]⟩ := by
  have htake : post.take (post.takeWhile p).length = post.takeWhile p :=
    (List.prefix_iff_eq_take.mp (List.takeWhile_prefix p)).symm
  rw [Gx.first_group, Rx.first_star_cls, Option.map_some, htake]

/-- Behind a keyword the pattern reads the node and leaves the rest. -/
theorem first_nodeRx
    (pre : PyStr) {t : PyStr} (ht : t.head?.any isSpace = true) :
    ∃ w, nodeRx.first pre t = some ⟨w, [(3, readNode t)]⟩ ∧ w ++ leftOf t = t := by
  have hend : ∀ pre post, (Gx.seqs []).first pre post =
      some (⟨[], []⟩ : Match Nat CodePoint) := fun _ _ => rfl
  have hnode : ∀ pre, (Gx.seqs [.group 3 (Rx.star (Rx.cls fun c => !c.isSpace))]).first pre
      (fromNode t) = some (Match.append ⟨readNode t, [(3, readNode t)]⟩ ⟨[], []⟩) :=
    fun pre => Gx.first_seq (first_star_group 3 pre (fromNode t)) (hend _ _)
  have hblanks := fun pre => Gx.first_seq
    (Gx.first_plain_star (κ := Nat) isSpace pre (dropOn (lstrip t)))
    (by rw [drop_takeWhile]; exact hnode _)
  obtain ⟨o, hon, hdrop⟩ := first_opt_on ((t.takeWhile isSpace).reverse ++ pre) (lstrip t)
  have hafter : (lstrip t).drop o.length = dropOn (lstrip t) := by
    conv_lhs => rw [← hdrop, List.drop_left]
  have hopt := Gx.first_seq hon (by rw [hafter]; exact hblanks _)
  have hspace : nodeRx.first pre t = _ := Gx.first_seq (Gx.first_plain_plus (κ := Nat) ht pre)
    (by rw [drop_takeWhile]; exact hopt)
  refine ⟨_, by simpa [Match.append] using hspace, ?_⟩
  have hword : readNode t ++ leftOf t = fromNode t := List.takeWhile_append_dropWhile
  have hskip : (dropOn (lstrip t)).takeWhile isSpace ++ fromNode t = dropOn (lstrip t) :=
    List.takeWhile_append_dropWhile
  have hlead : t.takeWhile isSpace ++ lstrip t = t := List.takeWhile_append_dropWhile
  simp [readNode, leftOf, hskip, hdrop, hlead]

theorem first_nodeRx_none
    (pre : PyStr) {t : PyStr} (ht : t.head?.any isSpace = false) :
    nodeRx.first pre t = none :=
  first_space_none _ pre ht

end Reading

section Faults

/-- A keyword of the pattern, in any case. -/
def IsKeyword (k : PyStr) : Prop :=
  ∃ w ∈ ["FAILED", "Stopped", "Stop (disabled)", "unmanaged"],
    k.map reFold = (lit w).map reFold

/-- `(FAILED|Stopped|Stop \(disabled\)|unmanaged)` -/
def keywordRx : Rx CodePoint :=
  Rx.alt (ciRx "FAILED")
    (Rx.alt (ciRx "Stopped") (Rx.alt (ciRx "Stop (disabled)") (ciRx "unmanaged")))

theorem lang_keywordRx_iff
    (pre k rest : PyStr) :
    Rx.Lang keywordRx pre k rest ↔ IsKeyword k := by
  simp only [keywordRx, ciRx, Rx.lang_alt, Rx.lang_word, fits_ci_iff, IsKeyword,
    List.exists_mem_cons_iff, List.not_mem_nil, false_and, exists_false, or_false]

theorem lf_not_mem_of_isKeyword
    {k : PyStr} (hk : IsKeyword k) :
    lf ∉ k := by
  obtain ⟨w, hw, hfold⟩ := hk
  intro hmem
  have hlf : lf ∈ (lit w).map reFold := hfold ▸ List.mem_map_of_mem (f := reFold) hmem
  clear hfold
  revert w
  decide

/-- The part of the pattern behind the lazily skipped text. -/
def faultRx : Gx Nat CodePoint :=
  Gx.seq (.group 2 keywordRx) nodeRx

/-- `\*\s+(\S+)` -/
def resourceRx : Gx Nat CodePoint :=
  Gx.seqs [.plain (litRx "*"), .plain (Rx.plus space), .group 1 word]

theorem crmFailed_eq :
    crmFailed = (Scanner.ofGx resourceRx).andThen
      (Scanner.lazily (fun c => !isNewline c) (Scanner.ofGx faultRx)) := by
  rfl

/-- A fault is read as a keyword and the text behind it. -/
theorem exists_of_first_faultRx
    {pre post : PyStr} {m : Match Nat CodePoint} (h : faultRx.first pre post = some m) :
    ∃ k t w, post = k ++ t ∧ IsKeyword k ∧ t.head?.any isSpace = true ∧ w ++ leftOf t = t ∧
      m = ⟨k ++ w, [(2, k), (3, readNode t)]⟩ := by
  obtain ⟨x, hx, y, hy, rfl⟩ := Gx.exists_of_first_seq h
  obtain ⟨k, t, rfl, hk, rfl⟩ := Gx.mem_captures_group_iff.mp hx
  rw [List.drop_left] at hy
  cases ht : t.head?.any isSpace with
  | false =>
      rw [first_nodeRx_none _ ht] at hy
      cases hy
  | true =>
      obtain ⟨w, hw, hleft⟩ := first_nodeRx (k.reverse ++ pre) ht
      rw [hw, Option.some_inj] at hy
      exact ⟨k, t, w, rfl, (lang_keywordRx_iff _ _ _).mp hk, ht, hleft, by rw [← hy]; rfl⟩

/-- A keyword with white space behind it stands here. -/
def KeywordAt (post : PyStr) : Prop :=
  ∃ k t, post = k ++ t ∧ IsKeyword k ∧ t.head?.any isSpace = true

theorem captures_faultRx_eq_nil_iff
    (pre post : PyStr) :
    faultRx.captures pre post = [] ↔ ¬ KeywordAt post := by
  constructor
  · rintro hnil ⟨k, t, rfl, hk, ht⟩
    obtain ⟨w, hw, -⟩ := first_nodeRx (k.reverse ++ pre) ht
    have hgroup : (⟨k, [(2, k)]⟩ : Match Nat CodePoint) ∈
        (Gx.group 2 keywordRx).captures pre (k ++ t) :=
      Gx.mem_captures_group_iff.mpr ⟨k, t, rfl, (lang_keywordRx_iff _ _ _).mpr hk, rfl⟩
    have hnode : (⟨w, [(3, readNode t)]⟩ : Match Nat CodePoint) ∈
        nodeRx.captures (k.reverse ++ pre) ((k ++ t).drop k.length) := by
      rw [List.drop_left]
      exact List.mem_of_head? hw
    exact List.ne_nil_of_mem (Gx.mem_captures_seq_iff.mpr ⟨_, hgroup, _, hnode, rfl⟩) hnil
  · intro hnone
    cases hfirst : faultRx.first pre post with
    | none =>
        exact List.head?_eq_none_iff.mp hfirst
    | some m =>
        obtain ⟨k, t, w, hpost, hk, ht, -, -⟩ := exists_of_first_faultRx hfirst
        exact absurd ⟨k, t, hpost, hk, ht⟩ hnone

/-- `*`, white space and a word. -/
theorem mem_captures_resourceRx_iff
    {pre post : PyStr} {m : Match Nat CodePoint} :
    m ∈ resourceRx.captures pre post ↔
      ∃ blanks r rest, post = ch '*' :: (blanks ++ (r ++ rest)) ∧ blanks ≠ [] ∧
        (∀ c ∈ blanks, c.isSpace = true) ∧ IsWord r ∧
          m = ⟨ch '*' :: (blanks ++ r), [(1, r)]⟩ := by
  have hstar : ∀ w v, Rx.Lang (litRx "*") pre w v ↔ w = [ch '*'] := by
    intro w v
    rw [litRx, Rx.lang_word, fits_one_iff]
    rfl
  have hword : ∀ pre w v, Rx.Lang word pre w v ↔ IsWord w := by
    intro pre w v
    rw [word, Miqm.oneOrMore, Rx.lang_plus_cls]
    simp [IsWord]
  constructor
  · intro hm
    obtain ⟨x, hx, m', hm', rfl⟩ := Gx.mem_captures_seq_iff.mp hm
    obtain ⟨w, v, rfl, hw, rfl⟩ := Gx.mem_captures_plain_iff.mp hx
    obtain rfl := (hstar _ _).mp hw
    obtain ⟨x, hx, m'', hm'', rfl⟩ := Gx.mem_captures_seq_iff.mp hm'
    obtain ⟨blanks, v', hv, hblanks, rfl⟩ := Gx.mem_captures_plain_iff.mp hx
    rw [List.drop_left] at hv
    subst hv
    rw [space, Rx.lang_plus_cls] at hblanks
    obtain ⟨x, hx, e, he, rfl⟩ := Gx.mem_captures_seq_iff.mp hm''
    obtain ⟨r, rest, hv', hr, rfl⟩ := Gx.mem_captures_group_iff.mp hx
    rw [List.drop_left, List.drop_left] at hv'
    subst hv'
    obtain ⟨_, _, _, rfl, rfl⟩ := Gx.mem_captures_plain_iff.mp he
    refine ⟨blanks, r, rest, by simp, hblanks.1, hblanks.2, (hword _ _ _).mp hr, ?_⟩
    simp [Match.append]
  · rintro ⟨blanks, r, rest, rfl, hne, hall, hr, rfl⟩
    have hend : ∀ pre post, (⟨[], []⟩ : Match Nat CodePoint) ∈ (Gx.seqs []).captures pre post :=
      fun _ _ => List.mem_singleton.mpr rfl
    have hgroup : ∀ pre, Match.append ⟨r, [(1, r)]⟩ ⟨[], []⟩ ∈
        (Gx.seqs [.group 1 word]).captures pre (r ++ rest) := fun pre =>
      Gx.mem_captures_seq_iff.mpr ⟨_, Gx.mem_captures_group_iff.mpr
        ⟨r, rest, rfl, (hword _ _ _).mpr hr, rfl⟩, _, hend _ _, rfl⟩
    have hspace : ∀ pre, Match.append ⟨blanks, []⟩ (Match.append ⟨r, [(1, r)]⟩ ⟨[], []⟩) ∈
        (Gx.seqs [.plain (Rx.plus space), .group 1 word]).captures pre
          (blanks ++ (r ++ rest)) := by
      intro pre
      refine Gx.mem_captures_seq_iff.mpr ⟨⟨blanks, []⟩, Gx.mem_captures_plain_iff.mpr
        ⟨blanks, r ++ rest, rfl, (Rx.lang_plus_cls _ _ _ _).mpr ⟨hne, hall⟩, rfl⟩, _, ?_, rfl⟩
      rw [List.drop_left]
      exact hgroup _
    have hmatch : _ ∈ resourceRx.captures pre (ch '*' :: (blanks ++ (r ++ rest))) :=
      Gx.mem_captures_seq_iff.mpr ⟨⟨[ch '*'], []⟩,
        Gx.mem_captures_plain_iff.mpr ⟨[ch '*'], blanks ++ (r ++ rest), rfl,
          (hstar _ _).mpr rfl, rfl⟩, _, hspace _, rfl⟩
    simpa [Match.append] using hmatch

theorem drop_resource (blanks r rest : PyStr) :
    (ch '*' :: (blanks ++ (r ++ rest))).drop (ch '*' :: (blanks ++ r)).length = rest := by
  rw [← List.append_assoc]
  exact List.drop_left

/--
A fault is listed here: `*`, white space, a word, and further on in the same line a
keyword with white space behind it.
-/
def FaultAt (post : PyStr) : Prop :=
  ∃ blanks r z rest, post = ch '*' :: (blanks ++ (r ++ (z ++ rest))) ∧ blanks ≠ [] ∧
    (∀ c ∈ blanks, c.isSpace = true) ∧ IsWord r ∧ lf ∉ z ∧ KeywordAt rest

/-- What a match takes and what it leaves. -/
theorem exists_of_head?_crmFailed
    {pre post : PyStr} {m : Match Nat CodePoint} (h : (crmFailed pre post).head? = some m) :
    ∃ blanks r z k t w, post = ch '*' :: (blanks ++ (r ++ (z ++ (k ++ t)))) ∧
      blanks ≠ [] ∧ (∀ c ∈ blanks, c.isSpace = true) ∧ IsWord r ∧ lf ∉ z ∧ IsKeyword k ∧
        t.head?.any isSpace = true ∧ w ++ leftOf t = t ∧
          m = ⟨ch '*' :: (blanks ++ (r ++ (z ++ (k ++ w)))),
            [(1, r), (2, k), (3, readNode t)]⟩ := by
  rw [crmFailed_eq] at h
  obtain ⟨x, hx, y, hy, rfl⟩ := Scanner.exists_of_andThen h
  obtain ⟨blanks, r, rest, rfl, hne, hall, hr, rfl⟩ := mem_captures_resourceRx_iff.mp hx
  rw [drop_resource] at hy
  obtain ⟨z, rest, rfl, hz, y', hfault, rfl⟩ := Scanner.exists_of_lazily hy
  obtain ⟨k, t, w, rfl, hk, ht, hleft, rfl⟩ := exists_of_first_faultRx hfault
  have hlf : lf ∉ z := by
    intro hmem
    exact absurd (hz lf hmem) (by decide)
  exact ⟨blanks, r, z, k, t, w, rfl, hne, hall, hr, hlf, hk, ht, hleft, by simp [Match.append]⟩

/-- A match is not empty, and it stands in the text. -/
theorem exists_rest_of_head?_crmFailed
    {pre post : PyStr} {m : Match Nat CodePoint} (h : (crmFailed pre post).head? = some m) :
    m.word ≠ [] ∧ ∃ rest, post = m.word ++ rest := by
  obtain ⟨blanks, r, z, k, t, w, rfl, -, -, -, -, -, -, hleft, rfl⟩ := exists_of_head?_crmFailed h
  exact ⟨by simp, leftOf t, by simp [hleft]⟩

/-- A match starts exactly where a fault is listed. -/
theorem crmFailed_eq_nil_iff
    (pre post : PyStr) :
    crmFailed pre post = [] ↔ ¬ FaultAt post := by
  constructor
  · rintro hnil ⟨blanks, r, z, rest, rfl, hne, hall, hr, hz, hkeyword⟩
    have hresource : (⟨ch '*' :: (blanks ++ r), [(1, r)]⟩ : Match Nat CodePoint) ∈
        resourceRx.captures pre (ch '*' :: (blanks ++ (r ++ (z ++ rest)))) :=
      mem_captures_resourceRx_iff.mpr ⟨blanks, r, z ++ rest, rfl, hne, hall, hr, rfl⟩
    have hnewline : ∀ c ∈ z, (!isNewline c) = true := by
      intro c hc
      have hne : c ≠ lf := fun heq => hz (heq ▸ hc)
      simpa [isNewline] using hne
    rw [crmFailed_eq, Scanner.andThen, List.flatMap_eq_nil_iff] at hnil
    have hlazy := hnil _ hresource
    rw [List.map_eq_nil_iff, drop_resource] at hlazy
    exact absurd hlazy (Scanner.lazily_ne_nil hnewline fun hnone =>
      (captures_faultRx_eq_nil_iff _ _).mp hnone hkeyword)
  · intro hnone
    cases hfirst : (crmFailed pre post).head? with
    | none =>
        exact List.head?_eq_none_iff.mp hfirst
    | some m =>
        obtain ⟨blanks, r, z, k, t, w, hpost, hne, hall, hr, hz, hk, ht, -⟩ :=
          exists_of_head?_crmFailed hfirst
        exact absurd ⟨blanks, r, z, k ++ t, hpost, hne, hall, hr, hz, k, t, rfl, hk, ht⟩ hnone

end Faults

section NextLine

/-- Another line of the section, with the text behind its `*`. -/
def nextLine (indent y : PyStr) : PyStr :=
  lf :: (indent ++ (ch '*' :: ch ' ' :: y))

variable {indent : PyStr} (hindent : ∀ c ∈ indent, c.isSpace = true) (y : PyStr)

include hindent in
theorem lstrip_nextLine :
    lstrip (nextLine indent y) = ch '*' :: ch ' ' :: y := by
  have hblank : ∀ c ∈ lf :: indent, c.isSpace = true :=
    List.forall_mem_cons.mpr ⟨by decide, hindent⟩
  have hnil : lstrip (lf :: indent) = [] := (lstrip_eq_nil_iff _).mpr hblank
  have hstrip := lstrip_blank_append hnil (ch '*' :: ch ' ' :: y)
  rw [nextLine, ← List.cons_append, hstrip]
  rfl

/-- An `on` that the pattern skips stands in one line. -/
theorem dropOn_nextLine
    (u : PyStr) :
    dropOn (u ++ nextLine indent y) = dropOn u ++ nextLine indent y := by
  have hstarts : ∀ s : String, (∀ p ∈ (lit s).map ci, p lf = false) →
      Rx.startsWith ((lit s).map ci) (u ++ nextLine indent y) =
        Rx.startsWith ((lit s).map ci) u :=
    fun s hs => Rx.startsWith_append_stop hs u _
  have hlength : ∀ s : String, Rx.startsWith ((lit s).map ci) u = true →
      (lit s).length ≤ u.length := by
    intro s h
    obtain ⟨w, v, rfl, hw⟩ := (Rx.startsWith_iff _ _).mp h
    have hlen := hw.length_eq
    rw [List.length_map] at hlen
    rw [List.length_append]
    omega
  rw [dropOn, dropOn, hstarts "on" (by decide), hstarts "because" (by decide)]
  split_ifs with hon hbecause
  · exact List.drop_append_of_le_length (hlength "on" hon)
  · exact List.drop_append_of_le_length (hlength "because" hbecause)
  · rfl

/-- In front of another line the node is read from what stands before that line, if a word does. -/
theorem fromNode_nextLine
    {b : PyStr} (hb : fromNode b ≠ []) :
    fromNode (b ++ nextLine indent y) = fromNode b ++ nextLine indent y := by
  have hfront : lstrip b ≠ [] := by
    intro hnil
    rw [fromNode, hnil] at hb
    exact hb rfl
  rw [fromNode, lstrip_append hfront, dropOn_nextLine, lstrip_append hb]
  rfl

include hindent in
/-- Otherwise the `*` of the next line is taken for the node. -/
theorem fromNode_nextLine_of_nil
    {b : PyStr} (hb : fromNode b = []) :
    fromNode (b ++ nextLine indent y) = ch '*' :: ch ' ' :: y := by
  have hstar : lstrip (ch '*' :: ch ' ' :: y) = ch '*' :: ch ' ' :: y := rfl
  by_cases hfront : lstrip b = []
  · have hdrop : dropOn (ch '*' :: ch ' ' :: y) = ch '*' :: ch ' ' :: y := rfl
    rw [fromNode, lstrip_blank_append hfront, lstrip_nextLine hindent, hdrop, hstar]
  · rw [fromNode, lstrip_append hfront, dropOn_nextLine, lstrip_blank_append hb,
      lstrip_nextLine hindent]

theorem dropWhile_append_nextLine
    {p : CodePoint → Bool} (hp : p lf = false) (x : PyStr) :
    (x ++ nextLine indent y).dropWhile p = x.dropWhile p ++ nextLine indent y := by
  induction x with
  | nil =>
      exact List.dropWhile_cons_of_neg (by simp [hp])
  | cons c x ih =>
      by_cases hc : p c = true
      · rw [List.cons_append, List.dropWhile_cons_of_pos hc, List.dropWhile_cons_of_pos hc, ih]
      · rw [List.cons_append, List.dropWhile_cons_of_neg hc, List.dropWhile_cons_of_neg hc]
        rfl

include hindent in
/-- What is read in front of another line. -/
theorem read_nextLine
    (b : PyStr) :
    if fromNode b = [] then readNode (b ++ nextLine indent y) = [ch '*']
    else readNode (b ++ nextLine indent y) = readNode b ∧
      leftOf (b ++ nextLine indent y) = leftOf b ++ nextLine indent y := by
  split_ifs with hb
  · rw [readNode, fromNode_nextLine_of_nil hindent y hb]
    rfl
  · have hlf : (fun c : CodePoint => !c.isSpace) lf = false := by decide
    rw [readNode, leftOf, fromNode_nextLine y hb, readNode, leftOf,
      dropWhile_append_nextLine y hlf]
    exact ⟨takeWhile_append_tail hlf (Or.inr ⟨_, rfl⟩), rfl⟩

omit hindent in
/-- A text without line feeds ends in front of the next line. -/
theorem exists_of_append_nextLine
    {u v x : PyStr} (h : x ++ nextLine indent y = u ++ v) (hu : lf ∉ u) :
    ∃ x', x = u ++ x' ∧ v = x' ++ nextLine indent y := by
  rcases List.append_eq_append_iff.mp h with ⟨u', rfl, hv⟩ | ⟨x', rfl, hv⟩
  · cases u' with
    | nil =>
        exact ⟨[], by simp, hv.symm⟩
    | cons c u' =>
        have hc : lf = c := (List.cons.inj hv).1
        exact absurd (by simp [hc]) hu
  · exact ⟨x', rfl, hv⟩

include hindent in
/--
A match that starts in front of another line either ends there, or takes the `*` of that
line for its resource or for its node.
-/
theorem head?_crmFailed_nextLine
    {pre x : PyStr} {m : Match Nat CodePoint} (hx : x ≠ [])
    (h : (crmFailed pre (x ++ nextLine indent y)).head? = some m) :
    text m 1 = lit "*" ∨ text m 3 = lit "*" ∨ ∃ q, x = m.word ++ q := by
  obtain ⟨blanks, r, z, k, t, w, hpost, -, hblanks, hr, hz, hk, -, hleft, rfl⟩ :=
    exists_of_head?_crmFailed h
  obtain ⟨c, x, rfl⟩ := List.exists_cons_of_ne_nil hx
  obtain ⟨rfl, hbehind⟩ := List.cons.inj hpost
  have hword : lf ∉ r := fun hmem => absurd (hr.2 lf hmem) (by decide)
  rcases List.append_eq_append_iff.mp hbehind with ⟨b, rfl, hnext⟩ | ⟨x, rfl, hrest⟩
  · -- the white space behind the `*` runs on into the next line
    have hb : ∀ c ∈ b, c.isSpace = true := fun c hc => hblanks c (List.mem_append_right _ hc)
    have hblank : ∀ c ∈ lf :: indent, c.isSpace = true :=
      List.forall_mem_cons.mpr ⟨by decide, hindent⟩
    rw [nextLine, ← List.cons_append] at hnext
    obtain ⟨-, hstar⟩ := append_inj_of_class hnext hblank hb rfl (head?_word hr).2
    obtain ⟨hne, hall⟩ := hr
    cases r with
    | nil =>
        exact absurd rfl hne
    | cons c r =>
        obtain ⟨rfl, hsecond⟩ := List.cons.inj hstar
        cases r with
        | nil =>
            exact Or.inl rfl
        | cons d r =>
            obtain ⟨rfl, -⟩ := List.cons.inj hsecond
            exact absurd (hall (ch ' ') (by simp)) (by decide)
  · obtain ⟨xr, rfl, hr'⟩ := exists_of_append_nextLine y hrest.symm hword
    obtain ⟨xz, rfl, hz'⟩ := exists_of_append_nextLine y hr'.symm hz
    obtain ⟨xk, rfl, rfl⟩ := exists_of_append_nextLine y hz'.symm (lf_not_mem_of_isKeyword hk)
    have hread := read_nextLine hindent y xk
    split_ifs at hread with hnil
    · exact Or.inr (Or.inl hread)
    · rw [hread.2, ← List.append_assoc, List.append_cancel_right_eq] at hleft
      exact Or.inr (Or.inr ⟨leftOf xk, by simp [hleft]⟩)

end NextLine

section Line

theorem not_isSpace_of_map_reFold
    {u w : PyStr} (h : u.map reFold = w) (hw : ∀ c ∈ w, c.isSpace = false) :
    ∀ c ∈ u, c.isSpace = false := by
  intro c hc
  by_contra hspace
  rw [Bool.not_eq_false] at hspace
  have hmem : c.reFold ∈ w := h ▸ List.mem_map_of_mem hc
  rw [reFold_of_isSpace hspace] at hmem
  rw [hw c hmem] at hspace
  cases hspace

/-- In front of the first white space of a keyword stands a word that ends in `d` or `p`. -/
theorem exists_front_of_isKeyword
    {k t : PyStr} (hk : IsKeyword k) (ht : t.head?.any isSpace = true) :
    ∃ u v, k = u ++ v ∧ (∀ c ∈ u, c.isSpace = false) ∧ (v ++ t).head?.any isSpace = true ∧
      (v = [] ∧ (u.map reFold).getLast? = some (ch 'd') ∨ u.map reFold = lit "stop") := by
  obtain ⟨w, hw, hfold⟩ := hk
  simp only [List.mem_cons, List.not_mem_nil, or_false] at hw
  rcases hw with rfl | rfl | rfl | rfl
  · exact ⟨k, [], by simp, not_isSpace_of_map_reFold hfold (by decide), ht,
      Or.inl ⟨rfl, by rw [hfold]; rfl⟩⟩
  · exact ⟨k, [], by simp, not_isSpace_of_map_reFold hfold (by decide), ht,
      Or.inl ⟨rfl, by rw [hfold]; rfl⟩⟩
  · have hsplit : k.map reFold = lit "stop" ++ (lit " (disabled)").map reFold := hfold
    obtain ⟨u, v, rfl, hu, hv⟩ := List.map_eq_append_iff.mp hsplit
    refine ⟨u, v, rfl, not_isSpace_of_map_reFold hu (by decide), ?_, Or.inr hu⟩
    cases v with
    | nil =>
        cases hv
    | cons c v =>
        have hc : c.reFold = ch ' ' := (List.cons.inj hv).1
        exact isSpace_of_reFold (by rw [hc]; rfl)
  · exact ⟨k, [], by simp, not_isSpace_of_map_reFold hfold (by decide), ht,
      Or.inl ⟨rfl, by rw [hfold]; rfl⟩⟩

/-- Where the first word ends in `n` or in a colon, no keyword starts. -/
theorem not_keywordAt
    {u v : PyStr} (hu : ∀ c ∈ u, c.isSpace = false)
    (hlast : ∀ c ∈ (u.map reFold).getLast?, c = ch 'n' ∨ c = ch ':') :
    ¬ KeywordAt (u ++ ch ' ' :: v) := by
  rintro ⟨k, t, hsplit, hk, ht⟩
  obtain ⟨u', v', rfl, hu', hhead, hend⟩ := exists_front_of_isKeyword hk ht
  have hstop : (v' ++ t).head?.any (fun c => !c.isSpace) = false := by
    cases hv : v' ++ t with
    | nil =>
        rfl
    | cons c v =>
        rw [hv] at hhead
        simpa using hhead
  rw [List.append_assoc] at hsplit
  obtain ⟨rfl, -⟩ := append_inj_of_class hsplit
    (fun c hc => by rw [hu c hc]; rfl) (fun c hc => by rw [hu' c hc]; rfl) rfl hstop
  have hletter : (u.map reFold).getLast? = some (ch 'd') ∨
      (u.map reFold).getLast? = some (ch 'p') :=
    hend.imp And.right fun h => by rw [h]; rfl
  rcases hletter with hletter | hletter
  · rcases hlast _ hletter with h | h
    all_goals exact absurd h (by decide)
  · rcases hlast _ hletter with h | h
    all_goals exact absurd h (by decide)

/-- The text between the resource and the keyword of a failed line. -/
def betweenOf (node : PyStr) : PyStr :=
  lit " on " ++ (node ++ lit ": ")

/-- No keyword starts between the resource and the keyword of the line. -/
theorem clear_between
    {node : PyStr} (hnode : ∀ c ∈ node, c.isSpace = false) (rest : PyStr) :
    Scanner.Clear KeywordAt (betweenOf node) rest := by
  have hcolon : ∀ w : PyStr, (∀ c ∈ w, c.isSpace = false) →
      ¬ KeywordAt (w ++ (lit ":" ++ ch ' ' :: rest)) := by
    intro w hw
    rw [← List.append_assoc]
    refine not_keywordAt (List.forall_mem_append.mpr ⟨hw, by decide⟩) ?_
    intro c hc
    rw [List.map_append, List.getLast?_append] at hc
    exact Or.inr (Option.some_inj.mp hc.symm)
  have hname : Scanner.Clear KeywordAt (node ++ lit ": ") rest := by
    induction node with
    | nil =>
        exact ⟨hcolon [] (by simp), not_keywordAt (u := []) (by simp) (by simp), trivial⟩
    | cons c node ih =>
        have hall := hcolon (c :: node) hnode
        refine ⟨?_, ih (List.forall_mem_cons.mp hnode).2⟩
        simpa [lit] using hall
  exact ⟨not_keywordAt (u := []) (by simp) (by simp),
    not_keywordAt (u := lit "on") (by decide) (by decide),
    not_keywordAt (u := lit "n") (by decide) (by decide),
    not_keywordAt (u := []) (by simp) (by simp), hname⟩

/-- The text of a failed line from its `*` to its keyword. -/
def headOf (resource node : PyStr) : PyStr :=
  lit "* " ++ (resource ++ (betweenOf node ++ lit "FAILED"))

/-- In front of white space `FAILED` is read as the keyword. -/
theorem first_faultRx_failed
    (pre : PyStr) {t : PyStr} (ht : t.head?.any isSpace = true) :
    ∃ w, faultRx.first pre (lit "FAILED" ++ t) =
        some ⟨lit "FAILED" ++ w, [(2, lit "FAILED"), (3, readNode t)]⟩ ∧ w ++ leftOf t = t := by
  have hkeyword : KeywordAt (lit "FAILED" ++ t) :=
    ⟨lit "FAILED", t, rfl, ⟨"FAILED", by simp, rfl⟩, ht⟩
  cases hfirst : faultRx.first pre (lit "FAILED" ++ t) with
  | none =>
      have hnil := List.head?_eq_none_iff.mp hfirst
      exact absurd hkeyword ((captures_faultRx_eq_nil_iff _ _).mp hnil)
  | some m =>
      obtain ⟨k, t', w, hsplit, hk, ht', hleft, rfl⟩ := exists_of_first_faultRx hfirst
      obtain ⟨u, v, rfl, hu, hhead, hend⟩ := exists_front_of_isKeyword hk ht'
      have hstop : ∀ {x : PyStr}, x.head?.any isSpace = true →
          x.head?.any (fun c => !c.isSpace) = false := by
        intro x hx
        cases x with
        | nil =>
            rfl
        | cons c x =>
            simpa using hx
      rw [List.append_assoc] at hsplit
      obtain ⟨rfl, hrest⟩ := append_inj_of_class hsplit (by decide)
        (fun c hc => by rw [hu c hc]; rfl) (hstop ht) (hstop hhead)
      rcases hend with ⟨rfl, -⟩ | hfold
      · rw [List.nil_append] at hrest
        subst hrest
        exact ⟨w, by rw [List.append_nil], hleft⟩
      · exact absurd hfold (by decide)

theorem first_resourceRx
    (pre : PyStr) {resource rest : PyStr} (hresource : IsWord resource)
    (hrest : rest.head?.all isSpace = true) :
    resourceRx.first pre (lit "* " ++ (resource ++ rest)) =
      some ⟨lit "* " ++ resource, [(1, resource)]⟩ := by
  have hend : ∀ pre, (Gx.seqs []).first pre rest = some (⟨[], []⟩ : Match Nat CodePoint) :=
    fun _ => rfl
  have hword := fun pre => first_word_seq 1 hresource hrest (hend (resource.reverse ++ pre))
  have hblank := fun pre => first_blank_seq (head?_word hresource).1 (hword (ch ' ' :: pre))
  have hstar : resourceRx.first pre _ = some _ :=
    first_lit_seq "*" (hblank ((lit "*").reverse ++ pre))
  simpa [Match.append, lit] using hstar

/-- A failed line is read as the resource, `FAILED` and the word behind it. -/
theorem head?_crmFailed_headOf
    (pre : PyStr) {resource node t : PyStr} (hresource : IsWord resource)
    (hnode : IsWord node) (ht : t.head?.any isSpace = true) :
    ∃ w, (crmFailed pre (headOf resource node ++ t)).head? =
        some ⟨headOf resource node ++ w,
          [(1, resource), (2, lit "FAILED"), (3, readNode t)]⟩ ∧ w ++ leftOf t = t := by
  obtain ⟨w, hfault, hleft⟩ := first_faultRx_failed
    ((betweenOf node).reverse ++ ((lit "* " ++ resource).reverse ++ pre)) ht
  have hline : ∀ c ∈ betweenOf node, (!isNewline c) = true := by
    have hword : ∀ c ∈ node, (!isNewline c) = true := by
      intro c hc
      have hne : c ≠ lf := by
        rintro rfl
        exact absurd (hnode.2 _ hc) (by decide)
      simpa [isNewline] using hne
    exact List.forall_mem_append.mpr
      ⟨by decide, List.forall_mem_append.mpr ⟨hword, by decide⟩⟩
  have hnone : ∀ a b, betweenOf node = a ++ b → b ≠ [] →
      (Scanner.ofGx faultRx) (a.reverse ++ ((lit "* " ++ resource).reverse ++ pre))
        (b ++ (lit "FAILED" ++ t)) = [] := by
    intro a b hsplit hb
    have hclear := clear_between hnode.2 (lit "FAILED" ++ t)
    rw [hsplit] at hclear
    exact (captures_faultRx_eq_nil_iff _ _).mpr
      (Scanner.not_starts_of_clear (Scanner.clear_append_iff.mp hclear).2 hb)
  have hlazy := Scanner.head?_lazily hline hnone hfault
  have hfront : resourceRx.first pre
      (lit "* " ++ (resource ++ (betweenOf node ++ (lit "FAILED" ++ t)))) = _ :=
    first_resourceRx pre hresource rfl
  have hrest : (lit "* " ++ (resource ++ (betweenOf node ++ (lit "FAILED" ++ t)))).drop
      (lit "* " ++ resource).length = betweenOf node ++ (lit "FAILED" ++ t) := by
    rw [← List.append_assoc]
    exact List.drop_left
  have hboth := Scanner.head?_andThen (s := Scanner.ofGx resourceRx) hfront
    (by rw [hrest]; exact hlazy)
  refine ⟨w, ?_, hleft⟩
  rw [crmFailed_eq]
  simpa [Match.append, headOf] using hboth

end Line

end Rdqm
end MqSentinel
