import MqSentinel.RdqmStatusFields

/-!
# Pacemaker quorum

A report of `crm_mon -1` states how many nodes are configured and shows each of them: in
the list of the online ones, in the list of the offline ones, or on a line of its own.
`_parse_crm_mon` counts the nodes of the two lists, and reads node lines only where both
lists are empty; the majority is taken of that count.
-/

namespace MqSentinel
namespace Rdqm

open Regex Rcs CodePoint
open Rcs.Rdqm (matchRdqmFindings)

/-- What a node line says of a node that is in neither list. -/
inductive NodeState where
  | standby
  | maintenance
  | pending
  | unclean
deriving DecidableEq

/-- The state as it is printed. -/
def NodeState.text : NodeState → PyStr
  | standby => lit "standby"
  | maintenance => lit "maintenance"
  | pending => lit "pending"
  | unclean => lit "UNCLEAN (offline)"

/-- A line of a report. -/
inductive CrmLine where
  | online (nodes : List PyStr)
  | offline (nodes : List PyStr)
  | node (bullet name : PyStr) (state : NodeState)
  | other (text : PyStr)

namespace CrmLine

/-- The inside of a list, behind its bracket. -/
def listText (nodes : List PyStr) : PyStr :=
  nodes.flatMap (ch ' ' :: ·) ++ lit " ]"

/-- The line as it is printed. -/
def render : CrmLine → PyStr
  | online nodes => lit "Online:" ++ ([ch ' '] ++ (lit "[" ++ listText nodes))
  | offline nodes => lit "OFFLINE:" ++ ([ch ' '] ++ (lit "[" ++ listText nodes))
  | node bullet name state =>
      bullet ++ (lit "Node" ++ (ch ' ' :: (name ++ (lit ":" ++ (ch ' ' :: state.text)))))
  | other text => text

/-- The name of a node. -/
def IsNodeName (name : PyStr) : Prop :=
  IsWord name ∧ ch ']' ∉ name

/-- The line is one that a report can have. -/
def WellFormed : CrmLine → Prop
  | online nodes => ∀ n ∈ nodes, IsNodeName n
  | offline nodes => ∀ n ∈ nodes, IsNodeName n
  | node bullet name _ => bullet ∈ [[], lit "* ", lit "  * "] ∧ IsNodeName name
  | other text => lf ∉ text ∧ ¬ lit "Online:" <+: text ∧ ¬ lit "OFFLINE:" <+: text ∧
      ¬ lit "* Node" <+: text

instance (name : PyStr) : Decidable (IsNodeName name) :=
  inferInstanceAs (Decidable ((name ≠ [] ∧ ∀ c ∈ name, c.isSpace = false) ∧ ch ']' ∉ name))

instance (l : CrmLine) : Decidable l.WellFormed :=
  match l with
  | online nodes => inferInstanceAs (Decidable (∀ n ∈ nodes, IsNodeName n))
  | offline nodes => inferInstanceAs (Decidable (∀ n ∈ nodes, IsNodeName n))
  | node bullet name _ =>
      inferInstanceAs (Decidable (bullet ∈ [[], lit "* ", lit "  * "] ∧ IsNodeName name))
  | other text =>
      inferInstanceAs (Decidable (lf ∉ text ∧ ¬ lit "Online:" <+: text ∧
        ¬ lit "OFFLINE:" <+: text ∧ ¬ lit "* Node" <+: text))

/-- The nodes of the online list. -/
def onlineNodes? : CrmLine → Option (List PyStr)
  | online nodes => some nodes
  | _ => none

/-- The nodes of the offline list. -/
def offlineNodes? : CrmLine → Option (List PyStr)
  | offline nodes => some nodes
  | _ => none

/-- A node line that the fallback reads: with the bullet at the start of the line. -/
def bulleted? : CrmLine → Option (PyStr × NodeState)
  | node bullet name state => if bullet = lit "* " then some (name, state) else none
  | _ => none

/-- The nodes that the line shows. -/
def nodes : CrmLine → List PyStr
  | online nodes => nodes
  | offline nodes => nodes
  | node _ name _ => [name]
  | other _ => []

end CrmLine

/-- A report of `crm_mon -1` on a cluster of `configured` nodes. -/
structure CrmReport where
  lines : List CrmLine
  configured : Nat
  wellFormed : ∀ l ∈ lines, l.WellFormed
  oneOnline : (lines.filterMap CrmLine.onlineNodes?).length ≤ 1
  oneOffline : (lines.filterMap CrmLine.offlineNodes?).length ≤ 1
  stated : ∃ l ∈ lines, natStr configured ++ lit " nodes configured" <:+: l.render
  distinct : (lines.flatMap CrmLine.nodes).Nodup
  all : (lines.flatMap CrmLine.nodes).length = configured

namespace CrmReport

/-- The text of the report. -/
def text (r : CrmReport) : PyStr :=
  joinLines (r.lines.map CrmLine.render)

/-- The nodes in the online list. -/
def online (r : CrmReport) : List PyStr :=
  (r.lines.findSome? CrmLine.onlineNodes?).getD []

/-- The nodes in the offline list. -/
def offline (r : CrmReport) : List PyStr :=
  (r.lines.findSome? CrmLine.offlineNodes?).getD []

/-- The node lines that the fallback reads. -/
def bulleted (r : CrmReport) : List (PyStr × NodeState) :=
  r.lines.filterMap CrmLine.bulleted?

end CrmReport

/-- The finding of lost quorum. -/
def IsQuorumLost (f : RCSFinding) : Prop :=
  lit "Pacemaker quorum lost: " <+: f.issue ∧ f.severity = .critical

section Lists

/-- A word at the start of a line and its tail stands in the line. -/
theorem prefix_of_prefix_append
    {w line tail : PyStr} (htail : IsTail tail) (hlf : lf ∉ w) (h : w <+: line ++ tail) :
    w <+: line := by
  obtain ⟨x, hx⟩ := h
  rcases List.append_eq_append_iff.mp hx with ⟨y, rfl, -⟩ | ⟨y, rfl, hy⟩
  · exact List.prefix_append _ _
  · cases y with
    | nil =>
        rw [List.append_nil]
    | cons c y =>
        rcases htail with rfl | ⟨tail, rfl⟩
        · cases hy
        · obtain ⟨rfl, -⟩ := List.cons.inj hy
          exact absurd (by simp) hlf

/-- A line that does not start with the literal is passed over. -/
theorem first_line_none
    {s : String} (g : Gx Nat CodePoint) (pre : PyStr) {line tail : PyStr} (htail : IsTail tail)
    (hlf : lf ∉ lit s) (hline : ¬ lit s <+: line) :
    (Gx.seq (.plain (litRx s)) g).first pre (line ++ tail) = none := by
  exact first_lit_none s g pre fun h => hline (prefix_of_prefix_append htail hlf h)

theorem split_isWord
    {w : PyStr} (hw : IsWord w) :
    split w = [w] := by
  rw [split_word hw.2, if_neg hw.1]

/-- The names of a list, with the blank behind the last one. -/
theorem split_names
    {n : PyStr} {ns : List PyStr} (hn : IsWord n) (hns : ∀ x ∈ ns, IsWord x) :
    split (n ++ (ns.flatMap (ch ' ' :: ·) ++ [ch ' '])) = n :: ns := by
  induction ns generalizing n with
  | nil =>
      rw [List.flatMap_nil, List.nil_append, split_append_space n [] rfl, split_isWord hn]
      rfl
  | cons x ns ih =>
      rw [List.flatMap_cons, List.cons_append, List.cons_append, List.append_assoc,
        split_append_space n _ rfl, split_isWord hn,
        ih (hns x (by simp)) fun y hy => hns y (List.mem_cons_of_mem _ hy)]
      rfl

/-- The inside of a list line, behind its label. -/
def listTail : Gx Nat CodePoint :=
  Gx.seqs
    [ .plain (Rx.star space), .plain (litRx "["), .plain (Rx.star space),
      .group 1 (Miqm.oneOrMore fun c => c != ch ']'), .plain (Rx.star space),
      .plain (litRx "]") ]

/-- The inside of the brackets, without the white space in front. -/
def listNames : Gx Nat CodePoint :=
  Gx.seqs
    [ .group 1 (Miqm.oneOrMore fun c => c != ch ']'), .plain (Rx.star space),
      .plain (litRx "]") ]

/-- From the brackets the list takes all up to the closing one. -/
theorem first_bracket
    {names : PyStr} (hne : names ≠ []) (hnames : ch ']' ∉ names) (pre tail : PyStr) :
    listNames.first pre (names ++ (lit "]" ++ tail)) =
      some ⟨names ++ lit "]", [(1, names)]⟩ := by
  have htake : (names ++ (lit "]" ++ tail)).takeWhile (fun c => c != ch ']') = names := by
    rw [List.takeWhile_append_of_pos]
    · change names ++ (ch ']' :: tail).takeWhile (fun c => c != ch ']') = names
      simp
    · intro c hc
      rw [bne_iff_ne]
      rintro rfl
      exact hnames hc
  have hhead : (names ++ (lit "]" ++ tail)).head?.any (fun c => c != ch ']') = true := by
    cases names with
    | nil =>
        exact absurd rfl hne
    | cons c names =>
        rw [List.cons_append, List.head?_cons, Option.any_some, bne_iff_ne]
        rintro rfl
        exact hnames (by simp)
  have hend : ∀ pre, (Gx.seqs []).first pre tail = some (⟨[], []⟩ : Match Nat CodePoint) :=
    fun pre => rfl
  have hclose := first_lit_seq "]" (hend ((lit "]").reverse ++ (names.reverse ++ pre)))
  have hnoblank : ∀ c ∈ ([] : PyStr), c.isSpace = true := fun c hc => by cases hc
  have hblanks : (Gx.seqs [.plain (Rx.star space), .plain (litRx "]")]).first
      (names.reverse ++ pre) (lit "]" ++ tail) = some (⟨lit "]", []⟩ : Match Nat CodePoint) :=
    first_spaces_seq hnoblank rfl hclose
  have hgroup := Gx.first_group_plus hhead 1 pre
  rw [htake] at hgroup
  have hrest : (Gx.seqs [.plain (Rx.star space), .plain (litRx "]")]).first
      (names.reverse ++ pre) ((names ++ (lit "]" ++ tail)).drop names.length) =
        some (⟨lit "]", []⟩ : Match Nat CodePoint) := by
    rw [List.drop_left]
    exact hblanks
  exact Gx.first_seq hgroup hrest

/-- A list without a name gives the blank between its brackets. -/
theorem first_noNames
    (pre tail : PyStr) :
    (Gx.seq (.plain (Rx.star space)) listNames).first pre (CrmLine.listText [] ++ tail) =
      some ⟨lit " ]", [(1, [ch ' '])]⟩ := by
  have hone : [ch ' '] ≠ [] := by simp
  have hnames := first_bracket hone (by decide) pre tail
  have hmem : (⟨[], []⟩ : Match Nat CodePoint) ∈
      (Gx.plain (Rx.star space)).captures pre (CrmLine.listText [] ++ tail) := by
    refine List.mem_map.mpr ⟨0, ?_, rfl⟩
    exact (Rx.mem_ends_iff _ pre _ 0).mpr ⟨[], _, rfl, rfl, Rx.Iter.nil _ _⟩
  rw [Gx.first_seq_of_unique hmem]
  · exact congrArg (Option.map (Match.append ⟨[], []⟩)) hnames
  · intro x hx hne
    obtain ⟨n, hn, rfl⟩ := List.mem_map.mp hx
    obtain ⟨v, b, hpost, rfl, hv⟩ := (Rx.mem_ends_iff _ pre _ n).mp hn
    rw [space, Rx.lang_star_cls] at hv
    rw [hpost, List.take_left, List.drop_left] at hne
    rw [hpost, List.take_left]
    have hlist : CrmLine.listText [] ++ tail = ch ' ' :: ch ']' :: tail := rfl
    rw [hlist] at hpost
    cases v with
    | nil =>
        rfl
    | cons c v =>
        rw [List.cons_append] at hpost
        obtain ⟨rfl, hrest⟩ := List.cons.inj hpost
        cases v with
        | nil =>
            rw [List.nil_append] at hrest
            have hends : ∀ pre, Rx.ends (Miqm.oneOrMore fun c => c != ch ']') pre b = [] := by
              intro pre
              rw [← hrest]
              exact Rx.ends_seq_of_nil (by simp [Rx.ends])
            rw [listNames, Gx.seqs, Gx.captures, Gx.captures, hends] at hne
            exact absurd rfl hne
        | cons d v =>
            rw [List.cons_append] at hrest
            obtain ⟨rfl, -⟩ := List.cons.inj hrest
            exact absurd (hv (ch ']') (by simp)) (by decide)

/-- A list with names gives them with the blanks between and behind them. -/
theorem first_names
    {n : PyStr} {ns : List PyStr} (hnodes : ∀ x ∈ n :: ns, CrmLine.IsNodeName x)
    (pre tail : PyStr) :
    (Gx.seq (.plain (Rx.star space)) listNames).first pre
      (CrmLine.listText (n :: ns) ++ tail) =
        some ⟨[ch ' '] ++ (n ++ (ns.flatMap (ch ' ' :: ·) ++ [ch ' ']) ++ lit "]"),
          [(1, n ++ (ns.flatMap (ch ' ' :: ·) ++ [ch ' ']))]⟩ := by
  have hne : n ++ (ns.flatMap (ch ' ' :: ·) ++ [ch ' ']) ≠ [] := by simp
  have hnobracket : ch ']' ∉ n ++ (ns.flatMap (ch ' ' :: ·) ++ [ch ' ']) := by
    simp only [List.mem_append, List.mem_flatMap, List.mem_cons, List.not_mem_nil, or_false]
    rintro (hmem | ⟨x, hx, hmem | hmem⟩ | hmem)
    · exact (hnodes n (by simp)).2 hmem
    · exact absurd hmem (by decide)
    · exact (hnodes x (List.mem_cons_of_mem _ hx)).2 hmem
    · exact absurd hmem (by decide)
  have hblank : ∀ c ∈ [ch ' '], c.isSpace = true := by decide
  have hlist : CrmLine.listText (n :: ns) ++ tail =
      [ch ' '] ++ (n ++ (ns.flatMap (ch ' ' :: ·) ++ [ch ' ']) ++ (lit "]" ++ tail)) := by
    have hclose : lit " ]" = [ch ' '] ++ lit "]" := rfl
    simp [CrmLine.listText, hclose]
  have hhead : (n ++ (ns.flatMap (ch ' ' :: ·) ++ [ch ' ']) ++ (lit "]" ++ tail)).head?.all
      (fun c => !c.isSpace) = true := by
    obtain ⟨⟨hword, hnospace⟩, -⟩ := hnodes n (by simp)
    cases n with
    | nil =>
        exact absurd rfl hword
    | cons c n =>
        simp [hnospace c (by simp)]
  rw [hlist]
  exact first_spaces_seq hblank hhead (first_bracket hne hnobracket _ tail)

/-- The list that is read behind the label. -/
theorem first_listTail
    {nodes : List PyStr} (hnodes : ∀ n ∈ nodes, CrmLine.IsNodeName n) (pre tail : PyStr) :
    (listTail.first pre ([ch ' '] ++ (lit "[" ++ (CrmLine.listText nodes ++ tail)))).map
      (fun m => split (text m 1)) = some nodes := by
  have hblank : ∀ c ∈ [ch ' '], c.isSpace = true := by decide
  have hbracket : ∀ m : Match Nat CodePoint,
      (∀ pre, (Gx.seq (.plain (Rx.star space)) listNames).first pre
        (CrmLine.listText nodes ++ tail) = some m) →
      (listTail.first pre ([ch ' '] ++ (lit "[" ++ (CrmLine.listText nodes ++ tail)))).map
        (fun m => split (text m 1)) = some (split (text m 1)) := by
    intro m hm
    have hfirst : listTail.first pre _ = some _ :=
      first_spaces_seq hblank rfl
        (first_lit_seq "[" (hm ((lit "[").reverse ++ ([ch ' '].reverse ++ pre))))
    rw [hfirst]
    rfl
  cases nodes with
  | nil =>
      exact hbracket _ fun pre => first_noNames pre tail
  | cons n ns =>
      refine (hbracket _ fun pre => first_names hnodes pre tail).trans (congrArg some ?_)
      exact split_names (hnodes n (by simp)).1 fun x hx =>
        (hnodes x (List.mem_cons_of_mem _ hx)).1

end Lists

section NodeLines

/-- The first word of a state. -/
def NodeState.word : NodeState → PyStr
  | .standby => lit "standby"
  | .maintenance => lit "maintenance"
  | .pending => lit "pending"
  | .unclean => lit "UNCLEAN"

/-- What the pattern reads behind the name of a node. -/
def stateTail : Gx Nat CodePoint :=
  Gx.seqs [.plain (litRx ":"), .plain (Rx.plus space), .group 2 word]

theorem first_stateTail
    (state : NodeState) (pre : PyStr) {tail : PyStr} (htail : IsTail tail) :
    stateTail.first pre (lit ":" ++ (ch ' ' :: (state.text ++ tail))) =
      some ⟨lit ":" ++ ([ch ' '] ++ state.word), [(2, state.word)]⟩ := by
  have hspace : tail.head?.all isSpace = true := by
    rcases htail with rfl | ⟨rest, rfl⟩
    · rfl
    · rfl
  obtain ⟨rest, htext, hrest, hword⟩ : ∃ rest, state.text ++ tail = state.word ++ rest ∧
      rest.head?.all isSpace = true ∧ IsWord state.word := by
    cases state with
    | standby =>
        exact ⟨tail, rfl, hspace, by decide, by decide⟩
    | maintenance =>
        exact ⟨tail, rfl, hspace, by decide, by decide⟩
    | pending =>
        exact ⟨tail, rfl, hspace, by decide, by decide⟩
    | unclean =>
        exact ⟨lit " (offline)" ++ tail, rfl, rfl, by decide, by decide⟩
  have hend : ∀ pre, (Gx.seqs []).first pre rest = some (⟨[], []⟩ : Match Nat CodePoint) :=
    fun pre => rfl
  have hhead : (state.word ++ rest).head?.all (fun c => !c.isSpace) = true := by
    obtain ⟨hne, hnospace⟩ := hword
    cases hstate : state.word with
    | nil =>
        exact absurd hstate hne
    | cons c w =>
        rw [hstate] at hnospace
        simp [hnospace c (by simp)]
  rw [htext]
  have hstate := fun pre => first_word_seq 2 hword hrest (hend (state.word.reverse ++ pre))
  have hblank := fun pre => first_blank_seq hhead (hstate (ch ' ' :: pre))
  have hcolon : stateTail.first pre _ = some _ :=
    first_lit_seq ":" (hblank ((lit ":").reverse ++ pre))
  rw [hcolon]
  simp [Match.append]

/-- The name of a node ends in front of the last colon of its word. -/
theorem first_name_seq
    {name : PyStr} (hname : IsWord name) (pre rest : PyStr) {m : Match Nat CodePoint}
    (hm : stateTail.first (name.reverse ++ pre) (lit ":" ++ (ch ' ' :: rest)) = some m) :
    (Gx.seq (.group 1 word) stateTail).first pre (name ++ (lit ":" ++ (ch ' ' :: rest))) =
      some (Match.append ⟨name, [(1, name)]⟩ m) := by
  have hmem : (⟨name, [(1, name)]⟩ : Match Nat CodePoint) ∈
      (Gx.group 1 word).captures pre (name ++ (lit ":" ++ (ch ' ' :: rest))) := by
    refine List.mem_map.mpr ⟨name.length, ?_, by rw [List.take_left]⟩
    refine (Rx.mem_ends_iff word pre _ _).mpr ⟨name, _, rfl, rfl, ?_⟩
    rw [word, Miqm.oneOrMore, Rx.lang_plus_cls]
    exact ⟨hname.1, fun c hc => by rw [hname.2 c hc]; rfl⟩
  have hcut : ∀ {v b : PyStr} {d : CodePoint}, (∀ c ∈ v, c.isSpace = false) →
      d.isSpace = true →
      (v ++ ch ':' :: (d :: b)).takeWhile (fun c => !c.isSpace) = v ++ [ch ':'] := by
    intro v b d hv hd
    have hcolon : (ch ':').isSpace = false := rfl
    rw [List.takeWhile_append_of_pos fun c hc => by rw [hv c hc]; rfl]
    simp [hcolon, hd]
  rw [Gx.first_seq_of_unique hmem, List.drop_left, hm]
  · rfl
  · intro x hx hne
    obtain ⟨n, hn, rfl⟩ := List.mem_map.mp hx
    obtain ⟨v, b, hpost, rfl, hv⟩ := (Rx.mem_ends_iff word pre _ n).mp hn
    rw [word, Miqm.oneOrMore, Rx.lang_plus_cls] at hv
    rw [hpost, List.take_left, List.drop_left, stateTail, Gx.seqs, captures_colon] at hne
    rw [hpost, List.take_left]
    cases b with
    | nil =>
        exact absurd rfl hne
    | cons c b =>
        by_cases hc : c = ch ':'
        · subst hc
          simp only [if_true, ne_eq, List.map_eq_nil_iff] at hne
          have hspace : b.head?.any isSpace = true := by
            by_contra hno
            exact hne (List.head?_eq_none_iff.mp
              (first_space_none [.group 2 word] _ (by simpa using hno)))
          cases b with
          | nil =>
              cases hspace
          | cons d b =>
              have hv' : ∀ c ∈ v, c.isSpace = false := fun c hc => by simpa using hv.2 c hc
              have hwords := congrArg (List.takeWhile fun c => !c.isSpace) hpost
              rw [hcut hv' (by simpa using hspace)] at hwords
              have hown : (name ++ (lit ":" ++ (ch ' ' :: rest))).takeWhile
                  (fun c => !c.isSpace) = name ++ [ch ':'] := hcut hname.2 rfl
              rw [hown] at hwords
              obtain rfl := List.append_cancel_right hwords
              rfl
        · exact absurd (by simp [hc]) hne

end NodeLines

section Lines

/-- A literal stands at the start of a line that starts with another one only if one of
them starts with the other. -/
theorem not_prefix_lit
    {s t : String} (hst : ¬ lit s <+: lit t) (hts : ¬ lit t <+: lit s) (x : PyStr) :
    ¬ lit s <+: lit t ++ x := by
  intro h
  rcases List.prefix_or_prefix_of_prefix h (List.prefix_append (lit t) x) with h | h
  · exact hst h
  · exact hts h

theorem lf_not_mem_of_isWord
    {w : PyStr} (hw : IsWord w) :
    lf ∉ w := by
  intro hmem
  have hspace := hw.2 lf hmem
  cases hspace

/-- A line of a report has no line end in it. -/
theorem lf_not_mem_render
    {l : CrmLine} (hl : l.WellFormed) :
    lf ∉ l.render := by
  have hlist : ∀ nodes : List PyStr, (∀ n ∈ nodes, CrmLine.IsNodeName n) →
      lf ∉ CrmLine.listText nodes := by
    intro nodes hnodes hmem
    rcases List.mem_append.mp hmem with hmem | hmem
    · obtain ⟨n, hn, hmem⟩ := List.mem_flatMap.mp hmem
      rcases List.mem_cons.mp hmem with hmem | hmem
      · exact absurd hmem (by decide)
      · exact lf_not_mem_of_isWord (hnodes n hn).1 hmem
    · exact absurd hmem (by decide)
  cases l with
  | online nodes =>
      simp only [CrmLine.render, List.mem_append, not_or]
      exact ⟨by decide, by decide, by decide, hlist nodes hl⟩
  | offline nodes =>
      simp only [CrmLine.render, List.mem_append, not_or]
      exact ⟨by decide, by decide, by decide, hlist nodes hl⟩
  | node bullet name state =>
      obtain ⟨hbullet, hname⟩ := hl
      simp only [CrmLine.render, List.mem_append, List.mem_cons, not_or]
      refine ⟨?_, by decide, by decide, lf_not_mem_of_isWord hname.1, by decide, by decide, ?_⟩
      · simp only [List.mem_cons, List.not_mem_nil, or_false] at hbullet
        rcases hbullet with rfl | rfl | rfl <;> decide
      · cases state <;> decide
  | other text =>
      exact hl.1

variable {β : Type} {g : Gx Nat CodePoint} {get : Match Nat CodePoint → β}
    {val : CrmLine → Option β}

/-- A search reads the first line that has what it looks for. -/
theorem map_searchFrom_lines
    {ls : List CrmLine} (hls : ls ≠ []) (hlf : ∀ l ∈ ls, l.WellFormed)
    (hval : ∀ l ∈ ls, ∀ pre tail, IsTail tail → (g.first pre (l.render ++ tail)).map get = val l)
    {pre : PyStr} (hpre : pre.head?.all isNewline = true) :
    ((Gx.onLine isNewline g).searchFrom pre (joinLines (ls.map CrmLine.render))).map get =
      ls.findSome? val := by
  induction ls generalizing pre with
  | nil =>
      exact absurd rfl hls
  | cons l ls ih =>
      have hline : ∀ c ∈ l.render, isNewline c = false := by
        intro c hc
        rw [isNewline, beq_eq_false_iff_ne]
        rintro rfl
        exact lf_not_mem_render (hlf l (by simp)) hc
      have hfirst := hval l (by simp) pre
      rw [List.map_cons, joinLines_cons, List.findSome?_cons]
      cases ls with
      | nil =>
          have hlast := hfirst [] (Or.inl rfl)
          rw [List.append_nil] at hlast
          rw [List.map_nil, tailOf, List.append_nil, Gx.searchFrom_last isNewline g hline hpre,
            hlast]
          cases val l <;> rfl
      | cons l' ls =>
          rw [List.map_cons, tailOf, Gx.searchFrom_line isNewline g hline hpre]
          have hnext := hfirst _ (Or.inr ⟨joinLines (l'.render :: ls.map CrmLine.render), rfl⟩)
          cases hm : g.first pre
              (l.render ++ lf :: joinLines (l'.render :: ls.map CrmLine.render)) with
          | none =>
              rw [hm, Option.map_none] at hnext
              rw [← hnext, Option.none_or]
              exact ih (by simp) (fun x hx => hlf x (List.mem_cons_of_mem _ hx))
                (fun x hx => hval x (List.mem_cons_of_mem _ hx)) rfl
          | some m =>
              rw [hm, Option.map_some] at hnext
              rw [← hnext]
              rfl

/-- An iteration reads every line that has what it looks for. -/
theorem map_findIterFrom_lines
    {ls : List CrmLine} (hlf : ∀ l ∈ ls, l.WellFormed)
    (hval : ∀ l ∈ ls, ∀ pre tail, IsTail tail →
      (g.first pre (l.render ++ tail)).map get = val l ∧
        ∀ m, g.first pre (l.render ++ tail) = some m →
          m.word ≠ [] ∧ m.word.length ≤ l.render.length)
    {pre : PyStr} (hpre : pre.head?.all isNewline = true) :
    ((Gx.onLine isNewline g).findIterFrom pre 0 (joinLines (ls.map CrmLine.render))).map get =
      ls.filterMap val := by
  induction ls generalizing pre with
  | nil =>
      rfl
  | cons l ls ih =>
      have hline : ∀ c ∈ l.render, isNewline c = false := by
        intro c hc
        rw [isNewline, beq_eq_false_iff_ne]
        rintro rfl
        exact lf_not_mem_render (hlf l (by simp)) hc
      have htail : IsTail (tailOf (ls.map CrmLine.render)) := isTail_tailOf _
      obtain ⟨hget, hshort⟩ := hval l (by simp) pre _ htail
      have hcons : (l :: ls).filterMap val = (val l).toList ++ ls.filterMap val := by
        rw [List.filterMap_cons]
        cases val l <;> rfl
      -- on an empty line nothing is found
      have hempty : l.render = [] → ∀ rest, IsTail rest → g.first pre rest = none := by
        intro hnil rest hrest
        cases hm : g.first pre rest with
        | none =>
            rfl
        | some m =>
            have hword := (hval l (by simp) pre rest hrest).2 m (by rw [hnil]; exact hm)
            rw [hnil] at hword
            exact absurd (List.length_eq_zero_iff.mp (by simpa using hword.2)) hword.1
      have hrest : ((Gx.onLine isNewline g).findIterFrom (l.render.reverse ++ pre) 0
          (tailOf (ls.map CrmLine.render))).map get = ls.filterMap val := by
        cases ls with
        | nil =>
            rfl
        | cons l' ls =>
            have hnone : (Gx.onLine isNewline g).first (l.render.reverse ++ pre)
                (lf :: joinLines ((l' :: ls).map CrmLine.render)) = none := by
              cases hrender : l.render with
              | nil =>
                  rw [List.reverse_nil, List.nil_append, Gx.first_onLine isNewline g hpre]
                  exact hempty hrender _ (Or.inr ⟨_, rfl⟩)
              | cons c cs =>
                  rw [hrender] at hline
                  refine Gx.first_onLine_none isNewline g ?_ _
                  rw [List.reverse_cons, List.append_assoc]
                  exact Gx.head?_reverse_append (hline c (by simp))
                    (fun d hd => hline d (List.mem_cons_of_mem _ hd)) pre
            rw [List.map_cons] at hnone
            rw [List.map_cons, tailOf, Gx.findIterFrom, hnone]
            exact ih (fun x hx => hlf x (List.mem_cons_of_mem _ hx))
              (fun x hx => hval x (List.mem_cons_of_mem _ hx)) rfl
      rw [List.map_cons, joinLines_cons, Gx.findIterFrom_line isNewline g hline hpre _ hshort,
        List.map_append, hrest, hcons, ← hget]
      congr 1
      split
      · rename_i hnil
        rw [hnil, List.nil_append, hempty hnil _ htail]
        rfl
      · cases g.first pre (l.render ++ tailOf (ls.map CrmLine.render)) <;> rfl

end Lines

section Report

variable (U : UnicodeData)

/-- A list line is read as its nodes, and the other lines are passed over. -/
theorem first_list
    {label : String} {nodes? : CrmLine → Option (List PyStr)} (hlf : lf ∉ lit label)
    {l : CrmLine}
    (hown : ∀ nodes, nodes? l = some nodes →
      (∀ n ∈ nodes, CrmLine.IsNodeName n) ∧
        l.render = lit label ++ ([ch ' '] ++ (lit "[" ++ CrmLine.listText nodes)))
    (hother : nodes? l = none → ¬ lit label <+: l.render)
    (pre : PyStr) {tail : PyStr} (htail : IsTail tail) :
    ((Gx.seq (.plain (litRx label)) listTail).first pre (l.render ++ tail)).map
      (fun m => split (text m 1)) = nodes? l := by
  cases hnodes : nodes? l with
  | none =>
      rw [first_line_none listTail pre htail hlf (hother hnodes)]
      rfl
  | some nodes =>
      obtain ⟨hnames, hrender⟩ := hown nodes hnodes
      have hlist := first_listTail hnames ((lit label).reverse ++ pre) tail
      rw [Option.map_eq_some_iff] at hlist
      obtain ⟨m, hm, hsplit⟩ := hlist
      rw [hrender, List.append_assoc, List.append_assoc, List.append_assoc,
        first_lit_seq label hm]
      exact congrArg some hsplit

/-- A node line starts with neither label. -/
theorem not_prefix_node
    {s : String} {bullet name : PyStr} {state : NodeState}
    (hl : (CrmLine.node bullet name state).WellFormed)
    (hs : ∀ t ∈ ["Node", "* ", "  * "], ¬ lit s <+: lit t ∧ ¬ lit t <+: lit s) :
    ¬ lit s <+: (CrmLine.node bullet name state).render := by
  have hbullet := hl.1
  simp only [List.mem_cons, List.not_mem_nil, or_false] at hbullet
  rcases hbullet with rfl | rfl | rfl
  · exact not_prefix_lit (t := "Node") (hs _ (by simp)).1 (hs _ (by simp)).2 _
  · exact not_prefix_lit (t := "* ") (hs _ (by simp)).1 (hs _ (by simp)).2 _
  · exact not_prefix_lit (t := "  * ") (hs _ (by simp)).1 (hs _ (by simp)).2 _

theorem first_online
    {l : CrmLine} (hl : l.WellFormed) (pre : PyStr) {tail : PyStr} (htail : IsTail tail) :
    ((Gx.seq (.plain (litRx "Online:")) listTail).first pre (l.render ++ tail)).map
      (fun m => split (text m 1)) = l.onlineNodes? := by
  refine first_list (by decide) (fun nodes hnodes => ?_) (fun hnodes => ?_) pre htail
  · cases l with
    | online ns =>
        cases hnodes
        exact ⟨hl, rfl⟩
    | offline ns =>
        cases hnodes
    | node bullet name state =>
        cases hnodes
    | other text =>
        cases hnodes
  · cases l with
    | online ns =>
        cases hnodes
    | offline ns =>
        exact not_prefix_lit (t := "OFFLINE:") (by decide) (by decide) _
    | node bullet name state =>
        exact not_prefix_node hl (by decide)
    | other text =>
        exact hl.2.1

theorem first_offline
    {l : CrmLine} (hl : l.WellFormed) (pre : PyStr) {tail : PyStr} (htail : IsTail tail) :
    ((Gx.seq (.plain (litRx "OFFLINE:")) listTail).first pre (l.render ++ tail)).map
      (fun m => split (text m 1)) = l.offlineNodes? := by
  refine first_list (by decide) (fun nodes hnodes => ?_) (fun hnodes => ?_) pre htail
  · cases l with
    | online ns =>
        cases hnodes
    | offline ns =>
        cases hnodes
        exact ⟨hl, rfl⟩
    | node bullet name state =>
        cases hnodes
    | other text =>
        cases hnodes
  · cases l with
    | online ns =>
        exact not_prefix_lit (t := "Online:") (by decide) (by decide) _
    | offline ns =>
        cases hnodes
    | node bullet name state =>
        exact not_prefix_node hl (by decide)
    | other text =>
        exact hl.2.2.1

/-- What the fallback reads on a line. -/
def nodeEntry (l : CrmLine) : Option (PyStr × PyStr) :=
  l.bulleted?.map fun p => (p.1, p.2.word)

theorem first_node
    {l : CrmLine} (hl : l.WellFormed) (pre : PyStr) {tail : PyStr} (htail : IsTail tail) :
    ((Gx.seq (.plain (litRx "* Node")) (Gx.seq (.plain (Rx.plus space))
        (Gx.seq (.group 1 word) stateTail))).first pre (l.render ++ tail)).map
      (fun m => (text m 1, text m 2)) = nodeEntry l ∧
    ∀ m, (Gx.seq (.plain (litRx "* Node")) (Gx.seq (.plain (Rx.plus space))
        (Gx.seq (.group 1 word) stateTail))).first pre (l.render ++ tail) = some m →
      m.word ≠ [] ∧ m.word.length ≤ l.render.length := by
  have hlf : lf ∉ lit "* Node" := by decide
  have hpass : ∀ l : CrmLine, nodeEntry l = none → ¬ lit "* Node" <+: l.render →
      ((Gx.seq (.plain (litRx "* Node")) (Gx.seq (.plain (Rx.plus space))
          (Gx.seq (.group 1 word) stateTail))).first pre (l.render ++ tail)).map
        (fun m => (text m 1, text m 2)) = nodeEntry l ∧
      ∀ m, (Gx.seq (.plain (litRx "* Node")) (Gx.seq (.plain (Rx.plus space))
          (Gx.seq (.group 1 word) stateTail))).first pre (l.render ++ tail) = some m →
        m.word ≠ [] ∧ m.word.length ≤ l.render.length := by
    intro l hentry hno
    rw [first_line_none _ pre htail hlf hno, hentry]
    exact ⟨rfl, fun m hm => by cases hm⟩
  cases l with
  | online nodes =>
      exact hpass _ rfl (not_prefix_lit (t := "Online:") (by decide) (by decide) _)
  | offline nodes =>
      exact hpass _ rfl (not_prefix_lit (t := "OFFLINE:") (by decide) (by decide) _)
  | other text =>
      exact hpass _ rfl hl.2.2.2
  | node bullet name state =>
      obtain ⟨hbullet, hname, -⟩ := hl
      simp only [List.mem_cons, List.not_mem_nil, or_false] at hbullet
      rcases hbullet with rfl | rfl | rfl
      · exact hpass _ rfl (not_prefix_lit (t := "Node") (by decide) (by decide) _)
      · have hhead : (name ++ (lit ":" ++ (ch ' ' :: (state.text ++ tail)))).head?.all
            (fun c => !c.isSpace) = true := by
          obtain ⟨hne, hnospace⟩ := hname
          cases name with
          | nil =>
              exact absurd rfl hne
          | cons c name =>
              simp [hnospace c (by simp)]
        have hnode := first_lit_seq "* Node" (first_blank_seq hhead
          (first_name_seq hname (ch ' ' :: ((lit "* Node").reverse ++ pre))
            (state.text ++ tail) (first_stateTail state _ htail)))
        have hrender : (CrmLine.node (lit "* ") name state).render ++ tail =
            lit "* Node" ++ (ch ' ' :: (name ++ (lit ":" ++ (ch ' ' :: (state.text ++ tail))))) := by
          have hlabel : lit "* Node" = lit "* " ++ lit "Node" := rfl
          simp [CrmLine.render, hlabel]
        rw [hrender, hnode]
        refine ⟨by simp [nodeEntry, CrmLine.bulleted?]; exact ⟨rfl, rfl⟩, ?_⟩
        rintro m ⟨⟩
        have hword : state.word.length ≤ state.text.length := by
          cases state <;> decide
        have hlabel : lit "* Node" = lit "* " ++ lit "Node" := rfl
        refine ⟨by simp [Match.append], ?_⟩
        simp only [Match.append, CrmLine.render, hlabel, List.length_append, List.length_cons,
          List.length_nil]
        omega
      · exact hpass _ rfl (not_prefix_lit (t := "  * ") (by decide) (by decide) _)

variable (r : CrmReport)

theorem text_ne_nil :
    r.text ≠ [] := by
  obtain ⟨l, hl, ⟨a, b, hstated⟩⟩ := r.stated
  have hne : l.render ≠ [] := by
    rw [← hstated]
    intro hnil
    have hword := (List.append_eq_nil_iff.mp (List.append_eq_nil_iff.mp hnil).1).2
    exact absurd (List.append_eq_nil_iff.mp hword).2 (by decide)
  obtain ⟨c, hc⟩ := List.exists_mem_of_ne_nil _ hne
  intro hnil
  have hmem : c ∈ tailOf (r.lines.map CrmLine.render) := mem_tailOf (List.mem_map_of_mem hl) hc
  cases hlines : r.lines.map CrmLine.render with
  | nil =>
      rw [hlines] at hmem
      cases hmem
  | cons x xs =>
      rw [CrmReport.text, hlines] at hnil
      rw [hlines, tailOf, hnil, List.mem_singleton] at hmem
      rw [hmem] at hc
      exact lf_not_mem_render (r.wellFormed l hl) hc

theorem lines_ne_nil :
    r.lines ≠ [] := by
  intro hnil
  obtain ⟨l, hl, -⟩ := r.stated
  rw [hnil] at hl
  cases hl

/-- The start of the text is the start of a line. -/
theorem lineStart_nil :
    ([] : PyStr).head?.all isNewline = true := by
  rfl

theorem listedNodes_online :
    listedNodes crmOnlineLine r.text = r.online := by
  have hsearch := map_searchFrom_lines (lines_ne_nil r) r.wellFormed
    (fun l hl pre tail => first_online (r.wellFormed l hl) pre) lineStart_nil
  exact congrArg (Option.getD · []) hsearch

theorem listedNodes_offline :
    listedNodes crmOfflineLine r.text = r.offline := by
  have hsearch := map_searchFrom_lines (lines_ne_nil r) r.wellFormed
    (fun l hl pre tail => first_offline (r.wellFormed l hl) pre) lineStart_nil
  exact congrArg (Option.getD · []) hsearch

/-- The state of a node line as the fallback compares it. -/
theorem lower_word
    (state : NodeState) :
    U.lower state.word = state.word.map toLowerAscii := by
  refine U.lower_ascii _ ?_
  cases state <;> decide

theorem nodesInState_eq
    (states : List PyStr) :
    nodesInState U states r.text =
      (r.bulleted.filter fun p => p.2.word.map toLowerAscii ∈ states).map Prod.fst := by
  have hlines := map_findIterFrom_lines r.wellFormed
    (fun l hl pre tail => first_node (r.wellFormed l hl) pre) lineStart_nil
  have hentries : (crmNodeLine.findIter r.text).map (fun m => (text m 1, text m 2)) =
      r.bulleted.map fun p => (p.1, p.2.word) := by
    rw [CrmReport.bulleted, List.map_filterMap]
    exact hlines
  have hfilter : nodesInState U states r.text =
      (((crmNodeLine.findIter r.text).map fun m => (text m 1, text m 2)).filter
        fun p => U.lower p.2 ∈ states).map Prod.fst := by
    rw [nodesInState, List.filter_map, List.map_map]
    rfl
  rw [hfilter, hentries, List.filter_map, List.map_map]
  simp only [Function.comp_def, lower_word]

/-- No node line says online; the fallback counts the nodes in standby. -/
theorem parseCrmMon_text :
    ∃ pace, parseCrmMon U r.text = some pace ∧
      pace.totalNodes = pace.onlineNodes.length + pace.offlineNodes.length ∧
      pace.onlineNodes = r.online ∧
      pace.offlineNodes =
        if r.online = [] ∧ r.offline = [] then
          (r.bulleted.filter fun p => p.2 = .standby).map Prod.fst
        else r.offline := by
  have honline : nodesInState U [lit "online"] r.text = [] := by
    have hno : ∀ state : NodeState, state.word.map toLowerAscii ≠ lit "online" := by
      intro state
      cases state <;> decide
    simp [nodesInState_eq, hno]
  have hoffline : nodesInState U [lit "offline", lit "standby"] r.text =
      (r.bulleted.filter fun p => p.2 = .standby).map Prod.fst := by
    have hstandby : ∀ state : NodeState,
        state.word.map toLowerAscii ∈ [lit "offline", lit "standby"] ↔ state = .standby := by
      intro state
      cases state <;> decide
    simp only [nodesInState_eq, hstandby]
  rw [parseCrmMon, if_neg (text_ne_nil r)]
  refine ⟨_, rfl, rfl, ?_, ?_⟩
  · simp only [listedNodes_online, listedNodes_offline, honline]
    split
    · rename_i h
      exact h.1.symm
    · rfl
  · simp only [listedNodes_online, listedNodes_offline, hoffline]

end Report

section Claim

variable (U : UnicodeData) (registry : KCRegistry) (mqVersion : Option PyStr)

/-- The issue of a quorum finding starts with no other literal. -/
theorem not_isQuorumLost_of_issue
    {f : RCSFinding} (t : String) (ht : lit t <+: f.issue)
    (hst : ¬ lit "Pacemaker quorum lost: " <+: lit t)
    (hts : ¬ lit t <+: lit "Pacemaker quorum lost: ") :
    ¬ IsQuorumLost f := by
  rintro ⟨hstarts, -⟩
  rcases List.prefix_or_prefix_of_prefix hstarts ht with h | h
  · exact hst h
  · exact hts h

/-- A quorum finding is one of the quorum check. -/
theorem mem_checkPacemakerQuorum_of_isQuorumLost
    {raw : Rcs.Rdqm.RawData} {f : RCSFinding}
    (hf : f ∈ matchRdqmFindings registry mqVersion raw) (hlost : IsQuorumLost f) :
    f ∈ Rcs.Rdqm.checkPacemakerQuorum registry mqVersion (raw.pacemaker.getD {}) := by
  rw [matchRdqmFindings] at hf
  split_ifs at hf with hempty
  · cases hf
  simp only [List.mem_append] at hf
  rcases hf with (((((hf | hf) | hf) | hf) | hf) | hf) | hf
  · exact hf
  · obtain ⟨-, rfl⟩ := Rcs.Rdqm.mem_checkOfflineNodes_iff.mp hf
    refine absurd hlost (not_isQuorumLost_of_issue "Pacemaker reports " ?_ (by decide) (by decide))
    simp only [Rcs.Rdqm.findingOfflineNodes, List.append_assoc]
    exact List.prefix_append _ _
  · obtain ⟨row, -, rfl⟩ := Rcs.Rdqm.mem_checkFailedResources_iff.mp hf
    refine absurd hlost
      (not_isQuorumLost_of_issue "Pacemaker resource " ?_ (by decide) (by decide))
    simp only [Rcs.Rdqm.findingFailedResource, List.append_assoc]
    exact List.prefix_append _ _
  · obtain ⟨row, -, -, rfl⟩ := Rcs.Rdqm.mem_checkDrbdSplitBrain_iff.mp hf
    exact absurd hlost (not_isQuorumLost_of_issue "DRBD split-brain detected on resource "
      (List.prefix_append _ _) (by decide) (by decide))
  · obtain ⟨row, -, -, hrow⟩ := Rcs.Rdqm.mem_checkDrbdConnection_iff.mp hf
    obtain ⟨conn, rfl⟩ := Rcs.Rdqm.exists_of_connectionFault hrow
    refine absurd hlost (not_isQuorumLost_of_issue "DRBD resource " ?_ (by decide) (by decide))
    simp only [Rcs.Rdqm.findingConnection, List.append_assoc]
    exact List.prefix_append _ _
  · obtain ⟨row, -, -, hrow⟩ := Rcs.Rdqm.mem_checkDrbdDiskState_iff.mp hf
    obtain ⟨who, state, rfl⟩ := Rcs.Rdqm.exists_of_mem_diskFaults hrow
    refine absurd hlost (not_isQuorumLost_of_issue "DRBD " ?_ (by decide) (by decide))
    simp only [Rcs.Rdqm.findingDisk, List.append_assoc]
    exact List.prefix_append _ _
  · obtain ⟨qm, haState, rfl⟩ := Rcs.Rdqm.exists_of_mem_checkRdqmNoRunningNode hf
    refine absurd hlost (not_isQuorumLost_of_issue "RDQM " ?_ (by decide) (by decide))
    simp only [Rcs.Rdqm.findingNoRunningNode, List.append_assoc]
    exact List.prefix_append _ _

/-- The finding is the one of the quorum check, which compares with half of the count. -/
theorem quorumLost_iff
    (raw : Rcs.Rdqm.RawData) :
    (∃ f ∈ matchRdqmFindings registry mqVersion raw, IsQuorumLost f) ↔
      ∃ pace, raw.pacemaker = some pace ∧ 0 < pace.totalNodes ∧
        (pace.onlineNodes.length : Int) < pace.totalNodes / 2 + 1 := by
  have hquorum : ∀ pace, (∃ f ∈ Rcs.Rdqm.checkPacemakerQuorum registry mqVersion pace,
      IsQuorumLost f) ↔ 0 < pace.totalNodes ∧
        (pace.onlineNodes.length : Int) < pace.totalNodes / 2 + 1 := by
    intro pace
    simp only [Rcs.Rdqm.mem_checkPacemakerQuorum_iff]
    constructor
    · rintro ⟨f, ⟨hcounts, -⟩, -⟩
      exact hcounts
    · intro hcounts
      refine ⟨_, ⟨hcounts, rfl⟩, ?_, rfl⟩
      simp only [Rcs.Rdqm.findingQuorumLost, List.append_assoc]
      exact List.prefix_append _ _
  constructor
  · rintro ⟨f, hf, hlost⟩
    have hmem := mem_checkPacemakerQuorum_of_isQuorumLost registry mqVersion hf hlost
    have hcounts := (hquorum _).mp ⟨f, hmem, hlost⟩
    cases hpace : raw.pacemaker with
    | none =>
        rw [hpace] at hcounts
        exact absurd hcounts.1 (by decide)
    | some pace =>
        rw [hpace] at hcounts
        exact ⟨pace, rfl, hcounts⟩
  · rintro ⟨pace, hpace, hcounts⟩
    obtain ⟨f, hf, hlost⟩ := (hquorum pace).mpr hcounts
    refine ⟨f, ?_, hlost⟩
    rw [matchRdqmFindings, if_neg fun hempty => by rw [hpace] at hempty; cases hempty.2.1]
    simp only [hpace, Option.getD_some, List.mem_append]
    exact Or.inl (Or.inl (Or.inl (Or.inl (Or.inl (Or.inl hf)))))

/-- The two lists show different nodes. -/
theorem lists_le_nodes
    (ls : List CrmLine) :
    ((ls.findSome? CrmLine.onlineNodes?).getD []).length +
      ((ls.findSome? CrmLine.offlineNodes?).getD []).length ≤
        (ls.flatMap CrmLine.nodes).length := by
  have hone : ∀ (nodes? : CrmLine → Option (List PyStr)),
      (∀ l ns, nodes? l = some ns → ns = l.nodes) → ∀ ls : List CrmLine,
        ((ls.findSome? nodes?).getD []).length ≤ (ls.flatMap CrmLine.nodes).length := by
    intro nodes? hnodes ls
    induction ls with
    | nil =>
        simp
    | cons l ls ih =>
        rw [List.findSome?_cons, List.flatMap_cons, List.length_append]
        cases hl : nodes? l with
        | none =>
            simp only
            omega
        | some ns =>
            rw [hnodes l ns hl]
            simp
  induction ls with
  | nil =>
      simp
  | cons l ls ih =>
      have honline := hone CrmLine.onlineNodes? (by
        intro l ns hl
        cases l <;> cases hl
        rfl) ls
      have hoffline := hone CrmLine.offlineNodes? (by
        intro l ns hl
        cases l <;> cases hl
        rfl) ls
      rw [List.findSome?_cons, List.findSome?_cons, List.flatMap_cons, List.length_append]
      cases l with
      | online ns =>
          simp only [CrmLine.onlineNodes?, CrmLine.offlineNodes?, CrmLine.nodes,
            Option.getD_some]
          omega
      | offline ns =>
          simp only [CrmLine.onlineNodes?, CrmLine.offlineNodes?, CrmLine.nodes,
            Option.getD_some]
          omega
      | node bullet name state =>
          simp only [CrmLine.onlineNodes?, CrmLine.offlineNodes?]
          omega
      | other text =>
          simp only [CrmLine.onlineNodes?, CrmLine.offlineNodes?]
          omega

/--
Lost quorum is reported exactly when fewer than a majority of the configured nodes are
online, if and only if one of the three cases holds in which the count is good enough.
-/
theorem quorum_judged_iff
    (rdqm : Row) (drbd : List Row) (r : CrmReport) :
    ((∃ f ∈ matchRdqmFindings registry mqVersion ⟨rdqm, parseCrmMon U r.text, drbd⟩,
        IsQuorumLost f) ↔ r.online.length < r.configured / 2 + 1) ↔
      r.configured / 2 + 1 ≤ r.online.length ∨
        (r.offline ≠ [] ∧ r.online.length ≤ r.offline.length) ∨
          (r.online = [] ∧ r.offline = [] ∧ ∃ name, (name, NodeState.standby) ∈ r.bulleted) := by
  obtain ⟨pace, hpace, htotal, honline, hoffline⟩ := parseCrmMon_text U r
  have hsum : r.online.length + r.offline.length ≤ r.configured := by
    rw [← r.all]
    exact lists_le_nodes r.lines
  have hreported : (∃ f ∈ matchRdqmFindings registry mqVersion
      ⟨rdqm, parseCrmMon U r.text, drbd⟩, IsQuorumLost f) ↔ 0 < pace.totalNodes ∧
        (pace.onlineNodes.length : Int) < pace.totalNodes / 2 + 1 := by
    rw [quorumLost_iff, hpace]
    simp
  rw [hreported, htotal, honline, hoffline]
  by_cases hlists : r.online = [] ∧ r.offline = []
  · -- the fallback counts the bulleted nodes in standby, and none of them is online
    rw [if_pos hlists, hlists.1, hlists.2]
    have hstandby : 0 < ((r.bulleted.filter fun p => p.2 = .standby).map Prod.fst).length ↔
        ∃ name, (name, NodeState.standby) ∈ r.bulleted := by
      rw [List.length_map, List.length_pos_iff_exists_mem]
      constructor
      · rintro ⟨⟨name, state⟩, hmem⟩
        obtain ⟨hmem, hstate⟩ := List.mem_filter.mp hmem
        obtain rfl : state = .standby := by simpa using hstate
        exact ⟨name, hmem⟩
      · rintro ⟨name, hmem⟩
        exact ⟨(name, .standby), List.mem_filter.mpr ⟨hmem, by simp⟩⟩
    rw [← hstandby]
    simp only [List.length_nil, ne_eq, not_true, true_and, false_and, false_or]
    omega
  · rw [if_neg hlists]
    have hsome : 0 < r.online.length + r.offline.length := by
      rw [not_and_or] at hlists
      rcases hlists with h | h
      · have := List.length_pos_iff.mpr h
        omega
      · have := List.length_pos_iff.mpr h
        omega
    have hnone : ¬ (r.online = [] ∧ r.offline = [] ∧
        ∃ name, (name, NodeState.standby) ∈ r.bulleted) := fun h => hlists ⟨h.1, h.2.1⟩
    have hpos : r.offline ≠ [] ↔ 0 < r.offline.length := List.length_pos_iff.symm
    simp only [hnone, or_false, hpos]
    omega

/-- Three nodes: one online, one in standby and one that is lost. -/
def lostReport : CrmReport where
  lines :=
    [ .other (lit "  * 3 nodes configured"), .node (lit "  * ") (lit "n2") .standby,
      .node (lit "  * ") (lit "n3") .unclean, .online [lit "n1"] ]
  configured := 3
  wellFormed := by decide
  oneOnline := by decide
  oneOffline := by decide
  stated := ⟨_, List.mem_cons_self, lit "  * ", [], by decide⟩
  distinct := by decide
  all := by decide

/-- One node of three is online, and quorum counts as kept. -/
theorem lost_quorum_not_reported :
    lostReport.online.length < lostReport.configured / 2 + 1 ∧
      ∀ (U : UnicodeData) (registry : KCRegistry) (mqVersion : Option PyStr) (rdqm : Row)
        (drbd : List Row), ¬ ∃ f ∈ matchRdqmFindings registry mqVersion
          ⟨rdqm, parseCrmMon U lostReport.text, drbd⟩, IsQuorumLost f := by
  refine ⟨by decide, fun U registry mqVersion rdqm drbd => ?_⟩
  obtain ⟨pace, hpace, htotal, honline, hoffline⟩ := parseCrmMon_text U lostReport
  rw [quorumLost_iff, hpace]
  rintro ⟨_, ⟨⟩, -, hlt⟩
  have hk : lostReport.online = [lit "n1"] := by decide
  have hm : lostReport.offline = [] := by decide
  rw [hk, hm] at hoffline
  rw [htotal, honline, hoffline, hk] at hlt
  revert hlt
  decide

end Claim

end Rdqm
end MqSentinel
