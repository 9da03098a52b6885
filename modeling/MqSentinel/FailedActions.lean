import MqSentinel.FaultReading

/-!
# Failed resource actions

A report of `crm_mon` lists its failed actions as `* RESOURCE on NODE: FAILED REASON`.
The pattern takes the node from the reason, and it is run over the whole report.  The
lines are read exactly when each reason begins with its node and no other text is taken
for a failed action; the induction is on the lines, with the text in front of the first.
-/

namespace MqSentinel
namespace Rdqm

open Regex CodePoint

/-- The name of a resource or of a node: a word, and not the `*` that opens a line. -/
def IsName (w : PyStr) : Prop :=
  IsWord w ∧ w ≠ lit "*"

instance (w : PyStr) : Decidable (IsName w) := by
  unfold IsName IsWord
  infer_instance

/-- A failed action and how its line is indented. -/
structure FailedAction where
  indent : PyStr
  resource : PyStr
  node : PyStr
  reason : PyStr
  indent_blank : ∀ c ∈ indent, c.isSpace = true
  resource_name : IsName resource
  node_name : IsName node
  reason_line : lf ∉ reason

namespace FailedAction

/-- `* RESOURCE on NODE: FAILED REASON` -/
def line (a : FailedAction) : PyStr :=
  a.indent ++ (headOf a.resource a.node ++ ch ' ' :: a.reason)

end FailedAction

/-- A failed action with the text behind its keyword, up to the next failed line. -/
structure Block where
  action : FailedAction
  behind : PyStr
  behind_blank : behind.head?.any isSpace = true

namespace Block

/-- The text of these blocks. -/
def text : List Block → PyStr
  | [] => []
  | b :: bs => nextLine b.action.indent (b.action.resource ++
      (betweenOf b.action.node ++ (lit "FAILED" ++ (b.behind ++ text bs))))

/-- The resource and the node of the action are read. -/
def Named (m : Match Nat CodePoint) (b : Block) : Prop :=
  Rdqm.text m 1 = b.action.resource ∧ Rdqm.text m 3 = b.action.node

/--
No match starts in front of the first block, or behind what the pattern takes of a block;
and behind each keyword it takes the node of the action.
-/
def Apart : PyStr → List Block → Prop
  | q, [] => Scanner.Clear FaultAt q []
  | q, b :: bs => Scanner.Clear FaultAt q (text (b :: bs)) ∧ readNode b.behind = b.action.node ∧
      Apart (leftOf b.behind) bs

/-- A match that takes the `*` of a line for a name. -/
def Starred (m : Match Nat CodePoint) : Prop :=
  Rdqm.text m 1 = lit "*" ∨ Rdqm.text m 3 = lit "*"

section Pass

theorem text_cons
    (b : Block) (bs : List Block) :
    text (b :: bs) = (lf :: b.action.indent) ++
      (headOf b.action.resource b.action.node ++ (b.behind ++ text bs)) := by
  simp [text, nextLine, headOf, lit]

theorem clear_of_blank
    {w : PyStr} (hw : ∀ c ∈ w, c.isSpace = true) (rest : PyStr) :
    Scanner.Clear FaultAt w rest := by
  induction w with
  | nil =>
      exact trivial
  | cons c w ih =>
      obtain ⟨hc, hw⟩ := List.forall_mem_cons.mp hw
      refine ⟨?_, ih hw⟩
      rintro ⟨blanks, r, z, t, hsplit, -⟩
      obtain ⟨rfl, -⟩ := List.cons.inj hsplit
      exact absurd hc (by decide)

/-- The action of the first block is found, and the pass goes on behind it. -/
theorem findIterFrom_text
    (pre : PyStr) (b : Block) (bs : List Block) :
    ∃ m pre', crmFailed.findIterFrom pre 0 (text (b :: bs)) =
        m :: crmFailed.findIterFrom pre' 0 (leftOf (b.behind ++ text bs)) ∧
      Rdqm.text m 1 = b.action.resource ∧ Rdqm.text m 3 = readNode (b.behind ++ text bs) := by
  have hblank : ∀ c ∈ lf :: b.action.indent, c.isSpace = true :=
    List.forall_mem_cons.mpr ⟨by decide, b.action.indent_blank⟩
  have hbehind : (b.behind ++ text bs).head?.any isSpace = true := by
    cases hb : b.behind with
    | nil =>
        exact absurd b.behind_blank (by rw [hb]; decide)
    | cons c rest =>
        have hc := b.behind_blank
        rw [hb] at hc
        exact hc
  rw [text_cons, Scanner.findIterFrom_clear crmFailed_eq_nil_iff (clear_of_blank hblank _)]
  obtain ⟨w, hfirst, hleft⟩ := head?_crmFailed_headOf ((lf :: b.action.indent).reverse ++ pre)
    b.action.resource_name.1 b.action.node_name.1 hbehind
  rw [← hleft, ← List.append_assoc] at hfirst
  have hhit := Scanner.findIterFrom_hit (exists_rest_of_head?_crmFailed hfirst).1 hfirst
  rw [List.append_assoc, hleft] at hhit
  exact ⟨_, _, hhit, rfl, rfl⟩

/-- In front of other blocks the node is read from what stands behind the keyword, or is `*`. -/
theorem read_behind
    (b : Block) (bs : List Block) :
    (readNode b.behind = [] ∧ readNode (b.behind ++ text bs) = lit "*") ∨
      (readNode (b.behind ++ text bs) = readNode b.behind ∧
        leftOf (b.behind ++ text bs) = leftOf b.behind ++ text bs) := by
  cases bs with
  | nil =>
      right
      simp [text]
  | cons b' bs =>
      have hread := read_nextLine b'.action.indent_blank (b'.action.resource ++
        (betweenOf b'.action.node ++ (lit "FAILED" ++ (b'.behind ++ text bs)))) b.behind
      split_ifs at hread with hnil
      · left
        refine ⟨?_, hread⟩
        rw [readNode, hnil]
        rfl
      · exact Or.inr hread

/--
In a text that is not clear a match starts before the first block.  It takes the `*` of
that block, or the pass goes on behind it in front of the same blocks.
-/
theorem exists_of_not_clear
    {q : PyStr} {b : Block} {bs : List Block}
    (hq : ¬ Scanner.Clear FaultAt q (text (b :: bs))) (pre : PyStr) :
    (∃ m ∈ crmFailed.findIterFrom pre 0 (q ++ text (b :: bs)), Starred m) ∨
      ∃ m pre' q', q'.length < q.length ∧ crmFailed.findIterFrom pre 0 (q ++ text (b :: bs)) =
        m :: crmFailed.findIterFrom pre' 0 (q' ++ text (b :: bs)) := by
  obtain ⟨x, y, rfl, hy, hx, hstart⟩ := Scanner.exists_start_of_not_clear hq
  rw [List.append_assoc, Scanner.findIterFrom_clear crmFailed_eq_nil_iff hx]
  cases hfirst : (crmFailed (x.reverse ++ pre) (y ++ text (b :: bs))).head? with
  | none =>
      have hnil := List.head?_eq_none_iff.mp hfirst
      exact absurd hstart ((crmFailed_eq_nil_iff _ _).mp hnil)
  | some m =>
      obtain ⟨hne, rest, hrest⟩ := exists_rest_of_head?_crmFailed hfirst
      have hhit : crmFailed.findIterFrom (x.reverse ++ pre) 0 (y ++ text (b :: bs)) =
          m :: crmFailed.findIterFrom (m.word.reverse ++ (x.reverse ++ pre)) 0 rest := by
        rw [hrest] at hfirst ⊢
        exact Scanner.findIterFrom_hit hne hfirst
      rw [hhit]
      rcases head?_crmFailed_nextLine b.action.indent_blank _ hy hfirst with
        hstar | hstar | ⟨q', rfl⟩
      · exact Or.inl ⟨m, by simp, Or.inl hstar⟩
      · exact Or.inl ⟨m, by simp, Or.inr hstar⟩
      · rw [List.append_assoc, List.append_cancel_left_eq] at hrest
        have hlength := List.length_pos_iff.mpr hne
        refine Or.inr ⟨m, _, q', ?_, by rw [hrest]⟩
        simp only [List.length_append]
        omega

/-- Unless a `*` is taken for a name, there are at least as many matches as blocks. -/
theorem length_le_of_not_starred
    (bs : List Block) (pre q : PyStr) :
    (∃ m ∈ crmFailed.findIterFrom pre 0 (q ++ text bs), Starred m) ∨
      bs.length ≤ (crmFailed.findIterFrom pre 0 (q ++ text bs)).length := by
  induction bs generalizing pre q with
  | nil =>
      exact Or.inr (Nat.zero_le _)
  | cons b bs ih =>
      induction hn : q.length using Nat.strong_induction_on generalizing pre q with
      | _ n ihq =>
          by_cases hq : Scanner.Clear FaultAt q (text (b :: bs))
          · rw [Scanner.findIterFrom_clear crmFailed_eq_nil_iff hq]
            obtain ⟨m, pre', hfound, -, hnode⟩ := findIterFrom_text (q.reverse ++ pre) b bs
            rw [hfound]
            rcases read_behind b bs with ⟨-, hstar⟩ | ⟨-, hleft⟩
            · exact Or.inl ⟨m, by simp, Or.inr (hnode.trans hstar)⟩
            · rw [hleft]
              rcases ih pre' (leftOf b.behind) with ⟨m', hm', hstar⟩ | hlength
              · exact Or.inl ⟨m', List.mem_cons_of_mem _ hm', hstar⟩
              · exact Or.inr (Nat.succ_le_succ hlength)
          · rcases exists_of_not_clear hq pre with hstar | ⟨m, pre', q', hlt, hfound⟩
            · exact Or.inl hstar
            · rw [hfound]
              rcases ihq q'.length (hn ▸ hlt) pre' q' rfl with ⟨m', hm', hstar⟩ | hlength
              · exact Or.inl ⟨m', List.mem_cons_of_mem _ hm', hstar⟩
              · exact Or.inr (Nat.le_succ_of_le hlength)

/-- No match that names the action of a block is starred. -/
theorem not_starred_of_named
    {m : Match Nat CodePoint} {b : Block} (h : Named m b) :
    ¬ Starred m := by
  rintro (hstar | hstar)
  · exact b.action.resource_name.2 (h.1.symm.trans hstar)
  · exact b.action.node_name.2 (h.2.symm.trans hstar)

theorem not_starred_of_forall₂
    {ms : List (Match Nat CodePoint)} {bs : List Block} (h : List.Forall₂ Named ms bs) :
    ∀ m ∈ ms, ¬ Starred m := by
  induction h with
  | nil =>
      simp
  | cons hm _ ih =>
      exact List.forall_mem_cons.mpr ⟨not_starred_of_named hm, ih⟩

/-- The matches name the actions of the blocks exactly when the blocks stand apart. -/
theorem forall₂_named_iff
    (bs : List Block) (pre q : PyStr) :
    List.Forall₂ Named (crmFailed.findIterFrom pre 0 (q ++ text bs)) bs ↔ Apart q bs := by
  induction bs generalizing pre q with
  | nil =>
      have hnonempty : ∀ pre post m, (crmFailed pre post).head? = some m → m.word ≠ [] :=
        fun _ _ _ h => (exists_rest_of_head?_crmFailed h).1
      rw [List.forall₂_nil_right_iff, text, List.append_nil, Apart]
      exact Scanner.findIterFrom_eq_nil_iff crmFailed_eq_nil_iff hnonempty q pre
  | cons b bs ih =>
      by_cases hq : Scanner.Clear FaultAt q (text (b :: bs))
      · rw [Scanner.findIterFrom_clear crmFailed_eq_nil_iff hq]
        obtain ⟨m, pre', hfound, hresource, hnode⟩ := findIterFrom_text (q.reverse ++ pre) b bs
        rw [hfound, List.forall₂_cons, Named, hresource, hnode, Apart]
        rcases read_behind b bs with ⟨hnil, hstar⟩ | ⟨hread, hleft⟩
        · rw [hstar, hnil]
          have hname := b.action.node_name
          constructor
          · rintro ⟨⟨-, h⟩, -⟩
            exact absurd h.symm hname.2
          · rintro ⟨-, h, -⟩
            exact absurd h.symm hname.1.1
        · rw [hread, hleft, ih]
          exact ⟨fun h => ⟨hq, h.1.2, h.2⟩, fun h => ⟨⟨rfl, h.2.1⟩, h.2.2⟩⟩
      · refine iff_of_false ?_ fun h => hq h.1
        intro hnamed
        have hstarred := not_starred_of_forall₂ hnamed
        rcases exists_of_not_clear hq pre with ⟨m, hm, hstar⟩ | ⟨m, pre', q', -, hfound⟩
        · exact hstarred m hm hstar
        · -- one match more than there are blocks
          have hlength := hnamed.length_eq
          rw [hfound] at hlength hstarred
          rcases length_le_of_not_starred (b :: bs) pre' q' with ⟨m', hm', hstar⟩ | hle
          · exact hstarred m' (List.mem_cons_of_mem _ hm') hstar
          · rw [List.length_cons] at hlength
            omega

end Pass

end Block

/-- A report with a section of failed actions, which ends with a blank line or with the text. -/
structure FailedReport where
  before : List PyStr
  actions : List FailedAction
  after : List PyStr
  ended : ∀ line ∈ after.head?, lstrip line = []

namespace FailedReport

/-- The title of the section. -/
def title : PyStr :=
  lit "Failed Resource Actions:"

def text (r : FailedReport) : PyStr :=
  joinLines (r.before ++ (title :: (r.actions.map FailedAction.line ++ r.after)))

/-- Each action with the text behind its keyword, when `tail` is behind the last line. -/
def blocksOf (tail : PyStr) : List FailedAction → List Block
  | [] => []
  | [a] => [⟨a, ch ' ' :: (a.reason ++ tail), rfl⟩]
  | a :: b :: as => ⟨a, ch ' ' :: a.reason, rfl⟩ :: blocksOf tail (b :: as)

/-- The failed lines; the last one goes on to the end of the text. -/
def blocks (r : FailedReport) : List Block :=
  blocksOf (tailOf r.after) r.actions

/-- The text up to the first failed line. -/
def front (r : FailedReport) : PyStr :=
  joinLines (r.before ++ [title]) ++ if r.actions = [] then tailOf r.after else []

theorem joinLines_append
    (before after : List PyStr) (line : PyStr) :
    joinLines (before ++ line :: after) = joinLines (before ++ [line]) ++ tailOf after := by
  induction before with
  | nil =>
      rw [List.nil_append, List.nil_append, joinLines_cons, joinLines_cons, tailOf,
        List.append_nil]
  | cons l before ih =>
      rw [List.cons_append, List.cons_append, joinLines_cons, joinLines_cons,
        tailOf_eq_of_ne_nil (by simp), tailOf_eq_of_ne_nil (by simp), ih]
      simp

theorem map_action_blocksOf
    (tail : PyStr) (as : List FailedAction) :
    (blocksOf tail as).map Block.action = as := by
  induction as using blocksOf.induct with
  | case1 =>
      rfl
  | case2 a =>
      rfl
  | case3 a b as ih =>
      rw [blocksOf, List.map_cons, ih]

theorem tailOf_lines
    (after : List PyStr) (as : List FailedAction) (hne : as ≠ []) :
    tailOf (as.map FailedAction.line ++ after) = Block.text (blocksOf (tailOf after) as) := by
  induction as using blocksOf.induct with
  | case1 =>
      exact absurd rfl hne
  | case2 a =>
      rw [List.map_singleton, List.singleton_append, tailOf, joinLines_cons, blocksOf,
        Block.text_cons]
      simp [FailedAction.line, Block.text]
  | case3 a b as ih =>
      rw [List.map_cons, List.cons_append, tailOf, joinLines_cons, ih (by simp), blocksOf,
        Block.text_cons]
      simp [FailedAction.line]

theorem text_eq
    (r : FailedReport) :
    r.text = r.front ++ Block.text r.blocks := by
  rw [text, joinLines_append, front, blocks]
  split_ifs with hnil
  · rw [hnil]
    simp [blocksOf, Block.text]
  · rw [tailOf_lines r.after r.actions hnil, List.append_nil]

/-- The section is in the text. -/
theorem title_in_text
    (r : FailedReport) :
    lit "Failed Resource Actions" <:+: r.text := by
  have hline : lit "Failed Resource Actions" <:+: title :=
    ⟨[], lit ":", rfl⟩
  have hfront : ∀ before : List PyStr, title <:+: joinLines (before ++ [title]) := by
    intro before
    induction before with
    | nil =>
        rw [List.nil_append, joinLines_cons]
        exact List.infix_refl _
    | cons l before ih =>
        rw [List.cons_append, joinLines_cons, tailOf_eq_of_ne_nil (by simp)]
        exact ih.trans ⟨l ++ [lf], [], by simp⟩
  rw [text, joinLines_append]
  exact hline.trans ((hfront r.before).trans ⟨[], _, rfl⟩)

/-- The entry names the action. -/
def Names (row : Row) (a : FailedAction) : Prop :=
  row.get? (lit "resource") = some (.str a.resource) ∧
    row.get? (lit "node") = some (.str a.node)

theorem names_failedRow_iff
    (m : Match Nat CodePoint) (b : Block) :
    Names (failedRow m) b.action ↔ Block.Named m b := by
  have hresource : (failedRow m).get? (lit "resource") = some (.str (Rdqm.text m 1)) := by
    rfl
  have hnode : (failedRow m).get? (lit "node") = some (.str (Rdqm.text m 3)) := by
    rfl
  rw [Names, hresource, hnode, Block.Named]
  simp

/-- Each failed action is read, and nothing else, exactly when the blocks stand apart. -/
theorem names_parseCrmMon_iff
    (U : UnicodeData) (r : FailedReport) :
    (∃ pace, parseCrmMon U r.text = some pace ∧
      List.Forall₂ Names pace.failedResources r.actions) ↔ Block.Apart r.front r.blocks := by
  have hne : r.text ≠ [] := by
    intro hnil
    have htitle := title_in_text r
    rw [hnil] at htitle
    exact absurd htitle (by decide)
  rw [← Block.forall₂_named_iff r.blocks [] r.front, ← text_eq]
  have hnames : List.Forall₂ Names ((crmFailed.findIter r.text).map failedRow) r.actions ↔
      List.Forall₂ Block.Named (crmFailed.findIterFrom [] 0 r.text) r.blocks := by
    conv_lhs => rw [← map_action_blocksOf (tailOf r.after) r.actions]
    rw [List.forall₂_map_left_iff, List.forall₂_map_right_iff, blocks, Scanner.findIter]
    simp only [names_failedRow_iff]
  rw [← hnames, parseCrmMon, if_neg hne, if_pos (Or.inl (title_in_text r))]
  exact ⟨fun ⟨_, h, hrows⟩ => by rw [← Option.some_inj.mp h] at hrows; exact hrows,
    fun h => ⟨_, rfl, h⟩⟩

end FailedReport

/--
The failed actions are read exactly, one entry for each line with its resource and node,
if and only if the reasons begin with the nodes and nothing else is taken for an action.
-/
theorem failed_actions_read_iff
    (U : UnicodeData) (r : FailedReport) :
    (∃ pace, parseCrmMon U r.text = some pace ∧
      List.Forall₂ FailedReport.Names pace.failedResources r.actions) ↔
        Block.Apart r.front r.blocks :=
  r.names_parseCrmMon_iff U

/-- The failed action of the demo fixture. -/
def demoAction : FailedAction where
  indent := lit "  "
  resource := lit "DEMO_QM-monitor"
  node := lit "rdqm-3"
  reason := lit "unknown error (last failure)"
  indent_blank := by decide
  resource_name := by decide
  node_name := by decide
  reason_line := by decide

/-- The demo fixture. -/
def demoReport : FailedReport where
  before :=
    [ lit "Cluster Summary:",
      lit "  * Stack: corosync",
      lit "  * Current DC: rdqm-1 (version 2.1.5)",
      lit "  * Last updated: 2026-04-28 09:15:42 -05:00",
      lit "  * 3 nodes configured",
      lit "  * 8 resource instances configured",
      [],
      lit "Online: [ rdqm-1 rdqm-2 ]",
      lit "OFFLINE: [ rdqm-3 ]",
      [],
      lit "Active Resources:",
      lit "  * Resource Group: DEMO_QM-group:",
      lit "    * DEMO_QM-vip\t(ocf:heartbeat:IPaddr2):\tStarted rdqm-1",
      lit "    * DEMO_QM-fs\t(ocf:heartbeat:Filesystem):\tStarted rdqm-1",
      [] ]
  actions := [demoAction]
  after := [[]]
  ended := by decide

/-- A resource that is listed as stopped, and a failed action whose reason names its node. -/
def stoppedReport : FailedReport where
  before :=
    [ lit "Active Resources:",
      lit "  * DEMO_QM-fs (ocf:heartbeat:Filesystem): Stopped",
      [] ]
  actions := [{ demoAction with reason := lit "on rdqm-3", reason_line := by decide }]
  after := [[]]
  ended := by decide

/-- Without the stopped resource the action is read, since the reason names its node. -/
example :
    ((crmFailed.findIter ({ stoppedReport with before := [] } : FailedReport).text).map fun m =>
      (text m 1, text m 3)) = [(lit "DEMO_QM-monitor", lit "rdqm-3")] := by
  decide +kernel

/-- In the demo fixture a wrong node is read, and of a stopped resource an entry is made. -/
theorem failed_actions_misread :
    (∀ U : UnicodeData, ¬ ∃ pace, parseCrmMon U demoReport.text = some pace ∧
      List.Forall₂ FailedReport.Names pace.failedResources demoReport.actions) ∧
    ∀ U : UnicodeData, ¬ ∃ pace, parseCrmMon U stoppedReport.text = some pace ∧
      List.Forall₂ FailedReport.Names pace.failedResources stoppedReport.actions := by
  constructor
  · intro U hread
    have hnode := ((demoReport.names_parseCrmMon_iff U).mp hread).2.1
    have hunknown : readNode (ch ' ' :: (lit "unknown error (last failure)" ++ [lf])) =
        lit "unknown" := by
      decide
    exact absurd (hunknown.symm.trans hnode) (by decide)
  · intro U hread
    have happart := (stoppedReport.names_parseCrmMon_iff U).mp hread
    have hnamed := (Block.forall₂_named_iff _ [] _).mpr happart
    rw [← FailedReport.text_eq] at hnamed
    have htwo : (crmFailed.findIter stoppedReport.text).length = 2 := by
      decide +kernel
    have hlength : (crmFailed.findIter stoppedReport.text).length = 1 := hnamed.length_eq
    rw [htwo] at hlength
    cases hlength

end Rdqm
end MqSentinel
