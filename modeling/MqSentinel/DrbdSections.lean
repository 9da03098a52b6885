import MqSentinel.MqscLayout
import MqSentinel.RdqmStatusFields

/-!
# The sections of `drbdadm status`

A header line opens the section of a resource, and the section runs up to the next header.
`_parse_drbd` looks for split-brain text once, in the reply as a whole, and puts the answer
into the entry of every peer of every resource.
-/

namespace MqSentinel
namespace Rdqm

open Regex Rcs CodePoint
open Rcs.Rdqm (resourceName findingSplitBrain connectionFault diskFaults matchRdqmFindings
  checkDrbdSplitBrain checkDrbdConnection checkDrbdDiskState)

/-- The resource that a header line names. -/
def resourceOf (line : PyStr) : Option Resource :=
  (drbdResourceHeader.first [] line).map fun rh =>
    ⟨drbdText rh .name, drbdText rh .role, drbdText rh .disk⟩

/-- The line lists a peer. -/
def listsPeer (line : PyStr) : Bool :=
  (drbdPeerHeader.first [] line).isSome

/-- The section of a resource, by its lines. -/
structure Section where
  header : PyStr
  body : List PyStr
  resource : Resource
  isHeader : resourceOf header = some resource
  noHeader : ∀ l ∈ body, resourceOf l = none
  noBoundary : ∀ l ∈ header :: body, ∀ c ∈ l, c.isLineBoundary = false

/-- `NAME role:R disk:D` -/
def headerLine (r : Resource) : PyStr :=
  r.name ++ (lit " role:" ++ (r.role ++ (lit " disk:" ++ r.disk)))

/-- The header line of a resource names it. -/
theorem resourceOf_headerLine
    {r : Resource} (hname : IsWord r.name) (hrole : IsWord r.role) (hdisk : IsWord r.disk) :
    resourceOf (headerLine r) = some r := by
  have hend : ∀ pre, (Gx.seqs [.plain (Rx.star space), .plain (Rx.textEnd isNewline)]).first
      pre [] = some (⟨[], []⟩ : Match DrbdGroup CodePoint) := fun pre => rfl
  have hblank : ∀ {s : String} {rest : PyStr}, ((lit s).head?.any fun c => !c.isSpace) = true →
      ((lit s ++ rest).head?.all fun c => !c.isSpace) = true := by
    intro s rest hs
    cases hlit : lit s with
    | nil =>
        rw [hlit] at hs
        cases hs
    | cons c cs =>
        rw [hlit] at hs
        exact hs
  have hdisk' := fun pre => first_word_seq .disk hdisk rfl (hend (r.disk.reverse ++ pre))
  have hlabel := fun pre => first_lit_seq "disk:" (hdisk' ((lit "disk:").reverse ++ pre))
  have hspace := fun pre =>
    first_blank_seq (hblank (s := "disk:") rfl) (hlabel (ch ' ' :: pre))
  have hrole' := fun pre => first_word_seq .role hrole rfl (hspace (r.role.reverse ++ pre))
  have hlabel' := fun pre => first_lit_seq "role:" (hrole' ((lit "role:").reverse ++ pre))
  have hspace' := fun pre =>
    first_blank_seq (hblank (s := "role:") rfl) (hlabel' (ch ' ' :: pre))
  have hname' := first_word_seq .name hname rfl (hspace' (r.name.reverse ++ []))
  have hstart : ∀ post : PyStr,
      (Gx.plain Rx.textStart).first [] post = some (⟨[], []⟩ : Match DrbdGroup CodePoint) := by
    intro post
    simp [Rx.first, Rx.textStart, Rx.ends]
  have hheader : drbdResourceHeader.first [] _ = some _ := Gx.first_seq (hstart _) hname'
  have hline : headerLine r = r.name ++ (ch ' ' :: (lit "role:" ++ (r.role ++
      (ch ' ' :: (lit "disk:" ++ (r.disk ++ [])))))) := by
    rw [headerLine, List.append_nil]
    rfl
  rw [resourceOf, hline, hheader]
  rfl

namespace Section

/-- The lines of a section. -/
def lines (s : Section) : List PyStr :=
  s.header :: s.body

/-- The section has split-brain text. -/
def HasSplitBrain (s : Section) : Prop :=
  drbdSplitBrain.HasMatch (joinLines s.lines)

/-- Some line of the section lists a peer. -/
def ListsPeers (s : Section) : Prop :=
  ∃ l ∈ s.body, listsPeer l = true

end Section

/-- The reply made of these sections. -/
def drbdReply (ss : List Section) : PyStr :=
  joinLines (ss.flatMap Section.lines)

/-- The resource has a section with split-brain text. -/
def Affected (ss : List Section) (name : PyStr) : Prop :=
  ∃ s ∈ ss, s.resource.name = name ∧ s.HasSplitBrain

/-- Split-brain is reported of the affected resources only, and hides no other fault. -/
structure Attributed (ss : List Section) : Prop where
  flags : ∀ e ∈ parseDrbd (drbdReply ss),
    (e.get "split_brain").truthy = true ↔ Affected ss (resourceName e)
  recipes : ∀ registry mqVersion rdqm pacemaker name,
    findingSplitBrain registry mqVersion name ∈
        matchRdqmFindings registry mqVersion ⟨rdqm, pacemaker, parseDrbd (drbdReply ss)⟩ ↔
      Affected ss name ∧ ∃ e ∈ parseDrbd (drbdReply ss), resourceName e = name
  faults : ∀ registry mqVersion rdqm pacemaker,
    ∀ e ∈ parseDrbd (drbdReply ss), ¬ Affected ss (resourceName e) →
      ∀ f ∈ (connectionFault registry mqVersion e).toList ++ diskFaults registry mqVersion e,
        f ∈ matchRdqmFindings registry mqVersion ⟨rdqm, pacemaker, parseDrbd (drbdReply ss)⟩

/--
Where there is split-brain text, every resource with a listed peer is affected; and where
no peer is listed, the resource that stands for all of them is.
-/
def AllAffected (ss : List Section) : Prop :=
  (∃ s ∈ ss, s.HasSplitBrain) →
    (∀ s ∈ ss, s.ListsPeers → Affected ss s.resource.name) ∧
      ((∀ s ∈ ss, ¬ s.ListsPeers) → Affected ss (lit "<unknown>"))

section Marker

/-- What the split-brain pattern matches, wherever it stands. -/
def IsSplitBrain (w : PyStr) : Prop :=
  ∃ u x v, w = u ++ (x ++ v) ∧ u.map reFold = (lit "split").map reFold ∧
    (x = [] ∨ ∃ c, x = [c] ∧ isNewline c = false) ∧ v.map reFold = (lit "brain").map reFold

theorem lang_splitBrain
    (pre w post : PyStr) :
    Rx.Lang drbdSplitBrain pre w post ↔ IsSplitBrain w := by
  simp only [drbdSplitBrain, Rx.seqs, Rx.lang_seq, Rx.lang_opt, Rx.lang_cls, Rx.lang_eps, ciRx,
    Rx.lang_word, fits_ci_iff, IsSplitBrain, Bool.not_eq_true']
  constructor
  · rintro ⟨u, _, rfl, hu, x, _, rfl, hx, v, _, rfl, hv, rfl⟩
    exact ⟨u, x, v, by simp, hu, hx.symm, hv⟩
  · rintro ⟨u, x, v, rfl, hu, hx, hv⟩
    exact ⟨u, _, rfl, hu, x, _, rfl, hx.symm, v, [], by simp, hv, rfl⟩

theorem hasMatch_splitBrain_iff
    (text : PyStr) :
    drbdSplitBrain.HasMatch text ↔ ∃ w, IsSplitBrain w ∧ w <:+: text := by
  constructor
  · rintro ⟨a, w, b, rfl, hw⟩
    exact ⟨w, (lang_splitBrain _ _ _).mp hw, a, b, rfl⟩
  · rintro ⟨w, hw, a, b, rfl⟩
    exact ⟨a, w, b, rfl, (lang_splitBrain _ _ _).mpr hw⟩

theorem isSplitBrain_chars
    {w : PyStr} (hw : IsSplitBrain w) :
    w ≠ [] ∧ lf ∉ w := by
  obtain ⟨u, x, v, rfl, hu, hx, hv⟩ := hw
  have hfold : ∀ {s t : PyStr}, s.map reFold = t.map reFold → lf.reFold ∉ t.map reFold →
      lf ∉ s := by
    intro s t hst hlf hmem
    exact hlf (hst ▸ List.mem_map_of_mem hmem)
  constructor
  · intro hnil
    rw [(List.append_eq_nil_iff.mp hnil).1] at hu
    cases hu
  · rw [List.mem_append, List.mem_append]
    rintro (hmem | hmem | hmem)
    · exact hfold hu (by decide) hmem
    · rcases hx with rfl | ⟨c, rfl, hc⟩
      · cases hmem
      · rw [← List.mem_singleton.mp hmem] at hc
        cases hc
    · exact hfold hv (by decide) hmem

/-- A word without the character at the seam stands on one side of it. -/
theorem infix_append_cons_iff
    {w a b : PyStr} {c : CodePoint} (hc : c ∉ w) :
    w <:+: a ++ c :: b ↔ w <:+: a ∨ w <:+: b := by
  constructor
  · rintro ⟨x, y, hxy⟩
    rw [List.append_assoc] at hxy
    rcases List.append_eq_append_iff.mp hxy with ⟨z, rfl, hz⟩ | ⟨z, rfl, hz⟩
    · -- the word starts inside the first part
      rcases List.append_eq_append_iff.mp hz with ⟨z', rfl, -⟩ | ⟨z', rfl, hz'⟩
      · exact Or.inl ⟨x, z', by simp⟩
      · cases z' with
        | nil =>
            exact Or.inl ⟨x, [], by simp⟩
        | cons d z' =>
            obtain ⟨rfl, -⟩ := List.cons.inj hz'
            exact absurd (by simp) hc
    · cases z with
      | nil =>
          rw [List.nil_append] at hz
          cases w with
          | nil =>
              exact Or.inl List.nil_infix
          | cons d w =>
              obtain ⟨rfl, -⟩ := List.cons.inj hz
              exact absurd (by simp) hc
      | cons d z =>
          obtain ⟨rfl, rfl⟩ := List.cons.inj hz
          exact Or.inr ⟨z, y, by simp⟩
  · rintro (h | h)
    · exact h.trans (List.prefix_append a (c :: b)).isInfix
    · exact h.trans ((List.suffix_cons c b).isInfix.trans (List.suffix_append a (c :: b)).isInfix)

/-- A word without a line end stands in the joined lines when it stands in one of them. -/
theorem infix_joinLines_iff
    {w : PyStr} (hne : w ≠ []) (hlf : lf ∉ w) (ls : List PyStr) :
    w <:+: joinLines ls ↔ ∃ l ∈ ls, w <:+: l := by
  induction ls with
  | nil =>
      simp [joinLines, List.infix_nil, hne]
  | cons l after ih =>
      rw [joinLines_cons]
      cases after with
      | nil =>
          simp [tailOf]
      | cons l' ls =>
          rw [tailOf, infix_append_cons_iff hlf, ih]
          simp

/-- Split-brain text stands in one line. -/
theorem hasMatch_joinLines_iff
    (ls : List PyStr) :
    drbdSplitBrain.HasMatch (joinLines ls) ↔ ∃ l ∈ ls, drbdSplitBrain.HasMatch l := by
  simp only [hasMatch_splitBrain_iff]
  constructor
  · rintro ⟨w, hw, hinf⟩
    obtain ⟨hne, hlf⟩ := isSplitBrain_chars hw
    obtain ⟨l, hl, hinf⟩ := (infix_joinLines_iff hne hlf ls).mp hinf
    exact ⟨l, hl, w, hw, hinf⟩
  · rintro ⟨l, hl, w, hw, hinf⟩
    obtain ⟨hne, hlf⟩ := isSplitBrain_chars hw
    exact ⟨w, hw, (infix_joinLines_iff hne hlf ls).mpr ⟨l, hl, hinf⟩⟩

/-- The marker of the whole reply. -/
theorem search_drbdReply_iff
    (ss : List Section) :
    drbdSplitBrain.search (drbdReply ss) = true ↔ ∃ s ∈ ss, s.HasSplitBrain := by
  rw [Rx.search_iff_hasMatch, drbdReply, hasMatch_joinLines_iff]
  simp only [Section.HasSplitBrain, hasMatch_joinLines_iff, List.mem_flatMap]
  constructor
  · rintro ⟨l, ⟨s, hs, hl⟩, hmatch⟩
    exact ⟨s, hs, l, hl, hmatch⟩
  · rintro ⟨s, hs, l, hl, hmatch⟩
    exact ⟨l, ⟨s, hs, hl⟩, hmatch⟩

end Marker

section Loop

variable (b : Bool)

/-- The resources of the entries, with the one at hand. -/
def entryNames (st : DrbdState) : List PyStr :=
  (flushPeer b st).map resourceName

/-- Every entry has the flag of the whole reply. -/
def Flagged (st : DrbdState) : Prop :=
  ∀ e ∈ st.out, e.get? (lit "split_brain") = some (.bool b)

theorem get?_drbdEntry
    (r : Resource) (p : Peer) :
    (drbdEntry b r p).get? (lit "resource") = some (.str r.name) ∧
      (drbdEntry b r p).get? (lit "split_brain") = some (.bool b) := by
  refine ⟨OrderedDict.get?_ofList_of_mem ?_ (by simp), OrderedDict.get?_ofList_of_mem ?_ (by simp)⟩
  all_goals simp [lit_injective.eq_iff]

theorem get?_unknownEntry :
    unknownEntry.get? (lit "resource") = some (.str (lit "<unknown>")) ∧
      unknownEntry.get? (lit "split_brain") = some (.bool true) := by
  refine ⟨OrderedDict.get?_ofList_of_mem ?_ (by simp), OrderedDict.get?_ofList_of_mem ?_ (by simp)⟩
  all_goals simp [lit_injective.eq_iff]

theorem resourceName_of_get?
    {e : Row} {name : PyStr} (h : e.get? (lit "resource") = some (.str name)) :
    resourceName e = name := by
  rw [resourceName, Row.getOr, h]
  rfl

@[simp] theorem resourceName_drbdEntry
    (r : Resource) (p : Peer) :
    resourceName (drbdEntry b r p) = r.name := by
  exact resourceName_of_get? (get?_drbdEntry b r p).1

theorem flagged_flushPeer
    {st : DrbdState} (hst : Flagged b st) :
    ∀ e ∈ flushPeer b st, e.get? (lit "split_brain") = some (.bool b) := by
  rw [flushPeer]
  split
  · rename_i r p _ _
    intro e he
    rcases List.mem_append.mp he with he | he
    · exact hst e he
    · rw [List.mem_singleton.mp he]
      exact (get?_drbdEntry b r p).2
  · exact hst

/-- What a line does, by its kind. -/
theorem drbdLine_cases
    (st : DrbdState) (line : PyStr) :
    (∃ r, resourceOf line = some r ∧
      drbdLine b st line = { out := flushPeer b st, currentResource := some r }) ∨
    (resourceOf line = none ∧ listsPeer line = true ∧ ∃ r p, st.currentResource = some r ∧
      drbdLine b st line =
        { out := flushPeer b st, currentResource := some r, pendingPeer := some p }) ∨
    (resourceOf line = none ∧ (listsPeer line = false ∨ st.currentResource = none) ∧
      ∃ p, (p.isSome = st.pendingPeer.isSome) ∧
        drbdLine b st line = { st with pendingPeer := p }) := by
  obtain ⟨out, cur, pending⟩ := st
  rw [drbdLine, resourceOf, listsPeer]
  cases drbdResourceHeader.first [] line with
  | some rh =>
      exact Or.inl ⟨_, rfl, rfl⟩
  | none =>
      refine Or.inr ?_
      cases cur with
      | some r =>
          cases drbdPeerHeader.first [] line with
          | some ph =>
              exact Or.inl ⟨rfl, rfl, r, _, rfl, rfl⟩
          | none =>
              refine Or.inr ⟨rfl, Or.inl rfl, ?_⟩
              cases drbdPeerDetail.first [] line <;> cases pending <;>
                exact ⟨_, by rfl, rfl⟩
      | none =>
          refine Or.inr ⟨rfl, Or.inr rfl, ?_⟩
          cases drbdPeerHeader.first [] line <;> cases drbdPeerDetail.first [] line <;>
            cases pending <;> exact ⟨_, by rfl, rfl⟩

theorem flagged_drbdLine
    {st : DrbdState} (hst : Flagged b st) (line : PyStr) :
    Flagged b (drbdLine b st line) := by
  obtain ⟨r, -, hline⟩ | ⟨-, -, r, p, -, hline⟩ | ⟨-, -, p, -, hline⟩ := drbdLine_cases b st line
  · rw [hline]
    exact flagged_flushPeer b hst
  · rw [hline]
    exact flagged_flushPeer b hst
  · rw [hline]
    exact hst

theorem flagged_foldl
    {st : DrbdState} (hst : Flagged b st) (ls : List PyStr) :
    Flagged b (ls.foldl (drbdLine b) st) := by
  induction ls generalizing st with
  | nil =>
      exact hst
  | cons line ls ih =>
      exact ih (flagged_drbdLine b hst line)

/-- A line of a section that is no header keeps the resource, and enters its peer. -/
theorem entryNames_body_line
    {st : DrbdState} {r : Resource} (hr : st.currentResource = some r) {line : PyStr}
    (hline : resourceOf line = none) :
    (drbdLine b st line).currentResource = some r ∧
      entryNames b (drbdLine b st line) =
        entryNames b st ++ if listsPeer line then [r.name] else [] := by
  obtain ⟨r', hr', -⟩ | ⟨-, hpeer, r', p, hcur, hstep⟩ | ⟨-, hpeer, p, hp, hstep⟩ :=
    drbdLine_cases b st line
  · rw [hline] at hr'
    cases hr'
  · obtain rfl := Option.some.inj (hr.symm.trans hcur)
    rw [hstep, hpeer]
    exact ⟨rfl, by simp [entryNames, flushPeer]⟩
  · have hpeer : listsPeer line = false := hpeer.resolve_right (by simp [hr])
    rw [hstep, hpeer]
    refine ⟨hr, ?_⟩
    cases hpending : st.pendingPeer with
    | none =>
        obtain rfl : p = none := by simpa [hpending] using hp
        simp [entryNames, flushPeer, hr, hpending]
    | some q =>
        obtain ⟨p, rfl⟩ := Option.isSome_iff_exists.mp (hp.trans (by rw [hpending]; rfl))
        simp [entryNames, flushPeer, hr, hpending]

/-- The body of a section. -/
theorem entryNames_body
    {st : DrbdState} {r : Resource} (hr : st.currentResource = some r) {body : List PyStr}
    (hbody : ∀ l ∈ body, resourceOf l = none) :
    entryNames b (body.foldl (drbdLine b) st) =
      entryNames b st ++ (body.filter listsPeer).map fun _ => r.name := by
  induction body generalizing st with
  | nil =>
      simp
  | cons line body ih =>
      obtain ⟨hcur, hnames⟩ := entryNames_body_line b hr (hbody line (by simp))
      rw [List.foldl_cons, ih hcur fun l hl => hbody l (List.mem_cons_of_mem _ hl), hnames,
        List.filter_cons]
      split
      · simp
      · simp

/-- A section adds one entry for each peer it lists. -/
theorem entryNames_section
    (st : DrbdState) (s : Section) :
    entryNames b (s.lines.foldl (drbdLine b) st) =
      entryNames b st ++ (s.body.filter listsPeer).map fun _ => s.resource.name := by
  have hheader : drbdLine b st s.header =
      { out := flushPeer b st, currentResource := some s.resource } := by
    obtain ⟨r, hr, hstep⟩ | ⟨hno, -⟩ | ⟨hno, -⟩ := drbdLine_cases b st s.header
    · obtain rfl := Option.some.inj (s.isHeader.symm.trans hr)
      exact hstep
    · rw [s.isHeader] at hno
      cases hno
    · rw [s.isHeader] at hno
      cases hno
  rw [Section.lines, List.foldl_cons, hheader, entryNames_body b rfl s.noHeader]
  simp [entryNames, flushPeer]

/-- The entries of a reply, by their resources. -/
theorem entryNames_sections
    (st : DrbdState) (ss : List Section) :
    entryNames b ((ss.flatMap Section.lines).foldl (drbdLine b) st) =
      entryNames b st ++
        ss.flatMap fun s => (s.body.filter listsPeer).map fun _ => s.resource.name := by
  induction ss generalizing st with
  | nil =>
      simp
  | cons s ss ih =>
      rw [List.flatMap_cons, List.foldl_append, ih, entryNames_section, List.flatMap_cons,
        List.append_assoc]

/-- An empty line changes nothing. -/
theorem drbdLine_nil
    (st : DrbdState) :
    drbdLine b st [] = st := by
  obtain ⟨out, cur, pending⟩ := st
  have hheader : drbdResourceHeader.first [] [] = none := rfl
  have hpeer : drbdPeerHeader.first [] [] = none := rfl
  have hdetail : drbdPeerDetail.first [] [] = none := rfl
  simp only [drbdLine, hheader, hpeer, hdetail]

/-- The loop reads the lines that were joined. -/
theorem foldl_splitlines
    {ls : List PyStr} (hls : ∀ l ∈ ls, ∀ c ∈ l, c.isLineBoundary = false) (st : DrbdState) :
    (splitlines (joinLines ls)).foldl (drbdLine b) st = ls.foldl (drbdLine b) st := by
  induction ls generalizing st with
  | nil =>
      rfl
  | cons l after ih =>
      have hl := hls l (by simp)
      rw [joinLines_cons]
      cases after with
      | nil =>
          rw [tailOf, List.append_nil]
          by_cases hne : l = []
          · rw [hne]
            exact (drbdLine_nil b st).symm
          · rw [Mqsc.splitlines_line hl hne]
      | cons l' ls =>
          rw [tailOf, Mqsc.splitlines_append hl (Mqsc.splitlines_lf _), List.foldl_cons,
            List.foldl_cons]
          exact ih (fun x hx => hls x (List.mem_cons_of_mem _ hx)) _

end Loop

section Reply

variable (ss : List Section)

/-- The entries in front of the last step of the parser. -/
def peerEntries : List Row :=
  flushPeer (drbdSplitBrain.search (drbdReply ss))
    ((ss.flatMap Section.lines).foldl (drbdLine (drbdSplitBrain.search (drbdReply ss))) {})

theorem parseDrbd_drbdReply :
    parseDrbd (drbdReply ss) =
      if peerEntries ss = [] ∧ drbdSplitBrain.search (drbdReply ss) = true then [unknownEntry]
      else peerEntries ss := by
  have hlines : ∀ l ∈ ss.flatMap Section.lines, ∀ c ∈ l, c.isLineBoundary = false := by
    intro l hl
    obtain ⟨s, _, hl⟩ := List.mem_flatMap.mp hl
    exact s.noBoundary l hl
  have hloop := foldl_splitlines (drbdSplitBrain.search (drbdReply ss)) hlines {}
  rw [parseDrbd]
  split
  · rename_i hnil
    have hempty : peerEntries ss = [] := by
      rw [peerEntries, ← hloop]
      change flushPeer _ ((splitlines (drbdReply ss)).foldl _ {}) = []
      rw [hnil]
      rfl
    have hsearch : drbdSplitBrain.search (drbdReply ss) = false := by
      rw [hnil]
      rfl
    rw [hempty, hsearch, if_neg (by simp)]
  · rw [peerEntries, ← hloop]
    rfl

theorem map_resourceName_peerEntries :
    (peerEntries ss).map resourceName =
      ss.flatMap fun s => (s.body.filter listsPeer).map fun _ => s.resource.name := by
  have hnames := entryNames_sections (drbdSplitBrain.search (drbdReply ss)) {} ss
  simpa [entryNames, flushPeer, peerEntries] using hnames

theorem listsPeers_iff
    (s : Section) :
    s.ListsPeers ↔ s.body.filter listsPeer ≠ [] := by
  simp [Section.ListsPeers, List.filter_eq_nil_iff]

theorem mem_names_peerEntries_iff
    (name : PyStr) :
    name ∈ (peerEntries ss).map resourceName ↔
      ∃ s ∈ ss, s.ListsPeers ∧ s.resource.name = name := by
  rw [map_resourceName_peerEntries, List.mem_flatMap]
  constructor
  · rintro ⟨s, hs, hname⟩
    obtain ⟨l, hl, rfl⟩ := List.mem_map.mp hname
    exact ⟨s, hs, (listsPeers_iff s).mpr (List.ne_nil_of_mem hl), rfl⟩
  · rintro ⟨s, hs, hpeers, rfl⟩
    obtain ⟨l, hl⟩ := List.exists_mem_of_ne_nil _ ((listsPeers_iff s).mp hpeers)
    exact ⟨s, hs, List.mem_map.mpr ⟨l, hl, rfl⟩⟩

/-- Every entry has the flag of the whole reply. -/
theorem flag_of_mem_parseDrbd
    {e : Row} (he : e ∈ parseDrbd (drbdReply ss)) :
    (e.get "split_brain").truthy = true ↔ ∃ s ∈ ss, s.HasSplitBrain := by
  rw [← search_drbdReply_iff]
  rw [parseDrbd_drbdReply] at he
  split at he
  · rename_i h
    rw [List.mem_singleton.mp he, Row.get, get?_unknownEntry.2, h.2]
    rfl
  · have hflagged : Flagged (drbdSplitBrain.search (drbdReply ss)) {} := fun e he => by cases he
    have hget := flagged_flushPeer _ (flagged_foldl _ hflagged (ss.flatMap Section.lines)) e he
    rw [Row.get, hget]
    rfl

/-- The resources of the entries. -/
theorem mem_names_parseDrbd_iff
    (name : PyStr) :
    name ∈ (parseDrbd (drbdReply ss)).map resourceName ↔
      (∃ s ∈ ss, s.ListsPeers ∧ s.resource.name = name) ∨
        (∃ s ∈ ss, s.HasSplitBrain) ∧ (∀ s ∈ ss, ¬ s.ListsPeers) ∧ name = lit "<unknown>" := by
  have hempty : peerEntries ss = [] ↔ ∀ s ∈ ss, ¬ s.ListsPeers := by
    rw [← List.map_eq_nil_iff (f := resourceName), List.eq_nil_iff_forall_not_mem]
    simp only [mem_names_peerEntries_iff]
    constructor
    · intro h s hs hpeers
      exact h _ ⟨s, hs, hpeers, rfl⟩
    · rintro h _ ⟨s, hs, hpeers, -⟩
      exact h s hs hpeers
  rw [← mem_names_peerEntries_iff, ← search_drbdReply_iff, ← hempty, parseDrbd_drbdReply]
  split
  · rename_i h
    simp [h.1, h.2, resourceName_of_get? get?_unknownEntry.1]
  · rename_i h
    constructor
    · exact Or.inl
    · rintro (hname | ⟨hsearch, hnil, -⟩)
      · exact hname
      · exact absurd ⟨hnil, hsearch⟩ h

/-- The flags are those of the resources exactly when every reported resource is affected. -/
theorem flags_iff :
    (∀ e ∈ parseDrbd (drbdReply ss),
      ((e.get "split_brain").truthy = true ↔ Affected ss (resourceName e))) ↔
      AllAffected ss := by
  have hall : (∀ e ∈ parseDrbd (drbdReply ss), Affected ss (resourceName e)) ↔
      ∀ name ∈ (parseDrbd (drbdReply ss)).map resourceName, Affected ss name := by
    simp
  constructor
  · intro hflags hmarker
    have hnames := hall.mp fun e he =>
      (hflags e he).mp ((flag_of_mem_parseDrbd ss he).mpr hmarker)
    refine ⟨fun s hs hpeers => ?_, fun hnone => ?_⟩
    · exact hnames _ ((mem_names_parseDrbd_iff ss _).mpr (Or.inl ⟨s, hs, hpeers, rfl⟩))
    · exact hnames _ ((mem_names_parseDrbd_iff ss _).mpr (Or.inr ⟨hmarker, hnone, rfl⟩))
  · intro haffected e he
    rw [flag_of_mem_parseDrbd ss he]
    constructor
    · intro hmarker
      obtain ⟨hpeers, hunknown⟩ := haffected hmarker
      refine hall.mpr (fun name hname => ?_) e he
      rcases (mem_names_parseDrbd_iff ss name).mp hname with ⟨s, hs, hp, rfl⟩ | ⟨_, hnone, rfl⟩
      · exact hpeers s hs hp
      · exact hunknown hnone
    · rintro ⟨s, hs, -, hsplit⟩
      exact ⟨s, hs, hsplit⟩

end Reply

section Findings

variable (registry : KCRegistry) (mqVersion : Option PyStr)

theorem findingSplitBrain_injective
    {name name' : PyStr}
    (h : findingSplitBrain registry mqVersion name = findingSplitBrain registry mqVersion name') :
    name = name' := by
  have hevidence := congrArg RCSFinding.evidence h
  simpa [findingSplitBrain] using hevidence

/-- The other checks suggest two commands, and the split-brain recipe three. -/
theorem mem_findingSplitBrain_iff
    (raw : Rcs.Rdqm.RawData) (name : PyStr) :
    findingSplitBrain registry mqVersion name ∈ matchRdqmFindings registry mqVersion raw ↔
      ∃ e ∈ raw.drbd, (e.get "split_brain").truthy = true ∧ resourceName e = name := by
  have hthree : (findingSplitBrain registry mqVersion name).fixSteps.length = 3 := rfl
  have hown : findingSplitBrain registry mqVersion name ∈
      checkDrbdSplitBrain registry mqVersion raw.drbd ↔
      ∃ e ∈ raw.drbd, (e.get "split_brain").truthy = true ∧ resourceName e = name := by
    rw [Rcs.Rdqm.mem_checkDrbdSplitBrain_iff]
    constructor
    · rintro ⟨e, he, hflag, hf⟩
      exact ⟨e, he, hflag, (findingSplitBrain_injective registry mqVersion hf).symm⟩
    · rintro ⟨e, he, hflag, rfl⟩
      exact ⟨e, he, hflag, rfl⟩
  have hother : ∀ f : RCSFinding, f.fixSteps.length = 2 →
      findingSplitBrain registry mqVersion name ≠ f := by
    rintro f hf rfl
    omega
  have hquorum : ∀ pace, findingSplitBrain registry mqVersion name ∉
      Rcs.Rdqm.checkPacemakerQuorum registry mqVersion pace := by
    intro pace hmem
    exact hother _ rfl (Rcs.Rdqm.mem_checkPacemakerQuorum_iff.mp hmem).2
  have hoffline : ∀ pace, findingSplitBrain registry mqVersion name ∉
      Rcs.Rdqm.checkOfflineNodes registry mqVersion pace := by
    intro pace hmem
    exact hother _ rfl (Rcs.Rdqm.mem_checkOfflineNodes_iff.mp hmem).2
  have hfailed : ∀ pace, findingSplitBrain registry mqVersion name ∉
      Rcs.Rdqm.checkFailedResources registry mqVersion pace := by
    intro pace hmem
    obtain ⟨row, -, hf⟩ := Rcs.Rdqm.mem_checkFailedResources_iff.mp hmem
    exact hother _ rfl hf
  have hconnection : findingSplitBrain registry mqVersion name ∉
      checkDrbdConnection registry mqVersion raw.drbd := by
    intro hmem
    obtain ⟨e, -, -, hf⟩ := Rcs.Rdqm.mem_checkDrbdConnection_iff.mp hmem
    obtain ⟨conn, hf⟩ := Rcs.Rdqm.exists_of_connectionFault hf
    exact hother _ rfl hf
  have hdisk : findingSplitBrain registry mqVersion name ∉
      checkDrbdDiskState registry mqVersion raw.drbd := by
    intro hmem
    obtain ⟨e, -, -, hf⟩ := Rcs.Rdqm.mem_checkDrbdDiskState_iff.mp hmem
    obtain ⟨who, state, hf⟩ := Rcs.Rdqm.exists_of_mem_diskFaults hf
    exact hother _ rfl hf
  have hrunning : findingSplitBrain registry mqVersion name ∉
      Rcs.Rdqm.checkRdqmNoRunningNode registry mqVersion raw.rdqmStatus := by
    intro hmem
    obtain ⟨qm, haState, hf⟩ := Rcs.Rdqm.exists_of_mem_checkRdqmNoRunningNode hmem
    exact hother _ rfl hf
  rw [matchRdqmFindings]
  split
  · rename_i hempty
    simp [hempty.2.2]
  · simp only [List.mem_append, hquorum, hoffline, hfailed, hconnection, hdisk, hrunning, hown,
      false_or, or_false]

/-- The faults of an entry without the flag are reported. -/
theorem faults_reported
    {raw : Rcs.Rdqm.RawData} {e : Row} (he : e ∈ raw.drbd)
    (hflag : (e.get "split_brain").truthy = false) :
    ∀ f ∈ (connectionFault registry mqVersion e).toList ++ diskFaults registry mqVersion e,
      f ∈ matchRdqmFindings registry mqVersion raw := by
  intro f hf
  rw [matchRdqmFindings, if_neg fun hempty => List.ne_nil_of_mem he hempty.2.2]
  simp only [List.mem_append]
  rcases List.mem_append.mp hf with hf | hf
  · refine Or.inl (Or.inl (Or.inr ?_))
    exact Rcs.Rdqm.mem_checkDrbdConnection_iff.mpr ⟨e, he, hflag, Option.mem_toList.mp hf⟩
  · refine Or.inl (Or.inr ?_)
    exact Rcs.Rdqm.mem_checkDrbdDiskState_iff.mpr ⟨e, he, hflag, hf⟩

end Findings

section Claim

/--
Split-brain is attributed to the right resources exactly when a reply with split-brain
text has it for every resource that the parser enters.
-/
theorem attributed_iff
    (ss : List Section) :
    Attributed ss ↔ AllAffected ss := by
  rw [← flags_iff]
  constructor
  · exact Attributed.flags
  · intro hflags
    refine ⟨hflags, fun registry mqVersion rdqm pacemaker name => ?_,
      fun registry mqVersion rdqm pacemaker e he hnot => ?_⟩
    · rw [mem_findingSplitBrain_iff]
      constructor
      · rintro ⟨e, he, hflag, rfl⟩
        exact ⟨(hflags e he).mp hflag, e, he, rfl⟩
      · rintro ⟨haffected, e, he, rfl⟩
        exact ⟨e, he, (hflags e he).mpr haffected, rfl⟩
    · refine faults_reported registry mqVersion he ?_
      rw [Bool.eq_false_iff]
      exact fun hflag => hnot ((hflags e he).mp hflag)

/-- A resource whose peer is disconnected. -/
def disconnectedSection : Section where
  header := headerLine ⟨lit "QM1", lit "Primary", lit "UpToDate"⟩
  body := [lit "  n2 connection:WFConnection", lit "    role:Unknown peer-disk:DUnknown"]
  resource := ⟨lit "QM1", lit "Primary", lit "UpToDate"⟩
  isHeader := resourceOf_headerLine ⟨by decide, by decide⟩ ⟨by decide, by decide⟩
    ⟨by decide, by decide⟩
  noHeader := by decide +kernel
  noBoundary := by decide

/-- A resource with a split brain. -/
def splitSection : Section where
  header := headerLine ⟨lit "QM2", lit "Primary", lit "UpToDate"⟩
  body := [lit "  n2 connection:StandAlone", lit "    split-brain detected"]
  resource := ⟨lit "QM2", lit "Primary", lit "UpToDate"⟩
  isHeader := resourceOf_headerLine ⟨by decide, by decide⟩ ⟨by decide, by decide⟩
    ⟨by decide, by decide⟩
  noHeader := by decide +kernel
  noBoundary := by decide

/-- The other resource gets the recipe that discards data, and its own fault is hidden. -/
theorem recipe_for_other_resource :
    Affected [disconnectedSection, splitSection] (lit "QM2") ∧
      ¬ Affected [disconnectedSection, splitSection] (lit "QM1") ∧
      (∀ registry mqVersion rdqm pacemaker,
        findingSplitBrain registry mqVersion (lit "QM1") ∈
          matchRdqmFindings registry mqVersion
            ⟨rdqm, pacemaker, parseDrbd (drbdReply [disconnectedSection, splitSection])⟩) ∧
      ¬ Attributed [disconnectedSection, splitSection] := by
  have hsplit : splitSection.HasSplitBrain := by
    unfold Section.HasSplitBrain
    decide +kernel
  have hno : ¬ disconnectedSection.HasSplitBrain := by
    unfold Section.HasSplitBrain
    decide +kernel
  have hmarker : ∃ s ∈ [disconnectedSection, splitSection], s.HasSplitBrain := ⟨splitSection, by simp, hsplit⟩
  have hpeers : disconnectedSection.ListsPeers := ⟨lit "  n2 connection:WFConnection", by
    simp [disconnectedSection], by decide +kernel⟩
  have hnot : ¬ Affected [disconnectedSection, splitSection] (lit "QM1") := by
    rintro ⟨s, hs, hname, hbrain⟩
    simp only [List.mem_cons, List.not_mem_nil, or_false] at hs
    rcases hs with rfl | rfl
    · exact hno hbrain
    · revert hname
      decide
  obtain ⟨e, he, hname⟩ : ∃ e ∈ parseDrbd (drbdReply [disconnectedSection, splitSection]),
      resourceName e = lit "QM1" :=
    List.mem_map.mp ((mem_names_parseDrbd_iff _ _).mpr
      (Or.inl ⟨disconnectedSection, by simp, hpeers, rfl⟩))
  have hflag := (flag_of_mem_parseDrbd _ he).mpr hmarker
  refine ⟨⟨splitSection, by simp, rfl, hsplit⟩, hnot, fun registry mqVersion rdqm pacemaker => ?_, ?_⟩
  · exact (mem_findingSplitBrain_iff registry mqVersion _ _).mpr ⟨e, he, hflag, hname⟩
  · intro hattributed
    exact hnot (hname ▸ (hattributed.flags e he).mp hflag)

end Claim

end Rdqm
end MqSentinel
