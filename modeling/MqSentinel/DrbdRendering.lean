import MqSentinel.DrbdSections

/-!
# Reading a rendered `drbdadm status`

The docstring of `_parse_drbd` shows the format: a header line for each resource, and two
indented lines for each of its peers.  `rendered` writes resources in this format, with
any indentation, and `parseDrbd_rendered` reads them back.
-/

namespace MqSentinel
namespace Rdqm

open Regex Rcs CodePoint

/-- White space in front of a line. -/
def IsIndent (s : PyStr) : Prop :=
  s ≠ [] ∧ ∀ c ∈ s, c.isSpace = true ∧ c.isLineBoundary = false

/-- A peer with the indentation of its two lines. -/
structure PeerLines where
  peer : PyStr
  conn : PyStr
  peerRole : PyStr
  peerDisk : PyStr
  indent : PyStr
  detailIndent : PyStr
  words : IsWord peer ∧ IsWord conn ∧ IsWord peerRole ∧ IsWord peerDisk
  indents : IsIndent indent ∧ IsIndent detailIndent

/-- A resource with its peers. -/
structure ResourceLines where
  resource : Resource
  peers : List PeerLines
  words : IsWord resource.name ∧ IsWord resource.role ∧ IsWord resource.disk

namespace PeerLines

/-- `PEER_NAME connection:C` -/
def header (p : PeerLines) : PyStr :=
  p.indent ++ (p.peer ++ (lit " connection:" ++ p.conn))

/-- `role:PR peer-disk:PD` -/
def detail (p : PeerLines) : PyStr :=
  p.detailIndent ++ (lit "role:" ++ (p.peerRole ++ (lit " peer-disk:" ++ p.peerDisk)))

/-- The lines of a peer. -/
def lines (p : PeerLines) : List PyStr :=
  [p.header, p.detail]

/-- The peer as the parser keeps it. -/
def toPeer (p : PeerLines) : Peer where
  peer := p.peer
  conn := p.conn
  peerRole := p.peerRole
  peerDisk := p.peerDisk

end PeerLines

namespace ResourceLines

/-- The lines of a resource. -/
def lines (r : ResourceLines) : List PyStr :=
  headerLine r.resource :: r.peers.flatMap PeerLines.lines

/-- The entries of a resource, one for each peer. -/
def entries (splitBrain : Bool) (r : ResourceLines) : List Row :=
  r.peers.map fun p => drbdEntry splitBrain r.resource p.toPeer

end ResourceLines

/-- The text of these resources; the last line may be terminated. -/
def rendered (rs : List ResourceLines) (terminated : Bool) : PyStr :=
  joinLines (rs.flatMap ResourceLines.lines) ++ if terminated then [lf] else []

section Splitting

/-- A front of one class is determined where the class ends. -/
theorem append_inj_of_class
    {p : CodePoint → Bool} {a b x y : PyStr} (h : a ++ x = b ++ y)
    (ha : ∀ c ∈ a, p c = true) (hb : ∀ c ∈ b, p c = true)
    (hx : x.head?.any p = false) (hy : y.head?.any p = false) :
    a = b ∧ x = y := by
  have hfront : ∀ {a x : PyStr}, (∀ c ∈ a, p c = true) → x.head?.any p = false →
      (a ++ x).takeWhile p = a := by
    intro a x ha hx
    rw [List.takeWhile_append_of_pos ha]
    cases x with
    | nil => rw [List.takeWhile_nil, List.append_nil]
    | cons c x => rw [List.takeWhile_cons_of_neg (by simpa using hx), List.append_nil]
  have hab : a = b := by
    rw [← hfront ha hx, h, hfront hb hy]
  exact ⟨hab, List.append_cancel_left (by rw [h, hab])⟩

variable {κ : Type} {g : Gx κ CodePoint} {m : Match κ CodePoint} {pre rest : PyStr}

/-- `\s+` reads white space up to something else. -/
theorem first_indent_seq
    (pre : PyStr) {blanks : PyStr} (hne : blanks ≠ []) (hblanks : ∀ c ∈ blanks, c.isSpace = true)
    (hrest : rest.head?.all (fun c => !c.isSpace) = true)
    (hm : g.first (blanks.reverse ++ pre) rest = some m) :
    (Gx.seq (.plain (Rx.plus space)) g).first pre (blanks ++ rest) =
      some (Match.append ⟨blanks, []⟩ m) := by
  have htake : (blanks ++ rest).takeWhile isSpace = blanks := by
    rw [List.takeWhile_append_of_pos hblanks]
    cases rest with
    | nil =>
        simp
    | cons c rest =>
        rw [List.takeWhile_cons_of_neg (by simpa using hrest), List.append_nil]
  have hhead : (blanks ++ rest).head?.any isSpace = true := by
    cases blanks with
    | nil =>
        exact absurd rfl hne
    | cons c cs =>
        simp [hblanks c (by simp)]
  have hspace : (Gx.plain (Rx.plus space) : Gx κ CodePoint).first pre (blanks ++ rest) =
      some ⟨(blanks ++ rest).takeWhile isSpace, []⟩ := Gx.first_plain_plus hhead pre
  rw [htake] at hspace
  refine Gx.first_seq hspace ?_
  rwa [List.drop_left]

/-- Where the expression has no word there is no match. -/
theorem first_none_of_lang
    (h : ∀ w v, rest = w ++ v → ¬ Rx.Lang g.erase pre w v) :
    g.first pre rest = none := by
  have hnone := (Rx.first_eq_none_iff g.erase pre rest).mpr h
  rw [← Gx.map_length_first, Option.map_eq_none_iff] at hnone
  exact hnone

/-- In front of a line stands its beginning. -/
theorem first_textStart_seq
    (hm : g.first [] rest = some m) :
    (Gx.seq (.plain Rx.textStart) g).first [] rest = some m := by
  have hstart : (Gx.plain Rx.textStart).first [] rest = some (⟨[], []⟩ : Match κ CodePoint) := by
    simp [Rx.first, Rx.textStart, Rx.ends]
  exact Gx.first_seq hstart hm

end Splitting

section Lines

/-- The texts of the peer headers and details begin with white space. -/
theorem resourceOf_indented
    {indent rest : PyStr} (h : IsIndent indent) :
    resourceOf (indent ++ rest) = none := by
  rw [resourceOf, Option.map_eq_none_iff]
  refine first_none_of_lang ?_
  intro w v hsplit hlang
  simp only [drbdResourceHeader, Gx.seqs, Gx.erase, Rx.lang_seq, Rx.textStart, Rx.lang_look,
    word, Miqm.oneOrMore, Rx.lang_plus_cls] at hlang
  obtain ⟨_, u, rfl, ⟨rfl, -⟩, x, y, rfl, ⟨hne, hall⟩, -⟩ := hlang
  obtain ⟨hindent, hspaces⟩ := h
  cases indent with
  | nil => exact absurd rfl hindent
  | cons c cs =>
      cases x with
      | nil => exact absurd rfl hne
      | cons d x =>
          obtain rfl : c = d := (List.cons.inj hsplit).1
          have hspace := (hspaces c (by simp)).1
          have hnospace := hall c (by simp)
          rw [hspace] at hnospace
          cases hnospace

theorem head?_word
    {w rest : PyStr} (hw : IsWord w) :
    (w ++ rest).head?.all (fun c => !c.isSpace) = true ∧ (w ++ rest).head?.any isSpace = false := by
  obtain ⟨hne, hall⟩ := hw
  cases w with
  | nil => exact absurd rfl hne
  | cons c w => simp [hall c (by simp)]

/-- A peer header is read as one. -/
theorem first_peerHeader (p : PeerLines) :
    ∃ m, drbdPeerHeader.first [] p.header = some m ∧ drbdText m .peer = p.peer ∧
      drbdText m .conn = p.conn := by
  obtain ⟨hpeer, hconn, -, -⟩ := p.words
  obtain ⟨hne, hspaces⟩ := p.indents.1
  have hend : ∀ pre, (Gx.seqs [.plain (Rx.star space), .plain (Rx.textEnd isNewline)]).first
      pre [] = some (⟨[], []⟩ : Match DrbdGroup CodePoint) := fun pre => rfl
  have hconn' := fun pre => first_word_seq .conn hconn rfl (hend (p.conn.reverse ++ pre))
  have hlabel := fun pre =>
    first_lit_seq "connection:" (hconn' ((lit "connection:").reverse ++ pre))
  have hblank := fun pre => first_blank_seq rfl (hlabel (ch ' ' :: pre))
  have hpeer' := fun pre => first_word_seq .peer hpeer rfl (hblank (p.peer.reverse ++ pre))
  have hindent := first_indent_seq [] hne (fun c hc => (hspaces c hc).1)
    (head?_word hpeer).1 (hpeer' _)
  have hline : p.header = p.indent ++ (p.peer ++ (ch ' ' :: (lit "connection:" ++
      (p.conn ++ [])))) := by
    rw [PeerLines.header, List.append_nil]
    rfl
  have hheader : drbdPeerHeader.first [] _ = some _ := first_textStart_seq hindent
  rw [hline]
  exact ⟨_, hheader, rfl, rfl⟩

/-- A peer detail is no peer header: its label is another one. -/
theorem first_peerHeader_detail (p : PeerLines) :
    drbdPeerHeader.first [] p.detail = none := by
  obtain ⟨-, -, hrole, hdisk⟩ := p.words
  refine first_none_of_lang ?_
  intro w v hsplit hlang
  simp only [drbdPeerHeader, Gx.seqs, Gx.erase, Rx.lang_seq, Rx.textStart, Rx.lang_look, word,
    Miqm.oneOrMore, Rx.lang_plus_cls, space, litRx, Rx.lang_word, fits_one_iff] at hlang
  obtain ⟨_, _, rfl, ⟨rfl, -⟩, a, _, rfl, ⟨hane, ha⟩, b, _, rfl, ⟨hbne, hb⟩, d, _, rfl,
    ⟨hdne, hd⟩, _, t, rfl, rfl, -⟩ := hlang
  have hlabel : IsWord (lit "role:" ++ p.peerRole) := by
    have hfixed : ∀ c ∈ lit "role:", c.isSpace = false := by decide
    refine ⟨List.append_ne_nil_of_left_ne_nil (by decide) _, fun c hc => ?_⟩
    exact (List.mem_append.mp hc).elim (hfixed c) (hrole.2 c)
  have hb' : IsWord b := ⟨hbne, fun c hc => by simpa using hb c hc⟩
  have hd' : (d ++ (lit "connection:" ++ (t ++ v))).head?.any (fun c => !c.isSpace) = false := by
    obtain ⟨c, d, rfl⟩ := List.exists_cons_of_ne_nil hdne
    simpa using hd c (by simp)
  have hline : p.detailIndent ++ ((lit "role:" ++ p.peerRole) ++
      ([ch ' '] ++ (lit "peer-disk:" ++ p.peerDisk))) =
        a ++ (b ++ (d ++ (lit "connection:" ++ (t ++ v)))) := by
    have hblank : [ch ' '] ++ (lit "peer-disk:" ++ p.peerDisk) =
        lit " peer-disk:" ++ p.peerDisk := rfl
    rw [hblank]
    simpa [PeerLines.detail, List.append_assoc] using hsplit
  obtain ⟨-, hline⟩ := append_inj_of_class (p := isSpace) hline
    (fun c hc => (p.indents.2.2 c hc).1) ha (head?_word hlabel).2 (head?_word hb').2
  obtain ⟨-, hline⟩ := append_inj_of_class (p := fun c => !c.isSpace) hline
    (fun c hc => by rw [hlabel.2 c hc]; rfl) hb rfl hd'
  obtain ⟨-, hline⟩ := append_inj_of_class (p := isSpace) hline (by decide) hd rfl rfl
  exact absurd (List.cons.inj hline).1 (by decide)

/-- A peer detail is read as one. -/
theorem first_peerDetail (p : PeerLines) :
    ∃ m, drbdPeerDetail.first [] p.detail = some m ∧ drbdText m .peerRole = p.peerRole ∧
      drbdText m .peerDisk = p.peerDisk := by
  obtain ⟨-, -, hrole, hdisk⟩ := p.words
  obtain ⟨hne, hspaces⟩ := p.indents.2
  have hend : ∀ pre, (Gx.seqs []).first pre [] = some (⟨[], []⟩ : Match DrbdGroup CodePoint) :=
    fun pre => rfl
  have hdisk' := fun pre => first_word_seq .peerDisk hdisk rfl (hend (p.peerDisk.reverse ++ pre))
  have hcolon := fun pre => first_lit_seq ":" (hdisk' ((lit ":").reverse ++ pre))
  have halt : ∀ (pre rest : PyStr),
      (Gx.plain (Rx.alt (litRx "peer-disk") (litRx "peer disk"))).first pre
        (lit "peer-disk" ++ rest) = some (⟨lit "peer-disk", []⟩ : Match DrbdGroup CodePoint) := by
    intro pre rest
    have hstarts : Rx.startsWith ((lit "peer-disk").map one) (lit "peer-disk" ++ rest) = true :=
      (Rx.startsWith_iff _ _).mpr ⟨_, rest, rfl, (fits_one_iff _ _).mpr rfl⟩
    rw [Gx.first_plain, Rx.first, Rx.ends, litRx, Rx.ends_word, if_pos hstarts, List.length_map]
    simp
  have hlabel := fun pre => Gx.first_seq (halt pre (lit ":" ++ (p.peerDisk ++ [])))
    (hcolon ((lit "peer-disk").reverse ++ pre))
  have hblank := fun pre => first_blank_seq rfl (hlabel (ch ' ' :: pre))
  have hrole' := fun pre => first_word_seq .peerRole hrole rfl (hblank (p.peerRole.reverse ++ pre))
  have hname := fun pre => first_lit_seq "role:" (hrole' ((lit "role:").reverse ++ pre))
  have hindent := first_indent_seq [] hne (fun c hc => (hspaces c hc).1) rfl (hname _)
  have hdetail : drbdPeerDetail.first [] _ = some _ := first_textStart_seq hindent
  have hline : p.detail = p.detailIndent ++ (lit "role:" ++ (p.peerRole ++ (ch ' ' ::
      (lit "peer-disk" ++ (lit ":" ++ (p.peerDisk ++ [])))))) := by
    rw [PeerLines.detail, List.append_nil]
    rfl
  rw [hline]
  exact ⟨_, hdetail, rfl, rfl⟩

end Lines

section Loop

variable (b : Bool)

/-- A header line stores the peer at hand and opens the next resource. -/
theorem drbdLine_header
    (st : DrbdState) (r : ResourceLines) :
    drbdLine b st (headerLine r.resource) =
      { out := flushPeer b st, currentResource := some r.resource } := by
  have hheader := resourceOf_headerLine r.words.1 r.words.2.1 r.words.2.2
  obtain ⟨r', hr', hstep⟩ | ⟨hno, -⟩ | ⟨hno, -⟩ := drbdLine_cases b st (headerLine r.resource)
  · obtain rfl := Option.some.inj (hheader.symm.trans hr')
    exact hstep
  · rw [hheader] at hno
    cases hno
  · rw [hheader] at hno
    cases hno

theorem first_header_indented
    {indent rest : PyStr} (h : IsIndent indent) :
    drbdResourceHeader.first [] (indent ++ rest) = none := by
  have hnone : resourceOf (indent ++ rest) = none := resourceOf_indented h
  rwa [resourceOf, Option.map_eq_none_iff] at hnone

/-- The two lines of a peer store the peer in front and keep this one. -/
theorem foldl_peer
    {st : DrbdState} {r : Resource} (hr : st.currentResource = some r) (p : PeerLines) :
    p.lines.foldl (drbdLine b) st =
      { out := flushPeer b st, currentResource := some r, pendingPeer := some p.toPeer } := by
  obtain ⟨m, hm, hpeer, hconn⟩ := first_peerHeader p
  obtain ⟨m', hm', hrole, hdisk⟩ := first_peerDetail p
  have hheader : drbdLine b st p.header =
      { out := flushPeer b st, currentResource := some r,
        pendingPeer := some { peer := p.peer, conn := p.conn } } := by
    rw [drbdLine, PeerLines.header, first_header_indented p.indents.1, ← PeerLines.header]
    simp only [hm, hr, hpeer, hconn]
  rw [PeerLines.lines, List.foldl_cons, List.foldl_cons, List.foldl_nil, hheader, drbdLine,
    PeerLines.detail, first_header_indented p.indents.2, ← PeerLines.detail]
  simp only [first_peerHeader_detail, hm', hrole, hdisk]
  rfl

/-- The peers of a resource are entered in their order. -/
theorem flushPeer_peers
    {st : DrbdState} {r : Resource} (hr : st.currentResource = some r) (ps : List PeerLines) :
    flushPeer b ((ps.flatMap PeerLines.lines).foldl (drbdLine b) st) =
      flushPeer b st ++ ps.map fun p => drbdEntry b r p.toPeer := by
  induction ps generalizing st with
  | nil =>
      simp
  | cons p ps ih =>
      rw [List.flatMap_cons, List.foldl_append, foldl_peer b hr, ih rfl]
      simp [flushPeer]

/-- The resources are entered in their order. -/
theorem flushPeer_resources
    (st : DrbdState) (rs : List ResourceLines) :
    flushPeer b ((rs.flatMap ResourceLines.lines).foldl (drbdLine b) st) =
      flushPeer b st ++ rs.flatMap (ResourceLines.entries b) := by
  induction rs generalizing st with
  | nil =>
      simp
  | cons r rs ih =>
      rw [List.flatMap_cons, List.foldl_append, ih, ResourceLines.lines, List.foldl_cons,
        drbdLine_header, flushPeer_peers b rfl, List.flatMap_cons, ResourceLines.entries]
      simp [flushPeer]

end Loop

section RoundTrip

/-- Words and indentation hold no line boundary. -/
theorem noBoundary_of_isWord
    {w : PyStr} (h : IsWord w) :
    ∀ c ∈ w, c.isLineBoundary = false := by
  intro c hc
  by_contra hbreak
  have hspace := isSpace_of_isLineBoundary (by simpa using hbreak)
  rw [h.2 c hc] at hspace
  cases hspace

theorem noBoundary_lines
    (rs : List ResourceLines) :
    ∀ l ∈ rs.flatMap ResourceLines.lines, ∀ c ∈ l, c.isLineBoundary = false := by
  intro l hl c hc
  obtain ⟨r, -, hl⟩ := List.mem_flatMap.mp hl
  have hlabels : ∀ s ∈ [" role:", " disk:", " connection:", "role:", " peer-disk:"],
      ∀ d ∈ lit s, d.isLineBoundary = false := by
    decide
  rcases List.mem_cons.mp hl with rfl | hl
  · obtain ⟨hname, hrole, hdisk⟩ := r.words
    simp only [headerLine, List.mem_append] at hc
    rcases hc with hc | hc | hc | hc | hc
    · exact noBoundary_of_isWord hname c hc
    · exact hlabels _ (by simp) c hc
    · exact noBoundary_of_isWord hrole c hc
    · exact hlabels _ (by simp) c hc
    · exact noBoundary_of_isWord hdisk c hc
  · obtain ⟨p, -, hl⟩ := List.mem_flatMap.mp hl
    obtain ⟨hpeer, hconn, hrole, hdisk⟩ := p.words
    obtain ⟨hindent, hindent'⟩ := p.indents
    rcases List.mem_pair.mp hl with rfl | rfl
    · simp only [PeerLines.header, List.mem_append] at hc
      rcases hc with hc | hc | hc | hc
      · exact (hindent.2 c hc).2
      · exact noBoundary_of_isWord hpeer c hc
      · exact hlabels _ (by simp) c hc
      · exact noBoundary_of_isWord hconn c hc
    · simp only [PeerLines.detail, List.mem_append] at hc
      rcases hc with hc | hc | hc | hc | hc
      · exact (hindent'.2 c hc).2
      · exact hlabels _ (by simp) c hc
      · exact noBoundary_of_isWord hrole c hc
      · exact hlabels _ (by simp) c hc
      · exact noBoundary_of_isWord hdisk c hc

/-- An empty line behind some lines terminates the last of them. -/
theorem joinLines_concat_nil
    {ls : List PyStr} (hne : ls ≠ []) :
    joinLines (ls ++ [[]]) = joinLines ls ++ [lf] := by
  induction ls with
  | nil =>
      exact absurd rfl hne
  | cons l ls ih =>
      cases ls with
      | nil =>
          rw [List.singleton_append, joinLines_cons, joinLines_cons]
          simp [tailOf, joinLines]
      | cons l' ls =>
          have hrest := ih (by simp)
          rw [List.cons_append] at hrest
          rw [List.cons_append, List.cons_append, joinLines_cons, tailOf, hrest,
            joinLines_cons l (l' :: ls), tailOf]
          simp

/-- The loop reads the lines of the text, terminated or not. -/
theorem foldl_rendered
    (b : Bool) (rs : List ResourceLines) (terminated : Bool) (st : DrbdState) :
    (splitlines (rendered rs terminated)).foldl (drbdLine b) st =
      (rs.flatMap ResourceLines.lines).foldl (drbdLine b) st := by
  have hlines := noBoundary_lines rs
  unfold rendered
  generalize rs.flatMap ResourceLines.lines = ls at hlines ⊢
  cases terminated with
  | false =>
      rw [if_neg (by simp), List.append_nil, foldl_splitlines b hlines]
  | true =>
      rw [if_pos rfl]
      by_cases hnil : ls = []
      · rw [hnil]
        exact drbdLine_nil b st
      · have hall : ∀ l ∈ ls ++ [[]], ∀ c ∈ l, c.isLineBoundary = false := by
          intro l hl
          rcases List.mem_append.mp hl with hl | hl
          · exact hlines l hl
          · simp [List.mem_singleton.mp hl]
        rw [← joinLines_concat_nil hnil, foldl_splitlines b hall, List.foldl_append]
        exact drbdLine_nil b _

/-- The entries of a rendered text, whatever the flag. -/
theorem parseDrbd_of_search
    {rs : List ResourceLines} {terminated : Bool}
    (hclean : drbdSplitBrain.search (rendered rs terminated) = false) :
    parseDrbd (rendered rs terminated) = rs.flatMap (ResourceLines.entries false) := by
  have hloop := foldl_rendered false rs terminated {}
  have hentries : flushPeer false ((splitlines (rendered rs terminated)).foldl
      (drbdLine false) {}) = rs.flatMap (ResourceLines.entries false) := by
    rw [hloop, flushPeer_resources]
    rfl
  rw [parseDrbd]
  split_ifs with hnil
  · rw [hnil] at hentries
    exact hentries
  · dsimp only
    rw [hclean, hentries, if_neg (by simp)]

/--
The parser undoes the rendering: without split-brain text it returns one entry for each
peer of each resource, in their order.
-/
theorem parseDrbd_rendered
    (rs : List ResourceLines) (terminated : Bool)
    (hclean : ¬ drbdSplitBrain.HasMatch (rendered rs terminated)) :
    parseDrbd (rendered rs terminated) = rs.flatMap (ResourceLines.entries false) := by
  rw [← Rx.search_iff_hasMatch, Bool.not_eq_true] at hclean
  exact parseDrbd_of_search hclean

/-- The indentation that `drbdadm status` prints. -/
theorem isIndent_blanks :
    IsIndent (lit "  ") ∧ IsIndent (lit "    ") := by
  unfold IsIndent
  decide

/-- A resource with two peers, indented with blanks and with a tab. -/
def twoPeers : ResourceLines where
  resource := ⟨lit "qm1", lit "Primary", lit "UpToDate"⟩
  peers :=
    [ { peer := lit "rdqm-2", conn := lit "Connected", peerRole := lit "Secondary"
        peerDisk := lit "UpToDate", indent := lit "  ", detailIndent := lit "    "
        words := by unfold IsWord; decide
        indents := isIndent_blanks },
      { peer := lit "rdqm-3", conn := lit "StandAlone", peerRole := lit "Unknown"
        peerDisk := lit "DUnknown", indent := lit "\t", detailIndent := lit " "
        words := by unfold IsWord; decide
        indents := by unfold IsIndent; decide } ]
  words := by unfold IsWord; decide

theorem parseDrbd_twoPeers :
    parseDrbd (rendered [twoPeers] true) = twoPeers.entries false := by
  refine (parseDrbd_rendered [twoPeers] true ?_).trans (by simp)
  rw [← Rx.search_iff_hasMatch]
  decide +kernel

end RoundTrip

end Rdqm
end MqSentinel
