import MqSentinel.DrbdRendering

/-!
# Listings of instances

`dspmq -x` prints each instance on a line of its own: the queue manager, the status, and
then `INSTANCE` and `MODE` in some order.  The pattern takes both, but the host only in
front of the mode.  Behind the mode it stays unread, and the entry has no host.
-/

namespace MqSentinel
namespace Miqm

open Regex CodePoint
open Rdqm (IsWord IsIndent joinLines first_fits_seq first_lit_seq first_lit_none first_indent_seq
  first_none_of_lang append_inj_of_class)

/-- An instance and how its line is printed. -/
structure Instance where
  qm : PyStr
  status : PyStr
  host : PyStr
  mode : PyStr
  /-- `INSTANCE` is printed in front of `MODE`. -/
  hostFirst : Bool
  statusGap : PyStr
  firstGap : PyStr
  lastGap : PyStr
  words : IsWord qm ∧ IsWord host ∧ IsWord mode
  status_ne : status ≠ []
  gaps : IsIndent statusGap ∧ IsIndent firstGap ∧ IsIndent lastGap

/-- `NAME(value)` -/
def printed (name : String) (value : PyStr) : PyStr :=
  lit (name ++ "(") ++ (value ++ lit ")")

namespace Instance

/-- `INSTANCE(h)` and `MODE(m)`, in the order in which they are printed. -/
def fields (i : Instance) : PyStr :=
  if i.hostFirst then
    i.firstGap ++ (printed "INSTANCE" i.host ++ (i.lastGap ++ printed "MODE" i.mode))
  else
    i.firstGap ++ (printed "MODE" i.mode ++ (i.lastGap ++ printed "INSTANCE" i.host))

/-- The line of an instance. -/
def line (i : Instance) : PyStr :=
  printed "QMNAME" i.qm ++ (i.statusGap ++ (printed "STATUS" i.status ++ i.fields))

end Instance

/-- The listing of these instances; the last line may be terminated. -/
def listing (xs : List Instance) (terminated : Bool) : PyStr :=
  joinLines (xs.map Instance.line) ++ if terminated then [lf] else []

/-- A status that can be told from its line. -/
def Legible (status : PyStr) : Prop :=
  ch ')' ∉ status ∧ strip status = status

instance (status : PyStr) : Decidable (Legible status) :=
  inferInstanceAs (Decidable (_ ∧ _))

section Reading

variable {g : Gx Group CodePoint} {m : Line} {rest : PyStr}

theorem first_opt
    (g : Gx Group CodePoint) (pre post : PyStr) :
    (Gx.opt g).first pre post = (g.first pre post).or (some ⟨[], []⟩) := by
  rw [Gx.first, Gx.captures, List.head?_append]
  rfl

/-- A word up to the bracket that ends it. -/
theorem first_enclosed_seq
    (k : Group) (pre : PyStr) {w : PyStr} (hw : IsWord w)
    (hrest : rest.head?.all isSpace = true)
    (hm : g.first (ch ')' :: (w.reverse ++ pre)) rest = some m) :
    (Gx.seq (.group k (oneOrMore fun c => !c.isSpace)) (Gx.seq (.plain (litRx ")")) g)).first pre
        (w ++ (lit ")" ++ rest)) =
      some (Match.append ⟨w, [(k, w)]⟩ (Match.append ⟨lit ")", []⟩ m)) := by
  have hnobracket : ¬ lit ")" <+: rest := by
    rintro ⟨tail, rfl⟩
    have hspace : (ch ')').isSpace = true := hrest
    exact absurd hspace (by decide)
  have hlong : (Gx.seq (.plain (litRx ")")) g).captures (ch ')' :: (w.reverse ++ pre)) rest =
      [] := by
    have hnone := first_lit_none ")" g (ch ')' :: (w.reverse ++ pre)) hnobracket
    rwa [Gx.first, List.head?_eq_none_iff] at hnone
  have hend : rest.head?.any (fun c => !c.isSpace) = false := by
    cases rest with
    | nil =>
        rfl
    | cons c rest =>
        simpa using hrest
  have hword : ∀ c ∈ w, (!c.isSpace) = true := by
    intro c hc
    rw [hw.2 c hc]
    rfl
  exact Gx.first_group_plus_back hw.1 hword (by decide) hend k pre hlong
    (first_lit_seq ")" hm)

/-- The status up to the bracket that ends it. -/
theorem first_status_seq
    (pre : PyStr) {s : PyStr} (hne : s ≠ []) (hs : ch ')' ∉ s)
    (hm : g.first (ch ')' :: (s.reverse ++ pre)) rest = some m) :
    (Gx.seq (.group .status (oneOrMore fun c => c != ch ')'))
        (Gx.seq (.plain (litRx ")")) g)).first pre (s ++ (lit ")" ++ rest)) =
      some (Match.append ⟨s, [(.status, s)]⟩ (Match.append ⟨lit ")", []⟩ m)) := by
  have hall : ∀ c ∈ s, (c != ch ')') = true := by
    intro c hc
    simpa using fun heq : c = ch ')' => hs (heq ▸ hc)
  have htake : (s ++ (lit ")" ++ rest)).takeWhile (fun c => c != ch ')') = s := by
    rw [List.takeWhile_append_of_pos hall]
    change s ++ (ch ')' :: rest).takeWhile (fun c => c != ch ')') = s
    rw [List.takeWhile_cons_of_neg (by simp), List.append_nil]
  have hhead : (s ++ (lit ")" ++ rest)).head?.any (fun c => c != ch ')') = true := by
    cases s with
    | nil =>
        exact absurd rfl hne
    | cons c s =>
        simpa using hall c (by simp)
  have hgroup := Gx.first_group_plus hhead Group.status pre
  rw [htake] at hgroup
  refine Gx.first_seq hgroup ?_
  rw [List.drop_left]
  exact first_lit_seq ")" hm

/-- A printed field is read in full. -/
theorem first_field
    (name : String) (hname : (lit (name ++ "(")).head?.any (fun c => !c.isSpace) = true)
    (k : Group) (pre : PyStr) {gap w : PyStr} (hgap : IsIndent gap) (hw : IsWord w)
    (hrest : rest.head?.all isSpace = true) :
    (field name k).first pre (gap ++ printed name w ++ rest) =
      some ⟨gap ++ printed name w, [(k, w)]⟩ := by
  have hend : ∀ pre post, (Gx.seqs []).first pre post = some (⟨[], []⟩ : Line) :=
    fun _ _ => rfl
  have hblanks : ∀ c ∈ gap, c.isSpace = true := fun c hc => (hgap.2 c hc).1
  have hvalue := fun pre => first_enclosed_seq k pre hw hrest
    (hend (ch ')' :: (w.reverse ++ pre)) rest)
  have hlabel := fun pre =>
    first_fits_seq ((fits_ci_iff (lit (name ++ "(")) _).mpr rfl)
      (hvalue ((lit (name ++ "(")).reverse ++ pre))
  have hhead : (lit (name ++ "(") ++ (w ++ (lit ")" ++ rest))).head?.all (fun c => !c.isSpace) =
      true := by
    cases hlit : lit (name ++ "(") with
    | nil =>
        rw [hlit] at hname
        cases hname
    | cons c cs =>
        rw [hlit] at hname
        exact hname
  have hfield : (field name k).first pre (gap ++ (lit (name ++ "(") ++ (w ++ (lit ")" ++ rest)))) =
      _ := first_indent_seq pre hgap.1 hblanks hhead (hlabel (gap.reverse ++ pre))
  simpa [printed, Match.append] using hfield

/-- A mode is not taken for a host. -/
theorem first_host_none
    (pre : PyStr) {gap : PyStr} (hgap : IsIndent gap) (w rest : PyStr) :
    (field "INSTANCE" .host).first pre (gap ++ (printed "MODE" w ++ rest)) = none := by
  refine first_none_of_lang ?_
  intro x y hsplit hlang
  simp only [field, Gx.seqs, Gx.erase, Rx.lang_seq, oneOrMore, Rx.lang_plus_cls, ciRx,
    Rx.lang_word, fits_ci_iff] at hlang
  obtain ⟨a, x', rfl, ⟨-, ha⟩, b, x'', rfl, hb, -⟩ := hlang
  cases b with
  | nil =>
      exact absurd hb (by decide)
  | cons c b =>
      have hc : c.reFold = ch 'i' := (List.cons.inj hb).1
      have hspace : c.isSpace = false := by
        rw [Bool.eq_false_iff]
        intro hspace
        rw [reFold_of_isSpace hspace] at hc
        rw [hc] at hspace
        exact absurd hspace (by decide)
      have hsplit' : gap ++ (ch 'M' :: (lit "ODE(" ++ (w ++ lit ")") ++ rest)) =
          a ++ (c :: (b ++ (x'' ++ y))) := by
        have happend : a ++ (c :: b ++ x'') ++ y = a ++ (c :: (b ++ (x'' ++ y))) := by simp
        rw [← happend]
        exact hsplit
      obtain ⟨-, htail⟩ := append_inj_of_class hsplit' (fun d hd => (hgap.2 d hd).1) ha
        (by rfl) (by simpa using hspace)
      obtain ⟨rfl, -⟩ := List.cons.inj htail
      exact absurd hc (by decide)

theorem first_opt_seq
    {f : Gx Group CodePoint} {w : PyStr} {groups : List (Group × PyStr)} (pre : PyStr)
    (hf : f.first pre (w ++ rest) = some ⟨w, groups⟩)
    (hm : g.first (w.reverse ++ pre) rest = some m) :
    (Gx.seq (.opt f) g).first pre (w ++ rest) = some (Match.append ⟨w, groups⟩ m) := by
  have hopt : (Gx.opt f).first pre (w ++ rest) = some ⟨w, groups⟩ := by
    rw [first_opt, hf]
    rfl
  refine Gx.first_seq hopt ?_
  rwa [List.drop_left]

theorem first_opt_seq_none
    {f : Gx Group CodePoint} (pre : PyStr) (hf : f.first pre rest = none)
    (hm : g.first pre rest = some m) :
    (Gx.seq (.opt f) g).first pre rest = some m := by
  have hopt : (Gx.opt f).first pre rest = some (⟨[], []⟩ : Line) := by
    rw [first_opt, hf]
    rfl
  exact Gx.first_seq hopt hm

/-- Between two lines nothing is read. -/
theorem first_lf
    (pre rest : PyStr) :
    instanceLine.first pre (lf :: rest) = none := by
  refine Gx.first_seq_none fun x hx => ?_
  obtain ⟨n, hn, rfl⟩ := List.mem_map.mp hx
  obtain ⟨v, b, hsplit, rfl, hv⟩ := (Rx.mem_ends_iff _ pre _ n).mp hn
  rw [ciRx, Rx.lang_word, fits_ci_iff] at hv
  cases v with
  | nil =>
      exact absurd hv (by decide)
  | cons c v =>
      obtain ⟨rfl, -⟩ := List.cons.inj hsplit
      have hhead := congrArg List.head? hv
      exact absurd hhead (by simp; decide)

end Reading

section Lines

variable {rest : PyStr}

/-- The part of the pattern behind the status. -/
def fieldsRx : Gx Group CodePoint :=
  Gx.seqs [ .opt (field "INSTANCE" .host), .opt (field "MODE" .mode) ]

/-- The rest of a line as the pattern reads it. -/
def Instance.readFields (i : Instance) : Line :=
  if i.hostFirst then ⟨i.fields, [(.host, i.host), (.mode, i.mode)]⟩
  else ⟨i.firstGap ++ printed "MODE" i.mode, [(.mode, i.mode)]⟩

/-- White space in front of something. -/
theorem head_indent
    {gap : PyStr} (hgap : IsIndent gap) (rest : PyStr) :
    (gap ++ rest).head?.all isSpace = true := by
  obtain ⟨hne, hall⟩ := hgap
  cases gap with
  | nil =>
      exact absurd rfl hne
  | cons c gap =>
      exact (hall c (by simp)).1

theorem first_fieldsRx
    (i : Instance) (pre : PyStr) (hrest : rest.head?.all isSpace = true) :
    fieldsRx.first pre (i.fields ++ rest) = some i.readFields := by
  obtain ⟨-, hhost, hmode⟩ := i.words
  obtain ⟨-, hfirst, hlast⟩ := i.gaps
  have hend : ∀ pre post, (Gx.seqs []).first pre post = some (⟨[], []⟩ : Line) :=
    fun _ _ => rfl
  cases horder : i.hostFirst with
  | true =>
      have hbehind := head_indent hlast (printed "MODE" i.mode ++ rest)
      rw [← List.append_assoc] at hbehind
      have hreadMode := fun pre => first_opt_seq pre
        (first_field "MODE" (by decide) .mode pre hlast hmode hrest) (hend _ rest)
      have hread := first_opt_seq pre
        (first_field "INSTANCE" (by decide) .host pre hfirst hhost hbehind)
        (hreadMode _)
      rw [Instance.readFields, Instance.fields, if_pos horder, if_pos horder]
      simpa [fieldsRx, Gx.seqs, Match.append] using hread
  | false =>
      have hbehind := head_indent hlast (printed "INSTANCE" i.host ++ rest)
      have hreadMode := first_opt_seq pre
        (first_field "MODE" (by decide) .mode pre hfirst hmode hbehind) (hend _ _)
      have hread := first_opt_seq_none pre
        (first_host_none pre hfirst i.mode (i.lastGap ++ (printed "INSTANCE" i.host ++ rest)))
        (by rw [← List.append_assoc]; exact hreadMode)
      rw [Instance.readFields, Instance.fields, horder, if_neg (by decide), if_neg (by decide)]
      simpa [fieldsRx, Gx.seqs, Match.append] using hread

/-- What the pattern takes from a line. -/
def Instance.readLine (i : Instance) : Line :=
  Match.append
    ⟨printed "QMNAME" i.qm ++ (i.statusGap ++ printed "STATUS" i.status),
      [(.qm, i.qm), (.status, i.status)]⟩ i.readFields

/-- A line is read from its start. -/
theorem first_line
    (i : Instance) (hstatus : ch ')' ∉ i.status) (pre : PyStr)
    (hrest : rest.head?.all isSpace = true) :
    instanceLine.first pre (i.line ++ rest) = some i.readLine := by
  obtain ⟨hqm, -, -⟩ := i.words
  obtain ⟨hgap, -, -⟩ := i.gaps
  have hread := fun pre => first_status_seq pre i.status_ne hstatus
    (first_fieldsRx i (ch ')' :: (i.status.reverse ++ pre)) hrest)
  have hlabel := fun pre =>
    first_fits_seq ((fits_ci_iff (lit "STATUS(") _).mpr rfl)
      (hread ((lit "STATUS(").reverse ++ pre))
  have hspace := fun pre => first_indent_seq pre hgap.1 (fun c hc => (hgap.2 c hc).1) (by rfl)
    (hlabel (i.statusGap.reverse ++ pre))
  have hname := fun pre => first_enclosed_seq .qm pre hqm (head_indent hgap _)
    (hspace (ch ')' :: (i.qm.reverse ++ pre)))
  have hline : instanceLine.first pre (lit "QMNAME(" ++ _) = _ :=
    first_fits_seq ((fits_ci_iff (lit "QMNAME(") _).mpr rfl)
      (hname ((lit "QMNAME(").reverse ++ pre))
  simpa [Instance.line, Instance.readLine, printed, Match.append] using hline

theorem text_readLine (i : Instance) :
    text i.readLine .qm = i.qm ∧ text i.readLine .status = i.status ∧
      text i.readLine .mode = i.mode ∧
      text i.readLine .host = if i.hostFirst then i.host else [] := by
  rw [Instance.readLine, Instance.readFields]
  cases i.hostFirst with
  | true =>
      exact ⟨rfl, rfl, rfl, rfl⟩
  | false =>
      exact ⟨rfl, rfl, rfl, rfl⟩

theorem word_readLine
    {i : Instance} (h : i.hostFirst = true) :
    i.readLine.word = i.line := by
  simp [Instance.readLine, Instance.readFields, h, Match.append, Instance.line]

/-- The pass finds a line, and goes on behind it when it was read in full. -/
theorem findIterFrom_line
    (i : Instance) (hstatus : ch ')' ∉ i.status) (pre : PyStr)
    (hrest : rest.head?.all isSpace = true) :
    ∃ ms, Gx.findIterFrom instanceLine pre 0 (i.line ++ rest) = i.readLine :: ms ∧
      (i.hostFirst = true →
        ms = Gx.findIterFrom instanceLine (i.line.reverse ++ pre) 0 rest) := by
  have hfirst := first_line i hstatus pre hrest
  have hfull := word_readLine (i := i)
  obtain ⟨c, line, hline⟩ : ∃ c line, i.line = c :: line := ⟨ch 'Q', _, rfl⟩
  obtain ⟨d, w, groups, hread⟩ : ∃ d w groups, i.readLine = ⟨d :: w, groups⟩ :=
    ⟨ch 'Q', _, _, rfl⟩
  rw [hline, hread] at hfull hfirst
  rw [hline, hread, List.cons_append, Gx.findIterFrom]
  rw [List.cons_append] at hfirst
  rw [hfirst]
  refine ⟨_, rfl, fun horder => ?_⟩
  obtain ⟨-, rfl⟩ := List.cons.inj (hfull horder)
  rw [Gx.findIterFrom_skip]
  simp

end Lines

section Listing

variable (U : UnicodeData)

/-- The entry of an instance in full: name, status, host, and the upper-cased mode. -/
def Reads (row : Row) (i : Instance) : Prop :=
  row.get? (lit "qm_name") = some (.str i.qm) ∧
    row.get? (lit "status") = some (.str i.status) ∧
    row.get? (lit "host") = some (.str i.host) ∧
    row.get? (lit "instance_type") = some (.str (U.upperStr i.mode))

/-- No character disappears in upper case. -/
theorem upperStr_ne_nil
    {s : PyStr} (hs : s ≠ []) :
    U.upperStr s ≠ [] := by
  cases s with
  | nil =>
      exact absurd rfl hs
  | cons c s =>
      have hupper : U.upper c ≠ [] := by
        intro hnil
        rcases U.upper_cases c with h | ⟨-, ⟨d, hd, -⟩ | h⟩
        · rw [hnil] at h
          cases h
        · rw [hnil] at hd
          cases hd
        · rw [hnil] at h
          exact absurd h (by decide)
      simp [UnicodeData.upperStr, hupper]

/-- An entry is complete when the host was in front of the mode. -/
theorem reads_readLine_iff
    (i : Instance) (hstatus : strip i.status = i.status) :
    Reads U (instanceRow U i.readLine) i ↔ i.hostFirst = true := by
  obtain ⟨hqm, hstat, hmode, hhost⟩ := text_readLine i
  obtain ⟨-, ⟨hhostNe, -⟩, hmodeNe, -⟩ := i.words
  have hname : (instanceRow U i.readLine).get? (lit "qm_name") = some (.str i.qm) := by
    rw [← hqm]
    exact instanceRow_get? U i.readLine (by simp)
  have hstatus' : (instanceRow U i.readLine).get? (lit "status") = some (.str i.status) := by
    rw [instanceRow_get? U i.readLine (v := .str (strip (text i.readLine .status))) (by simp),
      hstat, hstatus]
  have htype : (instanceRow U i.readLine).get? (lit "instance_type") =
      some (.str (U.upperStr i.mode)) := by
    have hupper : instanceType U i.readLine = U.upperStr i.mode := by
      rw [instanceType, hmode]
      split
      · rename_i hnil
        exact absurd hnil (upperStr_ne_nil U hmodeNe)
      · rfl
    rw [← hupper]
    exact instanceRow_get? U i.readLine (by simp)
  have hhost' : (instanceRow U i.readLine).get? (lit "host") =
      some (.str (if i.hostFirst then i.host else [])) := by
    rw [← hhost]
    exact instanceRow_get? U i.readLine (by simp)
  rw [Reads, hname, hstatus', htype, hhost']
  cases i.hostFirst with
  | true =>
      simp
  | false =>
      simp [Ne.symm hhostNe]

/-- The listing behind a line. -/
def behind (xs : List Instance) (terminated : Bool) : PyStr :=
  xs.flatMap (fun i => lf :: i.line) ++ if terminated then [lf] else []

theorem listing_cons
    (i : Instance) (xs : List Instance) (terminated : Bool) :
    listing (i :: xs) terminated = i.line ++ behind xs terminated := by
  have hjoin : ∀ (i : Instance) (xs : List Instance),
      joinLines (i.line :: xs.map Instance.line) =
        i.line ++ xs.flatMap (fun i => lf :: i.line) := by
    intro i xs
    induction xs generalizing i with
    | nil =>
        simp [joinLines]
    | cons x xs ih =>
        rw [List.map_cons, Rdqm.joinLines_cons, Rdqm.tailOf, ih x]
        rfl
  rw [listing, List.map_cons, hjoin, behind, List.append_assoc]

theorem head_behind
    (xs : List Instance) (terminated : Bool) :
    (behind xs terminated).head?.all isSpace = true := by
  cases xs with
  | nil =>
      cases terminated with
      | true =>
          rfl
      | false =>
          rfl
  | cons i xs =>
      rfl

/-- The entries found from a place on, one for each of the instances listed from there. -/
def ReadsFrom (pre text : PyStr) (xs : List Instance) : Prop :=
  List.Forall₂ (fun m i => Reads U (instanceRow U m) i)
    (Gx.findIterFrom instanceLine pre 0 text) xs

theorem reads_parseInstances_iff
    (raw : PyStr) (xs : List Instance) :
    List.Forall₂ (Reads U) (parseInstances U raw) xs ↔ ReadsFrom U [] raw xs := by
  rw [parseInstances_eq, List.forall₂_map_left_iff]
  rfl

/-- One line: it must have the host in front, and the lines behind it are read alone. -/
theorem readsFrom_line_iff
    {i : Instance} {xs : List Instance} (hi : Legible i.status) (pre : PyStr)
    (terminated : Bool) :
    ReadsFrom U pre (i.line ++ behind xs terminated) (i :: xs) ↔
      i.hostFirst = true ∧
        ReadsFrom U (i.line.reverse ++ pre) (behind xs terminated) xs := by
  obtain ⟨ms, hfound, hrest⟩ := findIterFrom_line i hi.1 pre (head_behind xs terminated)
  rw [ReadsFrom, hfound, List.forall₂_cons, reads_readLine_iff U i hi.2]
  refine and_congr_right fun horder => ?_
  rw [hrest horder, ReadsFrom]

/-- The lines behind a line: by induction on their number. -/
theorem readsFrom_behind_iff
    {xs : List Instance} (hlegible : ∀ i ∈ xs, Legible i.status) (terminated : Bool)
    (pre : PyStr) :
    ReadsFrom U pre (behind xs terminated) xs ↔ ∀ i ∈ xs, i.hostFirst = true := by
  induction xs generalizing pre with
  | nil =>
      have hnone : Gx.findIterFrom instanceLine pre 0 (behind [] terminated) = [] := by
        cases terminated with
        | true =>
            change Gx.findIterFrom instanceLine pre 0 [lf] = []
            rw [Gx.findIterFrom, first_lf]
            rfl
        | false =>
            rfl
      simp [ReadsFrom, hnone]
  | cons i xs ih =>
      obtain ⟨hi, hxs⟩ := List.forall_mem_cons.mp hlegible
      have hskip : ReadsFrom U pre (behind (i :: xs) terminated) (i :: xs) ↔
          ReadsFrom U (lf :: pre) (i.line ++ behind xs terminated) (i :: xs) := by
        have htext : behind (i :: xs) terminated = lf :: (i.line ++ behind xs terminated) := by
          simp [behind]
        rw [ReadsFrom, ReadsFrom, htext, Gx.findIterFrom, first_lf]
      rw [hskip, readsFrom_line_iff U hi, ih hxs, List.forall_mem_cons]

theorem strip_strip (s : PyStr) :
    strip (strip s) = strip s := by
  have hfront : lstrip (strip s) = strip s := by
    refine List.dropWhile_eq_self_iff.mpr fun hlen => ?_
    obtain ⟨t, ht⟩ : strip s <+: lstrip s := List.rdropWhile_prefix isSpace _
    have hne : lstrip s ≠ [] := by
      rw [← ht]
      simp [List.ne_nil_of_length_pos hlen]
    have hhead : ((lstrip s).head hne).isSpace = false := List.head_dropWhile_not isSpace hne
    have hsame : (strip s)[0] = (lstrip s).head hne := by
      simp [← ht, List.head_append_of_ne_nil (List.ne_nil_of_length_pos hlen),
        List.head_eq_getElem]
    rw [hsame, hhead]
    decide
  rw [strip, hfront]
  exact List.rdropWhile_idempotent isSpace _

/-- A status that was read is legible. -/
theorem legible_of_reads
    {raw : PyStr} {m : Line} (hm : m ∈ instanceLines raw) {i : Instance}
    (h : Reads U (instanceRow U m) i) :
    Legible i.status := by
  have hread : (instanceRow U m).get? (lit "status") =
      some (.str (strip (text m .status))) := instanceRow_get? U m (by simp)
  have hstatus : i.status = strip (text m .status) := by
    have heq := h.2.1.symm.trans hread
    simpa using heq
  have hclass := class_of_mem_text hm (k := .status) (p := fun c => c != ch ')')
    (by simp [instanceLine, field, Gx.seqs, Gx.named])
  refine ⟨fun hbracket => ?_, by rw [hstatus, strip_strip]⟩
  rw [hstatus] at hbracket
  have hmem : ch ')' ∈ text m .status :=
    (List.dropWhile_suffix isSpace).subset ((List.rdropWhile_prefix isSpace _).subset hbracket)
  exact absurd (hclass _ hmem) (by decide)

theorem exists_of_forall₂
    {α β : Type} {R : α → β → Prop} {xs : List α} {ys : List β}
    (h : List.Forall₂ R xs ys) :
    ∀ y ∈ ys, ∃ x ∈ xs, R x y := by
  induction h with
  | nil =>
      simp
  | cons hxy _ ih =>
      intro y hy
      rcases List.mem_cons.mp hy with rfl | hy
      · exact ⟨_, by simp, hxy⟩
      · obtain ⟨x, hx, hR⟩ := ih y hy
        exact ⟨x, List.mem_cons_of_mem _ hx, hR⟩

theorem readsFrom_listing_iff
    {xs : List Instance} (hlegible : ∀ i ∈ xs, Legible i.status) (terminated : Bool) :
    ReadsFrom U [] (listing xs terminated) xs ↔ ∀ i ∈ xs, i.hostFirst = true := by
  cases xs with
  | nil =>
      have htext : listing [] terminated = behind [] terminated := rfl
      rw [htext, readsFrom_behind_iff U hlegible]
  | cons i xs =>
      obtain ⟨hi, hxs⟩ := List.forall_mem_cons.mp hlegible
      rw [listing_cons, readsFrom_line_iff U hi, readsFrom_behind_iff U hxs,
        List.forall_mem_cons]

/--
Every instance of a listing is read in full if and only if every line prints the host in
front of the mode and has a legible status.
-/
theorem every_instance_read_iff
    (xs : List Instance) (terminated : Bool) :
    List.Forall₂ (Reads U) (parseInstances U (listing xs terminated)) xs ↔
      ∀ i ∈ xs, i.hostFirst = true ∧ Legible i.status := by
  rw [reads_parseInstances_iff]
  constructor
  · intro h i hi
    have hlegible : ∀ i ∈ xs, Legible i.status := by
      intro i hi
      obtain ⟨m, hm, hread⟩ := exists_of_forall₂ h i hi
      exact legible_of_reads U hm hread
    exact ⟨(readsFrom_listing_iff U hlegible terminated).mp h i hi, hlegible i hi⟩
  · intro h
    exact (readsFrom_listing_iff U (fun i hi => (h i hi).2) terminated).mpr
      fun i hi => (h i hi).1

end Listing

section Witness

/-- The first line of the listing of the demonstration, where the mode stands in front. -/
def demoInstance : Instance where
  qm := lit "DEMO_QM"
  status := lit "Running"
  host := lit "host1"
  mode := lit "Active"
  hostFirst := false
  statusGap := lit "  "
  firstGap := lit " "
  lastGap := lit "        "
  words := by unfold IsWord; decide
  status_ne := by decide
  gaps := by unfold IsIndent; decide

/-- Its host is lost. -/
theorem host_behind_mode_lost :
    ¬ List.Forall₂ (Reads UnicodeData.basic)
      (parseInstances UnicodeData.basic (listing [demoInstance] true)) [demoInstance] := by
  have hlegible : ∀ i ∈ [demoInstance], Legible i.status := by
    intro i hi
    rw [List.mem_singleton.mp hi]
    decide
  rw [reads_parseInstances_iff, readsFrom_listing_iff _ hlegible]
  intro h
  exact absurd (h demoInstance (by simp)) (by decide)

end Witness

end Miqm
end MqSentinel
