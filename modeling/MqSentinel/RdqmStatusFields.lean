import MqSentinel.RdqmParsers

/-!
# The fields of `rdqmstatus`

Every field of `_parse_rdqmstatus` is searched with a label, a colon, `\s+` and the value.
The white space may be a line end: behind a label without a value the search goes on into
the lines that follow and takes what it finds there.
-/

namespace MqSentinel
namespace Rdqm

open Regex Rcs CodePoint

/-- The first word of a text, or nothing. -/
def firstWord (s : PyStr) : PyStr :=
  (lstrip s).takeWhile fun c => !c.isSpace

/-- The rest of the first line, behind white space. -/
def restOf (s : PyStr) : PyStr :=
  strip ((lstrip s).takeWhile fun c => !isNewline c)

/-- The lines of a reply, as `^` sees them. -/
def lines (raw : PyStr) : List PyStr :=
  raw.splitOn lf

/-- The lines joined again. -/
def joinLines (ls : List PyStr) : PyStr :=
  [lf].intercalate ls

section Labels

/-- `Queue manager name` -/
def isQmName (w : PyStr) : Bool :=
  w == lit "Queue manager name"

/-- One of these labels, in any letter case. -/
def isOneOf (labels : List String) (w : PyStr) : Bool :=
  labels.any fun label => w.map reFold == (lit label).map reFold

/-- The labels of the field `ha_state`. -/
def stateLabels : List String :=
  ["HA current status", "HA status", "current status", "status"]

/-- The labels of the field `running_node`. -/
def runningLabels : List String :=
  ["Running on", "Current node"]

/-- The label of the field `preferred_location`. -/
def preferredLabels : List String :=
  ["Preferred location"]

/-- What stands behind the label and its colon, on a line with such a label. -/
def valueOn (isLabel : PyStr → Bool) (line : PyStr) : Option PyStr :=
  match line.dropWhile (· != ch ':') with
  | [] => none
  | _ :: value =>
      if isLabel (line.takeWhile (· != ch ':')) ∧ value.head?.all isSpace then some value
      else none

/-- What stands behind the label on the first line that has it. -/
def ownValue (isLabel : PyStr → Bool) (raw : PyStr) : Option PyStr :=
  (lines raw).findSome? (valueOn isLabel)

/-- The value on the label's own line; `default` where there is none. -/
def ownField (read : PyStr → PyStr) (isLabel : PyStr → Bool) (default raw : PyStr) : PyStr :=
  match ownValue isLabel raw with
  | none => default
  | some value => if lstrip value = [] then default else read value

/-- Each of the four fields is the value on its own line. -/
structure OwnLines (raw fallbackQm : PyStr) (status : RdqmStatus) : Prop where
  qmName : status.qmName = ownField firstWord isQmName fallbackQm raw
  haState : status.haState = ownField restOf (isOneOf stateLabels) [] raw
  runningNode : status.runningNode = ownField firstWord (isOneOf runningLabels) [] raw
  preferredLocation :
    status.preferredLocation = ownField firstWord (isOneOf preferredLabels) [] raw

/--
Behind the first line with the label, if its value is blank, nothing follows but white
space, or a word that equals the default.
-/
def Undisturbed (isLabel : PyStr → Bool) (default : PyStr) : List PyStr → Prop
  | [] => True
  | line :: after =>
      match valueOn isLabel line with
      | none => Undisturbed isLabel default after
      | some value =>
          lstrip value = [] →
            lstrip (joinLines after) = [] ∨ firstWord (joinLines after) = default

instance decidableUndisturbed
    (isLabel : PyStr → Bool) (default : PyStr) :
    ∀ ls : List PyStr, Decidable (Undisturbed isLabel default ls)
  | [] => isTrue trivial
  | line :: after =>
      match hvalue : valueOn isLabel line with
      | none =>
          have := decidableUndisturbed isLabel default after
          decidable_of_iff (Undisturbed isLabel default after) (by simp [Undisturbed, hvalue])
      | some value =>
          decidable_of_iff
            (lstrip value = [] →
              lstrip (joinLines after) = [] ∨ firstWord (joinLines after) = default)
            (by simp [Undisturbed, hvalue])

end Labels

section OneField

/-- The patterns of a label. -/
structure IsLabelOf (label : Rx CodePoint) (isLabel : PyStr → Bool) : Prop where
  lang : ∀ pre w post, Rx.Lang label pre w post ↔ isLabel w = true
  chars : ∀ w, isLabel w = true → ∀ c ∈ w, c ≠ ch ':' ∧ c ≠ lf

theorem dropWhile_colon
    {w : PyStr} (hw : ∀ c ∈ w, c ≠ ch ':' ∧ c ≠ lf) (rest : PyStr) :
    (w ++ ch ':' :: rest).takeWhile (· != ch ':') = w ∧
      (w ++ ch ':' :: rest).dropWhile (· != ch ':') = ch ':' :: rest := by
  have hpos : ∀ c ∈ w, (c != ch ':') = true := fun c hc => by simpa using (hw c hc).1
  constructor
  · rw [List.takeWhile_append_of_pos hpos]
    simp
  · rw [List.dropWhile_append_of_pos hpos]
    simp

/-- What comes behind a line: nothing, or a line end. -/
def IsTail (tail : PyStr) : Prop :=
  tail = [] ∨ ∃ rest, tail = lf :: rest

/-- A word without line ends and a colon behind it lie in one line. -/
theorem label_in_line
    {w line tail rest : PyStr} (hw : ∀ c ∈ w, c ≠ ch ':' ∧ c ≠ lf) (htail : IsTail tail)
    (h : line ++ tail = w ++ ch ':' :: rest) :
    ∃ value, line = w ++ ch ':' :: value ∧ rest = value ++ tail := by
  rcases List.append_eq_append_iff.mp h with ⟨x, rfl, htl⟩ | ⟨x, rfl, hrest⟩
  · -- the line ends inside the label or right behind it
    rcases htail with rfl | ⟨tail, rfl⟩
    · simp at htl
    · cases x with
      | nil =>
          rw [List.nil_append] at htl
          exact absurd (List.cons.inj htl).1 (by decide)
      | cons c x =>
          obtain ⟨rfl, -⟩ := List.cons.inj htl
          exact absurd rfl (hw lf (by simp)).2
  · cases x with
    | nil =>
        rw [List.nil_append] at hrest
        rcases htail with rfl | ⟨tail, rfl⟩
        · cases hrest
        · exact absurd (List.cons.inj hrest).1 (by decide)
    | cons c x =>
        obtain ⟨rfl, rfl⟩ := List.cons.inj hrest
        exact ⟨x, rfl, rfl⟩

/-- The colon in front of an expression. -/
theorem captures_colon
    (g : Gx Nat CodePoint) (pre post : PyStr) :
    (Gx.seq (.plain (litRx ":")) g).captures pre post =
      match post with
      | [] => []
      | c :: rest =>
          if c = ch ':' then
            (g.captures (ch ':' :: pre) rest).map (Match.append ⟨[ch ':'], []⟩)
          else [] := by
  have hcolon : (lit ":").map one = [one (ch ':')] := rfl
  rw [Gx.captures, Gx.captures, litRx, hcolon, Rx.ends_word]
  cases post with
  | nil =>
      rfl
  | cons c rest =>
      by_cases hc : c = ch ':'
      · subst hc
        simp [Rx.startsWith, one]
      · simp [Rx.startsWith, one, hc]

section Label

variable {label : Rx CodePoint} {isLabel : PyStr → Bool}

/-- At a label, the search goes on behind its colon. -/
theorem first_label
    (hlabel : IsLabelOf label isLabel) {w : PyStr} (hw : isLabel w = true)
    (g : Gx Nat CodePoint) (pre rest : PyStr) :
    (Gx.seq (.plain label) (Gx.seq (.plain (litRx ":")) g)).first pre (w ++ ch ':' :: rest) =
      (g.first (ch ':' :: (w.reverse ++ pre)) rest).map
        (Match.append ⟨w ++ [ch ':'], []⟩) := by
  have hmem : (⟨w, []⟩ : Match Nat CodePoint) ∈
      (Gx.plain label).captures pre (w ++ ch ':' :: rest) := by
    refine List.mem_map.mpr ⟨w.length, ?_, by rw [List.take_left]⟩
    exact (Rx.mem_ends_iff label pre _ _).mpr ⟨w, _, rfl, rfl, (hlabel.lang _ _ _).mpr hw⟩
  have happend : Match.append ⟨w, []⟩ ∘ Match.append ⟨[ch ':'], []⟩ =
      (Match.append ⟨w ++ [ch ':'], []⟩ : Match Nat CodePoint → Match Nat CodePoint) := by
    funext m
    simp [Match.append]
  rw [Gx.first_seq_of_unique hmem, List.drop_left, Gx.first, captures_colon, Gx.first]
  · simp only [if_true, List.head?_map, Option.map_map, happend]
  · intro x hx hne
    obtain ⟨n, hn, rfl⟩ := List.mem_map.mp hx
    obtain ⟨v, b, hpost, rfl, hv⟩ := (Rx.mem_ends_iff label pre _ n).mp hn
    rw [hpost, List.take_left, List.drop_left, captures_colon] at hne
    rw [hpost, List.take_left]
    cases b with
    | nil =>
        exact absurd rfl hne
    | cons c b =>
        by_cases hc : c = ch ':'
        · subst hc
          have hfront := congrArg (List.takeWhile (· != ch ':')) hpost
          rw [(dropWhile_colon (hlabel.chars w hw) rest).1,
            (dropWhile_colon (hlabel.chars v ((hlabel.lang _ _ _).mp hv)) b).1] at hfront
          rw [hfront]
        · exact absurd (by simp [hc]) hne

/-- Where no label stands, nothing matches. -/
theorem first_no_label
    (hlabel : IsLabelOf label isLabel) (g : Gx Nat CodePoint) (pre : PyStr) {post : PyStr}
    (hno : ∀ w rest, isLabel w = true → post ≠ w ++ ch ':' :: rest) :
    (Gx.seq (.plain label) (Gx.seq (.plain (litRx ":")) g)).first pre post = none := by
  refine Gx.first_seq_none fun x hx => ?_
  obtain ⟨n, hn, rfl⟩ := List.mem_map.mp hx
  obtain ⟨v, b, rfl, rfl, hv⟩ := (Rx.mem_ends_iff label pre _ n).mp hn
  rw [List.take_left, List.drop_left, captures_colon]
  cases b with
  | nil =>
      rfl
  | cons c b =>
      have hc : c ≠ ch ':' := by
        rintro rfl
        exact hno v b ((hlabel.lang _ _ _).mp hv) rfl
      simp [hc]

end Label

theorem first_space_none
    (value : List (Gx Nat CodePoint)) (pre : PyStr) {post : PyStr}
    (hpost : post.head?.any isSpace = false) :
    (Gx.seqs (.plain (Rx.plus space) :: value)).first pre post = none := by
  refine Gx.first_seq_none fun x hx => ?_
  obtain ⟨n, hn, rfl⟩ := List.mem_map.mp hx
  obtain ⟨v, b, rfl, rfl, hv⟩ := (Rx.mem_ends_iff _ pre _ n).mp hn
  rw [space, Rx.lang_plus_cls] at hv
  obtain ⟨hne, hall⟩ := hv
  cases v with
  | nil =>
      exact absurd rfl hne
  | cons c v =>
      rw [List.cons_append, List.head?_cons, Option.any_some, hall c (by simp)] at hpost
      cases hpost

/-- What a field reads behind the white space that follows its label. -/
structure Reads (value : List (Gx Nat CodePoint)) (get : Match Nat CodePoint → PyStr)
    (read : PyStr → PyStr) (default : PyStr) : Prop where
  groups : ∀ w (m : Match Nat CodePoint), get (Match.append ⟨w, []⟩ m) = get m
  next : ∀ pre post, post.head?.any isSpace = true → lstrip post ≠ [] →
    ((Gx.seqs (.plain (Rx.plus space) :: value)).first pre post).map get = some (read post)
  blank : ∀ pre post m, lstrip post = [] →
    (Gx.seqs (.plain (Rx.plus space) :: value)).first pre post = some m → get m = default
  /-- The value is read up to the end of the line. -/
  line : ∀ value tail, lf ∉ value → IsTail tail → lstrip value ≠ [] →
    read (value ++ tail) = read value
  behind : ∀ value rest, lstrip value = [] → read (value ++ lf :: rest) = read rest

section Search

variable {label : Rx CodePoint} {isLabel : PyStr → Bool} {value : List (Gx Nat CodePoint)}
    {get : Match Nat CodePoint → PyStr} {read : PyStr → PyStr} {default : PyStr}

/-- What stands behind a line, when `after` are the lines behind it. -/
def tailOf : List PyStr → PyStr
  | [] => []
  | line :: after => lf :: joinLines (line :: after)

theorem joinLines_cons
    (line : PyStr) (after : List PyStr) :
    joinLines (line :: after) = line ++ tailOf after := by
  cases after with
  | nil =>
      simp [joinLines, tailOf]
  | cons l ls =>
      simp [joinLines, tailOf, List.intercalate]

theorem tailOf_eq_of_ne_nil
    {ls : List PyStr} (hne : ls ≠ []) :
    tailOf ls = lf :: joinLines ls := by
  cases ls with
  | nil =>
      exact absurd rfl hne
  | cons l ls =>
      rfl

theorem isTail_tailOf
    (after : List PyStr) :
    IsTail (tailOf after) := by
  cases after with
  | nil =>
      exact Or.inl rfl
  | cons line after =>
      exact Or.inr ⟨_, rfl⟩

/-- What the code reads for a field of a reply with these lines. -/
def readField (isLabel : PyStr → Bool) (read : PyStr → PyStr) (default : PyStr) :
    List PyStr → PyStr
  | [] => default
  | line :: after =>
      match valueOn isLabel line with
      | none => readField isLabel read default after
      | some value =>
          if lstrip (value ++ tailOf after) = [] then default else read (value ++ tailOf after)

/-- A blank line has no label. -/
theorem valueOn_of_blank
    (isLabel : PyStr → Bool) {line : PyStr} (hline : lstrip line = []) :
    valueOn isLabel line = none := by
  have hcolon : line.dropWhile (· != ch ':') = [] := by
    rw [List.dropWhile_eq_nil_iff]
    intro c hc
    have hspace := List.dropWhile_eq_nil_iff.mp hline c hc
    simp only [bne_iff_ne, ne_eq]
    rintro rfl
    exact absurd hspace (by decide)
  rw [valueOn, hcolon]

theorem readField_of_blank
    (isLabel : PyStr → Bool) (read : PyStr → PyStr) (default : PyStr) {ls : List PyStr}
    (hls : ∀ l ∈ ls, lstrip l = []) :
    readField isLabel read default ls = default := by
  induction ls with
  | nil =>
      rfl
  | cons line after ih =>
      rw [readField, valueOn_of_blank isLabel (hls line (by simp))]
      exact ih fun l hl => hls l (List.mem_cons_of_mem _ hl)

theorem mem_tailOf
    {after : List PyStr} {l : PyStr} (hl : l ∈ after) {c : CodePoint} (hc : c ∈ l) :
    c ∈ tailOf after := by
  induction after with
  | nil =>
      cases hl
  | cons line after ih =>
      rw [tailOf, joinLines_cons]
      rcases List.mem_cons.mp hl with rfl | hl
      · simp [hc]
      · simp [ih hl]

/-- One line of the search: a label and what is read behind it, or nothing. -/
theorem first_line
    (hlabel : IsLabelOf label isLabel) (g : Gx Nat CodePoint) (pre : PyStr)
    {line tail : PyStr} (htail : IsTail tail) :
    (Gx.seq (.plain label) (Gx.seq (.plain (litRx ":")) g)).first pre (line ++ tail) =
      match line.dropWhile (· != ch ':') with
      | [] => none
      | _ :: value =>
          if isLabel (line.takeWhile (· != ch ':')) then
            (g.first (ch ':' :: ((line.takeWhile (· != ch ':')).reverse ++ pre))
              (value ++ tail)).map
              (Match.append ⟨line.takeWhile (· != ch ':') ++ [ch ':'], []⟩)
          else none := by
  have hsplit := List.takeWhile_append_dropWhile (p := (· != ch ':')) (l := line)
  cases hdrop : line.dropWhile (· != ch ':') with
  | nil =>
      refine first_no_label hlabel g pre fun w rest hw h => ?_
      obtain ⟨value, rfl, -⟩ := label_in_line (hlabel.chars w hw) htail h
      rw [(dropWhile_colon (hlabel.chars w hw) value).2] at hdrop
      cases hdrop
  | cons c value =>
      have hc : c = ch ':' := by
        have hhead := List.head_dropWhile_not (p := (· != ch ':')) (l := line)
          (by rw [hdrop]; simp)
        simpa [hdrop] using hhead
      subst hc
      rw [hdrop] at hsplit
      by_cases hw : isLabel (line.takeWhile (· != ch ':')) = true
      · have hline : line ++ tail =
            line.takeWhile (· != ch ':') ++ ch ':' :: (value ++ tail) := by
          conv_lhs => rw [← hsplit]
          simp
        rw [hline, first_label hlabel hw]
        simp only [hw, if_true]
      · simp only [hw, Bool.false_eq_true, if_false]
        refine first_no_label hlabel g pre fun w rest hw' h => hw ?_
        obtain ⟨v, rfl, -⟩ := label_in_line (hlabel.chars w hw') htail h
        rwa [(dropWhile_colon (hlabel.chars w hw') v).1]

/-- The lines without the label are passed over. -/
theorem first_of_valueOn_none
    (hlabel : IsLabelOf label isLabel) (pre : PyStr) {line tail : PyStr} (htail : IsTail tail)
    (hvalue : valueOn isLabel line = none) :
    (Gx.seqs (.plain label :: .plain (litRx ":") :: .plain (Rx.plus space) :: value)).first pre
      (line ++ tail) = none := by
  rw [Gx.seqs, Gx.seqs, first_line hlabel _ pre htail]
  rw [valueOn] at hvalue
  split
  · rfl
  · rename_i c v hdrop
    rw [hdrop] at hvalue
    simp only [ite_eq_right_iff, reduceCtorEq, imp_false, not_and] at hvalue
    split
    · rename_i hw
      have hhead := hvalue hw
      cases v with
      | nil =>
          exact absurd rfl hhead
      | cons d v =>
          rw [first_space_none value _ (by simpa using hhead), Option.map_none]
    · rfl

/-- On the line of the label, the value is read behind its colon. -/
theorem first_of_valueOn_some
    (value : List (Gx Nat CodePoint)) (hlabel : IsLabelOf label isLabel) (pre : PyStr)
    {line tail v : PyStr} (htail : IsTail tail)
    (hvalue : valueOn isLabel line = some v) :
    ∃ w pre',
      (Gx.seqs (.plain label :: .plain (litRx ":") :: .plain (Rx.plus space) :: value)).first
          pre (line ++ tail) =
        ((Gx.seqs (.plain (Rx.plus space) :: value)).first pre' (v ++ tail)).map
          (Match.append ⟨w, []⟩) ∧
      v.head?.all isSpace = true := by
  refine ⟨line.takeWhile (· != ch ':') ++ [ch ':'],
    ch ':' :: ((line.takeWhile (· != ch ':')).reverse ++ pre), ?_⟩
  rw [Gx.seqs, Gx.seqs, first_line hlabel _ pre htail]
  rw [valueOn] at hvalue
  cases hdrop : line.dropWhile (· != ch ':') with
  | nil =>
      rw [hdrop] at hvalue
      cases hvalue
  | cons c rest =>
      rw [hdrop] at hvalue
      simp only [Option.ite_none_right_eq_some, Option.some.injEq] at hvalue
      obtain ⟨⟨hw, hhead⟩, rfl⟩ := hvalue
      simp only [hw, if_true, hhead, and_true]

/-- The search for a field, at the start of a line. -/
theorem getD_searchFrom
    (hlabel : IsLabelOf label isLabel) (hreads : Reads value get read default)
    {ls : List PyStr} (hls : ls ≠ []) (hlines : ∀ l ∈ ls, lf ∉ l)
    {pre : PyStr} (hpre : pre.head?.all isNewline = true) :
    (((labelled label value).searchFrom pre (joinLines ls)).map get).getD default =
      readField isLabel read default ls := by
  induction ls generalizing pre with
  | nil =>
      exact absurd rfl hls
  | cons line after ih =>
      have hline : ∀ c ∈ line, isNewline c = false := by
        intro c hc
        rw [isNewline, beq_eq_false_iff_ne]
        rintro rfl
        exact hlines line (by simp) hc
      -- what is found on this line comes first, then what the lines behind it give
      obtain ⟨later, hsearch, hlater⟩ : ∃ later : Option (Match Nat CodePoint),
          (labelled label value).searchFrom pre (joinLines (line :: after)) =
            ((Gx.seqs (.plain label :: .plain (litRx ":") :: .plain (Rx.plus space) ::
              value)).first pre (line ++ tailOf after)).or later ∧
          (later.map get).getD default = readField isLabel read default after := by
        cases after with
        | nil =>
            refine ⟨none, ?_, rfl⟩
            rw [joinLines_cons, tailOf, List.append_nil, Option.or_none]
            exact Gx.searchFrom_last isNewline _ hline hpre
        | cons l ls =>
            refine ⟨(labelled label value).searchFrom (lf :: (line.reverse ++ pre))
              (joinLines (l :: ls)), ?_, ?_⟩
            · rw [joinLines_cons, tailOf]
              exact Gx.searchFrom_line isNewline _ hline hpre lf _
            · exact ih (by simp) (fun x hx => hlines x (List.mem_cons_of_mem _ hx)) rfl
      rw [hsearch, readField]
      cases hvalue : valueOn isLabel line with
      | none =>
          rw [first_of_valueOn_none hlabel pre (isTail_tailOf after) hvalue, Option.none_or]
          exact hlater
      | some v =>
          obtain ⟨w, pre', hfirst, hhead⟩ := first_of_valueOn_some value hlabel pre
            (isTail_tailOf after) hvalue
          rw [hfirst]
          simp only
          split
          · rename_i hblank
            have hafter : readField isLabel read default after = default := by
              refine readField_of_blank isLabel read default fun l hl => ?_
              rw [lstrip_eq_nil_iff] at hblank ⊢
              exact fun c hc => hblank c (List.mem_append_right _ (mem_tailOf hl hc))
            cases hm : (Gx.seqs (.plain (Rx.plus space) :: value)).first pre'
                (v ++ tailOf after) with
            | none =>
                rw [Option.map_none, Option.none_or, hlater, hafter]
            | some m =>
                rw [Option.map_some, Option.some_or, Option.map_some, Option.getD_some,
                  hreads.groups, hreads.blank _ _ m hblank hm]
          · rename_i hnonblank
            have hspace : (v ++ tailOf after).head?.any isSpace = true := by
              cases v with
              | cons c v =>
                  simpa using hhead
              | nil =>
                  cases after with
                  | nil =>
                      exact absurd rfl hnonblank
                  | cons l ls =>
                      rfl
            have hnext := hreads.next pre' (v ++ tailOf after) hspace hnonblank
            rw [Option.map_eq_some_iff] at hnext
            obtain ⟨m, hm, hget⟩ := hnext
            rw [hm, Option.map_some, Option.some_or, Option.map_some, Option.getD_some,
              hreads.groups, hget]

theorem subset_of_valueOn
    {line v : PyStr} (hvalue : valueOn isLabel line = some v) :
    v ⊆ line := by
  rw [valueOn] at hvalue
  split at hvalue
  · cases hvalue
  · rename_i c rest hdrop
    simp only [Option.ite_none_right_eq_some, Option.some.injEq] at hvalue
    obtain ⟨-, rfl⟩ := hvalue
    intro d hd
    have hmem : d ∈ line.dropWhile (· != ch ':') := by
      rw [hdrop]
      exact List.mem_cons_of_mem _ hd
    exact (List.dropWhile_suffix _).subset hmem

theorem lstrip_blank_append
    {v : PyStr} (hv : lstrip v = []) (rest : PyStr) :
    lstrip (v ++ rest) = lstrip rest := by
  exact List.dropWhile_append_of_pos ((lstrip_eq_nil_iff v).mp hv)

/-- The field is read on its own line exactly when the search is not led astray. -/
theorem readField_eq_own_iff
    (hreads : Reads value get read default)
    (hother : ∀ s, lstrip s ≠ [] → (read s = default ↔ firstWord s = default))
    {ls : List PyStr} (hlines : ∀ l ∈ ls, lf ∉ l) :
    readField isLabel read default ls =
        (match ls.findSome? (valueOn isLabel) with
          | none => default
          | some v => if lstrip v = [] then default else read v) ↔
      Undisturbed isLabel default ls := by
  induction ls with
  | nil =>
      simp [readField, Undisturbed]
  | cons line after ih =>
      have ih := ih fun l hl => hlines l (List.mem_cons_of_mem _ hl)
      rw [readField, Undisturbed, List.findSome?_cons]
      cases hvalue : valueOn isLabel line with
      | none =>
          exact ih
      | some v =>
          simp only
          by_cases hv : lstrip v = []
          · -- a blank value: the white space reaches into the lines behind it
            simp only [hv, if_true, forall_true_left]
            rw [lstrip_blank_append hv]
            cases after with
            | nil =>
                simp [tailOf, joinLines, lstrip]
            | cons l ls =>
                have hlf : lstrip (lf :: joinLines (l :: ls)) = lstrip (joinLines (l :: ls)) :=
                  rfl
                rw [tailOf, hlf, hreads.behind v _ hv]
                by_cases hjoin : lstrip (joinLines (l :: ls)) = []
                · simp [hjoin]
                · simp [hjoin, hother _ hjoin]
          · have htail : lstrip (v ++ tailOf after) ≠ [] := by
              intro hnil
              refine hv ((lstrip_eq_nil_iff v).mpr fun c hc => ?_)
              exact (lstrip_eq_nil_iff _).mp hnil c (List.mem_append_left _ hc)
            have hnolf : lf ∉ v := fun hmem =>
              hlines line (by simp) (subset_of_valueOn hvalue hmem)
            simp [hv, htail, hreads.line v _ hnolf (isTail_tailOf after) hv]

end Search

section Readers

theorem head_dropWhile_isSpace
    {s : PyStr} (hs : lstrip s ≠ []) :
    (lstrip s).head?.any (fun c => !c.isSpace) = true := by
  have hhead := List.head_dropWhile_not (p := isSpace) hs
  rw [lstrip] at hs ⊢
  rw [List.head?_eq_some_head hs, Option.any_some, hhead]
  rfl

theorem drop_takeWhile
    (p : CodePoint → Bool) (s : PyStr) :
    s.drop (s.takeWhile p).length = s.dropWhile p := by
  conv_lhs =>
    arg 2
    rw [← List.takeWhile_append_dropWhile (p := p) (l := s)]
  rw [List.drop_left]

/-- Behind all that `.` takes, the line ends. -/
theorem first_lineEnd
    (pre s : PyStr) :
    (Gx.seqs [Gx.plain (Rx.lineEnd isNewline)]).first pre
      (s.dropWhile fun c => !isNewline c) = some (⟨[], []⟩ : Match Nat CodePoint) := by
  have hend : (s.dropWhile fun c => !isNewline c).head?.all isNewline = true := by
    have hhead := List.head?_dropWhile_not (fun c => !isNewline c) s
    cases hdrop : (s.dropWhile fun c => !isNewline c).head? with
    | none =>
        rfl
    | some c =>
        rw [hdrop] at hhead
        simpa using hhead
  simp [Gx.seqs, Gx.first, Gx.captures, Rx.lineEnd, Rx.ends, hend, Match.append]

theorem takeWhile_append_tail
    {p : CodePoint → Bool} (hp : p lf = false) {v tail : PyStr} (htail : IsTail tail) :
    (v ++ tail).takeWhile p = v.takeWhile p := by
  rcases htail with rfl | ⟨rest, rfl⟩
  · rw [List.append_nil]
  · rw [List.takeWhile_append]
    split
    · rename_i hlen
      rw [List.takeWhile_cons_of_neg (by simp [hp]), List.append_nil]
      exact (List.IsPrefix.eq_of_length (List.takeWhile_prefix p) hlen).symm
    · rfl

/-- The first white space of the pattern takes all there is. -/
theorem first_space
    (value : List (Gx Nat CodePoint)) {pre post : PyStr} (hpost : post.head?.any isSpace = true)
    {m : Match Nat CodePoint}
    (hm : (Gx.seqs value).first ((post.takeWhile isSpace).reverse ++ pre) (lstrip post) =
      some m) :
    (Gx.seqs (.plain (Rx.plus space) :: value)).first pre post =
      some (Match.append ⟨post.takeWhile isSpace, []⟩ m) := by
  rw [Gx.seqs]
  refine Gx.first_seq (Gx.first_plain_plus hpost pre) ?_
  rwa [drop_takeWhile]

/-- One word is read. -/
theorem reads_word
    (default : PyStr) :
    Reads [.group 1 word] (text · 1) firstWord default where
  groups w m := rfl
  next pre post hpost hnonblank := by
    have hword := Gx.first_group_plus (head_dropWhile_isSpace hnonblank) 1
      ((post.takeWhile isSpace).reverse ++ pre)
    have hend : (Gx.plain Rx.eps).first
        (((lstrip post).takeWhile fun c => !c.isSpace).reverse ++
          ((post.takeWhile isSpace).reverse ++ pre))
        ((lstrip post).drop ((lstrip post).takeWhile fun c => !c.isSpace).length) =
          some (⟨[], []⟩ : Match Nat CodePoint) := rfl
    rw [first_space [.group 1 word] hpost (Gx.first_seq hword hend)]
    rfl
  blank pre post m hblank hm := by
    have hnone : (Gx.seqs [.plain (Rx.plus space), .group 1 word]).first pre post = none := by
      refine Gx.first_seq_none fun x _ => ?_
      have hall := (lstrip_eq_nil_iff post).mp hblank
      rw [Gx.seqs, Gx.captures, Gx.captures, List.flatMap_eq_nil_iff]
      intro y hy
      obtain ⟨n, hn, rfl⟩ := List.mem_map.mp hy
      obtain ⟨v, b, hdrop, rfl, hv⟩ := (Rx.mem_ends_iff _ _ _ n).mp hn
      rw [word, Miqm.oneOrMore, Rx.lang_plus_cls] at hv
      obtain ⟨hne, hv⟩ := hv
      obtain ⟨c, hc⟩ := List.exists_mem_of_ne_nil v hne
      have hmem : c ∈ post := List.mem_of_mem_drop (by rw [hdrop]; exact List.mem_append_left _ hc)
      have hnospace := hv c hc
      rw [hall c hmem] at hnospace
      cases hnospace
    rw [hnone] at hm
    cases hm
  line v tail _ htail hnonblank := by
    rw [firstWord, lstrip_append hnonblank]
    exact takeWhile_append_tail (by decide) htail
  behind v rest hv := by
    rw [firstWord, lstrip_blank_append hv]
    rfl

/-- The rest of a line is read. -/
theorem reads_restOfLine :
    Reads [.group 1 restOfLine, .plain (Rx.lineEnd isNewline)] (fun m => strip (text m 1))
      restOf [] where
  groups w m := rfl
  next pre post hpost hnonblank := by
    have hhead : (lstrip post).head?.any (fun c => !isNewline c) = true := by
      have hnospace := head_dropWhile_isSpace hnonblank
      cases hpost' : lstrip post with
      | nil =>
          exact absurd hpost' hnonblank
      | cons c cs =>
          rw [hpost', List.head?_cons, Option.any_some] at hnospace
          rw [List.head?_cons, Option.any_some, isNewline]
          by_contra hc
          rw [Bool.not_eq_true, Bool.not_eq_false', beq_iff_eq] at hc
          rw [hc] at hnospace
          cases hnospace
    have hrest := Gx.first_group_plus hhead 1 ((post.takeWhile isSpace).reverse ++ pre)
    have hend : (Gx.seqs [Gx.plain (κ := Nat) (Rx.lineEnd isNewline)]).first
        (((lstrip post).takeWhile fun c => !isNewline c).reverse ++
          ((post.takeWhile isSpace).reverse ++ pre))
        ((lstrip post).drop ((lstrip post).takeWhile fun c => !isNewline c).length) =
          some ⟨[], []⟩ := by
      rw [drop_takeWhile]
      exact first_lineEnd _ _
    rw [first_space [.group 1 restOfLine, .plain (Rx.lineEnd isNewline)] hpost
      (Gx.first_seq hrest hend)]
    rfl
  blank pre post m hblank hm := by
    have hmem : m ∈ (Gx.seqs [.plain (Rx.plus space), .group 1 restOfLine,
        .plain (Rx.lineEnd isNewline)]).captures pre post :=
      List.mem_of_mem_head? (by simpa [Gx.first] using hm)
    have hspaces : ∀ c ∈ text m 1, c.isSpace = true := by
      intro c hc
      rw [text, Match.group] at hc
      cases hlookup : m.groups.lookup 1 with
      | none =>
          rw [hlookup] at hc
          cases hc
      | some w =>
          rw [hlookup, Option.getD_some] at hc
          obtain ⟨l₁, l₂, hgroups, -⟩ := List.lookup_eq_some_iff.mp hlookup
          have hgroup : (1, w) ∈ m.groups := by
            rw [hgroups]
            simp
          have hsub := Gx.infix_of_mem_groups hmem hgroup
          exact (lstrip_eq_nil_iff post).mp hblank c (hsub.subset hc)
    rw [strip, (lstrip_eq_nil_iff _).mpr hspaces]
    rfl
  line v tail hv htail hnonblank := by
    rw [restOf, lstrip_append hnonblank, takeWhile_append_tail (by decide) htail]
    rfl
  behind v rest hv := by
    rw [restOf, lstrip_blank_append hv]
    rfl

end Readers

section Patterns

theorem isOneOf_iff
    (labels : List String) (w : PyStr) :
    isOneOf labels w = true ↔ ∃ l ∈ labels, w.map reFold = (lit l).map reFold := by
  simp [isOneOf]

theorem chars_of_isOneOf
    {labels : List String}
    (hlabels : ∀ l ∈ labels, ∀ d ∈ lit l, d.reFold ≠ (ch ':').reFold ∧ d.reFold ≠ lf.reFold)
    {w : PyStr} (hw : isOneOf labels w = true) :
    ∀ c ∈ w, c ≠ ch ':' ∧ c ≠ lf := by
  obtain ⟨l, hl, hfold⟩ := (isOneOf_iff labels w).mp hw
  intro c hc
  obtain ⟨d, hd, hdc⟩ : ∃ d ∈ lit l, d.reFold = c.reFold := by
    have hmem : c.reFold ∈ (lit l).map reFold := by
      rw [← hfold]
      exact List.mem_map_of_mem hc
    exact List.mem_map.mp hmem
  obtain ⟨hcolon, hlf⟩ := hlabels l hl d hd
  constructor
  · rintro rfl
    exact hcolon hdc
  · rintro rfl
    exact hlf hdc

theorem isLabelOf_qmName :
    IsLabelOf (litRx "Queue manager name") isQmName where
  lang pre w post := by
    rw [litRx, Rx.lang_word, fits_one_iff, isQmName, beq_iff_eq]
  chars w hw := by
    rw [isQmName, beq_iff_eq] at hw
    subst hw
    decide

theorem isLabelOf_preferred :
    IsLabelOf (ciRx "Preferred location") (isOneOf preferredLabels) where
  lang pre w post := by
    simp [ciRx, Rx.lang_word, fits_ci_iff, isOneOf_iff, preferredLabels]
  chars w hw := chars_of_isOneOf (by decide) hw

theorem isLabelOf_running :
    IsLabelOf (Rx.alt (ciRx "Running on") (ciRx "Current node")) (isOneOf runningLabels) where
  lang pre w post := by
    simp [ciRx, Rx.lang_word, fits_ci_iff, isOneOf_iff, runningLabels]
  chars w hw := chars_of_isOneOf (by decide) hw

theorem isLabelOf_state :
    IsLabelOf (Rx.seqs [Rx.opt (ciRx "HA "), Rx.opt (ciRx "current "), ciRx "status"])
      (isOneOf stateLabels) where
  lang pre w post := by
    have hha : (lit "HA current status").map reFold =
        (lit "HA ").map reFold ++ ((lit "current ").map reFold ++ (lit "status").map reFold) :=
      rfl
    have hhas : (lit "HA status").map reFold =
        (lit "HA ").map reFold ++ (lit "status").map reFold := rfl
    have hcur : (lit "current status").map reFold =
        (lit "current ").map reFold ++ (lit "status").map reFold := rfl
    simp only [Rx.seqs, Rx.lang_seq, Rx.lang_opt, Rx.lang_eps, ciRx, Rx.lang_word, fits_ci_iff,
      isOneOf_iff, stateLabels, List.mem_cons, List.not_mem_nil, or_false, exists_eq_or_imp,
      exists_eq_left, hha, hhas, hcur, List.map_eq_append_iff]
    constructor
    · rintro ⟨u, v, rfl, hu, x, y, rfl, hx, z, _, rfl, hz, rfl⟩
      rw [List.append_nil]
      rcases hu with hu | rfl
      · rcases hx with hx | rfl
        · exact Or.inl ⟨u, _, rfl, hu, x, z, rfl, hx, hz⟩
        · exact Or.inr (Or.inl ⟨u, z, rfl, hu, hz⟩)
      · rcases hx with hx | rfl
        · exact Or.inr (Or.inr (Or.inl ⟨x, z, rfl, hx, hz⟩))
        · exact Or.inr (Or.inr (Or.inr hz))
    · rintro (⟨u, _, rfl, hu, x, z, rfl, hx, hz⟩ | ⟨u, z, rfl, hu, hz⟩ |
        ⟨x, z, rfl, hx, hz⟩ | hz)
      · exact ⟨u, x ++ z, rfl, Or.inl hu, x, z, rfl, Or.inl hx, z, [], by simp, hz, rfl⟩
      · exact ⟨u, z, rfl, Or.inl hu, [], z, rfl, Or.inr rfl, z, [], by simp, hz, rfl⟩
      · exact ⟨[], x ++ z, rfl, Or.inr rfl, x, z, rfl, Or.inl hx, z, [], by simp, hz, rfl⟩
      · exact ⟨[], w, rfl, Or.inr rfl, [], w, rfl, Or.inr rfl, w, [], by simp, hz, rfl⟩
  chars w hw := chars_of_isOneOf (by decide) hw

end Patterns

end OneField

section Claim

/-- The reply has a line for the running node, without a value. -/
def RunsNowhere (raw : PyStr) : Prop :=
  ∃ value, ownValue (isOneOf runningLabels) raw = some value ∧ lstrip value = []

/-- The matcher reports that no node runs the queue manager, whatever else it is given. -/
def Reported (status : RdqmStatus) : Prop :=
  ∀ (registry : KCRegistry) (mqVersion : Option PyStr) (pacemaker : Option Rcs.Rdqm.Pacemaker)
    (drbd : List Row),
      Rcs.Rdqm.findingNoRunningNode registry mqVersion status.qmName (strip status.haState) ∈
        Rcs.Rdqm.matchRdqmFindings registry mqVersion
          { rdqmStatus := statusRow (some status), pacemaker := pacemaker, drbd := drbd }

/-- Behind each of the four labels comes its value, or nothing that could be taken for it. -/
structure NothingTaken (raw fallbackQm : PyStr) : Prop where
  qmName : Undisturbed isQmName fallbackQm (lines raw)
  haState : Undisturbed (isOneOf stateLabels) [] (lines raw)
  runningNode : Undisturbed (isOneOf runningLabels) [] (lines raw)
  preferredLocation : Undisturbed (isOneOf preferredLabels) [] (lines raw)

theorem lf_not_mem_of_mem_lines
    (raw : PyStr) :
    ∀ l ∈ lines raw, lf ∉ l := by
  rw [lines]
  induction raw with
  | nil =>
      simp
  | cons y ys ih =>
      rw [List.splitOn_cons_eq_if_modifyHead]
      split
      · intro l hl
        rcases List.mem_cons.mp hl with rfl | hl
        · exact List.not_mem_nil
        · exact ih l hl
      · rename_i hy
        cases hsplit : ys.splitOn lf with
        | nil =>
            simp
        | cons l ls =>
            rw [hsplit] at ih
            simp only [List.modifyHead_cons, List.mem_cons, forall_eq_or_imp] at ih ⊢
            refine ⟨?_, ih.2⟩
            rintro (rfl | hl)
            · exact hy (by simp)
            · exact ih.1 hl

theorem joinLines_lines
    (raw : PyStr) :
    joinLines (lines raw) = raw := by
  exact List.intercalate_splitOn lf

/-- One field of the reply. -/
theorem field_eq_own_iff
    {label : Rx CodePoint} {isLabel : PyStr → Bool} {value : List (Gx Nat CodePoint)}
    {get : Match Nat CodePoint → PyStr} {read : PyStr → PyStr} {default : PyStr}
    (hlabel : IsLabelOf label isLabel) (hreads : Reads value get read default)
    (hother : ∀ s, lstrip s ≠ [] → (read s = default ↔ firstWord s = default)) (raw : PyStr) :
    (((labelled label value).search raw).map get).getD default =
        ownField read isLabel default raw ↔
      Undisturbed isLabel default (lines raw) := by
  have hlines : ∀ l ∈ lines raw, lf ∉ l := lf_not_mem_of_mem_lines raw
  have hsearch : (((labelled label value).search raw).map get).getD default =
      readField isLabel read default (lines raw) := by
    have hstart : ([] : PyStr).head?.all isNewline = true := rfl
    have hsearchFrom :=
      getD_searchFrom hlabel hreads (List.splitOn_ne_nil lf raw) hlines hstart
    rwa [← lines, joinLines_lines] at hsearchFrom
  rw [hsearch, ← readField_eq_own_iff hreads hother hlines]
  rfl

theorem firstWord_ne_nil
    {s : PyStr} (hs : lstrip s ≠ []) :
    firstWord s ≠ [] := by
  have hhead := head_dropWhile_isSpace hs
  rw [firstWord]
  cases hstrip : lstrip s with
  | nil =>
      exact absurd hstrip hs
  | cons c cs =>
      rw [hstrip, List.head?_cons, Option.any_some] at hhead
      simp [hhead]

theorem restOf_ne_nil
    {s : PyStr} (hs : lstrip s ≠ []) :
    restOf s ≠ [] := by
  have hhead := head_dropWhile_isSpace hs
  rw [restOf]
  cases hstrip : lstrip s with
  | nil =>
      exact absurd hstrip hs
  | cons c cs =>
      rw [hstrip, List.head?_cons, Option.any_some] at hhead
      have hc : isNewline c = false := by
        rw [isNewline, beq_eq_false_iff_ne]
        rintro rfl
        cases hhead
      rw [List.takeWhile_cons_of_pos (by simp [hc]), ne_eq, strip_eq_nil_iff]
      intro hall
      rw [hall c (by simp)] at hhead
      cases hhead

/-- What the matcher reads of the dictionary. -/
theorem get?_toRow
    (status : RdqmStatus) :
    status.toRow.get? (lit "qm_name") = some (.str status.qmName) ∧
      status.toRow.get? (lit "ha_state") = some (.str status.haState) ∧
      status.toRow.get? (lit "running_node") = some (.str status.runningNode) := by
  refine ⟨OrderedDict.get?_ofList_of_mem ?_ (by simp), OrderedDict.get?_ofList_of_mem ?_ (by simp),
    OrderedDict.get?_ofList_of_mem ?_ (by simp)⟩
  all_goals simp [lit_injective.eq_iff]

theorem toRow_ne_nil
    (status : RdqmStatus) :
    status.toRow.items ≠ [] := by
  intro hnil
  have hqm := (get?_toRow status).1
  simp [OrderedDict.get?, hnil] at hqm

/-- The check of the running node, on a parsed reply. -/
theorem checkRdqmNoRunningNode_toRow
    (registry : KCRegistry) (mqVersion : Option PyStr) (status : RdqmStatus) :
    Rcs.Rdqm.checkRdqmNoRunningNode registry mqVersion status.toRow =
      if strip status.runningNode ≠ [] then []
      else
        [Rcs.Rdqm.findingNoRunningNode registry mqVersion status.qmName
          (strip status.haState)] := by
  obtain ⟨hqm, hstate, hnode⟩ := get?_toRow status
  have hor : ((Cell.str status.runningNode).orElse (.str [])).toStr = status.runningNode := by
    cases hempty : status.runningNode with
    | nil =>
        rfl
    | cons c cs =>
        rfl
  rw [Rcs.Rdqm.checkRdqmNoRunningNode, if_neg (toRow_ne_nil status)]
  simp only [Row.getOr, Row.get, hqm, hstate, hnode, Option.getD_some, hor]
  rfl

/-- A row without a running node is reported. -/
theorem reported_of_runningNode
    {status : RdqmStatus} (h : status.runningNode = []) :
    Reported status := by
  intro registry mqVersion pacemaker drbd
  have hrow : statusRow (some status) = status.toRow := rfl
  rw [Rcs.Rdqm.matchRdqmFindings, hrow, if_neg fun hempty => toRow_ne_nil status hempty.1,
    checkRdqmNoRunningNode_toRow, h]
  exact List.mem_append_right _ (by simp [strip, lstrip, rstrip])

theorem not_reported_of_runningNode
    {status : RdqmStatus} (h : strip status.runningNode ≠ []) :
    ¬ Reported status := by
  intro hreported
  have hmem := hreported Miqm.noPages none none []
  have hrow : statusRow (some status) = status.toRow := rfl
  rw [Rcs.Rdqm.matchRdqmFindings, hrow, if_neg fun hempty => toRow_ne_nil status hempty.1,
    checkRdqmNoRunningNode_toRow, if_pos h] at hmem
  simp [Rcs.Rdqm.checkPacemakerQuorum, Rcs.Rdqm.checkOfflineNodes,
    Rcs.Rdqm.checkFailedResources, Rcs.Rdqm.checkDrbdSplitBrain, Rcs.Rdqm.checkDrbdConnection,
    Rcs.Rdqm.checkDrbdDiskState] at hmem

/--
Every field is the value on its own line, and a queue manager that runs nowhere is
reported, exactly when nothing is taken from the lines behind a label.
-/
theorem status_fields_iff
    {raw fallbackQm : PyStr} {status : RdqmStatus}
    (h : parseRdqmstatus raw fallbackQm = some status) :
    (OwnLines raw fallbackQm status ∧ (RunsNowhere raw → Reported status)) ↔
      NothingTaken raw fallbackQm := by
  rw [parseRdqmstatus] at h
  split at h
  · cases h
  · obtain rfl := Option.some.inj h
    have hword : ∀ (default s : PyStr), lstrip s ≠ [] →
        (firstWord s = default ↔ firstWord s = default) := fun _ _ _ => Iff.rfl
    have hrest : ∀ s, lstrip s ≠ [] → (restOf s = [] ↔ firstWord s = []) := fun s hs =>
      ⟨fun hnil => absurd hnil (restOf_ne_nil hs), fun hnil => absurd hnil (firstWord_ne_nil hs)⟩
    have hqm := field_eq_own_iff isLabelOf_qmName (reads_word fallbackQm) (hword fallbackQm) raw
    have hstate := field_eq_own_iff isLabelOf_state reads_restOfLine hrest raw
    have hrunning := field_eq_own_iff isLabelOf_running (reads_word []) (hword []) raw
    have hpreferred := field_eq_own_iff isLabelOf_preferred (reads_word []) (hword []) raw
    constructor
    · rintro ⟨hown, -⟩
      exact ⟨hqm.mp hown.qmName, hstate.mp hown.haState, hrunning.mp hown.runningNode,
        hpreferred.mp hown.preferredLocation⟩
    · intro hnothing
      have hnode := hrunning.mpr hnothing.runningNode
      refine ⟨⟨hqm.mpr hnothing.qmName, hstate.mpr hnothing.haState, hnode,
        hpreferred.mpr hnothing.preferredLocation⟩, ?_⟩
      rintro ⟨value, hvalue, hblank⟩
      refine reported_of_runningNode (hnode.trans ?_)
      rw [ownField, hvalue]
      exact if_pos hblank

theorem parseRdqmstatus_of_ne_nil
    {raw : PyStr} (hraw : raw ≠ []) (fallbackQm : PyStr) :
    ∃ status, parseRdqmstatus raw fallbackQm = some status ∧
      status.runningNode = ((rdqmRunning.search raw).map (text · 1)).getD [] := by
  exact ⟨_, if_neg hraw, rfl⟩

/-- A reply of a queue manager that runs nowhere, with the label of the node at its end. -/
def stoppedReply : PyStr :=
  lit "Queue manager name: QM1\nHA current status: Offline\nPreferred location: n1\nRunning on:"

/-- The same reply with its lines in the order in which `rdqmstatus` prints them. -/
def printedReply : PyStr :=
  lit "Queue manager name: QM1\nHA current status: Offline\nRunning on:\nPreferred location: n1"

theorem status_fields_stopped :
    ∃ status, parseRdqmstatus stoppedReply [] = some status ∧
      OwnLines stoppedReply [] status ∧ Reported status := by
  have hne : stoppedReply ≠ [] := by decide
  obtain ⟨status, hparse, -⟩ := parseRdqmstatus_of_ne_nil hne []
  have hnothing : NothingTaken stoppedReply [] :=
    ⟨by decide +kernel, by decide +kernel, by decide +kernel, by decide +kernel⟩
  obtain ⟨hown, hreported⟩ := (status_fields_iff hparse).mpr hnothing
  exact ⟨status, hparse, hown, hreported ⟨[], by decide +kernel, rfl⟩⟩

/-- The line behind the empty label is taken for the node, and nothing is reported. -/
theorem label_of_next_line_taken_for_node :
    RunsNowhere printedReply ∧
      ∃ status, parseRdqmstatus printedReply [] = some status ∧
        status.runningNode = lit "Preferred" ∧ ¬ OwnLines printedReply [] status ∧
        ¬ Reported status := by
  have hown : ownValue (isOneOf runningLabels) printedReply = some [] := by decide +kernel
  have hne : printedReply ≠ [] := by decide
  obtain ⟨status, hparse, hnode⟩ := parseRdqmstatus_of_ne_nil hne []
  have hpreferred : status.runningNode = lit "Preferred" := by
    rw [hnode]
    decide +kernel
  refine ⟨⟨[], hown, rfl⟩, status, hparse, hpreferred, ?_, ?_⟩
  · intro howns
    have hempty := howns.runningNode
    rw [ownField, hown, hpreferred] at hempty
    revert hempty
    decide
  · refine not_reported_of_runningNode ?_
    rw [hpreferred]
    decide

end Claim

end Rdqm
end MqSentinel
