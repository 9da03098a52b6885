import MqSentinel.RegexAnchors
import MqSentinel.RegexCaptures
import MqSentinel.RegexGreedy

/-!
# The first match of a text

`Gx.search` reports the match at the first position that has one.  An expression behind
`^` matches at line starts only, so the search looks at each line once
(`searchFrom_line`).  What is reported at one position is put together from the parts:
where the first choice of each part leads on, it is the match (`first_seq`).

A scanner is any way to list the matches at a position, in order; `lazily` puts a lazily
repeated class in front of one.
-/

namespace MqSentinel
namespace Regex

universe u v

variable {κ : Type v} {α : Type u}

namespace Gx

/-- The match at the first position that has one. -/
def searchFrom (g : Gx κ α) : List α → List α → Option (Match κ α)
  | pre, [] => first g pre []
  | pre, c :: cs => (first g pre (c :: cs)).or (searchFrom g (c :: pre) cs)

/-- `re.search` -/
def search (g : Gx κ α) (text : List α) : Option (Match κ α) :=
  searchFrom g [] text

/-- `g` behind `^` with `re.MULTILINE`. -/
def onLine (newline : α → Bool) (g : Gx κ α) : Gx κ α :=
  seq (plain (Rx.lineStart newline)) g

section Lines

variable (newline : α → Bool) (g : Gx κ α)

/-- In front of a line, the anchor takes nothing. -/
theorem first_onLine
    {pre : List α} (hpre : pre.head?.all newline = true) (post : List α) :
    first (onLine newline g) pre post = first g pre post := by
  have happend : Match.append ⟨[], []⟩ = (id : Match κ α → Match κ α) := rfl
  simp [first, onLine, captures, Rx.lineStart, Rx.ends, hpre, happend]

theorem first_onLine_none
    {pre : List α} (hpre : pre.head?.all newline = false) (post : List α) :
    first (onLine newline g) pre post = none := by
  simp [first, onLine, captures, Rx.lineStart, Rx.ends, hpre]

/-- Behind a part of a line comes no line end. -/
theorem head?_reverse_append
    {newline : α → Bool} {c : α} (hc : newline c = false) {line : List α}
    (hline : ∀ d ∈ line, newline d = false) (pre : List α) :
    (line.reverse ++ c :: pre).head?.all newline = false := by
  cases hrev : line.reverse with
  | nil =>
      simpa using hc
  | cons d ds =>
      have hd : d ∈ line := List.mem_reverse.mp (by rw [hrev]; simp)
      simpa using hline d hd

/-- Inside a line nothing matches. -/
theorem searchFrom_inside
    {d : α} (hd : newline d = false) {line : List α} (hline : ∀ c ∈ line, newline c = false)
    (pre rest : List α) :
    searchFrom (onLine newline g) (d :: pre) (line ++ rest) =
      searchFrom (onLine newline g) (line.reverse ++ d :: pre) rest := by
  induction line generalizing d pre with
  | nil =>
      rfl
  | cons c line ih =>
      rw [List.cons_append, searchFrom,
        first_onLine_none newline g (by simpa using hd), Option.none_or,
        ih (hline c (by simp)) (fun e he => hline e (List.mem_cons_of_mem _ he))]
      simp

/-- Of a line that is followed by another one only the start is looked at. -/
theorem searchFrom_line
    {line : List α} (hline : ∀ c ∈ line, newline c = false)
    {pre : List α} (hpre : pre.head?.all newline = true)
    (e : α) (rest : List α) :
    searchFrom (onLine newline g) pre (line ++ e :: rest) =
      (first g pre (line ++ e :: rest)).or
        (searchFrom (onLine newline g) (e :: (line.reverse ++ pre)) rest) := by
  cases line with
  | nil =>
      rw [List.nil_append, searchFrom, first_onLine newline g hpre]
      rfl
  | cons c line =>
      have hc : newline c = false := hline c (by simp)
      have hrest : ∀ d ∈ line, newline d = false := fun d hd =>
        hline d (List.mem_cons_of_mem _ hd)
      rw [List.cons_append, searchFrom, first_onLine newline g hpre,
        searchFrom_inside newline g hc hrest, searchFrom,
        first_onLine_none newline g (head?_reverse_append hc hrest pre), Option.none_or]
      simp

/-- Of the last line only the start is looked at. -/
theorem searchFrom_last
    {line : List α} (hline : ∀ c ∈ line, newline c = false)
    {pre : List α} (hpre : pre.head?.all newline = true) :
    searchFrom (onLine newline g) pre line = first g pre line := by
  cases line with
  | nil =>
      rw [searchFrom, first_onLine newline g hpre]
  | cons c line =>
      have hc : newline c = false := hline c (by simp)
      have hrest : ∀ d ∈ line, newline d = false := fun d hd =>
        hline d (List.mem_cons_of_mem _ hd)
      have hinside := searchFrom_inside newline g hc hrest pre []
      rw [List.append_nil] at hinside
      rw [searchFrom, first_onLine newline g hpre, hinside, searchFrom,
        first_onLine_none newline g (head?_reverse_append hc hrest pre), Option.or_none]

theorem findIterFrom_skip
    (g : Gx κ α) (w rest pre : List α) :
    findIterFrom g pre w.length (w ++ rest) = findIterFrom g (w.reverse ++ pre) 0 rest := by
  induction w generalizing pre with
  | nil =>
      rfl
  | cons c w ih =>
      rw [List.length_cons, List.cons_append, findIterFrom, ih]
      simp

/-- Inside a line nothing is found. -/
theorem findIterFrom_inside
    {pre : List α} (hpre : pre.head?.all newline = false)
    {line : List α} (hline : ∀ c ∈ line, newline c = false) (rest : List α) :
    findIterFrom (onLine newline g) pre 0 (line ++ rest) =
      findIterFrom (onLine newline g) (line.reverse ++ pre) 0 rest := by
  induction line generalizing pre with
  | nil =>
      rfl
  | cons c line ih =>
      have hc : (c :: pre).head?.all newline = false := by simpa using hline c (by simp)
      rw [List.cons_append, findIterFrom, first_onLine_none newline g hpre,
        ih hc (fun e he => hline e (List.mem_cons_of_mem _ he))]
      simp

/-- Of a line only the start is looked at, when what is found there ends in the line. -/
theorem findIterFrom_line
    {line : List α} (hline : ∀ c ∈ line, newline c = false)
    {pre : List α} (hpre : pre.head?.all newline = true) (rest : List α)
    (hshort : ∀ m, first g pre (line ++ rest) = some m →
      m.word ≠ [] ∧ m.word.length ≤ line.length) :
    findIterFrom (onLine newline g) pre 0 (line ++ rest) =
      (if line = [] then [] else (first g pre (line ++ rest)).toList) ++
        findIterFrom (onLine newline g) (line.reverse ++ pre) 0 rest := by
  cases line with
  | nil =>
      rfl
  | cons c line =>
      have hc : newline c = false := hline c (by simp)
      have hrest : ∀ d ∈ line, newline d = false := fun d hd =>
        hline d (List.mem_cons_of_mem _ hd)
      rw [List.cons_append, findIterFrom, first_onLine newline g hpre, if_neg (by simp)]
      cases hfirst : first g pre (c :: (line ++ rest)) with
      | none =>
          rw [findIterFrom_inside newline g (by simpa using hc) hrest]
          simp
      | some m =>
          obtain ⟨hne, hlen⟩ := hshort m hfirst
          have htake := take_of_first hfirst
          obtain ⟨w, groups⟩ := m
          cases w with
          | nil =>
              exact absurd rfl hne
          | cons d w =>
              simp only [List.length_cons, Nat.add_le_add_iff_right] at hlen
              simp only [List.length_cons, List.take_succ_cons, List.cons.injEq] at htake
              obtain ⟨rfl, htake⟩ := htake
              rw [List.take_append_of_le_length hlen] at htake
              obtain ⟨line', rfl⟩ : w <+: line := by
                rw [← htake]
                exact List.take_prefix w.length line
              have hinside := findIterFrom_skip (onLine newline g) w (line' ++ rest) (c :: pre)
              have hpre' := head?_reverse_append hc
                (fun d hd => hrest d (List.mem_append_left _ hd)) pre
              have hline' := findIterFrom_inside newline g hpre'
                (fun d hd => hrest d (List.mem_append_right _ hd)) rest
              simp only [Option.toList_some, List.append_assoc, hinside, hline',
                List.reverse_cons, List.reverse_append, List.cons_append, List.nil_append]

end Lines

section Parts

variable {g h : Gx κ α} {pre post : List α}

@[simp] theorem first_plain
    (r : Rx α) (pre post : List α) :
    first (plain r : Gx κ α) pre post = (Rx.first r pre post).map fun n => ⟨post.take n, []⟩ := by
  simp [first, captures, Rx.first, List.head?_map]

@[simp] theorem first_group
    (k : κ) (r : Rx α) (pre post : List α) :
    first (group k r) pre post =
      (Rx.first r pre post).map fun n => ⟨post.take n, [(k, post.take n)]⟩ := by
  simp [first, captures, Rx.first, List.head?_map]

/-- A repeated class takes as much as it can. -/
theorem first_plus
    {p : α → Bool} (hpost : post.head?.any p = true) (pre : List α) :
    Rx.first (Rx.plus (Rx.cls p)) pre post = some (post.takeWhile p).length ∧
      post.take (post.takeWhile p).length = post.takeWhile p := by
  refine ⟨?_, (List.prefix_iff_eq_take.mp (List.takeWhile_prefix p)).symm⟩
  rw [Rx.first_plus_cls, if_neg]
  cases post with
  | nil =>
      cases hpost
  | cons c cs =>
      rw [List.takeWhile_cons_of_pos (by simpa using hpost)]
      simp

theorem first_plain_plus
    {p : α → Bool} (hpost : post.head?.any p = true) (pre : List α) :
    first (plain (Rx.plus (Rx.cls p)) : Gx κ α) pre post = some ⟨post.takeWhile p, []⟩ := by
  obtain ⟨hfirst, htake⟩ := first_plus hpost pre
  rw [first_plain, hfirst, Option.map_some, htake]

theorem first_plain_star
    (p : α → Bool) (pre post : List α) :
    first (plain (Rx.star (Rx.cls p)) : Gx κ α) pre post = some ⟨post.takeWhile p, []⟩ := by
  have htake : post.take (post.takeWhile p).length = post.takeWhile p :=
    (List.prefix_iff_eq_take.mp (List.takeWhile_prefix p)).symm
  rw [first_plain, Rx.first_star_cls, Option.map_some, htake]

theorem first_group_plus
    {p : α → Bool} (hpost : post.head?.any p = true) (k : κ) (pre : List α) :
    first (group k (Rx.plus (Rx.cls p))) pre post =
      some ⟨post.takeWhile p, [(k, post.takeWhile p)]⟩ := by
  obtain ⟨hfirst, htake⟩ := first_plus hpost pre
  rw [first_group, hfirst, Option.map_some, htake]

/-- The first choices of the two parts, when the second leads on. -/
theorem first_seq
    {m m' : Match κ α} (hm : first g pre post = some m)
    (hm' : first h (m.word.reverse ++ pre) (post.drop m.word.length) = some m') :
    first (seq g h) pre post = some (m.append m') := by
  obtain ⟨ms, hms⟩ : ∃ ms, captures g pre post = m :: ms := by
    cases hcaptures : captures g pre post with
    | nil =>
        simp [first, hcaptures] at hm
    | cons x ms =>
        rw [first, hcaptures, List.head?_cons, Option.some_inj] at hm
        exact ⟨ms, by rw [hm]⟩
  rw [first] at hm'
  simp [first, captures, hms, hm', List.head?_append]

/-- No choice of the first part leads on. -/
theorem first_seq_none
    (hnone : ∀ m ∈ captures g pre post,
      captures h (m.word.reverse ++ pre) (post.drop m.word.length) = []) :
    first (seq g h) pre post = none := by
  rw [first, captures, List.head?_eq_none_iff, List.flatMap_eq_nil_iff]
  intro m hm
  rw [hnone m hm, List.map_nil]

/-- Only one choice of the first part leads on. -/
theorem first_seq_of_unique
    {m : Match κ α} (hm : m ∈ captures g pre post)
    (hunique : ∀ x ∈ captures g pre post,
      captures h (x.word.reverse ++ pre) (post.drop x.word.length) ≠ [] → x = m) :
    first (seq g h) pre post =
      (first h (m.word.reverse ++ pre) (post.drop m.word.length)).map m.append := by
  rw [first, captures, first]
  generalize captures g pre post = l at hm hunique
  induction l with
  | nil =>
      cases hm
  | cons x l ih =>
      rw [List.flatMap_cons]
      by_cases hx : captures h (x.word.reverse ++ pre) (post.drop x.word.length) = []
      · rw [hx, List.map_nil, List.nil_append]
        rcases List.mem_cons.mp hm with rfl | hm
        · have hnil : l.flatMap (fun y => (captures h (y.word.reverse ++ pre)
              (post.drop y.word.length)).map y.append) = [] := by
            rw [List.flatMap_eq_nil_iff]
            intro y hy
            by_cases hempty : captures h (y.word.reverse ++ pre) (post.drop y.word.length) = []
            · rw [hempty, List.map_nil]
            · rw [hunique y (List.mem_cons_of_mem _ hy) hempty, hx, List.map_nil]
          rw [hnil, hx]
          rfl
        · exact ih hm fun y hy => hunique y (List.mem_cons_of_mem _ hy)
      · obtain rfl := hunique x (by simp) hx
        rw [List.head?_append_of_ne_nil _ (by simpa using hx), List.head?_map]

/-- A repeated class gives one character back when its longest word does not lead on. -/
theorem first_group_plus_back
    {p : α → Bool} {w rest : List α} {c : α} (hne : w ≠ []) (hw : ∀ x ∈ w, p x = true)
    (hc : p c = true) (hrest : rest.head?.any p = false) (k : κ) (pre : List α)
    {m : Match κ α} (hlong : captures h (c :: (w.reverse ++ pre)) rest = [])
    (hm : first h (w.reverse ++ pre) (c :: rest) = some m) :
    first (seq (group k (Rx.plus (Rx.cls p))) h) pre (w ++ c :: rest) =
      some (Match.append ⟨w, [(k, w)]⟩ m) := by
  have htake : (w ++ c :: rest).takeWhile p = w ++ [c] := by
    rw [List.takeWhile_append_of_pos hw, List.takeWhile_cons_of_pos hc]
    cases rest with
    | nil =>
        rfl
    | cons d rest =>
        rw [List.takeWhile_cons_of_neg (by simpa using hrest)]
  obtain ⟨n, hn⟩ : ∃ n, w.length = n + 1 :=
    Nat.exists_eq_succ_of_ne_zero (mt List.length_eq_zero_iff.mp hne)
  have hends : Rx.ends (Rx.plus (Rx.cls p)) pre (w ++ c :: rest) =
      (w.length + 1) :: w.length :: (List.range n).reverse.map (1 + ·) := by
    rw [Rx.ends_plus_cls, htake, List.length_append, List.length_singleton, hn, List.range_succ,
      List.range_succ]
    simp [Nat.add_comm 1]
  have hlonger : (w ++ c :: rest).take (w.length + 1) = w ++ [c] := by
    rw [List.take_length_add_append, List.take_succ_cons, List.take_zero]
  have hbehind : (w ++ c :: rest).drop (w.length + 1) = rest := by
    rw [List.drop_length_add_append, List.drop_succ_cons, List.drop_zero]
  have hlength : (w ++ [c]).length = w.length + 1 := by simp
  have hpre : (w ++ [c]).reverse ++ pre = c :: (w.reverse ++ pre) := by simp
  obtain ⟨ms, hms⟩ : ∃ ms, captures h (w.reverse ++ pre) (c :: rest) = m :: ms :=
    List.head?_eq_some_iff.mp hm
  rw [first, captures, captures, hends, List.map_cons, List.map_cons, List.flatMap_cons,
    List.flatMap_cons, hlonger, List.take_left, hlength, hbehind, hpre, hlong, List.drop_left, hms]
  rfl

/-- The word of a group stands in the text. -/
theorem infix_of_mem_groups
    {g : Gx κ α} {k : κ} {w : List α} :
    ∀ {pre post : List α} {m : Match κ α},
      m ∈ captures g pre post → (k, w) ∈ m.groups → w <:+: post := by
  induction g with
  | plain r =>
      intro pre post m hm hw
      obtain ⟨n, _, rfl⟩ := List.mem_map.mp hm
      cases hw
  | group k' r =>
      intro pre post m hm hw
      obtain ⟨n, _, rfl⟩ := List.mem_map.mp hm
      obtain ⟨rfl, rfl⟩ := Prod.mk.inj (List.mem_singleton.mp hw)
      exact (List.take_prefix n post).isInfix
  | seq g h ihg ihh =>
      intro pre post m hm hw
      obtain ⟨x, hx, hm⟩ := List.mem_flatMap.mp hm
      obtain ⟨y, hy, rfl⟩ := List.mem_map.mp hm
      rcases List.mem_append.mp hw with hw | hw
      · exact ihg hx hw
      · exact (ihh hy hw).trans (List.drop_suffix _ _).isInfix
  | opt g ih =>
      intro pre post m hm hw
      rcases List.mem_append.mp hm with hm | hm
      · exact ih hm hw
      · obtain rfl := List.mem_singleton.mp hm
        cases hw

/-- The groups that take part in every match. -/
def always : Gx κ α → List κ
  | plain _ => []
  | group k _ => [k]
  | seq g h => g.always ++ h.always
  | opt _ => []

/-- Such a group has a word. -/
theorem exists_mem_groups
    {g : Gx κ α} {k : κ} (hk : k ∈ g.always) :
    ∀ {pre post : List α} {m : Match κ α}, m ∈ captures g pre post → ∃ w, (k, w) ∈ m.groups := by
  induction g with
  | plain r =>
      cases hk
  | group k' r =>
      intro pre post m hm
      obtain rfl := List.mem_singleton.mp hk
      obtain ⟨n, _, rfl⟩ := List.mem_map.mp hm
      exact ⟨_, List.mem_singleton.mpr rfl⟩
  | seq g h ihg ihh =>
      intro pre post m hm
      obtain ⟨x, hx, hm⟩ := List.mem_flatMap.mp hm
      obtain ⟨y, hy, rfl⟩ := List.mem_map.mp hm
      rcases List.mem_append.mp hk with hk | hk
      · obtain ⟨w, hw⟩ := ihg hk hx
        exact ⟨w, List.mem_append_left _ hw⟩
      · obtain ⟨w, hw⟩ := ihh hk hy
        exact ⟨w, List.mem_append_right _ hw⟩
  | opt g ih =>
      cases hk

/-- The word that `group` reports is one of the words of the match. -/
theorem mem_groups_of_group
    [DecidableEq κ] {m : Match κ α} {k : κ} {w : List α} (h : m.group k = some w) :
    (k, w) ∈ m.groups := by
  rw [Match.group, List.lookup_eq_some_iff] at h
  obtain ⟨before, after, hgroups, -⟩ := h
  rw [hgroups]
  simp

theorem exists_group
    [DecidableEq κ] {g : Gx κ α} {k : κ} (hk : k ∈ g.always) {pre post : List α}
    {m : Match κ α} (hm : m ∈ captures g pre post) :
    ∃ w, m.group k = some w := by
  obtain ⟨w, hw⟩ := exists_mem_groups hk hm
  cases hgroup : m.group k with
  | none =>
      rw [Match.group, List.lookup_eq_none_iff] at hgroup
      exact absurd (hgroup _ hw) (by simp)
  | some w' =>
      exact ⟨w', rfl⟩

/-- What a search finds is a match at some position. -/
theorem exists_captures_of_searchFrom
    {g : Gx κ α} {post : List α} {m : Match κ α} :
    ∀ {pre : List α}, searchFrom g pre post = some m → ∃ pre post, m ∈ captures g pre post := by
  induction post with
  | nil =>
      intro pre h
      exact ⟨pre, [], List.mem_of_head? h⟩
  | cons c cs ih =>
      intro pre h
      rw [searchFrom, Option.or_eq_some_iff] at h
      rcases h with h | ⟨-, h⟩
      · exact ⟨pre, c :: cs, List.mem_of_head? h⟩
      · exact ih h

end Parts

end Gx

/-- The matches at each position, in the order in which they are tried. -/
abbrev Scanner (κ : Type v) (α : Type u) := List α → List α → List (Match κ α)

namespace Scanner

/-- The matches of an expression with groups. -/
def ofGx (g : Gx κ α) : Scanner κ α :=
  g.captures

/-- One scanner behind another. -/
def andThen (s t : Scanner κ α) : Scanner κ α := fun pre post =>
  (s pre post).flatMap fun m =>
    (t (m.word.reverse ++ pre) (post.drop m.word.length)).map m.append

/-- A lazily repeated class in front of a scanner: the shortest front is tried first. -/
def lazily (p : α → Bool) (t : Scanner κ α) : Scanner κ α
  | pre, [] => t pre []
  | pre, c :: cs =>
      t pre (c :: cs) ++
        if p c then (lazily p t (c :: pre) cs).map fun m => ⟨c :: m.word, m.groups⟩ else []

/-- One pass: `skip` counts the characters still covered by the last match. -/
def findIterFrom (s : Scanner κ α) : List α → Nat → List α → List (Match κ α)
  | _, _, [] => []
  | pre, skip + 1, c :: cs => findIterFrom s (c :: pre) skip cs
  | pre, 0, c :: cs =>
      match (s pre (c :: cs)).head? with
      | some ⟨d :: w, groups⟩ => ⟨d :: w, groups⟩ :: findIterFrom s (c :: pre) w.length cs
      | _ => findIterFrom s (c :: pre) 0 cs

/-- The nonempty matches of a text, from left to right. -/
def findIter (s : Scanner κ α) (text : List α) : List (Match κ α) :=
  findIterFrom s [] 0 text

end Scanner

end Regex
end MqSentinel
