import MqSentinel.UrlRedaction

/-!
# The hosts of the URLs that are returned

The guard keeps a URL that has `://` and an allowed host somewhere in it, and the cut
comes after the guard.  `mem_urls_cut_iff` lists the URLs of a text that was cut: those
in front of the cut, the one that the cut goes through, and a bare scheme that the
truncation mark turns into a URL.  With that, `urls_listed_iff` says when every URL of a
sanitized string has an allowed host for its authority.
-/

namespace MqSentinel
namespace Sanitizer

open Regex CodePoint

/-- The URLs of a text, as `_URL.finditer` finds them. -/
def urls (text : PyStr) : List PyStr :=
  (tokens url text).filterMap Tok.hit?

/-- The length of the scheme of a URL. -/
def schemeLength (u : PyStr) : Nat :=
  (schemeLength? u).getD 0

/-- A character that does not end the authority of a URL. -/
def inAuthority (c : CodePoint) : Bool :=
  !(c == ch '/' || c == ch '?' || c == ch '#')

/-- The part of a URL between `://` and the next `/`, `?`, `#` or its end. -/
def authority (u : PyStr) : PyStr :=
  (u.drop (schemeLength u)).takeWhile inAuthority

section Cut

theorem schemeLength_append
    {w : PyStr} (hw : IsScheme w) (v : PyStr) :
    schemeLength (w ++ v) = w.length := by
  rw [schemeLength, (schemeLength?_eq_some_iff _ _).mpr ⟨w, v, rfl, hw, rfl⟩]
  rfl

theorem IsUrl.schemeLength_pos
    {m : PyStr} (h : IsUrl m) :
    0 < schemeLength m := by
  obtain ⟨w, v, rfl, hw, -, -⟩ := h
  rw [schemeLength_append hw]
  obtain ⟨c, t, rfl, -, -⟩ := hw.shape
  simp

/-- The truncation mark goes on with a URL and starts none. -/
theorem truncationMark_shape :
    (∀ c ∈ truncationMark, isUrlChar c = true ∧ ci (ch 'h') c = false) ∧
      (∀ c ∈ lit "https://", ci c ellipsis = false) ∧ truncationMark ≠ [] := by
  decide +kernel

theorem tokensFrom_mark
    {x : PyStr} (hx : ∀ c ∈ x, ci (ch 'h') c = false) (pre : PyStr) :
    (tokensFrom url pre 0 (x ++ truncationMark)).filterMap Tok.hit? = [] := by
  have hplain : ∀ c ∈ x ++ truncationMark, ci (ch 'h') c = false := by
    intro c hc
    rcases List.mem_append.mp hc with hc | hc
    · exact hx c hc
    · exact (truncationMark_shape.1 c hc).2
  have := tokensFrom_plain hplain [] pre
  rw [List.append_nil] at this
  rw [this, List.filterMap_append, hits_map_lit]
  rfl

/-- No scheme reaches into the truncation mark. -/
theorem scheme_of_mark
    {w x v : PyStr} (hw : IsScheme w) (h : x ++ truncationMark = w ++ v) :
    ∃ y, x = w ++ y ∧ v = y ++ truncationMark := by
  rcases List.append_eq_append_iff.mp h with ⟨y, rfl, hy⟩ | ⟨y, rfl, hy⟩
  · cases y with
    | nil =>
        exact ⟨[], by simp, by simpa using hy.symm⟩
    | cons d y =>
        obtain ⟨rfl, -⟩ := List.cons.inj hy
        obtain ⟨c, hc, hcd⟩ := hw.exists_ci ellipsis (by simp)
        rw [truncationMark_shape.2.1 c hc] at hcd
        cases hcd
  · exact ⟨y, rfl, hy⟩

/-- The URLs of a text in front of the truncation mark. -/
def cutUrls (pre x : PyStr) : List PyStr :=
  (tokensFrom url pre 0 (x ++ truncationMark)).filterMap Tok.hit?

/-- A URL that the cut has shortened, or a bare scheme, runs into the mark. -/
theorem cutUrls_of_scheme
    {w v : PyStr} (hw : IsScheme w) (hv : ∀ c ∈ v, isUrlChar c = true) (pre : PyStr) :
    cutUrls pre (w ++ v) = [(w ++ v) ++ truncationMark] := by
  have hurl : IsUrl ((w ++ v) ++ truncationMark) := by
    refine ⟨w, v ++ truncationMark, by simp, hw, by simp [truncationMark_shape.2.2], ?_⟩
    intro c hc
    rcases List.mem_append.mp hc with hc | hc
    · exact hv c hc
    · exact (truncationMark_shape.1 c hc).1
  have hne : (w ++ v) ++ truncationMark ≠ [] := by
    simp [truncationMark_shape.2.2]
  have hfirst : Rx.first url pre (((w ++ v) ++ truncationMark) ++ []) =
      some ((w ++ v) ++ truncationMark).length := by
    rw [first_url, urlLength?_of_isUrl hurl (show Stops [] from trivial)]
  have := tokensFrom_of_first hne hfirst
  rw [List.append_nil] at this
  rw [cutUrls, this]
  rfl

/-- A scheme that is not whole in front of the cut makes no URL. -/
theorem cutUrls_of_part
    {w : PyStr} (hw : IsScheme w) {n : Nat} (hn : n < w.length) (pre : PyStr) :
    cutUrls pre (w.take n) = [] := by
  obtain ⟨c, t, rfl, -, ht⟩ := hw.shape
  cases n with
  | zero =>
      exact tokensFrom_mark (by simp) pre
  | succ n =>
      have hnone : urlLength? (c :: (t.take n ++ truncationMark)) = none := by
        by_contra hsome
        obtain ⟨k, hk⟩ := Option.ne_none_iff_exists'.mp hsome
        obtain ⟨m, s, hsplit, -, ⟨w', v, rfl, hw', -, -⟩, -⟩ := isUrl_of_urlLength? hk
        obtain ⟨y, hy, -⟩ := scheme_of_mark (x := c :: t.take n) (v := v ++ s) hw' (by
          simpa using hsplit)
        -- a scheme inside a longer one
        have hlong : schemeLength? (c :: t) = some (c :: t).length :=
          (schemeLength?_eq_some_iff _ _).mpr ⟨c :: t, [], by simp, hw, rfl⟩
        have hshort : schemeLength? (c :: t) = some w'.length := by
          refine (schemeLength?_eq_some_iff _ _).mpr ⟨w', y ++ t.drop n, ?_, hw', rfl⟩
          rw [← List.append_assoc, ← hy, List.cons_append, List.take_append_drop]
        have hlen := congrArg List.length hy
        rw [hlong, Option.some_inj] at hshort
        simp only [List.length_cons, List.length_append, List.length_take] at hlen hshort hn
        omega
      rw [List.take_succ_cons, cutUrls, List.cons_append, tokensFrom_url_lit hnone]
      exact tokensFrom_mark (fun d hd => ht d (List.mem_of_mem_take hd)) _

/-- Characters that start no URL are literals of the pass. -/
theorem exists_lits_of_plain
    {x r : PyStr} (hx : ∀ c ∈ x, ci (ch 'h') c = false) :
    ∀ {ts : List (Tok CodePoint)} {pre : PyStr}, Scan url pre ts → source ts = x ++ r →
      ∃ us, ts = x.map Tok.lit ++ us := by
  induction x with
  | nil =>
      intro ts pre _ _
      exact ⟨ts, rfl⟩
  | cons d x ih =>
      intro ts pre hscan hsource
      cases ts with
      | nil =>
          cases hsource
      | cons t ts =>
          cases t with
          | lit c =>
              obtain ⟨rfl, htail⟩ := List.cons.inj hsource
              obtain ⟨us, rfl⟩ := ih (fun e he => hx e (List.mem_cons_of_mem _ he))
                (scan_lit hscan).2 htail
              exact ⟨us, rfl⟩
          | hit m =>
              obtain ⟨w, v, rfl, hw, -, -⟩ := (scan_hit hscan).1
              obtain ⟨c, t, rfl, hc, -⟩ := hw.shape
              obtain ⟨rfl, -⟩ := List.cons.inj hsource
              rw [hx c (by simp)] at hc
              cases hc

/--
The URLs of a text with tokens `us` that is cut at `n`: those that end before the cut,
the one that the cut goes through when its scheme is whole, and a bare scheme that ends
at the cut.
-/
def CutUrl (us : List (Tok CodePoint)) (n : Nat) (m : PyStr) : Prop :=
  (∃ i, HitAt id us i m ∧ i + m.length < n) ∨
    (∃ i h, HitAt id us i h ∧ i + schemeLength h ≤ n ∧ n ≤ i + h.length ∧
      m = h.take (n - i) ++ truncationMark) ∨
    (∃ i w, LitsAt id us i w ∧ IsScheme w ∧ i + w.length = n ∧ m = w ++ truncationMark)

theorem cutUrl_lit
    (c : CodePoint) (us : List (Tok CodePoint)) (n : Nat) (m : PyStr) :
    CutUrl (.lit c :: us) (n + 1) m ↔
      CutUrl us n m ∨
        ∃ w, IsScheme w ∧ w.length = n + 1 ∧ (∃ vs, .lit c :: us = w.map Tok.lit ++ vs) ∧
          m = w ++ truncationMark := by
  simp only [CutUrl, hitAt_lit, litsAt_lit]
  constructor
  · rintro (⟨_, ⟨j, rfl, hj⟩, hlt⟩ | ⟨_, h, ⟨j, rfl, hj⟩, hle, hge, rfl⟩ |
      ⟨_, w, ⟨rfl, vs, hvs⟩ | ⟨j, rfl, hj⟩, hw, hlen, rfl⟩)
    · exact Or.inl (Or.inl ⟨j, hj, by omega⟩)
    · exact Or.inl (Or.inr (Or.inl ⟨j, h, hj, by omega, by omega, by
        rw [Nat.add_sub_add_right]⟩))
    · exact Or.inr ⟨w, hw, by omega, ⟨vs, hvs⟩, rfl⟩
    · exact Or.inl (Or.inr (Or.inr ⟨j, w, hj, hw, by omega, rfl⟩))
  · rintro ((⟨j, hj, hlt⟩ | ⟨j, h, hj, hle, hge, rfl⟩ | ⟨j, w, hj, hw, hlen, rfl⟩) |
      ⟨w, hw, hlen, ⟨vs, hvs⟩, rfl⟩)
    · exact Or.inl ⟨j + 1, ⟨j, rfl, hj⟩, by omega⟩
    · exact Or.inr (Or.inl ⟨j + 1, h, ⟨j, rfl, hj⟩, by omega, by omega, by
        rw [Nat.add_sub_add_right]⟩)
    · exact Or.inr (Or.inr ⟨j + 1, w, Or.inr ⟨j, rfl, hj⟩, hw, by omega, rfl⟩)
    · exact Or.inr (Or.inr ⟨0, w, Or.inl ⟨rfl, vs, hvs⟩, hw, by omega, rfl⟩)

/-- Behind a URL that ends before the cut. -/
theorem cutUrl_hit_of_lt
    {h : PyStr} {n : Nat} (hn : h.length < n) (us : List (Tok CodePoint)) (m : PyStr) :
    CutUrl (.hit h :: us) n m ↔ m = h ∨ CutUrl us (n - h.length) m := by
  have hne : ∀ {w : PyStr}, IsScheme w → w ≠ [] := by
    rintro w hw rfl
    obtain ⟨c, t, hnil, -, -⟩ := hw.shape
    cases hnil
  constructor
  · rintro (⟨i, hi, hlt⟩ | ⟨i, g, hi, hle, hge, rfl⟩ | ⟨i, w, hi, hw, hlen, rfl⟩)
    · rcases (hitAt_hit h us i m).mp hi with ⟨rfl, rfl⟩ | ⟨j, rfl, hj⟩
      · exact Or.inl rfl
      · rw [id_eq] at hlt
        exact Or.inr (Or.inl ⟨j, hj, by omega⟩)
    · rcases (hitAt_hit h us i g).mp hi with ⟨rfl, rfl⟩ | ⟨j, rfl, hj⟩
      · omega
      · rw [id_eq] at hle hge ⊢
        exact Or.inr (Or.inr (Or.inl ⟨j, g, hj, by omega, by omega, by rw [Nat.sub_sub]⟩))
    · obtain ⟨j, rfl, hj⟩ := (litsAt_hit h us i (hne hw)).mp hi
      rw [id_eq] at hlen
      exact Or.inr (Or.inr (Or.inr ⟨j, w, hj, hw, by omega, rfl⟩))
  · rintro (rfl | ⟨j, hj, hlt⟩ | ⟨j, g, hj, hle, hge, rfl⟩ | ⟨j, w, hj, hw, hlen, rfl⟩)
    · exact Or.inl ⟨0, (hitAt_hit _ _ _ _).mpr (Or.inl ⟨rfl, rfl⟩), by omega⟩
    · exact Or.inl ⟨h.length + j, (hitAt_hit _ _ _ _).mpr (Or.inr ⟨j, rfl, hj⟩), by omega⟩
    · exact Or.inr (Or.inl ⟨h.length + j, g, (hitAt_hit _ _ _ _).mpr (Or.inr ⟨j, rfl, hj⟩),
        by omega, by omega, by rw [Nat.sub_sub]⟩)
    · exact Or.inr (Or.inr ⟨h.length + j, w, (litsAt_hit _ _ _ (hne hw)).mpr ⟨j, rfl, hj⟩, hw,
        by omega, rfl⟩)

/-- At a URL that the cut goes through. -/
theorem cutUrl_hit_of_le
    {h : PyStr} {n : Nat} (hn : n ≤ h.length) {us : List (Tok CodePoint)}
    (hscheme : ∀ i g, HitAt id us i g → 0 < schemeLength g) (m : PyStr) :
    CutUrl (.hit h :: us) n m ↔ schemeLength h ≤ n ∧ m = h.take n ++ truncationMark := by
  constructor
  · rintro (⟨i, hi, hlt⟩ | ⟨i, g, hi, hle, hge, rfl⟩ | ⟨i, w, hi, hw, hlen, rfl⟩)
    · rcases (hitAt_hit h us i m).mp hi with ⟨rfl, rfl⟩ | ⟨j, rfl, hj⟩
      · omega
      · rw [id_eq] at hlt
        omega
    · rcases (hitAt_hit h us i g).mp hi with ⟨rfl, rfl⟩ | ⟨j, rfl, hj⟩
      · exact ⟨by omega, rfl⟩
      · have := hscheme j g hj
        rw [id_eq] at hle
        omega
    · obtain ⟨c, t, rfl, -, -⟩ := hw.shape
      obtain ⟨j, rfl, hj⟩ := (litsAt_hit h us i (by simp)).mp hi
      simp only [id_eq, List.length_cons] at hlen
      omega
  · rintro ⟨hle, rfl⟩
    exact Or.inr (Or.inl ⟨0, h, (hitAt_hit _ _ _ _).mpr (Or.inl ⟨rfl, rfl⟩), by omega,
      by omega, rfl⟩)

/-- A scheme with one more character behind it is the start of a URL. -/
theorem urlLength?_ne_none
    {w : PyStr} (hw : IsScheme w) {d : CodePoint} (hd : isUrlChar d = true) (r : PyStr) :
    urlLength? (w ++ d :: r) ≠ none := by
  rw [urlLength?, (schemeLength?_eq_some_iff _ _).mpr ⟨w, d :: r, rfl, hw, rfl⟩]
  simp [hd]

theorem schemeLength_pos_of_hitAt
    {f : PyStr → PyStr} {us : List (Tok CodePoint)} {pre : PyStr} (hscan : Scan url pre us) :
    ∀ i h, HitAt f us i h → 0 < schemeLength h :=
  fun _ _ hi => (isUrl_of_hitAt hscan hi).schemeLength_pos

/-- In front of a literal that the cut leaves. -/
theorem mem_cutUrls_lit
    {us : List (Tok CodePoint)} {pre : PyStr} {c : CodePoint} {k : Nat}
    (hscan : Scan url pre (.lit c :: us)) (hk : k < (source us).length)
    (ih : ∀ pre' m, m ∈ cutUrls pre' ((source us).take k) ↔ CutUrl us k m) (pre' m : PyStr) :
    m ∈ cutUrls pre' (c :: (source us).take k) ↔ CutUrl (.lit c :: us) (k + 1) m := by
  obtain ⟨hnone, hus⟩ := scan_lit hscan
  -- a run of literals of this length is the text in front of the cut
  have hword : ∀ {w : PyStr}, w.length = k + 1 →
      (∃ vs, .lit c :: us = w.map Tok.lit ++ vs) → w = c :: (source us).take k := by
    rintro w hlen ⟨vs, hvs⟩
    have hsource := congrArg source hvs
    rw [source_lit, source_append, source_map_lit] at hsource
    have htake := congrArg (List.take (k + 1)) hsource
    rw [← hlen, List.take_left, hlen, List.take_succ_cons] at htake
    exact htake.symm
  rw [cutUrl_lit]
  by_cases hcut : urlLength? (c :: ((source us).take k ++ truncationMark)) = none
  · have hlit : cutUrls pre' (c :: (source us).take k) =
        cutUrls (c :: pre') ((source us).take k) := by
      rw [cutUrls, List.cons_append, tokensFrom_url_lit hcut]
      rfl
    rw [hlit, ih]
    constructor
    · exact Or.inl
    · rintro (h | ⟨w, hw, hlen, hlits, -⟩)
      · exact h
      · refine absurd hcut ?_
        rw [← List.cons_append, ← hword hlen hlits]
        exact urlLength?_ne_none hw (truncationMark_shape.1 ellipsis (by simp [truncationMark])).1 _
  · obtain ⟨_, hsome⟩ := Option.ne_none_iff_exists'.mp hcut
    obtain ⟨_, s, hsplit, -, ⟨w, v, rfl, hw, hv, hall⟩, -⟩ := isUrl_of_urlLength? hsome
    obtain ⟨y, hy, hvy⟩ := scheme_of_mark (x := c :: (source us).take k) (v := v ++ s) hw (by
      simpa using hsplit)
    have hnil : y = [] := by
      cases y with
      | nil =>
          rfl
      | cons d y =>
          cases v with
          | nil =>
              exact absurd rfl hv
          | cons e v =>
              obtain ⟨rfl, -⟩ := List.cons.inj hvy
              refine absurd hnone ?_
              have htext : c :: source us = w ++ e :: (y ++ (source us).drop k) := by
                rw [← List.cons_append, ← List.append_assoc, ← hy, List.cons_append,
                  List.take_append_drop]
              rw [htext]
              exact urlLength?_ne_none hw (hall e (by simp)) _
    rw [hnil, List.append_nil] at hy
    obtain ⟨d, t, rfl, hd, ht⟩ := hw.shape
    obtain ⟨rfl, htake⟩ := List.cons.inj hy
    have hlen : t.length = k := by
      rw [← htake, List.length_take, Nat.min_eq_left hk.le]
    obtain ⟨vs, rfl⟩ := exists_lits_of_plain ht hus (by
      rw [← htake, List.take_append_drop] : source us = t ++ (source us).drop k)
    have hcuts := cutUrls_of_scheme hw (v := []) (by simp) pre'
    rw [List.append_nil] at hcuts
    rw [htake, hcuts, List.mem_singleton]
    constructor
    · rintro rfl
      exact Or.inr ⟨c :: t, hw, by simp [hlen], ⟨vs, rfl⟩, rfl⟩
    · rintro ((⟨i, hi, hlt⟩ | ⟨i, h, hi, hle, -, -⟩ | ⟨i, w, hi, hw', hend, -⟩) |
        ⟨w, -, hlen', hlits, rfl⟩)
      · obtain ⟨j, rfl, -⟩ := (hitAt_append t vs i m).mp hi
        omega
      · have hpos := schemeLength_pos_of_hitAt hus i h hi
        obtain ⟨j, rfl, -⟩ := (hitAt_append t vs i h).mp hi
        omega
      · obtain ⟨d', t', rfl, hd', -⟩ := hw'.shape
        have hmem : d' ∉ t := by
          intro hmem
          rw [ht d' hmem] at hd'
          cases hd'
        obtain ⟨j, rfl, -⟩ := (litsAt_append hmem vs i).mp hi
        simp only [List.length_cons] at hend
        omega
      · rw [hword hlen' hlits, htake]

/-- **The URLs of a text that was cut.** -/
theorem mem_cutUrls_iff
    {us : List (Tok CodePoint)} :
    ∀ {pre : PyStr} {n : Nat}, Scan url pre us → n < (source us).length → ∀ pre' m : PyStr,
      m ∈ cutUrls pre' ((source us).take n) ↔ CutUrl us n m := by
  induction us with
  | nil =>
      intro pre n _ hn
      simp at hn
  | cons u us ih =>
      intro pre n hscan hn pre' m
      cases u with
      | lit c =>
          cases n with
          | zero =>
              have hpos := schemeLength_pos_of_hitAt (f := id) hscan
              have hnil : cutUrls pre' [] = [] := tokensFrom_mark (by simp) pre'
              rw [List.take_zero, hnil]
              simp only [List.not_mem_nil, false_iff]
              rintro (⟨i, -, hlt⟩ | ⟨i, h, hi, hle, -, -⟩ | ⟨i, w, -, hw, hlen, -⟩)
              · omega
              · have := hpos i h hi
                omega
              · obtain ⟨d, t, rfl, -, -⟩ := hw.shape
                simp at hlen
          | succ k =>
              have hk : k < (source us).length := by simpa using hn
              rw [source_lit, List.take_succ_cons]
              exact mem_cutUrls_lit hscan hk (ih (scan_lit hscan).2 hk) pre' m
      | hit h =>
          obtain ⟨hurl, hstop, hus⟩ := scan_hit hscan
          rw [source_hit] at hn ⊢
          rw [List.length_append] at hn
          by_cases hlt : h.length < n
          · have hrest : n - h.length < (source us).length := by omega
            have hstop' : Stops ((source us).take (n - h.length) ++ truncationMark) := by
              obtain ⟨k, hk⟩ : ∃ k, n - h.length = k + 1 := ⟨n - h.length - 1, by omega⟩
              cases hsource : source us with
              | nil =>
                  simp [hsource] at hrest
              | cons c s =>
                  rw [hsource] at hstop
                  rw [hk]
                  exact hstop
            have hne : h ≠ [] := by
              obtain ⟨e, t, rfl, -⟩ := hurl.head
              simp
            have hcut : cutUrls pre' ((h ++ source us).take n) =
                h :: cutUrls (h.reverse ++ pre') ((source us).take (n - h.length)) := by
              rw [List.take_append, List.take_of_length_le hlt.le, cutUrls, List.append_assoc,
                tokensFrom_of_first hne (by rw [first_url, urlLength?_of_isUrl hurl hstop'])]
              rfl
            rw [hcut, List.mem_cons, ih hus hrest, cutUrl_hit_of_lt hlt]
          · have hle : n ≤ h.length := by omega
            have hpos := schemeLength_pos_of_hitAt (f := id) hus
            rw [List.take_append_of_le_length hle, cutUrl_hit_of_le hle hpos]
            obtain ⟨w, v, rfl, hw, -, hall⟩ := hurl
            rw [schemeLength_append hw]
            by_cases hwhole : w.length ≤ n
            · have hv : ∀ c ∈ v.take (n - w.length), isUrlChar c = true :=
                fun c hc => hall c (List.mem_of_mem_take hc)
              rw [List.take_append, List.take_of_length_le hwhole, cutUrls_of_scheme hw hv,
                List.mem_singleton]
              simp [hwhole]
            · have hpart : n < w.length := by omega
              rw [List.take_append_of_le_length hpart.le, cutUrls_of_part hw hpart]
              simp [hwhole]

end Cut

section Hosts

variable (U : UnicodeData) (hosts : List PyStr)

/-- The authority of a URL is one of the hosts, in whatever case. -/
def HostListed (u : PyStr) : Prop :=
  ∃ host ∈ hosts, U.lower (authority u) = U.lower host

instance (u : PyStr) : Decidable (HostListed U hosts u) :=
  inferInstanceAs (Decidable (∃ host ∈ hosts, U.lower (authority u) = U.lower host))

/-- A URL of the text that the guard lets through, with its place in the redacted text. -/
def LetThrough (text : PyStr) (i : Nat) (h : PyStr) : Prop :=
  hostAllowed U hosts h = true ∧ HitAt (redact (hostAllowed U hosts)) (tokens url text) i h

/-- A bare scheme of the text, with its place in the redacted text. -/
def BareScheme (text : PyStr) (i : Nat) (w : PyStr) : Prop :=
  IsScheme w ∧ LitsAt (redact (hostAllowed U hosts)) (tokens url text) i w

/--
What a text must satisfy, as it reaches the guard: a URL that the guard lets through, and
whose scheme the cut leaves whole, has an allowed authority, which ends in front of the
cut; and no bare scheme ends at the cut.
-/
structure UrlsTrusted (maxLen : Nat) (text : PyStr) : Prop where
  listed : ∀ i h, LetThrough U hosts text i h →
    (maxLen < (dropDisallowedUrls U hosts text).length → i + schemeLength h ≤ maxLen) →
      HostListed U hosts h
  complete : maxLen < (dropDisallowedUrls U hosts text).length →
    ∀ i h, LetThrough U hosts text i h → i + schemeLength h ≤ maxLen →
      i + schemeLength h + (authority h).length < maxLen
  noBareScheme : maxLen < (dropDisallowedUrls U hosts text).length →
    ∀ i w, BareScheme U hosts text i w → i + w.length ≠ maxLen

variable {U hosts}

theorem authority_append
    {w : PyStr} (hw : IsScheme w) (v : PyStr) :
    authority (w ++ v) = v.takeWhile inAuthority := by
  rw [authority, schemeLength_append hw, List.drop_left]

theorem authority_length_le
    {h : PyStr} (hurl : IsUrl h) :
    schemeLength h + (authority h).length ≤ h.length := by
  obtain ⟨w, v, rfl, hw, -, -⟩ := hurl
  rw [schemeLength_append hw, authority_append hw, List.length_append]
  have := (List.takeWhile_sublist (l := v) inAuthority).length_le
  omega

/-- A host of ASCII characters is no authority with an ellipsis in it. -/
theorem not_hostListed_of_ellipsis
    (hascii : ∀ host ∈ hosts, ∀ c ∈ host, c.isAscii = true)
    {u : PyStr} (hu : ellipsis ∈ authority u) :
    ¬ HostListed U hosts u := by
  rintro ⟨host, hhost, heq⟩
  obtain ⟨d, hd, hnot⟩ := U.lower_nonascii (authority u) ⟨ellipsis, hu, by decide, by decide⟩
  rw [heq, U.lower_ascii host (hascii host hhost)] at hd
  obtain ⟨c, hc, rfl⟩ := List.mem_map.mp hd
  have hc' := hascii host hhost c hc
  simp only [isAscii, decide_eq_true_eq, decide_eq_false_iff_not] at hc' hnot
  apply hnot
  rw [toLowerAscii]
  split
  · rename_i hupper
    simp only [isUpperAscii, decide_eq_true_eq] at hupper
    simp only
    omega
  · exact hc'

theorem takeWhile_mark :
    truncationMark.takeWhile inAuthority = truncationMark := by
  decide +kernel

theorem not_hostListed_bare
    (hascii : ∀ host ∈ hosts, ∀ c ∈ host, c.isAscii = true)
    {w : PyStr} (hw : IsScheme w) :
    ¬ HostListed U hosts (w ++ truncationMark) := by
  apply not_hostListed_of_ellipsis hascii
  rw [authority_append hw, takeWhile_mark]
  simp [truncationMark]

/-- The URL that the cut goes through keeps its authority, or gets one that is no host. -/
theorem hostListed_cut_iff
    (hascii : ∀ host ∈ hosts, ∀ c ∈ host, c.isAscii = true)
    {h : PyStr} (hurl : IsUrl h) {k : Nat} (hle : schemeLength h ≤ k) (hk : k ≤ h.length) :
    HostListed U hosts (h.take k ++ truncationMark) ↔
      HostListed U hosts h ∧ schemeLength h + (authority h).length < k := by
  obtain ⟨w, v, rfl, hw, -, -⟩ := hurl
  rw [schemeLength_append hw] at hle ⊢
  rw [List.length_append] at hk
  have htake : (w ++ v).take k ++ truncationMark =
      w ++ (v.take (k - w.length) ++ truncationMark) := by
    rw [List.take_append, List.take_of_length_le hle, List.append_assoc]
  have hlen : (v.take (k - w.length)).length = k - w.length := by
    rw [List.length_take]
    omega
  rw [authority_append hw, htake]
  by_cases hshort : (v.takeWhile inAuthority).length < k - w.length
  · -- the authority ends in front of the cut
    have hsame : authority (w ++ (v.take (k - w.length) ++ truncationMark)) =
        authority (w ++ v) := by
      rw [authority_append hw, authority_append hw, List.takeWhile_append, ← List.take_takeWhile,
        List.length_take, hlen, if_neg (by omega), List.take_of_length_le (by omega)]
    have hend : w.length + (v.takeWhile inAuthority).length < k := by omega
    simp only [HostListed, hsame, hend, and_true]
  · have hellipsis : ellipsis ∈ authority (w ++ (v.take (k - w.length) ++ truncationMark)) := by
      rw [authority_append hw, List.takeWhile_append, ← List.take_takeWhile, List.length_take,
        hlen, if_pos (by omega), takeWhile_mark]
      simp [truncationMark]
    have hend : ¬ w.length + (v.takeWhile inAuthority).length < k := by omega
    simp only [hend, and_false, iff_false]
    exact not_hostListed_of_ellipsis hascii hellipsis

theorem tokens_dropDisallowedUrls
    (text : PyStr) :
    tokens url (dropDisallowedUrls U hosts text) =
      (tokens url text).flatMap (keepTok (hostAllowed U hosts)) := by
  exact tokensFrom_redacted (scan_tokens url text) []

/-- The URLs behind the guard are those that it lets through. -/
theorem mem_urls_dropDisallowedUrls_iff
    (text m : PyStr) :
    m ∈ urls (dropDisallowedUrls U hosts text) ↔ ∃ i, LetThrough U hosts text i m := by
  rw [urls, tokens_dropDisallowedUrls, mem_hits_iff id]
  simp only [hitAt_redacted, LetThrough]

theorem isUrl_of_letThrough
    {text h : PyStr} {i : Nat} (hi : LetThrough U hosts text i h) :
    IsUrl h := by
  exact isUrl_of_hitAt (scan_tokens url text) hi.2

/-- The URLs of a text that is cut behind the guard. -/
theorem mem_urls_truncated_iff
    {text : PyStr} {maxLen : Nat}
    (hcut : maxLen < (dropDisallowedUrls U hosts text).length) (m : PyStr) :
    m ∈ urls ((dropDisallowedUrls U hosts text).take maxLen ++ truncationMark) ↔
      (∃ i, LetThrough U hosts text i m ∧ i + m.length < maxLen) ∨
        (∃ i h, LetThrough U hosts text i h ∧ i + schemeLength h ≤ maxLen ∧
          maxLen ≤ i + h.length ∧ m = h.take (maxLen - i) ++ truncationMark) ∨
        (∃ i w, BareScheme U hosts text i w ∧ i + w.length = maxLen ∧
          m = w ++ truncationMark) := by
  have hsource := source_tokens url (dropDisallowedUrls U hosts text)
  have hurls := mem_cutUrls_iff (n := maxLen)
    (scan_tokens url (dropDisallowedUrls U hosts text)) (by rwa [hsource]) [] m
  rw [hsource, tokens_dropDisallowedUrls] at hurls
  refine Iff.trans hurls ?_
  simp only [CutUrl, hitAt_redacted, LetThrough, BareScheme]
  constructor
  · rintro (h | h | ⟨i, w, hi, hw, hlen, rfl⟩)
    · exact Or.inl h
    · exact Or.inr (Or.inl h)
    · exact Or.inr (Or.inr ⟨i, w, ⟨hw, (litsAt_redacted hw _ i).mp hi⟩, hlen, rfl⟩)
  · rintro (h | h | ⟨i, w, ⟨hw, hi⟩, hlen, rfl⟩)
    · exact Or.inl h
    · exact Or.inr (Or.inl h)
    · exact Or.inr (Or.inr ⟨i, w, (litsAt_redacted hw _ i).mpr hi, hw, hlen, rfl⟩)

/-- Every URL of a text that is cut behind the guard is listed. -/
theorem truncated_listed_iff
    (hascii : ∀ host ∈ hosts, ∀ c ∈ host, c.isAscii = true)
    {text : PyStr} {maxLen : Nat}
    (hcut : maxLen < (dropDisallowedUrls U hosts text).length) :
    (∀ u ∈ urls ((dropDisallowedUrls U hosts text).take maxLen ++ truncationMark),
        HostListed U hosts u) ↔
      UrlsTrusted U hosts maxLen text := by
  simp only [mem_urls_truncated_iff hcut]
  constructor
  · intro h
    have hboth : ∀ i g, LetThrough U hosts text i g → i + schemeLength g ≤ maxLen →
        HostListed U hosts g ∧ i + schemeLength g + (authority g).length < maxLen := by
      intro i g hg hle
      have hurl := isUrl_of_letThrough hg
      by_cases hlt : i + g.length < maxLen
      · have := authority_length_le hurl
        exact ⟨h g (Or.inl ⟨i, hg, hlt⟩), by omega⟩
      · have hshown := h _ (Or.inr (Or.inl ⟨i, g, hg, hle, by omega, rfl⟩))
        obtain ⟨hlisted, hend⟩ :=
          (hostListed_cut_iff hascii hurl (by omega) (by omega)).mp hshown
        exact ⟨hlisted, by omega⟩
    refine ⟨fun i g hg hle => (hboth i g hg (hle hcut)).1,
      fun _ i g hg hle => (hboth i g hg hle).2, ?_⟩
    intro _ i w hw hlen
    exact not_hostListed_bare hascii hw.1 (h _ (Or.inr (Or.inr ⟨i, w, hw, hlen, rfl⟩)))
  · rintro ⟨hlisted, hcomplete, hbare⟩ m
      (⟨i, hm, hlt⟩ | ⟨i, g, hg, hle, hge, rfl⟩ | ⟨i, w, hw, hlen, rfl⟩)
    · have := authority_length_le (isUrl_of_letThrough hm)
      exact hlisted i m hm fun _ => by omega
    · have hend := hcomplete hcut i g hg hle
      exact (hostListed_cut_iff hascii (isUrl_of_letThrough hg) (by omega) (by omega)).mpr
        ⟨hlisted i g hg fun _ => hle, by omega⟩
    · exact absurd hlen (hbare hcut i w hw)

/--
**Every URL of a sanitized string has an allowed host exactly when the text that reaches the
guard can be trusted with its URLs.**
-/
theorem sanitized_urls_listed_iff
    (U : UnicodeData) (nfkc : PyStr → PyStr) (hosts : List PyStr)
    (hascii : ∀ host ∈ hosts, ∀ c ∈ host, c.isAscii = true) (maxLen : Nat) (value : PyStr) :
    (∀ u ∈ urls (sanitizeMqOutput U nfkc hosts maxLen value), HostListed U hosts u) ↔
      UrlsTrusted U hosts maxLen (scrubInjectionMarkers U (clean nfkc value)) := by
  rw [sanitizeMqOutput, truncate]
  by_cases hcut : (dropDisallowedUrls U hosts
      (scrubInjectionMarkers U (clean nfkc value))).length > maxLen
  · rw [if_pos hcut]
    exact truncated_listed_iff hascii hcut
  · rw [if_neg hcut]
    simp only [mem_urls_dropDisallowedUrls_iff]
    constructor
    · intro h
      exact ⟨fun i g hg _ => h g ⟨i, hg⟩, fun hlt => absurd hlt hcut, fun hlt => absurd hlt hcut⟩
    · rintro ⟨hlisted, -, -⟩ g ⟨i, hg⟩
      exact hlisted i g hg fun hlt => absurd hlt hcut

theorem sanitized_urls_listed_docs :
    UrlsTrusted UnicodeData.basic defaultDocHosts maxStringLen
      (scrubInjectionMarkers UnicodeData.basic
        (clean id (lit "See https://www.ibm.com/docs/good"))) :=
  (sanitized_urls_listed_iff UnicodeData.basic id defaultDocHosts (by decide) maxStringLen
    (lit "See https://www.ibm.com/docs/good")).mp (by decide +kernel)

/-- A longer host that starts with the allowed one comes through. -/
theorem longer_host_let_through :
    ¬ ∀ u ∈ urls (sanitizeMqOutput UnicodeData.basic id defaultDocHosts maxStringLen
        (lit "https://www.ibm.com.evil.com")),
      HostListed UnicodeData.basic defaultDocHosts u := by
  decide +kernel

end Hosts

end Sanitizer
end MqSentinel
