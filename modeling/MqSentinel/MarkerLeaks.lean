import MqSentinel.ScrubbedCores
import MqSentinel.UrlRedaction

/-!
# What the sanitizer leaves of the injection markers

Behind the nine passes the guard redacts URLs, and the cut ends the text anywhere.  A
core comes through the guard when no URL takes its first word along, since a URL has no
blank in it (`exists_core_of_guard`, `guard_of_core`).  The markers in brackets and the
headings never come back, so a cut leaves a marker exactly when an exposed core in front of
it ends at a word boundary or at the cut (`match_of_cut_iff`).

So a text is safe from one cut exactly when no such core stands in front of it, and from
every cut exactly when no place of it leaks (`no_marker_survives_iff`).
-/

namespace MqSentinel
namespace Sanitizer

open Regex CodePoint

section Stops

theorem blind_url
    (y : PyStr) :
    Rx.Blind y url := by
  exact ⟨⟨Rx.blind_word y _, ⟨trivial, trivial⟩, Rx.blind_word y _⟩, trivial, trivial⟩

/-- A character that no URL has ends the search for one. -/
theorem urlLength?_stop
    {d : CodePoint} (hd : isUrlChar d = false) (x y : PyStr) :
    urlLength? (x ++ d :: y) = urlLength? x := by
  have hclasses : ∀ p ∈ httpClasses ++ httpsClasses, p d = false := by
    intro p hp
    rw [httpClasses, httpsClasses, ← List.map_append] at hp
    obtain ⟨c, hc, rfl⟩ := List.mem_map.mp hp
    have hletters : ∀ b ∈ lit "http://" ++ lit "https://", b ∈ lit "https://" := by
      decide
    by_contra hci
    rw [isUrlChar_of_ci (hletters c hc) (by simpa using hci)] at hd
    cases hd
  have hscheme : schemeLength? (x ++ d :: y) = schemeLength? x := by
    rw [schemeLength?, schemeLength?,
      Rx.startsWith_append_stop (fun p hp => hclasses p (List.mem_append_left _ hp)),
      Rx.startsWith_append_stop (fun p hp => hclasses p (List.mem_append_right _ hp))]
  rw [urlLength?, urlLength?, hscheme]
  cases hk : schemeLength? x with
  | none =>
      rfl
  | some k =>
      obtain ⟨w, v, rfl, -, rfl⟩ := (schemeLength?_eq_some_iff _ _).mp hk
      have htake : (v ++ d :: y).takeWhile isUrlChar = v.takeWhile isUrlChar := by
        rw [List.takeWhile_append]
        split
        · rename_i hlen
          rw [List.takeWhile_cons_of_neg (by simp [hd]), List.append_nil]
          exact ((List.takeWhile_prefix _).eq_of_length hlen).symm
        · rfl
      simp only [List.append_assoc, List.drop_left, htake]

/-- The pass starts afresh at every place. -/
theorem tokensFrom_url_fresh
    (pre s : PyStr) :
    tokensFrom url pre 0 s = tokens url s := by
  have hcontext : ∀ a post, Rx.first url (a ++ pre) post = Rx.first url (a ++ []) post :=
    fun a post => by rw [first_url, first_url]
  exact tokensFrom_congr hcontext s [] 0

/-- The pass over a text with such a character is two passes. -/
theorem tokens_stop
    {d : CodePoint} (hd : isUrlChar d = false) (x y : PyStr) :
    tokens url (x ++ d :: y) = tokens url x ++ .lit d :: tokens url y := by
  have hlocal : ∀ a b, x = a ++ b → b ≠ [] → Rx.first url (a.reverse ++ []) (b ++ d :: y) =
      Rx.first url (a.reverse ++ []) b := by
    intro a b _ _
    rw [first_url, first_url, urlLength?_stop hd]
  have hnone : urlLength? (d :: y) = none := by
    have := urlLength?_stop hd [] y
    rw [List.nil_append] at this
    rw [this]
    rfl
  rw [tokens, tokensFrom_append x [] 0 (Nat.zero_le _) hlocal, tokensFrom_url_lit hnone,
    tokensFrom_url_fresh (d :: _)]
  rfl

end Stops

section Guard

variable {U : UnicodeData} {hosts : List PyStr}

theorem dropDisallowedUrls_eq
    (text : PyStr) :
    dropDisallowedUrls U hosts text = render (redact (hostAllowed U hosts)) (tokens url text) := by
  rfl

theorem dropDisallowedUrls_blank
    (x y : PyStr) :
    dropDisallowedUrls U hosts (x ++ ch ' ' :: y) =
      dropDisallowedUrls U hosts x ++ ch ' ' :: dropDisallowedUrls U hosts y := by
  simp only [dropDisallowedUrls_eq, tokens_stop (d := ch ' ') (by decide), render_append,
    render_lit]

/-- No character of a URL ends one. -/
theorem IsUrl.isUrlChar
    {m : PyStr} (h : IsUrl m) :
    ∀ c ∈ m, isUrlChar c = true := by
  obtain ⟨w, v, rfl, hw, -, hv⟩ := h
  intro c hc
  rcases List.mem_append.mp hc with hc | hc
  · exact hw.isUrlChar c hc
  · exact hv c hc

theorem isUrl_of_mem
    {s m : PyStr} (h : Tok.hit m ∈ tokens url s) :
    IsUrl m := by
  obtain ⟨t₁, t₂, ht⟩ := List.append_of_mem h
  have hscan := scan_tokens url s
  rw [ht] at hscan
  exact (scan_hit hscan.drop).1

theorem redact_ne_nil
    {m : PyStr} (hm : IsUrl m) (ok : PyStr → Bool) :
    redact ok m ≠ [] := by
  obtain ⟨c, t, rfl, -⟩ := hm.head
  rw [redact]
  split
  · simp
  · decide

theorem blank_not_mem_redact
    {m : PyStr} (hm : IsUrl m) (ok : PyStr → Bool) :
    ch ' ' ∉ redact ok m := by
  rw [redact]
  split
  · intro hmem
    have := hm.isUrlChar _ hmem
    revert this
    decide
  · decide

/-- A blank of the result was there, and what is around it was redacted on its own. -/
theorem exists_blank_of_guard
    {s x' y' : PyStr} (h : dropDisallowedUrls U hosts s = x' ++ ch ' ' :: y') :
    ∃ x y, s = x ++ ch ' ' :: y ∧ dropDisallowedUrls U hosts x = x' ∧
      dropDisallowedUrls U hosts y = y' := by
  rw [dropDisallowedUrls_eq] at h
  have htext : render (redact (hostAllowed U hosts)) (tokens url s) = x' ++ [ch ' '] ++ y' := by
    rw [h]
    simp
  have hapart : ∀ t₁ m t₂, tokens url s = t₁ ++ Tok.hit m :: t₂ →
      x'.length + [ch ' '].length ≤ (render (redact (hostAllowed U hosts)) t₁).length ∨
        (render (redact (hostAllowed U hosts)) t₁).length +
          (redact (hostAllowed U hosts) m).length ≤ x'.length := by
    intro t₁ m t₂ hts
    have hm : IsUrl m := isUrl_of_mem (s := s) (by rw [hts]; simp)
    refine clear_singleton (blank_not_mem_redact hm (hostAllowed U hosts))
      (render (redact (hostAllowed U hosts)) t₁) (render (redact (hostAllowed U hosts)) t₂)
      x' y' ?_
    rw [← htext, hts]
    simp
  obtain ⟨t₁, t₂, htokens, rfl, rfl⟩ := exists_lits_of_disjoint (by simp)
    (fun m hm => redact_ne_nil (isUrl_of_mem hm) _) htext hapart
  have hs := source_tokens url s
  rw [htokens] at hs
  have hsplit : s = source t₁ ++ ch ' ' :: source t₂ := by
    rw [← hs]
    simp
  have hscan := scan_tokens url s
  rw [htokens, List.append_assoc] at hscan
  have hfirst : tokens url (source t₁) = t₁ :=
    tokensFrom_of_scan (by simp) (blind_url _) hscan
  have htwo := tokens_stop (d := ch ' ') (by decide) (source t₁) (source t₂)
  rw [← hsplit, htokens, hfirst] at htwo
  have hrest : t₂ = tokens url (source t₂) := by simpa using htwo
  refine ⟨source t₁, source t₂, hsplit, ?_, ?_⟩
  · rw [dropDisallowedUrls_eq, hfirst]
  · rw [dropDisallowedUrls_eq, ← hrest]

/-- A URL that the guard lets through as literals. -/
def guardTok (ok : PyStr → Bool) : Tok CodePoint → List (Tok CodePoint)
  | .lit c => [.lit c]
  | .hit m => if ok m then m.map Tok.lit else [.hit m]

section GuardTok

variable {ok : PyStr → Bool}

theorem render_guardTok
    (ts : List (Tok CodePoint)) :
    render (fun _ => redactedUrl) (ts.flatMap (guardTok ok)) = render (redact ok) ts := by
  induction ts with
  | nil =>
      rfl
  | cons t ts ih =>
      cases t with
      | lit c =>
          simp [guardTok, ih]
      | hit m =>
          rw [List.flatMap_cons, render_append, ih, render_hit, guardTok, redact]
          by_cases hok : ok m = true
          · simp [hok]
          · simp [hok]

theorem source_guardTok
    (ts : List (Tok CodePoint)) :
    source (ts.flatMap (guardTok ok)) = source ts := by
  induction ts with
  | nil =>
      rfl
  | cons t ts ih =>
      cases t with
      | lit c =>
          simp [guardTok, ih]
      | hit m =>
          rw [List.flatMap_cons, source_append, ih, source_hit, guardTok]
          by_cases hok : ok m = true
          · simp [hok]
          · simp [hok]

/-- Behind a URL that is redacted the URL does not go on. -/
theorem stops_of_guardTok
    {ts : List (Tok CodePoint)} :
    ∀ {pre : PyStr}, Scan url pre ts → ∀ {t₁ m t₂},
      ts.flatMap (guardTok ok) = t₁ ++ Tok.hit m :: t₂ → Stops (source t₂) := by
  induction ts with
  | nil =>
      intro pre _ t₁ m t₂ h
      simp at h
  | cons t ts ih =>
      intro pre hscan t₁ m t₂ h
      have hlits : ∀ {x : PyStr} {pre : PyStr}, Scan url pre ts →
          x.map Tok.lit ++ ts.flatMap (guardTok ok) = t₁ ++ Tok.hit m :: t₂ →
            Stops (source t₂) := by
        intro x pre hts h
        rcases List.append_eq_append_iff.mp h with ⟨z, -, hz⟩ | ⟨z, hz, hrest⟩
        · exact ih hts hz
        · cases z with
          | nil =>
              have hfirst : ts.flatMap (guardTok ok) = [] ++ Tok.hit m :: t₂ := hrest.symm
              exact ih hts hfirst
          | cons u z =>
              obtain ⟨rfl, -⟩ := List.cons.inj hrest
              have hmem : (Tok.hit m : Tok CodePoint) ∈ x.map Tok.lit := by
                rw [hz]
                simp
              obtain ⟨c, -, hc⟩ := List.mem_map.mp hmem
              cases hc
      rw [List.flatMap_cons] at h
      cases t with
      | lit c =>
          exact hlits (x := [c]) (scan_lit hscan).2 h
      | hit k =>
          obtain ⟨-, hstop, hts⟩ := scan_hit hscan
          rw [guardTok] at h
          by_cases hok : ok k = true
          · rw [if_pos hok] at h
            exact hlits hts h
          · rw [if_neg hok, List.singleton_append] at h
            cases t₁ with
            | nil =>
                obtain ⟨-, rfl⟩ := List.cons.inj h
                rwa [source_guardTok]
            | cons u t₁ =>
                exact ih hts (List.cons.inj h).2

end GuardTok

/--
A word that keeps clear of `[REDACTED:url]` was there, and it has the same character in
front when it goes on with a URL.
-/
theorem exists_word_of_guard
    {s a' v b' : PyStr} (hv : v ≠ []) (hclear : Clear redactedUrl v)
    (h : dropDisallowedUrls U hosts s = a' ++ v ++ b') :
    ∃ a b, s = a ++ v ++ b ∧ (b' = [] → b = []) ∧
      ((∃ c t, v = c :: t ∧ isUrlChar c = true) → a'.getLast? = a.getLast?) := by
  rw [dropDisallowedUrls_eq, ← render_guardTok] at h
  obtain ⟨t₁, t₂, htokens, rfl, rfl⟩ := exists_lits_of_clear (fun _ _ => rfl) (by decide) hv
    hclear h
  have hguarded : source ((tokens url s).flatMap (guardTok (hostAllowed U hosts))) =
      source (tokens url s) := source_guardTok _
  have hs : s = source t₁ ++ v ++ source t₂ := by
    rw [← source_tokens url s, ← hguarded, htokens]
    simp
  refine ⟨source t₁, source t₂, hs, ?_, ?_⟩
  · intro hnil
    have ht₂ : t₂ = [] := eq_nil_of_render_eq_nil (f := fun _ => redactedUrl)
      (fun _ _ => by decide) hnil
    rw [ht₂]
    rfl
  · rintro ⟨c, t, rfl, hc⟩
    rcases List.eq_nil_or_concat t₁ with rfl | ⟨x, u, rfl⟩
    · rfl
    · rw [List.concat_eq_append] at htokens ⊢
      cases u with
      | lit d =>
          simp
      | hit m =>
          have hhit : (tokens url s).flatMap (guardTok (hostAllowed U hosts)) =
              x ++ Tok.hit m :: ((c :: t).map Tok.lit ++ t₂) := by
            rw [htokens]
            simp
          have hstop := stops_of_guardTok (scan_tokens url s) hhit
          rw [source_append, source_map_lit] at hstop
          have hnot : isUrlChar c = false := hstop
          rw [hnot] at hc
          cases hc

end Guard

section GuardedCores

variable {U : UnicodeData} {hosts : List PyStr}

/-- The first word of a core has a letter that no `[REDACTED:url]` has. -/
theorem firstWord_letter :
    ∀ x ∈ coreWords, ∃ c ∈ firstWord x, c ∈ lit "gyw" := by
  simp only [coreWords, closedWords, ignoreWords, disregardWords, nowWords, newWords, lit,
    String.reduceToList, List.map_cons, List.map_nil, List.cons_append, List.nil_append]
  decide +kernel

/-- No URL starts in a core. -/
theorem coreWords_no_url :
    ∀ x ∈ coreWords, ∀ k < x.length, ¬ (x.drop k).take 2 <+: lit "ht" := by
  simp only [coreWords, closedWords, ignoreWords, disregardWords, nowWords, newWords, lit,
    String.reduceToList, List.map_cons, List.map_nil, List.cons_append, List.nil_append]
  decide +kernel

theorem firstWord_map_reFold
    (w : PyStr) :
    firstWord (w.map reFold) = (firstWord w).map reFold := by
  have hsame : ∀ c : CodePoint, (c.reFold != ch ' ') = (c != ch ' ') := by
    intro c
    by_cases hc : c = ch ' '
    · subst hc
      decide
    · have : c.reFold ≠ ch ' ' := fun hfold => hc (eq_of_reFold (by decide) hfold)
      rw [bne_iff_ne.mpr this, bne_iff_ne.mpr hc]
  rw [firstWord, firstWord, List.takeWhile_map]
  congr 2
  funext c
  exact hsame c

theorem IsCore.firstWord_clear
    {w : PyStr} (h : IsCore w) :
    firstWord w ≠ [] ∧ Clear redactedUrl (firstWord w) := by
  obtain ⟨f, hf, hletter⟩ := firstWord_letter _ h
  rw [firstWord_map_reFold] at hf
  obtain ⟨c, hc, rfl⟩ := List.mem_map.mp hf
  have hnot : c ∉ redactedUrl := by
    have hall : ∀ d ∈ redactedUrl, d.reFold ∉ lit "gyw" := by decide
    exact fun hmem => hall c hmem hletter
  have hmem : ∀ d ∈ firstWord w, d ∈ w := fun d hd => (List.takeWhile_prefix _).mem hd
  refine ⟨List.ne_nil_of_mem hc, ?_⟩
  obtain ⟨l, r, hsplit⟩ := List.append_of_mem hc
  rw [hsplit] at hmem ⊢
  exact clear_of_split hnot (by decide) (by decide)
    (fun d hd => (h.unfenced d (hmem d (by simp [hd]))).2)
    fun d hd => (h.unfenced d (hmem d (by simp [hd]))).1

/-- A letter of a core is one of a URL. -/
theorem isUrlChar_of_lower
    {c : CodePoint} (hc : c.reFold.isLowerAscii = true) :
    isUrlChar c = true := by
  by_contra hnot
  have hstop : isUrlChar c = false := by simpa using hnot
  rw [reFold_of_stop hstop] at hc
  simp only [isUrlChar, Bool.not_eq_false', Bool.or_eq_true, beq_iff_eq] at hstop
  rcases hstop with ((((hspace | rfl) | rfl) | rfl) | rfl) | rfl
  · simp only [isSpace, isLowerAscii, decide_eq_true_eq] at hspace hc
    omega
  all_goals
    revert hc
    decide

/-- The first two letters of a URL. -/
theorem IsUrl.two
    {m : PyStr} (h : IsUrl m) :
    ∃ c d t, m = c :: d :: t ∧ [c.reFold, d.reFold] = lit "ht" := by
  have hfits : ∀ {ps : List (CodePoint → Bool)} {w : PyStr},
      Rx.Fits (ci (ch 'h') :: ci (ch 't') :: ps) w →
        ∃ c d t, w = c :: d :: t ∧ [c.reFold, d.reFold] = lit "ht" := by
    intro ps w hw
    cases hw with
    | @cons _ c _ t hc ht =>
        cases ht with
        | @cons _ d _ t hd ht =>
            have hc : c.reFold = (ch 'h').reFold := by simpa [ci] using hc
            have hd : d.reFold = (ch 't').reFold := by simpa [ci] using hd
            refine ⟨c, d, t, rfl, ?_⟩
            rw [hc, hd]
            decide
  obtain ⟨w, v, rfl, hw, -, -⟩ := h
  have htwo : ∃ c d t, w = c :: d :: t ∧ [c.reFold, d.reFold] = lit "ht" := by
    rcases hw with hw | hw
    · have hshape : Rx.Fits (ci (ch 'h') :: ci (ch 't') :: (lit "tp://").map ci) w := hw
      exact hfits hshape
    · have hshape : Rx.Fits (ci (ch 'h') :: ci (ch 't') :: (lit "tps://").map ci) w := hw
      exact hfits hshape
  obtain ⟨c, d, t, rfl, hfold⟩ := htwo
  exact ⟨c, d, t ++ v, rfl, hfold⟩

theorem not_isUrl_in_core
    {w u v t m s : PyStr} (hw : IsCore w) (hsplit : w = u ++ v) (hv : v ≠ [])
    (h : v ++ t = m ++ s) :
    ¬ IsUrl m := by
  intro hm
  obtain ⟨c, d, r, rfl, hfold⟩ := hm.two
  have hpos := List.length_pos_iff.mpr hv
  refine coreWords_no_url _ hw u.length (by simp [hsplit, hpos]) ?_
  have hdrop : (w.map reFold).drop u.length = v.map reFold := by
    rw [hsplit, List.map_append, List.drop_left' (by simp)]
  rw [hdrop, ← hfold]
  exact take_two_prefix hv (by simpa using h)

/-- The guard leaves the rest of a core alone. -/
theorem exists_rest_of_guard
    {w : PyStr} (hw : IsCore w) {ok : PyStr → Bool} {ts : List (Tok CodePoint)} :
    ∀ {u v b' pre : PyStr}, w = u ++ v → Scan url pre ts → render (redact ok) ts = v ++ b' →
      ∃ b, source ts = v ++ b := by
  induction ts with
  | nil =>
      intro u v b' pre _ _ h
      obtain ⟨rfl, -⟩ := List.append_eq_nil_iff.mp h.symm
      exact ⟨[], rfl⟩
  | cons t ts ih =>
      intro u v b' pre hsplit hscan h
      cases v with
      | nil =>
          exact ⟨_, rfl⟩
      | cons c v =>
          cases t with
          | lit d =>
              obtain ⟨rfl, hrest⟩ := List.cons.inj h
              obtain ⟨b, hb⟩ := ih (u := u ++ [d]) (by simp [hsplit]) (scan_lit hscan).2 hrest
              exact ⟨b, by rw [source_lit, hb]; rfl⟩
          | hit m =>
              exfalso
              obtain ⟨hm, -, -⟩ := scan_hit hscan
              rw [render_hit, redact] at h
              by_cases hok : ok m = true
              · rw [if_pos hok] at h
                exact not_isUrl_in_core hw hsplit (by simp) h.symm hm
              · rw [if_neg hok] at h
                have hbracket : redactedUrl = ch '[' :: lit "REDACTED:url]" := by rfl
                rw [hbracket] at h
                obtain ⟨rfl, -⟩ := List.cons.inj h
                exact (hw.unfenced (ch '[') (by simp [hsplit])).1 rfl

theorem dropDisallowedUrls_rest
    {w : PyStr} (hw : IsCore w) (b : PyStr) :
    ∀ {u v : PyStr}, w = u ++ v →
      dropDisallowedUrls U hosts (v ++ b) = v ++ dropDisallowedUrls U hosts b := by
  intro u v
  induction v generalizing u with
  | nil =>
      intro _
      rfl
  | cons c v ih =>
      intro hsplit
      have hnone : urlLength? (c :: (v ++ b)) = none := by
        cases hsome : urlLength? (c :: (v ++ b)) with
        | none =>
            rfl
        | some n =>
            obtain ⟨m, s, htext, -, hm, -⟩ := isUrl_of_urlLength? hsome
            exact absurd hm (not_isUrl_in_core hw hsplit (by simp) htext)
      have hrest := ih (u := u ++ [c]) (by simp [hsplit])
      rw [dropDisallowedUrls_eq] at hrest ⊢
      rw [List.cons_append, tokens, tokensFrom_url_lit hnone, tokensFrom_url_fresh, render_lit,
        hrest]
      rfl

/-- A first word that ends a guarded text was there, with the same character in front. -/
theorem exists_firstWord_of_guard
    {w x a' : PyStr} (hw : IsCore w)
    (h : dropDisallowedUrls U hosts x = a' ++ firstWord w) :
    ∃ a, x = a ++ firstWord w ∧ a'.getLast? = a.getLast? := by
  obtain ⟨hne, hclear⟩ := hw.firstWord_clear
  have hguard : dropDisallowedUrls U hosts x = a' ++ firstWord w ++ [] := by
    rw [h, List.append_nil]
  obtain ⟨a, b, rfl, hnil, hlast⟩ := exists_word_of_guard hne hclear hguard
  obtain rfl := hnil rfl
  refine ⟨a, by simp, hlast ?_⟩
  obtain ⟨c, t, hct⟩ := List.exists_cons_of_ne_nil hne
  obtain ⟨q, hq⟩ := hw.split
  refine ⟨c, t, hct, isUrlChar_of_lower (hw.head_ne (e := []) (t := t ++ ch ' ' :: q) ?_)⟩
  rw [List.append_nil, ← List.cons_append, ← hct]
  exact hq

/-- **A core of a guarded text was there, and the guard leaves its first word.** -/
theorem exists_core_of_guard
    {s a' w b' : PyStr} (hw : IsCore w)
    (h : dropDisallowedUrls U hosts s = a' ++ w ++ b') (hstart : NoWord U a'.reverse) :
    ∃ a b, s = a ++ w ++ b ∧ NoWord U a.reverse ∧
      dropDisallowedUrls U hosts (a ++ firstWord w) = a' ++ firstWord w := by
  obtain ⟨t, ht⟩ := hw.split
  have hsplit : dropDisallowedUrls U hosts s =
      (a' ++ firstWord w) ++ ch ' ' :: (t ++ b') := by
    calc
      dropDisallowedUrls U hosts s = a' ++ (firstWord w ++ ch ' ' :: t) ++ b' := by
        rw [← ht, h]
      _ = (a' ++ firstWord w) ++ ch ' ' :: (t ++ b') := by simp
  obtain ⟨x, y, rfl, hx, hy⟩ := exists_blank_of_guard hsplit
  obtain ⟨a, rfl, hlast⟩ := exists_firstWord_of_guard hw hx
  have hrest : w = (firstWord w ++ [ch ' ']) ++ t := by
    simpa using ht
  obtain ⟨b, hb⟩ := exists_rest_of_guard hw hrest (scan_tokens url y) hy
  rw [source_tokens] at hb
  refine ⟨a, b, ?_, ?_, hx⟩
  · calc
      a ++ firstWord w ++ ch ' ' :: y = a ++ (firstWord w ++ ch ' ' :: t) ++ b := by
        rw [hb]
        simp
      _ = a ++ w ++ b := by rw [← ht]
  · rw [noWord_reverse_iff] at hstart ⊢
    rw [← hlast]
    exact hstart

/-- **And a core whose first word the guard leaves comes through.** -/
theorem guard_of_core
    {a w b : PyStr} (hw : IsCore w) (hstart : NoWord U a.reverse)
    (h : firstWord w <:+ dropDisallowedUrls U hosts (a ++ firstWord w)) :
    ∃ a' b', dropDisallowedUrls U hosts (a ++ w ++ b) = a' ++ w ++ b' ∧ NoWord U a'.reverse := by
  obtain ⟨t, ht⟩ := hw.split
  obtain ⟨a', ha'⟩ := h
  obtain ⟨a₁, ha₁, hlast⟩ := exists_firstWord_of_guard hw ha'.symm
  obtain rfl := List.append_cancel_right ha₁
  refine ⟨a', dropDisallowedUrls U hosts b, ?_, ?_⟩
  · have hrest : w = (firstWord w ++ [ch ' ']) ++ t := by
      simpa using ht
    calc
      dropDisallowedUrls U hosts (a ++ w ++ b)
        = dropDisallowedUrls U hosts ((a ++ firstWord w) ++ ch ' ' :: (t ++ b)) := by
          congr 1
          conv_lhs => rw [ht]
          simp
      _ = (a' ++ firstWord w) ++ ch ' ' :: (t ++ dropDisallowedUrls U hosts b) := by
          rw [dropDisallowedUrls_blank, dropDisallowedUrls_rest hw b hrest, ← ha']
      _ = a' ++ (firstWord w ++ ch ' ' :: t) ++ dropDisallowedUrls U hosts b := by simp
      _ = a' ++ w ++ dropDisallowedUrls U hosts b := by rw [← ht]
  · rw [noWord_reverse_iff] at hstart ⊢
    rw [hlast]
    exact hstart

end GuardedCores

section Cut

variable {U : UnicodeData} {hosts : List PyStr}

/-- The word keeps clear of everything that the sanitizer puts in. -/
structure Apart (v : PyStr) : Prop where
  ne_nil : v ≠ []
  marker : Clear redacted v
  guard : Clear redactedUrl v
  mark : Clear truncationMark v

/-- One letter decides it when no bracket stands on the wrong side. -/
theorem apart_of_split
    {l r : PyStr} {c : CodePoint} (hc : c.reFold ∈ lit "s#") (hl : ∀ d ∈ l, d ≠ ch ']')
    (hr : ∀ d ∈ r, d ≠ ch '[' ∧ d ≠ ellipsis) :
    Apart (l ++ c :: r) := by
  have hnot : ∀ R ∈ [redacted, redactedUrl, truncationMark], c ∉ R := by
    intro R hR hmem
    have hall : ∀ R ∈ [redacted, redactedUrl, truncationMark], ∀ d ∈ R,
        d.reFold ∉ lit "s#" := by
      decide
    exact hall R hR c hmem hc
  exact
    { ne_nil := by simp
      marker := clear_of_split (hnot _ (by simp)) (by decide) (by decide) hl
        fun d hd => (hr d hd).1
      guard := clear_of_split (hnot _ (by simp)) (by decide) (by decide) hl
        fun d hd => (hr d hd).1
      mark := clear_of_split (hnot _ (by simp)) (by decide) (by decide) hl
        fun d hd => (hr d hd).2 }

theorem apart_of_heading
    {m s y : PyStr} (h : IsHeading m s y) :
    Apart m := by
  have hm := h.unfenced
  have hdots : ∀ d ∈ m, d ≠ ellipsis := by
    rintro d hd rfl
    rw [h.text] at hd
    rcases List.mem_append.mp hd with hd | hd
    · rcases List.mem_append.mp hd with hd | hd
      · revert hd
        decide
      · have := h.spaces _ hd
        revert this
        decide
    · have := h.letters.2.2 _ hd
      revert this
      decide
  rw [h.cons] at hm hdots ⊢
  exact apart_of_split (l := []) (by decide) (by simp)
    fun d hd => ⟨(hm d (List.mem_cons_of_mem _ hd)).1, hdots d (List.mem_cons_of_mem _ hd)⟩

theorem fencedWords_letter :
    ∀ x ∈ fencedWords, ch 's' ∈ x ∧ (∀ d ∈ x.takeWhile (· != ch 's'), d ≠ ch ']') ∧
      ∀ d ∈ x.dropWhile (· != ch 's'), d ≠ ch '[' ∧ d ≠ ellipsis := by
  decide +kernel

theorem apart_of_fenced
    {m : PyStr} (h : m.map reFold ∈ fencedWords) :
    Apart m := by
  obtain ⟨hmem, hfront, hback⟩ := fencedWords_letter _ h
  obtain ⟨f, hf, hletter⟩ := List.mem_map.mp hmem
  have hsplit := List.takeWhile_append_dropWhile (p := fun c => c.reFold != ch 's') (l := m)
  have hhead := List.head?_dropWhile_not (fun c : CodePoint => c.reFold != ch 's') m
  have htake : (m.map reFold).takeWhile (· != ch 's') =
      (m.takeWhile fun c => c.reFold != ch 's').map reFold := by
    rw [List.takeWhile_map]
    rfl
  have hdrop : (m.map reFold).dropWhile (· != ch 's') =
      (m.dropWhile fun c => c.reFold != ch 's').map reFold := by
    rw [List.dropWhile_map]
    rfl
  rw [htake] at hfront
  rw [hdrop] at hback
  cases hrest : m.dropWhile fun c => c.reFold != ch 's' with
  | nil =>
      exfalso
      rw [hrest, List.append_nil] at hsplit
      rw [← hsplit] at hf
      have := List.mem_takeWhile_imp hf
      simp [hletter] at this
  | cons c r =>
      rw [hrest] at hsplit hhead hback
      have hc : c.reFold = ch 's' := by simpa using hhead
      rw [← hsplit]
      refine apart_of_split (by rw [hc]; decide) ?_ ?_
      · rintro d hd rfl
        exact hfront _ (List.mem_map_of_mem hd) (by decide)
      · intro d hd
        obtain ⟨hbracket, hdots⟩ := hback _ (List.mem_map_of_mem (List.mem_cons_of_mem _ hd))
        constructor
        · rintro rfl
          exact hbracket (by decide)
        · rintro rfl
          exact hdots (by decide)

/-- The markers that no word boundary is asked of. -/
theorem lang_anywhere
    {p : Rx CodePoint} (hp : p ∈ fencedMarkers ++ [systemHeading]) {pre m post : PyStr}
    (h : Rx.Lang p pre m post) :
    Apart m ∧ ∀ pre' post', Rx.Lang p pre' m post' := by
  rcases List.mem_append.mp hp with hp | hp
  · obtain ⟨L, hL, hwords⟩ := spells_fencedMarkers p hp
    have hmem := (hL _ _ _).mp h
    exact ⟨apart_of_fenced (hwords _ hmem), fun pre' post' => (hL _ _ _).mpr hmem⟩
  · obtain rfl := List.mem_singleton.mp hp
    obtain ⟨s, y, hm⟩ := (lang_systemHeading_iff _ _ _).mp h
    exact ⟨apart_of_heading hm, fun pre' post' => (lang_systemHeading_iff _ _ _).mpr ⟨s, y, hm⟩⟩

/-- None of them is left when the text is cut. -/
theorem not_infix_guarded
    {p : Rx CodePoint} (hp : p ∈ fencedMarkers ++ [systemHeading]) {pre m post : PyStr}
    (h : Rx.Lang p pre m post) (x : PyStr) :
    ¬ m <:+: dropDisallowedUrls U hosts (scrubInjectionMarkers U x) := by
  rintro ⟨a', b', hresult⟩
  obtain ⟨hapart, hlang⟩ := lang_anywhere hp h
  obtain ⟨a, b, hs, -, -⟩ := exists_word_of_guard hapart.ne_nil hapart.guard hresult.symm
  have hempty : ∀ pre post, ¬ Rx.Lang p pre [] post :=
    fun pre post hnil => (lang_anywhere hp hnil).1.ne_nil rfl
  have hmem : p ∈ injectionMarkers U := by
    rw [injectionMarkers_eq, firstMarkers, List.append_assoc]
    exact List.mem_append_right _ hp
  exact not_infix_subAll hempty hmem redacted_ne_nil hapart.ne_nil hapart.marker hlang x
    ⟨a, b, hs.symm⟩

/-- A word that keeps clear of the mark stands in front of it, and of the cut. -/
theorem exists_word_of_truncate
    {t a v b : PyStr} {maxLen : Nat} (hv : v ≠ []) (hclear : Clear truncationMark v)
    (h : truncate maxLen t = a ++ v ++ b) :
    ∃ b', t = a ++ v ++ b' ∧ (a ++ v).length ≤ maxLen ∧
      (b'.head? = b.head? ∨ (a ++ v).length = maxLen) := by
  rw [truncate] at h
  split at h
  · rename_i hlong
    have htext : t.take maxLen ++ truncationMark ++ [] = a ++ v ++ b := by
      rw [h, List.append_nil]
    have hlen := congrArg List.length htext
    have hpos := List.length_pos_iff.mpr hv
    have hfront : (t.take maxLen).length = maxLen := List.length_take_of_le (by omega)
    simp only [List.length_append, List.length_nil] at hlen
    rcases hclear _ _ _ _ htext with hle | hle
    · rw [List.append_nil] at htext
      obtain ⟨r, hr⟩ : a ++ v <+: t.take maxLen :=
        List.prefix_of_prefix_length_le ⟨b, htext.symm⟩ ⟨truncationMark, rfl⟩ (by simpa using hle)
      have hsplit : t = a ++ v ++ (r ++ t.drop maxLen) := by
        rw [← List.append_assoc, hr, List.take_append_drop]
      refine ⟨r ++ t.drop maxLen, hsplit, ?_, ?_⟩
      · rw [← hfront, ← hr]
        simp only [List.length_append]
        omega
      · cases r with
        | nil =>
            right
            rw [← hfront, ← hr, List.append_nil]
        | cons c r =>
            left
            rw [← hr, List.append_assoc] at htext
            rw [← List.append_cancel_left htext]
            rfl
    · omega
  · rename_i hshort
    refine ⟨b, h, ?_, Or.inl rfl⟩
    rw [h, List.length_append] at hshort
    omega

/-- At the cut stands the mark, or the boundary that the text has there. -/
theorem noWord_cut
    {b : PyStr} {k : Nat} (h : NoWord U b ∨ k = 0) :
    NoWord U (b.take k ++ truncationMark) := by
  have hmark : NoWord U truncationMark := by
    have hdots : U.isWord ellipsis = false := by
      rw [UnicodeData.isWord, U.isalnum_ellipsis]
      decide
    simp [truncationMark, NoWord, hdots]
  cases k with
  | zero =>
      exact hmark
  | succ k =>
      cases b with
      | nil =>
          exact hmark
      | cons c b =>
          rcases h with h | h
          · exact h
          · cases h

/-- A word in front of the cut stays there, and so does a boundary behind it. -/
theorem truncate_of_word
    {a w b : PyStr} {maxLen : Nat} (hlen : (a ++ w).length ≤ maxLen) :
    ∃ b', truncate maxLen (a ++ w ++ b) = a ++ w ++ b' ∧
      (NoWord U b ∨ (a ++ w).length = maxLen → NoWord U b') := by
  rw [truncate]
  split
  · refine ⟨b.take (maxLen - (a ++ w).length) ++ truncationMark, ?_, fun h => noWord_cut ?_⟩
    · rw [List.take_append, List.take_of_length_le hlen, List.append_assoc]
    · exact h.imp_right fun hcut => by omega
  · rename_i hshort
    refine ⟨b, rfl, fun h => ?_⟩
    rcases h with hb | hcut
    · exact hb
    · have hnil : b = [] := by
        rw [List.length_append, hcut] at hshort
        exact List.length_eq_zero_iff.mp (by omega)
      rw [hnil]
      rfl

theorem IsCore.clear_mark
    {w : PyStr} (h : IsCore w) :
    Clear truncationMark w := by
  have hhead : truncationMark.head? = some ellipsis := by rfl
  have hlast : truncationMark.getLast? = some (ch ']') := by decide
  refine clear_of_blank (by decide) hhead hlast h.blank fun d hd => ?_
  exact ⟨h.ne (by decide) (by decide) d hd, (h.unfenced d hd).2⟩

/-- A core that starts at a word boundary of the text. -/
def Exposed (U : UnicodeData) (t : PyStr) : Prop :=
  ∃ a w b, t = a ++ w ++ b ∧ IsCore w ∧ NoWord U a.reverse

/-- Such a core in front of the cut, which ends at a word boundary or at the cut. -/
def ExposedAt (U : UnicodeData) (maxLen : Nat) (t : PyStr) : Prop :=
  ∃ a w b, t = a ++ w ++ b ∧ IsCore w ∧ NoWord U a.reverse ∧ (a ++ w).length ≤ maxLen ∧
    (IsClosed w → NoWord U b ∨ (a ++ w).length = maxLen)

/-- At its own end every exposed core can be cut off. -/
theorem exists_exposedAt_iff
    {t : PyStr} :
    (∃ maxLen, ExposedAt U maxLen t) ↔ Exposed U t := by
  constructor
  · rintro ⟨_, a, w, b, htext, hw, hstart, -⟩
    exact ⟨a, w, b, htext, hw, hstart⟩
  · rintro ⟨a, w, b, htext, hw, hstart⟩
    exact ⟨(a ++ w).length, a, w, b, htext, hw, hstart, le_rfl, fun _ => Or.inr rfl⟩

/-- **A cut leaves a marker exactly when such a core stands in front of it.** -/
theorem match_of_cut_iff
    (hletters : FoldedLetters U) {t : PyStr}
    (ht : ∀ p ∈ fencedMarkers ++ [systemHeading], ∀ pre m post, Rx.Lang p pre m post →
      ¬ m <:+: t) (maxLen : Nat) :
    (∃ p ∈ injectionMarkers U, p.HasMatch (truncate maxLen t)) ↔ ExposedAt U maxLen t := by
  constructor
  · rintro ⟨p, hp, a, m, b, htext, hlang⟩
    rw [injectionMarkers_eq, firstMarkers, List.append_assoc, List.mem_append] at hp
    rcases hp with hp | hp
    · obtain ⟨n, s, hopen⟩ := exists_opening hletters hp hlang
      have hcore : truncate maxLen t = a ++ n ++ (s ++ b) := by
        rw [htext, hopen.text]
        simp
      obtain ⟨b', hb', hlen, hend⟩ := exists_word_of_truncate
        (List.ne_nil_of_mem hopen.core.blank) hopen.core.clear_mark hcore
      have hstart : NoWord U a.reverse := by simpa using hopen.start
      refine ⟨a, n, b', hb', hopen.core, hstart, hlen, fun hclosed => ?_⟩
      rcases hend with hhead | hcut
      · left
        rw [NoWord, hhead]
        exact hopen.closed hclosed
      · exact Or.inr hcut
    · exfalso
      obtain ⟨hapart, -⟩ := lang_anywhere hp hlang
      obtain ⟨b', hb', -⟩ := exists_word_of_truncate hapart.ne_nil hapart.mark htext
      exact ht p hp _ _ _ hlang ⟨a, b', hb'.symm⟩
  · rintro ⟨a, w, b, rfl, hw, hstart, hlen, hend⟩
    obtain ⟨p, hp, hlang⟩ := exists_lang_of_core hletters hw
    have hmem : p ∈ injectionMarkers U := by
      rw [injectionMarkers_eq, firstMarkers, List.append_assoc]
      exact List.mem_append_left _ hp
    obtain ⟨b', htext, hboundary⟩ := truncate_of_word (U := U) (b := b) hlen
    rw [htext]
    exact ⟨p, hmem, a, w, b', rfl, hlang _ _ (by simpa using hstart)
      fun hclosed => hboundary (hend hclosed)⟩

end Cut

section Result

variable {U : UnicodeData} {hosts : List PyStr}

/--
A place of a text that leaves a marker at some cut: a core that its own pattern cannot
match there, or that a heading hides from it, and whose first word no redacted URL takes
along.
-/
def Leaks (U : UnicodeData) (hosts : List PyStr) (x : PyStr) : Prop :=
  ∃ a w b, x = a ++ w ++ b ∧ IsCore w ∧ (Glued U a w b ∨ Headed a) ∧
    firstWord w <:+ dropDisallowedUrls U hosts (scrubInjectionMarkers U (a ++ firstWord w))

theorem exposed_iff_leaks
    (hletters : FoldedLetters U) (x : PyStr) :
    Exposed U (dropDisallowedUrls U hosts (scrubInjectionMarkers U x)) ↔ Leaks U hosts x := by
  constructor
  · rintro ⟨a₂, w, b₂, htext, hw, hstart⟩
    obtain ⟨a₁, b₁, hs, hstart₁, hfirst⟩ := exists_core_of_guard hw htext hstart
    obtain ⟨a, v, b, rfl, hv, hsame, hsite, hscrub⟩ :=
      exists_site_of_scrub hletters hw hs hstart₁
    refine ⟨a, v, b, rfl, hv, hsite, ?_⟩
    rw [hsame, hscrub, hfirst]
    exact List.suffix_append _ _
  · rintro ⟨a, w, b, rfl, hw, hsite, hfirst⟩
    have hscrub : ∃ a' b', scrubInjectionMarkers U (a ++ w ++ b) = a' ++ w ++ b' ∧
        NoWord U a'.reverse ∧
          scrubInjectionMarkers U (a ++ firstWord w) = a' ++ firstWord w := by
      rcases hsite with hglued | hheaded
      · exact scrub_of_glued hletters hglued
      · exact scrub_of_headed hletters hheaded hw
    obtain ⟨a', b', htext, hstart, hfront⟩ := hscrub
    rw [hfront] at hfirst
    obtain ⟨a₂, b₂, htext₂, hstart₂⟩ := guard_of_core (b := b') hw hstart hfirst
    refine ⟨a₂, w, b₂, ?_, hw, hstart₂⟩
    rw [htext, htext₂]

/--
**No marker survives a cut exactly when no exposed core in front of it ends at a word
boundary or at the cut, and none survives any cut exactly when the text has no place that
leaks.**
-/
theorem no_marker_survives_iff
    (U : UnicodeData) (hletters : FoldedLetters U) (nfkc : PyStr → PyStr)
    (hosts : List PyStr) (value : PyStr) :
    (∀ maxLen, (∀ p ∈ injectionMarkers U,
        ¬ p.HasMatch (sanitizeMqOutput U nfkc hosts maxLen value)) ↔
      ¬ ExposedAt U maxLen
        (dropDisallowedUrls U hosts (scrubInjectionMarkers U (clean nfkc value)))) ∧
    ((∀ maxLen, ∀ p ∈ injectionMarkers U,
        ¬ p.HasMatch (sanitizeMqOutput U nfkc hosts maxLen value)) ↔
      ¬ Leaks U hosts (clean nfkc value)) := by
  have hcut := match_of_cut_iff hletters
    (t := dropDisallowedUrls U hosts (scrubInjectionMarkers U (clean nfkc value)))
    fun p hp _ _ _ hlang => not_infix_guarded hp hlang _
  constructor
  · intro maxLen
    rw [← hcut maxLen]
    simp only [sanitizeMqOutput, not_exists, not_and]
  · rw [← exposed_iff_leaks hletters, ← exists_exposedAt_iff]
    simp only [← hcut, sanitizeMqOutput, not_exists, not_and]

/-- ASCII, with the letters that ignoring case takes for ASCII letters. -/
def foldedLetters : UnicodeData :=
  { UnicodeData.basic with
    isalnum := fun c => c.isAlnumAscii || (!c.isAscii && c.reFold.isAscii)
    isalnum_ascii := by
      intro c hc
      simp [hc]
    isalnum_space := by
      intro c hc
      have hfold : c.reFold = c := reFold_of_stop (by simp [isUrlChar, hc])
      rw [hfold]
      have hascii := UnicodeData.basic.isalnum_space c hc
      have hnot : c.isAlnumAscii = false := hascii
      simp [hnot]
    isalnum_ellipsis := by decide
    isdecimal_isalnum := by
      intro c hc
      have hdigit : c.isDigitAscii = true := hc
      simp [isAlnumAscii, hdigit] }

theorem foldedLetters_spec :
    FoldedLetters foldedLetters := by
  intro c hascii hfold
  simp [foldedLetters, hascii, hfold]

/-- A core has eleven characters at least. -/
theorem coreWords_length :
    ∀ x ∈ coreWords, 11 ≤ x.length := by
  simp only [coreWords, closedWords, ignoreWords, disregardWords, nowWords, newWords, lit,
    String.reduceToList, List.map_cons, List.map_nil, List.cons_append, List.nil_append]
  decide +kernel

theorem no_marker_survives_short :
    FoldedLetters foldedLetters ∧
      ∀ maxLen, ∀ p ∈ injectionMarkers foldedLetters, ¬ p.HasMatch
        (sanitizeMqOutput foldedLetters id defaultDocHosts maxLen (lit "QM1 is up")) := by
  refine ⟨foldedLetters_spec, (no_marker_survives_iff foldedLetters foldedLetters_spec id
    defaultDocHosts (lit "QM1 is up")).2.mpr ?_⟩
  rintro ⟨a, w, b, htext, hw, -⟩
  have hclean : clean id (lit "QM1 is up") = lit "QM1 is up" := by
    decide +kernel
  have hlen := congrArg List.length (hclean.symm.trans htext)
  have hcore := coreWords_length _ hw
  have hnine : (lit "QM1 is up").length = 9 := by
    rfl
  simp only [List.length_append, List.length_map] at hlen hcore
  omega

/-- The redaction of a heading leaves a marker behind it. -/
theorem heading_hides_marker :
    ¬ ∀ maxLen, ∀ p ∈ injectionMarkers foldedLetters, ¬ p.HasMatch
      (sanitizeMqOutput foldedLetters id defaultDocHosts maxLen
        (lit "### systemyou are now")) := by
  intro h
  refine h maxStringLen (word foldedLetters youAreNow) (by simp [injectionMarkers]) ?_
  rw [← Rx.search_iff_hasMatch]
  decide +kernel

end Result

end Sanitizer
end MqSentinel
