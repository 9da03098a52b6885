import MqSentinel.SanitizerPipeline
import MqSentinel.RegexGreedy
import MqSentinel.RegexPositions

/-!
# URLs behind the guard

A match of `_URL` is a scheme and then every character up to white space, an angle
bracket, a quote or `)`.  The pass of the guard leaves exactly the URLs that it lets
through, each in its place (`tokens_dropDisallowedUrls`); the cut that follows can
shorten the last of them, or put the truncation mark behind a bare scheme.
-/

namespace MqSentinel
namespace Sanitizer

open Regex CodePoint

/-- `http://`, ignoring case. -/
def httpClasses : List (CodePoint → Bool) :=
  (lit "http://").map ci

/-- `https://`, ignoring case. -/
def httpsClasses : List (CodePoint → Bool) :=
  (lit "https://").map ci

/-- The word is matched by `https?://`. -/
def IsScheme (w : PyStr) : Prop :=
  Rx.Fits httpClasses w ∨ Rx.Fits httpsClasses w

/-- The length of the scheme at the start of a text. -/
def schemeLength? (s : PyStr) : Option Nat :=
  if Rx.startsWith httpClasses s then some 7
  else if Rx.startsWith httpsClasses s then some 8
  else none

/-- The length of the URL at the start of a text. -/
def urlLength? (s : PyStr) : Option Nat :=
  match schemeLength? s with
  | none => none
  | some k =>
      if ((s.drop k).takeWhile isUrlChar).length = 0 then none
      else some (k + ((s.drop k).takeWhile isUrlChar).length)

section Scheme

theorem startsWith_append_classes
    {ps : List (CodePoint → Bool)} (qs : List (CodePoint → Bool)) (s : PyStr) :
    Rx.startsWith (ps ++ qs) s = (Rx.startsWith ps s && Rx.startsWith qs (s.drop ps.length)) := by
  induction ps generalizing s with
  | nil =>
      rfl
  | cons p ps ih =>
      cases s with
      | nil =>
          rfl
      | cons c s =>
          simp [Rx.startsWith, ih, Bool.and_assoc]

theorem length_of_fits
    {ps : List (CodePoint → Bool)} {w : PyStr} (h : Rx.Fits ps w) :
    w.length = ps.length := by
  exact (List.Forall₂.length_eq h).symm

theorem startsWith_of_fits
    {ps : List (CodePoint → Bool)} {w : PyStr} (h : Rx.Fits ps w) (v : PyStr) :
    Rx.startsWith ps (w ++ v) = true := by
  exact (Rx.startsWith_iff ps _).mpr ⟨w, v, rfl, h⟩

/-- A text does not start with both schemes: the fifth character decides. -/
theorem not_both_schemes
    {s : PyStr} (h : Rx.startsWith httpClasses s = true) :
    Rx.startsWith httpsClasses s = false := by
  have hhttp : httpClasses = (lit "http").map ci ++ [ci (ch ':'), ci (ch '/'), ci (ch '/')] := by
    rfl
  have hhttps : httpsClasses =
      (lit "http").map ci ++ (ci (ch 's') :: [ci (ch ':'), ci (ch '/'), ci (ch '/')]) := by
    rfl
  rw [hhttp, startsWith_append_classes, Bool.and_eq_true] at h
  rw [hhttps, startsWith_append_classes, h.1, Bool.true_and]
  cases htail : s.drop ((lit "http").map ci).length with
  | nil =>
      rfl
  | cons c t =>
      have hc := h.2
      rw [htail] at hc
      simp only [Rx.startsWith, Bool.and_eq_true] at hc
      have hcolon : c.reFold = (ch ':').reFold := by simpa [ci] using hc.1
      simp only [Rx.startsWith, ci, hcolon]
      rfl

theorem schemeLength?_eq_some_iff
    (s : PyStr) (k : Nat) :
    schemeLength? s = some k ↔ ∃ w v, s = w ++ v ∧ IsScheme w ∧ w.length = k := by
  have hlen : ∀ {w : PyStr}, Rx.Fits httpClasses w → w.length = 7 := fun h => length_of_fits h
  have hlens : ∀ {w : PyStr}, Rx.Fits httpsClasses w → w.length = 8 := fun h => length_of_fits h
  constructor
  · intro h
    rw [schemeLength?] at h
    split at h
    · rename_i hstart
      obtain ⟨w, v, rfl, hw⟩ := (Rx.startsWith_iff _ _).mp hstart
      exact ⟨w, v, rfl, Or.inl hw, by rw [hlen hw]; exact Option.some_inj.mp h⟩
    · split at h
      · rename_i hstart
        obtain ⟨w, v, rfl, hw⟩ := (Rx.startsWith_iff _ _).mp hstart
        exact ⟨w, v, rfl, Or.inr hw, by rw [hlens hw]; exact Option.some_inj.mp h⟩
      · cases h
  · rintro ⟨w, v, rfl, hw | hw, rfl⟩
    · rw [schemeLength?, if_pos (startsWith_of_fits hw v), hlen hw]
    · have hstart := startsWith_of_fits hw v
      rw [schemeLength?, if_neg, if_pos hstart, hlens hw]
      intro hhttp
      rw [not_both_schemes hhttp] at hstart
      cases hstart

/-- The engine's lengths for `https?://`. -/
theorem ends_scheme
    (pre post : PyStr) :
    Rx.ends scheme pre post = (schemeLength? post).toList := by
  have hhttp : httpClasses = (lit "http").map ci ++ (lit "://").map ci := by rfl
  have hhttps : httpsClasses =
      (lit "http").map ci ++ (ci (ch 's') :: (lit "://").map ci) := by rfl
  have hlen : ((lit "http").map ci).length = 4 := by rfl
  have hlen' : ((lit "://").map ci).length = 3 := by rfl
  have hends : Rx.ends (ciRx "http") pre post =
      if Rx.startsWith ((lit "http").map ci) post then [4] else [] :=
    Rx.ends_word _ pre post
  rw [schemeLength?, hhttp, hhttps, startsWith_append_classes, startsWith_append_classes, hlen,
    scheme]
  by_cases hstart : Rx.startsWith ((lit "http").map ci) post = true
  · rw [if_pos hstart] at hends
    rw [Rx.ends_seq_of_singleton hends, hstart]
    generalize (post.take 4).reverse ++ pre = pre'
    cases post.drop 4 with
    | nil =>
        rfl
    | cons c cs =>
        have hcolons : ∀ pre'' t, Rx.ends (ciRx "://") pre'' t =
            if Rx.startsWith ((lit "://").map ci) t then [3] else [] :=
          fun pre'' t => Rx.ends_word _ pre'' t
        by_cases hs : ci (ch 's') c = true
        · have hnot : Rx.startsWith ((lit "://").map ci) (c :: cs) = false := by
            have hfold : c.reFold = (ch 's').reFold := by simpa [ci] using hs
            have hcolon : (lit "://").map ci = ci (ch ':') :: (lit "//").map ci := by rfl
            rw [hcolon, Rx.startsWith, ci, hfold]
            rfl
          simp only [Rx.ends, Rx.opt, hs, if_true, hcolons, hnot, List.flatMap_cons,
            List.flatMap_nil, List.drop_succ_cons, List.drop_zero, List.append_nil,
            Rx.startsWith, Bool.true_and, List.singleton_append]
          cases Rx.startsWith ((lit "://").map ci) cs <;> simp
        · simp only [Rx.ends, Rx.opt, hs, hcolons, List.flatMap_append, List.flatMap_cons,
            List.flatMap_nil, List.drop_zero, List.append_nil, Rx.startsWith]
          cases Rx.startsWith ((lit "://").map ci) (c :: cs) <;> simp
  · rw [if_neg hstart] at hends
    rw [Rx.ends_seq_of_nil hends]
    simp [hstart]

/-- What the engine reports for `_URL`, whatever stands in front. -/
theorem first_url
    (pre post : PyStr) :
    Rx.first url pre post = urlLength? post := by
  rw [urlLength?]
  cases hscheme : schemeLength? post with
  | none =>
      rw [url, Rx.first, Rx.ends_seq_of_nil (by rw [ends_scheme, hscheme]; rfl)]
      rfl
  | some k =>
      have hends : Rx.ends scheme pre post = [k] := by rw [ends_scheme, hscheme]; rfl
      have hplus := Rx.first_plus_cls isUrlChar ((post.take k).reverse ++ pre) (post.drop k)
      rw [Rx.first] at hplus
      rw [url, Rx.first, Rx.ends_seq_of_singleton hends, List.head?_map, hplus]
      dsimp only
      split <;> rfl

end Scheme

section Urls

/-- A URL as `_URL` matches it. -/
def IsUrl (m : PyStr) : Prop :=
  ∃ w v, m = w ++ v ∧ IsScheme w ∧ v ≠ [] ∧ ∀ c ∈ v, isUrlChar c = true

/-- No URL reaches into this text. -/
def Stops : PyStr → Prop
  | [] => True
  | c :: _ => isUrlChar c = false

/-- A character that ends a URL folds to itself. -/
theorem reFold_of_stop
    {d : CodePoint} (hd : isUrlChar d = false) :
    d.reFold = d := by
  simp only [isUrlChar, Bool.not_eq_false', Bool.or_eq_true, beq_iff_eq] at hd
  rcases hd with ((((hspace | rfl) | rfl) | rfl) | rfl) | rfl
  · exact reFold_of_isSpace hspace
  all_goals decide

theorem isUrlChar_of_ci
    {c d : CodePoint} (hc : c ∈ lit "https://") (h : ci c d = true) :
    isUrlChar d = true := by
  have hfold : d.reFold = c.reFold := by simpa [ci] using h
  have hletters : ∀ e ∈ lit "https://", isUrlChar e.reFold = true := by
    decide
  cases hd : isUrlChar d with
  | true =>
      rfl
  | false =>
      rw [reFold_of_stop hd] at hfold
      rw [hfold, hletters c hc] at hd
      cases hd

/-- A character of a word stands for a letter of the pattern. -/
theorem exists_ci_of_fits
    {l w : PyStr} (h : Rx.Fits (l.map ci) w) :
    ∀ d ∈ w, ∃ c ∈ l, ci c d = true := by
  induction l generalizing w with
  | nil =>
      cases h
      intro d hd
      cases hd
  | cons c l ih =>
      cases h with
      | cons hc hl =>
          intro d hd
          rcases List.mem_cons.mp hd with rfl | hd
          · exact ⟨c, by simp, hc⟩
          · obtain ⟨e, he, hed⟩ := ih hl d hd
            exact ⟨e, List.mem_cons_of_mem _ he, hed⟩

theorem IsScheme.exists_ci
    {w : PyStr} (h : IsScheme w) :
    ∀ d ∈ w, ∃ c ∈ lit "https://", ci c d = true := by
  have hletters : ∀ c ∈ lit "http://", c ∈ lit "https://" := by
    decide
  intro d hd
  rcases h with h | h
  · obtain ⟨c, hc, hcd⟩ := exists_ci_of_fits h d hd
    exact ⟨c, hletters c hc, hcd⟩
  · exact exists_ci_of_fits h d hd

/-- A scheme has an `h` in front and no second one. -/
theorem IsScheme.shape
    {w : PyStr} (h : IsScheme w) :
    ∃ c t, w = c :: t ∧ ci (ch 'h') c = true ∧ ∀ d ∈ t, ci (ch 'h') d = false := by
  have htail : ∀ {l w : PyStr}, (∀ c ∈ l, (ch 'h').reFold ≠ c.reFold) →
      Rx.Fits ((ch 'h' :: l).map ci) w →
        ∃ c t, w = c :: t ∧ ci (ch 'h') c = true ∧ ∀ d ∈ t, ci (ch 'h') d = false := by
    intro l w hl hw
    cases hw with
    | @cons _ c _ t hc ht =>
        refine ⟨c, t, rfl, hc, ?_⟩
        intro d hd
        obtain ⟨e, he, hed⟩ := exists_ci_of_fits ht d hd
        have hfold : d.reFold = e.reFold := by simpa [ci] using hed
        simp only [ci, hfold, beq_eq_false_iff_ne, ne_eq]
        exact fun heq => hl e he heq.symm
  rcases h with h | h
  · exact htail (l := lit "ttp://") (by decide) h
  · exact htail (l := lit "ttps://") (by decide) h

theorem IsScheme.isUrlChar
    {w : PyStr} (h : IsScheme w) :
    ∀ d ∈ w, isUrlChar d = true := by
  intro d hd
  obtain ⟨c, hc, hcd⟩ := h.exists_ci d hd
  exact isUrlChar_of_ci hc hcd

theorem IsUrl.head
    {m : PyStr} (h : IsUrl m) :
    ∃ c t, m = c :: t ∧ isUrlChar c = true := by
  obtain ⟨w, v, rfl, hw, -, -⟩ := h
  obtain ⟨c, t, rfl, -, -⟩ := hw.shape
  exact ⟨c, t ++ v, rfl, hw.isUrlChar c (by simp)⟩

/-- A URL in front of a text that it does not reach into. -/
theorem urlLength?_of_isUrl
    {m t : PyStr} (hm : IsUrl m) (ht : Stops t) :
    urlLength? (m ++ t) = some m.length := by
  obtain ⟨w, v, rfl, hw, hv, hall⟩ := hm
  have hscheme : schemeLength? (w ++ (v ++ t)) = some w.length :=
    (schemeLength?_eq_some_iff _ _).mpr ⟨w, v ++ t, rfl, hw, rfl⟩
  have hrest : t.takeWhile isUrlChar = [] := by
    cases t with
    | nil =>
        rfl
    | cons c t =>
        have hc : isUrlChar c = false := ht
        simp [hc]
  have htake : (v ++ t).takeWhile isUrlChar = v := by
    rw [List.takeWhile_append_of_pos hall, hrest, List.append_nil]
  have hpos : v.length ≠ 0 := by simpa using hv
  rw [List.append_assoc, urlLength?, hscheme]
  simp only [List.drop_left, htake, if_neg hpos, List.length_append]

/-- What is reported is a URL, and the text behind it stops it. -/
theorem isUrl_of_urlLength?
    {s : PyStr} {n : Nat} (h : urlLength? s = some n) :
    ∃ m t, s = m ++ t ∧ m.length = n ∧ IsUrl m ∧ Stops t := by
  rw [urlLength?] at h
  cases hscheme : schemeLength? s with
  | none =>
      rw [hscheme] at h
      cases h
  | some k =>
      rw [hscheme] at h
      obtain ⟨w, r, rfl, hw, rfl⟩ := (schemeLength?_eq_some_iff s k).mp hscheme
      simp only [List.drop_left] at h
      split at h
      · cases h
      · rename_i hpos
        refine ⟨w ++ r.takeWhile isUrlChar, r.dropWhile isUrlChar, ?_, ?_, ?_, ?_⟩
        · rw [List.append_assoc, List.takeWhile_append_dropWhile]
        · simpa using Option.some_inj.mp h
        · refine ⟨w, _, rfl, hw, ?_, fun c hc => ?_⟩
          · intro hnil
            rw [hnil] at hpos
            exact hpos rfl
          · exact List.mem_takeWhile_imp hc
        · cases hdrop : r.dropWhile isUrlChar with
          | nil =>
              trivial
          | cons c t =>
              have := List.head?_dropWhile_not isUrlChar r
              rw [hdrop] at this
              simpa [Stops] using this

/-- A text starts with a URL when a scheme and one more character of URLs stand there. -/
theorem urlLength?_eq_none_iff
    (s : PyStr) :
    urlLength? s = none ↔
      Rx.startsWith (httpClasses ++ [isUrlChar]) s = false ∧
        Rx.startsWith (httpsClasses ++ [isUrlChar]) s = false := by
  have hone : ∀ t : PyStr, (t.takeWhile isUrlChar).length = 0 ↔
      Rx.startsWith [isUrlChar] t = false := by
    intro t
    cases t with
    | nil =>
        simp [Rx.startsWith]
    | cons c t =>
        cases hc : isUrlChar c <;> simp [Rx.startsWith, hc]
  have hlen : httpClasses.length = 7 := by rfl
  have hlens : httpsClasses.length = 8 := by rfl
  rw [startsWith_append_classes, startsWith_append_classes, hlen, hlens, urlLength?,
    schemeLength?]
  by_cases hhttp : Rx.startsWith httpClasses s = true
  · simp [hhttp, not_both_schemes hhttp, ← hone]
  · by_cases hhttps : Rx.startsWith httpsClasses s = true
    · simp [hhttp, hhttps, ← hone]
    · simp [hhttp, hhttps]

/-- A scheme does not go on over a character that no class of it takes. -/
theorem startsWith_swap
    {ps : List (CodePoint → Bool)} {q : CodePoint → Bool} {d e : CodePoint}
    (hps : ∀ p ∈ ps, p d = false) (he : q e = true) (y z x : PyStr)
    (h : Rx.startsWith (ps ++ [q]) (x ++ d :: y) = true) :
    Rx.startsWith (ps ++ [q]) (x ++ e :: z) = true := by
  induction ps generalizing x with
  | nil =>
      cases x with
      | nil =>
          simp [Rx.startsWith, he]
      | cons c x =>
          simpa [Rx.startsWith] using h
  | cons p ps ih =>
      cases x with
      | nil =>
          simp [Rx.startsWith, hps p (by simp)] at h
      | cons c x =>
          simp only [List.cons_append, Rx.startsWith, Bool.and_eq_true] at h ⊢
          exact ⟨h.1, ih (fun r hr => hps r (List.mem_cons_of_mem _ hr)) x h.2⟩

/-- The same for URLs: a text that no URL starts in may be changed behind such a character. -/
theorem urlLength?_swap
    {d e : CodePoint} (hd : ∀ c ∈ lit "https://", ci c d = false) (he : isUrlChar e = true)
    (x y z : PyStr) (h : urlLength? (x ++ e :: z) = none) :
    urlLength? (x ++ d :: y) = none := by
  have hclasses : ∀ p ∈ httpClasses ++ httpsClasses, p d = false := by
    intro p hp
    rw [httpClasses, httpsClasses, ← List.map_append] at hp
    obtain ⟨c, hc, rfl⟩ := List.mem_map.mp hp
    refine hd c ?_
    have hletters : ∀ b ∈ lit "http://" ++ lit "https://", b ∈ lit "https://" := by
      decide
    exact hletters c hc
  rw [urlLength?_eq_none_iff] at h ⊢
  refine ⟨?_, ?_⟩
  · by_contra hstart
    have := startsWith_swap (fun p hp => hclasses p (List.mem_append_left _ hp)) he y z x
      (Bool.not_eq_false _ ▸ hstart)
    rw [h.1] at this
    cases this
  · by_contra hstart
    have := startsWith_swap (fun p hp => hclasses p (List.mem_append_right _ hp)) he y z x
      (Bool.not_eq_false _ ▸ hstart)
    rw [h.2] at this
    cases this

end Urls

section Redaction

theorem scan_lit
    {pre : PyStr} {c : CodePoint} {ts : List (Tok CodePoint)}
    (h : Scan url pre (.lit c :: ts)) :
    urlLength? (c :: source ts) = none ∧ Scan url (c :: pre) ts := by
  cases h with
  | literal hfirst hts =>
      refine ⟨?_, hts⟩
      rw [first_url] at hfirst
      rcases hfirst with hnone | hzero
      · exact hnone
      · obtain ⟨m, t, -, hlen, hm, -⟩ := isUrl_of_urlLength? hzero
        obtain ⟨c, m', rfl, -⟩ := hm.head
        cases hlen

theorem scan_hit
    {pre m : PyStr} {ts : List (Tok CodePoint)}
    (h : Scan url pre (.hit m :: ts)) :
    IsUrl m ∧ Stops (source ts) ∧ Scan url (m.reverse ++ pre) ts := by
  cases h with
  | matched hne hfirst hts =>
      rw [first_url] at hfirst
      obtain ⟨m', t, hsplit, hlen, hm, ht⟩ := isUrl_of_urlLength? hfirst
      obtain ⟨rfl, rfl⟩ := List.append_inj hsplit hlen.symm
      exact ⟨hm, ht, hts⟩

theorem isUrl_of_hitAt
    {f : PyStr → PyStr} {pre m : PyStr} {ts : List (Tok CodePoint)} {i : Nat}
    (hscan : Scan url pre ts) (h : HitAt f ts i m) :
    IsUrl m := by
  obtain ⟨ts₁, ts₂, rfl, -⟩ := h
  exact (scan_hit hscan.drop).1

theorem tokensFrom_url_lit
    {pre s : PyStr} {c : CodePoint} (h : urlLength? (c :: s) = none) :
    tokensFrom url pre 0 (c :: s) = .lit c :: tokensFrom url (c :: pre) 0 s := by
  rw [tokensFrom, first_url, h]

/-- A text without an `h` is passed over. -/
theorem tokensFrom_plain
    {x : PyStr} (hx : ∀ c ∈ x, ci (ch 'h') c = false) (y pre : PyStr) :
    tokensFrom url pre 0 (x ++ y) = x.map Tok.lit ++ tokensFrom url (x.reverse ++ pre) 0 y := by
  induction x generalizing pre with
  | nil =>
      rfl
  | cons c x ih =>
      have hnone : urlLength? (c :: (x ++ y)) = none := by
        have hhttp : httpClasses = ci (ch 'h') :: (lit "ttp://").map ci := by rfl
        have hhttps : httpsClasses = ci (ch 'h') :: (lit "ttps://").map ci := by rfl
        rw [urlLength?_eq_none_iff, hhttp, hhttps]
        simp [Rx.startsWith, hx c (by simp)]
      rw [List.cons_append, tokensFrom_url_lit hnone,
        ih (fun d hd => hx d (List.mem_cons_of_mem _ hd))]
      simp

/-- `_replace`, for any guard. -/
def redact (ok : PyStr → Bool) (u : PyStr) : PyStr :=
  if ok u then u else redactedUrl

/-- What the redaction leaves of a token, as tokens of the result. -/
def keepTok (ok : PyStr → Bool) : Tok CodePoint → List (Tok CodePoint)
  | .lit c => [.lit c]
  | .hit m => if ok m then [.hit m] else redactedUrl.map Tok.lit

variable {ok : PyStr → Bool}

/-- A redaction puts no URL where none was. -/
theorem urlLength?_render
    {ts : List (Tok CodePoint)} :
    ∀ {pre : PyStr}, Scan url pre ts → ∀ x : PyStr,
      urlLength? (x ++ source ts) = none → urlLength? (x ++ render (redact ok) ts) = none := by
  induction ts with
  | nil =>
      intro pre _ x h
      exact h
  | cons t ts ih =>
      intro pre hscan x h
      cases t with
      | lit c =>
          have := ih (scan_lit hscan).2 (x ++ [c]) (by simpa using h)
          simpa using this
      | hit m =>
          obtain ⟨hm, -, hts⟩ := scan_hit hscan
          rw [render_hit, redact]
          by_cases hok : ok m = true
          · have := ih hts (x ++ m) (by simpa using h)
            simpa [hok] using this
          · obtain ⟨e, m', rfl, he⟩ := hm.head
            have hbracket : redactedUrl = ch '[' :: lit "REDACTED:url]" := by rfl
            rw [if_neg hok, hbracket]
            exact urlLength?_swap (e := e) (by decide) he x _ (m' ++ source ts) (by simpa using h)

theorem stops_render
    {ts : List (Tok CodePoint)} {pre : PyStr} (hscan : Scan url pre ts)
    (h : Stops (source ts)) :
    Stops (render (redact ok) ts) := by
  cases ts with
  | nil =>
      trivial
  | cons t ts =>
      cases t with
      | lit c =>
          exact h
      | hit m =>
          obtain ⟨e, m', rfl, he⟩ := (scan_hit hscan).1.head
          have hstop : isUrlChar e = false := h
          rw [hstop] at he
          cases he

/-- **The pass leaves exactly the URLs that the guard lets through.** -/
theorem tokensFrom_redacted
    {ts : List (Tok CodePoint)} :
    ∀ {pre : PyStr}, Scan url pre ts → ∀ pre' : PyStr,
      tokensFrom url pre' 0 (render (redact ok) ts) = ts.flatMap (keepTok ok) := by
  induction ts with
  | nil =>
      intro pre _ pre'
      rfl
  | cons t ts ih =>
      intro pre hscan pre'
      cases t with
      | lit c =>
          obtain ⟨hnone, hts⟩ := scan_lit hscan
          have hnone' : urlLength? (c :: render (redact ok) ts) = none :=
            urlLength?_render hts [c] hnone
          rw [render_lit, tokensFrom_url_lit hnone', ih hts]
          rfl
      | hit m =>
          obtain ⟨hm, hstop, hts⟩ := scan_hit hscan
          rw [render_hit, redact, List.flatMap_cons, keepTok]
          by_cases hok : ok m = true
          · have hne : m ≠ [] := by
              obtain ⟨e, m', rfl, -⟩ := hm.head
              simp
            have hfirst : Rx.first url pre' (m ++ render (redact ok) ts) = some m.length := by
              rw [first_url, urlLength?_of_isUrl hm (stops_render hts hstop)]
            rw [if_pos hok, if_pos hok, tokensFrom_of_first hne hfirst, ih hts]
            rfl
          · rw [if_neg hok, if_neg hok, tokensFrom_plain (by decide), ih hts]

/-- Where the URLs of the result stand. -/
theorem hitAt_redacted
    (ts : List (Tok CodePoint)) (i : Nat) (m : PyStr) :
    HitAt id (ts.flatMap (keepTok ok)) i m ↔ ok m = true ∧ HitAt (redact ok) ts i m := by
  induction ts generalizing i with
  | nil =>
      simp
  | cons t ts ih =>
      cases t with
      | lit c =>
          simp only [List.flatMap_cons, keepTok, List.singleton_append, hitAt_lit, ih]
          constructor
          · rintro ⟨j, rfl, hok, hj⟩
            exact ⟨hok, j, rfl, hj⟩
          · rintro ⟨hok, j, rfl, hj⟩
            exact ⟨j, rfl, hok, hj⟩
      | hit h =>
          rw [List.flatMap_cons, keepTok, hitAt_hit, redact]
          by_cases hok : ok h = true
          · rw [if_pos hok, if_pos hok, List.singleton_append, hitAt_hit]
            simp only [ih, id_eq]
            constructor
            · rintro (⟨rfl, rfl⟩ | ⟨j, rfl, hm, hj⟩)
              · exact ⟨hok, Or.inl ⟨rfl, rfl⟩⟩
              · exact ⟨hm, Or.inr ⟨j, rfl, hj⟩⟩
            · rintro ⟨hm, ⟨rfl, rfl⟩ | ⟨j, rfl, hj⟩⟩
              · exact Or.inl ⟨rfl, rfl⟩
              · exact Or.inr ⟨j, rfl, hm, hj⟩
          · rw [if_neg hok, if_neg hok, hitAt_append]
            simp only [ih]
            constructor
            · rintro ⟨j, rfl, hm, hj⟩
              exact ⟨hm, Or.inr ⟨j, rfl, hj⟩⟩
            · rintro ⟨hm, ⟨rfl, rfl⟩ | ⟨j, rfl, hj⟩⟩
              · exact absurd hm hok
              · exact ⟨j, rfl, hm, hj⟩

variable (ok) in
/-- A run of literals without `[` is left where it stands in front. -/
theorem lits_front_redacted
    {x : PyStr} (hx : ∀ d ∈ x, d ≠ ch '[') (ts : List (Tok CodePoint)) :
    (∃ us, ts.flatMap (keepTok ok) = x.map Tok.lit ++ us) ↔ ∃ us, ts = x.map Tok.lit ++ us := by
  induction x generalizing ts with
  | nil =>
      simp
  | cons d x ih =>
      have hx' := ih fun e he => hx e (List.mem_cons_of_mem _ he)
      cases ts with
      | nil =>
          simp
      | cons t ts =>
          cases t with
          | lit c =>
              simp only [List.flatMap_cons, keepTok, List.map_cons, List.cons_append,
                List.nil_append, List.cons.injEq, exists_and_left, hx']
          | hit m =>
              rw [List.flatMap_cons, keepTok]
              by_cases hok : ok m = true
              · simp [hok]
              · have hbracket : redactedUrl = ch '[' :: lit "REDACTED:url]" := by rfl
                simp [hok, hbracket, (hx d (by simp)).symm]

/-- Where its bare schemes stand. -/
theorem litsAt_redacted
    {w : PyStr} (hw : IsScheme w) (ts : List (Tok CodePoint)) (i : Nat) :
    LitsAt id (ts.flatMap (keepTok ok)) i w ↔ LitsAt (redact ok) ts i w := by
  have hbracket : ∀ d ∈ w, d ≠ ch '[' := by
    have hletters : ∀ c ∈ lit "https://", ci c (ch '[') = false := by
      decide
    rintro d hd rfl
    obtain ⟨c, hc, hcd⟩ := hw.exists_ci _ hd
    rw [hletters c hc] at hcd
    cases hcd
  obtain ⟨d, t, rfl, hd, -⟩ := hw.shape
  have hne : d :: t ≠ [] := by simp
  induction ts generalizing i with
  | nil =>
      rw [List.flatMap_nil, litsAt_nil i hne, litsAt_nil i hne]
  | cons u ts ih =>
      cases u with
      | lit c =>
          have hfront := lits_front_redacted ok hbracket (.lit c :: ts)
          rw [List.flatMap_cons, keepTok, List.singleton_append] at hfront
          rw [List.flatMap_cons, keepTok, List.singleton_append, litsAt_lit, litsAt_lit, hfront]
          simp only [ih]
      | hit m =>
          rw [List.flatMap_cons, keepTok, litsAt_hit _ _ _ hne, redact]
          by_cases hok : ok m = true
          · rw [if_pos hok, if_pos hok, List.singleton_append, litsAt_hit _ _ _ hne]
            simp only [ih, id_eq]
          · have hmem : d ∉ redactedUrl := by
              have hno : ∀ e ∈ redactedUrl, ci (ch 'h') e = false := by
                decide
              intro hmem
              rw [hno d hmem] at hd
              cases hd
            rw [if_neg hok, if_neg hok, litsAt_append hmem]
            simp only [ih]

end Redaction

end Sanitizer
end MqSentinel
