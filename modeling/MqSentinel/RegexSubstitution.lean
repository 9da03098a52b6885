import MqSentinel.RegexEngine

/-!
# Substitution of the leftmost matches

`tokens r text` is one left-to-right pass over the text: at each position the
reported match, when there is a nonempty one, becomes a `hit`, and otherwise the
character is a literal.  `sub r f text` replaces every hit `m` by `f m`.

A result about a substituted text is proved on the token list.  Reading the
tokens back with `id` gives the text that was scanned and reading them with `f`
gives the result, so a word of either text that keeps clear of the hits is a run
of literals (`exists_lits_of_disjoint`) and stands in the other text too.
-/

namespace MqSentinel
namespace Regex

universe u

variable {α : Type u}

/-- A piece of a scanned text. -/
inductive Tok (α : Type u) where
  | lit (c : α)
  | hit (m : List α)

namespace Tok

/-- A token with its hits rewritten by `f`. -/
def render (f : List α → List α) : Tok α → List α
  | lit c => [c]
  | hit m => f m

/-- The word of a hit. -/
def hit? : Tok α → Option (List α)
  | lit _ => none
  | hit m => some m

end Tok

open Tok

/-- A token list with its hits rewritten by `f`. -/
def render (f : List α → List α) (ts : List (Tok α)) : List α :=
  ts.flatMap (Tok.render f)

/-- The text that a token list was read from. -/
def source (ts : List (Tok α)) : List α :=
  render id ts

@[simp] theorem render_nil
    (f : List α → List α) :
    render f ([] : List (Tok α)) = [] := by
  rfl

@[simp] theorem render_lit
    (f : List α → List α) (c : α) (ts : List (Tok α)) :
    render f (Tok.lit c :: ts) = c :: render f ts := by
  rfl

@[simp] theorem render_hit
    (f : List α → List α) (m : List α) (ts : List (Tok α)) :
    render f (hit m :: ts) = f m ++ render f ts := by
  rfl

@[simp] theorem render_append
    (f : List α → List α) (ts us : List (Tok α)) :
    render f (ts ++ us) = render f ts ++ render f us := by
  simp [render]

@[simp] theorem render_map_lit
    (f : List α → List α) (w : List α) :
    render f (w.map Tok.lit) = w := by
  induction w with
  | nil =>
      rfl
  | cons c w ih =>
      simp [ih]

@[simp] theorem source_nil :
    source ([] : List (Tok α)) = [] := by
  rfl

@[simp] theorem source_lit
    (c : α) (ts : List (Tok α)) :
    source (Tok.lit c :: ts) = c :: source ts := by
  rfl

@[simp] theorem source_hit
    (m : List α) (ts : List (Tok α)) :
    source (hit m :: ts) = m ++ source ts := by
  rfl

@[simp] theorem source_append
    (ts us : List (Tok α)) :
    source (ts ++ us) = source ts ++ source us := by
  simp [source]

@[simp] theorem source_map_lit
    (w : List α) :
    source (w.map Tok.lit) = w := by
  simp [source]

/-- One pass: `skip` counts the characters still covered by the last hit. -/
def tokensFrom (r : Rx α) : List α → Nat → List α → List (Tok α)
  | _, _, [] => []
  | pre, k + 1, c :: cs => tokensFrom r (c :: pre) k cs
  | pre, 0, c :: cs =>
      match Rx.first r pre (c :: cs) with
      | some (n + 1) => hit ((c :: cs).take (n + 1)) :: tokensFrom r (c :: pre) n cs
      | _ => Tok.lit c :: tokensFrom r (c :: pre) 0 cs

/-- The tokens of a text. -/
def tokens (r : Rx α) (text : List α) : List (Tok α) :=
  tokensFrom r [] 0 text

/-- Every leftmost nonempty match `m` is replaced by `f m`. -/
def sub (r : Rx α) (f : List α → List α) (text : List α) : List α :=
  render f (tokens r text)

/-- What the pass has checked when it emits each token. -/
inductive Scan (r : Rx α) : List α → List (Tok α) → Prop
  | nil (pre : List α) : Scan r pre []
  | literal {pre : List α} {c : α} {ts : List (Tok α)} :
      (Rx.first r pre (c :: source ts) = none ∨
        Rx.first r pre (c :: source ts) = some 0) →
      Scan r (c :: pre) ts →
      Scan r pre (Tok.lit c :: ts)
  | matched {pre m : List α} {ts : List (Tok α)} :
      m ≠ [] →
      Rx.first r pre (m ++ source ts) = some m.length →
      Scan r (m.reverse ++ pre) ts →
      Scan r pre (hit m :: ts)

/-- A reported match fits into the text. -/
theorem first_le_length
    {r : Rx α} {pre post : List α} {n : Nat}
    (h : Rx.first r pre post = some n) :
    n ≤ post.length := by
  obtain ⟨w, v, rfl, rfl, _⟩ := Rx.lang_of_first h
  simp

theorem scan_tokensFrom
    (r : Rx α) (post : List α) :
    ∀ (pre : List α) (k : Nat), k ≤ post.length →
      Scan r ((post.take k).reverse ++ pre) (tokensFrom r pre k post) ∧
        source (tokensFrom r pre k post) = post.drop k := by
  induction post with
  | nil =>
      intro pre k hk
      obtain rfl : k = 0 := by simpa using hk
      exact ⟨Scan.nil _, rfl⟩
  | cons c cs ih =>
      intro pre k hk
      cases k with
      | succ k =>
          have hk' : k ≤ cs.length := by simpa using hk
          obtain ⟨hscan, hsource⟩ := ih (c :: pre) k hk'
          simpa [tokensFrom] using And.intro hscan hsource
      | zero =>
          cases hfirst : Rx.first r pre (c :: cs) with
          | none =>
              obtain ⟨hscan, hsource⟩ := ih (c :: pre) 0 (Nat.zero_le _)
              simp only [List.drop_zero] at hsource
              simp only [tokensFrom, hfirst, List.take_zero, List.reverse_nil,
                List.nil_append, source_lit, hsource, List.drop_zero, and_true]
              exact Scan.literal (Or.inl (by rw [hsource, hfirst])) (by simpa using hscan)
          | some n =>
              cases n with
              | zero =>
                  obtain ⟨hscan, hsource⟩ := ih (c :: pre) 0 (Nat.zero_le _)
                  simp only [List.drop_zero] at hsource
                  simp only [tokensFrom, hfirst, List.take_zero, List.reverse_nil,
                    List.nil_append, source_lit, hsource, List.drop_zero, and_true]
                  exact Scan.literal (Or.inr (by rw [hsource, hfirst])) (by simpa using hscan)
              | succ n =>
                  have hn : n + 1 ≤ (c :: cs).length := first_le_length hfirst
                  have hn' : n ≤ cs.length := by simpa using hn
                  obtain ⟨hscan, hsource⟩ := ih (c :: pre) n hn'
                  have htext :
                      (c :: cs).take (n + 1) ++ source (tokensFrom r (c :: pre) n cs)
                        = c :: cs := by
                    rw [hsource]
                    simp
                  simp only [tokensFrom, hfirst, List.take_zero, List.reverse_nil,
                    List.nil_append, source_hit, List.drop_zero]
                  refine ⟨Scan.matched (by simp) ?_ (by simpa using hscan), htext⟩
                  rw [htext, hfirst, List.length_take, Nat.min_eq_left hn]

theorem scan_tokens
    (r : Rx α) (text : List α) :
    Scan r [] (tokens r text) := by
  simpa [tokens] using (scan_tokensFrom r text [] 0 (Nat.zero_le _)).1

@[simp] theorem source_tokens
    (r : Rx α) (text : List α) :
    source (tokens r text) = text := by
  simpa [tokens] using (scan_tokensFrom r text [] 0 (Nat.zero_le _)).2

/-- What holds of every character of a text and of what is put in holds of the result. -/
theorem forall_mem_sub
    {r : Rx α} {f : List α → List α} {P : α → Prop} {text : List α}
    (htext : ∀ c ∈ text, P c)
    (hf : ∀ m, (∀ c ∈ m, P c) → ∀ c ∈ f m, P c) :
    ∀ c ∈ sub r f text, P c := by
  have hmem : ∀ ts : List (Tok α), (∀ c ∈ source ts, P c) → ∀ c ∈ render f ts, P c := by
    intro ts
    induction ts with
    | nil =>
        intro _ c hc
        simp at hc
    | cons t ts ih =>
        intro hsource
        cases t with
        | lit c =>
            simp only [source_lit, List.forall_mem_cons] at hsource
            simpa using ⟨hsource.1, ih hsource.2⟩
        | hit m =>
            simp only [source_hit, List.forall_mem_append] at hsource
            simpa only [render_hit, List.forall_mem_append] using
              ⟨hf m hsource.1, ih hsource.2⟩
  exact hmem (tokens r text) (by simpa using htext)

/-- Characters of a class that are replaced by nothing are filtered out. -/
theorem sub_cls_erase
    (p : α → Bool) (text : List α) :
    sub (Rx.cls p) (fun _ => []) text = text.filter fun c => !p c := by
  have hfrom : ∀ pre : List α,
      render (fun _ => []) (tokensFrom (Rx.cls p) pre 0 text) = text.filter fun c => !p c := by
    induction text with
    | nil =>
        intro pre
        rfl
    | cons c cs ih =>
        intro pre
        by_cases hc : p c = true
        · simp [tokensFrom, Rx.first, Rx.ends, hc, ih]
        · simp [tokensFrom, Rx.first, Rx.ends, hc, ih]
  exact hfrom []

/-- The pass over the tokens behind a prefix. -/
theorem Scan.drop
    {r : Rx α} {ts us : List (Tok α)} :
    ∀ {pre : List α}, Scan r pre (ts ++ us) →
      Scan r ((source ts).reverse ++ pre) us := by
  induction ts with
  | nil =>
      intro pre h
      simpa using h
  | cons t ts ih =>
      intro pre h
      cases h with
      | literal _ htail =>
          simpa using ih htail
      | matched _ _ htail =>
          simpa using ih htail

/--
When no match reaches from `x` into `y`, the pass over `x ++ y` is the pass over `x`
and then the pass over `y`.
-/
theorem tokensFrom_append
    {r : Rx α} {y : List α} (x : List α) :
    ∀ (pre : List α) (k : Nat), k ≤ x.length →
      (∀ a b, x = a ++ b → b ≠ [] →
        Rx.first r (a.reverse ++ pre) (b ++ y) = Rx.first r (a.reverse ++ pre) b) →
      tokensFrom r pre k (x ++ y) =
        tokensFrom r pre k x ++ tokensFrom r (x.reverse ++ pre) 0 y := by
  induction x with
  | nil =>
      intro pre k hk _
      obtain rfl : k = 0 := by simpa using hk
      rfl
  | cons c x ih =>
      intro pre k hk hlocal
      have htail : ∀ a b, x = a ++ b → b ≠ [] →
          Rx.first r (a.reverse ++ c :: pre) (b ++ y) =
            Rx.first r (a.reverse ++ c :: pre) b := by
        intro a b hsplit hb
        simpa using hlocal (c :: a) b (by rw [hsplit]; rfl) hb
      cases k with
      | succ k =>
          have := ih (c :: pre) k (by simpa using hk) htail
          simpa [tokensFrom] using this
      | zero =>
          have hhere : Rx.first r pre (c :: (x ++ y)) = Rx.first r pre (c :: x) := by
            simpa using hlocal [] (c :: x) rfl (by simp)
          rw [List.cons_append, tokensFrom, tokensFrom, hhere]
          cases hfirst : Rx.first r pre (c :: x) with
          | none =>
              have := ih (c :: pre) 0 (Nat.zero_le _) htail
              simpa using this
          | some n =>
              cases n with
              | zero =>
                  have := ih (c :: pre) 0 (Nat.zero_le _) htail
                  simpa using this
              | succ n =>
                  have hn : n ≤ x.length := by
                    simpa using first_le_length hfirst
                  have := ih (c :: pre) n hn htail
                  simpa [List.take_append_of_le_length hn] using this

/-- A text in which no match starts is passed over unchanged. -/
theorem tokensFrom_of_none
    {r : Rx α} (x : List α) :
    ∀ pre : List α,
      (∀ a b, x = a ++ b → b ≠ [] → Rx.first r (a.reverse ++ pre) b = none) →
      tokensFrom r pre 0 x = x.map Tok.lit := by
  induction x with
  | nil =>
      intro pre _
      rfl
  | cons c x ih =>
      intro pre hnone
      have hhere : Rx.first r pre (c :: x) = none := by
        simpa using hnone [] (c :: x) rfl (by simp)
      have htail := ih (c :: pre) fun a b hsplit hb => by
        simpa using hnone (c :: a) b (by rw [hsplit]; rfl) hb
      rw [tokensFrom, hhere, htail]
      rfl

theorem tokensFrom_skip
    (r : Rx α) (s : List α) :
    ∀ (pre : List α) (k : Nat),
      tokensFrom r pre k s = tokensFrom r ((s.take k).reverse ++ pre) 0 (s.drop k) := by
  induction s with
  | nil =>
      intro pre k
      cases k <;> rfl
  | cons c s ih =>
      intro pre k
      cases k with
      | zero =>
          rfl
      | succ k =>
          rw [tokensFrom, ih (c :: pre) k]
          simp

/-- A match that starts here is taken, and the pass goes on behind it. -/
theorem tokensFrom_of_first
    {r : Rx α} {pre w v : List α} (hw : w ≠ [])
    (hfirst : Rx.first r pre (w ++ v) = some w.length) :
    tokensFrom r pre 0 (w ++ v) = hit w :: tokensFrom r (w.reverse ++ pre) 0 v := by
  cases w with
  | nil =>
      exact absurd rfl hw
  | cons c w =>
      rw [List.cons_append, List.length_cons] at hfirst
      rw [List.cons_append, tokensFrom, hfirst]
      simp only
      rw [tokensFrom_skip]
      simp

/-- The pass depends on what is behind it only as far as the expression does. -/
theorem tokensFrom_congr
    {r : Rx α} {pre pre' : List α}
    (hcontext : ∀ a post, Rx.first r (a ++ pre) post = Rx.first r (a ++ pre') post)
    (post : List α) :
    ∀ (a : List α) (k : Nat),
      tokensFrom r (a ++ pre) k post = tokensFrom r (a ++ pre') k post := by
  induction post with
  | nil =>
      intro a k
      cases k <;> rfl
  | cons c post ih =>
      intro a k
      cases k with
      | succ k =>
          exact ih (c :: a) k
      | zero =>
          rw [tokensFrom, tokensFrom, hcontext a (c :: post)]
          cases Rx.first r (a ++ pre') (c :: post) with
          | none =>
              exact congrArg _ (ih (c :: a) 0)
          | some n =>
              cases n with
              | zero =>
                  exact congrArg _ (ih (c :: a) 0)
              | succ n =>
                  exact congrArg _ (ih (c :: a) n)

/-- A hit is a nonempty match in its place. -/
theorem Scan.lang_of_hit
    {r : Rx α} {pre m : List α} {ts us : List (Tok α)}
    (h : Scan r pre (ts ++ hit m :: us)) :
    m ≠ [] ∧ Rx.Lang r ((source ts).reverse ++ pre) m (source us) := by
  cases h.drop with
  | matched hne hfirst _ =>
      obtain ⟨w, v, hsplit, hlen, hw⟩ := Rx.lang_of_first hfirst
      obtain ⟨rfl, rfl⟩ := List.append_inj hsplit hlen.symm
      exact ⟨hne, hw⟩

/-- No nonempty match starts at a literal, for an expression without empty matches. -/
theorem Scan.not_lang_of_lit
    {r : Rx α} {pre : List α} {c : α} {ts us : List (Tok α)}
    (hr : ∀ pre post, ¬ Rx.Lang r pre [] post)
    (h : Scan r pre (ts ++ Tok.lit c :: us))
    {w v : List α}
    (hsplit : c :: source us = w ++ v) :
    ¬ Rx.Lang r ((source ts).reverse ++ pre) w v := by
  cases h.drop with
  | literal hfirst _ =>
      rcases hfirst with hnone | hzero
      · exact (Rx.first_eq_none_iff r _ _).mp hnone w v hsplit
      · obtain ⟨x, y, _, hlen, hx⟩ := Rx.lang_of_first hzero
        obtain rfl := List.length_eq_zero_iff.mp hlen
        exact absurd hx (hr _ _)

/-- A rewriting that never erases a hit leaves only the empty list empty. -/
theorem eq_nil_of_render_eq_nil
    {f : List α → List α} {ts : List (Tok α)}
    (hf : ∀ m, hit m ∈ ts → f m ≠ [])
    (h : render f ts = []) :
    ts = [] := by
  cases ts with
  | nil =>
      rfl
  | cons t ts =>
      cases t with
      | lit c =>
          simp at h
      | hit m =>
          have hm := (List.append_eq_nil_iff.mp h).1
          exact absurd hm (hf m (by simp))

/--
A nonempty word of the rewritten text that no rewritten hit overlaps is a run of
literals.
-/
theorem exists_lits_of_disjoint
    {f : List α → List α} {ts : List (Tok α)} {a w b : List α}
    (hw : w ≠ [])
    (hf : ∀ m, hit m ∈ ts → f m ≠ [])
    (htext : render f ts = a ++ w ++ b)
    (hdisj : ∀ t₁ m t₂, ts = t₁ ++ hit m :: t₂ →
      a.length + w.length ≤ (render f t₁).length ∨
        (render f t₁).length + (f m).length ≤ a.length) :
    ∃ t₁ t₂, ts = t₁ ++ w.map Tok.lit ++ t₂ ∧ render f t₁ = a ∧ render f t₂ = b := by
  induction ts generalizing a w with
  | nil =>
      simp only [render_nil, List.append_assoc] at htext
      have := (List.append_eq_nil_iff.mp htext.symm).2
      exact absurd (List.append_eq_nil_iff.mp this).1 hw
  | cons t ts ih =>
      have hf' : ∀ m, hit m ∈ ts → f m ≠ [] :=
        fun m hm => hf m (List.mem_cons_of_mem _ hm)
      cases t with
      | lit c =>
          cases a with
          | nil =>
              cases w with
              | nil =>
                  exact absurd rfl hw
              | cons d w =>
                  simp only [render_lit, List.nil_append, List.cons_append,
                    List.cons.injEq] at htext
                  obtain ⟨rfl, htext⟩ := htext
                  by_cases hw' : w = []
                  · subst hw'
                    exact ⟨[], ts, rfl, rfl, by simpa using htext⟩
                  · have hd' : ∀ t₁ m t₂, ts = t₁ ++ hit m :: t₂ →
                        ([] : List α).length + w.length ≤ (render f t₁).length ∨
                          (render f t₁).length + (f m).length ≤ ([] : List α).length := by
                      intro t₁ m t₂ hts
                      have := hdisj (Tok.lit c :: t₁) m t₂ (by simp [hts])
                      simp only [render_lit, List.length_cons, List.length_nil] at this ⊢
                      omega
                    obtain ⟨t₁, t₂, hts, ht₁, ht₂⟩ := ih hw' hf' (a := []) htext hd'
                    have hnil : t₁ = [] := by
                      apply eq_nil_of_render_eq_nil (f := f) _ ht₁
                      intro m hm
                      exact hf' m (by rw [hts]; simp [hm])
                    subst hnil
                    exact ⟨[], t₂, by simp [hts], rfl, ht₂⟩
          | cons d a =>
              simp only [render_lit, List.cons_append, List.cons.injEq] at htext
              obtain ⟨rfl, htext⟩ := htext
              have hd' : ∀ t₁ m t₂, ts = t₁ ++ hit m :: t₂ →
                  a.length + w.length ≤ (render f t₁).length ∨
                    (render f t₁).length + (f m).length ≤ a.length := by
                intro t₁ m t₂ hts
                have := hdisj (Tok.lit c :: t₁) m t₂ (by simp [hts])
                simp only [render_lit, List.length_cons] at this
                omega
              obtain ⟨t₁, t₂, hts, ht₁, ht₂⟩ := ih hw hf' htext hd'
              exact ⟨Tok.lit c :: t₁, t₂, by simp [hts], by simp [ht₁], ht₂⟩
      | hit m =>
          have hlen : (f m).length ≤ a.length := by
            have := hdisj [] m ts rfl
            have hpos := List.length_pos_iff.mpr hw
            simp only [render_nil, List.length_nil] at this
            omega
          have hsplit : f m ++ render f ts = a ++ (w ++ b) := by
            simpa using htext
          obtain ⟨a', rfl⟩ : ∃ a', a = f m ++ a' := by
            rcases List.append_eq_append_iff.mp hsplit with ⟨x, hx, _⟩ | ⟨x, hx, hy⟩
            · exact ⟨x, hx⟩
            · have : x = [] := by
                apply List.length_eq_zero_iff.mp
                have := congrArg List.length hx
                simp only [List.length_append] at this
                omega
              exact ⟨[], by simp [hx, this]⟩
          have htext' : render f ts = a' ++ w ++ b := by
            simpa using htext
          have hd' : ∀ t₁ m' t₂, ts = t₁ ++ hit m' :: t₂ →
              a'.length + w.length ≤ (render f t₁).length ∨
                (render f t₁).length + (f m').length ≤ a'.length := by
            intro t₁ m' t₂ hts
            have := hdisj (hit m :: t₁) m' t₂ (by simp [hts])
            simp only [render_hit, List.length_append] at this
            omega
          obtain ⟨t₁, t₂, hts, ht₁, ht₂⟩ := ih hw hf' htext' hd'
          exact ⟨hit m :: t₁, t₂, by simp [hts], by simp [ht₁], ht₂⟩

end Regex
end MqSentinel
