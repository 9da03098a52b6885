import Mathlib.Data.List.Basic
import Mathlib.Tactic

/-!
# Hash chains

A list of records is linked when every record stores the digest of the record in
front of it, and the first stores a fixed genesis value.  Records and digests are
arbitrary; `prev` reads the stored digest and `digest` computes a record's own.

* `linked_append`: a chain may be cut anywhere, and the second part hangs on the
  digest that ends the first.
* `forall₂_of_related`: two chains that share a record share its position and
  everything in front of it, when digests collide only between related records
  and never equal the genesis value.
-/

namespace MqSentinel
namespace HashChain

universe u v

variable {ρ : Type u} {η : Type v}
variable (prev digest : ρ → η)

/-- The digest that the next record must store. -/
def lastDigest : η → List ρ → η
  | h, [] => h
  | _, r :: rs => lastDigest (digest r) rs

/-- Every record stores the digest of its predecessor. -/
def Linked : η → List ρ → Prop
  | _, [] => True
  | h, r :: rs => prev r = h ∧ Linked (digest r) rs

@[simp] theorem lastDigest_nil
    (h : η) :
    lastDigest digest h ([] : List ρ) = h := by
  rfl

@[simp] theorem linked_nil
    (h : η) :
    Linked prev digest h [] := by
  trivial

@[simp] theorem linked_cons
    (h : η) (r : ρ) (rs : List ρ) :
    Linked prev digest h (r :: rs) ↔
      prev r = h ∧ Linked prev digest (digest r) rs := by
  rfl

theorem lastDigest_append
    (h : η) (rs ss : List ρ) :
    lastDigest digest h (rs ++ ss) =
      lastDigest digest (lastDigest digest h rs) ss := by
  induction rs generalizing h with
  | nil =>
      rfl
  | cons r rs ih =>
      exact ih (digest r)

@[simp] theorem lastDigest_concat
    (h : η) (rs : List ρ) (r : ρ) :
    lastDigest digest h (rs ++ [r]) = digest r := by
  rw [lastDigest_append]
  rfl

theorem linked_append
    (h : η) (rs ss : List ρ) :
    Linked prev digest h (rs ++ ss) ↔
      Linked prev digest h rs ∧
        Linked prev digest (lastDigest digest h rs) ss := by
  induction rs generalizing h with
  | nil =>
      simp
  | cons r rs ih =>
      simp only [List.cons_append, linked_cons, ih (digest r), lastDigest, and_assoc]

/-- A record may be appended when it stores the digest of the last one. -/
theorem linked_concat
    (h : η) (rs : List ρ) (r : ρ) :
    Linked prev digest h (rs ++ [r]) ↔
      Linked prev digest h rs ∧ prev r = lastDigest digest h rs := by
  simp [linked_append]

section TamperEvidence

variable {prev digest}
variable {R : ρ → ρ → Prop} {g : η}

/-- Chains that end in the same digest are related record by record. -/
theorem forall₂_of_lastDigest_eq
    (rs : List ρ) :
    ∀ ss : List ρ,
      (∀ r ∈ rs, ∀ s ∈ ss, R r s → prev r = prev s) →
      (∀ r ∈ rs, ∀ s ∈ ss, digest r = digest s → R r s) →
      (∀ r ∈ rs, digest r ≠ g) →
      (∀ s ∈ ss, digest s ≠ g) →
      Linked prev digest g rs →
      Linked prev digest g ss →
      lastDigest digest g rs = lastDigest digest g ss →
      List.Forall₂ R rs ss := by
  induction rs using List.reverseRecOn with
  | nil =>
      intro ss _ _ _ hss _ _ hlast
      rcases List.eq_nil_or_concat ss with rfl | ⟨ss', s, rfl⟩
      · exact List.Forall₂.nil
      · rw [List.concat_eq_append, lastDigest_concat] at hlast
        exact absurd hlast.symm (hss s (by simp))
  | append_singleton rs r ih =>
      intro ss hprev hdigest hrs hss hlr hls hlast
      rcases List.eq_nil_or_concat ss with rfl | ⟨ss', s, rfl⟩
      · rw [lastDigest_concat] at hlast
        exact absurd hlast (hrs r (by simp))
      · rw [List.concat_eq_append] at *
        rw [lastDigest_concat, lastDigest_concat] at hlast
        obtain ⟨hlr, hr⟩ := (linked_concat prev digest g rs r).mp hlr
        obtain ⟨hls, hs⟩ := (linked_concat prev digest g ss' s).mp hls
        have hrel : R r s := hdigest r (by simp) s (by simp) hlast
        have hsame : prev r = prev s := hprev r (by simp) s (by simp) hrel
        have htail := ih ss'
          (fun x hx y hy => hprev x (by simp [hx]) y (by simp [hy]))
          (fun x hx y hy => hdigest x (by simp [hx]) y (by simp [hy]))
          (fun x hx => hrs x (by simp [hx]))
          (fun y hy => hss y (by simp [hy]))
          hlr hls (by rw [← hr, ← hs, hsame])
        exact List.rel_append htail (List.Forall₂.cons hrel List.Forall₂.nil)

/-- **Two chains that share a record share everything in front of it.** -/
theorem forall₂_of_related
    {rs₁ rs₂ ss₁ ss₂ : List ρ} {r s : ρ}
    (hprev : ∀ r' ∈ rs₁ ++ r :: rs₂, ∀ s' ∈ ss₁ ++ s :: ss₂, R r' s' → prev r' = prev s')
    (hdigest : ∀ r' ∈ rs₁ ++ r :: rs₂, ∀ s' ∈ ss₁ ++ s :: ss₂,
      digest r' = digest s' → R r' s')
    (hrs : ∀ r' ∈ rs₁ ++ r :: rs₂, digest r' ≠ g)
    (hss : ∀ s' ∈ ss₁ ++ s :: ss₂, digest s' ≠ g)
    (hlr : Linked prev digest g (rs₁ ++ r :: rs₂))
    (hls : Linked prev digest g (ss₁ ++ s :: ss₂))
    (hrel : R r s) :
    List.Forall₂ R rs₁ ss₁ := by
  obtain ⟨hlr₁, hr, _⟩ := (linked_append prev digest g rs₁ (r :: rs₂)).mp hlr
  obtain ⟨hls₁, hs, _⟩ := (linked_append prev digest g ss₁ (s :: ss₂)).mp hls
  have hsame : prev r = prev s := hprev r (by simp) s (by simp) hrel
  exact forall₂_of_lastDigest_eq rs₁ ss₁
    (fun x hx y hy => hprev x (by simp [hx]) y (by simp [hy]))
    (fun x hx y hy => hdigest x (by simp [hx]) y (by simp [hy]))
    (fun x hx => hrs x (by simp [hx]))
    (fun y hy => hss y (by simp [hy]))
    hlr₁ hls₁ (by rw [← hr, ← hs, hsame])

end TamperEvidence

end HashChain
end MqSentinel
