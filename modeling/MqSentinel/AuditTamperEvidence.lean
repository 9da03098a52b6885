import MqSentinel.AuditRuns

/-!
# Tamper evidence of the audit log

Two accepted files that share a record agree on its position and on everything in
front of it.  Records are compared as parsed JSON: `Json.Same` ignores the order of
keys, at every depth, and nothing else, which is also what the canonical form
forgets.

That SHA-256 of the canonical form tells records apart is assumed only of the
records of the two files.
-/

namespace MqSentinel

/-- The value of a key among the items of an object. -/
def Json.member (k : PyStr) (items : List (PyStr × Json)) : Option Json :=
  (items.find? fun p => p.1 = k).map Prod.snd

/-- Equal as JSON: objects are mappings, whatever the order of their keys. -/
inductive Json.Same : Json → Json → Prop where
  | null : Same .null .null
  | bool (b : Bool) : Same (.bool b) (.bool b)
  | int (n : Int) : Same (.int n) (.int n)
  | float (bits : UInt64) : Same (.float bits) (.float bits)
  | str (s : PyStr) : Same (.str s) (.str s)
  | arr {xs ys : List Json} (h : List.Forall₂ Same xs ys) : Same (.arr xs) (.arr ys)
  | obj {ps qs : List (PyStr × Json)}
      (h : ∀ k, Option.Rel Same (Json.member k ps) (Json.member k qs)) :
      Same (.obj ps) (.obj qs)

namespace Json

mutual

theorem Same.refl : ∀ v : Json, Same v v
  | .null => Same.null
  | .bool b => Same.bool b
  | .int n => Same.int n
  | .float bits => Same.float bits
  | .str s => Same.str s
  | .arr xs => Same.arr (Same.refl_all xs)
  | .obj items => Same.obj fun k => Same.refl_member k items

theorem Same.refl_all : ∀ xs : List Json, List.Forall₂ Same xs xs
  | [] => List.Forall₂.nil
  | x :: xs => List.Forall₂.cons (Same.refl x) (Same.refl_all xs)

theorem Same.refl_member (k : PyStr) : ∀ items : List (PyStr × Json),
    Option.Rel Same (member k items) (member k items)
  | [] => Option.Rel.none
  | (j, v) :: items => by
      by_cases hj : j = k
      · have hmember : member k ((j, v) :: items) = some v := by
          simp [member, hj]
        rw [hmember]
        exact Option.Rel.some (Same.refl v)
      · have hmember : member k ((j, v) :: items) = member k items := by
          simp [member, hj]
        rw [hmember]
        exact Same.refl_member k items

end

/-- Text is the same only as itself. -/
theorem Same.eq_str
    {s : PyStr} {w : Json} (h : Same (.str s) w) :
    w = .str s := by
  cases h
  rfl

end Json

namespace Audit

open HashChain Json

/-- Two records that are equal as parsed JSON. -/
def DictSame (d e : OrderedDict PyStr Json) : Prop :=
  ∀ k, Option.Rel Same (d.get? k) (e.get? k)

theorem DictSame.refl
    (d : OrderedDict PyStr Json) :
    DictSame d d :=
  fun k => Same.refl_member k d.items

/-- Equal records hold the same text under a key. -/
theorem DictSame.get?_str
    {d e : OrderedDict PyStr Json} {k s : PyStr}
    (h : DictSame d e) (hd : d.get? k = some (.str s)) :
    e.get? k = some (.str s) := by
  have hk := h k
  rw [hd] at hk
  cases he : e.get? k with
  | none =>
      rw [he] at hk
      cases hk
  | some w =>
      rw [he] at hk
      cases hk with
      | some hw =>
          rw [hw.eq_str]

/-- What a record holds under another key is not changed by removing `hash`. -/
theorem get?_erase_of_ne
    (d : OrderedDict PyStr Json) {j k : PyStr} (hk : k ≠ j) :
    (d.erase j).get? k = d.get? k := by
  unfold OrderedDict.get? OrderedDict.erase
  rw [List.find?_filter]
  congr 2
  funext p
  by_cases hp : p.1 = k
  · simp [hp, hk]
  · simp [hp]

/-- The lines of a file that are not blank, each as a record if it is one. -/
def parsedLines (oj : Orjson) (file : Option PyBytes) :
    List (Option (OrderedDict PyStr Json)) :=
  (recordLines file).map (parseRecord oj)

/--
SHA-256 of the canonical form tells the records of two lists apart: equal hashes
come from records that are equal without their `hash`.
-/
def HashTellsApart (oj : Orjson) (sha : PyBytes → PyStr)
    (rs ss : List (OrderedDict PyStr Json)) : Prop :=
  ∀ r ∈ rs, ∀ s ∈ ss, ∀ a b,
    oj.dumpsSorted (.obj (r.erase (lit "hash")).items) = some a →
    oj.dumpsSorted (.obj (s.erase (lit "hash")).items) = some b →
    sha a = sha b →
    DictSame (r.erase (lit "hash")) (s.erase (lit "hash"))

/-- No record of a list hashes to the genesis value. -/
def AvoidsGenesis (oj : Orjson) (sha : PyBytes → PyStr)
    (rs : List (OrderedDict PyStr Json)) : Prop :=
  ∀ r ∈ rs, ∀ a,
    oj.dumpsSorted (.obj (r.erase (lit "hash")).items) = some a → sha a ≠ genesisHash

section

variable {oj : Orjson} {sha : PyBytes → PyStr}

/-- An accepted file holds a record on every line. -/
theorem parsedLines_of_verifyChain
    {file : Option PyBytes} (h : verifyChain oj sha file = .ok ()) :
    parsedLines oj file = (records oj file).map some := by
  obtain ⟨hparse, _, _⟩ := (verifyChain_ok_iff file).mp h
  have hmap : List.Forall₂ Eq ((recordLines file).map (parseRecord oj))
      ((records oj file).map some) := by
    rw [List.forall₂_map_left_iff, List.forall₂_map_right_iff]
    exact hparse
  rwa [List.forall₂_eq_eq_eq] at hmap

theorem recordDigest_of_sealed
    {r : OrderedDict PyStr Json} (h : Sealed oj sha r) :
    ∃ a, oj.dumpsSorted (.obj (r.erase (lit "hash")).items) = some a ∧
      r.get? (lit "hash") = some (.str (sha a)) ∧
      recordDigest oj sha r = some (.str (sha a)) := by
  obtain ⟨a, hdump, hhash⟩ := h
  exact ⟨a, hdump, hhash, by simp [recordDigest, hdump]⟩

/-- Every record of a chain of sealed records stores some text as `prev_hash`. -/
theorem storedPrev_of_linked
    (rs : List (OrderedDict PyStr Json)) :
    ∀ p : PyStr, (∀ r ∈ rs, Sealed oj sha r) →
      Linked storedPrev (recordDigest oj sha) (some (.str p)) rs →
      ∀ r ∈ rs, ∃ q, storedPrev r = some (.str q) := by
  induction rs with
  | nil =>
      intro p _ _ r hr
      cases hr
  | cons r rs ih =>
      intro p hsealed hlinked r' hr'
      obtain ⟨hprev, hrest⟩ := hlinked
      obtain ⟨a, _, _, hdigest⟩ := recordDigest_of_sealed (hsealed r (by simp))
      rw [hdigest] at hrest
      rcases List.mem_cons.mp hr' with rfl | hmem
      · exact ⟨p, hprev⟩
      · exact ih (sha a) (fun x hx => hsealed x (List.mem_cons_of_mem _ hx)) hrest r' hmem

/-- Sealed records with one hash are equal, the `hash` field included. -/
theorem dictSame_of_recordDigest_eq
    {rs ss : List (OrderedDict PyStr Json)} (hapart : HashTellsApart oj sha rs ss)
    {r s : OrderedDict PyStr Json} (hr : r ∈ rs) (hs : s ∈ ss)
    (hrs : Sealed oj sha r) (hss : Sealed oj sha s)
    (h : recordDigest oj sha r = recordDigest oj sha s) :
    DictSame r s := by
  obtain ⟨a, hdumpr, hhashr, hdigestr⟩ := recordDigest_of_sealed hrs
  obtain ⟨b, hdumps, hhashs, hdigests⟩ := recordDigest_of_sealed hss
  have hsha : sha a = sha b := by
    rw [hdigestr, hdigests] at h
    simpa using h
  have herased := hapart r hr s hs a b hdumpr hdumps hsha
  intro k
  by_cases hk : k = lit "hash"
  · rw [hk, hhashr, hhashs, hsha]
    exact Option.Rel.some (Same.refl _)
  · have := herased k
    rwa [get?_erase_of_ne r hk, get?_erase_of_ne s hk] at this

/-- Records of accepted files: a shared one fixes everything in front of it. -/
theorem records_before_shared
    {file₁ file₂ : Option PyBytes}
    (hapart : HashTellsApart oj sha (records oj file₁) (records oj file₂))
    (hgenesis₁ : AvoidsGenesis oj sha (records oj file₁))
    (hgenesis₂ : AvoidsGenesis oj sha (records oj file₂))
    (h₁ : verifyChain oj sha file₁ = .ok ())
    (h₂ : verifyChain oj sha file₂ = .ok ())
    {rs₁ rs₂ ss₁ ss₂ : List (OrderedDict PyStr Json)} {r s : OrderedDict PyStr Json}
    (hrs : records oj file₁ = rs₁ ++ r :: rs₂)
    (hss : records oj file₂ = ss₁ ++ s :: ss₂)
    (hsame : DictSame r s) :
    List.Forall₂ DictSame rs₁ ss₁ := by
  obtain ⟨_, hsealed₁, hlinked₁⟩ := (verifyChain_ok_iff file₁).mp h₁
  obtain ⟨_, hsealed₂, hlinked₂⟩ := (verifyChain_ok_iff file₂).mp h₂
  have hnot_genesis : ∀ rs : List (OrderedDict PyStr Json),
      AvoidsGenesis oj sha rs → (∀ r ∈ rs, Sealed oj sha r) →
      ∀ r ∈ rs, recordDigest oj sha r ≠ some (.str genesisHash) := by
    intro rs hrs hsealed r hr hdigest
    obtain ⟨a, hdump, _, hdigest'⟩ := recordDigest_of_sealed (hsealed r hr)
    rw [hdigest'] at hdigest
    exact hrs r hr a hdump (by simpa using hdigest)
  have hprev₁ := storedPrev_of_linked _ _ hsealed₁ hlinked₁
  generalize records oj file₁ = rs at *
  generalize records oj file₂ = ss at *
  subst hrs hss
  refine forall₂_of_related ?_ ?_
    (hnot_genesis _ hgenesis₁ hsealed₁) (hnot_genesis _ hgenesis₂ hsealed₂)
    hlinked₁ hlinked₂ hsame
  · intro r' hr' s' _ hrel
    obtain ⟨q, hq⟩ := hprev₁ r' hr'
    have hs' : storedPrev s' = some (.str q) := hrel.get?_str hq
    rw [hq, hs']
  · intro r' hr' s' hs' hdigest
    exact dictSame_of_recordDigest_eq hapart hr' hs' (hsealed₁ r' hr') (hsealed₂ s' hs')
      hdigest

/-- A list cut at one of its elements. -/
theorem eq_take_append_of_getElem?
    {α : Type*} {xs : List α} {i : Nat} {x : α} (h : xs[i]? = some x) :
    xs = xs.take i ++ x :: xs.drop (i + 1) := by
  obtain ⟨hi, rfl⟩ := List.getElem?_eq_some_iff.mp h
  rw [← List.drop_eq_getElem_cons hi, List.take_append_drop]

/--
**Tamper evidence.**  When a line of an accepted file holds the same record as a
line of another file, and that file is accepted too, the two lines have the same
position and the lines in front of them hold the same records, pair by pair.  So
whatever was changed in front of a record that is left as it was, the verifier
raises.
-/
theorem shared_record_fixes_lines_before
    {file₁ file₂ : Option PyBytes}
    (hapart : HashTellsApart oj sha (records oj file₁) (records oj file₂))
    (hgenesis₁ : AvoidsGenesis oj sha (records oj file₁))
    (hgenesis₂ : AvoidsGenesis oj sha (records oj file₂))
    (h₁ : verifyChain oj sha file₁ = .ok ())
    {i j : Nat} {r s : OrderedDict PyStr Json}
    (hr : (parsedLines oj file₁)[i]? = some (some r))
    (hs : (parsedLines oj file₂)[j]? = some (some s))
    (hsame : DictSame r s) :
    (verifyChain oj sha file₂ = .ok () →
      i = j ∧ List.Forall₂ (Option.Rel DictSame)
        ((parsedLines oj file₁).take i) ((parsedLines oj file₂).take j)) ∧
    (¬ List.Forall₂ (Option.Rel DictSame)
        ((parsedLines oj file₁).take i) ((parsedLines oj file₂).take j) →
      ∃ err, verifyChain oj sha file₂ = .error err) := by
  have hbefore_shared : verifyChain oj sha file₂ = .ok () →
      i = j ∧ List.Forall₂ (Option.Rel DictSame)
        ((parsedLines oj file₁).take i) ((parsedLines oj file₂).take j) := by
    intro h₂
    rw [parsedLines_of_verifyChain h₁] at hr ⊢
    rw [parsedLines_of_verifyChain h₂] at hs ⊢
    have hr' : (records oj file₁)[i]? = some r := by
      simpa using hr
    have hs' : (records oj file₂)[j]? = some s := by
      simpa using hs
    have hbefore : List.Forall₂ DictSame
        ((records oj file₁).take i) ((records oj file₂).take j) :=
      records_before_shared hapart hgenesis₁ hgenesis₂ h₁ h₂
        (eq_take_append_of_getElem? hr') (eq_take_append_of_getElem? hs') hsame
    have hlength := hbefore.length_eq
    have hi : i < (records oj file₁).length := (List.getElem?_eq_some_iff.mp hr').1
    have hj : j < (records oj file₂).length := (List.getElem?_eq_some_iff.mp hs').1
    rw [List.length_take, List.length_take] at hlength
    refine ⟨by omega, ?_⟩
    rw [← List.map_take, ← List.map_take, List.forall₂_map_left_iff,
      List.forall₂_map_right_iff]
    exact hbefore.imp fun _ _ h => Option.Rel.some h
  refine ⟨hbefore_shared, ?_⟩
  intro hchanged
  cases h₂ : verifyChain oj sha file₂ with
  | ok _ =>
      exact absurd (hbefore_shared h₂).2 hchanged
  | error err =>
      exact ⟨err, rfl⟩

end

section Sample

/-- The sample record with the given predecessor, as a line. -/
def sampleLine (prev : PyStr) : PyBytes :=
  (sampleRecord prev).text ++ [newline]

/-- Two records. -/
def sampleFile : Option PyBytes :=
  some (sampleLine genesisHash ++ sampleLine firstHash)

/-- The same records with a blank line between them. -/
def spacedFile : Option PyBytes :=
  some (sampleLine genesisHash ++ [newline] ++ sampleLine firstHash)

def sampleDict (prev : PyStr) : OrderedDict PyStr Json :=
  OrderedDict.ofList
    (sealedRecord sampleTime sampleEvent prev (sampleSha (sampleCanonical prev)))

theorem records_sampleFile :
    records sampleOrjson sampleFile = [sampleDict genesisHash, sampleDict firstHash] := by
  decide +kernel

theorem records_spacedFile :
    records sampleOrjson spacedFile = [sampleDict genesisHash, sampleDict firstHash] := by
  decide +kernel

theorem hashTellsApart_sample :
    HashTellsApart sampleOrjson sampleSha
      [sampleDict genesisHash, sampleDict firstHash]
      [sampleDict genesisHash, sampleDict firstHash] := by
  have htexts : ∀ r ∈ [sampleDict genesisHash, sampleDict firstHash],
      ∀ s ∈ [sampleDict genesisHash, sampleDict firstHash],
        (sampleOrjson.dumpsSorted (.obj (r.erase (lit "hash")).items)).map sampleSha =
            (sampleOrjson.dumpsSorted (.obj (s.erase (lit "hash")).items)).map sampleSha →
          r = s := by
    decide +kernel
  intro r hr s hs a b ha hb hsha
  have hrs : r = s := htexts r hr s hs (by rw [ha, hb, Option.map_some, Option.map_some, hsha])
  rw [hrs]
  exact DictSame.refl _

theorem avoidsGenesis_sample :
    AvoidsGenesis sampleOrjson sampleSha
      [sampleDict genesisHash, sampleDict firstHash] := by
  intro r _ a _
  unfold sampleSha
  split_ifs <;> decide

theorem shared_record_fixes_lines_before_sample :
    (verifyChain sampleOrjson sampleSha spacedFile = .ok () →
      1 = 1 ∧ List.Forall₂ (Option.Rel DictSame)
        ((parsedLines sampleOrjson sampleFile).take 1)
        ((parsedLines sampleOrjson spacedFile).take 1)) ∧
    (¬ List.Forall₂ (Option.Rel DictSame)
        ((parsedLines sampleOrjson sampleFile).take 1)
        ((parsedLines sampleOrjson spacedFile).take 1) →
      ∃ err, verifyChain sampleOrjson sampleSha spacedFile = .error err) :=
  shared_record_fixes_lines_before
    (by rw [records_sampleFile, records_spacedFile]; exact hashTellsApart_sample)
    (by rw [records_sampleFile]; exact avoidsGenesis_sample)
    (by rw [records_spacedFile]; exact avoidsGenesis_sample)
    (by decide +kernel) (r := sampleDict firstHash) (s := sampleDict firstHash)
    (by decide +kernel) (by decide +kernel) (DictSame.refl _)

end Sample

end Audit
end MqSentinel
