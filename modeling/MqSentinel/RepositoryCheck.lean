import MqSentinel.ReportedRows

/-!
# Clusters without a full repository

`_check_full_repos` excuses the clusters that `_self_full_repo_clusters` reads out of the
reply about the queue manager.  The scanner works on the upper case of the reply, so what
it reads is the upper case of the local repository, while the cluster names of the rows
stay as they are.
-/

namespace MqSentinel
namespace Rcs
namespace Cluster

open CodePoint

/-- A `DISPLAY QMGR` reply with one `REPOS(…)` in it. -/
structure QmgrReply (U : UnicodeData) where
  before : PyStr
  repos : PyStr
  after : PyStr
  closed : ch ')' ∉ repos
  first : ¬ lit "REPOS(" <:+: U.upperStr before
  last : ¬ lit "REPOS(" <:+: U.upperStr after

/-- The text of the reply. -/
def QmgrReply.text {U : UnicodeData} (reply : QmgrReply U) : PyStr :=
  reply.before ++ (lit "REPOS(" ++ (reply.repos ++ ch ')' :: reply.after))

/-- The names of the clusters in the rows. -/
def clusterNames (rows : List Row) : List PyStr :=
  (rows.map clusterName).filter fun c => c ≠ []

/-- The finding about a cluster without a full repository. -/
def NoFullRepo (cluster : PyStr) (f : RCSFinding) : Prop :=
  f.severity = .critical ∧
    f.issue = lit "Cluster " ++ cluster ++ lit " has no visible full repository"

instance (cluster : PyStr) (f : RCSFinding) : Decidable (NoFullRepo cluster f) :=
  inferInstanceAs (Decidable (_ ∧ _))

section Judgement

variable (U : UnicodeData)

/-- No row of the cluster is a full repository. -/
def NoRepositoryRow (rows : List Row) (cluster : PyStr) : Prop :=
  ∀ m ∈ rows, clusterName m = cluster → upperCell U m "QMTYPE" ≠ lit "REPOS"

/-- The findings name the clusters without a full repository, `local` being the local one. -/
structure Judged (rows : List Row) (localRepos : PyStr) (findings : List RCSFinding) : Prop where
  reported : ∀ c ∈ clusterNames rows,
    (∃ f ∈ findings, NoFullRepo c f) ↔ NoRepositoryRow U rows c ∧ localRepos ≠ c
  once : ∀ c, findings.countP (NoFullRepo c) ≤ 1
  named : ∀ f ∈ findings, f.severity = .critical → ∃ c ∈ clusterNames rows, NoFullRepo c f

end Judgement

section Scanner

/-- The word does not begin again inside itself. -/
theorem not_prefix_append
    {x : PyStr} (hne : x ≠ []) (h : ¬ lit "REPOS(" <:+: x) (rest : PyStr) :
    ¬ lit "REPOS(" <+: x ++ (lit "REPOS(" ++ rest) := by
  have hinside : ∀ k < 6, k ≠ 0 → (lit "REPOS(")[k]? ≠ some (ch 'R') := by
    decide
  rintro ⟨t, ht⟩
  by_cases hlen : x.length < 6
  · have hat := congrArg (fun s => s[x.length]?) ht
    rw [List.getElem?_append_left (by exact hlen), List.getElem?_append_right le_rfl,
      Nat.sub_self] at hat
    exact hinside _ hlen (by simpa using hne) hat
  · refine h (List.IsPrefix.isInfix ?_)
    refine List.prefix_of_prefix_length_le ⟨t, ht⟩ (List.prefix_append _ _) ?_
    exact Nat.le_of_not_lt hlen

/-- The first occurrence is the one behind a text without any. -/
theorem fromFirst_append
    {a rest : PyStr} (h : ¬ lit "REPOS(" <:+: a) :
    fromFirst (lit "REPOS(") (a ++ (lit "REPOS(" ++ rest)) = some (lit "REPOS(" ++ rest) := by
  induction a with
  | nil =>
      rfl
  | cons c a ih =>
      have hlater : ¬ lit "REPOS(" <:+: a := fun hin =>
        h (hin.trans (List.suffix_cons c a).isInfix)
      have hhere := not_prefix_append (List.cons_ne_nil c a) h rest
      rw [List.cons_append, fromFirst, if_neg (by rwa [List.isPrefixOf_iff_prefix])]
      exact ih hlater

theorem fromFirst_none
    {a : PyStr} (h : ¬ lit "REPOS(" <:+: a) :
    fromFirst (lit "REPOS(") a = none := by
  induction a with
  | nil =>
      rfl
  | cons c a ih =>
      rw [fromFirst, if_neg, ih fun hin => h (hin.trans (List.suffix_cons c a).isInfix)]
      rw [List.isPrefixOf_iff_prefix]
      exact fun hpre => h hpre.isInfix

variable {U : UnicodeData}

theorem upperStr_append (s t : PyStr) :
    U.upperStr (s ++ t) = U.upperStr s ++ U.upperStr t := by
  exact List.flatMap_append

/-- Upper-casing makes no parenthesis. -/
theorem close_not_mem_upperStr
    {s : PyStr} (h : ch ')' ∉ s) :
    ch ')' ∉ U.upperStr s := by
  intro hin
  obtain ⟨c, hc, hupper⟩ := List.mem_flatMap.mp hin
  cases hascii : c.isAscii with
  | true =>
      rw [U.upper_ascii c hascii, List.mem_singleton] at hupper
      refine h ?_
      have hsame : c = ch ')' := by
        unfold toUpperAscii at hupper
        split_ifs at hupper with hlower
        · have hval := congrArg CodePoint.val hupper
          simp only [isLowerAscii, decide_eq_true_eq] at hlower
          have hparen : (ch ')').val = 0x29 := rfl
          rw [hparen] at hval
          dsimp only at hval
          omega
        · exact hupper.symm
      rwa [← hsame]
  | false =>
      have hletter := U.upper_letter c hascii _ hupper (by decide)
      revert hletter
      decide

/-- A stripped text is no blank. -/
theorem strip_ne_blank (s : PyStr) :
    strip s ≠ lit " " := by
  intro h
  have hne : (lstrip s).rdropWhile isSpace ≠ [] := by
    rw [show (lstrip s).rdropWhile isSpace = strip s from rfl, h]
    decide
  refine List.rdropWhile_last_not isSpace (lstrip s) hne ?_
  have hlast : ((lstrip s).rdropWhile isSpace).getLast hne ∈ lit " " := by
    rw [← h]
    exact List.getLast_mem hne
  rw [List.mem_singleton.mp hlast]
  decide

/-- The scanner reads the upper case of the local repository. -/
theorem mem_selfFullRepoClusters_iff
    (reply : QmgrReply U) {c : PyStr} (hc : c ≠ []) :
    c ∈ selfFullRepoClusters U reply.text ↔ c = strip (U.upperStr reply.repos) := by
  have hword : U.upperStr (lit "REPOS(") = lit "REPOS(" := UnicodeData.upperStr_eq_self (by decide)
  have hclose : U.upperStr [ch ')'] = [ch ')'] := UnicodeData.upperStr_eq_self (by decide)
  have htext : U.upperStr reply.text = U.upperStr reply.before ++
      (lit "REPOS(" ++ (U.upperStr reply.repos ++ ch ')' :: U.upperStr reply.after)) := by
    rw [QmgrReply.text, upperStr_append, upperStr_append, upperStr_append, hword,
      ← List.singleton_append, upperStr_append, hclose]
    rfl
  have hparen := close_not_mem_upperStr (U := U) reply.closed
  have hlater : ∀ n, reposNames n (ch ')' :: U.upperStr reply.after) = [] := by
    intro n
    have hnone : fromFirst (lit "REPOS(") (ch ')' :: U.upperStr reply.after) = none := by
      refine fromFirst_none fun hin => ?_
      rcases List.infix_cons_iff.mp hin with hpre | hin
      · obtain ⟨t, ht⟩ := hpre
        exact absurd (List.cons.inj ht).1 (by decide)
      · exact reply.last hin
    cases n with
    | zero => rfl
    | succ n => rw [reposNames, hnone]
  have hne : ∀ x ∈ U.upperStr reply.repos, (x != ch ')') = true := by
    intro x hx
    rw [bne_iff_ne]
    rintro rfl
    exact hparen hx
  have htake : (U.upperStr reply.repos ++ ch ')' :: U.upperStr reply.after).takeWhile
      (· != ch ')') = U.upperStr reply.repos := by
    rw [List.takeWhile_append_of_pos hne, List.takeWhile_cons_of_neg (by simp), List.append_nil]
  have hdrop : (U.upperStr reply.repos ++ ch ')' :: U.upperStr reply.after).dropWhile
      (· != ch ')') = ch ')' :: U.upperStr reply.after := by
    rw [List.dropWhile_append_of_pos hne, List.dropWhile_cons_of_neg (by simp)]
  have hrun : ∀ n, reposNames (n + 1) (U.upperStr reply.text) =
      if strip (U.upperStr reply.repos) ≠ [] ∧ strip (U.upperStr reply.repos) ≠ lit " " then
        [strip (U.upperStr reply.repos)]
      else [] := by
    intro n
    have hfound : (lit "REPOS(" ++ (U.upperStr reply.repos ++
        ch ')' :: U.upperStr reply.after)).drop 6 =
          U.upperStr reply.repos ++ ch ')' :: U.upperStr reply.after := rfl
    rw [reposNames, htext, fromFirst_append reply.first]
    dsimp only
    rw [hfound, if_pos (by simp), htake, hdrop, hlater, List.append_nil]
  obtain ⟨n, hn⟩ : ∃ n, (U.upperStr reply.text).length = n + 1 := by
    refine Nat.exists_eq_succ_of_ne_zero ?_
    rw [htext]
    simp
  rw [selfFullRepoClusters, hn, hrun]
  split_ifs with hname
  · exact List.mem_singleton
  · refine iff_of_false List.not_mem_nil ?_
    rintro rfl
    exact hname ⟨hc, strip_ne_blank _⟩

end Scanner

section Findings

variable (U : UnicodeData) (registry : KCRegistry) (mqVersion : Option PyStr)

theorem mem_clusterNames_iff
    {rows : List Row} {c : PyStr} :
    c ∈ clusterNames rows ↔ c ≠ [] ∧ ∃ row ∈ rows, clusterName row = c := by
  simp [clusterNames, and_comm]

theorem noFullRepo_finding (cluster : PyStr) (members : List Row) :
    NoFullRepo cluster (findingNoFullRepo registry mqVersion cluster members) :=
  ⟨rfl, rfl⟩

/-- The finding names its cluster. -/
theorem eq_of_noFullRepo
    {c cluster : PyStr} {f : RCSFinding} (h : NoFullRepo c f) (h' : NoFullRepo cluster f) :
    c = cluster := by
  have hissue := h.2.symm.trans h'.2
  rw [List.append_assoc, List.append_assoc, List.append_cancel_left_eq,
    List.append_left_inj] at hissue
  exact hissue

/-- Only the check of the repositories is critical. -/
theorem filter_critical (clock : Clock) (raw : RawData) :
    (matchClusterFindings U registry mqVersion clock raw).filter
        (fun f => f.severity = .critical) =
      checkFullRepos U registry mqVersion raw.clusqmgrs raw.repos := by
  have hrepos : (checkFullRepos U registry mqVersion raw.clusqmgrs raw.repos).filter
      (fun f => f.severity = .critical) =
        checkFullRepos U registry mqVersion raw.clusqmgrs raw.repos := by
    refine List.filter_eq_self.mpr fun f hf => ?_
    obtain ⟨row, -, -, rfl⟩ := (mem_checkFullRepos_iff U registry mqVersion).mp hf
    rfl
  have hchannels : (checkUnhealthyChannels U registry mqVersion raw.clusqmgrs).filter
      (fun f => f.severity = .critical) = [] := by
    refine List.filter_eq_nil_iff.mpr fun f hf => ?_
    obtain ⟨row, -, hrow⟩ := List.mem_filterMap.mp hf
    split_ifs at hrow
    obtain rfl := Option.some_inj.mp hrow
    simp [findingUnhealthyChannel]
  have hstale : (checkStaleEntries U registry mqVersion clock raw.clusqmgrs).filter
      (fun f => f.severity = .critical) = [] := by
    refine List.filter_eq_nil_iff.mpr fun f hf => ?_
    obtain ⟨row, -, -, age, rfl⟩ := mem_checkStaleEntries U registry mqVersion hf
    simp [findingStaleEntry]
  have hsuspended : (checkSuspendedMembers U raw.clusqmgrs).filter
      (fun f => f.severity = .critical) = [] := by
    refine List.filter_eq_nil_iff.mpr fun f hf => ?_
    obtain ⟨row, -, hrow⟩ := List.mem_filterMap.mp hf
    split_ifs at hrow
    obtain rfl := Option.some_inj.mp hrow
    simp [findingSuspended]
  have halone : (checkSelfOnlyMembership raw.clusqmgrs raw.thisQm).filter
      (fun f => f.severity = .critical) = [] := by
    unfold checkSelfOnlyMembership
    split_ifs <;> simp [findingSelfOnly]
  unfold matchClusterFindings
  dsimp only
  split_ifs with hempty
  · rw [hempty.1]
    rfl
  · simp only [List.filter_append, hrepos, hchannels, hstale, hsuspended, halone,
      List.append_nil]

theorem critical_iff
    (clock : Clock) {raw : RawData} {f : RCSFinding} :
    (f ∈ matchClusterFindings U registry mqVersion clock raw ∧ f.severity = .critical) ↔
      f ∈ checkFullRepos U registry mqVersion raw.clusqmgrs raw.repos := by
  rw [← filter_critical U registry mqVersion clock raw, List.mem_filter, decide_eq_true_eq]

/-- Each cluster is named once. -/
theorem nodup_issue_checkFullRepos (rows : List Row) (reposText : PyStr) :
    ((checkFullRepos U registry mqVersion rows reposText).map RCSFinding.issue).Nodup := by
  have hkeys : (byCluster rows).items.Pairwise fun p q => p.1 ≠ q.1 :=
    List.pairwise_map.mp (byCluster rows).nodup
  refine List.pairwise_map.mpr (List.Pairwise.filterMap _ ?_ hkeys)
  intro p q hne f hf g hg hissue
  have hname : ∀ {p : PyStr × List Row} {f},
      (if p.1 ∈ selfFullRepoClusters U reposText then none
        else if p.2.filter (fun m => upperCell U m "QMTYPE" = lit "REPOS") = [] then
          some (findingNoFullRepo registry mqVersion p.1 p.2)
        else none) = some f → NoFullRepo p.1 f := by
    intro p f hf
    split_ifs at hf
    obtain rfl := Option.some_inj.mp hf
    exact noFullRepo_finding registry mqVersion _ _
  have hp := hname hf
  have hq := hname hg
  exact hne (eq_of_noFullRepo hp ⟨hp.1, hissue.trans hq.2⟩)

theorem countP_noFullRepo_le (clock : Clock) (raw : RawData) (c : PyStr) :
    (matchClusterFindings U registry mqVersion clock raw).countP (NoFullRepo c) ≤ 1 := by
  have hcritical : (matchClusterFindings U registry mqVersion clock raw).countP (NoFullRepo c) =
      (checkFullRepos U registry mqVersion raw.clusqmgrs raw.repos).countP (NoFullRepo c) := by
    rw [← filter_critical U registry mqVersion clock raw, List.countP_filter]
    refine List.countP_congr fun f _ => ?_
    simp only [decide_eq_true_eq, Bool.and_eq_true]
    exact ⟨fun h => ⟨h, h.1⟩, And.left⟩
  calc
    _ = (checkFullRepos U registry mqVersion raw.clusqmgrs raw.repos).countP (NoFullRepo c) :=
      hcritical
    _ ≤ ((checkFullRepos U registry mqVersion raw.clusqmgrs raw.repos).map
          RCSFinding.issue).count
            (lit "Cluster " ++ c ++ lit " has no visible full repository") := by
      rw [List.count, List.countP_map]
      refine List.countP_mono_left fun f _ hf => ?_
      simpa using (of_decide_eq_true hf).2
    _ ≤ 1 := List.nodup_iff_count_le_one.mp
      (nodup_issue_checkFullRepos U registry mqVersion _ _) _

/--
The clusters without a full repository are named exactly when, for those without a row
for one, the scanner's upper case of the local repository tells the same as the name.
-/
theorem full_repos_judged_iff
    (clock : Clock) (rows : List Row) (reply : QmgrReply U) (thisQm : PyStr) :
    Judged U rows reply.repos
        (matchClusterFindings U registry mqVersion clock ⟨rows, reply.text, thisQm⟩) ↔
      ∀ c ∈ clusterNames rows, NoRepositoryRow U rows c →
        (c = strip (U.upperStr reply.repos) ↔ c = reply.repos) := by
  have hreported : ∀ c ∈ clusterNames rows,
      ((∃ f ∈ matchClusterFindings U registry mqVersion clock ⟨rows, reply.text, thisQm⟩,
          NoFullRepo c f) ↔
        NoRepositoryRow U rows c ∧ c ≠ strip (U.upperStr reply.repos)) := by
    intro c hc
    obtain ⟨hne, row, hrow, hname⟩ := mem_clusterNames_iff.mp hc
    have hself := mem_selfFullRepoClusters_iff reply hne
    constructor
    · rintro ⟨f, hf, hnamed⟩
      have hmem := (critical_iff U registry mqVersion clock).mp ⟨hf, hnamed.1⟩
      obtain ⟨row', -, ⟨-, hout, hrows⟩, rfl⟩ :=
        (mem_checkFullRepos_iff U registry mqVersion).mp hmem
      obtain rfl := eq_of_noFullRepo hnamed (noFullRepo_finding registry mqVersion _ _)
      exact ⟨hrows, fun h => hout (hself.mpr h)⟩
    · rintro ⟨hrows, hout⟩
      have hlacks : LacksRepository U ⟨rows, reply.text, thisQm⟩ (clusterName row) :=
        ⟨hname ▸ hne, fun h => hout (hself.mp (hname ▸ h)), hname ▸ hrows⟩
      have hmem := (mem_checkFullRepos_iff U registry mqVersion).mpr ⟨row, hrow, hlacks, rfl⟩
      obtain ⟨hf, -⟩ := (critical_iff U registry mqVersion clock).mpr hmem
      exact ⟨_, hf, hname ▸ noFullRepo_finding registry mqVersion _ _⟩
  constructor
  · intro hjudged c hc hrows
    have hboth := (hreported c hc).symm.trans (hjudged.reported c hc)
    simp only [hrows, true_and, ne_eq, not_iff_not] at hboth
    rw [hboth]
    exact eq_comm
  · intro hagree
    refine ⟨?_, fun c => countP_noFullRepo_le U registry mqVersion clock _ c, ?_⟩
    · intro c hc
      rw [hreported c hc]
      refine and_congr_right fun hrows => not_congr ?_
      rw [hagree c hc hrows]
      exact eq_comm
    · intro f hf hcritical
      have hmem := (critical_iff U registry mqVersion clock).mp ⟨hf, hcritical⟩
      obtain ⟨row, hrow, ⟨hne, -, -⟩, rfl⟩ := (mem_checkFullRepos_iff U registry mqVersion).mp hmem
      exact ⟨clusterName row, mem_clusterNames_iff.mpr ⟨hne, row, hrow, rfl⟩,
        noFullRepo_finding registry mqVersion _ _⟩

end Findings

section MixedCase

/-- The reply of a full repository of the cluster `Payments`. -/
def paymentsReply : QmgrReply UnicodeData.basic where
  before := lit "QMNAME(QM1) "
  repos := lit "Payments"
  after := lit " REPOSNL( )"
  closed := by decide
  first := by decide +kernel
  last := by decide +kernel

/-- A partial repository in this cluster. -/
def paymentsRow : Row :=
  OrderedDict.ofList [(lit "CLUSTER", .str (lit "Payments")), (lit "QMTYPE", .str (lit "NORMAL"))]

/-- The local full repository of `Payments` is overlooked. -/
theorem mixed_case_repository_overlooked :
    ¬ Judged UnicodeData.basic [paymentsRow] paymentsReply.repos
      (matchClusterFindings UnicodeData.basic
        ⟨OrderedDict.empty, OrderedDict.empty, OrderedDict.empty⟩ none ⟨0, fun _ => 0⟩
        ⟨[paymentsRow], paymentsReply.text, lit "QM1"⟩) := by
  intro hjudged
  have hreported := (hjudged.reported (lit "Payments") (by decide +kernel)).mp (by decide +kernel)
  exact hreported.2 rfl

end MixedCase

end Cluster
end Rcs
end MqSentinel
