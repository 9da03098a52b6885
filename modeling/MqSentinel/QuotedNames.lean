import MqSentinel.Citations
import MqSentinel.MqscQuotedText
import MqSentinel.SuggestedCommands

/-!
# Names between quotes

The channel, dead-letter and cluster matchers put the names that they read between single
quotes, as they stand.  Read as MQSC, a quote in a name ends the quoted string, or is
half of an escaped one.  So a name stays inside its quotes exactly when it has no quote.
-/

namespace MqSentinel
namespace Mqsc

open CodePoint

section Reading

/-- A value ends at its parenthesis or at the end of the text. -/
theorem readFrom_consumed
    (depth : Nat) (quoted : Bool) (s : PyStr) :
    s = (readFrom depth quoted s).1 ++ ch ')' :: (readFrom depth quoted s).2 ∨
      s = (readFrom depth quoted s).1 ∧ (readFrom depth quoted s).2 = [] := by
  fun_induction readFrom depth quoted s with
  | case1 | case2 =>
      exact Or.inr ⟨rfl, rfl⟩
  | case3 _ _ ih | case4 _ _ _ _ ih | case5 _ _ _ _ _ ih | case6 _ _ ih | case7 _ _ _ ih
  | case9 _ _ _ _ _ ih | case10 _ _ _ _ _ _ ih =>
      simpa using ih
  | case8 =>
      exact Or.inl rfl

theorem escape_of_not_mem
    {s : PyStr} (h : quote ∉ s) :
    escape s = s := by
  induction s with
  | nil =>
      rfl
  | cons c s ih =>
      rw [List.mem_cons, not_or] at h
      rw [escape_cons_of_ne (Ne.symm h.1), ih h.2]

/-- Doubling a quote makes the text longer. -/
theorem eq_of_escape_eq
    {s : PyStr} (h : escape s = s) :
    quote ∉ s := by
  have hlength : ∀ t : PyStr, t.length ≤ (escape t).length := by
    intro t
    induction t with
    | nil =>
        exact Nat.le_refl _
    | cons c t ih =>
        by_cases hc : c = quote
        · rw [hc, escape_cons_quote, List.length_cons, List.length_cons, List.length_cons]
          omega
        · rw [escape_cons_of_ne hc, List.length_cons, List.length_cons]
          omega
  intro hmem
  obtain ⟨front, back, rfl⟩ := List.append_of_mem hmem
  have hlen := congrArg List.length h
  rw [escape_append, escape_cons_quote, List.length_append, List.length_append,
    List.length_cons, List.length_cons, List.length_cons] at hlen
  have hfront := hlength front
  have hback := hlength back
  omega

/--
A text between quotes is read as the literal of that text, up to the parenthesis behind
it, if and only if it has no quote.
-/
theorem readValue_quotes_iff
    (s rest : PyStr) :
    readValue (quote :: (s ++ (lit "')" ++ rest))) = (quoted s, rest) ↔ quote ∉ s := by
  have hquote : quote.isSpace = false := by decide
  have hparen : (ch ')').isSpace = false := by decide
  have htext : quote :: (s ++ (lit "')" ++ rest)) =
      quote :: (s ++ [quote]) ++ ch ')' :: rest := by
    rw [List.cons_append, List.append_assoc]
    rfl
  constructor
  · intro h
    have hvalue : strip (readFrom 1 false (quote :: (s ++ (lit "')" ++ rest)))).1 = quoted s :=
      congrArg Prod.fst h
    have hrest : (readFrom 1 false (quote :: (s ++ (lit "')" ++ rest)))).2 = rest :=
      congrArg Prod.snd h
    rcases readFrom_consumed 1 false (quote :: (s ++ (lit "')" ++ rest))) with
      hread | ⟨hread, hend⟩
    · -- the value is the text between the parentheses
      rw [hrest] at hread
      have hfirst := List.append_cancel_right (htext.symm.trans hread)
      rw [← hfirst, strip_enclosed hquote hquote, quoted] at hvalue
      refine eq_of_escape_eq ?_
      simpa using hvalue.symm
    · -- the value would end with the parenthesis
      rw [hend] at hrest
      rw [← hread, ← hrest, List.append_nil] at hvalue
      have hwhole := strip_enclosed hquote hparen (s ++ [quote])
      rw [List.append_assoc] at hwhole
      have hlast : (quote :: s ++ [quote] ++ [ch ')']).getLast? =
          (quote :: escape s ++ [quote]).getLast? := by
        simpa [quoted] using congrArg List.getLast? (hwhole.symm.trans hvalue)
      rw [List.getLast?_concat, List.getLast?_concat] at hlast
      exact absurd hlast (by decide)
  · intro h
    have hclosed : closed 0 false (quote :: (s ++ [quote])) = true := by
      have hopen := closed_escape s
      rw [escape_of_not_mem h] at hopen
      simpa [closed] using hopen
    rw [htext, readValue, readFrom_closed rest _ 0 false hclosed, quoted, escape_of_not_mem h]
    simp [strip_enclosed hquote hquote]

end Reading

end Mqsc

namespace Rcs

open Mqsc CodePoint

section Commands

/-- All the command texts of a finding. -/
def RCSFinding.commandTexts (f : RCSFinding) : List PyStr :=
  f.fixSteps ++ f.verifyCommands ++ f.remediationSteps.flatMap RemediationScenario.commands

/-- A text with `('s')` in it. -/
def withArgument (front s rest : PyStr) : PyStr :=
  front ++ (lit "('" ++ (s ++ (lit "')" ++ rest)))

/-- Wherever `('s')` stands in a command, it is read as the literal of `s`. -/
def ReadsBack (command s : PyStr) : Prop :=
  ∀ front rest, command = withArgument front s rest →
    readValue (quote :: (s ++ (lit "')" ++ rest))) = (quoted s, rest)

/-- The name stays inside its quotes in every command of the findings. -/
def StaysQuoted (findings : List RCSFinding) (s : PyStr) : Prop :=
  ∀ f ∈ findings, ∀ c ∈ f.commandTexts, ReadsBack c s

/-- A command of the finding has the name between quotes. -/
def Quotes (f : RCSFinding) (s : PyStr) : Prop :=
  ∃ c ∈ f.commandTexts, ∃ front rest, c = withArgument front s rest

/-- A name in a command stays inside its quotes if and only if it has no quote. -/
theorem staysQuoted_iff
    {findings : List RCSFinding} {s : PyStr} (h : ∃ f ∈ findings, Quotes f s) :
    StaysQuoted findings s ↔ quote ∉ s := by
  constructor
  · intro hstays
    obtain ⟨f, hf, c, hc, front, rest, htext⟩ := h
    exact (readValue_quotes_iff s rest).mp (hstays f hf c hc front rest htext)
  · intro hs f _ c _ front rest _
    exact (readValue_quotes_iff s rest).mpr hs

/-- A template with a hole between quotes. -/
theorem quotes_of_mem
    {f : RCSFinding} {s : PyStr} (before behind : PyStr)
    (hbefore : (lit "('").isSuffixOf before = true)
    (hbehind : (lit "')").isPrefixOf behind = true)
    (h : before ++ s ++ behind ∈ f.commandTexts) :
    Quotes f s := by
  obtain ⟨front, rfl⟩ := List.isSuffixOf_iff_suffix.mp hbefore
  obtain ⟨rest, rfl⟩ := List.isPrefixOf_iff_prefix.mp hbehind
  refine ⟨_, h, front, rest, ?_⟩
  simp [withArgument]

end Commands

section Channels

open Channels

variable (U : UnicodeData) (registry : KCRegistry) (mqVersion : Option PyStr)

/-- Every finding about a row names its channel. -/
theorem quotes_rowFinding
    {row : Row} {f : RCSFinding} (h : rowFinding U registry mqVersion row = some f) :
    Quotes f (channelName row) := by
  have hcurrent : lit "DISPLAY CHSTATUS('" ++ channelName row ++ lit "') CURRENT" ∈
      f.commandTexts := by
    rcases rowFinding_cases h with rfl | rfl | ⟨-, rfl⟩ | rfl
    · simp [RCSFinding.commandTexts, finding2035]
    · simp [RCSFinding.commandTexts, findingConnError]
    · simp [RCSFinding.commandTexts, findingIndoubt]
    · simp [RCSFinding.commandTexts, findingGenericBadStatus]
  exact quotes_of_mem (lit "DISPLAY CHSTATUS('") (lit "') CURRENT") (by decide) (by decide) hcurrent

end Channels

section DeadLetter

open DeadLetter

variable (U : UnicodeData) (registry : KCRegistry) (mqVersion : Option PyStr)

/-- The destination that the remediation for a reason names. -/
def remediationDestination (headers : List Row) (reason : Int) : PyStr :=
  match mostCommon (destCounts (withReason U headers reason)) 1 with
  | [] => lit "<destination>"
  | (name, _) :: _ => name

/-- The reasons whose remediation names the destination. -/
def namesDestination : List Int :=
  [2035, 2030, 2051, 2053]

theorem quotes_findingDlqDepth (name : PyStr) (depth sample : Int) :
    Quotes (findingDlqDepth name depth sample) name :=
  quotes_of_mem (lit "DISPLAY QUEUE('") (lit "') CURDEPTH") (by decide) (by decide)
    (by simp [RCSFinding.commandTexts, findingDlqDepth])

theorem quotes_findingBackoutLoop (name : PyStr) (headers : List Row) :
    Quotes (findingBackoutLoop name headers) name :=
  quotes_of_mem (lit "DISPLAY QUEUE('") (lit "') CURDEPTH") (by decide) (by decide)
    (by simp [RCSFinding.commandTexts, findingBackoutLoop])

theorem quotes_findingForReason_queue (name : PyStr) (reason : Int) (group : List Row) :
    Quotes (findingForReason registry mqVersion name reason group) name :=
  quotes_of_mem (lit "DISPLAY QUEUE('") (lit "') CURDEPTH") (by decide) (by decide)
    (by simp [RCSFinding.commandTexts, findingForReason])

/-- Whatever the reason, the first fix step names the most frequent destination. -/
theorem quotes_findingForReason_fix (name : PyStr) (reason : Int) (group : List Row) :
    Quotes (findingForReason registry mqVersion name reason group)
      (fixDestination (mostCommon (destCounts group) 1)) := by
  have hsteps : ∀ before behind : PyStr, (lit "('").isSuffixOf before = true →
      (lit "')").isPrefixOf behind = true →
      before ++ fixDestination (mostCommon (destCounts group) 1) ++ behind ∈
        fixStepsForReason reason (mostCommon (destCounts group) 1) →
      Quotes (findingForReason registry mqVersion name reason group)
        (fixDestination (mostCommon (destCounts group) 1)) := by
    intro before behind hbefore hbehind hmem
    refine quotes_of_mem before behind hbefore hbehind ?_
    exact List.mem_append_left _ (List.mem_append_left _ hmem)
  unfold fixStepsForReason at hsteps
  dsimp only at hsteps
  split_ifs at hsteps
  · exact hsteps (lit "DISPLAY AUTHREC OBJTYPE(QUEUE) PROFILE('") (lit "')") (by decide)
      (by decide) (by simp)
  · exact hsteps (lit "DISPLAY QUEUE('") (lit "') MAXMSGL") (by decide) (by decide) (by simp)
  · exact hsteps (lit "DISPLAY QUEUE('") (lit "') MAXMSGL") (by decide) (by decide) (by simp)
  · exact hsteps (lit "DISPLAY QUEUE('") (lit "') PUT GET") (by decide) (by decide) (by simp)
  · exact hsteps (lit "DISPLAY QUEUE('") (lit "') CURDEPTH MAXDEPTH") (by decide) (by decide)
      (by simp)
  · exact hsteps (lit "DISPLAY QUEUE('") (lit "') MAXMSGL") (by decide) (by decide) (by simp)
  · exact hsteps (lit "DISPLAY QUEUE('") (lit "') ALL") (by decide) (by decide) (by simp)

/-- For these reasons a remediation names it as well. -/
theorem quotes_findingForReason_remediation (name : PyStr) {reason : Int}
    (h : reason ∈ namesDestination) (headers : List Row) :
    Quotes (findingForReason registry mqVersion name reason (withReason U headers reason))
      (remediationDestination U headers reason) := by
  have hscenarios : ∀ before behind : PyStr, (lit "('").isSuffixOf before = true →
      (lit "')").isPrefixOf behind = true →
      before ++ remediationDestination U headers reason ++ behind ∈
        (remediationForReason reason (remediationDestination U headers reason)).flatMap
          RemediationScenario.commands →
      Quotes (findingForReason registry mqVersion name reason (withReason U headers reason))
        (remediationDestination U headers reason) := by
    intro before behind hbefore hbehind hmem
    refine quotes_of_mem before behind hbefore hbehind ?_
    exact List.mem_append_right _ hmem
  simp only [namesDestination, List.mem_cons, List.not_mem_nil, or_false] at h
  rcases h with rfl | rfl | rfl | rfl
  · exact hscenarios (lit "SET AUTHREC PROFILE('")
      (lit "') OBJTYPE(QUEUE) " ++ lit "PRINCIPAL('putter-user') AUTHADD(PUT, INQ)")
      (by decide) (by decide) (by simp [remediationForReason])
  · exact hscenarios (lit "ALTER QLOCAL('") (lit "') MAXMSGL(4194304)") (by decide) (by decide)
      (by simp [remediationForReason])
  · exact hscenarios (lit "ALTER QLOCAL('") (lit "') PUT(ENABLED)") (by decide) (by decide)
      (by simp [remediationForReason])
  · exact hscenarios (lit "ALTER QLOCAL('") (lit "') MAXDEPTH(50000)") (by decide) (by decide)
      (by simp [remediationForReason])

end DeadLetter

section Cluster

open Cluster

variable (U : UnicodeData) (registry : KCRegistry) (mqVersion : Option PyStr)

/-- The cluster of a row, as the commands name it. -/
def clusterCell (row : Row) : PyStr :=
  (row.getOr "CLUSTER" (.str [])).toStr

theorem quotes_findingNoFullRepo (cluster : PyStr) (members : List Row) :
    Quotes (findingNoFullRepo registry mqVersion cluster members) cluster :=
  quotes_of_mem (lit "ALTER QMGR REPOS('") (lit "')") (by decide) (by decide)
    (by simp [RCSFinding.commandTexts, findingNoFullRepo])

theorem quotes_findingUnhealthyChannel (row : Row) (channel status : PyStr) :
    Quotes (findingUnhealthyChannel U registry mqVersion row channel status) channel :=
  quotes_of_mem (lit "DISPLAY CHSTATUS('") (lit "') CURRENT") (by decide) (by decide)
    (by simp [RCSFinding.commandTexts, findingUnhealthyChannel])

theorem quotes_findingStaleEntry (row : Row) (date : PyStr) (age : Int) :
    Quotes (findingStaleEntry U registry mqVersion row date age) (memberName row) ∧
      Quotes (findingStaleEntry U registry mqVersion row date age) (staleChannel row) ∧
      Quotes (findingStaleEntry U registry mqVersion row date age) (clusterCell row) :=
  ⟨quotes_of_mem (lit "DISPLAY CLUSQMGR('") (lit "') ALL") (by decide) (by decide)
      (by simp [RCSFinding.commandTexts, findingStaleEntry]),
    quotes_of_mem (lit "DISPLAY CHSTATUS('") (lit "') ALL") (by decide) (by decide)
      (by simp [RCSFinding.commandTexts, findingStaleEntry]),
    quotes_of_mem (lit "REFRESH CLUSTER('") (lit "') REPOS(YES)") (by decide) (by decide)
      (by simp [RCSFinding.commandTexts, findingStaleEntry, clusterCell])⟩

theorem quotes_findingSuspended (row : Row) :
    Quotes (findingSuspended row) (memberName row) ∧
      Quotes (findingSuspended row) (clusterCell row) :=
  ⟨quotes_of_mem (lit "DISPLAY CLUSQMGR('") (lit "') SUSPEND") (by decide) (by decide)
      (by simp [RCSFinding.commandTexts, findingSuspended]),
    quotes_of_mem (lit "RESUME QMGR CLUSTER('") (lit "')") (by decide) (by decide)
      (by simp [RCSFinding.commandTexts, findingSuspended, clusterCell])⟩

end Cluster

section Matchers

variable (U : UnicodeData)

/-- A name that the dead-letter findings put between quotes. -/
inductive DlqName (browse : DeadLetter.BrowseDict) : PyStr → Prop where
  | queue (h : NamesQueue U browse) : DlqName browse (DeadLetter.queueName browse)
  | fix {h : Row} (hh : h ∈ browse.headers) (hreason : DeadLetter.reasonOf U h ≠ 0) :
      DlqName browse (topDestination U browse.headers (DeadLetter.reasonOf U h))
  | remediation {h : Row} (hh : h ∈ browse.headers)
      (hreason : DeadLetter.reasonOf U h ∈ namesDestination) :
      DlqName browse (remediationDestination U browse.headers (DeadLetter.reasonOf U h))

/-- A name that the cluster findings put between quotes. -/
inductive ClusterFindingName (clock : Cluster.Clock) (raw : Cluster.RawData) : PyStr → Prop where
  | repository {row : Row} (hrow : row ∈ raw.clusqmgrs)
      (h : LacksRepository U raw (Cluster.clusterName row)) :
      ClusterFindingName clock raw (Cluster.clusterName row)
  | channel {row : Row} (hrow : row ∈ raw.clusqmgrs)
      (h : Cluster.upperCell U row "STATUS" ∈ Cluster.badChannelStatus) :
      ClusterFindingName clock raw (Cluster.unhealthyChannelName row)
  | stale {row : Row} {s : PyStr} (hrow : row ∈ raw.clusqmgrs)
      (h : IsStale U clock.start row)
      (hs : s ∈ [Cluster.memberName row, Cluster.staleChannel row, clusterCell row]) :
      ClusterFindingName clock raw s
  | suspended {row : Row} {s : PyStr} (hrow : row ∈ raw.clusqmgrs)
      (h : Cluster.upperCell U row "SUSPEND" = lit "YES")
      (hs : s ∈ [Cluster.memberName row, clusterCell row]) :
      ClusterFindingName clock raw s

/-- A name taken from the input of a matcher and put between quotes by its findings. -/
inductive MatcherCall.Inserts : MatcherCall → PyStr → Prop where
  | channels {order : SetOrder} {raw : Channels.RawData} {row : Row}
      (hrow : row ∈ raw.channels) (h : Reported U row) :
      Inserts (.channelFailures order raw) (Channels.channelName row)
  | deadLetters {browse : DeadLetter.BrowseDict} {s : PyStr}
      (hread : DeadLetter.Readable U browse) (h : DlqName U browse s) :
      Inserts (.dlqFindings browse) s
  | clusters {clock : Cluster.Clock} {raw : Cluster.RawData} {s : PyStr}
      (h : ClusterFindingName U clock raw s) : Inserts (.clusterFindings clock raw) s

variable (registry : KCRegistry) (mqVersion : Option PyStr)

/-- Every name of a browse stands between quotes in a finding. -/
theorem exists_quotes_findingsOf
    {browse : DeadLetter.BrowseDict} {s : PyStr} (h : DlqName U browse s) :
    ∃ f ∈ DeadLetter.findingsOf U registry mqVersion browse
      ((DeadLetter.queueDepth U browse).getD 0) ((DeadLetter.sampleSize U browse).getD 0),
      Quotes f s := by
  have hgroup : ∀ h ∈ browse.headers, DeadLetter.reasonOf U h ≠ 0 →
      DeadLetter.findingForReason registry mqVersion (DeadLetter.queueName browse)
        (DeadLetter.reasonOf U h)
        (DeadLetter.withReason U browse.headers (DeadLetter.reasonOf U h)) ∈
        DeadLetter.findingsOf U registry mqVersion browse
          ((DeadLetter.queueDepth U browse).getD 0)
          ((DeadLetter.sampleSize U browse).getD 0) := by
    intro h hh hreason
    refine List.mem_append_left _ (List.mem_append_right _ ?_)
    refine List.mem_map.mpr ⟨(DeadLetter.reasonOf U h, _), List.mem_filter.mpr ⟨?_, ?_⟩, rfl⟩
    · exact (DeadLetter.mem_sortedGroups_iff U).mpr ⟨⟨h, hh, rfl⟩, rfl⟩
    · simpa using hreason
  cases h with
  | queue h =>
      rcases h with hdepth | ⟨h, hh, hreason⟩ | ⟨h, hh, hback⟩
      · have hmem : DeadLetter.findingDlqDepth (DeadLetter.queueName browse)
            ((DeadLetter.queueDepth U browse).getD 0) ((DeadLetter.sampleSize U browse).getD 0) ∈
            DeadLetter.findingsOf U registry mqVersion browse
              ((DeadLetter.queueDepth U browse).getD 0)
              ((DeadLetter.sampleSize U browse).getD 0) := by
          refine List.mem_append_left _ (List.mem_append_left _ ?_)
          rw [if_pos hdepth]
          exact List.mem_singleton.mpr rfl
        exact ⟨_, hmem, quotes_findingDlqDepth _ _ _⟩
      · exact ⟨_, hgroup h hh hreason, quotes_findingForReason_queue registry mqVersion _ _ _⟩
      · have hhigh : browse.headers.filter
            (fun h => DeadLetter.backoutOf U h ≥ DeadLetter.backoutThreshold) ≠ [] :=
          List.ne_nil_of_mem (List.mem_filter.mpr ⟨hh, by simpa using hback⟩)
        have hmem : DeadLetter.findingBackoutLoop (DeadLetter.queueName browse)
            (browse.headers.filter
              fun h => DeadLetter.backoutOf U h ≥ DeadLetter.backoutThreshold) ∈
            DeadLetter.findingsOf U registry mqVersion browse
              ((DeadLetter.queueDepth U browse).getD 0)
              ((DeadLetter.sampleSize U browse).getD 0) := by
          refine List.mem_append_right _ ?_
          rw [if_neg hhigh]
          exact List.mem_singleton.mpr rfl
        exact ⟨_, hmem, quotes_findingBackoutLoop _ _⟩
  | fix hh hreason =>
      exact ⟨_, hgroup _ hh hreason, quotes_findingForReason_fix registry mqVersion _ _ _⟩
  | remediation hh hreason =>
      have hne : DeadLetter.reasonOf U _ ≠ 0 := fun hzero =>
        absurd (hzero ▸ hreason) (by decide)
      exact ⟨_, hgroup _ hh hne,
        quotes_findingForReason_remediation U registry mqVersion _ hreason _⟩

/-- Every name of the cluster rows stands between quotes in a finding. -/
theorem exists_quotes_matchClusterFindings
    {clock : Cluster.Clock} {raw : Cluster.RawData} {s : PyStr}
    (h : ClusterFindingName U clock raw s) :
    ∃ f ∈ Cluster.matchClusterFindings U registry mqVersion clock raw, Quotes f s := by
  have hchecks : ∀ row ∈ raw.clusqmgrs, ∀ f,
      f ∈ Cluster.checkFullRepos U registry mqVersion raw.clusqmgrs raw.repos ∨
        f ∈ Cluster.checkUnhealthyChannels U registry mqVersion raw.clusqmgrs ∨
        f ∈ Cluster.checkStaleEntries U registry mqVersion clock raw.clusqmgrs ∨
        f ∈ Cluster.checkSuspendedMembers U raw.clusqmgrs →
      f ∈ Cluster.matchClusterFindings U registry mqVersion clock raw := by
    intro row hrow f hf
    unfold Cluster.matchClusterFindings
    dsimp only
    rw [if_neg fun hempty => List.ne_nil_of_mem hrow hempty.1]
    simp only [List.mem_append]
    tauto
  cases h with
  | @repository row hrow hlacks =>
      have hmem := (mem_checkFullRepos_iff U registry mqVersion).mpr ⟨row, hrow, hlacks, rfl⟩
      exact ⟨_, hchecks row hrow _ (Or.inl hmem),
        quotes_findingNoFullRepo registry mqVersion _ _⟩
  | @channel row hrow hbad =>
      refine ⟨_, hchecks row hrow _ (Or.inr (Or.inl (List.mem_filterMap.mpr
        ⟨row, hrow, if_pos hbad⟩))), quotes_findingUnhealthyChannel U registry mqVersion _ _ _⟩
  | @stale row _ hrow hstale hs =>
      obtain ⟨age, hmem⟩ := exists_mem_checkStaleEntries U registry mqVersion hrow hstale
      obtain ⟨hname, hchannel, hcluster⟩ :=
        quotes_findingStaleEntry U registry mqVersion row (Cluster.clusdate row) age
      refine ⟨_, hchecks row hrow _ (Or.inr (Or.inr (Or.inl hmem))), ?_⟩
      simp only [List.mem_cons, List.not_mem_nil, or_false] at hs
      rcases hs with rfl | rfl | rfl
      · exact hname
      · exact hchannel
      · exact hcluster
  | @suspended row _ hrow hsuspend hs =>
      obtain ⟨hname, hcluster⟩ := quotes_findingSuspended row
      refine ⟨_, hchecks row hrow _ (Or.inr (Or.inr (Or.inr (List.mem_filterMap.mpr
        ⟨row, hrow, if_pos hsuspend⟩)))), ?_⟩
      simp only [List.mem_cons, List.not_mem_nil, or_false] at hs
      rcases hs with rfl | rfl
      · exact hname
      · exact hcluster

/-- Such a name stands between quotes in a command of a finding. -/
theorem MatcherCall.Inserts.exists_quotes
    {call : MatcherCall} {s : PyStr} (h : call.Inserts U s) :
    ∃ f ∈ call.findings U registry mqVersion, Quotes f s := by
  cases h with
  | @channels order raw row hrow hreported =>
      obtain ⟨f, hf⟩ := Option.ne_none_iff_exists'.mp
        (mt (rowFinding_eq_none_iff U registry mqVersion row).mp (not_not.mpr hreported))
      refine ⟨f, List.mem_append_left _ (List.mem_filterMap.mpr ⟨row, hrow, hf⟩), ?_⟩
      exact quotes_rowFinding U registry mqVersion hf
  | @deadLetters browse s hread hname =>
      rw [MatcherCall.findings, DeadLetter.matchDlqFindings_of_readable U registry mqVersion hread]
      exact exists_quotes_findingsOf U registry mqVersion hname
  | clusters hname =>
      exact exists_quotes_matchClusterFindings U registry mqVersion hname

/--
A name that the channel, dead-letter or cluster matcher puts between quotes stays inside
them, in every command of every finding, if and only if it has no quote.
-/
theorem names_stay_quoted_iff
    {call : MatcherCall} {s : PyStr} (h : call.Inserts U s) :
    StaysQuoted (call.findings U registry mqVersion) s ↔ quote ∉ s :=
  staysQuoted_iff (h.exists_quotes U registry mqVersion)

/-- The header of a message that an application sent to the queue `A'B`. -/
def quoteHeader : Row :=
  OrderedDict.ofList
    [(lit "reason_code", .int 2053), (lit "dest_q_name", .str (lit "A'B")),
      (lit "put_application_name", .str (lit "app")), (lit "backout_count", .int 0)]

/-- A browse of that message. -/
def quoteBrowse : DeadLetter.BrowseDict where
  cells := OrderedDict.ofList
    [(lit "queue_name", .str (lit "DLQ")), (lit "queue_depth", .int 1),
      (lit "sample_size", .int 1)]
  headers := [quoteHeader]

theorem readable_quoteBrowse :
    DeadLetter.Readable UnicodeData.basic quoteBrowse :=
  ⟨by decide +kernel, by decide +kernel, by decide +kernel, by decide +kernel⟩

/-- The name of the queue itself stays inside its quotes. -/
theorem queue_name_stays_quoted :
    StaysQuoted
      (MatcherCall.findings UnicodeData.basic noPages none (.dlqFindings quoteBrowse))
      (DeadLetter.queueName quoteBrowse) := by
  have hqueue : NamesQueue UnicodeData.basic quoteBrowse := Or.inl (by decide +kernel)
  have hname : MatcherCall.Inserts UnicodeData.basic (.dlqFindings quoteBrowse)
      (DeadLetter.queueName quoteBrowse) := .deadLetters readable_quoteBrowse (.queue hqueue)
  exact (names_stay_quoted_iff UnicodeData.basic noPages none hname).mpr (by decide +kernel)

/-- The destination does not. -/
theorem destination_leaves_quotes :
    MatcherCall.Inserts UnicodeData.basic (.dlqFindings quoteBrowse) (lit "A'B") ∧
      ¬ StaysQuoted
        (MatcherCall.findings UnicodeData.basic noPages none (.dlqFindings quoteBrowse))
        (lit "A'B") := by
  have hreason : DeadLetter.reasonOf UnicodeData.basic quoteHeader = 2053 := by
    decide +kernel
  have hcounts : DeadLetter.destCounts
      (DeadLetter.withReason UnicodeData.basic quoteBrowse.headers 2053) =
        ⟨[(lit "A'B", 1)], by decide +kernel⟩ := by
    decide +kernel
  have hdest : topDestination UnicodeData.basic quoteBrowse.headers
      (DeadLetter.reasonOf UnicodeData.basic quoteHeader) = lit "A'B" := by
    rw [hreason, topDestination, hcounts]
    simp only [mostCommon, List.mergeSort_singleton, List.take]
    decide +kernel
  have hne : DeadLetter.reasonOf UnicodeData.basic quoteHeader ≠ 0 := by
    rw [hreason]
    decide
  have hname : MatcherCall.Inserts UnicodeData.basic (.dlqFindings quoteBrowse)
      (lit "A'B") := by
    rw [← hdest]
    exact .deadLetters readable_quoteBrowse (.fix (List.mem_singleton.mpr rfl) hne)
  refine ⟨hname, ?_⟩
  rw [staysQuoted_iff (hname.exists_quotes UnicodeData.basic noPages none)]
  decide

end Matchers

end Rcs
end MqSentinel
