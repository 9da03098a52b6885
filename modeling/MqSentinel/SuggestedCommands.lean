import MqSentinel.ChannelMatcher
import MqSentinel.ClusterMatcher
import MqSentinel.CommandAllowlist
import MqSentinel.DlqMatcher
import MqSentinel.ReportedRows
import MqSentinel.ZosMatcher

/-!
# Suggested commands and the guard

Every command that a finding suggests begins with a fixed text: `DISPLAY` and a blank,
or `PING CHANNEL(`.  The guard accepts what begins so as soon as no forbidden character
is in it (`accepted_iff_plain`), and the fixed texts hold none.  So the fate of a
suggested command is decided by the names that are put into it.

For each matcher the commands are all accepted exactly when the names of the rows that
give a finding are plain.
-/

namespace MqSentinel
namespace Rcs

open Allowlist CodePoint

/-- A text without `;`, line feed, carriage return and NUL. -/
def Plain (s : PyStr) : Prop :=
  ∀ c ∈ s, isForbidden c = false

instance (s : PyStr) : Decidable (Plain s) :=
  inferInstanceAs (Decidable (∀ c ∈ s, isForbidden c = false))

theorem plain_append {s t : PyStr} :
    Plain (s ++ t) ↔ Plain s ∧ Plain t := by
  simp [Plain, or_imp, forall_and]

/-- The fixed beginning of a suggested command. -/
def opensReadOnly (front : PyStr) : Bool :=
  (lit "DISPLAY ").isPrefixOf front || (lit "PING CHANNEL(").isPrefixOf front

section Guard

variable (U : UnicodeData)

/-- The guard accepts a command. -/
def Accepted (command : PyStr) : Prop :=
  assertMqscAllowed U command = .ok ()

/-- The guard accepts every command that a finding suggests. -/
def CommandsAccepted (f : RCSFinding) : Prop :=
  ∀ c ∈ f.commands, Accepted U c

/-- The guard accepts every command that the findings suggest. -/
def AllAccepted (findings : List RCSFinding) : Prop :=
  ∀ f ∈ findings, CommandsAccepted U f

/-- The first token of a text that begins with `w` begins with `w`. -/
theorem split_of_front
    {w : PyStr} (hne : w ≠ []) (hw : ∀ c ∈ w, c.isSpace = false) (rest : PyStr) :
    ∃ v us, split (w ++ rest) = (w ++ v) :: us := by
  induction rest using words_induction with
  | word v hv =>
      have hall : ∀ c ∈ w ++ v, c.isSpace = false := by
        intro c hc
        exact (List.mem_append.mp hc).elim (hw c) (hv c)
      refine ⟨v, [], ?_⟩
      rw [split_word hall, if_neg (by simp [hne])]
  | space v c t hv hc _ =>
      have hall : ∀ d ∈ w ++ v, d.isSpace = false := by
        intro d hd
        exact (List.mem_append.mp hd).elim (hw d) (hv d)
      refine ⟨v, split t, ?_⟩
      rw [← List.append_assoc, split_append_space _ _ hc, split_word hall,
        if_neg (by simp [hne])]
      rfl

/-- The tokens of a word, a blank and a text. -/
theorem split_word_blank
    {w : PyStr} (hne : w ≠ []) (hw : ∀ c ∈ w, c.isSpace = false) (rest : PyStr) :
    split (w ++ ch ' ' :: rest) = w :: split rest := by
  rw [split_append_space _ _ (by decide), split_word hw, if_neg hne]
  rfl

theorem allAccepted_singleton {f : RCSFinding} :
    AllAccepted U [f] ↔ CommandsAccepted U f := by
  simp [AllAccepted]

theorem allAccepted_append {xs ys : List RCSFinding} :
    AllAccepted U (xs ++ ys) ↔ AllAccepted U xs ∧ AllAccepted U ys := by
  simp [AllAccepted, or_imp, forall_and]

theorem allAccepted_filterMap {α : Type} {xs : List α} {finding : α → Option RCSFinding} :
    AllAccepted U (xs.filterMap finding) ↔
      ∀ x ∈ xs, ∀ f, finding x = some f → CommandsAccepted U f := by
  simp only [AllAccepted, List.mem_filterMap]
  exact ⟨fun h x hx f hf => h f ⟨x, hx, hf⟩, fun h f ⟨x, hx, hf⟩ => h x hx f hf⟩

/-- What follows `DISPLAY` and a blank does not matter to the tokens. -/
theorem tokensAllowed_display (rest : PyStr) :
    TokensAllowed (split (lit "DISPLAY " ++ rest)) := by
  have hsplit : split (lit "DISPLAY " ++ rest) = lit "DISPLAY" :: split rest :=
    split_word_blank (w := lit "DISPLAY") (by decide) (by decide) rest
  rw [hsplit]
  exact Or.inl (by unfold isWord; decide)

/-- The token behind `PING` and a blank is `CHANNEL` up to its parenthesis. -/
theorem tokensAllowed_ping (rest : PyStr) :
    TokensAllowed (split (lit "PING CHANNEL(" ++ rest)) := by
  have hsplit : split (lit "PING CHANNEL(" ++ rest) =
      lit "PING" :: split (lit "CHANNEL(" ++ rest) :=
    split_word_blank (w := lit "PING") (by decide) (by decide) (lit "CHANNEL(" ++ rest)
  obtain ⟨v, us, hsecond⟩ :=
    split_of_front (w := lit "CHANNEL(") (by decide) (by decide) rest
  have hbefore : beforeFirst (ch '(') (lit "CHANNEL(" ++ v) = lit "CHANNEL" := rfl
  rw [hsplit, hsecond]
  refine Or.inr (Or.inr ⟨by unfold isWord; decide, _, us, rfl, ?_⟩)
  rw [hbefore]
  unfold isWord
  decide

/-- A command with such a beginning is accepted exactly when it is plain. -/
theorem accepted_iff_plain
    {front : PyStr} (hfront : opensReadOnly front = true) (rest : PyStr) :
    Accepted U (front ++ rest) ↔ Plain (front ++ rest) := by
  rw [Accepted, accepted_iff]
  constructor
  · rintro (⟨hplain, -⟩ | ⟨hplain, -⟩)
    · exact hplain
    · exact hplain
  · intro hplain
    left
    refine ⟨hplain, ?_⟩
    rcases Bool.or_eq_true _ _ ▸ hfront with h | h
    · obtain ⟨t, rfl⟩ := List.isPrefixOf_iff_prefix.mp h
      rw [List.append_assoc]
      exact tokensAllowed_display _
    · obtain ⟨t, rfl⟩ := List.isPrefixOf_iff_prefix.mp h
      rw [List.append_assoc]
      exact tokensAllowed_ping _

/-- A command that is a fixed text. -/
theorem accepted_fixed
    {command : PyStr} (hopens : opensReadOnly command = true) (hplain : Plain command) :
    Accepted U command := by
  have haccepted := accepted_iff_plain U hopens []
  rw [List.append_nil] at haccepted
  exact haccepted.mpr hplain

/-- A command with a name between two fixed texts. -/
theorem accepted_name_iff
    {front back : PyStr} (name : PyStr)
    (hopens : opensReadOnly front = true) (hfront : Plain front) (hback : Plain back) :
    Accepted U (front ++ (name ++ back)) ↔ Plain name := by
  rw [accepted_iff_plain U hopens, plain_append, plain_append]
  simp [hfront, hback]

end Guard

section Channels

open Channels

variable (U : UnicodeData) (registry : KCRegistry) (mqVersion : Option PyStr)

theorem accepted_finding2035_iff (name : PyStr) (row : Row) :
    CommandsAccepted U (finding2035 registry mqVersion name row) ↔ Plain name := by
  simp (disch := decide) [CommandsAccepted, RCSFinding.commands, finding2035,
    accepted_fixed, accepted_name_iff]

theorem accepted_findingConnError_iff (name : PyStr) (row : Row) (reason : Int) :
    CommandsAccepted U (findingConnError U registry mqVersion name row reason) ↔
      Plain name := by
  simp (disch := decide) [CommandsAccepted, RCSFinding.commands, findingConnError,
    accepted_fixed, accepted_name_iff]

theorem accepted_findingIndoubt_iff (name : PyStr) :
    CommandsAccepted U (findingIndoubt name) ↔ Plain name := by
  simp (disch := decide) [CommandsAccepted, RCSFinding.commands, findingIndoubt,
    accepted_name_iff]

theorem accepted_findingGenericBadStatus_iff (name status : PyStr) :
    CommandsAccepted U (findingGenericBadStatus name status) ↔ Plain name := by
  simp (disch := decide) [CommandsAccepted, RCSFinding.commands,
    findingGenericBadStatus, accepted_name_iff]

theorem accepted_amqFinding (amq : PyStr) (refs : List KCDocRef) :
    CommandsAccepted U (amqFinding amq refs) := by
  simp (disch := decide) [CommandsAccepted, RCSFinding.commands, amqFinding,
    accepted_fixed]

/-- The names of the channels that are reported are plain. -/
def ChannelNamesPlain (raw : Channels.RawData) : Prop :=
  ∀ row ∈ raw.channels, Reported U row → Plain (channelName row)

/-- The finding of a row, if there is one, puts the channel's name into its commands. -/
theorem accepted_rowFinding_iff (row : Row) :
    (∀ f, rowFinding U registry mqVersion row = some f → CommandsAccepted U f) ↔
      (Reported U row → Plain (channelName row)) := by
  have hone : ∀ f, rowFinding U registry mqVersion row = some f →
      (CommandsAccepted U f ↔ Plain (channelName row)) := by
    intro f hf
    rcases rowFinding_cases hf with rfl | rfl | ⟨-, rfl⟩ | rfl
    · exact accepted_finding2035_iff U registry mqVersion _ row
    · exact accepted_findingConnError_iff U registry mqVersion _ row _
    · exact accepted_findingIndoubt_iff U _
    · exact accepted_findingGenericBadStatus_iff U _ _
  cases hrow : rowFinding U registry mqVersion row with
  | none =>
      have hquiet := (rowFinding_eq_none_iff U registry mqVersion row).mp hrow
      simp [hquiet]
  | some f =>
      have hreported : Reported U row := by
        by_contra hquiet
        rw [(rowFinding_eq_none_iff U registry mqVersion row).mpr hquiet] at hrow
        cases hrow
      simp [hreported, hone f hrow]

theorem channels_accepted_iff (order : SetOrder) (raw : Channels.RawData) :
    AllAccepted U (matchChannelFailures U registry mqVersion order raw) ↔
      ChannelNamesPlain U raw := by
  have hcodes : AllAccepted U ((order.iterate (extractAmqCodes U raw.errorLogTail)).filterMap
      (codeFinding U registry mqVersion)) := by
    rw [allAccepted_filterMap]
    intro amq _ f hf
    obtain rfl := eq_of_codeFinding hf
    exact accepted_amqFinding U amq _
  rw [matchChannelFailures, allAccepted_append, and_iff_left hcodes, allAccepted_filterMap]
  exact forall₂_congr fun row _ => accepted_rowFinding_iff U registry mqVersion row

end Channels

section DeadLetter

open DeadLetter

variable (U : UnicodeData)

theorem accepted_findingDlqDepth_iff (queueName : PyStr) (depth sample : Int) :
    CommandsAccepted U (findingDlqDepth queueName depth sample) ↔ Plain queueName := by
  simp (disch := decide) [CommandsAccepted, RCSFinding.commands, findingDlqDepth,
    accepted_fixed, accepted_name_iff]

theorem accepted_findingBackoutLoop_iff (queueName : PyStr) (headers : List Row) :
    CommandsAccepted U (findingBackoutLoop queueName headers) ↔ Plain queueName := by
  simp (disch := decide) [CommandsAccepted, RCSFinding.commands, findingBackoutLoop,
    accepted_fixed, accepted_name_iff]

/-- Whatever the reason, the destination and nothing else is put into the fix steps. -/
theorem accepted_fixStepsForReason_iff (reason : Int) (topDest : List (PyStr × Nat)) :
    (∀ c ∈ fixStepsForReason reason topDest, Accepted U c) ↔
      Plain (fixDestination topDest) := by
  unfold fixStepsForReason
  dsimp only
  split_ifs
  all_goals
    simp (disch := decide) [accepted_fixed, accepted_name_iff]

theorem accepted_findingForReason_iff (registry : KCRegistry) (mqVersion : Option PyStr)
    (queueName : PyStr) (reason : Int) (group : List Row) :
    CommandsAccepted U (findingForReason registry mqVersion queueName reason group) ↔
      Plain (fixDestination (mostCommon (destCounts group) 1)) ∧ Plain queueName := by
  have hverify : Accepted U (lit "DISPLAY QUEUE('" ++ queueName ++ lit "') CURDEPTH") ↔
      Plain queueName := by
    simp (disch := decide) [accepted_name_iff]
  rw [CommandsAccepted, RCSFinding.commands, List.forall_mem_append]
  simp only [findingForReason, accepted_fixStepsForReason_iff, List.forall_mem_singleton,
    hverify]

/-- The destination that the fix steps for a reason name. -/
def topDestination (headers : List Row) (reason : Int) : PyStr :=
  fixDestination (mostCommon (destCounts (withReason U headers reason)) 1)

/-- The queue and, for every reason, the most frequent destination are plain. -/
def QueueNamesPlain (browse : BrowseDict) : Prop :=
  (NamesQueue U browse → Plain (queueName browse)) ∧
    ∀ h ∈ browse.headers, reasonOf U h ≠ 0 →
      Plain (topDestination U browse.headers (reasonOf U h))

theorem accepted_findingsOf_iff (registry : KCRegistry) (mqVersion : Option PyStr)
    (browse : BrowseDict) :
    AllAccepted U (findingsOf U registry mqVersion browse
        ((queueDepth U browse).getD 0) ((sampleSize U browse).getD 0)) ↔
      QueueNamesPlain U browse := by
  have hdepth : AllAccepted U (if (queueDepth U browse).getD 0 > 0 then
        [findingDlqDepth (queueName browse) ((queueDepth U browse).getD 0)
          ((sampleSize U browse).getD 0)] else []) ↔
      (0 < (queueDepth U browse).getD 0 → Plain (queueName browse)) := by
    split_ifs with h
    · simp [AllAccepted, accepted_findingDlqDepth_iff, h]
    · simp [AllAccepted, h]
  have hgroups : AllAccepted U
        (((sortedGroups (browse.headers.map fun h => (reasonOf U h, h))).filter
          fun p => p.1 ≠ 0).map
            fun p => findingForReason registry mqVersion (queueName browse) p.1 p.2) ↔
      ∀ h ∈ browse.headers, reasonOf U h ≠ 0 →
        Plain (topDestination U browse.headers (reasonOf U h)) ∧ Plain (queueName browse) := by
    simp only [AllAccepted, List.forall_mem_map, List.mem_filter, Prod.forall,
      accepted_findingForReason_iff, and_imp, decide_eq_true_eq]
    constructor
    · intro hall h hh hreason
      exact hall _ _ (mem_sortedGroups_iff U |>.mpr ⟨⟨h, hh, rfl⟩, rfl⟩) hreason
    · intro hall reason group hmem hreason
      obtain ⟨⟨h, hh, rfl⟩, rfl⟩ := (mem_sortedGroups_iff U).mp hmem
      exact hall h hh hreason
  have hbackout : AllAccepted U
        (if browse.headers.filter (fun h => backoutOf U h ≥ backoutThreshold) = [] then []
          else [findingBackoutLoop (queueName browse)
            (browse.headers.filter fun h => backoutOf U h ≥ backoutThreshold)]) ↔
      ((∃ h ∈ browse.headers, backoutThreshold ≤ backoutOf U h) →
        Plain (queueName browse)) := by
    have hsome : (∃ h ∈ browse.headers, backoutThreshold ≤ backoutOf U h) ↔
        ¬ browse.headers.filter (fun h => backoutOf U h ≥ backoutThreshold) = [] := by
      simp
    rw [hsome]
    split_ifs with h
    · simp [AllAccepted, h]
    · simp [AllAccepted, accepted_findingBackoutLoop_iff, h]
  rw [findingsOf, allAccepted_append, allAccepted_append, hdepth, hgroups, hbackout]
  unfold QueueNamesPlain NamesQueue
  constructor
  · rintro ⟨⟨hd, hg⟩, hb⟩
    refine ⟨?_, fun h hh hreason => (hg h hh hreason).1⟩
    rintro (h | ⟨h, hh, hreason⟩ | h)
    · exact hd h
    · exact (hg h hh hreason).2
    · exact hb h
  · rintro ⟨hqueue, hdest⟩
    exact ⟨⟨fun h => hqueue (Or.inl h), fun h hh hreason =>
      ⟨hdest h hh hreason, hqueue (Or.inr (Or.inl ⟨h, hh, hreason⟩))⟩⟩,
      fun h => hqueue (Or.inr (Or.inr h))⟩

theorem dlq_accepted_iff (registry : KCRegistry) (mqVersion : Option PyStr)
    (browse : BrowseDict) :
    (∀ findings, matchDlqFindings U registry mqVersion browse = some findings →
        AllAccepted U findings) ↔
      (Readable U browse → QueueNamesPlain U browse) := by
  constructor
  · intro hall hreadable
    exact (accepted_findingsOf_iff U registry mqVersion browse).mp
      (hall _ (matchDlqFindings_of_readable U registry mqVersion hreadable))
  · intro hplain findings hfindings
    have hreadable := readable_of_matchDlqFindings U registry mqVersion hfindings
    rw [matchDlqFindings_of_readable U registry mqVersion hreadable, Option.some_inj]
      at hfindings
    rw [← hfindings]
    exact (accepted_findingsOf_iff U registry mqVersion browse).mpr (hplain hreadable)

end DeadLetter

section Cluster

open Cluster

variable (U : UnicodeData) (registry : KCRegistry) (mqVersion : Option PyStr)

theorem accepted_findingNoFullRepo_iff (cluster : PyStr) (members : List Row) :
    CommandsAccepted U (findingNoFullRepo registry mqVersion cluster members) ↔
      Plain cluster := by
  simp (disch := decide) [CommandsAccepted, RCSFinding.commands, findingNoFullRepo,
    accepted_fixed, accepted_name_iff]

theorem accepted_findingUnhealthyChannel_iff (row : Row) (channel status : PyStr) :
    CommandsAccepted U (findingUnhealthyChannel U registry mqVersion row channel status) ↔
      Plain channel := by
  simp (disch := decide) [CommandsAccepted, RCSFinding.commands,
    findingUnhealthyChannel, accepted_fixed, accepted_name_iff]

theorem accepted_findingStaleEntry_iff (row : Row) (date : PyStr) (ageDays : Int) :
    CommandsAccepted U (findingStaleEntry U registry mqVersion row date ageDays) ↔
      Plain (memberName row) ∧ Plain (staleChannel row) := by
  simp (disch := decide) [CommandsAccepted, RCSFinding.commands, findingStaleEntry,
    accepted_fixed, accepted_name_iff]
  tauto

theorem accepted_findingSuspended_iff (row : Row) :
    CommandsAccepted U (findingSuspended row) ↔ Plain (memberName row) := by
  simp (disch := decide) [CommandsAccepted, RCSFinding.commands, findingSuspended,
    accepted_name_iff]

theorem accepted_findingSelfOnly (thisQm : PyStr) :
    CommandsAccepted U (findingSelfOnly thisQm) := by
  simp (disch := decide) [CommandsAccepted, RCSFinding.commands, findingSelfOnly,
    accepted_fixed]

/-- The names in the rows that give a finding are plain. -/
structure ClusterNamesPlain (clock : Clock) (raw : Cluster.RawData) : Prop where
  clusters : ∀ row ∈ raw.clusqmgrs, LacksRepository U raw (clusterName row) →
    Plain (clusterName row)
  channels : ∀ row ∈ raw.clusqmgrs, upperCell U row "STATUS" ∈ badChannelStatus →
    Plain (unhealthyChannelName row)
  stale : ∀ row ∈ raw.clusqmgrs, IsStale U clock.start row →
    Plain (memberName row) ∧ Plain (staleChannel row)
  suspended : ∀ row ∈ raw.clusqmgrs, upperCell U row "SUSPEND" = lit "YES" →
    Plain (memberName row)

theorem accepted_checkFullRepos_iff (raw : Cluster.RawData) :
    AllAccepted U (checkFullRepos U registry mqVersion raw.clusqmgrs raw.repos) ↔
      ∀ row ∈ raw.clusqmgrs, LacksRepository U raw (clusterName row) →
        Plain (clusterName row) := by
  constructor
  · intro hall row hrow hlacks
    have haccepted := hall _ ((mem_checkFullRepos_iff U registry mqVersion).mpr
      ⟨row, hrow, hlacks, rfl⟩)
    exact (accepted_findingNoFullRepo_iff U registry mqVersion _ _).mp haccepted
  · intro hplain f hf
    obtain ⟨row, hrow, hlacks, rfl⟩ := (mem_checkFullRepos_iff U registry mqVersion).mp hf
    rw [accepted_findingNoFullRepo_iff]
    exact hplain row hrow hlacks

theorem accepted_checkStaleEntries_iff (clock : Clock) (rows : List Row) :
    AllAccepted U (checkStaleEntries U registry mqVersion clock rows) ↔
      ∀ row ∈ rows, IsStale U clock.start row →
        Plain (memberName row) ∧ Plain (staleChannel row) := by
  constructor
  · intro hall row hrow hstale
    obtain ⟨age, hmem⟩ := exists_mem_checkStaleEntries U registry mqVersion hrow hstale
    exact (accepted_findingStaleEntry_iff U registry mqVersion _ _ _).mp (hall _ hmem)
  · intro hplain f hf
    obtain ⟨row, hrow, hstale, age, rfl⟩ := mem_checkStaleEntries U registry mqVersion hf
    rw [accepted_findingStaleEntry_iff]
    exact hplain row hrow hstale

/-- A check that reports the rows of one kind, each under one name. -/
theorem accepted_rows_iff
    {rows : List Row} {kind : Row → Prop} [DecidablePred kind]
    {finding : Row → RCSFinding} {name : Row → PyStr}
    (h : ∀ row, CommandsAccepted U (finding row) ↔ Plain (name row)) :
    AllAccepted U (rows.filterMap fun row => if kind row then some (finding row) else none) ↔
      ∀ row ∈ rows, kind row → Plain (name row) := by
  rw [allAccepted_filterMap]
  refine forall₂_congr fun row _ => ?_
  by_cases hkind : kind row
  · simp [hkind, h]
  · simp [hkind]

theorem cluster_accepted_iff (clock : Clock) (raw : Cluster.RawData) :
    AllAccepted U (matchClusterFindings U registry mqVersion clock raw) ↔
      ClusterNamesPlain U clock raw := by
  have hunhealthy : AllAccepted U (checkUnhealthyChannels U registry mqVersion raw.clusqmgrs) ↔
      ∀ row ∈ raw.clusqmgrs, upperCell U row "STATUS" ∈ badChannelStatus →
        Plain (unhealthyChannelName row) :=
    accepted_rows_iff U fun row =>
      accepted_findingUnhealthyChannel_iff U registry mqVersion row _ _
  have hsuspended : AllAccepted U (checkSuspendedMembers U raw.clusqmgrs) ↔
      ∀ row ∈ raw.clusqmgrs, upperCell U row "SUSPEND" = lit "YES" →
        Plain (memberName row) :=
    accepted_rows_iff U fun row => accepted_findingSuspended_iff U row
  have hself : AllAccepted U (checkSelfOnlyMembership raw.clusqmgrs raw.thisQm) := by
    unfold checkSelfOnlyMembership
    split_ifs <;> simp [AllAccepted, accepted_findingSelfOnly]
  unfold matchClusterFindings
  dsimp only
  split_ifs with hempty
  · refine ⟨fun _ => ?_, fun _ => by simp [AllAccepted]⟩
    constructor <;> simp [hempty.1]
  · rw [allAccepted_append, allAccepted_append, allAccepted_append, allAccepted_append,
      accepted_checkFullRepos_iff, hunhealthy, accepted_checkStaleEntries_iff, hsuspended]
    exact ⟨fun ⟨⟨⟨⟨hc, hu⟩, hst⟩, hsu⟩, _⟩ => ⟨hc, hu, hst, hsu⟩,
      fun h => ⟨⟨⟨⟨h.clusters, h.channels⟩, h.stale⟩, h.suspended⟩, hself⟩⟩

end Cluster

section NativeHa

open Rcs.NativeHa

variable (U : UnicodeData) (registry : KCRegistry) (mqVersion : Option PyStr)

theorem accepted_findingQuorum (inSync total : Nat) (required : Int) :
    CommandsAccepted U (findingQuorum registry mqVersion inSync total required) := by
  simp (disch := decide) [CommandsAccepted, RCSFinding.commands, findingQuorum,
    accepted_fixed]

theorem accepted_findingNoActive (total : Nat) :
    CommandsAccepted U (findingNoActive registry mqVersion total) := by
  simp (disch := decide) [CommandsAccepted, RCSFinding.commands, findingNoActive,
    accepted_fixed]

theorem accepted_findingSplitBrain (actives : Nat) :
    CommandsAccepted U (findingSplitBrain registry mqVersion actives) := by
  simp (disch := decide) [CommandsAccepted, RCSFinding.commands, findingSplitBrain,
    accepted_fixed]

theorem accepted_findingReplica (row : Row) :
    CommandsAccepted U (findingReplica U registry mqVersion row) := by
  simp (disch := decide) [CommandsAccepted, RCSFinding.commands, findingReplica,
    accepted_fixed]

theorem accepted_findingReplayLag (name : PyStr) (pct bytes : Int) (severity : Severity)
    (reason : PyStr) :
    CommandsAccepted U
      (findingReplayLag registry mqVersion name pct bytes severity reason) := by
  simp (disch := decide) [CommandsAccepted, RCSFinding.commands, findingReplayLag,
    accepted_fixed]

theorem accepted_findingCrrLag (lag : Int) (group role : PyStr) :
    CommandsAccepted U (findingCrrLag registry mqVersion lag group role) := by
  simp (disch := decide) [CommandsAccepted, RCSFinding.commands, findingCrrLag,
    accepted_fixed]

/-- No name is put into a command of a Native HA finding. -/
theorem nativeHa_accepted
    {raw : NativeHa.RawData} {findings : List RCSFinding}
    (h : matchNativeHaFindings U registry mqVersion raw = some findings) :
    AllAccepted U findings := by
  have hnil : AllAccepted U [] := by
    simp [AllAccepted]
  have hquorum : ∀ quorum, checkQuorum U registry mqVersion raw = some quorum →
      AllAccepted U quorum := by
    intro quorum hq
    unfold checkQuorum at hq
    dsimp only at hq
    split_ifs at hq with hempty
    · obtain rfl := Option.some_inj.mp hq
      exact hnil
    · obtain ⟨required, -, rfl⟩ := Option.map_eq_some_iff.mp hq
      split_ifs
      · exact hnil
      · exact (allAccepted_singleton U).mpr (accepted_findingQuorum U _ _ _ _ _)
  have hactive : AllAccepted U (checkActiveInstance U registry mqVersion raw.instances) := by
    unfold checkActiveInstance
    split
    · exact (allAccepted_singleton U).mpr (accepted_findingNoActive U _ _ _)
    · exact hnil
    · exact (allAccepted_singleton U).mpr (accepted_findingSplitBrain U _ _ _)
  have hreplicas : AllAccepted U (checkReplicas U registry mqVersion raw.instances) := by
    rw [checkReplicas, allAccepted_filterMap]
    intro row _ f hf
    split_ifs at hf
    cases hf
    exact accepted_findingReplica U _ _ row
  have hlag : AllAccepted U (checkLogReplayLag U registry mqVersion raw.instances) := by
    rw [checkLogReplayLag, allAccepted_filterMap]
    intro row _ f hf
    unfold replayLag at hf
    dsimp only at hf
    split_ifs at hf
    · cases hf
      exact accepted_findingReplayLag U _ _ _ _ _ _ _
    · cases hf
      exact accepted_findingReplayLag U _ _ _ _ _ _ _
  have hcrr : AllAccepted U (checkCrrLag U registry mqVersion raw.crr) := by
    unfold checkCrrLag
    split
    · exact hnil
    · dsimp only
      split_ifs
      · exact hnil
      · exact hnil
      · exact (allAccepted_singleton U).mpr (accepted_findingCrrLag U _ _ _ _ _)
  unfold matchNativeHaFindings at h
  split_ifs at h with hempty
  · obtain rfl := Option.some_inj.mp h
    exact hnil
  · obtain ⟨quorum, hq, rfl⟩ := Option.map_eq_some_iff.mp h
    simp only [allAccepted_append]
    exact ⟨⟨⟨⟨hquorum quorum hq, hactive⟩, hreplicas⟩, hlag⟩, hcrr⟩

end NativeHa

section Zos

open Rcs.Zos

variable (U : UnicodeData) (registry : KCRegistry) (mqVersion : Option PyStr)

/-- The names in the rows that give a finding are plain. -/
structure ZosNamesPlain (raw : Zos.RawData) : Prop where
  pagesets : ∀ ps ∈ raw.pagesets, pagesetHigh ≤ usePct U ps → Plain (psid ps)
  bufferpools : ∀ bp ∈ raw.bufferpools, freePct U bp < bufferpoolLowFreePct → Plain (bpid bp)
  structures : ∀ s ∈ raw.cfStructures,
    structureStatus U s ∉ [lit "ACTIVE", lit "AVAILABLE"] → Plain (structureName s)

theorem accepted_findingMember (qsg name status : PyStr) :
    CommandsAccepted U (findingMember registry mqVersion qsg name status) := by
  simp (disch := decide) [CommandsAccepted, RCSFinding.commands, findingMember,
    accepted_fixed]

theorem accepted_findingChin (status : PyStr) :
    CommandsAccepted U (findingChin registry mqVersion status) := by
  simp (disch := decide) [CommandsAccepted, RCSFinding.commands, findingChin,
    accepted_fixed]

theorem accepted_findingPageset_iff (id : PyStr) (pct : Int) :
    CommandsAccepted U (findingPageset registry mqVersion id pct) ↔ Plain id := by
  simp (disch := decide) [CommandsAccepted, RCSFinding.commands, findingPageset,
    accepted_fixed, accepted_name_iff]

theorem accepted_findingBufferpool_iff (id : PyStr) (pct : Int) :
    CommandsAccepted U (findingBufferpool registry mqVersion id pct) ↔ Plain id := by
  simp (disch := decide) [CommandsAccepted, RCSFinding.commands, findingBufferpool,
    accepted_name_iff]

theorem accepted_findingCfStructure_iff (name status : PyStr) :
    CommandsAccepted U (findingCfStructure registry mqVersion name status) ↔ Plain name := by
  simp (disch := decide) [CommandsAccepted, RCSFinding.commands, findingCfStructure,
    accepted_name_iff]

theorem zos_accepted_iff (raw : Zos.RawData) :
    AllAccepted U (matchZosFindings U registry mqVersion raw) ↔ ZosNamesPlain U raw := by
  have hmembers : AllAccepted U (checkQsgMembers U registry mqVersion raw.group) := by
    rw [checkQsgMembers, allAccepted_filterMap]
    intro row _ f hf
    dsimp only at hf
    split_ifs at hf
    cases hf
    exact accepted_findingMember U _ _ _ _ _
  have hchin : AllAccepted U (checkChin U registry mqVersion raw.chin) := by
    unfold checkChin
    dsimp only
    split_ifs
    · simp [AllAccepted]
    · simp [AllAccepted]
    · exact (allAccepted_singleton U).mpr (accepted_findingChin U _ _ _)
  have hpagesets : AllAccepted U (checkPagesets U registry mqVersion raw.pagesets) ↔
      ∀ ps ∈ raw.pagesets, pagesetHigh ≤ usePct U ps → Plain (psid ps) := by
    simp only [checkPagesets, ← not_le, ite_not]
    exact accepted_rows_iff U fun ps => accepted_findingPageset_iff U _ _ _ _
  have hbufferpools : AllAccepted U (checkBufferpools U registry mqVersion raw.bufferpools) ↔
      ∀ bp ∈ raw.bufferpools, freePct U bp < bufferpoolLowFreePct → Plain (bpid bp) := by
    simp only [checkBufferpools, ge_iff_le, ← not_lt, ite_not]
    exact accepted_rows_iff U fun bp => accepted_findingBufferpool_iff U _ _ _ _
  have hstructures : AllAccepted U (checkCfStructures U registry mqVersion raw.cfStructures) ↔
      ∀ s ∈ raw.cfStructures, structureStatus U s ∉ [lit "ACTIVE", lit "AVAILABLE"] →
        Plain (structureName s) := by
    have hskip : checkCfStructures U registry mqVersion raw.cfStructures =
        raw.cfStructures.filterMap fun s =>
          if structureStatus U s ∉ [lit "ACTIVE", lit "AVAILABLE"] then
            some (findingCfStructure registry mqVersion (structureName s) (structureStatus U s))
          else none := by
      simp only [checkCfStructures, ite_not]
    rw [hskip]
    exact accepted_rows_iff U fun s => accepted_findingCfStructure_iff U _ _ _ _
  rw [matchZosFindings, allAccepted_append, allAccepted_append, allAccepted_append,
    allAccepted_append, hpagesets, hbufferpools, hstructures]
  exact ⟨fun ⟨⟨⟨_, hp⟩, hb⟩, hs⟩ => ⟨hp, hb, hs⟩,
    fun h => ⟨⟨⟨⟨hmembers, hchin⟩, h.pagesets⟩, h.bufferpools⟩, h.structures⟩⟩

end Zos

section Matchers

variable (U : UnicodeData) (registry : KCRegistry) (mqVersion : Option PyStr)

/--
For each of the five matchers and every input: the guard accepts all the commands of all
findings exactly when the names in the rows that give a finding hold no `;`, line feed,
carriage return or NUL.
-/
theorem suggested_commands_accepted_iff :
    (∀ order raw, AllAccepted U (Channels.matchChannelFailures U registry mqVersion order raw) ↔
      ChannelNamesPlain U raw) ∧
    (∀ clock raw, AllAccepted U (Cluster.matchClusterFindings U registry mqVersion clock raw) ↔
      ClusterNamesPlain U clock raw) ∧
    (∀ browse,
      (∀ findings, DeadLetter.matchDlqFindings U registry mqVersion browse = some findings →
        AllAccepted U findings) ↔
      (DeadLetter.Readable U browse → QueueNamesPlain U browse)) ∧
    (∀ raw findings, NativeHa.matchNativeHaFindings U registry mqVersion raw = some findings →
      AllAccepted U findings) ∧
    ∀ raw, AllAccepted U (Zos.matchZosFindings U registry mqVersion raw) ↔
      ZosNamesPlain U raw :=
  ⟨channels_accepted_iff U registry mqVersion, cluster_accepted_iff U registry mqVersion,
    dlq_accepted_iff U registry mqVersion,
    fun _ _ h => nativeHa_accepted U registry mqVersion h,
    zos_accepted_iff U registry mqVersion⟩

/-- A registry without pages. -/
def noPages : KCRegistry :=
  ⟨OrderedDict.empty, OrderedDict.empty, OrderedDict.empty⟩

/-- The header of a message that an application sent to the queue `A;B`. -/
def semicolonHeader : Row :=
  OrderedDict.ofList
    [(lit "reason_code", .int 2053), (lit "dest_q_name", .str (lit "A;B")),
      (lit "put_application_name", .str (lit "app")), (lit "backout_count", .int 0)]

/-- A browse of that message. -/
def semicolonBrowse : DeadLetter.BrowseDict where
  cells := OrderedDict.ofList
    [(lit "queue_name", .str (lit "DLQ")), (lit "queue_depth", .int 1),
      (lit "sample_size", .int 1)]
  headers := [semicolonHeader]

/-- The fix steps for that message are not accepted. -/
theorem semicolon_destination_refused :
    ¬ ∀ findings,
      DeadLetter.matchDlqFindings UnicodeData.basic noPages none semicolonBrowse =
        some findings → AllAccepted UnicodeData.basic findings := by
  rw [dlq_accepted_iff]
  intro hplain
  have hreadable : DeadLetter.Readable UnicodeData.basic semicolonBrowse :=
    ⟨by decide +kernel, by decide +kernel, by decide +kernel, by decide +kernel⟩
  have hreason : DeadLetter.reasonOf UnicodeData.basic semicolonHeader = 2053 := by
    decide +kernel
  have hcounts : DeadLetter.destCounts
      (DeadLetter.withReason UnicodeData.basic semicolonBrowse.headers 2053) =
        ⟨[(lit "A;B", 1)], by decide +kernel⟩ := by
    decide +kernel
  have hdest := (hplain hreadable).2 semicolonHeader (List.mem_singleton.mpr rfl)
    (by rw [hreason]; decide)
  rw [hreason, topDestination, hcounts] at hdest
  simp only [mostCommon, List.mergeSort_singleton, List.take] at hdest
  revert hdest
  decide +kernel

end Matchers

end Rcs
end MqSentinel
