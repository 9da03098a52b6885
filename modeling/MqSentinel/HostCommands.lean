import MqSentinel.MiqmMatcher
import MqSentinel.RdqmParsers
import MqSentinel.ShellAllowlist

/-!
# Suggested host commands and the shell guard

The host commands that the RDQM and the multi-instance matcher suggest are fixed texts but
for one: `drbdadm status` with the name of a resource.  The parser takes a name of any
characters but white space, the guard one of `[a-z0-9_-]` only.
-/

namespace MqSentinel
namespace Rcs
namespace HostCommands

open Allowlist CodePoint Regex
open Rcs.Rdqm (resourceName badDrbdDisk)

section Guard

variable (U : UnicodeData) (repr : PyStr → PyStr)

/-- The guard accepts a command, split on white space. -/
def Accepted (command : PyStr) : Prop :=
  assertShellAllowed U repr (split command) = .ok ()

/-- The guard accepts every command that the findings suggest. -/
def AllAccepted (findings : List RCSFinding) : Prop :=
  ∀ f ∈ findings, ∀ c ∈ f.commands, Accepted U repr c

theorem allAccepted_append {xs ys : List RCSFinding} :
    AllAccepted U repr (xs ++ ys) ↔ AllAccepted U repr xs ∧ AllAccepted U repr ys := by
  simp [AllAccepted, or_imp, forall_and]

/-- A name that leaves nothing, or one word of `[a-z0-9_-]`, as an argument. -/
def NamesResource (name : PyStr) : Prop :=
  split name = [] ∨ ∃ w, split name = [w] ∧ ∀ c ∈ w, isResourceChar c = true

/-- The parts of a split text are words. -/
theorem isWord_of_mem_split
    (s : PyStr) :
    ∀ w ∈ split s, w ≠ [] ∧ ∀ c ∈ w, c.isSpace = false := by
  induction s using words_induction with
  | word v hv =>
      intro w hw
      rw [split_word hv] at hw
      split_ifs at hw with hne
      · cases hw
      · obtain rfl := List.mem_singleton.mp hw
        exact ⟨hne, hv⟩
  | space v c t hv hc ih =>
      intro w hw
      rw [split_append_space _ _ hc, List.mem_append, split_word hv] at hw
      rcases hw with hw | hw
      · split_ifs at hw with hne
        · cases hw
        · obtain rfl := List.mem_singleton.mp hw
          exact ⟨hne, hv⟩
      · exact ih w hw

theorem split_drbdadm (name : PyStr) :
    split (lit "drbdadm status " ++ name) = lit "drbdadm" :: lit "status" :: split name := by
  have hblank : lit "drbdadm status " ++ name =
      lit "drbdadm" ++ ch ' ' :: (lit "status" ++ ch ' ' :: name) := rfl
  rw [hblank, split_append_space _ _ (by decide), split_append_space _ _ (by decide)]
  rfl

/-- What the pattern of `drbdadm` takes. -/
theorem lang_drbdadmArgs_iff
    {w v : PyStr} :
    Rx.Lang drbdadmArgs [] w v ↔
      w = lit "status" ∨
        ∃ g r, w = lit "status" ++ (g ++ r) ∧ (g ≠ [] ∧ ∀ c ∈ g, c.isSpace = true) ∧
          r ≠ [] ∧ ∀ c ∈ r, isResourceChar c = true := by
  rw [drbdadmArgs, Rx.lang_seq]
  simp only [litRx, Rx.lang_word, fits_one_iff, Rx.opt, Rx.lang_alt, Rx.lang_eps, Rx.lang_seq,
    gap, Rx.lang_plus_cls]
  constructor
  · rintro ⟨-, v', rfl, rfl, ⟨g, r, rfl, hg, hr⟩ | rfl⟩
    · exact Or.inr ⟨g, r, rfl, hg, hr⟩
    · exact Or.inl (List.append_nil _)
  · rintro (rfl | ⟨g, r, rfl, hg, hr⟩)
    · exact ⟨_, [], (List.append_nil _).symm, rfl, Or.inr rfl⟩
    · exact ⟨_, _, rfl, rfl, Or.inl ⟨g, r, rfl, hg, hr⟩⟩

theorem assert_drbdadm_iff (args : List PyStr) :
    assertShellAllowed U repr (lit "drbdadm" :: args) = .ok () ↔
      Rx.matchesAt (anchored drbdadmArgs) (argLine args) = true := by
  have hlookup : (shellAllowed U).lookup (lit "drbdadm") = some (anchored drbdadmArgs) := rfl
  rw [assertShellAllowed, hlookup]
  dsimp only
  split_ifs with hmatch
  · simp [hmatch]
  · simp [hmatch]

/-- A line of words is taken when there is one word, of the characters of a resource. -/
theorem matchesAt_drbdadmArgs_iff
    {ws : List PyStr} (hws : ∀ w ∈ ws, w ≠ [] ∧ ∀ c ∈ w, c.isSpace = false) :
    Rx.matchesAt (anchored drbdadmArgs) (argLine (lit "status" :: ws)) = true ↔
      ws = [] ∨ ∃ w, ws = [w] ∧ ∀ c ∈ w, isResourceChar c = true := by
  have hspace : isSpace (ch ' ') = true := by decide
  have hlf : isSpace lf = true := by decide
  rw [anchored, Rx.matchesAt_anchored_iff]
  simp only [lang_drbdadmArgs_iff]
  constructor
  · rintro ⟨u, v, hline, hu, hv⟩
    have hrest : ∀ c ∈ v, c = lf := by
      rcases hv with rfl | ⟨c, rfl, hc⟩
      · simp
      · simpa [one] using hc
    cases ws with
    | nil =>
        exact Or.inl rfl
    | cons w ws =>
        obtain ⟨hne, hword⟩ := hws w (by simp)
        have hjoined : argLine (lit "status" :: w :: ws) =
            lit "status" ++ ch ' ' :: argLine (w :: ws) := by
          simp [argLine, List.intercalate_cons_cons]
        rw [hjoined] at hline
        rcases hu with rfl | ⟨g, r, rfl, ⟨hgap, hg⟩, -, hr⟩
        · -- behind `status` a line feed would have to be a blank
          rw [List.append_cancel_left_eq] at hline
          exact absurd (hrest (ch ' ') (by rw [← hline]; simp)) (by decide)
        · rw [List.append_assoc, List.append_cancel_left_eq, List.append_assoc] at hline
          obtain ⟨c, w, rfl⟩ := List.exists_cons_of_ne_nil hne
          have hc : c.isSpace = false := hword c (by simp)
          obtain ⟨rest, hrest'⟩ : ∃ rest, argLine ((c :: w) :: ws) = c :: rest := by
            cases ws with
            | nil => exact ⟨w, by simp [argLine]⟩
            | cons x ws => exact ⟨_, by rw [argLine, List.intercalate_cons_cons]; rfl⟩
          -- the gap is the one blank that the join puts there
          have hafter : argLine ((c :: w) :: ws) = r ++ v := by
            rcases g with _ | ⟨d, _ | ⟨e, g⟩⟩
            · exact absurd rfl hgap
            · exact (List.cons.inj hline).2
            · rw [hrest'] at hline
              have hce : c = e := (List.cons.inj (List.cons.inj hline).2).1
              rw [hce, hg e (by simp)] at hc
              cases hc
          have hblank : ch ' ' ∉ r ++ v := by
            rw [List.mem_append]
            rintro (hin | hin)
            · exact absurd (hr _ hin) (by decide)
            · exact absurd (hrest _ hin) (by decide)
          cases ws with
          | nil =>
              have hsingle : argLine [c :: w] = c :: w := by simp [argLine]
              rw [hsingle] at hafter
              have hnil : v = [] := by
                rw [List.eq_nil_iff_forall_not_mem]
                intro d hd
                have hin : d ∈ c :: w := by
                  rw [hafter]
                  exact List.mem_append_right _ hd
                have hlf' := hword d hin
                rw [hrest d hd, hlf] at hlf'
                cases hlf'
              rw [hnil, List.append_nil] at hafter
              exact Or.inr ⟨_, rfl, by rwa [hafter]⟩
          | cons x ws =>
              refine absurd ?_ hblank
              rw [← hafter, argLine, List.intercalate_cons_cons]
              simp
  · rintro (rfl | ⟨w, rfl, hw⟩)
    · exact ⟨lit "status", [], rfl, Or.inl rfl, Or.inl rfl⟩
    · refine ⟨argLine [lit "status", w], [], (List.append_nil _).symm, ?_, Or.inl rfl⟩
      refine Or.inr ⟨[ch ' '], w, ?_, ?_, (hws w (by simp)).1, hw⟩
      · simp [argLine, List.intercalate_cons_cons]
      · simp [hspace]

/-- The guard takes the status of a resource exactly when the name is one for it. -/
theorem accepted_drbdadm_iff (name : PyStr) :
    Accepted U repr (lit "drbdadm status " ++ name) ↔ NamesResource name := by
  rw [Accepted, split_drbdadm, assert_drbdadm_iff,
    matchesAt_drbdadmArgs_iff (isWord_of_mem_split name)]
  exact Iff.rfl

theorem accepted_crmMon : Accepted U repr (lit "crm_mon -1") := by
  rfl

theorem accepted_rdqmstatus : Accepted U repr (lit "rdqmstatus") := by
  rfl

theorem accepted_dspmqX : Accepted U repr (lit "dspmq -x") := by
  rfl

theorem accepted_dspmqStandby : Accepted U repr (lit "dspmq -o standby") := by
  have hlookup : (shellAllowed U).lookup (lit "dspmq") = some (anchored (dspmqArgs U)) := rfl
  have hsplit : split (lit "dspmq -o standby") =
      [lit "dspmq", lit "-o", lit "standby"] := by decide +kernel
  have hword : ∀ c ∈ lit "standby", U.isWord c = true := by
    intro c hc
    have hascii : ∀ d ∈ lit "standby", d.isAscii = true ∧ d.isAlnumAscii = true := by decide
    rw [UnicodeData.isWord, U.isalnum_ascii c (hascii c hc).1, (hascii c hc).2]
    rfl
  have hflag : Rx.Lang (dspmqFlag U) [] (lit "-o" ++ ([ch ' '] ++ lit "standby")) [] := by
    rw [dspmqFlag, Rx.lang_alt, Rx.lang_seq (litRx "-o")]
    refine Or.inr ⟨_, _, rfl, ?_, ?_⟩
    · rw [litRx, Rx.lang_word, fits_one_iff]
    · rw [Rx.lang_seq]
      refine ⟨[ch ' '], lit "standby", rfl, ?_, ?_⟩
      · rw [gap, Rx.lang_plus_cls]
        exact ⟨by simp, by decide⟩
      · rw [Rx.lang_plus_cls]
        exact ⟨by decide, hword⟩
  have hmatch : Rx.matchesAt (anchored (dspmqArgs U)) (argLine [lit "-o", lit "standby"]) =
      true := by
    rw [anchored, Rx.matchesAt_anchored_iff]
    refine ⟨lit "-o" ++ ([ch ' '] ++ lit "standby"), [], rfl, ?_, Or.inl rfl⟩
    rw [dspmqArgs, Rx.lang_alt, Rx.lang_seq (dspmqFlag U)]
    refine Or.inr ⟨_, [], (List.append_nil _).symm, hflag, ?_⟩
    exact Rx.Iter.nil _ _
  rw [Accepted, hsplit, assertShellAllowed, hlookup]
  simp [hmatch]

end Guard

section Matchers

variable (U : UnicodeData) (repr : PyStr → PyStr)
variable (registry : KCRegistry) (mqVersion : Option PyStr)

/-- The multi-instance matcher suggests fixed commands only, which are all accepted. -/
theorem allAccepted_matchMiqmFindings (raw : Miqm.RawData) :
    AllAccepted U repr (Miqm.matchMiqmFindings U registry mqVersion raw) := by
  have hfixed : ∀ f : RCSFinding,
      (∀ c ∈ f.commands, c = lit "dspmq -x" ∨ c = lit "dspmq -o standby") →
        ∀ c ∈ f.commands, Accepted U repr c := by
    intro f hf c hc
    rcases hf c hc with rfl | rfl
    · exact accepted_dspmqX U repr
    · exact accepted_dspmqStandby U repr
  intro f hf
  refine hfixed f ?_
  unfold Miqm.matchMiqmFindings at hf
  split_ifs at hf
  · cases hf
  · simp only [List.mem_append] at hf
    rcases hf with (((hf | hf) | hf) | hf) | hf
    · unfold Miqm.checkNoActive at hf
      split_ifs at hf
      · cases hf
      · cases hf
      · obtain rfl := List.mem_singleton.mp hf
        simp [Miqm.findingNoActive, RCSFinding.commands]
    · unfold Miqm.checkStandbyPermission at hf
      split_ifs at hf
      · cases hf
      · obtain rfl := List.mem_singleton.mp hf
        simp [Miqm.findingStandbyNotPermitted, RCSFinding.commands]
    · unfold Miqm.checkDualActive at hf
      dsimp only at hf
      split_ifs at hf
      · cases hf
      · obtain rfl := List.mem_singleton.mp hf
        simp [Miqm.findingDualActive, RCSFinding.commands]
    · unfold Miqm.checkSharedFs at hf
      split_ifs at hf
      · cases hf
      · obtain rfl := List.mem_singleton.mp hf
        simp [Miqm.findingSharedFs, RCSFinding.commands]
    · unfold Miqm.checkFailoverHistory at hf
      split_ifs at hf
      · cases hf
      · obtain rfl := List.mem_singleton.mp hf
        simp [Miqm.findingFailover, RCSFinding.commands]

/-- The entry has a fault that the matcher reports. -/
def Faulty (d : Row) : Prop :=
  (d.get "split_brain").truthy = true ∨
    strip (d.getOr "connection_state" (.str [])).toStr ∉ [[], lit "Connected"] ∨
    strip (d.getOr "disk_state" (.str [])).toStr ∈ badDrbdDisk ∨
    strip (d.getOr "peer_disk_state" (.str [])).toStr ∈ badDrbdDisk

/-- Every command of a finding about the entry is accepted exactly when its name is one. -/
def ForEntry (d : Row) (f : RCSFinding) : Prop :=
  (∀ c ∈ f.commands, Accepted U repr c) ↔ NamesResource (resourceName d)

theorem forEntry_of_commands
    {d : Row} {f : RCSFinding} (hstatus : lit "drbdadm status " ++ resourceName d ∈ f.commands)
    (hcommands : ∀ c ∈ f.commands, c = lit "drbdadm status " ++ resourceName d ∨
      c = lit "rdqmstatus" ∨ c = lit "crm_mon -1") :
    ForEntry U repr d f := by
  constructor
  · intro hall
    exact (accepted_drbdadm_iff U repr _).mp (hall _ hstatus)
  · intro hname c hc
    rcases hcommands c hc with rfl | rfl | rfl
    · exact (accepted_drbdadm_iff U repr _).mpr hname
    · exact accepted_rdqmstatus U repr
    · exact accepted_crmMon U repr

theorem forEntry_findingSplitBrain (d : Row) :
    ForEntry U repr d (Rdqm.findingSplitBrain registry mqVersion (resourceName d)) := by
  refine forEntry_of_commands U repr ?_ ?_
  · simp [Rdqm.findingSplitBrain, RCSFinding.commands]
  · simp [Rdqm.findingSplitBrain, RCSFinding.commands]

theorem forEntry_findingConnection (d : Row) (conn : PyStr) :
    ForEntry U repr d (Rdqm.findingConnection registry mqVersion (resourceName d) conn) := by
  refine forEntry_of_commands U repr ?_ ?_
  · simp [Rdqm.findingConnection, RCSFinding.commands]
  · simp [Rdqm.findingConnection, RCSFinding.commands]

theorem forEntry_findingDisk (d : Row) (who state : PyStr) :
    ForEntry U repr d (Rdqm.findingDisk registry mqVersion (resourceName d) who state) := by
  refine forEntry_of_commands U repr ?_ ?_
  · simp [Rdqm.findingDisk, RCSFinding.commands]
  · simp [Rdqm.findingDisk, RCSFinding.commands]

/-- The findings about an entry. -/
def entryFindings (d : Row) : List RCSFinding :=
  if (d.get "split_brain").truthy = true then
    [Rdqm.findingSplitBrain registry mqVersion (resourceName d)]
  else
    (Rdqm.connectionFault registry mqVersion d).toList ++
      Rdqm.diskFaults registry mqVersion d

theorem forEntry_of_mem
    {d : Row} {f : RCSFinding} (h : f ∈ entryFindings registry mqVersion d) :
    ForEntry U repr d f := by
  unfold entryFindings at h
  split_ifs at h
  · obtain rfl := List.mem_singleton.mp h
    exact forEntry_findingSplitBrain U repr registry mqVersion d
  · rw [List.mem_append, Option.mem_toList] at h
    rcases h with h | h
    · obtain ⟨conn, rfl⟩ := Rdqm.exists_of_connectionFault h
      exact forEntry_findingConnection U repr registry mqVersion d conn
    · obtain ⟨who, state, rfl⟩ := Rdqm.exists_of_mem_diskFaults h
      exact forEntry_findingDisk U repr registry mqVersion d who state

/-- There are findings about the entries with a fault. -/
theorem entryFindings_ne_nil_iff (d : Row) :
    entryFindings registry mqVersion d ≠ [] ↔ Faulty d := by
  have hconn : (Rdqm.connectionFault registry mqVersion d).toList = [] ↔
      strip (d.getOr "connection_state" (.str [])).toStr ∈ [[], lit "Connected"] := by
    unfold Rdqm.connectionFault
    dsimp only
    split_ifs with hnone
    · simpa using hnone
    · simpa using hnone
  have hdisk : ∀ who key, (Rdqm.diskFault registry mqVersion d who key).toList = [] ↔
      strip (d.getOr key (.str [])).toStr ∉ badDrbdDisk := by
    intro who key
    have hgood : ([] : PyStr) ∉ badDrbdDisk ∧ lit "UpToDate" ∉ badDrbdDisk := by decide
    unfold Rdqm.diskFault
    dsimp only
    split_ifs with hnone hbad
    · rcases hnone with hnone | hnone
      · simp [hnone, hgood.1]
      · simp [hnone, hgood.2]
    · simp [hbad]
    · simpa using hbad
  unfold entryFindings Faulty
  split_ifs with hsplit
  · simp [hsplit]
  · rw [Rdqm.diskFaults, ne_eq, List.append_eq_nil_iff, List.append_eq_nil_iff, hconn, hdisk,
      hdisk]
    simp only [hsplit]
    tauto

/-- The three DRBD checks together report the findings about the entries. -/
theorem mem_drbdChecks_iff
    {drbd : List Row} {f : RCSFinding} :
    (f ∈ Rdqm.checkDrbdSplitBrain registry mqVersion drbd ∨
        f ∈ Rdqm.checkDrbdConnection registry mqVersion drbd ∨
        f ∈ Rdqm.checkDrbdDiskState registry mqVersion drbd) ↔
      ∃ d ∈ drbd, f ∈ entryFindings registry mqVersion d := by
  rw [Rdqm.mem_checkDrbdSplitBrain_iff, Rdqm.mem_checkDrbdConnection_iff,
    Rdqm.mem_checkDrbdDiskState_iff]
  constructor
  · rintro (⟨d, hd, hsplit, rfl⟩ | ⟨d, hd, hsplit, hf⟩ | ⟨d, hd, hsplit, hf⟩)
    · exact ⟨d, hd, by simp [entryFindings, hsplit]⟩
    · exact ⟨d, hd, by simp [entryFindings, hsplit, hf]⟩
    · exact ⟨d, hd, by simp [entryFindings, hsplit, hf]⟩
  · rintro ⟨d, hd, hf⟩
    cases hsplit : (d.get "split_brain").truthy with
    | true =>
        refine Or.inl ⟨d, hd, hsplit, ?_⟩
        simpa [entryFindings, hsplit] using hf
    | false =>
        have hf : f ∈ (Rdqm.connectionFault registry mqVersion d).toList ++
            Rdqm.diskFaults registry mqVersion d := by
          simpa [entryFindings, hsplit] using hf
        rcases List.mem_append.mp hf with hf | hf
        · exact Or.inr (Or.inl ⟨d, hd, hsplit, Option.mem_toList.mp hf⟩)
        · exact Or.inr (Or.inr ⟨d, hd, hsplit, hf⟩)

/-- The other checks suggest two fixed commands. -/
theorem accepted_of_fixed
    {f : RCSFinding} (h : ∀ c ∈ f.commands, c = lit "rdqmstatus" ∨ c = lit "crm_mon -1") :
    ∀ c ∈ f.commands, Accepted U repr c := by
  intro c hc
  rcases h c hc with rfl | rfl
  · exact accepted_rdqmstatus U repr
  · exact accepted_crmMon U repr

theorem allAccepted_pacemakerChecks (pace : Rdqm.Pacemaker) :
    AllAccepted U repr (Rdqm.checkPacemakerQuorum registry mqVersion pace) ∧
      AllAccepted U repr (Rdqm.checkOfflineNodes registry mqVersion pace) ∧
      AllAccepted U repr (Rdqm.checkFailedResources registry mqVersion pace) := by
  refine ⟨?_, ?_, ?_⟩
  · intro f hf
    obtain ⟨-, rfl⟩ := Rdqm.mem_checkPacemakerQuorum_iff.mp hf
    exact accepted_of_fixed U repr (by simp [Rdqm.findingQuorumLost, RCSFinding.commands])
  · intro f hf
    obtain ⟨-, rfl⟩ := Rdqm.mem_checkOfflineNodes_iff.mp hf
    exact accepted_of_fixed U repr (by simp [Rdqm.findingOfflineNodes, RCSFinding.commands])
  · intro f hf
    obtain ⟨row, -, rfl⟩ := Rdqm.mem_checkFailedResources_iff.mp hf
    exact accepted_of_fixed U repr (by simp [Rdqm.findingFailedResource, RCSFinding.commands])

theorem allAccepted_checkRdqmNoRunningNode (rdqm : Row) :
    AllAccepted U repr (Rdqm.checkRdqmNoRunningNode registry mqVersion rdqm) := by
  intro f hf
  obtain ⟨qm, haState, rfl⟩ := Rdqm.exists_of_mem_checkRdqmNoRunningNode hf
  exact accepted_of_fixed U repr (by simp [Rdqm.findingNoRunningNode, RCSFinding.commands])

/-- The RDQM commands are accepted exactly when the faulty entries have names for it. -/
theorem allAccepted_matchRdqmFindings_iff (raw : Rdqm.RawData) :
    AllAccepted U repr (Rdqm.matchRdqmFindings registry mqVersion raw) ↔
      ∀ d ∈ raw.drbd, Faulty d → NamesResource (resourceName d) := by
  have hentries : (∀ d ∈ raw.drbd, Faulty d → NamesResource (resourceName d)) ↔
      ∀ d ∈ raw.drbd, AllAccepted U repr (entryFindings registry mqVersion d) := by
    refine forall₂_congr fun d _ => ?_
    rw [← entryFindings_ne_nil_iff registry mqVersion]
    constructor
    · intro hname f hf
      exact (forEntry_of_mem U repr registry mqVersion hf).mpr (hname (List.ne_nil_of_mem hf))
    · intro hall hne
      obtain ⟨f, hf⟩ := List.exists_mem_of_ne_nil _ hne
      exact (forEntry_of_mem U repr registry mqVersion hf).mp (hall f hf)
  obtain ⟨hquorum, hoffline, hfailed⟩ :=
    allAccepted_pacemakerChecks U repr registry mqVersion (raw.pacemaker.getD {})
  have hrunning := allAccepted_checkRdqmNoRunningNode U repr registry mqVersion raw.rdqmStatus
  rw [hentries, Rdqm.matchRdqmFindings]
  split_ifs with hempty
  · simp [AllAccepted, hempty.2.2]
  · simp only [allAccepted_append, hquorum, hoffline, hfailed, hrunning, true_and, and_true]
    constructor
    · rintro ⟨⟨hsplit, hconn⟩, hdisk⟩ d hd f hf
      rcases (mem_drbdChecks_iff registry mqVersion).mpr ⟨d, hd, hf⟩ with hin | hin | hin
      · exact hsplit f hin
      · exact hconn f hin
      · exact hdisk f hin
    · intro hall
      refine ⟨⟨?_, ?_⟩, ?_⟩
      · intro f hf
        obtain ⟨d, hd, hf⟩ := (mem_drbdChecks_iff registry mqVersion).mp (Or.inl hf)
        exact hall d hd f hf
      · intro f hf
        obtain ⟨d, hd, hf⟩ := (mem_drbdChecks_iff registry mqVersion).mp (Or.inr (Or.inl hf))
        exact hall d hd f hf
      · intro f hf
        obtain ⟨d, hd, hf⟩ := (mem_drbdChecks_iff registry mqVersion).mp (Or.inr (Or.inr hf))
        exact hall d hd f hf

/--
Every host command that the two matchers suggest is accepted exactly when the names of the
faulty DRBD entries are at most one word of `[a-z0-9_-]`.
-/
theorem host_commands_accepted_iff (rdqm : Rdqm.RawData) (miqm : Miqm.RawData) :
    AllAccepted U repr (Rdqm.matchRdqmFindings registry mqVersion rdqm) ∧
        AllAccepted U repr (Miqm.matchMiqmFindings U registry mqVersion miqm) ↔
      ∀ d ∈ rdqm.drbd, Faulty d → NamesResource (resourceName d) := by
  rw [allAccepted_matchRdqmFindings_iff]
  exact and_iff_left (allAccepted_matchMiqmFindings U repr registry mqVersion miqm)

end Matchers

section UpperCase

/-- An inconsistent disk of a resource with an upper-case name. -/
def upperCaseStatus : PyStr :=
  lit "QM1 role:Secondary disk:Inconsistent\n  node2 connection:Connected"

/-- The suggested status command of that resource is refused. -/
theorem upper_case_resource_refused :
    ¬ AllAccepted UnicodeData.basic id
      (Rdqm.matchRdqmFindings ⟨OrderedDict.empty, OrderedDict.empty, OrderedDict.empty⟩ none
        { drbd := MqSentinel.Rdqm.parseDrbd upperCaseStatus }) := by
  rw [allAccepted_matchRdqmFindings_iff]
  have hparsed : ∃ d ∈ MqSentinel.Rdqm.parseDrbd upperCaseStatus, Faulty d ∧
      split (resourceName d) = [lit "QM1"] := by
    unfold Faulty
    decide +kernel
  obtain ⟨d, hd, hfaulty, hname⟩ := hparsed
  intro hall
  rcases hall d hd hfaulty with hnil | ⟨w, hw, hchars⟩
  · rw [hname] at hnil
    cases hnil
  · rw [hname, List.cons.injEq] at hw
    rw [← hw.1] at hchars
    revert hchars
    decide

end UpperCase

end HostCommands
end Rcs
end MqSentinel
