import MqSentinel.DlqHeaderProjection
import MqSentinel.PyCollections
import MqSentinel.RcsEngine
import MqSentinel.RawRows

/-!
# Dead-letter findings

`match_dlq_findings` groups the headers of a browse by reason code and counts their
destinations and applications.  A number that cannot be read ends it with an exception,
which `none` stands for.
-/

namespace MqSentinel

/-- `sep.join(xs)` -/
def joinStr (sep : String) (xs : List PyStr) : PyStr :=
  List.intercalate (lit sep) xs

namespace Rcs
namespace DeadLetter

/-- The argument of the matcher: the cells of the browse and its headers. -/
structure BrowseDict where
  cells : Row
  headers : List Row

/-- `_SEVERITY.get(reason, Severity.MEDIUM)` -/
def severityOf (reason : Int) : Severity :=
  if reason = 2035 then .high
  else if reason = 2080 then .medium
  else if reason = 2030 then .medium
  else if reason = 2051 then .high
  else if reason = 2053 then .high
  else if reason = 2079 then .low
  else .medium

/-- `_DLQ_BACKOUT_THRESHOLD` -/
def backoutThreshold : Int := 5

/-- `", ".join(f"{q}={n}" for q, n in counts.most_common(3) if q)` -/
def topThree (counts : OrderedDict PyStr Nat) : PyStr :=
  joinStr ", " (((mostCommon counts 3).filter fun p => !p.1.isEmpty).map
    fun p => p.1 ++ lit "=" ++ natStr p.2)

/-- `_finding_dlq_depth` -/
def findingDlqDepth (queueName : PyStr) (depth sample : Int) : RCSFinding where
  issue := lit "Dead-letter queue " ++ queueName ++ lit " depth=" ++ PyInt.toStr depth
  severity :=
    if depth > 10000 then .critical
    else if depth > 1000 then .high
    else if depth > 100 then .medium
    else .low
  rootCause :=
    lit "The DLQ has " ++ PyInt.toStr depth ++ lit " message(s); the MCP inspected the first " ++
    PyInt.toStr sample ++ lit " " ++
    lit "headers (bodies never read). Persistent DLQ growth indicates " ++
    lit "downstream queues are unavailable, applications are putting to " ++
    lit "non-existent queues, or message handling is rejecting messages."
  fixSteps :=
    [ lit "DISPLAY QUEUE('" ++ queueName ++ lit "') CURDEPTH MAXDEPTH MSGAGE",
      lit "DISPLAY QUEUE(*) WHERE(CURDEPTH GT 0)",
      lit "DISPLAY QSTATUS('" ++ queueName ++ lit "') ALL" ]
  verifyCommands := [ lit "DISPLAY QUEUE('" ++ queueName ++ lit "') CURDEPTH" ]
  confidence := lit "High"
  evidence :=
    [ (lit "queue_name", queueName), (lit "queue_depth", PyInt.toStr depth),
      (lit "sample_size", PyInt.toStr sample) ]
  remediationSteps :=
    [ { scenario := lit "Drain processed messages back to their destinations"
        commands :=
          [ lit "# Use IBM-supplied runmqdlq with a curated rules table:",
            lit "runmqdlq SYSTEM.DEAD.LETTER.QUEUE QM_NAME < /etc/mqm/dlq.rules" ]
        notes :=
          lit "Configure /etc/mqm/dlq.rules per IBM KC 'Sample DLQ handler rules table'. " ++
          lit "Test the rules in a non-prod QM first — destructive consume." },
      { scenario := lit "Move messages off DLQ for manual inspection"
        commands :=
          [ lit "# Browse-only sample (does NOT delete):",
            lit "dmpmqmsg -m QM_NAME -i " ++ queueName ++ lit " -f /tmp/dlq.dump -k 0 -K 50" ]
        notes :=
          lit "Read-only browse; safe to run. After inspection, decide whether to " ++
          lit "requeue via runmqdlq or accept loss with CLEAR." } ]

/-- `_remediation_for_reason` -/
def remediationForReason (reason : Int) (dest : PyStr) : List RemediationScenario :=
  if reason = 2035 then
    [ { scenario := lit "Grant putter the required permission on the destination queue"
        commands :=
          [ lit "SET AUTHREC PROFILE('" ++ dest ++ lit "') OBJTYPE(QUEUE) " ++
              lit "PRINCIPAL('putter-user') AUTHADD(PUT, INQ)" ]
        notes :=
          lit "Replace 'putter-user' with the actual MCAUSER from the originating channel." } ]
  else if reason = 2080 then
    [ { scenario := lit "Fix consumer buffer sizing (application change)"
        commands :=
          [ lit "# No MQSC command — update the consumer to size its buffer to MAXMSGL." ]
        notes :=
          lit "Application must call MQGET with a buffer >= queue MAXMSGL, or accept " ++
          lit "truncation with MQGMO_ACCEPT_TRUNCATED_MSG." } ]
  else if reason = 2030 then
    [ { scenario := lit "Increase destination queue MAXMSGL"
        commands := [ lit "ALTER QLOCAL('" ++ dest ++ lit "') MAXMSGL(4194304)" ]
        notes :=
          lit "4 MiB is the typical max. Channel MAXMSGL on inbound channels must " ++
          lit "also be >= this value: ALTER CHANNEL('...') MAXMSGL(...)." },
      { scenario := lit "Increase QMGR MAXMSGL if multiple queues need higher limits"
        commands := [ lit "ALTER QMGR MAXMSGL(104857600)" ]
        notes :=
          lit "100 MiB QMGR max. Set per-queue MAXMSGL appropriately afterwards." } ]
  else if reason = 2051 then
    [ { scenario := lit "Re-enable PUT on the destination queue"
        commands := [ lit "ALTER QLOCAL('" ++ dest ++ lit "') PUT(ENABLED)" ]
        notes :=
          lit "Only if disabling PUT was unintentional. Confirm with the team that " ++
          lit "owns the queue first." } ]
  else if reason = 2053 then
    [ { scenario := lit "Drain the destination queue (consumer-side fix)"
        commands :=
          [ lit "DISPLAY QSTATUS('" ++ dest ++ lit "') IPPROCS OPPROCS LGETDATE LGETTIME" ]
        notes :=
          lit "If no consumer running (OPPROCS=0), start it. If consumer is slow, " ++
          lit "scale it. This is operational, not an MQSC fix." },
      { scenario := lit "Increase MAXDEPTH if it was undersized"
        commands := [ lit "ALTER QLOCAL('" ++ dest ++ lit "') MAXDEPTH(50000)" ]
        notes :=
          lit "Use sparingly — large MAXDEPTH masks consumer-throughput problems." } ]
  else if reason = 2079 then
    [ { scenario := lit "Fix consumer buffer sizing or accept truncation explicitly"
        commands :=
          [ lit "# Application change — see MQGET with MQGMO_ACCEPT_TRUNCATED_MSG." ]
        notes :=
          lit "This reason means truncation succeeded but flagged. Either size the " ++
          lit "buffer properly or remove the MQGMO_FAIL_IF_QUIESCING / accept flag." } ]
  else []

/-- The table of `_root_cause_for_reason`. -/
def baseCause (reason : Int) : PyStr :=
  if reason = 2035 then
    lit "Putter lacked authority on the destination queue (NOT_AUTHORIZED)."
  else if reason = 2080 then
    lit "Receiving application supplied a buffer smaller than the message and " ++
    lit "did not accept truncation, so the message was rerouted to the DLQ."
  else if reason = 2030 then
    lit "Message exceeded the destination queue's MAXMSGL."
  else if reason = 2051 then
    lit "Destination queue had PUT(DISABLED) when the message arrived."
  else if reason = 2053 then
    lit "Destination queue was at MAXDEPTH (Q_FULL) when the message arrived."
  else if reason = 2079 then
    lit "Receiving application accepted a truncated message — likely a buffer " ++
    lit "sizing or schema mismatch on the consumer."
  else lit "DLQ messages with reason " ++ PyInt.toStr reason ++ lit "."

/-- `_root_cause_for_reason` -/
def rootCauseForReason (reason : Int) (topDest topApps : PyStr) : PyStr :=
  joinStr " "
    ([baseCause reason] ++
      (if topDest.isEmpty then [] else [lit "Top destinations: " ++ topDest ++ lit "."]) ++
      (if topApps.isEmpty then [] else [lit "Top putting apps: " ++ topApps ++ lit "."]))

/-- `dest` in `_fix_steps_for_reason`. -/
def fixDestination (topDest : List (PyStr × Nat)) : PyStr :=
  match topDest with
  | [] => lit "<destination>"
  | (name, _) :: _ => if name.isEmpty then lit "<destination>" else name

/-- `_fix_steps_for_reason` -/
def fixStepsForReason (reason : Int) (topDest : List (PyStr × Nat)) : List PyStr :=
  let dest := fixDestination topDest
  if reason = 2035 then
    [ lit "DISPLAY AUTHREC OBJTYPE(QUEUE) PROFILE('" ++ dest ++ lit "')",
      lit "DISPLAY QMGR CONNAUTH" ]
  else if reason = 2080 then
    [ lit "DISPLAY QUEUE('" ++ dest ++ lit "') MAXMSGL", lit "DISPLAY CHANNEL(*) MAXMSGL" ]
  else if reason = 2030 then
    [ lit "DISPLAY QUEUE('" ++ dest ++ lit "') MAXMSGL", lit "DISPLAY QMGR MAXMSGL" ]
  else if reason = 2051 then
    [ lit "DISPLAY QUEUE('" ++ dest ++ lit "') PUT GET",
      lit "DISPLAY QSTATUS('" ++ dest ++ lit "') ALL" ]
  else if reason = 2053 then
    [ lit "DISPLAY QUEUE('" ++ dest ++ lit "') CURDEPTH MAXDEPTH",
      lit "DISPLAY QSTATUS('" ++ dest ++ lit "') ALL" ]
  else if reason = 2079 then [ lit "DISPLAY QUEUE('" ++ dest ++ lit "') MAXMSGL" ]
  else [ lit "DISPLAY QUEUE('" ++ dest ++ lit "') ALL" ]

/-- `dest_counts` -/
def destCounts (headers : List Row) : OrderedDict PyStr Nat :=
  counter (headers.map fun h => (h.getOr "dest_q_name" (.str [])).toStr)

/-- `_finding_for_reason` -/
def findingForReason (registry : KCRegistry) (mqVersion : Option PyStr)
    (queueName : PyStr) (reason : Int) (group : List Row) : RCSFinding :=
  let refs := registry.lookupReason reason mqVersion
  let dests := destCounts group
  let apps := counter (group.map fun h => (h.getOr "put_application_name" (.str [])).toStr)
  let topDestName :=
    match mostCommon dests 1 with
    | [] => lit "<destination>"
    | (name, _) :: _ => name
  { issue := lit "DLQ contains " ++ natStr group.length ++ lit " message(s) with reason " ++
      PyInt.toStr reason
    severity := severityOf reason
    reasonCode := some reason
    rootCause := rootCauseForReason reason (topThree dests) (topThree apps)
    fixSteps := fixStepsForReason reason (mostCommon dests 1)
    verifyCommands := [ lit "DISPLAY QUEUE('" ++ queueName ++ lit "') CURDEPTH" ]
    docRefs := refs
    confidence := if refs = [] then lit "Medium" else lit "High"
    evidence :=
      [ (lit "reason_code", PyInt.toStr reason), (lit "count", natStr group.length),
        (lit "top_destinations", topThree dests), (lit "top_applications", topThree apps) ]
    remediationSteps := remediationForReason reason topDestName }

/-- `_finding_backout_loop` -/
def findingBackoutLoop (queueName : PyStr) (headers : List Row) : RCSFinding where
  issue := lit "DLQ contains " ++ natStr headers.length ++
    lit " message(s) with backout_count >= " ++ PyInt.toStr backoutThreshold
  severity := .high
  rootCause :=
    lit "Messages have repeatedly failed processing on the original queue and " ++
    lit "rolled back. This typically indicates a poison message — verify the " ++
    lit "BOTHRESH / BOQNAME settings on the source queue."
  fixSteps :=
    [ lit "DISPLAY QUEUE('" ++ queueName ++ lit "') BOTHRESH BOQNAME",
      lit "DISPLAY QUEUE(*) WHERE(BOTHRESH GT 0)" ]
  verifyCommands := [ lit "DISPLAY QUEUE('" ++ queueName ++ lit "') CURDEPTH" ]
  confidence := lit "Medium"
  evidence :=
    [ (lit "queue_name", queueName), (lit "high_backout_count", natStr headers.length),
      (lit "top_destinations", topThree (destCounts headers)) ]
  remediationSteps :=
    [ { scenario := lit "Configure source-queue backout handling"
        commands :=
          [ lit "ALTER QLOCAL('source.queue') BOTHRESH(5) BOQNAME('source.queue.BOQ')",
            lit "DEFINE QLOCAL('source.queue.BOQ') REPLACE" ]
        notes :=
          lit "Replace 'source.queue' with the queue producing poison messages. " ++
          lit "BOTHRESH=5 is conservative; tune to your retry policy. After this, " ++
          lit "MQ routes the poison to the BOQ instead of looping on the source." },
      { scenario := lit "Inspect poison message headers manually"
        commands :=
          [ lit "dmpmqmsg -m QM_NAME -i " ++ queueName ++
              lit " -f /tmp/poison.dump -k 0 -K 10" ]
        notes :=
          lit "Browse-only. Look for malformed payloads, schema drift, or auth tokens." } ]

section Matcher

variable (U : UnicodeData) (registry : KCRegistry) (mqVersion : Option PyStr)

/-- `int(h.get(key, 0) or 0)` -/
def headerInt (key : String) (h : Row) : Option Int :=
  ((h.getOr key (.int 0)).orElse (.int 0)).toInt U

/-- Every header with a number of it. -/
def withHeaderInt (key : String) (headers : List Row) : Option (List (Int × Row)) :=
  headers.mapM fun h => (headerInt U key h).map fun n => (n, h)

/-- `sorted(by_reason.items())` -/
def sortedGroups (keyed : List (Int × Row)) : List (Int × List Row) :=
  ((groupBy Prod.fst keyed).items.mergeSort fun p q => p.1 ≤ q.1).map
    fun p => (p.1, p.2.map Prod.snd)

/-- `queue_name` -/
def queueName (browse : BrowseDict) : PyStr :=
  (browse.cells.getOr "queue_name" (.str (lit "SYSTEM.DEAD.LETTER.QUEUE"))).toStr

/-- `queue_depth` -/
def queueDepth (browse : BrowseDict) : Option Int :=
  ((browse.cells.getOr "queue_depth" (.int 0)).orElse (.int 0)).toInt U

/-- `sample_size` -/
def sampleSize (browse : BrowseDict) : Option Int :=
  ((browse.cells.getOr "sample_size" (.int browse.headers.length)).orElse
    (.int browse.headers.length)).toInt U

/-- `match_dlq_findings` -/
def matchDlqFindings (browse : BrowseDict) : Option (List RCSFinding) := do
  let depth ← queueDepth U browse
  let sample ← sampleSize U browse
  if depth = 0 ∧ browse.headers = [] then return []
  let keyed ← withHeaderInt U "reason_code" browse.headers
  let backouts ← withHeaderInt U "backout_count" browse.headers
  let highBackout := (backouts.filter fun p => p.1 ≥ backoutThreshold).map Prod.snd
  return (if depth > 0 then [findingDlqDepth (queueName browse) depth sample] else []) ++
    ((sortedGroups keyed).filter fun p => p.1 ≠ 0).map
      (fun p => findingForReason registry mqVersion (queueName browse) p.1 p.2) ++
    (if highBackout = [] then [] else [findingBackoutLoop (queueName browse) highBackout])

/-- `reason` of a header whose reason code can be read. -/
def reasonOf (h : Row) : Int :=
  (headerInt U "reason_code" h).getD 0

/-- The backout count of a header whose count can be read. -/
def backoutOf (h : Row) : Int :=
  (headerInt U "backout_count" h).getD 0

/-- All the numbers that the matcher reads can be read. -/
structure Readable (browse : BrowseDict) : Prop where
  depth : (queueDepth U browse).isSome = true
  sample : (sampleSize U browse).isSome = true
  reasons : ∀ h ∈ browse.headers, (headerInt U "reason_code" h).isSome = true
  backouts : ∀ h ∈ browse.headers, (headerInt U "backout_count" h).isSome = true

/-- The headers with one reason code. -/
def withReason (headers : List Row) (reason : Int) : List Row :=
  headers.filter fun h => reasonOf U h = reason

/-- The findings of a browse whose numbers can be read. -/
def findingsOf (browse : BrowseDict) (depth sample : Int) : List RCSFinding :=
  (if depth > 0 then [findingDlqDepth (queueName browse) depth sample] else []) ++
    ((sortedGroups (browse.headers.map fun h => (reasonOf U h, h))).filter
      fun p => p.1 ≠ 0).map
        (fun p => findingForReason registry mqVersion (queueName browse) p.1 p.2) ++
    (if browse.headers.filter (fun h => backoutOf U h ≥ backoutThreshold) = [] then []
      else
        [findingBackoutLoop (queueName browse)
          (browse.headers.filter fun h => backoutOf U h ≥ backoutThreshold)])

/-- The headers are keyed as a whole or not at all. -/
theorem withHeaderInt_eq (key : String) (headers : List Row) :
    withHeaderInt U key headers =
      if ∀ h ∈ headers, (headerInt U key h).isSome = true then
        some (headers.map fun h => ((headerInt U key h).getD 0, h))
      else none := by
  induction headers with
  | nil =>
      rfl
  | cons h headers ih =>
      rw [withHeaderInt] at ih ⊢
      rw [List.mapM_cons, ih]
      cases hn : headerInt U key h with
      | none =>
          simp [hn]
      | some n =>
          by_cases hall : ∀ h ∈ headers, (headerInt U key h).isSome = true
          · rw [if_pos hall, if_pos (by simpa [hn] using hall)]
            simp [hn]
          · rw [if_neg hall, if_neg (by simpa [hn] using hall)]
            rfl

/-- The groups are the reason codes that occur, each with its headers. -/
theorem mem_sortedGroups_iff
    {headers : List Row} {reason : Int} {group : List Row} :
    (reason, group) ∈ sortedGroups (headers.map fun h => (reasonOf U h, h)) ↔
      (∃ h ∈ headers, reasonOf U h = reason) ∧ group = withReason U headers reason := by
  simp only [sortedGroups, List.mem_map, List.mem_mergeSort, Prod.exists, Prod.mk.injEq]
  constructor
  · rintro ⟨r, keyed, hmem, rfl, rfl⟩
    obtain ⟨⟨p, hp, hkey⟩, rfl⟩ := mem_items_groupBy.mp hmem
    obtain ⟨h, hh, rfl⟩ := List.mem_map.mp hp
    refine ⟨⟨h, hh, hkey⟩, ?_⟩
    simp [withReason, List.filter_map, Function.comp_def]
  · rintro ⟨⟨h, hh, hreason⟩, rfl⟩
    refine ⟨reason, _, mem_items_groupBy.mpr ⟨⟨(reasonOf U h, h), ?_, hreason⟩, rfl⟩, rfl, ?_⟩
    · exact List.mem_map_of_mem hh
    · simp [withReason, List.filter_map, Function.comp_def]

/-- A browse whose numbers can be read has findings. -/
theorem matchDlqFindings_of_readable
    {browse : BrowseDict} (h : Readable U browse) :
    matchDlqFindings U registry mqVersion browse =
      some (findingsOf U registry mqVersion browse
        ((queueDepth U browse).getD 0) ((sampleSize U browse).getD 0)) := by
  obtain ⟨depth, hdepth⟩ := Option.isSome_iff_exists.mp h.depth
  obtain ⟨sample, hsample⟩ := Option.isSome_iff_exists.mp h.sample
  unfold matchDlqFindings
  simp only [hdepth, hsample, Option.bind_eq_bind, Option.bind_some, Option.getD_some]
  by_cases hempty : depth = 0 ∧ browse.headers = []
  · have hnone : findingsOf U registry mqVersion browse depth sample = [] := by
      simp [findingsOf, hempty, sortedGroups, groupBy, OrderedDict.empty]
    rw [if_pos hempty, hnone]
    rfl
  · have hback : ((browse.headers.map fun h =>
          ((headerInt U "backout_count" h).getD 0, h)).filter
            fun p => p.1 ≥ backoutThreshold).map Prod.snd =
        browse.headers.filter fun h => backoutOf U h ≥ backoutThreshold := by
      simp [List.filter_map, Function.comp_def, backoutOf]
    rw [if_neg hempty, withHeaderInt_eq, if_pos h.reasons, withHeaderInt_eq,
      if_pos h.backouts]
    simp only [Option.bind_some, hback]
    rfl

/-- Without a number that it needs the matcher raises. -/
theorem readable_of_matchDlqFindings
    {browse : BrowseDict} {findings : List RCSFinding}
    (h : matchDlqFindings U registry mqVersion browse = some findings) :
    Readable U browse := by
  obtain ⟨depth, hdepth, h⟩ := Option.bind_eq_some_iff.mp h
  obtain ⟨sample, hsample, h⟩ := Option.bind_eq_some_iff.mp h
  have hcells : (queueDepth U browse).isSome = true ∧ (sampleSize U browse).isSome = true := by
    simp [hdepth, hsample]
  by_cases hempty : depth = 0 ∧ browse.headers = []
  · exact ⟨hcells.1, hcells.2, by simp [hempty.2], by simp [hempty.2]⟩
  · rw [if_neg hempty, withHeaderInt_eq, withHeaderInt_eq] at h
    by_cases hreasons : ∀ h ∈ browse.headers, (headerInt U "reason_code" h).isSome = true
    · by_cases hbackouts : ∀ h ∈ browse.headers, (headerInt U "backout_count" h).isSome = true
      · exact ⟨hcells.1, hcells.2, hreasons, hbackouts⟩
      · rw [if_pos hreasons, if_neg hbackouts] at h
        cases h
    · rw [if_neg hreasons] at h
      cases h

/-- `header_to_dict` -/
def headerToDict (h : Dlq.DLQHeader) : Row :=
  OrderedDict.ofList
    [ (lit "reason_code", .int h.reasonCode), (lit "feedback", .int h.feedback),
      (lit "put_application_name", .str h.putApplicationName),
      (lit "put_application_type", .str h.putApplicationType),
      (lit "put_date", .str h.putDate), (lit "put_time", .str h.putTime),
      (lit "dest_q_name", .str h.destQName), (lit "dest_q_mgr_name", .str h.destQMgrName),
      (lit "backout_count", .int h.backoutCount), (lit "body_length", .int h.bodyLength),
      (lit "msg_id_hash", .str h.msgIdHash) ]

end Matcher

end DeadLetter
end Rcs
end MqSentinel
