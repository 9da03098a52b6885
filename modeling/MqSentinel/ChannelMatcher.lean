import MqSentinel.RcsEngine
import MqSentinel.RawRows
import MqSentinel.RegexSubstitution

/-!
# Channel failures

`match_channel_failures` reads channel status rows and the tail of the error log.  A row
gives at most one finding.  The message codes of the log are collected in a set, and a
set is iterated in an order of its own: `SetOrder` is any such order.
-/

namespace MqSentinel
namespace Rcs

open Regex CodePoint

/-- The iteration order of the sets that are built from lists of strings. -/
structure SetOrder where
  iterate : List PyStr → List PyStr
  iterate_perm : ∀ xs, (iterate xs).Perm xs.dedup

/-- The matches of an expression, as `finditer` yields them. -/
def hits (r : Rx CodePoint) (text : PyStr) : List PyStr :=
  (tokens r text).filterMap fun
    | .lit _ => none
    | .hit m => some m

namespace Channels

/-- The argument of the matcher. -/
structure RawData where
  channels : List Row
  errorLogTail : PyStr

section Matcher

variable (U : UnicodeData)

/-- `_AMQ_CODE`: `\bAMQ\d{4}[A-Z]?\b` -/
def amqCode : Rx CodePoint :=
  Rx.seq (Rx.edge U.isWord)
    (Rx.seq (Rx.word ((lit "AMQ").map one ++ List.replicate 4 U.isdecimal))
      (Rx.seq (Rx.opt (Rx.cls isUpperAscii)) (Rx.edge U.isWord)))

/-- `_extract_amq_codes` -/
def extractAmqCodes (text : PyStr) : List PyStr :=
  (hits (amqCode U) text).map fun m => m.rdropWhile fun c => c ∈ lit "EWIS"

/-- `_bad_chstatus_status` -/
def badChstatusStatus (status : PyStr) : Bool :=
  U.upperStr status ∈
    [lit "RETRYING", lit "STOPPED", lit "PAUSED", lit "INDOUBT", lit "INACTIVE_FAILED"]

variable (registry : KCRegistry) (mqVersion : Option PyStr)

/-- `_finding_2035` -/
def finding2035 (name : PyStr) (row : Row) : RCSFinding where
  issue := lit "Channel " ++ name ++ lit " returned MQRC 2035 (NOT_AUTHORIZED)"
  severity := .high
  reasonCode := some 2035
  rootCause :=
    lit "The connecting principal failed authorization. Common causes: " ++
    lit "a CHLAUTH BLOCKUSER rule blocked the user, the resolved MCAUSER " ++
    lit "lacks +connect/+inq on the QM, or CONNAUTH credentials failed."
  fixSteps :=
    [ lit "DISPLAY CHLAUTH('" ++ name ++ lit "') MATCH(RUNCHECK) ALL",
      lit "DISPLAY CHSTATUS('" ++ name ++ lit "') ALL",
      lit "DISPLAY QMGR CONNAUTH",
      lit "DISPLAY AUTHINFO(*) ALL" ]
  verifyCommands :=
    [ lit "DISPLAY CHSTATUS('" ++ name ++ lit "') CURRENT",
      lit "DISPLAY QMSTATUS" ]
  docRefs := registry.lookupReason 2035 mqVersion
  confidence := lit "High"
  evidence :=
    [ (lit "channel", name),
      (lit "status", (row.getOr "STATUS" (.str [])).toStr),
      (lit "rqmname", (row.getOr "RQMNAME" (.str [])).toStr) ]
  remediationSteps :=
    [ { scenario := lit "CHLAUTH BLOCKUSER rule incorrectly matching"
        commands :=
          [ lit "SET CHLAUTH('" ++ name ++
              lit "') TYPE(BLOCKUSER) USERLIST('badactor') ACTION(REPLACE)" ]
        notes :=
          lit "Replace the USERLIST with only the principals you actually want to block." },
      { scenario := lit "MCAUSER lacks queue manager / queue permissions"
        commands :=
          [ lit "SET AUTHREC PRINCIPAL('mcauser') OBJTYPE(QMGR) AUTHADD(CONNECT, INQ)",
            lit "SET AUTHREC PROFILE('destination.queue') OBJTYPE(QUEUE) " ++
              lit "PRINCIPAL('mcauser') AUTHADD(PUT, INQ, BROWSE)" ]
        notes :=
          lit "Replace 'mcauser' with the value returned by DISPLAY CHSTATUS MCAUSER, " ++
          lit "and 'destination.queue' with the target." },
      { scenario := lit "CONNAUTH credentials rejected (password / OS user)"
        commands :=
          [ lit "ALTER AUTHINFO('SYSTEM.DEFAULT.AUTHINFO.IDPWOS') " ++
              lit "AUTHTYPE(IDPWOS) ADOPTCTX(YES) CHCKCLNT(REQDADM)",
            lit "REFRESH SECURITY TYPE(CONNAUTH)" ]
        notes :=
          lit "Then retry the client connection. Watch AMQERR for AMQ5540/AMQ5541." } ]

/-- `_finding_conn_error` -/
def findingConnError (name : PyStr) (row : Row) (reason : Int) : RCSFinding where
  issue := lit "Channel " ++ name ++ lit " connection error (reason " ++
    PyInt.toStr reason ++ lit ")"
  severity := .high
  reasonCode := some reason
  amqCode := some (lit "AMQ9202")
  rootCause :=
    lit "Network or TLS handshake failure to the remote endpoint. " ++
    lit "Verify CONNAME resolves, the listener is running, and the TLS " ++
    lit "negotiation completes (CipherSpec/CipherSuite and certificates)."
  fixSteps :=
    [ lit "DISPLAY CHSTATUS('" ++ name ++ lit "') ALL",
      lit "DISPLAY CHANNEL('" ++ name ++ lit "') CONNAME XMITQ SSLCIPH",
      lit "DISPLAY LSSTATUS(*) ALL",
      lit "PING CHANNEL(" ++ name ++ lit ")" ]
  verifyCommands := [ lit "DISPLAY CHSTATUS('" ++ name ++ lit "') CURRENT" ]
  docRefs := registry.lookupAmq U (lit "AMQ9202") mqVersion
  confidence := lit "High"
  evidence :=
    [ (lit "channel", name), (lit "status", (row.getOr "STATUS" (.str [])).toStr) ]
  remediationSteps :=
    [ { scenario := lit "Remote listener not running"
        commands := [ lit "START LISTENER(SYSTEM.DEFAULT.LISTENER.TCP)" ]
        notes := lit "Run on the REMOTE QM. Replace listener name as configured." },
      { scenario := lit "Channel needs restart after network repair"
        commands := [ lit "START CHANNEL('" ++ name ++ lit "')" ]
        notes :=
          lit "Only after confirming connectivity to CONNAME on the channel's port." },
      { scenario := lit "TLS CipherSpec mismatch"
        commands :=
          [ lit "ALTER CHANNEL('" ++ name ++
              lit "') CHLTYPE(SDR) SSLCIPH('ANY_TLS13_OR_HIGHER')",
            lit "REFRESH SECURITY TYPE(SSL)",
            lit "START CHANNEL('" ++ name ++ lit "')" ]
        notes :=
          lit "Both ends of the channel must use compatible CipherSpecs. " ++
          lit "ANY_TLS13_OR_HIGHER is a safe modern default; pin a specific suite " ++
          lit "if your policy requires." } ]

/-- `_finding_indoubt` -/
def findingIndoubt (name : PyStr) : RCSFinding where
  issue := lit "Channel " ++ name ++ lit " is in-doubt"
  severity := .critical
  rootCause :=
    lit "An in-doubt channel has uncommitted batches that cannot resolve " ++
    lit "automatically. Manual resolution is required after confirming the " ++
    lit "remote QM state."
  fixSteps := [ lit "DISPLAY CHSTATUS('" ++ name ++ lit "') ALL CURLUWID LSTLUWID" ]
  verifyCommands := [ lit "DISPLAY CHSTATUS('" ++ name ++ lit "') CURRENT" ]
  confidence := lit "Medium"
  evidence := [ (lit "channel", name), (lit "status", lit "INDOUBT") ]
  remediationSteps :=
    [ { scenario := lit "Resolve after confirming remote QM batch state"
        commands := [ lit "RESOLVE CHANNEL('" ++ name ++ lit "') ACTION(COMMIT)" ]
        notes :=
          lit "⚠️ DANGER: Only after MANUALLY confirming on the remote QM " ++
          lit "whether the in-flight batch was committed. Choosing the wrong " ++
          lit "ACTION causes duplicate or lost messages. ACTION(BACKOUT) is " ++
          lit "the alternative. Engage your messaging team before running." } ]

/-- `_finding_generic_bad_status` -/
def findingGenericBadStatus (name status : PyStr) : RCSFinding where
  issue := lit "Channel " ++ name ++ lit " status is " ++ status
  severity := .medium
  rootCause :=
    lit "Channel reports status " ++ status ++ lit ". Inspect retry counters, " ++
    lit "last error code, and the AMQERR log for context."
  fixSteps :=
    [ lit "DISPLAY CHSTATUS('" ++ name ++ lit "') ALL",
      lit "DISPLAY CHANNEL('" ++ name ++ lit "') ALL" ]
  verifyCommands := [ lit "DISPLAY CHSTATUS('" ++ name ++ lit "') CURRENT" ]
  confidence := lit "Medium"
  evidence := [ (lit "channel", name), (lit "status", status) ]
  remediationSteps :=
    [ { scenario := lit "Restart channel after addressing the underlying cause"
        commands :=
          [ lit "STOP CHANNEL('" ++ name ++ lit "') MODE(QUIESCE)",
            lit "START CHANNEL('" ++ name ++ lit "')" ]
        notes :=
          lit "Use STOP MODE(QUIESCE) first to allow in-flight batches to complete. " ++
          lit "Only restart after confirming why it entered this state — restarting " ++
          lit "without root-cause fix usually reproduces the problem." } ]

/-- `name` in the loop over the channels. -/
def channelName (row : Row) : PyStr :=
  (((row.get "CHANNEL").orElse (row.get "CHLNAME")).orElse (.str (lit "<unknown>"))).toStr

/-- `status` in the loop over the channels. -/
def channelStatus (row : Row) : PyStr :=
  (((row.get "STATUS").orElse (row.get "CHSTATUS")).orElse (.str [])).toStr

/-- `reason` in the loop over the channels. -/
def channelReason (row : Row) : Int :=
  ((((row.get "REASON").orElse (row.get "LSTMSGRC")).orElse (.int 0)).toInt U).getD 0

/-- `in_doubt` in the loop over the channels. -/
def inDoubt (row : Row) : Bool :=
  U.upperStr (channelStatus row) == lit "INDOUBT" ||
    U.upperStr (row.getOr "INDOUBT" (.str [])).toStr == lit "YES"

/-- The body of the loop over the channels. -/
def rowFinding (row : Row) : Option RCSFinding :=
  let name := channelName row
  let status := channelStatus row
  let reason := channelReason U row
  if !badChstatusStatus U status && reason == 0 && !inDoubt U row then none
  else if reason = 2035 then some (finding2035 registry mqVersion name row)
  else if reason = 2009 ∨ reason = 2059 then
    some (findingConnError U registry mqVersion name row reason)
  else if inDoubt U row then some (findingIndoubt name)
  else if badChstatusStatus U status then some (findingGenericBadStatus name status)
  else none

/-- The finding for a message code of the log. -/
def amqFinding (amq : PyStr) (refs : List KCDocRef) : RCSFinding where
  issue := lit "Error log contains " ++ amq
  severity := .high
  amqCode := some amq
  rootCause :=
    lit "AMQERR log contains " ++ amq ++ lit ". See the IBM Knowledge Center page " ++
    lit "for the documented cause and resolution."
  fixSteps :=
    [ lit "DISPLAY CHSTATUS(*) WHERE(LSTMSGRC NE 0)",
      lit "DISPLAY LSSTATUS(*) ALL" ]
  verifyCommands := [ lit "DISPLAY QMSTATUS" ]
  docRefs := refs
  confidence := lit "High"
  evidence := [ (lit "amq_code", amq) ]

/-- The body of the loop over the message codes. -/
def codeFinding (amq : PyStr) : Option RCSFinding :=
  match registry.lookupAmq U amq mqVersion with
  | [] => none
  | refs => some (amqFinding amq refs)

/-- `match_channel_failures` -/
def matchChannelFailures (order : SetOrder) (raw : RawData) : List RCSFinding :=
  raw.channels.filterMap (rowFinding U registry mqVersion) ++
    (order.iterate (extractAmqCodes U raw.errorLogTail)).filterMap
      (codeFinding U registry mqVersion)

variable {U registry mqVersion} {row : Row} {amq : PyStr} {f : RCSFinding}

/-- The findings about a row, in the order in which they are tried. -/
theorem rowFinding_cases
    (h : rowFinding U registry mqVersion row = some f) :
    f = finding2035 registry mqVersion (channelName row) row ∨
      f = findingConnError U registry mqVersion (channelName row) row (channelReason U row) ∨
      ((inDoubt U row = true ∧ ¬ channelReason U row = 2035 ∧
        ¬ (channelReason U row = 2009 ∨ channelReason U row = 2059)) ∧
          f = findingIndoubt (channelName row)) ∨
      f = findingGenericBadStatus (channelName row) (channelStatus row) := by
  simp only [rowFinding] at h
  split_ifs at h with hhealthy h2035 hconn hdoubt hbad
  · exact Or.inl (Option.some_inj.mp h).symm
  · exact Or.inr (Or.inl (Option.some_inj.mp h).symm)
  · exact Or.inr (Or.inr (Or.inl ⟨⟨hdoubt, h2035, hconn⟩, (Option.some_inj.mp h).symm⟩))
  · exact Or.inr (Or.inr (Or.inr (Option.some_inj.mp h).symm))

theorem eq_of_codeFinding
    (h : codeFinding U registry mqVersion amq = some f) :
    f = amqFinding amq (registry.lookupAmq U amq mqVersion) := by
  unfold codeFinding at h
  split at h
  · cases h
  · exact (Option.some_inj.mp h).symm

end Matcher

end Channels
end Rcs
end MqSentinel
