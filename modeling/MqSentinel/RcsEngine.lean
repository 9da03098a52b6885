import MqSentinel.OrderedDict
import MqSentinel.PyText

/-!
# Findings and the documents they cite

`RCSFinding` is what every matcher returns.  `KCRegistry` maps reason codes, message
codes and topics to the pages of the IBM Knowledge Center; a page whose host is not
on the allowlist cannot be built.

The execution policy that `as_dict` adds to a finding is the same text for all of
them and is left out.
-/

namespace MqSentinel
namespace Rcs

inductive Severity where
  | critical
  | high
  | medium
  | low
  | info
deriving DecidableEq

/-- `Severity.value` -/
def Severity.value : Severity → PyStr
  | critical => lit "CRITICAL"
  | high => lit "HIGH"
  | medium => lit "MEDIUM"
  | low => lit "LOW"
  | info => lit "INFO"

/-- `_ALLOWED_HOSTS` of the registry. -/
def allowedHosts : List PyStr :=
  [lit "www.ibm.com"]

/-- A page of the Knowledge Center, on an allowed host. -/
structure KCDocRef where
  title : PyStr
  url : PyStr
  mqVersions : List PyStr
  hosted : allowedHosts.any (fun h => decide (lit "://" ++ h ++ lit "/" <:+: url)) = true
deriving DecidableEq

/-- A fix recipe, as text. -/
structure RemediationScenario where
  scenario : PyStr
  commands : List PyStr
  notes : PyStr := []
deriving DecidableEq

structure RCSFinding where
  issue : PyStr
  severity : Severity
  reasonCode : Option Int := none
  amqCode : Option PyStr := none
  rootCause : PyStr
  fixSteps : List PyStr
  verifyCommands : List PyStr
  docRefs : List KCDocRef := []
  confidence : PyStr
  evidence : List (PyStr × PyStr) := []
  remediationSteps : List RemediationScenario := []
deriving DecidableEq

/-- The commands of a finding that are promised to be read-only. -/
def RCSFinding.commands (f : RCSFinding) : List PyStr :=
  f.fixSteps ++ f.verifyCommands

/-- The tables of the registry. -/
structure KCRegistry where
  byReason : OrderedDict Int (List KCDocRef)
  byAmq : OrderedDict PyStr (List KCDocRef)
  topics : OrderedDict PyStr (List KCDocRef)

/-- `_filter_version`: the pages for the version, or all of them when there are none. -/
def filterVersion (refs : List KCDocRef) (version : Option PyStr) : List KCDocRef :=
  match version with
  | none => refs
  | some [] => refs
  | some v =>
      let majorMinor := List.intercalate [ch '.'] ((v.splitOn (ch '.')).take 2)
      match refs.filter fun r => majorMinor ∈ r.mqVersions with
      | [] => refs
      | kept => kept

namespace KCRegistry

/-- `lookup_reason` -/
def lookupReason (registry : KCRegistry) (reason : Int) (mqVersion : Option PyStr) :
    List KCDocRef :=
  filterVersion ((registry.byReason.get? reason).getD []) mqVersion

/-- `lookup_amq` -/
def lookupAmq (U : UnicodeData) (registry : KCRegistry) (code : PyStr)
    (mqVersion : Option PyStr) : List KCDocRef :=
  filterVersion ((registry.byAmq.get? (U.upperStr code)).getD []) mqVersion

/-- `lookup_topic` -/
def lookupTopic (registry : KCRegistry) (topic : PyStr) (mqVersion : Option PyStr) :
    List KCDocRef :=
  filterVersion ((registry.topics.get? topic).getD []) mqVersion

end KCRegistry

end Rcs
end MqSentinel
