import MqSentinel.RegexEngine
import MqSentinel.RegexSubstitution
import MqSentinel.PyBytes
import MqSentinel.Inventory
import MqSentinel.DlqHeaderProjection
import MqSentinel.HashChain
import MqSentinel.JsonValues
import MqSentinel.AuditLog
import MqSentinel.AuditRuns
import MqSentinel.AccessControl
import MqSentinel.AuditTamperEvidence
import MqSentinel.EffectTraces
import MqSentinel.Dispatcher
import MqSentinel.DispatchAudit
import MqSentinel.DispatchMediation
import MqSentinel.CommandAllowlist
import MqSentinel.MqscParser
import MqSentinel.MqscAttributes
import MqSentinel.MqscLayout
import MqSentinel.MqscQuotedText
import MqSentinel.SanitizerPipeline
import MqSentinel.DeadLetterLayout
import MqSentinel.SanitizerOutput
import MqSentinel.RateLimiter
import MqSentinel.RawRows
import MqSentinel.RcsEngine
import MqSentinel.ChannelMatcher
import MqSentinel.ClusterMatcher
import MqSentinel.NativeHaMatcher
import MqSentinel.ZosMatcher
import MqSentinel.SuggestedCommands
import MqSentinel.HealthReport
import MqSentinel.HealthChecks
import MqSentinel.HttpTransport
import MqSentinel.MiqmMatcher
import MqSentinel.MultiInstanceDiagnosis
import MqSentinel.RegexGreedy
import MqSentinel.RegexPositions
import MqSentinel.UrlRedaction
import MqSentinel.UrlAuthority
import MqSentinel.InjectionCores
import MqSentinel.MarkerPasses
import MqSentinel.InDoubtChannels
import MqSentinel.RegexAnchors
import MqSentinel.RegexPasses
import MqSentinel.ShellAllowlist
import MqSentinel.PymqiConnection
import MqSentinel.RdqmMatcher
import MqSentinel.RdqmParsers
import MqSentinel.TopologyDetection
import MqSentinel.RdqmStatusFields
import MqSentinel.DrbdSections
import MqSentinel.CrmQuorum
import MqSentinel.KcRegistry
import MqSentinel.AuditCrash
import MqSentinel.Citations
import MqSentinel.ScrubbedCores
import MqSentinel.DlqGrouping
import MqSentinel.MarkerLeaks
import MqSentinel.NativeHaDiagnosis
import MqSentinel.DrbdRendering
import MqSentinel.HostCommands
import MqSentinel.KeyCache
import MqSentinel.RepositoryCheck
import MqSentinel.DrbdDiskFaults
import MqSentinel.InstanceListing
import MqSentinel.QuotedNames
import MqSentinel.RegexScanning
import MqSentinel.FaultReading
import MqSentinel.FailedActions
import MqSentinel.FaultyChannels
import MqSentinel.RowOrder
import MqSentinel.DestinationNames
import MqSentinel.DetectionSafety
import MqSentinel.WorseReadings
import MqSentinel.AuditVerdicts
import MqSentinel.LoopRules
import MqSentinel.MqscIndexLoops
import MqSentinel.MqscTrailingSpace
import MqSentinel.EscapedReplies
import MqSentinel.FindingTitles
import MqSentinel.ZosDiagnosis
import MqSentinel.RdqmEvidence
import MqSentinel.ConnectorSessions
import MqSentinel.SessionRefinement
import MqSentinel.SessionDispatch
import MqSentinel.CallThreads
import MqSentinel.Interleavings
import MqSentinel.CallCourses
import MqSentinel.ConcurrentCalls
import MqSentinel.FindingKeys
import MqSentinel.ReplyEnvelopes
import MqSentinel.Interpretations
import MqSentinel.LiveConnector
import MqSentinel.FilePaths
import MqSentinel.FilesystemSecrets
import MqSentinel.TokenVerification
