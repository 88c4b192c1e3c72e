import HassNode.ActorRoundTrip
import HassNode.ActorSigning
import HassNode.ApprovalAgreement
import HassNode.ApprovalHook
import HassNode.ApprovalHookIntegrity
import HassNode.ApprovalPolicy
import HassNode.ApprovalPreflight
import HassNode.Authz
import HassNode.BackupChain
import HassNode.BackupDiff
import HassNode.BackupHistory
import HassNode.BackupResolve
import HassNode.BackupRuns
import HassNode.BackupStore
import HassNode.Bootstrap
import HassNode.BootstrapOneShot
import HassNode.CallerAttribution
import HassNode.CallerUrls
import HassNode.Canonical
import HassNode.CanonicalInjective
import HassNode.ChatEvents
import HassNode.ChatRelay
import HassNode.ChatTurn
import HassNode.ChatWorld
import HassNode.CodeScrubbing
import HassNode.Commands.ExecArgv
import HassNode.Commands.ExecPolicy
import HassNode.Commands.ExecStore
import HassNode.Commands.Filters
import HassNode.Commands.FsMutations
import HassNode.Commands.FsPatch
import HassNode.Commands.FsRead
import HassNode.Commands.HaConfig
import HassNode.Commands.HaLifecycle
import HassNode.Commands.HaReads
import HassNode.Commands.HaServices
import HassNode.Commands.Masking
import HassNode.Commands.Params
import HassNode.Commands.SystemRun
import HassNode.CompactRoundTrip
import HassNode.CompletenessFlag
import HassNode.ConfigMutation
import HassNode.DeniedServices
import HassNode.DiffRendering
import HassNode.DiffRoundTrip
import HassNode.DiffText
import HassNode.Dispatcher
import HassNode.EffectPolicy
import HassNode.EndedTurns
import HassNode.ExecCompareAndSwap
import HassNode.ExecDocument
import HassNode.ExecPlan
import HassNode.ExecReplace
import HassNode.FlightOutcomes
import HassNode.FlightSlots
import HassNode.FlightSources
import HassNode.FrameIntegrity
import HassNode.GatedCall
import HassNode.GatewayWs
import HassNode.GrantLifetime
import HassNode.HaClient
import HassNode.HouseholdGate
import HassNode.IndentRoundTrip
import HassNode.InvokeAnswer
import HassNode.Js.Utf16
import HassNode.JsonLayout
import HassNode.JsonRoundTrip
import HassNode.Library.Backing
import HassNode.Library.Binary64
import HassNode.Library.CanonicalOrder
import HassNode.Library.ChunkedRead
import HassNode.Library.Clock
import HassNode.Library.DirTree
import HassNode.Library.EditScript
import HassNode.Library.ExpiringTable
import HassNode.Library.Glob
import HassNode.Library.HashChain
import HassNode.Library.Interaction
import HassNode.Library.Interleaving
import HassNode.Library.LatestEntry
import HassNode.Library.LogIndex
import HassNode.Library.MarkerRemoval
import HassNode.Library.OrderedDict
import HassNode.Library.Printer
import HassNode.Library.Redaction
import HassNode.Library.RelyGuarantee
import HassNode.Library.SpanLog
import HassNode.Library.TaggedName
import HassNode.Library.TextLines
import HassNode.Library.Uri
import HassNode.MaskedOutcome
import HassNode.MutationGate
import HassNode.NodeApproval
import HassNode.NumberLayout
import HassNode.NumberText
import HassNode.ParamsShape
import HassNode.PatchApplies
import HassNode.PatchLines
import HassNode.PatchReading
import HassNode.PolicyOrder
import HassNode.PreflightKeys
import HassNode.PreflightMirror
import HassNode.Py.Base64
import HassNode.Py.JsonDump
import HassNode.Py.JsonText
import HassNode.Py.PurePath
import HassNode.Py.Str
import HassNode.Py.Text
import HassNode.Py.Value
import HassNode.RangedReads
import HassNode.Reconnect
import HassNode.ReconnectSurvival
import HassNode.RestoreAtTime
import HassNode.RolePolicy
import HassNode.RunIsolation
import HassNode.SafeFd
import HassNode.SafeFdContainment
import HassNode.SingleFlight
import HassNode.StaticRefusals
import HassNode.StatusLines
import HassNode.StatusSeparator
import HassNode.SurrogatePairs
import HassNode.TokenRotation
import HassNode.ToolFrames
import HassNode.TrashPurge
import HassNode.TurnAuthz
import HassNode.TurnFlights
import HassNode.TurnFrame
import HassNode.TurnIsolation
import HassNode.TurnRelease
import HassNode.VisionPrompt
import HassNode.FileGate
