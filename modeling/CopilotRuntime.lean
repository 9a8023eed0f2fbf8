import CopilotRuntime.AccountMerge.Outcome
import CopilotRuntime.Archive.ImportLaws
import CopilotRuntime.Artifacts.PublishedEvents
import CopilotRuntime.Audit.ExportRoundTrip
import CopilotRuntime.Budgets.Handback
import CopilotRuntime.Budgets.HardCap
import CopilotRuntime.CanonicalJson.Agreement
import CopilotRuntime.Conversations.ListingLaws
import CopilotRuntime.Desktop.Undo
import CopilotRuntime.Effects.AcquiredClaims
import CopilotRuntime.Effects.ApprovalCommands
import CopilotRuntime.Effects.ClaimReadiness
import CopilotRuntime.Effects.DispatchSafety
import CopilotRuntime.Effects.DispatchSettles
import CopilotRuntime.Effects.HeldRows
import CopilotRuntime.Effects.RetryScope
import CopilotRuntime.Effects.Standing
import CopilotRuntime.EventLog.LogLaws
import CopilotRuntime.EventLog.SealLaws
import CopilotRuntime.Invitations.Runs
import CopilotRuntime.Lockout.Runs
import CopilotRuntime.MagicLinks.SignIn
import CopilotRuntime.Mfa.SingleUse
import CopilotRuntime.ModelInvocation.Closing
import CopilotRuntime.Projects.ListingLaws
import CopilotRuntime.Projects.OwnershipRuns
import CopilotRuntime.Queue.Leases
import CopilotRuntime.Routines.Invariants
import CopilotRuntime.SiemExport.PumpLaws
import CopilotRuntime.Siwe.SingleUse
import CopilotRuntime.TaskPolicy.ControllerLaws
import CopilotRuntime.TaskPolicy.Rebuilding
import CopilotRuntime.Todos.ExactlyOnce
import CopilotRuntime.Todos.NextOccurrence
import CopilotRuntime.ToolBudgets.HardCaps
import CopilotRuntime.ToolProgram.Compiling
import CopilotRuntime.ToolProgram.Reporting
import CopilotRuntime.Transcript.Answers
import CopilotRuntime.Webhooks.Updates
import CopilotRuntime.Workspace.FileOverlayLaws
import CopilotRuntime.Workspace.OverlayLimits
