import AgentClaimNetwork.UploadSettlement
import AgentClaimNetwork.Delegation.Steering
import AgentClaimNetwork.Delegation.Runner
import AgentClaimNetwork.Session.TurnOutcome
import AgentClaimNetwork.CompactionSafety
import AgentClaimNetwork.Session.CompactionTranscript
import AgentClaimNetwork.Storage.Rotation
import AgentClaimNetwork.Storage.TornAppend
import AgentClaimNetwork.Tool.ReadCheckpoint
import AgentClaimNetwork.Tool.UniquePatch
import AgentClaimNetwork.Tool.PatchRefusal
import AgentClaimNetwork.Maintainer.DeliveryReplay
import AgentClaimNetwork.Maintainer.ResolutionRuns
import AgentClaimNetwork.Maintainer.SchedulerSafety
import AgentClaimNetwork.Maintainer.InboxContract
import AgentClaimNetwork.Agent.LocalInboxLease
import AgentClaimNetwork.Agent.InboxEffectPlanning
import AgentClaimNetwork.Agent.InboxEffectConvergence
import AgentClaimNetwork.Session.TurnCommit
import AgentClaimNetwork.Supervisor.TakeoverSafety
import AgentClaimNetwork.Supervisor.JobAcceptance
import AgentClaimNetwork.Dream.CommitReplay
import AgentClaimNetwork.Dream.DraftSafety
import AgentClaimNetwork.Auth.Revocation
import AgentClaimNetwork.Api.SseChunking
import AgentClaimNetwork.Api.WebSocketRetries
import AgentClaimNetwork.Api.ProviderProgressSafety
import AgentClaimNetwork.Session.BackgroundDeliverySafety
import AgentClaimNetwork.Agent.PlanStaleness
import AgentClaimNetwork.ConsolidationReadiness
import AgentClaimNetwork.Session.SummaryBoundary
import AgentClaimNetwork.Agent.ClaimEditRuns
import AgentClaimNetwork.Storage.RuntimeMigration
import AgentClaimNetwork.SessionSearch.RepairRuns
import AgentClaimNetwork.Session.CleanupRuns
import AgentClaimNetwork.Router.VectorTargetPasses
import AgentClaimNetwork.Session.CurrentUserRequest
import AgentClaimNetwork.Tool.OutputPages
import AgentClaimNetwork.Api.ChatStreamSafety
import AgentClaimNetwork.Session.FileWorkset
import AgentClaimNetwork.Session.RecoveredContext
import AgentClaimNetwork.Api.RequestPrefix
import AgentClaimNetwork.Api.AnthropicStreamSafety
import AgentClaimNetwork.MemoryBatch
import AgentClaimNetwork.Mcp.ToolNames
