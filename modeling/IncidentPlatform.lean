import IncidentPlatform.Properties.TerminalStatus
import IncidentPlatform.Properties.RunCeiling
import IncidentPlatform.Properties.InFlight
import IncidentPlatform.Properties.LeaderGate
import IncidentPlatform.Properties.Offsets
import IncidentPlatform.Properties.Supervision
import IncidentPlatform.Properties.ScheduledReplays
import IncidentPlatform.Properties.RelayOrder
import IncidentPlatform.Properties.CrashSweep
import IncidentPlatform.Properties.Backstop
import IncidentPlatform.Properties.CancelledChains
import IncidentPlatform.Properties.PauseBinding
import IncidentPlatform.Properties.PostCommitHooks
import IncidentPlatform.Properties.JobReads
import IncidentPlatform.Properties.IdempotencyKeys
import IncidentPlatform.Properties.DlqFences
import IncidentPlatform.Properties.Announcements
import IncidentPlatform.Properties.BreakerResets
import IncidentPlatform.Properties.IdempotentCreation
import IncidentPlatform.Properties.LiveProgress
import IncidentPlatform.Properties.StepCursor
import IncidentPlatform.Properties.ConcurrentReports
import IncidentPlatform.Properties.EventRecords
import IncidentPlatform.Properties.PublishableEvents
import IncidentPlatform.Properties.LastResort
import IncidentPlatform.Properties.ToolEffects
import IncidentPlatform.Properties.ArmedReplays
import IncidentPlatform.Properties.StalePage
import IncidentPlatform.Properties.ResumeRotation
import IncidentPlatform.Properties.ViewCounts
import IncidentPlatform.Properties.RebuiltViews
import IncidentPlatform.Properties.WithheldStreams
import IncidentPlatform.Properties.StreamEnds
import IncidentPlatform.Properties.StickyWindows
import IncidentPlatform.Properties.DispatchLatency
import IncidentPlatform.Properties.FixedWindows
import IncidentPlatform.Properties.MetricRecoveries
import IncidentPlatform.Properties.DepthAlerts
import IncidentPlatform.Properties.WorkerRestarts
import IncidentPlatform.Properties.AgentRows
import IncidentPlatform.Properties.PlatformRows
import IncidentPlatform.Properties.SelectedTakes
import IncidentPlatform.Properties.Ledgers
import IncidentPlatform.Properties.AncestorWalks
import IncidentPlatform.Properties.TextOrder
import IncidentPlatform.Properties.CorruptRecords
import IncidentPlatform.Properties.LoneEvaluator
import IncidentPlatform.Properties.StreamLogs
import IncidentPlatform.Properties.AsyncPages
import IncidentPlatform.Properties.ServiceTokens
import IncidentPlatform.Properties.Enrolments
