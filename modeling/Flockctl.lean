import Flockctl.AutoExecutor.DependencyGate
import Flockctl.Missions.Coalescing
import Flockctl.Missions.DecidedOnce
import Flockctl.Missions.RemediationChain
import Flockctl.Sessions.Denylist
import Flockctl.Sessions.ModeSwitch
import Flockctl.TaskExecutor.Cancellation
import Flockctl.Wakeups.FiredOnce
import Flockctl.Chats.LiveSession
import Flockctl.Chats.AnsweredOnce
import Flockctl.Chats.ResumedTurn
import Flockctl.Chats.BulkDelete
import Flockctl.Missions.LinkedMilestones
import Flockctl.FsOperations.StaysInJail
import Flockctl.RemoteAuth.GuessingBound
import Flockctl.Retries.Chain
import Flockctl.Extensions.Absence
import Flockctl.FileEdits.Covered
import Flockctl.Usage.Booking
import Flockctl.Claude.KillsFinished
import Flockctl.Sessions.AnswersReach
import Flockctl.AutoExecutor.LongestPath
import Flockctl.AutoExecutor.ReconciledPlans
import Flockctl.LeaderElection.Survival
import Flockctl.Plan.CreatedReachable
import Flockctl.Ai.Cost
import Flockctl.Chats.HistoryWindow
import Flockctl.FileEdits.ExactEdits
import Flockctl.Schedules.Requests
import Flockctl.Chats.BatchedMetrics
import Flockctl.Chats.TracelessRejection
import Flockctl.Chats.StreamedTurn
import Flockctl.ChatQueue.WakeUps
import Flockctl.StateMachines.MermaidGrammar
import Flockctl.StateMachines.GlobMeaning
import Flockctl.GitOperations.LogPaging
import Flockctl.GitOperations.Show
import Flockctl.Claude.LocalEdit
import Flockctl.FsOperations.IndexComplete
import Flockctl.Usage.BudgetGate
import Flockctl.RateLimits.Lattice
import Flockctl.EditorTabs.Buffers
import Flockctl.Notifications.Inbox
import Flockctl.GlobalWs.Promises
import Flockctl.Copilot.OneTurn
import Flockctl.FileEdits.ReviewPane
import Flockctl.Chats.BoundedString
import Flockctl.StateMachines.Reachability
import Flockctl.FileEdits.ReadCache
import Flockctl.EditorTabs.RenamedTabs
