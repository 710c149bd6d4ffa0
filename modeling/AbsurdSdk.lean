import AbsurdSdk.Arithmetic.XorMultiply
import AbsurdSdk.Configuration.DatabaseNames
import AbsurdSdk.Configuration.QueueSettings
import AbsurdSdk.Durability.Conduct
import AbsurdSdk.Durability.EventTimeouts
import AbsurdSdk.Durability.Events
import AbsurdSdk.Durability.Faultless
import AbsurdSdk.Durability.Handler
import AbsurdSdk.Durability.Names
import AbsurdSdk.Durability.Operations
import AbsurdSdk.Durability.Progress
import AbsurdSdk.Durability.Replay
import AbsurdSdk.Durability.Resumption
import AbsurdSdk.Durability.Session
import AbsurdSdk.Durability.Sleep
import AbsurdSdk.Durability.Slots
import AbsurdSdk.Durability.SpentNames
import AbsurdSdk.Durability.Store
import AbsurdSdk.Durability.Uninterrupted
import AbsurdSdk.Durability.WakeTimes
import AbsurdSdk.Durability.WriteOnce
import AbsurdSdk.Execution.Batch
import AbsurdSdk.Execution.BatchLease
import AbsurdSdk.Execution.Connections
import AbsurdSdk.Execution.Deferral
import AbsurdSdk.Execution.Drain
import AbsurdSdk.Execution.Endurance
import AbsurdSdk.Execution.FailFast
import AbsurdSdk.Execution.Isolation
import AbsurdSdk.Execution.Pacing
import AbsurdSdk.Execution.Races
import AbsurdSdk.Execution.Registration
import AbsurdSdk.Execution.Renewals
import AbsurdSdk.Execution.Reports
import AbsurdSdk.Execution.Settlement
import AbsurdSdk.Execution.Shutdown
import AbsurdSdk.Execution.Silence
import AbsurdSdk.Execution.TypedTasks
import AbsurdSdk.Execution.Unwinding
import AbsurdSdk.Execution.Watchdog
import AbsurdSdk.Execution.WorkerLoop
import AbsurdSdk.Interaction.Inevitable
import AbsurdSdk.Interaction.Interleaving
import AbsurdSdk.Interaction.Metered
import AbsurdSdk.Interaction.Monitor
import AbsurdSdk.Interaction.Pool
import AbsurdSdk.Interaction.Program
import AbsurdSdk.Interaction.Replay
import AbsurdSdk.Interaction.Resumption
import AbsurdSdk.Interaction.Run
import AbsurdSdk.Interaction.Transcript
import AbsurdSdk.Model.Administration
import AbsurdSdk.Model.Calls
import AbsurdSdk.Model.Context
import AbsurdSdk.Model.Discipline
import AbsurdSdk.Model.Executor
import AbsurdSdk.Model.Methods
import AbsurdSdk.Model.Rules
import AbsurdSdk.Model.Spawning
import AbsurdSdk.Model.TaskResult
import AbsurdSdk.Model.Time
import AbsurdSdk.Model.Types
import AbsurdSdk.Model.Watchdog
import AbsurdSdk.Model.WorkBatch
import AbsurdSdk.Model.Worker
import AbsurdSdk.Sequences.Occurrences
import AbsurdSdk.Syntax.KeywordValues
import AbsurdSdk.Syntax.Records
import AbsurdSdk.Waiting.Heartbeats
import AbsurdSdk.Waiting.ResultWait
import AbsurdSdk.Waiting.Schedule
import AbsurdSdk.Waiting.Transparency
