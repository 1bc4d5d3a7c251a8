import DurableExecution.Workflow.Integrity
import DurableExecution.Engine.RecordedOnce
import DurableExecution.Engine.LeaseSafety
import DurableExecution.Engine.IdempotentStart
import DurableExecution.Engine.ClosedLogs
import DurableExecution.Engine.WaitingMarker
import DurableExecution.Engine.LateAttempts
import DurableExecution.Engine.ChildOutcomes
import DurableExecution.Engine.ConcurrentAppends
import DurableExecution.Engine.CompactedLogs
import DurableExecution.Engine.Timers
import DurableExecution.Engine.Signals
import DurableExecution.Schedules.CatchUp
import DurableExecution.Schedules.CronGrammar
import DurableExecution.Schedules.CronSearch
import DurableExecution.Schedules.CronPeriod
import DurableExecution.Schedules.Backfill
import DurableExecution.Schedules.CatchUpWork
import DurableExecution.Streams.RunStream
import DurableExecution.Worker.Settlement
import DurableExecution.Workflow.ParallelOrder
import DurableExecution.Quota.TokenBucket
import DurableExecution.Worker.Quarantines
import DurableExecution.Workflow.ErrorHops
import DurableExecution.Order.Keyset
import DurableExecution.Workflow.Canonical
import DurableExecution.Engine.PayloadStore
import DurableExecution.Workflow.ThrownValues
import DurableExecution.Api.CursorText
import DurableExecution.Api.Pages
import DurableExecution.Retry.Policies
import DurableExecution.Workflow.CompensationStart
import DurableExecution.Sticky.RunCache
import DurableExecution.Api.AuthThrottle
import DurableExecution.Streams.SseParser
import DurableExecution.Db.Migrator
import DurableExecution.Metrics.Observations
import DurableExecution.Workflow.Prediction
import DurableExecution.Sticky.StickyRouter
import DurableExecution.Quota.QuotaGuard
import DurableExecution.Engine.Recoveries
import DurableExecution.Streams.StreamText
import DurableExecution.Worker.Loops
import DurableExecution.Api.ApiKeys
import DurableExecution.Sandbox.ForbiddenApis
import DurableExecution.Workflow.LiveAdvances
import DurableExecution.Sticky.StickyDecider
