import NodeGet.Core.Backend
import NodeGet.Core.Error
import NodeGet.Core.Json
import NodeGet.Core.Permission
import NodeGet.Core.Text
import NodeGet.Core.Unsigned
import NodeGet.Data.Chunks
import NodeGet.Data.Meter
import NodeGet.Data.Table
import NodeGet.Machine.Reload
import NodeGet.Machine.Run
import NodeGet.Token.Cache
import NodeGet.Token.Mutation
import NodeGet.Traffic.Accounting
import NodeGet.Traffic.Restart
import NodeGet.Traffic.Stats
import NodeGet.Monitoring.Record
import NodeGet.Monitoring.Conditions
import NodeGet.Monitoring.LastCache
import NodeGet.Monitoring.MultiLast
import NodeGet.Monitoring.Buffer
import NodeGet.Monitoring.StaticReport
import NodeGet.JsRuntime.Watchdog
import NodeGet.JsRuntime.Pool
import NodeGet.Db.Operation
import NodeGet.Crontab.Cache
import NodeGet.Crontab.Scheduler
import NodeGet.Core.JsonText
import NodeGet.Data.Like
import NodeGet.Task.Event
import NodeGet.Task.Conditions
import NodeGet.Task.Access
import NodeGet.Core.Signed
import NodeGet.Data.FileTree
import NodeGet.Data.Keyset
import NodeGet.Data.UnixPath
import NodeGet.Kv.Auth
import NodeGet.Kv.Refinement
import NodeGet.Kv.Wildcard
import NodeGet.Monitoring.Access
import NodeGet.Monitoring.SoftDelete
import NodeGet.Static.Buckets
import NodeGet.Task.DryRun
import NodeGet.Traffic.Detail
import NodeGet.JsRuntime.KillFlag
import NodeGet.Machine.Channel
import NodeGet.Monitoring.StaticFreshness
import NodeGet.Static.Serve
import NodeGet.Static.WebDav
import NodeGet.Task.Blocking
import NodeGet.Task.Sessions
import NodeGet.Token.Lifecycle
import NodeGet.Token.RollWindow
import NodeGet.Traffic.Snapshot
import NodeGet.Crontab.Coherence
import NodeGet.Db.Expiry
import NodeGet.Db.Timescale
import NodeGet.Machine.Program
import NodeGet.Results.Access
import NodeGet.Server.Services
import NodeGet.Task.ClosedSink
import NodeGet.Terminal.Sessions
import NodeGet.Traffic.Invariant
import NodeGet.Traffic.LossWindows
import NodeGet.Task.SecondSweep
import NodeGet.Kv.MultiGet
import NodeGet.Monitoring.MultiLastOrder
import NodeGet.Traffic.Deletion
import NodeGet.Traffic.Total
import NodeGet.Monitoring.Flush
import NodeGet.Monitoring.FlushDelivery
import NodeGet.Monitoring.InsertLimit
import NodeGet.Data.SortedHalves
import NodeGet.Data.Admission
import NodeGet.Data.Worklist
import NodeGet.Data.LinkTree
import NodeGet.Core.JsonKeys
import NodeGet.Core.JsonReading
import NodeGet.Core.JsonOrder
import NodeGet.Core.PermissionLaws
import NodeGet.Kv.Interleaving
import NodeGet.Monitoring.Summary
import NodeGet.Monitoring.StaticDuplicates
import NodeGet.Monitoring.CanonicalJson
import NodeGet.Static.BasicAuth
import NodeGet.Static.IndexServing
import NodeGet.Static.Listing
import NodeGet.Task.TypeSearch
import NodeGet.Task.QueryOrder
import NodeGet.Task.Creation
import NodeGet.Task.DroppedCalls
import NodeGet.Data.Ties
import NodeGet.Results.SameRows
import NodeGet.Crontab.Dispatch
import NodeGet.Crontab.DisabledPeriods
import NodeGet.Machine.RefCount
import NodeGet.JsRuntime.WorkerPool
import NodeGet.JsRuntime.IdleCleanup
import NodeGet.JsRuntime.WorkerLimits
import NodeGet.JsRuntime.TimeLimit
import NodeGet.JsRuntime.InlineDepth
import NodeGet.JsRuntime.Audit
import NodeGet.Server.LogSubscribers
import NodeGet.Agent.Connection
import NodeGet.Agent.Netlink
import NodeGet.Agent.Outlet
import NodeGet.Terminal.FinishedTasks
import NodeGet.Terminal.Relay
import NodeGet.Agent.Execute
import NodeGet.Server.LogFilter
import NodeGet.Server.StripAnsi
