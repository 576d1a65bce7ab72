import Ludex.Lib.Sql
import Ludex.Lib.Run
import Ludex.Lib.Calendar
import Ludex.Lib.Signal
import Ludex.Core.Types
import Ludex.Core.Database
import Ludex.Core.ApplicationRepo
import Ludex.Core.SessionRepo
import Ludex.Core.RepoRun
import Ludex.Core.Aggregates
import Ludex.Core.LastPlayed
import Ludex.Daemon.IdleTracker
import Ludex.Daemon.IdleBilling
import Ludex.Daemon.Kwin.Transition
import Ludex.Daemon.Kwin.RunLoop
import Ludex.Daemon.Kwin.Schedule
import Ludex.Daemon.SessionManager
import Ludex.Core.OpenRows
import Ludex.Daemon.SessionMoves
import Ludex.Daemon.Recovery
import Ludex.Daemon.SessionSimulation
import Ludex.Daemon.Stranded
import Ludex.Daemon.CrashRecovery
import Ludex.Core.Reachable
import Ludex.Daemon.Runtimes
import Ludex.Daemon.Storable
import Ludex.Daemon.Proc
import Ludex.Daemon.Gate
import Ludex.Daemon.Steam.ColdStart
import Ludex.Daemon.Ownership
import Ludex.Lib.Lines
import Ludex.Daemon.Steam.ContentLog
import Ludex.Daemon.Steam.Tail
import Ludex.Daemon.Steam.Rotation
import Ludex.Daemon.Steam.Startup
import Ludex.Core.BlockedRepo
import Ludex.Daemon.Blocklist
import Ludex.Core.Restore
import Ludex.Lib.Ranking
import Ludex.Core.Snapshots
import Ludex.Lib.Chronology
import Ludex.Core.SessionQueries
import Ludex.Core.SessionMerge
import Ludex.Core.SpanDelete
import Ludex.Daemon.Sources
import Ludex.Daemon.Steam.Failures
import Ludex.Daemon.IdleWayland
import Ludex.Core.BackupSet
import Ludex.Core.SettingsRepo
import Ludex.Lib.Registers
import Ludex.Lib.TwoWrites
import Ludex.Daemon.Settings
import Ludex.Daemon.Tracker
import Ludex.App.Indicators
import Ludex.Core.SessionDelete
import Ludex.Core.ApplicationMerge
import Ludex.Daemon.Heartbeats
import Ludex.Daemon.Kwin.Identity
import Ludex.Lib.Fair
import Ludex.Daemon.Kwin.Watching
import Ludex.Daemon.Override
import Ludex.Core.DailyPlaytime
import Ludex.App.Heatmap
import Ludex.App.ActivityGrid
import Ludex.Core.Vdf
import Ludex.Lib.Paths
import Ludex.Enrich.LibraryMatch
import Ludex.Core.Identity
import Ludex.Enrich.Merge
import Ludex.Enrich.Gog
import Ludex.Enrich.SteamNames
import Ludex.Core.Migration
import Ludex.Core.SnapshotNames
import Ludex.Daemon.BackupScheduler
import Ludex.App.DayLanes
import Ludex.Daemon.Steam.StateChange
import Ludex.Daemon.Proc.Fdinfo
import Ludex.Daemon.Proc.Environ
import Ludex.Daemon.Proc.Tree
import Ludex.Daemon.Proc.Maps
import Ludex.Lib.Resumption
import Ludex.Lib.NameService
import Ludex.Daemon.Transactions
import Ludex.Daemon.SingleInstance
import Ludex.Daemon.MergedAway
import Ludex.Daemon.Pipeline
import Ludex.Daemon.GracefulShutdown
import Ludex.Lib.Views
import Ludex.Core.Ledger
import Ludex.Enrich.Background
import Ludex.Daemon.Playtime
import Ludex.Lib.Refetch
import Ludex.App.Pages
import Ludex.Lib.Mirror
import Ludex.Daemon.Announcements
import Ludex.App.StaleDelete
import Ludex.Daemon.PlayCounts
import Ludex.Daemon.Unblocking
import Ludex.App.ActivityLog
