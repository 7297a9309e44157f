import Nebularr.Transitions
import Nebularr.KeyedTable
import Nebularr.SoftDelete
import Nebularr.InsertSelect
import Nebularr.MediaColumns
import Nebularr.Warehouse
import Nebularr.LastWrite
import Nebularr.ChunkLoop
import Nebularr.SyncWrites
import Nebularr.ArrClient
import Nebularr.AttemptLoop
import Nebularr.ArrRequests
import Nebularr.FullSync
import Nebularr.IncrementalSync
import Nebularr.Library
import Nebularr.RefreshExact
import Nebularr.WebhookJobs
import Nebularr.WebhookFiles
import Nebularr.DeleteEvents
import Nebularr.ShortResponses
import Nebularr.ArrWire
import Nebularr.Consistency
import Nebularr.ConsistentOperations
import Nebularr.Interleaving
import Nebularr.Holdings
import Nebularr.WebhookQueue
import Nebularr.DrainPasses
import Nebularr.QueueSafety
import Nebularr.Deduplication
import Nebularr.PagedWalk
import Nebularr.History
import Nebularr.Watermark
import Nebularr.IncrementalRun
import Nebularr.HistoryReach
import Nebularr.WatermarkProgress
import Nebularr.Requeue
import Nebularr.JobLocks
import Nebularr.LockSafety
import Nebularr.ThreeValued
import Nebularr.SnapshotWrites
import Nebularr.AutomationRules
import Nebularr.ActionLedger
import Nebularr.Candidates
import Nebularr.CoverageView
import Nebularr.Matcher
import Nebularr.Backfill
import Nebularr.MatcherRuns
import Nebularr.Completeness
import Nebularr.ArrEditor
import Nebularr.SearchCommands
import Nebularr.AutomationRun
import Nebularr.RunPlan
import Nebularr.SearchBudget
import Nebularr.NewDub
import Nebularr.SeenDubs
import Nebularr.SearchRuns
import Nebularr.RunReplay
import Nebularr.SearchCooldown
import Nebularr.DailyCap
import Nebularr.EditorEffects
import Nebularr.DryRun
import Nebularr.RuleSets
import Nebularr.ScopeRefresh
import Nebularr.VisitEffects
import Nebularr.Retirement
import Nebularr.DubUnion
import Nebularr.RetryLimit
import Nebularr.RunRows
import Nebularr.CandidateNames
import Nebularr.TagConvergence
import Nebularr.CoverageTags
import Nebularr.FailureReasons
import Nebularr.GroupFold
import Nebularr.ReasonSummary
import Nebularr.WatermarkFold
import Nebularr.AlertNotifier
import Nebularr.PythonText
import Nebularr.PythonValues
import Nebularr.AlertStore
import Nebularr.AlertConfig
import Nebularr.TitleYearLinks
import Nebularr.RootFolders
import Nebularr.ResolutionMigration
import Nebularr.RuntimeSecrets
import Nebularr.LoginLimiter
import Nebularr.Eviction
import Nebularr.ArtworkCache
import Nebularr.TextEncodings
import Nebularr.LibraryUrl
import Nebularr.SessionTokens
import Nebularr.Words
import Nebularr.Calendar
import Nebularr.DescribeCron
import Nebularr.MalExternals
import Nebularr.PatternSearch
import Nebularr.TiedPages
import Nebularr.LibraryListing
import Nebularr.JoinSums
import Nebularr.EpisodeInventory
import Nebularr.StorageReports
import Nebularr.EnglishReports
import Nebularr.IpAddress
import Nebularr.ClientKey
import Nebularr.SecretRoundTrip
import Nebularr.DistinctOn
import Nebularr.TitleLists
import Nebularr.CachedReads
import Nebularr.AuthStore
import Nebularr.AuthServer
import Nebularr.GuessBudget
import Nebularr.IntegrityAudit
import Nebularr.Worklist
import Nebularr.MalFetches
import Nebularr.EventBus
import Nebularr.EventStream
import Nebularr.DrainWakeup
import Nebularr.Throttle
import Nebularr.CsvFormat
import Nebularr.CsvExport
import Nebularr.MalTagSync
import Nebularr.ArtworkFlights
import Nebularr.SingleFlight
import Nebularr.ServerEvents
import Nebularr.EventRefresh
import Nebularr.GroupedRows
import Nebularr.ShowListing
import Nebularr.LibraryTotals
import Nebularr.TopRows
import Nebularr.RecentImports
import Nebularr.ShowPages
import Nebularr.HealthReport
