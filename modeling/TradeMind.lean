import TradeMind.Library.Machine
import TradeMind.Library.Rows
import TradeMind.Library.ConsumerGroup
import TradeMind.Library.CursorWalk
import TradeMind.Library.RowTransactions
import TradeMind.Library.ExpiringStore
import TradeMind.Library.Alternation
import TradeMind.Library.Dictionary
import TradeMind.Library.PartialRun
import TradeMind.Library.WhileLoop
import TradeMind.Library.WeightedMean
import TradeMind.Library.IntervalCover
import TradeMind.Library.Ties
import TradeMind.Library.DecimalRounding
import TradeMind.Library.Drawdown
import TradeMind.Library.RoundedDrawdown
import TradeMind.Library.KeySort
import TradeMind.Library.Fibers
import TradeMind.Library.HalfEven
import TradeMind.Model.System
import TradeMind.Model.KillSwitchAdmin
import TradeMind.Model.RiskConfigStore
import TradeMind.Model.TelegramCommands
import TradeMind.Model.Consumer
import TradeMind.Model.Notifier
import TradeMind.Model.AnalysisPipeline
import TradeMind.Model.ExternalStrategy
import TradeMind.Model.BacktestLedger
import TradeMind.Model.HistoricalReplay
import TradeMind.Model.PerformanceReport
import TradeMind.Model.DecimalReport
import TradeMind.Model.SchedulerCycle
import TradeMind.Model.BacktestReport
import TradeMind.Analysis.EntryVerdict
import TradeMind.Analysis.DecisionOnce
import TradeMind.Analysis.Redelivery
import TradeMind.Analysis.StrandedSignals
import TradeMind.Analysis.PortfolioCaps
import TradeMind.Analysis.EntryTracking
import TradeMind.Analysis.PositionPerOrder
import TradeMind.Analysis.ExitFills
import TradeMind.Analysis.ExitSettlement
import TradeMind.Analysis.PathAgreement
import TradeMind.Analysis.NotifierCursor
import TradeMind.Analysis.OrderStatuses
import TradeMind.Analysis.SilentChanges
import TradeMind.Analysis.ReconcileIdempotence
import TradeMind.Analysis.KillSwitchLatch
import TradeMind.Analysis.CircuitBreakers
import TradeMind.Analysis.KillSwitchMirror
import TradeMind.Analysis.SwitchTrail
import TradeMind.Analysis.ConfigUpdates
import TradeMind.Analysis.TelegramReplay
import TradeMind.Analysis.AnalysisDecision
import TradeMind.Analysis.LedgerCalls
import TradeMind.Analysis.StopAgreement
import TradeMind.Analysis.LossEvents
import TradeMind.Analysis.StreakTies
import TradeMind.Analysis.LossStreaks
import TradeMind.Analysis.ReplayMoney
import TradeMind.Analysis.ReplayOrders
import TradeMind.Analysis.ReplayClock
import TradeMind.Analysis.ReplayFills
import TradeMind.Analysis.RoiExits
import TradeMind.Analysis.ExpectancyCohort
import TradeMind.Analysis.CycleLock
import TradeMind.Analysis.OutageAlerts
import TradeMind.Analysis.SizingLaws
import TradeMind.Analysis.EntryApproval
import TradeMind.Analysis.ShadowFilter
import TradeMind.Analysis.StopTags
import TradeMind.Analysis.LedgerPortfolio
import TradeMind.Analysis.StaticExits
import TradeMind.Analysis.SemanticProjection
import TradeMind.Analysis.ReportFigures
import TradeMind.Analysis.Breakdowns
import TradeMind.Analysis.Drawdowns
import TradeMind.Analysis.ScoreBounds
import TradeMind.Analysis.CsvRoundTrip
import TradeMind.Analysis.FetchHistory
import TradeMind.Analysis.TradeOrder
import TradeMind.Analysis.RepairLoop
import TradeMind.Model.WeeklySchedule
import TradeMind.Analysis.WeeklySchedule
import TradeMind.Model.Sentiment
import TradeMind.Analysis.SentimentMean
import TradeMind.Model.MechanicalReplay
import TradeMind.Analysis.JournalAttribution
import TradeMind.Model.SentimentProviders
import TradeMind.Analysis.CycleSentiment
import TradeMind.Model.SignalPublishing
import TradeMind.Analysis.SignalPublishing
import TradeMind.Analysis.CandleClaims
import TradeMind.Model.CronSchedule
import TradeMind.Analysis.CronSchedule
import TradeMind.Model.ReportArchive
import TradeMind.Model.ArchivePublishing
import TradeMind.Model.AuditTimeline
import TradeMind.Analysis.ArchivePublishing
import TradeMind.Model.SignalReplay
import TradeMind.Analysis.SignalReplay
import TradeMind.Analysis.NoLookahead
import TradeMind.Analysis.SignalNoLookahead
import TradeMind.Analysis.AuditTrail
import TradeMind.Analysis.AuditTimeline
