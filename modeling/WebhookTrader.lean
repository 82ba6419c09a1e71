import WebhookTrader.Common.Run
import WebhookTrader.Common.Interleave
import WebhookTrader.Common.Decimal
import WebhookTrader.Common.Table
import WebhookTrader.Common.Cxx
import WebhookTrader.Common.Calendar
import WebhookTrader.Common.Json
import WebhookTrader.Common.Replace
import WebhookTrader.Common.Tally
import WebhookTrader.Common.Stages
import WebhookTrader.Common.Since
import WebhookTrader.Common.Inputs
import WebhookTrader.Common.Lots
import WebhookTrader.Common.Streak
import WebhookTrader.Common.Ring
import WebhookTrader.Common.Printed
import WebhookTrader.Common.NumeralText
import WebhookTrader.Webhook.Model.Signal
import WebhookTrader.Webhook.Model.Parser
import WebhookTrader.Webhook.Model.Server
import WebhookTrader.Webhook.Model.RateLimiter
import WebhookTrader.Webhook.Parser
import WebhookTrader.Webhook.Authentication
import WebhookTrader.Webhook.RateLimiter
import WebhookTrader.Webhook.RepairScan
import WebhookTrader.Webhook.MissingQuotes
import WebhookTrader.Webhook.DoubledQuotes
import WebhookTrader.Webhook.Undoubling
import WebhookTrader.Risk.Model.Portfolio
import WebhookTrader.Risk.Model.Trade
import WebhookTrader.Risk.Model.Learner
import WebhookTrader.Risk.Model.Evaluate
import WebhookTrader.Risk.Model.Manager
import WebhookTrader.Risk.Model.Sizing
import WebhookTrader.Risk.Sizing
import WebhookTrader.Risk.Learner
import WebhookTrader.Risk.LearnerRecord
import WebhookTrader.Exchange.Model.Rest
import WebhookTrader.Exchange.Model.Venue
import WebhookTrader.Exchange.OrderSize
import WebhookTrader.Exchange.SizeText
import WebhookTrader.Shadow.Model.Futures
import WebhookTrader.Shadow.Model.Spot
import WebhookTrader.Shadow.Model.Report
import WebhookTrader.Shadow.Report
import WebhookTrader.Shadow.History
import WebhookTrader.Shadow.Balance
import WebhookTrader.Shadow.Repetition
import WebhookTrader.Shadow.SpotDeeds
import WebhookTrader.Shadow.Timeframes
import WebhookTrader.Engine.Model.Readiness
import WebhookTrader.Engine.Model.Modes
import WebhookTrader.Engine.Model.Book
import WebhookTrader.Engine.Model.State
import WebhookTrader.Engine.Model.Entry
import WebhookTrader.Engine.Model.Exit
import WebhookTrader.Engine.Model.Machine
import WebhookTrader.Engine.Model.Snapshot
import WebhookTrader.Engine.Model.Life
import WebhookTrader.Engine.Model.Desk
import WebhookTrader.Engine.Model.Workers
import WebhookTrader.Engine.Model.Confidence
import WebhookTrader.Engine.Steps
import WebhookTrader.Engine.Ownership
import WebhookTrader.Engine.Conservation
import WebhookTrader.Engine.Gate
import WebhookTrader.Engine.Limits
import WebhookTrader.Engine.Breaker
import WebhookTrader.Engine.Retries
import WebhookTrader.Engine.Agreement
import WebhookTrader.Engine.Reconcile
import WebhookTrader.Engine.Uniqueness
import WebhookTrader.Engine.Counters
import WebhookTrader.Engine.Sizing
import WebhookTrader.Engine.Exits
import WebhookTrader.Engine.Account
import WebhookTrader.Engine.Sync
import WebhookTrader.Engine.Books
import WebhookTrader.Engine.Registration
import WebhookTrader.Engine.Profit
import WebhookTrader.Engine.Removals
import WebhookTrader.Engine.Snapshot
import WebhookTrader.Engine.Paper
import WebhookTrader.Engine.Handling
import WebhookTrader.Engine.Direction
import WebhookTrader.Engine.Closing
import WebhookTrader.Engine.Deeds
import WebhookTrader.Engine.Duplicates
import WebhookTrader.Engine.Repeats
import WebhookTrader.Engine.Acceptance
import WebhookTrader.Engine.Order
import WebhookTrader.Engine.Delivery
import WebhookTrader.Engine.Demotion
import WebhookTrader.Engine.Activation
import WebhookTrader.Engine.LiveEquivalent
import WebhookTrader.Engine.Confidence
import WebhookTrader.Engine.Suppression
import WebhookTrader.Engine.Redelivery
import WebhookTrader.Persistence.Model.StateFile
import WebhookTrader.Persistence.Model.LearnerFile
import WebhookTrader.Persistence.Model.LearnerProcess
import WebhookTrader.Persistence.Model.AtomicWrite
import WebhookTrader.Persistence.Model.Restart
import WebhookTrader.Persistence.Model.ShadowFile
import WebhookTrader.Persistence.StateFile
import WebhookTrader.Persistence.LearnerFile
import WebhookTrader.Persistence.LearnerProcess
import WebhookTrader.Persistence.AtomicWrite
import WebhookTrader.Persistence.Restart
import WebhookTrader.Persistence.ShadowFile
import WebhookTrader.Persistence.Verdicts
import WebhookTrader.Persistence.ShadowProcess
import WebhookTrader.Persistence.SpotProcess
import WebhookTrader.Persistence.SpotQuantities
import WebhookTrader.Persistence.SpotGrades
import WebhookTrader.Engine.SpotCash
import WebhookTrader.Risk.Model.Scorer
import WebhookTrader.Engine.Model.Scoring
import WebhookTrader.Engine.ContextScores
import WebhookTrader.Engine.Leverage
import WebhookTrader.Backtest.Model.Backtester
import WebhookTrader.Backtest.Conservation
import WebhookTrader.Backtest.Model.WfOptimizer
import WebhookTrader.Backtest.WfOptimizer
import WebhookTrader.Common.TokenBucket
import WebhookTrader.Core.Model.RateLimiter
import WebhookTrader.Core.RateLimiter
import WebhookTrader.Core.Model.Acquire
import WebhookTrader.Core.Acquire
import WebhookTrader.Engine.TakeProfits
import WebhookTrader.Persistence.Openers
import WebhookTrader.Engine.Filing
import WebhookTrader.Common.Checks
import WebhookTrader.Common.Window
import WebhookTrader.Risk.Scorer
import WebhookTrader.Risk.Model.RiskCalls
import WebhookTrader.Risk.Admission
import WebhookTrader.Risk.Breaker
import WebhookTrader.Risk.CalendarSums
import WebhookTrader.Persistence.Model.SpotAccount
import WebhookTrader.Persistence.SpotAccount
import WebhookTrader.Persistence.SpotLife
import WebhookTrader.Persistence.Model.ScorerFile
import WebhookTrader.Persistence.ScorerFile
import WebhookTrader.Risk.SizeBounds
import WebhookTrader.Risk.RiskPerTrade
import WebhookTrader.Engine.Thresholds
import WebhookTrader.Risk.Model.SymbolScores
import WebhookTrader.Risk.SymbolScores
import WebhookTrader.Risk.Outcomes
import WebhookTrader.Common.Base64
import WebhookTrader.Dashboard.Model.Auth
import WebhookTrader.Dashboard.Auth
import WebhookTrader.Backtest.Windows
import WebhookTrader.Core.Model.SymbolLocks
import WebhookTrader.Core.SymbolLocks
import WebhookTrader.Webhook.Model.RepairLoop
import WebhookTrader.Webhook.RepairLoop
import WebhookTrader.Backtest.Model.Entries
import WebhookTrader.Backtest.Margin
import WebhookTrader.Backtest.Leverage
import WebhookTrader.Backtest.Model.LogParser
import WebhookTrader.Backtest.Model.WalkForward
import WebhookTrader.Backtest.Divisors
import WebhookTrader.Risk.Model.PortfolioState
import WebhookTrader.Risk.PortfolioState
import WebhookTrader.Engine.Model.TradeRecorder
import WebhookTrader.Common.Additions
import WebhookTrader.Engine.Import
import WebhookTrader.Dashboard.Model.TfAnalytics
import WebhookTrader.Dashboard.TfAnalytics
import WebhookTrader.Common.Locking
import WebhookTrader.Engine.Model.Locks
import WebhookTrader.Engine.Deadlock
import WebhookTrader.Engine.Model.WebSocket
import WebhookTrader.Engine.WsHeartbeat
import WebhookTrader.Engine.WsReconnect
import WebhookTrader.Engine.WsBook
import WebhookTrader.Core.Model.SignalQueue
import WebhookTrader.Core.SignalQueue
import WebhookTrader.Webhook.Model.Listener
import WebhookTrader.Webhook.Admission
import WebhookTrader.Common.FixedWindow
import WebhookTrader.Dashboard.Model.Server
import WebhookTrader.Dashboard.Server
import WebhookTrader.Common.Alike
import WebhookTrader.Persistence.Model.ConfidenceFile
import WebhookTrader.Persistence.ConfidenceFile
import WebhookTrader.Engine.OrderNumbers
import WebhookTrader.Common.Drawdown
import WebhookTrader.Backtest.Drawdown
import WebhookTrader.Common.ByKey
import WebhookTrader.Backtest.Symbols
import WebhookTrader.Engine.Costs
import WebhookTrader.Dashboard.Model.TradeStats
import WebhookTrader.Dashboard.TradeStats
