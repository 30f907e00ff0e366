import TradingPlatform.Lib.Prog
import TradingPlatform.Lib.Pool
import TradingPlatform.Lib.Ledger
import TradingPlatform.Shared.Decimal
import TradingPlatform.Shared.Schemas
import TradingPlatform.Shared.Redis
import TradingPlatform.Execution.Lifecycle
import TradingPlatform.Execution.Database
import TradingPlatform.Execution.World
import TradingPlatform.Execution.Risk
import TradingPlatform.Execution.Account
import TradingPlatform.Execution.Consumer
import TradingPlatform.Execution.Gate
import TradingPlatform.Execution.IntentOnce
import TradingPlatform.Execution.EventConsumer
import TradingPlatform.Execution.JobHistory
import TradingPlatform.Execution.FillLedger
import TradingPlatform.Execution.TwoWriters
import TradingPlatform.Execution.LiveAdapter
import TradingPlatform.Execution.LiveGate
import TradingPlatform.Gateway.TradingMode
import TradingPlatform.Execution.EmergencyStop
import TradingPlatform.Execution.PaperAdapter
import TradingPlatform.Execution.PositionCap
import TradingPlatform.Execution.AccountPolicy
import TradingPlatform.Execution.Controls
import TradingPlatform.Execution.FillPersistence
import TradingPlatform.Lib.Register
import TradingPlatform.Strategy.Transitions
import TradingPlatform.McpServer.StrategyFacade
import TradingPlatform.Lib.Series
import TradingPlatform.Shared.Float
import TradingPlatform.Analytics.Indicators
import TradingPlatform.Lib.Table
import TradingPlatform.Execution.AccountTables
import TradingPlatform.Execution.BalanceLedger
import TradingPlatform.Execution.PositionTable
import TradingPlatform.Lib.Replica
import TradingPlatform.Shared.MarketFeed
import TradingPlatform.Normalizer.OrderBook
import TradingPlatform.Normalizer.BookReplica
import TradingPlatform.Analytics.TradeEngines
import TradingPlatform.Analytics.BookEngines
import TradingPlatform.Analytics.Dispatcher
import TradingPlatform.Analytics.BookSync
import TradingPlatform.Analytics.Snapshot
import TradingPlatform.Lib.ConsumerGroup
import TradingPlatform.Strategy.Consumer
import TradingPlatform.Services.StreamConsumers
import TradingPlatform.Execution.LostFills
import TradingPlatform.Lib.LastWrite
import TradingPlatform.Gateway.ModeAgreement
import TradingPlatform.Strategy.Version
import TradingPlatform.Strategy.Strategies
import TradingPlatform.Strategy.Reload
import TradingPlatform.Strategy.IntentMarket
import TradingPlatform.McpServer.ApprovalCheck
import TradingPlatform.McpServer.PriceResolver
import TradingPlatform.Execution.OpenPositions
import TradingPlatform.Analytics.TradeFeeds
import TradingPlatform.Lib.Latest
import TradingPlatform.Normalizer.AccountHotState
import TradingPlatform.McpServer.Session
import TradingPlatform.McpWebGateway.Proxy
import TradingPlatform.McpWebGateway.Policy
import TradingPlatform.McpWebGateway.Requests
import TradingPlatform.McpWebGateway.PostedTools
import TradingPlatform.Execution.Redelivery
import TradingPlatform.Lib.Average
import TradingPlatform.Execution.CostBasis
import TradingPlatform.Execution.SpotOrders
import TradingPlatform.Execution.ReplyFills
import TradingPlatform.Execution.OrderSent
import TradingPlatform.Lib.Backoff
import TradingPlatform.Shared.WebSocket
import TradingPlatform.Execution.StreamListener
import TradingPlatform.Execution.StreamStatus
import TradingPlatform.BinanceIngest.PublicStream
import TradingPlatform.Services.Reconnects
import TradingPlatform.Lib.Base64
import TradingPlatform.Execution.Credentials
import TradingPlatform.Execution.CredentialReaders
import TradingPlatform.Lib.Unwinding
import TradingPlatform.McpServer.Auth
import TradingPlatform.McpServer.SessionUsers
import TradingPlatform.McpServer.OAuth
import TradingPlatform.McpServer.CodeExchange
import TradingPlatform.Analytics.BookIntegrity
import TradingPlatform.Normalizer.DeltaMerge
import TradingPlatform.Analytics.VolumeBuckets
import TradingPlatform.Execution.DryRun
import TradingPlatform.Execution.PriceReach
import TradingPlatform.Execution.CooldownSpacing
import TradingPlatform.McpServer.PaperTrade
import TradingPlatform.McpServer.PaperSizes
import TradingPlatform.McpServer.SymbolSpelling
import TradingPlatform.McpServer.Simulation
import TradingPlatform.Lib.LeastSquares
import TradingPlatform.Analytics.TradeFlow
import TradingPlatform.Analytics.Liquidations
import TradingPlatform.Analytics.Walls
import TradingPlatform.Analytics.IndicatorRanges
import TradingPlatform.Lib.Vote
import TradingPlatform.Strategy.RuleVote
import TradingPlatform.Strategy.RecordedIntents
import TradingPlatform.Execution.StuckJobs
import TradingPlatform.Shared.Double
import TradingPlatform.Execution.AccountColumns
import TradingPlatform.McpServer.AccountFacade
import TradingPlatform.Lib.Page
import TradingPlatform.McpServer.SymbolFilters
import TradingPlatform.Gateway.RateLimit
import TradingPlatform.Lib.Url
import TradingPlatform.McpServer.AuthorizeRedirect
import TradingPlatform.Shared.JsonText
import TradingPlatform.McpServer.SessionCookie
import TradingPlatform.Lib.Browser
import TradingPlatform.McpServer.Login
import TradingPlatform.McpServer.OpenRedirect
import TradingPlatform.Lib.Html
import TradingPlatform.McpServer.LoginForm
import TradingPlatform.Shared.JsonDumps
import TradingPlatform.Shared.JsonValue
import TradingPlatform.Lib.EventStream
import TradingPlatform.Lib.Progress
import TradingPlatform.McpServer.Protocol
import TradingPlatform.McpWebGateway.Upstream
import TradingPlatform.Normalizer.Handlers
import TradingPlatform.Normalizer.HotState
import TradingPlatform.Services.PriceFeed
import TradingPlatform.McpWebGateway.TokenAuth
import TradingPlatform.McpWebGateway.Sessions
