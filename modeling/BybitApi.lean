import BybitApi.Loop
import BybitApi.Machine
import BybitApi.Timeline
import BybitApi.Decimal
import BybitApi.Delimited
import BybitApi.Decoding
import BybitApi.Enums
import BybitApi.Wire
import BybitApi.HistoricalPrices
import BybitApi.MonthlyCandles
import BybitApi.CandleProgress
import BybitApi.StaticMarket
import BybitApi.FundingRates
import BybitApi.FundingSplit
import BybitApi.RequestCounts
import BybitApi.RateLimiter
import BybitApi.LocalWindow
import BybitApi.WindowShape
import BybitApi.ServerBudget
import BybitApi.HeaderUpdates
import BybitApi.ServerWindow
import BybitApi.LimiterHistory
import BybitApi.Json
import BybitApi.Faults
import BybitApi.Instruments
import BybitApi.InstrumentCache
import BybitApi.InstrumentPages
import BybitApi.InstrumentReload
import BybitApi.IoThread
import BybitApi.IoThreadSafety
import BybitApi.HttpSession
import BybitApi.RequestSigning
import BybitApi.QueryStrings
import BybitApi.Orders
import BybitApi.OrderQuantisation
import BybitApi.OpenOrders
import BybitApi.Positions
import BybitApi.ClosePositions
import BybitApi.RepeatedClosing
import BybitApi.Replies
import BybitApi.ReplyFields
import BybitApi.ReplyAccess
import BybitApi.ReplyErrors
import BybitApi.OrderEncoding
import BybitApi.PagedLists
import BybitApi.MarketReplies
import BybitApi.Connectors
import BybitApi.ReplyContents
import BybitApi.ConnectorReports
import BybitApi.PositionMode
import BybitApi.OrderReplies
import BybitApi.OrderTracking
import BybitApi.EventStore
import BybitApi.TickerMerge
import BybitApi.CandleStore
import BybitApi.CandleBatches
import BybitApi.RejectedEvents
import BybitApi.Subscriptions
import BybitApi.SubscriptionConservation
import BybitApi.DuplicateSubscriptions
import BybitApi.Session
import BybitApi.SessionLifetime
import BybitApi.SessionWrites
import BybitApi.SessionClosing
import BybitApi.CloseLifetime
import BybitApi.SessionTurns
import BybitApi.SessionPings
import BybitApi.ReadHandler
import BybitApi.MessageAccess
import BybitApi.ReadEscapes
import BybitApi.StreamManager
import BybitApi.ClientSessions
