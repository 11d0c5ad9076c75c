import FinCore.Api.AlphaVantageClient
import FinCore.Api.CacheHistory
import FinCore.Api.PriceFields
import FinCore.Api.QuoteParser
import FinCore.Api.Response
import FinCore.Api.TradingDay
import FinCore.Api.VolumeField
import FinCore.Cli.BatchFetch
import FinCore.Cli.BookTracking
import FinCore.Cli.CacheAside
import FinCore.Cli.CliServices
import FinCore.Cli.CommandLoop
import FinCore.Cli.ConnectedSession
import FinCore.Cli.DecimalOrder
import FinCore.Cli.DurableWrites
import FinCore.Cli.FetchRun
import FinCore.Cli.FinCoreCli
import FinCore.Cli.HistoryLedger
import FinCore.Cli.LatencySummary
import FinCore.Cli.NumberArguments
import FinCore.Cli.OperationStages
import FinCore.Cli.OutputIndependence
import FinCore.Cli.Persistable
import FinCore.Cli.PostgresCli
import FinCore.Cli.PostgresProgram
import FinCore.Cli.ProcessMetrics
import FinCore.Cli.RebuiltBook
import FinCore.Cli.RefusedLines
import FinCore.Cli.RepositoryCalls
import FinCore.Cli.SessionLedger
import FinCore.Cli.SessionTrace
import FinCore.Cli.Staleness
import FinCore.Cli.Startup
import FinCore.Cli.SyntheticBook
import FinCore.Cli.Timestamps
import FinCore.Concurrent.Clients
import FinCore.Concurrent.Program
import FinCore.Core.BookAggregates
import FinCore.Core.BookFrame
import FinCore.Core.BookHistory
import FinCore.Core.OrderBook
import FinCore.Core.Types
import FinCore.Cxx.Action
import FinCore.Cxx.Calendar
import FinCore.Cxx.Checked
import FinCore.Cxx.Convert
import FinCore.Cxx.DecimalLiteral
import FinCore.Cxx.Double
import FinCore.Cxx.FloatFormat
import FinCore.Cxx.FloatText
import FinCore.Cxx.IntegerText
import FinCore.Cxx.LetterCase
import FinCore.Cxx.Lockstep
import FinCore.Cxx.Numeral
import FinCore.Cxx.OrderStatistic
import FinCore.Cxx.OrderedMap
import FinCore.Cxx.ReadBack
import FinCore.Cxx.Rounding
import FinCore.Cxx.Text
import FinCore.Cxx.TimeFields
import FinCore.Cxx.UniqueHandle
import FinCore.Cxx.Utf8
import FinCore.Domain.Decimal
import FinCore.Domain.DecimalCodec
import FinCore.Domain.MarketData
import FinCore.Domain.Validation
import FinCore.Redis.Hash
import FinCore.Redis.Keyspace
import FinCore.Sql.Batch
import FinCore.Sql.Catalog
import FinCore.Sql.ColumnType
import FinCore.Sql.Newest
import FinCore.Sql.Schema
import FinCore.Sql.Session
import FinCore.Sql.Simulation
import FinCore.Sql.Table
import FinCore.Storage.BatchInsert
import FinCore.Storage.ConcurrentClients
import FinCore.Storage.Connection
import FinCore.Storage.Database
import FinCore.Storage.DatabaseIntegrity
import FinCore.Storage.HistoryWindow
import FinCore.Storage.LatestQuote
import FinCore.Storage.PgHandles
import FinCore.Storage.PlainDatabase
import FinCore.Storage.PostgresRepository
import FinCore.Storage.QuoteHistory
import FinCore.Storage.QuoteRoundTrip
import FinCore.Storage.QuoteRow
import FinCore.Storage.QuoteTtl
import FinCore.Storage.RedisBook
import FinCore.Storage.RedisClient
import FinCore.Storage.RegisteredBatch
import FinCore.Storage.Schema
import FinCore.Storage.SchemaFit
import FinCore.Storage.SentRows
import FinCore.Storage.StoredRows
