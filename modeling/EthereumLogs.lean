import EthereumLogs.Exceptions
import EthereumLogs.Library.Effect
import EthereumLogs.Library.Boundary
import EthereumLogs.Library.Tiling
import EthereumLogs.Library.Keyed
import EthereumLogs.Library.Grouping
import EthereumLogs.Library.Numeral
import EthereumLogs.Library.Retry
import EthereumLogs.Library.Spacing
import EthereumLogs.Library.Mask
import EthereumLogs.Library.Validation
import EthereumLogs.Library.Metering
import EthereumLogs.Library.Calendar
import EthereumLogs.Library.PrefixCode
import EthereumLogs.Python.Text
import EthereumLogs.Python.IntLiteral
import EthereumLogs.Python.Digits
import EthereumLogs.Python.HexSpelling
import EthereumLogs.Python.Value
import EthereumLogs.Python.JsonText
import EthereumLogs.Python.Datetime
import EthereumLogs.Python.Decimal
import EthereumLogs.Python.Row
import EthereumLogs.Python.Utf8
import EthereumLogs.Python.Lines
import EthereumLogs.Python.PyFloat
import EthereumLogs.Python.Url
import EthereumLogs.Chunking
import EthereumLogs.Config
import EthereumLogs.Config.Fingerprint
import EthereumLogs.RpcClient
import EthereumLogs.RpcTransport
import EthereumLogs.RpcTransport.Retry
import EthereumLogs.RpcTransport.RateLimit
import EthereumLogs.RpcTransport.Transient
import EthereumLogs.RpcTransport.Pacing
import EthereumLogs.RpcTransport.Waiting
import EthereumLogs.LogCollector
import EthereumLogs.LogCollector.Budget
import EthereumLogs.LogCollector.Exhaustion
import EthereumLogs.BlockRange.Resolve
import EthereumLogs.BlockRange.Search
import EthereumLogs.BlockRange.Interval
import EthereumLogs.BlockRange.Outcome
import EthereumLogs.BlockRange.Simulation
import EthereumLogs.BlockRange.FirstBlock
import EthereumLogs.BlockRange.Lookups
import EthereumLogs.BlockRange.RecentWindow
import EthereumLogs.BlockRange.LookupCost
import EthereumLogs.LogNormalizer
import EthereumLogs.LogNormalizer.EventFields
import EthereumLogs.LogNormalizer.Uint256
import EthereumLogs.LogNormalizer.HexFields
import EthereumLogs.LogNormalizer.Amounts
import EthereumLogs.NormalizedRows
import EthereumLogs.LogNormalizer.Rejection
import EthereumLogs.LogNormalizer.Spelling
import EthereumLogs.DeltaWriter.Write
import EthereumLogs.DeltaWriter.Contract
import EthereumLogs.DeltaWriter.Store
import EthereumLogs.DeltaWriter.Uint256Gate
import EthereumLogs.DeltaWriter.Respelled
import EthereumLogs.Pipeline
import EthereumLogs.Pipeline.Runs
import EthereumLogs.Pipeline.ExactlyOnce
import EthereumLogs.Pipeline.Exchange
import EthereumLogs.Pipeline.NothingLost
import EthereumLogs.Pipeline.Simulation
import EthereumLogs.Pipeline.MalformedLogs
import EthereumLogs.Pipeline.TransientRuns
import EthereumLogs.Dbt.Duckdb
import EthereumLogs.Dbt.Models
import EthereumLogs.Dbt.DecimalText
import EthereumLogs.Dbt.Amounts
import EthereumLogs.Dbt.Uint256Thresholds
import EthereumLogs.Dbt.AmountAgreement
import EthereumLogs.Dbt.Build
import EthereumLogs.Dbt.Silver
import EthereumLogs.Dbt.Gold
import EthereumLogs.Dbt.Balance
import EthereumLogs.Settings
import EthereumLogs.Settings.Validity
import EthereumLogs.DbtRunner.LogTail
import EthereumLogs.Dag
import EthereumLogs.Pipeline.Deployment
import EthereumLogs.Pipeline.HourlyTotals
import EthereumLogs.Pipeline.Reconciliation
import EthereumLogs.Dag.Task
import EthereumLogs.Pipeline.Attempts
import EthereumLogs.Pipeline.Provider
import EthereumLogs.Pipeline.ChainTables
import EthereumLogs.Dbt.Checks
import EthereumLogs.Pipeline.ChainFlows
import EthereumLogs.Pipeline.BuildGate
import EthereumLogs.Pipeline.Recovery
import EthereumLogs.LogNormalizer.Transfers
import EthereumLogs.Pipeline.Session
import EthereumLogs.Pipeline.RunCost
import EthereumLogs.Scripts.TransferSample
import EthereumLogs.QualityChecks
import EthereumLogs.Pipeline.Metrics
import EthereumLogs.Pipeline.WindowText
import EthereumLogs.Scripts.SmokeValidation
import EthereumLogs.Scripts.SmokeReport
import EthereumLogs.Dag.History
import EthereumLogs.Pipeline.SummaryView
