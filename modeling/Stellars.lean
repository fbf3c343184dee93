import Stellars.Custody
import Stellars.AggregatePnl
import Stellars.EntryAveraging
import Stellars.Solvency
import Stellars.BorrowIntegral
import Stellars.SplitClose
import Stellars.TimelockedUpgrade
import Stellars.PriceFreshness
import Stellars.RealizedCash
import Stellars.Lockup
import Stellars.FairExit
import Stellars.PositionBounds
import Stellars.SyncedExit
import Stellars.FundingBalance
import Stellars.KeeperMirror
import Stellars.LogReplay
import Stellars.AdminHandover
import Stellars.MedianPrice
import Stellars.IndexAveraging
import Stellars.Settlement
import Stellars.LiquidationLiveness
import Stellars.AdlGate
import Stellars.LockupInterference
import Stellars.SoleAverage
import Stellars.CollateralFloor
import Stellars.TrapFreedom
import Stellars.UtilizationCap
import Stellars.LiquidationPrice
import Stellars.IncreaseQuote
import Stellars.IncreaseHealth
import Stellars.KeeperAdl
import Stellars.ExitLimits
import Stellars.EscrowLifecycle
import Stellars.OraclePublisher
import Stellars.AsyncQueue
import Stellars.EventStreams
import Stellars.AdlTarget
import Stellars.AverageDrift
import Stellars.RefreshFrequency
import Stellars.FundingSymmetry
import Stellars.KeeperDedup
import Stellars.SqlTransactions
import Stellars.EventIngestion
import Stellars.Broadcaster
import Stellars.ConnectionAttempts
import Stellars.Reconnection
import Stellars.Promises
import Stellars.SubmissionQueue
import Stellars.KeeperExecutor
import Stellars.IngestionRecovery
import Stellars.Authority
import Stellars.EmergencyBrake
import Stellars.FeeLedger
import Stellars.EventFormat
import Stellars.ConfigMirror
import Stellars.PoolRates
import Stellars.SharePrice
import Stellars.KeeperTicks
import Stellars.PriceProvenance
