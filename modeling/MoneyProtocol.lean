import MoneyProtocol.Accounting.BorrowerOperations
import MoneyProtocol.Accounting.Calls
import MoneyProtocol.Accounting.Decay
import MoneyProtocol.Accounting.Frames
import MoneyProtocol.Accounting.Ledger
import MoneyProtocol.Accounting.Liquidation
import MoneyProtocol.Accounting.Redemption
import MoneyProtocol.Accounting.RedemptionRate
import MoneyProtocol.Accounting.StabilityPool
import MoneyProtocol.Accounting.Standing
import MoneyProtocol.Accounting.System
import MoneyProtocol.Accounting.Transactions
import MoneyProtocol.Accounting.Vaults
import MoneyProtocol.Book.BorrowerOperations
import MoneyProtocol.Book.Calls
import MoneyProtocol.Book.Coverage
import MoneyProtocol.Book.Effects
import MoneyProtocol.Book.InsertPosition
import MoneyProtocol.Book.Liquidation
import MoneyProtocol.Book.Moves
import MoneyProtocol.Book.Order
import MoneyProtocol.Book.Redemption
import MoneyProtocol.Book.Registry
import MoneyProtocol.Book.Runs
import MoneyProtocol.Book.SortedVaults
import MoneyProtocol.Book.Transactions
import MoneyProtocol.Book.Vaults
import MoneyProtocol.Contracts.BorrowerOperations
import MoneyProtocol.Contracts.BorrowerWrappersScript
import MoneyProtocol.Contracts.Liquidation
import MoneyProtocol.Contracts.Lockup
import MoneyProtocol.Contracts.Math
import MoneyProtocol.Contracts.MultiVaultGetter
import MoneyProtocol.Contracts.Operations
import MoneyProtocol.Contracts.Pools
import MoneyProtocol.Contracts.PriceFeed
import MoneyProtocol.Contracts.Redemption
import MoneyProtocol.Contracts.RskSwapPool
import MoneyProtocol.Contracts.SortedVaults
import MoneyProtocol.Contracts.StabilityPool
import MoneyProtocol.Contracts.State
import MoneyProtocol.Contracts.Tokens
import MoneyProtocol.Contracts.VaultManager
import MoneyProtocol.Frontend.Changes
import MoneyProtocol.Frontend.ContractChecks
import MoneyProtocol.Frontend.DepositForm
import MoneyProtocol.Frontend.Forms
import MoneyProtocol.Frontend.Soundness
import MoneyProtocol.Frontend.StakeForm
import MoneyProtocol.Frontend.ValidateVaultChange
import MoneyProtocol.Frontend.VaultForm
import MoneyProtocol.Frontend.VaultRuns
import MoneyProtocol.Frontend.Watched
import MoneyProtocol.Isolation.Accounts
import MoneyProtocol.Isolation.Deposits
import MoneyProtocol.Isolation.Earnings
import MoneyProtocol.Isolation.Holdings
import MoneyProtocol.Isolation.LPRewards
import MoneyProtocol.Isolation.Liquidation
import MoneyProtocol.Isolation.Loans
import MoneyProtocol.Isolation.Redemption
import MoneyProtocol.Isolation.Vaults
import MoneyProtocol.Library.Accumulator
import MoneyProtocol.Library.DecimalPower
import MoneyProtocol.Library.Digits
import MoneyProtocol.Library.Edits
import MoneyProtocol.Library.IndexedList
import MoneyProtocol.Library.LinkedList
import MoneyProtocol.Library.Machine
import MoneyProtocol.Library.Outcome
import MoneyProtocol.Library.PointSum
import MoneyProtocol.Library.Shares
import MoneyProtocol.Pool.Calls
import MoneyProtocol.Pool.Compounding
import MoneyProtocol.Pool.Effects
import MoneyProtocol.Pool.FrontEnds
import MoneyProtocol.Pool.Issuance
import MoneyProtocol.Pool.Runs
import MoneyProtocol.Pool.Solvency
import MoneyProtocol.Pool.Worth
import MoneyProtocol.Providers.BatchedProvider
import MoneyProtocol.Providers.Batching
import MoneyProtocol.Providers.BlockEvents
import MoneyProtocol.Providers.WebSocketAugmentedProvider
import MoneyProtocol.Redemption.Lots
import MoneyProtocol.Redemption.Positions
import MoneyProtocol.Redemption.Stops
import MoneyProtocol.Redemption.Vaults
import MoneyProtocol.Safety.Balances
import MoneyProtocol.Safety.BaseRate
import MoneyProtocol.Safety.Clocks
import MoneyProtocol.Safety.CompoundedStakes
import MoneyProtocol.Safety.DefaultPool
import MoneyProtocol.Safety.Epochs
import MoneyProtocol.Safety.FrontEndStakes
import MoneyProtocol.Safety.HintedPosition
import MoneyProtocol.Safety.IssuanceSolvency
import MoneyProtocol.Safety.LPRewards
import MoneyProtocol.Safety.Lockup
import MoneyProtocol.Safety.MPStaking
import MoneyProtocol.Safety.Membership
import MoneyProtocol.Safety.NormalMode
import MoneyProtocol.Safety.Oracles
import MoneyProtocol.Safety.Order
import MoneyProtocol.Safety.Pagination
import MoneyProtocol.Safety.PoolSolvency
import MoneyProtocol.Safety.Product
import MoneyProtocol.Safety.RecoveryMode
import MoneyProtocol.Safety.Recycling
import MoneyProtocol.Safety.RedemptionFairness
import MoneyProtocol.Safety.RedemptionHints
import MoneyProtocol.Safety.RedemptionPositions
import MoneyProtocol.Safety.RedemptionRate
import MoneyProtocol.Safety.Reserves
import MoneyProtocol.Safety.RoundedPowers
import MoneyProtocol.Safety.SequenceAndBatch
import MoneyProtocol.Safety.SortedList
import MoneyProtocol.Safety.Stakes
import MoneyProtocol.Safety.Surplus
import MoneyProtocol.Safety.Trackers
import MoneyProtocol.Sdk.Agreement
import MoneyProtocol.Sdk.Decimal
import MoneyProtocol.Sdk.Deposits
import MoneyProtocol.Sdk.Fees
import MoneyProtocol.Sdk.Hints
import MoneyProtocol.Sdk.Parsing
import MoneyProtocol.Sdk.Printing
import MoneyProtocol.Sdk.Rates
import MoneyProtocol.Sdk.Redemption
import MoneyProtocol.Sdk.Truncation
import MoneyProtocol.Sdk.Vault
import MoneyProtocol.Store.BaseState
import MoneyProtocol.Store.BlockPolledMoneypStore
import MoneyProtocol.Store.CachedReadable
import MoneyProtocol.Store.CachedReads
import MoneyProtocol.Store.FailedReads
import MoneyProtocol.Store.MoneypStore
import MoneyProtocol.Store.Stopping
import MoneyProtocol.Subgraph.Surplus
