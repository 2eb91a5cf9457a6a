import Kael.Lib.NestedCalls
import Kael.Lib.Escrow
import Kael.Lib.Ledger
import Kael.Lib.BigEndian
import Kael.Lib.Runs
import Kael.Lib.Histories
import Kael.Lib.Selection
import Kael.Lib.Text
import Kael.Contracts.Evm
import Kael.Contracts.HashedTimelock
import Kael.Contracts.Reentrancy
import Kael.Contracts.Solvency
import Kael.Contracts.Transactions
import Kael.Contracts.WriteOnce
import Kael.Contracts.Order
import Kael.Contracts.Settlement
import Kael.Contracts.Exchange
import Kael.Contracts.SingleCalls
import Kael.Contracts.Records
import Kael.Contracts.Events
import Kael.Contracts.Funds
import Kael.Contracts.PassThrough
import Kael.Contracts.Refinement
import Kael.Contracts.Deadlines
import Kael.Contracts.LogHistory
import Kael.Contracts.Replay
import Kael.Contracts.Interference
import Kael.Contracts.Authorization
import Kael.Lib.Deliveries
import Kael.Swapkit.Verify
import Kael.Swapkit.StateMachine
import Kael.Maestro.Tracker
import Kael.Maestro.Watcher
import Kael.Maestro.Ingestion
import Kael.Swapkit.Chain
import Kael.Swapkit.Observe
import Kael.Swapkit.Tx
import Kael.CrossChain.MakerAtomicity
import Kael.CrossChain.Wallet
import Kael.CrossChain.Receipts
import Kael.CrossChain.TakerSecrecy
import Kael.Orderbook.Eip712
import Kael.Orderbook.Matching
import Kael.Orderbook.Book
import Kael.Orderbook.Neutrality
import Kael.Orderbook.Wire
import Kael.Orderbook.Server
import Kael.Swapkit.Handshake
import Kael.Swapkit.Rounds
import Kael.Swapkit.Executor
import Kael.Swapkit.Progress
import Kael.Swapkit.Runner
import Kael.Swapkit.SecretGeneration
import Kael.Maestro.Arrivals
import Kael.Maestro.Mirror
import Kael.Swapkit.Reorgs
import Kael.Swapkit.Discovery
import Kael.Swapkit.Depth
import Kael.Swapkit.LockIds
import Kael.Maestro.Loop
import Kael.Swapkit.Looks
import Kael.CrossChain.Legs
import Kael.CrossChain.Parties
import Kael.CrossChain.HonestSwap
import Kael.CrossChain.MatchedSwap
import Kael.Orderbook.Signing
import Kael.CrossChain.Funding
import Kael.Swapkit.Signer
import Kael.ClosedTestnet.Config
import Kael.Swapkit.Sends
import Kael.ClosedTestnet.Swap
