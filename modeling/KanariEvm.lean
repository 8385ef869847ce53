import KanariEvm.Primitives
import KanariEvm.Gas
import KanariEvm.Store
import KanariEvm.Json
import KanariEvm.Platform
import KanariEvm.ChainSpec
import KanariEvm.Node
import KanariEvm.Seal
import KanariEvm.Open
import KanariEvm.CacheRelations
import KanariEvm.Lib.Journal
import KanariEvm.Sealing
import KanariEvm.CacheDb
import KanariEvm.Conservation
import KanariEvm.CrashedOpen
import KanariEvm.FailedOpen
import KanariEvm.FailedSeal
import KanariEvm.History
import KanariEvm.Lib.Sweep
import KanariEvm.ReceiptFees
import KanariEvm.Respec
import KanariEvm.TraceHistory
import KanariEvm.Validator
import KanariEvm.ValidatorRestart
import KanariEvm.Acceptance
import KanariEvm.Clock
import KanariEvm.Leaves
import KanariEvm.Ledger
import KanariEvm.Lib.LastWrite
import KanariEvm.Once
import KanariEvm.OneChain
import KanariEvm.Reached
import KanariEvm.Tables
import KanariEvm.CacheInvariants
import KanariEvm.Migration
import KanariEvm.StateProofs
import KanariEvm.FeeRule
import KanariEvm.Decoders
import KanariEvm.Delegation
import KanariEvm.Emission
import KanariEvm.FeeHistory
import KanariEvm.Fixation
import KanariEvm.Lib.Listing
import KanariEvm.Lib.SweepLadder
import KanariEvm.Logs
import KanariEvm.QuotedFee
import KanariEvm.SenderQueue
import KanariEvm.DevWallet
import KanariEvm.Drips
import KanariEvm.Fork
import KanariEvm.ForkSnapshot
import KanariEvm.KeySurvival
import KanariEvm.ArmPanics
import KanariEvm.Batch
import KanariEvm.Committee
import KanariEvm.KeygenPorts
import KanariEvm.Payout
import KanariEvm.Precompiles
import KanariEvm.Seats
import KanariEvm.ViewsAgree
import KanariEvm.Databases
import KanariEvm.HexGrammar
import KanariEvm.Renderings
import KanariEvm.Clients
import KanariEvm.ContractCalls
import KanariEvm.Executor
import KanariEvm.ForkStart
import KanariEvm.Lib.SweepWatch
import KanariEvm.Mesh
import KanariEvm.Network
import KanariEvm.Registry
import KanariEvm.Keygen
import KanariEvm.FeeCorridor
import KanariEvm.Reset
import KanariEvm.ValidatorStart
