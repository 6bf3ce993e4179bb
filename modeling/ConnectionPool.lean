import ConnectionPool.Document.Reader
import ConnectionPool.Document.Settings
import ConnectionPool.Document.Writer
import ConnectionPool.Session.Run
import ConnectionPool.Proofs.Traffic.Basic
import ConnectionPool.Proofs.Traffic.Flow
import ConnectionPool.Proofs.Traffic.Slots
import ConnectionPool.Proofs.Traffic.Wakeup
import ConnectionPool.Proofs.Traffic.Episode
import ConnectionPool.Proofs.Traffic.Order
import ConnectionPool.Proofs.Traffic.Return
import ConnectionPool.Proofs.Traffic.Closing
import ConnectionPool.Proofs.Traffic.Tally
import ConnectionPool.Proofs.Traffic.Reconciliation
import ConnectionPool.Proofs.Traffic.Sequential
import ConnectionPool.Proofs.Cache.Basic
import ConnectionPool.Proofs.Cache.Recency
import ConnectionPool.Proofs.Cache.Accounts
import ConnectionPool.Proofs.Script.Bare
import ConnectionPool.Proofs.Script.Genuine
import ConnectionPool.Proofs.Script.Transparency
import ConnectionPool.Proofs.Script.Holdings
import ConnectionPool.Proofs.Script.Offers
import ConnectionPool.Proofs.Script.Hits
import ConnectionPool.Proofs.Script.Outdated
import ConnectionPool.Proofs.Script.Execution
import ConnectionPool.Proofs.Script.Inclusion
import ConnectionPool.Proofs.Script.Stillness
import ConnectionPool.Proofs.Script.Setback
import ConnectionPool.Proofs.Nesting.Basic
import ConnectionPool.Proofs.Nesting.Failure
import ConnectionPool.Proofs.Sharing.Basic
import ConnectionPool.Proofs.Sharing.Staleness
import ConnectionPool.Proofs.Stock
import ConnectionPool.Proofs.Trades
import ConnectionPool.Proofs.Custody.Basic
import ConnectionPool.Proofs.Custody.Charge
import ConnectionPool.Proofs.Custody.Pool
import ConnectionPool.Proofs.Custody.Ledger
import ConnectionPool.Proofs.Custody.Session
import ConnectionPool.Proofs.Custody.Steps
import ConnectionPool.Proofs.Custody.PoolSteps
import ConnectionPool.Proofs.Custody.Conservation
import ConnectionPool.Proofs.Estate.Service
import ConnectionPool.Proofs.Estate.Basic
import ConnectionPool.Proofs.Estate.Session
import ConnectionPool.Proofs.Estate.Order
import ConnectionPool.Proofs.Estate.PoolOrder
import ConnectionPool.Proofs.Estate.Settled
import ConnectionPool.Proofs.Estate.PoolSettled
import ConnectionPool.Proofs.Estate.Steps
import ConnectionPool.Proofs.Estate.PoolSteps
import ConnectionPool.Proofs.Estate.Run
import ConnectionPool.Proofs.Estate.Conservation
import ConnectionPool.Proofs.WarmUp
import ConnectionPool.Proofs.Agreement
import ConnectionPool.Proofs.Traffic.Timeout
import ConnectionPool.Proofs.Traffic.Members
import ConnectionPool.Proofs.Traffic.Metadata
import ConnectionPool.Proofs.Text.Pattern
import ConnectionPool.Proofs.Text.SchemaChange
import ConnectionPool.Proofs.Document.Text
import ConnectionPool.Proofs.Document.Settings
import ConnectionPool.Proofs.Nesting.Calls
import ConnectionPool.Proofs.Nesting.Tower
import ConnectionPool.Proofs.Nesting.Slots
import ConnectionPool.Proofs.Nesting.Filling
import ConnectionPool.Proofs.Nesting.Climb
import ConnectionPool.Proofs.Nesting.Reentry
import ConnectionPool.Proofs.Traffic.Aborts
