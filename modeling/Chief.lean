import Chief.Foundation.Text
import Chief.Foundation.Calendar
import Chief.Foundation.Loops
import Chief.Foundation.Runs
import Chief.Foundation.BTreeMap
import Chief.Error
import Chief.Isotime
import Chief.Organization.Manifest
import Chief.Organization.Validate
import Chief.Supervision.Ledger
import Chief.Activity.Ledger
import Chief.Activity.Validate
import Chief.Activity.Transitions
import Chief.Activity.Roster
import Chief.Ledgers
import Chief.Activity.Commands
import Chief.Activity.Reconcile
import Chief.Activity.Edits
import Chief.Activity.Chains
import Chief.Activity.PassChains
import Chief.Activity.Passes
import Chief.Activity.Repair
import Chief.Activity.Operations
import Chief.Activity.Runs
import Chief.Activity.Validity
import Chief.Activity.LaunchFence
import Chief.Activity.Totality
import Chief.Activity.Executive
import Chief.Activity.History
import Chief.Activity.IdleGrace
import Chief.Organization.ControlAuthority
import Chief.Supervision.Mutate
import Chief.Supervision.Delivery
import Chief.Supervision.Reminders
import Chief.Supervision.Ingest
import Chief.Supervision.Outbox
import Chief.Supervision.Runs
import Chief.Supervision.Retries
import Chief.Supervision.Sequences
import Chief.Foundation.Leases
import Chief.Converge.Safety
import Chief.Converge.SingleFlight
import Chief.Foundation.CircuitBreaker
import Chief.Converge.Breaker
import Chief.Mailbox.Store
import Chief.Supervision.Dispatch
import Chief.Supervision.Dispatching
import Chief.Supervision.Routing
import Chief.Mailbox.Delta
import Chief.Mailbox.Forgery
import Chief.Supervision.Windows
import Chief.Runtime.Desired
import Chief.Runtime.Agreement
