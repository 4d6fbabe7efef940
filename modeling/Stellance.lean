import Stellance.Library.CheckedInt
import Stellance.Library.Runs
import Stellance.Library.Cell
import Stellance.Library.Chains
import Stellance.Library.Fallible
import Stellance.Library.KeyedTotal
import Stellance.Library.Pot
import Stellance.Library.Process
import Stellance.Library.Reliance
import Stellance.Library.Polling
import Stellance.Library.Interruption
import Stellance.Library.Table
import Stellance.Library.Double
import Stellance.Library.Lease
import Stellance.Library.Rounding
import Stellance.Library.Binary64
import Stellance.Library.Paging
import Stellance.Library.Subjects
import Stellance.Library.Grouping
import Stellance.Escrow.Types
import Stellance.Escrow.Contract
import Stellance.Escrow.Calls
import Stellance.Escrow.Moves
import Stellance.Escrow.Bank
import Stellance.Escrow.Token
import Stellance.Escrow.Steps
import Stellance.Escrow.Lifecycle
import Stellance.Escrow.Conservation
import Stellance.Escrow.Booking
import Stellance.Escrow.Authority
import Stellance.Escrow.Refusals
import Stellance.Escrow.Solvency
import Stellance.Escrow.History
import Stellance.Escrow.Payees
import Stellance.Escrow.Replay
import Stellance.Escrow.Independence
import Stellance.Escrow.Installments
import Stellance.Escrow.Splits
import Stellance.Escrow.Lifetimes
import Stellance.Backend.Ids
import Stellance.Backend.Data
import Stellance.Backend.Numbers
import Stellance.Backend.Conversion
import Stellance.Backend.EscrowService
import Stellance.Backend.ContractsService
import Stellance.Backend.Server
import Stellance.Backend.Requests
import Stellance.Backend.Effects
import Stellance.Backend.Dossier
import Stellance.Backend.Database
import Stellance.Backend.Tracking
import Stellance.Backend.Joint
import Stellance.Backend.Interleaving
import Stellance.Backend.Interpreter
import Stellance.Backend.Cancellation
import Stellance.Backend.Refinement
import Stellance.Backend.Funding
import Stellance.Backend.Approval
import Stellance.Library.Transcript
import Stellance.Library.Serial
import Stellance.Backend.Script
import Stellance.Backend.Guards
import Stellance.Backend.Readings
import Stellance.Backend.Columns
import Stellance.Backend.Finality
import Stellance.Backend.Vouched
import Stellance.Backend.Completion
import Stellance.Backend.Retries
import Stellance.Backend.Submission
import Stellance.Backend.JobsService
import Stellance.Backend.Listing
import Stellance.Backend.Notifications
import Stellance.Backend.Delivery
import Stellance.Backend.Marketplace
import Stellance.Backend.Vacancy
import Stellance.Library.Services
import Stellance.Backend.Hiring
import Stellance.Backend.PaymentsService
import Stellance.Backend.Earnings
import Stellance.Backend.Balances
import Stellance.Backend.Withdrawals
import Stellance.Backend.Decimals
import Stellance.Backend.Stroops
import Stellance.Backend.Views
import Stellance.Backend.Keys
import Stellance.Backend.ContractsList
import Stellance.Auth.Data
import Stellance.Auth.AuthService
import Stellance.Auth.UsersService
import Stellance.Auth.Server
import Stellance.Auth.Script
import Stellance.Auth.Database
import Stellance.Auth.Roles
import Stellance.Auth.Readings
import Stellance.Auth.Interpreter
import Stellance.Auth.Rotation
import Stellance.Auth.Versions
import Stellance.Auth.Reuse
import Stellance.Auth.AccessTokens
import Stellance.Auth.Lives
import Stellance.Auth.Turns
import Stellance.Auth.Serializability
import Stellance.Auth.Anomalies
import Stellance.Auth.Holders
import Stellance.Auth.Browsers
import Stellance.Auth.Credentials
import Stellance.Platform.Admins
import Stellance.Platform.Profiles
import Stellance.Library.Confinement
import Stellance.Backend.Inbox
import Stellance.Backend.Announcements
import Stellance.Backend.Books
import Stellance.Frontend.JobsPage
import Stellance.Frontend.Wallet
import Stellance.Frontend.Connections
