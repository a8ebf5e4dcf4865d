import BuyingClub.Service.Submission
import BuyingClub.Document.Records
import BuyingClub.Proofs.Store.Requests
import BuyingClub.Proofs.Command.Checks
import BuyingClub.Proofs.Command.Outcome
import BuyingClub.Proofs.OrderBook.Operations
import BuyingClub.Proofs.Command.Execution
import BuyingClub.Proofs.Command.Frame
import BuyingClub.Proofs.Desk.Steps
import BuyingClub.Proofs.Desk.Handling
import BuyingClub.Proofs.Reachability
import BuyingClub.Proofs.Rounding
import BuyingClub.Proofs.Binary64
import BuyingClub.Proofs.Amount
import BuyingClub.Proofs.OrderBook.Products
import BuyingClub.Proofs.OrderBook.Demand
import BuyingClub.Proofs.OrderBook.Sharing
import BuyingClub.Proofs.OrderBook.Surplus
import BuyingClub.Proofs.Consistency
import BuyingClub.Proofs.Conservation
import BuyingClub.Proofs.Adjusting
import BuyingClub.Proofs.LeavingAdjusting
import BuyingClub.Proofs.Concurrency.Commits
import BuyingClub.Proofs.Durability
import BuyingClub.Proofs.ExactHandout
import BuyingClub.Proofs.Command.Rows
import BuyingClub.Proofs.Command.Items
import BuyingClub.Proofs.Command.Bids
import BuyingClub.Proofs.History
import BuyingClub.Proofs.Integrity
import BuyingClub.Proofs.Reconciliation
import BuyingClub.Proofs.Store.Log
import BuyingClub.Proofs.Belongings
import BuyingClub.Proofs.Journal
import BuyingClub.Proofs.Endings
import BuyingClub.Proofs.Pickup
import BuyingClub.Proofs.Limits.Books
import BuyingClub.Proofs.Limits.Bids
import BuyingClub.Proofs.Checked.Amount
import BuyingClub.Proofs.Checked.Rounding
import BuyingClub.Proofs.Checked.Totals
import BuyingClub.Proofs.Checked.Balance
import BuyingClub.Proofs.Checked.Handout
import BuyingClub.Proofs.Checked.PickupSheet
import BuyingClub.Proofs.Limits.Amounts
import BuyingClub.Proofs.ComputedTotals
import BuyingClub.Proofs.MemberBids
import BuyingClub.Proofs.Readiness
import BuyingClub.Proofs.OrderBook.Wishes
import BuyingClub.Proofs.ConcurrentBids
import BuyingClub.Proofs.OrderBook.Renumbering
import BuyingClub.Proofs.Command.Renumbering
import BuyingClub.Proofs.Independence
import BuyingClub.Proofs.PurchaseOrder
import BuyingClub.Proofs.Reuse
import BuyingClub.Proofs.Workers
import BuyingClub.Proofs.Hundredths
import BuyingClub.Proofs.DecimalInput
import BuyingClub.Proofs.Documents
import BuyingClub.Proofs.Limits.Totals
import BuyingClub.Proofs.StoredRuns
import BuyingClub.Proofs.OrderBook.ByProduct
import BuyingClub.Proofs.FairShares
import BuyingClub.Proofs.HandoutByProduct
import BuyingClub.Proofs.OrderBook.PickupSheet
import BuyingClub.Proofs.PickupSheets
import BuyingClub.Proofs.OrderBook.InPlace
import BuyingClub.Proofs.BidChanges
import BuyingClub.Proofs.DrawnUpLists
import BuyingClub.Proofs.AllowedChanges
import BuyingClub.Proofs.LeftToCollect
