import MarketMaker.Main
import MarketMaker.Report
import MarketMaker.Venue.Faults
import MarketMaker.Venue.Registry
import MarketMaker.Wire
import MarketMaker.Proofs.Engine.Margin
import MarketMaker.Proofs.Session.Inventory
import MarketMaker.Proofs.Session.Totals
import MarketMaker.Proofs.Trading.Runs
import MarketMaker.Proofs.Venue.Overdraft
import MarketMaker.Proofs.Engine.Halting
import MarketMaker.Proofs.Venue.Accounting
import MarketMaker.Proofs.Engine.Reachable
import MarketMaker.Proofs.Engine.Passes
import MarketMaker.Proofs.Engine.Settling
import MarketMaker.Proofs.Session.Closing
import MarketMaker.Proofs.Archive
import MarketMaker.Proofs.Ledger.Log
import MarketMaker.Proofs.Engine.Completion
import MarketMaker.Proofs.Engine.Forgetting
import MarketMaker.Proofs.Engine.Independence
import MarketMaker.Proofs.Venue.Quotation
import MarketMaker.Proofs.Venue.Affordability
import MarketMaker.Proofs.Venue.Crossing
import MarketMaker.Proofs.Venue.Refusals
import MarketMaker.Proofs.Engine.Placing
import MarketMaker.Proofs.Engine.Cancelling
import MarketMaker.Proofs.Config.Construction
import MarketMaker.Proofs.PaperBook
import MarketMaker.Proofs.PaperMids
import MarketMaker.Proofs.Session.Draining
import MarketMaker.Proofs.StatusReport
import MarketMaker.Proofs.Tick
import MarketMaker.Proofs.QuoteHistory
import MarketMaker.Proofs.Config.Reloading
