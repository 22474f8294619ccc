import MarketMaker.Archive
import MarketMaker.Decimal.Standard
import MarketMaker.Ledger.Basic
import MarketMaker.PaperMarket
import MarketMaker.StatusReport
import MarketMaker.Wire
/-!
What happened, as JSON for other programs: fills and trades, the state of venues and quotes, the
outcome of ticks and hedges, and the rows of the ledger and the archive. Numbers are texts that
keep their places; times are in UTC.
-/

namespace MarketMaker

namespace Report

open Json (ofDecimal ofWord)

def count (n : Nat) : Json := .int n

def time (t : Instant) : Json := .str t.toText

def optional {α : Type} (f : α → Json) : Option α → Json
  | some x => f x
  | none => .null

def optionalText : Option String → Json := optional .str

def optionalDecimal : Option Decimal → Json := optional ofDecimal

def pair (p : Pair) : Json := .str p.toText

def list {α : Type} (f : α → Json) (xs : List α) : Json := .arr (xs.map f)

/-! ### Markets -/

def level (l : Level) : Json := .arr [ofDecimal l.price, ofDecimal l.amount]

def book (b : OrderBook) : Json :=
  .obj [("pair", pair b.pair), ("time", time b.time), ("bids", list level b.bids),
    ("asks", list level b.asks)]

def fill (f : Fill) : Json :=
  .obj [("order_id", .str f.orderId), ("pair", pair f.pair), ("side", f.side.toJson),
    ("price", ofDecimal f.price), ("amount", ofDecimal f.amount), ("time", time f.time)]

def restingOrder (o : RestingOrder) : Json :=
  .obj [("order_id", .str o.id), ("pair", pair o.pair), ("side", o.side.toJson),
    ("price", ofDecimal o.price), ("quantity", ofDecimal o.quantity),
    ("created_at", time o.createdAt)]

def trade (t : Trade) : Json :=
  .obj [("pair", pair t.pair), ("time", time t.time), ("price", ofDecimal t.price),
    ("amount", ofDecimal t.amount), ("side", t.side.toJson), ("is_aggressive", .bool t.aggressive)]

def candidate (c : Candidate) : Json :=
  .obj [("pair", pair c.pair), ("side", c.side.toJson), ("is_maker", .bool c.isMaker),
    ("amount", ofDecimal c.amount), ("price", ofDecimal c.price)]

def venue (v : SimulatedVenue) : Json :=
  .obj [("balances", .obj (v.balances.map fun (asset, amount) => (asset, ofDecimal amount))),
    ("resting", list restingOrder v.activeOrders), ("total_fees", ofDecimal v.totalFees),
    ("order_count", count v.orderCount), ("tape", count v.tape.length),
    ("reject_next_orders", count v.rejections), ("reject_cancels", .bool v.rejectsCancels)]

def orderEntry (e : OrderEntry) : Json :=
  .obj [("order_id", .str e.id), ("pair", pair e.pair), ("side", e.side.toJson),
    ("type", e.orderType.toJson), ("amount", ofDecimal e.amount), ("price", ofDecimal e.price),
    ("executed", ofDecimal e.executed)]

def mids (m : PaperMids) : Json := .arr [ofDecimal m.maker, ofDecimal m.taker]

def market (m : Market) : Json :=
  .obj [("venue", .str m.venue), ("pair", pair m.pair), ("tick_size", ofDecimal m.tickSize),
    ("lot_size", ofDecimal m.lotSize)]

def parameters (p : Parameters) : Json :=
  .obj [("maker", market p.maker), ("taker", market p.taker),
    ("order_amount", ofDecimal p.orderAmount), ("spread_bps", ofDecimal p.spread),
    ("min_spread_bps", ofDecimal p.minSpread), ("slippage_buffer_bps", ofDecimal p.slippageBuffer),
    ("max_order_age_secs", .int p.maxOrderAge.seconds), ("maker_fee", ofDecimal p.makerFee),
    ("taker_fee", ofDecimal p.takerFee), ("min_order_amount", ofDecimal p.minOrderAmount),
    ("halt_on_unhedged_fill", .bool p.haltOnUnhedgedFill)]

/-! ### Quotes and hedges -/

def trackedOrder (o : TrackedOrder) : Checked Json := do
  let filled ← o.filled
  return .obj [("order_id", .str o.id), ("side", o.side.toJson), ("price", ofDecimal o.price),
    ("original_quantity", ofDecimal o.initialQuantity), ("remaining", ofDecimal o.remaining),
    ("filled", ofDecimal filled), ("created_at", time o.createdAt)]

def trackedOption : Option TrackedOrder → Checked Json
  | some o => trackedOrder o
  | none => .ok .null

def quoteBook (b : QuoteBook) : Checked Json := do
  return .obj [("buy", ← trackedOption b.buy), ("sell", ← trackedOption b.sell)]

def reason (r : CancelReason) : Json :=
  match r with
  | .priceDrift price threshold =>
    .obj [("kind", .str "price_drift"), ("price", ofDecimal price),
      ("threshold", ofDecimal threshold), ("text", .str r.message)]
  | .expired age =>
    .obj [("kind", .str "expired"), ("age_ms", .int age.milliseconds), ("text", .str r.message)]

def placementFields : Placement → List (String × Json)
  | .placed id price amount =>
    [("outcome", .str "placed"), ("order_id", .str id), ("price", ofDecimal price),
      ("amount", ofDecimal amount)]
  | .alreadyResting => [("outcome", .str "already_resting")]
  | .positionLimit => [("outcome", .str "position_limit")]
  | .zeroAmount => [("outcome", .str "zero_amount")]
  | .failed message => [("outcome", .str "failed"), ("message", .str message)]

def placement (p : Side × Placement) : Json :=
  .obj (("side", p.1.toJson) :: placementFields p.2)

def cancellation (c : CancelOutcome) : Json :=
  let (id, side, detail) := match c with
    | .cancelled id side why | .orphanCancelled id side why => (id, side, [("reason", reason why)])
    | .cancelFailed id side message => (id, side, [("message", .str message)])
    | .released id side => (id, side, [])
  .obj ([("outcome", .str (Ledger.eventName c)), ("order_id", .str id), ("side", side.toJson)] ++
    detail)

def quotes (q : MarketQuotes) : Json :=
  .obj [("taker_buy", ofDecimal q.takerBuy), ("taker_sell", ofDecimal q.takerSell),
    ("maker_buy", ofDecimal q.makerBuy), ("maker_sell", ofDecimal q.makerSell)]

def tick (t : TickReport) : Json :=
  .obj [("skipped", optionalText t.skipped), ("quotes", optional quotes t.quotes),
    ("placements", list placement t.placements),
    ("cancellations", list cancellation t.cancellations), ("placed", count t.placed)]

def unhedgedKind : UnhedgedReason → String
  | .priceUnavailable _ => "price_unavailable"
  | .budgetCheckFailed _ => "budget_check_failed"
  | .zeroAmount => "zero_amount"
  | .submitFailed _ => "submit_failed"

def hedge : HedgeOutcome → Json
  | .ignored => .obj [("outcome", .str "ignored")]
  | .hedged r =>
    .obj [("outcome", .str "hedged"), ("fill_order_id", .str r.fillOrderId),
      ("fill_side", r.fillSide.toJson), ("fill_price", ofDecimal r.fillPrice),
      ("fill_amount", ofDecimal r.fillAmount), ("hedge_order_id", .str r.hedgeOrderId),
      ("hedge_side", r.hedgeSide.toJson), ("hedge_price", ofDecimal r.hedgePrice),
      ("hedge_amount", ofDecimal r.hedgeAmount), ("profit", ofDecimal r.profit),
      ("maker_remaining", ofDecimal r.makerRemaining),
      ("unhedged_residual", ofDecimal r.unhedgedResidual), ("time", time r.time)]
  | .unhedged u =>
    .obj [("outcome", .str "unhedged"), ("fill", fill u.fill),
      ("reason", .str (unhedgedKind u.reason)), ("text", .str u.reason.message),
      ("maker_remaining", ofDecimal u.makerRemaining)]

def balanceRow (b : BalanceRow) : Json :=
  .arr [.str b.venue, .str b.asset, ofDecimal b.amount]

def exchangeRow (e : ExchangeRow) : Json :=
  .obj [("venue", .str e.venue), ("pair", pair e.pair), ("mid", ofDecimal e.mid),
    ("buy", ofDecimal e.buy), ("sell", ofDecimal e.sell),
    ("buy_spread_bps", ofDecimal e.buySpread), ("sell_spread_bps", ofDecimal e.sellSpread)]

def orderRow (o : OrderRow) : Json :=
  .obj [("venue", .str o.venue), ("pair", pair o.pair), ("side", o.side.toJson),
    ("price", ofDecimal o.price), ("amount", ofDecimal o.amount),
    ("spread_mid_bps", ofDecimal o.spreadMid), ("spread_cancel_bps", ofDecimal o.spreadCancel),
    ("age_ms", .int o.age.milliseconds)]

def status (r : StatusReport) : Json :=
  .obj [("balances", list balanceRow r.balances), ("exchanges", list exchangeRow r.exchanges),
    ("orders", list orderRow r.orders), ("total_profit", ofDecimal r.profit.total),
    ("hedge_count", ofWord r.profit.hedgeCount), ("unhedged_count", ofWord r.profit.unhedgedCount),
    ("halted", .bool r.halted), ("text", .str r.render)]

/-- What the engine keeps between ticks. -/
def engineFields (e : Engine) : Checked (List (String × Json)) := do
  return [("book", ← quoteBook e.book), ("profit", e.profit.toJson), ("halted", .bool e.halted)]

/-! ### Ledger and archive -/

def hedgeEntryFields (h : HedgeEntry) : List (String × Json) :=
  [("status", .str h.status), ("fill_order_id", .str h.fillOrderId), ("fill_side", .str h.fillSide),
    ("fill_price", ofDecimal h.fillPrice), ("fill_amount", ofDecimal h.fillAmount),
    ("hedge_order_id", optionalText h.hedgeOrderId), ("hedge_price", optionalDecimal h.hedgePrice),
    ("hedge_amount", optionalDecimal h.hedgeAmount), ("profit", ofDecimal h.profit),
    ("reason", optionalText h.reason)]

def savedStateFields (s : SavedState) : List (String × Json) :=
  [("total", ofDecimal s.profit.total), ("hedge_count", ofWord s.profit.hedgeCount),
    ("unhedged_count", ofWord s.profit.unhedgedCount), ("halted", .bool s.halted)]

def eventCounts (l : Ledger) : Json :=
  .obj (Ledger.eventNames.map fun name => (name, count (l.eventCount name)))

def quoteEvent (r : QuoteEvent) : List Json :=
  [.str r.time, .str r.venue, .str r.pair, .str r.event, .str r.side, .str r.orderId,
    optionalText r.price, optionalText r.amount, optionalText r.reason]

def hedgeRow (r : HedgeRow) : List Json :=
  [.str r.time, .str r.status, .str r.fillOrderId, .str r.fillSide, .str r.fillPrice,
    .str r.fillAmount, optionalText r.hedgeOrderId, .str r.hedgeSide, optionalText r.hedgePrice,
    optionalText r.hedgeAmount, .str r.profit, optionalText r.reason]

def flag (b : Bool) : Json := .int (if b then 1 else 0)

def totalsRow (r : TotalsRow) : List Json :=
  [.str r.total, ofWord r.hedgeCount, ofWord r.unhedgedCount, flag r.halted, .str r.lastSaved]

/-- Rows with their numbers from one. -/
def numbered {α : Type} (row : α → List Json) (rows : List α) : Json :=
  .arr ((rows.zipIdx 1).map fun (r, i) => .arr (count i :: row r))

def bookRow (r : BookRow) : Json :=
  .arr [.str r.venue, .str r.pair, .str r.time, .str r.bids, .str r.asks]

def tradeRow (r : TradeRow) : Json :=
  .arr [.str r.venue, .str r.pair, .str r.time, .str r.price, .str r.amount, .str r.side,
    flag r.aggressive]

end Report

end MarketMaker
