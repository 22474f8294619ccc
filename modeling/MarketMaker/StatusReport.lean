import MarketMaker.Engine
import MarketMaker.Text.Column
/-!
The status report: balances, the prices of both venues and their edge over each other, and the
resting quotes with their distance to the mid price and to the threshold.
-/

namespace MarketMaker

structure BalanceRow where
  venue : String
  asset : String
  amount : Decimal
deriving DecidableEq

/-- Executable prices on one venue, and how far each is worse than on the other. -/
structure ExchangeRow where
  venue : String
  pair : Pair
  mid : Decimal
  buy : Decimal
  sell : Decimal
  buySpread : Decimal
  sellSpread : Decimal
deriving DecidableEq

/-- A quote; its distance to the threshold is positive while it is safe. -/
structure OrderRow where
  venue : String
  pair : Pair
  side : Side
  price : Decimal
  amount : Decimal
  spreadMid : Decimal
  spreadCancel : Decimal
  age : Span
deriving DecidableEq

namespace OrderRow

/-- Rows go by the texts of their pairs, and those of one pair by the texts of their sides. -/
def ahead (a b : OrderRow) : Bool :=
  (compareLex (compareOn fun row => row.pair.toText) (compareOn fun row => row.side.text) a b).isLE

end OrderRow

structure StatusReport where
  balances : List BalanceRow
  exchanges : List ExchangeRow
  orders : List OrderRow
  profit : Profit
  halted : Bool
deriving DecidableEq

namespace StatusReport

variable [Arithmetic]

/-- Both venues, the maker first; what one gains in spread the other loses. -/
def exchangeRows (p : Parameters) (quotes : MarketQuotes) (makerMid takerMid : Decimal) :
    Checked (List ExchangeRow) := do
  let buySpread ← BasisPoints.spread quotes.makerBuy quotes.takerBuy makerMid
  let sellSpread ← BasisPoints.spread quotes.takerSell quotes.makerSell makerMid
  return [
    { venue := p.maker.venue, pair := p.maker.pair, mid := makerMid, buy := quotes.makerBuy,
      sell := quotes.makerSell, buySpread := buySpread.trunc, sellSpread := sellSpread.trunc },
    { venue := p.taker.venue, pair := p.taker.pair, mid := takerMid, buy := quotes.takerBuy,
      sell := quotes.takerSell, buySpread := (-buySpread).trunc,
      sellSpread := (-sellSpread).trunc }]

def orderRow (p : Parameters) (makerMid buyThreshold sellThreshold : Decimal) (now : Instant)
    (order : RestingOrder) : Checked OrderRow := do
  let (spreadMid, spreadCancel) ← match order.side with
    | .buy => do
      let mid ← BasisPoints.spread makerMid order.price makerMid
      pure (mid, ← BasisPoints.spread buyThreshold order.price buyThreshold)
    | .sell => do
      let mid ← BasisPoints.spread order.price makerMid makerMid
      pure (mid, ← BasisPoints.spread order.price sellThreshold sellThreshold)
  return {
    venue := p.maker.venue
    pair := order.pair
    side := order.side
    price := order.price
    amount := order.quantity
    spreadMid := spreadMid.trunc
    spreadCancel := spreadCancel.trunc
    age := now.since order.createdAt }

/-- The quotes on the maker pair, sorted; what the order of the rows leaves open stays as given. -/
def orderRows (p : Parameters) (quotes : MarketQuotes) (makerMid : Decimal) (now : Instant)
    (orders : List RestingOrder) : Checked (List OrderRow) := do
  let buyThreshold ← p.threshold quotes .buy
  let sellThreshold ← p.threshold quotes .sell
  let own := orders.filter fun order => order.pair = p.maker.pair
  let rows ← own.mapM (orderRow p makerMid buyThreshold sellThreshold now)
  return rows.mergeSort OrderRow.ahead

def build (e : Engine) (quotes : MarketQuotes) (makerMid takerMid : Decimal)
    (orders : List RestingOrder) (balances : List BalanceRow) (now : Instant) :
    Checked StatusReport := do
  let exchanges ← exchangeRows e.params quotes makerMid takerMid
  let orders ← orderRows e.params quotes makerMid now orders
  return { balances, exchanges, orders, profit := e.profit, halted := e.halted }

/-! ### Text -/

def amountText (a : Decimal) : String :=
  (a.round .halfEven 6).toText

/-- Hours, minutes and seconds; an age below one second is not shown. -/
def ageText (age : Span) : String :=
  let seconds := age.seconds
  if seconds ≤ 0 then "n/a"
  else
    let n := seconds.toNat
    Text.twoDigits (n / 3600) ++ ":" ++ Text.twoDigits (n % 3600 / 60) ++ ":" ++
      Text.twoDigits (n % 60)

/-- Cells between single blanks, behind the indent of a table. -/
def line (cells : List String) : String :=
  "    " ++ " ".intercalate cells

def balanceLine (venue asset amount : String) : String :=
  line [Text.left 12 venue, Text.left 8 asset, Text.right 18 amount]

def exchangeLine (venue market mid buy sell buySpread sellSpread : String) : String :=
  line [Text.left 12 venue, Text.left 10 market, Text.right 12 mid, Text.right 12 buy,
    Text.right 12 sell, Text.right 10 buySpread, Text.right 11 sellSpread]

def orderLine (venue market side price amount spreadMid spreadCancel age : String) : String :=
  line [Text.left 12 venue, Text.left 10 market, Text.left 5 side, Text.right 12 price,
    Text.right 12 amount, Text.right 10 spreadMid, Text.right 13 spreadCancel, Text.right 9 age]

def balanceLines (report : StatusReport) : List String :=
  "  Balances:" :: balanceLine "Exchange" "Asset" "Available" ::
    report.balances.map fun row => balanceLine row.venue row.asset (amountText row.amount)

def exchangeLines (report : StatusReport) : List String :=
  "  Exchanges:" ::
    exchangeLine "Exchange" "Market" "Mid" "Buy" "Sell" "Buy Spread" "Sell Spread" ::
    report.exchanges.map fun row =>
      exchangeLine row.venue row.pair.toText (amountText row.mid) (amountText row.buy)
        (amountText row.sell) row.buySpread.toText row.sellSpread.toText

def orderLines (report : StatusReport) : List String :=
  if report.orders.isEmpty then ["  No active maker orders."]
  else
    "  Active Orders:" ::
      orderLine "Exchange" "Market" "Side" "Price" "Amount" "Spread Mid" "Spread Cancel" "Age" ::
      report.orders.map fun row =>
        orderLine row.venue row.pair.toText row.side.text (amountText row.price)
          (amountText row.amount) row.spreadMid.toText row.spreadCancel.toText (ageText row.age)

def totalLines (report : StatusReport) : List String :=
  let p := report.profit
  ("Current total potential profit: " ++ p.total.toText ++ " (" ++ toString p.hedgeCount ++
    " hedges, " ++ toString p.unhedgedCount ++ " unhedged)") ::
    if report.halted then ["Quoting halted after an unhedged fill."] else []

def render (report : StatusReport) : String :=
  let lines := report.balanceLines ++ "" :: report.exchangeLines ++ "" :: report.orderLines ++
    "" :: report.totalLines
  String.join (lines.map (· ++ "\n"))

end StatusReport

namespace Engine

variable {σ : Type} [Arithmetic]

/-- The free balances of a market's two assets. -/
def balanceRows (venue : Adapter σ) (market : Market) : Call σ (List BalanceRow) := do
  let base ← venue.availableBalance market.pair.base
  let quote ← venue.availableBalance market.pair.quote
  return [⟨market.venue, market.pair.base, base⟩, ⟨market.venue, market.pair.quote, quote⟩]

/-- Asks both venues for what a status report shows. -/
def status (desk : Desk σ) (now : Instant) (e : Engine) : Call σ StatusReport := do
  let p := e.params
  let quotes ← MarketQuotes.fetch desk p
  let makerMid ← desk.maker.midPrice p.maker.pair
  let takerMid ← desk.taker.midPrice p.taker.pair
  let orders ← desk.maker.activeOrders
  let makerBalances ← balanceRows desk.maker p.maker
  let takerBalances ← balanceRows desk.taker p.taker
  StatusReport.build e quotes makerMid takerMid orders (makerBalances ++ takerBalances) now

end Engine

end MarketMaker
