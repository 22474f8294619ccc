import MarketMaker.Archive
/-!
The archive as a JSON text, the form in which it is kept on disk.
-/

namespace MarketMaker

namespace ArchiveStore

def bookToJson (row : BookRow) : Json :=
  .arr [.str row.venue, .str row.pair, .str row.time, .str row.bids, .str row.asks]

def bookOfJson? : Json → Option BookRow
  | .arr [.str venue, .str pair, .str time, .str bids, .str asks] =>
    some ⟨venue, pair, time, bids, asks⟩
  | _ => none

def tradeToJson (row : TradeRow) : Json :=
  .arr [.str row.venue, .str row.pair, .str row.time, .str row.price, .str row.amount,
    .str row.side, .bool row.aggressive]

def tradeOfJson? : Json → Option TradeRow
  | .arr [.str venue, .str pair, .str time, .str price, .str amount, .str side,
      .bool aggressive] =>
    some ⟨venue, pair, time, price, amount, side, aggressive⟩
  | _ => none

def toJson (store : ArchiveStore) : Json :=
  .obj [("books", .arr (store.books.map bookToJson)),
    ("trades", .arr (store.trades.map tradeToJson))]

def ofJson? (value : Json) : Option ArchiveStore := do
  let .arr books ← value.field? "books" | none
  let .arr trades ← value.field? "trades" | none
  let books ← books.mapM bookOfJson?
  let trades ← trades.mapM tradeOfJson?
  some ⟨books, trades⟩

end ArchiveStore

end MarketMaker
