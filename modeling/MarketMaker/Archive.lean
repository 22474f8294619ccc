import MarketMaker.Instant.Text
import MarketMaker.Json.Printer
import MarketMaker.OrderBook
/-!
The archive of market data. Books and trades are buffered and written in batches; of records with
the same venue, pair and time only the first is kept.
-/

namespace MarketMaker

structure BookRow where
  venue : String
  pair : String
  time : String
  bids : String
  asks : String
deriving DecidableEq

structure TradeRow where
  venue : String
  pair : String
  time : String
  price : String
  amount : String
  side : String
  aggressive : Bool
deriving DecidableEq

/-- What is written. -/
structure ArchiveStore where
  books : List BookRow
  trades : List TradeRow
deriving DecidableEq

structure Archive where
  /-- Levels kept per side of a book. -/
  depth : Nat
  interval : Span
  lastFlush : Option Instant
  books : List (String × OrderBook)
  trades : List (String × Trade)
  store : ArchiveStore
deriving DecidableEq

namespace ArchiveStore

def empty : ArchiveStore := ⟨[], []⟩

/-- Prices and amounts as texts in a JSON array. -/
def levelsText (levels : List Level) : String :=
  Json.toText <| .arr <| levels.map fun level =>
    .arr [.str level.price.toText, .str level.amount.toText]

def bookRow (venue : String) (book : OrderBook) : BookRow :=
  ⟨venue, book.pair.toText, book.time.toText, levelsText book.bids, levelsText book.asks⟩

def tradeRow (venue : String) (trade : Trade) : TradeRow :=
  ⟨venue, trade.pair.toText, trade.time.toText, trade.price.toText, trade.amount.toText,
    trade.side.text, trade.aggressive⟩

def SameBook (a b : BookRow) : Prop :=
  a.venue = b.venue ∧ a.pair = b.pair ∧ a.time = b.time

instance (a b : BookRow) : Decidable (SameBook a b) :=
  inferInstanceAs (Decidable (_ ∧ _ ∧ _))

def SameTrade (a b : TradeRow) : Prop :=
  a.venue = b.venue ∧ a.pair = b.pair ∧ a.time = b.time

instance (a b : TradeRow) : Decidable (SameTrade a b) :=
  inferInstanceAs (Decidable (_ ∧ _ ∧ _))

/-- Adds a row, unless one of its venue, pair and time is there. -/
def addBook (store : ArchiveStore) (row : BookRow) : ArchiveStore :=
  if store.books.any fun other => SameBook other row then store
  else { store with books := store.books ++ [row] }

/-- Adds a row, unless one of its venue, pair and time is there. -/
def addTrade (store : ArchiveStore) (row : TradeRow) : ArchiveStore :=
  if store.trades.any fun other => SameTrade other row then store
  else { store with trades := store.trades ++ [row] }

def size (store : ArchiveStore) : Nat :=
  store.books.length + store.trades.length

end ArchiveStore

namespace Archive

def new (depth : Nat) (interval : Span) (store : ArchiveStore) : Archive :=
  ⟨depth, interval, none, [], [], store⟩

def recordBook (archive : Archive) (venue : String) (book : OrderBook) : Archive :=
  { archive with books := archive.books ++ [(venue, book.truncate archive.depth)] }

def recordTrade (archive : Archive) (venue : String) (trade : Trade) : Archive :=
  { archive with trades := archive.trades ++ [(venue, trade)] }

/-- Records that are not written yet. -/
def pending (archive : Archive) : Nat :=
  archive.books.length + archive.trades.length

/-- The store with everything that is buffered, books first. -/
def written (archive : Archive) : ArchiveStore :=
  let withBooks := archive.books.foldl
    (fun store (venue, book) => store.addBook (ArchiveStore.bookRow venue book)) archive.store
  archive.trades.foldl
    (fun store (venue, trade) => store.addTrade (ArchiveStore.tradeRow venue trade)) withBooks

/-- Writes the buffer; says how many rows were added. -/
def flush (archive : Archive) : Nat × Archive :=
  let store := archive.written
  (store.size - archive.store.size, { archive with books := [], trades := [], store })

/-- Writes the buffer if the interval has passed since the last time; the first call only starts
the clock. -/
def maybeFlush (archive : Archive) (now : Instant) : Nat × Archive :=
  match archive.lastFlush with
  | none => (0, { archive with lastFlush := some now })
  | some last =>
    if now.since last < archive.interval then (0, archive)
    else { archive with lastFlush := some now }.flush

end Archive

end MarketMaker
