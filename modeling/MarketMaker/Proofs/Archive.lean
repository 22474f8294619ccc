import MarketMaker.Archive
import MarketMaker.Proofs.Instant.Text
import MarketMaker.Proofs.Pair
/-!
What an archive holds does not depend on when it is flushed: of the records of one venue, pair and time
it keeps the first, and each row is counted by the flush that added it.
-/

namespace MarketMaker

/-! ### First records -/

section Firsts

variable {α κ ρ : Type} [DecidableEq κ] (key : α → κ)

/-- The first record of each key, in their order. -/
def firsts : List α → List α
  | [] => []
  | record :: records => record :: (firsts records).filter fun later => key later ≠ key record

theorem firsts_sublist (records : List α) : (firsts key records).Sublist records := by
  induction records with
  | nil => exact List.Sublist.refl []
  | cons record records ih => exact (List.filter_sublist.trans ih).cons_cons record

theorem firsts_append (records more : List α) : firsts key (records ++ more) =
    firsts key records ++ (firsts key more).filter fun later => key later ∉ records.map key := by
  induction records with
  | nil => simp [firsts]
  | cons record records ih =>
    rw [List.cons_append, firsts, ih, firsts, List.cons_append, List.filter_append,
      List.filter_filter]
    congr 2
    refine List.filter_congr fun later _ => ?_
    rw [← Bool.decide_and]
    exact decide_eq_decide.2 (by rw [List.map_cons, List.mem_cons, not_or])

theorem mem_map_firsts {records : List α} {k : κ} :
    k ∈ (firsts key records).map key ↔ k ∈ records.map key := by
  induction records with
  | nil => rfl
  | cons record records ih =>
    rw [firsts, List.map_cons, List.map_cons, List.mem_cons, List.mem_cons, ← ih]
    by_cases same : k = key record
    · simp only [same, true_or]
    · simp only [same, false_or, List.mem_map, List.mem_filter, decide_eq_true_eq]
      constructor
      · rintro ⟨later, ⟨member, -⟩, rfl⟩
        exact ⟨later, member, rfl⟩
      · rintro ⟨later, member, rfl⟩
        exact ⟨later, ⟨member, same⟩, rfl⟩

/-- Records of known keys add nothing. -/
theorem firsts_append_known {records more : List α}
    (known : ∀ record ∈ more, key record ∈ records.map key) :
    firsts key (records ++ more) = firsts key records := by
  rw [firsts_append, List.append_right_eq_self, List.filter_eq_nil_iff]
  intro record member
  have among := (mem_map_firsts key).1 (List.mem_map_of_mem member)
  obtain ⟨other, member, same⟩ := List.mem_map.1 among
  simpa [← same] using known other member

/-- Adds a row, unless there is one that is the same as it. -/
def addRow (same : ρ → ρ → Bool) (rows : List ρ) (row : ρ) : List ρ :=
  if rows.any (same · row) then rows else rows ++ [row]

/-- Rows of one key are taken for the same: what is added one by one are the first rows. -/
theorem foldl_addRow {same : ρ → ρ → Bool} {row : α → ρ} {records : List α}
    (agree : ∀ a ∈ records, ∀ b ∈ records, same (row a) (row b) = true ↔ key a = key b) :
    records.foldl (fun rows record => addRow same rows (row record)) [] =
      (firsts key records).map row := by
  induction records using List.reverseRecOn with
  | nil => rfl
  | append_singleton records record ih =>
    have earlier := ih fun a left b right =>
      agree a (List.mem_append_left _ left) b (List.mem_append_left _ right)
    have present : ((firsts key records).map row).any (same · (row record)) = true ↔
        key record ∈ records.map key := by
      rw [List.any_map, List.any_eq_true, ← mem_map_firsts key, List.mem_map]
      refine exists_congr fun other => and_congr_right fun member => ?_
      have among := List.mem_append_left [record] ((firsts_sublist key records).subset member)
      exact agree other among record (List.mem_append_right _ List.mem_cons_self)
    rw [List.foldl_append, earlier, List.foldl_cons, List.foldl_nil, addRow, firsts_append]
    simp only [firsts, List.filter_nil]
    by_cases known : key record ∈ records.map key
    · rw [if_pos (present.2 known), List.filter_cons_of_neg (by simpa using known), List.filter_nil,
        List.append_nil]
    · rw [if_neg (mt present.1 known), List.filter_cons_of_pos (by simpa using known),
        List.filter_nil, List.map_append, List.map_singleton]

end Firsts

namespace Archive

open ArchiveStore (bookRow tradeRow SameBook SameTrade)

/-! ### Requests -/

inductive Request
  | book (venue : String) (snapshot : OrderBook)
  | trade (venue : String) (print : Trade)
  | flush
  | maybeFlush (now : Instant)

namespace Request

/-- The book to record, at the depth of the archive. -/
def book? (depth : ℕ) : Request → Option (String × OrderBook)
  | .book venue snapshot => some (venue, snapshot.truncate depth)
  | _ => none

def trade? : Request → Option (String × Trade)
  | .trade venue print => some (venue, print)
  | _ => none

/-- Its pair was read from a text, and its year has four digits. -/
def Proper : Request → Prop
  | .book _ snapshot => snapshot.pair.Named ∧ snapshot.time.FourDigitYear
  | .trade _ print => print.pair.Named ∧ print.time.FourDigitYear
  | .flush => True
  | .maybeFlush _ => True

end Request

/-- Does what is asked, and says how many rows it added. -/
def perform (archive : Archive) : Request → ℕ × Archive
  | .book venue snapshot => (0, archive.recordBook venue snapshot)
  | .trade venue print => (0, archive.recordTrade venue print)
  | .flush => archive.flush
  | .maybeFlush now => archive.maybeFlush now

/-- One request after the other; the counts are summed up. -/
def run (archive : Archive) : List Request → ℕ × Archive
  | [] => (0, archive)
  | request :: requests =>
    ((archive.perform request).1 + ((archive.perform request).2.run requests).1,
      ((archive.perform request).2.run requests).2)

theorem run_append (archive : Archive) (requests more : List Request) :
    archive.run (requests ++ more) =
      ((archive.run requests).1 + ((archive.run requests).2.run more).1,
        ((archive.run requests).2.run more).2) := by
  induction requests generalizing archive with
  | nil => rw [List.nil_append, run, Nat.zero_add]
  | cons request requests ih => rw [List.cons_append, run, run, ih, Nat.add_assoc]

/-! ### Everything that is buffered -/

def addBook (rows : List BookRow) (record : String × OrderBook) : List BookRow :=
  addRow (fun a b => SameBook a b) rows (bookRow record.1 record.2)

def addTrade (rows : List TradeRow) (record : String × Trade) : List TradeRow :=
  addRow (fun a b => SameTrade a b) rows (tradeRow record.1 record.2)

theorem addBook_eq (store : ArchiveStore) (record : String × OrderBook) :
    store.addBook (bookRow record.1 record.2) =
      { store with books := addBook store.books record } := by
  unfold ArchiveStore.addBook addBook addRow
  split <;> rfl

theorem addTrade_eq (store : ArchiveStore) (record : String × Trade) :
    store.addTrade (tradeRow record.1 record.2) =
      { store with trades := addTrade store.trades record } := by
  unfold ArchiveStore.addTrade addTrade addRow
  split <;> rfl

theorem foldl_addBook (records : List (String × OrderBook)) (store : ArchiveStore) :
    records.foldl (fun store (venue, book) => store.addBook (bookRow venue book)) store =
      { store with books := records.foldl addBook store.books } :=
  List.foldl_hom (fun books => { store with books }) fun books record =>
    addBook_eq { store with books } record

theorem foldl_addTrade (records : List (String × Trade)) (store : ArchiveStore) :
    records.foldl (fun store (venue, trade) => store.addTrade (tradeRow venue trade)) store =
      { store with trades := records.foldl addTrade store.trades } :=
  List.foldl_hom (fun trades => { store with trades }) fun trades record =>
    addTrade_eq { store with trades } record

theorem written_eq (archive : Archive) : archive.written =
    ⟨archive.books.foldl addBook archive.store.books,
      archive.trades.foldl addTrade archive.store.trades⟩ := by
  rw [written, foldl_addBook, foldl_addTrade]

theorem length_le_addRow {ρ : Type} (same : ρ → ρ → Bool) (rows : List ρ) (row : ρ) :
    rows.length ≤ (addRow same rows row).length := by
  unfold addRow
  split
  · exact le_rfl
  · rw [List.length_append]
    exact Nat.le_add_right _ _

theorem length_le_foldl_addRow {α ρ : Type} (same : ρ → ρ → Bool) (row : α → ρ) (records : List α)
    (rows : List ρ) :
    rows.length ≤ (records.foldl (fun rows record => addRow same rows (row record)) rows).length := by
  induction records generalizing rows with
  | nil => exact le_rfl
  | cons record records ih => exact (length_le_addRow same rows (row record)).trans (ih _)

theorem size_le_written (archive : Archive) : archive.store.size ≤ archive.written.size := by
  rw [written_eq]
  exact Nat.add_le_add (length_le_foldl_addRow _ _ archive.books _)
    (length_le_foldl_addRow _ _ archive.trades _)

/-- A request adds its record, if any, to what is or will be written. A flush changes nothing about
it; it counts the rows that were not in the store before. -/
structure Performs (archive : Archive) (request : Request) (count : ℕ) (after : Archive) : Prop where
  depth : after.depth = archive.depth
  counted : archive.store.size + count = after.store.size
  books : after.written.books =
    (request.book? archive.depth).toList.foldl addBook archive.written.books
  trades : after.written.trades = request.trade?.toList.foldl addTrade archive.written.trades

theorem flush_performs (archive : Archive) :
    Performs archive .flush archive.flush.1 archive.flush.2 where
  depth := rfl
  counted := Nat.add_sub_of_le archive.size_le_written
  books := rfl
  trades := rfl

theorem maybeFlush_performs (archive : Archive) (now : Instant) :
    Performs archive (.maybeFlush now) (archive.maybeFlush now).1 (archive.maybeFlush now).2 := by
  unfold maybeFlush
  split
  · exact ⟨rfl, rfl, rfl, rfl⟩
  · split
    · exact ⟨rfl, rfl, rfl, rfl⟩
    · obtain ⟨depth, counted, books, trades⟩ := flush_performs { archive with lastFlush := some now }
      exact ⟨depth, counted, books, trades⟩

theorem perform_performs (archive : Archive) (request : Request) :
    Performs archive request (archive.perform request).1 (archive.perform request).2 := by
  cases request with
  | book venue snapshot =>
    refine ⟨rfl, rfl, ?_, ?_⟩ <;> simp [perform, recordBook, written_eq, Request.book?, Request.trade?]
  | trade venue print =>
    refine ⟨rfl, rfl, ?_, ?_⟩ <;> simp [perform, recordTrade, written_eq, Request.book?, Request.trade?]
  | flush => exact archive.flush_performs
  | maybeFlush now => exact archive.maybeFlush_performs now

/-! ### Runs -/

/-- The books to record, in their order. -/
def booksOf (depth : ℕ) (requests : List Request) : List (String × OrderBook) :=
  requests.filterMap (Request.book? depth)

def tradesOf (requests : List Request) : List (String × Trade) :=
  requests.filterMap Request.trade?

theorem mem_booksOf {depth : ℕ} {requests : List Request} {record : String × OrderBook} :
    record ∈ booksOf depth requests ↔
      ∃ snapshot, .book record.1 snapshot ∈ requests ∧ record.2 = snapshot.truncate depth := by
  rw [booksOf, List.mem_filterMap]
  constructor
  · rintro ⟨request, among, found⟩
    cases request with
    | book venue snapshot =>
      obtain rfl := Option.some.inj found
      exact ⟨snapshot, among, rfl⟩
    | trade | flush | maybeFlush => cases found
  · rintro ⟨snapshot, among, same⟩
    exact ⟨_, among, congrArg some (Prod.ext rfl same.symm)⟩

theorem mem_tradesOf {requests : List Request} {record : String × Trade} :
    record ∈ tradesOf requests ↔ .trade record.1 record.2 ∈ requests := by
  rw [tradesOf, List.mem_filterMap]
  constructor
  · rintro ⟨request, among, found⟩
    cases request with
    | trade venue print =>
      obtain rfl := Option.some.inj found
      exact among
    | book | flush | maybeFlush => cases found
  · exact fun among => ⟨_, among, rfl⟩

structure Runs (archive : Archive) (requests : List Request) (count : ℕ) (after : Archive) : Prop where
  depth : after.depth = archive.depth
  counted : archive.store.size + count = after.store.size
  books : after.written.books = (booksOf archive.depth requests).foldl addBook archive.written.books
  trades : after.written.trades = (tradesOf requests).foldl addTrade archive.written.trades

theorem run_runs (archive : Archive) (requests : List Request) :
    Runs archive requests (archive.run requests).1 (archive.run requests).2 := by
  induction requests generalizing archive with
  | nil => exact ⟨rfl, rfl, rfl, rfl⟩
  | cons request requests ih =>
    have first := archive.perform_performs request
    have rest := ih (archive.perform request).2
    refine ⟨rest.depth.trans first.depth, ?_, ?_, ?_⟩
    · rw [run, ← rest.counted, ← first.counted, Nat.add_assoc]
    · rw [run, rest.books, first.books, first.depth, ← List.foldl_append, booksOf, booksOf,
        List.filterMap_cons]
      cases request.book? archive.depth <;> rfl
    · rw [run, rest.trades, first.trades, ← List.foldl_append, tradesOf, tradesOf,
        List.filterMap_cons]
      cases request.trade? <;> rfl

/-- What is recorded of a book is told apart by its venue, pair and time. -/
def bookKey (record : String × OrderBook) : String × Pair × Instant :=
  (record.1, record.2.pair, record.2.time)

def tradeKey (record : String × Trade) : String × Pair × Instant :=
  (record.1, record.2.pair, record.2.time)

/-- The rows of the first books and trades of each venue, pair and time. -/
def firstRows (depth : ℕ) (requests : List Request) : ArchiveStore where
  books := (firsts bookKey (booksOf depth requests)).map fun (venue, book) => bookRow venue book
  trades := (firsts tradeKey (tradesOf requests)).map fun (venue, trade) => tradeRow venue trade

theorem sameBook_iff {a b : String × OrderBook} (named : a.2.pair.Named)
    (year : a.2.time.FourDigitYear) (year' : b.2.time.FourDigitYear) :
    SameBook (bookRow a.1 a.2) (bookRow b.1 b.2) ↔ bookKey a = bookKey b := by
  simp only [SameBook, bookRow, bookKey, Pair.toText_inj named, Instant.toText_inj year year',
    Prod.mk.injEq]

theorem sameTrade_iff {a b : String × Trade} (named : a.2.pair.Named)
    (year : a.2.time.FourDigitYear) (year' : b.2.time.FourDigitYear) :
    SameTrade (tradeRow a.1 a.2) (tradeRow b.1 b.2) ↔ tradeKey a = tradeKey b := by
  simp only [SameTrade, tradeRow, tradeKey, Pair.toText_inj named, Instant.toText_inj year year',
    Prod.mk.injEq]

theorem proper_books {depth : ℕ} {requests : List Request}
    (proper : ∀ request ∈ requests, request.Proper) :
    ∀ record ∈ booksOf depth requests, record.2.pair.Named ∧ record.2.time.FourDigitYear := by
  intro record member
  obtain ⟨snapshot, among, same⟩ := mem_booksOf.1 member
  exact same ▸ proper _ among

theorem proper_trades {requests : List Request}
    (proper : ∀ request ∈ requests, request.Proper) :
    ∀ record ∈ tradesOf requests, record.2.pair.Named ∧ record.2.time.FourDigitYear :=
  fun _ member => proper _ (mem_tradesOf.1 member)

/-- Whenever it was flushed, the archive with its buffer is what was recorded first. -/
theorem written_run (depth : ℕ) (interval : Span) {requests : List Request}
    (proper : ∀ request ∈ requests, request.Proper) :
    ((new depth interval .empty).run requests).2.written = firstRows depth requests := by
  have ran := (new depth interval .empty).run_runs requests
  have books : (booksOf depth requests).foldl
      (fun rows record => addRow (fun a b => SameBook a b) rows (bookRow record.1 record.2)) [] =
      (firsts bookKey (booksOf depth requests)).map fun record => bookRow record.1 record.2 :=
    foldl_addRow bookKey fun a left b right => by
      rw [decide_eq_true_eq]
      exact sameBook_iff (proper_books proper a left).1 (proper_books proper a left).2
        (proper_books proper b right).2
  have trades : (tradesOf requests).foldl
      (fun rows record => addRow (fun a b => SameTrade a b) rows (tradeRow record.1 record.2)) [] =
      (firsts tradeKey (tradesOf requests)).map fun record => tradeRow record.1 record.2 :=
    foldl_addRow tradeKey fun a left b right => by
      rw [decide_eq_true_eq]
      exact sameTrade_iff (proper_trades proper a left).1 (proper_trades proper a left).2
        (proper_trades proper b right).2
  exact congrArg₂ ArchiveStore.mk (ran.books.trans books) (ran.trades.trans trades)

theorem booksOf_append (depth : ℕ) (requests more : List Request) :
    booksOf depth (requests ++ more) = booksOf depth requests ++ booksOf depth more :=
  List.filterMap_append

theorem tradesOf_append (requests more : List Request) :
    tradesOf (requests ++ more) = tradesOf requests ++ tradesOf more :=
  List.filterMap_append

/-- Asks for no record but of a venue, pair and time that were recorded before. -/
def Request.Again (requests : List Request) : Request → Prop
  | .book venue snapshot => ∃ earlier, .book venue earlier ∈ requests ∧
      earlier.pair = snapshot.pair ∧ earlier.time = snapshot.time
  | .trade venue print => ∃ earlier, .trade venue earlier ∈ requests ∧
      earlier.pair = print.pair ∧ earlier.time = print.time
  | .flush => True
  | .maybeFlush _ => True

theorem again_books {depth : ℕ} {requests more : List Request}
    (again : ∀ request ∈ more, request.Again requests) :
    ∀ record ∈ booksOf depth more, bookKey record ∈ (booksOf depth requests).map bookKey := by
  intro record member
  obtain ⟨snapshot, among, same⟩ := mem_booksOf.1 member
  obtain ⟨earlier, recorded, pair, time⟩ := again _ among
  refine List.mem_map.2 ⟨(record.1, earlier.truncate depth), mem_booksOf.2 ⟨earlier, recorded, rfl⟩, ?_⟩
  rw [bookKey, bookKey, same]
  exact congrArg₂ (fun pair time => (record.1, pair, time)) pair time

theorem again_trades {requests more : List Request}
    (again : ∀ request ∈ more, request.Again requests) :
    ∀ record ∈ tradesOf more, tradeKey record ∈ (tradesOf requests).map tradeKey := by
  intro record member
  obtain ⟨earlier, recorded, pair, time⟩ := again _ (mem_tradesOf.1 member)
  refine List.mem_map.2 ⟨(record.1, earlier), mem_tradesOf.2 recorded, ?_⟩
  exact congrArg₂ (fun pair time => (record.1, pair, time)) pair time

theorem proper_of_again {requests more : List Request}
    (proper : ∀ request ∈ requests, request.Proper)
    (again : ∀ request ∈ more, request.Again requests) : ∀ request ∈ more, request.Proper := by
  intro request member
  have repeated := again request member
  cases request with
  | book venue snapshot =>
    obtain ⟨earlier, recorded, pair, time⟩ := repeated
    exact ⟨pair ▸ (proper _ recorded).1, time ▸ (proper _ recorded).2⟩
  | trade venue print =>
    obtain ⟨earlier, recorded, pair, time⟩ := repeated
    exact ⟨pair ▸ (proper _ recorded).1, time ▸ (proper _ recorded).2⟩
  | flush | maybeFlush => trivial

/-- What was recorded before adds no row. -/
theorem firstRows_append {depth : ℕ} {requests more : List Request}
    (again : ∀ request ∈ more, request.Again requests) :
    firstRows depth (requests ++ more) = firstRows depth requests := by
  rw [firstRows, booksOf_append, tradesOf_append, firsts_append_known bookKey (again_books again),
    firsts_append_known tradeKey (again_trades again), firstRows]

/-- The store after a run that ends with a flush. -/
theorem store_run_flush (depth : ℕ) (interval : Span) {requests : List Request}
    (proper : ∀ request ∈ requests, request.Proper) :
    ((new depth interval .empty).run (requests ++ [.flush])).2.store = firstRows depth requests := by
  rw [run_append]
  exact written_run depth interval proper

/-- Wherever the archive was flushed in between, after a last flush it holds the first record of each
venue, pair and time, as often as the flushes have counted. What is recorded again is not added. -/
theorem flushed_firsts (depth : ℕ) (interval : Span) {requests : List Request}
    (proper : ∀ request ∈ requests, request.Proper) :
    let (count, archive) := (new depth interval .empty).run (requests ++ [.flush])
    archive.store = firstRows depth requests ∧ count = archive.store.size ∧ archive.pending = 0 ∧
      ∀ more, (∀ request ∈ more, request.Again requests) →
        (archive.run (more ++ [.flush])).1 = 0 ∧
          (archive.run (more ++ [.flush])).2.store = archive.store := by
  have stored := store_run_flush depth interval proper
  have counted := ((new depth interval .empty).run_runs (requests ++ [.flush])).counted
  refine ⟨stored, ?_, ?_, fun more again => ?_⟩
  · rw [← counted]
    exact (Nat.zero_add _).symm
  · rw [run_append]
    rfl
  · have again : ∀ request ∈ .flush :: more, request.Again requests :=
      List.forall_mem_cons.2 ⟨trivial, again⟩
    have all : ∀ request ∈ requests ++ .flush :: more, request.Proper :=
      List.forall_mem_append.2 ⟨proper, proper_of_again proper again⟩
    have kept := store_run_flush depth interval all
    have parts : requests ++ .flush :: more ++ [.flush] =
        (requests ++ [.flush]) ++ (more ++ [.flush]) := by simp
    rw [firstRows_append again, ← stored, parts, run_append] at kept
    have added := (((new depth interval .empty).run (requests ++ [.flush])).2.run_runs
      (more ++ [.flush])).counted
    rw [kept] at added
    exact ⟨Nat.add_eq_left.1 added, kept⟩

/-- A book of two levels a side. -/
def repeated (time : Instant) : OrderBook :=
  ⟨⟨"DOGE", "USDT"⟩, time, [⟨.of 10 2, .of 5 0⟩, ⟨.of 9 2, .of 5 0⟩],
    [⟨.of 11 2, .of 5 0⟩, ⟨.of 12 2, .of 5 0⟩]⟩

def repeatedTrade : Trade :=
  ⟨⟨"DOGE", "USDT"⟩, ⟨0⟩, .of 1 1, .of 250 0, .buy, true⟩

/-- Ten requests, of which three repeat a record. -/
def repeatedRequests : List Request :=
  [.book "okx" (repeated ⟨0⟩), .book "okx" (repeated ⟨0⟩), .maybeFlush ⟨0⟩,
    .trade "okx" repeatedTrade, .maybeFlush ⟨10000000000⟩, .book "okx" (repeated ⟨0⟩),
    .book "binance" (repeated ⟨0⟩), .flush, .book "okx" (repeated ⟨10000000000⟩),
    .trade "okx" { repeatedTrade with amount := .of 1 0 }]

/-- Books repeat within a batch, in the next one, and on another venue, where they are kept. -/
theorem flushed_firsts_repeated : ∃ requests : List Request,
    (∀ request ∈ requests, request.Proper) ∧ (booksOf 1 requests).length = 5 ∧
      (tradesOf requests).length = 2 ∧
      let (count, archive) := (new 1 (.ofSeconds 10) .empty).run (requests ++ [.flush])
      count = 4 ∧ archive.store.books.length = 3 ∧ archive.pending = 0 ∧
        (archive.run (requests ++ [.flush])).1 = 0 := by
  have named : (⟨"DOGE", "USDT"⟩ : Pair).Named := ⟨"doge-usdt", by decide +kernel⟩
  have early : (⟨0⟩ : Instant).FourDigitYear := by decide +kernel
  have late : (⟨10000000000⟩ : Instant).FourDigitYear := by decide +kernel
  have proper : ∀ request ∈ repeatedRequests, request.Proper := by
    simp [repeatedRequests, Request.Proper, repeated, repeatedTrade, named, early, late]
  obtain ⟨stored, counted, pending, again⟩ := flushed_firsts 1 (.ofSeconds 10) proper
  refine ⟨repeatedRequests, proper, rfl, rfl, ?_, ?_, pending, (again repeatedRequests ?_).1⟩
  · rw [counted, stored]
    decide +kernel
  · rw [stored]
    decide +kernel
  · simp [repeatedRequests, Request.Again]

end Archive

end MarketMaker
