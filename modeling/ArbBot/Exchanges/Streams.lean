import ArbBot.Exchanges.Gateway
import Mathlib.Data.List.DropRight

/-!
# Market-data streams

Port of `src/market_ws.py`: what the Binance and the Bybit stream subscribe to, and what a message does
to the rows that they hold. The connection, the thread and the lock are left out: a stream is its rows,
and a message is received at a clock reading. A message writes at most one row, and what it writes does
not depend on the rows; an exception while it is read ends the connection and writes nothing (`store`).

Text is ASCII, as exchange symbols are. A missing text is the empty one; a value that `x or y` replaces
is a `Cell` that is missing or zero.
-/

namespace ArbBot

/-! ## Text -/

/-- `text.upper()`. -/
def upper (text : String) : String := String.ofList (text.toList.map Char.toUpper)

/-- `text.lower()`. -/
def lower (text : String) : String := String.ofList (text.toList.map Char.toLower)

/-- `text.replace("/", "")`. -/
def removeSlashes (text : String) : String := String.ofList (text.toList.filter (· ≠ '/'))

/-- `text.startswith(head)`. -/
def startsWith (text head : String) : Bool := head.toList.isPrefixOf text.toList

/-- `text.endswith(suffix)`. -/
def endsWith (text suffix : String) : Bool := suffix.toList.isSuffixOf text.toList

/-- `text[:-n]`, for a positive `n`. -/
def dropEnd (text : String) (n : ℕ) : String := String.ofList (text.toList.rdrop n)

/-- `text.split(".")[-1]`. -/
def afterLastDot (text : String) : String :=
  String.ofList ((text.toList.splitOn '.').getLastD [])

/-- `x or y`, for two values. -/
def Cell.orElse : Cell → Cell → Cell
  | .none, y => y
  | .num x, y => if x = 0 then y else .num x
  | .unreadable, _ => .unreadable

/-! ## Rows -/

/-- A row of a stream. -/
structure StreamRow where
  bid : ℚ
  ask : ℚ
  timestampMs : ℤ
  deriving DecidableEq, Repr

/-- The row as the gateway gets it. -/
def StreamRow.toWsRow (row : StreamRow) : WsRow :=
  ⟨.num row.bid, .num row.ask, .num row.timestampMs⟩

/-- `_data` of a stream, from which `get` reads. -/
abbrev StreamRows := OrdDict String StreamRow

/-- The row that a message writes, with its key, if it writes one. -/
abbrev Written := Except PyError (Option (String × StreamRow))

/-- The rows after a message. -/
def store (rows : StreamRows) : Written → StreamRows
  | .ok (some (symbol, row)) => rows.set symbol row
  | .ok none => rows
  | .error _ => rows

/-! ## Binance -/

/-- The stream that is subscribed for a symbol. -/
def binanceStream (symbol : String) : String := lower (removeSlashes symbol) ++ "@bookTicker"

/-- `data` of a message: the keys `s`, `b`, `a` and `E`. -/
structure BookTicker where
  symbol : String
  bid : Cell
  ask : Cell
  eventTime : Cell

/-- The key under which the row of a raw symbol is stored. -/
def binanceKey (symbolRaw : String) : String :=
  if endsWith symbolRaw "USDT" then dropEnd symbolRaw 4 ++ "/USDT" else symbolRaw

/-- A message in `BinanceBookTickerStream._consume`. -/
def binanceMessage (now : ℚ) (data : BookTicker) : Written :=
  let symbolRaw := upper data.symbol
  if symbolRaw = "" then return none
  else do
    let bid ← data.bid.toFloat
    let ask ← data.ask.toFloat
    if bid ≤ 0 ∨ ask ≤ 0 then return none
    else
      let ts ← data.eventTime.toInt (clockMs now)
      return some (binanceKey symbolRaw, ⟨bid, ask, ts⟩)

/-- The rows after a message, received at a clock reading. -/
def binanceConsume (rows : StreamRows) (m : ℚ × BookTicker) : StreamRows :=
  store rows (binanceMessage m.1 m.2)

/-! ## Bybit -/

/-- The topic that is subscribed for a symbol. -/
def bybitTopic (symbol : String) : String := "orderbook.1." ++ upper (removeSlashes symbol)

/-- `data` of a message, if it is a dictionary: the keys `s`, `b`, `a` and `ts`. -/
structure BybitBook where
  symbol : String
  bids : List Level
  asks : List Level
  ts : Cell

/-- A message: the keys `topic`, `data` and `ts`. -/
structure BybitMessage where
  topic : String
  data : Option BybitBook
  ts : Cell

/-- The quote currencies that `_to_slash_symbol` knows. -/
def quoteCandidates : List String := ["USDT", "USDC", "BTC", "ETH", "EUR", "USD"]

/-- `_to_slash_symbol`. -/
def toSlashSymbol (raw : String) : String :=
  let raw := upper raw
  match quoteCandidates.find? fun quote => endsWith raw quote ∧ quote.length < raw.length with
  | some quote => dropEnd raw quote.length ++ "/" ++ quote
  | none => raw

/-- `symbol_raw` of a message with data. -/
def bybitSymbol (topic : String) (data : BybitBook) : String :=
  upper (if data.symbol = "" then afterLastDot topic else data.symbol)

/-- A message in `BybitTickerStream._consume`. -/
def bybitMessage (now : ℚ) (m : BybitMessage) : Written :=
  match m.data with
  | none => return none
  | some data =>
    let symbolRaw := bybitSymbol m.topic data
    if ¬startsWith m.topic "orderbook." ∨ symbolRaw = "" then return none
    else
      match data.bids, data.asks with
      | (topBid :: _) :: _, (topAsk :: _) :: _ => do
        let bid ← topBid.toFloat
        let ask ← topAsk.toFloat
        if bid ≤ 0 ∨ ask ≤ 0 then return none
        else
          let ts ← (data.ts.orElse m.ts).toInt (clockMs now)
          return some (toSlashSymbol symbolRaw, ⟨bid, ask, ts⟩)
      | _, _ => return none

/-- The rows after a message, received at a clock reading. -/
def bybitConsume (rows : StreamRows) (m : ℚ × BybitMessage) : StreamRows :=
  store rows (bybitMessage m.1 m.2)

example : toSlashSymbol "ethbtc" = "ETH/BTC" ∧ toSlashSymbol "USDT" = "USDT" := by decide

example : bybitTopic "BTC/USDT" = "orderbook.1.BTCUSDT" ∧
    binanceStream "BTC/USDT" = "btcusdt@bookTicker" := by decide

end ArbBot
