import WebhookTrader.Common.Json
import Mathlib.Data.List.Infix

/-!
# Webhook signals

`WebhookSignal` and its two field readers, for the indicator's own JSON
format and for the generic one. A reader either returns a signal or
raises; nothing in it catches what the JSON accessors raise, apart from
the conversions of numbers given as strings.
-/

namespace WebhookTrader

/-- What a signal asks for. -/
inductive SignalType
  | entry
  | tp
  | sl
  | reEntry
  | unknown
  deriving DecidableEq, Repr

inductive Side
  | buy
  | sell
  deriving DecidableEq, Repr

inductive TradeSide
  | open
  | close
  deriving DecidableEq, Repr

/-- **A webhook signal**: the indicator's fields, the normalised ones, and
the arrival time. -/
structure WebhookSignal where
  algorithm : String := ""
  ticker : String := ""
  tickerFull : String := ""
  unixTime : ℤ := 0
  timestamp : String := ""
  currency : String := ""
  timeframe : String := ""
  type : String := ""
  alert : String := ""
  signalDirection : String := ""
  currentRating : ℤ := 0
  symbol : String := ""
  /-- `"buy"` or `"sell"`. -/
  action : String := ""
  /-- `"open"` or `"close"`. -/
  tradeSide : String := ""
  sigType : SignalType := .unknown
  /-- `"TP1"`, `"TP2"` or `"TP3"` on a take-profit signal. -/
  tpLevel : String := ""
  price : ℚ := 0
  entryPrice : ℚ := 0
  size : ℚ := 0
  tp1 : ℚ := 0
  tp2 : ℚ := 0
  tp3 : ℚ := 0
  sl : ℚ := 0
  token : String := ""
  strategyName : String := "unknown"
  exchange : String := "bitget"
  marketType : String := "futures"
  receivedAt : ℕ := 0
  priority : ℤ := 0
  deriving DecidableEq, Repr

namespace WebhookSignal

/-! ## What the rest of the program asks a signal -/

/-- `is_valid`. -/
def isValid (sig : WebhookSignal) : Bool :=
  if sig.symbol = "" then false
  else if sig.price ≤ 0 then false
  else
    match sig.sigType with
    | .entry | .reEntry => sig.action = "buy" || sig.action = "sell"
    | .tp | .sl => true
    | .unknown => false

def getSide (sig : WebhookSignal) : Side := if sig.action = "buy" then .buy else .sell

def getTradeSide (sig : WebhookSignal) : TradeSide :=
  if sig.tradeSide = "close" then .close else .open

/-- `has_tp1`; a rational is always finite. -/
def hasTp1 (sig : WebhookSignal) : Bool := 0 < sig.tp1

def hasSl (sig : WebhookSignal) : Bool := 0 < sig.sl

/-! ## Reading a field -/

/-- `parse_timeframe`'s number of minutes, where the text has one. -/
def minutes (tf : String) : Except Exception ℤ :=
  let cs := tf.toList
  match cs.getLast? with
  | some 'h' | some 'H' => (· * 60) <$> Cxx.stoi (String.ofList cs.dropLast)
  | some 'd' | some 'D' => (· * 1440) <$> Cxx.stoi (String.ofList cs.dropLast)
  | _ => Cxx.stoi tf

/-- `calc_priority`: higher timeframes first, and zero where the text is
no timeframe. -/
def calcPriority (tf : String) : ℤ :=
  if tf = "" then 0
  else
    match minutes tf with
    | .error _ => 0
    | .ok m => if 60 ≤ m then 3 else if 15 ≤ m then 2 else if 5 ≤ m then 1 else 0

/-- Whether a text ends in a suffix and is longer than it. -/
def hasSuffix (suffix s : String) : Bool :=
  suffix.length < s.length && suffix.toList.isSuffixOf s.toList

/-- `std::string::find` as a test. -/
def hasInfix (pattern s : String) : Bool := decide (pattern.toList <:+: s.toList)

def toUpper (s : String) : String := String.ofList (s.toList.map Char.toUpper)

def toLower (s : String) : String := String.ofList (s.toList.map Char.toLower)

/-- `detect_exchange_market`. -/
def detectExchangeMarket (sig : WebhookSignal) : WebhookSignal :=
  let full := toUpper sig.tickerFull
  let exchange :=
    if hasInfix "UPBIT" full then "upbit"
    else if hasInfix "BITGET" full then "bitget"
    else if hasInfix "BINANCE" full then "binance"
    else "bitget"
  if hasSuffix ".P" sig.ticker then { sig with exchange, marketType := "futures" }
  else if hasSuffix "KRW" sig.ticker then { sig with exchange := "upbit", marketType := "spot" }
  else if exchange = "upbit" then { sig with exchange, marketType := "spot" }
  else { sig with exchange, marketType := "futures" }

/-- `normalize_symbol`: without the perpetual suffix and the exchange's
name. -/
def normalizeSymbol (ticker : String) : String :=
  let sym := if hasSuffix ".P" ticker then ticker.toList.dropLast.dropLast else ticker.toList
  if ':' ∈ sym then String.ofList ((sym.dropWhile (· ≠ ':')).drop 1) else String.ofList sym

/-- `parse_price_field`: a number, or a number in a string; anything else
is zero. Nothing here raises. -/
def parsePriceField (j : Json) (key : String) : ℚ :=
  match j.find? key with
  | some (.int n) => n
  | some (.float q) => q
  | some (.str s) =>
      if s = "" ∨ s = "NaN" ∨ s = "nan" ∨ s = "null" ∨ s = "0" then 0
      else
        match Cxx.stod s with
        | .ok (.finite q) => q
        | _ => 0
  | _ => 0

/-- The reading of `current_rating`: a number in a string is caught where
it does not convert, any other value is read as an `int`. -/
def parseRating (j : Json) : Except Exception ℤ :=
  match j.find? "current_rating" with
  | none => .ok 0
  | some (.str s) =>
      match Cxx.stoi s with
      | .ok n => .ok n
      | .error _ => .ok 0
  | some v => v.getInt

/-! ## The two formats -/

/-- What the alert's name makes of a signal. -/
def classify (sig : WebhookSignal) : WebhookSignal :=
  let alertUpper := toUpper sig.alert
  let closing := fun sig : WebhookSignal =>
    if sig.signalDirection = "bull" then { sig with action := "sell" }
    else if sig.signalDirection = "bear" then { sig with action := "buy" }
    else sig
  if alertUpper = "BUY" ∨ alertUpper = "SELL" then
    { sig with sigType := .entry, action := toLower sig.alert, tradeSide := "open" }
  else if alertUpper = "TP1" ∨ alertUpper = "TP2" ∨ alertUpper = "TP3" then
    closing { sig with sigType := .tp, tpLevel := alertUpper, tradeSide := "close" }
  else if alertUpper = "SL" ∨ alertUpper = "STOP_LOSS" ∨ alertUpper = "STOP-LOSS" ∨
      alertUpper = "STOPLOSS" ∨ alertUpper = "AUTO_SL" ∨ alertUpper = "AUTO-SL" then
    closing { sig with sigType := .sl, tradeSide := "close" }
  else if alertUpper = "RE" ∨ alertUpper = "RE_ENTRY" ∨ alertUpper = "RE-ENTRY" ∨
      alertUpper = "REENTRY" then
    { sig with
      sigType := .reEntry
      action := if sig.signalDirection = "bull" then "buy" else "sell"
      tradeSide := "open" }
  else { sig with sigType := .unknown }

open Json in
/-- `parse_sfx`: the indicator's format. -/
def parseSfx (j : Json) (sig : WebhookSignal) : Except Exception (Option WebhookSignal) := do
  let algorithm ← j.value getString "algorithm" "SFX"
  let ticker ← j.value getString "ticker" ""
  let tickerFull ← j.value getString "ticker_full" ""
  let unixTime ← j.value getInt64 "unix_time" 0
  let timestamp ← j.value getString "timestamp" ""
  let currency ← j.value getString "currency" "USDT"
  let timeframe ← j.value getString "timeframe" ""
  let type ← j.value getString "type" "crypto"
  let alert ← j.value getString "alert" ""
  let signalDirection ← j.value getString "signal_direction" ""
  let currentRating ← parseRating j
  let price ← j.value getDouble "close" 0
  let secret ← j.value getString "secret" ""
  let token ← j.value getString "token" secret
  let alertName ← j.value getString "alert_name" "unknown"
  let strategyName ← j.value getString "strategy" alertName
  let sig := { sig with
    algorithm, ticker, tickerFull, unixTime, timestamp, currency, timeframe, type, alert
    signalDirection, currentRating
    priority := calcPriority timeframe }
  let sig := detectExchangeMarket sig
  return some (classify { sig with
    symbol := normalizeSymbol ticker
    price
    entryPrice := parsePriceField j "entry_price"
    tp1 := parsePriceField j "tp1"
    tp2 := parsePriceField j "tp2"
    tp3 := parsePriceField j "tp3"
    sl := parsePriceField j "sl"
    token, strategyName })

open Json in
/-- `parse_generic`: the generic format. The price is read as a number
first, and only where that gave zero is a string tried. -/
def parseGeneric (j : Json) (sig : WebhookSignal) : Except Exception (Option WebhookSignal) := do
  let action ← j.value getString "action" ""
  let symbol ← j.value getString "symbol" ""
  let tradeSide ← j.value getString "trade_side" "open"
  let price ← j.value getDouble "price" 0
  let size ← j.value getDouble "qty" 0
  let tp1 ← j.value getDouble "tp1" 0
  let tp ← j.value getDouble "tp" tp1
  let sl ← j.value getDouble "sl" 0
  let secret ← j.value getString "secret" ""
  let token ← j.value getString "token" secret
  let alertName ← j.value getString "alert_name" "unknown"
  let strategyName ← j.value getString "strategy" alertName
  let price :=
    if price = 0 then
      match j.find? "price" with
      | some (.str s) =>
          match Cxx.stod s with
          | .ok (.finite q) => q
          | _ => price
      | _ => price
    else price
  return some { sig with
    action, symbol, tradeSide, price, size, tp1 := tp, sl, token, strategyName, sigType := .entry }

end WebhookSignal

end WebhookTrader
