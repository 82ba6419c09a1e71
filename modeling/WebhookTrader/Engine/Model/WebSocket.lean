import WebhookTrader.Common.Json
import WebhookTrader.Engine.Model.Exit

/-!
# The WebSocket client

`BitgetWSClient`: what it reads out of a message, the loop that pings and
reads on an open connection, a connection from its log-in on, and the
loop that connects again. The clock, the reads and the parser of JSON
texts are the environment's. The callbacks are the engine's.
-/

namespace WebhookTrader

/-! ## Messages -/

/-- An account row as the client reads it. -/
structure WsAccountUpdate extends AccountUpdate where
  unrealizedPnl : ℚ := 0
  marginCoin : String
  deriving DecidableEq, Repr

/-- A position row as the client reads it. -/
structure WsPositionRow extends WsPositionUpdate where
  unrealizedPnl : ℚ := 0
  leverage : ℚ := 0
  margin : ℚ := 0
  deriving DecidableEq, Repr

/-- An order row as the client reads it. -/
structure WsOrderUpdate where
  symbol : String
  orderId : String
  clientOid : String
  side : String
  tradeSide : String
  status : String
  price : ℚ := 0
  size : ℚ := 0
  filledSize : ℚ := 0
  filledAmount : ℚ := 0
  fee : ℚ := 0
  deriving DecidableEq, Repr

/-- **What a callback is called with.** -/
inductive WsUpdate
  | account (upd : WsAccountUpdate)
  | position (upd : WsPositionRow)
  | order (upd : WsOrderUpdate)
  deriving DecidableEq, Repr

namespace BitgetWs

/-- An infinity is a number beyond every double, as in a snapshot; a NaN is
what the caller says. -/
def nonfinite (nan : ℚ) (s : String) : ℚ :=
  let (neg, cs) := Cxx.sign (s.toList.dropWhile Cxx.isSpace)
  if "inf".toList <+: cs.map Char.toLower then if neg then -(2 ^ 1024) else 2 ^ 1024 else nan

/-- `safe_stod`: whatever does not read as a number is zero. -/
def safeStod (nan : ℚ) : Json → ℚ
  | .int n => n
  | .float q => q
  | .str s =>
      if s = "" then 0
      else
        match Cxx.stod s with
        | .ok (.finite q) => q
        | .ok .nonfinite => nonfinite nan s
        | .error _ => 0
  | _ => 0

/-- A number of a row, zero where the row does not contain it. -/
def number (nan : ℚ) (item : Json) (key : String) : ℚ :=
  match item.find? key with
  | some v => safeStod nan v
  | none => 0

open Json in
/-- A row of the channel `account`. -/
def accountRow (item : Json) : Except Exception WsUpdate := do
  let marginCoin ← item.value getString "marginCoin" "USDT"
  return .account
    { marginCoin
      available := number 0 item "available"
      equity := number 0 item "accountEquity"
      unrealizedPnl := number 0 item "unrealizedPL" }

open Json in
/-- A row of the channel `positions`. A size that is not a number is not a
closed position, since it compares with nothing: it stands for one. -/
def positionRow (item : Json) : Except Exception WsUpdate := do
  let symbol ← item.value getString "instId" ""
  let holdSide ← item.value getString "holdSide" ""
  return .position
    { symbol, holdSide
      size := number 1 item "total"
      avgPrice := number 0 item "averageOpenPrice"
      unrealizedPnl := number 0 item "unrealizedPL"
      leverage := number 0 item "leverage"
      margin := number 0 item "margin"
      realizedPnl := number 0 item "achievedProfits" }

open Json in
/-- A row of the channel `orders`. -/
def orderRow (item : Json) : Except Exception WsUpdate := do
  let symbol ← item.value getString "instId" ""
  let orderId ← item.value getString "orderId" ""
  let clientOid ← item.value getString "clientOid" ""
  let side ← item.value getString "side" ""
  let tradeSide ← item.value getString "tradeSide" ""
  let status ← item.value getString "status" ""
  return .order
    { symbol, orderId, clientOid, side, tradeSide, status
      price := number 0 item "price"
      size := number 0 item "size"
      filledSize := number 0 item "baseVolume"
      filledAmount := number 0 item "quoteVolume"
      fee := number 0 item "fee" }

/-- The rows of a channel; of any other channel nothing is read. -/
def rowOf (channel : String) : Option (Json → Except Exception WsUpdate) :=
  if channel = "account" then some accountRow
  else if channel = "positions" then some positionRow
  else if channel = "orders" then some orderRow
  else none

/-- The rows one after the other, each handed on as it is read, up to one
that raises. -/
def deliver (row : Json → Except Exception WsUpdate) : List Json → List WsUpdate × Option Exception
  | [] => ([], none)
  | item :: items =>
      match row item with
      | .error e => ([], some e)
      | .ok upd => (upd :: (deliver row items).1, (deliver row items).2)

/-- **`handle_message`**: what is handed on, and what is raised after it. -/
def handleMessage (j : Json) : List WsUpdate × Option Exception :=
  match j.find? "arg", j.find? "data" with
  | some arg, some data =>
      match arg.value Json.getString "channel" "" with
      | .error e => ([], some e)
      | .ok channel =>
          match rowOf channel with
          | some row => deliver row data.elements
          | none => ([], none)
  | _, _ => ([], none)

/-! ## An open connection -/

/-- A second of the steady clock, which counts nanoseconds. -/
def second : ℕ := 10 ^ 9

/-- `PING_INTERVAL_SEC`. -/
def pingInterval : ℕ := 25

/-- `PONG_TIMEOUT_SEC`. -/
def pongTimeout : ℕ := 10

/-- What a read ends with. -/
inductive WsRead
  | timeout
  | failed
  | frame (msg : String)
  deriving DecidableEq, Repr

/-- **A turn of the receiving loop**, as the environment lets it happen. -/
structure WsTurn where
  /-- The steady clock at the head of the loop. -/
  now : ℕ
  /-- The write of a ping fails, where there is one. -/
  pingFails : Bool := false
  read : WsRead
  deriving DecidableEq, Repr

/-- Why a connection is given up. -/
inductive WsFault
  | pongTimeout
  | pingFailed
  | readFailed
  | raised (e : Exception)
  deriving DecidableEq, Repr

/-- **The receiving loop between two turns**, with what it has handed on
and the times of its pings. -/
structure Receiving where
  lastPing : ℕ
  pongPending : Bool := false
  updates : List WsUpdate := []
  pings : List ℕ := []
  fault : Option WsFault := none

/-- What is done with a frame. -/
def onFrame (parse : String → Option Json) (msg : String) (r : Receiving) : Receiving :=
  if msg = "pong" then { r with pongPending := false }
  else
    match parse msg with
    -- a parse error is logged
    | none => r
    | some j =>
        { r with
          updates := r.updates ++ (handleMessage j).1
          fault := (handleMessage j).2.map .raised }

/-- The read of a turn. -/
def onRead (parse : String → Option Json) (read : WsRead) (r : Receiving) : Receiving :=
  match read with
  | .timeout => r
  | .failed => { r with fault := some .readFailed }
  | .frame msg => onFrame parse msg r

/-- A turn writes a ping. -/
def pinging (r : Receiving) (t : WsTurn) : Bool := pingInterval ≤ (t.now - r.lastPing) / second

/-- The ping of a turn, where one is due. -/
def ping (t : WsTurn) (r : Receiving) : Receiving :=
  if pinging r t then { r with lastPing := t.now, pongPending := true, pings := r.pings ++ [t.now] }
  else r

/-- The pong is overdue. -/
def overdue (r : Receiving) (t : WsTurn) : Bool :=
  r.pongPending && pongTimeout ≤ (t.now - r.lastPing) / second

/-- **A turn of the receiving loop**, where the connection has not been
given up. -/
def turn (parse : String → Option Json) (r : Receiving) (t : WsTurn) : Receiving :=
  if r.fault.isSome then r
  else if pinging r t && t.pingFails then { r with fault := some .pingFailed }
  else if overdue (ping t r) t then { ping t r with fault := some .pongTimeout }
  else onRead parse t.read (ping t r)

/-- The receiving loop over the turns up to the one that finds the client
stopped, from the time the connection is open. -/
def receive (parse : String → Option Json) (opened : ℕ) (turns : List WsTurn) : Receiving :=
  turns.foldl (turn parse) { lastPing := opened }

/-! ## A connection -/

/-- **An attempt to connect**, as the environment lets it happen. -/
structure WsAttempt where
  /-- Name, TCP, TLS and the WebSocket handshake. -/
  connects : Bool := true
  /-- The answer to the log-in, where one is read. -/
  login : Option String := none
  /-- The answer to the subscription, where one is read. -/
  subscribed : Option String := none
  opened : ℕ := 0
  turns : List WsTurn := []
  /-- The client has been stopped when the fault is caught. -/
  stopped : Bool := false
  /-- The client is stopped after that many seconds of the wait. -/
  stopsIn : Option ℕ := none
  deriving DecidableEq, Repr

open Json in
/-- The check of the answer to the log-in. -/
def loginAccepted (resp : Json) : Except Exception Bool := do
  let event ← resp.value getString "event" ""
  if event ≠ "login" then return false
  let code ← resp.value getInt "code" 1
  return code = 0

/-- The connection gets as far as its loop: the log-in is accepted, and the
answer to the subscription can be logged. -/
def established (parse : String → Option Json) (a : WsAttempt) : Bool :=
  a.connects && (a.login.bind parse).any (fun resp => loginAccepted resp = .ok true) &&
    (a.subscribed.bind parse).any fun resp => (resp.value Json.getString "event" "unknown").isOk

/-- **`connect_and_run`**: what is handed on, and whether it throws. -/
def connectAndRun (parse : String → Option Json) (a : WsAttempt) : List WsUpdate × Bool :=
  if established parse a then
    ((receive parse a.opened a.turns).updates, (receive parse a.opened a.turns).fault.isSome)
  else ([], true)

/-! ## The client -/

/-- **The client between two attempts**, with what it has handed on and how
long it has waited each time. -/
structure Client where
  running : Bool := true
  reconnectCount : ℕ := 0
  backoffSec : ℕ := 1
  updates : List WsUpdate := []
  /-- The number of each reconnection that is announced. -/
  announced : List ℕ := []
  waits : List ℕ := []

/-- What an attempt that has thrown leaves. -/
def onThrow (wasConnected : Bool) (a : WsAttempt) (c : Client) : Client :=
  let backoff := if wasConnected then 1 else c.backoffSec
  let count := (if wasConnected then 0 else c.reconnectCount) + 1
  { c with
    running := a.stopsIn.all fun n => backoff ≤ n
    reconnectCount := count
    announced := c.announced ++ [count]
    waits := c.waits ++ [a.stopsIn.elim backoff (min backoff)]
    backoffSec := min (backoff * 2) 60 }

/-- **A turn of `run_loop`.** A connection that ends without a throw has
found the client stopped. -/
def attempt (parse : String → Option Json) (c : Client) (a : WsAttempt) : Client :=
  if !c.running then c
  else
    let r := connectAndRun parse a
    let c := { c with updates := c.updates ++ r.1 }
    if r.2 then
      if a.stopped then { c with running := false } else onThrow (established parse a) a c
    else { c with running := false, reconnectCount := 0, backoffSec := 1 }

/-- `run_loop`, over its attempts. -/
def runLoop (parse : String → Option Json) (attempts : List WsAttempt) : Client :=
  attempts.foldl (attempt parse) {}

end BitgetWs

/-! ## What the engine does with it -/

/-- The engine's callbacks: the one for orders only logs. -/
def Shared.onWs (s : Shared) : WsUpdate → Shared
  | .account upd => s.onWsAccount upd.toAccountUpdate
  | .position upd => s.onWsPosition upd.toWsPositionUpdate
  | .order _ => s

/-- The callbacks one after the other. -/
def Shared.onWsUpdates (s : Shared) (updates : List WsUpdate) : Shared :=
  updates.foldl Shared.onWs s

end WebhookTrader
