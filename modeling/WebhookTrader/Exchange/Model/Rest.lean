import WebhookTrader.Common.Decimal
import WebhookTrader.Common.Table
import WebhookTrader.Webhook.Model.Signal

/-!
# The REST client

What `BitgetRestClient` puts into a request and what it reads out of a
response: the rounding of a quantity to the contract's step, its minimum
and its printing, the order and close requests, and the parsing of the
answers. The transport, its retry and its faults are in `Venue.lean`.
-/

namespace WebhookTrader

/-- The part of a contract the orders read. -/
structure ContractInfo where
  sizeMultiplier : ℚ := 1 / 1000
  minTradeNum : ℚ := 1 / 1000
  deriving DecidableEq, Repr

/-- The contract cache. -/
abbrev Contracts := Table String ContractInfo

namespace Contracts

variable (contracts : Contracts) (symbol : String)

/-! ## Quantities -/

/-- `get_contract_field` of the size multiplier. -/
def sizeMultiplier : ℚ := ((contracts.lookup symbol).map (·.sizeMultiplier)).getD (1 / 1000)

/-- `get_min_qty`. -/
def getMinQty : ℚ := ((contracts.lookup symbol).map (·.minTradeNum)).getD (1 / 1000)

/-- `round_qty`: down to a multiple of the size multiplier. -/
def roundQty (qty : ℚ) : ℚ :=
  floorTo
    (if contracts.sizeMultiplier symbol ≤ 0 then 1 / 1000 else contracts.sizeMultiplier symbol) qty

/-- The loop that counts a step's decimal places, at most `fuel` of them:
how often it takes ten to reach one. -/
def decimalsLoop : ℕ → ℚ → ℕ
  | 0, _ => 0
  | fuel + 1, s => if s < 1 then decimalsLoop fuel (s * 10) + 1 else 0

/-- The places a quantity is printed with. -/
def decimals : ℕ := decimalsLoop 10 (contracts.sizeMultiplier symbol)

/-- The quantity handed to the printer: rounded down, and raised to the
minimum where that leaves too little. -/
def orderQty (qty : ℚ) : ℚ :=
  if contracts.roundQty symbol qty < contracts.getMinQty symbol then contracts.getMinQty symbol
  else contracts.roundQty symbol qty

/-- The `size` of a request. -/
def orderSize (qty : ℚ) : Numeral :=
  Numeral.printf (contracts.decimals symbol) (contracts.orderQty symbol qty)

end Contracts

/-! ## Requests -/

/-- The part of an `OrderRequest` that a market order sends. -/
structure OrderRequest where
  /-- At most 23 characters of the symbol. -/
  symbol : String
  side : Side
  tradeSide : TradeSide
  price : ℚ
  quantity : ℚ
  clientOrderId : ℕ
  deriving DecidableEq, Repr

/-- What `Symbol` keeps of a symbol. -/
def symbolChars (symbol : String) : String := String.ofList (symbol.toList.take 23)

/-- `to_order_request`. -/
def WebhookSignal.toOrderRequest (sig : WebhookSignal) (oid : ℕ) : OrderRequest where
  symbol := symbolChars sig.symbol
  side := sig.getSide
  tradeSide := sig.getTradeSide
  price := sig.price
  quantity := sig.size
  clientOrderId := oid

/-- **The body of a place-order request.** -/
structure OrderBody where
  symbol : String
  side : Side
  tradeSide : TradeSide
  size : Numeral
  /-- Missing from partial closes. -/
  clientOid : Option ℕ := none
  presetStopSurplusPrice : Option Numeral := none
  presetStopLossPrice : Option Numeral := none
  deriving DecidableEq, Repr

/-- `body["size"]`: what of the printed size the buffer of 32 characters
has room for before its terminator. -/
def OrderBody.sizeText (body : OrderBody) : String :=
  String.ofList (body.size.text.toList.take 31)

/-- `std::to_string` of a double, where it is positive. -/
def presetPrice (price : ℚ) : Option Numeral :=
  if 0 < price then some (Numeral.printf 6 price) else none

/-- The body `place_futures_order` sends. -/
def placeFuturesOrder (contracts : Contracts) (req : OrderRequest) (presetTp presetSl : ℚ) :
    OrderBody where
  symbol := req.symbol
  side := req.side
  tradeSide := req.tradeSide
  size := contracts.orderSize req.symbol req.quantity
  clientOid := some req.clientOrderId
  presetStopSurplusPrice := presetPrice presetTp
  presetStopLossPrice := presetPrice presetSl

/-- The body `close_partial` sends: a long position is closed by selling,
and the request carries no client order id. -/
def closePartial (contracts : Contracts) (symbol : String) (qty : ℚ) (holdSide : String) :
    OrderBody where
  symbol
  side := if holdSide = "long" then .sell else .buy
  tradeSide := .close
  size := contracts.orderSize symbol qty

/-! ## Responses -/

inductive OrderStatus
  | new
  | rejected
  deriving DecidableEq, Repr

structure OrderResponse where
  status : OrderStatus
  exchangeOrderId : ℕ := 0
  errorCode : ℤ := 0
  errorMsg : String := ""
  deriving DecidableEq, Repr

namespace OrderResponse

open Json in
/-- The body of `parse_order_response`'s `try`. -/
def read (j : Json) : Except Exception OrderResponse := do
  let code ← j.value getString "code" "99999"
  if code = "00000" then
    match j.find? "data" with
    | some (.obj fields) =>
        match fields.lookup "orderId" with
        | some v =>
            let text ← v.getString
            let exchangeOrderId ← Cxx.stoull text
            return { status := .new, exchangeOrderId }
        | none => return { status := .new }
    -- a missing `data` becomes a null, and only an object contains anything
    | _ => return { status := .new }
  else
    let errorCode ← Cxx.stoi code
    let msg ← j.value getString "msg" "unknown"
    return { status := .rejected, errorCode, errorMsg := String.ofList (msg.toList.take 127) }

/-- **`parse_order_response`**: whatever raises is a rejection with the
code of a lost connection. -/
def parse (j : Json) : OrderResponse :=
  match read j with
  | .ok resp => resp
  | .error _ => { status := .rejected, errorCode := 99999 }

end OrderResponse

/-- Whether `flash_close_position` has succeeded: it has where the exchange
says so, and where there was nothing left to close. -/
def flashCloseSucceeded (j : Json) : Bool :=
  match j.value Json.getString "code" "99999" with
  | .ok code => code = "00000" || code = "22002"
  | .error _ => false

/-- The answer `do_request` makes up when it gives up. -/
def connectionError : Json := .obj [("code", .str "99999"), ("msg", .str "connection_error")]

/-- The client takes a lost connection for a rejection. -/
theorem parse_connectionError :
    OrderResponse.parse connectionError =
      { status := .rejected, errorCode := 99999, errorMsg := "connection_error" } := rfl

end WebhookTrader
