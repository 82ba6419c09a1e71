import WebhookTrader.Exchange.Model.Rest
import WebhookTrader.Engine.Model.Book

/-!
# The exchange and the way to it

The exchange holds a quantity per symbol and side, adds accepted opens and
subtracts accepted closes, never below zero. It executes an order with a
client order id once. Each HTTP attempt of the client meets one of four
outcomes, given by the environment: the request never arrives, it is
executed and the answer is lost, it is executed and answered, or it is
refused.
-/

namespace WebhookTrader

/-- A side of the exchange's book. -/
inductive HoldSide
  | long
  | short
  deriving DecidableEq, Repr

namespace HoldSide

def text : HoldSide → String
  | long => "long"
  | short => "short"

@[simp] theorem text_inj {a b : HoldSide} : a.text = b.text ↔ a = b := by
  cases a <;> cases b <;> decide

/-- The side an opening order adds to. -/
def ofOpen : Side → HoldSide
  | .buy => long
  | .sell => short

/-- The side a closing order takes from. -/
def ofClose : Side → HoldSide
  | .sell => long
  | .buy => short

end HoldSide

/-- **What happens to one HTTP attempt.** A server error that asks for a
retry is a lost attempt. -/
inductive Attempt
  /-- The exchange does not see it. -/
  | lost
  /-- The exchange executes it and the answer does not arrive. -/
  | unanswered
  | delivered
  /-- The exchange refuses it with an error code. -/
  | refused (code : String)
  deriving DecidableEq, Repr

/-- What the client may ask of the exchange. -/
inductive VenueRequest
  | order (body : OrderBody)
  /-- `close-positions`: everything of a symbol and side. -/
  | closePositions (symbol holdSide : String)
  deriving DecidableEq, Repr

/-- **The exchange's state**: its holdings, the client order ids it has
executed, and the closing orders it has executed, latest first. -/
structure Venue where
  holdings : Table (String × HoldSide) ℚ := ∅
  clientOids : List ℕ := []
  closes : List OrderBody := []

namespace Venue

/-- The quantity held. -/
def quantity (v : Venue) (symbol : String) (side : HoldSide) : ℚ :=
  (v.holdings.lookup (symbol, side)).getD 0

/-- Set the quantity held. -/
def hold (v : Venue) (symbol : String) (side : HoldSide) (q : ℚ) : Venue :=
  { v with holdings := v.holdings.insert (symbol, side) q }

theorem quantity_hold {v : Venue} {symbol symbol' : String} {side side' : HoldSide} {q : ℚ} :
    (v.hold symbol side q).quantity symbol' side' =
      if (symbol', side') = (symbol, side) then q else v.quantity symbol' side' := by
  unfold quantity hold
  split_ifs with h
  · rw [h]; simp
  · rw [AList.lookup_insert_ne h]

/-! ## Executing a request -/

/-- The answer to an accepted order. -/
def accepted : Json := .obj [("code", .str "00000"), ("data", .obj [("orderId", .str "1")])]

/-- The answer with an error code. -/
def refusal (code : String) : Json := .obj [("code", .str code), ("msg", .str "refused")]

/-- The order's client order id has been executed before. -/
def isDuplicate (v : Venue) (body : OrderBody) : Bool :=
  body.clientOid.any fun oid => v.clientOids.contains oid

/-- Execute an order: open adds, close subtracts down to zero. -/
def execute (v : Venue) (body : OrderBody) : Venue :=
  let v := { v with clientOids := body.clientOid.toList ++ v.clientOids }
  match body.tradeSide with
  | .open =>
      let side := HoldSide.ofOpen body.side
      v.hold body.symbol side (v.quantity body.symbol side + body.size.value)
  | .close =>
      let side := HoldSide.ofClose body.side
      { v.hold body.symbol side (max 0 (v.quantity body.symbol side - body.size.value)) with
        closes := body :: v.closes }

/-- The side a text names. -/
def sideOfText (holdSide : String) : Option HoldSide :=
  if holdSide = "long" then some .long else if holdSide = "short" then some .short else none

/-- What a request that arrives does, and its answer. The first argument is
the code a repeated client order id is answered with. -/
def handle (duplicateCode : String) (v : Venue) : VenueRequest → Json × Venue
  | .order body =>
      if v.isDuplicate body then (refusal duplicateCode, v) else (accepted, v.execute body)
  | .closePositions symbol holdSide =>
      match sideOfText holdSide with
      | none => (refusal "40019", v)
      | some side =>
          if v.quantity symbol side ≤ 0 then (refusal "22002", v)
          else (accepted, v.hold symbol side 0)

/-- **One HTTP attempt**: the answer the client receives, if any, and the
exchange after it. -/
def attempt (duplicateCode : String) (a : Attempt) (req : VenueRequest) (v : Venue) :
    Option Json × Venue :=
  match a with
  | .lost => (none, v)
  | .unanswered => (none, (v.handle duplicateCode req).2)
  | .delivered => (some (v.handle duplicateCode req).1, (v.handle duplicateCode req).2)
  | .refused code => (some (refusal code), v)

/-! ## Orders that arrive -/

section Order

variable {v : Venue} {body : OrderBody}

theorem handle_order_new (code : String) (h : v.isDuplicate body = false) :
    v.handle code (.order body) = (accepted, v.execute body) := by
  simp [handle, h]

theorem handle_order_duplicate (code : String) (h : v.isDuplicate body = true) :
    v.handle code (.order body) = (refusal code, v) := by
  simp [handle, h]

theorem clientOids_execute :
    (v.execute body).clientOids = body.clientOid.toList ++ v.clientOids := by
  unfold execute
  cases body.tradeSide <;> rfl

theorem closes_execute (h : body.tradeSide = .close) :
    (v.execute body).closes = body :: v.closes := by
  simp [execute, h]

end Order

/-- The exchange's snapshot, with prices and leverages from outside. -/
def snapshot (quote : String × HoldSide → ℚ × ℤ) (v : Venue) : List ExchangePosition :=
  v.holdings.entries.map fun e =>
    { symbol := e.1.1
      holdSide := e.1.2.text
      total := e.2
      avgPrice := (quote e.1).1
      leverage := (quote e.1).2 }

end Venue

/-- The client reads an accepted order as new. -/
theorem parse_accepted :
    OrderResponse.parse Venue.accepted = { status := .new, exchangeOrderId := 1 } := by
  rfl

end WebhookTrader
