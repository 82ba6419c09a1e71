import WebhookTrader.Engine.Model.State
import WebhookTrader.Risk.Model.Learner

/-!
# The trade recorder

`TradeRecorder` with what it refers to: the list of trades, the learner
that is told of every one, and the balance. The engine's import adds
trades from outside to the same list and the same learner; the scores and
the state file that it refreshes afterwards are modelled elsewhere.
-/

namespace WebhookTrader

/-- **What the recorder writes to.** -/
structure TradeRecorder where
  trades : List TradeRecord := []
  learner : Learner := ∅
  balance : ℚ := 100
  peakBalance : ℚ := 100

/-- The arguments of `record_close`; a close quantity of zero means all of
the position. -/
structure Close where
  pos : ManagedPosition
  exitPrice : ℚ
  exitReason : String
  closeQty : ℚ := 0
  deriving DecidableEq, Repr

namespace Close

variable (c : Close)

def qty : ℚ := if c.closeQty ≤ 0 then c.pos.quantity else c.closeQty

/-- The profit of the prices. -/
def gross : ℚ := Book.calcPnl c.pos.side c.pos.entryPrice c.exitPrice c.qty

def fee : ℚ := Book.calcFee c.exitPrice c.qty

/-- What is recorded of it. -/
def trade : TradeRecord := TradeRecord.ofClose c.pos c.exitPrice c.exitReason c.closeQty

end Close

namespace TradeRecorder

variable (cfg : LearnerConfig)

/-! ## Recording -/

/-- **`record_trade`**, with the learner. -/
def recordTrade (now : ℕ) (tr : TradeRecord) (r : TradeRecorder) : TradeRecorder where
  trades := Shared.capTrades (r.trades ++ [tr])
  learner := r.learner.recordTrade cfg now tr
  balance := r.balance + tr.pnl
  peakBalance := max r.peakBalance (r.balance + tr.pnl)

/-- **`record_close`**, with the profit it returns. -/
def recordClose (now : ℕ) (c : Close) (r : TradeRecorder) : ℚ × TradeRecorder :=
  (c.trade.pnl, r.recordTrade cfg now c.trade)

/-- One trade after the other, each at its time. -/
def recordAll (trades : TimedTrades) (r : TradeRecorder) : TradeRecorder :=
  trades.foldl (fun r e => r.recordTrade cfg e.1 e.2) r

/-- One close after the other. -/
def recordCloses (closes : List (ℕ × Close)) (r : TradeRecorder) : TradeRecorder :=
  closes.foldl (fun r e => (r.recordClose cfg e.1 e.2).2) r

/-! ## Importing -/

/-- The fingerprint of a trade: the symbol, and three numbers to eight
places. -/
def looksLike (t ext : TradeRecord) : Bool :=
  t.symbol = ext.symbol && |t.pnl - ext.pnl| < 1 / 10 ^ 8 &&
    |t.entryPrice - ext.entryPrice| < 1 / 10 ^ 8 && |t.exitPrice - ext.exitPrice| < 1 / 10 ^ 8

/-- `is_duplicate`. -/
def isDuplicate (trades : List TradeRecord) (ext : TradeRecord) : Bool :=
  trades.any fun t => looksLike t ext

/-- One trade is imported, the learner reading the clock anew. The list is
not capped here. -/
def importOne (now : ℕ → ℕ) (s : TradeRecorder × ℕ) (ext : TradeRecord) : TradeRecorder × ℕ :=
  ({ s.1 with
      trades := s.1.trades ++ [ext]
      learner := s.1.learner.recordTrade cfg (now s.2) ext },
    s.2 + 1)

/-- The loop of `import_trades`. -/
def importStep (now : ℕ → ℕ) (s : TradeRecorder × ℕ) (ext : TradeRecord) : TradeRecorder × ℕ :=
  if ext.symbol = "" then s
  else if isDuplicate s.1.trades ext then s
  else importOne cfg now s ext

/-- **`import_trades`**: what it leaves, and how many it has imported. -/
def importTrades (now : ℕ → ℕ) (external : List TradeRecord) (r : TradeRecorder) :
    TradeRecorder × ℕ := external.foldl (importStep cfg now) (r, 0)

end TradeRecorder

end WebhookTrader
