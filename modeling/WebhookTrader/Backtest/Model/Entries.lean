import WebhookTrader.Backtest.Model.Backtester

/-!
# Entries and their margin check

Which signals bring an entry to the margin check of `handle_entry`, and
what the check finds there: a signal of another kind brings none, nor does
an entry on the side of the position that is open, and before an entry on
the other side that position is closed, with its net profit on the
balance.
-/

namespace WebhookTrader

namespace Backtester

/-- The state after some signals. -/
def after (params : BtParams) (signals : List BtSignal) : Backtester :=
  signals.foldl (processSignal params) (reset params)

/-- The signal `handle_entry` is called with, where it is called. -/
def entrySignal (b : Backtester) (sig : BtSignal) : Option BtSignal :=
  if sig.isEntry then some sig
  else if sig.isTp || sig.isSl then none
  else if sig.isReentry && (b.positions.lookup sig.symbol).isNone then
    some { sig with alert := if sig.direction = "bull" then "buy" else "sell" }
  else none

variable (params : BtParams)

/-- The balance the margin check of `handle_entry` finds, where an entry comes
to it. -/
def balanceAtCheck (b : Backtester) (entry : BtSignal) : Option ℚ :=
  match b.positions.lookup entry.symbol with
  | none => some b.balance
  | some pos =>
      if pos.side ≠ entry.side then
        some (b.balance + netPnl params pos entry.price pos.quantity)
      else none

/-- **The balance a signal's entry is checked against**, where the signal
brings one to the check. -/
def checkedBalance (b : Backtester) (sig : BtSignal) : Option ℚ :=
  (b.entrySignal sig).bind (b.balanceAtCheck params)

/-- The margin of an entry. -/
def entryMargin : ℚ := params.tradeAmountUsdt / params.leverage

/-- **An entry is accepted.** -/
def Accepts (b : Backtester) (sig : BtSignal) : Prop :=
  ∃ balance, b.checkedBalance params sig = some balance ∧
    entryMargin params ≤ balance * (95 / 100)

/-- **An entry is rejected for its margin.** -/
def Rejects (b : Backtester) (sig : BtSignal) : Prop :=
  ∃ balance, b.checkedBalance params sig = some balance ∧
    balance * (95 / 100) < entryMargin params

/-- **The margin of all open positions.** -/
def totalMargin (b : Backtester) : ℚ :=
  b.positions.sum fun pos => pos.entryPrice * pos.quantity / pos.leverage

end Backtester

end WebhookTrader
