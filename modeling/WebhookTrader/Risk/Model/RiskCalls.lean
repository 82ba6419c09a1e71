import WebhookTrader.Risk.Model.Portfolio

/-!
# Calls of the portfolio risk manager

What the manager is called with, at which time, and its state after some
calls. A manager begins with its constructor's state.
-/

namespace WebhookTrader

/-- **A call of the manager.** The mode at the time of the call goes with
`check_entry`. -/
inductive RiskCall (α : Type)
  | tradeClosed (pnl : ℚ)
  | updateBalance (balance : ℚ)
  | checkEntry (shadow : Bool) (positions : Table α ManagedPosition) (e : EntryCheck)

/-- A call with the clocks it reads. -/
abbrev TimedCall (α : Type) := Clock × RiskCall α

namespace PortfolioRisk

variable {α : Type}

/-- One call. -/
def step (cfg : PortfolioConfig) (r : PortfolioRisk) : TimedCall α → PortfolioRisk
  | (now, .tradeClosed pnl) => r.onTradeClosed cfg now pnl
  | (_, .updateBalance balance) => r.updateBalance balance
  | (now, .checkEntry shadow positions e) => (checkEntry cfg shadow now positions e r).2

/-- **The manager after some calls.** -/
def after (cfg : PortfolioConfig) (calls : List (TimedCall α)) : PortfolioRisk :=
  calls.foldl (step cfg) {}

end PortfolioRisk

end WebhookTrader
