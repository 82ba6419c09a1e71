import WebhookTrader.Engine.Model.Readiness

/-!
# Trading modes and the automatic switch

The four variables that decide between paper and real orders, and the
thread that switches them. `periodic_tasks` runs on one worker only; its
part that switches the modes is a machine whose every step is one read or
one write, so that the other workers may act in between.
-/

namespace WebhookTrader

/-- **The shared mode variables.** -/
structure Modes where
  /-- `m_trading.shadow_mode`. -/
  shadowMode : Bool
  /-- `m_auto_live_active`. -/
  autoLiveActive : Bool := false
  /-- `m_eligible_keys`. -/
  eligibleKeys : List String := []
  /-- The portfolio manager's `m_shadow_mode`. -/
  riskShadowMode : Bool
  deriving DecidableEq, Repr

namespace Modes

/-- The modes `start` leaves behind: the portfolio manager is told the
configured mode. -/
def start (shadowMode : Bool) : Modes := { shadowMode, riskShadowMode := shadowMode }

end Modes

/-- **Where the periodic thread is in its check.** The flag is the status'
`can_go_live`. -/
inductive Periodic
  | idle
  | publish (canGoLive : Bool) (keys : List String)
  | upShadow
  | upActive
  | setActive
  | clearShadow
  | clearRisk
  | downActive (canGoLive : Bool)
  | clearActive
  | setShadow
  | setRisk
  deriving DecidableEq, Repr

namespace Periodic

/-- Begin a check on some shadow reports, where automatic switching is
configured. -/
def begin (cfg : ReadinessConfig) (reports : Reports) : Periodic :=
  publish (Readiness.check cfg reports).1 (Readiness.check cfg reports).2

/-- **One read or write of the periodic thread.** The activation branch is
entered with `can_go_live` and left with it, so what follows it is the
deactivation's test. -/
def step (m : Modes) : Periodic → Option (Periodic × Modes)
  | idle => none
  | publish can keys => some (if can then upShadow else downActive can,
      { m with eligibleKeys := keys })
  | upShadow => some (if m.shadowMode then upActive else downActive true, m)
  | upActive => some (if m.autoLiveActive then downActive true else setActive, m)
  | setActive => some (clearShadow, { m with autoLiveActive := true })
  | clearShadow => some (clearRisk, { m with shadowMode := false })
  | clearRisk => some (downActive true, { m with riskShadowMode := false })
  | downActive can => some (if m.autoLiveActive ∧ can = false then clearActive else idle, m)
  | clearActive => some (setShadow, { m with autoLiveActive := false })
  | setShadow => some (setRisk, { m with shadowMode := true })
  | setRisk => some (idle, { m with riskShadowMode := true })

end Periodic

end WebhookTrader
