import WebhookTrader.Risk.Model.Scorer

/-!
# What the two records do to a context

A context trade makes the entry of its context and counts in it; a
realized trade adds to the sums of its context, and writes them into the
entry where there is one. Neither touches another context.
-/

namespace WebhookTrader

/-! ## The figures of a context's closes -/

/-- **What an entry says of the closes of its context.** -/
structure RealizedMetrics where
  realizedTradeCount : ℤ := 0
  avgRealizedRr : ℚ := 0
  netExpectancyPerTrade : ℚ := 0
  totalFees : ℚ := 0
  deriving DecidableEq, Repr

def FullScore.metrics (score : FullScore) : RealizedMetrics where
  realizedTradeCount := score.realizedTradeCount
  avgRealizedRr := score.avgRealizedRr
  netExpectancyPerTrade := score.netExpectancyPerTrade
  totalFees := score.totalFees

/-- The figures of some sums. -/
def RealizedAccumulator.metrics (acc : RealizedAccumulator) : RealizedMetrics where
  realizedTradeCount := acc.count
  avgRealizedRr := if 0 < acc.count then acc.sumRealizedRr / acc.count else 0
  netExpectancyPerTrade := if 0 < acc.count then acc.totalNetPnl / acc.count else 0
  totalFees := acc.totalFeeCost

namespace Scorer

variable {cfg : ScorerConfig} {s : Scorer} {symbol timeframe direction key now : String}
  {pnl grossPnl feeCost realizedRr : ℚ} {isWin : Bool} {acc : RealizedAccumulator}
  {score : FullScore}

/-- A context's sums; a context without closes has none. -/
def sums (s : Scorer) (key : String) : RealizedAccumulator := (s.accumulators.lookup key).getD {}

/-- The number of closes in a context's sums. -/
def sumsCount (s : Scorer) (key : String) : ℤ := ((s.accumulators.lookup key).getD {}).count

/-- A context's entry; a context without one has no trades. -/
def context (s : Scorer) (key : String) : FullScore := (s.contextScores.lookup key).getD {}

/-- The figures of a context, where it has an entry. -/
def metrics (s : Scorer) (key : String) : Option RealizedMetrics :=
  (s.contextScores.lookup key).map FullScore.metrics

@[simp] theorem metrics_withRealized : (withRealized acc score).metrics = acc.metrics := rfl

@[simp] theorem metrics_countTrade : (countTrade cfg key pnl isWin now score).metrics =
    score.metrics := rfl

/-! ## The context trade -/

/-- **A context trade** makes the entry, and counts in it. -/
theorem lookup_recordContextTrade (hkey : computeContextKey symbol timeframe direction = key) :
    (s.recordContextTrade cfg symbol timeframe direction pnl isWin now).contextScores.lookup key =
      some (countTrade cfg key pnl isWin now ((s.contextScores.lookup key).getD {})) := by
  subst hkey
  exact AList.lookup_insert _

theorem lookup_recordContextTrade_ne (hkey : computeContextKey symbol timeframe direction ≠ key) :
    (s.recordContextTrade cfg symbol timeframe direction pnl isWin now).contextScores.lookup key =
      s.contextScores.lookup key := AList.lookup_insert_ne hkey.symm

/-- The figures of the closes are not touched; a new entry has none. -/
theorem metrics_recordContextTrade (hkey : computeContextKey symbol timeframe direction = key) :
    (s.recordContextTrade cfg symbol timeframe direction pnl isWin now).metrics key =
      some ((s.metrics key).getD {}) := by
  rw [metrics, lookup_recordContextTrade hkey, Option.map_some, metrics_countTrade, metrics]
  cases s.contextScores.lookup key <;> rfl

theorem metrics_recordContextTrade_ne (hkey : computeContextKey symbol timeframe direction ≠ key) :
    (s.recordContextTrade cfg symbol timeframe direction pnl isWin now).metrics key =
      s.metrics key := by
  rw [metrics, lookup_recordContextTrade_ne hkey, metrics]

/-! ## The realized trade -/

/-- **A realized trade** adds to the sums, and an entry follows them. -/
theorem sums_recordRealizedTrade (hkey : computeContextKey symbol timeframe direction = key) :
    (s.recordRealizedTrade symbol timeframe direction grossPnl feeCost realizedRr).sums key =
      addRealized grossPnl feeCost realizedRr (s.sums key) := by
  subst hkey
  simp only [sums, recordRealizedTrade, AList.lookup_insert, Option.getD_some]

theorem sumsCount_recordRealizedTrade
    (hkey : computeContextKey symbol timeframe direction = key) :
    (s.recordRealizedTrade symbol timeframe direction grossPnl feeCost realizedRr).sumsCount key =
      s.sumsCount key + 1 :=
  congrArg RealizedAccumulator.count (sums_recordRealizedTrade hkey)

theorem lookup_recordRealizedTrade (hkey : computeContextKey symbol timeframe direction = key) :
    (s.recordRealizedTrade symbol timeframe direction grossPnl feeCost
      realizedRr).contextScores.lookup key =
        (s.contextScores.lookup key).map (withRealized (addRealized grossPnl feeCost realizedRr
          ((s.accumulators.lookup key).getD {}))) := by
  subst hkey
  exact Table.lookup_modify

theorem realizedTradeCount_withRealized {score : FullScore} :
    (withRealized (addRealized grossPnl feeCost realizedRr
      ((s.accumulators.lookup key).getD {})) score).realizedTradeCount = s.sumsCount key + 1 := rfl

theorem metrics_recordRealizedTrade (hkey : computeContextKey symbol timeframe direction = key) :
    (s.recordRealizedTrade symbol timeframe direction grossPnl feeCost realizedRr).metrics key =
      (s.metrics key).map fun _ =>
        (addRealized grossPnl feeCost realizedRr (s.sums key)).metrics := by
  rw [metrics, lookup_recordRealizedTrade hkey, metrics, Option.map_map, Option.map_map]
  rfl

/-- Another context is left alone. -/
theorem sums_recordRealizedTrade_ne (hkey : computeContextKey symbol timeframe direction ≠ key) :
    (s.recordRealizedTrade symbol timeframe direction grossPnl feeCost realizedRr).sums key =
      s.sums key := by
  simp only [sums, recordRealizedTrade, AList.lookup_insert_ne hkey.symm]

theorem sumsCount_recordRealizedTrade_ne
    (hkey : computeContextKey symbol timeframe direction ≠ key) :
    (s.recordRealizedTrade symbol timeframe direction grossPnl feeCost realizedRr).sumsCount key =
      s.sumsCount key :=
  congrArg RealizedAccumulator.count (sums_recordRealizedTrade_ne hkey)

theorem lookup_recordRealizedTrade_ne (hkey : computeContextKey symbol timeframe direction ≠ key) :
    (s.recordRealizedTrade symbol timeframe direction grossPnl feeCost
      realizedRr).contextScores.lookup key = s.contextScores.lookup key :=
  Table.lookup_modify_ne hkey.symm

theorem metrics_recordRealizedTrade_ne
    (hkey : computeContextKey symbol timeframe direction ≠ key) :
    (s.recordRealizedTrade symbol timeframe direction grossPnl feeCost realizedRr).metrics key =
      s.metrics key := by
  rw [metrics, lookup_recordRealizedTrade_ne hkey, metrics]

end Scorer

end WebhookTrader
