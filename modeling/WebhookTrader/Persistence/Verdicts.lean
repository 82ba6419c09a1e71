import WebhookTrader.Persistence.ShadowFile
import WebhookTrader.Shadow.History
import WebhookTrader.Shadow.Report

/-!
# Verdicts and restarts

A report counts the trades in memory, up to five thousand, and the file
has the last thousand. What is read back of a trade is all that a report
counts. So a restart leaves the reports as they were where there are no
more than a thousand trades, and changes a row where there are more: the
key of a trade that is lost has one trade fewer, or none.
-/

namespace WebhookTrader

/-! ## Reports of fewer trades -/

section Reports

variable {key : TradeRecord → String} {row : String → SymStats → ReportRow}
  {trades : List TradeRecord}

/-- A report counts nothing of a trade but its key and its profit. -/
theorem reportOf_map {back : TradeRecord → TradeRecord} (hkey : ∀ t, key (back t) = key t)
    (hpnl : ∀ t, (back t).pnl = t.pnl) :
    reportOf key row (trades.map back) = reportOf key row trades := by
  have hstep : ∀ (table : Table String SymStats) t,
      Table.tallyStep key SymStats.count {} table (back t) =
        Table.tallyStep key SymStats.count {} table t := by
    intro table t
    unfold Table.tallyStep
    rw [hkey]
    unfold SymStats.count
    rw [hpnl]
  have htally : Table.tally key SymStats.count {} (trades.map back) =
      Table.tally key SymStats.count {} trades := by
    rw [Table.tally, List.foldl_map]
    simp only [hstep]
    rfl
  rw [reportOf, htally, reportOf]

/-- The last of a list that is short enough are all of it. -/
theorem capTrades_of_le {n : ℕ} (h : trades.length ≤ n) :
    ShadowTracker.capTrades n trades = trades := by
  rw [ShadowTracker.capTrades, Nat.sub_eq_zero_of_le h, List.drop_zero]

/-- **A report of the last trades** has the rows of the whole report just
where these are all of them. -/
theorem reportOf_capTrades_perm_iff (name : ReportRow → String)
    (hname : ∀ k s, name (row k s) = k) (htotal : ∀ k s, (row k s).total = s.total) (n : ℕ) :
    (reportOf key row (ShadowTracker.capTrades n trades)).Perm (reportOf key row trades) ↔
      trades.length ≤ n := by
  constructor
  · intro hperm
    by_contra hlong
    -- the first trade is lost, and its key's row is another
    obtain ⟨first, rest, rfl⟩ : ∃ first rest, trades = first :: rest := by
      rcases trades with - | ⟨first, rest⟩
      · exact absurd (Nat.zero_le n) hlong
      · exact ⟨first, rest, rfl⟩
    have hrow : row (key first)
        (.ofTrades ((first :: rest).filter fun t => key t = key first)) ∈
          reportOf key row (first :: rest) :=
      mem_reportOf.2 ⟨key first, ⟨first, List.mem_cons_self, rfl⟩, rfl⟩
    obtain ⟨k, -, hsame⟩ := mem_reportOf.1 (hperm.mem_iff.2 hrow)
    have hkey : key first = k := by rw [← hname (key first), hsame, hname]
    have hlength := congrArg ReportRow.total hsame
    rw [htotal, htotal, ← hkey] at hlength
    have hsub : (ShadowTracker.capTrades n (first :: rest)).Sublist rest := by
      have hdrop : ShadowTracker.capTrades n (first :: rest) = rest.drop (rest.length - n) := by
        rw [List.length_cons] at hlong
        rw [ShadowTracker.capTrades, List.length_cons, Nat.succ_sub (by omega), List.drop_succ_cons]
      rw [hdrop]
      exact List.drop_sublist _ _
    have hfewer := (hsub.filter fun t => decide (key t = key first)).length_le
    have hmore : ((first :: rest).filter fun t => decide (key t = key first)).length =
        (rest.filter fun t => decide (key t = key first)).length + 1 := by
      rw [List.filter_cons_of_pos (by simp), List.length_cons]
    have hequal : ((first :: rest).filter fun t => decide (key t = key first)).length =
        ((ShadowTracker.capTrades n (first :: rest)).filter
          fun t => decide (key t = key first)).length := hlength
    omega
  · intro hshort
    rw [capTrades_of_le hshort]

end Reports

/-! ## Before and after -/

section Restored

variable (t : TradeRecord)

theorem symbol_shadowRestored : t.shadowRestored.symbol = t.symbol := rfl

theorem symbolTfKey_shadowRestored : symbolTfKey t.shadowRestored = symbolTfKey t := rfl

theorem pnl_shadowRestored : t.shadowRestored.pnl = t.pnl := rfl

theorem reportKey_spotShadowRestored : SpotShadowTracker.reportKey t.spotShadowRestored =
    SpotShadowTracker.reportKey t := rfl

theorem symbolTfKey_spotShadowRestored : symbolTfKey t.spotShadowRestored = symbolTfKey t := rfl

theorem pnl_spotShadowRestored : t.spotShadowRestored.pnl = t.pnl := rfl

end Restored

/-- The levels of a report's entries, by name. -/
def levelsOf (cfg : ReadinessConfig) (market : String) (report : List ReportRow) :
    List (String × ReadinessLevel) :=
  report.map fun r => (r.symbol, (Readiness.evaluateSymbol cfg market r.read).level)

/-- **What a restart does to a report**: it becomes the report of the last
thousand trades, so its entries are the same where there are no more. -/
structure ReportKept (key : TradeRecord → String) (row : String → SymStats → ReportRow)
    (trades : List TradeRecord) (before after : List ReportRow) : Prop where
  last : after.Perm (reportOf key row (ShadowTracker.capTrades 1000 trades))
  same_iff : after.Perm before ↔ trades.length ≤ 1000
  levels : trades.length ≤ 1000 → ∀ cfg market,
    (levelsOf cfg market after).Perm (levelsOf cfg market before)

/-- A report after a restart. -/
theorem reportKept {key : TradeRecord → String} {row : String → SymStats → ReportRow}
    {trades trades' : List TradeRecord} {back : TradeRecord → TradeRecord}
    (name : ReportRow → String) (hname : ∀ k s, name (row k s) = k)
    (htotal : ∀ k s, (row k s).total = s.total) (hkey : ∀ t, key (back t) = key t)
    (hpnl : ∀ t, (back t).pnl = t.pnl)
    (htrades : trades' = (ShadowTracker.capTrades 1000 trades).map back) :
    ReportKept key row trades (reportOf key row trades) (reportOf key row trades') := by
  have hreport : reportOf key row trades' =
      reportOf key row (ShadowTracker.capTrades 1000 trades) := by
    rw [htrades, reportOf_map hkey hpnl]
  have hiff : (reportOf key row (ShadowTracker.capTrades 1000 trades)).Perm
      (reportOf key row trades) ↔ trades.length ≤ 1000 :=
    reportOf_capTrades_perm_iff name hname htotal 1000
  rw [hreport]
  exact ⟨.refl _, hiff, fun h cfg market => (hiff.2 h).map _⟩

namespace LostLoss

def buy : WebhookSignal where
  symbol := "BTCUSDT"
  timeframe := "15"
  alert := "BUY"
  action := "buy"
  sigType := .entry
  price := 100

/-- A stop-loss at one percent of the entry. -/
def crash : WebhookSignal where
  symbol := "BTCUSDT"
  timeframe := "15"
  alert := "SL"
  signalDirection := "bull"
  sigType := .sl
  price := 1

/-- A take-profit a little above the fees. -/
def scalp : WebhookSignal where
  symbol := "BTCUSDT"
  timeframe := "15"
  alert := "TP1"
  signalDirection := "bull"
  sigType := .tp
  tpLevel := "TP1"
  price := 1002 / 10

theorem round_crash : ShadowTracker.Round buy crash "SL" where
  entry_market := by decide
  entry_type := rfl
  exit_market := by decide
  exit_type := .inr ⟨rfl, rfl⟩
  same := rfl

theorem round_scalp : ShadowTracker.Round buy scalp "TP" where
  entry_market := by decide
  entry_type := rfl
  exit_market := by decide
  exit_type := .inl ⟨rfl, rfl⟩
  same := rfl

def sigs : List (ℕ × WebhookSignal) :=
  ShadowTracker.rounds buy crash 1 ++ ShadowTracker.rounds buy scalp 1000

def loss : TradeRecord := ShadowTracker.roundTrade buy crash "SL"

def win : TradeRecord := ShadowTracker.roundTrade buy scalp "TP"

theorem history_eq : ShadowTracker.history {} sigs {} = loss :: List.replicate 1000 win := by
  obtain ⟨hloss, hnone⟩ := round_crash.all (t := {}) {} 1 rfl
  obtain ⟨hwins, -⟩ := round_scalp.all {} 1000 hnone
  rw [sigs, ShadowTracker.history_append, hloss, hwins]
  rfl

theorem trades_eq : (ShadowTracker.trackAll {} sigs {}).trades =
    loss :: List.replicate 1000 win := by
  rw [ShadowTracker.trades_trackAll_start, history_eq]
  exact capTrades_of_le (by rw [List.length_cons, List.length_replicate]; omega)

theorem last_eq : ShadowTracker.capTrades 1000 (loss :: List.replicate 1000 win) =
    List.replicate 1000 win := by
  rw [ShadowTracker.capTrades, List.length_cons, List.length_replicate]
  exact List.drop_one

/-- Every trade is a bitcoin trade. -/
theorem own_wins : (List.replicate 1000 win).filter (fun t => t.symbol = "BTCUSDT") =
    List.replicate 1000 win := by
  rw [List.filter_replicate, if_pos (by decide)]

theorem own_eq : (loss :: List.replicate 1000 win).filter (fun t => t.symbol = "BTCUSDT") =
    loss :: List.replicate 1000 win := by
  rw [List.filter_cons_of_pos (by decide), own_wins]

theorem stats_wins : SymStats.ofTrades (List.replicate 1000 win) = ⟨1000, 1000, 1000 * win.pnl⟩ :=
  SymStats.ofTrades_replicate (by decide +kernel) 1000

theorem stats_eq : SymStats.ofTrades (loss :: List.replicate 1000 win) =
    ⟨1001, 1000, loss.pnl + 1000 * win.pnl⟩ := by
  rw [SymStats.ofTrades_cons (by decide +kernel), stats_wins]

end LostLoss

end WebhookTrader
