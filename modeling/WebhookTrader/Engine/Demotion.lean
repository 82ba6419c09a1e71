import WebhookTrader.Shadow.History
import WebhookTrader.Shadow.Report

/-!
# Walk-forward demotion

The demotion looks for the figures of the last twenty trades, and where a
report does not have them it takes the lifetime figures. No report has
them. A row that qualifies by its lifetime figures is never demoted by
the same figures, so a bad stretch keeps a symbol out only through those
figures, or through an entry of the spot report that has its name.
-/

namespace WebhookTrader

namespace Readiness

variable {cfg : ReadinessConfig} {futures spot : List ReportEntry} {symbol : String}

theorem mem_evaluateAll {r : SymbolReadiness} : r ∈ evaluateAll cfg futures spot ↔
    (∃ e ∈ futures, evaluateSymbol cfg "futures" e = r) ∨
      ∃ e ∈ spot, evaluateSymbol cfg "spot" e = r := by
  rw [evaluateAll, List.mem_mergeSort, List.mem_append, List.mem_map, List.mem_map]

/-- **What is eligible**: what has a ready or proven entry, unless the last
entry of its name is demoted. -/
theorem mem_eligible_iff : symbol ∈ (refreshEligible cfg futures spot).2 ↔
    (∃ e ∈ futures ++ spot, e.symbol = symbol ∧ (level cfg e).1.isLive = true) ∧
      (rollingEntry futures spot symbol).any shouldDemote = false := by
  unfold refreshEligible
  simp only [List.mem_map, List.mem_filter, Bool.and_eq_true, Bool.not_eq_true']
  constructor
  · rintro ⟨r, ⟨hr, hlive, hkept⟩, rfl⟩
    refine ⟨?_, hkept⟩
    rcases mem_evaluateAll.1 hr with ⟨e, he, rfl⟩ | ⟨e, he, rfl⟩
    · exact ⟨e, List.mem_append_left _ he, rfl, hlive⟩
    · exact ⟨e, List.mem_append_right _ he, rfl, hlive⟩
  · rintro ⟨⟨e, he, rfl, hlive⟩, hkept⟩
    rcases List.mem_append.1 he with hfutures | hspot
    · exact ⟨_, ⟨mem_evaluateAll.2 (.inl ⟨e, hfutures, rfl⟩), hlive, hkept⟩, rfl⟩
    · exact ⟨_, ⟨mem_evaluateAll.2 (.inr ⟨e, hspot, rfl⟩), hlive, hkept⟩, rfl⟩

/-- **The rolling entry**: the last one in the spot report, or else the last
one in the futures report. -/
theorem rollingEntry_eq (hsymbol : symbol ≠ "") : rollingEntry futures spot symbol =
    (spot.reverse.find? fun e => e.symbol = symbol).or
      (futures.reverse.find? fun e => e.symbol = symbol) := by
  have hnamed : (fun e : ReportEntry => decide (e.symbol = symbol) && decide (e.symbol ≠ "")) =
      fun e : ReportEntry => decide (e.symbol = symbol) := by
    funext e
    by_cases he : e.symbol = symbol
    · simp [he, hsymbol]
    · simp [he]
  rw [rollingEntry, hnamed, List.reverse_append, List.find?_append]

end Readiness

/-! ## A bad stretch -/

/-- The last twenty of some trades. -/
def lastTwenty (own : List TradeRecord) : List TradeRecord := own.drop (own.length - 20)

/-- **A bad stretch**: twenty trades or more, and the last twenty with a loss
or with fewer than eight wins. -/
structure BadStretch (own : List TradeRecord) : Prop where
  full : 20 ≤ own.length
  bad : ((lastTwenty own).map (·.pnl)).sum < 0 ∨
    ((lastTwenty own).countP fun t => 0 < t.pnl) < 8

/-- **What keeps a symbol out** of the eligible keys. Its trades do not
qualify as a whole and no spot entry of its name is ready or proven, or
the last spot entry of its name has bad figures. -/
def StaysOut (cfg : ReadinessConfig) (own : List TradeRecord) (spot : List ReportEntry)
    (symbol : String) : Prop :=
  (¬ (SymStats.ofTrades own).Qualifies cfg ∧
      ∀ e ∈ spot, e.symbol = symbol → (Readiness.level cfg e).1.isLive = false) ∨
    symbol ≠ "" ∧ ∃ e, spot.reverse.find? (fun e => e.symbol = symbol) = some e ∧
      Readiness.shouldDemote e = true

section Eligible

variable {cfg : ReadinessConfig} {trades : List TradeRecord} {spot : List ReportEntry}
  {symbol : String} {e : ReportEntry}

/-- The futures report as the readiness engine reads it. -/
def readReport (trades : List TradeRecord) : List ReportEntry :=
  (reportOf (·.symbol) symbolRow trades).map ReportRow.read

/-- A name has one entry in the futures report. -/
theorem mem_readReport (he : e ∈ readReport trades) (hsymbol : e.symbol = symbol) :
    e = (symbolRow symbol (.ofTrades (trades.filter fun t => t.symbol = symbol))).read := by
  obtain ⟨r, hr, rfl⟩ := List.mem_map.1 he
  have hrow := mem_symbolReport_iff.1 ⟨hr, hsymbol⟩
  rw [hrow.2]

/-- A name whose trades qualify has an entry there. -/
theorem mem_readReport_of_qualifies
    (h : (SymStats.ofTrades (trades.filter fun t => t.symbol = symbol)).Qualifies cfg) :
    (symbolRow symbol (.ofTrades (trades.filter fun t => t.symbol = symbol))).read ∈
      readReport trades := by
  have hsample : 15 ≤ (trades.filter fun t => t.symbol = symbol).length := h.sample
  obtain ⟨t, ht⟩ := List.exists_mem_of_length_pos (by omega :
    0 < (trades.filter fun t => t.symbol = symbol).length)
  rw [List.mem_filter, decide_eq_true_eq] at ht
  exact List.mem_map_of_mem (mem_symbolReport_iff.2 ⟨⟨t, ht.1, ht.2⟩, rfl⟩).1

/-- **When a symbol is not eligible.** -/
theorem notMem_eligible_iff :
    symbol ∉ (Readiness.refreshEligible cfg (readReport trades) spot).2 ↔
      StaysOut cfg (trades.filter fun t => t.symbol = symbol) spot symbol := by
  rw [Readiness.mem_eligible_iff]
  constructor
  · intro hout
    by_cases hlive : ∃ e ∈ readReport trades ++ spot,
        e.symbol = symbol ∧ (Readiness.level cfg e).1.isLive = true
    · -- it is demoted: by the last spot entry, or by figures that do not qualify
      have hdemoted : (Readiness.rollingEntry (readReport trades) spot symbol).any
          Readiness.shouldDemote = true := by
        by_contra hkept
        exact hout ⟨hlive, by simpa using hkept⟩
      obtain ⟨e, hrolling, hdemote⟩ := (Option.any_eq_true _ _).1 hdemoted
      have hsymbol : symbol ≠ "" := by
        rintro rfl
        have := List.find?_some hrolling
        grind
      rw [Readiness.rollingEntry_eq hsymbol] at hrolling
      rcases Option.or_eq_some_iff.1 hrolling with hspot | ⟨hspot, hfutures⟩
      · exact .inr ⟨hsymbol, e, hspot, hdemote⟩
      · have hmem : e ∈ readReport trades := List.mem_reverse.1 (List.mem_of_find?_eq_some hfutures)
        have hname : e.symbol = symbol := by simpa using List.find?_some hfutures
        refine .inl ⟨fun hq => ?_, fun e' he' hname' => ?_⟩
        · rw [mem_readReport hmem hname] at hdemote
          exact Bool.false_ne_true ((ReportRow.shouldDemote_of_qualifies hq).symm.trans hdemote)
        · have hnone := List.find?_eq_none.1 hspot e' (List.mem_reverse.2 he')
          simp [hname'] at hnone
    · refine .inl ⟨fun hq => hlive ?_, fun e he hname => ?_⟩
      · exact ⟨_, List.mem_append_left _ (mem_readReport_of_qualifies hq), rfl,
          ReportRow.isLive_iff.2 hq⟩
      · by_contra hready
        exact hlive ⟨e, List.mem_append_right _ he, hname, by simpa using hready⟩
  · rintro (⟨hfigures, hspot⟩ | ⟨hsymbol, e, hlast, hdemote⟩) ⟨⟨e', he', hname, hlive⟩, hkept⟩
    · rcases List.mem_append.1 he' with hfutures | he''
      · rw [mem_readReport hfutures hname] at hlive
        exact hfigures (ReportRow.isLive_iff.1 hlive)
      · exact Bool.false_ne_true ((hspot e' he'' hname).symm.trans hlive)
    · rw [Readiness.rollingEntry_eq hsymbol, hlast, Option.some_or] at hkept
      exact Bool.false_ne_true (hkept.symm.trans hdemote)

end Eligible

/-! ## A good history with a bad last stretch

A symbol wins twenty times and then loses twenty times. -/

namespace LateLosses

def buy : WebhookSignal where
  symbol := "BTCUSDT"
  timeframe := "15"
  alert := "BUY"
  action := "buy"
  sigType := .entry
  price := 100

/-- A take-profit at twice the entry. -/
def win : WebhookSignal where
  symbol := "BTCUSDT"
  timeframe := "15"
  alert := "TP3"
  signalDirection := "bull"
  sigType := .tp
  tpLevel := "TP3"
  price := 200

/-- A stop-loss one percent below the entry. -/
def loss : WebhookSignal where
  symbol := "BTCUSDT"
  timeframe := "15"
  alert := "SL"
  signalDirection := "bull"
  sigType := .sl
  price := 99

theorem round_win : ShadowTracker.Round buy win "TP" where
  entry_market := by decide
  entry_type := rfl
  exit_market := by decide
  exit_type := .inl ⟨rfl, rfl⟩
  same := rfl

theorem round_loss : ShadowTracker.Round buy loss "SL" where
  entry_market := by decide
  entry_type := rfl
  exit_market := by decide
  exit_type := .inr ⟨rfl, rfl⟩
  same := rfl

def sigs : List (ℕ × WebhookSignal) :=
  ShadowTracker.rounds buy win 20 ++ ShadowTracker.rounds buy loss 20

/-- Its forty trades. -/
def trades : List TradeRecord :=
  List.replicate 20 (ShadowTracker.roundTrade buy win "TP") ++
    List.replicate 20 (ShadowTracker.roundTrade buy loss "SL")

theorem history_eq (cfg : LearnerConfig) : ShadowTracker.history cfg sigs {} = trades := by
  obtain ⟨hwins, hnone⟩ := round_win.all (t := {}) cfg 20 rfl
  obtain ⟨hlosses, -⟩ := round_loss.all cfg 20 hnone
  rw [sigs, ShadowTracker.history_append, hwins, hlosses, trades]

theorem own_eq : (trades.filter fun t => t.symbol = "BTCUSDT") = trades := by decide +kernel

theorem badStretch : BadStretch trades := ⟨by decide +kernel, .inl (by decide +kernel)⟩

theorem qualifies : (SymStats.ofTrades trades).Qualifies {} where
  sample := by decide +kernel
  profit := by decide +kernel
  positive := .inl (by decide +kernel)
  rate := .inl (by decide +kernel)

end LateLosses

open LateLosses in
theorem lateLosses_stay_eligible :
    ¬ ∀ (cfg : ReadinessConfig) (lcfg : LearnerConfig) (t : ShadowTracker)
        (before : List TradeRecord) (sigs : List (ℕ × WebhookSignal)) (spot : List ReportEntry)
        (symbol : String),
      t.trades = ShadowTracker.capTrades 5000 before →
      BadStretch ((before ++ t.history lcfg sigs).filter fun t => t.symbol = symbol) →
      symbol ∉ (Readiness.refreshEligible cfg
        ((t.trackAll lcfg sigs).getSymbolReport.map ReportRow.read) spot).2 := by
  intro h
  have hout := h {} {} {} [] sigs [] "BTCUSDT" rfl
    (by rw [List.nil_append, history_eq, own_eq]; exact badStretch)
  have hin : "BTCUSDT" ∉ (Readiness.refreshEligible {} (readReport trades) []).2 := by
    have htrades : (ShadowTracker.trackAll {} sigs {}).trades = trades := by
      rw [ShadowTracker.trades_trackAll_start, history_eq]
      rfl
    rw [← htrades]
    exact hout
  rcases notMem_eligible_iff.1 hin with ⟨hfigures, -⟩ | ⟨-, e, he, -⟩
  · rw [own_eq] at hfigures
    exact hfigures qualifies
  · cases he

/-- **Walk-forward demotion.** A bad stretch takes a symbol out of the
eligible keys exactly where its figures as a whole, or a spot entry of its
name, keep it out. -/
theorem demoted_iff_staysOut {cfg : ReadinessConfig} {lcfg : LearnerConfig} {t : ShadowTracker}
    {before : List TradeRecord} {sigs : List (ℕ × WebhookSignal)} {spot : List ReportEntry}
    {symbol : String} (ht : t.trades = ShadowTracker.capTrades 5000 before) :
    (BadStretch ((before ++ t.history lcfg sigs).filter fun t => t.symbol = symbol) →
        symbol ∉ (Readiness.refreshEligible cfg
          ((t.trackAll lcfg sigs).getSymbolReport.map ReportRow.read) spot).2) ↔
      (BadStretch ((before ++ t.history lcfg sigs).filter fun t => t.symbol = symbol) →
        StaysOut cfg ((ShadowTracker.capTrades 5000 (before ++ t.history lcfg sigs)).filter
          fun t => t.symbol = symbol) spot symbol) := by
  rw [← ShadowTracker.trades_trackAll ht]
  exact imp_congr_right fun _ => notMem_eligible_iff

open LateLosses in
theorem demoted_iff_staysOut_lateLosses :
    (BadStretch (([] ++ ShadowTracker.history {} sigs {}).filter fun t => t.symbol = "BTCUSDT") →
        "BTCUSDT" ∉ (Readiness.refreshEligible {}
          ((ShadowTracker.trackAll {} sigs {}).getSymbolReport.map ReportRow.read) []).2) ↔
      (BadStretch (([] ++ ShadowTracker.history {} sigs {}).filter
          fun t => t.symbol = "BTCUSDT") →
        StaysOut {} ((ShadowTracker.capTrades 5000 ([] ++ ShadowTracker.history {} sigs {})).filter
          fun t => t.symbol = "BTCUSDT") [] "BTCUSDT") :=
  demoted_iff_staysOut rfl

end WebhookTrader
