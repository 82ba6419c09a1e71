import WebhookTrader.Engine.Model.Scoring
import WebhookTrader.Engine.Ownership
import WebhookTrader.Risk.Scorer

/-!
# The counts of a context

Only the WebSocket's callback makes a context's entry and counts in it.
The handlers add to the sums of the context, and these are written into
the entry where there is one. So the entry counts all closes of its
context just where all of them came through the WebSocket.
-/

namespace WebhookTrader

namespace Scorer

variable {cfg : ScorerConfig} {s : Scorer} {symbol timeframe direction key now : String}
  {pnl grossPnl feeCost realizedRr : ℚ} {isWin : Bool} {closes counted : ℕ}

/-! ## The counts -/

/-- **What a context has** after so many closes, so many of them counted in
its entry. -/
structure Counts (s : Scorer) (key : String) (closes counted : ℕ) : Prop where
  sums : s.sumsCount key = closes
  blank : counted = 0 → s.contextScores.lookup key = none
  entry : counted ≠ 0 → ∃ score, s.contextScores.lookup key = some score ∧
    score.totalTrades = counted ∧ score.realizedTradeCount = closes

theorem counts_empty : Counts {} key 0 0 := ⟨rfl, fun _ => rfl, fun h => absurd rfl h⟩

/-- The entry's own count, and zero where there is none. -/
theorem Counts.totalTrades (h : s.Counts key closes counted) :
    (s.context key).totalTrades = counted := by
  unfold context
  by_cases hzero : counted = 0
  · rw [h.blank hzero, hzero]
    rfl
  · obtain ⟨score, hscore, htotal, -⟩ := h.entry hzero
    rw [hscore, Option.getD_some, htotal]

/-- The count of the sums, once the entry is there. -/
theorem Counts.realizedTradeCount (h : s.Counts key closes counted) :
    (s.context key).realizedTradeCount = if counted = 0 then 0 else closes := by
  unfold context
  split_ifs with hzero
  · rw [h.blank hzero]
    rfl
  · obtain ⟨score, hscore, -, hrealized⟩ := h.entry hzero
    rw [hscore, Option.getD_some, hrealized]

/-- **A handler's close** of the context. -/
theorem Counts.handler (h : s.Counts key closes counted)
    (hkey : computeContextKey symbol timeframe direction = key) :
    (s.recordRealizedTrade symbol timeframe direction grossPnl feeCost realizedRr).Counts key
      (closes + 1) counted := by
  refine ⟨?_, fun hzero => ?_, fun hpos => ?_⟩
  · rw [sumsCount_recordRealizedTrade hkey, h.sums]
    rfl
  · rw [lookup_recordRealizedTrade hkey, h.blank hzero, Option.map_none]
  · obtain ⟨score, hscore, htotal, -⟩ := h.entry hpos
    rw [lookup_recordRealizedTrade hkey, hscore]
    refine ⟨_, rfl, htotal, ?_⟩
    rw [realizedTradeCount_withRealized, h.sums]
    rfl

/-- **The WebSocket's close** of the context: the entry is there when the
sums are written into it. -/
theorem Counts.webSocket (h : s.Counts key closes counted)
    (hkey : computeContextKey symbol timeframe direction = key) :
    ((s.recordContextTrade cfg symbol timeframe direction pnl isWin now).recordRealizedTrade
      symbol timeframe direction grossPnl feeCost realizedRr).Counts key (closes + 1)
      (counted + 1) := by
  have hsums : (s.recordContextTrade cfg symbol timeframe direction pnl isWin now).sumsCount key =
      closes := h.sums
  refine ⟨?_, fun hzero => absurd hzero (Nat.succ_ne_zero _), fun _ => ?_⟩
  · rw [sumsCount_recordRealizedTrade hkey, hsums]
    rfl
  · rw [lookup_recordRealizedTrade hkey, lookup_recordContextTrade hkey]
    refine ⟨_, rfl, ?_, ?_⟩
    · show (s.context key).totalTrades + 1 = _
      rw [h.totalTrades]
      rfl
    · rw [realizedTradeCount_withRealized, hsums]
      rfl

/-- The closes of other contexts. -/
theorem Counts.handler_ne (h : s.Counts key closes counted)
    (hkey : computeContextKey symbol timeframe direction ≠ key) :
    (s.recordRealizedTrade symbol timeframe direction grossPnl feeCost realizedRr).Counts key
      closes counted := by
  refine ⟨?_, fun hzero => ?_, fun hpos => ?_⟩
  · rw [sumsCount_recordRealizedTrade_ne hkey, h.sums]
  · rw [lookup_recordRealizedTrade_ne hkey, h.blank hzero]
  · rw [lookup_recordRealizedTrade_ne hkey]
    exact h.entry hpos

theorem Counts.context_ne (h : s.Counts key closes counted)
    (hkey : computeContextKey symbol timeframe direction ≠ key) :
    (s.recordContextTrade cfg symbol timeframe direction pnl isWin now).Counts key closes
      counted := by
  refine ⟨h.sums, fun hzero => ?_, fun hpos => ?_⟩
  · rw [lookup_recordContextTrade_ne hkey, h.blank hzero]
  · rw [lookup_recordContextTrade_ne hkey]
    exact h.entry hpos

end Scorer

namespace ScoredClose

open Scorer (Counts)

variable {cfg : EngineConfig} {scorer : ScorerConfig} {s : Scorer} {key : String}
  {closes counted : ℕ} {c : ScoredClose}

/-- A close of another context. -/
theorem counts_feed_ne (h : s.Counts key closes counted) (hkey : c.key ≠ key) :
    (c.feed cfg scorer s).Counts key closes counted := by
  unfold feed
  cases c.path with
  | tp j => exact h.handler_ne hkey
  | sl j => exact h.handler_ne hkey
  | ws upd => exact (h.context_ne hkey).handler_ne hkey

/-- **A close of the context** is added to the sums, and counted in the
entry where it comes through the WebSocket. -/
theorem counts_feed (h : s.Counts key closes counted) (hkey : c.key = key) :
    (c.feed cfg scorer s).Counts key (closes + 1)
      (if c.viaWebSocket then counted + 1 else counted) := by
  unfold feed viaWebSocket
  cases c.path with
  | tp j => exact h.handler hkey
  | sl j => exact h.handler hkey
  | ws upd => exact h.webSocket hkey

/-- The closes of a context. -/
def under (key : String) (cs : List ScoredClose) : List ScoredClose :=
  cs.filter fun c => c.key = key

/-- **A context's counts after some closes.** -/
theorem counts_foldl (cs : List ScoredClose) (h : s.Counts key closes counted) :
    (cs.foldl (fun s c => c.feed cfg scorer s) s).Counts key (closes + (under key cs).length)
      (counted + (under key cs).countP viaWebSocket) := by
  induction cs generalizing s closes counted with
  | nil => exact h
  | cons c cs ih =>
      rw [List.foldl_cons]
      by_cases hkey : c.key = key
      · have hunder : under key (c :: cs) = c :: under key cs :=
          List.filter_cons_of_pos (by simpa using hkey)
        have hcount := ih (counts_feed h hkey : (c.feed cfg scorer s).Counts key _ _)
        have hlength : closes + (under key (c :: cs)).length =
            closes + 1 + (under key cs).length := by
          rw [hunder, List.length_cons]
          omega
        have hsockets : counted + (under key (c :: cs)).countP viaWebSocket =
            (if c.viaWebSocket then counted + 1 else counted) +
              (under key cs).countP viaWebSocket := by
          rw [hunder, List.countP_cons]
          split_ifs <;> omega
        rw [hlength, hsockets]
        exact ih (counts_feed h hkey)
      · have hunder : under key (c :: cs) = under key cs :=
          List.filter_cons_of_neg (by simpa using hkey)
        rw [hunder]
        exact ih (counts_feed_ne h hkey)

theorem counts_feedAll (cs : List ScoredClose) : (feedAll cfg scorer cs).Counts key
    (under key cs).length ((under key cs).countP viaWebSocket) := by
  have h : (feedAll cfg scorer cs).Counts key (0 + (under key cs).length)
      (0 + (under key cs).countP viaWebSocket) := counts_foldl cs Scorer.counts_empty
  rwa [Nat.zero_add, Nat.zero_add] at h

/-- **The entry counts all closes of its context** just where all of them
have come through the WebSocket. -/
theorem context_counts_iff (cfg : EngineConfig) (scorer : ScorerConfig) (cs : List ScoredClose)
    (key : String) :
    ((feedAll cfg scorer cs).context key).totalTrades = (under key cs).length ∧
        ((feedAll cfg scorer cs).context key).realizedTradeCount = (under key cs).length ↔
      ∀ c ∈ cs, c.key = key → c.viaWebSocket = true := by
  have hcounts : (feedAll cfg scorer cs).Counts key (under key cs).length
      ((under key cs).countP viaWebSocket) := counts_feedAll cs
  have hall : (under key cs).countP viaWebSocket = (under key cs).length ↔
      ∀ c ∈ cs, c.key = key → c.viaWebSocket = true := by
    rw [List.countP_eq_length]
    simp only [under, List.mem_filter, decide_eq_true_eq, and_imp]
  rw [← hall]
  generalize (under key cs).countP viaWebSocket = counted at hcounts ⊢
  generalize (under key cs).length = closes at hcounts ⊢
  have htotal : ((feedAll cfg scorer cs).context key).totalTrades = counted := hcounts.totalTrades
  rw [htotal]
  constructor
  · rintro ⟨h, -⟩
    omega
  · intro h
    refine ⟨by omega, ?_⟩
    rw [hcounts.realizedTradeCount]
    split_ifs <;> omega

end ScoredClose

/-! ## Runs of the engine -/

namespace Engine

variable {cfg : EngineConfig} {isoTime : ℕ → String} {s s' : Engine} {l : EngineLabel}
  {c : ScoredClose}

/-- **What the scorer is told of is what is recorded**: the step that tells
it of a close records the close's trade. -/
theorem trades_of_scoredClose (hnext : (engineSystem cfg).next s l = some s')
    (hclose : s.scoredClose isoTime l = some c) :
    s'.shared.trades = Shared.capTrades (s.shared.trades ++ [c.trade cfg]) := by
  have hsettle : ∀ {closing : Closing} {j j' : CloseJob} {shared' : Shared} {pos : ManagedPosition},
      j.pc = .settle → j.step cfg closing s.shared = some (j', shared') →
      s.shared.positions.lookup j.key = some pos →
      shared'.trades = Shared.capTrades (s.shared.trades ++ [closing.trade j pos]) := by
    intro closing j j' shared' pos hpc hstep hpos
    simp only [CloseJob.step, hpc, Option.some.injEq, Prod.mk.injEq] at hstep
    obtain ⟨-, rfl⟩ := hstep
    simp only [CloseJob.settle, hpos, Shared.recordTrade]
  cases Threads.move_of_next hnext with
  | start => cases hclose
  | event e happly =>
      cases e with
      | wsPosition upd =>
          obtain rfl := Option.some.inj happly
          simp only [scoredClose, Option.ite_none_left_eq_some] at hclose
          obtain ⟨hsize, hfound⟩ := hclose
          obtain ⟨⟨key, pos⟩, hfind, rfl⟩ := Option.map_eq_some_iff.1 hfound
          simp only [Shared.onWsPosition, if_neg hsize, hfind, Shared.recordTrade]
          rfl
      | _ => cases hclose
  | @work i job job' shared' hjob hwork =>
      simp only [scoredClose, hjob] at hclose
      cases job with
      | tp j =>
          obtain ⟨hpc, hfound⟩ := Option.ite_none_right_eq_some.1 hclose
          obtain ⟨pos, hpos, rfl⟩ := Option.map_eq_some_iff.1 hfound
          obtain ⟨r, hstep, heq⟩ := Option.map_eq_some_iff.1 hwork
          cases heq
          exact hsettle hpc hstep hpos
      | sl j =>
          obtain ⟨hpc, hfound⟩ := Option.ite_none_right_eq_some.1 hclose
          obtain ⟨pos, hpos, rfl⟩ := Option.map_eq_some_iff.1 hfound
          obtain ⟨r, hstep, heq⟩ := Option.map_eq_some_iff.1 hwork
          cases heq
          exact hsettle hpc hstep hpos
      | _ => cases hclose

end Engine

/-! ## A stop-loss on the exchange -/

namespace ScoredRun

open LiveRun

/-- A position is opened with an order, and its stop-loss is handled. -/
def labels : List EngineLabel :=
  .start (buy "BTCUSDT") :: works 0 21 ++
    .start (.sl { sig := closeSignal "BTCUSDT" "", rd := {} }) :: works 1 5

end ScoredRun

open ScoredRun LiveRun in
/-- **A close that no entry counts.** The context of the stop-loss has one
close, and no trades. -/
theorem stop_loss_not_counted :
    ∃ s log, (engineSystem {}).init start ∧
      (scoredEngine {} fun _ => "").Run System.anyStep (start, []) (s, log) ∧
      (ScoredClose.under "BTCUSDT:15:long" log.reverse).length = 1 ∧
      ((ScoredClose.feedAll {} {} log.reverse).context "BTCUSDT:15:long").totalTrades = 0 ∧
      ((ScoredClose.feedAll {} {} log.reverse).context "BTCUSDT:15:long").realizedTradeCount =
        0 := by
  obtain ⟨⟨s, log⟩, hrun, hend⟩ := System.exists_run_of_play
    (M := scoredEngine {} fun _ => "") (G := System.anyStep) (s := (start, [])) labels
    (P := fun t => (ScoredClose.under "BTCUSDT:15:long" t.2.reverse).length = 1 ∧
      ((ScoredClose.feedAll {} {} t.2.reverse).context "BTCUSDT:15:long").totalTrades = 0 ∧
      ((ScoredClose.feedAll {} {} t.2.reverse).context "BTCUSDT:15:long").realizedTradeCount = 0)
    (by decide +kernel)
  exact ⟨s, log, start_init rfl, hrun, hend⟩

end WebhookTrader
