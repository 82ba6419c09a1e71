import WebhookTrader.Backtest.Margin
import WebhookTrader.Backtest.WfOptimizer

/-!
# What leverage does in the backtest

A position's leverage is written and never read, and the margin check is
the one place where the parameter counts. So while no entry is rejected
for its margin, the run under a higher leverage is the same run, with the
other leverage written in its positions, and the search of the grid keeps
the first of the leverages under which nothing is rejected.
-/

namespace WebhookTrader

namespace Backtester

variable {params : BtParams} {b : Backtester} {sig entry : BtSignal} {signals : List BtSignal}
  {sharpe : List ℚ → ℚ} {l : ℤ}

/-- **A state with another leverage** in its positions. -/
def withLeverage (l : ℤ) (b : Backtester) : Backtester :=
  { b with positions := b.positions.mapValues fun _ pos => { pos with leverage := l } }

/-- The parameters with another leverage. -/
abbrev relevered (l : ℤ) (params : BtParams) : BtParams := { params with leverage := l }

theorem lookup_withLeverage (symbol : String) :
    (b.withLeverage l).positions.lookup symbol =
      (b.positions.lookup symbol).map fun pos => { pos with leverage := l } :=
  Table.lookup_mapValues

/-! ## The handlers do not read it -/

theorem closePosition_withLeverage (symbol : String) (price : ℚ) (reason : String) :
    (b.withLeverage l).closePosition (relevered l params) symbol price reason =
      (b.closePosition params symbol price reason).withLeverage l := by
  unfold closePosition
  rw [lookup_withLeverage]
  cases b.positions.lookup symbol with
  | none => rfl
  | some pos =>
      simp only [Option.map_some, updateEquity, recordTrade, withLeverage, Table.mapValues_erase]
      rfl

theorem handleTp_withLeverage :
    (b.withLeverage l).handleTp (relevered l params) sig =
      (b.handleTp params sig).withLeverage l := by
  unfold handleTp
  rw [lookup_withLeverage]
  cases b.positions.lookup sig.symbol with
  | none => rfl
  | some pos =>
      have hqty : closeQty (relevered l params) sig { pos with leverage := l } =
          closeQty params sig pos := rfl
      have hpnl : ∀ qty, netPnl (relevered l params) { pos with leverage := l } sig.price qty =
          netPnl params pos sig.price qty := fun _ => rfl
      have hmodify : ∀ qty, (b.withLeverage l).positions.modify sig.symbol (fun p =>
            { p with quantity := p.quantity - qty }) =
          Table.mapValues (fun _ pos => { pos with leverage := l }) (b.positions.modify sig.symbol
            fun p => { p with quantity := p.quantity - qty }) := fun qty =>
        (Table.mapValues_modify
          (f := fun (_ : String) (pos : BtPosition) => { pos with leverage := l })
          (g := fun p : BtPosition => { p with quantity := p.quantity - qty }) (fun _ => rfl)
          b.positions).symm
      simp only [Option.map_some, hqty, hpnl, hmodify]
      split_ifs
      · rfl
      · simp only [updateEquity, recordTrade, withLeverage, Table.mapValues_erase]
        rfl
      · rfl

theorem cleared_withLeverage :
    (b.withLeverage l).cleared (relevered l params) entry =
      (b.cleared params entry).withLeverage l := closePosition_withLeverage _ _ _

theorem balanceAtCheck_withLeverage :
    (b.withLeverage l).balanceAtCheck (relevered l params) entry =
      b.balanceAtCheck params entry := by
  unfold balanceAtCheck
  rw [lookup_withLeverage]
  cases b.positions.lookup entry.symbol <;> rfl

theorem entrySignal_withLeverage : (b.withLeverage l).entrySignal sig = b.entrySignal sig := by
  unfold entrySignal
  rw [lookup_withLeverage, Option.isNone_map]

/-! ## Where nothing is rejected -/

section Higher

variable (hamount : 0 ≤ params.tradeAmountUsdt) (hpos : 0 < params.leverage)
  (hle : params.leverage ≤ l)
include hamount hpos hle

/-- A higher leverage asks for no more margin. -/
theorem entryMargin_relevered_le : entryMargin (relevered l params) ≤ entryMargin params := by
  have hlow : (0 : ℚ) < params.leverage := by exact_mod_cast hpos
  have hhigh : (params.leverage : ℚ) ≤ l := by exact_mod_cast hle
  exact div_le_div_of_nonneg_left hamount hlow hhigh

theorem enter_withLeverage (hmargin : entryMargin params ≤ b.balance * (95 / 100)) :
    (b.withLeverage l).enter (relevered l params) entry =
      (b.enter params entry).withLeverage l := by
  have hlower : entryMargin (relevered l params) ≤ (b.withLeverage l).balance * (95 / 100) :=
    (entryMargin_relevered_le hamount hpos hle).trans hmargin
  rw [enter_of_le hmargin, enter_of_le hlower]
  simp only [withLeverage, Table.mapValues_insert]
  rfl

/-- **A signal does the same under a higher leverage**, where it brings no
entry to the check that is rejected. -/
theorem processSignal_withLeverage (h : ¬ b.Rejects params sig) :
    (b.withLeverage l).processSignal (relevered l params) sig =
      (b.processSignal params sig).withLeverage l := by
  cases hentry : b.entrySignal sig with
  | some entry =>
      have hentry' : (b.withLeverage l).entrySignal sig = b.entrySignal sig :=
        entrySignal_withLeverage
      rw [(processSignal_of_entry _ hentry).1,
        (processSignal_of_entry _ (hentry'.trans hentry)).1]
      have hcheck' : (b.withLeverage l).balanceAtCheck (relevered l params) entry =
          b.balanceAtCheck params entry := balanceAtCheck_withLeverage
      cases hcheck : b.balanceAtCheck params entry with
      | none => rw [handleEntry_of_none hcheck, handleEntry_of_none (hcheck'.trans hcheck)]
      | some balance =>
          obtain ⟨henter, hbalance⟩ := handleEntry_of_some hcheck
          rw [henter, (handleEntry_of_some (hcheck'.trans hcheck)).1, cleared_withLeverage]
          refine enter_withLeverage hamount hpos hle (not_lt.1 fun hless => h ⟨balance, ?_, ?_⟩)
          · rw [checkedBalance, hentry]
            exact hcheck
          · rwa [hbalance] at hless
  | none =>
      have hentry' : (b.withLeverage l).entrySignal sig = b.entrySignal sig :=
        entrySignal_withLeverage
      rw [processSignal_of_no_entry hentry, processSignal_of_no_entry (hentry'.trans hentry),
        handleTp_withLeverage, handleSl, handleSl, closePosition_withLeverage]
      split_ifs <;> rfl

end Higher

/-! ## A whole run -/

/-- **No entry of a run is rejected for its margin.** -/
def Unrejected (params : BtParams) (signals : List BtSignal) : Prop :=
  Throughout (fun past sig => ¬ (after params past).Rejects params sig) signals

theorem after_relevered (hamount : 0 ≤ params.tradeAmountUsdt) (hpos : 0 < params.leverage)
    (hle : params.leverage ≤ l) (h : Unrejected params signals) :
    after (relevered l params) signals = (after params signals).withLeverage l := by
  induction signals using List.reverseRecOn with
  | nil => rfl
  | append_singleton past sig ih =>
      obtain ⟨hpast, hsig⟩ := throughout_concat.1 h
      rw [after_append, after_append, ih hpast]
      exact processSignal_withLeverage hamount hpos hle hsig

theorem expire_withLeverage (symbol : String) :
    expire (relevered l params) (b.withLeverage l) symbol =
      (expire params b symbol).withLeverage l := by
  unfold expire
  rw [lookup_withLeverage]
  cases b.positions.lookup symbol with
  | none => rfl
  | some pos => exact closePosition_withLeverage _ _ _

theorem closeAllRemaining_withLeverage :
    (b.withLeverage l).closeAllRemaining (relevered l params) =
      (b.closeAllRemaining params).withLeverage l := by
  have hkeys : ∀ (keys : List String) (b : Backtester),
      keys.foldl (expire (relevered l params)) (b.withLeverage l) =
        (keys.foldl (expire params) b).withLeverage l := by
    intro keys
    induction keys with
    | nil => exact fun _ => rfl
    | cons key keys ih =>
        intro b
        rw [List.foldl_cons, List.foldl_cons, expire_withLeverage, ih]
  unfold closeAllRemaining
  rw [withLeverage, Table.keys_mapValues]
  exact hkeys _ b

/-- **A higher leverage changes no figure** where nothing is rejected. -/
theorem run_relevered (params : BtParams) (hamount : 0 ≤ params.tradeAmountUsdt)
    (hpos : 0 < params.leverage) (hle : params.leverage ≤ l) (h : Unrejected params signals) :
    run (relevered l params) sharpe signals = run params sharpe signals := by
  have hreplay : replay (relevered l params) signals = (replay params signals).withLeverage l := by
    show (after (relevered l params) signals).closeAllRemaining (relevered l params) = _
    rw [after_relevered hamount hpos hle h, closeAllRemaining_withLeverage]
    rfl
  unfold run
  rw [hreplay]
  rfl

end Backtester

/-! ## The grid -/

namespace WFConfig

open Backtester (Unrejected relevered run_relevered)

variable {cfg : WFConfig} {sharpe : List ℚ → ℚ} {signals : List BtSignal}

/-- The score of a pair of the grid. -/
def score (cfg : WFConfig) (sharpe : List ℚ → ℚ) (signals : List BtSignal) (pair : ℚ × ℤ) : ℚ :=
  cfg.evaluate (Backtester.run (cfg.makeParams pair.1 pair.2) sharpe signals)

/-- **The search keeps the first of the best**: it has found nothing, or a
pair that scores higher than all before it. -/
theorem foldl_tryPair (pairs : List (ℚ × ℤ)) (best : GridResult) :
    pairs.foldl (cfg.tryPair sharpe signals) best = best ∨
      ∃ pre pair post, pairs = pre ++ pair :: post ∧
        (pairs.foldl (cfg.tryPair sharpe signals) best).pair = pair ∧
        (pairs.foldl (cfg.tryPair sharpe signals) best).score = cfg.score sharpe signals pair ∧
        best.score < cfg.score sharpe signals pair ∧
        ∀ p ∈ pre, cfg.score sharpe signals p < cfg.score sharpe signals pair := by
  induction pairs generalizing best with
  | nil => exact .inl rfl
  | cons first pairs ih =>
      rw [List.foldl_cons]
      by_cases hbetter : best.score < cfg.score sharpe signals first
      · -- what is taken now is found in the end, or beaten by a later pair
        have htaken : cfg.tryPair sharpe signals best first =
            ⟨first.1, first.2, cfg.score sharpe signals first,
              (Backtester.run (cfg.makeParams first.1 first.2) sharpe signals).totalPnl⟩ :=
          if_pos hbetter
        rw [htaken]
        rcases ih ⟨first.1, first.2, cfg.score sharpe signals first,
          (Backtester.run (cfg.makeParams first.1 first.2) sharpe signals).totalPnl⟩ with
          hsame | ⟨pre, pair, post, hsplit, hpair, hscore, hbeats, hpre⟩
        · refine .inr ⟨[], first, pairs, rfl, ?_, ?_, hbetter, nofun⟩
          · rw [hsame]
            rfl
          · rw [hsame]
        · refine .inr ⟨first :: pre, pair, post, by rw [hsplit]; rfl, hpair, hscore,
            hbetter.trans hbeats, fun p hp => ?_⟩
          rcases List.mem_cons.1 hp with rfl | hp
          · exact hbeats
          · exact hpre p hp
      · have hkept : cfg.tryPair sharpe signals best first = best := if_neg hbetter
        rw [hkept]
        rcases ih best with hsame | ⟨pre, pair, post, hsplit, hpair, hscore, hbeats, hpre⟩
        · exact .inl hsame
        · refine .inr ⟨first :: pre, pair, post, by rw [hsplit]; rfl, hpair, hscore, hbeats,
            fun p hp => ?_⟩
          rcases List.mem_cons.1 hp with rfl | hp
          · exact (not_lt.1 hbetter).trans_lt hbeats
          · exact hpre p hp

/-- A leverage that is listed before another is tried before it, with each
amount. -/
theorem mem_before {amounts : List ℚ} {leverages : List ℤ} {amount : ℚ} {l l' : ℤ}
    {pre post : List (ℚ × ℤ)}
    (hsplit : (amounts.flatMap fun a => leverages.map fun l => (a, l)) =
      pre ++ (amount, l) :: post)
    (hbefore : l' ∈ leverages.takeWhile (· ≠ l)) : (amount, l') ∈ pre := by
  induction amounts generalizing pre with
  | nil => exact absurd hsplit.symm (List.append_ne_nil_of_right_ne_nil _ (List.cons_ne_nil _ _))
  | cons a amounts ih =>
      rw [List.flatMap_cons] at hsplit
      rcases List.append_eq_append_iff.1 hsplit with ⟨rest, hpre, hrest⟩ | ⟨rest, hrow, hrest⟩
      · -- the pair is of a later amount
        rw [hpre]
        exact List.mem_append_right _ (ih hrest)
      · cases rest with
        | nil =>
            have hnil : (amount, l') ∈ ([] : List (ℚ × ℤ)) := ih hrest.symm
            exact absurd hnil List.not_mem_nil
        | cons pair rest =>
            obtain ⟨rfl, -⟩ := List.cons.inj hrest
            obtain ⟨before, after, rfl, rfl, hafter⟩ := List.map_eq_append_iff.1 hrow
            obtain ⟨first, after, rfl, hfirst, -⟩ := List.map_eq_cons_iff.1 hafter
            obtain ⟨rfl, rfl⟩ := Prod.mk.inj hfirst
            refine List.mem_map.2 ⟨l', ?_, rfl⟩
            rw [List.takeWhile_append] at hbefore
            split at hbefore
            · rwa [List.takeWhile_cons_of_neg (by simp), List.append_nil] at hbefore
            · exact (List.takeWhile_prefix _).subset hbefore

/-- Leverages under which nothing is rejected score the same. -/
theorem score_eq {amount : ℚ} {l l' : ℤ} (hamount : 0 ≤ amount) (hl : 0 < l) (hl' : 0 < l')
    (h : Unrejected (cfg.makeParams amount l) signals)
    (h' : Unrejected (cfg.makeParams amount l') signals) :
    cfg.score sharpe signals (amount, l) = cfg.score sharpe signals (amount, l') := by
  unfold score
  rcases le_total l l' with hle | hle
  · exact congrArg cfg.evaluate
      (run_relevered (cfg.makeParams amount l) (l := l') hamount hl hle h).symm
  · exact congrArg cfg.evaluate
      (run_relevered (cfg.makeParams amount l') (l := l) hamount hl' hle h')

/-- **The first listed leverage is kept** of those under which nothing is
rejected. -/
theorem gridSearch_first (hamount : 0 ≤ (cfg.gridSearch sharpe signals).amount)
    (hpos : 0 < (cfg.gridSearch sharpe signals).leverage)
    (h : Unrejected (cfg.makeParams (cfg.gridSearch sharpe signals).amount
      (cfg.gridSearch sharpe signals).leverage) signals) {l : ℤ}
    (hbefore : l ∈ cfg.leverageGrid.takeWhile (· ≠ (cfg.gridSearch sharpe signals).leverage))
    (hl : 0 < l) :
    ¬ Unrejected (cfg.makeParams (cfg.gridSearch sharpe signals).amount l) signals := by
  intro h'
  rcases foldl_tryPair cfg.grid ⟨cfg.amountGrid.headD 0, cfg.leverageGrid.headD 0, -(10 ^ 9), 0⟩
    with hfirst | ⟨pre, pair, post, hsplit, hpair, -, -, hpre⟩
  · -- nothing was found, and the first leverage stands
    have hhead : (cfg.gridSearch sharpe signals).leverage = cfg.leverageGrid.headD 0 :=
      congrArg GridResult.leverage hfirst
    rw [hhead] at hbefore
    cases hgrid : cfg.leverageGrid with
    | nil => simp [hgrid] at hbefore
    | cons first rest => simp [hgrid] at hbefore
  · change (cfg.gridSearch sharpe signals).pair = pair at hpair
    rw [← hpair] at hsplit hpre
    have hlower := hpre _ (mem_before hsplit hbefore)
    exact hlower.ne (score_eq hamount hl hpos h' h)

end WFConfig

namespace Backtester

/-- **Leverage matters only through margin**: for a trade amount that is not
negative and two leverages, the lower one positive, if no entry is rejected
under the lower one the run has the same figures under the higher one; and
of the leverages under which nothing is rejected the search of the grid
recommends the first that is listed. -/
theorem leverage_only_through_margin (params : BtParams) (sharpe : List ℚ → ℚ)
    (signals : List BtSignal) (l : ℤ) (hamount : 0 ≤ params.tradeAmountUsdt)
    (hpos : 0 < params.leverage) (hle : params.leverage ≤ l)
    (h : Unrejected params signals) :
    run { params with leverage := l } sharpe signals = run params sharpe signals ∧
      ∀ cfg : WFConfig, 0 ≤ (cfg.gridSearch sharpe signals).amount →
        0 < (cfg.gridSearch sharpe signals).leverage →
        Unrejected (cfg.makeParams (cfg.gridSearch sharpe signals).amount
          (cfg.gridSearch sharpe signals).leverage) signals →
        ∀ l' ∈ cfg.leverageGrid.takeWhile (· ≠ (cfg.gridSearch sharpe signals).leverage), 0 < l' →
          ¬ Unrejected (cfg.makeParams (cfg.gridSearch sharpe signals).amount l') signals :=
  ⟨run_relevered _ hamount hpos hle h,
    fun _ ha hl hbest _ hbefore hl' => WFConfig.gridSearch_first ha hl hbest hbefore hl'⟩

/-- A run of one signal. -/
theorem unrejected_singleton (h : ¬ (reset params).Rejects params sig) :
    Unrejected params [sig] := by
  rw [← List.nil_append [sig], Unrejected, throughout_concat]
  exact ⟨throughout_nil, h⟩

/-- Ten dollars of margin are enough for an entry, at a leverage of one. -/
theorem unrejected_entry :
    Unrejected { leverage := 1 } [{ alert := "buy", symbol := "BTCUSDT", price := 100 }] := by
  refine unrejected_singleton ?_
  rintro ⟨balance, hcheck, hless⟩
  obtain rfl : 1000 = balance := Option.some.inj hcheck
  exact absurd hless (by decide +kernel)

theorem leverage_only_through_margin_entry :
    let signals : List BtSignal := [{ alert := "buy", symbol := "BTCUSDT", price := 100 }]
    run { leverage := 20 } (fun _ => 0) signals = run { leverage := 1 } (fun _ => 0) signals ∧
      ∀ cfg : WFConfig, 0 ≤ (cfg.gridSearch (fun _ => 0) signals).amount →
        0 < (cfg.gridSearch (fun _ => 0) signals).leverage →
        Unrejected (cfg.makeParams (cfg.gridSearch (fun _ => 0) signals).amount
          (cfg.gridSearch (fun _ => 0) signals).leverage) signals →
        ∀ l' ∈ cfg.leverageGrid.takeWhile (· ≠ (cfg.gridSearch (fun _ => 0) signals).leverage),
          0 < l' →
          ¬ Unrejected (cfg.makeParams (cfg.gridSearch (fun _ => 0) signals).amount l') signals :=
  leverage_only_through_margin { leverage := 1 } (fun _ => 0) _ 20 (by decide +kernel) (by decide)
    (by decide) unrejected_entry

/-- With a negative amount the margin rises with the leverage: a balance and
an amount of minus ten pass the check at a leverage of one, and not at ten. -/
theorem negative_amount_rejected :
    let params : BtParams := { tradeAmountUsdt := -10, leverage := 1, initialBalance := -10 }
    let signals : List BtSignal := [{ alert := "buy", symbol := "BTCUSDT", price := 1 }]
    Unrejected params signals ∧
      run { params with leverage := 10 } (fun _ => 0) signals ≠ run params (fun _ => 0) signals := by
  refine ⟨unrejected_singleton ?_, ?_⟩
  · rintro ⟨balance, hcheck, hless⟩
    obtain rfl : -10 = balance := Option.some.inj hcheck
    exact absurd hless (by decide +kernel)
  · intro hsame
    have htrades := congrArg BtMetrics.totalTrades hsame
    exact absurd htrades (by decide +kernel)

end Backtester

end WebhookTrader
