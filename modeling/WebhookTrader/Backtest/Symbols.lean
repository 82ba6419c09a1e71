import WebhookTrader.Backtest.Leverage
import WebhookTrader.Backtest.Model.LogParser
import WebhookTrader.Common.ByKey

/-!
# A backtest symbol by symbol

The symbols of a backtest share nothing but its balance, and a signal looks
at the balance in its margin check alone. So where no entry is rejected for
its margin, a signal does under its symbol what it does in a run of that
symbol's signals alone, whatever the others have done to the balance. That
run is what the command line filters a file for.
-/

namespace WebhookTrader

namespace Backtester

variable {params : BtParams} {b b' b'' c c' c'' : Backtester} {sig entry : BtSignal}
  {symbol s : String} {signals : List BtSignal}

/-! ## The same step from two states -/

/-- **Two steps that do the same under a symbol**: they leave the same
position, gain the same and append the same results. -/
structure Parallel (symbol : String) (b b' c c' : Backtester) : Prop where
  held : b'.positions.lookup symbol = c'.positions.lookup symbol
  gain : b'.balance - b.balance = c'.balance - c.balance
  booked : ∃ new, b'.results = b.results ++ new ∧ c'.results = c.results ++ new

theorem Parallel.refl (h : b.positions.lookup symbol = c.positions.lookup symbol) :
    Parallel symbol b b c c where
  held := h
  gain := by rw [sub_self, sub_self]
  booked := ⟨[], (List.append_nil _).symm, (List.append_nil _).symm⟩

theorem Parallel.trans (h : Parallel symbol b b' c c') (h' : Parallel symbol b' b'' c' c'') :
    Parallel symbol b b'' c c'' where
  held := h'.held
  gain := by rw [← sub_add_sub_cancel _ b'.balance, h'.gain, h.gain, sub_add_sub_cancel]
  booked := by
    obtain ⟨new, hb, hc⟩ := h.booked
    obtain ⟨new', hb', hc'⟩ := h'.booked
    exact ⟨new ++ new', by rw [hb', hb, List.append_assoc], by rw [hc', hc, List.append_assoc]⟩

theorem parallel_closePosition (params : BtParams) (price : ℚ) (reason : String)
    (h : b.positions.lookup symbol = c.positions.lookup symbol) :
    Parallel symbol b (b.closePosition params symbol price reason)
      c (c.closePosition params symbol price reason) := by
  unfold closePosition
  rw [h]
  cases hheld : c.positions.lookup symbol with
  | none => exact Parallel.refl h
  | some pos =>
      refine ⟨?_, ?_, _, rfl, rfl⟩
      · show (b.positions.erase symbol).lookup symbol = (c.positions.erase symbol).lookup symbol
        rw [AList.lookup_erase, AList.lookup_erase]
      · show b.balance + _ - b.balance = c.balance + _ - c.balance
        rw [add_sub_cancel_left, add_sub_cancel_left]

theorem parallel_handleTp (params : BtParams) (sig : BtSignal)
    (h : b.positions.lookup sig.symbol = c.positions.lookup sig.symbol) :
    Parallel sig.symbol b (b.handleTp params sig) c (c.handleTp params sig) := by
  unfold handleTp
  rw [h]
  cases hheld : c.positions.lookup sig.symbol with
  | none => exact Parallel.refl h
  | some pos =>
      dsimp only
      have hgain : ∀ pnl : ℚ, b.balance + pnl - b.balance = c.balance + pnl - c.balance := by
        intro pnl
        rw [add_sub_cancel_left, add_sub_cancel_left]
      split_ifs
      · exact Parallel.refl h
      · refine ⟨?_, hgain _, _, rfl, rfl⟩
        show (AList.erase _ _).lookup _ = (AList.erase _ _).lookup _
        rw [AList.lookup_erase, AList.lookup_erase]
      · refine ⟨?_, hgain _, _, rfl, rfl⟩
        show (Table.modify _ _ _).lookup _ = (Table.modify _ _ _).lookup _
        rw [Table.lookup_modify, Table.lookup_modify, h]

/-- An entry whose margin is there does the same with either balance. -/
theorem parallel_enter (hb : entryMargin params ≤ b.balance * (95 / 100))
    (hc : entryMargin params ≤ c.balance * (95 / 100)) :
    Parallel entry.symbol b (b.enter params entry) c (c.enter params entry) := by
  rw [enter_of_le hb, enter_of_le hc]
  refine ⟨?_, ?_, [], (List.append_nil _).symm, (List.append_nil _).symm⟩
  · show (AList.insert _ _ _).lookup _ = (AList.insert _ _ _).lookup _
    rw [AList.lookup_insert, AList.lookup_insert]
  · show b.balance - _ - b.balance = c.balance - _ - c.balance
    rw [sub_sub_cancel_left, sub_sub_cancel_left]

/-- An entry that is not rejected has its margin. -/
theorem margin_of_not_rejects {balance : ℚ} (h : ¬ b.Rejects params sig)
    (hcheck : b.checkedBalance params sig = some balance) :
    entryMargin params ≤ balance * (95 / 100) :=
  not_lt.1 fun hless => h ⟨balance, hcheck, hless⟩

theorem balanceAtCheck_eq_none_iff (params : BtParams)
    (h : b.positions.lookup entry.symbol = c.positions.lookup entry.symbol) :
    b.balanceAtCheck params entry = none ↔ c.balanceAtCheck params entry = none := by
  unfold balanceAtCheck
  rw [h]
  cases c.positions.lookup entry.symbol with
  | none => exact iff_of_false nofun nofun
  | some pos =>
      dsimp only
      split_ifs
      · exact iff_of_false nofun nofun
      · exact Iff.rfl

/-- **A signal does the same under its symbol** from either state, where
neither rejects it. -/
theorem parallel_processSignal (h : b.positions.lookup sig.symbol = c.positions.lookup sig.symbol)
    (hb : ¬ b.Rejects params sig) (hc : ¬ c.Rejects params sig) :
    Parallel sig.symbol b (b.processSignal params sig) c (c.processSignal params sig) := by
  have hsame : c.entrySignal sig = b.entrySignal sig := by
    unfold entrySignal
    rw [h]
  cases hentry : b.entrySignal sig with
  | none =>
      rw [processSignal_of_no_entry hentry, processSignal_of_no_entry (hsame.trans hentry)]
      split_ifs
      · exact parallel_handleTp params sig h
      · exact parallel_closePosition params sig.price "SL" h
      · exact Parallel.refl h
  | some entry =>
      obtain ⟨hstep, hsymbol, -⟩ := processSignal_of_entry params hentry
      obtain ⟨hstep', -, -⟩ := processSignal_of_entry params (hsame.trans hentry)
      rw [hstep, hstep']
      rw [← hsymbol] at h ⊢
      have hcleared := parallel_closePosition params entry.price "REVERSE" h
      have hnone := balanceAtCheck_eq_none_iff params h
      cases hcheck : b.balanceAtCheck params entry with
      | none =>
          rw [handleEntry_of_none hcheck, handleEntry_of_none (hnone.1 hcheck)]
          exact Parallel.refl h
      | some balance =>
          cases hcheck' : c.balanceAtCheck params entry with
          | none => cases hcheck.symm.trans (hnone.2 hcheck')
          | some balance' =>
              obtain ⟨henter, rfl⟩ := handleEntry_of_some hcheck
              obtain ⟨henter', rfl⟩ := handleEntry_of_some hcheck'
              rw [henter, henter']
              refine hcleared.trans (parallel_enter ?_ ?_)
              · exact margin_of_not_rejects hb (by rw [checkedBalance, hentry]; exact hcheck)
              · exact margin_of_not_rejects hc
                  (by rw [checkedBalance, hsame, hentry]; exact hcheck')

theorem parallel_expire (params : BtParams)
    (h : b.positions.lookup symbol = c.positions.lookup symbol) :
    Parallel symbol b (b.expire params symbol) c (c.expire params symbol) := by
  unfold expire
  rw [h]
  cases hheld : c.positions.lookup symbol with
  | none => exact Parallel.refl h
  | some pos => exact parallel_closePosition params pos.entryPrice "EXPIRE" h

/-! ## The same under a symbol -/

/-- **Every position is of the symbol it is under.** -/
def Keyed (b : Backtester) : Prop :=
  ∀ symbol pos, b.positions.lookup symbol = some pos → pos.symbol = symbol

/-- What a step keeps and appends: positions under their symbols, and results
of its own symbol. -/
theorem Keyed.does (hkeyed : b.Keyed) (h : Does params symbol b b') :
    b'.Keyed ∧ ∃ new, b'.results = b.results ++ new ∧ ∀ r ∈ new, r.symbol = symbol := by
  have hcloses : ∀ {pos r} {b' : Backtester}, Closes symbol pos r b b' →
      b'.Keyed ∧ ∃ new, b'.results = b.results ++ new ∧ ∀ r ∈ new, r.symbol = symbol :=
    fun {pos r b'} hcloses => by
      have hsymbol := hkeyed symbol pos hcloses.held
      refine ⟨fun s pos' hpos' => ?_, [r], hcloses.results, fun r' hr' => ?_⟩
      · by_cases hs : s = symbol
        · subst hs
          rcases hcloses.rest with ⟨hgone, -⟩ | hleft
          · cases hgone.symm.trans hpos'
          · cases hleft.symm.trans hpos'
            exact hsymbol
        · exact hkeyed s pos' ((hcloses.others s hs).symm.trans hpos')
      · rw [List.mem_singleton.1 hr', hcloses.symbol_eq, hsymbol]
  have hopens : ∀ {pos} {b b' : Backtester}, b.Keyed → Opens params pos b b' → b'.Keyed :=
    fun {pos b b'} hkeyed hopens s pos' hpos' => by
      by_cases hs : s = pos.symbol
      · subst hs
        cases hopens.stored.symm.trans hpos'
        rfl
      · exact hkeyed s pos' ((hopens.others s hs).symm.trans hpos')
  cases h with
  | nothing => exact ⟨hkeyed, [], (List.append_nil _).symm, fun _ h => absurd h List.not_mem_nil⟩
  | closes h => exact hcloses h
  | opens _ h =>
      refine ⟨hopens hkeyed h, [], ?_, fun _ h => absurd h List.not_mem_nil⟩
      rw [h.results, List.append_nil]
  | reverses hclose _ _ hopen =>
      obtain ⟨hkeyed', new, hresults, hnew⟩ := hcloses hclose
      exact ⟨hopens hkeyed' hopen, new, hopen.results.trans hresults, hnew⟩

/-- **The same under a symbol**: the position, and the results, of which the
other state has no others. -/
structure SameAt (symbol : String) (b c : Backtester) : Prop where
  keyed : b.Keyed
  keyed' : c.Keyed
  held : b.positions.lookup symbol = c.positions.lookup symbol
  booked : (b.results.filter fun r => r.symbol = symbol) = c.results

theorem SameAt.own (h : SameAt symbol b c) (hb : Does params symbol b b')
    (hc : Does params symbol c c') (hparallel : Parallel symbol b b' c c') :
    SameAt symbol b' c' := by
  obtain ⟨hkeyed, new, hresults, hnew⟩ := h.keyed.does hb
  obtain ⟨new', hresults', hresults''⟩ := hparallel.booked
  obtain rfl : new' = new := List.append_cancel_left (hresults'.symm.trans hresults)
  refine ⟨hkeyed, (h.keyed'.does hc).1, hparallel.held, ?_⟩
  rw [hresults, hresults'', List.filter_append, h.booked,
    List.filter_eq_self.2 fun r hr => decide_eq_true (hnew r hr)]

theorem SameAt.others (h : SameAt s b c) (hb : Does params symbol b b') (hs : symbol ≠ s) :
    SameAt s b' c := by
  obtain ⟨hkeyed, new, hresults, hnew⟩ := h.keyed.does hb
  refine ⟨hkeyed, h.keyed', (hb.others hs.symm).trans h.held, ?_⟩
  rw [hresults, List.filter_append, h.booked, List.filter_eq_nil_iff.2, List.append_nil]
  intro r hr
  simpa [hnew r hr] using hs

/-- **The backtester goes by symbols** while nothing is rejected. -/
theorem byKey_processSignal (params : BtParams) :
    ByKey (processSignal params) BtSignal.symbol (fun b sig => ¬ b.Rejects params sig) SameAt where
  own h hb hc :=
    h.own does_processSignal does_processSignal (parallel_processSignal h.held hb hc)
  others h hs := h.others does_processSignal hs

theorem byKey_expire (params : BtParams) :
    ByKey (expire params) id (fun _ _ => True) SameAt where
  own h _ _ := h.own does_expire does_expire (parallel_expire params h.held)
  others h hs := h.others does_expire hs

/-! ## Whole runs -/

theorem sameAt_reset (params : BtParams) (symbol : String) :
    SameAt symbol (reset params) (reset params) where
  keyed _ _ h := by cases h
  keyed' _ _ h := by cases h
  held := rfl
  booked := rfl

/-- The signals of a symbol. -/
abbrev ofSymbol (symbol : String) (signals : List BtSignal) : List BtSignal :=
  ofKey BtSignal.symbol symbol signals

section Unrejected

variable (h : Unrejected params signals)
  (hs : ∀ symbol, Unrejected params (ofSymbol symbol signals))
include h hs

theorem sameAt_after (symbol : String) :
    SameAt symbol (after params signals) (after params (ofSymbol symbol signals)) :=
  (byKey_processSignal params).same h (hs symbol) (sameAt_reset params symbol)

/-- What expires of a symbol is what expires in its own run. -/
theorem keys_ofSymbol (symbol : String) :
    ofKey id symbol (after params signals).positions.keys =
      (after params (ofSymbol symbol signals)).positions.keys := by
  have hheld := (sameAt_after h hs symbol).held
  have hself : ofKey id symbol (after params (ofSymbol symbol signals)).positions.keys =
      (after params (ofSymbol symbol signals)).positions.keys := by
    have hone : ∀ sig ∈ ofSymbol symbol signals, sig.symbol = symbol :=
      fun sig hsig => of_decide_eq_true (List.mem_filter.1 hsig).2
    refine List.filter_eq_self.2 fun s hmem => decide_eq_true ?_
    by_contra hne
    exact AList.lookup_eq_none.1 (lookup_after_ne hone hne) hmem
  have hcount : ∀ t : Table String BtPosition,
      ofKey id symbol t.keys = List.replicate (if symbol ∈ t.keys then 1 else 0) symbol :=
    fun t => (List.filter_eq symbol).trans (by rw [t.keys_nodup.count])
  have hmem : symbol ∈ (after params signals).positions.keys ↔
      symbol ∈ (after params (ofSymbol symbol signals)).positions.keys := by
    rw [← not_iff_not]
    exact AList.lookup_eq_none.symm.trans (hheld ▸ AList.lookup_eq_none)
  rw [← hself, hcount, hcount]
  simp only [hmem]

theorem sameAt_replay (symbol : String) :
    SameAt symbol (replay params signals) (replay params (ofSymbol symbol signals)) := by
  have hsame : SameAt symbol (replay params signals)
      ((ofKey id symbol (after params signals).positions.keys).foldl (expire params)
        (after params (ofSymbol symbol signals))) :=
    (byKey_expire params).same (always_of_forall fun _ _ => trivial)
      (always_of_forall fun _ _ => trivial) (sameAt_after h hs symbol)
  rw [keys_ofSymbol h hs symbol] at hsame
  exact hsame

/-- **What a run gains** is what the runs of its symbols gain. -/
theorem gain_replay {symbols : Finset String} (hsymbols : ∀ sig ∈ signals, sig.symbol ∈ symbols) :
    (replay params signals).balance - params.initialBalance =
      ∑ symbol ∈ symbols,
        ((replay params (ofSymbol symbol signals)).balance - params.initialBalance) := by
  have hsignals : (after params signals).balance - params.initialBalance =
      ∑ symbol ∈ symbols,
        ((after params (ofSymbol symbol signals)).balance - params.initialBalance) :=
    (byKey_processSignal params).growth
      (fun h hb hc => (parallel_processSignal h.held hb hc).gain) hsymbols h hs
      (sameAt_reset params)
  have hkeys : ∀ symbol ∈ (after params signals).positions.keys, id symbol ∈ symbols := by
    intro symbol hmem
    by_contra hnot
    have hnil : ofSymbol symbol signals = [] := List.filter_eq_nil_iff.2 fun sig hsig => by
      have hne : sig.symbol ≠ symbol := fun heq => hnot (heq ▸ hsymbols sig hsig)
      simpa using hne
    have hheld := (sameAt_after h hs symbol).held
    rw [hnil] at hheld
    exact AList.lookup_eq_none.1 hheld hmem
  have hexpiries : (replay params signals).balance - (after params signals).balance =
      ∑ symbol ∈ symbols, ((replay params (ofSymbol symbol signals)).balance -
        (after params (ofSymbol symbol signals)).balance) := by
    have hgrowth := (byKey_expire params).growth (fun h _ _ => (parallel_expire params h.held).gain)
      hkeys (always_of_forall fun _ _ => trivial) (fun _ => always_of_forall fun _ _ => trivial)
      (sameAt_after h hs)
    refine hgrowth.trans (Finset.sum_congr rfl fun symbol _ => ?_)
    rw [keys_ofSymbol h hs symbol]
    rfl
  rw [← sub_add_sub_cancel _ (after params signals).balance, hexpiries, hsignals,
    ← Finset.sum_add_distrib]
  exact Finset.sum_congr rfl fun symbol _ => sub_add_sub_cancel _ _ _

end Unrejected

/-- The signals of a file that are filtered by a symbol. -/
theorem map_filterBySymbol (signals : List LogSignal) (symbol : String) :
    (LogParser.filterBySymbol signals symbol).map LogSignal.toBtSignal =
      ofSymbol symbol (signals.map LogSignal.toBtSignal) := by
  rw [ofSymbol, ofKey, List.filter_map]
  rfl

/-- **A backtest is that of its symbols**, one by one, where no entry is
rejected for its margin, in it or in the run of any symbol: of each symbol it
has the trades, in order, that the file filtered by the symbol gives, and its
profit is the sum of theirs. -/
theorem backtest_of_symbols (params : BtParams) (sharpe : List ℚ → ℚ) (signals : List LogSignal)
    (h : Unrejected params (signals.map LogSignal.toBtSignal))
    (hs : ∀ symbol, Unrejected params
      ((LogParser.filterBySymbol signals symbol).map LogSignal.toBtSignal)) :
    (∀ symbol, ((replay params (signals.map LogSignal.toBtSignal)).results.filter
        fun r => r.symbol = symbol) =
      (replay params
        ((LogParser.filterBySymbol signals symbol).map LogSignal.toBtSignal)).results) ∧
    (run params sharpe (signals.map LogSignal.toBtSignal)).totalPnl =
      ∑ symbol ∈ (signals.map fun sig => sig.symbol).toFinset,
        (run params sharpe
          ((LogParser.filterBySymbol signals symbol).map LogSignal.toBtSignal)).totalPnl := by
  simp only [map_filterBySymbol] at hs ⊢
  refine ⟨fun symbol => (sameAt_replay h hs symbol).booked, gain_replay h hs fun sig hsig => ?_⟩
  obtain ⟨logged, hlogged, rfl⟩ := List.mem_map.1 hsig
  exact List.mem_toFinset.2 (List.mem_map_of_mem hlogged)

/-- A long position in one symbol and a short one in another. -/
def twoSymbols : List LogSignal :=
  [{ alert := "buy", symbol := "BTCUSDT", price := 100, time := "", entryPrice := 0, rating := 0,
     timeframe := "15" },
   { alert := "sell", symbol := "ETHUSDT", price := 20, time := "", entryPrice := 0, rating := 0,
     timeframe := "15" }]

theorem not_rejects_of_all
    (h : ((b.checkedBalance params sig).all fun balance =>
      entryMargin params ≤ balance * (95 / 100)) = true) : ¬ b.Rejects params sig := by
  rintro ⟨balance, hcheck, hless⟩
  rw [hcheck] at h
  exact not_le.2 hless (of_decide_eq_true h)

theorem unrejected_twoSymbols : Unrejected {} (twoSymbols.map LogSignal.toBtSignal) := by
  show Throughout _ ([_] ++ [_])
  rw [throughout_concat]
  exact ⟨unrejected_singleton (not_rejects_of_all (by decide +kernel)),
    not_rejects_of_all (by decide +kernel)⟩

/-- Each symbol's signal alone is not rejected either. -/
theorem unrejected_filtered (symbol : String) :
    Unrejected {} ((LogParser.filterBySymbol twoSymbols symbol).map LogSignal.toBtSignal) := by
  by_cases hbtc : symbol = "BTCUSDT"
  · subst hbtc
    exact unrejected_singleton (not_rejects_of_all (by decide +kernel))
  by_cases heth : symbol = "ETHUSDT"
  · subst heth
    exact unrejected_singleton (not_rejects_of_all (by decide +kernel))
  have hnil : LogParser.filterBySymbol twoSymbols symbol = [] := by
    simp [LogParser.filterBySymbol, twoSymbols, Ne.symm hbtc, Ne.symm heth]
  rw [hnil]
  exact throughout_nil

theorem backtest_of_two_symbols :
    (∀ symbol, ((replay {} (twoSymbols.map LogSignal.toBtSignal)).results.filter
        fun r => r.symbol = symbol) =
      (replay {}
        ((LogParser.filterBySymbol twoSymbols symbol).map LogSignal.toBtSignal)).results) ∧
    (run {} (fun _ => 0) (twoSymbols.map LogSignal.toBtSignal)).totalPnl =
      ∑ symbol ∈ (twoSymbols.map fun sig => sig.symbol).toFinset,
        (run {} (fun _ => 0)
          ((LogParser.filterBySymbol twoSymbols symbol).map LogSignal.toBtSignal)).totalPnl :=
  backtest_of_symbols {} (fun _ => 0) twoSymbols unrejected_twoSymbols unrejected_filtered
end Backtester

end WebhookTrader
