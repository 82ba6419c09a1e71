import Mathlib.Data.List.Induction
import WebhookTrader.Backtest.Conservation
import WebhookTrader.Backtest.Model.Entries
import WebhookTrader.Common.Since

/-!
# The margin of the backtest

The check of an entry compares its own margin with the whole balance, as
if no other position were open, and before the fee of the entry is paid.
So the margins of what is open may exceed the balance, and they do not
just where those of the other symbols, the new one and the fee fit into
the balance the check finds.
-/

namespace WebhookTrader

namespace Backtester

variable {params : BtParams} {b b' mid : Backtester} {sig entry : BtSignal}
  {signals : List BtSignal}

/-! ## What comes to the check -/

/-- The state an entry finds: the position under its symbol is closed. -/
def cleared (params : BtParams) (b : Backtester) (entry : BtSignal) : Backtester :=
  b.closePosition params entry.symbol entry.price "REVERSE"

theorem positions_cleared :
    (b.cleared params entry).positions = b.positions.erase entry.symbol := by
  unfold cleared closePosition
  cases hheld : b.positions.lookup entry.symbol with
  | none => exact (AList.ext (List.kerase_of_notMem_keys (AList.lookup_eq_none.1 hheld))).symm
  | some pos => rfl

/-- An entry on the side of the open position does nothing. -/
theorem handleEntry_of_none (h : b.balanceAtCheck params entry = none) :
    b.handleEntry params entry = b := by
  unfold balanceAtCheck at h
  unfold handleEntry
  cases hheld : b.positions.lookup entry.symbol with
  | none =>
      rw [hheld] at h
      cases h
  | some pos =>
      rw [hheld] at h
      dsimp only at h ⊢
      split_ifs at h ⊢
      rfl

/-- **Any other entry comes to the check.** -/
theorem handleEntry_of_some {balance : ℚ} (h : b.balanceAtCheck params entry = some balance) :
    b.handleEntry params entry = (b.cleared params entry).enter params entry ∧
      (b.cleared params entry).balance = balance := by
  unfold balanceAtCheck at h
  unfold handleEntry cleared
  cases hheld : b.positions.lookup entry.symbol with
  | none =>
      rw [hheld] at h
      have hself : b.closePosition params entry.symbol entry.price "REVERSE" = b := by
        unfold closePosition
        rw [hheld]
      rw [hself]
      exact ⟨rfl, Option.some.inj h⟩
  | some pos =>
      rw [hheld] at h
      dsimp only at h ⊢
      split_ifs at h ⊢
      refine ⟨rfl, ?_⟩
      unfold closePosition
      rw [hheld]
      exact Option.some.inj h

theorem enter_of_lt (h : b.balance * (95 / 100) < entryMargin params) :
    b.enter params entry = b := if_pos h

theorem enter_of_le (h : entryMargin params ≤ b.balance * (95 / 100)) :
    b.enter params entry =
      { b with
        balance := b.balance - entryFee params (opened params entry)
        positions := b.positions.insert entry.symbol (opened params entry) } :=
  if_neg (not_lt.2 h)

/-- The signal an entry is handled with is of the same symbol and price. -/
theorem processSignal_of_entry (params : BtParams) (h : b.entrySignal sig = some entry) :
    b.processSignal params sig = b.handleEntry params entry ∧ entry.symbol = sig.symbol ∧
      entry.price = sig.price := by
  unfold entrySignal at h
  unfold processSignal
  by_cases hentry : sig.isEntry = true
  · rw [if_pos hentry] at h
    obtain rfl := Option.some.inj h
    exact ⟨if_pos hentry, rfl, rfl⟩
  by_cases hclose : (sig.isTp || sig.isSl) = true
  · rw [if_neg hentry, if_pos hclose] at h
    cases h
  rw [if_neg hentry, if_neg hclose] at h
  obtain ⟨htp, hsl⟩ := not_or.1 fun hor => hclose (Bool.or_eq_true_iff.2 hor)
  split at h
  · next hreentry =>
      obtain ⟨hkind, hnone⟩ := Bool.and_eq_true_iff.1 hreentry
      obtain rfl := Option.some.inj h
      rw [if_neg hentry, if_neg htp, if_neg hsl, if_pos hkind, handleReentry, if_neg]
      · exact ⟨rfl, rfl, rfl⟩
      · simpa using hnone
  · cases h

/-- **What other signals do.** -/
theorem processSignal_of_no_entry (h : b.entrySignal sig = none) :
    b.processSignal params sig =
      if sig.isTp then b.handleTp params sig
      else if sig.isSl then b.handleSl params sig
      else b := by
  unfold entrySignal at h
  unfold processSignal
  by_cases hentry : sig.isEntry = true
  · rw [if_pos hentry] at h
    cases h
  by_cases hclose : (sig.isTp || sig.isSl) = true
  · rw [if_neg hentry]
    by_cases htp : sig.isTp = true
    · rw [if_pos htp, if_pos htp]
    · have hsl : sig.isSl = true := (Bool.or_eq_true_iff.1 hclose).resolve_left htp
      rw [if_neg htp, if_neg htp, if_pos hsl, if_pos hsl]
  rw [if_neg hentry, if_neg hclose] at h
  obtain ⟨htp, hsl⟩ := not_or.1 fun hor => hclose (Bool.or_eq_true_iff.2 hor)
  rw [if_neg hentry, if_neg htp, if_neg hsl, if_neg htp, if_neg hsl]
  split at h
  · cases h
  · next hreentry =>
      split_ifs with hkind
      · rw [handleReentry, if_pos]
        simpa [hkind, Option.isSome_iff_ne_none] using hreentry
      · rfl

/-- **A signal that brings an entry to the check** closes what is under its
symbol and enters. -/
theorem entering {balance : ℚ} (h : b.checkedBalance params sig = some balance) :
    ∃ entry, b.entrySignal sig = some entry ∧ entry.symbol = sig.symbol ∧
      entry.price = sig.price ∧
      b.processSignal params sig = (b.cleared params entry).enter params entry ∧
      (b.cleared params entry).balance = balance := by
  obtain ⟨entry, hentry, hcheck⟩ := Option.bind_eq_some_iff.1 h
  obtain ⟨hstep, hsymbol, hprice⟩ := processSignal_of_entry params hentry
  obtain ⟨henter, hbalance⟩ := handleEntry_of_some hcheck
  exact ⟨entry, hentry, hsymbol, hprice, hstep.trans henter, hbalance⟩

/-- A signal that brings no entry to the check opens nothing. -/
theorem openedAt_of_unchecked (h : b.checkedBalance params sig = none) :
    openedAt sig.symbol b (b.processSignal params sig) = none := by
  cases hentry : b.entrySignal sig with
  | some entry =>
      rw [checkedBalance, hentry] at h
      rw [(processSignal_of_entry _ hentry).1, handleEntry_of_none h]
      exact openedAt_self
  | none =>
      rw [processSignal_of_no_entry hentry]
      split_ifs
      · rcases handleTp_cases params sig b with hsame | ⟨pos, r, hcloses⟩
        · rw [hsame]
          exact openedAt_self
        · exact hcloses.openedAt
      · rw [handleSl]
        cases hheld : b.positions.lookup sig.symbol with
        | none =>
            rw [closePosition, hheld]
            exact openedAt_self
        | some pos =>
            obtain ⟨r, hcloses, -⟩ := closes_closePosition params sig.price "SL" hheld
            exact hcloses.openedAt
      · exact openedAt_self

/-- The position that an entry finds under its symbol is on the other
side. -/
theorem side_of_checked {pos : BtPosition} {balance : ℚ}
    (hcheck : b.balanceAtCheck params entry = some balance)
    (hheld : b.positions.lookup entry.symbol = some pos) : entry.side ≠ pos.side := by
  rw [balanceAtCheck, hheld] at hcheck
  dsimp only at hcheck
  split_ifs at hcheck with hside
  exact hside.symm

/-- **An entry is accepted** just where it opens a position. -/
theorem accepts_iff_openedAt :
    b.Accepts params sig ↔
      (openedAt sig.symbol b (b.processSignal params sig)).isSome = true := by
  cases hcheck : b.checkedBalance params sig with
  | none =>
      rw [openedAt_of_unchecked hcheck]
      refine iff_of_false ?_ Bool.false_ne_true
      rintro ⟨balance, hsome, -⟩
      rw [hcheck] at hsome
      cases hsome
  | some balance =>
      obtain ⟨entry, hentry, hsymbol, -, hstep, hbalance⟩ := entering hcheck
      have hcheck' : b.balanceAtCheck params entry = some balance := by
        rw [checkedBalance, hentry] at hcheck
        exact hcheck
      subst hbalance
      rw [hstep, ← hsymbol]
      rcases lt_or_ge ((b.cleared params entry).balance * (95 / 100)) (entryMargin params) with
        hless | hmargin
      · -- rejected: what was open has been closed, and nothing opens
        have hgone : (b.cleared params entry).positions.lookup entry.symbol = none := by
          rw [positions_cleared]
          exact AList.lookup_erase _ _
        refine iff_of_false ?_ ?_
        · rintro ⟨balance, hsome, hle⟩
          obtain rfl := Option.some.inj (hcheck.symm.trans hsome)
          exact not_le.2 hless hle
        · rw [enter_of_lt hless, openedAt, hgone]
          cases b.positions.lookup entry.symbol <;> exact Bool.false_ne_true
      · refine iff_of_true ⟨_, hcheck, hmargin⟩ ?_
        rw [enter_of_le hmargin, openedAt]
        dsimp only
        rw [AList.lookup_insert]
        cases hheld : b.positions.lookup entry.symbol with
        | none => rfl
        | some pos =>
            have hside : ¬ (opened params entry).side = pos.side := side_of_checked hcheck' hheld
            dsimp only
            rw [if_neg hside]
            rfl

/-! ## The margins after an entry -/

/-- The margin of the positions under other symbols. -/
def othersMargin (b : Backtester) (symbol : String) : ℚ :=
  Table.sum (fun pos : BtPosition => pos.entryPrice * pos.quantity / pos.leverage)
    (b.positions.erase symbol)

/-- **An accepted entry fits**: with the margins of the other symbols and the
fee of the entry its margin is within the balance the check finds. -/
def Fits (params : BtParams) (b : Backtester) (sig : BtSignal) : Prop :=
  ∀ balance, b.checkedBalance params sig = some balance →
    b.othersMargin sig.symbol + entryMargin params + params.tradeAmountUsdt * params.feeRate ≤
      balance

/-- **The margins and the balance after an accepted entry.** -/
theorem accepted_entry {balance : ℚ} (hprice : sig.price ≠ 0)
    (hcheck : b.checkedBalance params sig = some balance)
    (hmargin : entryMargin params ≤ balance * (95 / 100)) :
    (b.processSignal params sig).totalMargin = b.othersMargin sig.symbol + entryMargin params ∧
      (b.processSignal params sig).balance =
        balance - params.tradeAmountUsdt * params.feeRate := by
  obtain ⟨entry, -, hsymbol, hsame, hstep, hbalance⟩ := entering hcheck
  have hpositions : (b.cleared params entry).positions = b.positions.erase entry.symbol :=
    positions_cleared
  have hqty : params.tradeAmountUsdt / entry.price * entry.price = params.tradeAmountUsdt :=
    div_mul_cancel₀ _ (hsame ▸ hprice)
  rw [hstep, enter_of_le (hbalance ▸ hmargin)]
  constructor
  · show Table.sum _ ((b.cleared params entry).positions.insert _ _) = _
    rw [Table.sum_insert (by rw [hpositions]; exact AList.lookup_erase _ _), hpositions, hsymbol]
    show entry.price * (params.tradeAmountUsdt / entry.price) / params.leverage + _ = _
    rw [mul_comm entry.price, hqty, add_comm]
    rfl
  · show (b.cleared params entry).balance -
      params.tradeAmountUsdt / entry.price * entry.price * params.feeRate = _
    rw [hqty, hbalance]

/-- After an accepted entry the margins are within the balance just where the
entry fits. -/
theorem totalMargin_le_iff (hprice : sig.price ≠ 0) (haccepts : b.Accepts params sig) :
    (b.processSignal params sig).totalMargin ≤ (b.processSignal params sig).balance ↔
      b.Fits params sig := by
  obtain ⟨balance, hcheck, hmargin⟩ := haccepts
  obtain ⟨htotal, hbalance⟩ := accepted_entry hprice hcheck hmargin
  rw [htotal, hbalance, le_sub_iff_add_le]
  constructor
  · intro h balance' hcheck'
    obtain rfl := Option.some.inj (hcheck.symm.trans hcheck')
    exact h
  · exact fun h => h balance hcheck

/-! ## A whole run -/

/-- A state after the signals of a run and one more. -/
theorem after_append (params : BtParams) (pre : List BtSignal) (sig : BtSignal) :
    after params (pre ++ [sig]) = (after params pre).processSignal params sig := by
  rw [after, List.foldl_append]
  rfl

/-- **When the margin is respected**: for signals with positive prices, the
margins of all open positions are within the balance after every accepted
entry just where every accepted entry fits. -/
theorem margin_respected_iff (params : BtParams) (signals : List BtSignal)
    (hprice : ∀ sig ∈ signals, 0 < sig.price) :
    Throughout (fun past sig => (after params past).Accepts params sig →
        (after params (past ++ [sig])).totalMargin ≤ (after params (past ++ [sig])).balance)
      signals ↔
      Throughout (fun past sig => (after params past).Accepts params sig →
        (after params past).Fits params sig) signals := by
  induction signals using List.reverseRecOn with
  | nil => exact iff_of_true throughout_nil throughout_nil
  | append_singleton past sig ih =>
      have hpos := hprice sig (List.mem_append_right _ (List.mem_singleton_self sig))
      rw [throughout_concat, throughout_concat,
        ih fun sig hsig => hprice sig (List.mem_append_left _ hsig), after_append]
      exact and_congr_right fun _ => forall_congr' fun haccepts =>
        totalMargin_le_iff hpos.ne' haccepts

/-- A long position, a take-profit and the short one it is reversed into. -/
theorem margin_respected_iff_reversal :
    let params : BtParams := {}
    let signals : List BtSignal := [⟨"buy", "BTCUSDT", 100, ""⟩, ⟨"TP1", "BTCUSDT", 110, ""⟩,
      ⟨"sell", "BTCUSDT", 90, ""⟩]
    Throughout (fun past sig => (after params past).Accepts params sig →
        (after params (past ++ [sig])).totalMargin ≤ (after params (past ++ [sig])).balance)
      signals ↔
      Throughout (fun past sig => (after params past).Accepts params sig →
        (after params past).Fits params sig) signals :=
  margin_respected_iff _ _ (by decide +kernel)

/-- Two entries of nine tenths of the balance each, both accepted. -/
theorem margin_not_respected :
    let params : BtParams := { tradeAmountUsdt := 900, leverage := 1 }
    let first : BtSignal := { alert := "buy", symbol := "BTCUSDT", price := 100 }
    let second : BtSignal := { alert := "buy", symbol := "ETHUSDT", price := 10 }
    (after params [first]).Accepts params second ∧
      (after params [first, second]).balance < (after params [first, second]).totalMargin := by
  refine ⟨⟨49973 / 50, ?_, ?_⟩, ?_⟩
  · decide +kernel
  · decide +kernel
  · decide +kernel

/-! ### One symbol -/

/-- A step leaves the positions of other symbols alone. -/
theorem Does.others {symbol s : String} (h : Does params symbol b b') (hs : s ≠ symbol) :
    b'.positions.lookup s = b.positions.lookup s := by
  cases h with
  | nothing => rfl
  | closes hcloses => exact hcloses.others s hs
  | opens hsymbol hopens => exact hopens.others s (hsymbol ▸ hs)
  | reverses hcloses hsymbol _ hopens =>
      exact (hopens.others s (hsymbol ▸ hs)).trans (hcloses.others s hs)

/-- Signals of one symbol open no other position. -/
theorem lookup_after_ne {symbol s : String} (hone : ∀ sig ∈ signals, sig.symbol = symbol)
    (hs : s ≠ symbol) : (after params signals).positions.lookup s = none := by
  induction signals using List.reverseRecOn with
  | nil => rfl
  | append_singleton pre sig ih =>
      have hsig : sig.symbol = symbol :=
        hone sig (List.mem_append_right _ (List.mem_singleton_self _))
      have hdoes : Does params sig.symbol (after params pre)
          ((after params pre).processSignal params sig) := does_processSignal
      rw [after_append, hdoes.others (hsig ▸ hs)]
      exact ih fun sig hmem => hone sig (List.mem_append_left _ hmem)

/-- **With one symbol the check is enough**, where the fee of an entry is
within the reserve of a twentieth: the leverage times the fee rate is a
nineteenth at most. -/
theorem fits_of_one_symbol {symbol : String} (hone : ∀ sig ∈ signals, sig.symbol = symbol)
    (hleverage : 0 < params.leverage) (hfee : params.leverage * params.feeRate ≤ 1 / 19)
    (hamount : 0 ≤ params.tradeAmountUsdt) (hsymbol : sig.symbol = symbol)
    (haccepts : (after params signals).Accepts params sig) :
    (after params signals).Fits params sig := by
  obtain ⟨balance, hcheck, hmargin⟩ := haccepts
  intro balance' hcheck'
  obtain rfl := Option.some.inj (hcheck.symm.trans hcheck')
  -- no other symbol has a position
  have hempty : (AList.erase sig.symbol (after params signals).positions).entries = [] := by
    refine List.eq_nil_iff_forall_not_mem.2 fun e he => ?_
    obtain ⟨hne, hmem⟩ := Table.mem_erase.1 he
    rw [← AList.mem_lookup_iff, lookup_after_ne hone (hsymbol ▸ hne)] at hmem
    cases hmem
  have hothers : (after params signals).othersMargin sig.symbol = 0 := by
    rw [othersMargin, Table.sum, hempty]
    rfl
  have hlev : (0 : ℚ) < params.leverage := by exact_mod_cast hleverage
  have hamounts : params.tradeAmountUsdt = params.leverage * entryMargin params := by
    rw [entryMargin, mul_div_cancel₀ _ hlev.ne']
  have hpos : 0 ≤ entryMargin params := div_nonneg hamount hlev.le
  have hpaid : params.tradeAmountUsdt * params.feeRate ≤ 1 / 19 * entryMargin params := by
    calc params.tradeAmountUsdt * params.feeRate
        = params.leverage * params.feeRate * entryMargin params := by rw [hamounts]; ring
      _ ≤ 1 / 19 * entryMargin params := mul_le_mul_of_nonneg_right hfee hpos
  rw [hothers]
  linarith

end Backtester

end WebhookTrader
