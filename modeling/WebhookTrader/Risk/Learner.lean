import Mathlib.Algebra.Group.Prod
import Mathlib.Algebra.BigOperators.Group.List.Basic
import WebhookTrader.Risk.Model.Learner

/-!
# What a recorded trade adds

The totals of a key are sums over the trades the learner has been told
of: how many there were, how many were won and lost, and what they made.
None of the other sections of `record_trade` touches them.
-/

namespace WebhookTrader

/-- Trades, wins, losses, and the profit. -/
abbrev Totals := ℤ × ℤ × ℤ × ℚ

/-- What a trade adds to the totals of its key. -/
def TradeRecord.totals (t : TradeRecord) : Totals :=
  if 0 < t.pnl then (1, 1, 0, t.pnl) else (1, 0, 1, t.pnl)

/-- The totals of a list of trades under a key; a trade without a symbol has
none. -/
def TradeRecord.totalsOf (key : String) (trades : List TradeRecord) : Totals :=
  ((trades.filter fun t => t.symbol ≠ "" ∧ Learner.makeKey t.symbol t.timeframe = key).map
    TradeRecord.totals).sum

namespace TradeRecord

variable {key : String}

theorem totalsOf_append (trades trades' : List TradeRecord) :
    totalsOf key (trades ++ trades') = totalsOf key trades + totalsOf key trades' := by
  simp [totalsOf]

/-- The number of trades is the first of the totals. -/
theorem totalsOf_fst (trades : List TradeRecord) : (totalsOf key trades).1 =
    trades.countP fun t => t.symbol ≠ "" ∧ Learner.makeKey t.symbol t.timeframe = key := by
  induction trades with
  | nil => rfl
  | cons t trades ih =>
      have hone : t.totals.1 = 1 := by rw [totals]; split <;> rfl
      rw [List.countP_cons]
      by_cases h : t.symbol ≠ "" ∧ Learner.makeKey t.symbol t.timeframe = key
      · have hcons : totalsOf key (t :: trades) = t.totals + totalsOf key trades := by
          simp [totalsOf, h]
        rw [hcons, Prod.fst_add, ih, hone]
        simp [h, add_comm]
      · have hcons : totalsOf key (t :: trades) = totalsOf key trades := by
          simp only [totalsOf, List.filter_cons, h, decide_false, Bool.false_eq_true, if_false]
        rw [hcons, ih]
        simp [h]

/-- **Trades without a symbol are the ones that add nothing.** -/
theorem totalsOf_eq_zero_iff {trades : List TradeRecord} :
    (∀ key, totalsOf key trades = 0) ↔ ∀ t ∈ trades, t.symbol = "" := by
  constructor
  · intro h t ht
    by_contra hsymbol
    have hcount := (totalsOf_fst trades).symm.trans
      (congrArg Prod.fst (h (Learner.makeKey t.symbol t.timeframe)))
    have hpos := List.countP_pos_iff (p := fun t' => decide (t'.symbol ≠ "" ∧
      Learner.makeKey t'.symbol t'.timeframe = Learner.makeKey t.symbol t.timeframe))
      |>.2 ⟨t, ht, decide_eq_true ⟨hsymbol, rfl⟩⟩
    rw [Prod.fst_zero] at hcount
    omega
  · intro h key
    have hnone : trades.filter (fun t => t.symbol ≠ "" ∧
        Learner.makeKey t.symbol t.timeframe = key) = [] := by
      refine List.filter_eq_nil_iff.2 fun t ht => ?_
      simp [h t ht]
    rw [totalsOf, hnone]
    rfl

end TradeRecord

namespace SymbolLearnData

variable {cfg : LearnerConfig} {now : ℕ} {t : TradeRecord} {d : SymbolLearnData}

def totals (d : SymbolLearnData) : Totals := (d.totalTrades, d.wins, d.losses, d.totalPnl)

/-! ## One section after the other -/

theorem totals_recordBasics : (d.recordBasics t.pnl).totals = d.totals + t.totals := by
  rw [recordBasics, TradeRecord.totals]
  split <;> simp [totals]

@[simp] theorem totals_recordEma {pnl : ℚ} : (d.recordEma cfg pnl).totals = d.totals := rfl

@[simp] theorem totals_recalcOptimalTpsl : (d.recalcOptimalTpsl cfg).totals = d.totals := by
  rw [recalcOptimalTpsl]
  split_ifs <;> rfl

@[simp] theorem totals_recordMove : (d.recordMove cfg t).totals = d.totals := by
  rw [recordMove]
  split_ifs
  · exact totals_recalcOptimalTpsl
  · exact totals_recalcOptimalTpsl
  · rfl

@[simp] theorem totals_recordHour {pnl : ℚ} : (d.recordHour now pnl).totals = d.totals := rfl

@[simp] theorem totals_recordRecent {pnl : ℚ} : (d.recordRecent pnl).totals = d.totals := rfl

@[simp] theorem totals_recalcKelly : (d.recalcKelly cfg).totals = d.totals := rfl

@[simp] theorem totals_updateCooldown : (d.updateCooldown cfg now).totals = d.totals := by
  rw [updateCooldown]
  split <;> rfl

@[simp] theorem totals_updateBlacklist : (d.updateBlacklist cfg).totals = d.totals := by
  simp only [updateBlacklist]
  split_ifs <;> rfl

@[simp] theorem totals_updateFilters : (d.updateFilters cfg now).totals = d.totals :=
  totals_updateBlacklist.trans totals_updateCooldown

/-- **A recorded trade adds its totals.** -/
theorem totals_recordTrade : (d.recordTrade cfg now t).totals = d.totals + t.totals := by
  simp [recordTrade, totals_recordBasics]

end SymbolLearnData

namespace Learner

variable {cfg : LearnerConfig} {now : ℕ} {learner : Learner} {key : String}

/-- The totals of a key, zero where nothing is known of it. -/
def totals (learner : Learner) (key : String) : Totals := ((learner.lookup key).getD {}).totals

/-- **What recording a trade adds to a key.** -/
theorem totals_recordTrade (hcfg : cfg.enabled = true) (t : TradeRecord) :
    (learner.recordTrade cfg now t).totals key = learner.totals key + TradeRecord.totalsOf key [t] := by
  by_cases hsymbol : t.symbol = ""
  · simp [recordTrade, TradeRecord.totalsOf, hsymbol]
  · by_cases hkey : makeKey t.symbol t.timeframe = key
    · subst hkey
      simp [recordTrade, TradeRecord.totalsOf, hcfg, hsymbol, totals,
        SymbolLearnData.totals_recordTrade]
    · simp [recordTrade, TradeRecord.totalsOf, hcfg, hsymbol, hkey, totals,
        AList.lookup_insert_ne (Ne.symm hkey)]

/-- **Recording trades adds all their totals.** -/
theorem totals_recordAll (hcfg : cfg.enabled = true) (trades : List TradeRecord) :
    (learner.recordAll cfg now trades).totals key =
      learner.totals key + TradeRecord.totalsOf key trades := by
  induction trades generalizing learner with
  | nil => exact (add_zero _).symm
  | cons t trades ih =>
      have hcons : TradeRecord.totalsOf key (t :: trades) =
          TradeRecord.totalsOf key [t] + TradeRecord.totalsOf key trades := by
        rw [← TradeRecord.totalsOf_append, List.singleton_append]
      rw [recordAll, List.foldl_cons, ← recordAll, ih, totals_recordTrade hcfg, hcons, add_assoc]

/-- Switched off, nothing is recorded. -/
theorem recordTrade_of_disabled (hcfg : cfg.enabled = false) (t : TradeRecord) :
    learner.recordTrade cfg now t = learner := by
  rw [recordTrade, hcfg]
  rfl

theorem recordAll_of_disabled (hcfg : cfg.enabled = false) (trades : List TradeRecord) :
    learner.recordAll cfg now trades = learner := by
  induction trades generalizing learner with
  | nil => rfl
  | cons t trades ih =>
      rw [recordAll, List.foldl_cons, ← recordAll, ih, recordTrade_of_disabled hcfg]

/-- **A trade goes under the key of its symbol and timeframe.** -/
theorem sets_recordTrade {t : TradeRecord} (hcfg : cfg.enabled = true) (hsymbol : t.symbol ≠ "") :
    Table.Sets (makeKey t.symbol t.timeframe) learner (learner.recordTrade cfg now t) := by
  have hrecords : ¬ ((!cfg.enabled || t.symbol = "") = true) := by simp [hcfg, hsymbol]
  rw [recordTrade, if_neg hrecords]
  exact Table.sets_insert _ _ _

end Learner

end WebhookTrader
