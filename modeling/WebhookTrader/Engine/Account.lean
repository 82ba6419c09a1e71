import WebhookTrader.Engine.Steps
import WebhookTrader.Risk.Sizing

/-!
# The balance and its peak

The balance and the peak are written by three operations under three
rules: a trade adds its profit, an account message of the WebSocket sets
the one and raises the other, and a fetched balance may set the peak back
to the equity. The drawdown, which brakes the sizing, is computed from
the two.
-/

namespace WebhookTrader

/-! ## The brake -/

namespace AccountUpdate

variable {upd upd₁ upd₂ : AccountUpdate} {peak : ℚ}

/-- A fetched balance sets the peak back. -/
def Corrects (peak : ℚ) (upd : AccountUpdate) : Prop := upd.equity * 2 < peak ∨ peak < upd.available

instance : Decidable (upd.Corrects peak) := inferInstanceAs (Decidable (_ ∨ _))

/-- The peak after a fetched balance of a solvent account. -/
def peakAfter (peak : ℚ) (upd : AccountUpdate) : ℚ :=
  if upd.Corrects peak then upd.equity else peak

theorem peakAfter_pos (peak : ℚ) (havailable : 0 < upd.available) (hequity : 0 < upd.equity) :
    0 < upd.peakAfter peak := by
  rw [peakAfter]
  split_ifs with hcorrects
  · exact hequity
  · rw [Corrects, not_or, not_lt, not_lt] at hcorrects
    exact havailable.trans_le hcorrects.2

/-- The drawdown after a fetched balance. -/
theorem drawdownPct_fetchRealBalance {s : Shared} (havailable : 0 < upd.available)
    (hequity : 0 < upd.equity) :
    EntryJob.drawdownPct (s.fetchRealBalance upd) =
      (1 - upd.available / upd.peakAfter s.peakBalance) * 100 := by
  have hpeak : (s.fetchRealBalance upd).peakBalance = upd.peakAfter s.peakBalance := by
    simp only [Shared.fetchRealBalance, havailable, hequity, true_or, if_true, peakAfter, Corrects]
    rfl
  have hbalance : (s.fetchRealBalance upd).balance = upd.available := by
    simp only [Shared.fetchRealBalance, havailable, true_or, if_true]
  have hpos := peakAfter_pos s.peakBalance havailable hequity
  rw [EntryJob.drawdownPct, hpeak, hbalance, if_pos hpos, sub_div, div_self hpos.ne']

/-- **The brake is kept** between two responses: whatever the levels, the
second one's multiplier is at most the first one's. -/
def BrakeKept (s : Shared) (upd₁ upd₂ : AccountUpdate) : Prop :=
  ∀ sizer : SizerConfig, sizer.Braking →
    sizer.drawdownMultiplier (EntryJob.drawdownPct (s.fetchRealBalance upd₂)) ≤
      sizer.drawdownMultiplier (EntryJob.drawdownPct (s.fetchRealBalance upd₁))

/-- **Over all levels, the brake is the drawdown.** -/
theorem braking_le_iff {dd dd' : ℚ} :
    (∀ sizer : SizerConfig, sizer.Braking →
      sizer.drawdownMultiplier dd' ≤ sizer.drawdownMultiplier dd) ↔ dd ≤ dd' := by
  constructor
  · intro h
    by_contra hlt
    rw [not_le] at hlt
    -- one level, between the two drawdowns
    let sizer : SizerConfig := { ddLevels := [(dd', 1)] }
    have hbraking : sizer.Braking := ⟨List.pairwise_singleton _ _, by simp [sizer]⟩
    have hone : sizer.drawdownMultiplier dd' = 1 := by
      simp [sizer, SizerConfig.drawdownMultiplier]
    have hzero : sizer.drawdownMultiplier dd = 0 := by
      simp [sizer, SizerConfig.drawdownMultiplier, hlt]
    have hle := h sizer hbraking
    rw [hone, hzero] at hle
    exact absurd hle (by norm_num)
  · intro hdd sizer hbraking
    exact hbraking.antitone hdd

/-- **When losing more does not loosen the brake**: the available balance
falls, from one response to the other, at least as much as the peak that
is left. -/
theorem brakeKept_iff {s : Shared} (hpos : 0 < upd₂.available)
    (hle : upd₂.available ≤ upd₁.available) (hpos' : 0 < upd₂.equity)
    (hle' : upd₂.equity ≤ upd₁.equity) :
    BrakeKept s upd₁ upd₂ ↔
      upd₂.available * upd₁.peakAfter s.peakBalance ≤
        upd₁.available * upd₂.peakAfter s.peakBalance := by
  have hpos₁ := peakAfter_pos s.peakBalance (hpos.trans_le hle) (hpos'.trans_le hle')
  have hpos₂ := peakAfter_pos s.peakBalance hpos hpos'
  rw [BrakeKept, braking_le_iff, drawdownPct_fetchRealBalance hpos hpos',
    drawdownPct_fetchRealBalance (hpos.trans_le hle) (hpos'.trans_le hle'),
    mul_le_mul_iff_left₀ (by norm_num : (0 : ℚ) < 100), sub_le_sub_iff_left,
    div_le_div_iff₀ hpos₂ hpos₁]

end AccountUpdate

open AccountUpdate in
theorem brakeKept_iff_btc :
    BrakeKept { modes := Modes.start false, balance := 150, peakBalance := 200 } ⟨150, 150⟩
      ⟨120, 120⟩ := by
  refine (brakeKept_iff (by norm_num) (by norm_num) (by norm_num) (by norm_num)).2 ?_
  decide +kernel

open AccountUpdate in
/-- **Losing more loosens the brake.** Of a peak of 200, an account of 150 is
braked to a half, and one of 90 not at all. -/
theorem brake_loosened :
    ∃ s : Shared, s.balance = 150 ∧ s.peakBalance = 200 ∧ SizerConfig.Braking {} ∧
      SizerConfig.drawdownMultiplier {}
        (EntryJob.drawdownPct (s.fetchRealBalance ⟨150, 150⟩)) = 1 / 2 ∧
      SizerConfig.drawdownMultiplier {}
        (EntryJob.drawdownPct (s.fetchRealBalance ⟨90, 90⟩)) = 1 :=
  ⟨{ modes := Modes.start false, balance := 150, peakBalance := 200 }, rfl, rfl,
    by decide +kernel, by decide +kernel, by decide +kernel⟩

/-! ## The peak -/

/-- **What writes the balance and its peak.** `init_leverage` fetches the
balance and writes it once more, in a section of its own; it runs on the
thread of the periodic tasks, so nothing is fetched in between. -/
inductive AccountOp
  | recordTrade (t : TradeRecord)
  | wsAccount (upd : AccountUpdate)
  | fetch (upd : AccountUpdate)
  | initFetch (upd : AccountUpdate)
  | initWrite

/-- The account under these operations, with the balance `init_leverage`
is still going to write. -/
def accountSystem : System (Shared × Option ℚ) AccountOp where
  init s := s.1.balance ≤ s.1.peakBalance ∧ s.2 = none
  next s
    | .recordTrade t => some (s.1.recordTrade t, s.2)
    | .wsAccount upd => some (s.1.onWsAccount upd, s.2)
    | .fetch upd => if s.2 = none then some (s.1.fetchRealBalance upd, none) else none
    | .initFetch upd =>
        if s.2 = none then
          some (s.1.fetchRealBalance upd, if 0 < upd.available then some upd.available else none)
        else none
    | .initWrite => s.2.map fun balance => ({ s.1 with balance }, none)

namespace AccountUpdate

/-- The account is solvent: what is available is part of the equity. -/
def Solvent (upd : AccountUpdate) : Prop := 0 ≤ upd.available ∧ upd.available ≤ upd.equity

/-- **The response that breaks the peak**: nothing is available, the equity
is below the balance, and the peak is set back to it. -/
def Breaks (s : Shared) (upd : AccountUpdate) : Prop :=
  upd.available = 0 ∧ 0 < upd.equity ∧ upd.equity < s.balance ∧ upd.equity * 2 < s.peakBalance

instance {upd : AccountUpdate} : Decidable upd.Solvent := inferInstanceAs (Decidable (_ ∧ _))

instance {s : Shared} {upd : AccountUpdate} : Decidable (upd.Breaks s) :=
  inferInstanceAs (Decidable (_ ∧ _ ∧ _ ∧ _))

end AccountUpdate

namespace AccountOp

/-- The message of an operation. -/
def upd? : AccountOp → Option AccountUpdate
  | recordTrade _ => none
  | wsAccount upd => some upd
  | fetch upd => some upd
  | initFetch upd => some upd
  | initWrite => none

/-- The response a fetch brings. -/
def fetched? : AccountOp → Option AccountUpdate
  | fetch upd => some upd
  | initFetch upd => some upd
  | _ => none

end AccountOp

/-- Every message is of a solvent account, and no response breaks the
peak. -/
def PeakKept (s : Shared × Option ℚ) (op : AccountOp) : Prop :=
  (∀ upd ∈ op.upd?, upd.Solvent) ∧ ∀ upd ∈ op.fetched?, ¬ upd.Breaks s.1

/-- The peak is a peak, and above what is still to be written. -/
structure PeakHolds (s : Shared × Option ℚ) : Prop where
  peak : s.1.balance ≤ s.1.peakBalance
  pending : ∀ balance ∈ s.2, balance ≤ s.1.peakBalance

namespace Shared

variable {s : Shared} {upd : AccountUpdate}

/-- A trade keeps the peak a peak, and does not lower it. -/
theorem recordTrade_peak (t : TradeRecord) :
    (s.recordTrade t).balance ≤ (s.recordTrade t).peakBalance ∧
      s.peakBalance ≤ (s.recordTrade t).peakBalance :=
  ⟨le_max_right _ _, le_max_left _ _⟩

theorem onWsAccount_peak (hupd : upd.Solvent) (h : s.balance ≤ s.peakBalance) :
    (s.onWsAccount upd).balance ≤ (s.onWsAccount upd).peakBalance ∧
      s.peakBalance ≤ (s.onWsAccount upd).peakBalance := by
  rw [onWsAccount]
  split_ifs
  · exact ⟨hupd.2.trans (le_max_right _ _), le_max_left _ _⟩
  · exact ⟨h, le_rfl⟩

/-- **A fetched balance keeps the peak a peak**, unless it breaks it. -/
theorem fetchRealBalance_peak_iff (hupd : upd.Solvent) (h : s.balance ≤ s.peakBalance) :
    (s.fetchRealBalance upd).balance ≤ (s.fetchRealBalance upd).peakBalance ↔
      ¬ upd.Breaks s := by
  obtain ⟨hnonneg, hle⟩ := hupd
  rcases hnonneg.eq_or_lt with hzero | hpos
  · -- the balance stays, and the peak may be set back under it
    rw [AccountUpdate.Breaks]
    simp only [fetchRealBalance, ← hzero, lt_irrefl, false_or, if_false, true_and, h.not_gt, or_false]
    by_cases hequity : 0 < upd.equity
    · simp only [hequity, if_true, true_and]
      by_cases hback : upd.equity * 2 < s.peakBalance
      · simp only [hback, if_true, and_true, not_lt]
      · simp only [hback, if_false, and_false, not_false_eq_true, h]
    · simp only [hequity, if_false, false_and, not_false_eq_true, h]
  · -- what is available is at most the equity, which is what the peak is set back to
    have hequity : 0 < upd.equity := hpos.trans_le hle
    refine iff_of_true ?_ fun hbreaks => hpos.ne' hbreaks.1
    simp only [fetchRealBalance, hpos, hequity, true_or, if_true]
    split_ifs with hback
    · exact hle
    · exact not_lt.1 (not_or.1 hback).2

/-- What is available is under the peak after it is fetched. -/
theorem available_le_peak (hupd : upd.Solvent) (h : s.balance ≤ s.peakBalance)
    (hpos : 0 < upd.available) : upd.available ≤ (s.fetchRealBalance upd).peakBalance := by
  have hbalance : (s.fetchRealBalance upd).balance = upd.available := by
    simp only [fetchRealBalance, hpos, true_or, if_true]
  rw [← hbalance]
  exact (fetchRealBalance_peak_iff hupd h).2 fun hbreaks => hpos.ne' hbreaks.1

end Shared

/-- **Every operation keeps the peak a peak.** -/
theorem peakHolds_next {s t : Shared × Option ℚ} {op : AccountOp} (hs : PeakHolds s)
    (hg : PeakKept s op) (h : accountSystem.next s op = some t) : PeakHolds t := by
  obtain ⟨s, pending⟩ := s
  cases op with
  | recordTrade trade =>
      obtain rfl := Option.some.inj h
      have hpeak := Shared.recordTrade_peak (s := s) trade
      exact ⟨hpeak.1, fun balance hb => (hs.pending balance hb).trans hpeak.2⟩
  | wsAccount upd =>
      obtain rfl := Option.some.inj h
      have hpeak := Shared.onWsAccount_peak (hg.1 upd rfl) hs.peak
      exact ⟨hpeak.1, fun balance hb => (hs.pending balance hb).trans hpeak.2⟩
  | fetch upd =>
      simp only [accountSystem, Option.ite_none_right_eq_some, Option.some.injEq] at h
      obtain ⟨-, rfl⟩ := h
      exact ⟨(Shared.fetchRealBalance_peak_iff (hg.1 upd rfl) hs.peak).2 (hg.2 upd rfl), nofun⟩
  | initFetch upd =>
      simp only [accountSystem, Option.ite_none_right_eq_some, Option.some.injEq] at h
      obtain ⟨-, rfl⟩ := h
      refine ⟨(Shared.fetchRealBalance_peak_iff (hg.1 upd rfl) hs.peak).2 (hg.2 upd rfl), ?_⟩
      intro balance hb
      dsimp only at hb
      split_ifs at hb with hpos
      · obtain rfl := Option.some.inj hb
        exact Shared.available_le_peak (hg.1 upd rfl) hs.peak hpos
      · cases hb
  | initWrite =>
      obtain ⟨balance, hb, rfl⟩ := Option.map_eq_some_iff.1 h
      exact ⟨hs.pending balance hb, nofun⟩

/-- **The peak is a peak.** After any trades, account messages and fetched
balances of a solvent account, none of which breaks the peak, the peak is
at least the balance, and the drawdown is not negative. -/
theorem peak_is_peak {s : Shared × Option ℚ} (h : accountSystem.Reachable PeakKept s) :
    s.1.balance ≤ s.1.peakBalance ∧ 0 ≤ EntryJob.drawdownPct s.1 := by
  have hholds : PeakHolds s := by
    refine h.invariant (fun s hs => ?_) fun s op t hs hg hn => peakHolds_next hs hg hn
    refine ⟨hs.1, fun balance hb => ?_⟩
    rw [hs.2] at hb
    cases hb
  refine ⟨hholds.peak, ?_⟩
  rw [EntryJob.drawdownPct]
  split_ifs with hpos
  · exact mul_nonneg (div_nonneg (sub_nonneg.2 hholds.peak) hpos.le) (by norm_num)
  · exact le_rfl

/-! ## In the engine -/

section Engine

variable {cfg : EngineConfig} {c : Closing} {s s' : Shared} {job job' : Job}

theorem CloseJob.settle_peak (j : CloseJob) (h : s.balance ≤ s.peakBalance) :
    (j.settle c s).balance ≤ (j.settle c s).peakBalance := by
  unfold settle
  split
  · exact h
  · exact (Shared.recordTrade_peak _).1

theorem CloseAllJob.settle_peak {tag : String × String} (h : s.balance ≤ s.peakBalance) :
    (settle tag s).balance ≤ (settle tag s).peakBalance := by
  unfold settle
  split
  · exact h
  · exact (Shared.recordTrade_peak _).1

theorem Shared.onWsPosition_peak {upd : WsPositionUpdate} (h : s.balance ≤ s.peakBalance) :
    (s.onWsPosition upd).balance ≤ (s.onWsPosition upd).peakBalance := by
  unfold onWsPosition
  split
  · exact h
  · split
    · exact h
    · exact (recordTrade_peak _).1

/-- A handler only records trades. -/
theorem Job.peak_of_step (h : job.step cfg s = some (job', s')) (hs : s.balance ≤ s.peakBalance) :
    s'.balance ≤ s'.peakBalance := by
  cases move_of_step h with
  | entry hmove => cases hmove <;> exact hs
  | tp hmove | sl hmove =>
      cases hmove with
      | settle => exact CloseJob.settle_peak _ hs
      | _ => exact hs
  | closeAll hmove =>
      cases hmove with
      | settle => exact CloseAllJob.settle_peak hs
      | quiet => exact hs

/-- The account operation of an event. -/
def Event.accountOp : Event → Option AccountOp
  | wsAccount upd => some (.wsAccount upd)
  | fetchBalance upd => some (.fetch upd)
  | _ => none

/-- The discipline of the peak, in the engine. -/
def EnginePeakKept (s : Engine) : EngineLabel → Prop
  | .event e => ∀ op ∈ e.accountOp, PeakKept (s.shared, none) op
  | _ => True

/-- **The engine keeps the peak a peak**, whatever its handlers do. -/
theorem enginePeak_of_run {s t : Engine} (h : (engineSystem cfg).Run EnginePeakKept s t)
    (hs : s.shared.balance ≤ s.shared.peakBalance) :
    t.shared.balance ≤ t.shared.peakBalance := by
  refine h.invariant (I := fun s => s.shared.balance ≤ s.shared.peakBalance)
    (fun s l t hs hg hn => ?_) hs
  cases Engine.move_of_next hn with
  | start => exact hs
  | work i _ hstep => exact Job.peak_of_step hstep hs
  | event e happly =>
      cases e with
      | wsPosition upd =>
          obtain rfl := Option.some.inj happly
          exact Shared.onWsPosition_peak hs
      | wsAccount upd =>
          obtain rfl := Option.some.inj happly
          exact (Shared.onWsAccount_peak ((hg _ rfl).1 upd rfl) hs).1
      | fetchBalance upd =>
          obtain rfl := Option.some.inj happly
          have hkept := hg _ rfl
          exact (Shared.fetchRealBalance_peak_iff (hkept.1 upd rfl) hs).2 (hkept.2 upd rfl)
      | sync | tick =>
          obtain rfl := Option.some.inj happly
          exact hs
      | switch =>
          obtain ⟨_, -, rfl⟩ := Option.map_eq_some_iff.1 happly
          exact hs
      | check | resetDaily | holding =>
          simp only [Event.apply, Option.ite_none_right_eq_some, Option.some.injEq] at happly
          obtain ⟨-, rfl⟩ := happly
          exact hs

end Engine

/-! ## An account whose margin is all in use -/

namespace AccountRun

/-- The account a fresh engine starts with. -/
def start : Shared × Option ℚ := ({ modes := Modes.start false }, none)

theorem start_init : accountSystem.init start := ⟨le_rfl, rfl⟩

instance (s : Shared × Option ℚ) (op : AccountOp) : Decidable (PeakKept s op) :=
  inferInstanceAs (Decidable ((∀ upd ∈ op.upd?, _) ∧ ∀ upd ∈ op.fetched?, _))

/-- A fetch at the start, and a message after it. -/
def labels : List AccountOp :=
  [.initFetch ⟨40, 120⟩, .wsAccount ⟨60, 130⟩, .initWrite, .fetch ⟨0, 110⟩]

end AccountRun

theorem peak_is_peak_btc :
    ∃ s, accountSystem.Reachable PeakKept s ∧ s.1.peakBalance = 130 ∧
      s.1.balance ≤ s.1.peakBalance ∧ 0 ≤ EntryJob.drawdownPct s.1 := by
  obtain ⟨s, hrun, hs⟩ := System.exists_run_of_play (M := accountSystem) (G := PeakKept)
    (s := AccountRun.start) AccountRun.labels (P := fun s => s.1.peakBalance = 130)
    (by decide +kernel)
  have hreach : accountSystem.Reachable PeakKept s := ⟨_, AccountRun.start_init, hrun⟩
  exact ⟨s, hreach, hs, peak_is_peak hreach⟩

/-- **The peak falls below the balance.** All of a fresh engine's account is
in use as margin and its equity is 10: the peak is set back to 10, and the
balance stays at 100. -/
theorem peak_below_balance :
    ∃ s, accountSystem.Reachable (fun _ op => ∀ upd ∈ op.upd?, upd.Solvent) s ∧
      s.1.balance = 100 ∧ s.1.peakBalance = 10 ∧ EntryJob.drawdownPct s.1 = -900 := by
  have hnext : accountSystem.next AccountRun.start (.fetch ⟨0, 10⟩) =
      some (AccountRun.start.1.fetchRealBalance ⟨0, 10⟩, none) := rfl
  refine ⟨_, ⟨_, AccountRun.start_init, System.Run.refl.tail (fun upd hupd => ?_) hnext⟩,
    by decide +kernel, by decide +kernel, by decide +kernel⟩
  obtain rfl := Option.some.inj hupd
  exact ⟨by norm_num, by norm_num⟩

end WebhookTrader
