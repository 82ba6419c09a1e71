import Mathlib.Data.Rat.Floor
import Mathlib.Data.Set.Disjoint
import Mathlib.Order.CompletePartialOrder
import Mathlib.Tactic.Linarith
import Mathlib.Tactic.Positivity
import WebhookTrader.Backtest.WfOptimizer

/-!
# The windows of the walk-forward optimizer

A window begins where the one before it began, and a step further on. Its
second part begins where its first ends, and the loop goes on only while
both fit into the signals. So what a pair of the grid is tried on comes
after what it was found on, and where a step is no shorter than a second
part, no signal is in the second parts of two windows.
-/

namespace WebhookTrader

namespace WFConfig

variable {cfg : WFConfig} {sharpe : List ℚ → ℚ} {order : MapOrder} {signals : List BtSignal}
  {w w' : WFWindowResult} {n : ℤ}

/-- **Where a window lies**: its parts follow each other, within the
signals, from a place on. -/
structure LiesFrom (cfg : WFConfig) (n first : ℤ) (w : WFWindowResult) : Prop where
  first_le : first ≤ w.isStart
  isEnd_eq : w.isEnd = w.isStart + cfg.isSize n
  oosStart_eq : w.oosStart = w.isEnd
  oosEnd_eq : w.oosEnd = w.isEnd + cfg.oosSize n
  oosEnd_le : w.oosEnd ≤ n

/-- The signals of the second part. -/
def oosPart (w : WFWindowResult) : Set ℤ := {i | w.oosStart ≤ i ∧ i < w.oosEnd}

/-- A window that fits lies where it begins. -/
theorem liesFrom_window {id start : ℤ}
    (hfits : start + cfg.isSize signals.length + cfg.oosSize signals.length ≤ signals.length) :
    LiesFrom cfg signals.length start (cfg.window sharpe signals id start) where
  first_le := le_rfl
  isEnd_eq := rfl
  oosStart_eq := rfl
  oosEnd_eq := min_eq_left hfits
  oosEnd_le := min_le_right _ _

theorem LiesFrom.mono {first first' : ℤ} (h : LiesFrom cfg n first w) (hle : first' ≤ first) :
    LiesFrom cfg n first' w :=
  { h with first_le := hle.trans h.first_le }

/-- What is computed of the windows keeps them. -/
theorem windows_of_computeFinalResults {windows : List WFWindowResult} {result : WFResult}
    (h : cfg.computeFinalResults order windows = .ok result) : result.windows = windows := by
  unfold computeFinalResults at h
  by_cases hnone : windows = []
  · rw [if_pos hnone] at h
    obtain rfl := Except.ok.inj h
    exact hnone.symm
  · rw [if_neg hnone] at h
    refine Json.forall_ok_bind (P := fun result => result.windows = windows) ?_ result h
    rintro pair result ⟨⟩
    rfl

/-- Windows that begin a second part's length apart have second parts
apart. -/
theorem LiesFrom.disjoint {first first' : ℤ} (h : LiesFrom cfg n first w)
    (h' : LiesFrom cfg n first' w') (happart : w.isStart + cfg.oosSize n ≤ w'.isStart) :
    Disjoint (oosPart w) (oosPart w') := by
  refine Set.disjoint_left.2 fun i hi hi' => ?_
  have hisEnd := h.isEnd_eq
  have hisEnd' := h'.isEnd_eq
  have hoosEnd := h.oosEnd_eq
  rw [oosPart, Set.mem_ofPred_eq] at hi hi'
  rw [h'.oosStart_eq] at hi'
  omega

section Rolling

variable (hminima : 0 < cfg.minIsSignals ∧ 0 < cfg.minOosSignals)
include hminima

/-- Every window of the loop lies from the loop's start on. -/
theorem liesFrom_of_mem_roll {passes : ℕ} {id start : ℤ}
    (hw : w ∈ cfg.roll sharpe signals passes id start) :
    LiesFrom cfg signals.length start w := by
  have hstep := step_pos hminima signals.length
  induction passes generalizing id start with
  | zero => exact absurd hw List.not_mem_nil
  | succ passes ih =>
      unfold roll at hw
      dsimp only at hw
      split_ifs at hw with hfits
      · rcases List.mem_cons.1 hw with rfl | hrest
        · exact liesFrom_window hfits
        · exact (ih hrest).mono (by omega)
      · exact absurd hw List.not_mem_nil

/-- **A window begins a step after the one before it**, at least. -/
theorem pairwise_roll (passes : ℕ) (id start : ℤ) :
    (cfg.roll sharpe signals passes id start).Pairwise
      fun w w' => w.isStart + cfg.step signals.length ≤ w'.isStart := by
  induction passes generalizing id start with
  | zero => exact List.Pairwise.nil
  | succ passes ih =>
      unfold roll
      dsimp only
      split_ifs
      · exact List.pairwise_cons.2
          ⟨fun w' hw' => (liesFrom_of_mem_roll hminima hw').first_le, ih _ _⟩
      · exact List.Pairwise.nil

/-- The parts of a window are not empty. -/
theorem LiesFrom.parts {first : ℤ} (h : LiesFrom cfg n first w) (hfirst : 0 ≤ first) :
    0 ≤ w.isStart ∧ w.isStart < w.isEnd ∧ w.isEnd = w.oosStart ∧ w.oosStart < w.oosEnd ∧
      w.oosEnd ≤ n := by
  obtain ⟨his, hoos⟩ := size_pos hminima n
  have hstart := h.first_le
  have hisEnd := h.isEnd_eq
  have hoosEnd := h.oosEnd_eq
  refine ⟨by omega, by omega, h.oosStart_eq.symm, ?_, h.oosEnd_le⟩
  rw [h.oosStart_eq]
  omega

end Rolling

theorem truncate_of_nonneg {q : ℚ} (h : 0 ≤ q) : Json.truncate q = ⌊q⌋ := by
  rw [Json.truncate, Int.tdiv_eq_ediv_of_nonneg (Rat.num_nonneg.2 h), Rat.floor_def']

/-- **No sum of the loop is large**: the sizes are within the signals, so
what is compared with their number is at most twice that, or a step more
than it. -/
theorem sums_le (hratio : 0 ≤ cfg.isRatio ∧ cfg.isRatio ≤ 1)
    (hminima : 0 < cfg.minIsSignals ∧ 0 < cfg.minOosSignals)
    (hlength : cfg.minIsSignals + cfg.minOosSignals ≤ signals.length) :
    cfg.isSize signals.length + cfg.oosSize signals.length ≤ 2 * signals.length ∧
      ∀ w ∈ cfg.windows sharpe signals, w.isStart + cfg.step signals.length +
        cfg.isSize signals.length + cfg.oosSize signals.length ≤
          signals.length + cfg.step signals.length := by
  have hhalf : Json.truncate (signals.length * (1 / 2)) ≤ signals.length := by
    rw [truncate_of_nonneg (by positivity)]
    have hcast : (0 : ℚ) ≤ signals.length := Nat.cast_nonneg _
    have hfloor := Int.floor_le ((signals.length : ℚ) * (1 / 2))
    exact_mod_cast hfloor.trans (by linarith : (signals.length : ℚ) * (1 / 2) ≤ signals.length)
  have htotal : cfg.totalWindow signals.length ≤ signals.length := max_le hlength hhalf
  have hpos : 0 < cfg.totalWindow signals.length := lt_max_of_lt_left (by omega)
  have htotal' : (0 : ℚ) ≤ cfg.totalWindow signals.length := by exact_mod_cast hpos.le
  -- a share of the window is within the window
  have hshare : 0 ≤ Json.truncate (cfg.totalWindow signals.length * cfg.isRatio) ∧
      Json.truncate (cfg.totalWindow signals.length * cfg.isRatio) ≤
        cfg.totalWindow signals.length := by
    rw [truncate_of_nonneg (mul_nonneg htotal' hratio.1)]
    refine ⟨Int.floor_nonneg.2 (mul_nonneg htotal' hratio.1), ?_⟩
    exact_mod_cast (Int.floor_le _).trans (mul_le_of_le_one_right htotal' hratio.2)
  constructor
  · have his : cfg.isSize signals.length ≤ signals.length :=
      max_le (hshare.2.trans htotal) (by omega)
    have hoos : cfg.oosSize signals.length ≤ signals.length := max_le (by omega) (by omega)
    omega
  · intro w hw
    have hlies := liesFrom_of_mem_roll hminima hw
    have hisEnd := hlies.isEnd_eq
    have hoosEnd := hlies.oosEnd_eq
    have hle := hlies.oosEnd_le
    omega

end WFConfig

end WebhookTrader
