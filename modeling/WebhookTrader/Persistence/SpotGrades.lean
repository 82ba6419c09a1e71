import WebhookTrader.Persistence.SpotProcess
import WebhookTrader.Persistence.Verdicts

/-!
# The spot tracker's grades

The grade of a key is kept when a trade of the key is recorded, and is
read instead of the trades. A trade that falls off the list takes no
grade with it, and a restart takes up all grades but the last thousand
trades only. So the grades are those of the trades just as long as what
is lost would not have changed them.
-/

namespace WebhookTrader

namespace SpotShadowTracker

open ShadowTracker (capTrades)

variable {t : SpotShadowTracker} {d : SpotDeed} {key k : String} {vp : VirtualSpotPosition}
  {tr : TradeRecord} {rest : Option ℚ} {trades trades' : List TradeRecord}

/-! ## Grades of lists -/

/-- A grade goes by the key's own trades. -/
theorem gradeOf_congr (h : (trades.filter fun t => reportKey t = k) =
    trades'.filter fun t => reportKey t = k) : gradeOf k trades = gradeOf k trades' := by
  have hown : (trades.filter fun t =>
      VirtualPosition.makeKey t.symbol t.timeframe t.exchange = k) =
        trades'.filter fun t =>
          VirtualPosition.makeKey t.symbol t.timeframe t.exchange = k := h
  unfold gradeOf
  rw [hown]

/-- A trade of another key. -/
theorem gradeOf_append_ne (h : k ≠ reportKey tr) :
    gradeOf k (trades ++ [tr]) = gradeOf k trades := by
  refine gradeOf_congr ?_
  rw [List.filter_append, List.filter_singleton, decide_eq_false h.symm]
  exact List.append_nil _

/-- Trades that were written and read. -/
theorem gradeOf_restored : gradeOf k (trades.map TradeRecord.spotShadowRestored) =
    gradeOf k trades := by
  unfold gradeOf
  have hown : (trades.map TradeRecord.spotShadowRestored).filter (fun t =>
      VirtualPosition.makeKey t.symbol t.timeframe t.exchange = k) =
        (trades.filter fun t =>
          VirtualPosition.makeKey t.symbol t.timeframe t.exchange = k).map
            TradeRecord.spotShadowRestored := by
    rw [List.filter_map]
    rfl
  rw [hown]
  simp only [List.length_map, List.countP_map, List.map_map]
  rfl

/-! ## Coherence -/

/-- **The grades are coherent**: what is kept of a key is the grade of its
trades. -/
def Coherent (t : SpotShadowTracker) : Prop := ∀ key, t.getGrade key = gradeOf key t.trades

theorem coherent_empty : Coherent {} := fun _ => rfl

/-- **A sale keeps the grades** of the other keys: their trades have the
same grade without those that fall off the list. -/
def KeepsGrades (t : SpotShadowTracker) : SpotDeed → Prop
  | .opens _ _ => True
  | .sells _ _ tr _ => ∀ key, key ≠ reportKey tr →
      gradeOf key (t.trades.drop (t.trades.length + 1 - 5000)) = gradeOf key t.trades

/-- The recorded trade's key gets its grade anew. -/
theorem symbolGrades_record : (t.record tr).symbolGrades =
    t.symbolGrades.insert (reportKey tr) (gradeOf (reportKey tr) (t.record tr).trades) := by
  simp only [record, refreshGrade, reportKey]

theorem getGrade_record : (t.record tr).getGrade key =
    if key = reportKey tr then gradeOf key (t.record tr).trades else t.getGrade key := by
  unfold getGrade
  rw [symbolGrades_record]
  generalize (t.record tr).trades = trades
  by_cases hkey : key = reportKey tr
  · rw [if_pos hkey, hkey, AList.lookup_insert, Option.getD_some]
  · rw [if_neg hkey, AList.lookup_insert_ne hkey]

theorem trades_record : (t.record tr).trades =
    t.trades.drop (t.trades.length + 1 - 5000) ++ [tr] := by
  rw [← ShadowTracker.capTrades_concat (by omega)]
  simp only [record, refreshGrade]

theorem coherent_congr {t' : SpotShadowTracker} (hgrades : t'.symbolGrades = t.symbolGrades)
    (htrades : t'.trades = t.trades) : t'.Coherent ↔ t.Coherent := by
  unfold Coherent getGrade
  rw [hgrades, htrades]

/-- **Recording keeps coherence** just where the other keys keep their
grades. -/
theorem coherent_record_iff (h : t.Coherent) :
    (t.record tr).Coherent ↔ t.KeepsGrades (.sells key vp tr rest) := by
  constructor
  · intro hcoherent k hk
    have hkept := hcoherent k
    rw [getGrade_record, if_neg hk, h k, trades_record, gradeOf_append_ne hk] at hkept
    exact hkept.symm
  · intro hkeeps k
    rw [getGrade_record]
    split_ifs with hk
    · rfl
    · rw [trades_record, gradeOf_append_ne hk, hkeeps k hk]
      exact h k

/-- **A deed keeps coherence** just where it keeps the grades. -/
theorem coherent_apply_iff (h : t.Coherent) : (d.apply t).Coherent ↔ t.KeepsGrades d := by
  cases d with
  | opens key vp => exact iff_of_true h trivial
  | sells key vp tr rest =>
      have hsame : ((SpotDeed.sells key vp tr rest).apply t).Coherent ↔ (t.record tr).Coherent := by
        cases rest <;> exact coherent_congr (by simp only [SpotDeed.apply])
          (by simp only [SpotDeed.apply])
      exact hsame.trans (coherent_record_iff h)

/-- **A restart keeps coherence** just where the last thousand trades have
the grades of all of them. -/
theorem coherent_load_iff (h : t.Coherent) : (load (.document t.toJson)).Coherent ↔
    ∀ key, gradeOf key (capTrades 1000 t.trades) = gradeOf key t.trades := by
  refine forall_congr' fun key => ?_
  rw [getGrade_load, h key, (load_toJson t).trades, gradeOf_restored]
  exact eq_comm

end SpotShadowTracker

namespace SpotProcess

open SpotShadowTracker (Coherent gradeOf)
open ShadowTracker (capTrades)

variable {p : SpotProcess} {e : SpotEvent}

/-- **An event keeps the grades.** -/
def KeepsGrades (p : SpotProcess) : SpotEvent → Prop
  | .track now sig => ∀ d ∈ p.tracker.deed now sig, p.tracker.KeepsGrades d
  | .save => True
  | .restart => ∀ s ∈ p.saved, ∀ key,
      gradeOf key (capTrades 1000 s.1.trades) = gradeOf key s.1.trades

theorem coherent_step_iff (h : p.Holds fun t _ => t.Coherent) :
    (p.step e).tracker.Coherent ↔ p.KeepsGrades e := by
  cases e with
  | track now sig =>
      show (p.track now sig).tracker.Coherent ↔ ∀ d ∈ p.tracker.deed now sig, _
      rw [tracker_track, SpotShadowTracker.track_eq]
      cases p.tracker.deed now sig with
      | none => exact iff_of_true h.now fun d hd => by cases hd
      | some d =>
          simp only [Option.mem_some_iff, forall_eq']
          exact SpotShadowTracker.coherent_apply_iff h.now
  | save => exact iff_of_true h.now trivial
  | restart =>
      show (SpotShadowTracker.load p.file).Coherent ↔ ∀ s ∈ p.saved, _
      have hsaved := h.saved
      unfold file
      cases hs : p.saved with
      | none => exact iff_of_true SpotShadowTracker.coherent_empty fun s hs => by cases hs
      | some s =>
          simp only [Option.mem_some_iff, forall_eq']
          exact SpotShadowTracker.coherent_load_iff (hsaved s hs)

/-- With the tracker, what is saved of it is coherent. -/
theorem holds_step (h : p.Holds fun t _ => t.Coherent) (hnext : (p.step e).tracker.Coherent) :
    (p.step e).Holds fun t _ => t.Coherent := by
  cases e with
  | track now sig =>
      refine h.track fun d hd => ?_
      rw [step, tracker_track, SpotShadowTracker.track_eq, hd] at hnext
      exact hnext
  | save => exact h.saveState
  | restart => exact ⟨hnext, h.saved⟩

end SpotProcess

/-! ## Grades that outlive their trades -/

namespace SpotShadowTracker

variable {t : SpotShadowTracker} {entry exit sig : WebhookSignal} {now : ℕ}

/-- **A round**: the entry opens a position, and the exit is its last
take-profit. -/
structure Round (entry exit : WebhookSignal) : Prop where
  entry_spot : ¬ (entry.marketType ≠ "spot" ∨ entry.symbol = "")
  opens : Opens entry
  exit_spot : ¬ (exit.marketType ≠ "spot" ∨ exit.symbol = "")
  exit_type : exit.sigType = .tp
  exit_level : tpClosePct exit.tpLevel = 100
  exit_bull : exit.signalDirection = "bull"
  same : signalKey entry = signalKey exit

/-- The trade of a round. -/
def roundTrade (entry exit : WebhookSignal) : TradeRecord :=
  closedTrade (opened 0 entry) exit.price ("TP_" ++ exit.tpLevel) (100 / 100)

/-- Signals tracked one after the other. -/
def trackAll (sigs : List WebhookSignal) (t : SpotShadowTracker) : SpotShadowTracker :=
  sigs.foldl (fun t sig => t.track 0 sig) t

/-- A number of rounds. -/
def rounds (entry exit : WebhookSignal) (n : ℕ) : List WebhookSignal :=
  (List.replicate n [entry, exit]).flatten

/-- Where the list is not full, tracking keeps coherence. -/
theorem Coherent.track (h : t.Coherent) (hshort : t.trades.length < 5000) :
    (t.track now sig).Coherent := by
  rw [track_eq]
  cases t.deed now sig with
  | none => exact h
  | some d =>
      refine (coherent_apply_iff h).2 ?_
      cases d with
      | opens key vp => trivial
      | sells key vp tr rest =>
          intro k _
          rw [Nat.sub_eq_zero_of_le (by omega), List.drop_zero]

/-- One round, from no position to none. -/
theorem Round.one (h : Round entry exit) (ht : t.positions = ∅)
    (hshort : t.trades.length < 5000) :
    (t.track 0 entry).trades = t.trades ∧
      ((t.track 0 entry).track 0 exit).positions = ∅ ∧
      ((t.track 0 entry).track 0 exit).trades = t.trades ++ [roundTrade entry exit] := by
  have hentry : t.deed 0 entry = some (.opens (signalKey entry) (opened 0 entry)) := by
    have hopens : Opens entry ∧ t.positions.lookup (signalKey entry) = none :=
      ⟨h.opens, by rw [ht, AList.lookup_empty]⟩
    unfold deed
    rw [if_neg h.entry_spot]
    rcases h.opens.1 with htype | htype <;> rw [htype] <;> exact if_pos hopens
  have hentered : t.track 0 entry =
      (SpotDeed.opens (signalKey entry) (opened 0 entry)).apply t := by
    rw [track_eq, hentry, Option.elim_some]
  rw [hentered]
  set t₁ := (SpotDeed.opens (signalKey entry) (opened 0 entry)).apply t with ht₁
  have hpositions : t₁.positions = AList.insert (signalKey entry) (opened 0 entry) ∅ := by
    rw [← ht]
    rfl
  have hmatch : t₁.match? exit = some (signalKey entry, opened 0 entry) := by
    have hlookup : t₁.positions.lookup (signalKey exit) = some (opened 0 entry) := by
      rw [hpositions, ← h.same, AList.lookup_insert]
    rw [match?_eq, Table.findUnder, hlookup, h.same]
  have hexit : t₁.deed 0 exit = some
      (.sells (signalKey entry) (opened 0 entry) (roundTrade entry exit) none) := by
    unfold deed
    rw [if_neg h.exit_spot, h.exit_type]
    dsimp only
    rw [if_pos h.exit_bull, hmatch, Option.map_some]
    unfold takesProfit
    dsimp only
    rw [h.exit_level, min_eq_left (show (100 : ℚ) ≤ (opened 0 entry).remainingPct from le_rfl),
      if_pos (show (opened 0 entry).remainingPct ≤ 100 from le_rfl)]
    rfl
  rw [track_eq, hexit, Option.elim_some]
  refine ⟨rfl, ?_, ?_⟩
  · show AList.erase (signalKey entry) t₁.positions = ∅
    rw [hpositions]
    exact Table.erase_insert_empty
  · have htrades : ((SpotDeed.sells (signalKey entry) (opened 0 entry) (roundTrade entry exit)
        none).apply t₁).trades = (t₁.record (roundTrade entry exit)).trades := by
      simp only [SpotDeed.apply]
    rw [htrades, trades_record]
    show t.trades.drop (t.trades.length + 1 - 5000) ++ _ = _
    rw [Nat.sub_eq_zero_of_le (by omega), List.drop_zero]

/-- **A number of rounds**: their trades, no position left, and coherent
grades. -/
theorem Round.all (h : Round entry exit) (n : ℕ) (ht : t.positions = ∅) (hcoherent : t.Coherent)
    (hshort : t.trades.length + n ≤ 5000) :
    (t.trackAll (rounds entry exit n)).positions = ∅ ∧
      (t.trackAll (rounds entry exit n)).trades =
        t.trades ++ List.replicate n (roundTrade entry exit) ∧
      (t.trackAll (rounds entry exit n)).Coherent := by
  induction n generalizing t with
  | zero => exact ⟨ht, (List.append_nil _).symm, hcoherent⟩
  | succ n ih =>
      obtain ⟨hentered, hpositions, htrades⟩ := h.one ht (by omega)
      have hentry : (t.track 0 entry).Coherent := hcoherent.track (by omega)
      have hnext : ((t.track 0 entry).track 0 exit).Coherent :=
        hentry.track (by rw [hentered]; omega)
      obtain ⟨hnone, hall, hcoh⟩ := ih hpositions hnext (by
        rw [htrades, List.length_append, List.length_singleton]
        omega)
      refine ⟨hnone, ?_, hcoh⟩
      show (trackAll (rounds entry exit n) _).trades = _
      rw [hall, htrades, List.append_assoc, List.replicate_succ]
      rfl

end SpotShadowTracker

namespace SpotProcess

/-- The tracker of a process is the tracker. -/
theorem tracker_foldl (sigs : List WebhookSignal) (p : SpotProcess) :
    ((sigs.map fun sig => SpotEvent.track 0 sig).foldl step p).tracker =
      p.tracker.trackAll sigs := by
  induction sigs generalizing p with
  | nil => rfl
  | cons sig sigs ih =>
      show ((sigs.map _).foldl step (p.track 0 sig)).tracker = _
      rw [ih, tracker_track]
      rfl

/-- A save and a restart. -/
theorem tracker_saved (events : List SpotEvent) :
    (after (events ++ [.save, .restart])).tracker =
      .load (.document (after events).tracker.toJson) := by
  unfold after
  rw [List.foldl_append]
  rfl

end SpotProcess

namespace GradeRun

open SpotShadowTracker (Round rounds roundTrade gradeOf)

def buy (symbol : String) : WebhookSignal where
  symbol := symbol
  timeframe := "15"
  exchange := "upbit"
  marketType := "spot"
  alert := "BUY"
  action := "buy"
  signalDirection := "bull"
  sigType := .entry
  price := 100

def takeProfit (symbol : String) : WebhookSignal :=
  { buy symbol with alert := "TP3", tpLevel := "TP3", sigType := .tp, price := 110 }

theorem round_xrp : Round (buy "XRPKRW") (takeProfit "XRPKRW") where
  entry_spot := by decide
  opens := by decide +kernel
  exit_spot := by decide
  exit_type := rfl
  exit_level := by decide +kernel
  exit_bull := rfl
  same := rfl

theorem round_btc : Round (buy "BTCKRW") (takeProfit "BTCKRW") where
  entry_spot := by decide
  opens := by decide +kernel
  exit_spot := by decide
  exit_type := rfl
  exit_level := by decide +kernel
  exit_bull := rfl
  same := rfl

/-- Five rounds of one symbol, and a thousand of another. -/
def sigs : List WebhookSignal :=
  rounds (buy "XRPKRW") (takeProfit "XRPKRW") 5 ++ rounds (buy "BTCKRW") (takeProfit "BTCKRW") 1000

def xrp : TradeRecord := roundTrade (buy "XRPKRW") (takeProfit "XRPKRW")

def btc : TradeRecord := roundTrade (buy "BTCKRW") (takeProfit "BTCKRW")

theorem tracked : (SpotShadowTracker.trackAll sigs {}).trades =
      List.replicate 5 xrp ++ List.replicate 1000 btc ∧
    (SpotShadowTracker.trackAll sigs {}).Coherent := by
  obtain ⟨hnone, hfive, hcoherent⟩ := round_xrp.all 5 (t := {}) rfl
    SpotShadowTracker.coherent_empty (by decide)
  obtain ⟨-, hall, hcoherent⟩ := round_btc.all 1000 hnone hcoherent (by rw [hfive]; decide)
  have hsplit : SpotShadowTracker.trackAll sigs {} =
      (SpotShadowTracker.trackAll (rounds (buy "XRPKRW") (takeProfit "XRPKRW") 5) {}).trackAll
        (rounds (buy "BTCKRW") (takeProfit "BTCKRW") 1000) := List.foldl_append
  rw [hsplit]
  refine ⟨?_, hcoherent⟩
  rw [hall, hfive]
  rfl

/-- The rounds, a save and a restart. -/
def events : List SpotEvent := (sigs.map fun sig => .track 0 sig) ++ [.save, .restart]

end GradeRun

end WebhookTrader
