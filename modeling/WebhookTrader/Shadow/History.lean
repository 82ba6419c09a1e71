import WebhookTrader.Shadow.Model.Futures
import Mathlib.Data.List.Basic

/-!
# What the shadow tracker records

A signal closes at most one virtual position, and its trade goes to the
end of the list, which keeps the last five thousand. The history of a run
is all of its trades, with those that the list has lost.
-/

namespace WebhookTrader

namespace ShadowTracker

variable {cfg : LearnerConfig} {now : ℕ} {sig : WebhookSignal} {t : ShadowTracker}

/-! ## One signal -/

/-- The trade a signal closes a position with. -/
def closes (sig : WebhookSignal) (t : ShadowTracker) : Option TradeRecord :=
  if sig.marketType = "spot" ∨ sig.symbol = "" then none
  else
    match sig.sigType with
    | .entry | .reEntry =>
        if (t.positions.lookup (signalKey sig)).isSome then none
        else (t.positions.lookup (oppKey sig)).map fun vp => closedTrade vp sig.price "REVERSAL"
    | .tp => (t.match? sig).map fun e => closedTrade e.2 sig.price "TP"
    | .sl => (t.match? sig).map fun e => closedTrade e.2 sig.price "SL"
    | .unknown => none

/-- The last so many, of what is itself the last so many of a list. -/
theorem capTrades_append (n : ℕ) (history new : List TradeRecord) :
    capTrades n (capTrades n history ++ new) = capTrades n (history ++ new) := by
  unfold capTrades
  simp only [List.length_append, List.length_drop]
  rw [← List.drop_append_of_le_length (Nat.sub_le _ _), List.drop_drop]
  congr 1
  omega

/-- The last so many, with one more. -/
theorem capTrades_concat {most : ℕ} (hmost : 0 < most) (trades : List TradeRecord)
    (tr : TradeRecord) : capTrades most (trades ++ [tr]) =
      trades.drop (trades.length + 1 - most) ++ [tr] := by
  unfold capTrades
  rw [List.length_append, List.length_singleton, List.drop_append_of_le_length (by omega)]

@[simp] theorem trades_closePosition {price : ℚ} {reason key : String} {vp : VirtualPosition} :
    (t.closePosition cfg now price reason key vp).trades =
      capTrades 5000 (t.trades ++ [closedTrade vp price reason]) := by
  simp only [closePosition]

@[simp] theorem trades_enter : (t.enter now sig).trades = t.trades := rfl

theorem trades_trackExit {reason : String} : (t.trackExit cfg now reason sig).trades =
    ((t.match? sig).map fun e => closedTrade e.2 sig.price reason).elim t.trades
      fun tr => capTrades 5000 (t.trades ++ [tr]) := by
  unfold trackExit
  rcases t.match? sig with - | ⟨key, vp⟩
  · rfl
  · rw [Option.map_some, Option.elim_some]
    exact trades_closePosition

theorem trades_trackEntry : (t.trackEntry cfg now sig).trades =
    (if (t.positions.lookup (signalKey sig)).isSome then none
      else (t.positions.lookup (oppKey sig)).map fun vp =>
        closedTrade vp sig.price "REVERSAL").elim t.trades
      fun tr => capTrades 5000 (t.trades ++ [tr]) := by
  unfold trackEntry reverse
  split_ifs
  · rfl
  · rcases t.positions.lookup (oppKey sig) with - | vp
    · rfl
    · rw [Option.map_some, Option.elim_some, trades_enter]
      exact trades_closePosition

/-- **The list after a signal**: as before, or with the trade it closes a
position with. -/
theorem trades_track : (t.track cfg now sig).trades =
    (t.closes sig).elim t.trades fun tr => capTrades 5000 (t.trades ++ [tr]) := by
  unfold track closes
  by_cases hmarket : sig.marketType = "spot" ∨ sig.symbol = ""
  · rw [if_pos hmarket, if_pos hmarket]
    rfl
  · rw [if_neg hmarket, if_neg hmarket]
    cases sig.sigType with
    | entry => exact trades_trackEntry
    | reEntry => exact trades_trackEntry
    | tp => exact trades_trackExit
    | sl => exact trades_trackExit
    | unknown => rfl

/-! ## A run -/

/-- Track signals one after the other, each at its time. -/
def trackAll (cfg : LearnerConfig) (sigs : List (ℕ × WebhookSignal)) (t : ShadowTracker) :
    ShadowTracker :=
  sigs.foldl (fun t s => t.track cfg s.1 s.2) t

/-- **All the trades of a run.** -/
def history (cfg : LearnerConfig) : List (ℕ × WebhookSignal) → ShadowTracker → List TradeRecord
  | [], _ => []
  | s :: sigs, t => (t.closes s.2).toList ++ history cfg sigs (t.track cfg s.1 s.2)

variable {sigs sigs' : List (ℕ × WebhookSignal)}

theorem history_append : t.history cfg (sigs ++ sigs') =
    t.history cfg sigs ++ (t.trackAll cfg sigs).history cfg sigs' := by
  induction sigs generalizing t with
  | nil => rfl
  | cons s sigs ih =>
      show _ ++ history cfg (sigs ++ sigs') _ = _
      rw [ih, ← List.append_assoc]
      rfl

/-- **The list has the last of the history.** -/
theorem trades_trackAll {before : List TradeRecord} (h : t.trades = capTrades 5000 before) :
    (t.trackAll cfg sigs).trades = capTrades 5000 (before ++ t.history cfg sigs) := by
  induction sigs generalizing t before with
  | nil =>
      rw [history, List.append_nil]
      exact h
  | cons s sigs ih =>
      have hnext : (t.track cfg s.1 s.2).trades =
          capTrades 5000 (before ++ (t.closes s.2).toList) := by
        rw [trades_track]
        cases t.closes s.2 with
        | none => rw [Option.toList_none, List.append_nil]; exact h
        | some tr =>
            rw [Option.toList_some, ← capTrades_append, ← h, Option.elim_some]
      have hrest := ih hnext
      rw [List.append_assoc] at hrest
      exact hrest

/-- From the start on. -/
theorem trades_trackAll_start : (trackAll cfg sigs {}).trades =
    capTrades 5000 (history cfg sigs {}) := @trades_trackAll cfg {} sigs [] rfl

/-! ## Rounds -/

/-- An entry and an exit, a number of times. -/
def rounds (entry exit : WebhookSignal) (n : ℕ) : List (ℕ × WebhookSignal) :=
  (List.replicate n [(0, entry), (0, exit)]).flatten

/-- **A round**: the entry opens a position where there is none, and the
exit closes it. -/
structure Round (entry exit : WebhookSignal) (reason : String) : Prop where
  entry_market : ¬ (entry.marketType = "spot" ∨ entry.symbol = "")
  entry_type : entry.sigType = .entry
  exit_market : ¬ (exit.marketType = "spot" ∨ exit.symbol = "")
  exit_type : exit.sigType = .tp ∧ reason = "TP" ∨ exit.sigType = .sl ∧ reason = "SL"
  same : signalKey entry = signalKey exit

variable {entry exit : WebhookSignal} {reason : String}

/-- The trade of a round. -/
def roundTrade (entry exit : WebhookSignal) (reason : String) : TradeRecord :=
  closedTrade (opened 0 entry) exit.price reason

/-- One round, from no position to none. -/
theorem Round.one (cfg : LearnerConfig) (h : Round entry exit reason) (ht : t.positions = ∅) :
    t.closes entry = none ∧
      (t.track cfg 0 entry).closes exit = some (roundTrade entry exit reason) ∧
      ((t.track cfg 0 entry).track cfg 0 exit).positions = ∅ := by
  have hkey : (opened 0 entry).key = signalKey exit := h.same
  have hnone : ∀ k, t.positions.lookup k = none := fun k => by rw [ht, AList.lookup_empty]
  have hcloses : t.closes entry = none := by
    rw [closes, if_neg h.entry_market, h.entry_type]
    simp [hnone]
  have hentered : t.track cfg 0 entry = t.enter 0 entry := by
    rw [track, if_neg h.entry_market, h.entry_type]
    simp [trackEntry, reverse, hnone]
  have hmatch : (t.enter 0 entry).match? exit = some (signalKey exit, opened 0 entry) := by
    have hlookup : (t.enter 0 entry).positions.lookup (signalKey exit) = some (opened 0 entry) := by
      rw [← hkey]
      exact AList.lookup_insert _
    rw [match?, hlookup]
  have hgone : AList.erase (signalKey exit) (t.enter 0 entry).positions = ∅ := by
    rw [← hkey]
    show AList.erase _ (AList.insert (opened 0 entry).key _ t.positions) = ∅
    rw [ht]
    exact Table.erase_insert_empty
  rw [hentered]
  rcases h.exit_type with ⟨htype, rfl⟩ | ⟨htype, rfl⟩
  · refine ⟨hcloses, ?_, ?_⟩
    · rw [closes, if_neg h.exit_market, htype]
      simp [hmatch, roundTrade]
    · rw [track, if_neg h.exit_market, htype]
      simp [trackExit, hmatch, closePosition, hgone]
  · refine ⟨hcloses, ?_, ?_⟩
    · rw [closes, if_neg h.exit_market, htype]
      simp [hmatch, roundTrade]
    · rw [track, if_neg h.exit_market, htype]
      simp [trackExit, hmatch, closePosition, hgone]

/-- **A number of rounds**: their trades, and no position left. -/
theorem Round.all (cfg : LearnerConfig) (h : Round entry exit reason) (n : ℕ)
    (ht : t.positions = ∅) :
    t.history cfg (rounds entry exit n) = List.replicate n (roundTrade entry exit reason) ∧
      (t.trackAll cfg (rounds entry exit n)).positions = ∅ := by
  induction n generalizing t with
  | zero => exact ⟨rfl, ht⟩
  | succ n ih =>
      obtain ⟨hentry, hexit, hempty⟩ := h.one cfg ht
      obtain ⟨hhistory, hpositions⟩ := ih hempty
      refine ⟨?_, hpositions⟩
      show (t.closes entry).toList ++ (((t.track cfg 0 entry).closes exit).toList ++
        history cfg (rounds entry exit n) _) = _
      rw [hentry, hexit, hhistory]
      rfl

end ShadowTracker

end WebhookTrader
