import WebhookTrader.Risk.Model.Learner
import WebhookTrader.Persistence.Model.StateFile

/-!
# The learner's file

`learner_state.json`: what the learner writes of its data, and what it
reads back of a file of the present version or of the one before, whose
entries are by symbol alone. An entry that raises ends the reading and
leaves what has been read.
-/

namespace WebhookTrader

namespace Json

/-- What a reference to a new value is after fields have been added to it: a
null where none has. -/
def ofFields (fields : List (String × Json)) : Json := if fields = [] then null else obj fields

/-- Likewise after elements have been added. -/
def ofElements (xs : List Json) : Json := if xs = [] then null else arr xs

end Json

namespace SymbolLearnData

/-! ## Writing -/

/-- Wins and trades, as they are written. -/
def statsToJson (stats : ℤ × ℤ) : Json := .obj [("w", .int stats.1), ("t", .int stats.2)]

/-- The counts of a list of places that are written: those with a trade. -/
def statsFields {n : ℕ} (name : Fin n → String) (stats : Fin n → ℤ × ℤ) :
    List (Fin n) → List (String × Json)
  | [] => []
  | i :: is =>
      if 0 < (stats i).2 then (name i, statsToJson (stats i)) :: statsFields name stats is
      else statsFields name stats is

/-- The names sessions are written under, by their number. -/
def sessionName (i : Fin 4) : String := ["ASIA", "EU", "EU_US", "US"].get i

/-- The part of the ring that is written. -/
def recentElements (d : SymbolLearnData) : List Json :=
  ((List.ofFn d.recentPnls).take d.recentCount.toNat).map Json.float

/-- **An entry, as `save_state_locked` writes it.** -/
def toJson (d : SymbolLearnData) : Json :=
  .obj
    [("total_trades", .int d.totalTrades), ("wins", .int d.wins), ("losses", .int d.losses),
      ("consecutive_losses", .int d.consecutiveLosses),
      ("max_consecutive_losses", .int d.maxConsecutiveLosses), ("total_pnl", .float d.totalPnl),
      ("ema_pnl", .float d.emaPnl), ("cooldown_until", .int d.cooldownUntil),
      ("blacklisted", .bool d.blacklisted), ("sum_win_pct", .float d.sumWinPct),
      ("sum_loss_pct", .float d.sumLossPct), ("win_count_pct", .int d.winCountPct),
      ("loss_count_pct", .int d.lossCountPct), ("optimal_tp_pct", .float d.optimalTpPct),
      ("optimal_sl_pct", .float d.optimalSlPct), ("avg_win_pct", .float d.avgWinPct),
      ("avg_loss_pct", .float d.avgLossPct), ("kelly_fraction", .float d.kellyFraction),
      ("hour_stats",
        .ofFields (statsFields (fun i => toString i.val) d.hourStats (List.finRange 24))),
      ("session_stats", .ofFields (statsFields sessionName d.sessionStats (List.finRange 4))),
      ("recent_idx", .int d.recentIdx), ("recent_count", .int d.recentCount),
      ("recent_pnls", .ofElements d.recentElements)]

/-! ## Reading -/

open Json

/-- The numbers of an entry. -/
def readNumbers (j : Json) : Except Exception SymbolLearnData := do
  let totalTrades ← j.value getCount "total_trades" 0
  let wins ← j.value getCount "wins" 0
  let losses ← j.value getCount "losses" 0
  let consecutiveLosses ← j.value getCount "consecutive_losses" 0
  let maxConsecutiveLosses ← j.value getCount "max_consecutive_losses" 0
  let totalPnl ← j.value getDouble "total_pnl" 0
  let emaPnl ← j.value getDouble "ema_pnl" 0
  let cooldownUntil ← j.value getInt64 "cooldown_until" 0
  let blacklisted ← j.value getBool "blacklisted" false
  let sumWinPct ← j.value getDouble "sum_win_pct" 0
  let sumLossPct ← j.value getDouble "sum_loss_pct" 0
  let winCountPct ← j.value getCount "win_count_pct" 0
  let lossCountPct ← j.value getCount "loss_count_pct" 0
  let optimalTpPct ← j.value getDouble "optimal_tp_pct" (15 / 1000)
  let optimalSlPct ← j.value getDouble "optimal_sl_pct" (10 / 1000)
  let avgWinPct ← j.value getDouble "avg_win_pct" 0
  let avgLossPct ← j.value getDouble "avg_loss_pct" 0
  let kellyFraction ← j.value getDouble "kelly_fraction" 0
  return { totalTrades, wins, losses, consecutiveLosses, maxConsecutiveLosses, totalPnl, emaPnl,
           cooldownUntil, blacklisted, sumWinPct, sumLossPct, winCountPct, lossCountPct,
           optimalTpPct, optimalSlPct, avgWinPct, avgLossPct, kellyFraction }

/-- Wins and trades, as they are read. -/
def statsFromJson (j : Json) : Except Exception (ℤ × ℤ) := do
  let wins ← j.value getCount "w" 0
  let total ← j.value getCount "t" 0
  return (wins, total)

/-- The loop over the hours; a number that is none of an hour is passed
over. -/
def readHours : List (String × Json) → (Fin 24 → ℤ × ℤ) → Except Exception (Fin 24 → ℤ × ℤ)
  | [], hours => .ok hours
  | (h, st) :: rest, hours => do
      let hour ← Cxx.stoi h
      if 0 ≤ hour ∧ hour < 24 then
        let stats ← statsFromJson st
        readHours rest fun i => if (i.val : ℤ) = hour then stats else hours i
      else readHours rest hours

/-- The loop over the sessions' names. -/
def readSessions (j : Json) :
    List (Fin 4) → (Fin 4 → ℤ × ℤ) → Except Exception (Fin 4 → ℤ × ℤ)
  | [], sessions => .ok sessions
  | i :: rest, sessions =>
      match j.find? (sessionName i) with
      | none => readSessions j rest sessions
      | some st => do
          let stats ← statsFromJson st
          readSessions j rest fun k => if k = i then stats else sessions k

/-- The loop over the ring, which stops where the ring is full. -/
def readRecent : List Json → ℕ → (Fin 10 → ℚ) → Except Exception (Fin 10 → ℚ)
  | [], _, recent => .ok recent
  | v :: rest, n, recent =>
      if 10 ≤ n then .ok recent
      else do
        let pnl ← getDouble v
        readRecent rest (n + 1) fun i => if i.val = n then pnl else recent i

/-- **`load_entry`.** -/
def fromJson (j : Json) : Except Exception SymbolLearnData := do
  let d ← readNumbers j
  let hourStats ← match j.find? "hour_stats" with
    | some hours => readHours hours.items d.hourStats
    | none => pure d.hourStats
  let sessionStats ← match j.find? "session_stats" with
    | some sessions => readSessions sessions (List.finRange 4) d.sessionStats
    | none => pure d.sessionStats
  let recentIdx ← j.value getCount "recent_idx" 0
  let recentCount ← j.value getCount "recent_count" 0
  let recentPnls ← match j.find? "recent_pnls" with
    | some (.arr xs) => readRecent xs 0 d.recentPnls
    | _ => pure d.recentPnls
  return { d with hourStats, sessionStats, recentIdx, recentCount, recentPnls }

/-- An entry of the version before, for one of its timeframes: the counts
are the timeframe's, the profit an equal part of the symbol's. -/
def fromSymbolJson (s : Json) (numTfs : ℕ) (st : Json) : Except Exception SymbolLearnData := do
  let d ← fromJson s
  let tfTotal ← st.value getCount "t" 0
  let tfWins ← st.value getCount "w" 0
  let totalPnl := d.totalPnl / numTfs
  return { d with
    totalTrades := tfTotal
    wins := tfWins
    losses := tfTotal - tfWins
    totalPnl
    consecutiveLosses := 0
    emaPnl := totalPnl / (max tfTotal 1 : ℤ) }

end SymbolLearnData

namespace Learner

/-- The document `save_state_locked` writes, with the time it is written at. -/
def toJson (savedAt : String) (learner : Learner) : Json :=
  .obj
    [("saved_at", .str savedAt), ("version", .int 2),
      ("entries", .ofFields (learner.toPairs SymbolLearnData.toJson))]

open Json

/-- The loop over the symbols of the version before. -/
def readSymbols : List (String × Json) → Learner → Learner × Except Exception Unit
  | [], learner => (learner, .ok ())
  | (symbol, s) :: rest, learner =>
      match (s.find? "tf_stats").map Json.items with
      | some (tf :: tfs) =>
          let read := Table.readEach (SymbolLearnData.fromSymbolJson s (tfs.length + 1))
            ((tf :: tfs).map fun e => (symbol ++ ":" ++ e.1, e.2)) learner
          match read.2 with
          | .ok () => readSymbols rest read.1
          | .error e => (read.1, .error e)
      | _ =>
          match SymbolLearnData.fromJson s with
          | .ok d => readSymbols rest (learner.insert (symbol ++ ":all") d)
          | .error e => (learner, .error e)

/-- The body of `load_state`'s `try`. -/
def readJson (j : Json) (learner : Learner) : Learner × Except Exception Unit :=
  match j.value getCount "version" 1 with
  | .error e => (learner, .error e)
  | .ok version =>
      match (if 2 ≤ version then j.find? "entries" else none), j.find? "symbols" with
      | some entries, _ => Table.readEach SymbolLearnData.fromJson entries.items learner
      | none, some symbols => readSymbols symbols.items learner
      | none, none => (learner, .ok ())

/-- **`load_state`**, of a learner that knows nothing yet. -/
def load : StateFile → Learner
  | .missing => ∅
  | .corrupt => ∅
  | .document j => (readJson j ∅).1

end Learner

end WebhookTrader
