import WebhookTrader.Persistence.LearnerFile
import WebhookTrader.Persistence.Model.LearnerProcess
import WebhookTrader.Risk.LearnerRecord

/-!
# The record of a key over restarts

A load takes up what the file stands for, and what is known of a key is
known of what comes back of it: the counts come back, of the histograms
what has been counted, and of the ring what has been written. So the
record is exact whenever it is looked at, and a key is rejected as
blacklisted by the history of its trades.
-/

namespace WebhookTrader

namespace SymbolLearnData

variable {cfg : LearnerConfig} {past : TimedTrades} {d : SymbolLearnData}

/-- A count that is not negative comes back. -/
theorem keptStats_snd {n : ℕ} {stats : Fin n → ℤ × ℤ} {i : Fin n} (h : 0 ≤ (stats i).2) :
    (keptStats stats i).2 = (stats i).2 := by
  rw [keptStats]
  split_ifs with hpos
  · rfl
  · show (0 : ℤ) = (stats i).2
    omega

/-- **What is tracked is tracked of what comes back.** -/
theorem Tracked.reloaded (h : Tracked past d) : Tracked past d.reloaded where
  total := h.total
  wins := h.wins
  losses := h.losses
  streak_eq := h.streak_eq
  longest := h.longest
  hours_nonneg i := (keptStats_snd (h.hours_nonneg i)).symm ▸ h.hours_nonneg i
  hours := (Finset.sum_congr rfl fun i _ => keptStats_snd (h.hours_nonneg i)).trans h.hours
  sessions_nonneg i := (keptStats_snd (h.sessions_nonneg i)).symm ▸ h.sessions_nonneg i
  sessions := (Finset.sum_congr rfl fun i _ => keptStats_snd (h.sessions_nonneg i)).trans h.sessions
  idx := h.idx
  count := h.count
  ring j hj i hrecent hi := by
    have hwritten : (i.val : ℤ) < d.recentCount := by
      rw [h.count, hi]
      rw [List.length_map] at hj
      have hle := Nat.mod_le j 10
      have hlt := Nat.mod_lt j (by decide : 10 > 0)
      omega
    rw [← h.ring j hj i hrecent hi]
    exact if_pos hwritten

theorem Known.reloaded (h : Known cfg past d) : Known cfg past d.reloaded where
  tracked := h.tracked.reloaded
  range := ⟨h.range.kelly, h.range.tp, h.range.sl⟩
  flag := h.flag

theorem reloaded_new : reloaded {} = {} := by
  have hstats : ∀ {n : ℕ}, keptStats (fun _ : Fin n => ((0, 0) : ℤ × ℤ)) = fun _ => (0, 0) := by
    intro n
    funext i
    rw [keptStats]
    exact ite_self _
  unfold reloaded
  simp [hstats]

end SymbolLearnData

namespace Learner

variable {cfg : LearnerConfig} {learner : Learner} {key : String}

/-- What is kept of a key, and of one that nothing is known of the data that
`record_trade` begins with. -/
def data (learner : Learner) (key : String) : SymbolLearnData := (learner.lookup key).getD {}

theorem data_load (savedAt : String) :
    (load (.document (learner.toJson savedAt))).data key = (learner.data key).reloaded := by
  rw [data, lookup_load, data]
  cases learner.lookup key with
  | none => exact SymbolLearnData.reloaded_new.symm
  | some d => rfl

/-- A trade is recorded under its key, and under no other. -/
theorem data_recordTrade (now : ℕ) (t : TradeRecord) :
    (learner.recordTrade cfg now t).data key =
      if recordsUnder cfg key t then (learner.data key).recordTrade cfg now t
      else learner.data key := by
  have hskip : (!cfg.enabled || t.symbol = "") = true ↔ ¬ (cfg.enabled = true ∧ t.symbol ≠ "") := by
    simp [imp_iff_not_or]
  unfold data recordTrade recordsUnder
  by_cases hon : cfg.enabled = true ∧ t.symbol ≠ ""
  · rw [if_neg fun h => hskip.1 h hon]
    by_cases hkey : makeKey t.symbol t.timeframe = key
    · subst hkey
      rw [if_pos (by simp [hon.1, hon.2]), AList.lookup_insert]
      rfl
    · rw [if_neg (by simp [hkey]), AList.lookup_insert_ne (Ne.symm hkey)]
  · rw [if_pos (hskip.2 hon), if_neg]
    simp only [Bool.and_eq_true, decide_eq_true_eq]
    exact fun h => hon h.1

end Learner

namespace LearnerProcess

open SymbolLearnData (Known known_new Exact Listed EntersBlacklist LeavesBlacklist winRateOf)

variable {cfg : LearnerConfig} {p : LearnerProcess} {key : String}

/-- **What is known of every key**, by the learner and of the file. -/
structure Recalls (cfg : LearnerConfig) (p : LearnerProcess) : Prop where
  learner : ∀ key, Known cfg (recordedOf cfg key p.told) (p.learner.data key)
  file : ∀ key, Known cfg (recordedOf cfg key p.saved) ((Learner.load p.file).data key)

theorem recalls_new : Recalls cfg {} := ⟨fun _ => known_new, fun _ => known_new⟩

theorem recordedOf_concat (told : TimedTrades) (e : ℕ × TradeRecord) :
    recordedOf cfg key (told ++ [e]) =
      if recordsUnder cfg key e.2 then recordedOf cfg key told ++ [e]
      else recordedOf cfg key told := by
  unfold recordedOf
  rw [List.filter_append]
  by_cases h : recordsUnder cfg key e.2 = true
  · rw [if_pos h, List.filter_eq_self.2 (by simpa using h : ∀ e' ∈ [e], recordsUnder cfg key e'.2)]
  · rw [if_neg h, List.filter_eq_nil_iff.2 (by simpa using h :
      ∀ e' ∈ [e], ¬ recordsUnder cfg key e'.2 = true), List.append_nil]

/-- **A step keeps it.** -/
theorem Recalls.step (h : Recalls cfg p) (event : LearnerEvent) :
    Recalls cfg (p.step cfg event) := by
  cases event with
  | record now t =>
      refine ⟨fun key => ?_, h.file⟩
      show Known cfg (recordedOf cfg key (p.told ++ [(now, t)]))
        ((p.learner.recordTrade cfg now t).data key)
      rw [recordedOf_concat, Learner.data_recordTrade]
      split_ifs
      · exact (h.learner key).recordTrade now t
      · exact h.learner key
  | save savedAt =>
      -- what a file brings back of a record is known as well as the record
      refine ⟨h.learner, fun key => ?_⟩
      show Known cfg (recordedOf cfg key p.told)
        ((Learner.load (.document (p.learner.toJson savedAt))).data key)
      rw [Learner.data_load]
      exact (h.learner key).reloaded
  | load => exact ⟨h.file, h.file⟩

theorem recalls_run (cfg : LearnerConfig) (events : List LearnerEvent) :
    Recalls cfg (run cfg events) := by
  induction events using List.reverseRecOn with
  | nil => exact recalls_new
  | append_singleton events event ih =>
      rw [run, List.foldl_concat]
      exact ih.step event

/-- **The record of a key is exact**, after trades, saves and loads in any
order. -/
theorem record_exact (cfg : LearnerConfig) (events : List LearnerEvent) (key : String) :
    Exact cfg (recordedOf cfg key (run cfg events).told) ((run cfg events).learner.data key) :=
  let known := (recalls_run cfg events).learner key
  known.tracked.exact known.range

/-! ## The blacklist -/

/-- Whether a decision is a rejection as blacklisted. -/
def RejectsAsBlacklisted (key : String) (dec : LearnDecision) : Prop :=
  dec.allowed = false ∧ ∃ winPct, dec.skip = some (.blacklisted key winPct)

/-- **The first check** is the only one to reject so. -/
theorem rejects_evaluate_iff {cfg : EvaluateConfig} {d : SymbolLearnData} {now hourUtc : ℤ} :
    RejectsAsBlacklisted key (d.evaluate cfg key now hourUtc) ↔
      d.blacklisted = true ∧ cfg.blacklistMin ≤ d.totalTrades := by
  unfold SymbolLearnData.evaluate
  dsimp only
  by_cases hlisted : d.blacklisted = true ∧ cfg.blacklistMin ≤ d.totalTrades
  · rw [if_pos hlisted]
    exact iff_of_true ⟨rfl, _, rfl⟩ hlisted
  · rw [if_neg hlisted]
    refine iff_of_false ?_ hlisted
    rintro ⟨-, winPct, hskip⟩
    -- the reasons of the later checks are others
    split_ifs at hskip <;> cases hskip

variable {cfg : EvaluateConfig} {learner : Learner} {symbol timeframe : String}
  {now hourUtc : ℤ}

/-- A key that is not kept is judged by the defaults. -/
theorem evaluate_unknown (hon : cfg.enabled = true)
    (hlookup : learner.lookup (Learner.makeKey symbol timeframe) = none) :
    learner.evaluate cfg symbol timeframe now hourUtc =
      { tpPct := cfg.defaultTpPct, slPct := cfg.defaultSlPct } := by
  unfold Learner.evaluate
  rw [if_neg (by simp [hon])]
  dsimp only
  rw [hlookup]

/-- A key that is kept is judged by its record. -/
theorem evaluate_known {d : SymbolLearnData} (hon : cfg.enabled = true)
    (hlookup : learner.lookup (Learner.makeKey symbol timeframe) = some d) :
    learner.evaluate cfg symbol timeframe now hourUtc =
      d.evaluate cfg (Learner.makeKey symbol timeframe) now hourUtc := by
  unfold Learner.evaluate
  rw [if_neg (by simp [hon])]
  dsimp only
  rw [hlookup]

/-- **Blacklisting has exact hysteresis**: after trades, saves and loads in any
order, a key is rejected as blacklisted just where the share of wins of
its first trades was too low at some number of them that suffices, and
has not been high enough at any number since. -/
theorem blacklist_hysteresis (cfg : EvaluateConfig) (events : List LearnerEvent)
    (symbol timeframe : String) (now hourUtc : ℤ) :
    let p := run cfg.toLearnerConfig events
    let past := recordedOf cfg.toLearnerConfig (Learner.makeKey symbol timeframe) p.told
    RejectsAsBlacklisted (Learner.makeKey symbol timeframe)
        (p.learner.evaluate cfg symbol timeframe now hourUtc) ↔
      ∃ m, 1 ≤ m ∧ m ≤ past.length ∧
        (cfg.blacklistMin ≤ m ∧ winRateOf (past.take m) < cfg.blacklistWr) ∧
        ∀ k, m < k → k ≤ past.length → ¬ cfg.blacklistWr + 5 / 100 ≤ winRateOf (past.take k) := by
  intro p past
  have hknown :
      Known cfg.toLearnerConfig past (p.learner.data (Learner.makeKey symbol timeframe)) :=
    (recalls_run cfg.toLearnerConfig events).learner _
  have hlisted : Listed cfg.toLearnerConfig past ↔ ∃ m, 1 ≤ m ∧ m ≤ past.length ∧
      (cfg.blacklistMin ≤ m ∧ winRateOf (past.take m) < cfg.blacklistWr) ∧
      ∀ k, m < k → k ≤ past.length →
        ¬ cfg.blacklistWr + 5 / 100 ≤ winRateOf (past.take k) := by
    refine heldSince_iff_take.trans (exists_congr fun m => and_congr_right fun _ =>
      and_congr_right fun hle => and_congr_left fun _ => ?_)
    rw [EntersBlacklist, List.length_take, Nat.min_eq_left hle]
  rw [← hlisted, ← hknown.flag]
  have hallowed : ∀ {dec : LearnDecision}, dec.allowed = true →
      ¬ RejectsAsBlacklisted (Learner.makeKey symbol timeframe) dec :=
    fun hyes hno => Bool.false_ne_true (hno.1.symm.trans hyes)
  by_cases hon : cfg.enabled = true
  · rw [Learner.data] at hknown ⊢
    cases hlookup : p.learner.lookup (Learner.makeKey symbol timeframe) with
    | none =>
        rw [evaluate_unknown hon hlookup]
        exact iff_of_false (hallowed rfl) (by simp)
    | some d =>
        rw [evaluate_known hon hlookup]
        have hknown : Known cfg.toLearnerConfig past d := by
          rw [hlookup] at hknown
          exact hknown
        refine rejects_evaluate_iff.trans (and_iff_left_of_imp fun hset => ?_)
        rw [hknown.tracked.total]
        exact (hknown.flag.1 hset).min_le
  · -- nothing is recorded, and nothing is looked up
    have hnone : past = [] := List.filter_eq_nil_iff.2 fun e _ => by simp [recordsUnder, hon]
    have heval : p.learner.evaluate cfg symbol timeframe now hourUtc = {} :=
      if_pos (by simp [hon])
    rw [heval, hknown.flag, hnone]
    exact iff_of_false (hallowed rfl) not_heldSince_nil

end LearnerProcess

end WebhookTrader
