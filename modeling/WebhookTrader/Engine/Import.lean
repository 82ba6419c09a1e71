import WebhookTrader.Common.Additions
import WebhookTrader.Engine.Model.TradeRecorder
import WebhookTrader.Shadow.History

/-!
# Importing twice

An import passes over what is in the list of trades. Every recorded trade
caps the list, so that what was imported can be pushed off it, and the
next import of the same trades takes it in again and tells the learner a
second time.
-/

namespace WebhookTrader

/-- The learner told of trades, each at its time. -/
def Learner.told (cfg : LearnerConfig) (trades : TimedTrades) (learner : Learner) : Learner :=
  trades.foldl (fun learner e => learner.recordTrade cfg e.1 e.2) learner

theorem Learner.told_append {cfg : LearnerConfig} {trades trades' : TimedTrades}
    {learner : Learner} :
    learner.told cfg (trades ++ trades') = (learner.told cfg trades).told cfg trades' :=
  List.foldl_append ..

/-- Trades of other keys leave what is learnt under a key. -/
theorem Learner.lookup_told {cfg : LearnerConfig} {trades : TimedTrades} {learner : Learner}
    {key : String} (h : ∀ e ∈ trades, makeKey e.2.symbol e.2.timeframe ≠ key) :
    (learner.told cfg trades).lookup key = learner.lookup key := by
  induction trades generalizing learner with
  | nil => rfl
  | cons e trades ih =>
      obtain ⟨he, htrades⟩ := List.forall_mem_cons.1 h
      refine (ih htrades).trans ?_
      dsimp only
      rw [recordTrade]
      split_ifs
      · rfl
      · exact AList.lookup_insert_ne (Ne.symm he)

/-- The cap is the shadow tracker's, at another length. -/
theorem Shared.capTrades_eq (trades : List TradeRecord) :
    capTrades trades = ShadowTracker.capTrades 2000 trades := by
  unfold capTrades ShadowTracker.capTrades
  rfl

namespace TradeRecorder

variable {cfg : LearnerConfig} {now now' : ℕ → ℕ} {external : List TradeRecord}
  {closes : TimedTrades} {r : TradeRecorder}

/-- The engine's own recording is the recorder's, but for the learner. -/
theorem recordTrade_shared (s : Shared) (learner : Learner) (t : ℕ) (tr : TradeRecord) :
    recordTrade cfg t tr ⟨s.trades, learner, s.balance, s.peakBalance⟩ =
      ⟨(s.recordTrade tr).trades, learner.recordTrade cfg t tr, (s.recordTrade tr).balance,
        (s.recordTrade tr).peakBalance⟩ := rfl

/-! ## One import -/

theorem looksLike_self (t : TradeRecord) : looksLike t t = true := by
  simp [looksLike]

/-- The trades an import takes in, of a list of trades with symbols. -/
def newTrades (trades external : List TradeRecord) : List TradeRecord :=
  additions looksLike trades external

/-- Trades with the times the learner is told of them at, from a count on. -/
def timed (now : ℕ → ℕ) (n : ℕ) (trades : List TradeRecord) : TimedTrades :=
  (trades.zipIdx n).map fun e => (now e.2, e.1)

theorem foldl_importOne (new : List TradeRecord) (n : ℕ) :
    new.foldl (importOne cfg now) (r, n) =
      ({ r with
          trades := r.trades ++ new
          learner := r.learner.told cfg (timed now n new) },
        n + new.length) := by
  induction new generalizing r n with
  | nil =>
      rw [List.foldl_nil, List.append_nil]
      rfl
  | cons t new ih =>
      rw [List.foldl_cons, importOne, ih]
      simp only [List.append_assoc, List.singleton_append, List.length_cons, timed,
        List.zipIdx_cons, List.map_cons, Learner.told, List.foldl_cons]
      rw [Nat.add_right_comm, Nat.add_assoc]

/-- **What an import does**: the new trades are at the end of the list, and
the learner has been told of each. -/
theorem importTrades_eq (h : ∀ t ∈ external, t.symbol ≠ "") : r.importTrades cfg now external =
    ({ r with
        trades := r.trades ++ newTrades r.trades external
        learner := r.learner.told cfg (timed now 0 (newTrades r.trades external)) },
      (newTrades r.trades external).length) := by
  have hstep : ∀ s : TradeRecorder × ℕ, ∀ ext ∈ external, importStep cfg now s ext =
      if knows looksLike s.1.trades ext then s else importOne cfg now s ext := by
    intro s ext hext
    rw [importStep, if_neg (h ext hext)]
    rfl
  have hloop : external.foldl (fun s ext =>
        if knows looksLike s.1.trades ext then s else importOne cfg now s ext) (r, 0) =
      (newTrades r.trades external).foldl (importOne cfg now) (r, 0) :=
    foldl_additions (fun s => s.1.trades) (importOne cfg now) (fun s t => rfl) (r, 0)
  rw [importTrades, List.foldl_ext _ _ (r, 0) hstep, hloop, foldl_importOne, Nat.zero_add]

/-! ## The closes between -/

theorem learner_recordAll : (r.recordAll cfg closes).learner = r.learner.told cfg closes := by
  induction closes generalizing r with
  | nil => rfl
  | cons e closes ih => exact ih (r := r.recordTrade cfg e.1 e.2)

/-- **The list after some trades**: as it was without any, and the last two
thousand otherwise, however long it was. -/
theorem trades_recordAll : (r.recordAll cfg closes).trades =
    if closes = [] then r.trades
    else Shared.capTrades (r.trades ++ closes.map fun e => e.2) := by
  induction closes generalizing r with
  | nil => rfl
  | cons e closes ih =>
      have hrest := ih (r := r.recordTrade cfg e.1 e.2)
      rw [if_neg (List.cons_ne_nil _ _), List.map_cons]
      refine hrest.trans ?_
      -- the cap of a list that is capped already
      by_cases hnil : closes = []
      · subst hnil
        rw [if_pos rfl]
        rfl
      · rw [if_neg hnil, recordTrade, Shared.capTrades_eq, Shared.capTrades_eq, Shared.capTrades_eq,
          ShadowTracker.capTrades_append, List.append_assoc, List.singleton_append]

/-! ## The second import -/

/-- An import and the trades recorded after it. -/
def importAnd (cfg : LearnerConfig) (now : ℕ → ℕ) (external : List TradeRecord)
    (closes : TimedTrades) (r : TradeRecorder) : TradeRecorder :=
  (r.importTrades cfg now external).1.recordAll cfg closes

/-- **The second import counts nothing again**: it imports none and leaves
the trades and the learner, which has been told once of each trade that was
new and of each close. -/
structure CountsOnce (cfg : LearnerConfig) (now now' : ℕ → ℕ) (external : List TradeRecord)
    (closes : TimedTrades) (r : TradeRecorder) : Prop where
  returnsZero : ((r.importAnd cfg now external closes).importTrades cfg now' external).2 = 0
  trades : ((r.importAnd cfg now external closes).importTrades cfg now' external).1.trades =
    (r.importAnd cfg now external closes).trades
  learner : ((r.importAnd cfg now external closes).importTrades cfg now' external).1.learner =
    (r.importAnd cfg now external closes).learner
  once : ((r.importAnd cfg now external closes).importTrades cfg now' external).1.learner =
    r.learner.told cfg (timed now 0 (newTrades r.trades external) ++ closes)

theorem trades_importAnd (h : ∀ t ∈ external, t.symbol ≠ "") :
    (r.importAnd cfg now external closes).trades =
      if closes = [] then r.trades ++ newTrades r.trades external
      else Shared.capTrades
        (r.trades ++ newTrades r.trades external ++ closes.map fun e => e.2) := by
  rw [importAnd, trades_recordAll, importTrades_eq h]

theorem learner_importAnd (h : ∀ t ∈ external, t.symbol ≠ "") :
    (r.importAnd cfg now external closes).learner =
      r.learner.told cfg (timed now 0 (newTrades r.trades external) ++ closes) := by
  rw [importAnd, learner_recordAll, importTrades_eq h, Learner.told_append]

/-- Nothing is counted again just where the list has something like each. -/
theorem countsOnce_iff_duplicate (h : ∀ t ∈ external, t.symbol ≠ "") :
    CountsOnce cfg now now' external closes r ↔
      ∀ t ∈ external, isDuplicate (r.importAnd cfg now external closes).trades t = true := by
  have hsecond : (r.importAnd cfg now external closes).importTrades cfg now' external = _ :=
    importTrades_eq h
  have hnil : newTrades (r.importAnd cfg now external closes).trades external = [] ↔
      ∀ t ∈ external, isDuplicate (r.importAnd cfg now external closes).trades t = true :=
    additions_eq_nil_iff
  rw [← hnil]
  constructor
  · intro honce
    have hzero := honce.returnsZero
    rw [hsecond] at hzero
    exact List.length_eq_zero_iff.1 hzero
  · intro hnone
    rw [hnone] at hsecond
    refine ⟨?_, ?_, ?_, ?_⟩
    · rw [hsecond, List.length_nil]
    · rw [hsecond, List.append_nil]
    · rw [hsecond]
      rfl
    · rw [hsecond, ← learner_importAnd h]
      rfl

/-- **When a second import counts nothing again**: where nothing was recorded
between, or the last two thousand of the trades that were there, those that
were new and those recorded since still have something like each. -/
theorem import_again_iff (cfg : LearnerConfig) (now now' : ℕ → ℕ) (external : List TradeRecord)
    (closes : TimedTrades) (r : TradeRecorder) (h : ∀ t ∈ external, t.symbol ≠ "") :
    CountsOnce cfg now now' external closes r ↔
      closes = [] ∨ ∀ t ∈ external, isDuplicate (Shared.capTrades
        (r.trades ++ newTrades r.trades external ++ closes.map fun e => e.2)) t = true := by
  rw [countsOnce_iff_duplicate h, trades_importAnd h]
  by_cases hnil : closes = []
  · rw [if_pos hnil]
    refine iff_of_true ?_ (.inl hnil)
    exact fun t ht => knows_append_additions looksLike_self ht
  · rw [if_neg hnil, or_iff_right hnil]

/-- It does as long as the list has never been full. -/
theorem import_again_of_short (h : ∀ t ∈ external, t.symbol ≠ "")
    (hshort : r.trades.length + external.length + closes.length ≤ 2000) :
    CountsOnce cfg now now' external closes r := by
  refine (countsOnce_iff_duplicate h).2 fun t ht => ?_
  have hnew : (newTrades r.trades external).length ≤ external.length := length_additions_le
  have hknown : isDuplicate (r.trades ++ newTrades r.trades external) t = true :=
    knows_append_additions looksLike_self ht
  have hdrop : (r.trades ++ newTrades r.trades external ++ closes.map fun e => e.2).length -
      2000 = 0 := by
    rw [List.length_append, List.length_append, List.length_map]
    omega
  rw [trades_importAnd h]
  split_ifs
  · exact hknown
  · rw [Shared.capTrades_eq, ShadowTracker.capTrades, hdrop, List.drop_zero]
    exact knows_mono (List.subset_append_left _ _) hknown

/-- The first of the imported trades is gone once more than the list holds
has come after it. -/
theorem not_isDuplicate_of_pushed {trades rest : List TradeRecord} {t : TradeRecord}
    (hlong : 2000 ≤ rest.length) (hrest : ∀ u ∈ rest, looksLike u t = false) :
    isDuplicate (Shared.capTrades (trades ++ t :: rest)) t = false := by
  have hkept : Shared.capTrades (trades ++ t :: rest) ⊆ rest := by
    rw [Shared.capTrades_eq, ShadowTracker.capTrades, List.append_cons, List.drop_append,
      List.drop_eq_nil_of_le (by simp; omega), List.nil_append]
    exact List.drop_subset _ _
  refine List.any_eq_false.2 fun u hu => ?_
  rw [hrest u (hkept hu)]
  exact Bool.false_ne_true

/-- A trade that has been pushed off the list is new again. -/
theorem newTrades_of_pushed {t : TradeRecord} (hsymbol : t.symbol ≠ "")
    (hnew : isDuplicate r.trades t = false) (hlong : 2000 ≤ closes.length)
    (hcloses : ∀ e ∈ closes, looksLike e.2 t = false) :
    newTrades (r.importAnd cfg now [t] closes).trades [t] = [t] := by
  have hfirst : newTrades r.trades [t] = [t] :=
    additions_eq_self (List.forall_mem_singleton.2 hnew) (List.pairwise_singleton _ _)
  have hnil : closes ≠ [] := List.ne_nil_of_length_pos (by omega)
  have hpushed : isDuplicate (Shared.capTrades
      (r.trades ++ t :: closes.map fun e => e.2)) t = false := by
    refine not_isDuplicate_of_pushed (by rwa [List.length_map]) fun u hu => ?_
    obtain ⟨e, he, rfl⟩ := List.mem_map.1 hu
    exact hcloses e he
  refine additions_eq_self (List.forall_mem_singleton.2 ?_) (List.pairwise_singleton _ _)
  rw [trades_importAnd (List.forall_mem_singleton.2 hsymbol), if_neg hnil, hfirst,
    ← List.append_cons]
  exact hpushed

theorem looksLike_comm (t u : TradeRecord) : looksLike t u = looksLike u t := by
  simp only [looksLike, abs_sub_comm, eq_comm]

/-- **Fresh trades**, of which no two are alike and none is like a recorded
one, have to fit in the list together with those recorded since. -/
theorem import_again_iff_of_fresh (h : ∀ t ∈ external, t.symbol ≠ "") (hne : external ≠ [])
    (hseen : ∀ t ∈ external, isDuplicate r.trades t = false)
    (hpair : external.Pairwise fun t u => looksLike t u = false)
    (hcloses : ∀ e ∈ closes, ∀ t ∈ external, looksLike e.2 t = false) :
    CountsOnce cfg now now' external closes r ↔
      closes = [] ∨ external.length + closes.length ≤ 2000 := by
  have hnew : newTrades r.trades external = external := additions_eq_self hseen hpair
  rw [countsOnce_iff_duplicate h, trades_importAnd h, hnew]
  by_cases hnil : closes = []
  · rw [if_pos hnil]
    refine iff_of_true (fun t ht => ?_) (.inl hnil)
    exact knows_of_mem (looksLike_self t) (List.mem_append_right _ ht)
  · rw [if_neg hnil, or_iff_right hnil]
    constructor
    · intro hknown
      by_contra hlong
      -- the first of them is the first to go
      obtain ⟨t, rest, rfl⟩ := List.exists_cons_of_ne_nil hne
      have hpushed : isDuplicate (Shared.capTrades
          (r.trades ++ t :: (rest ++ closes.map fun e => e.2))) t = false := by
        refine not_isDuplicate_of_pushed ?_ fun u hu => ?_
        · simp only [List.length_cons] at hlong
          rw [List.length_append, List.length_map]
          omega
        · rcases List.mem_append.1 hu with hu | hu
          · rw [looksLike_comm]
            exact (List.pairwise_cons.1 hpair).1 u hu
          · obtain ⟨e, he, rfl⟩ := List.mem_map.1 hu
            exact hcloses e he t List.mem_cons_self
      have hdup := hknown t List.mem_cons_self
      rw [List.append_assoc, List.cons_append, hpushed] at hdup
      exact Bool.false_ne_true hdup
    · intro hshort t ht
      refine knows_of_mem (looksLike_self t) ?_
      rw [Shared.capTrades_eq, ShadowTracker.capTrades, List.append_assoc,
        List.drop_append_of_le_length (by simp; omega)]
      exact List.mem_append_right _ (List.mem_append_left _ ht)

/-! ## At work -/

/-- A trade from outside. -/
def outsideTrade : TradeRecord :=
  { TradeRecord.blank with
    symbol := "BTCUSDT"
    entryPrice := 100
    exitPrice := 110
    quantity := 1
    pnl := 10 }

/-- The trade of a close of another symbol. -/
def laterTrade : TradeRecord := { TradeRecord.blank with symbol := "ETHUSDT" }

theorem import_again_iff_empty : CountsOnce {} (fun _ => 0) (fun _ => 60) [outsideTrade]
      [(30, laterTrade)] {} ↔
    [(30, laterTrade)] = [] ∨ ∀ t ∈ [outsideTrade], isDuplicate (Shared.capTrades
      ([] ++ newTrades [] [outsideTrade] ++ [(30, laterTrade)].map fun e => e.2)) t = true :=
  import_again_iff {} _ _ _ _ {} (by decide)

/-- **Two thousand closes push an imported trade off the list**: the second
time it is taken in again, and the learner counts two trades. -/
theorem imported_twice :
    let closes : TimedTrades := List.replicate 2000 (30, laterTrade)
    let again := importTrades {} (fun _ => 60) [outsideTrade]
      (importAnd {} (fun _ => 0) [outsideTrade] closes {})
    again.2 = 1 ∧
      (again.1.learner.lookup (Learner.makeKey "BTCUSDT" "")).map (·.totalTrades) = some 2 := by
  intro closes again
  have hsymbol : ∀ t ∈ [outsideTrade], t.symbol ≠ "" := by decide
  have hcloses : ∀ e ∈ closes, e = (30, laterTrade) := fun e he => List.eq_of_mem_replicate he
  have hpushed : newTrades (importAnd {} (fun _ => 0) [outsideTrade] closes {}).trades
      [outsideTrade] = [outsideTrade] := by
    refine newTrades_of_pushed (by decide) rfl List.length_replicate.ge fun e he => ?_
    rw [hcloses e he]
    decide +kernel
  have hsecond : again = _ := importTrades_eq hsymbol
  have hother : ∀ e ∈ closes, Learner.makeKey e.2.symbol e.2.timeframe ≠
      Learner.makeKey "BTCUSDT" "" := by
    intro e he
    rw [hcloses e he]
    decide
  have htold : ∀ (n : ℕ) (learner : Learner),
      learner.told {} (timed (fun _ => n) 0 [outsideTrade]) =
        learner.insert (Learner.makeKey "BTCUSDT" "")
          (((learner.lookup (Learner.makeKey "BTCUSDT" "")).getD {}).recordTrade {} n
            outsideTrade) := fun n learner => rfl
  rw [hsecond, hpushed]
  refine ⟨rfl, ?_⟩
  dsimp only
  rw [learner_importAnd hsymbol, Learner.told_append, htold, AList.lookup_insert,
    Learner.lookup_told hother, show newTrades [] [outsideTrade] = [outsideTrade] from rfl, htold,
    AList.lookup_insert]
  decide +kernel

end TradeRecorder

end WebhookTrader
