import WebhookTrader.Persistence.Model.StateFile

/-!
# What the state file keeps

A position is written without the time it was opened at, and a trade
without its realized figures, so a restart loses just these. Whatever
else is saved comes back as it was.
-/

namespace WebhookTrader

/-- What a position comes back as. -/
def ManagedPosition.restored (p : ManagedPosition) : ManagedPosition :=
  { p with openedAt := 0, leverage := (p.leverage.bmod (2 ^ 64)).bmod (2 ^ 32) }

/-- What a trade comes back as. -/
def TradeRecord.restored (t : TradeRecord) : TradeRecord :=
  { t with grossPnl := 0, netPnl := 0, feeCost := 0, realizedRr := 0 }

theorem ManagedPosition.fromJson_toJson (p : ManagedPosition) :
    ManagedPosition.fromJson p.toJson = .ok p.restored := rfl

theorem TradeRecord.fromJson_toJson (t : TradeRecord) :
    TradeRecord.fromJson t.toJson = t.restored := rfl

/-- A position comes back as it was where it was opened at the epoch. -/
theorem ManagedPosition.restored_eq_iff {p : ManagedPosition} (hlow : -(2 ^ 31) ≤ p.leverage)
    (hhigh : p.leverage < 2 ^ 31) : p.restored = p ↔ p.openedAt = 0 := by
  have hleverage : (p.leverage.bmod (2 ^ 64)).bmod (2 ^ 32) = p.leverage := by
    rw [Int.bmod_eq_of_le (n := p.leverage) (by norm_num; omega) (by norm_num; omega),
      Int.bmod_eq_of_le (by norm_num; omega) (by norm_num; omega)]
  rw [restored, hleverage]
  constructor
  · intro heq
    exact (congrArg ManagedPosition.openedAt heq).symm
  · intro hopened
    rw [← hopened]

/-- A trade comes back as it was where it has no realized figures. -/
theorem TradeRecord.restored_eq_iff {t : TradeRecord} :
    t.restored = t ↔ t.grossPnl = 0 ∧ t.netPnl = 0 ∧ t.feeCost = 0 ∧ t.realizedRr = 0 := by
  constructor
  · intro heq
    exact ⟨(congrArg grossPnl heq).symm, (congrArg netPnl heq).symm, (congrArg feeCost heq).symm,
      (congrArg realizedRr heq).symm⟩
  · rintro ⟨hgross, hnet, hfee, hrr⟩
    obtain ⟨_, _, _, _, _, _, _, _, _, _, _, _, _, _, _⟩ := t
    dsimp only at hgross hnet hfee hrr
    subst hgross hnet hfee hrr
    rfl

namespace SavedState

variable {s : SavedState} {savedAt : String} {disk : StateDisk}

/-- **What a saved state comes back as.** -/
structure RestoredAs (s loaded : SavedState) : Prop where
  balance : loaded.balance = s.balance
  peakBalance : loaded.peakBalance = s.peakBalance
  ordersExecuted : loaded.ordersExecuted = s.ordersExecuted % 2 ^ 64
  trades : loaded.trades = (lastTrades s.trades).map TradeRecord.restored
  positions : ∀ key,
    loaded.positions.lookup key = (s.positions.lookup key).map ManagedPosition.restored

/-- A counter written as an integer comes back modulo 2^64. -/
theorem getUInt64_natCast (n : ℕ) : Json.getUInt64 (.int n) = .ok (n % 2 ^ 64) := by
  rw [Json.getUInt64]
  norm_cast

/-- The trades' texts are read one by one. -/
theorem map_fromJson_elements (trades : List TradeRecord) :
    ((Json.arr (trades.map TradeRecord.toJson)).elements).map TradeRecord.fromJson =
      trades.map TradeRecord.restored := by
  simp [Json.elements, Json.items, List.map_map, Function.comp_def,
    TradeRecord.fromJson_toJson]

/-- The document of a saved state is read back. -/
theorem fromJson_toJson (savedAt : String) (s : SavedState) :
    ∃ loaded, fromJson (s.toJson savedAt) = .ok loaded ∧ s.RestoredAs loaded := by
  obtain ⟨hok, hlookup⟩ :=
    Table.readEach_toPairs ManagedPosition.fromJson_toJson s.positions
  have hbalance : (s.toJson savedAt).value Json.getDouble "balance" 0 = .ok s.balance := rfl
  have hpeak : (s.toJson savedAt).value Json.getDouble "peak_balance" 0 = .ok s.peakBalance := rfl
  have horders : (s.toJson savedAt).value Json.getUInt64 "orders_executed" 0 =
      Json.getUInt64 (.int s.ordersExecuted) := rfl
  have hpositions : (s.toJson savedAt).find? "positions" =
      some (.obj (s.positions.toPairs ManagedPosition.toJson)) := rfl
  have htrades : (s.toJson savedAt).find? "trades" =
      some (.arr ((lastTrades s.trades).map TradeRecord.toJson)) := rfl
  have hread : fromJson (s.toJson savedAt) = .ok
      { balance := s.balance
        peakBalance := s.peakBalance
        positions := (Table.readEach ManagedPosition.fromJson
          (s.positions.toPairs ManagedPosition.toJson) ∅).1
        trades := (lastTrades s.trades).map TradeRecord.restored
        ordersExecuted := s.ordersExecuted % 2 ^ 64 } := by
    rw [fromJson, hbalance, hpeak, horders, getUInt64_natCast, hpositions, htrades]
    simp only [Json.items, hok, map_fromJson_elements]
    rfl
  exact ⟨_, hread, rfl, rfl, rfl, by dsimp only, hlookup⟩

/-! ## The round trip -/

/-- **A loaded state is the saved one**: the numbers, the trades, and what is
under every position's key. -/
structure SameAs (s loaded : SavedState) : Prop where
  balance : loaded.balance = s.balance
  peakBalance : loaded.peakBalance = s.peakBalance
  ordersExecuted : loaded.ordersExecuted = s.ordersExecuted
  trades : loaded.trades = s.trades
  positions : ∀ key, loaded.positions.lookup key = s.positions.lookup key

/-- The state's machine integers are in their range. -/
structure Fits (s : SavedState) : Prop where
  ordersExecuted : s.ordersExecuted < 2 ^ 64
  leverage : ∀ key p, s.positions.lookup key = some p → -(2 ^ 31) ≤ p.leverage ∧ p.leverage < 2 ^ 31

/-- What is loaded after a save is what was saved, as it is restored. -/
theorem load_save (disk : StateDisk) (savedAt : String) (s : SavedState) :
    ∃ loaded, (disk.save savedAt s).load = some loaded ∧ s.RestoredAs loaded := by
  obtain ⟨loaded, hread, hrestored⟩ := fromJson_toJson savedAt s
  refine ⟨loaded, ?_, hrestored⟩
  have hcontains : ((s.toJson savedAt).contains "balance" &&
      (s.toJson savedAt).contains "positions") = true := rfl
  have hload : StateFile.tryLoad (.document (s.toJson savedAt)) = some loaded := by
    rw [StateFile.tryLoad, if_pos hcontains, hread]
    rfl
  rw [StateDisk.load, StateDisk.save, hload]
  rfl

/-- At most 2000 trades are all written. -/
theorem lastTrades_eq (h : s.trades.length ≤ 2000) : lastTrades s.trades = s.trades := by
  rw [lastTrades, Nat.sub_eq_zero_of_le h, List.drop_zero]

/-- The positions come back as they were where each was opened at the
epoch. -/
theorem RestoredAs.positions_iff {loaded : SavedState} (h : s.RestoredAs loaded) (hfits : s.Fits) :
    (∀ key, loaded.positions.lookup key = s.positions.lookup key) ↔
      ∀ key p, s.positions.lookup key = some p → p.openedAt = 0 := by
  refine ⟨fun hsame key p hp => ?_, fun hopened key => ?_⟩
  · obtain ⟨hlow, hhigh⟩ := hfits.leverage key p hp
    have hp' := h.positions key
    rw [hsame key, hp, Option.map_some, Option.some.injEq] at hp'
    exact (ManagedPosition.restored_eq_iff hlow hhigh).1 hp'.symm
  · rw [h.positions key]
    cases hp : s.positions.lookup key with
    | none => rfl
    | some p =>
        obtain ⟨hlow, hhigh⟩ := hfits.leverage key p hp
        rw [Option.map_some, (ManagedPosition.restored_eq_iff hlow hhigh).2 (hopened key p hp)]

/-- The trades come back as they were where none has realized figures. -/
theorem RestoredAs.trades_iff {loaded : SavedState} (h : s.RestoredAs loaded)
    (hlength : s.trades.length ≤ 2000) : loaded.trades = s.trades ↔
      ∀ t ∈ s.trades, t.grossPnl = 0 ∧ t.netPnl = 0 ∧ t.feeCost = 0 ∧ t.realizedRr = 0 := by
  rw [h.trades, lastTrades_eq hlength]
  calc s.trades.map TradeRecord.restored = s.trades
      ↔ s.trades.map TradeRecord.restored = s.trades.map id := by rw [List.map_id]
    _ ↔ ∀ t ∈ s.trades, t.restored = id t := List.map_inj_left
    _ ↔ _ := forall₂_congr fun t _ => TradeRecord.restored_eq_iff

/-- **A restored paper position expires** at the first reconciliation,
however young it was. -/
theorem restored_isGhost {p : ManagedPosition} {now : Clock} {ex : ExchangeMap}
    (hex : ex.holds p.tag = false) (hnow : Book.paperLifetime ≤ now.system) :
    Book.isGhost now ex p.restored = true := by
  have htag : p.restored.tag = p.tag := rfl
  have hopened : p.restored.openedAt = 0 := rfl
  simp [Book.isGhost, htag, hopened, hex, hnow]

/-- **A save and a load are a round trip** just where no position has a time
it was opened at and no trade has realized figures. -/
theorem roundTrip_iff (disk : StateDisk) (savedAt : String) (s : SavedState) (hfits : s.Fits)
    (hlength : s.trades.length ≤ 2000) :
    (∃ loaded, (disk.save savedAt s).load = some loaded ∧ s.SameAs loaded) ↔
      (∀ key p, s.positions.lookup key = some p → p.openedAt = 0) ∧
        ∀ t ∈ s.trades, t.grossPnl = 0 ∧ t.netPnl = 0 ∧ t.feeCost = 0 ∧ t.realizedRr = 0 := by
  obtain ⟨loaded, hload, hrestored⟩ := load_save disk savedAt s
  rw [← hrestored.positions_iff hfits, ← hrestored.trades_iff hlength]
  constructor
  · rintro ⟨loaded', hload', hsame⟩
    obtain rfl : loaded = loaded' := Option.some.inj (hload.symm.trans hload')
    exact ⟨hsame.positions, hsame.trades⟩
  · rintro ⟨hpositions, htrades⟩
    have horders : loaded.ordersExecuted = s.ordersExecuted :=
      hrestored.ordersExecuted.trans (Nat.mod_eq_of_lt hfits.ordersExecuted)
    exact ⟨loaded, hload, hrestored.balance, hrestored.peakBalance, horders, htrades, hpositions⟩

/-! ### A minute-old paper position -/

section Example

/-- A paper position opened at 1700000000. -/
def paper : ManagedPosition where
  symbol := "BTCUSDT"
  timeframe := "1h"
  side := "long"
  entryPrice := 100
  quantity := 1
  tier := "A"
  openedAt := 1700000000

/-- A state with one position. -/
def holding (p : ManagedPosition) : SavedState where
  balance := 1000
  peakBalance := 1000
  positions := AList.insert "BTCUSDT_1h_1" p ∅
  trades := []
  ordersExecuted := 1

/-- Only this key is occupied. -/
theorem lookup_holding {p q : ManagedPosition} {key : String}
    (h : (holding p).positions.lookup key = some q) : q = p := by
  rw [holding] at h
  by_cases hkey : key = "BTCUSDT_1h_1"
  · subst hkey
    rw [AList.lookup_insert] at h
    exact (Option.some.inj h).symm
  · rw [AList.lookup_insert_ne hkey, AList.lookup_empty] at h
    exact absurd h (Option.some_ne_none q).symm

theorem fits_holding : (holding { paper with openedAt := 0 }).Fits := by
  refine ⟨by simp [holding], fun key p hp => ?_⟩
  rw [lookup_holding hp]
  decide

/-- A position opened at the epoch makes the round trip. -/
theorem roundTrip_epoch :
    (∃ loaded, ((({} : StateDisk).save "" (holding { paper with openedAt := 0 })).load =
      some loaded ∧ (holding { paper with openedAt := 0 }).SameAs loaded)) := by
  refine (roundTrip_iff {} "" _ fits_holding (Nat.zero_le _)).2 ⟨fun key p hp => ?_, ?_⟩
  · rw [lookup_holding hp]
  · exact fun t ht => absurd ht List.not_mem_nil

/-- **A minute-old paper position comes back with no opening time**, and the
first reconciliation takes it for one that has outlived its four hours. -/
theorem opening_time_lost :
    (¬ ∃ loaded, (({} : StateDisk).save "" (holding paper)).load = some loaded ∧
      (holding paper).SameAs loaded) ∧
    (∃ loaded p, (({} : StateDisk).save "" (holding paper)).load = some loaded ∧
      loaded.positions.lookup "BTCUSDT_1h_1" = some p ∧ p.openedAt = 0 ∧
      Book.isGhost { system := 1700000060 } ∅ paper = false ∧
      Book.isGhost { system := 1700000060 } ∅ p = true) := by
  obtain ⟨loaded, hload, hrestored⟩ := load_save {} "" (holding paper)
  have hlookup : loaded.positions.lookup "BTCUSDT_1h_1" = some paper.restored := by
    rw [hrestored.positions, holding, AList.lookup_insert]
    rfl
  refine ⟨?_, loaded, paper.restored, hload, hlookup, rfl, by decide, by decide⟩
  rintro ⟨loaded', hload', hsame⟩
  obtain rfl : loaded = loaded' := Option.some.inj (hload.symm.trans hload')
  have hsame' := hsame.positions "BTCUSDT_1h_1"
  rw [hlookup, holding, AList.lookup_insert, Option.some.injEq] at hsame'
  exact absurd (congrArg ManagedPosition.openedAt hsame') (by decide)

end Example

end SavedState

end WebhookTrader
