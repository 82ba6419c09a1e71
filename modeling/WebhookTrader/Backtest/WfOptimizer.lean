import WebhookTrader.Backtest.Model.WfOptimizer
import WebhookTrader.Common.Printed

/-!
# What the walk-forward optimizer recommends

With too few signals the optimizer recommends what the search of the grid
found. With enough it rolls its windows, where at least one fits: their
parts are raised to their minima after their sum has been fixed, so that
they may outgrow it and the signals. Of the pairs that were best it
recommends one that is best most often once the amounts are cut to
integers; that pair need not have been tried.
-/

namespace WebhookTrader

/-- An order that begins with a text, where it is counted. -/
def MapOrder.beginning (key : String) : MapOrder where
  visit t :=
    let pairs := t.entries.map fun e => (e.1, e.2)
    match pairs.find? fun e => e.1 = key with
    | some e => e :: pairs.erase e
    | none => pairs
  perm t := by
    dsimp only
    split
    · next e he => exact (List.perm_cons_erase (List.mem_of_find?_eq_some he)).symm
    · exact .refl _

namespace WFConfig

variable {cfg : WFConfig} {sharpe : List ℚ → ℚ} {order : MapOrder} {signals : List BtSignal}

/-- **A configuration with something to try**: its grids are not empty, its
numbers are positive, and its leverages are `int`s. -/
structure Sound (cfg : WFConfig) : Prop where
  amounts : cfg.amountGrid ≠ []
  leverages : cfg.leverageGrid ≠ []
  ratio : 0 < cfg.isRatio ∧ cfg.isRatio < 1
  minima : 0 < cfg.minIsSignals ∧ 0 < cfg.minOosSignals
  ints : ∀ l ∈ cfg.leverageGrid, -(2 ^ 31) ≤ l ∧ l < 2 ^ 31

/-! ## The grid -/

/-- The pair that a search has found. -/
def GridResult.pair (best : GridResult) : ℚ × ℤ := (best.amount, best.leverage)

theorem mem_grid {pair : ℚ × ℤ} :
    pair ∈ cfg.grid ↔ pair.1 ∈ cfg.amountGrid ∧ pair.2 ∈ cfg.leverageGrid := by
  obtain ⟨amount, leverage⟩ := pair
  simp [grid]

theorem headD_mem {α : Type} {xs : List α} (h : xs ≠ []) (x : α) : xs.headD x ∈ xs := by
  cases xs with
  | nil => exact absurd rfl h
  | cons y xs => exact List.mem_cons_self

/-- **What is found is in the grid.** -/
theorem pair_gridSearch_mem (hcfg : cfg.Sound) (signals : List BtSignal) :
    (cfg.gridSearch sharpe signals).pair ∈ cfg.grid := by
  -- the best so far is in the grid, and stays there
  have hfold : ∀ (pairs : List (ℚ × ℤ)) (best : GridResult), (∀ pair ∈ pairs, pair ∈ cfg.grid) →
      best.pair ∈ cfg.grid → (pairs.foldl (cfg.tryPair sharpe signals) best).pair ∈ cfg.grid := by
    intro pairs
    induction pairs with
    | nil => exact fun _ _ hbest => hbest
    | cons pair pairs ih =>
        intro best hpairs hbest
        refine ih _ (fun p hp => hpairs p (List.mem_cons_of_mem _ hp)) ?_
        unfold tryPair
        dsimp only
        split_ifs
        · exact hpairs pair List.mem_cons_self
        · exact hbest
  refine hfold _ _ (fun _ h => h) (mem_grid.2 ⟨?_, ?_⟩)
  · exact headD_mem hcfg.amounts 0
  · exact headD_mem hcfg.leverages 0

/-! ## The windows -/

/-- Whether the two parts of a window fit into the signals. -/
def Fits (cfg : WFConfig) (signals : List BtSignal) : Prop :=
  cfg.isSize signals.length + cfg.oosSize signals.length ≤ signals.length

/-- Where the windows begin. -/
def starts (cfg : WFConfig) (n : ℤ) : ℕ → ℤ → List ℤ
  | 0, _ => []
  | passes + 1, start =>
      if start + cfg.isSize n + cfg.oosSize n ≤ n then
        start :: starts cfg n passes (start + cfg.step n)
      else []

/-- **The pairs that are best** for the first parts of the windows. -/
def bestPairs (cfg : WFConfig) (sharpe : List ℚ → ℚ) (signals : List BtSignal) : List (ℚ × ℤ) :=
  (cfg.starts signals.length (signals.length + 1) 0).map fun start =>
    (cfg.gridSearch sharpe (slice signals start (start + cfg.isSize signals.length))).pair

theorem pairs_windows : (cfg.windows sharpe signals).map (fun w => (w.bestAmount, w.bestLeverage)) =
    cfg.bestPairs sharpe signals := by
  have hroll : ∀ passes id start,
      (cfg.roll sharpe signals passes id start).map (fun w => (w.bestAmount, w.bestLeverage)) =
        (cfg.starts signals.length passes start).map fun start => (cfg.gridSearch sharpe
          (slice signals start (start + cfg.isSize signals.length))).pair := by
    intro passes
    induction passes with
    | zero => exact fun _ _ => rfl
    | succ passes ih =>
        intro id start
        unfold roll starts
        dsimp only
        split_ifs
        · rw [List.map_cons, List.map_cons, ih]
          rfl
        · rfl
  exact hroll _ _ _

section Rolling

variable (hminima : 0 < cfg.minIsSignals ∧ 0 < cfg.minOosSignals)
include hminima

theorem size_pos (n : ℤ) : 0 < cfg.isSize n ∧ 0 < cfg.oosSize n :=
  ⟨hminima.1.trans_le (le_max_right _ _), hminima.2.trans_le (le_max_right _ _)⟩

theorem step_pos (n : ℤ) : 0 < cfg.step n := by
  unfold step
  split_ifs with hstep
  · exact hstep
  · exact (size_pos hminima n).2

/-- **As many passes as signals are enough**: a loop of more stops where one
of so many does. -/
theorem roll_more (more : ℕ) {passes : ℕ} {id start : ℤ}
    (h : signals.length < start + passes) :
    cfg.roll sharpe signals (passes + more) id start = cfg.roll sharpe signals passes id start := by
  obtain ⟨his, hoos⟩ := size_pos hminima signals.length
  have hstep := step_pos hminima signals.length
  induction passes generalizing id start with
  | zero =>
      cases more with
      | zero => rfl
      | succ more =>
          -- past the last signal no window fits
          have hout : ¬ start + cfg.isSize signals.length + cfg.oosSize signals.length ≤
              signals.length := by
            push_cast at h
            omega
          rw [Nat.zero_add]
          exact if_neg hout
  | succ passes ih =>
      rw [Nat.succ_add]
      unfold roll
      dsimp only
      split_ifs
      · rw [ih]
        push_cast at h ⊢
        omega
      · rfl

end Rolling

/-- **There are windows** just where the first one fits. -/
theorem windows_eq_nil_iff : cfg.windows sharpe signals = [] ↔ ¬ cfg.Fits signals := by
  unfold windows roll Fits
  dsimp only
  rw [zero_add]
  by_cases hfits : cfg.isSize signals.length + cfg.oosSize signals.length ≤ signals.length
  · rw [if_pos hfits]
    exact iff_of_false (List.cons_ne_nil _ _) (not_not.2 hfits)
  · rw [if_neg hfits]
    exact iff_of_true rfl hfits

/-! ## The texts -/

theorem castInt_mem (x : ℚ) : -(2 ^ 31) ≤ castInt x ∧ castInt x < 2 ^ 31 := by
  have hlow := Int.le_bmod (x := Json.truncate x) (m := 2 ^ 32) (by decide)
  have hhigh := Int.bmod_lt (x := Json.truncate x) (m := 2 ^ 32) (by decide)
  unfold castInt
  constructor
  · exact_mod_cast hlow
  · exact_mod_cast hhigh

/-- A printed integer has no underscore. -/
theorem underscore_notMem (z : ℤ) : ∀ c ∈ (toString z).toList, decide (c ≠ '_') = true := by
  intro c hc
  rw [Cxx.toList_toString] at hc
  have hdigit : ∀ c ∈ Nat.toDigits 10 z.natAbs, c ≠ '_' := fun c hc =>
    Cxx.ne_of_isDigit (Cxx.isDigit_of_mem hc) rfl
  split_ifs at hc
  · rcases List.mem_cons.1 hc with rfl | hc
    · rfl
    · exact decide_eq_true (hdigit c hc)
  · exact decide_eq_true (hdigit c hc)

/-- **The text of a pair is read back**, with the amount cut to an integer. -/
theorem readKey_paramKey {w : WFWindowResult}
    (hint : -(2 ^ 31) ≤ w.bestLeverage ∧ w.bestLeverage < 2 ^ 31) :
    readKey (paramKey w) = .ok ((castInt w.bestAmount : ℚ), w.bestLeverage) := by
  have hsplit : splitKey (paramKey w) =
      (toString (castInt w.bestAmount), toString w.bestLeverage) := by
    have hlist : (paramKey w).toList = (toString (castInt w.bestAmount)).toList ++
        ('_' :: (toString w.bestLeverage).toList) := by
      unfold paramKey
      rw [String.toList_append, String.toList_append, List.append_assoc]
      rfl
    unfold splitKey
    rw [hlist, List.takeWhile_append_of_pos (underscore_notMem _),
      List.dropWhile_append_of_pos (underscore_notMem _),
      List.takeWhile_cons_of_neg (by decide), List.dropWhile_cons_of_neg (by decide),
      List.append_nil, List.drop_one, List.tail_cons, String.ofList_toList, String.ofList_toList]
  rw [readKey, hsplit, Cxx.stod_toString (castInt_mem _), Cxx.stoi_toString hint]
  rfl

/-! ## The most frequent text -/

section MostFrequent

variable {pairOf : String → ℚ × ℤ} {visited : List (String × ℕ)} {maxFreq : ℕ} {pair : ℚ × ℤ}

/-- Counts that are not higher change nothing. -/
theorem mostFrequent_of_le (h : ∀ e ∈ visited, e.2 ≤ maxFreq) :
    mostFrequent visited maxFreq pair = .ok pair := by
  induction visited with
  | nil => rfl
  | cons e visited ih =>
      obtain ⟨key, freq⟩ := e
      have hfirst : ¬ maxFreq < freq := not_lt.2 (h (key, freq) List.mem_cons_self)
      rw [mostFrequent, if_neg hfirst]
      exact ih fun e he => h e (List.mem_cons_of_mem _ he)

/-- **A text with the highest count is taken**, whichever comes first. -/
theorem mostFrequent_spec (maxFreq : ℕ) (pair : ℚ × ℤ)
    (hread : ∀ e ∈ visited, readKey e.1 = .ok (pairOf e.1)) :
    ∃ p, mostFrequent visited maxFreq pair = .ok p ∧
      ((p = pair ∧ ∀ e ∈ visited, e.2 ≤ maxFreq) ∨
        ∃ e ∈ visited, p = pairOf e.1 ∧ maxFreq < e.2 ∧ ∀ e' ∈ visited, e'.2 ≤ e.2) := by
  induction visited generalizing maxFreq pair with
  | nil => exact ⟨pair, rfl, .inl ⟨rfl, fun e he => absurd he List.not_mem_nil⟩⟩
  | cons e visited ih =>
      obtain ⟨key, freq⟩ := e
      have hrest : ∀ e ∈ visited, readKey e.1 = .ok (pairOf e.1) := fun e he =>
        hread e (List.mem_cons_of_mem _ he)
      rw [mostFrequent]
      by_cases hmore : maxFreq < freq
      · have hkey : readKey key = .ok (pairOf key) := hread (key, freq) List.mem_cons_self
        obtain ⟨p, hp, hcases⟩ := ih freq (pairOf key) hrest
        refine ⟨p, ?_, .inr ?_⟩
        · rw [if_pos hmore, hkey]
          exact hp
        · rcases hcases with ⟨rfl, hle⟩ | ⟨e, he, hpe, hlt, hle⟩
          · refine ⟨(key, freq), List.mem_cons_self, rfl, hmore, fun e he => ?_⟩
            rcases List.mem_cons.1 he with rfl | he
            · exact le_rfl
            · exact hle e he
          · refine ⟨e, List.mem_cons_of_mem _ he, hpe, hmore.trans hlt, fun e' he' => ?_⟩
            rcases List.mem_cons.1 he' with rfl | he'
            · exact hlt.le
            · exact hle e' he'
      · rw [if_neg hmore]
        obtain ⟨p, hp, hcases⟩ := ih maxFreq pair hrest
        refine ⟨p, hp, ?_⟩
        rcases hcases with ⟨rfl, hle⟩ | ⟨e, he, hpe, hlt, hle⟩
        · refine .inl ⟨rfl, fun e he => ?_⟩
          rcases List.mem_cons.1 he with rfl | he
          · exact not_lt.1 hmore
          · exact hle e he
        · refine .inr ⟨e, List.mem_cons_of_mem _ he, hpe, hlt, fun e' he' => ?_⟩
          rcases List.mem_cons.1 he' with rfl | he'
          · exact (not_lt.1 hmore).trans hlt.le
          · exact hle e' he'

end MostFrequent

/-! ## The recommendation -/

/-- A pair with its amount cut to an integer. -/
def cut (pair : ℚ × ℤ) : ℤ × ℤ := (castInt pair.1, pair.2)

/-- The pair that a window has tried. -/
def pairOf (w : WFWindowResult) : ℚ × ℤ := (w.bestAmount, w.bestLeverage)

/-- **The most frequent** of some elements. -/
def MostFrequent {α : Type} [BEq α] (xs : List α) (x : α) : Prop :=
  x ∈ xs ∧ ∀ y ∈ xs, xs.count y ≤ xs.count x

theorem foldl_succ_eq_length {α : Type} (xs : List α) (n : ℕ) :
    xs.foldl (fun n _ => n + 1) n = n + xs.length := by
  induction xs generalizing n with
  | nil => rfl
  | cons x xs ih =>
      rw [List.foldl_cons, ih, List.length_cons]
      omega

/-- The windows are of leverages that are `int`s. -/
def Ints (windows : List WFWindowResult) : Prop :=
  ∀ w ∈ windows, -(2 ^ 31) ≤ w.bestLeverage ∧ w.bestLeverage < 2 ^ 31

variable {windows : List WFWindowResult} {w w' : WFWindowResult}

/-- Two windows have one text just where their pairs are cut to the same. -/
theorem paramKey_eq_iff (hints : Ints windows) (hw : w ∈ windows) (hw' : w' ∈ windows) :
    paramKey w = paramKey w' ↔ cut (pairOf w) = cut (pairOf w') := by
  constructor
  · intro hkey
    have hread := (readKey_paramKey (hints w hw)).symm.trans
      ((congrArg readKey hkey).trans (readKey_paramKey (hints w' hw')))
    obtain ⟨hamount, hleverage⟩ := Prod.mk.inj (Except.ok.inj hread)
    exact Prod.ext (by exact_mod_cast hamount) hleverage
  · intro hcut
    obtain ⟨hamount, hleverage⟩ := Prod.mk.inj hcut
    have hamount : castInt w.bestAmount = castInt w'.bestAmount := hamount
    have hleverage : w.bestLeverage = w'.bestLeverage := hleverage
    unfold paramKey
    rw [hamount, hleverage]

/-- **The counts** are those of the pairs cut to integers. -/
theorem mem_paramFreq (hints : Ints windows) {e : Sigma fun _ : String => ℕ} :
    e ∈ (paramFreq windows).entries ↔ ∃ w ∈ windows, e.1 = paramKey w ∧
      e.2 = ((windows.map pairOf).map cut).count (cut (pairOf w)) := by
  have hcount : ∀ w ∈ windows, (windows.filter fun x => paramKey x = paramKey w).foldl
      (fun freq _ => freq + 1) 0 = ((windows.map pairOf).map cut).count (cut (pairOf w)) := by
    intro w hw
    rw [foldl_succ_eq_length, zero_add, ← List.countP_eq_length_filter, List.map_map, List.count,
      List.countP_map]
    refine List.countP_congr fun x hx => ?_
    simp only [decide_eq_true_eq, Function.comp_apply, beq_iff_eq]
    exact paramKey_eq_iff hints hx hw
  rw [paramFreq, Table.mem_tally]
  constructor
  · rintro ⟨⟨w, hw, hkey⟩, hfreq⟩
    rw [← hkey, hcount w hw] at hfreq
    exact ⟨w, hw, hkey.symm, hfreq⟩
  · rintro ⟨w, hw, hkey, hfreq⟩
    refine ⟨⟨w, hw, hkey.symm⟩, ?_⟩
    rw [hkey, hcount w hw]
    exact hfreq

/-- What a text of the counts is read as. -/
theorem readKey_visited (hints : Ints windows) {e : String × ℕ}
    (he : e ∈ order.visit (paramFreq windows)) :
    ∃ w ∈ windows, readKey e.1 = .ok ((castInt w.bestAmount : ℚ), w.bestLeverage) ∧
      e.1 = paramKey w ∧ e.2 = ((windows.map pairOf).map cut).count (cut (pairOf w)) := by
  obtain ⟨entry, hentry, rfl⟩ := List.mem_map.1 ((order.perm _).mem_iff.1 he)
  obtain ⟨w, hw, hkey, hfreq⟩ := (mem_paramFreq hints).1 hentry
  refine ⟨w, hw, ?_, hkey, hfreq⟩
  show readKey entry.1 = _
  rw [hkey]
  exact readKey_paramKey (hints w hw)

/-- **A pair that is most frequent once it is cut is recommended**, in every
order. -/
theorem mostFrequent_visited (hints : Ints windows) (hsome : windows ≠ []) (order : MapOrder) :
    ∃ k, MostFrequent ((windows.map pairOf).map cut) k ∧
      mostFrequent (order.visit (paramFreq windows)) 0 (0, 0) = .ok ((k.1 : ℚ), k.2) := by
  let readOr : String → ℚ × ℤ := fun key => match readKey key with
    | .ok pair => pair
    | .error _ => (0, 0)
  have hread : ∀ e ∈ order.visit (paramFreq windows), readKey e.1 = .ok (readOr e.1) := by
    intro e he
    obtain ⟨w, -, hok, -⟩ := readKey_visited hints he
    simp only [readOr, hok]
  have hvisited : ∀ w ∈ windows, (paramKey w, ((windows.map pairOf).map cut).count
      (cut (pairOf w))) ∈ order.visit (paramFreq windows) := fun w hw =>
    (order.perm _).mem_iff.2 (List.mem_map.2
      ⟨⟨paramKey w, _⟩, (mem_paramFreq hints).2 ⟨w, hw, rfl, rfl⟩, rfl⟩)
  have hmem : ∀ {w}, w ∈ windows → cut (pairOf w) ∈ (windows.map pairOf).map cut := fun hw =>
    List.mem_map_of_mem (List.mem_map_of_mem hw)
  obtain ⟨p, hp, ⟨-, hnone⟩ | ⟨e, he, hpe, -, hgreatest⟩⟩ :=
    mostFrequent_spec 0 (0, 0) hread
  · -- every text that is counted is counted at least once
    obtain ⟨w, hw⟩ := List.exists_mem_of_ne_nil windows hsome
    have hzero := hnone _ (hvisited w hw)
    exact absurd (List.count_pos_iff.2 (hmem hw)) (by omega)
  · obtain ⟨w, hw, hok, -, hfreq⟩ := readKey_visited hints he
    refine ⟨cut (pairOf w), ⟨hmem hw, fun k hk => ?_⟩, ?_⟩
    · obtain ⟨pair, hpair, rfl⟩ := List.mem_map.1 hk
      obtain ⟨w', hw', rfl⟩ := List.mem_map.1 hpair
      rw [← hfreq]
      exact hgreatest _ (hvisited w' hw')
    · rw [hp, hpe, ← hread e he, hok]
      rfl

/-- And each of them in some order. -/
theorem mostFrequent_beginning (hints : Ints windows) (hw : w ∈ windows)
    (hmost : MostFrequent ((windows.map pairOf).map cut) (cut (pairOf w))) :
    mostFrequent ((MapOrder.beginning (paramKey w)).visit (paramFreq windows)) 0 (0, 0) =
      .ok ((castInt w.bestAmount : ℚ), w.bestLeverage) := by
  let pairs := (paramFreq windows).entries.map fun e => (e.1, e.2)
  have hentry : (paramKey w, ((windows.map pairOf).map cut).count (cut (pairOf w))) ∈ pairs :=
    List.mem_map.2 ⟨⟨paramKey w, _⟩, (mem_paramFreq hints).2 ⟨w, hw, rfl, rfl⟩, rfl⟩
  obtain ⟨e, he⟩ : ∃ e, pairs.find? (fun e => e.1 = paramKey w) = some e := by
    rw [← Option.isSome_iff_exists, List.find?_isSome]
    exact ⟨_, hentry, decide_eq_true rfl⟩
  have hfirst : (MapOrder.beginning (paramKey w)).visit (paramFreq windows) =
      e :: pairs.erase e := by
    show (match pairs.find? (fun e => e.1 = paramKey w) with
      | some e => e :: pairs.erase e
      | none => pairs) = _
    rw [he]
  have hkey : e.1 = paramKey w := by simpa using List.find?_some he
  have hcounted : ∀ e' ∈ pairs, e'.2 ≤ ((windows.map pairOf).map cut).count (cut (pairOf w)) := by
    intro e' he'
    obtain ⟨entry, hin, rfl⟩ := List.mem_map.1 he'
    obtain ⟨w', hw', -, hfreq⟩ := (mem_paramFreq hints).1 hin
    show entry.2 ≤ _
    rw [hfreq]
    exact hmost.2 _ (List.mem_map_of_mem (List.mem_map_of_mem hw'))
  have hfreq : e.2 = ((windows.map pairOf).map cut).count (cut (pairOf w)) := by
    obtain ⟨entry, hin, rfl⟩ := List.mem_map.1 (List.mem_of_find?_eq_some he)
    obtain ⟨w', hw', hkey', hfreq'⟩ := (mem_paramFreq hints).1 hin
    have hcut := (paramKey_eq_iff hints hw' hw).1 (hkey'.symm.trans hkey)
    rw [← hcut]
    exact hfreq'
  have hpos : 0 < e.2 := hfreq ▸ List.count_pos_iff.2 hmost.1
  rw [hfirst, mostFrequent, if_pos hpos, hkey, readKey_paramKey (hints w hw)]
  exact mostFrequent_of_le fun e' he' => hfreq ▸ hcounted e' (List.mem_of_mem_erase he')

/-- **What is recommended of windows** is the most frequent text's pair. -/
theorem computeFinalResults_eq (cfg : WFConfig) {pair : ℚ × ℤ} (hsome : windows ≠ [])
    (hpair : mostFrequent (order.visit (paramFreq windows)) 0 (0, 0) = .ok pair) :
    ∃ r, cfg.computeFinalResults order windows = .ok r ∧ r.windows = windows ∧
      (r.recommendedAmount, r.recommendedLeverage) = pair := by
  unfold computeFinalResults
  rw [if_neg hsome, hpair]
  exact ⟨_, rfl, rfl, rfl⟩

/-- **A tested recommendation**: there are windows, and the pair that is
recommended is one of theirs and of the grid. -/
def Tested (cfg : WFConfig) (result : Except Exception WFResult) : Prop :=
  ∃ r, result = .ok r ∧ r.windows ≠ [] ∧
    (∃ w ∈ r.windows, (r.recommendedAmount, r.recommendedLeverage) = pairOf w) ∧
    (r.recommendedAmount, r.recommendedLeverage) ∈ cfg.grid

/-- **The cut pairs are tried**: each of the best pairs that is most frequent
once its amount is cut to an integer is best as it is cut. -/
def CutsAreTried (cfg : WFConfig) (sharpe : List ℚ → ℚ) (signals : List BtSignal) : Prop :=
  ∀ k, MostFrequent ((cfg.bestPairs sharpe signals).map cut) k →
    ((k.1 : ℚ), k.2) ∈ cfg.bestPairs sharpe signals

theorem pairOf_mem_grid (hcfg : cfg.Sound) {w : WFWindowResult}
    (hw : w ∈ cfg.windows sharpe signals) : pairOf w ∈ cfg.grid := by
  have hmem : pairOf w ∈ cfg.bestPairs sharpe signals := pairs_windows ▸ List.mem_map_of_mem hw
  obtain ⟨start, -, hpair⟩ := List.mem_map.1 hmem
  rw [← hpair]
  exact pair_gridSearch_mem hcfg _

theorem ints_windows (hcfg : cfg.Sound) : Ints (cfg.windows sharpe signals) := fun w hw =>
  hcfg.ints w.bestLeverage (mem_grid.1 (pairOf_mem_grid hcfg hw)).2

/-- Where the windows have room, the recommendation is tested in every order
just where the cut pairs are tried. -/
theorem tested_windows_iff (hcfg : cfg.Sound) (hfits : cfg.Fits signals) :
    (∀ order, Tested cfg (cfg.computeFinalResults order (cfg.windows sharpe signals))) ↔
      CutsAreTried cfg sharpe signals := by
  have hsome : cfg.windows sharpe signals ≠ [] := fun hnil => windows_eq_nil_iff.1 hnil hfits
  have hints : Ints (cfg.windows sharpe signals) := ints_windows hcfg
  have hpairs : (cfg.windows sharpe signals).map pairOf = cfg.bestPairs sharpe signals :=
    pairs_windows
  constructor
  · intro htested k hmost
    rw [← hpairs] at hmost ⊢
    obtain ⟨pair, hpair, rfl⟩ := List.mem_map.1 hmost.1
    obtain ⟨w, hw, rfl⟩ := List.mem_map.1 hpair
    -- an order that begins with the text of this window recommends its pair
    obtain ⟨r, hr, hwindows, hrecommended⟩ := computeFinalResults_eq cfg hsome
      (mostFrequent_beginning hints hw hmost)
    obtain ⟨r', hr', -, ⟨w', hw', hpair'⟩, -⟩ := htested (.beginning (paramKey w))
    obtain rfl : r = r' := Except.ok.inj (hr.symm.trans hr')
    rw [hrecommended] at hpair'
    rw [hwindows] at hw'
    exact List.mem_map.2 ⟨w', hw', hpair'.symm⟩
  · intro htried order
    obtain ⟨k, hmost, hpair⟩ := mostFrequent_visited hints hsome order
    obtain ⟨r, hr, hwindows, hrecommended⟩ := computeFinalResults_eq cfg hsome hpair
    rw [hpairs] at hmost
    have hmem := htried k hmost
    rw [← hpairs] at hmem
    obtain ⟨w, hw, hwpair⟩ := List.mem_map.1 hmem
    refine ⟨r, hr, hwindows.symm ▸ hsome,
      ⟨w, hwindows.symm ▸ hw, hrecommended.trans hwpair.symm⟩, ?_⟩
    rw [hrecommended, ← hwpair]
    exact pairOf_mem_grid hcfg hw

/-- Cutting an amount that is an integer leaves it as it is. -/
theorem cutsAreTried_of_whole (hcfg : cfg.Sound)
    (hwhole : ∀ amount ∈ cfg.amountGrid, (castInt amount : ℚ) = amount) :
    CutsAreTried cfg sharpe signals := by
  intro k hmost
  obtain ⟨pair, hpair, rfl⟩ := List.mem_map.1 hmost.1
  have hamount : pair.1 ∈ cfg.amountGrid := by
    obtain ⟨start, -, rfl⟩ := List.mem_map.1 hpair
    exact (mem_grid.1 (pair_gridSearch_mem hcfg _)).1
  show ((castInt pair.1 : ℚ), pair.2) ∈ _
  rw [hwhole _ hamount]
  exact hpair

theorem sound_default : Sound {} where
  amounts := List.cons_ne_nil _ _
  leverages := List.cons_ne_nil _ _
  ratio := by norm_num
  minima := by decide
  ints := by decide

/-- A signal that does nothing where there is no position. -/
def idleSignal : BtSignal := { alert := "sl", symbol := "BTCUSDT" }

/-- One amount with a fraction, and windows of two signals. -/
def halfConfig : WFConfig :=
  { minIsSignals := 1, minOosSignals := 1, amountGrid := [15 / 2], leverageGrid := [3] }

theorem sound_halfConfig : halfConfig.Sound where
  amounts := List.cons_ne_nil _ _
  leverages := List.cons_ne_nil _ _
  ratio := by constructor <;> norm_num [halfConfig]
  minima := by decide
  ints := by decide

end WFConfig

end WebhookTrader
