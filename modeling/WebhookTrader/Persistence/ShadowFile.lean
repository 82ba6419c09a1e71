import WebhookTrader.Persistence.Model.ShadowFile

/-!
# The trackers' files make the round trip

A tracker loaded from the file it has written has its positions under
their keys, its figures, its pending live-equivalent keys and the last
thousand of its trades.
-/

namespace WebhookTrader

/-! ## What is read of what is written -/

theorem VirtualPosition.fromJson_toJson (key : String) (vp : VirtualPosition) :
    fromJson (vp.toJson key) = .ok (key, vp) := rfl

theorem VirtualSpotPosition.fromJson_toJson (key : String) (vp : VirtualSpotPosition) :
    fromJson (vp.toJson key) = .ok (key, vp) := rfl

/-- A shadow trade that has been written and read has no exchange of its own. -/
def TradeRecord.shadowRestored (t : TradeRecord) : TradeRecord := { t with exchange := "bitget" }

theorem TradeRecord.fromShadowJson_toShadowJson (t : TradeRecord) :
    fromShadowJson t.toShadowJson = .ok t.shadowRestored := rfl

/-- A spot shadow trade has no realized figures. -/
def TradeRecord.spotShadowRestored (t : TradeRecord) : TradeRecord :=
  { t with marketType := "spot", grossPnl := 0, netPnl := 0, feeCost := 0, realizedRr := 0 }

theorem TradeRecord.fromSpotShadowJson_toSpotShadowJson (t : TradeRecord) :
    fromSpotShadowJson t.toSpotShadowJson = .ok t.spotShadowRestored := rfl

theorem Json.getCounter_natCast (n : ℕ) : (Json.int n).getCounter = .ok n := by
  simp [getCounter]

/-! ## The loops -/

/-- **Trades that were written** are read one after the other to the end of
a list. -/
theorem loop_trades {σ : Type} {write : TradeRecord → Json}
    {read : Json → Except Exception TradeRecord} {back : TradeRecord → TradeRecord}
    (push : List TradeRecord → σ → σ) (hread : ∀ t, read (write t) = .ok (back t))
    (hnil : ∀ s, push [] s = s) (happend : ∀ xs ys s, push ys (push xs s) = push (xs ++ ys) s)
    (trades : List TradeRecord) (s : σ) :
    Stage.loop read (fun t => push [t]) (trades.map write) s =
      (push (trades.map back) s, .ok ()) := by
  rw [Stage.loop_map fun t _ => hread t]
  congr 1
  induction trades generalizing s with
  | nil => exact (hnil s).symm
  | cons t trades ih => rw [List.foldl_cons, ih, happend, List.map_cons, List.singleton_append]

/-- Distinct keys put in one by one are all there, the last one first. -/
theorem foldl_insert_of_nodup {ks l : List String} (hks : ks.Nodup) (hfresh : ∀ k ∈ ks, k ∉ l) :
    ks.foldl (fun l k => l.insert k) l = ks.reverse ++ l := by
  induction ks generalizing l with
  | nil => rfl
  | cons k ks ih =>
      rw [List.nodup_cons] at hks
      rw [List.foldl_cons, List.insert_of_not_mem (hfresh k List.mem_cons_self), ih hks.2]
      · simp
      · intro k' hk' hmem
        rcases List.mem_cons.1 hmem with rfl | hold
        · exact hks.1 hk'
        · exact hfresh k' (List.mem_cons_of_mem _ hk') hold

namespace ShadowRecord

/-- The positions of a file put in, one after the other. -/
def putAll (es : List (Sigma fun _ : String => VirtualPosition)) (r : ShadowRecord) :
    ShadowRecord :=
  es.foldl (fun r e => putPosition ⟨e.1, e.2⟩ r) r

theorem putAll_cons (e : Sigma fun _ : String => VirtualPosition)
    (es : List (Sigma fun _ : String => VirtualPosition)) (r : ShadowRecord) :
    putAll (e :: es) r = putAll es (putPosition ⟨e.1, e.2⟩ r) := rfl

/-- Nothing but the positions changes. -/
theorem putAll_eq (es : List (Sigma fun _ : String => VirtualPosition)) (r : ShadowRecord) :
    putAll es r = { r with positions := (putAll es r).positions } := by
  induction es generalizing r with
  | nil => rfl
  | cons e es ih =>
      rw [putAll_cons, ih]
      unfold putPosition
      split_ifs <;> rfl

/-- **Positions under their keys stay under them.** -/
theorem keyed_putAll {es : List (Sigma fun _ : String => VirtualPosition)} {r : ShadowRecord}
    (hes : ∀ e ∈ es, e.1 = e.2.key ∧ (e.2.side = "long" ∨ e.2.side = "short"))
    (hr : VirtualPosition.Keyed r.positions) : VirtualPosition.Keyed (putAll es r).positions := by
  induction es generalizing r with
  | nil => exact hr
  | cons e es ih =>
      obtain ⟨hkey, hside⟩ := hes e List.mem_cons_self
      rw [putAll_cons]
      refine ih (fun e' he' => hes e' (List.mem_cons_of_mem _ he')) ?_
      unfold putPosition
      split_ifs
      · exact hr
      · show VirtualPosition.Keyed (AList.insert e.1 e.2 r.positions)
        rw [hkey]
        exact hr.insert hside

/-- **Named positions under new keys are all put in**, the last one first. -/
theorem entries_putAll {es : List (Sigma fun _ : String => VirtualPosition)} {r : ShadowRecord}
    (hes : es.NodupKeys) (hnamed : ∀ e ∈ es, e.2.symbol ≠ "")
    (hfresh : ∀ e ∈ es, e.1 ∉ r.positions) : (putAll es r).positions.entries =
      es.reverse ++ r.positions.entries := by
  induction es generalizing r with
  | nil => rfl
  | cons e es ih =>
      rw [List.nodupKeys_cons] at hes
      have hput : putPosition ⟨e.1, e.2⟩ r =
          { r with positions := AList.insert e.1 e.2 r.positions } :=
        if_neg (hnamed e List.mem_cons_self)
      have hkeys : (AList.insert e.1 e.2 r.positions).entries =
          ⟨e.1, e.2⟩ :: r.positions.entries :=
        AList.entries_insert_of_notMem (hfresh e List.mem_cons_self)
      rw [putAll_cons, hput, ih hes.2 (fun e' he' => hnamed e' (List.mem_cons_of_mem _ he')), hkeys]
      · simp
      · intro e' he' hmem
        rcases (AList.mem_insert r.positions).1 hmem with heq | hold
        · exact hes.1 (heq ▸ List.mem_map_of_mem he')
        · exact hfresh e' (List.mem_cons_of_mem _ he') hold

/-- **What is taken up** is a position of the file, or was there before. -/
theorem of_mem_putAll {es : List (Sigma fun _ : String => VirtualPosition)} {r : ShadowRecord}
    {e : Sigma fun _ : String => VirtualPosition}
    (he : e ∈ (putAll es r).positions.entries) : e ∈ es ∨ e ∈ r.positions.entries := by
  induction es generalizing r with
  | nil => exact .inr he
  | cons e' es ih =>
      rw [putAll_cons] at he
      rcases ih he with hfile | hput
      · exact .inl (List.mem_cons_of_mem _ hfile)
      · unfold putPosition at hput
        split_ifs at hput
        · exact .inr hput
        · rcases Table.mem_insert.1 hput with rfl | ⟨-, hold⟩
          · exact .inl List.mem_cons_self
          · exact .inr hold

/-- The pending keys put in. -/
def putKeys (ks : List String) (r : ShadowRecord) : ShadowRecord :=
  ks.foldl (fun r k => putKey (some k) r) r

theorem putKeys_eq (ks : List String) (r : ShadowRecord) :
    putKeys ks r = { r with liveEquivKeys := ks.foldl (fun l k => l.insert k) r.liveEquivKeys } := by
  induction ks generalizing r with
  | nil => rfl
  | cons k ks ih =>
      have hput : putKey (some k) r = { r with liveEquivKeys := r.liveEquivKeys.insert k } := by
        unfold putKey List.insert
        dsimp only
        rw [← List.elem_eq_contains]
        split_ifs <;> rfl
      show putKeys ks (putKey (some k) r) = _
      rw [hput, ih]
      rfl

variable (t : ShadowTracker) (fs : List (Stage Exception ShadowRecord)) (r : ShadowRecord)

open Stage in
/-- The figures of a document that was written. -/
theorem run_statsStages : run (statsStages t.toJson ++ fs) r =
    run fs { r with
      totalEntries := t.totalEntries
      totalCloses := t.totalCloses
      wins := t.wins
      losses := t.losses
      totalPnl := t.totalPnl } := by
  have hentries : (Json.int t.totalEntries).getCounter = .ok t.totalEntries :=
    Json.getCounter_natCast _
  have hcloses : (Json.int t.totalCloses).getCounter = .ok t.totalCloses :=
    Json.getCounter_natCast _
  exact (run_cons (assign_ok hentries)).trans <| (run_cons (assign_ok hcloses)).trans <|
    (run_cons (assign_ok rfl)).trans <| (run_cons (assign_ok rfl)).trans <|
      run_cons (assign_ok rfl)

open Stage in
/-- The live-equivalent figures of a document that was written. -/
theorem run_liveEquivStages : run (liveEquivStages t.toJson ++ fs) r =
    run fs { r with liveEquivStats := t.liveEquivStats } := by
  have hentries : (Json.int t.liveEquivStats.totalEntries).getCounter =
    .ok t.liveEquivStats.totalEntries := Json.getCounter_natCast _
  have hcloses : (Json.int t.liveEquivStats.totalCloses).getCounter =
    .ok t.liveEquivStats.totalCloses := Json.getCounter_natCast _
  exact (run_cons (assign_ok hentries)).trans <| (run_cons (assign_ok hcloses)).trans <|
    (run_cons (assign_ok rfl)).trans <| (run_cons (assign_ok rfl)).trans <|
      (run_cons (assign_ok rfl)).trans <| run_cons (assign_ok rfl)

/-- **What is read of the document a tracker writes.** -/
theorem load_toJson (t : ShadowTracker) : load (.document t.toJson) =
    { positions := (putAll t.positions.entries {}).positions
      trades := (ShadowTracker.capTrades 1000 t.trades).map TradeRecord.shadowRestored
      totalEntries := t.totalEntries
      totalCloses := t.totalCloses
      wins := t.wins
      losses := t.losses
      totalPnl := t.totalPnl
      liveEquivStats := t.liveEquivStats
      liveEquivKeys := t.liveEquivKeys.foldl (fun l k => l.insert k) []
      liveEquivTrades :=
        (ShadowTracker.capTrades 500 t.liveEquivTrades).map TradeRecord.shadowRestored } := by
  have hpositions : t.toJson.loopField "positions" VirtualPosition.fromJson putPosition {} =
      (putAll t.positions.entries {}, .ok ()) :=
    Stage.loop_map (β := Json) (γ := Sigma fun _ : String => VirtualPosition)
      fun e _ => VirtualPosition.fromJson_toJson e.1 e.2
  have htrades : ∀ r, t.toJson.loopField "trades" TradeRecord.fromShadowJson
      (fun t (r : ShadowRecord) => { r with trades := r.trades ++ [t] }) r =
        ({ r with trades := r.trades ++
          (ShadowTracker.capTrades 1000 t.trades).map TradeRecord.shadowRestored }, .ok ()) := by
    intro r
    have hfind : t.toJson.find? "trades" =
      some (.arr ((ShadowTracker.capTrades 1000 t.trades).map TradeRecord.toShadowJson)) := rfl
    rw [Json.loopField, hfind]
    exact loop_trades (fun ts (r : ShadowRecord) => { r with trades := r.trades ++ ts })
      TradeRecord.fromShadowJson_toShadowJson (fun s => by simp) (fun xs ys s => by simp) _ r
  have hkeys : ∀ r, t.toJson.loopField "live_equiv_keys" readKey putKey r =
      (putKeys t.liveEquivKeys r, .ok ()) := fun r =>
    Stage.loop_map (β := Json) (γ := String) fun k _ => rfl
  have hliveTrades : ∀ r, t.toJson.loopField "live_equiv_trades" TradeRecord.fromShadowJson
      (fun t (r : ShadowRecord) => { r with liveEquivTrades := r.liveEquivTrades ++ [t] }) r =
        ({ r with liveEquivTrades := r.liveEquivTrades ++
          (ShadowTracker.capTrades 500 t.liveEquivTrades).map TradeRecord.shadowRestored },
          .ok ()) := by
    intro r
    have hfind : t.toJson.find? "live_equiv_trades" =
      some (.arr ((ShadowTracker.capTrades 500 t.liveEquivTrades).map
        TradeRecord.toShadowJson)) := rfl
    rw [Json.loopField, hfind]
    exact loop_trades
      (fun ts (r : ShadowRecord) => { r with liveEquivTrades := r.liveEquivTrades ++ ts })
      TradeRecord.fromShadowJson_toShadowJson (fun s => by simp) (fun xs ys s => by simp) _ r
  rw [load, stages]
  simp only [List.append_assoc, List.cons_append, List.nil_append]
  rw [Stage.run_cons hpositions, Stage.run_cons (htrades _), run_statsStages, run_liveEquivStages,
    Stage.run_cons (hkeys _), Stage.run_cons (hliveTrades _), putKeys_eq, putAll_eq]
  simp only [Stage.run, List.nil_append]

end ShadowRecord

/-! ## The round trips -/

/-- **What comes back of a tracker** from its file. -/
structure ShadowTracker.RestoredAs (t t' : ShadowTracker) : Prop where
  positions : (∀ e ∈ t.positions.entries, e.2.symbol ≠ "") →
    t'.positions.entries = t.positions.entries.reverse
  trades : t'.trades = (capTrades 1000 t.trades).map TradeRecord.shadowRestored
  totalEntries : t'.totalEntries = t.totalEntries
  totalCloses : t'.totalCloses = t.totalCloses
  wins : t'.wins = t.wins
  losses : t'.losses = t.losses
  totalPnl : t'.totalPnl = t.totalPnl
  liveEquivStats : t'.liveEquivStats = t.liveEquivStats
  liveEquivKeys : t.liveEquivKeys.Nodup → t'.liveEquivKeys = t.liveEquivKeys.reverse

/-- **A tracker is loaded from its own file.** -/
theorem ShadowTracker.load_toJson (learner : Learner) (t : ShadowTracker) :
    ∃ t', load learner (.document t.toJson) = some t' ∧ t.RestoredAs t' := by
  have hrecord := ShadowRecord.load_toJson t
  have hkeyed : VirtualPosition.Keyed (ShadowRecord.load (.document t.toJson)).positions := by
    rw [hrecord]
    dsimp only
    exact ShadowRecord.keyed_putAll t.keyed VirtualPosition.keyed_empty
  refine ⟨_, dif_pos hkeyed, ?_⟩
  generalize ShadowRecord.load (.document t.toJson) = r at hrecord hkeyed
  subst hrecord
  exact
    { positions := fun hnamed => by
        simp only [ShadowRecord.tracker]
        rw [ShadowRecord.entries_putAll t.positions.nodupKeys hnamed fun e _ =>
          AList.notMem_empty _]
        exact List.append_nil _
      trades := by simp only [ShadowRecord.tracker]
      totalEntries := rfl
      totalCloses := rfl
      wins := rfl
      losses := rfl
      totalPnl := rfl
      liveEquivStats := rfl
      liveEquivKeys := fun hnodup =>
        (foldl_insert_of_nodup hnodup fun k _ => List.not_mem_nil).trans (List.append_nil _) }

/-- What comes back of the positions was there. -/
theorem ShadowTracker.lookup_load {learner : Learner} {t t' : ShadowTracker} {k : String}
    {vp : VirtualPosition} (hload : load learner (.document t.toJson) = some t')
    (h : t'.positions.lookup k = some vp) : t.positions.lookup k = some vp := by
  have hrecord := ShadowRecord.load_toJson t
  unfold load at hload
  generalize ShadowRecord.load (.document t.toJson) = r at hrecord hload
  obtain ⟨hkeyed, heq⟩ := Option.dite_none_right_eq_some.1 hload
  obtain rfl := Option.some.inj heq
  have hmem : (⟨k, vp⟩ : Sigma fun _ : String => VirtualPosition) ∈ r.positions.entries :=
    AList.mem_lookup_iff.1 h
  rw [hrecord] at hmem
  dsimp only at hmem
  rcases ShadowRecord.of_mem_putAll hmem with hold | hempty
  · exact AList.mem_lookup_iff.2 hold
  · cases hempty

namespace SpotShadowTracker

/-- What comes back of a spot tracker: the figures, and the last thousand
trades. -/
structure RestoredAs (t t' : SpotShadowTracker) : Prop where
  trades : t'.trades =
    (ShadowTracker.capTrades 1000 t.trades).map TradeRecord.spotShadowRestored
  totalEntries : t'.totalEntries = t.totalEntries
  totalCloses : t'.totalCloses = t.totalCloses
  wins : t'.wins = t.wins
  losses : t'.losses = t.losses
  totalPnl : t'.totalPnl = t.totalPnl

/-- The positions of a file put in, one after the other. -/
def putAll (es : List (Sigma fun _ : String => VirtualSpotPosition)) (t : SpotShadowTracker) :
    SpotShadowTracker :=
  es.foldl (fun t e => putPosition (e.1, e.2) t) t

theorem putAll_cons (e : Sigma fun _ : String => VirtualSpotPosition)
    (es : List (Sigma fun _ : String => VirtualSpotPosition)) (t : SpotShadowTracker) :
    putAll (e :: es) t = putAll es (putPosition (e.1, e.2) t) := rfl

/-- Nothing but the positions changes. -/
theorem putAll_eq (es : List (Sigma fun _ : String => VirtualSpotPosition))
    (t : SpotShadowTracker) : putAll es t = { t with positions := (putAll es t).positions } := by
  induction es generalizing t with
  | nil => rfl
  | cons e es ih =>
      rw [putAll_cons, ih]
      unfold putPosition
      split_ifs <;> rfl

/-- **What is taken up** is a position of the file, or was there before. -/
theorem of_mem_putAll {es : List (Sigma fun _ : String => VirtualSpotPosition)}
    {t : SpotShadowTracker} {e : Sigma fun _ : String => VirtualSpotPosition}
    (he : e ∈ (putAll es t).positions.entries) : e ∈ es ∨ e ∈ t.positions.entries := by
  induction es generalizing t with
  | nil => exact .inr he
  | cons e' es ih =>
      rw [putAll_cons] at he
      rcases ih he with hfile | hput
      · exact .inl (List.mem_cons_of_mem _ hfile)
      · unfold putPosition at hput
        split_ifs at hput
        · rcases Table.mem_insert.1 hput with rfl | ⟨-, hold⟩
          · exact .inl List.mem_cons_self
          · exact .inr hold
        · exact .inr hput

/-- The grades of a file put in, one after the other. -/
def putGrades (gs : List (Sigma fun _ : String => String)) (grades : Table String String) :
    Table String String :=
  gs.foldl (fun grades g => AList.insert g.1 g.2 grades) grades

/-- **The grades are those of the file**, or were there before. -/
theorem lookup_putGrades {gs : List (Sigma fun _ : String => String)} (hgs : gs.NodupKeys)
    (grades : Table String String) (k : String) :
    (putGrades gs grades).lookup k = (gs.dlookup k).or (grades.lookup k) := by
  induction gs generalizing grades with
  | nil => rfl
  | cons g gs ih =>
      obtain ⟨k₀, v⟩ := g
      rw [List.nodupKeys_cons] at hgs
      show (putGrades gs (AList.insert k₀ v grades)).lookup k = _
      rw [ih hgs.2]
      by_cases hk : k = k₀
      · subst hk
        rw [List.dlookup_eq_none.2 hgs.1, List.dlookup_cons_eq, AList.lookup_insert]
        rfl
      · rw [List.dlookup_cons_ne _ _ hk, AList.lookup_insert_ne hk]

variable (t : SpotShadowTracker)

open Stage in
/-- The figures of a document that was written. -/
theorem run_statsStages (fs : List (Stage Exception SpotShadowTracker)) (s : SpotShadowTracker) :
    run (statsStages t.toJson ++ fs) s =
      run fs { s with
        totalEntries := t.totalEntries
        totalCloses := t.totalCloses
        wins := t.wins
        losses := t.losses
        totalPnl := t.totalPnl } := by
  have hentries : (Json.int t.totalEntries).getCounter = .ok t.totalEntries :=
    Json.getCounter_natCast _
  have hcloses : (Json.int t.totalCloses).getCounter = .ok t.totalCloses :=
    Json.getCounter_natCast _
  exact (run_cons (assign_ok hentries)).trans <| (run_cons (assign_ok hcloses)).trans <|
    (run_cons (assign_ok rfl)).trans <| (run_cons (assign_ok rfl)).trans <|
      run_cons (assign_ok rfl)

/-- **What is read of the document a spot tracker writes.** -/
theorem load_document : load (.document t.toJson) =
    { positions := (putAll t.positions.entries {}).positions
      totalEntries := t.totalEntries
      totalCloses := t.totalCloses
      wins := t.wins
      losses := t.losses
      totalPnl := t.totalPnl
      trades := (ShadowTracker.capTrades 1000 t.trades).map TradeRecord.spotShadowRestored
      symbolGrades := putGrades t.symbolGrades.entries ∅ } := by
  have hpositions : t.toJson.loopField "positions" VirtualSpotPosition.fromJson putPosition {} =
      (putAll t.positions.entries {}, .ok ()) :=
    Stage.loop_map (β := Json) (γ := Sigma fun _ : String => VirtualSpotPosition)
      fun e _ => VirtualSpotPosition.fromJson_toJson e.1 e.2
  have htrades : ∀ s, t.toJson.loopField "trades" TradeRecord.fromSpotShadowJson
      (fun tr (t : SpotShadowTracker) => { t with trades := t.trades ++ [tr] }) s =
        ({ s with trades := s.trades ++
          (ShadowTracker.capTrades 1000 t.trades).map TradeRecord.spotShadowRestored },
          .ok ()) := by
    intro s
    have hfind : t.toJson.find? "trades" = some (.arr
      ((ShadowTracker.capTrades 1000 t.trades).map TradeRecord.toSpotShadowJson)) := rfl
    rw [Json.loopField, hfind]
    exact loop_trades (fun ts (t : SpotShadowTracker) => { t with trades := t.trades ++ ts })
      TradeRecord.fromSpotShadowJson_toSpotShadowJson (fun s => by simp) (fun xs ys s => by simp)
      _ s
  have hput : ∀ (gs : List (Sigma fun _ : String => String)) (s : SpotShadowTracker),
      gs.foldl (fun (t : SpotShadowTracker) g =>
        { t with symbolGrades := AList.insert g.1 g.2 t.symbolGrades }) s =
          { s with symbolGrades := putGrades gs s.symbolGrades } := by
    intro gs
    induction gs with
    | nil => exact fun _ => rfl
    | cons g gs ih => exact fun s => ih _
  have hgrades : ∀ s, gradesStage t.toJson s =
      (({ s with symbolGrades := putGrades t.symbolGrades.entries s.symbolGrades } :
        SpotShadowTracker), .ok ()) := by
    intro s
    rw [← hput]
    exact Stage.loop_map (β := String × Json) (γ := Sigma fun _ : String => String)
      fun g _ => show _ = Except.ok (g.1, g.2) from rfl
  rw [load, stages]
  simp only [List.cons_append, List.nil_append]
  rw [Stage.run_cons hpositions, Stage.run_cons (htrades _), run_statsStages,
    Stage.run_cons (hgrades _), Stage.run, putAll_eq]
  simp only [List.nil_append]

/-- **A spot tracker is loaded from its own file.** -/
theorem load_toJson : t.RestoredAs (load (.document t.toJson)) := by
  have hload := t.load_document
  generalize load (.document t.toJson) = t' at hload
  subst hload
  exact ⟨by simp only, rfl, rfl, rfl, rfl, rfl⟩

/-- The grades come back. -/
theorem getGrade_load (k : String) : (load (.document t.toJson)).getGrade k = t.getGrade k := by
  rw [load_document, getGrade, lookup_putGrades t.symbolGrades.nodupKeys, AList.lookup_empty,
    Option.or_none]
  rfl

/-- What comes back of the positions was there. -/
theorem lookup_load {k : String} {vp : VirtualSpotPosition}
    (h : (load (.document t.toJson)).positions.lookup k = some vp) :
    t.positions.lookup k = some vp := by
  rw [load_document] at h
  rcases of_mem_putAll (AList.mem_lookup_iff.1 h) with hold | hempty
  · exact AList.mem_lookup_iff.2 hold
  · exact absurd hempty List.not_mem_nil

end SpotShadowTracker

end WebhookTrader
