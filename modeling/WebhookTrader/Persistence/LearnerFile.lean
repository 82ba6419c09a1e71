import WebhookTrader.Persistence.Model.LearnerFile

/-!
# What the learner's file keeps

Everything a key has counted comes back. Counts of no trade and the part
of the ring that is not filled come back as zero.
-/

namespace WebhookTrader

namespace Json

@[simp] theorem items_ofFields (fields : List (String × Json)) : (ofFields fields).items = fields := by
  rw [ofFields]
  split
  next h => rw [h]; rfl
  next => rfl

theorem find?_ofFields (fields : List (String × Json)) (key : String) :
    (ofFields fields).find? key = fields.lookup key := by
  rw [ofFields]
  split
  next h => rw [h]; rfl
  next => rfl

end Json

namespace SymbolLearnData

variable {d : SymbolLearnData}

/-- The counts that come back. -/
def keptStats {n : ℕ} (stats : Fin n → ℤ × ℤ) (i : Fin n) : ℤ × ℤ :=
  if 0 < (stats i).2 then stats i else (0, 0)

/-- **What an entry comes back as.** -/
def reloaded (d : SymbolLearnData) : SymbolLearnData :=
  { d with
    cooldownUntil := d.cooldownUntil.bmod (2 ^ 64)
    hourStats := keptStats d.hourStats
    sessionStats := keptStats d.sessionStats
    recentPnls := fun i => if (i.val : ℤ) < d.recentCount then d.recentPnls i else 0 }

theorem statsFromJson_statsToJson (stats : ℤ × ℤ) : statsFromJson (statsToJson stats) = .ok stats :=
  rfl

/-! ## Counts read over others -/

/-- **Of a list of places, those with a trade have been read** over what was
there. -/
def ReadOver {n : ℕ} (stats : Fin n → ℤ × ℤ) (is : List (Fin n)) (old new : Fin n → ℤ × ℤ) :
    Prop :=
  ∀ i, (i ∈ is → 0 < (stats i).2 → new i = stats i) ∧
    ((i ∈ is → ¬ 0 < (stats i).2) → new i = old i)

section ReadOver

variable {n : ℕ} {stats old new : Fin n → ℤ × ℤ} {is : List (Fin n)} {k : Fin n}

theorem ReadOver.nil : ReadOver stats [] old old := fun _ =>
  ⟨fun hi => absurd hi List.not_mem_nil, fun _ => rfl⟩

/-- One place more has been read. -/
theorem ReadOver.cons (hk : 0 < (stats k).2) {old' : Fin n → ℤ × ℤ}
    (hold' : ∀ i, old' i = if i = k then stats k else old i)
    (h : ReadOver stats is old' new) : ReadOver stats (k :: is) old new := by
  intro i
  by_cases hik : i = k
  · subst hik
    have hnew : new i = stats i := by
      by_cases hi : i ∈ is
      · exact (h i).1 hi hk
      · rw [(h i).2 fun hmem => absurd hmem hi, hold', if_pos rfl]
    exact ⟨fun _ _ => hnew, fun hnot => absurd hk (hnot List.mem_cons_self)⟩
  · have hsame : old' i = old i := (hold' i).trans (if_neg hik)
    refine ⟨fun hi => (h i).1 (List.mem_of_ne_of_mem hik hi), fun hnot => ?_⟩
    exact ((h i).2 fun hi => hnot (List.mem_cons_of_mem k hi)).trans hsame

/-- One place more has no trade. -/
theorem ReadOver.skip (hk : ¬ 0 < (stats k).2) (h : ReadOver stats is old new) :
    ReadOver stats (k :: is) old new := by
  intro i
  constructor
  · intro hi hpos
    have hik : i ≠ k := by
      rintro rfl
      exact hk hpos
    exact (h i).1 (List.mem_of_ne_of_mem hik hi) hpos
  · intro hnot
    exact (h i).2 fun hi => hnot (List.mem_cons_of_mem k hi)

/-- Over nothing, every place that is kept has been read. -/
theorem ReadOver.eq_keptStats (h : ReadOver stats (List.finRange n) (fun _ => (0, 0)) new) :
    new = keptStats stats := by
  funext i
  rw [keptStats]
  split
  next hi => exact (h i).1 (List.mem_finRange i) hi
  next hi => exact (h i).2 fun _ => hi

end ReadOver

/-! ## The hours -/

theorem stoi_hour : ∀ i : Fin 24, Cxx.stoi (toString i.val) = .ok (i.val : ℤ) := by
  decide +kernel

theorem readHours_statsFields (stats : Fin 24 → ℤ × ℤ) (is : List (Fin 24))
    (hours : Fin 24 → ℤ × ℤ) :
    ∃ hours', readHours (statsFields (fun i => toString i.val) stats is) hours = .ok hours' ∧
      ReadOver stats is hours hours' := by
  induction is generalizing hours with
  | nil => exact ⟨hours, rfl, .nil⟩
  | cons k is ih =>
      rw [statsFields]
      by_cases hk : 0 < (stats k).2
      · have hrange : (0 : ℤ) ≤ k.val ∧ (k.val : ℤ) < 24 := by omega
        obtain ⟨hours', hread, hover⟩ :=
          ih fun i => if (i.val : ℤ) = k.val then stats k else hours i
        refine ⟨hours', ?_, hover.cons hk fun i => ?_⟩
        · simp only [hk, if_true, readHours, stoi_hour, statsFromJson_statsToJson, bind,
            Except.bind, hrange, and_self, hread]
        · have hval : (i.val : ℤ) = k.val ↔ i = k := by rw [Nat.cast_inj, Fin.ext_iff]
          simp only [hval]
      · obtain ⟨hours', hread, hover⟩ := ih hours
        rw [if_neg hk]
        exact ⟨hours', hread, hover.skip hk⟩

/-- **The hours are read back.** -/
theorem readHours_eq (stats : Fin 24 → ℤ × ℤ) :
    readHours (statsFields (fun i => toString i.val) stats (List.finRange 24))
      (fun _ => (0, 0)) = .ok (keptStats stats) := by
  obtain ⟨hours', hread, hover⟩ := readHours_statsFields stats (List.finRange 24) fun _ => (0, 0)
  rw [hread, hover.eq_keptStats]

/-! ## The sessions -/

theorem sessionName_inj : ∀ i k : Fin 4, sessionName i = sessionName k → i = k := by
  decide +kernel

/-- What is under a session's name in front of the other fields. -/
theorem lookup_sessionName_cons (i k : Fin 4) (v : Json) (fields : List (String × Json)) :
    ((sessionName k, v) :: fields).lookup (sessionName i) =
      if i = k then some v else fields.lookup (sessionName i) := by
  rw [List.lookup_cons]
  by_cases hik : i = k
  · subst hik
    rw [beq_self_eq_true, if_pos rfl]
  · have hname : (sessionName i == sessionName k) = false :=
      beq_false_of_ne fun heq => hik (sessionName_inj i k heq)
    rw [hname, if_neg hik]

/-- A session without a trade has no field. -/
theorem lookup_of_no_trade {stats : Fin 4 → ℤ × ℤ} {i : Fin 4} (hi : ¬ 0 < (stats i).2)
    (is : List (Fin 4)) : (statsFields sessionName stats is).lookup (sessionName i) = none := by
  induction is with
  | nil => rfl
  | cons k is ih =>
      rw [statsFields]
      by_cases hk : 0 < (stats k).2
      · have hik : ¬ i = k := by
          rintro rfl
          exact hi hk
        rw [if_pos hk, lookup_sessionName_cons, if_neg hik, ih]
      · rw [if_neg hk, ih]

/-- A session's field is there where it has a trade. -/
theorem lookup_of_trade {stats : Fin 4 → ℤ × ℤ} {i : Fin 4} (hi : 0 < (stats i).2)
    {is : List (Fin 4)} (hmem : i ∈ is) :
    (statsFields sessionName stats is).lookup (sessionName i) =
      some (statsToJson (stats i)) := by
  induction is with
  | nil => cases hmem
  | cons k is ih =>
      rw [statsFields]
      by_cases hik : i = k
      · subst hik
        rw [if_pos hi, lookup_sessionName_cons, if_pos rfl]
      · have hrest := ih (List.mem_of_ne_of_mem hik hmem)
        by_cases hk : 0 < (stats k).2
        · rw [if_pos hk, lookup_sessionName_cons, if_neg hik, hrest]
        · rw [if_neg hk, hrest]

/-- The sessions of a list are read by their names. -/
theorem readSessions_ofFields (stats : Fin 4 → ℤ × ℤ) (is : List (Fin 4))
    (sessions : Fin 4 → ℤ × ℤ) :
    ∃ sessions', readSessions (.ofFields (statsFields sessionName stats (List.finRange 4))) is
      sessions = .ok sessions' ∧ ReadOver stats is sessions sessions' := by
  induction is generalizing sessions with
  | nil => exact ⟨sessions, rfl, .nil⟩
  | cons k is ih =>
      have hfind := Json.find?_ofFields (statsFields sessionName stats (List.finRange 4))
        (sessionName k)
      by_cases hk : 0 < (stats k).2
      · rw [lookup_of_trade hk (List.mem_finRange k)] at hfind
        obtain ⟨sessions', hread, hover⟩ := ih fun i => if i = k then stats k else sessions i
        refine ⟨sessions', ?_, hover.cons hk fun i => rfl⟩
        simp only [readSessions, hfind, statsFromJson_statsToJson, bind, Except.bind, hread]
      · rw [lookup_of_no_trade hk] at hfind
        obtain ⟨sessions', hread, hover⟩ := ih sessions
        refine ⟨sessions', ?_, hover.skip hk⟩
        simp only [readSessions, hfind, hread]

/-- **The sessions are read back.** -/
theorem readSessions_eq (stats : Fin 4 → ℤ × ℤ) :
    readSessions (.ofFields (statsFields sessionName stats (List.finRange 4)))
      (List.finRange 4) (fun _ => (0, 0)) = .ok (keptStats stats) := by
  obtain ⟨sessions', hread, hover⟩ :=
    readSessions_ofFields stats (List.finRange 4) fun _ => (0, 0)
  rw [hread, hover.eq_keptStats]

/-! ## The ring -/

/-- What is read goes into the ring from a place on. -/
theorem readRecent_map (xs : List ℚ) (n : ℕ) (recent : Fin 10 → ℚ) (h : n + xs.length ≤ 10) :
    readRecent (xs.map Json.float) n recent =
      .ok fun i => if i.val < n then recent i else xs.getD (i.val - n) (recent i) := by
  induction xs generalizing n recent with
  | nil => simp [readRecent]
  | cons v xs ih =>
      rw [List.length_cons] at h
      have hn : ¬ 10 ≤ n := by omega
      simp only [List.map_cons, readRecent, hn, if_false, Json.getDouble, bind, Except.bind]
      rw [ih (n + 1) _ (by omega)]
      refine congrArg Except.ok (funext fun i => ?_)
      rcases lt_trichotomy i.val n with hlt | heq | hgt
      · have hne : ¬ i.val = n := by omega
        have hlt' : i.val < n + 1 := by omega
        simp [hlt, hlt', hne]
      · simp [heq]
      · have hne : ¬ i.val = n := by omega
        have hge : ¬ i.val < n := by omega
        have hge' : ¬ i.val < n + 1 := by omega
        have hsub : i.val - n = i.val - (n + 1) + 1 := by omega
        simp only [hne, hge, hge', if_false, hsub, List.getD_cons_succ]

/-- Of an empty ring, the part that was written is read. -/
theorem readRecent_recentElements (d : SymbolLearnData) :
    readRecent d.recentElements 0 (fun _ => 0) =
      .ok fun i => if (i.val : ℤ) < d.recentCount then d.recentPnls i else 0 := by
  have hlength : 0 + ((List.ofFn d.recentPnls).take d.recentCount.toNat).length ≤ 10 := by
    rw [zero_add, List.length_take, List.length_ofFn]
    exact min_le_right _ _
  rw [recentElements, readRecent_map _ _ _ hlength]
  refine congrArg Except.ok (funext fun i => ?_)
  have hring : (List.ofFn d.recentPnls)[i.val]? = some (d.recentPnls i) := by
    rw [List.getElem?_ofFn, dif_pos i.isLt]
  have hi : i.val < d.recentCount.toNat ↔ (i.val : ℤ) < d.recentCount := by omega
  rw [if_neg (Nat.not_lt_zero _), Nat.sub_zero, List.getD_eq_getElem?_getD, List.getElem?_take,
    hring]
  by_cases h : (i.val : ℤ) < d.recentCount
  · rw [if_pos (hi.2 h), if_pos h, Option.getD_some]
  · rw [if_neg fun hlt => h (hi.1 hlt), if_neg h, Option.getD_none]

/-! ## An entry -/

/-- **An entry is read back.** -/
theorem fromJson_toJson (d : SymbolLearnData) : fromJson d.toJson = .ok d.reloaded := by
  have hnumbers : readNumbers d.toJson = .ok
      { d with
        cooldownUntil := d.cooldownUntil.bmod (2 ^ 64)
        hourStats := fun _ => (0, 0)
        sessionStats := fun _ => (0, 0)
        recentPnls := fun _ => 0
        recentIdx := 0
        recentCount := 0 } := rfl
  have hhours : d.toJson.find? "hour_stats" =
      some (.ofFields
        (statsFields (fun i => toString i.val) d.hourStats (List.finRange 24))) := rfl
  have hsessions : d.toJson.find? "session_stats" =
      some (.ofFields (statsFields sessionName d.sessionStats (List.finRange 4))) := rfl
  have hidx : d.toJson.value Json.getCount "recent_idx" 0 = .ok d.recentIdx := rfl
  have hcount : d.toJson.value Json.getCount "recent_count" 0 = .ok d.recentCount := rfl
  have hrecent : d.toJson.find? "recent_pnls" = some (.ofElements d.recentElements) := rfl
  rw [fromJson, hnumbers, hhours, hsessions, hidx, hcount, hrecent]
  simp only [bind, Except.bind, Json.items_ofFields, readHours_eq, readSessions_eq]
  have hring := readRecent_recentElements d
  by_cases hempty : d.recentElements = []
  · -- Nothing is written of an empty ring, and nothing is read.
    rw [hempty, readRecent] at hring
    simp only [hempty, Json.ofElements, if_true, Except.ok.inj hring, pure, Except.pure]
    rfl
  · simp only [Json.ofElements, hempty, if_false, hring, pure, Except.pure]
    rfl

end SymbolLearnData

namespace Learner

/-- **What is written of the learner is read back**, key by key. -/
theorem lookup_load (learner : Learner) (savedAt : String) (key : String) :
    (load (.document (learner.toJson savedAt))).lookup key =
      (learner.lookup key).map SymbolLearnData.reloaded := by
  have hversion : (learner.toJson savedAt).value Json.getCount "version" 1 = .ok 2 := rfl
  have hentries : (learner.toJson savedAt).find? "entries" =
      some (.ofFields (learner.toPairs SymbolLearnData.toJson)) := rfl
  rw [load, readJson, hversion, hentries]
  simp only [le_refl, if_true, Json.items_ofFields]
  exact (Table.readEach_toPairs SymbolLearnData.fromJson_toJson learner).2 key

end Learner

end WebhookTrader
