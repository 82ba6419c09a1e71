import WebhookTrader.Shadow.Balance
import WebhookTrader.Shadow.Model.Spot

/-!
# The same signal again

Both trackers leave an entry alone where its position is there. An exit
has no such rule: it closes what it finds, under its own timeframe or
another, and a take-profit of the spot tracker may leave a part of it. So
the same exit again does nothing just where the first one has left nothing
to close.
-/

namespace WebhookTrader

/-- The signal is an exit. -/
def WebhookSignal.Exits (sig : WebhookSignal) : Prop := sig.sigType = .tp ∨ sig.sigType = .sl

instance (sig : WebhookSignal) : Decidable sig.Exits := inferInstanceAs (Decidable (_ ∨ _))

namespace Table

variable {V : Type} {t : Table String V} {k k' : String} {p : V → Bool} {v : V}

/-- The entry under a key, or else the first one with a property. -/
def findUnder (k : String) (p : V → Bool) (t : Table String V) : Option (String × V) :=
  match t.lookup k with
  | some v => some (k, v)
  | none => t.findValue p

/-- There is none where no entry is under the key or has the property. -/
theorem findUnder_eq_none_iff :
    t.findUnder k p = none ↔ t.entries.countP (fun e => e.1 = k || p e.2) = 0 := by
  rw [List.countP_eq_zero]
  unfold findUnder
  constructor
  · intro h e he
    split at h
    · cases h
    · rename_i hkey
      have hother := List.find?_eq_none.1 (Option.map_eq_none_iff.1 h) e he
      have hne : e.1 ≠ k := by
        rintro heq
        rw [← heq, AList.lookup_eq_none, AList.mem_keys] at hkey
        exact hkey (List.mem_map_of_mem he)
      grind
  · intro h
    have hkey : t.lookup k = none := by
      rw [Option.eq_none_iff_forall_ne_some]
      intro v hv
      have := h _ (AList.mem_lookup_iff.1 hv)
      simp at this
    rw [hkey]
    refine Option.map_eq_none_iff.2 (List.find?_eq_none.2 fun e he => ?_)
    have := h e he
    grind

theorem findUnder_eq_some (h : t.findUnder k p = some (k', v)) :
    t.lookup k' = some v ∧ (k' = k ∨ p v = true) := by
  unfold findUnder at h
  split at h
  · rename_i v' hv
    cases h
    exact ⟨hv, .inl rfl⟩
  · obtain ⟨hp, hlookup⟩ := findValue_eq_some h
    exact ⟨hlookup, .inr hp⟩

end Table

/-! ## The futures tracker -/

namespace ShadowTracker

variable {cfg : LearnerConfig} {now now' : ℕ} {sig : WebhookSignal} {t t' : ShadowTracker}
  {reason key : String} {vp : VirtualPosition}

/-- A position that an exit could close. -/
def isCandidate (sig : WebhookSignal) (e : Sigma fun _ : String => VirtualPosition) : Bool :=
  e.1 = signalKey sig || (e.2.symbol = sig.symbol && e.2.side = dirToSide sig)

/-- How many positions an exit could close. -/
def candidates (sig : WebhookSignal) (t : ShadowTracker) : ℕ :=
  t.positions.entries.countP (isCandidate sig)

/-- **The signal changes the tracker.** -/
def Follows (sig : WebhookSignal) (t : ShadowTracker) : Prop :=
  ¬ (sig.marketType = "spot" ∨ sig.symbol = "") ∧
    ((sig.sigType = .entry ∨ sig.sigType = .reEntry) ∧ t.positions.lookup (signalKey sig) = none ∨
      sig.Exits ∧ t.candidates sig ≠ 0)

/-- **Tracked once**: the signal is no exit of the tracker's, or there is at
most one position that it could close. -/
def TrackedOnce (sig : WebhookSignal) (t : ShadowTracker) : Prop :=
  sig.marketType = "spot" ∨ sig.symbol = "" ∨ ¬ sig.Exits ∨ t.candidates sig ≤ 1

theorem match?_eq : t.match? sig = t.positions.findUnder (signalKey sig)
    fun vp => vp.symbol = sig.symbol && vp.side = dirToSide sig := by
  unfold match? Table.findUnder
  cases t.positions.lookup (signalKey sig) with
  | none => rfl
  | some vp => rfl

/-- An exit finds nothing where there is no candidate. -/
theorem match?_eq_none_iff : t.match? sig = none ↔ t.candidates sig = 0 := by
  rw [match?_eq]
  exact Table.findUnder_eq_none_iff

/-- What an exit finds is a candidate. -/
theorem isCandidate_of_match (h : t.match? sig = some (key, vp)) :
    t.positions.lookup key = some vp ∧ isCandidate sig ⟨key, vp⟩ = true := by
  rw [match?_eq] at h
  refine (Table.findUnder_eq_some h).imp_right fun hfound => ?_
  simp only [isCandidate, Bool.or_eq_true, decide_eq_true_eq]
  exact hfound

/-- An exit that finds nothing changes nothing, and one that finds a position
counts a close. -/
theorem trackExit_eq_self_iff : t.trackExit cfg now reason sig = t ↔ t.candidates sig = 0 := by
  rw [← match?_eq_none_iff, trackExit]
  cases hmatch : t.match? sig with
  | none => exact iff_of_true rfl rfl
  | some e =>
      refine iff_of_false (fun hsame => ?_) (by simp)
      have hcloses := congrArg totalCloses hsame
      exact absurd hcloses (Nat.succ_ne_self _)

theorem trackEntry_eq_self_iff : t.trackEntry cfg now sig = t ↔
    t.positions.lookup (signalKey sig) ≠ none := by
  rw [trackEntry]
  cases hkey : t.positions.lookup (signalKey sig) with
  | some vp => exact iff_of_true rfl (by simp)
  | none =>
      refine iff_of_false (fun hsame => ?_) (by simp)
      have hkept : (t.reverse cfg now sig).totalEntries = t.totalEntries := by
        unfold reverse
        split <;> rfl
      have hentries : (t.reverse cfg now sig).totalEntries + 1 = t.totalEntries :=
        congrArg totalEntries hsame
      omega

/-- **When the tracker stays as it is.** -/
theorem track_eq_self_iff : t.track cfg now sig = t ↔ ¬ t.Follows sig := by
  unfold track Follows WebhookSignal.Exits
  by_cases hskip : sig.marketType = "spot" ∨ sig.symbol = ""
  · rw [if_pos hskip]
    exact iff_of_true rfl fun h => h.1 hskip
  · rw [if_neg hskip]
    cases htype : sig.sigType with
    | entry | reEntry =>
        rw [trackEntry_eq_self_iff]
        simp [hskip]
    | tp | sl =>
        rw [trackExit_eq_self_iff]
        simp [hskip]
    | unknown => simp

/-- Whether the signal changes the tracker depends on the positions. -/
theorem Follows.congr (h : t'.positions = t.positions) : t'.Follows sig ↔ t.Follows sig := by
  unfold Follows candidates
  rw [h]

/-- **After an exit**, there is one candidate less. -/
theorem candidates_trackExit : (t.trackExit cfg now reason sig).candidates sig =
    t.candidates sig - 1 := by
  rw [trackExit]
  cases hmatch : t.match? sig with
  | none =>
      have := match?_eq_none_iff.1 hmatch
      show t.candidates sig = _
      omega
  | some e =>
      obtain ⟨key, vp⟩ := e
      obtain ⟨hlookup, hcand⟩ := isCandidate_of_match hmatch
      have hcount := Table.countP_erase (p := isCandidate sig) hlookup hcand
      show (t.positions.erase key).entries.countP (isCandidate sig) =
        t.positions.entries.countP (isCandidate sig) - 1
      omega

/-- After an entry, the position is there. -/
theorem lookup_trackEntry : (t.trackEntry cfg now sig).positions.lookup (signalKey sig) ≠ none := by
  rw [trackEntry]
  cases hkey : t.positions.lookup (signalKey sig) with
  | some vp =>
      show t.positions.lookup (signalKey sig) ≠ none
      rw [hkey]
      simp
  | none =>
      have hnew : ((t.reverse cfg now sig).enter now sig).positions.lookup (signalKey sig) =
          some (opened now sig) := AList.lookup_insert _
      show ((t.reverse cfg now sig).enter now sig).positions.lookup (signalKey sig) ≠ none
      rw [hnew]
      simp

/-- **The same signal again** changes the tracker, unless it was tracked
once. -/
theorem follows_track_iff : (t.track cfg now sig).Follows sig ↔ ¬ t.TrackedOnce sig := by
  unfold TrackedOnce
  by_cases hskip : sig.marketType = "spot" ∨ sig.symbol = ""
  · refine iff_of_false (fun h => h.1 hskip) fun h => h ?_
    tauto
  · unfold Follows WebhookSignal.Exits track
    rw [if_neg hskip]
    rw [not_or] at hskip
    cases htype : sig.sigType with
    | entry | reEntry =>
        have hthere : (t.trackEntry cfg now sig).positions.lookup (signalKey sig) ≠ none :=
          lookup_trackEntry
        simp [hthere]
    | tp | sl =>
        simp only [candidates_trackExit]
        simp [hskip]
        omega
    | unknown => simp

end ShadowTracker

/-! ## The spot tracker -/

namespace SpotShadowTracker

open VirtualPosition (makeKey)
open ShadowTracker (timeframe)

variable {now : ℕ} {sig : WebhookSignal} {t : SpotShadowTracker} {key reason : String}
  {vp : VirtualSpotPosition} {price pct : ℚ}

/-- The key a signal's position is under. -/
def signalKey (sig : WebhookSignal) : String := makeKey sig.symbol (timeframe sig) sig.exchange

def isCandidate (sig : WebhookSignal) (e : Sigma fun _ : String => VirtualSpotPosition) : Bool :=
  e.1 = signalKey sig || e.2.symbol = sig.symbol

def candidates (sig : WebhookSignal) (t : SpotShadowTracker) : ℕ :=
  t.positions.entries.countP (isCandidate sig)

/-- The buy is one that the tracker opens a position for, if there is none. -/
def Opens (sig : WebhookSignal) : Prop :=
  (sig.sigType = .entry ∨ sig.sigType = .reEntry) ∧ sig.action = "buy" ∧
    ¬ (sig.exchange = "upbit" ∧ spotQuoteCurrency sig.symbol ≠ "KRW") ∧
    ¬ (sig.exchange = "bitget" ∧ spotQuoteCurrency sig.symbol ≠ "USDT")

/-- The exit is one that the tracker follows. -/
def Closes (sig : WebhookSignal) : Prop := sig.Exits ∧ sig.signalDirection = "bull"

/-- **The signal changes the tracker.** -/
def Follows (sig : WebhookSignal) (t : SpotShadowTracker) : Prop :=
  ¬ (sig.marketType ≠ "spot" ∨ sig.symbol = "") ∧
    (Opens sig ∧ t.positions.lookup (signalKey sig) = none ∨ Closes sig ∧ t.candidates sig ≠ 0)

/-- The signal closes all that is left of a position. -/
def ClosesAll (sig : WebhookSignal) (vp : VirtualSpotPosition) : Prop :=
  sig.sigType = .tp →
    vp.remainingPct ≤ min (tpClosePct sig.tpLevel) vp.remainingPct ∨
      vp.remainingPct * (1 - min (tpClosePct sig.tpLevel) vp.remainingPct / 100) < 1

/-- **Tracked once**: the signal is no exit of the tracker's, or there is at
most one position that it could close, and it closes all of it. -/
def TrackedOnce (sig : WebhookSignal) (t : SpotShadowTracker) : Prop :=
  sig.marketType ≠ "spot" ∨ sig.symbol = "" ∨ ¬ Closes sig ∨
    t.candidates sig ≤ 1 ∧ ∀ e ∈ t.match? sig, ClosesAll sig e.2

theorem match?_eq : t.match? sig =
    t.positions.findUnder (signalKey sig) fun vp => vp.symbol = sig.symbol := by
  unfold match? Table.findUnder signalKey
  dsimp only
  cases t.positions.lookup (makeKey sig.symbol (timeframe sig) sig.exchange) with
  | none => rfl
  | some vp => rfl

theorem match?_eq_none_iff : t.match? sig = none ↔ t.candidates sig = 0 := by
  rw [match?_eq]
  exact Table.findUnder_eq_none_iff

theorem isCandidate_of_match (h : t.match? sig = some (key, vp)) :
    t.positions.lookup key = some vp ∧ isCandidate sig ⟨key, vp⟩ = true := by
  rw [match?_eq] at h
  refine (Table.findUnder_eq_some h).imp_right fun hfound => ?_
  simp only [isCandidate, Bool.or_eq_true, decide_eq_true_eq]
  simpa using hfound

theorem trackSl_eq_self_iff :
    t.trackSl sig = t ↔ sig.signalDirection ≠ "bull" ∨ t.candidates sig = 0 := by
  rw [← match?_eq_none_iff, trackSl]
  by_cases hbull : sig.signalDirection = "bull"
  · rw [if_neg fun h => h hbull]
    cases hmatch : t.match? sig with
    | none => exact iff_of_true rfl (.inr rfl)
    | some e =>
        refine iff_of_false (fun hsame => ?_) (by simp [hbull])
        have hcloses : t.totalCloses + 1 = t.totalCloses := congrArg totalCloses hsame
        omega
  · rw [if_pos hbull]
    exact iff_of_true rfl (.inl hbull)

theorem trackTp_eq_self_iff :
    t.trackTp sig = t ↔ sig.signalDirection ≠ "bull" ∨ t.candidates sig = 0 := by
  rw [← match?_eq_none_iff, trackTp]
  by_cases hbull : sig.signalDirection = "bull"
  · rw [if_neg fun h => h hbull]
    cases hmatch : t.match? sig with
    | none => exact iff_of_true rfl (.inr rfl)
    | some e =>
        refine iff_of_false (fun hsame => ?_) (by simp [hbull])
        dsimp only at hsame
        split_ifs at hsame
        · have hcloses : t.totalCloses + 1 = t.totalCloses := congrArg totalCloses hsame
          omega
        · have hcloses : t.totalCloses + 1 = t.totalCloses := congrArg totalCloses hsame
          omega
  · rw [if_pos hbull]
    exact iff_of_true rfl (.inl hbull)

theorem trackEntry_eq_self_iff (htype : sig.sigType = .entry ∨ sig.sigType = .reEntry) :
    t.trackEntry now sig = t ↔ ¬ (Opens sig ∧ t.positions.lookup (signalKey sig) = none) := by
  unfold trackEntry Opens
  dsimp only
  rw [← signalKey]
  split_ifs with haction hupbit hbitget hthere
  · exact iff_of_true rfl fun h => haction h.1.2.1
  · exact iff_of_true rfl fun h => h.1.2.2.1 hupbit
  · exact iff_of_true rfl fun h => h.1.2.2.2 hbitget
  · refine iff_of_true rfl fun h => ?_
    rw [h.2] at hthere
    cases hthere
  · refine iff_of_false (fun hsame => ?_) ?_
    · have hentries : t.totalEntries + 1 = t.totalEntries := congrArg totalEntries hsame
      omega
    · rw [not_ne_iff] at haction
      rw [Option.not_isSome_iff_eq_none] at hthere
      exact fun h => h ⟨⟨htype, haction, hupbit, hbitget⟩, hthere⟩

/-- **When the tracker stays as it is.** -/
theorem track_eq_self_iff : t.track now sig = t ↔ ¬ t.Follows sig := by
  unfold track Follows
  by_cases hskip : sig.marketType ≠ "spot" ∨ sig.symbol = ""
  · rw [if_pos hskip]
    exact iff_of_true rfl fun h => h.1 hskip
  · rw [if_neg hskip, and_iff_right hskip]
    cases htype : sig.sigType with
    | entry | reEntry =>
        rw [trackEntry_eq_self_iff (by simp [htype])]
        simp [Closes, WebhookSignal.Exits, htype]
    | tp =>
        rw [trackTp_eq_self_iff]
        simp [Closes, Opens, WebhookSignal.Exits, htype]
        tauto
    | sl =>
        rw [trackSl_eq_self_iff]
        simp [Closes, Opens, WebhookSignal.Exits, htype]
        tauto
    | unknown => simp [Closes, Opens, WebhookSignal.Exits, htype]

/-- Whether the signal changes the tracker depends on the positions. -/
theorem Follows.congr {t' : SpotShadowTracker} (h : t'.positions = t.positions) :
    t'.Follows sig ↔ t.Follows sig := by
  unfold Follows candidates
  rw [h]

theorem candidates_of_erase {t' : SpotShadowTracker} (h : t.match? sig = some (key, vp))
    (herase : t'.positions = t.positions.erase key) :
    t'.candidates sig = t.candidates sig - 1 := by
  obtain ⟨hlookup, hcand⟩ := isCandidate_of_match h
  have hcount := Table.countP_erase (p := isCandidate sig) hlookup hcand
  rw [candidates, candidates, herase]
  omega

/-- What is left of a position is a candidate as it was. -/
theorem candidates_of_modify {t' : SpotShadowTracker} {rest : ℚ}
    (hmodify : t'.positions =
      t.positions.modify key fun vp => { vp with remainingPct := rest }) :
    t'.candidates sig = t.candidates sig := by
  rw [candidates, candidates, hmodify, Table.modify, Table.entries_mapValues, List.countP_map]
  refine List.countP_congr fun e _ => ?_
  simp only [Function.comp_apply, isCandidate]
  split_ifs <;> rfl

/-- **After an exit that is followed**: one candidate less, unless a part of
the position is left. -/
theorem candidates_trackTp (htype : sig.sigType = .tp) (hbull : sig.signalDirection = "bull")
    (hmatch : t.match? sig = some (key, vp)) :
    ClosesAll sig vp ∧ (t.trackTp sig).candidates sig = t.candidates sig - 1 ∨
      ¬ ClosesAll sig vp ∧ (t.trackTp sig).candidates sig = t.candidates sig := by
  unfold ClosesAll
  rw [trackTp, if_neg fun h => h hbull, hmatch]
  dsimp only
  split_ifs with hall
  · exact .inl ⟨fun _ => .inl hall, candidates_of_erase hmatch rfl⟩
  · by_cases hrest : vp.remainingPct * (1 - min (tpClosePct sig.tpLevel) vp.remainingPct / 100) < 1
    · exact .inl ⟨fun _ => .inr hrest, candidates_of_erase hmatch (if_pos hrest)⟩
    · exact .inr ⟨fun h => (h htype).elim hall hrest, candidates_of_modify (if_neg hrest)⟩

theorem candidates_trackSl (hbull : sig.signalDirection = "bull")
    (hmatch : t.match? sig = some (key, vp)) :
    (t.trackSl sig).candidates sig = t.candidates sig - 1 := by
  rw [trackSl, if_neg fun h => h hbull, hmatch]
  exact candidates_of_erase hmatch rfl

/-- After a buy that the tracker opens a position for, the position is there. -/
theorem lookup_trackEntry (hopens : Opens sig) :
    (t.trackEntry now sig).positions.lookup (signalKey sig) ≠ none := by
  intro hnone
  have hsame : t.trackEntry now sig = t → False := by
    intro hsame
    rw [hsame] at hnone
    exact (trackEntry_eq_self_iff hopens.1).1 hsame ⟨hopens, hnone⟩
  unfold trackEntry at hnone hsame
  dsimp only at hnone hsame
  split_ifs at hnone hsame
  all_goals try exact hsame rfl
  rw [signalKey, AList.lookup_insert] at hnone
  cases hnone

/-- **The same signal again** changes the tracker, unless it was tracked
once. -/
theorem follows_track_iff : (t.track now sig).Follows sig ↔ ¬ t.TrackedOnce sig := by
  unfold TrackedOnce
  by_cases hskip : sig.marketType ≠ "spot" ∨ sig.symbol = ""
  · refine iff_of_false (fun h => h.1 hskip) fun h => h ?_
    tauto
  · unfold Follows track
    rw [if_neg hskip, and_iff_right hskip]
    rw [not_or] at hskip
    by_cases hcloses : Closes sig
    · have hopens : ¬ Opens sig := by
        rintro ⟨hentry, -⟩
        rcases hcloses.1 with h | h <;> simp [h] at hentry
      have honce : (sig.marketType ≠ "spot" ∨ sig.symbol = "" ∨ ¬ Closes sig ∨
          t.candidates sig ≤ 1 ∧ ∀ e ∈ t.match? sig, ClosesAll sig e.2) ↔
            t.candidates sig ≤ 1 ∧ ∀ e ∈ t.match? sig, ClosesAll sig e.2 := by
        simp [hskip, hcloses]
      rw [honce, or_iff_right fun h => hopens h.1, and_iff_right hcloses]
      cases hmatch : t.match? sig with
      | none =>
          have hzero := match?_eq_none_iff.1 hmatch
          rcases hcloses.1 with htype | htype <;> rw [htype] <;> dsimp only
          · rw [trackTp_eq_self_iff.2 (.inr hzero)]
            simp [hzero]
          · rw [trackSl_eq_self_iff.2 (.inr hzero)]
            simp [hzero]
      | some e =>
          obtain ⟨key, vp⟩ := e
          have hsome : t.candidates sig ≠ 0 := by
            intro hzero
            rw [match?_eq_none_iff.2 hzero] at hmatch
            cases hmatch
          have hall : (∀ e ∈ some (key, vp), ClosesAll sig e.2) ↔ ClosesAll sig vp := by simp
          rw [hall]
          rcases hcloses.1 with htype | htype <;> rw [htype] <;> dsimp only
          · rcases candidates_trackTp htype hcloses.2 hmatch with ⟨hvp, hcount⟩ | ⟨hvp, hcount⟩
            · rw [hcount, and_iff_left hvp]
              omega
            · exact iff_of_true (hcount ▸ hsome) fun h => hvp h.2
          · have hvp : ClosesAll sig vp := fun htp => by simp [htype] at htp
            rw [candidates_trackSl hcloses.2 hmatch, and_iff_left hvp]
            omega
    · refine iff_of_false (fun h => ?_) fun h => h (.inr (.inr (.inl hcloses)))
      rcases h with ⟨hopens, hnone⟩ | ⟨hfollows, -⟩
      · have hthere : (t.trackEntry now sig).positions.lookup (signalKey sig) ≠ none :=
          lookup_trackEntry hopens
        rcases hopens.1 with htype | htype
        · rw [htype] at hnone
          exact hthere hnone
        · rw [htype] at hnone
          exact hthere hnone
      · exact hcloses hfollows

end SpotShadowTracker

end WebhookTrader
