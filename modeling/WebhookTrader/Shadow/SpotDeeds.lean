import WebhookTrader.Shadow.Repetition

/-!
# What a signal does to the spot tracker

A signal opens a position, sells a share of one, or does nothing. The
tracker's branches come down to these three, and what is proved of spot
positions, trades and grades goes by them.
-/

namespace WebhookTrader

/-- **What a signal does to the spot tracker.** -/
inductive SpotDeed
  /-- A position is opened under a key. -/
  | opens (key : String) (vp : VirtualSpotPosition)
  /-- A share of a position is sold with a trade; the rest is in percent,
  none where the position goes. -/
  | sells (key : String) (vp : VirtualSpotPosition) (tr : TradeRecord) (rest : Option ℚ)

namespace SpotShadowTracker

open ShadowTracker (timeframe)

variable {now : ℕ} {sig : WebhookSignal} {t : SpotShadowTracker}

/-- The position `track_entry` opens. -/
def opened (now : ℕ) (sig : WebhookSignal) : VirtualSpotPosition where
  symbol := sig.symbol
  timeframe := timeframe sig
  exchange := sig.exchange
  strategy := sig.strategyName
  entryPrice := sig.price
  slPrice := sig.sl
  tp1Price := sig.tp1
  openedAt := now

/-- All that is left is sold. -/
def sellsAll (price : ℚ) (reason key : String) (vp : VirtualSpotPosition) : SpotDeed :=
  .sells key vp (closedTrade vp price reason (vp.remainingPct / 100)) none

/-- A share of what is left is sold; less than one percent is no rest. -/
def sellsShare (price : ℚ) (reason : String) (pct : ℚ) (key : String)
    (vp : VirtualSpotPosition) : SpotDeed :=
  let rest := vp.remainingPct * (1 - pct / 100)
  .sells key vp (closedTrade vp price reason (pct / 100 * (vp.remainingPct / 100)))
    (if rest < 1 then none else some rest)

/-- The sale of a take-profit. -/
def takesProfit (sig : WebhookSignal) (key : String) (vp : VirtualSpotPosition) : SpotDeed :=
  let pct := min (tpClosePct sig.tpLevel) vp.remainingPct
  if vp.remainingPct ≤ pct then sellsAll sig.price ("TP_" ++ sig.tpLevel) key vp
  else sellsShare sig.price ("TP_" ++ sig.tpLevel) pct key vp

instance (sig : WebhookSignal) : Decidable (Opens sig) := inferInstanceAs (Decidable (_ ∧ _))

/-- **What a signal does.** -/
def deed (now : ℕ) (sig : WebhookSignal) (t : SpotShadowTracker) : Option SpotDeed :=
  if sig.marketType ≠ "spot" ∨ sig.symbol = "" then none
  else
    match sig.sigType with
    | .entry | .reEntry =>
        if Opens sig ∧ t.positions.lookup (signalKey sig) = none then
          some (.opens (signalKey sig) (opened now sig))
        else none
    | .tp =>
        if sig.signalDirection = "bull" then
          (t.match? sig).map fun e => takesProfit sig e.1 e.2
        else none
    | .sl =>
        if sig.signalDirection = "bull" then
          (t.match? sig).map fun e => sellsAll sig.price "SL" e.1 e.2
        else none
    | .unknown => none

end SpotShadowTracker

open SpotShadowTracker in
/-- The tracker after a deed. -/
def SpotDeed.apply : SpotDeed → SpotShadowTracker → SpotShadowTracker
  | opens key vp, t =>
      { t with
        positions := t.positions.insert key vp
        totalEntries := t.totalEntries + 1 }
  | sells key _ tr none, t =>
      { t.record tr with positions := (t.record tr).positions.erase key }
  | sells key _ tr (some rest), t =>
      { t.record tr with
        positions := (t.record tr).positions.modify key fun vp =>
          { vp with remainingPct := rest } }

namespace SpotShadowTracker

open ShadowTracker (timeframe)

variable {now : ℕ} {sig : WebhookSignal} {t : SpotShadowTracker} {d : SpotDeed}
  {key reason : String} {vp : VirtualSpotPosition} {price pct : ℚ}

/-! ## The tracker does its deeds -/

theorem closePosition_eq : t.closePosition price reason key vp =
    (sellsAll price reason key vp).apply t := rfl

theorem partialClose_eq : t.partialClose price reason pct key vp =
    (sellsShare price reason pct key vp).apply t := by
  unfold partialClose sellsShare
  dsimp only
  split_ifs <;> rfl

theorem trackTp_eq : t.trackTp sig =
    (if sig.signalDirection = "bull" then (t.match? sig).map fun e => takesProfit sig e.1 e.2
      else none).elim t fun d => d.apply t := by
  unfold trackTp
  by_cases hbull : sig.signalDirection = "bull"
  · rw [if_neg (not_not.2 hbull), if_pos hbull]
    cases t.match? sig with
    | none => rfl
    | some e =>
        show _ = (takesProfit sig e.1 e.2).apply t
        unfold takesProfit
        dsimp only
        split_ifs
        · exact closePosition_eq
        · exact partialClose_eq
  · rw [if_pos hbull, if_neg hbull]
    rfl

theorem trackSl_eq : t.trackSl sig =
    (if sig.signalDirection = "bull" then
        (t.match? sig).map fun e => sellsAll sig.price "SL" e.1 e.2
      else none).elim t fun d => d.apply t := by
  unfold trackSl
  by_cases hbull : sig.signalDirection = "bull"
  · rw [if_neg (not_not.2 hbull), if_pos hbull]
    cases t.match? sig with
    | none => rfl
    | some e => exact closePosition_eq
  · rw [if_pos hbull, if_neg hbull]
    rfl

theorem trackEntry_eq (htype : sig.sigType = .entry ∨ sig.sigType = .reEntry) :
    t.trackEntry now sig =
      (if Opens sig ∧ t.positions.lookup (signalKey sig) = none then
          some (SpotDeed.opens (signalKey sig) (opened now sig))
        else none).elim t fun d => d.apply t := by
  by_cases hopens : Opens sig ∧ t.positions.lookup (signalKey sig) = none
  · rw [if_pos hopens]
    obtain ⟨⟨-, hbuy, hupbit, hbitget⟩, hnone⟩ := hopens
    unfold signalKey at hnone
    unfold trackEntry
    dsimp only
    rw [if_neg (not_not.2 hbuy), if_neg hupbit, if_neg hbitget, if_neg (by simp [hnone])]
    rfl
  · rw [if_neg hopens]
    exact (trackEntry_eq_self_iff htype).2 hopens

/-- **Tracking is doing the deed**, where there is one. -/
theorem track_eq : t.track now sig = (t.deed now sig).elim t fun d => d.apply t := by
  unfold track deed
  by_cases hskip : sig.marketType ≠ "spot" ∨ sig.symbol = ""
  · rw [if_pos hskip, if_pos hskip]
    rfl
  · rw [if_neg hskip, if_neg hskip]
    cases htype : sig.sigType with
    | entry => exact trackEntry_eq (.inl htype)
    | reEntry => exact trackEntry_eq (.inr htype)
    | tp => exact trackTp_eq
    | sl => exact trackSl_eq
    | unknown => rfl

/-! ## Which deeds there are -/

/-- **The deeds of a tracker**: a position of the signal under a free key,
all of a position, or a share of one at a take-profit. -/
theorem deed_cases (h : t.deed now sig = some d) :
    (t.positions.lookup (signalKey sig) = none ∧ d = .opens (signalKey sig) (opened now sig)) ∨
      ∃ key vp, t.positions.lookup key = some vp ∧
        ((∃ reason, d = sellsAll sig.price reason key vp) ∨
          tpClosePct sig.tpLevel < vp.remainingPct ∧
            d = sellsShare sig.price ("TP_" ++ sig.tpLevel) (tpClosePct sig.tpLevel) key vp) := by
  unfold deed at h
  by_cases hskip : sig.marketType ≠ "spot" ∨ sig.symbol = ""
  · rw [if_pos hskip] at h
    cases h
  rw [if_neg hskip] at h
  cases htype : sig.sigType <;> rw [htype] at h <;> dsimp only at h
  case entry | reEntry =>
    split_ifs at h with hopens
    exact .inl ⟨hopens.2, (Option.some.inj h).symm⟩
  case tp =>
    split_ifs at h with hbull
    obtain ⟨⟨key, vp⟩, hmatch, rfl⟩ := Option.map_eq_some_iff.1 h
    refine .inr ⟨key, vp, (isCandidate_of_match hmatch).1, ?_⟩
    unfold takesProfit
    dsimp only
    split_ifs with hall
    · exact .inl ⟨_, rfl⟩
    · rw [le_min_iff, not_and] at hall
      have hshare : tpClosePct sig.tpLevel < vp.remainingPct := by
        by_contra hle
        exact hall (not_lt.1 hle) le_rfl
      refine .inr ⟨hshare, ?_⟩
      rw [min_eq_left hshare.le]
  case sl =>
    split_ifs at h with hbull
    obtain ⟨⟨key, vp⟩, hmatch, rfl⟩ := Option.map_eq_some_iff.1 h
    exact .inr ⟨key, vp, (isCandidate_of_match hmatch).1, .inl ⟨_, rfl⟩⟩
  case unknown => cases h

end SpotShadowTracker

end WebhookTrader
