import WebhookTrader.Engine.Repeats
import WebhookTrader.Engine.Suppression
import WebhookTrader.Shadow.Repetition

/-!
# A signal that is delivered twice

The duplicate check refuses the second delivery and keeps it from its
handler. Both trackers have followed it by then. So a delivery again is
harmless just where neither tracker makes anything of the same signal
again.
-/

namespace WebhookTrader

/-! ## One delivery after the other -/

/-- **What a redelivery is to leave as it is**: the books, the trades and the
balances of both accounts, and both trackers, with the learner that the
futures tracker has. -/
structure Books where
  positions : Book
  trades : List TradeRecord
  balance : ℚ
  peakBalance : ℚ
  spot : SpotAccount
  shadow : ShadowTracker
  spotShadow : SpotShadowTracker

def Desk.books (d : Desk) : Books where
  positions := d.engine.positions
  trades := d.engine.trades
  balance := d.engine.balance
  peakBalance := d.engine.peakBalance
  spot := d.spot
  shadow := d.shadow
  spotShadow := d.spotShadow

/-- **What there is between two deliveries**: time passes, and the tracker
hears of entries that have passed every filter. -/
structure Desk.Waits (d d' : Desk) : Prop where
  now : d.now ≤ d'.now
  recent : d'.recent = d.recent
  books : ∃ marks : List String, d'.books =
    { d.books with shadow := marks.foldl (fun t key => t.markLiveEquivalent key) d.shadow }

/-- **A signal is processed**, from the stamp to the end of its handler. -/
def Worker.Processed (cfg : DeskConfig) (q : Queued) (d d' : Desk) : Prop :=
  ∃ n, Worker.processSignal cfg n q d = (.idle, d')

/-- **The duplicate check, asked twice** about one fingerprint, refuses the
second time. -/
def Fingerprints.refusesAgain (now now' : ℕ) (fp : UInt64) (recent : Fingerprints) : Bool :=
  !((recent.admits now fp).2.admits now' fp).1

/-- It does so where the fingerprint is new, the table has room and two minutes
have not gone. -/
theorem Fingerprints.refusesAgain_of_new {recent : Fingerprints} {now now' : ℕ} {fp : UInt64}
    (hnew : recent.lookup fp = none) (hroom : recent.size < 50000) (hnow : now' ≤ now + ttl) :
    recent.refusesAgain now now' fp = true := by
  have hkept : recent.overflows now = false := overflows_of_size_le hroom.le
  have hpruned : (pruned now recent).lookup fp = none := by
    rw [Option.eq_none_iff_forall_ne_some]
    intro n hn
    rw [(of_lookup_pruned hn).1] at hnew
    cases hnew
  have hfirst : (recent.admits now fp).2 = (evict now recent).insert fp now := by
    rw [pruned, hkept, if_neg Bool.false_ne_true] at hpruned
    rw [admits, pruned, hkept, if_neg Bool.false_ne_true, hpruned]
    rfl
  have hnone : (evict now recent).lookup fp = none := by
    rw [pruned, hkept, if_neg Bool.false_ne_true] at hpruned
    exact hpruned
  have hsize : Table.size ((evict now recent).insert fp now) ≤ 50000 := by
    have hle : (evict now recent).size ≤ recent.size := size_evict_le
    rw [Table.size_insert hnone]
    omega
  have hthere : ((evict now recent).insert fp now).lookup fp = some now := AList.lookup_insert _
  rw [refusesAgain, hfirst]
  rcases lookup_pruned hthere (overflows_of_size_le hsize) with hstill | hold
  · rw [admits, hstill]
    rfl
  · omega

/-! ## What is processed -/

namespace Worker

variable {cfg : DeskConfig} {q : Queued} {d d' : Desk} {w w' : Worker} {n : ℕ}

/-- The desk at the check: both trackers have followed the signal. -/
def atCheck (cfg : DeskConfig) (q : Queued) (d : Desk) : Desk :=
  { d with
    shadow := d.shadow.track cfg.learner d.engine.clock.system q.sig
    spotShadow := d.spotShadow.track d.engine.clock.system q.sig }

/-- Three steps lead to the check. -/
theorem processSignal_check : processSignal cfg (n + 3) q d =
    Threads.alone (handle cfg) n (.check q d.now) (atCheck cfg q d) := rfl

/-- What is processed is checked. -/
theorem Processed.check (h : Processed cfg q d d') : ∃ n,
    Threads.alone (handle cfg) n (.check q d.now) (atCheck cfg q d) = (.idle, d') := by
  obtain ⟨n, hn⟩ := h
  match n with
  | 0 | 1 | 2 => cases congrArg Prod.fst hn
  | n + 3 => exact ⟨n, processSignal_check.symm.trans hn⟩

/-- The worker is past the check. -/
def isPast : Worker → Bool
  | idle => true
  | futures _ _ => true
  | spot _ _ => true
  | _ => false

theorem Routed.isPast (h : Routed q w) : w.isPast = true := by
  cases h <;> rfl

/-- **Past the check**, nothing happens to the trackers and the table. -/
theorem handle_past (hpast : w.isPast = true) (h : w.handle cfg d = some (w', d')) :
    w'.isPast = true ∧ d'.now = d.now ∧ d'.recent = d.recent ∧ d'.shadow = d.shadow ∧
      d'.spotShadow = d.spotShadow := by
  obtain ⟨-, hmove⟩ := move_of_handle h
  cases hmove with
  | leave | futures | leaveSpot => exact ⟨rfl, rfl, rfl, rfl, rfl⟩
  | spot ticket hstep =>
      cases SpotJob.move_of_step hstep with
      | quiet | account => exact ⟨rfl, rfl, rfl, rfl, rfl⟩
  | wake => cases h
  | _ => cases hpast

/-- Nothing takes time. -/
theorem Processed.now (h : Processed cfg q d d') : d'.now = d.now := by
  obtain ⟨n, hn⟩ := h
  have hrun : (Threads.alone (handle cfg) n (.stamp q) d).2.now = d.now :=
    Threads.alone_invariant (I := fun _ d' => d'.now = d.now)
      (fun w d₁ w' d₂ hI hnext => (move_of_handle hnext).2.stamps.1.trans hI) rfl n
  rw [processSignal] at hn
  rw [hn] at hrun
  exact hrun

/-- **After a signal that is not stale** has been processed. -/
theorem Processed.tracked (h : Processed cfg q d d') (hfresh : q.sig.isStale d.now = false) :
    d'.now = d.now ∧ d'.recent = (d.recent.admits d.now (q.sig.fingerprint cfg.hash)).2 ∧
      d'.shadow = (atCheck cfg q d).shadow ∧ d'.spotShadow = (atCheck cfg q d).spotShadow := by
  obtain ⟨n, hn⟩ := h.check
  have hrun := Threads.alone_invariant
    (I := fun (w : Worker) d' => w = .check q d.now ∧ d' = atCheck cfg q d ∨
      w.isPast = true ∧ d'.now = d.now ∧
        d'.recent = (d.recent.admits d.now (q.sig.fingerprint cfg.hash)).2 ∧
        d'.shadow = (atCheck cfg q d).shadow ∧ d'.spotShadow = (atCheck cfg q d).spotShadow)
    (fun w d₁ w' d₂ hI (hnext : handle cfg w d₁ = some (w', d₂)) => ?_) (.inl ⟨rfl, rfl⟩) n
  · rw [hn] at hrun
    rcases hrun with ⟨hcheck, -⟩ | ⟨-, hpast⟩
    · cases hcheck
    · exact hpast
  · right
    rcases hI with ⟨rfl, rfl⟩ | ⟨hpast, hnow, hrecent, hshadow, hspot⟩
    · cases (move_of_handle hnext).2 with
      | stale hstale =>
          rw [hfresh] at hstale
          cases hstale
      | duplicate => exact ⟨rfl, rfl, rfl, rfl, rfl⟩
      | pass => exact ⟨(routed_route cfg q).isPast, rfl, rfl, rfl, rfl⟩
    · obtain ⟨hpast', hnow', hrecent', hshadow', hspot'⟩ := handle_past hpast hnext
      exact ⟨hpast', hnow'.trans hnow, hrecent'.trans hrecent, hshadow'.trans hshadow,
        hspot'.trans hspot⟩

/-- **After a signal that is refused**, only the trackers have changed. -/
theorem Processed.refused (h : Processed cfg q d d') (hfresh : q.sig.isStale d.now = false)
    (hrefused : (d.recent.admits d.now (q.sig.fingerprint cfg.hash)).1 = false) :
    d'.books = (atCheck cfg q d).books := by
  obtain ⟨n, hn⟩ := h.check
  cases n with
  | zero => cases congrArg Prod.fst hn
  | succ n =>
      have hstep : handle cfg (.check q d.now) (atCheck cfg q d) = some (.idle,
          { atCheck cfg q d with
            recent := (d.recent.admits d.now (q.sig.fingerprint cfg.hash)).2 }) := by
        simp only [handle, step]
        rw [if_neg (by simp [hfresh])]
        show some (if (d.recent.admits d.now (q.sig.fingerprint cfg.hash)).1 then _ else _, _) = _
        rw [if_neg (by simp [hrefused])]
        rfl
      have hidle : ∀ d', Threads.alone (handle cfg) n .idle d' = (.idle, d') := by
        intro d'
        cases n <;> rfl
      rw [Threads.alone, hstep] at hn
      dsimp only at hn
      rw [hidle] at hn
      cases hn
      rfl

end Worker

/-! ## The second delivery -/

theorem positions_foldl_mark (marks : List String) (t : ShadowTracker) :
    (marks.foldl (fun t key => t.markLiveEquivalent key) t).positions = t.positions := by
  induction marks generalizing t with
  | nil => rfl
  | cons key marks ih => exact ih (t.markLiveEquivalent key)

theorem WebhookSignal.isStale_of_le {sig : WebhookSignal} {now now' : ℕ} (hle : now ≤ now')
    (h : sig.isStale now' = false) : sig.isStale now = false := by
  unfold isStale ageMs at h ⊢
  simp only [decide_eq_false_iff_not, not_lt] at h ⊢
  exact (Nat.div_le_div_right (Nat.sub_le_sub_right hle _)).trans h

/-- **The trackers before and after the second delivery** are the same where
both have tracked the signal once. -/
theorem Desk.Waits.tracked_iff {cfg : DeskConfig} {q : Queued} {d d₁ d₁' : Desk}
    (hwait : d₁.Waits d₁')
    (hshadow : d₁.shadow = d.shadow.track cfg.learner d.engine.clock.system q.sig)
    (hspotShadow : d₁.spotShadow = d.spotShadow.track d.engine.clock.system q.sig) :
    (Worker.atCheck cfg q d₁').books = d₁'.books ↔
      d.shadow.TrackedOnce q.sig ∧ d.spotShadow.TrackedOnce q.sig := by
  obtain ⟨marks, hbooks⟩ := hwait.books
  have hpositions : d₁'.shadow.positions = d₁.shadow.positions := by
    have hmarked : d₁'.shadow = _ := congrArg Books.shadow hbooks
    rw [hmarked]
    exact positions_foldl_mark marks d₁.shadow
  have hspot : d₁'.spotShadow = d₁.spotShadow := congrArg Books.spotShadow hbooks
  have hsame : (Worker.atCheck cfg q d₁').books = d₁'.books ↔
      d₁'.shadow.track cfg.learner d₁'.engine.clock.system q.sig = d₁'.shadow ∧
        d₁'.spotShadow.track d₁'.engine.clock.system q.sig = d₁'.spotShadow := by
    simp [Worker.atCheck, Desk.books]
  rw [hsame, ShadowTracker.track_eq_self_iff, SpotShadowTracker.track_eq_self_iff,
    ShadowTracker.Follows.congr hpositions, hspot, hshadow, hspotShadow,
    ShadowTracker.follows_track_iff, SpotShadowTracker.follows_track_iff, not_not, not_not]

/-! ## A take-profit that is delivered twice

The spot tracker sells a third of its position, and then a third of the
rest.
-/

namespace TwiceDelivered

def buy : WebhookSignal where
  symbol := "BTCKRW"
  timeframe := "15"
  alert := "BUY"
  action := "buy"
  tradeSide := "open"
  sigType := .entry
  price := 100
  exchange := "upbit"
  marketType := "spot"

def tp : WebhookSignal where
  symbol := "BTCKRW"
  timeframe := "15"
  alert := "TP1"
  signalDirection := "bull"
  action := "sell"
  tradeSide := "close"
  sigType := .tp
  tpLevel := "TP1"
  price := 110
  exchange := "upbit"
  marketType := "spot"

/-- A desk whose spot tracker has followed the buy. -/
def desk : Desk where
  engine := { modes := Modes.start true }
  spotShadow := SpotShadowTracker.track 0 buy {}

/-- The first delivery, and the second. -/
def first (sig : WebhookSignal) : Queued := ⟨0, sig, {}⟩

def second (sig : WebhookSignal) : Queued := ⟨1, sig, {}⟩

/-- The desk after so many steps of a delivery. -/
def after (n : ℕ) (q : Queued) (d : Desk) : Desk := (Worker.processSignal {} n q d).2

def isIdle : Worker → Bool
  | .idle => true
  | _ => false

theorem processed {n : ℕ} {q : Queued} {d : Desk}
    (h : isIdle (Worker.processSignal {} n q d).1 = true) :
    Worker.Processed {} q d (after n q d) := by
  refine ⟨n, ?_⟩
  cases hrun : Worker.processSignal {} n q d with
  | mk w d' =>
      rw [hrun] at h
      cases w with
      | idle => rw [after, hrun]
      | _ => cases h

theorem waits_refl (d : Desk) : d.Waits d := ⟨le_rfl, rfl, [], rfl⟩

end TwiceDelivered

open TwiceDelivered in
/-- **A spot take-profit that is delivered twice** is tracked twice. -/
theorem takeProfit_tracked_twice :
    ¬ ∀ (cfg : DeskConfig) (q q' : Queued) (d d₁ d₁' d₂ : Desk), q'.sig = q.sig →
      Worker.Processed cfg q d d₁ → d₁.Waits d₁' → q.sig.isStale d₁'.now = false →
      Worker.Processed cfg q' d₁' d₂ → d₂.books = d₁'.books := by
  intro h
  have hsame := h {} (first tp) (second tp) desk (after 8 (first tp) desk)
    (after 8 (first tp) desk) (after 4 (second tp) (after 8 (first tp) desk)) rfl
    (processed (by decide +kernel)) (waits_refl _) (by decide +kernel)
    (processed (by decide +kernel))
  have hcloses := congrArg (fun b : Books => b.spotShadow.totalCloses) hsame
  revert hcloses
  decide +kernel

/-- **Redelivery is harmless** just where both trackers have tracked the
signal once, if the check refuses the second delivery. -/
theorem redelivery_harmless_iff {cfg : DeskConfig} {q q' : Queued} {d d₁ d₁' d₂ : Desk}
    (hsig : q'.sig = q.sig) (hfirst : Worker.Processed cfg q d d₁) (hwait : d₁.Waits d₁')
    (hfresh : q.sig.isStale d₁'.now = false)
    (hrefuses : d.recent.refusesAgain d.now d₁'.now (q.sig.fingerprint cfg.hash) = true)
    (hsecond : Worker.Processed cfg q' d₁' d₂) :
    d₂.books = d₁'.books ↔ d.shadow.TrackedOnce q.sig ∧ d.spotShadow.TrackedOnce q.sig := by
  have hnow : d.now ≤ d₁'.now := hfirst.now ▸ hwait.now
  obtain ⟨-, hrecent, hshadow, hspotShadow⟩ :=
    hfirst.tracked (WebhookSignal.isStale_of_le hnow hfresh)
  have hrefused : (d₁'.recent.admits d₁'.now (q'.sig.fingerprint cfg.hash)).1 = false := by
    rw [hwait.recent, hrecent, hsig]
    simpa [Fingerprints.refusesAgain] using hrefuses
  have hbooks := hsecond.refused (by rw [hsig]; exact hfresh) hrefused
  have hcheck : (Worker.atCheck cfg q' d₁').books = (Worker.atCheck cfg q d₁').books := by
    simp only [Worker.atCheck, hsig]
  rw [hbooks, hcheck]
  exact hwait.tracked_iff hshadow hspotShadow

open TwiceDelivered in
theorem redelivery_harmless_iff_buy :
    (after 4 (second buy) (after 10 (first buy) desk)).books = (after 10 (first buy) desk).books ↔
      desk.shadow.TrackedOnce buy ∧ desk.spotShadow.TrackedOnce buy :=
  @redelivery_harmless_iff {} (first buy) (second buy) desk _ _ _ rfl
    (processed (by decide +kernel)) (waits_refl _) (by decide +kernel) (by decide +kernel)
    (processed (by decide +kernel))

end WebhookTrader
