import WebhookTrader.Engine.Deeds

/-!
# Duplicates

The duplicate check keeps every fingerprint it lets pass, with the time
the worker has read before. A kept fingerprint goes when it is more than
two minutes older than the time another worker has read, or with the
whole table, at the daily reset or where the table is too large. So two
signals of one fingerprint pass two minutes apart, or with a clearing of
the table between them.
-/

namespace WebhookTrader

namespace Fingerprints

variable {recent : Fingerprints} {now n : ℕ} {fp fp' : UInt64}

/-- **The first rule spares what is young.** -/
theorem lookup_evict (h : recent.lookup fp = some n) :
    (evict now recent).lookup fp = some n ∨ n + ttl < now := by
  by_cases hold : n + ttl < now
  · exact .inr hold
  left
  unfold evict
  split_ifs
  · rw [Table.lookup_foldl_erase, if_neg, h]
    intro hmem
    obtain ⟨⟨k, n'⟩, he, rfl⟩ := List.mem_map.1 hmem
    obtain ⟨he, hage⟩ := List.mem_filter.1 he
    -- the entry is the one that is looked up
    obtain rfl : n' = n := Option.some.inj ((AList.mem_lookup_iff.2 he).symm.trans h)
    simp only [decide_eq_true_eq] at hage
    omega
  · exact h

theorem lookup_pruned (h : recent.lookup fp = some n) (hkept : overflows now recent = false) :
    (pruned now recent).lookup fp = some n ∨ n + ttl < now := by
  rw [pruned, hkept]
  exact lookup_evict h

/-- What passes is kept with its time. -/
theorem lookup_admits_self (h : (recent.admits now fp).1 = true) :
    (recent.admits now fp).2.lookup fp = some now := by
  unfold admits at h ⊢
  split_ifs at h ⊢
  exact AList.lookup_insert _

/-- **What passes was not there**, or too old. -/
theorem old_of_admits (h : (recent.admits now fp).1 = true) (hkept : overflows now recent = false)
    (hlookup : recent.lookup fp = some n) : n + ttl < now := by
  refine (lookup_pruned hlookup hkept).resolve_left fun hthere => ?_
  simp [admits, hthere] at h

/-- The check keeps what is young, whatever its answer. -/
theorem lookup_admits (hkept : overflows now recent = false) (hlookup : recent.lookup fp = some n) :
    (recent.admits now fp').2.lookup fp = some n ∨ n + ttl < now := by
  refine (lookup_pruned hlookup hkept).imp_left fun hthere => ?_
  unfold admits
  split_ifs with hfound
  · exact hthere
  · have hne : fp ≠ fp' := by
      rintro rfl
      rw [hthere] at hfound
      exact hfound rfl
    dsimp only
    rw [AList.lookup_insert_ne hne]
    exact hthere

end Fingerprints

/-! ## Passing and clearing -/

namespace Deed

/-- A signal passes the test of age and the duplicate check. -/
def passes (cfg : DeskConfig) : Deed → Bool
  | checked q now d =>
      !q.sig.isStale now && (d.recent.admits now (q.sig.fingerprint cfg.hash)).1
  | _ => false

/-- The table loses everything: at the daily reset, or where a check finds
it too large. -/
def clears : Deed → Bool
  | cleared => true
  | checked q now d => !q.sig.isStale now && d.recent.overflows now
  | _ => false

end Deed

/-- **Two signals of one fingerprint pass two minutes apart**, where nothing
clears the table in between: from the time the worker of the first has
read to the time at which the second passes. -/
def Spaced (cfg : DeskConfig) (log : List Deed) : Prop :=
  ∀ (later between earlier : List Deed) (q₁ q₂ : Queued) (now₁ now₂ : ℕ) (d₁ d₂ : Desk),
    log = later ++ .checked q₂ now₂ d₂ :: (between ++ .checked q₁ now₁ d₁ :: earlier) →
    (Deed.checked q₁ now₁ d₁).passes cfg = true → (Deed.checked q₂ now₂ d₂).passes cfg = true →
    q₁.sig.fingerprint cfg.hash = q₂.sig.fingerprint cfg.hash →
    (∀ deed ∈ Deed.checked q₂ now₂ d₂ :: between, deed.clears = false) →
    now₁ + Fingerprints.ttl < d₂.now

/-! ## The invariant -/

/-- The time a worker has read. -/
def Worker.stampOf : Worker → Option ℕ
  | shadow _ now => some now
  | spotShadow _ now => some now
  | check _ now => some now
  | _ => none

/-- **What has passed since the table was cleared** is in it with its time,
or two minutes have gone. -/
def Standing (cfg : DeskConfig) (d : Desk) (log : List Deed) : Prop :=
  ∀ (since earlier : List Deed) (q : Queued) (now : ℕ) (d₁ : Desk),
    log = since ++ .checked q now d₁ :: earlier →
    (Deed.checked q now d₁).passes cfg = true → (∀ deed ∈ since, deed.clears = false) →
    d.recent.lookup (q.sig.fingerprint cfg.hash) = some now ∨ now + Fingerprints.ttl < d.now

namespace Standing

variable {cfg : DeskConfig} {d d' : Desk} {log : List Deed} {q : Queued} {now : ℕ} {deed : Deed}

/-- Time passes, and the table stays. -/
theorem mono (h : Standing cfg d log) (hrecent : d'.recent = d.recent) (hnow : d.now ≤ d'.now) :
    Standing cfg d' log := by
  intro since earlier q now d₁ hlog hpass hkept
  rw [hrecent]
  exact (h since earlier q now d₁ hlog hpass hkept).imp_right fun hold => hold.trans_le hnow

/-- A deed that does not pass leaves what stands to what it keeps. -/
theorem cons_of_not_passes (hpass : deed.passes cfg = false)
    (h : deed.clears = false → Standing cfg d log) : Standing cfg d (deed :: log) := by
  intro since earlier q now d₁ hlog hpass₁ hkept
  cases since with
  | nil =>
      obtain ⟨rfl, -⟩ := List.cons.inj hlog
      rw [hpass] at hpass₁
      cases hpass₁
  | cons deed' since =>
      obtain ⟨rfl, rfl⟩ := List.cons.inj hlog
      exact h (hkept _ List.mem_cons_self) since earlier q now d₁ rfl hpass₁ fun x hx =>
        hkept x (List.mem_cons_of_mem _ hx)

/-- The table after a check that has not overflowed. -/
theorem admits (h : Standing cfg d log) (hnow : now ≤ d.now)
    (hkept : d.recent.overflows now = false) (fp : UInt64) :
    Standing cfg { d with recent := (d.recent.admits now fp).2 } log := by
  intro since earlier q now' d₁ hlog hpass hclears
  rcases h since earlier q now' d₁ hlog hpass hclears with hlookup | hold
  · exact (Fingerprints.lookup_admits hkept hlookup).imp_right fun hold => hold.trans_le hnow
  · exact .inr hold

/-- **A signal that passes** stands from now on. -/
theorem cons_of_passes (h : Standing cfg d log) (hnow : now ≤ d.now)
    (hstale : q.sig.isStale now = false)
    (hpass : (d.recent.admits now (q.sig.fingerprint cfg.hash)).1 = true) :
    Standing cfg { d with recent := (d.recent.admits now (q.sig.fingerprint cfg.hash)).2 }
      (.checked q now d :: log) := by
  intro since earlier q' now' d₁ hlog hpass₁ hkept
  cases since with
  | nil =>
      obtain ⟨heq, -⟩ := List.cons.inj hlog
      cases heq
      exact .inl (Fingerprints.lookup_admits_self hpass)
  | cons deed' since =>
      obtain ⟨rfl, rfl⟩ := List.cons.inj hlog
      have hclears := hkept _ List.mem_cons_self
      have hkept' : d.recent.overflows now = false := by simpa [Deed.clears, hstale] using hclears
      exact h.admits hnow hkept' _ since earlier q' now' d₁ rfl hpass₁ fun x hx =>
        hkept x (List.mem_cons_of_mem _ hx)

end Standing

namespace Spaced

variable {cfg : DeskConfig} {d : Desk} {log : List Deed} {q : Queued} {now : ℕ} {deed : Deed}

theorem nil : Spaced cfg [] := by
  intro later between earlier q₁ q₂ now₁ now₂ d₁ d₂ hlog
  simp at hlog

theorem cons_of_not_passes (h : Spaced cfg log) (hpass : deed.passes cfg = false) :
    Spaced cfg (deed :: log) := by
  intro later between earlier q₁ q₂ now₁ now₂ d₁ d₂ hlog hpass₁ hpass₂
  cases later with
  | nil =>
      obtain ⟨rfl, -⟩ := List.cons.inj hlog
      rw [hpass] at hpass₂
      cases hpass₂
  | cons deed' later =>
      obtain ⟨rfl, rfl⟩ := List.cons.inj hlog
      exact h later between earlier q₁ q₂ now₁ now₂ d₁ d₂ rfl hpass₁ hpass₂

/-- **A signal passes two minutes after what stands.** -/
theorem cons_of_passes (h : Spaced cfg log) (hstanding : Standing cfg d log) (hnow : now ≤ d.now) :
    Spaced cfg (.checked q now d :: log) := by
  intro later between earlier q₁ q₂ now₁ now₂ d₁ d₂ hlog hpass₁ hpass₂ hfp hkept
  cases later with
  | nil =>
      obtain ⟨heq, rfl⟩ := List.cons.inj hlog
      cases heq
      simp only [Deed.passes, Bool.and_eq_true, Bool.not_eq_true'] at hpass₂
      have hclears := hkept _ List.mem_cons_self
      have hkept₂ : d.recent.overflows now = false := by
        simpa [Deed.clears, hpass₂.1] using hclears
      -- the first one's entry stands, or is old already
      rcases hstanding between earlier q₁ now₁ d₁ rfl hpass₁ fun x hx =>
        hkept x (List.mem_cons_of_mem _ hx) with hlookup | hold
      · rw [hfp] at hlookup
        exact (Fingerprints.old_of_admits hpass₂.2 hkept₂ hlookup).trans_le hnow
      · exact hold
  | cons deed' later =>
      obtain ⟨rfl, rfl⟩ := List.cons.inj hlog
      exact h later between earlier q₁ q₂ now₁ now₂ d₁ d₂ rfl hpass₁ hpass₂ hfp hkept

end Spaced

namespace Worker

variable {cfg : DeskConfig} {d d' : Desk} {w w' : Worker}

theorem Routed.stampOf {q : Queued} (h : Routed q w) : w.stampOf = none := by
  cases h <;> rfl

/-- A worker's step takes no time, and the time it reads is the present. -/
theorem Move.stamps (h : Move cfg d w w' d') :
    d'.now = d.now ∧ ∀ now ∈ w'.stampOf, now ∈ w.stampOf ∨ now = d.now := by
  cases h with
  | wake =>
      refine ⟨rfl, ?_⟩
      split_ifs <;> exact nofun
  | stamp q =>
      refine ⟨rfl, ?_⟩
      rintro now ⟨⟩
      exact .inr rfl
  | shadow | spotShadow => exact ⟨rfl, fun _ hnow => .inl hnow⟩
  | pass =>
      refine ⟨rfl, ?_⟩
      rw [(routed_route cfg _).stampOf]
      exact nofun
  | spot ticket hstep =>
      cases SpotJob.move_of_step hstep with
      | quiet | account => exact ⟨rfl, nofun⟩
  | rest | pop | stale | duplicate | leave | futures | leaveSpot | closeAll => exact ⟨rfl, nofun⟩

/-- **Only the check touches the table**, and only it passes or clears. -/
theorem Move.recent (h : Move cfg d w w' d') (hw : ∀ q now, w ≠ .check q now) :
    d'.recent = d.recent := by
  cases h with
  | stale | duplicate | pass => exact (hw _ _ rfl).elim
  | spot ticket hstep =>
      cases SpotJob.move_of_step hstep with
      | quiet | account => rfl
  | _ => rfl

theorem passes_deed (hw : ∀ q now, w ≠ .check q now) (i : ℕ) :
    ∀ deed ∈ w.deed i d, deed.passes cfg = false := by
  intro deed hdeed
  rcases deed_cases hdeed with ⟨q, -, -, rfl⟩ | ⟨q, now, hcheck, -⟩ | ⟨ticket, job, -, -, rfl⟩
  · rfl
  · exact (hw q now hcheck).elim
  · rfl

end Worker

namespace Floor

/-- **The invariant of the duplicate check.** -/
structure Checked (cfg : DeskConfig) (s : Floor) (log : List Deed) : Prop where
  /-- No worker has read a time that is still to come. -/
  stamps : ∀ (i : ℕ) (w : Worker), s.jobs[i]? = some w → ∀ now ∈ w.stampOf, now ≤ s.shared.now
  standing : Standing cfg s.shared log
  spaced : Spaced cfg log

variable {cfg : DeskConfig} {parse : Text → Option Json} {s s' : Floor} {deed : Option Deed}
  {log : List Deed}

theorem checked_of_init (h : (floorSystem cfg parse).init s) : Checked cfg s [] := by
  refine ⟨fun i w hw => ?_, fun since earlier q now d₁ hlog => ?_, .nil⟩
  · rw [idle_of_init h hw]
    exact nofun
  · simp at hlog

/-- What stands after a worker's step, and what has passed. -/
theorem Checked.work (h : Checked cfg s log) {i : ℕ} {w w' : Worker} {d' : Desk}
    (hw : s.jobs[i]? = some w) (hmove : Worker.Move cfg s.shared w w' d') :
    Standing cfg d' ((w.deed i s.shared).toList ++ log) ∧
      Spaced cfg ((w.deed i s.shared).toList ++ log) := by
  by_cases hcheck : ∃ q now, w = .check q now
  · obtain ⟨q, now, rfl⟩ := hcheck
    have hnow : now ≤ s.shared.now := h.stamps i _ hw now rfl
    show Standing cfg d' (.checked q now s.shared :: log) ∧
      Spaced cfg (.checked q now s.shared :: log)
    cases hmove with
    | stale hstale =>
        have hpass : (Deed.checked q now s.shared).passes cfg = false := by
          simp [Deed.passes, hstale]
        exact ⟨.cons_of_not_passes hpass fun _ => h.standing, h.spaced.cons_of_not_passes hpass⟩
    | duplicate hstale hfound =>
        have hpass : (Deed.checked q now s.shared).passes cfg = false := by
          simp [Deed.passes, hfound]
        refine ⟨.cons_of_not_passes hpass fun hclears => ?_, h.spaced.cons_of_not_passes hpass⟩
        exact h.standing.admits hnow (by simpa [Deed.clears, hstale] using hclears) _
    | pass hstale hpass =>
        exact ⟨h.standing.cons_of_passes hnow hstale hpass, h.spaced.cons_of_passes h.standing hnow⟩
  · -- another step passes nothing, and leaves the table alone
    have hother : ∀ q now, w ≠ .check q now := fun q now hq => hcheck ⟨q, now, hq⟩
    have hstanding := h.standing.mono (hmove.recent hother) hmove.stamps.1.ge
    cases hdeed : w.deed i s.shared with
    | none => exact ⟨hstanding, h.spaced⟩
    | some deed =>
        have hfalse : deed.passes cfg = false := Worker.passes_deed hother i deed hdeed
        exact ⟨.cons_of_not_passes hfalse fun _ => hstanding, h.spaced.cons_of_not_passes hfalse⟩

/-- **Every step keeps the invariant of the duplicate check.** -/
theorem Checked.move (h : Checked cfg s log) (hmove : Move cfg s s' deed) :
    Checked cfg s' (deed.toList ++ log) := by
  cases hmove with
  | start hstart =>
      obtain ⟨job, rfl⟩ := Worker.exists_of_canStart hstart
      exact ⟨Threads.forall_append (by simp [Worker.stampOf]) h.stamps, h.standing, h.spaced⟩
  | work i hw hstep =>
      obtain ⟨hstanding, hspaced⟩ := h.work hw hstep
      obtain ⟨hnow, hstamps⟩ := hstep.stamps
      refine ⟨Threads.forall_set (fun now hmem => ?_) fun k other _ hk => ?_, hstanding, hspaced⟩
      · rw [hnow]
        rcases hstamps now hmem with hold | rfl
        · exact h.stamps i _ hw now hold
        · exact le_rfl
      · rw [hnow]
        exact h.stamps k other hk
  | event hevent =>
      cases hevent with
      | accept sig rd =>
          exact ⟨h.stamps, .cons_of_not_passes rfl fun _ => h.standing.mono rfl le_rfl,
            h.spaced.cons_of_not_passes rfl⟩
      | refuse => exact h
      | engine | markLive | stop => exact ⟨h.stamps, h.standing.mono rfl le_rfl, h.spaced⟩
      | clear hdue =>
          -- nothing stands that passed before the clearing
          exact ⟨h.stamps, .cons_of_not_passes rfl nofun, h.spaced.cons_of_not_passes rfl⟩
      | tick ns =>
          exact ⟨fun i w hw now hnow => (h.stamps i w hw now hnow).trans (Nat.le_add_right _ _),
            h.standing.mono rfl (Nat.le_add_right _ _), h.spaced⟩

end Floor

/-- **Duplicates pass two minutes apart.** In every run of the workers, of
any signals at any times, two signals of one fingerprint pass only with a
clearing of the table between them, or two minutes apart. -/
theorem duplicates_spaced {cfg : DeskConfig} {parse : Text → Option Json}
    {t : Floor × List Deed} (h : (loggedFloor cfg parse).Reachable System.anyStep t) :
    Spaced cfg t.2 :=
  (Floor.log_invariant (I := Floor.Checked cfg) (fun _ hs => Floor.checked_of_init hs)
    (fun _ _ _ hI _ hmove => hI.move hmove) h).spaced

/-! ### One signal before and after the daily reset -/

namespace DuplicateRun

open FloorRun

/-- When signals of a fingerprint pass, the latest first. -/
def passTimes (cfg : DeskConfig) (fp : UInt64) (log : List Deed) : List ℕ :=
  log.filterMap fun
    | .checked q now d =>
        if (Deed.checked q now d).passes cfg && q.sig.fingerprint cfg.hash = fp then some d.now
        else none
    | _ => none

/-- Whatever comes is a buy of bitcoin. -/
def parse (_ : Text) : Option Json := some (buy "BTCUSDT")

/-- The fingerprint of the buy. -/
def fp : UInt64 := WebhookSignal.fingerprint (fun _ => 0) { symbol := "BTCUSDT" }

/-- A day passes, and the buy comes; the daily reset is due, and the buy
comes again. -/
def labels : List FloorLabel :=
  seconds 86400 ++ request 0 {} :: works 0 6 ++
    [.event (.engine .resetDaily), .event .clearRecent] ++ request 0 {} :: works 1 6

end DuplicateRun

/-- **One signal passes twice at one moment**, before and after the daily
reset. -/
theorem duplicate_after_reset :
    (loggedFloor {} DuplicateRun.parse).Reachable System.anyStep
        (FloorRun.after {} DuplicateRun.parse ∅ DuplicateRun.labels) ∧
      DuplicateRun.passTimes {} DuplicateRun.fp
          (FloorRun.after {} DuplicateRun.parse ∅ DuplicateRun.labels).2 =
        [86400 * 10 ^ 9, 86400 * 10 ^ 9] :=
  ⟨FloorRun.reachable_after (by decide +kernel), by decide +kernel⟩

theorem duplicates_spaced_reset :
    Spaced {} (FloorRun.after {} DuplicateRun.parse ∅ DuplicateRun.labels).2 :=
  duplicates_spaced (FloorRun.reachable_after (by decide +kernel))

end WebhookTrader
