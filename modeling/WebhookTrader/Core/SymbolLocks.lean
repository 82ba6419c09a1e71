import WebhookTrader.Core.Model.SymbolLocks

/-!
# The symbol locks exclude

Whatever the workers do and in whatever order, a symbol is held by one
worker at most, and the manager's set is the set of held symbols. What
carries it is that the set of locked symbols is, each symbol once, what
the workers hold together: a step outside the mutex moves neither, and
under the mutex a symbol is added by the worker that found it absent and
erased by the worker that holds it.
-/

namespace WebhookTrader

/-! ## What a step is -/

/-- **The steps, by what they do to the mutex and to the locks.** -/
inductive LockStep (w : LockWorker) (m : SymbolLockManager) :
    LockWorker → SymbolLockManager → Prop
  /-- Outside the mutex. -/
  | aside {w' : LockWorker} {m' : SymbolLockManager} (hbefore : w.point.hasMutex = false)
      (hafter : w'.point.hasMutex = false) (hheld : w'.held = w.held)
      (hlocked : m'.locked = m.locked) (hmutex : m'.mutex = m.mutex) :
      LockStep w m w' m'
  | enters {w' : LockWorker} (hfree : m.mutex = false) (hheld : w'.held = w.held)
      (hadding : ∀ symbol, w'.point ≠ .adding symbol) : LockStep w m w' { m with mutex := true }
  | leaves {w' : LockWorker} (hbefore : w.point.hasMutex = true)
      (hafter : w'.point.hasMutex = false) (hheld : w'.held = w.held) :
      LockStep w m w' { m with mutex := false }
  /-- Under the mutex, without a change to the set. -/
  | looks {w' : LockWorker} (hbefore : w.point.hasMutex = true) (hheld : w'.held = w.held)
      (hadding : ∀ symbol, w'.point = .adding symbol → symbol ∉ m.locked) : LockStep w m w' m
  | takes {w' : LockWorker} (symbol : String) (hbefore : w.point.hasMutex = true)
      (hfree : symbol ∉ m.locked) (hheld : w'.held = symbol ::ₘ w.held)
      (hadding : ∀ symbol, w'.point ≠ .adding symbol) :
      LockStep w m w' { m with locked := insert symbol m.locked }
  | gives {w' : LockWorker} (symbol : String) (hbefore : w.point.hasMutex = true)
      (hheld : w.held = symbol ::ₘ w'.held) (hadding : ∀ symbol, w'.point ≠ .adding symbol) :
      LockStep w m w' { m with locked := m.locked.erase symbol }

namespace LockWorker

variable {w w' : LockWorker} {m m' : SymbolLockManager} {action : LockAction}

/-- A worker that is where it holds a symbol, beside where it does not. -/
theorem held_of_point {point point' : LockPoint} {locks guards : List String} {symbol : String}
    (h : point'.held = symbol ::ₘ point.held) :
    (⟨point', locks, guards⟩ : LockWorker).held =
      symbol ::ₘ (⟨point, locks, guards⟩ : LockWorker).held := by
  simp only [held, h, Multiset.add_cons]

/-- The instructions of a call. -/
theorem run_cases (hclear : ∀ symbol, w.point = .adding symbol → symbol ∉ m.locked)
    (h : w.run m = some (w', m')) : LockStep w m w' m' := by
  obtain ⟨point, locks, guards⟩ := w
  cases point with
  | outside => cases h
  | entering todo => cases h
  | blocked symbol seen => cases h
  | notifying =>
      cases h
      exact .aside rfl rfl rfl rfl rfl
  | erased =>
      cases h
      exact .leaves rfl rfl rfl
  | returning got =>
      cases h
      refine .leaves rfl rfl ?_
      cases got with
      | none => rfl
      | some symbol =>
          simp only [held, LockPoint.held, Option.toList_some, List.singleton_append,
            ← Multiset.cons_coe, Multiset.cons_add, add_zero]
          rw [add_comm _ ({symbol} : Multiset String), Multiset.singleton_add]
  | adding symbol =>
      cases h
      exact .takes symbol rfl (hclear symbol rfl) (held_of_point rfl) (by simp)
  | inside todo =>
      cases todo with
      | insert symbol =>
          cases h
          by_cases hlocked : symbol ∈ m.locked
          · rw [if_pos hlocked, Finset.insert_eq_of_mem hlocked]
            exact .looks rfl rfl (by simp)
          · rw [if_neg hlocked]
            exact .takes symbol rfl hlocked (held_of_point rfl) (by simp)
      | find symbol =>
          simp only [run] at h
          split_ifs at h with hlocked
          · cases h
            exact .looks rfl rfl (by simp)
          · cases h
            exact .looks rfl rfl (by simpa using hlocked)
      | predicate symbol timedOut =>
          simp only [run] at h
          split_ifs at h with hlocked htimedOut
          · cases h
            exact .looks rfl rfl (by simp)
          · cases h
            exact .leaves rfl rfl rfl
          · cases h
            exact .looks rfl rfl (by simpa using hlocked)
      | erase symbol =>
          cases h
          exact .gives symbol rfl (held_of_point rfl) (by simp)

/-- **What a step of a worker is.** -/
theorem act_cases (hclear : ∀ symbol, w.point = .adding symbol → symbol ∉ m.locked)
    (h : w.act m action = some (w', m')) : LockStep w m w' m' := by
  cases action with
  | run => exact run_cases hclear h
  | tryLock symbol =>
      simp only [act] at h
      split_ifs at h with hout
      cases h
      exact .aside (by rw [hout]; rfl) rfl (by simp [held, LockPoint.held, hout]) rfl rfl
  | waitLock symbol =>
      simp only [act] at h
      split_ifs at h with hout
      cases h
      exact .aside (by rw [hout]; rfl) rfl (by simp [held, LockPoint.held, hout]) rfl rfl
  | guard symbol =>
      simp only [act] at h
      split_ifs at h with hguard
      obtain ⟨hout, hlock⟩ := hguard
      cases h
      refine .aside (by rw [hout]; rfl) (by rw [hout]; rfl) ?_ rfl rfl
      have hlocks : (w.locks : Multiset String) = symbol ::ₘ (w.locks.erase symbol) :=
        Multiset.coe_eq_coe.2 (List.perm_cons_erase hlock)
      simp only [held, hout, hlocks, ← Multiset.cons_coe, Multiset.cons_add, Multiset.add_cons]
  | release symbol =>
      simp only [act] at h
      split_ifs at h with hguard
      obtain ⟨hout, hguard⟩ := hguard
      cases h
      refine .aside (by rw [hout]; rfl) rfl ?_ rfl rfl
      have hguards : (w.guards : Multiset String) = symbol ::ₘ (w.guards.erase symbol) :=
        Multiset.coe_eq_coe.2 (List.perm_cons_erase hguard)
      simp only [held, hout, hguards, LockPoint.held, Multiset.add_cons]
      rw [add_comm, Multiset.singleton_add, add_zero]
  | enter =>
      simp only [act] at h
      split at h
      · rename_i todo hentering
        split_ifs at h with hfree
        cases h
        refine .enters (by simpa using hfree) ?_ (by simp)
        simp only [held, hentering]
        cases todo <;> rfl
      · cases h
  | wake cause =>
      simp only [act] at h
      split at h
      · rename_i symbol seen hblocked
        split_ifs at h
        cases h
        exact .aside (by rw [hblocked]; rfl) rfl (by simp [held, LockPoint.held, hblocked]) rfl rfl
      · cases h

end LockWorker

/-! ## Every order of steps -/

namespace LockWorkers

open Threads (gather gather_set mem_gather eq_of_gather nodup_of_gather)

variable {s t : LockWorkers} {label : ℕ × LockAction}

/-- What a worker knows of the manager: it has the mutex only where that is
taken, and is about to add a symbol only where that is unlocked. -/
structure Knows (m : SymbolLockManager) (w : LockWorker) : Prop where
  mutex : w.point.hasMutex = true → m.mutex = true
  clear : ∀ symbol, w.point = .adding symbol → symbol ∉ m.locked

/-- Two workers do not both have the mutex. -/
def Apart (w w' : LockWorker) : Prop := w.point.hasMutex = true → w'.point.hasMutex = false

/-- **The invariant**: the locked symbols are what the workers hold
together, one worker has the mutex at most, and a worker about to add a
symbol has found it unlocked. -/
structure Excluding (s : LockWorkers) : Prop where
  owned : s.gather LockWorker.held = s.shared.locked.val
  apart : s.Holds (fun _ => True) Knows Apart

theorem excluding_init (h : lockSystem.init s) : s.Excluding := by
  obtain ⟨hshared, hjobs⟩ := h
  have houtside : ∀ (i : ℕ) (w : LockWorker), s.jobs[i]? = some w → w = {} :=
    fun i w hw => hjobs w (List.mem_of_getElem? hw)
  constructor
  case owned =>
    rw [hshared]
    refine Multiset.eq_zero_of_forall_notMem fun symbol hsymbol => ?_
    obtain ⟨i, w, hw, hheld⟩ := mem_gather.1 hsymbol
    rw [houtside i w hw] at hheld
    exact Multiset.notMem_zero symbol hheld
  case apart =>
    refine ⟨trivial, fun i w hw => ?_, fun i k w w' hne hw hw' => ?_⟩
    · rw [houtside i w hw]
      exact ⟨nofun, nofun⟩
    · rw [houtside i w hw]
      exact fun hhas => Bool.noConfusion hhas

/-- **Every step keeps the locked symbols what the workers hold.** -/
theorem owned_step {i : ℕ} {w w' : LockWorker} {m' : SymbolLockManager} (h : s.Excluding)
    (hw : s.jobs[i]? = some w) (hstep : LockStep w s.shared w' m') :
    gather LockWorker.held (⟨m', s.jobs.set i w'⟩ : LockWorkers) = m'.locked.val := by
  have hset := gather_set (f := LockWorker.held) w' m' hw
  rw [h.owned] at hset
  cases hstep with
  | aside _ _ hheld hlocked _ =>
      rw [hheld] at hset
      rw [add_right_cancel hset, hlocked]
  | enters _ hheld _ =>
      rw [hheld] at hset
      exact add_right_cancel hset
  | leaves _ _ hheld =>
      rw [hheld] at hset
      exact add_right_cancel hset
  | looks _ hheld _ =>
      rw [hheld] at hset
      exact add_right_cancel hset
  | takes symbol _ hfree hheld _ =>
      rw [hheld, Multiset.add_cons, ← Multiset.cons_add] at hset
      rw [Finset.insert_val_of_notMem hfree]
      exact add_right_cancel hset
  | gives symbol _ hheld _ =>
      rw [hheld, Multiset.add_cons, ← Multiset.cons_add] at hset
      rw [Finset.erase_val, ← add_right_cancel hset, Multiset.erase_cons_head]

/-- **Outside the mutex**, and on the way out of it, a worker disturbs
nobody. -/
theorem Excluding.outside {i : ℕ} {w w' : LockWorker} {m' : SymbolLockManager} (h : s.Excluding)
    (hw : s.jobs[i]? = some w) (hafter : w'.point.hasMutex = false)
    (hlocked : m'.locked = s.shared.locked)
    (hmutex : w.point.hasMutex = false → m'.mutex = s.shared.mutex) :
    Threads.Holds (fun _ => True) Knows Apart (⟨m', s.jobs.set i w'⟩ : LockWorkers) := by
  refine h.apart.work hw trivial ⟨by simp [hafter], fun symbol hadding => ?_⟩ ?_ ?_
  · rw [hadding] at hafter
    cases hafter
  · intro other hother hapart
    refine ⟨fun hhas => ?_, hlocked ▸ hother.clear⟩
    have hnot : w.point.hasMutex = false := by
      by_contra hmine
      rw [hapart (by simpa using hmine)] at hhas
      cases hhas
    rw [hmutex hnot]
    exact hother.mutex hhas
  · exact fun _ _ _ => ⟨fun hhas => by simp [hafter] at hhas, fun _ => hafter⟩

/-- **Under the mutex** a worker may change the set of symbols: the others
are outside. -/
theorem Excluding.inside {i : ℕ} {w w' : LockWorker} {locked : Finset String} (h : s.Excluding)
    (hw : s.jobs[i]? = some w) (hbefore : w.point.hasMutex = true)
    (hadding : ∀ symbol, w'.point = .adding symbol → symbol ∉ locked) :
    Threads.Holds (fun _ => True) Knows Apart
      (⟨{ s.shared with locked }, s.jobs.set i w'⟩ : LockWorkers) := by
  refine h.apart.work hw trivial ⟨fun _ => (h.apart.jobs i w hw).mutex hbefore, hadding⟩ ?_ ?_
  · intro other hother hapart
    refine ⟨hother.mutex, fun symbol hpoint => ?_⟩
    have hout := hapart hbefore
    rw [hpoint] at hout
    cases hout
  · intro other _ hapart
    exact ⟨fun _ => hapart hbefore, fun hhas => by simp [hapart hbefore] at hhas⟩

/-- **Into the mutex** a worker comes alone. -/
theorem Excluding.enters {i : ℕ} {w w' : LockWorker} (h : s.Excluding)
    (hw : s.jobs[i]? = some w) (hfree : s.shared.mutex = false)
    (hadding : ∀ symbol, w'.point ≠ .adding symbol) :
    Threads.Holds (fun _ => True) Knows Apart
      (⟨{ s.shared with mutex := true }, s.jobs.set i w'⟩ : LockWorkers) := by
  refine h.apart.work hw trivial
    ⟨fun _ => rfl, fun symbol hpoint => absurd hpoint (hadding symbol)⟩ ?_ ?_
  · exact fun other hother _ => ⟨fun _ => rfl, hother.clear⟩
  · intro other hother _
    -- a worker with the mutex would have found it taken
    have hout : other.point.hasMutex = false := by
      by_contra hhas
      rw [hother.mutex (by simpa using hhas)] at hfree
      cases hfree
    exact ⟨fun _ => hout, fun hhas => by simp [hout] at hhas⟩

/-- **Every step keeps the invariant.** -/
theorem Excluding.step {i : ℕ} {w w' : LockWorker} {m' : SymbolLockManager} (h : s.Excluding)
    (hw : s.jobs[i]? = some w) (hstep : LockStep w s.shared w' m') :
    Excluding ⟨m', s.jobs.set i w'⟩ := by
  refine ⟨owned_step h hw hstep, ?_⟩
  cases hstep with
  | aside _ hafter _ hlocked hmutex => exact h.outside hw hafter hlocked fun _ => hmutex
  | enters hfree _ hadding => exact h.enters hw hfree hadding
  | leaves hbefore hafter _ =>
      exact h.outside hw hafter rfl fun hnot => by simp [hbefore] at hnot
  | looks hbefore _ hadding => exact h.inside hw hbefore hadding
  | takes symbol hbefore _ _ hadding =>
      exact h.inside hw hbefore fun symbol hpoint => absurd hpoint (hadding symbol)
  | gives symbol hbefore _ hadding =>
      exact h.inside hw hbefore fun symbol hpoint => absurd hpoint (hadding symbol)

theorem excluding_of_reachable (h : lockSystem.Reachable System.anyStep s) : s.Excluding := by
  refine h.invariant (I := Excluding) (fun _ => excluding_init) fun s label t hs _ hnext => ?_
  change s.next label = some t at hnext
  unfold next at hnext
  split at hnext
  · cases hnext
  · rename_i w hw
    obtain ⟨⟨w', m'⟩, hact, rfl⟩ := Option.map_eq_some_iff.1 hnext
    exact hs.step hw (LockWorker.act_cases (hs.apart.jobs _ w hw).clear hact)

/-- **The symbol locks exclude**: for every number of workers and every order
of their steps, each symbol is held by one worker at most, and once, and the
set of locked symbols is the set of held ones. -/
theorem locks_exclude (h : lockSystem.Reachable System.anyStep s) :
    (∀ symbol i k, s.Holding i symbol → s.Holding k symbol → i = k) ∧
      (∀ (i : ℕ) (w : LockWorker), s.jobs[i]? = some w → w.held.Nodup) ∧
      ∀ symbol, symbol ∈ s.shared.locked ↔ ∃ i, s.Holding i symbol := by
  have howned := (excluding_of_reachable h).owned
  have hnodup : (s.gather LockWorker.held).Nodup := by
    rw [howned]
    exact s.shared.locked.nodup
  refine ⟨fun symbol i k => ?_, fun i w hw => nodup_of_gather hnodup hw, fun symbol => ?_⟩
  · rintro ⟨w, hw, hheld⟩ ⟨w', hw', hheld'⟩
    exact eq_of_gather hnodup hw hw' hheld hheld'
  · rw [← Finset.mem_val, ← howned]
    exact mem_gather

/-- One worker locks on the fast path and another waits: it is woken once for
nothing, and locks after the guard of the first is gone. -/
theorem locks_exclude_handover :
    ∃ s : LockWorkers, s.Holding 1 "BTCUSDT" ∧
      (∀ symbol i k, s.Holding i symbol → s.Holding k symbol → i = k) ∧
      (∀ (i : ℕ) (w : LockWorker), s.jobs[i]? = some w → w.held.Nodup) ∧
      ∀ symbol, symbol ∈ s.shared.locked ↔ ∃ i, s.Holding i symbol := by
  obtain ⟨s, hrun, hlocks⟩ := System.exists_run_of_play (M := lockSystem) (G := System.anyStep)
    (s := ⟨{}, [{}, {}]⟩) (P := fun s => s.jobs[1]? = some { locks := ["BTCUSDT"] })
    [(0, .waitLock "BTCUSDT"), (0, .enter), (0, .run), (0, .run), (0, .run),
      (0, .guard "BTCUSDT"),
      (1, .waitLock "BTCUSDT"), (1, .enter), (1, .run), (1, .run),
      (1, .wake .spurious), (1, .enter), (1, .run),
      (0, .release "BTCUSDT"), (0, .enter), (0, .run), (0, .run), (0, .run),
      (1, .wake .notified), (1, .enter), (1, .run), (1, .run), (1, .run)] (by decide)
  exact ⟨s, ⟨_, hlocks, by decide⟩, locks_exclude ⟨_, ⟨rfl, by decide⟩, hrun⟩⟩

end LockWorkers

end WebhookTrader
