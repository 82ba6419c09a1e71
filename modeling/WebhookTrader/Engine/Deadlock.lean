import WebhookTrader.Engine.Model.Locks

/-!
# The engine does not deadlock

The functions take their locks in the order of four ranks: a symbol, the
mutex of the symbol locks, the mutexes under which others are taken, and
all others. The source writes down an order of its own. Its clauses on the
symbol locks, the book, the portfolio and the fingerprints hold at every
moment; the one that the scorer's mutex is never held together with that
of the book does not.
-/

namespace WebhookTrader

/-- **The order of the locks.** -/
def Mutex.rank : Mutex → ℕ
  | .symbol _ => 0
  | .symbolManager => 1
  | .pos | .spot | .shadow => 2
  | _ => 3

theorem Mutex.rank_le (l : Mutex) : l.rank ≤ 3 := by
  cases l <;> simp [rank]

/-- **Which lock is taken under which**: one of a higher rank, nothing
under the mutex of the symbol locks, and the fingerprints by themselves. -/
def Mutex.Under (h l : Mutex) : Prop :=
  h.rank < l.rank ∧ h ≠ .symbolManager ∧ h ≠ .fingerprints ∧ l ≠ .fingerprints

instance : DecidableRel Mutex.Under := fun h l => inferInstanceAs
  (Decidable (h.rank < l.rank ∧ h ≠ .symbolManager ∧ h ≠ .fingerprints ∧ l ≠ .fingerprints))

/-- **Every task keeps to the order.** -/
theorem EngineTask.respects (task : EngineTask) : task.locking.respects Mutex.Under [] = true := by
  cases task with
  | dashboard call => cases call <;> rfl
  | _ => rfl

/-- So does every run of one. -/
theorem EngineTask.Starts.ordered {todo : List (LockOp Mutex)} (h : EngineTask.Starts todo) :
    Ordered Mutex.Under [] todo := by
  obtain ⟨task, hruns⟩ := h
  have hnone : Ordered Mutex.Under [] [] := rfl
  have hordered := hruns.ordered task.respects hnone
  rwa [List.append_nil] at hordered

/-- What the program's tasks reach. -/
def LocksReachable (s : LockTasks Mutex) : Prop :=
  engineLocks.Reachable (LockTasks.Starting EngineTask.Starts) s

variable {s : LockTasks Mutex}

theorem LocksReachable.orderly (h : LocksReachable s) : s.Orderly Mutex.Under :=
  LockTasks.Orderly.of_reachable (fun _ => EngineTask.Starts.ordered) h

/-! ## No deadlock -/

/-- **The engine does not deadlock.** With any number of webhook sessions,
workers, WebSocket callbacks and dashboard connections under way, in any
order of their steps: where one has not ended, one can go on; and all of
them come to their end, where every lock is free. -/
theorem engine_deadlock_free (h : LocksReachable s) :
    (s.Idle ∨ ∃ i t, engineLocks.next s (.work i) = some t) ∧
      ∃ t, engineLocks.Run LockTasks.Working s t ∧ t.Idle ∧ t.shared = [] :=
  ⟨h.orderly.progress fun _ _ hunder => hunder.1,
    h.orderly.exists_idle fun _ _ hunder => hunder.1⟩

/-! ### Two callbacks that meet -/

/-- The position callback for a position that is found. -/
def wsPositionOps : List (LockOp Mutex) :=
  [.take [.pos], .take [.learner], .release .learner, .take [.scorer], .release .scorer,
    .take [.scorer], .release .scorer, .take [.alerts], .release .alerts, .take [.state],
    .release .state, .release .pos]

/-- The account callback. -/
def wsAccountOps : List (LockOp Mutex) :=
  [.take [.pos], .take [.portRisk], .release .portRisk, .release .pos]

theorem starts_wsPosition : EngineTask.Starts wsPositionOps :=
  ⟨.wsPosition, .under <| .seq (.under (.leave _)) <| .seq (.under (.leave _)) <|
    .seq (.under (.leave _)) <| .seq (.under (.leave _)) <| .seq (.under (.leave _)) (.leave _)⟩

theorem starts_wsAccount : EngineTask.Starts wsAccountOps :=
  ⟨.wsAccount, .under (.under (.leave _))⟩

/-- The position callback has the book and asks for the scorer, the account
callback asks for the book. -/
def contended : LockTasks Mutex :=
  ⟨[.pos], [⟨[.pos], wsPositionOps.drop 3⟩, ⟨[], wsAccountOps⟩]⟩

theorem contended_reachable : LocksReachable contended := by
  refine ⟨⟨[], []⟩, ⟨rfl, rfl⟩, ?_⟩
  refine .tail (l := .work 0) (.tail (l := .work 0) (.tail (l := .work 0) (.tail
    (l := .start ⟨[], wsAccountOps⟩) (.tail (l := .start ⟨[], wsPositionOps⟩) .refl
      starts_wsPosition rfl) starts_wsAccount rfl) trivial rfl) trivial rfl) trivial rfl

theorem contended_deadlock_free :
    (contended.Idle ∨ ∃ i t, engineLocks.next contended (.work i) = some t) ∧
      ∃ t, engineLocks.Run LockTasks.Working contended t ∧ t.Idle ∧ t.shared = [] :=
  engine_deadlock_free contended_reachable

/-! ## The contract of the source -/

/-- The lock is among those a task takes next. -/
def LockTask.Asks {L : Type*} (job : LockTask L) (l : L) : Prop :=
  ∃ locks todo, job.todo = .take locks :: todo ∧ l ∈ locks

/-- What a task holds allows what it asks for. -/
theorem LockTasks.Orderly.under_of_asks {L : Type*} [DecidableEq L] {R : L → L → Prop}
    {s : LockTasks L} (h : s.Orderly R) {i : ℕ} {job : LockTask L} (hjob : s.jobs[i]? = some job)
    {l l' : L} (hasks : job.Asks l) (hheld : l' ∈ job.held) : R l' l := by
  obtain ⟨locks, todo, htodo, hl⟩ := hasks
  have hordered := h.ordered i job hjob
  rw [htodo] at hordered
  exact hordered.2.1 l' hheld l hl

/-- A lock that is taken under none and under which none is taken is held
alone. -/
theorem eq_singleton_of_pairwise {α : Type*} {R : α → α → Prop} {l : α} {held : List α}
    (hl : ∀ x, ¬ R x l ∧ ¬ R l x) (hheld : held.Pairwise fun a b => R b a) (hmem : l ∈ held) :
    held = [l] := by
  match held with
  | [] => cases hmem
  | a :: rest =>
      rw [List.pairwise_cons] at hheld
      rcases List.mem_cons.1 hmem with rfl | hrest
      · obtain rfl : rest = [] :=
          List.eq_nil_iff_forall_not_mem.2 fun b hb => (hl b).1 (hheld.1 b hb)
        rfl
      · exact absurd (hheld.1 l hrest) (hl a).2

/-- **The lock order contract.** At every moment of every run: a symbol is
asked for by those that hold nothing; the book by those that hold at most
a symbol; who holds the portfolio's mutex asks for nothing; and the
fingerprints are held alone. But the scorer's mutex, which the contract
calls independent, is taken under that of the book. -/
theorem lock_order_contract :
    (∀ s, LocksReachable s → ∀ (i : ℕ) (job : LockTask Mutex), s.jobs[i]? = some job →
      (∀ name, job.Asks (.symbol name) → job.held = []) ∧
      (job.Asks .pos → ∀ h ∈ job.held, ∃ name, h = .symbol name) ∧
      (.portRisk ∈ job.held → ∀ l, ¬ job.Asks l) ∧
      (.fingerprints ∈ job.held → job.held = [.fingerprints])) ∧
    ∃ s, LocksReachable s ∧ ∃ job ∈ s.jobs, .pos ∈ job.held ∧ .scorer ∈ job.held := by
  constructor
  · intro s hs i job hjob
    have horderly := hs.orderly
    refine ⟨fun name hasks => ?_, fun hasks h hheld => ?_, fun hheld l hasks => ?_, fun hheld => ?_⟩
    · refine List.eq_nil_iff_forall_not_mem.2 fun h hheld => ?_
      exact Nat.not_lt_zero _ (horderly.under_of_asks hjob hasks hheld).1
    · obtain ⟨hrank, hne, -⟩ := horderly.under_of_asks hjob hasks hheld
      cases h with
      | symbol name => exact ⟨name, rfl⟩
      | symbolManager => exact absurd rfl hne
      | _ => simp [Mutex.rank] at hrank
    · have hrank := (horderly.under_of_asks hjob hasks hheld).1
      exact absurd l.rank_le (Nat.not_le.2 hrank)
    · exact eq_singleton_of_pairwise (R := Mutex.Under)
        (fun x => ⟨fun h => h.2.2.2 rfl, fun h => h.2.2.1 rfl⟩) (horderly.nested i job hjob) hheld
  · obtain ⟨s₀, hinit, hrun⟩ := contended_reachable
    exact ⟨_, ⟨s₀, hinit, hrun.tail (l := .work 0) trivial rfl⟩, _, List.mem_cons_self, by decide,
      by decide⟩

end WebhookTrader
