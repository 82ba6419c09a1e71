import Mathlib.Data.Finset.Max
import WebhookTrader.Common.Interleave

/-!
# Threads that take locks

A task is what one thread does with locks from one idle moment to the
next. Its code is given by its scopes: what is done under a lock, what is
done after a wait under a mutex, in sequence, in a branch or in a loop. A
scope may be left at any place, by a return or by an exception, and then
releases what it holds. A relation says which lock may be taken under
which; code whose scopes keep to it keeps to it in every run, and where
the relation goes up in some rank, tasks never block each other for ever,
however many there are and whatever the order of their steps.
-/

namespace WebhookTrader

universe u

/-- **One operation on locks.** Several are taken at once by a thread that
waits under a mutex and wakes where both are free. -/
inductive LockOp (L : Type u)
  | take (locks : List L)
  | release (lock : L)

/-- **A task**: the locks it holds, and what it has still to do with
locks. -/
structure LockTask (L : Type u) where
  held : List L := []
  todo : List (LockOp L)

variable {L : Type u}

namespace LockTask

variable [DecidableEq L]

/-- The next operation of a task, where the locks it asks for are free. -/
def step (job : LockTask L) (taken : List L) : Option (LockTask L × List L) :=
  match job.todo with
  | [] => none
  | .take locks :: todo =>
      if ∀ l ∈ locks, l ∉ taken then some (⟨locks ++ job.held, todo⟩, locks ++ taken) else none
  | .release l :: todo => some (⟨job.held.erase l, todo⟩, taken.erase l)

/-- A task blocks only where it asks for a lock that is taken. -/
theorem exists_taken_of_step {job : LockTask L} {taken : List L} (hstep : job.step taken = none)
    (htodo : job.todo ≠ []) :
    ∃ locks todo, job.todo = .take locks :: todo ∧ ∃ l ∈ locks, l ∈ taken := by
  obtain ⟨held, ops⟩ := job
  match ops with
  | [] => exact absurd rfl htodo
  | .take locks :: todo =>
      exact ⟨locks, todo, rfl, by simpa [step] using hstep⟩
  | .release l :: todo => cases hstep

end LockTask

/-! ## What may be taken under what -/

/-- **Locks are taken only under those that allow it**, each that is
released is held, and at the end none is. Of those taken at once, the
first is taken under the rest. -/
def Ordered [DecidableEq L] (R : L → L → Prop) : List L → List (LockOp L) → Prop
  | held, [] => held = []
  | held, .take locks :: todo =>
      (locks.Pairwise fun l l' => R l' l) ∧ (∀ h ∈ held, ∀ l ∈ locks, R h l) ∧
        Ordered R (locks ++ held) todo
  | held, .release l :: todo => l ∈ held ∧ Ordered R (held.erase l) todo

/-- The system of any number of tasks over one set of locks. -/
abbrev LockTasks (L : Type u) := Threads (List L) (LockTask L)

namespace LockTasks

open Threads (gather gather_set mem_gather)

variable [DecidableEq L] {R : L → L → Prop} {s t : LockTasks L}

/-- **Tasks over one set of locks.** A task may start at any time, and then
holds nothing; the guard of a run says which. -/
def system (L : Type u) [DecidableEq L] :
    System (LockTasks L) (Threads.Label (LockTask L) Empty) where
  init s := s.shared = [] ∧ s.jobs = []
  next := Threads.next (fun job => job.held.isEmpty) LockTask.step fun e _ => e.elim

/-- The tasks that start are among those with a property. -/
def Starting (P : List (LockOp L) → Prop) (_ : LockTasks L) :
    Threads.Label (LockTask L) Empty → Prop
  | .start job => P job.todo
  | _ => True

/-- Only tasks that have started go on. -/
def Working (_ : LockTasks L) : Threads.Label (LockTask L) Empty → Prop
  | .work _ => True
  | _ => False

/-- Every task has come to its end. -/
def Idle (s : LockTasks L) : Prop :=
  ∀ (i : ℕ) (job : LockTask L), s.jobs[i]? = some job → job.todo = []

/-- **What is taken is what tasks hold**, each task holds one lock under
another that allows it, and goes on to do so. -/
structure Orderly (R : L → L → Prop) (s : LockTasks L) : Prop where
  owned : (s.shared : Multiset L) = s.gather fun job => (job.held : Multiset L)
  nested : ∀ (i : ℕ) (job : LockTask L), s.jobs[i]? = some job →
    job.held.Pairwise fun l h => R h l
  ordered : ∀ (i : ℕ) (job : LockTask L), s.jobs[i]? = some job → Ordered R job.held job.todo

theorem Orderly.of_init (h : (system L).init s) : s.Orderly R where
  owned := by
    obtain ⟨hshared, hjobs⟩ := h
    simp [gather, hshared, hjobs]
  nested i job hjob := by simp [h.2] at hjob
  ordered i job hjob := by simp [h.2] at hjob

/-- A task's own step. -/
theorem Orderly.work (h : s.Orderly R) {i : ℕ} {job job' : LockTask L} {taken : List L}
    (hjob : s.jobs[i]? = some job) (hstep : job.step s.shared = some (job', taken)) :
    Orderly R (⟨taken, s.jobs.set i job'⟩ : LockTasks L) := by
  have hordered := h.ordered i job hjob
  have hnested := h.nested i job hjob
  have hgather := gather_set (f := fun job : LockTask L => (job.held : Multiset L)) job' taken hjob
  rw [← h.owned] at hgather
  obtain ⟨held, ops⟩ := job
  match ops with
  | [] => cases hstep
  | .take locks :: todo =>
      simp only [LockTask.step] at hstep
      split at hstep
      · cases hstep
        obtain ⟨hlocks, hunder, hrest⟩ := hordered
        refine ⟨?_, Threads.forall_set ?_ fun k other _ hk => h.nested k other hk,
          Threads.forall_set hrest fun k other _ hk => h.ordered k other hk⟩
        · -- what the task has taken is what has been added
          refine (add_right_cancel (hgather.trans ?_)).symm
          rw [← Multiset.coe_add, ← Multiset.coe_add, ← add_assoc,
            add_comm (s.shared : Multiset L)]
        · exact List.pairwise_append.2 ⟨hlocks, hnested, fun l hl h hh => hunder h hh l hl⟩
      · cases hstep
  | .release l :: todo =>
      simp only [LockTask.step, Option.some.injEq, Prod.mk.injEq] at hstep
      obtain ⟨rfl, rfl⟩ := hstep
      obtain ⟨hmem, hrest⟩ := hordered
      refine ⟨?_, Threads.forall_set (hnested.sublist List.erase_sublist)
          fun k other _ hk => h.nested k other hk,
        Threads.forall_set hrest fun k other _ hk => h.ordered k other hk⟩
      have hheld : (held : Multiset L) = {l} + (held.erase l : Multiset L) := by
        rw [Multiset.singleton_add, ← Multiset.coe_erase, Multiset.cons_erase hmem]
      simp only [hheld, ← add_assoc] at hgather
      rw [← Multiset.coe_erase, ← add_right_cancel hgather, add_comm, Multiset.singleton_add,
        Multiset.erase_cons_head]

/-- **Every step keeps the order**, where what starts keeps to it. -/
theorem Orderly.step {P : List (LockOp L) → Prop} (hP : ∀ todo, P todo → Ordered R [] todo)
    {l : Threads.Label (LockTask L) Empty} (h : s.Orderly R) (hg : Starting P s l)
    (hnext : (system L).next s l = some t) : t.Orderly R := by
  simp only [system] at hnext
  cases Threads.move_of_next hnext with
  | start job hstart =>
      obtain ⟨held, todo⟩ := job
      obtain rfl : held = [] := List.isEmpty_iff.1 hstart
      refine ⟨?_, Threads.forall_append List.Pairwise.nil h.nested,
        Threads.forall_append (hP todo hg) h.ordered⟩
      simpa [gather] using h.owned
  | work i hjob hstep => exact h.work hjob hstep
  | event e happly => exact e.elim

theorem Orderly.of_reachable {P : List (LockOp L) → Prop}
    (hP : ∀ todo, P todo → Ordered R [] todo) (h : (system L).Reachable (Starting P) s) :
    s.Orderly R :=
  h.invariant (fun _ => Orderly.of_init) fun _ _ _ hs hg hn => hs.step hP hg hn

/-- **A lock that is taken is held by a task that can go on**, or that waits
for one that may be taken under it. -/
theorem Orderly.exists_work (h : s.Orderly R) {l : L} (hl : l ∈ s.shared) :
    (∃ i t, (system L).next s (.work i) = some t) ∨ ∃ l' ∈ s.shared, R l l' := by
  have howned : l ∈ s.gather fun job => (job.held : Multiset L) := h.owned ▸ hl
  obtain ⟨i, job, hjob, hheld⟩ := mem_gather.1 howned
  have hordered := h.ordered i job hjob
  cases hstep : job.step s.shared with
  | some r =>
      exact .inl ⟨i, ⟨r.2, s.jobs.set i r.1⟩, by simp [system, Threads.next, hjob, hstep]⟩
  | none =>
      right
      have hheld' : l ∈ job.held := hheld
      have htodo : job.todo ≠ [] := by
        intro hnil
        rw [hnil, Ordered] at hordered
        simp [hordered] at hheld'
      obtain ⟨locks, todo, heq, l', hl', htaken⟩ := LockTask.exists_taken_of_step hstep htodo
      rw [heq] at hordered
      exact ⟨l', htaken, hordered.2.1 l hheld' l' hl'⟩

/-- **No deadlock**, where locks are taken in the order of a rank: if some
task has not ended, some task can go on. -/
theorem Orderly.progress {rank : L → ℕ} (hrank : ∀ l l', R l l' → rank l < rank l')
    (h : s.Orderly R) :
    s.Idle ∨ ∃ i t, (system L).next s (.work i) = some t := by
  by_cases hidle : s.Idle
  · exact .inl hidle
  simp only [Idle] at hidle
  push Not at hidle
  obtain ⟨i, job, hjob, htodo⟩ := hidle
  cases hstep : job.step s.shared with
  | some r =>
      exact .inr ⟨i, ⟨r.2, s.jobs.set i r.1⟩, by simp [system, Threads.next, hjob, hstep]⟩
  | none =>
      obtain ⟨-, -, -, l, -, hl⟩ := LockTask.exists_taken_of_step hstep htodo
      -- of the locks that are taken, one of the highest rank
      obtain ⟨top, htop, hmax⟩ :=
        s.shared.toFinset.exists_max_image rank ⟨l, List.mem_toFinset.2 hl⟩
      rcases h.exists_work (List.mem_toFinset.1 htop) with hwork | ⟨l', hl', hlt⟩
      · exact .inr hwork
      · exact absurd (hmax l' (List.mem_toFinset.2 hl')) (Nat.not_le.2 (hrank _ _ hlt))

/-- Where every task has ended, every lock is free. -/
theorem Orderly.shared_eq_nil (h : s.Orderly R) (hidle : s.Idle) : s.shared = [] := by
  refine List.eq_nil_iff_forall_not_mem.2 fun l hl => ?_
  have howned : l ∈ s.gather fun job => (job.held : Multiset L) := h.owned ▸ hl
  obtain ⟨i, job, hjob, hheld⟩ := mem_gather.1 howned
  have hordered := h.ordered i job hjob
  rw [hidle i job hjob, Ordered] at hordered
  simp [hordered] at hheld

/-- What the tasks have still to do, together. -/
def remaining (s : LockTasks L) : ℕ :=
  Multiset.card (s.gather fun job => (job.todo : Multiset (LockOp L)))

theorem remaining_work {i : ℕ} (hnext : (system L).next s (.work i) = some t) :
    t.remaining + 1 = s.remaining := by
  simp only [system] at hnext
  cases Threads.move_of_next hnext with
  | work i hjob hstep =>
      rename_i job job' taken
      have hset := congrArg Multiset.card
        (gather_set (f := fun job : LockTask L => (job.todo : Multiset (LockOp L))) job' taken hjob)
      have hlen : job.todo.length = job'.todo.length + 1 := by
        obtain ⟨held, ops⟩ := job
        match ops with
        | [] => cases hstep
        | .take locks :: todo =>
            simp only [LockTask.step] at hstep
            split at hstep <;> cases hstep
            rfl
        | .release l :: todo =>
            cases hstep
            rfl
      simp only [Multiset.card_add, Multiset.coe_card] at hset
      simp only [remaining]
      omega

/-- A step of one that has started. -/
theorem Orderly.step_work (h : s.Orderly R) {i : ℕ} (hnext : (system L).next s (.work i) = some t) :
    t.Orderly R :=
  h.step (P := fun _ => False) (l := .work i) (fun _ h => h.elim) trivial hnext

/-- **Every task comes to its end**: those that have started end in some
order of their steps, and in any order, since none of them blocks and each
step leaves less to do. -/
theorem Orderly.exists_idle {rank : L → ℕ} (hrank : ∀ l l', R l l' → rank l < rank l')
    (h : s.Orderly R) :
    ∃ t, (system L).Run Working s t ∧ t.Idle ∧ t.shared = [] := by
  induction hn : s.remaining using Nat.strongRecOn generalizing s with
  | ind n ih =>
      rcases h.progress hrank with hidle | ⟨i, u, hnext⟩
      · exact ⟨s, .refl, hidle, h.shared_eq_nil hidle⟩
      · have hlt : u.remaining < n := by
          have := remaining_work hnext
          omega
        obtain ⟨t, hrun, ht⟩ := ih _ hlt (h.step_work hnext) rfl
        exact ⟨t, (System.Run.refl.tail trivial hnext).trans hrun, ht⟩

end LockTasks

/-! ## Code in scopes -/

/-- **What a piece of code does with locks**, by its scopes. -/
inductive Locking (L : Type u)
  | done
  | seq (first rest : Locking L)
  | either (one other : Locking L)
  | loop (body : Locking L)
  /-- A scope under a lock. -/
  | under (lock : L) (body : Locking L)
  /-- A scope that is entered by a wait under a mutex until a lock is free,
  and that gives it back under the mutex. -/
  | awaiting (mutex lock : L) (body : Locking L)

namespace Locking

/-- A number of looks under the mutex that find the lock taken. -/
def looks (mutex : L) : ℕ → List (LockOp L)
  | 0 => []
  | n + 1 => .take [mutex] :: .release mutex :: looks mutex n

/-- **What the code may do.** It may be left at any place, and then gives
back what it holds. -/
inductive Runs : Locking L → List (LockOp L) → Prop
  | leave (p : Locking L) : Runs p []
  | seq {p q : Locking L} {ops ops' : List (LockOp L)} (hp : Runs p ops) (hq : Runs q ops') :
      Runs (.seq p q) (ops ++ ops')
  | one {p q : Locking L} {ops : List (LockOp L)} (hp : Runs p ops) : Runs (.either p q) ops
  | other {p q : Locking L} {ops : List (LockOp L)} (hq : Runs q ops) : Runs (.either p q) ops
  | again {p : Locking L} {ops ops' : List (LockOp L)} (hp : Runs p ops)
      (hrest : Runs (.loop p) ops') : Runs (.loop p) (ops ++ ops')
  | under {l : L} {p : Locking L} {ops : List (LockOp L)} (hp : Runs p ops) :
      Runs (.under l p) (.take [l] :: ops ++ [.release l])
  /-- The wait ends with its time. -/
  | timedOut {mutex l : L} {p : Locking L} (n : ℕ) : Runs (.awaiting mutex l p) (looks mutex n)
  | awaited {mutex l : L} {p : Locking L} {ops : List (LockOp L)} (n : ℕ) (hp : Runs p ops) :
      Runs (.awaiting mutex l p) (looks mutex n ++
        (.take [mutex, l] :: .release mutex :: ops ++
          [.take [mutex], .release l, .release mutex]))

/-- **Every scope takes locks that may be taken under those around it.** -/
def respects (R : L → L → Prop) [DecidableEq L] [DecidableRel R] : List L → Locking L → Bool
  | _, done => true
  | around, seq p q => respects R around p && respects R around q
  | around, either p q => respects R around p && respects R around q
  | around, loop p => respects R around p
  | around, under l p => around.all (fun h => decide (R h l)) && respects R (l :: around) p
  | around, awaiting mutex l p =>
      around.all (fun h => decide (R h l) && decide (R h mutex)) &&
        (decide (R l mutex) && decide (mutex ≠ l)) && respects R (l :: around) p

variable [DecidableEq L] {R : L → L → Prop}

/-- Looks under the mutex leave everything as it was. -/
theorem ordered_looks {mutex : L} {held : List L} {rest : List (LockOp L)}
    (hmutex : ∀ h ∈ held, R h mutex) (hrest : Ordered R held rest) (n : ℕ) :
    Ordered R held (looks mutex n ++ rest) := by
  induction n with
  | zero => exact hrest
  | succ n ih => simpa [looks, Ordered] using ⟨hmutex, ih⟩

/-- **Code that respects an order keeps to it**, whatever follows. -/
theorem Runs.ordered [DecidableRel R] {p : Locking L} {ops : List (LockOp L)} (h : p.Runs ops)
    {held : List L} (hp : p.respects R held = true) {rest : List (LockOp L)}
    (hrest : Ordered R held rest) : Ordered R held (ops ++ rest) := by
  induction h generalizing held rest with
  | leave p => exact hrest
  | seq _ _ ihp ihq =>
      simp only [respects, Bool.and_eq_true] at hp
      rw [List.append_assoc]
      exact ihp hp.1 (ihq hp.2 hrest)
  | one _ ih =>
      simp only [respects, Bool.and_eq_true] at hp
      exact ih hp.1 hrest
  | other _ ih =>
      simp only [respects, Bool.and_eq_true] at hp
      exact ih hp.2 hrest
  | again _ _ ihp ihrest =>
      rw [List.append_assoc]
      exact ihp hp (ihrest hp hrest)
  | @under l p ops _ ih =>
      simp only [respects, Bool.and_eq_true, List.all_eq_true, decide_eq_true_eq] at hp
      have hback : Ordered R (l :: held) (.release l :: rest) := ⟨List.mem_cons_self, by simpa⟩
      simpa [Ordered] using ⟨hp.1, ih hp.2 hback⟩
  | @timedOut mutex l p n =>
      simp only [respects, Bool.and_eq_true, List.all_eq_true, decide_eq_true_eq] at hp
      exact ordered_looks (fun h hmem => (hp.1.1 h hmem).2) hrest n
  | @awaited mutex l p ops n _ ih =>
      simp only [respects, Bool.and_eq_true, List.all_eq_true, decide_eq_true_eq] at hp
      obtain ⟨⟨haround, hlast, hne⟩, hp⟩ := hp
      -- the lock goes back under the mutex
      have hback : Ordered R (l :: held)
          (.take [mutex] :: .release l :: .release mutex :: rest) := by
        refine ⟨List.pairwise_singleton _ _, ?_, ?_⟩
        · intro h hmem m hm
          obtain rfl := List.mem_singleton.1 hm
          rcases List.mem_cons.1 hmem with rfl | hmem
          · exact hlast
          · exact (haround h hmem).2
        · simp [Ordered, List.erase_cons_tail, hne, hrest]
      rw [List.append_assoc]
      refine ordered_looks (fun h hmem => (haround h hmem).2) ?_ n
      refine ⟨by simpa using hlast, ?_, ?_⟩
      · intro h hmem m hm
        rcases List.mem_pair.1 hm with rfl | rfl
        · exact (haround h hmem).2
        · exact (haround h hmem).1
      · simpa [Ordered] using ih hp hback

end Locking

end WebhookTrader
