import Mathlib.Data.Finset.Basic
import WebhookTrader.Common.Interleave

/-!
# The symbol locks

`SymbolLockManager` and `SymbolLockGuard`, one instruction at a time: the
mutex is taken and let go by steps of their own, and a worker that waits
on the condition variable has let the mutex go and takes it again before
it looks at its predicate. What a worker does next, and why a wait ends,
is left open.
-/

namespace WebhookTrader

/-- **The manager's fields.** -/
structure SymbolLockManager where
  /-- Whether a worker has `m_mtx`. -/
  mutex : Bool := false
  locked : Finset String := ∅
  /-- How often `m_cv` has been notified. -/
  notified : ℕ := 0
  deriving DecidableEq

/-- What is done under the mutex. -/
inductive LockSection
  /-- The insertion of `try_lock`. -/
  | insert (symbol : String)
  /-- The look-up `wait_lock` begins with. -/
  | find (symbol : String)
  /-- The predicate of `wait_for`, before it waits, after a wait, or after
  the last one. -/
  | predicate (symbol : String) (timedOut : Bool)
  /-- The erasure of `unlock`. -/
  | erase (symbol : String)
  deriving DecidableEq, Repr

/-- **Where a worker is.** -/
inductive LockPoint
  | outside
  /-- Waits for the mutex. -/
  | entering (todo : LockSection)
  /-- Has the mutex. -/
  | inside (todo : LockSection)
  /-- Has the mutex, and found the symbol unlocked. -/
  | adding (symbol : String)
  /-- Has the mutex, and returns with the symbol locked or without. -/
  | returning (got : Option String)
  /-- Has the mutex, and has erased the symbol. -/
  | erased
  /-- In `wait_for`, which has let the mutex go. -/
  | blocked (symbol : String) (seen : ℕ)
  /-- Has let the mutex go, and notifies. -/
  | notifying
  deriving DecidableEq, Repr

/-- **A worker**, with the locks its calls have returned and the guards it
has made of them. -/
structure LockWorker where
  point : LockPoint := .outside
  locks : List String := []
  guards : List String := []
  deriving DecidableEq, Repr

/-- Why a wait on the condition variable ends. -/
inductive Wake
  | notified
  | spurious
  | timedOut
  deriving DecidableEq, Repr

/-- What a worker may do. -/
inductive LockAction
  | tryLock (symbol : String)
  | waitLock (symbol : String)
  /-- The constructor of `SymbolLockGuard`. -/
  | guard (symbol : String)
  /-- Its destructor, which calls `unlock`. -/
  | release (symbol : String)
  | enter
  /-- The next instruction of a call. -/
  | run
  | wake (cause : Wake)
  deriving DecidableEq, Repr

namespace LockWorker

/-- The next instruction of a call. -/
def run (w : LockWorker) (m : SymbolLockManager) : Option (LockWorker × SymbolLockManager) :=
  match w.point with
  | .inside (.insert symbol) =>
      some ({ w with point := .returning (if symbol ∈ m.locked then none else some symbol) },
        { m with locked := insert symbol m.locked })
  | .inside (.find symbol) =>
      if symbol ∈ m.locked then some ({ w with point := .inside (.predicate symbol false) }, m)
      else some ({ w with point := .adding symbol }, m)
  | .inside (.predicate symbol timedOut) =>
      if symbol ∈ m.locked then
        if timedOut then some ({ w with point := .returning none }, m)
        -- the wait lets the mutex go and blocks in one step
        else some ({ w with point := .blocked symbol m.notified }, { m with mutex := false })
      else some ({ w with point := .adding symbol }, m)
  | .adding symbol =>
      some ({ w with point := .returning (some symbol) },
        { m with locked := insert symbol m.locked })
  | .returning got =>
      some ({ w with point := .outside, locks := got.toList ++ w.locks }, { m with mutex := false })
  | .inside (.erase symbol) =>
      some ({ w with point := .erased }, { m with locked := m.locked.erase symbol })
  | .erased => some ({ w with point := .notifying }, { m with mutex := false })
  | .notifying => some ({ w with point := .outside }, { m with notified := m.notified + 1 })
  | .outside | .entering _ | .blocked _ _ => none

/-- **A step of a worker.** -/
def act (w : LockWorker) (m : SymbolLockManager) :
    LockAction → Option (LockWorker × SymbolLockManager)
  | .tryLock symbol =>
      if w.point = .outside then some ({ w with point := .entering (.insert symbol) }, m) else none
  | .waitLock symbol =>
      if w.point = .outside then some ({ w with point := .entering (.find symbol) }, m) else none
  | .guard symbol =>
      if w.point = .outside ∧ symbol ∈ w.locks then
        some ({ w with locks := w.locks.erase symbol, guards := symbol :: w.guards }, m)
      else none
  | .release symbol =>
      if w.point = .outside ∧ symbol ∈ w.guards then
        some ({ w with guards := w.guards.erase symbol, point := .entering (.erase symbol) }, m)
      else none
  | .enter =>
      match w.point with
      | .entering todo =>
          if m.mutex then none
          else some ({ w with point := .inside todo }, { m with mutex := true })
      | _ => none
  | .run => w.run m
  | .wake cause =>
      match w.point with
      | .blocked symbol seen =>
          -- a notification wakes those that wait when it is given
          if cause = .notified ∧ m.notified ≤ seen then none
          else some ({ w with point := .entering (.predicate symbol (cause = .timedOut)) }, m)
      | _ => none

end LockWorker

namespace LockPoint

/-- Whether a worker has the mutex there. -/
def hasMutex : LockPoint → Bool
  | .inside _ | .adding _ | .returning _ | .erased => true
  | .outside | .entering _ | .blocked _ _ | .notifying => false

/-- The symbol a call has locked and not returned, or has not erased. -/
def held : LockPoint → Multiset String
  | .returning (some symbol) => {symbol}
  | .entering (.erase symbol) | .inside (.erase symbol) => {symbol}
  | _ => 0

end LockPoint

/-- **What a worker holds**: a symbol from its insertion by a call that
succeeds to its erasure by the guard's destructor. -/
def LockWorker.held (w : LockWorker) : Multiset String :=
  (w.locks : Multiset String) + (w.guards : Multiset String) + w.point.held

/-! ## The workers together -/

abbrev LockWorkers := Threads SymbolLockManager LockWorker

namespace LockWorkers

def next (s : LockWorkers) (label : ℕ × LockAction) : Option LockWorkers :=
  match s.jobs[label.1]? with
  | none => none
  | some w => (w.act s.shared label.2).map fun r => ⟨r.2, s.jobs.set label.1 r.1⟩

/-- **A worker holds a symbol.** -/
def Holding (s : LockWorkers) (i : ℕ) (symbol : String) : Prop :=
  ∃ w, s.jobs[i]? = some w ∧ symbol ∈ w.held

end LockWorkers

/-- **Any number of workers** and a manager just made. -/
def lockSystem : System LockWorkers (ℕ × LockAction) where
  init s := s.shared = {} ∧ ∀ w ∈ s.jobs, w = {}
  next := LockWorkers.next

end WebhookTrader
