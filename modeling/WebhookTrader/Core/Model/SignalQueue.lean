import WebhookTrader.Core.Model.SymbolLocks

/-!
# The queue of signals

`MPSCQueue`, between the threads that call it. Each operation has the
mutex from its first look at the queue to its last, and lets it go to
wait on the condition variable or to notify. Whoever waits has a ticket,
which a notification, a time-out or a spurious wake-up takes away.
-/

namespace WebhookTrader

variable {T : Type}

/-- **The queue's fields**, with what has been accepted and what has been
taken. -/
structure MpscQueue (T : Type) where
  maxCap : ℕ
  items : List T := []
  shutdown : Bool := false
  /-- The tickets of those that wait on `m_cv`. -/
  waiting : List ℕ := []
  nextTicket : ℕ := 0
  pushed : List T := []
  popped : List T := []
  deriving DecidableEq, Repr

/-- **Where a call is.** -/
inductive QueueCall (T : Type)
  | tryPush (item : T)
  /-- Has let the mutex go, with its item in the queue. -/
  | notifyOne (item : T)
  | pushed (item : T) (accepted : Bool)
  | tryPop
  /-- Before the predicate of `wait_for`. -/
  | waitPop
  | asleep (ticket : ℕ)
  /-- Before the predicate that `wait_for` looks at after a time-out. -/
  | timedOut
  | popped (got : Option T)
  | shutdown
  /-- Has let the mutex go, with the queue shut down. -/
  | notifyAll
  | done
  deriving DecidableEq, Repr

/-- What a call may do. -/
inductive QueueAction
  /-- Its next operation; a notification goes to the waiter picked. -/
  | run (pick : ℕ)
  | wake (cause : Wake)
  deriving DecidableEq, Repr

namespace MpscQueue

/-- The front of the queue, where there is one. -/
def pop (q : MpscQueue T) : QueueCall T × MpscQueue T :=
  match q.items with
  | [] => (.popped none, q)
  | item :: items => (.popped (some item), { q with items, popped := q.popped ++ [item] })

/-- `try_push`, up to its notification. -/
def push (item : T) (q : MpscQueue T) : QueueCall T × MpscQueue T :=
  if q.maxCap ≤ q.items.length then (.pushed item false, q)
  else (.notifyOne item, { q with items := q.items ++ [item], pushed := q.pushed ++ [item] })

/-- `wait_pop`, from its predicate on: the wait lets the mutex go and blocks
in one step. -/
def waitPop (q : MpscQueue T) : QueueCall T × MpscQueue T :=
  if q.items.isEmpty && !q.shutdown then
    (.asleep q.nextTicket,
      { q with waiting := q.waiting ++ [q.nextTicket], nextTicket := q.nextTicket + 1 })
  else q.pop

end MpscQueue

namespace QueueCall

/-- A call that has not begun. -/
def fresh : QueueCall T → Bool
  | tryPush _ | tryPop | waitPop | shutdown => true
  | _ => false

/-- The next operation of a call. -/
def run (pick : ℕ) (c : QueueCall T) (q : MpscQueue T) : Option (QueueCall T × MpscQueue T) :=
  match c with
  | tryPush item => some (q.push item)
  | notifyOne item =>
      some (.pushed item true, { q with waiting := q.waiting.eraseIdx (pick % q.waiting.length) })
  | tryPop => some q.pop
  | waitPop => some q.waitPop
  -- whatever the predicate says, what is in the queue is returned
  | timedOut => some q.pop
  | shutdown => some (.notifyAll, { q with shutdown := true })
  | notifyAll => some (.done, { q with waiting := [] })
  | asleep _ | pushed _ _ | popped _ | done => none

/-- **A step of a call.** -/
def act (c : QueueCall T) (q : MpscQueue T) : QueueAction → Option (QueueCall T × MpscQueue T)
  | .run pick => c.run pick q
  | .wake cause =>
      match c with
      | asleep ticket =>
          match cause with
          | .notified => if ticket ∈ q.waiting then none else some (.waitPop, q)
          | .spurious => some (.waitPop, { q with waiting := q.waiting.erase ticket })
          | .timedOut => some (.timedOut, { q with waiting := q.waiting.erase ticket })
      | _ => none

end QueueCall

/-! ## The calls together -/

abbrev QueueCalls (T : Type) := Threads (MpscQueue T) (QueueCall T)

namespace QueueCalls

inductive Label (T : Type)
  | call (c : QueueCall T)
  | act (i : ℕ) (action : QueueAction)

def next (s : QueueCalls T) : Label T → Option (QueueCalls T)
  | .call c => if c.fresh then some { s with jobs := s.jobs ++ [c] } else none
  | .act i action =>
      match s.jobs[i]? with
      | none => none
      | some c => (c.act s.shared action).map fun r => ⟨r.2, s.jobs.set i r.1⟩

end QueueCalls

/-- **Any number of calls**, by any number of threads, of a queue just
made. -/
def queueSystem (T : Type) (maxCap : ℕ) : System (QueueCalls T) (QueueCalls.Label T) where
  init s := s.shared = { maxCap } ∧ s.jobs = []
  next := QueueCalls.next

end WebhookTrader
