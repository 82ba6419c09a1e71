import WebhookTrader.Engine.Handling
import WebhookTrader.Engine.Ownership

/-!
# What is seen of a run

A run of the workers is judged by what is done in it: requests are
accepted, signals are popped, checked and handled. A deed is one of these
with the desk it found, and the log of a run has its deeds, the latest
first. Every signal has its ticket, and no ticket is in two hands.
-/

namespace WebhookTrader

/-- **What is seen of a step**, with the desk that was found. -/
inductive Deed
  /-- A request is answered as accepted; its signal's ticket, and what was
  handed over. -/
  | accepted (ticket : ℕ) (sig : Option WebhookSignal)
  /-- The daily reset clears the fingerprints. -/
  | cleared
  | popped (worker : ℕ) (q : Queued) (d : Desk)
  /-- The test of age and the duplicate check, at the time the worker has
  read. -/
  | checked (q : Queued) (now : ℕ) (d : Desk)
  /-- A step of a futures handler. -/
  | handled (ticket : ℕ) (job : Job) (d : Desk)

/-- The answer to a request that is accepted. -/
def Server.accepted : Response := ⟨.ok, "\x7b\x22status\x22:\x22accepted\x22\x7d"⟩

/-- **Accepted is what hands a signal over.** -/
theorem Server.answer_accepted_iff {cfg : FrontConfig} {parse : Text → Option Json} {now : ℕ}
    {withinRate : Bool} {req : Request} {resp : Response} {sig? : Option WebhookSignal}
    (h : answer cfg parse now withinRate req = .ok (resp, sig?)) :
    resp = accepted ↔ sig?.isSome = true := by
  have hempty : ∀ x : WebhookSignal, ((tryPush queueCapacity [] x).2).head? = some x := by
    intro x
    rw [tryPush, if_neg (by simp [queueCapacity])]
    rfl
  unfold answer handleRequest at h
  split_ifs at h
  · cases h
    decide
  · cases h
    decide
  · cases h
    decide
  · split at h
    · cases h
    · cases h
      decide
    · split_ifs at h
      · cases h
        decide
      · cases h
        decide
      · cases h
        simp [accepted, hempty]

/-- What is seen of a worker's step. -/
def Worker.deed (i : ℕ) (d : Desk) : Worker → Option Deed
  | waiting => d.queue.head?.map fun q => .popped i q d
  | check q now => some (.checked q now d)
  | futures ticket job => if job.finished then none else some (.handled ticket job d)
  | _ => none

/-- **A deed says where its worker is.** -/
theorem Worker.deed_cases {w : Worker} {i : ℕ} {d : Desk} {deed : Deed}
    (h : deed ∈ w.deed i d) :
    (∃ q, w = waiting ∧ q ∈ d.queue.head? ∧ deed = .popped i q d) ∨
      (∃ q now, w = .check q now ∧ deed = .checked q now d) ∨
      ∃ ticket job, w = futures ticket job ∧ job.finished = false ∧
        deed = .handled ticket job d := by
  cases w with
  | waiting =>
      obtain ⟨q, hq, rfl⟩ := Option.map_eq_some_iff.1 h
      exact .inl ⟨q, rfl, hq, rfl⟩
  | check q now =>
      cases h
      exact .inr (.inl ⟨q, now, rfl, rfl⟩)
  | futures ticket job =>
      obtain ⟨hfinished, heq⟩ := Option.ite_none_left_eq_some.1 h
      cases heq
      exact .inr (.inr ⟨ticket, job, rfl, by simpa using hfinished, rfl⟩)
  | _ => cases h

/-- What is seen of a step. -/
def Floor.deed (cfg : DeskConfig) (parse : Text → Option Json) (s : Floor) :
    FloorLabel → Option Deed
  | .work i => s.jobs[i]?.bind fun w => w.deed i s.shared
  | .event (.request withinRate req _) =>
      match Server.answer cfg.front parse s.shared.now withinRate req with
      | .ok (resp, sig?) =>
          if resp = Server.accepted then some (.accepted s.shared.tickets sig?) else none
      | .error _ => none
  | .event .clearRecent => some .cleared
  | _ => none

/-- **The workers, with the log of what they do.** -/
abbrev loggedFloor (cfg : DeskConfig) (parse : Text → Option Json) :
    System (Floor × List Deed) FloorLabel :=
  (floorSystem cfg parse).logged (Floor.deed cfg parse)

/-! ## The steps -/

/-- **The events, with what is seen of them.** -/
inductive DeskEvent.Move (cfg : DeskConfig) (d : Desk) : Desk → Option Deed → Prop
  | accept (sig : WebhookSignal) (rd : Readings) :
      Move cfg d (d.onSignal sig rd) (some (.accepted d.tickets (some sig)))
  | refuse : Move cfg d d none
  | engine {e : Event} {engine : Shared} (happly : e.apply cfg.engine d.engine = some engine) :
      Move cfg d { d with engine, clearDue := d.clearDue || e.isReset } none
  | clear (hdue : d.clearDue = true) :
      Move cfg d { d with recent := ∅, clearDue := false } (some .cleared)
  | markLive (shadow : ShadowTracker) : Move cfg d { d with shadow } none
  | tick (ns : ℕ) : Move cfg d { d with now := d.now + ns } none
  | stop : Move cfg d { d with running := false } none

/-- **The steps of the floor, with what is seen of them.** -/
inductive Floor.Move (cfg : DeskConfig) (s : Floor) : Floor → Option Deed → Prop
  | start {w : Worker} (hstart : w.canStart = true) :
      Move cfg s { s with jobs := s.jobs ++ [w] } none
  | work (i : ℕ) {w w' : Worker} {d' : Desk} (hw : s.jobs[i]? = some w)
      (hmove : Worker.Move cfg s.shared w w' d') :
      Move cfg s ⟨d', s.jobs.set i w'⟩ (w.deed i s.shared)
  | event {d' : Desk} {deed : Option Deed} (hmove : DeskEvent.Move cfg s.shared d' deed) :
      Move cfg s { s with shared := d' } deed

namespace Floor

variable {cfg : DeskConfig} {parse : Text → Option Json} {s t : Floor × List Deed}
  {l : FloorLabel}

theorem move_of_event {d d' : Desk} {jobs : List Worker} {e : DeskEvent}
    (h : e.apply cfg parse d = some d') :
    DeskEvent.Move cfg d d' (Floor.deed cfg parse ⟨d, jobs⟩ (.event e)) := by
  cases e <;> simp only [DeskEvent.apply] at h
  case request withinRate req rd =>
    simp only [Floor.deed]
    cases hanswer : Server.answer cfg.front parse d.now withinRate req with
    | error =>
        rw [hanswer] at h
        cases h
        exact .refuse
    | ok r =>
        obtain ⟨resp, sig?⟩ := r
        -- the answer is 'accepted' just where there is a signal
        have hiff := Server.answer_accepted_iff hanswer
        rw [hanswer] at h
        cases sig? with
        | none =>
            cases h
            dsimp only
            rw [if_neg fun hresp => by simpa using hiff.1 hresp]
            exact .refuse
        | some sig =>
            cases h
            dsimp only
            rw [if_pos (hiff.2 rfl)]
            exact .accept sig rd
  case engine e =>
    obtain ⟨engine, happly, rfl⟩ := Option.map_eq_some_iff.1 h
    exact .engine happly
  case clearRecent =>
    split_ifs at h with hdue
    cases h
    exact .clear hdue
  case markLive =>
    cases h
    exact .markLive _
  case tick ns =>
    cases h
    exact .tick ns
  case stop =>
    cases h
    exact .stop

/-- **A step of a run** is one of the floor's, and its deed goes on the
log. -/
theorem move_of_next (h : (loggedFloor cfg parse).next s l = some t) :
    Move cfg s.1 t.1 (Floor.deed cfg parse s.1 l) ∧
      t.2 = (Floor.deed cfg parse s.1 l).toList ++ s.2 := by
  obtain ⟨hnext, hlog⟩ := System.next_logged.1 h
  refine ⟨?_, hlog⟩
  obtain ⟨⟨d, jobs⟩, log⟩ := s
  obtain ⟨t, log'⟩ := t
  cases Threads.move_of_next hnext with
  | start w hstart => exact .start hstart
  | @work i w w' d' hw hstep =>
      have hdeed : Floor.deed cfg parse ⟨d, jobs⟩ (.work i) = w.deed i d := by
        rw [Floor.deed, hw]
        rfl
      rw [hdeed]
      exact .work i hw (Worker.move_of_step hstep)
  | event e happly => exact .event (move_of_event happly)

/-- **The rule of a log.** What the start has with an empty log, and every
step of the run keeps, every run has with its log. -/
theorem log_invariant {G : Floor × List Deed → FloorLabel → Prop} {I : Floor → List Deed → Prop}
    (hinit : ∀ s, (floorSystem cfg parse).init s → I s [])
    (hstep : ∀ s l s', I s.1 s.2 → G s l → Move cfg s.1 s' (Floor.deed cfg parse s.1 l) →
      I s' ((Floor.deed cfg parse s.1 l).toList ++ s.2))
    (h : (loggedFloor cfg parse).Reachable G t) : I t.1 t.2 := by
  refine h.invariant (I := fun t => I t.1 t.2) (fun s hs => ?_) fun s l t hI hG hnext => ?_
  · rw [hs.2]
    exact hinit s.1 hs.1
  · obtain ⟨hmove, hlog⟩ := move_of_next hnext
    rw [hlog]
    exact hstep s l t.1 hI hG hmove

end Floor

/-! ## Tickets -/

theorem tryPush_of_full {α : Type} {capacity : ℕ} {queue : List α} {item : α}
    (h : capacity ≤ queue.length) : (tryPush capacity queue item).2 = queue := by
  rw [tryPush, if_pos h]

theorem tryPush_of_room {α : Type} {capacity : ℕ} {queue : List α} {item : α}
    (h : queue.length < capacity) : (tryPush capacity queue item).2 = queue ++ [item] := by
  rw [tryPush, if_neg (not_le.2 h)]

/-- The ticket of the signal a worker has. -/
def Worker.ticket : Worker → Option ℕ
  | stamp q => some q.ticket
  | shadow q _ => some q.ticket
  | spotShadow q _ => some q.ticket
  | check q _ => some q.ticket
  | futures ticket _ => some ticket
  | spot ticket _ => some ticket
  | _ => none

namespace Worker

variable {cfg : DeskConfig} {d d' : Desk} {w w' : Worker}

/-- Only `close_all_positions` is started beside the workers. -/
theorem exists_of_canStart (h : w.canStart = true) : ∃ job, w = .closeAll job := by
  cases w with
  | closeAll job => exact ⟨job, rfl⟩
  | _ => cases h

theorem Routed.ticket {q : Queued} (h : Routed q w) : ∀ a ∈ w.ticket, a = q.ticket := by
  intro a ha
  cases h with
  | idle => cases ha
  | spot | entry | tp | sl => exact (Option.some.inj ha).symm

/-- **What a step does to tickets**: one is taken off the queue, or none is
new. -/
theorem Move.tickets (h : Move cfg d w w' d') :
    d'.tickets = d.tickets ∧
      (d'.queue = d.queue ∧ (∀ a ∈ w'.ticket, a ∈ w.ticket) ∨
        ∃ q, w = .waiting ∧ w' = .stamp q ∧ d.queue = q :: d'.queue) := by
  cases h with
  | wake =>
      refine ⟨rfl, .inl ⟨rfl, ?_⟩⟩
      split_ifs <;> exact nofun
  | rest | stale | duplicate | leave | leaveSpot => exact ⟨rfl, .inl ⟨rfl, nofun⟩⟩
  | pop hqueue => exact ⟨rfl, .inr ⟨_, rfl, rfl, hqueue⟩⟩
  | stamp | shadow | spotShadow | futures | closeAll => exact ⟨rfl, .inl ⟨rfl, fun _ ha => ha⟩⟩
  | pass =>
      refine ⟨rfl, .inl ⟨rfl, fun a ha => ?_⟩⟩
      rw [(routed_route cfg _).ticket a ha]
      rfl
  | spot ticket hstep =>
      cases SpotJob.move_of_step hstep with
      | quiet | account => exact ⟨rfl, .inl ⟨rfl, fun _ ha => ha⟩⟩

end Worker

namespace Desk

/-- **The queue is in order**, and of signals that have had their tickets. -/
structure Numbered (d : Desk) : Prop where
  sorted : d.queue.Pairwise fun q q' => q.ticket < q'.ticket
  issued : ∀ q ∈ d.queue, q.ticket < d.tickets

/-- A ticket has been issued, and comes before what waits. -/
def Before (d : Desk) (a : ℕ) : Prop := a < d.tickets ∧ ∀ q ∈ d.queue, a < q.ticket

/-- A worker's ticket comes before what waits. -/
def Precedes (d : Desk) (w : Worker) : Prop := ∀ a ∈ w.ticket, d.Before a

variable {d d' : Desk} {a : ℕ}

/-- The queue after a signal: as before, or with it at the end. -/
theorem queue_onSignal (sig : WebhookSignal) (rd : Readings) (d : Desk) :
    queueCapacity ≤ d.queue.length ∧ (d.onSignal sig rd).queue = d.queue ∨
      d.queue.length < queueCapacity ∧
        (d.onSignal sig rd).queue = d.queue ++ [⟨d.tickets, sig, rd⟩] := by
  rcases le_or_gt queueCapacity d.queue.length with hfull | hroom
  · exact .inl ⟨hfull, tryPush_of_full hfull⟩
  · exact .inr ⟨hroom, tryPush_of_room hroom⟩

theorem mem_queue_onSignal {sig : WebhookSignal} {rd : Readings} {q : Queued}
    (h : q ∈ (d.onSignal sig rd).queue) : q ∈ d.queue ∨ q.ticket = d.tickets := by
  rcases queue_onSignal sig rd d with ⟨-, hqueue⟩ | ⟨-, hqueue⟩ <;> rw [hqueue] at h
  · exact .inl h
  · rcases List.mem_append.1 h with hold | hnew
    · exact .inl hold
    · exact .inr (by rw [List.mem_singleton.1 hnew])

theorem Numbered.onSignal (h : d.Numbered) (sig : WebhookSignal) (rd : Readings) :
    (d.onSignal sig rd).Numbered where
  sorted := by
    rcases queue_onSignal sig rd d with ⟨-, hqueue⟩ | ⟨-, hqueue⟩ <;> rw [hqueue]
    · exact h.sorted
    · refine List.pairwise_append.2 ⟨h.sorted, List.pairwise_singleton _ _, fun q hq q' hq' => ?_⟩
      rw [List.mem_singleton.1 hq']
      exact h.issued q hq
  issued q hq := by
    rcases mem_queue_onSignal hq with hold | hnew
    · exact (h.issued q hold).trans (Nat.lt_succ_self _)
    · exact hnew.trans_lt (Nat.lt_succ_self _)

theorem Before.onSignal (h : d.Before a) (sig : WebhookSignal) (rd : Readings) :
    (d.onSignal sig rd).Before a := by
  obtain ⟨hissued, hbefore⟩ := h
  refine ⟨hissued.trans (Nat.lt_succ_self _), fun q hq => ?_⟩
  rcases mem_queue_onSignal hq with hold | hnew
  · exact hbefore q hold
  · exact hnew ▸ hissued

/-- Of what is taken off the queue, the rest comes after. -/
theorem Before.of_cons (h : d.Before a) {q : Queued} (htickets : d'.tickets = d.tickets)
    (hqueue : d.queue = q :: d'.queue) : d'.Before a :=
  ⟨htickets ▸ h.1, fun q' hq' => h.2 q' (hqueue ▸ List.mem_cons_of_mem _ hq')⟩

theorem Numbered.of_cons (h : d.Numbered) {q : Queued} (htickets : d'.tickets = d.tickets)
    (hqueue : d.queue = q :: d'.queue) : d'.Numbered ∧ d'.Before q.ticket := by
  obtain ⟨hsorted, hissued⟩ := h
  rw [hqueue] at hsorted hissued
  refine ⟨⟨hsorted.of_cons, fun q' hq' => ?_⟩, ?_, fun q' => List.rel_of_pairwise_cons hsorted⟩
  · exact htickets ▸ hissued q' (List.mem_cons_of_mem _ hq')
  · exact htickets ▸ hissued q List.mem_cons_self

end Desk

namespace Floor

/-- **The invariant of tickets.** -/
abbrev Ticketed (s : Floor) : Prop :=
  s.Holds Desk.Numbered Desk.Precedes fun w w' => ∀ a ∈ w.ticket, a ∉ w'.ticket

variable {cfg : DeskConfig} {parse : Text → Option Json} {s s' : Floor} {deed : Option Deed}

/-- At the start every worker is idle. -/
theorem idle_of_init (h : (floorSystem cfg parse).init s) {i : ℕ} {w : Worker}
    (hw : s.jobs[i]? = some w) : w = .idle := by
  rw [h.1] at hw
  exact List.eq_of_mem_replicate (List.mem_of_getElem? hw)

theorem ticketed_of_init (h : (floorSystem cfg parse).init s) : s.Ticketed := by
  constructor
  · constructor <;> simp [h.2.queue]
  · intro i w hw
    simp [Desk.Precedes, idle_of_init h hw, Worker.ticket]
  · intro i k w w' _ hw _
    simp [idle_of_init h hw, Worker.ticket]

/-- **Every step keeps the invariant of tickets.** -/
theorem Ticketed.move (h : s.Ticketed) (hmove : Move cfg s s' deed) : s'.Ticketed := by
  cases hmove with
  | start hstart =>
      obtain ⟨job, rfl⟩ := Worker.exists_of_canStart hstart
      exact h.start (by simp [Desk.Precedes, Worker.ticket]) fun other => by simp [Worker.ticket]
  | work i hw hstep =>
      rename_i w w' d'
      obtain ⟨htickets, ⟨hqueue, hsub⟩ | ⟨q, -, rfl, hqueue⟩⟩ := hstep.tickets
      · have hprecedes : ∀ other, s.shared.Precedes other → d'.Precedes other := by
          intro other hother a ha
          obtain ⟨hissued, hbefore⟩ := hother a ha
          exact ⟨htickets ▸ hissued, hqueue ▸ hbefore⟩
        -- a step that takes nothing off the queue hands on the ticket it has
        refine Threads.Holds.work h hw ⟨hqueue ▸ h.shared.sorted, ?_⟩ ?_ ?_ ?_
        · rw [hqueue, htickets]
          exact h.shared.issued
        · exact hprecedes _ fun a ha => h.jobs i _ hw a (hsub a ha)
        · exact fun other hother _ => hprecedes other hother
        · refine fun other _ hapart => ⟨fun a ha => hapart a (hsub a ha), fun a ha ha' => ?_⟩
          exact hapart a (hsub a ha') ha
      · obtain ⟨hnumbered, hbefore⟩ := h.shared.of_cons htickets hqueue
        -- every ticket that a worker has is smaller than the one taken off
        have hsmaller : ∀ other, s.shared.Precedes other → ∀ a ∈ other.ticket, a < q.ticket :=
          fun other hother a ha => (hother a ha).2 q (hqueue ▸ List.mem_cons_self)
        refine Threads.Holds.work h hw hnumbered ?_ ?_ ?_
        · rintro a ⟨⟩
          exact hbefore
        · exact fun other hother _ a ha => (hother a ha).of_cons htickets hqueue
        · intro other hother _
          refine ⟨?_, fun a ha => ?_⟩
          · rintro a ⟨⟩ ha
            exact (hsmaller other hother _ ha).false
          · rintro ⟨⟩
            exact (hsmaller other hother _ ha).false
  | event hevent =>
      cases hevent with
      | accept sig rd =>
          exact h.event (h.shared.onSignal sig rd) fun i w hw a ha =>
            (h.jobs i w hw a ha).onSignal sig rd
      | refuse | engine | clear | markLive | tick | stop =>
          exact h.event ⟨h.shared.sorted, h.shared.issued⟩ h.jobs

end Floor

/-! ## Pushes and pops -/

/-- The deed is a push or a pop. -/
def Deed.queues : Deed → Bool
  | accepted .. => true
  | popped .. => true
  | _ => false

theorem Worker.queues_deed {w : Worker} (hw : w ≠ .waiting) (i : ℕ) (d : Desk) :
    ∀ x ∈ w.deed i d, x.queues = false := by
  intro x hx
  rcases deed_cases hx with ⟨q, hwaiting, -⟩ | ⟨q, now, -, rfl⟩ | ⟨ticket, job, -, -, rfl⟩
  · exact (hw hwaiting).elim
  · rfl
  · rfl

namespace Floor

/-- **What a step does to the queue**, and what is seen of it. -/
inductive Queueing (s s' : Floor) : Option Deed → Prop
  | push (sig : WebhookSignal) (rd : Readings)
      (hqueue : s'.shared.queue = (s.shared.onSignal sig rd).queue)
      (htickets : s'.shared.tickets = s.shared.tickets + 1) :
      Queueing s s' (some (.accepted s.shared.tickets (some sig)))
  | pop (i : ℕ) {q : Queued} (hqueue : s.shared.queue = q :: s'.shared.queue)
      (htickets : s'.shared.tickets = s.shared.tickets) :
      Queueing s s' (some (.popped i q s.shared))
  | still {deed : Option Deed} (hqueue : s'.shared.queue = s.shared.queue)
      (htickets : s'.shared.tickets = s.shared.tickets) (hquiet : ∀ x ∈ deed, x.queues = false) :
      Queueing s s' deed

theorem queueing_of_move {cfg : DeskConfig} {s s' : Floor} {deed : Option Deed}
    (h : Move cfg s s' deed) : Queueing s s' deed := by
  cases h with
  | start => exact .still rfl rfl (by simp)
  | work i hw hstep =>
      rename_i w w' d'
      by_cases hwaiting : w = .waiting
      · subst hwaiting
        cases hstep with
        | rest hqueue =>
            refine .still rfl rfl fun x hx => ?_
            simp [Worker.deed, hqueue] at hx
        | @pop q _ hqueue =>
            have hdeed : Worker.deed i s.shared .waiting = some (.popped i q s.shared) := by
              rw [Worker.deed, hqueue]
              rfl
            rw [hdeed]
            exact .pop i hqueue rfl
      · obtain ⟨htickets, ⟨hqueue, -⟩ | ⟨_, hwait, -⟩⟩ := hstep.tickets
        · exact .still hqueue htickets (Worker.queues_deed hwaiting i s.shared)
        · exact (hwaiting hwait).elim
  | event hevent =>
      cases hevent with
      | accept sig rd => exact .push sig rd rfl rfl
      | clear =>
          refine .still rfl rfl ?_
          rintro x ⟨⟩
          rfl
      | refuse | engine | markLive | tick | stop => exact .still rfl rfl (by simp)

/-- What comes before what waits, still does after a step. -/
theorem Queueing.before {s s' : Floor} {deed : Option Deed} {a : ℕ} (h : Queueing s s' deed)
    (hbefore : s.shared.Before a) : s'.shared.Before a := by
  cases h with
  | push sig rd hqueue htickets =>
      have hpushed := hbefore.onSignal sig rd
      exact ⟨htickets ▸ hpushed.1, hqueue ▸ hpushed.2⟩
  | pop i hqueue htickets => exact hbefore.of_cons htickets hqueue
  | still hqueue htickets => exact ⟨htickets ▸ hbefore.1, hqueue ▸ hbefore.2⟩

end Floor

/-! ## A floor to run things on -/

namespace FloorRun

/-- A desk at the start, with a book. -/
def desk (cfg : DeskConfig) (positions : Book) : Desk where
  engine := { modes := Modes.start cfg.engine.trading.shadowMode, positions }

/-- The floor at the start. -/
def start (cfg : DeskConfig) (positions : Book) : Floor × List Deed :=
  (⟨desk cfg positions, List.replicate cfg.workers .idle⟩, [])

theorem start_init (cfg : DeskConfig) (parse : Text → Option Json) (positions : Book) :
    (loggedFloor cfg parse).init (start cfg positions) :=
  ⟨⟨rfl, ⟨rfl, rfl, ⟨_, rfl⟩, rfl, rfl⟩, rfl, rfl, rfl, rfl, rfl⟩, rfl⟩

/-- A buy of a symbol, in the generic format. -/
def buy (symbol : String) : Json :=
  .obj [("action", .str "buy"), ("symbol", .str symbol), ("price", .int 50)]

/-- A stop-loss of the long position on bitcoin, in the indicator's
format. -/
def stopLoss : Json :=
  .obj [("alert", .str "SL"), ("signal_direction", .str "bull"), ("ticker", .str "BTCUSDT.P"),
    ("close", .int 50), ("timeframe", .str "15")]

/-- Shadow mode, with so many workers. -/
def shadow (numWorkers : ℤ) : DeskConfig where
  engine := { trading := { shadowMode := true } }
  numWorkers
  hash s := .ofNat s.length

/-- A request whose body is one byte. -/
def request (n : UInt8) (rd : Readings) : FloorLabel :=
  .event (.request true ⟨.post, "/webhook", [n]⟩ rd)

/-- A worker alone, a number of steps. -/
def works (i n : ℕ) : List FloorLabel := List.replicate n (.work i)

/-- So many seconds pass. -/
def seconds (n : ℕ) : List FloorLabel :=
  [.event (.tick (n * 10 ^ 9)), .event (.engine (.tick (n * 10 ^ 9) (n * 10 ^ 9)))]

/-- Where a replay from the start ends. -/
def after (cfg : DeskConfig) (parse : Text → Option Json) (positions : Book)
    (ls : List FloorLabel) : Floor × List Deed :=
  (loggedFloor cfg parse).endOf (start cfg positions) ls

/-- **A replay that gets through** ends in a state that is reached. -/
theorem reachable_after {cfg : DeskConfig} {parse : Text → Option Json} {positions : Book}
    {ls : List FloorLabel}
    (h : ((loggedFloor cfg parse).play System.anyStep (start cfg positions) ls).isSome = true) :
    (loggedFloor cfg parse).Reachable System.anyStep (after cfg parse positions ls) :=
  ⟨start cfg positions, start_init cfg parse positions, System.run_endOf ls h⟩

end FloorRun

end WebhookTrader
