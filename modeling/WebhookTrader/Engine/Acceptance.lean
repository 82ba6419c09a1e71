import WebhookTrader.Engine.Deeds

/-!
# Accepted signals

A request that is answered as accepted has handed its signal over, and
what becomes of the push nobody asks. Where every accepted request finds
room in the queue, its signal waits there, or one worker has popped it,
once; the shutdown changes nothing of this.
-/

namespace WebhookTrader

/-- The workers that have popped the signal with a ticket. -/
def poppers (ticket : ℕ) (log : List Deed) : List ℕ :=
  log.filterMap fun
    | .popped worker q _ => if q.ticket = ticket then some worker else none
    | _ => none

/-- **The signal with a ticket is not lost**: it is in the queue, or has
left it into one worker's hands. -/
inductive Kept (ticket : ℕ) (sig : WebhookSignal) (queue : List Queued) (log : List Deed) : Prop
  | queued {q : Queued} (hmem : q ∈ queue) (hticket : q.ticket = ticket) (hsig : q.sig = sig)
      (hnone : poppers ticket log = [])
  | popped {worker : ℕ} {q : Queued} {d : Desk} (hmem : .popped worker q d ∈ log)
      (hticket : q.ticket = ticket) (hsig : q.sig = sig) (hgone : ∀ q ∈ queue, q.ticket ≠ ticket)
      (hone : poppers ticket log = [worker])

/-- **An accepted request finds room in the queue.** -/
def Floor.FindsRoom (cfg : DeskConfig) (parse : Text → Option Json) (s : Floor × List Deed)
    (l : FloorLabel) : Prop :=
  ∀ ticket sig?, Floor.deed cfg parse s.1 l = some (.accepted ticket sig?) →
    s.1.shared.queue.length < queueCapacity

section Poppers

variable {ticket : ℕ} {log : List Deed}

theorem poppers_toList {deed : Option Deed} (h : ∀ x ∈ deed, x.queues = false) :
    poppers ticket (deed.toList ++ log) = poppers ticket log := by
  cases deed with
  | none => rfl
  | some x =>
      have hx := h x rfl
      cases x <;> first | rfl | cases hx

theorem poppers_cons_popped {worker : ℕ} {q : Queued} {d : Desk} :
    poppers ticket (.popped worker q d :: log) =
      if q.ticket = ticket then worker :: poppers ticket log else poppers ticket log := by
  rw [poppers, List.filterMap_cons]
  dsimp only
  split_ifs <;> rfl

/-- Where no pop is of a ticket, nobody has popped it. -/
theorem poppers_eq_nil (h : ∀ worker q d, Deed.popped worker q d ∈ log → q.ticket ≠ ticket) :
    poppers ticket log = [] := by
  induction log with
  | nil => rfl
  | cons deed log ih =>
      have htail := ih fun worker q d hmem => h worker q d (List.mem_cons_of_mem _ hmem)
      cases deed with
      | popped worker q d =>
          rw [poppers_cons_popped, if_neg (h worker q d List.mem_cons_self), htail]
      | _ => exact htail

end Poppers

/-! ## The invariant -/

namespace Kept

variable {ticket : ℕ} {sig : WebhookSignal} {queue queue' : List Queued} {log : List Deed}

/-- What happens apart from pops and pushes. -/
theorem still (h : Kept ticket sig queue log) {deed : Option Deed}
    (hquiet : ∀ x ∈ deed, x.queues = false) : Kept ticket sig queue (deed.toList ++ log) := by
  cases h with
  | queued hmem hticket hsig hnone =>
      exact .queued hmem hticket hsig (by rw [poppers_toList hquiet, hnone])
  | popped hmem hticket hsig hgone hone =>
      exact .popped (List.mem_append_right _ hmem) hticket hsig hgone
        (by rw [poppers_toList hquiet, hone])

/-- A push of a signal with another ticket. -/
theorem push (h : Kept ticket sig queue log) {q : Queued} (hne : q.ticket ≠ ticket)
    (accepted : ℕ) (sig? : Option WebhookSignal) :
    Kept ticket sig (queue ++ [q]) (.accepted accepted sig? :: log) := by
  cases h with
  | queued hmem hticket hsig hnone =>
      exact .queued (List.mem_append_left _ hmem) hticket hsig hnone
  | popped hmem hticket hsig hgone hone =>
      refine .popped (List.mem_cons_of_mem _ hmem) hticket hsig (fun q' hq' => ?_) hone
      rcases List.mem_append.1 hq' with hold | hnew
      · exact hgone q' hold
      · rw [List.mem_singleton.1 hnew]
        exact hne

/-- **A pop**: the first signal changes hands, and no other does. -/
theorem pop {q : Queued} (h : Kept ticket sig (q :: queue) log)
    (hsorted : ∀ q' ∈ queue, q.ticket < q'.ticket) (worker : ℕ) (d : Desk) :
    Kept ticket sig queue (.popped worker q d :: log) := by
  cases h with
  | queued hmem hticket hsig hnone =>
      rcases List.mem_cons.1 hmem with rfl | hmem
      · refine .popped List.mem_cons_self hticket hsig (fun q' hq' => ?_) ?_
        · exact hticket ▸ (hsorted q' hq').ne'
        · rw [poppers_cons_popped, if_pos hticket, hnone]
      · refine .queued hmem hticket hsig ?_
        rw [poppers_cons_popped, if_neg (hticket ▸ (hsorted _ hmem).ne), hnone]
  | popped hmem hticket hsig hgone hone =>
      refine .popped (List.mem_cons_of_mem _ hmem) hticket hsig
        (fun q' hq' => hgone q' (List.mem_cons_of_mem _ hq')) ?_
      rw [poppers_cons_popped, if_neg (hgone q List.mem_cons_self), hone]

end Kept

namespace Floor

/-- **The invariant of accepted signals.** -/
structure Keeps (s : Floor) (log : List Deed) : Prop where
  ticketed : s.Ticketed
  popped : ∀ worker q d, .popped worker q d ∈ log → q.ticket < s.shared.tickets
  accepted : ∀ ticket sig?, .accepted ticket sig? ∈ log →
    ticket < s.shared.tickets ∧ ∃ sig, sig? = some sig ∧ Kept ticket sig s.shared.queue log

variable {cfg : DeskConfig} {parse : Text → Option Json} {s s' : Floor} {deed : Option Deed}
  {log : List Deed}

/-- **Every step keeps the invariant**, where an accepted request finds
room. -/
theorem Keeps.move (h : s.Keeps log)
    (hroom : ∀ ticket sig?, deed = some (.accepted ticket sig?) →
      s.shared.queue.length < queueCapacity)
    (hmove : Move cfg s s' deed) : s'.Keeps (deed.toList ++ log) := by
  have hticketed := h.ticketed.move hmove
  cases queueing_of_move hmove with
  | push sig rd hqueue htickets =>
      have hpushed : s'.shared.queue = s.shared.queue ++ [⟨s.shared.tickets, sig, rd⟩] := by
        rw [hqueue]
        exact tryPush_of_room (hroom _ _ rfl)
      refine ⟨hticketed, fun worker q d hx => ?_, fun ticket sig? hx => ?_⟩
      · rcases List.mem_cons.1 hx with heq | hold
        · cases heq
        · exact htickets ▸ (h.popped worker q d hold).trans (Nat.lt_succ_self _)
      · rw [hpushed, htickets]
        rcases List.mem_cons.1 hx with heq | hold
        · cases heq
          refine ⟨Nat.lt_succ_self _, sig, rfl,
            .queued (List.mem_append_right _ List.mem_cons_self) rfl rfl ?_⟩
          -- the ticket is new, so nothing with it has been popped
          refine poppers_eq_nil fun worker q d hmem => ?_
          rcases List.mem_cons.1 hmem with heq | hold
          · cases heq
          · exact (h.popped worker q d hold).ne
        · obtain ⟨hlt, sig', rfl, hkept⟩ := h.accepted ticket sig? hold
          exact ⟨hlt.trans (Nat.lt_succ_self _), sig', rfl, hkept.push hlt.ne' _ _⟩
  | @pop i q hqueue htickets =>
      have hsorted := h.ticketed.shared.sorted
      rw [hqueue] at hsorted
      refine ⟨hticketed, fun worker q' d hx => ?_, fun ticket sig? hx => ?_⟩
      · rw [htickets]
        rcases List.mem_cons.1 hx with heq | hold
        · cases heq
          exact h.ticketed.shared.issued q (hqueue ▸ List.mem_cons_self)
        · exact h.popped worker q' d hold
      · rw [htickets]
        rcases List.mem_cons.1 hx with heq | hold
        · cases heq
        · obtain ⟨hlt, sig, rfl, hkept⟩ := h.accepted ticket sig? hold
          rw [hqueue] at hkept
          exact ⟨hlt, sig, rfl, hkept.pop (fun q' => List.rel_of_pairwise_cons hsorted) i s.shared⟩
  | still hqueue htickets hquiet =>
      have hold : ∀ x ∈ deed.toList ++ log, x.queues = true → x ∈ log := by
        intro x hx hqueues
        rcases List.mem_append.1 hx with hnew | hold
        · have hfalse := hquiet x (Option.mem_toList.1 hnew)
          exact (Bool.false_ne_true (hfalse.symm.trans hqueues)).elim
        · exact hold
      refine ⟨hticketed, fun worker q d hx => ?_, fun ticket sig? hx => ?_⟩
      · exact htickets ▸ h.popped worker q d (hold _ hx rfl)
      · obtain ⟨hlt, sig, rfl, hkept⟩ := h.accepted ticket sig? (hold _ hx rfl)
        rw [hqueue, htickets]
        exact ⟨hlt, sig, rfl, hkept.still hquiet⟩

/-- No worker's step accepts a request. -/
theorem findsRoom_work (s : Floor × List Deed) (i : ℕ) : FindsRoom cfg parse s (.work i) := by
  intro ticket sig? hdeed
  obtain ⟨w, -, hw⟩ := Option.bind_eq_some_iff.1 hdeed
  rcases Worker.deed_cases hw with ⟨_, -, -, heq⟩ | ⟨_, _, -, heq⟩ | ⟨_, _, -, -, heq⟩
  · cases heq
  · cases heq
  · cases heq

theorem keeps_of_init (h : (floorSystem cfg parse).init s) : s.Keeps [] :=
  ⟨ticketed_of_init h, by simp, by simp⟩

end Floor

/-- **An accepted signal is not lost** in any run whose accepted requests
find room in the queue, whatever the workers, the clock and the shutdown
do. -/
theorem accepted_kept {cfg : DeskConfig} {parse : Text → Option Json} {t : Floor × List Deed}
    (h : (loggedFloor cfg parse).Reachable (Floor.FindsRoom cfg parse) t) :
    ∀ ticket sig?, .accepted ticket sig? ∈ t.2 →
      ∃ sig, sig? = some sig ∧ Kept ticket sig t.1.shared.queue t.2 := by
  have hkeeps : t.1.Keeps t.2 :=
    Floor.log_invariant (I := Floor.Keeps) (fun _ hs => Floor.keeps_of_init hs)
      (fun _ _ _ hI hroom hmove => hI.move hroom hmove) h
  exact fun ticket sig? hmem => (hkeeps.accepted ticket sig? hmem).2

/-! ### A full queue -/

namespace FullQueue

open FloorRun

/-- Whatever comes is a buy of bitcoin. -/
def parse (_ : Text) : Option Json := some (buy "BTCUSDT")

/-- What is read of it. -/
def bought (now : ℕ) : WebhookSignal where
  symbol := "BTCUSDT"
  action := "buy"
  tradeSide := "open"
  price := 50
  sigType := .entry
  receivedAt := now

/-- **The buy is accepted**, whatever the queue. -/
theorem next_request (s : Floor × List Deed) :
    (loggedFloor {} parse).next s (request 0 {}) =
      some (⟨s.1.shared.onSignal (bought s.1.shared.now) {}, s.1.jobs⟩,
        .accepted s.1.shared.tickets (some (bought s.1.shared.now)) :: s.2) := by
  rfl

/-- So many requests, as long as the queue takes them. -/
theorem exists_pushed {n : ℕ} (hn : n ≤ queueCapacity) :
    ∃ t, (loggedFloor {} parse).Reachable System.anyStep t ∧ t.1.shared.tickets = n ∧
      t.1.shared.queue.length = n ∧ (∀ q ∈ t.1.shared.queue, q.ticket < n) ∧
      ∀ worker q d, .popped worker q d ∉ t.2 := by
  induction n with
  | zero =>
      exact ⟨start {} ∅, ⟨_, start_init {} parse ∅, .refl⟩, rfl, rfl, by simp [start, desk],
        by simp [start]⟩
  | succ n ih =>
      obtain ⟨t, ⟨t₀, hinit, hrun⟩, htickets, hlength, hissued, hpops⟩ := ih (by omega)
      have hqueue : (t.1.shared.onSignal (bought t.1.shared.now) {}).queue =
          t.1.shared.queue ++ [⟨t.1.shared.tickets, bought t.1.shared.now, {}⟩] :=
        tryPush_of_room (hlength ▸ hn)
      refine ⟨_, ⟨t₀, hinit, hrun.tail trivial (next_request t)⟩, congrArg (· + 1) htickets, ?_,
        fun q hq => ?_, fun worker q d hmem => ?_⟩
      · show (t.1.shared.onSignal (bought t.1.shared.now) {}).queue.length = n + 1
        rw [hqueue, List.length_append, hlength, List.length_singleton]
      · rcases Desk.mem_queue_onSignal hq with hold | hnew
        · exact (hissued q hold).trans (Nat.lt_succ_self n)
        · omega
      · rcases List.mem_cons.1 hmem with heq | hold
        · cases heq
        · exact hpops worker q d hold

end FullQueue

/-- **The request that finds the queue full is accepted, and its signal is
lost.** -/
theorem accepted_lost :
    ∃ t sig, (loggedFloor {} FullQueue.parse).Reachable System.anyStep t ∧
      .accepted queueCapacity (some sig) ∈ t.2 ∧
      ¬ Kept queueCapacity sig t.1.shared.queue t.2 := by
  obtain ⟨t, ⟨t₀, hinit, hrun⟩, htickets, hlength, hissued, hpops⟩ :=
    FullQueue.exists_pushed le_rfl
  have hqueue : (t.1.shared.onSignal (FullQueue.bought t.1.shared.now) {}).queue =
      t.1.shared.queue := tryPush_of_full hlength.ge
  refine ⟨_, FullQueue.bought t.1.shared.now,
    ⟨t₀, hinit, hrun.tail trivial (FullQueue.next_request t)⟩, ?_, fun hkept => ?_⟩
  · rw [htickets]
    exact List.mem_cons_self
  · cases hkept with
    | queued hmem hticket =>
        rw [hqueue] at hmem
        exact (hissued _ hmem).ne hticket
    | popped hmem =>
        rcases List.mem_cons.1 hmem with heq | hold
        · cases heq
        · exact hpops _ _ _ hold

/-- A request whose signal the first worker pops. -/
theorem accepted_kept_popped :
    ∃ t : Floor × List Deed, poppers 0 t.2 = [0] ∧
      ∀ ticket sig?, .accepted ticket sig? ∈ t.2 →
        ∃ sig, sig? = some sig ∧ Kept ticket sig t.1.shared.queue t.2 := by
  have hroom : Floor.FindsRoom {} FullQueue.parse (FloorRun.start {} ∅)
      (FloorRun.request 0 {}) := by
    intro ticket sig? _
    show 0 < queueCapacity
    decide
  have hstart : (loggedFloor {} FullQueue.parse).Run (Floor.FindsRoom {} FullQueue.parse)
      (FloorRun.start {} ∅) _ := System.Run.refl.tail hroom (FullQueue.next_request _)
  refine ⟨_, ?_, accepted_kept ⟨_, FloorRun.start_init {} FullQueue.parse ∅,
    (hstart.tail (Floor.findsRoom_work _ 0) rfl).tail (Floor.findsRoom_work _ 0) rfl⟩⟩
  rfl

end WebhookTrader
