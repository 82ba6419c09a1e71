import WebhookTrader.Core.Model.SignalQueue

/-!
# The queue keeps what it accepts, and wakes whom it must

Whatever threads push, pop, wait and shut down, in whatever order: what
has been taken, followed by what is in the queue, is what has been
accepted, in its order, and each item is returned by one call. And while
anyone waits, every item in the queue has a call on its way that will
look at the queue again without waiting for its time-out.
-/

namespace WebhookTrader

variable {T : Type}

namespace QueueCall

/-- The item a call has put into the queue. -/
def accepted : QueueCall T → Multiset T
  | notifyOne item | pushed item true => {item}
  | _ => 0

/-- The item a call has taken. -/
def taken : QueueCall T → Multiset T
  | popped (some item) => {item}
  | _ => 0

/-- The ticket a call waits with. -/
def ticket : QueueCall T → Multiset ℕ
  | asleep ticket => {ticket}
  | _ => 0

/-- The call will look at the queue, or wake one that will, unless it is
left waiting. -/
def mayLook : QueueCall T → Bool
  | notifyOne _ | waitPop | asleep _ | timedOut => true
  | _ => false

/-- The call is about to wake everyone. -/
def wakesAll : QueueCall T → Bool
  | notifyAll => true
  | _ => false

/-- **The call is on its way**: it notifies, or looks at the queue without
waiting for its time-out. -/
def onTheWay (q : MpscQueue T) : QueueCall T → Bool
  | notifyOne _ | waitPop | timedOut => true
  | asleep ticket => ticket ∉ q.waiting
  | _ => false

/-! ## What a step is -/

/-- **The steps, by what they do to the queue and to those that wait.** -/
inductive Effect (c : QueueCall T) (q : MpscQueue T) : QueueCall T → MpscQueue T → Prop
  /-- Nothing is taken in, given out or notified. -/
  | quiet {c' : QueueCall T} (haccepted : c'.accepted = c.accepted) (htaken : c'.taken = c.taken)
      (hticket : c.ticket = 0 ∧ c'.ticket = 0) (hall : c.wakesAll = false)
      (hlook : c'.mayLook = c.mayLook ∨ q.items = []) : Effect c q c' q
  | accepts (item : T) (hroom : q.items.length < q.maxCap) (hc : c = .tryPush item) :
      Effect c q (.notifyOne item)
        { q with items := q.items ++ [item], pushed := q.pushed ++ [item] }
  | takes {item : T} {items : List T} (hitems : q.items = item :: items)
      (hc : c = .tryPop ∨ c = .waitPop ∨ c = .timedOut) :
      Effect c q (.popped (some item)) { q with items, popped := q.popped ++ [item] }
  | sleeps (hempty : q.items = []) (hup : q.shutdown = false) (hc : c = .waitPop) :
      Effect c q (.asleep q.nextTicket)
        { q with waiting := q.waiting ++ [q.nextTicket], nextTicket := q.nextTicket + 1 }
  | notifies (item : T) (pick : ℕ) (hc : c = .notifyOne item) :
      Effect c q (.pushed item true)
        { q with waiting := q.waiting.eraseIdx (pick % q.waiting.length) }
  | wakes {c' : QueueCall T} (ticket : ℕ) (hc : c = .asleep ticket)
      (hc' : c' = .waitPop ∨ c' = .timedOut) :
      Effect c q c' { q with waiting := q.waiting.erase ticket }
  | stops (hc : c = .shutdown) : Effect c q .notifyAll { q with shutdown := true }
  | releases (hc : c = .notifyAll) : Effect c q .done { q with waiting := [] }

variable {c c' : QueueCall T} {q q' : MpscQueue T}

theorem effect_pop (hc : c = .tryPop ∨ c = .waitPop ∨ c = .timedOut) :
    Effect c q q.pop.1 q.pop.2 := by
  unfold MpscQueue.pop
  split
  · rename_i hitems
    rcases hc with rfl | rfl | rfl <;> exact .quiet rfl rfl ⟨rfl, rfl⟩ rfl (.inr hitems)
  · rename_i hitems
    exact .takes hitems hc

theorem effect_push (item : T) : Effect (.tryPush item) q (q.push item).1 (q.push item).2 := by
  unfold MpscQueue.push
  split_ifs with hfull
  · exact .quiet rfl rfl ⟨rfl, rfl⟩ rfl (.inl rfl)
  · exact .accepts item (Nat.lt_of_not_le hfull) rfl

theorem effect_waitPop : Effect .waitPop q q.waitPop.1 q.waitPop.2 := by
  unfold MpscQueue.waitPop
  split_ifs with hsleeps
  · simp only [Bool.and_eq_true, List.isEmpty_iff, Bool.not_eq_true'] at hsleeps
    exact .sleeps hsleeps.1 hsleeps.2 rfl
  · exact effect_pop (.inr (.inl rfl))

/-- **What a step of a call is.** -/
theorem act_effect {action : QueueAction} (h : c.act q action = some (c', q')) :
    Effect c q c' q' := by
  cases action with
  | run pick =>
      cases c with
      | tryPush item =>
          have heffect := effect_push (q := q) item
          rwa [Option.some.inj h] at heffect
      | notifyOne item =>
          cases h
          exact .notifies item pick rfl
      | tryPop =>
          have heffect := effect_pop (T := T) (q := q) (.inl rfl)
          rwa [Option.some.inj h] at heffect
      | waitPop =>
          have heffect := effect_waitPop (q := q)
          rwa [Option.some.inj h] at heffect
      | timedOut =>
          have heffect := effect_pop (T := T) (q := q) (.inr (.inr rfl))
          rwa [Option.some.inj h] at heffect
      | shutdown =>
          cases h
          exact .stops rfl
      | notifyAll =>
          cases h
          exact .releases rfl
      | asleep ticket => cases h
      | pushed item ok => cases h
      | popped got => cases h
      | done => cases h
  | wake cause =>
      simp only [act] at h
      split at h
      · rename_i ticket
        cases cause with
        | notified =>
            dsimp only at h
            split_ifs at h with hwaiting
            cases h
            -- the notification has taken the ticket away
            have heffect : Effect (.asleep ticket) q .waitPop _ := .wakes ticket rfl (.inl rfl)
            rwa [List.erase_of_not_mem hwaiting] at heffect
        | spurious =>
            cases h
            exact .wakes ticket rfl (.inl rfl)
        | timedOut =>
            cases h
            exact .wakes ticket rfl (.inr rfl)
      · cases h

end QueueCall

/-! ## First in, first out -/

namespace QueueCalls

open Threads (gather gather_set count_set count_start)
open QueueCall

variable {maxCap i : ℕ} {s : QueueCalls T} {c c' : QueueCall T} {q' : MpscQueue T}

/-- **What is kept of the items.** -/
structure Fifo (maxCap : ℕ) (s : QueueCalls T) : Prop where
  cap : s.shared.maxCap = maxCap
  bounded : s.shared.items.length ≤ maxCap
  order : s.shared.popped ++ s.shared.items = s.shared.pushed
  accepted : s.gather QueueCall.accepted = s.shared.pushed
  taken : s.gather QueueCall.taken = s.shared.popped

theorem Fifo.act (h : s.Fifo maxCap) (hjob : s.jobs[i]? = some c)
    (heffect : Effect c s.shared c' q') : Fifo maxCap ⟨q', s.jobs.set i c'⟩ := by
  obtain ⟨hcap, hbounded, horder, haccepted, htaken⟩ := h
  have hnewAccepted := gather_set (f := QueueCall.accepted) c' q' hjob
  have hnewTaken := gather_set (f := QueueCall.taken) c' q' hjob
  rw [haccepted] at hnewAccepted
  rw [htaken] at hnewTaken
  cases heffect with
  | quiet hsameAccepted hsameTaken =>
      rw [hsameAccepted] at hnewAccepted
      rw [hsameTaken] at hnewTaken
      exact ⟨hcap, hbounded, horder, add_right_cancel hnewAccepted, add_right_cancel hnewTaken⟩
  | accepts item hroom hc =>
      subst hc
      refine ⟨hcap, ?_, ?_, ?_, ?_⟩
      · simpa using hcap ▸ hroom
      · simp only [← horder, List.append_assoc]
      · simpa [QueueCall.accepted, ← Multiset.coe_add] using hnewAccepted
      · simpa [QueueCall.taken] using hnewTaken
  | takes hitems hc =>
      rw [hitems] at hbounded horder
      refine ⟨hcap, ?_, ?_, ?_, ?_⟩
      · exact (Nat.le_succ _).trans hbounded
      · simpa using horder
      · rcases hc with rfl | rfl | rfl <;> simpa [QueueCall.accepted] using hnewAccepted
      · rcases hc with rfl | rfl | rfl <;>
          simpa [QueueCall.taken, ← Multiset.coe_add] using hnewTaken
  | sleeps hempty hup hc =>
      subst hc
      exact ⟨hcap, hbounded, horder, by simpa [QueueCall.accepted] using hnewAccepted,
        by simpa [QueueCall.taken] using hnewTaken⟩
  | notifies item pick hc =>
      subst hc
      exact ⟨hcap, hbounded, horder, by simpa [QueueCall.accepted] using hnewAccepted,
        by simpa [QueueCall.taken] using hnewTaken⟩
  | wakes ticket hc hc' =>
      subst hc
      refine ⟨hcap, hbounded, horder, ?_, ?_⟩
      · rcases hc' with rfl | rfl <;> simpa [QueueCall.accepted] using hnewAccepted
      · rcases hc' with rfl | rfl <;> simpa [QueueCall.taken] using hnewTaken
  | stops hc =>
      subst hc
      exact ⟨hcap, hbounded, horder, by simpa [QueueCall.accepted] using hnewAccepted,
        by simpa [QueueCall.taken] using hnewTaken⟩
  | releases hc =>
      subst hc
      exact ⟨hcap, hbounded, horder, by simpa [QueueCall.accepted] using hnewAccepted,
        by simpa [QueueCall.taken] using hnewTaken⟩

/-! ## Those that wait -/

/-- **The tickets**: each is of one call, and those not taken away are of
calls that wait. -/
structure Tickets (s : QueueCalls T) : Prop where
  waiting : (s.shared.waiting : Multiset ℕ) ≤ s.gather QueueCall.ticket
  nodup : (s.gather QueueCall.ticket).Nodup
  issued : ∀ ticket ∈ s.gather QueueCall.ticket, ticket < s.shared.nextTicket

/-- Where the calls' tickets stay, and fewer of them wait. -/
theorem Tickets.of_eq {t : QueueCalls T} (h : s.Tickets)
    (heq : t.gather QueueCall.ticket = s.gather QueueCall.ticket)
    (hwaiting : t.shared.waiting.Sublist s.shared.waiting)
    (hissued : t.shared.nextTicket = s.shared.nextTicket) : t.Tickets where
  waiting := heq ▸ (Multiset.coe_le.2 hwaiting.subperm).trans h.waiting
  nodup := heq ▸ h.nodup
  issued := by
    rw [heq, hissued]
    exact h.issued

theorem Tickets.act (h : s.Tickets) (hjob : s.jobs[i]? = some c)
    (heffect : Effect c s.shared c' q') : Tickets ⟨q', s.jobs.set i c'⟩ := by
  have hnew := gather_set (f := QueueCall.ticket) c' q' hjob
  cases heffect with
  | quiet _ _ hticket =>
      rw [hticket.1, hticket.2] at hnew
      exact h.of_eq (add_right_cancel hnew) (List.Sublist.refl _) rfl
  | accepts item hroom hc =>
      subst hc
      exact h.of_eq (add_right_cancel hnew) (List.Sublist.refl _) rfl
  | takes hitems hc =>
      refine h.of_eq ?_ (List.Sublist.refl _) rfl
      rcases hc with rfl | rfl | rfl <;> exact add_right_cancel hnew
  | sleeps hempty hup hc =>
      subst hc
      -- the call waits with a ticket of its own
      have hawake : (QueueCall.waitPop : QueueCall T).ticket = 0 := rfl
      have hgather := hnew.trans (add_comm _ {s.shared.nextTicket})
      rw [hawake, add_zero, Multiset.singleton_add] at hgather
      constructor
      case waiting =>
        rw [hgather, ← Multiset.coe_add, add_comm]
        exact Multiset.cons_le_cons _ h.waiting
      case nodup =>
        rw [hgather, Multiset.nodup_cons]
        exact ⟨fun hmem => Nat.lt_irrefl _ (h.issued _ hmem), h.nodup⟩
      case issued =>
        rw [hgather]
        intro ticket hmem
        rcases Multiset.mem_cons.1 hmem with rfl | hold
        · exact Nat.lt_succ_self _
        · exact (h.issued ticket hold).trans (Nat.lt_succ_self _)
  | notifies item pick hc =>
      subst hc
      exact h.of_eq (add_right_cancel hnew) (List.eraseIdx_sublist _ _) rfl
  | wakes ticket hc hc' =>
      subst hc
      have hawake : c'.ticket = 0 := by rcases hc' with rfl | rfl <;> rfl
      have hgather := hnew.symm.trans (add_comm _ {ticket})
      rw [hawake, add_zero, Multiset.singleton_add] at hgather
      obtain ⟨hwaiting, hnodup, hissued⟩ := h
      rw [hgather] at hwaiting hnodup hissued
      refine ⟨?_, (Multiset.nodup_cons.1 hnodup).2,
        fun k hk => hissued k (Multiset.mem_cons_of_mem hk)⟩
      rw [← Multiset.coe_erase]
      exact Multiset.erase_le_iff_le_cons.2 hwaiting
  | stops hc =>
      subst hc
      exact h.of_eq (add_right_cancel hnew) (List.Sublist.refl _) rfl
  | releases hc =>
      subst hc
      exact h.of_eq (add_right_cancel hnew) (List.nil_sublist _) rfl

/-- Whoever waits may look. -/
theorem card_ticket_le (s : QueueCalls T) :
    Multiset.card (s.gather QueueCall.ticket) ≤ s.count mayLook := by
  obtain ⟨shared, jobs⟩ := s
  simp only [gather, Threads.count]
  induction jobs with
  | nil => simp
  | cons c jobs ih =>
      rw [← Multiset.cons_coe, Multiset.cons_bind, Multiset.card_add, List.countP_cons, add_comm]
      refine Nat.add_le_add ih ?_
      cases c <;> simp [QueueCall.ticket, mayLook]

/-- **While someone waits**, there is a call that may look for each item and
each that waits, and a queue that has been shut down is about to wake all
of them. -/
structure Covered (s : QueueCalls T) : Prop where
  items : s.shared.waiting ≠ [] →
    s.shared.items.length + s.shared.waiting.length ≤ s.count mayLook
  stopping : s.shared.waiting ≠ [] → s.shared.shutdown = true → 1 ≤ s.count wakesAll

/-- An empty queue is covered by those that wait. -/
theorem Tickets.covered_of_empty (h : s.Tickets) (hempty : s.shared.items = []) :
    s.shared.items.length + s.shared.waiting.length ≤ s.count mayLook := by
  have hwaiting := Multiset.card_le_card h.waiting
  have hmay := card_ticket_le s
  rw [Multiset.coe_card] at hwaiting
  rw [hempty]
  simp only [List.length_nil]
  omega

theorem Covered.act (h : s.Covered) (hticket : Tickets ⟨q', s.jobs.set i c'⟩)
    (hjob : s.jobs[i]? = some c) (heffect : Effect c s.shared c' q') :
    Covered ⟨q', s.jobs.set i c'⟩ := by
  have hmay := count_set (p := mayLook) c' q' hjob
  have hwakes := count_set (p := QueueCall.wakesAll) c' q' hjob
  obtain ⟨hitems, hstopping⟩ := h
  cases heffect with
  | quiet _ _ _ hall hlook =>
      refine ⟨fun hne => ?_, fun hne hdown => ?_⟩
      · rcases hlook with hsame | hempty
        · rw [hsame] at hmay
          exact (hitems hne).trans_eq (Nat.add_right_cancel hmay).symm
        · exact hticket.covered_of_empty hempty
      · rw [hall] at hwakes
        exact (hstopping hne hdown).trans (Nat.le.intro hwakes.symm)
  | accepts item hroom hc =>
      subst hc
      simp only [mayLook, QueueCall.wakesAll, if_true, Bool.false_eq_true, if_false] at hmay hwakes
      refine ⟨fun hne => ?_, fun hne hdown => ?_⟩
      · have hbefore := hitems hne
        simp only [List.length_append, List.length_singleton]
        omega
      · exact (hstopping hne hdown).trans_eq hwakes.symm
  | takes hfront hc =>
      refine ⟨fun hne => ?_, fun hne hdown => ?_⟩
      · have hbefore := hitems hne
        rw [hfront, List.length_cons] at hbefore
        rcases hc with rfl | rfl | rfl <;> simp [mayLook] at hmay <;> dsimp only <;> omega
      · refine (hstopping hne hdown).trans_eq ?_
        rcases hc with rfl | rfl | rfl <;> exact hwakes.symm
  | sleeps hempty hup hc =>
      refine ⟨fun hne => hticket.covered_of_empty hempty, fun hne hdown => ?_⟩
      exact absurd (hup.symm.trans hdown) Bool.false_ne_true
  | notifies item pick hc =>
      subst hc
      simp only [mayLook, QueueCall.wakesAll, if_true, Bool.false_eq_true, if_false] at hmay hwakes
      have hsome : s.shared.waiting.eraseIdx (pick % s.shared.waiting.length) ≠ [] →
          s.shared.waiting ≠ [] := fun hne hnil => hne (by rw [hnil, List.eraseIdx_nil])
      refine ⟨fun hne => ?_, fun hne hdown => (hstopping (hsome hne) hdown).trans_eq hwakes.symm⟩
      have hbefore := hitems (hsome hne)
      have hpick : pick % s.shared.waiting.length < s.shared.waiting.length :=
        Nat.mod_lt _ (List.length_pos_of_ne_nil (hsome hne))
      simp only [List.length_eraseIdx_of_lt hpick]
      omega
  | wakes ticket hc hc' =>
      subst hc
      have hsome : s.shared.waiting.erase ticket ≠ [] → s.shared.waiting ≠ [] :=
        fun hne hnil => hne (by rw [hnil, List.erase_nil])
      have hless : (s.shared.waiting.erase ticket).length ≤ s.shared.waiting.length :=
        List.erase_sublist.length_le
      refine ⟨fun hne => ?_, fun hne hdown => ?_⟩
      · have hbefore := hitems (hsome hne)
        rcases hc' with rfl | rfl <;> simp [mayLook] at hmay <;> dsimp only <;> omega
      · refine (hstopping (hsome hne) hdown).trans_eq ?_
        rcases hc' with rfl | rfl <;> exact hwakes.symm
  | stops hc =>
      subst hc
      simp only [mayLook, QueueCall.wakesAll, if_true, Bool.false_eq_true, if_false] at hmay hwakes
      exact ⟨fun hne => (hitems hne).trans_eq hmay.symm, fun _ _ => by omega⟩
  | releases hc => exact ⟨fun hne => absurd rfl hne, fun hne => absurd rfl hne⟩

/-! ## Every order of steps -/

/-- **What holds whenever the queue is looked at.** -/
structure Sound (maxCap : ℕ) (s : QueueCalls T) : Prop where
  fifo : s.Fifo maxCap
  tickets : s.Tickets
  covered : s.Covered

theorem sound_init (h : (queueSystem T maxCap).init s) : s.Sound maxCap := by
  obtain ⟨shared, jobs⟩ := s
  obtain ⟨rfl, rfl⟩ := h
  refine ⟨⟨rfl, Nat.zero_le _, rfl, rfl, rfl⟩, ⟨Multiset.zero_le _, Multiset.nodup_zero, ?_⟩, ?_⟩
  · exact fun ticket hmem => absurd hmem (Multiset.notMem_zero ticket)
  · exact ⟨fun hne => absurd rfl hne, fun hne => absurd rfl hne⟩

/-- A call that has not begun holds nothing. -/
theorem Sound.call (h : s.Sound maxCap) (hfresh : c.fresh = true) :
    Sound maxCap { s with jobs := s.jobs ++ [c] } := by
  have hgather : ∀ {α : Type} (f : QueueCall T → Multiset α), f c = 0 →
      gather f { s with jobs := s.jobs ++ [c] } = s.gather f := by
    intro α f hf
    rw [gather, gather, ← Multiset.coe_add, Multiset.add_bind]
    simp [hf]
  obtain ⟨⟨hcap, hbounded, horder, haccepted, htaken⟩, hticket, hitems, hstopping⟩ := h
  refine ⟨⟨hcap, hbounded, horder, (hgather _ ?_).trans haccepted, (hgather _ ?_).trans htaken⟩,
    hticket.of_eq (hgather _ ?_) (List.Sublist.refl _) rfl, fun hne => ?_, fun hne hdown => ?_⟩
  · cases c <;> first | rfl | cases hfresh
  · cases c <;> first | rfl | cases hfresh
  · cases c <;> first | rfl | cases hfresh
  · rw [count_start]
    exact (hitems hne).trans (Nat.le_add_right _ _)
  · rw [count_start]
    exact (hstopping hne hdown).trans (Nat.le_add_right _ _)

theorem sound_step {label : Label T} {t : QueueCalls T} (h : s.Sound maxCap)
    (hnext : (queueSystem T maxCap).next s label = some t) : t.Sound maxCap := by
  cases label with
  | call c =>
      simp only [queueSystem, next] at hnext
      split_ifs at hnext with hfresh
      cases hnext
      exact h.call hfresh
  | act i action =>
      simp only [queueSystem, next] at hnext
      split at hnext
      · cases hnext
      · rename_i c hjob
        obtain ⟨⟨c', q'⟩, hact, rfl⟩ := Option.map_eq_some_iff.1 hnext
        have heffect := act_effect hact
        have hticket := h.tickets.act hjob heffect
        exact ⟨h.fifo.act hjob heffect, hticket, h.covered.act hticket hjob heffect⟩

theorem sound_of_reachable (h : (queueSystem T maxCap).Reachable System.anyStep s) :
    s.Sound maxCap :=
  h.invariant (fun _ => sound_init) fun _ _ _ hs _ hnext => sound_step hs hnext

/-! ## On the way -/

/-- A call that may look is on its way, or waits and has not been
notified. -/
theorem count_mayLook (s : QueueCalls T) : s.count mayLook =
    s.count (onTheWay s.shared) +
      Multiset.card ((s.gather QueueCall.ticket).filter (· ∈ s.shared.waiting)) := by
  obtain ⟨q, jobs⟩ := s
  simp only [gather, Threads.count]
  induction jobs with
  | nil => simp
  | cons c jobs ih =>
      rw [← Multiset.cons_coe, Multiset.cons_bind, Multiset.filter_add, Multiset.card_add,
        List.countP_cons, List.countP_cons, ih]
      have hone : (if mayLook c = true then 1 else 0) = (if onTheWay q c = true then 1 else 0) +
          Multiset.card (c.ticket.filter (· ∈ q.waiting)) := by
        cases c with
        | asleep ticket =>
            by_cases hwaiting : ticket ∈ q.waiting <;>
              simp [mayLook, onTheWay, QueueCall.ticket, Multiset.filter_singleton, hwaiting]
        | _ => simp [mayLook, onTheWay, QueueCall.ticket]
      omega

/-- No more calls are left waiting than there are tickets. -/
theorem Tickets.card_filter_le (h : s.Tickets) :
    Multiset.card ((s.gather QueueCall.ticket).filter (· ∈ s.shared.waiting)) ≤
      s.shared.waiting.length := by
  rw [← Multiset.coe_card]
  refine Multiset.card_le_card ((Multiset.le_iff_subset (h.nodup.filter _)).2 fun ticket hmem => ?_)
  exact (Multiset.mem_filter.1 hmem).2

/-- A call on its way need not wait for its time-out. -/
theorem exists_act_of_onTheWay (h : onTheWay s.shared c = true) :
    ∃ action, action ≠ .wake .timedOut ∧ (c.act s.shared action).isSome = true := by
  cases c with
  | notifyOne item => exact ⟨.run 0, by simp, rfl⟩
  | waitPop => exact ⟨.run 0, by simp, rfl⟩
  | timedOut => exact ⟨.run 0, by simp, rfl⟩
  | asleep ticket =>
      have hnotified : ticket ∉ s.shared.waiting := by simpa [onTheWay] using h
      exact ⟨.wake .notified, by simp, by simp [QueueCall.act, hnotified]⟩
  | _ => cases h

end QueueCalls

open QueueCalls

variable {maxCap : ℕ} {s : QueueCalls T}

/-- **First in, first out, exactly once**: what the calls have taken,
followed by what is in the queue, is what they have put in, in the order
in which it went in; each accepted item is of one push, each taken one is
returned by one pop, and the queue never exceeds its capacity. -/
theorem signal_queue_fifo (h : (queueSystem T maxCap).Reachable System.anyStep s) :
    s.shared.popped ++ s.shared.items = s.shared.pushed ∧ s.shared.items.length ≤ maxCap ∧
      s.gather QueueCall.accepted = s.shared.pushed ∧
        s.gather QueueCall.taken = s.shared.popped := by
  obtain ⟨-, hbounded, horder, haccepted, htaken⟩ := (sound_of_reachable h).fifo
  exact ⟨horder, hbounded, haccepted, htaken⟩

/-- A worker waits, a webhook pushes, and the worker is notified. -/
theorem pushed_is_popped : ∃ s : QueueCalls String,
    (s.gather QueueCall.taken = {"BTCUSDT"} ∧ s.shared.popped = ["BTCUSDT"]) ∧
      s.shared.popped ++ s.shared.items = s.shared.pushed ∧ s.shared.items.length ≤ 8192 ∧
        s.gather QueueCall.accepted = s.shared.pushed ∧
          s.gather QueueCall.taken = s.shared.popped := by
  obtain ⟨s, hrun, hpopped⟩ := System.exists_run_of_play (M := queueSystem String 8192)
    (G := System.anyStep) (s := ⟨{ maxCap := 8192 }, []⟩)
    (P := fun s => s.shared.popped = ["BTCUSDT"])
    [.call .waitPop, .act 0 (.run 0), .call (.tryPush "BTCUSDT"), .act 1 (.run 0), .act 1 (.run 0),
      .act 0 (.wake .notified), .act 0 (.run 0)] (by decide)
  have hfifo := signal_queue_fifo ⟨_, ⟨rfl, rfl⟩, hrun⟩
  exact ⟨s, ⟨by rw [hfifo.2.2.2, hpopped]; rfl, hpopped⟩, hfifo⟩

/-- **No wake-up is lost**: while a call waits un-notified, each item in
the queue has a call of its own that notifies or looks at the queue and
need not wait for a time-out, and after a shutdown one that wakes
everyone. -/
theorem no_lost_wakeup (h : (queueSystem T maxCap).Reachable System.anyStep s)
    (hwaiting : s.shared.waiting ≠ []) :
    s.shared.items.length ≤ s.count (QueueCall.onTheWay s.shared) ∧
      (∀ (i : ℕ) (c : QueueCall T), s.jobs[i]? = some c → c.onTheWay s.shared = true →
        ∃ action, action ≠ .wake .timedOut ∧ (c.act s.shared action).isSome = true) ∧
      (s.shared.shutdown = true → ∃ i : ℕ, s.jobs[i]? = some QueueCall.notifyAll) := by
  obtain ⟨-, htickets, hcovered⟩ := sound_of_reachable h
  refine ⟨?_, fun i c _ => exists_act_of_onTheWay, fun hdown => ?_⟩
  · have hitems := hcovered.items hwaiting
    have hleft := htickets.card_filter_le
    rw [count_mayLook] at hitems
    omega
  · obtain ⟨c, hmem, hc⟩ := List.countP_pos_iff.1 (hcovered.stopping hwaiting hdown)
    obtain ⟨i, hi⟩ := List.mem_iff_getElem?.1 hmem
    cases c with
    | notifyAll => exact ⟨i, hi⟩
    | _ => cases hc

/-- Two workers wait, and a webhook has pushed and not yet notified. -/
theorem pushed_is_noticed : ∃ s : QueueCalls String, s.shared.items = ["BTCUSDT"] ∧
    s.shared.waiting = [0, 1] ∧ 1 ≤ s.count (QueueCall.onTheWay s.shared) := by
  obtain ⟨s, hrun, hitems, hwaiting⟩ := System.exists_run_of_play (M := queueSystem String 8192)
    (G := System.anyStep) (s := ⟨{ maxCap := 8192 }, []⟩)
    (P := fun s => s.shared.items = ["BTCUSDT"] ∧ s.shared.waiting = [0, 1])
    [.call .waitPop, .act 0 (.run 0), .call .waitPop, .act 1 (.run 0), .call (.tryPush "BTCUSDT"),
      .act 2 (.run 0)] (by decide)
  have hnoticed := (no_lost_wakeup ⟨_, ⟨rfl, rfl⟩, hrun⟩ (by simp [hwaiting])).1
  rw [hitems] at hnoticed
  exact ⟨s, hitems, hwaiting, hnoticed⟩

end WebhookTrader
