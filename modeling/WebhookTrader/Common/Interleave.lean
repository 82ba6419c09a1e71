import Mathlib.Data.List.Perm.Basic
import Mathlib.Data.Multiset.Bind
import WebhookTrader.Common.Run

/-!
# Threads over a shared state

A program of threads is a shared state and a list of thread states; a
step is taken by one thread, starts a new one, or is an event that
touches the shared state alone. The rule below is the usual one: a
property of the shared state, a local property of each thread and a
relation that keeps threads apart are kept together, where each thread
keeps its own, no thread disturbs another that is apart from it, and no
event disturbs any.
-/

namespace WebhookTrader

universe u v w

/-- **Threads and what they share.** -/
structure Threads (σ : Type u) (τ : Type v) where
  shared : σ
  jobs : List τ := []

namespace Threads

variable {σ : Type u} {τ : Type v} {ε : Type w}

/-- What may happen next. -/
inductive Label (τ : Type v) (ε : Type w)
  | start (job : τ)
  | work (i : ℕ)
  | event (e : ε)

/-- The steps of a program of threads, from the steps of a thread and the
effect of an event; the predicate says which threads may be started. -/
def next (canStart : τ → Bool) (step : τ → σ → Option (τ × σ)) (apply : ε → σ → Option σ)
    (s : Threads σ τ) : Label τ ε → Option (Threads σ τ)
  | .start job => if canStart job then some { s with jobs := s.jobs ++ [job] } else none
  | .work i =>
      match s.jobs[i]? with
      | none => none
      | some job => (step job s.shared).map fun r => ⟨r.2, s.jobs.set i r.1⟩
  | .event e => (apply e s.shared).map fun shared => { s with shared }

variable {canStart : τ → Bool} {step : τ → σ → Option (τ × σ)} {apply : ε → σ → Option σ}
  {s t : Threads σ τ} {i : ℕ} {job : τ}

/-- **The steps, by label.** -/
inductive Move (canStart : τ → Bool) (step : τ → σ → Option (τ × σ)) (apply : ε → σ → Option σ)
    (s : Threads σ τ) : Label τ ε → Threads σ τ → Prop
  | start (job : τ) (hstart : canStart job = true) :
      Move canStart step apply s (.start job) { s with jobs := s.jobs ++ [job] }
  | work (i : ℕ) {job job' : τ} {shared' : σ} (hjob : s.jobs[i]? = some job)
      (hstep : step job s.shared = some (job', shared')) :
      Move canStart step apply s (.work i) ⟨shared', s.jobs.set i job'⟩
  | event (e : ε) {shared' : σ} (happly : apply e s.shared = some shared') :
      Move canStart step apply s (.event e) { s with shared := shared' }

theorem move_of_next {l : Label τ ε} (h : next canStart step apply s l = some t) :
    Move canStart step apply s l t := by
  cases l with
  | start job =>
      simp only [next] at h
      split at h
      · cases h
        exact .start job ‹_›
      · cases h
  | work i =>
      simp only [next] at h
      split at h
      · cases h
      · rename_i job hjob
        obtain ⟨⟨job', shared'⟩, hstep, rfl⟩ := Option.map_eq_some_iff.1 h
        exact .work i hjob hstep
  | event e =>
      obtain ⟨shared', happly, rfl⟩ := Option.map_eq_some_iff.1 h
      exact .event e happly

/-! ## Invariants of threads -/

/-- After a thread's step, every thread is the one that stepped or another
one, unchanged. -/
theorem forall_set {P : τ → Prop} {job' : τ} (hjob' : P job')
    (hother : ∀ (k : ℕ) (other : τ), k ≠ i → s.jobs[k]? = some other → P other) :
    ∀ (k : ℕ) (other : τ), (s.jobs.set i job')[k]? = some other → P other := by
  intro k other hk
  rw [List.getElem?_set] at hk
  split at hk
  · split at hk
    · obtain rfl := Option.some.inj hk
      exact hjob'
    · cases hk
  · rename_i hne
    exact hother k other (Ne.symm hne) hk

/-- After a start, every thread is the new one or an old one. -/
theorem forall_append {P : τ → Prop} (hjob : P job)
    (hother : ∀ (k : ℕ) (other : τ), s.jobs[k]? = some other → P other) :
    ∀ (k : ℕ) (other : τ), (s.jobs ++ [job])[k]? = some other → P other := by
  intro k other hk
  rw [List.getElem?_append] at hk
  split at hk
  · exact hother k other hk
  · obtain rfl : other = job := List.mem_singleton.1 (List.mem_of_getElem? hk)
    exact hjob

/-- **A global property, a local one of every thread, and threads apart.** -/
structure Holds (G : σ → Prop) (L : σ → τ → Prop) (E : τ → τ → Prop) (s : Threads σ τ) :
    Prop where
  shared : G s.shared
  jobs : ∀ (i : ℕ) (job : τ), s.jobs[i]? = some job → L s.shared job
  apart : ∀ (i k : ℕ) (job other : τ), i ≠ k → s.jobs[i]? = some job →
    s.jobs[k]? = some other → E job other

variable {G : σ → Prop} {L : σ → τ → Prop} {E : τ → τ → Prop}

/-- A program without threads needs the global property only. -/
theorem Holds.nil (hG : G s.shared) (hjobs : s.jobs = []) : s.Holds G L E where
  shared := hG
  jobs i job h := by simp [hjobs] at h
  apart i k job other _ h := by simp [hjobs] at h

/-- **A thread's step** keeps what holds, where the thread keeps its own
part, leaves the others theirs, and stays apart from them. -/
theorem Holds.work (h : s.Holds G L E) {job' : τ} {shared' : σ} (hjob : s.jobs[i]? = some job)
    (hG : G shared') (hL : L shared' job')
    (hother : ∀ other, L s.shared other → E job other → L shared' other)
    (hE : ∀ other, L s.shared other → E job other → E job' other ∧ E other job') :
    Holds G L E ⟨shared', s.jobs.set i job'⟩ where
  shared := hG
  jobs := forall_set hL fun k other hne hk =>
    hother other (h.jobs k other hk) (h.apart i k job other hne.symm hjob hk)
  apart k l a b hkl ha hb := by
    simp only [List.getElem?_set] at ha hb
    split at ha
    · rename_i hk
      split at ha
      · obtain rfl := Option.some.inj ha
        rw [if_neg (hk ▸ hkl)] at hb
        exact (hE b (h.jobs l b hb) (h.apart i l job b (hk ▸ hkl) hjob hb)).1
      · cases ha
    · rename_i hk
      split at hb
      · rename_i hl
        split at hb
        · obtain rfl := Option.some.inj hb
          exact (hE a (h.jobs k a ha) (h.apart i k job a hk hjob ha)).2
        · cases hb
      · exact h.apart k l a b hkl ha hb

/-- **A new thread** joins, where it has its local property and is apart
from every other. -/
theorem Holds.start (h : s.Holds G L E) (hL : L s.shared job)
    (hE : ∀ other, E job other ∧ E other job) :
    Holds G L E { s with jobs := s.jobs ++ [job] } where
  shared := h.shared
  jobs := forall_append hL h.jobs
  apart k l a b hkl ha hb := by
    rw [List.getElem?_append] at ha hb
    split at ha
    · split at hb
      · exact h.apart k l a b hkl ha hb
      · obtain rfl : b = job := List.mem_singleton.1 (List.mem_of_getElem? hb)
        exact (hE a).2
    · obtain rfl : a = job := List.mem_singleton.1 (List.mem_of_getElem? ha)
      exact (hE b).1

/-- **An event** keeps what holds, where it keeps the global property and
every thread's local one. -/
theorem Holds.event (h : s.Holds G L E) {shared' : σ} (hG : G shared')
    (hL : ∀ (i : ℕ) (job : τ), s.jobs[i]? = some job → L shared' job) :
    Holds G L E { s with shared := shared' } where
  shared := hG
  jobs := hL
  apart := h.apart

/-! ## Counting threads -/

/-- How many threads have a property. -/
def count (p : τ → Bool) (s : Threads σ τ) : ℕ := s.jobs.countP p

@[simp] theorem count_start {p : τ → Bool} :
    count p { s with jobs := s.jobs ++ [job] } = s.count p + if p job then 1 else 0 := by
  simp [count, List.countP_append, List.countP_cons]

/-- A step moves the count by what it does to the thread's own property. -/
theorem count_set {p : τ → Bool} (job' : τ) (shared' : σ) (hjob : s.jobs[i]? = some job) :
    count p (⟨shared', s.jobs.set i job'⟩ : Threads σ τ) + (if p job then 1 else 0) =
      s.count p + if p job' then 1 else 0 := by
  obtain ⟨hi, rfl⟩ := List.getElem?_eq_some_iff.1 hjob
  have hpos : (if p s.jobs[i] then 1 else 0) ≤ s.jobs.countP p := by
    split
    · exact List.countP_pos_iff.2 ⟨_, List.getElem_mem hi, ‹_›⟩
    · exact Nat.zero_le _
  simp only [count, List.countP_set hi]
  omega

/-! ## What threads hold together -/

section Gather

variable {α : Type*} {f : τ → Multiset α} {k : ℕ} {other : τ} {x : α}

/-- What the threads hold, each thing as often as it is held. -/
def gather (f : τ → Multiset α) (s : Threads σ τ) : Multiset α := (s.jobs : Multiset τ).bind f

theorem mem_gather : x ∈ s.gather f ↔ ∃ (i : ℕ) (job : τ), s.jobs[i]? = some job ∧ x ∈ f job := by
  rw [gather, Multiset.mem_bind]
  constructor
  · rintro ⟨job, hjob, hx⟩
    obtain ⟨i, hi⟩ := List.mem_iff_getElem?.1 hjob
    exact ⟨i, job, hi, hx⟩
  · rintro ⟨i, job, hi, hx⟩
    exact ⟨job, List.mem_of_getElem? hi, hx⟩

/-- A step moves what is held by what it does to the thread's own part. -/
theorem gather_set (job' : τ) (shared' : σ) (hjob : s.jobs[i]? = some job) :
    gather f (⟨shared', s.jobs.set i job'⟩ : Threads σ τ) + f job = s.gather f + f job' := by
  obtain ⟨hi, rfl⟩ := List.getElem?_eq_some_iff.1 hjob
  have hold : (s.jobs : Multiset τ) = s.jobs[i] ::ₘ (s.jobs.eraseIdx i : Multiset τ) :=
    Multiset.coe_eq_coe.2 (List.getElem_cons_eraseIdx_perm hi).symm
  have hnew : (s.jobs.set i job' : Multiset τ) = job' ::ₘ (s.jobs.eraseIdx i : Multiset τ) :=
    Multiset.coe_eq_coe.2 (List.set_perm_cons_eraseIdx hi job')
  rw [gather, gather, hold, hnew, Multiset.cons_bind, Multiset.cons_bind]
  ac_rfl

/-- **What is held once** is held by one thread. -/
theorem eq_of_gather (hnodup : (s.gather f).Nodup) (hi : s.jobs[i]? = some job)
    (hk : s.jobs[k]? = some other) (hx : x ∈ f job) (hx' : x ∈ f other) : i = k := by
  by_contra hne
  have hpairwise := (Multiset.nodup_bind.1 hnodup).2
  rw [Multiset.pairwise_coe_iff_pairwise] at hpairwise
  obtain ⟨hilt, rfl⟩ := List.getElem?_eq_some_iff.1 hi
  obtain ⟨hklt, rfl⟩ := List.getElem?_eq_some_iff.1 hk
  rcases Nat.lt_or_gt_of_ne hne with hlt | hlt
  · exact Multiset.disjoint_left.1 (List.pairwise_iff_getElem.1 hpairwise i k hilt hklt hlt) hx hx'
  · exact Multiset.disjoint_left.1 (List.pairwise_iff_getElem.1 hpairwise k i hklt hilt hlt) hx' hx

/-- Nor is it held twice by that one. -/
theorem nodup_of_gather (hnodup : (s.gather f).Nodup) (hi : s.jobs[i]? = some job) :
    (f job).Nodup :=
  (Multiset.nodup_bind.1 hnodup).1 job (List.mem_of_getElem? hi)

end Gather

/-! ## One thread alone -/

section Alone

variable {P Q : τ → σ → Prop} {job job' : τ} {shared shared' : σ}

/-- **A thread left alone comes to an end**, and there the property
holds. -/
inductive Ends (step : τ → σ → Option (τ × σ)) (P : τ → σ → Prop) : τ → σ → Prop
  | done {job : τ} {shared : σ} (h : step job shared = none) (hP : P job shared) :
      Ends step P job shared
  | step {job job' : τ} {shared shared' : σ} (h : step job shared = some (job', shared'))
      (hrest : Ends step P job' shared') : Ends step P job shared

theorem Ends.mono (h : Ends step P job shared) (hPQ : ∀ job shared, P job shared → Q job shared) :
    Ends step Q job shared := by
  induction h with
  | done h hP => exact .done h (hPQ _ _ hP)
  | step h _ ih => exact .step h ih

/-- **The rule of a rank**: an invariant under which the thread stops with
the property, or goes on to a lower rank. -/
theorem Ends.of_rank {I : τ → σ → Prop} (rank : τ → ℕ)
    (hstep : ∀ job shared, I job shared → step job shared = none ∧ P job shared ∨
      ∃ job' shared', step job shared = some (job', shared') ∧ I job' shared' ∧
        rank job' < rank job)
    (h : I job shared) : Ends step P job shared := by
  induction hn : rank job using Nat.strongRecOn generalizing job shared with
  | ind n ih =>
      rcases hstep job shared h with ⟨hnone, hP⟩ | ⟨job', shared', hsome, hI, hlt⟩
      · exact .done hnone hP
      · exact .step hsome (ih _ (hn ▸ hlt) hI rfl)

/-- The thread's steps, at most a number of them, with nothing in
between. -/
def alone (step : τ → σ → Option (τ × σ)) : ℕ → τ → σ → τ × σ
  | 0, job, shared => (job, shared)
  | n + 1, job, shared =>
      match step job shared with
      | none => (job, shared)
      | some r => alone step n r.1 r.2

/-- Threads that are shown as others take the same steps. -/
theorem alone_map {τ' : Type v} {step' : τ' → σ → Option (τ' × σ)} {f : τ → τ'}
    (hf : ∀ job shared, step' (f job) shared = (step job shared).map fun r => (f r.1, r.2)) (n : ℕ)
    (job : τ) (shared : σ) :
    alone step' n (f job) shared =
      (f (alone step n job shared).1, (alone step n job shared).2) := by
  induction n generalizing job shared with
  | zero => rfl
  | succ n ih =>
      rw [alone, alone, hf]
      cases step job shared with
      | none => rfl
      | some r => exact ih r.1 r.2

/-- **What every step keeps, the thread's steps keep.** -/
theorem alone_invariant {I : τ → σ → Prop}
    (hstep : ∀ job shared job' shared', I job shared → step job shared = some (job', shared') →
      I job' shared') (h : I job shared) (n : ℕ) :
    I (alone step n job shared).1 (alone step n job shared).2 := by
  induction n generalizing job shared with
  | zero => exact h
  | succ n ih =>
      rw [alone]
      cases hnext : step job shared with
      | none => exact h
      | some r => exact ih (hstep job shared r.1 r.2 h hnext)

/-- **Where the steps have come to an end, the property holds.** -/
theorem Ends.alone (h : Ends step P job shared) {n : ℕ}
    (hnone : step (alone step n job shared).1 (alone step n job shared).2 = none) :
    P (Threads.alone step n job shared).1 (Threads.alone step n job shared).2 := by
  induction h generalizing n with
  | done h hP =>
      cases n
      · exact hP
      · simpa only [Threads.alone, h] using hP
  | step h _ ih =>
      cases n with
      | zero => simp [Threads.alone, h] at hnone
      | succ n =>
          simp only [Threads.alone, h] at hnone ⊢
          exact ih hnone

/-! ## One thread among others -/

/-- The thread's steps, at most a number of them, where each finds the
shared state the others have left it. -/
def against (step : τ → σ → Option (τ × σ)) (found : ℕ → σ) : ℕ → τ → τ
  | 0, job => job
  | n + 1, job =>
      match step job (found 0) with
      | none => job
      | some r => against step (fun k => found (k + 1)) n r.1

/-- **What holds along the thread's steps** holds now, and along the steps
that follow the next one. -/
theorem forall_against_iff {P : τ → Prop} {found : ℕ → σ} :
    (∀ n, P (against step found n job)) ↔
      P job ∧ ∀ job' shared', step job (found 0) = some (job', shared') →
        ∀ n, P (against step (fun k => found (k + 1)) n job') := by
  constructor
  · intro h
    refine ⟨h 0, fun job' shared' hnext n => ?_⟩
    have hn := h (n + 1)
    simp only [against, hnext] at hn
    exact hn
  · rintro ⟨hnow, hlater⟩ n
    cases n with
    | zero => exact hnow
    | succ n =>
        rw [against]
        cases hnext : step job (found 0) with
        | none => exact hnow
        | some r => exact hlater r.1 r.2 hnext n

/-- A thread alone finds what it has left itself. -/
theorem against_alone (n : ℕ) (job : τ) (shared : σ) :
    against step (fun k => (alone step k job shared).2) n job = (alone step n job shared).1 := by
  induction n generalizing job shared with
  | zero => rfl
  | succ n ih =>
      simp only [against, alone]
      cases step job shared with
      | none => rfl
      | some r => exact ih r.1 r.2

end Alone

end Threads

end WebhookTrader
