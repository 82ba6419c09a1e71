import WebhookTrader.Engine.Deeds
import WebhookTrader.Engine.Direction

/-!
# What becomes of exits

An exit goes through the same checks as an entry, and may be dropped at
each: where it is too old, a duplicate or not on the whitelist, or where
its handler waits too long for the lock. What is left leads to a request
or a close, unless the position is gone. Until then a worker has the
signal, and its every step brings it closer.
-/

namespace WebhookTrader

/-- The handler of a take-profit or a stop-loss. -/
def Job.closing : Job → Option CloseJob
  | tp j => some j
  | sl j => some j
  | _ => none

/-- **The handler has found the position** under a key, by the signal's
symbol and side. -/
def Found (q : Queued) (log : List Deed) (key : PositionKey) : Prop :=
  ∃ job j d pos, .handled q.ticket job d ∈ log ∧ job.closing = some j ∧ j.sig = q.sig ∧
    d.engine.positions.findBySymbolSide q.sig.symbol j.holdSide = some (key, pos)

/-- **What becomes of an exit**, as the log has it. -/
inductive Outcome (cfg : DeskConfig) (q : Queued) (log : List Deed) : Prop
  | stale {now : ℕ} {d : Desk} (hmem : .checked q now d ∈ log) (hstale : q.sig.isStale now = true)
  | duplicate {now : ℕ} {d : Desk} (hmem : .checked q now d ∈ log)
      (hfound : (d.recent.admits now (q.sig.fingerprint cfg.hash)).1 = false)
  | unlisted (hunlisted : Worker.isUnlisted cfg q.sig = true)
  /-- The wait for the lock ends without it. -/
  | timedOut {job : Job} {j : CloseJob} {d : Desk} (hmem : .handled q.ticket job d ∈ log)
      (hjob : job.closing = some j) (hpc : j.pc = .lock)
      (hlocked : q.sig.symbol ∈ d.engine.locked)
  /-- No position of the symbol and side is open when the handler looks. -/
  | missed {job : Job} {j : CloseJob} {d : Desk} (hmem : .handled q.ticket job d ∈ log)
      (hjob : job.closing = some j) (hpc : j.pc = .find)
      (hnone : d.engine.positions.findBySymbolSide q.sig.symbol j.holdSide = none)
  /-- The paper position that was found is gone when it is to be closed. -/
  | gone {job : Job} {j : CloseJob} {d : Desk} (hmem : .handled q.ticket job d ∈ log)
      (hjob : job.closing = some j) (hpc : j.pc = .paper) (hfound : Found q log j.key)
      (hnone : d.engine.positions.lookup j.key = none)
  /-- The position that was found is closed, or a part of it. -/
  | closed {job job' : Job} {j : CloseJob} {d : Desk} {engine : Shared} {p : ManagedPosition}
      (hmem : .handled q.ticket job d ∈ log) (hjob : job.closing = some j)
      (hfound : Found q log j.key) (hlookup : d.engine.positions.lookup j.key = some p)
      (hstep : job.step cfg.engine d.engine = some (job', engine))
      (hclosed : ∀ p', engine.positions.lookup j.key = some p' →
        p'.quantity = p.quantity - j.closeQty)
  /-- The exchange is asked to close the position that was found. -/
  | asked {job : Job} {j : CloseJob} {d : Desk} {round : ℕ} {second : Bool}
      (hmem : .handled q.ticket job d ∈ log) (hjob : job.closing = some j)
      (hpc : j.pc = .request round second) (hfound : Found q log j.key)

/-- The steps a closing handler has before it at most until something is
decided. -/
def ClosePc.ahead : ClosePc → ℕ
  | lock => 4
  | find => 3
  | isReal => 2
  | paper => 1
  | request _ _ => 1
  | _ => 0

/-- The handler has looked for the position, and found it. -/
def ClosePc.hasFound : ClosePc → Bool
  | isReal => true
  | paper => true
  | request _ _ => true
  | _ => false

/-- **An exit under way**: where its worker is before anything is decided. -/
inductive Pending (q : Queued) (log : List Deed) : Worker → Prop
  | stamp : Pending q log (.stamp q)
  | shadow (now : ℕ) : Pending q log (.shadow q now)
  | spotShadow (now : ℕ) : Pending q log (.spotShadow q now)
  | check (now : ℕ) : Pending q log (.check q now)
  | handler {job : Job} {j : CloseJob} (hjob : job.closing = some j) (hsig : j.sig = q.sig)
      (hahead : 0 < j.pc.ahead) (hfound : j.pc.hasFound = true → Found q log j.key) :
      Pending q log (.futures q.ticket job)

/-- The same of a worker. -/
def Worker.ahead : Worker → ℕ
  | stamp _ => 8
  | shadow _ _ => 7
  | spotShadow _ _ => 6
  | check _ _ => 5
  | futures _ job => (job.closing.map fun j => j.pc.ahead).getD 0
  | _ => 0

/-- **A step brings an exit closer**: something is decided, or fewer steps
are left. -/
def Closer (cfg : DeskConfig) (q : Queued) (log : List Deed) (w w' : Worker) : Prop :=
  Outcome cfg q log ∨ Pending q log w' ∧ w'.ahead < w.ahead

/-! ## The log grows -/

section Grows

variable {cfg : DeskConfig} {q : Queued} {log log' : List Deed} {key : PositionKey} {w : Worker}

theorem Found.mono (h : Found q log key) (hlog : log ⊆ log') : Found q log' key := by
  obtain ⟨job, j, d, pos, hmem, hrest⟩ := h
  exact ⟨job, j, d, pos, hlog hmem, hrest⟩

theorem Outcome.mono (h : Outcome cfg q log) (hlog : log ⊆ log') : Outcome cfg q log' := by
  cases h with
  | stale hmem hstale => exact .stale (hlog hmem) hstale
  | duplicate hmem hfound => exact .duplicate (hlog hmem) hfound
  | unlisted hunlisted => exact .unlisted hunlisted
  | timedOut hmem hjob hpc hlocked => exact .timedOut (hlog hmem) hjob hpc hlocked
  | missed hmem hjob hpc hnone => exact .missed (hlog hmem) hjob hpc hnone
  | gone hmem hjob hpc hfound hnone => exact .gone (hlog hmem) hjob hpc (hfound.mono hlog) hnone
  | closed hmem hjob hfound hlookup hstep hclosed =>
      exact .closed (hlog hmem) hjob (hfound.mono hlog) hlookup hstep hclosed
  | asked hmem hjob hpc hfound => exact .asked (hlog hmem) hjob hpc (hfound.mono hlog)

theorem Pending.mono (h : Pending q log w) (hlog : log ⊆ log') : Pending q log' w := by
  cases h with
  | stamp => exact .stamp
  | shadow now => exact .shadow now
  | spotShadow now => exact .spotShadow now
  | check now => exact .check now
  | handler hjob hsig hahead hfound =>
      exact .handler hjob hsig hahead fun hpc => (hfound hpc).mono hlog

end Grows

/-! ## One step -/

section Step

variable {cfg : DeskConfig} {q : Queued} {log : List Deed} {d d' : Desk} {w w' : Worker}

/-- A closing handler's step is one of `handle_tp` or `handle_sl`. -/
theorem Job.closing_of_step {cfg : EngineConfig} {job job' : Job} {j : CloseJob} {s s' : Shared}
    (hjob : job.closing = some j) (hstep : job.step cfg s = some (job', s')) :
    ∃ c j', (c = handleTp cfg ∨ c = handleSl) ∧ job'.closing = some j' ∧
      j.step cfg c s = some (j', s') := by
  cases job with
  | entry | closeAll => cases hjob
  | tp j₀ =>
      cases hjob
      obtain ⟨j', rfl, hclose⟩ := Job.of_step_map hstep
      exact ⟨_, j', .inl rfl, rfl, hclose⟩
  | sl j₀ =>
      cases hjob
      obtain ⟨j', rfl, hclose⟩ := Job.of_step_map hstep
      exact ⟨_, j', .inr rfl, rfl, hclose⟩

/-- What is left of a position that is closed, or a part of it. -/
theorem CloseJob.quantity_of_settle {cfg : EngineConfig} {c : Closing} {j : CloseJob} {s : Shared}
    {p p' : ManagedPosition} (hc : c = handleTp cfg ∨ c = handleSl)
    (hlookup : s.positions.lookup j.key = some p)
    (hleft : (j.settle c s).positions.lookup j.key = some p') :
    p'.quantity = p.quantity - j.closeQty := by
  have herase : (s.positions.erase j.key).lookup j.key ≠ some p' := by
    rw [AList.lookup_erase]
    exact Option.some_ne_none p' ∘ Eq.symm
  simp only [settle, hlookup] at hleft
  rcases hc with rfl | rfl
  · simp only [handleTp] at hleft
    split_ifs at hleft
    · exact (herase hleft).elim
    · simp only [Book.reduceQuantity, hlookup] at hleft
      split_ifs at hleft
      · exact (herase hleft).elim
      · rw [Table.lookup_modify, hlookup] at hleft
        cases hleft
        rfl
  · exact (herase hleft).elim

/-- **A step of a closing handler**. -/
theorem closer_of_handler {job job' : Job} {j : CloseJob} {engine : Shared}
    (hjob : job.closing = some j) (hsig : j.sig = q.sig) (hahead : 0 < j.pc.ahead)
    (hfound : j.pc.hasFound = true → Found q log j.key)
    (hstep : job.step cfg.engine d.engine = some (job', engine)) :
    Closer cfg q (.handled q.ticket job d :: log) (.futures q.ticket job)
      (.futures q.ticket job') := by
  obtain ⟨c, j', hc, hjob', hclose⟩ := Job.closing_of_step hjob hstep
  have hmem : .handled q.ticket job d ∈ Deed.handled q.ticket job d :: log := List.mem_cons_self
  have hlog : log ⊆ Deed.handled q.ticket job d :: log := List.subset_cons_self _ _
  have hrank : ∀ pc, j.pc = pc → j'.pc.ahead < pc.ahead →
      (Worker.futures q.ticket job').ahead < (Worker.futures q.ticket job).ahead := by
    rintro pc rfl hlt
    simpa [Worker.ahead, hjob, hjob'] using hlt
  cases hpc : j.pc <;> simp only [CloseJob.step, hpc] at hclose
  case lock =>
    split_ifs at hclose with hlocked
    · exact .inl (.timedOut hmem hjob hpc (by simpa [hsig] using hlocked))
    · cases hclose
      have hnotFound : ClosePc.find.hasFound = true →
          Found q (.handled q.ticket job d :: log) j.key := fun h => (Bool.false_ne_true h).elim
      exact .inr ⟨.handler hjob' hsig (Nat.succ_pos _) hnotFound,
        hrank _ hpc (Nat.lt_succ_self _)⟩
  case find =>
    split at hclose
    · rename_i hnone
      exact .inl (.missed hmem hjob hpc (hsig ▸ hnone))
    · rename_i key pos hsome
      cases hclose
      refine .inr ⟨.handler hjob' hsig (Nat.succ_pos _) fun _ => ?_,
        hrank _ hpc (Nat.lt_succ_self _)⟩
      exact ⟨job, j, d, pos, hmem, hjob, hsig, hsig ▸ hsome⟩
  case isReal =>
    cases hclose
    have hkey : Found q (.handled q.ticket job d :: log) j.key :=
      (hfound (by rw [hpc]; rfl)).mono hlog
    refine .inr ⟨.handler hjob' hsig ?_ fun _ => hkey, hrank _ hpc ?_⟩
    · simp only [CloseJob.goto]
      split_ifs <;> decide
    · simp only [CloseJob.goto]
      split_ifs <;> decide
  case paper =>
    cases hclose
    -- the position may have gone since it was found
    have hkey : Found q (.handled q.ticket job d :: log) j.key :=
      (hfound (by rw [hpc]; rfl)).mono hlog
    cases hlookup : d.engine.positions.lookup j.key with
    | none => exact .inl (.gone hmem hjob hpc hkey hlookup)
    | some p =>
        exact .inl (.closed hmem hjob hkey hlookup hstep fun p' hleft =>
          CloseJob.quantity_of_settle hc hlookup hleft)
  case request round second =>
    exact .inl (.asked hmem hjob hpc ((hfound (by rw [hpc]; rfl)).mono hlog))
  case settle | unlock | finished => simp [hpc, ClosePc.ahead] at hahead

/-- **Every step brings an exit closer.** -/
theorem Pending.step (h : Pending q log w) (hexit : q.sig.isExit = true)
    (hvalid : q.sig.isValid = true) (hmarket : q.sig.marketType ≠ "spot") (i : ℕ)
    (hmove : Worker.Move cfg d w w' d') :
    Closer cfg q ((w.deed i d).toList ++ log) w w' := by
  cases h with
  | stamp =>
      cases hmove
      exact .inr ⟨.shadow d.now, Nat.lt_succ_self _⟩
  | shadow now =>
      cases hmove
      exact .inr ⟨.spotShadow now, Nat.lt_succ_self _⟩
  | spotShadow now =>
      cases hmove
      exact .inr ⟨.check now, Nat.lt_succ_self _⟩
  | check now =>
      have hmem : .checked q now d ∈ ((Worker.check q now).deed i d).toList ++ log :=
        List.mem_cons_self
      cases hmove with
      | stale hstale => exact .inl (.stale hmem hstale)
      | duplicate hstale hfound => exact .inl (.duplicate hmem hfound)
      | pass hstale hpass =>
          -- a futures exit that passes goes to its handler, or is not listed
          by_cases hunlisted : Worker.isUnlisted cfg q.sig = true
          · exact .inl (.unlisted hunlisted)
          have hroute : ∃ job, Worker.route cfg q = .futures q.ticket job ∧
              job.closing = some { sig := q.sig, rd := q.rd } := by
            simp only [Worker.route, hvalid, hunlisted, hmarket]
            rcases WebhookSignal.isExit_iff.1 hexit with htype | htype <;> rw [htype]
            · exact ⟨_, rfl, rfl⟩
            · exact ⟨_, rfl, rfl⟩
          obtain ⟨job, heq, hjob⟩ := hroute
          rw [heq]
          refine .inr ⟨.handler hjob rfl (Nat.succ_pos _) fun h => (Bool.false_ne_true h).elim, ?_⟩
          simp [Worker.ahead, hjob, ClosePc.ahead]
  | @handler job j hjob hsig hahead hfound =>
      have hfinished : job.finished = false := by
        cases job with
        | entry | closeAll => cases hjob
        | tp j₀ | sl j₀ =>
            cases hjob
            by_contra hpc
            simp only [Job.finished, decide_eq_false_iff_not, not_not] at hpc
            simp [hpc, ClosePc.ahead] at hahead
      have hdeed : (Worker.futures q.ticket job).deed i d = some (.handled q.ticket job d) := by
        rw [Worker.deed, if_neg (by simp [hfinished])]
      rw [hdeed]
      cases hmove with
      | leave _ hleft => exact (Bool.false_ne_true (hfinished.symm.trans hleft)).elim
      | futures _ _ hstep => exact closer_of_handler hjob hsig hahead hfound hstep

/-- **What is under way waits for the lock at most.** -/
theorem Pending.locked (h : Pending q log w) (hnone : w.step cfg d = none) :
    q.sig.symbol ∈ d.engine.locked := by
  cases h with
  | stamp | shadow now | spotShadow now => cases hnone
  | check now =>
      simp only [Worker.step] at hnone
      split_ifs at hnone
  | @handler job j hjob hsig hahead hfound =>
      have hstep : ∃ c, j.step cfg.engine c d.engine = none := by
        cases job with
        | entry | closeAll => cases hjob
        | tp j₀ | sl j₀ =>
            cases hjob
            simp only [Worker.step] at hnone
            split_ifs at hnone
            simp only [Job.step, Option.map_eq_none_iff] at hnone
            exact ⟨_, hnone⟩
      obtain ⟨c, hstep⟩ := hstep
      cases hpc : j.pc <;> simp only [CloseJob.step, hpc] at hstep
      case lock =>
        split_ifs at hstep with hlocked
        simpa [hsig] using hlocked
      case find => split at hstep <;> cases hstep
      case isReal | paper | request | settle | unlock => cases hstep
      case finished => simp [hpc, ClosePc.ahead] at hahead

end Step

/-! ## Runs -/

/-- **What has been popped** is decided, or its worker has it. -/
def Floor.Heeds (cfg : DeskConfig) (s : Floor) (log : List Deed) : Prop :=
  ∀ worker q d, .popped worker q d ∈ log → q.sig.isExit = true → q.sig.isValid = true →
    q.sig.marketType ≠ "spot" →
      Outcome cfg q log ∨ ∃ w, s.jobs[worker]? = some w ∧ Pending q log w

namespace Floor

variable {cfg : DeskConfig} {parse : Text → Option Json} {s s' : Floor} {deed : Option Deed}
  {log : List Deed}

/-- **Every step keeps it so.** -/
theorem Heeds.move (h : Heeds cfg s log) (hmove : Move cfg s s' deed) :
    Heeds cfg s' (deed.toList ++ log) := by
  intro worker q d hmem hexit hvalid hmarket
  have hlog : log ⊆ deed.toList ++ log := List.subset_append_right _ _
  cases hmove with
  | start =>
      refine (h worker q d hmem hexit hvalid hmarket).imp_right ?_
      rintro ⟨w, hw, hpending⟩
      refine ⟨w, ?_, hpending⟩
      rw [List.getElem?_append_left (List.getElem?_eq_some_iff.1 hw).1]
      exact hw
  | work i hw hstep =>
      rename_i w w' d'
      have hset : (s.jobs.set i w')[i]? = some w' :=
        List.getElem?_set_self (List.getElem?_eq_some_iff.1 hw).1
      rcases List.mem_append.1 hmem with hnew | hold
      · -- the worker has just popped it
        rcases Worker.deed_cases (Option.mem_toList.1 hnew) with ⟨q', rfl, hq', heq⟩ |
          ⟨_, _, -, heq⟩ | ⟨_, _, -, -, heq⟩
        · cases heq
          cases hstep with
          | rest hqueue => simp [hqueue] at hq'
          | pop hqueue =>
              rw [hqueue] at hq'
              cases hq'
              exact .inr ⟨_, hset, .stamp⟩
        · cases heq
        · cases heq
      · rcases h worker q d hold hexit hvalid hmarket with houtcome | ⟨w₀, hw₀, hpending⟩
        · exact .inl (houtcome.mono hlog)
        · by_cases hi : i = worker
          · subst hi
            rw [hw] at hw₀
            cases hw₀
            refine (hpending.step hexit hvalid hmarket i hstep).imp_right ?_
            rintro ⟨hpending', -⟩
            exact ⟨w', hset, hpending'⟩
          · -- another worker's step leaves this one where it is
            refine .inr ⟨w₀, ?_, hpending.mono hlog⟩
            show (s.jobs.set i w')[worker]? = _
            rw [List.getElem?_set_ne hi]
            exact hw₀
  | event hevent =>
      have hold : .popped worker q d ∈ log := by
        rcases List.mem_append.1 hmem with hnew | hold
        · cases hevent <;> cases Option.mem_toList.1 hnew
        · exact hold
      rcases h worker q d hold hexit hvalid hmarket with houtcome | ⟨w, hw, hpending⟩
      · exact .inl (houtcome.mono hlog)
      · exact .inr ⟨w, hw, hpending.mono hlog⟩

end Floor

/-- **An exit is under way** with a worker: the next step brings it closer,
and only the lock makes it wait. -/
structure UnderWay (cfg : DeskConfig) (q : Queued) (t : Floor × List Deed) (worker : ℕ)
    (w : Worker) : Prop where
  here : t.1.jobs[worker]? = some w
  pending : Pending q t.2 w
  closer : ∀ w' d', w.step cfg t.1.shared = some (w', d') →
    Closer cfg q ((w.deed worker t.1.shared).toList ++ t.2) w w'
  waits : w.step cfg t.1.shared = none → q.sig.symbol ∈ t.1.shared.engine.locked

/-- **What becomes of exits.** In every run, a valid exit of the futures
market that has been popped is dropped at one of the checks, has found no
position, has closed one or asked for it, or is under way. -/
theorem exits_heeded {cfg : DeskConfig} {parse : Text → Option Json} {t : Floor × List Deed}
    (h : (loggedFloor cfg parse).Reachable System.anyStep t) :
    ∀ worker q d, .popped worker q d ∈ t.2 → q.sig.isExit = true → q.sig.isValid = true →
      q.sig.marketType ≠ "spot" →
        Outcome cfg q t.2 ∨ ∃ w, UnderWay cfg q t worker w := by
  have hheeds : t.1.Heeds cfg t.2 :=
    Floor.log_invariant (I := Floor.Heeds cfg) (fun _ _ _ _ _ hmem => by cases hmem)
      (fun _ _ _ hI _ hmove => hI.move hmove) h
  intro worker q d hmem hexit hvalid hmarket
  refine (hheeds worker q d hmem hexit hvalid hmarket).imp_right ?_
  rintro ⟨w, hw, hpending⟩
  exact ⟨w, hw, hpending, fun w' d' hstep =>
    hpending.step hexit hvalid hmarket worker (Worker.move_of_step hstep),
    fun hnone => hpending.locked hnone⟩

/-! ### Exits that are discarded -/

namespace ExitRun

open FloorRun

/-- A long paper position on bitcoin. -/
def book : Book :=
  AList.insert (.entry "BTCUSDT" "15" 0)
    { symbol := "BTCUSDT", timeframe := "15", side := "long", entryPrice := 50, quantity := 2 } ∅

/-- The handler is about to close something, on paper or on the exchange. -/
def closes (job : Job) (d : Desk) : Bool :=
  job.closing.any fun j =>
    match j.pc with
    | .paper => (d.engine.positions.lookup j.key).isSome
    | .request _ _ => true
    | .settle => true
    | _ => false

/-- **The exit with a ticket is discarded**: it is valid, its position is in
the book when it is popped, and it is no duplicate; nobody has it any
more, and nothing has been closed or asked for it. -/
def discards (cfg : DeskConfig) (ticket : ℕ) (t : Floor × List Deed) : Bool :=
  t.2.any (fun
    | .popped _ q d =>
        q.ticket = ticket && q.sig.isExit && q.sig.isValid &&
          (d.engine.positions.findBySymbolSide q.sig.symbol
            ({ sig := q.sig, rd := q.rd : CloseJob }).holdSide).isSome
    | _ => false) &&
  t.2.all (fun
    | .checked q now d =>
        q.ticket ≠ ticket || (d.recent.admits now (q.sig.fingerprint cfg.hash)).1
    | .handled other job d => other ≠ ticket || !closes job d
    | _ => true) &&
  t.1.jobs.all fun w => w.ticket ≠ some ticket

/-- The same stop-loss, of the spot market of another exchange. -/
def spotStopLoss : Json :=
  .obj [("alert", .str "SL"), ("signal_direction", .str "bull"), ("ticker", .str "BTCUSDT"),
    ("ticker_full", .str "UPBIT:BTCUSDT"), ("close", .int 50), ("timeframe", .str "15")]

/-- The byte says what it is. -/
def parse (body : Text) : Option Json :=
  if body = [0] then some (buy "BTCUSDT")
  else if body = [1] then some stopLoss
  else some spotStopLoss

/-- Bitcoin is not on the whitelist. -/
def whitelisted : DeskConfig := { shadow 4 with allowedSymbols := ["ETHUSDT"] }

/-- The stop-loss is in the queue for a minute. -/
def tooOld : List FloorLabel := request 1 {} :: (seconds 61 ++ works 0 6)

/-- The stop-loss waits ten seconds for a buy's handler, which finds the
position in its way. -/
def atLock : List FloorLabel :=
  request 0 {} :: request 1 { timedOut := true } ::
    (works 0 7 ++ works 1 6 ++ seconds 10 ++ works 1 2 ++ works 0 12)

/-- The exchange closes the position when the worker has taken so many
steps; it has popped the stop-loss after two, and found the position after
eight. -/
def closedAfter (n : ℕ) : List FloorLabel :=
  request 1 {} :: (works 0 n ++ [.event (.engine (.wsPosition ⟨"BTCUSDT", "long", 0, 0, 0⟩))] ++
    works 0 (13 - n))

end ExitRun

open ExitRun FloorRun in
/-- **Six ways to discard a stop-loss**: its age, the whitelist, the wait
for the lock, the spot market, and a close by the exchange, before the
position has been found or after. -/
theorem exit_discarded :
    ((loggedFloor (shadow 4) ExitRun.parse).Reachable System.anyStep
        (after (shadow 4) ExitRun.parse book tooOld) ∧
      discards (shadow 4) 0 (after (shadow 4) ExitRun.parse book tooOld) = true) ∧
    ((loggedFloor whitelisted ExitRun.parse).Reachable System.anyStep
        (after whitelisted ExitRun.parse book (request 1 {} :: works 0 6)) ∧
      discards whitelisted 0
        (after whitelisted ExitRun.parse book (request 1 {} :: works 0 6)) = true) ∧
    ((loggedFloor (shadow 4) ExitRun.parse).Reachable System.anyStep
        (after (shadow 4) ExitRun.parse book atLock) ∧
      discards (shadow 4) 1 (after (shadow 4) ExitRun.parse book atLock) = true) ∧
    ((loggedFloor (shadow 4) ExitRun.parse).Reachable System.anyStep
        (after (shadow 4) ExitRun.parse book (request 2 {} :: works 0 14)) ∧
      discards (shadow 4) 0
        (after (shadow 4) ExitRun.parse book (request 2 {} :: works 0 14)) = true) ∧
    ((loggedFloor (shadow 4) ExitRun.parse).Reachable System.anyStep
        (after (shadow 4) ExitRun.parse book (closedAfter 2)) ∧
      discards (shadow 4) 0 (after (shadow 4) ExitRun.parse book (closedAfter 2)) = true) ∧
    ((loggedFloor (shadow 4) ExitRun.parse).Reachable System.anyStep
        (after (shadow 4) ExitRun.parse book (closedAfter 9)) ∧
      discards (shadow 4) 0 (after (shadow 4) ExitRun.parse book (closedAfter 9)) = true) :=
  ⟨⟨reachable_after (by decide +kernel), by decide +kernel⟩,
    ⟨reachable_after (by decide +kernel), by decide +kernel⟩,
    ⟨reachable_after (by decide +kernel), by decide +kernel⟩,
    ⟨reachable_after (by decide +kernel), by decide +kernel⟩,
    ⟨reachable_after (by decide +kernel), by decide +kernel⟩,
    ⟨reachable_after (by decide +kernel), by decide +kernel⟩⟩

open ExitRun FloorRun in
/-- A stop-loss that is handled. -/
theorem exits_heeded_stopLoss :
    ∃ worker q d,
      .popped worker q d ∈ (after (shadow 4) ExitRun.parse book (request 1 {} :: works 0 10)).2 ∧
        (Outcome (shadow 4) q
            (after (shadow 4) ExitRun.parse book (request 1 {} :: works 0 10)).2 ∨
          ∃ w, UnderWay (shadow 4) q
            (after (shadow 4) ExitRun.parse book (request 1 {} :: works 0 10)) worker w) := by
  have hany : (after (shadow 4) ExitRun.parse book (request 1 {} :: works 0 10)).2.any (fun
      | .popped _ q _ => q.sig.isExit && q.sig.isValid && q.sig.marketType ≠ "spot"
      | _ => false) = true := by decide +kernel
  obtain ⟨deed, hmem, hdeed⟩ := List.any_eq_true.1 hany
  cases deed with
  | popped worker q d =>
      simp only [Bool.and_eq_true, decide_eq_true_eq] at hdeed
      obtain ⟨⟨hexit, hvalid⟩, hmarket⟩ := hdeed
      exact ⟨worker, q, d, hmem,
        exits_heeded (reachable_after (by decide +kernel)) worker q d hmem hexit hvalid hmarket⟩
  | accepted | cleared | checked | handled => cases hdeed

end WebhookTrader
