import WebhookTrader.Engine.Steps
import Mathlib.Tactic.IntervalCases

/-!
# Retried requests

`do_request` tries twice, and its callers try again: six attempts for a
take-profit, four for an entry. An attempt may be executed and its answer
lost. A take-profit carries no client order id, so that a later attempt
is executed again; an entry carries one, so that a later attempt is
refused as a repetition, and the refusal is taken for a failure.
-/

namespace WebhookTrader

/-- An error code makes a rejection, whatever becomes of its number. -/
theorem parse_refusal {code : String} (h : code ≠ "00000") :
    (OrderResponse.parse (Venue.refusal code)).status = .rejected := by
  have hread : OrderResponse.read (Venue.refusal code) =
      (Cxx.stoi code).bind fun errorCode =>
        .ok { status := .rejected, errorCode, errorMsg := "refused" } := by
    have hcode : Json.value Json.getString (Venue.refusal code) "code" "99999" = .ok code := rfl
    have hmsg : Json.value Json.getString (Venue.refusal code) "msg" "unknown" =
        .ok "refused" := rfl
    simp only [OrderResponse.read, hcode, hmsg, bind, Except.bind, if_neg h]
    rfl
  rw [OrderResponse.parse, hread]
  cases Cxx.stoi code <;> rfl

/-! ## The take-profit -/

/-- **The attempts of a take-profit**: how many the exchange executes, of
those from the k-th on, and whether one is answered. -/
def closesFrom (f : ℕ → Attempt) : ℕ → ℕ → ℕ × Bool
  | 0, _ => (0, false)
  | n + 1, k =>
      match f k with
      | .delivered => (1, true)
      | .unanswered => ((closesFrom f n (k + 1)).1 + 1, (closesFrom f n (k + 1)).2)
      | _ => closesFrom f n (k + 1)

/-- **The order is sent again**: an attempt from the k-th on is executed
without an answer, and a later one arrives before any is answered. -/
def SentAgain (f : ℕ → Attempt) (n k : ℕ) : Prop :=
  ∃ i j, k ≤ i ∧ i < j ∧ j < k + n ∧ f i = .unanswered ∧ f j ≠ .lost ∧
    ∀ m, k ≤ m → m < j → f m ≠ .delivered

section Pattern

variable {f : ℕ → Attempt} {n k : ℕ}

theorem closesFrom_eq_zero (hfault : ∀ i code, f i ≠ .refused code) :
    (closesFrom f n k).1 = 0 ↔ ∀ i, k ≤ i → i < k + n → f i = .lost := by
  induction n generalizing k with
  | zero => exact ⟨fun _ i hk hi => by omega, fun _ => rfl⟩
  | succ n ih =>
      rw [closesFrom]
      cases hf : f k with
      | lost =>
          refine ih.trans ⟨fun h i hk hi => ?_, fun h i hk hi => h i (by omega) (by omega)⟩
          rcases hk.eq_or_lt with rfl | hlt
          · exact hf
          · exact h i hlt (by omega)
      | unanswered => simpa using ⟨k, le_rfl, by omega, by simp [hf]⟩
      | delivered => simpa using ⟨k, le_rfl, by omega, by simp [hf]⟩
      | refused code => exact absurd hf (hfault k code)

/-- An attempt that is lost is as if it had not been made. -/
theorem sentAgain_lost (hf : f k = .lost) : SentAgain f (n + 1) k ↔ SentAgain f n (k + 1) := by
  constructor
  · rintro ⟨i, j, hki, hij, hj, hi, harrives, hbefore⟩
    have hne : k ≠ i := by
      rintro rfl
      rw [hf] at hi
      cases hi
    exact ⟨i, j, by omega, hij, by omega, hi, harrives, fun m hm => hbefore m (by omega)⟩
  · rintro ⟨i, j, hki, hij, hj, hi, harrives, hbefore⟩
    refine ⟨i, j, by omega, hij, by omega, hi, harrives, fun m hm hmj => ?_⟩
    rcases hm.eq_or_lt with rfl | hlt
    · rw [hf]
      exact Attempt.noConfusion
    · exact hbefore m hlt hmj

/-- **An order is executed once, and once where it is answered, exactly
where it is not sent again.** -/
theorem closesFrom_once_iff (hfault : ∀ i code, f i ≠ .refused code) :
    ((closesFrom f n k).1 ≤ 1 ∧ ((closesFrom f n k).2 = true → (closesFrom f n k).1 = 1)) ↔
      ¬ SentAgain f n k := by
  induction n generalizing k with
  | zero =>
      refine iff_of_true ⟨Nat.zero_le _, fun h => by cases h⟩ ?_
      rintro ⟨i, j, hki, hij, hj, -⟩
      omega
  | succ n ih =>
      rw [closesFrom]
      cases hf : f k with
      | lost => exact ih.trans (not_congr (sentAgain_lost hf).symm)
      | delivered =>
          refine iff_of_true ⟨le_rfl, fun _ => rfl⟩ ?_
          rintro ⟨i, j, hki, hij, -, -, -, hbefore⟩
          exact hbefore k le_rfl (by omega) hf
      | refused code => exact absurd hf (hfault k code)
      | unanswered =>
          -- from here on every attempt has to be lost
          have hrest : ((closesFrom f n (k + 1)).1 + 1 ≤ 1 ∧
              ((closesFrom f n (k + 1)).2 = true → (closesFrom f n (k + 1)).1 + 1 = 1)) ↔
              (closesFrom f n (k + 1)).1 = 0 :=
            ⟨fun h => by omega, fun h => ⟨by omega, fun _ => by omega⟩⟩
          refine hrest.trans ((closesFrom_eq_zero hfault).trans ⟨fun hlost => ?_, fun hnot => ?_⟩)
          · rintro ⟨i, j, hki, hij, hj, -, harrives, -⟩
            exact harrives (hlost j (by omega) (by omega))
          · by_contra hcon
            push Not at hcon
            have hex : ∃ j, k + 1 ≤ j ∧ j < k + 1 + n ∧ f j ≠ .lost := hcon
            obtain ⟨hkj, hj, harrives⟩ := Nat.find_spec hex
            refine hnot ⟨k, Nat.find hex, le_rfl, by omega, by omega, hf, harrives, ?_⟩
            intro m hm hmj
            rcases hm.eq_or_lt with rfl | hlt
            · rw [hf]
              exact Attempt.noConfusion
            · -- before the first that arrives they are lost
              have hmin := Nat.find_min hex hmj
              have hlost : f m = .lost := by
                by_contra hne
                exact hmin ⟨hlt, by omega, hne⟩
              rw [hlost]
              exact Attempt.noConfusion

end Pattern

namespace CloseJob

/-- Before the attempts that remain, of six; afterwards the run gives up. -/
def tryPc : ℕ → ClosePc
  | 0 => .unlock
  | n + 1 => .request ((5 - n) / 2) ((5 - n) % 2 = 1)

variable {cfg : EngineConfig} {j : CloseJob} {s : Shared} {key : PositionKey}
  {pos : ManagedPosition}

/-- An attempt without an answer leads to the next. -/
theorem afterAttempt_none {n : ℕ} (hn : n < 6) :
    afterAttempt (handleTp cfg) ((5 - n) / 2) ((5 - n) % 2 = 1) none = tryPc n := by
  have hfails : (handleTp cfg).succeeded connectionError = false := rfl
  interval_cases n <;> simp [afterAttempt, tryPc, nextRound, hfails]

/-- **A take-profit's attempts**, from some on: it ends, the exchange has
executed the order as often as the pattern of faults says, and a trade is
recorded where an attempt is answered. -/
theorem ends_of_tries (cfg : EngineConfig) (hfault : ∀ i code, j.rd.attempts i ≠ .refused code)
    {n : ℕ} (hn : n ≤ 6) (hpc : j.pc = tryPc n) (hsent : j.sent = 6 - n)
    (hpos : s.positions.lookup j.key = some pos) :
    Threads.Ends (step cfg (handleTp cfg))
      (fun j' t => j'.pc = .finished ∧
        t.venue.closes =
          List.replicate (closesFrom j.rd.attempts n (6 - n)).1 (j.partialClose cfg) ++
            s.venue.closes ∧
        t.recorded = if (closesFrom j.rd.attempts n (6 - n)).2 then
          (s.clock.system, ((handleTp cfg).trade j pos).pnl) :: s.recorded else s.recorded)
      j s := by
  induction n generalizing j s with
  | zero => exact ends_of_unlock hpc ⟨rfl, rfl, rfl⟩
  | succ n ih =>
      have hnext : 6 - (n + 1) + 1 = 6 - n := by omega
      have hstep := attempt_partialClose cfg j (j.rd.attempts (6 - (n + 1))) s.venue
        cfg.duplicateCode
      have hrequest : step cfg (handleTp cfg) j s =
          some ({ j with
            pc := afterAttempt (handleTp cfg) ((5 - n) / 2) ((5 - n) % 2 = 1)
              (s.venue.attempt cfg.duplicateCode (j.rd.attempts (6 - (n + 1)))
                (.order (j.partialClose cfg))).1
            sent := 6 - n },
            { s with venue := (s.venue.attempt cfg.duplicateCode (j.rd.attempts (6 - (n + 1)))
              (.order (j.partialClose cfg))).2 }) := by
        simp only [step, hpc, tryPc, hsent, hnext]
        rfl
      rw [hstep] at hrequest
      rw [closesFrom, hnext]
      cases hf : j.rd.attempts (6 - (n + 1)) with
      | lost =>
          rw [hf, afterAttempt_none (by omega)] at hrequest
          have hrest := ih (j := { j with pc := tryPc n, sent := 6 - n }) (s := s) hfault
            (by omega) rfl rfl hpos
          exact .step hrequest hrest
      | unanswered =>
          rw [hf, afterAttempt_none (by omega)] at hrequest
          have hrest := ih (j := { j with pc := tryPc n, sent := 6 - n })
            (s := { s with venue := s.venue.execute (j.partialClose cfg) }) hfault (by omega) rfl
            rfl hpos
          refine .step hrequest (hrest.mono ?_)
          rintro j' t ⟨hdone, hcloses, hrecorded⟩
          refine ⟨hdone, ?_, hrecorded⟩
          rw [hcloses, Venue.closes_execute rfl, List.replicate_succ', List.append_assoc]
          rfl
      | delivered =>
          rw [hf] at hrequest
          -- the answer settles the close, and the run unlocks
          have hsettle : step cfg (handleTp cfg) { j with pc := .settle, sent := 6 - n }
              { s with venue := s.venue.execute (j.partialClose cfg) } =
              some ({ j with pc := .unlock, sent := 6 - n },
                settle (handleTp cfg) { j with pc := .settle, sent := 6 - n }
                  { s with venue := s.venue.execute (j.partialClose cfg) }) := rfl
          refine .step hrequest (.step hsettle (ends_of_unlock rfl ⟨rfl, ?_, ?_⟩))
          · rw [show (settle (handleTp cfg) { j with pc := .settle, sent := 6 - n }
              { s with venue := s.venue.execute (j.partialClose cfg) }).venue =
                s.venue.execute (j.partialClose cfg) from settle_closes.venue]
            exact Venue.closes_execute rfl
          · simp only [settle, hpos]
            rfl
      | refused code => exact absurd hf (hfault _ code)

end CloseJob

/-- **A close is executed at most once**, and once where it is recorded. -/
def ClosesOnce (body : OrderBody) (s t : Shared) : Prop :=
  (∃ m ≤ 1, t.venue.closes = List.replicate m body ++ s.venue.closes) ∧
    (t.recorded ≠ s.recorded → t.venue.closes = body :: s.venue.closes)

theorem closesOnce_iff {body : OrderBody} {s t : Shared} {o : ℕ × Bool} {r : ℕ × ℚ}
    (hcloses : t.venue.closes = List.replicate o.1 body ++ s.venue.closes)
    (hrecorded : t.recorded = if o.2 then r :: s.recorded else s.recorded) :
    ClosesOnce body s t ↔ o.1 ≤ 1 ∧ (o.2 = true → o.1 = 1) := by
  have hsame : ∀ m, t.venue.closes = List.replicate m body ++ s.venue.closes ↔ o.1 = m := by
    intro m
    rw [hcloses, List.append_cancel_right_eq, List.replicate_left_inj]
  have hone : t.venue.closes = body :: s.venue.closes ↔ o.1 = 1 := hsame 1
  have hnew : t.recorded ≠ s.recorded ↔ o.2 = true := by
    rw [hrecorded]
    cases o.2 <;> simp
  rw [ClosesOnce, hone, hnew]
  simp only [hsame]
  exact and_congr_left' ⟨fun ⟨m, hm, heq⟩ => heq ▸ hm, fun h => ⟨_, h, rfl⟩⟩

/-- **When a take-profit closes once.** For every pattern of faults over its
six attempts, on a real position: the run ends, and the exchange has
executed the close at most once, and once where it is recorded, exactly
where no attempt that was executed without an answer is followed by one
that arrives. -/
theorem tp_closes_once_iff {cfg : EngineConfig} {sig : WebhookSignal} {rd : Readings} {s : Shared}
    {key : PositionKey} {pos : ManagedPosition} (hfree : sig.symbol ∉ s.locked)
    (hfind : s.positions.findBySymbolSide sig.symbol ({ sig, rd : CloseJob }).holdSide =
      some (key, pos))
    (hreal : pos.isReal = true) (hfault : ∀ i code, rd.attempts i ≠ .refused code) :
    Threads.Ends (CloseJob.step cfg (handleTp cfg))
      (fun j t => j.pc = .finished ∧
        (ClosesOnce (closePartial cfg.contracts sig.symbol
            (pos.quantity * CloseJob.closeRatio sig.tpLevel)
            ({ sig, rd : CloseJob }).holdSide) s t ↔
          ¬ SentAgain rd.attempts 6 0)) { sig, rd } s := by
  have hlookup : s.positions.lookup key = some pos := (Table.findValue_eq_some hfind).2
  let locked : Shared := { s with locked := sig.symbol :: s.locked }
  have hlock : CloseJob.step cfg (handleTp cfg) { sig, rd } s =
      some ({ sig, rd, pc := .find }, locked) := by
    simp [CloseJob.step, CloseJob.goto, hfree, locked]
  have hfound : CloseJob.step cfg (handleTp cfg) { sig, rd, pc := .find } locked =
      some ({ sig, rd, pc := .isReal, key, quantity := pos.quantity }, locked) := by
    have hfind' : locked.positions.findBySymbolSide sig.symbol
        (CloseJob.holdSide { sig, rd, pc := .find }) = some (key, pos) := hfind
    simp only [CloseJob.step, hfind']
  have hisReal : CloseJob.step cfg (handleTp cfg)
      { sig, rd, pc := .isReal, key, quantity := pos.quantity } locked =
      some ({ sig, rd, pc := CloseJob.tryPc 6, key, quantity := pos.quantity }, locked) := by
    have hlookup' : locked.positions.lookup key = some pos := hlookup
    simp only [CloseJob.step, hlookup', Option.any_some, hreal, if_true]
    rfl
  have hends := CloseJob.ends_of_tries cfg
    (j := { sig, rd, pc := CloseJob.tryPc 6, key, quantity := pos.quantity }) (s := locked)
    hfault le_rfl rfl rfl hlookup
  refine .step hlock (.step hfound (.step hisReal (hends.mono ?_)))
  rintro j t ⟨hdone, hcloses, hrecorded⟩
  exact ⟨hdone, (closesOnce_iff hcloses hrecorded).trans (closesFrom_once_iff hfault)⟩

/-! ## The entry -/

namespace EntryJob

variable {cfg : EngineConfig} {j j' : EntryJob} {s s' : Shared}

/-- How far a run that sends its order is from its end. -/
def rank (j : EntryJob) : ℕ :=
  match j.pc with
  | .finished => 0
  | .unlock => 1
  | .orderDone true _ => 2
  | .request true true => 3
  | .request true false => 4
  | .placed true => 5
  | .orderDone false _ => 6
  | .request false true => 7
  | .request false false => 8
  | _ => 9

/-- An order that has been executed is not executed again. -/
theorem attempt_of_executed (cfg : EngineConfig) {v : Venue} {a : Attempt}
    (h : j.oid ∈ v.clientOids) (ha : ∀ code, a ≠ .refused code) :
    v.attempt cfg.duplicateCode a (.order (j.order cfg)) = (none, v) ∨
      v.attempt cfg.duplicateCode a (.order (j.order cfg)) =
        (some (Venue.refusal cfg.duplicateCode), v) := by
  have hhandle := Venue.handle_order_duplicate cfg.duplicateCode ((isDuplicate_order cfg).2 h)
  cases a with
  | lost => exact .inl rfl
  | unanswered => exact .inl (by rw [Venue.attempt, hhandle])
  | delivered => exact .inr (by rw [Venue.attempt, hhandle])
  | refused code => exact absurd rfl (ha code)

/-- A rejection is the end of the order, or leads to its retry. -/
theorem afterOrder_of_rejected (again : Bool) {resp : OrderResponse} (h : resp.status = .rejected) :
    afterOrder again resp = .unlock ∨ again = false ∧ afterOrder again resp = .placed true := by
  unfold afterOrder
  split_ifs with hretry hnew
  · exact .inr ⟨hretry.2.2, rfl⟩
  · rw [h] at hnew
    cases hnew
  · exact .inl rfl

/-- The places of a run whose order is only ever rejected. -/
def RejectedAt : EntryPc → Prop
  | .placed _ => True
  | .request _ _ => True
  | .orderDone _ resp => resp.status = .rejected
  | .unlock => True
  | .finished => True
  | _ => False

theorem rejectedAt_none {again second : Bool} : RejectedAt (afterAttempt again second none) := by
  cases second
  · trivial
  · exact congrArg OrderResponse.status parse_connectionError

/-- **Executed and not known to be**: the exchange has the order, the book
has not, and the answers are rejections. -/
structure Doomed (key : PositionKey) (oid : ℕ) (j : EntryJob) (s : Shared) : Prop where
  sameKey : j.key = key
  sameOid : j.oid = oid
  faults : ∀ i code, j.rd.attempts i ≠ .refused code
  executed : oid ∈ s.venue.clientOids
  unknown : s.positions.lookup key = none
  place : RejectedAt j.pc

/-- **A run that is doomed stays so to its end.** -/
theorem ends_of_doomed (hcode : cfg.duplicateCode ≠ "00000") (key : PositionKey) (oid : ℕ)
    (h : Doomed key oid j s) :
    Threads.Ends (step cfg) (fun j' t => j'.pc = .finished ∧ Doomed key oid j' t) j s := by
  refine Threads.Ends.of_rank (I := Doomed key oid) rank (fun j s hdoomed => ?_) h
  obtain ⟨hkey, hoid, hfault, hexecuted, hunknown, hplace⟩ := hdoomed
  cases hpc : j.pc <;> rw [hpc] at hplace <;> first | exact hplace.elim | skip
  case placed again =>
    refine .inr ⟨j.goto (.request again false), { s with risk := s.risk.onOrderPlaced },
      by simp only [step, hpc], ⟨hkey, hoid, hfault, hexecuted, hunknown, trivial⟩, ?_⟩
    cases again <;> simp [rank, goto, hpc]
  case request again second =>
    have hstep : step cfg j s = some ({ j with
        pc := afterAttempt again second (s.venue.attempt cfg.duplicateCode (j.rd.attempts j.sent)
          (.order (j.order cfg))).1
        sent := j.sent + 1 },
        { s with venue := (s.venue.attempt cfg.duplicateCode (j.rd.attempts j.sent)
          (.order (j.order cfg))).2 }) := by
      simp only [step, hpc]
    refine .inr ⟨_, _, hstep, ?_⟩
    rcases attempt_of_executed cfg (v := s.venue) (hoid ▸ hexecuted)
      (hfault j.sent) with heq | heq <;> rw [heq]
    · refine ⟨⟨hkey, hoid, hfault, hexecuted, hunknown, rejectedAt_none⟩, ?_⟩
      cases again <;> cases second <;> simp [rank, hpc, afterAttempt]
    · refine ⟨⟨hkey, hoid, hfault, hexecuted, hunknown, parse_refusal hcode⟩, ?_⟩
      cases again <;> cases second <;> simp [rank, hpc, afterAttempt]
  case orderDone again resp =>
    refine .inr ⟨j.goto (afterOrder again resp), { s with risk := s.risk.onOrderDone },
      by simp only [step, hpc], ?_⟩
    rcases afterOrder_of_rejected again hplace with heq | ⟨rfl, heq⟩ <;> rw [heq]
    · exact ⟨⟨hkey, hoid, hfault, hexecuted, hunknown, trivial⟩,
        by cases again <;> simp [rank, goto, hpc]⟩
    · exact ⟨⟨hkey, hoid, hfault, hexecuted, hunknown, trivial⟩, by simp [rank, goto, hpc]⟩
  case unlock =>
    exact .inr ⟨j.goto .finished, { s with locked := s.locked.erase j.sig.symbol },
      by simp only [step, hpc], ⟨hkey, hoid, hfault, hexecuted, hunknown, trivial⟩,
      by simp [rank, goto, hpc]⟩
  case finished =>
    refine .inl ⟨by simp only [step, hpc], rfl, hkey, hoid, hfault, hexecuted, hunknown, ?_⟩
    rw [hpc]
    trivial

/-- Before the attempts that remain, of four; afterwards the run gives
up. -/
def tryPc : ℕ → EntryPc
  | 0 => .unlock
  | n + 1 => .request (n < 2) (n % 2 = 0)

/-- **The first attempt to arrive is not answered**, of those from the k-th
on. -/
def FirstUnanswered (f : ℕ → Attempt) (n k : ℕ) : Prop :=
  ∃ i, k ≤ i ∧ i < k + n ∧ f i = .unanswered ∧ ∀ m, k ≤ m → m < i → f m = .lost

theorem firstUnanswered_lost {f : ℕ → Attempt} {n k : ℕ} (hf : f k = .lost) :
    FirstUnanswered f (n + 1) k ↔ FirstUnanswered f n (k + 1) := by
  constructor
  · rintro ⟨i, hki, hi, hun, hbefore⟩
    have hne : k ≠ i := by
      rintro rfl
      rw [hf] at hun
      cases hun
    exact ⟨i, by omega, by omega, hun, fun m hm => hbefore m (by omega)⟩
  · rintro ⟨i, hki, hi, hun, hbefore⟩
    refine ⟨i, by omega, by omega, hun, fun m hm hmi => ?_⟩
    rcases hm.eq_or_lt with rfl | hlt
    · exact hf
    · exact hbefore m hlt hmi

/-- The book knows the order exactly where the exchange has it. -/
def KnownIffExecuted (key : PositionKey) (oid : ℕ) (t : Shared) : Prop :=
  oid ∈ t.venue.clientOids ↔ (t.positions.lookup key).isSome = true

/-- A lost attempt, and the steps to the next one. -/
theorem ends_of_lost {P : EntryJob → Shared → Prop} {n : ℕ} (hn : n < 4)
    (hpc : j.pc = tryPc (n + 1)) (hlost : j.rd.attempts j.sent = .lost)
    (hrest : ∀ risk, Threads.Ends (step cfg) P { j with pc := tryPc n, sent := j.sent + 1 }
      { s with risk }) : Threads.Ends (step cfg) P j s := by
  have hstep : step cfg j s = some ({ j with
      pc := afterAttempt (n < 2) (n % 2 = 0) none, sent := j.sent + 1 }, s) := by
    simp only [step, hpc, tryPc, hlost, Venue.attempt]
  refine .step hstep ?_
  let failed : OrderResponse := OrderResponse.parse connectionError
  interval_cases n
  · -- the last attempt is given up
    have hdone : step cfg { j with pc := .orderDone true failed, sent := j.sent + 1 } s =
        some ({ j with pc := .unlock, sent := j.sent + 1 },
          { s with risk := s.risk.onOrderDone }) :=
      rfl
    exact .step hdone (hrest _)
  · exact hrest s.risk
  · -- the order is placed again
    have hdone : step cfg { j with pc := .orderDone false failed, sent := j.sent + 1 } s =
        some ({ j with pc := .placed true, sent := j.sent + 1 },
          { s with risk := s.risk.onOrderDone }) := rfl
    have hplaced : step cfg { j with pc := .placed true, sent := j.sent + 1 }
        { s with risk := s.risk.onOrderDone } =
        some ({ j with pc := .request true false, sent := j.sent + 1 },
          { s with risk := s.risk.onOrderDone.onOrderPlaced }) := rfl
    exact .step hdone (.step hplaced (hrest _))
  · exact hrest s.risk

/-- **An accepted order is registered.** -/
theorem ends_of_accepted {again : Bool} {resp : OrderResponse}
    (hpc : j.pc = .orderDone again resp) (hnew : resp.status = .new) :
    Threads.Ends (step cfg) (fun j' t => j'.pc = .finished ∧
      t.venue.clientOids = s.venue.clientOids ∧ (t.positions.lookup j.key).isSome = true) j s := by
  let counted : Shared := { s with risk := s.risk.onOrderDone }
  let opened : Shared :=
    { counted with risk := counted.risk.onPositionOpened j.sig.symbol j.size j.side }
  let known : Shared := j.register true opened
  have hdone : step cfg j s = some (j.goto .opened, counted) := by
    simp [step, hpc, afterOrder, hnew, counted]
  have hopened : step cfg (j.goto .opened) counted = some (j.goto .registerReal, opened) := rfl
  have hregister : step cfg (j.goto .registerReal) opened = some (j.goto .unlock, known) := rfl
  have hunlock : step cfg (j.goto .unlock) known =
      some (j.goto .finished, { known with locked := known.locked.erase j.sig.symbol }) := rfl
  refine .step hdone (.step hopened (.step hregister (.step hunlock (.done rfl ⟨rfl, rfl, ?_⟩))))
  change ((s.positions.insert j.key (j.position s.clock true)).lookup j.key).isSome = true
  rw [AList.lookup_insert]
  rfl

/-- **An entry's attempts**, from some on: the run ends, and the book knows
the order exactly where the exchange has it, unless the first attempt to
arrive is not answered. -/
theorem ends_of_tries (hcode : cfg.duplicateCode ≠ "00000")
    (hfault : ∀ i code, j.rd.attempts i ≠ .refused code) {n : ℕ} (hn : n ≤ 4)
    (hpc : j.pc = tryPc n) (hsent : j.sent = 4 - n) (hnew : j.oid ∉ s.venue.clientOids)
    (hkey : s.positions.lookup j.key = none) :
    Threads.Ends (step cfg)
      (fun j' t => j'.pc = .finished ∧
        (KnownIffExecuted j.key j.oid t ↔ ¬ FirstUnanswered j.rd.attempts n (4 - n))) j s := by
  induction n generalizing j s with
  | zero =>
      have hstep : step cfg j s =
          some (j.goto .finished, { s with locked := s.locked.erase j.sig.symbol }) := by
        simp only [step, hpc, tryPc]
      refine .step hstep (.done rfl ⟨rfl, iff_of_true ?_ ?_⟩)
      · exact iff_of_false hnew (by rw [hkey]; exact Bool.false_ne_true)
      · rintro ⟨i, hki, hi, -⟩
        omega
  | succ n ih =>
      have hnext : 4 - (n + 1) + 1 = 4 - n := by omega
      have hexecute : ∀ code, s.venue.handle code (.order (j.order cfg)) =
          (Venue.accepted, s.venue.execute (j.order cfg)) := handle_order_of_new hnew
      have hhas : j.oid ∈ (s.venue.execute (j.order cfg)).clientOids := by
        rw [clientOids_execute_order]
        exact List.mem_cons_self
      cases hf : j.rd.attempts (4 - (n + 1)) with
      | lost =>
          refine ends_of_lost (by omega) hpc (hsent ▸ hf) fun risk => ?_
          have hrest := ih (j := { j with pc := tryPc n, sent := j.sent + 1 })
            (s := { s with risk }) hfault (by omega) rfl (by rw [← hnext, ← hsent]) hnew hkey
          rw [firstUnanswered_lost hf, hnext]
          exact hrest
      | unanswered =>
          have hstep : step cfg j s = some ({ j with
              pc := afterAttempt (n < 2) (n % 2 = 0) none, sent := j.sent + 1 },
              { s with venue := s.venue.execute (j.order cfg) }) := by
            simp only [step, hpc, tryPc, hsent, hf, Venue.attempt, hexecute]
          refine .step hstep ((ends_of_doomed hcode j.key j.oid ?_).mono ?_)
          · exact ⟨rfl, rfl, hfault, hhas, hkey, rejectedAt_none⟩
          · rintro j' t ⟨hdone, hdoomed⟩
            refine ⟨hdone, iff_of_false ?_ ?_⟩
            · rw [KnownIffExecuted, hdoomed.unknown]
              exact fun h => Bool.false_ne_true (h.1 hdoomed.executed)
            · exact not_not.2 ⟨_, le_rfl, by omega, hf, fun m hm hmi => by omega⟩
      | delivered =>
          have hstep : step cfg j s = some ({ j with
              pc := .orderDone (n < 2) { status := .new, exchangeOrderId := 1 }
              sent := j.sent + 1 }, { s with venue := s.venue.execute (j.order cfg) }) := by
            simp only [step, hpc, tryPc, hsent, hf, Venue.attempt, hexecute, afterAttempt,
              parse_accepted]
          refine .step hstep ((ends_of_accepted rfl rfl).mono ?_)
          rintro j' t ⟨hdone, hclientOids, hknown⟩
          refine ⟨hdone, iff_of_true ?_ ?_⟩
          · exact iff_of_true (hclientOids ▸ hhas) hknown
          · rintro ⟨i, hki, hi, hun, hbefore⟩
            rcases hki.eq_or_lt with rfl | hlt
            · rw [hf] at hun
              cases hun
            · have hlost := hbefore _ le_rfl hlt
              rw [hf] at hlost
              cases hlost
      | refused code => exact absurd hf (hfault _ code)

end EntryJob

/-- **When an entry is registered exactly if it is executed.** For every
pattern of faults over the four attempts of a run on the real path, with
an id and a key that are new, and an exchange that answers a repeated id
with an error: the run ends, and the book knows the order exactly where
the exchange has it, if and only if the first attempt to arrive is not one
without an answer. -/
theorem entry_known_iff {cfg : EngineConfig} {j : EntryJob} {s : Shared}
    (hcode : cfg.duplicateCode ≠ "00000") (hpc : j.pc = .placed false) (hsent : j.sent = 0)
    (hfault : ∀ i code, j.rd.attempts i ≠ .refused code) (hnew : j.oid ∉ s.venue.clientOids)
    (hkey : s.positions.lookup j.key = none) :
    Threads.Ends (EntryJob.step cfg)
      (fun j' t => j'.pc = .finished ∧
        (EntryJob.KnownIffExecuted j.key j.oid t ↔
          ¬ EntryJob.FirstUnanswered j.rd.attempts 4 0)) j s := by
  have hplaced : EntryJob.step cfg j s = some (j.goto (.request false false),
      { s with risk := s.risk.onOrderPlaced }) := by
    simp only [EntryJob.step, hpc]
  exact .step hplaced (EntryJob.ends_of_tries (j := j.goto (.request false false)) hcode hfault
    le_rfl rfl hsent hnew hkey)

/-! ## An answer that is lost -/

namespace LostAnswer

/-- The first attempt is executed, and its answer is lost. -/
def attempts (i : ℕ) : Attempt := if i = 0 then .unanswered else .delivered

def position : ManagedPosition where
  symbol := "BTCUSDT"
  timeframe := "15"
  side := "long"
  entryPrice := 100
  quantity := 1
  isReal := true

/-- A coin, on the exchange and in the book. -/
def held : Shared where
  modes := Modes.start false
  positions := (∅ : Book).insert (.entry "BTCUSDT" "15" 1) position
  venue := { holdings := (∅ : Table (String × HoldSide) ℚ).insert ("BTCUSDT", .long) 1 }

def signal : WebhookSignal where
  symbol := "BTCUSDT"
  signalDirection := "bull"
  sigType := .tp
  tpLevel := "TP1"
  price := 110

theorem find_held : held.positions.findBySymbolSide "BTCUSDT" "long" =
    some (.entry "BTCUSDT" "15" 1, position) := rfl

/-- The take-profit, left alone. -/
def closed : CloseJob × Shared :=
  Threads.alone (CloseJob.step {} (handleTp {})) 12 { sig := signal, rd := { attempts } } held

/-- An entry on the real path, before it sends its order. -/
def entry (attempts : ℕ → Attempt) : EntryJob where
  pc := .placed false
  sig := { symbol := "BTCUSDT", action := "buy", timeframe := "15", price := 100, tp1 := 110 }
  rd := { attempts }
  size := 1
  admitted := some false
  oid := 7

def flat : Shared where
  modes := Modes.start false

/-- The entry, left alone. -/
def entered : EntryJob × Shared := Threads.alone (EntryJob.step {}) 12 (entry attempts) flat

end LostAnswer

/-- **A take-profit that closes twice.** The first attempt is executed and
its answer lost, and the second is executed and answered. -/
theorem tp_closes_twice :
    LostAnswer.closed.1.pc = .finished ∧ LostAnswer.closed.2.recorded.length = 1 ∧
      LostAnswer.closed.2.venue.closes.length = 2 ∧
      ¬ ClosesOnce (LostAnswer.closed.1.partialClose {}) LostAnswer.held LostAnswer.closed.2 := by
  have hpc : LostAnswer.closed.1.pc = .finished := by decide +kernel
  have hrecorded : LostAnswer.closed.2.recorded.length = 1 := by decide +kernel
  have htwice : LostAnswer.closed.2.venue.closes.length = 2 := by decide +kernel
  refine ⟨hpc, hrecorded, htwice, ?_⟩
  rintro ⟨⟨m, hm, hcloses⟩, -⟩
  have hlength := congrArg List.length hcloses
  rw [htwice, List.length_append, List.length_replicate] at hlength
  change 2 = m + 0 at hlength
  omega

theorem tp_closes_once_iff_held :
    Threads.Ends (CloseJob.step {} (handleTp {}))
      (fun j t => j.pc = .finished ∧
        (ClosesOnce (closePartial (EngineConfig.contracts {}) LostAnswer.signal.symbol
            (LostAnswer.position.quantity * CloseJob.closeRatio LostAnswer.signal.tpLevel)
            (CloseJob.holdSide { sig := LostAnswer.signal, rd := {} })) LostAnswer.held t ↔
          ¬ SentAgain (Readings.attempts {}) 6 0))
      { sig := LostAnswer.signal, rd := {} } LostAnswer.held :=
  tp_closes_once_iff List.not_mem_nil LostAnswer.find_held rfl fun _ _ => Attempt.noConfusion

/-- **A position the book never hears of.** The first attempt is executed
and its answer lost; the second is refused as a repetition, and the run
ends without a registration. -/
theorem entry_executed_unknown :
    LostAnswer.entered.1.pc = .finished ∧ 7 ∈ LostAnswer.entered.2.venue.clientOids ∧
      LostAnswer.entered.2.positions.size = 0 ∧
      ¬ EntryJob.KnownIffExecuted (LostAnswer.entry LostAnswer.attempts).key 7
        LostAnswer.entered.2 := by
  have hpc : LostAnswer.entered.1.pc = .finished := by decide +kernel
  have hexecuted : 7 ∈ LostAnswer.entered.2.venue.clientOids := by decide +kernel
  have hempty : LostAnswer.entered.2.positions.size = 0 := by decide +kernel
  have hunknown : (LostAnswer.entered.2.positions.lookup
      (LostAnswer.entry LostAnswer.attempts).key).isSome = false := by decide +kernel
  exact ⟨hpc, hexecuted, hempty, fun h =>
    Bool.false_ne_true (hunknown.symm.trans (h.1 hexecuted))⟩

theorem entry_known_iff_flat :
    Threads.Ends (EntryJob.step {})
      (fun j t => j.pc = .finished ∧
        (EntryJob.KnownIffExecuted (LostAnswer.entry fun _ => .delivered).key
            (LostAnswer.entry fun _ => .delivered).oid t ↔
          ¬ EntryJob.FirstUnanswered (LostAnswer.entry fun _ => .delivered).rd.attempts 4 0))
      (LostAnswer.entry fun _ => .delivered) LostAnswer.flat :=
  entry_known_iff (by decide) rfl rfl (fun _ _ => Attempt.noConfusion) List.not_mem_nil rfl

end WebhookTrader
