import WebhookTrader.Engine.Direction
import WebhookTrader.Engine.Duplicates

/-!
# What the duplicate check drops

The check drops a signal whose fingerprint is in the table. The
fingerprint has four fields of a signal, and not its action; of a signal
in the generic format it has the symbol alone, because the format sets
none of the other three. And a small table keeps what is old. So a signal
is dropped for an earlier one that differs from it, or that came long
before.
-/

namespace WebhookTrader

/-! ## What the parser reads -/

namespace WebhookSignal

/-- The alert is one of the two whose name is the action. -/
def namesAction (sig : WebhookSignal) : Bool :=
  toUpper sig.alert = "BUY" || toUpper sig.alert = "SELL"

/-- **A signal as a reader hands it on**: without the fields the generic
format does not set, or classified by its alert. -/
def HandedOn (sig : WebhookSignal) : Prop :=
  sig.alert = "" ∧ sig.timeframe = "" ∧ sig.unixTime = 0 ∨
    sig.alert ≠ "" ∧ ∃ raw, sig = classify raw ∧ raw.action = ""

variable {sig sig' raw raw' : WebhookSignal}

theorem alert_classify : (classify raw).alert = raw.alert ∧
    (classify raw).signalDirection = raw.signalDirection := by
  unfold classify
  dsimp only
  split_ifs <;> exact ⟨rfl, rfl⟩

/-- **The action comes from the alert and the direction.** -/
theorem action_classify (halert : raw.alert = raw'.alert) (haction : raw.action = raw'.action)
    (hdirection : raw.namesAction = true ∨ raw.signalDirection = raw'.signalDirection) :
    (classify raw).action = (classify raw').action := by
  unfold classify
  dsimp only
  rw [← halert]
  by_cases hnames : toUpper raw.alert = "BUY" ∨ toUpper raw.alert = "SELL"
  · rw [if_pos hnames, if_pos hnames]
  · have hsame : raw.signalDirection = raw'.signalDirection := by
      refine hdirection.resolve_left fun h => hnames ?_
      simpa [namesAction] using h
    rw [if_neg hnames, if_neg hnames, ← hsame]
    split_ifs <;> first | exact haction | rfl

/-- A signal without an alert is not valid in the indicator's format. -/
theorem alert_ne_of_valid (h : (classify raw).isValid = true) : (classify raw).alert ≠ "" := by
  intro halert
  rw [alert_classify.1] at halert
  have hupper : toUpper "" = "" := by decide +kernel
  have htype : (classify raw).sigType = .unknown := by
    simp [classify, halert, hupper]
  unfold isValid at h
  rw [htype] at h
  split_ifs at h

theorem handedOn_of_parseGeneric {j : Json} {now : ℕ} :
    ∀ r, parseGeneric j { receivedAt := now } = .ok r →
      ∃ sig, r = some sig ∧ sig.alert = "" ∧ sig.timeframe = "" ∧ sig.unixTime = 0 := by
  unfold parseGeneric
  iterate 12 refine Json.forall_ok_bind fun _ => ?_
  intro r h
  cases h
  exact ⟨_, rfl, rfl, rfl, rfl⟩

theorem handedOn_of_fromJson {parse : Text → Option Json} {now : ℕ} {body : Text}
    (h : fromJson parse now body = .ok (some sig)) (hvalid : sig.isValid = true) :
    sig.HandedOn := by
  unfold fromJson at h
  split at h
  · split_ifs at h
    · obtain ⟨raw, heq, -, haction⟩ := exists_of_parseSfx _ h
      obtain rfl := Option.some.inj heq
      exact .inr ⟨alert_ne_of_valid hvalid, raw, rfl, haction⟩
    · obtain ⟨sig', heq, hfields⟩ := handedOn_of_parseGeneric _ h
      obtain rfl := Option.some.inj heq
      exact .inl hfields
  · cases h

end WebhookSignal

/-- **What the server hands on** was read. -/
theorem Server.handedOn_of_answer {cfg : FrontConfig} {parse : Text → Option Json} {now : ℕ}
    {withinRate : Bool} {req : Request} {resp : Response} {sig : WebhookSignal}
    (h : answer cfg parse now withinRate req = .ok (resp, some sig)) : sig.HandedOn := by
  unfold answer handleRequest at h
  split_ifs at h
  · cases h
  · cases h
  · cases h
  · split at h
    · cases h
    · cases h
    · rename_i sig' hread
      split_ifs at h with htoken hvalid
      · cases h
      · cases h
      · have hpush : (tryPush queueCapacity [] sig').2 = [sig'] := tryPush_of_room (by decide)
        rw [hpush] at h
        cases h
        exact WebhookSignal.handedOn_of_fromJson hread (by simpa using hvalid)

/-! ## Arrivals -/

/-- **A signal at the duplicate check**, with the time its worker has read
and the check's answer. -/
structure Arrival where
  sig : WebhookSignal
  time : ℕ
  passes : Bool
  deriving DecidableEq

/-- Stale signals do not get to the check. -/
def Deed.arrival (cfg : DeskConfig) : Deed → Option Arrival
  | checked q now d =>
      if q.sig.isStale now then none
      else some ⟨q.sig, now, (d.recent.admits now (q.sig.fingerprint cfg.hash)).1⟩
  | _ => none

/-- The arrivals of a log, the latest first. -/
def arrivals (cfg : DeskConfig) (log : List Deed) : List Arrival :=
  log.filterMap (Deed.arrival cfg)

namespace WebhookSignal

/-- The four fields of the fingerprint. -/
def SameFields (sig sig' : WebhookSignal) : Prop :=
  sig.symbol = sig'.symbol ∧ sig.alert = sig'.alert ∧ sig.unixTime = sig'.unixTime ∧
    sig.timeframe = sig'.timeframe

/-- **Duplicates**: the same four fields and the same action, and in the
generic format, which has no alert, the same price, size, TP and SL. -/
def Duplicate (sig sig' : WebhookSignal) : Prop :=
  SameFields sig sig' ∧ sig.action = sig'.action ∧
    (sig.alert = "" → sig.price = sig'.price ∧ sig.size = sig'.size ∧ sig.tp1 = sig'.tp1 ∧
      sig.sl = sig'.sl)

/-- What tells signals apart that have the same four fields. In the
indicator's format it is the direction, unless the alert names the action;
in the generic format it is all the rest. -/
def Alike (sig sig' : WebhookSignal) : Prop :=
  if sig.alert = "" then
    sig.action = sig'.action ∧ sig.price = sig'.price ∧ sig.size = sig'.size ∧
      sig.tp1 = sig'.tp1 ∧ sig.sl = sig'.sl
  else sig.namesAction = true ∨ sig.signalDirection = sig'.signalDirection

instance (sig sig' : WebhookSignal) : Decidable (SameFields sig sig') :=
  inferInstanceAs (Decidable (_ ∧ _))

instance (sig sig' : WebhookSignal) : Decidable (Duplicate sig sig') :=
  inferInstanceAs (Decidable (_ ∧ _))

instance (sig sig' : WebhookSignal) : Decidable (Alike sig sig') := by
  unfold Alike
  infer_instance

/-- **Signals that are handed on with the same fields are duplicates**, where
they are alike. -/
theorem SameFields.duplicate {sig sig' : WebhookSignal} (h : SameFields sig sig')
    (hsig : sig.HandedOn) (hsig' : sig'.HandedOn) (halike : Alike sig sig') :
    Duplicate sig sig' := by
  unfold Alike at halike
  split_ifs at halike with hgeneric
  · exact ⟨h, halike.1, fun _ => halike.2⟩
  · refine ⟨h, ?_, fun halert => absurd halert hgeneric⟩
    obtain ⟨-, raw, rfl, hraw⟩ := hsig.resolve_left fun hg => hgeneric hg.1
    obtain ⟨-, raw', rfl, hraw'⟩ := hsig'.resolve_left fun hg => hgeneric (h.2.1.trans hg.1)
    have halert := h.2.1
    have hdirection := halike
    rw [alert_classify.1, alert_classify.1] at halert
    rw [namesAction, alert_classify.1, alert_classify.2, alert_classify.2] at hdirection
    exact action_classify halert (hraw.trans hraw'.symm) hdirection

end WebhookSignal

/-- No two of some arrivals collide: one fingerprint is of one choice of the
four fields. -/
def CollisionFree (cfg : DeskConfig) (as : List Arrival) : Prop :=
  ∀ a ∈ as, ∀ b ∈ as, a.sig.fingerprint cfg.hash = b.sig.fingerprint cfg.hash →
    a.sig.SameFields b.sig

instance (cfg : DeskConfig) (as : List Arrival) : Decidable (CollisionFree cfg as) :=
  inferInstanceAs (Decidable (∀ a ∈ as, ∀ b ∈ as, _ → _))

/-- **Only duplicates are dropped**: before a signal that does not pass, a
duplicate of it has arrived, at most two minutes earlier. -/
def OnlyDuplicates (as : List Arrival) : Prop :=
  ∀ a earlier, a :: earlier <:+ as → a.passes = false →
    ∃ b ∈ earlier, a.time ≤ b.time + Fingerprints.ttl ∧ a.sig.Duplicate b.sig

theorem OnlyDuplicates.cons {a : Arrival} {as : List Arrival} (h : OnlyDuplicates as)
    (ha : a.passes = false →
      ∃ b ∈ as, a.time ≤ b.time + Fingerprints.ttl ∧ a.sig.Duplicate b.sig) :
    OnlyDuplicates (a :: as) := by
  intro a' earlier hsuffix
  rcases List.suffix_cons_iff.1 hsuffix with heq | hold
  · obtain ⟨rfl, rfl⟩ := List.cons.inj heq
    exact ha
  · exact h a' earlier hold

/-- **What the check needs of a signal**: the table is not small, or has the
fingerprint with a time at most two minutes old; and what has arrived in
these two minutes with the same four fields is alike. -/
def Discernible (cfg : DeskConfig) (d : Desk) (past : List Arrival) (sig : WebhookSignal)
    (now : ℕ) : Prop :=
  (∀ n ∈ d.recent.lookup (sig.fingerprint cfg.hash),
    100 < d.recent.size ∨ now ≤ n + Fingerprints.ttl) ∧
  ∀ b ∈ past, now ≤ b.time + Fingerprints.ttl → sig.SameFields b.sig → sig.Alike b.sig

instance (cfg : DeskConfig) (d : Desk) (past : List Arrival) (sig : WebhookSignal) (now : ℕ) :
    Decidable (Discernible cfg d past sig now) :=
  inferInstanceAs (Decidable (_ ∧ _))

/-- A step that is no check, or the check of such a signal. -/
def Discerned (cfg : DeskConfig) (parse : Text → Option Json) (t : Floor × List Deed)
    (l : FloorLabel) : Prop :=
  match Floor.deed cfg parse t.1 l with
  | some (.checked q now d) =>
      q.sig.isStale now = false → Discernible cfg d (arrivals cfg t.2) q.sig now
  | _ => True

instance (cfg : DeskConfig) (parse : Text → Option Json) (t : Floor × List Deed)
    (l : FloorLabel) : Decidable (Discerned cfg parse t l) := by
  unfold Discerned
  split <;> infer_instance

/-! ## The table -/

namespace Fingerprints

variable {recent : Fingerprints} {now n : ℕ} {fp fp' : UInt64}

/-- **What is left in the table** was in it, and is young where the table is
not small. -/
theorem of_lookup_pruned (h : (pruned now recent).lookup fp = some n) :
    recent.lookup fp = some n ∧ (100 < recent.size → now ≤ n + ttl) := by
  unfold pruned evict at h
  split_ifs at h with hover hsize
  · cases h
  · rw [Table.lookup_foldl_erase] at h
    split_ifs at h with hold
    refine ⟨h, fun _ => ?_⟩
    by_contra hlate
    refine hold (List.mem_map.2 ⟨⟨fp, n⟩, List.mem_filter.2 ⟨AList.mem_lookup_iff.1 h, ?_⟩, rfl⟩)
    simp only [decide_eq_true_eq]
    omega
  · exact ⟨h, fun hlarge => absurd hlarge hsize⟩

/-- What is in the table after the check was in it, or is what has passed. -/
theorem of_lookup_admits (h : (recent.admits now fp).2.lookup fp' = some n) :
    recent.lookup fp' = some n ∨ fp' = fp ∧ n = now := by
  unfold admits at h
  split_ifs at h with hfound
  · exact .inl (of_lookup_pruned h).1
  · by_cases hfp : fp' = fp
    · subst hfp
      rw [AList.lookup_insert] at h
      exact .inr ⟨rfl, (Option.some.inj h).symm⟩
    · rw [AList.lookup_insert_ne hfp] at h
      exact .inl (of_lookup_pruned h).1

/-- **What does not pass** is in the table. -/
theorem exists_of_not_admits (h : (recent.admits now fp).1 = false) :
    ∃ n, recent.lookup fp = some n ∧ (100 < recent.size → now ≤ n + ttl) := by
  unfold admits at h
  split_ifs at h with hfound
  obtain ⟨n, hn⟩ := Option.isSome_iff_exists.1 hfound
  exact ⟨n, of_lookup_pruned hn⟩

end Fingerprints

/-! ## The invariant -/

/-- The signal a worker has not yet checked. -/
def Worker.carries : Worker → Option Queued
  | stamp q => some q
  | shadow q _ => some q
  | spotShadow q _ => some q
  | check q _ => some q
  | _ => none

namespace Worker

variable {cfg : DeskConfig} {d d' : Desk} {w w' : Worker}

theorem Routed.carries {q : Queued} (h : Routed q w) : w.carries = none := by
  cases h <;> rfl

/-- **Where a signal comes from** that a worker carries. -/
theorem Move.carries (h : Move cfg d w w' d') : (∀ q ∈ d'.queue, q ∈ d.queue) ∧
    ∀ q ∈ w'.carries, q ∈ w.carries ∨ q ∈ d.queue := by
  cases h with
  | wake =>
      refine ⟨fun _ hq => hq, fun q hq => ?_⟩
      split_ifs at hq <;> cases hq
  | pop hqueue =>
      refine ⟨fun q hq => hqueue ▸ List.mem_cons_of_mem _ hq, ?_⟩
      rintro q ⟨⟩
      exact .inr (hqueue ▸ List.mem_cons_self)
  | stamp | shadow | spotShadow => exact ⟨fun _ hq => hq, fun _ hq => .inl hq⟩
  | pass =>
      refine ⟨fun _ hq => hq, fun q hq => ?_⟩
      rw [(routed_route cfg _).carries] at hq
      cases hq
  | spot ticket hstep =>
      cases SpotJob.move_of_step hstep with
      | quiet | account => exact ⟨fun _ hq => hq, fun q hq => (Option.not_mem_none q hq).elim⟩
  | rest | stale | duplicate | leave | futures | leaveSpot | closeAll =>
      exact ⟨fun _ hq => hq, fun q hq => (Option.not_mem_none q hq).elim⟩

end Worker

namespace Floor

/-- **The invariant of the suppression.** -/
structure Sifted (cfg : DeskConfig) (s : Floor) (log : List Deed) : Prop where
  queued : ∀ q ∈ s.shared.queue, q.sig.HandedOn
  carried : ∀ (i : ℕ) (w : Worker), s.jobs[i]? = some w → ∀ q ∈ w.carries, q.sig.HandedOn
  arrived : ∀ a ∈ arrivals cfg log, a.sig.HandedOn
  /-- What is in the table has arrived, at the time the table has. -/
  entries : ∀ fp n, s.shared.recent.lookup fp = some n →
    ∃ a ∈ arrivals cfg log, a.time = n ∧ a.sig.fingerprint cfg.hash = fp
  only : CollisionFree cfg (arrivals cfg log) → OnlyDuplicates (arrivals cfg log)

variable {cfg : DeskConfig} {parse : Text → Option Json} {s s' : Floor} {log : List Deed}
  {l : FloorLabel} {deed : Option Deed}

theorem sifted_of_init (h : (floorSystem cfg parse).init s) : Sifted cfg s [] where
  queued q hq := by
    rw [h.2.queue] at hq
    cases hq
  carried i w hw q hq := by
    rw [idle_of_init h hw] at hq
    cases hq
  arrived a ha := by cases ha
  entries fp n hlookup := by
    rw [h.2.recent] at hlookup
    cases hlookup
  only _ a earlier hsuffix := by
    have := List.eq_nil_of_suffix_nil hsuffix
    cases this

/-- **An accepted signal** was read. -/
theorem handedOn_of_deed {n : ℕ} {sig : WebhookSignal}
    (h : Floor.deed cfg parse s l = some (.accepted n (some sig))) : sig.HandedOn := by
  cases l with
  | start w => cases h
  | work i =>
      obtain ⟨w, -, hdeed⟩ := Option.bind_eq_some_iff.1 h
      rcases Worker.deed_cases hdeed with ⟨q, -, -, heq⟩ | ⟨q, now, -, heq⟩ | ⟨t, job, -, -, heq⟩
      all_goals cases heq
  | event e =>
      cases e with
      | request withinRate req rd =>
          simp only [Floor.deed] at h
          split at h
          · split_ifs at h
            cases h
            exact Server.handedOn_of_answer ‹_›
          · cases h
      | clearRecent => cases h
      | _ => cases h

/-- A deed that is no arrival changes none. -/
theorem Sifted.quiet (h : Sifted cfg s log) (hdeed : ∀ x ∈ deed, x.arrival cfg = none)
    (hqueued : ∀ q ∈ s'.shared.queue, q.sig.HandedOn)
    (hcarried : ∀ (i : ℕ) (w : Worker), s'.jobs[i]? = some w → ∀ q ∈ w.carries, q.sig.HandedOn)
    (hentries : ∀ fp n, s'.shared.recent.lookup fp = some n →
      s.shared.recent.lookup fp = some n) : Sifted cfg s' (deed.toList ++ log) := by
  have hsame : arrivals cfg (deed.toList ++ log) = arrivals cfg log := by
    cases deed with
    | none => rfl
    | some x => exact List.filterMap_cons_none (hdeed x rfl)
  constructor
  · exact hqueued
  · exact hcarried
  · rw [hsame]
    exact h.arrived
  · rw [hsame]
    exact fun fp n hlookup => h.entries fp n (hentries fp n hlookup)
  · rw [hsame]
    exact h.only

/-- **What is dropped has a duplicate**: the one whose passing the table
has. -/
theorem Sifted.exists_duplicate (h : Sifted cfg s log) {sig : WebhookSignal} {now : ℕ}
    (hsig : sig.HandedOn) (hdisc : Discernible cfg s.shared (arrivals cfg log) sig now)
    (hhash : ∀ b ∈ arrivals cfg log, sig.fingerprint cfg.hash = b.sig.fingerprint cfg.hash →
      sig.SameFields b.sig)
    (hdrop : (s.shared.recent.admits now (sig.fingerprint cfg.hash)).1 = false) :
    ∃ b ∈ arrivals cfg log, now ≤ b.time + Fingerprints.ttl ∧ sig.Duplicate b.sig := by
  obtain ⟨n, hlookup, hlarge⟩ := Fingerprints.exists_of_not_admits hdrop
  have hyoung : now ≤ n + Fingerprints.ttl := (hdisc.1 n hlookup).elim hlarge id
  obtain ⟨b, hb, rfl, hfp⟩ := h.entries _ n hlookup
  have hsame := hhash b hb hfp.symm
  exact ⟨b, hb, hyoung, hsame.duplicate hsig (h.arrived b hb) (hdisc.2 b hb hyoung hsame)⟩

/-- **A check of a signal that can be discerned.** -/
theorem Sifted.check (h : Sifted cfg s log) {i : ℕ} {q : Queued} {now : ℕ} {w' : Worker}
    {d' : Desk} (hw : s.jobs[i]? = some (.check q now))
    (hmove : Worker.Move cfg s.shared (.check q now) w' d')
    (hdisc : q.sig.isStale now = false →
      Discernible cfg s.shared (arrivals cfg log) q.sig now) :
    Sifted cfg ⟨d', s.jobs.set i w'⟩ (.checked q now s.shared :: log) := by
  obtain ⟨hqueue, hcarries⟩ := hmove.carries
  have hsig : q.sig.HandedOn := h.carried i _ hw q rfl
  have hqueued : ∀ q' ∈ d'.queue, q'.sig.HandedOn := fun q' hq' => h.queued q' (hqueue q' hq')
  have hcarried : ∀ (k : ℕ) (w : Worker), (s.jobs.set i w')[k]? = some w →
      ∀ q' ∈ w.carries, q'.sig.HandedOn := by
    refine Threads.forall_set (fun q' hq' => ?_) fun k other _ hk => h.carried k other hk
    rcases hcarries q' hq' with hold | hnew
    · exact h.carried i _ hw q' hold
    · exact h.queued q' hnew
  by_cases hstale : q.sig.isStale now = true
  · have hnone : ∀ x ∈ some (Deed.checked q now s.shared), x.arrival cfg = none := by
      rintro x ⟨⟩
      exact if_pos hstale
    have hrecent : d' = s.shared := by
      cases hmove with
      | stale => rfl
      | duplicate hfresh | pass hfresh =>
          rw [hfresh] at hstale
          cases hstale
    refine h.quiet hnone hqueued hcarried fun fp n hlookup => ?_
    rw [← hrecent]
    exact hlookup
  · rw [Bool.not_eq_true] at hstale
    have hrecent : d'.recent = (s.shared.recent.admits now (q.sig.fingerprint cfg.hash)).2 := by
      cases hmove with
      | stale hold =>
          rw [hstale] at hold
          cases hold
      | duplicate | pass => rfl
    have hcons : arrivals cfg (.checked q now s.shared :: log) =
        ⟨q.sig, now, (s.shared.recent.admits now (q.sig.fingerprint cfg.hash)).1⟩ ::
          arrivals cfg log := by
      rw [arrivals, List.filterMap_cons, Deed.arrival, hstale]
      rfl
    refine ⟨hqueued, hcarried, ?_, fun fp n hlookup => ?_, fun hhash => ?_⟩ <;> rw [hcons] at *
    · exact List.forall_mem_cons.2 ⟨hsig, h.arrived⟩
    · rw [hrecent] at hlookup
      rcases Fingerprints.of_lookup_admits hlookup with hold | ⟨rfl, rfl⟩
      · obtain ⟨a, ha, heq⟩ := h.entries fp n hold
        exact ⟨a, List.mem_cons_of_mem _ ha, heq⟩
      · exact ⟨_, List.mem_cons_self, rfl, rfl⟩
    · have hbefore := h.only fun a ha b hb =>
        hhash a (List.mem_cons_of_mem _ ha) b (List.mem_cons_of_mem _ hb)
      exact hbefore.cons fun hdrop => h.exists_duplicate hsig (hdisc hstale)
        (fun b hb => hhash _ List.mem_cons_self b (List.mem_cons_of_mem _ hb)) hdrop

/-- **Every step keeps the invariant of the suppression.** -/
theorem Sifted.next (h : Sifted cfg s log) (hguard : Discerned cfg parse (s, log) l)
    (hmove : Move cfg s s' (Floor.deed cfg parse s l)) :
    Sifted cfg s' ((Floor.deed cfg parse s l).toList ++ log) := by
  unfold Discerned at hguard
  have hread : ∀ n sig, Floor.deed cfg parse s l = some (.accepted n (some sig)) →
      sig.HandedOn := fun n sig => handedOn_of_deed
  generalize Floor.deed cfg parse s l = deed at *
  cases hmove with
  | start hstart =>
      obtain ⟨job, rfl⟩ := Worker.exists_of_canStart hstart
      refine h.quiet (fun x hx => (Option.not_mem_none x hx).elim) h.queued ?_ fun _ _ hn => hn
      exact Threads.forall_append (fun q hq => (Option.not_mem_none q hq).elim) h.carried
  | work i hw hstep =>
      rename_i w w' d'
      by_cases hcheck : ∃ q now, w = .check q now
      · obtain ⟨q, now, rfl⟩ := hcheck
        exact h.check hw hstep hguard
      · have hother : ∀ q now, w ≠ .check q now := fun q now hq => hcheck ⟨q, now, hq⟩
        obtain ⟨hqueue, hcarries⟩ := hstep.carries
        refine h.quiet (fun x hx => ?_) (fun q hq => h.queued q (hqueue q hq)) ?_ ?_
        · rcases Worker.deed_cases hx with ⟨q, -, -, rfl⟩ | ⟨q, now, hq, -⟩ | ⟨t, job, -, -, rfl⟩
          · rfl
          · exact (hother q now hq).elim
          · rfl
        · refine Threads.forall_set (fun q hq => ?_) fun k other _ hk => h.carried k other hk
          rcases hcarries q hq with hold | hnew
          · exact h.carried i w hw q hold
          · exact h.queued q hnew
        · intro fp n hlookup
          rw [← hstep.recent hother]
          exact hlookup
  | event hevent =>
      cases hevent with
      | accept sig rd =>
          refine h.quiet (fun x hx => ?_) (fun q hq => ?_) h.carried fun fp n hlookup => hlookup
          · cases hx
            rfl
          · rcases Desk.queue_onSignal sig rd s.shared with ⟨-, hqueue⟩ | ⟨-, hqueue⟩
            · exact h.queued q (hqueue ▸ hq)
            · rw [hqueue, List.mem_append, List.mem_singleton] at hq
              rcases hq with hold | rfl
              · exact h.queued q hold
              · exact hread _ sig rfl
      | refuse | engine | markLive | tick | stop =>
          exact h.quiet (fun x hx => (Option.not_mem_none x hx).elim) h.queued h.carried
            fun _ _ hn => hn
      | clear =>
          refine h.quiet (fun x hx => ?_) h.queued h.carried fun fp n hlookup => ?_
          · cases hx
            rfl
          · cases hlookup

end Floor

/-! ## A buy and what comes a second later -/

namespace BuyAgain

open FloorRun

/-- A sell of bitcoin in the generic format. -/
def sell : Json :=
  .obj [("action", .str "sell"), ("symbol", .str "BTCUSDT"), ("price", .int 50)]

/-- Two requests: a body of one is the sell, any other the buy. -/
def parse (body : Text) : Option Json := some (if body = [1] then sell else buy "BTCUSDT")

/-- The buy comes, and a second later another request; each has a worker of
its own. -/
def labels (n : UInt8) : List FloorLabel :=
  request 0 {} :: works 0 6 ++ seconds 1 ++ request n {} :: works 1 6

/-- The signal of an action, when it has arrived. -/
def signal (action : String) (receivedAt : ℕ) : WebhookSignal where
  symbol := "BTCUSDT"
  action
  tradeSide := "open"
  sigType := .entry
  price := 50
  receivedAt

/-- What arrives: the second signal is dropped. -/
def both (action : String) : List Arrival :=
  [⟨signal action (10 ^ 9), 10 ^ 9, false⟩, ⟨signal "buy" 0, 0, true⟩]

theorem arrivals_sell :
    arrivals (shadow 2) (after (shadow 2) parse ∅ (labels 1)).2 = both "sell" := by
  decide +kernel

theorem collisionFree_both : CollisionFree (shadow 2) (both "sell") := by decide +kernel

end BuyAgain

open BuyAgain in
/-- **A sell is dropped for a buy** of the same symbol a second before. -/
theorem sell_dropped_for_buy :
    ¬ ∀ (cfg : DeskConfig) (parse : Text → Option Json) (t : Floor × List Deed),
      (loggedFloor cfg parse).Reachable System.anyStep t →
      CollisionFree cfg (arrivals cfg t.2) → OnlyDuplicates (arrivals cfg t.2) := by
  intro h
  have hreach : (loggedFloor (FloorRun.shadow 2) parse).Reachable System.anyStep
      (FloorRun.after (FloorRun.shadow 2) parse ∅ (labels 1)) :=
    FloorRun.reachable_after (by decide +kernel)
  have hrun := h (FloorRun.shadow 2) parse _ hreach
  rw [arrivals_sell] at hrun
  obtain ⟨b, hb, -, hdup⟩ := hrun collisionFree_both _ _ List.suffix_rfl rfl
  obtain rfl := List.mem_singleton.1 hb
  exact absurd hdup (by decide +kernel)

/-- **Only duplicates are dropped** in every run in which the check can
discern the signals, of either format. -/
theorem only_duplicates_dropped {cfg : DeskConfig} {parse : Text → Option Json}
    {t : Floor × List Deed} (h : (loggedFloor cfg parse).Reachable (Discerned cfg parse) t)
    (hhash : CollisionFree cfg (arrivals cfg t.2)) : OnlyDuplicates (arrivals cfg t.2) :=
  (Floor.log_invariant (I := Floor.Sifted cfg) (fun _ hs => Floor.sifted_of_init hs)
    (fun _ _ _ hI hguard hmove => hI.next hguard hmove) h).only hhash

open BuyAgain in
theorem only_duplicates_dropped_buy :
    ∃ t : Floor × List Deed, arrivals (FloorRun.shadow 2) t.2 = both "buy" ∧
      OnlyDuplicates (arrivals (FloorRun.shadow 2) t.2) := by
  obtain ⟨t, hrun, harrivals⟩ := System.exists_run_of_play
    (M := loggedFloor (FloorRun.shadow 2) parse) (G := Discerned (FloorRun.shadow 2) parse)
    (s := FloorRun.start (FloorRun.shadow 2) ∅) (labels 0)
    (P := fun t : Floor × List Deed => arrivals (FloorRun.shadow 2) t.2 = both "buy")
    (by decide +kernel)
  refine ⟨t, harrivals, only_duplicates_dropped
    ⟨_, FloorRun.start_init (FloorRun.shadow 2) parse ∅, hrun⟩ ?_⟩
  rw [harrivals]
  decide +kernel

end WebhookTrader
