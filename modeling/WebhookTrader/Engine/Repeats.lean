import WebhookTrader.Engine.Duplicates

/-!
# When duplicates pass

A signal passes twice within two minutes in three ways: the daily reset
clears the table in between, fifty thousand other signals make it too
large, or the worker that let the first one pass had read its clock long
before.
-/

namespace WebhookTrader

namespace Fingerprints

variable {recent : Fingerprints} {now n : ℕ} {fp : UInt64}

/-! ## Filling the table -/

/-- Where the table is small, or nothing in it is old, the first rule
evicts nothing. -/
theorem evict_of_young (h : recent.size ≤ 100 ∨ ∀ e ∈ recent.entries, now ≤ e.2 + ttl) :
    evict now recent = recent := by
  unfold evict
  split_ifs with hsize
  · have hyoung := h.resolve_left (not_le.2 hsize)
    have hnone : (recent.entries.filter fun e => ttl < now - e.2) = [] := by
      rw [List.filter_eq_nil_iff]
      intro e he
      have := hyoung e he
      simp only [decide_eq_true_eq]
      omega
    rw [hnone]
    rfl
  · rfl

/-- What is old goes, where the table is not small. -/
theorem lookup_evict_of_old (hsize : 100 < recent.size) (hlookup : recent.lookup fp = some n)
    (hold : n + ttl < now) : (evict now recent).lookup fp = none := by
  rw [evict, if_pos hsize, Table.lookup_foldl_erase, if_pos]
  refine List.mem_map.2 ⟨⟨fp, n⟩, List.mem_filter.2 ⟨AList.mem_lookup_iff.1 hlookup, ?_⟩, rfl⟩
  simp only [decide_eq_true_eq]
  omega

theorem size_foldl_erase_le (keys : List UInt64) (t : Fingerprints) :
    (keys.foldl (fun t k => t.erase k) t).size ≤ t.size := by
  induction keys generalizing t with
  | nil => exact le_rfl
  | cons k keys ih => exact (ih (t.erase k)).trans (List.kerase_sublist k t.entries).length_le

theorem size_evict_le : (evict now recent).size ≤ recent.size := by
  unfold evict
  split_ifs
  · exact size_foldl_erase_le _ recent
  · exact le_rfl

theorem overflows_of_size_le (h : recent.size ≤ 50000) : overflows now recent = false := by
  rw [overflows, decide_eq_false_iff_not, not_lt]
  exact size_evict_le.trans h

/-- **A table that is filled**: the first fingerprint of a list with its
time, and so many others with a later one. -/
structure Filled (fps : ℕ → UInt64) (first now n : ℕ) (recent : Fingerprints) : Prop where
  head : recent.lookup (fps 0) = some first
  size : recent.size = n + 1
  keys : ∀ e ∈ recent.entries, ∃ m ≤ n, e.1 = fps m
  times : ∀ e ∈ recent.entries, e.2 = first ∨ e.2 = now

variable {fps : ℕ → UInt64} {first : ℕ}

theorem Filled.of_empty : Filled fps first now 0 ((∅ : Fingerprints).insert (fps 0) first) where
  head := AList.lookup_insert _
  size := rfl
  keys e he := by
    rcases Table.mem_insert.1 he with rfl | ⟨-, hold⟩
    · exact ⟨0, le_rfl, rfl⟩
    · cases hold
  times e he := by
    rcases Table.mem_insert.1 he with rfl | ⟨-, hold⟩
    · exact .inl rfl
    · cases hold

/-- Nothing is evicted from it, as long as it is small or has one time. -/
theorem Filled.evict_eq (h : Filled fps first now n recent) (hyoung : n < 100 ∨ first = now) :
    evict now recent = recent := by
  refine evict_of_young (hyoung.imp (fun hsmall => ?_) fun hsame e he => ?_)
  · rw [h.size]
    exact hsmall
  · have htime : e.2 = now := by
      rcases h.times e he with hfirst | hnow
      · exact hfirst.trans hsame
      · exact hnow
    omega

/-- **The next fingerprint passes**, and the table is filled further. -/
theorem Filled.next (h : Filled fps first now n recent) (hyoung : n < 100 ∨ first = now)
    (hroom : n < 50000) (hnew : ∀ m ≤ n, fps (n + 1) ≠ fps m) :
    overflows now recent = false ∧ Filled fps first now (n + 1) (recent.admits now (fps (n + 1))).2
      := by
  have hkept : overflows now recent = false := overflows_of_size_le (h.size ▸ hroom)
  -- every key of the table is one of the fingerprints before
  have hnone : recent.lookup (fps (n + 1)) = none := by
    rw [Option.eq_none_iff_forall_ne_some]
    intro v hv
    obtain ⟨m, hm, heq⟩ := h.keys _ (AList.mem_lookup_iff.1 hv)
    exact hnew m hm heq
  have hnext : (recent.admits now (fps (n + 1))).2 = recent.insert (fps (n + 1)) now := by
    rw [admits, pruned, hkept, if_neg Bool.false_ne_true, h.evict_eq hyoung, hnone]
    rfl
  rw [hnext]
  refine ⟨hkept, ?_, ?_, fun e he => ?_, fun e he => ?_⟩
  · rw [AList.lookup_insert_ne (hnew 0 (Nat.zero_le n)).symm]
    exact h.head
  · rw [Table.size, AList.entries_insert_of_notMem (AList.lookup_eq_none.1 hnone), List.length_cons]
    exact congrArg (· + 1) h.size
  · rcases Table.mem_insert.1 he with rfl | ⟨-, hold⟩
    · exact ⟨n + 1, le_rfl, rfl⟩
    · obtain ⟨m, hm, heq⟩ := h.keys e hold
      exact ⟨m, hm.trans (Nat.le_succ n), heq⟩
  · rcases Table.mem_insert.1 he with rfl | ⟨-, hold⟩
    · exact .inr rfl
    · exact h.times e hold

/-- **Too large a table lets the first fingerprint pass again.** -/
theorem Filled.admits_of_overflow (h : Filled fps now now 50000 recent) :
    overflows now recent = true ∧ (recent.admits now (fps 0)).1 = true := by
  have hover : overflows now recent = true := by
    rw [overflows, h.evict_eq (.inr rfl), h.size]
    rfl
  refine ⟨hover, ?_⟩
  rw [admits, pruned, hover, if_pos rfl]
  rfl

/-- **So does one that is not small**, where the first fingerprint is old. -/
theorem Filled.admits_of_old (h : Filled fps first now 100 recent) (hold : first + ttl < now) :
    overflows now recent = false ∧ (recent.admits now (fps 0)).1 = true := by
  have hkept : overflows now recent = false := overflows_of_size_le (h.size ▸ by norm_num)
  refine ⟨hkept, ?_⟩
  have hnone : (evict now recent).lookup (fps 0) = none :=
    lookup_evict_of_old (h.size ▸ by norm_num) h.head hold
  rw [admits, pruned, hkept, if_neg Bool.false_ne_true, hnone]
  rfl

end Fingerprints

/-! ## Two workers -/

/-- **A signal passes twice within two minutes**, with nothing that clears
the table in between; the second check finds it too large, or not. -/
def Repeats (cfg : DeskConfig) (overflow : Bool) (log : List Deed) : Prop :=
  ∃ (later between earlier : List Deed) (q₁ q₂ : Queued) (now₁ now₂ : ℕ) (d₁ d₂ : Desk),
    log = later ++ .checked q₂ now₂ d₂ :: (between ++ .checked q₁ now₁ d₁ :: earlier) ∧
    (Deed.checked q₁ now₁ d₁).passes cfg = true ∧ (Deed.checked q₂ now₂ d₂).passes cfg = true ∧
    q₁.sig.fingerprint cfg.hash = q₂.sig.fingerprint cfg.hash ∧
    d₁.now ≤ d₂.now ∧ d₂.now ≤ d₁.now + Fingerprints.ttl ∧
    (∀ deed ∈ between, deed.clears = false) ∧ d₂.recent.overflows now₂ = overflow

namespace RepeatRun

open FloorRun

/-- Two workers, and a whitelist without bitcoin. -/
def cfg : DeskConfig := { shadow 2 with allowedSymbols := ["ETHUSDT"] }

/-- A stop-loss on bitcoin, whose timeframe is as long as a body. -/
def stop (body : Text) : Json :=
  .obj [("alert", .str "SL"), ("ticker", .str "BTCUSDT.P"), ("close", .int 50),
    ("timeframe", .str (String.ofList (body.map fun _ => '1')))]

def parse (body : Text) : Option Json := some (stop body)

/-- A body so long. -/
def body (n : ℕ) : Text := List.replicate n 0

/-- The timeframe of the stop-loss in a body so long. -/
def timeframe (n : ℕ) : String := String.ofList ((body n).map fun _ => '1')

/-- What is read of it. -/
def read (n now : ℕ) : WebhookSignal where
  algorithm := "SFX"
  ticker := "BTCUSDT.P"
  currency := "USDT"
  type := "crypto"
  symbol := "BTCUSDT"
  timeframe := timeframe n
  alert := "SL"
  price := 50
  sigType := .sl
  tradeSide := "close"
  priority := WebhookSignal.calcPriority (timeframe n)
  receivedAt := now

/-! ### The stop-losses -/

theorem detectExchangeMarket_stop {sig : WebhookSignal} (hticker : sig.ticker = "BTCUSDT.P")
    (hfull : sig.tickerFull = "") :
    sig.detectExchangeMarket = { sig with exchange := "bitget", marketType := "futures" } := by
  have hupper : WebhookSignal.toUpper "" = "" := by decide +kernel
  have hupbit : WebhookSignal.hasInfix "UPBIT" "" = false := by decide +kernel
  have hbitget : WebhookSignal.hasInfix "BITGET" "" = false := by decide +kernel
  have hbinance : WebhookSignal.hasInfix "BINANCE" "" = false := by decide +kernel
  have hsuffix : WebhookSignal.hasSuffix ".P" "BTCUSDT.P" = true := by decide +kernel
  simp [WebhookSignal.detectExchangeMarket, hticker, hfull, hupper, hupbit, hbitget, hbinance,
    hsuffix]

theorem classify_stop {sig : WebhookSignal} (halert : sig.alert = "SL")
    (hdirection : sig.signalDirection = "") :
    sig.classify = { sig with sigType := .sl, tradeSide := "close" } := by
  have hupper : WebhookSignal.toUpper "SL" = "SL" := by decide +kernel
  simp [WebhookSignal.classify, halert, hdirection, hupper]

/-- **The reading of a stop-loss.** -/
theorem fromJson_body (n now : ℕ) :
    WebhookSignal.fromJson parse now (body n) = .ok (some (read n now)) := by
  have hsome : (body n).attempts.findSome? parse = some (stop (body n)) := rfl
  have hsymbol : WebhookSignal.normalizeSymbol "BTCUSDT.P" = "BTCUSDT" := by decide +kernel
  have hread : WebhookSignal.parseSfx (stop (body n)) { receivedAt := now } =
      .ok (some (WebhookSignal.classify
        { WebhookSignal.detectExchangeMarket
            { algorithm := "SFX", ticker := "BTCUSDT.P", currency := "USDT", alert := "SL",
              timeframe := timeframe n, type := "crypto", receivedAt := now,
              priority := WebhookSignal.calcPriority (timeframe n) } with
          symbol := WebhookSignal.normalizeSymbol "BTCUSDT.P"
          price := 50
          entryPrice := 0, tp1 := 0, tp2 := 0, tp3 := 0, sl := 0
          token := "", strategyName := "unknown" })) := rfl
  rw [WebhookSignal.fromJson, hsome]
  dsimp only
  rw [if_pos (by rfl), hread, detectExchangeMarket_stop rfl rfl, classify_stop rfl rfl, hsymbol]
  rfl

/-- Their fingerprints. -/
def fp (n : ℕ) : UInt64 := (read n 0).fingerprint cfg.hash

theorem hashCombine_inj {h v v' : UInt64} (heq : WebhookSignal.hashCombine h v =
    WebhookSignal.hashCombine h v') : v = v' := by
  unfold WebhookSignal.hashCombine at heq
  have hsum := (UInt64.xor_right_inj h).1 heq
  simpa only [UInt64.add_left_inj] using hsum

theorem hash_timeframe (n : ℕ) : cfg.hash (timeframe n) = .ofNat n := by
  simp [cfg, shadow, timeframe, body]

/-- **Bodies of different lengths have different fingerprints.** -/
theorem fp_ne {m n : ℕ} (hm : m < 2 ^ 64) (hn : n < 2 ^ 64) (hne : n ≠ m) : fp n ≠ fp m := by
  intro heq
  have hhash : cfg.hash (timeframe n) = cfg.hash (timeframe m) := hashCombine_inj heq
  rw [hash_timeframe, hash_timeframe] at hhash
  have hnat := congrArg UInt64.toNat hhash
  rw [UInt64.toNat_ofNat_of_lt' hn, UInt64.toNat_ofNat_of_lt' hm] at hnat
  exact hne hnat

theorem isValid_read (n now : ℕ) : (read n now).isValid = true := by
  have hprice : ¬ (read n now).price ≤ 0 := not_le.2 (by norm_num [read])
  rw [WebhookSignal.isValid, if_neg (by simp [read]), if_neg hprice]
  rfl

theorem isStale_read (n now : ℕ) : (read n now).isStale now = false := by
  simp [WebhookSignal.isStale, WebhookSignal.ageMs, read]

def stopRequest (n : ℕ) : Request := ⟨.post, "/webhook", body n⟩

/-- **The stop-loss is accepted.** -/
theorem answer_stopRequest (n now : ℕ) :
    Server.answer cfg.front parse now true (stopRequest n) =
      .ok (Server.accepted, some (read n now)) := by
  have htoken : cfg.front.authToken = "" := rfl
  have hpush : (tryPush queueCapacity [] (read n now)).2 = [read n now] :=
    tryPush_of_room (by decide)
  simp [Server.answer, Server.handleRequest, stopRequest, fromJson_body, isValid_read, htoken,
    hpush, Server.accepted]

/-! ### The runs -/

/-- **The queue is empty**, where the workers are, and what the table
holds. -/
structure Quiet (jobs : List Worker) (now : ℕ) (recent : Fingerprints) (t : Floor × List Deed) :
    Prop where
  reachable : (loggedFloor cfg parse).Reachable System.anyStep t
  workers : t.1.jobs = jobs
  queue : t.1.shared.queue = []
  running : t.1.shared.running = true
  now : t.1.shared.now = now
  recent : t.1.shared.recent = recent

/-- What a log has on top of another clears nothing. -/
def Extends (log' log : List Deed) : Prop :=
  ∃ between, log' = between ++ log ∧ ∀ deed ∈ between, deed.clears = false

variable {jobs : List Worker} {w w' : Worker} {d d' : Desk} {t t' : Floor × List Deed}
  {log log' : List Deed} {i n now at₀ : ℕ} {recent : Fingerprints} {q : Queued}

theorem Extends.trans {log'' : List Deed} (h : Extends log' log) (h' : Extends log'' log') :
    Extends log'' log := by
  obtain ⟨between, rfl, hclears⟩ := h
  obtain ⟨between', rfl, hclears'⟩ := h'
  refine ⟨between' ++ between, (List.append_assoc _ _ _).symm, fun deed hmem => ?_⟩
  rcases List.mem_append.1 hmem with hnew | hold
  · exact hclears' deed hnew
  · exact hclears deed hold

/-- A worker's next step. -/
theorem reachable_work (hi : i < jobs.length)
    (h : (loggedFloor cfg parse).Reachable System.anyStep (⟨d, jobs.set i w⟩, log))
    (hstep : w.step cfg d = some (w', d')) :
    (loggedFloor cfg parse).Reachable System.anyStep
      (⟨d', jobs.set i w'⟩, (w.deed i d).toList ++ log) := by
  have hw : (jobs.set i w)[i]? = some w := List.getElem?_set_self hi
  have hnext : (floorSystem cfg parse).next ⟨d, jobs.set i w⟩ (.work i) =
      some ⟨d', jobs.set i w'⟩ := by
    simp only [floorSystem, Threads.next, hw, hstep, Option.map_some, List.set_set]
  have hdeed : Floor.deed cfg parse ⟨d, jobs.set i w⟩ (.work i) = w.deed i d := by
    rw [Floor.deed, hw]
    rfl
  exact h.run (System.Run.refl.tail trivial (System.next_logged.2 ⟨hnext, hdeed ▸ rfl⟩))

/-- **A stop-loss comes, and a worker takes it** as far as the check. -/
theorem Quiet.take (jobs : List Worker) (i : ℕ) (h : Quiet (jobs.set i .idle) now recent t)
    (hi : i < jobs.length) (n : ℕ) :
    ∃ t' q, Quiet (jobs.set i (.check q now)) now recent t' ∧ q.sig = read n now ∧
      Extends t'.2 t.2 := by
  obtain ⟨⟨d, _⟩, log⟩ := t
  obtain ⟨hreach, rfl, hqueue, hrunning, rfl, rfl⟩ := h
  dsimp only at hqueue hrunning hreach ⊢
  let q : Queued := ⟨d.tickets, read n d.now, {}⟩
  have hpushed : d.onSignal (read n d.now) {} = { d with queue := [q], tickets := d.tickets + 1 } :=
    congrArg (fun queue : List Queued => { d with queue, tickets := d.tickets + 1 }) (by
      rw [hqueue]
      exact tryPush_of_room (by decide))
  have hnext : (loggedFloor cfg parse).next (⟨d, jobs.set i .idle⟩, log)
      (.event (.request true (stopRequest n) {})) =
        some (⟨{ d with queue := [q], tickets := d.tickets + 1 }, jobs.set i .idle⟩,
          .accepted d.tickets (some (read n d.now)) :: log) := by
    refine System.next_logged.2 ⟨?_, ?_⟩
    · simp only [floorSystem, Threads.next, DeskEvent.apply, answer_stopRequest, hpushed]
      rfl
    · simp only [Floor.deed, answer_stopRequest]
      rfl
  have hreach₁ := hreach.run (System.Run.refl.tail trivial hnext)
  have hwake : Worker.idle.step cfg { d with queue := [q], tickets := d.tickets + 1 } =
      some (.waiting, { d with queue := [q], tickets := d.tickets + 1 }) := by
    rw [Worker.step, if_pos hrunning]
  -- the worker wakes, pops the signal, reads its clock and asks both trackers
  have hreach₂ := reachable_work hi hreach₁ hwake
  have hreach₃ := reachable_work hi hreach₂ rfl
  have hreach₄ := reachable_work hi hreach₃ rfl
  have hreach₅ := reachable_work hi hreach₄ rfl
  have hreach₆ := reachable_work hi hreach₅ rfl
  refine ⟨_, q, ⟨hreach₆, rfl, rfl, hrunning, rfl, rfl⟩, rfl, [_, _], rfl, ?_⟩
  simp [Deed.clears]

/-- The stop-loss passes where its fingerprint does. -/
theorem passes_read (hq : q.sig = read n at₀) :
    (Deed.checked q at₀ d).passes cfg = (d.recent.admits at₀ (fp n)).1 := by
  rw [Deed.passes, hq, isStale_read]
  rfl

/-- **The check**, after which the worker is idle. -/
theorem Quiet.check (jobs : List Worker) (i : ℕ)
    (h : Quiet (jobs.set i (.check q at₀)) now recent t) (hi : i < jobs.length)
    (hq : q.sig = read n at₀) :
    ∃ t', Quiet (jobs.set i .idle) now (recent.admits at₀ (fp n)).2 t' ∧
      t'.2 = .checked q at₀ t.1.shared :: t.2 := by
  obtain ⟨⟨d, _⟩, log⟩ := t
  obtain ⟨hreach, rfl, hqueue, hrunning, rfl, rfl⟩ := h
  have hroute : Worker.route cfg q = .idle := by
    have hunlisted : Worker.isUnlisted cfg (read n at₀) = true := rfl
    rw [Worker.route, hq, if_neg (by simp [isValid_read]), if_pos hunlisted]
  have hstep : (Worker.check q at₀).step cfg d =
      some (.idle, { d with recent := (d.recent.admits at₀ (fp n)).2 }) := by
    rw [Worker.step, hroute, hq, if_neg (by simp [isStale_read])]
    dsimp only
    rw [ite_self]
    rfl
  exact ⟨_, ⟨reachable_work hi hreach hstep, rfl, hqueue, hrunning, rfl, rfl⟩, rfl⟩

/-- **So many other stop-losses come**, and the first worker lets them
pass. -/
theorem Quiet.fill {k : ℕ} (first : ℕ) (h : Quiet [.idle, w] now recent t)
    (hfilled : recent.Filled fp first now 0) (hk : k ≤ 50000) (hyoung : k ≤ 100 ∨ first = now) :
    ∃ t' recent', Quiet [.idle, w] now recent' t' ∧ recent'.Filled fp first now k ∧
      Extends t'.2 t.2 := by
  induction k with
  | zero => exact ⟨t, recent, h, hfilled, [], rfl, by simp⟩
  | succ k ih =>
      obtain ⟨t₁, recent₁, h₁, hfilled₁, hext₁⟩ := ih (by omega) (hyoung.imp_left (by omega))
      obtain ⟨t₂, q, h₂, hq, hext₂⟩ := h₁.take [.idle, w] 0 (by simp) (k + 1)
      obtain ⟨t₃, h₃, hlog₃⟩ := h₂.check [.idle, w] 0 (by simp) hq
      obtain ⟨hkept, hfilled₃⟩ := hfilled₁.next (hyoung.imp_left (by omega)) (by omega)
        fun m hm => fp_ne (by omega) (by omega) (by omega)
      refine ⟨t₃, _, h₃, hfilled₃, (hext₁.trans hext₂).trans ?_⟩
      refine ⟨[.checked q now t₂.1.shared], hlog₃, fun deed hdeed => ?_⟩
      obtain rfl := List.mem_singleton.1 hdeed
      rw [Deed.clears, h₂.recent, hkept, Bool.and_false]

/-- Time passes. -/
theorem Quiet.tick (h : Quiet jobs now recent t) (ns : ℕ) :
    ∃ t', Quiet jobs (now + ns) recent t' ∧ t'.2 = t.2 := by
  obtain ⟨⟨d, threads⟩, log⟩ := t
  obtain ⟨hreach, rfl, hqueue, hrunning, rfl, rfl⟩ := h
  have hnext : (loggedFloor cfg parse).next (⟨d, threads⟩, log) (.event (.tick ns)) =
      some (⟨{ d with now := d.now + ns }, threads⟩, log) := rfl
  exact ⟨_, ⟨hreach.run (System.Run.refl.tail trivial hnext), rfl, hqueue, hrunning, rfl, rfl⟩, rfl⟩

theorem quiet_start : Quiet [.idle, .idle] 0 ∅ (start cfg ∅) :=
  ⟨⟨_, start_init cfg parse ∅, .refl⟩, rfl, rfl, rfl, rfl, rfl⟩

/-- **Two checks at one moment**, the first on an empty table. -/
theorem Quiet.repeats {t₁ t₂ t₃ t₄ : Floor × List Deed} {jobs₁ jobs₃ : List Worker}
    {q₁ q₂ : Queued} {at₁ at₂ : ℕ} {overflow : Bool} (h₁ : Quiet jobs₁ now ∅ t₁)
    (hq₁ : q₁.sig = read 0 at₁) (hlog₂ : t₂.2 = .checked q₁ at₁ t₁.1.shared :: t₁.2)
    (hext : Extends t₃.2 t₂.2) (h₃ : Quiet jobs₃ now recent t₃) (hq₂ : q₂.sig = read 0 at₂)
    (hpass : recent.overflows at₂ = overflow ∧ (recent.admits at₂ (fp 0)).1 = true)
    (hlog₄ : t₄.2 = .checked q₂ at₂ t₃.1.shared :: t₃.2) : Repeats cfg overflow t₄.2 := by
  obtain ⟨between, hlog₃, hclears⟩ := hext
  obtain ⟨hover, hadmits⟩ := hpass
  have hnow : t₃.1.shared.now = t₁.1.shared.now := h₃.now.trans h₁.now.symm
  refine ⟨[], between, t₁.2, q₁, q₂, at₁, at₂, t₁.1.shared, t₃.1.shared, ?_, ?_, ?_, ?_, hnow.ge,
    ?_, hclears, ?_⟩
  · rw [hlog₄, hlog₃, hlog₂]
    rfl
  · rw [passes_read hq₁, h₁.recent]
    rfl
  · rw [passes_read hq₂, h₃.recent]
    exact hadmits
  · rw [hq₁, hq₂]
    rfl
  · exact hnow.le.trans (Nat.le_add_right _ _)
  · rw [h₃.recent]
    exact hover

end RepeatRun

open RepeatRun

/-- **Fifty thousand signals between two of a kind**: the table is too
large, and both pass. -/
theorem repeats_overflow : ∃ t, (loggedFloor cfg parse).Reachable System.anyStep t ∧
    Repeats cfg true t.2 := by
  obtain ⟨t₁, q₁, h₁, hq₁, -⟩ := quiet_start.take [.idle, .idle] 0 (by simp) 0
  obtain ⟨t₂, h₂, hlog₂⟩ := h₁.check [.idle, .idle] 0 (by simp) hq₁
  obtain ⟨t₃, recent, h₃, hfilled, hext₃⟩ := h₂.fill 0 .of_empty le_rfl (.inr rfl)
  obtain ⟨t₄, q₂, h₄, hq₂, hext₄⟩ := h₃.take [.idle, .idle] 0 (by simp) 0
  obtain ⟨t₅, h₅, hlog₅⟩ := h₄.check [.idle, .idle] 0 (by simp) hq₂
  exact ⟨t₅, h₅.reachable,
    h₁.repeats hq₁ hlog₂ (hext₃.trans hext₄) h₄ hq₂ hfilled.admits_of_overflow hlog₅⟩

/-- **A slow worker lets a signal pass** two minutes after it has read its
clock, and at the same moment another worker lets it pass again. -/
theorem repeats_slow : ∃ t, (loggedFloor cfg parse).Reachable System.anyStep t ∧
    Repeats cfg false t.2 := by
  obtain ⟨t₀, q₁, h₀, hq₁, -⟩ := quiet_start.take [.idle, .idle] 1 (by simp) 0
  obtain ⟨t₁, h₁, -⟩ := h₀.tick (121 * 10 ^ 9)
  obtain ⟨t₂, h₂, hlog₂⟩ := h₁.check [.idle, .idle] 1 (by simp) hq₁
  obtain ⟨t₃, q₂, h₃, hq₂, hext₃⟩ := h₂.take [.idle, .idle] 1 (by simp) 0
  obtain ⟨t₄, recent, h₄, hfilled, hext₄⟩ :=
    h₃.fill (k := 100) 0 .of_empty (by norm_num) (.inl le_rfl)
  obtain ⟨t₅, h₅, hlog₅⟩ := h₄.check [.idle, .idle] 1 (by simp) hq₂
  exact ⟨t₅, h₅.reachable, h₁.repeats hq₁ hlog₂ (hext₃.trans hext₄) h₄ hq₂
    (hfilled.admits_of_old (by norm_num [Fingerprints.ttl])) hlog₅⟩

/-- **Three ways to pass twice within two minutes**: the daily reset, a
table that is too large, and a slow worker. -/
theorem duplicates_repeat :
    ((loggedFloor {} DuplicateRun.parse).Reachable System.anyStep
        (FloorRun.after {} DuplicateRun.parse ∅ DuplicateRun.labels) ∧
      DuplicateRun.passTimes {} DuplicateRun.fp
          (FloorRun.after {} DuplicateRun.parse ∅ DuplicateRun.labels).2 =
        [86400 * 10 ^ 9, 86400 * 10 ^ 9]) ∧
    (∃ t, (loggedFloor cfg parse).Reachable System.anyStep t ∧ Repeats cfg true t.2) ∧
    ∃ t, (loggedFloor cfg parse).Reachable System.anyStep t ∧ Repeats cfg false t.2 :=
  ⟨duplicate_after_reset, repeats_overflow, repeats_slow⟩

end WebhookTrader
