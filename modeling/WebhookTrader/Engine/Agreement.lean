import WebhookTrader.Engine.Steps

/-!
# The book and the exchange

The book keeps a position's quantity as it was asked for, and the exchange
what it was sent: rounded down to the contract's step and raised to its
minimum. The two agree after a handler exactly where the contract sends
what was asked for, or, at a full close, at least that much.
-/

namespace WebhookTrader

/-! ## Agreement -/

/-- **The book and the exchange agree**: every position has the exchange's
quantity, and a side of a symbol is missing from the book exactly where
the exchange holds nothing of it. -/
structure Agree (book : Book) (venue : Venue) : Prop where
  quantity : ∀ e ∈ book.entries, ∀ side : HoldSide, e.2.side = side.text →
    e.2.quantity = venue.quantity e.2.symbol side
  absent : ∀ symbol (side : HoldSide),
    (∀ e ∈ book.entries, e.2.tag ≠ (symbol, side.text)) ↔ venue.quantity symbol side = 0

/-- The order of the book: one entry for a symbol and side, each a real
position on one of the two sides, under a key of its symbol. -/
structure Book.Tidy (book : Book) : Prop where
  unique : book.UniqueBy ManagedPosition.tag
  side : ∀ e ∈ book.entries, ∃ side : HoldSide, e.2.side = side.text
  real : ∀ e ∈ book.entries, e.2.isReal = true
  key : ∀ e ∈ book.entries, ∀ symbol timeframe oid, e.1 = .entry symbol timeframe oid →
    symbol = e.2.symbol

/-- The exchange never holds less than nothing. -/
def Venue.Solvent (venue : Venue) : Prop := ∀ symbol side, 0 ≤ venue.quantity symbol side

theorem Venue.Solvent.hold {venue : Venue} (h : venue.Solvent) {symbol : String} {side : HoldSide}
    {q : ℚ} (hq : 0 ≤ q) : (venue.hold symbol side q).Solvent := by
  intro symbol' side'
  rw [Venue.quantity_hold]
  split
  · exact hq
  · exact h symbol' side'

theorem Venue.Solvent.congr {venue venue' : Venue} (h : venue.Solvent)
    (heq : ∀ symbol side, venue'.quantity symbol side = venue.quantity symbol side) :
    venue'.Solvent := fun symbol side => heq symbol side ▸ h symbol side

namespace Book.Tidy

variable {book : Book} {key : PositionKey}

theorem erase (h : book.Tidy) : Book.Tidy (AList.erase key book) where
  unique := h.unique.erase
  side e he := h.side e (Table.mem_erase.1 he).2
  real e he := h.real e (Table.mem_erase.1 he).2
  key e he := h.key e (Table.mem_erase.1 he).2

theorem modify (h : book.Tidy) {f : ManagedPosition → ManagedPosition}
    (htag : ∀ p, (f p).tag = p.tag) (hreal : ∀ p, (f p).isReal = p.isReal) :
    Book.Tidy (Table.modify key f book) := by
  have hsymbol : ∀ p, (f p).symbol = p.symbol := fun p => (Prod.mk.inj (htag p)).1
  have hside : ∀ p, (f p).side = p.side := fun p => (Prod.mk.inj (htag p)).2
  refine ⟨h.unique.mapValues fun e _ => ?_, fun e he => ?_, fun e he => ?_, fun e he => ?_⟩
  · split <;> simp [htag]
  all_goals
    obtain ⟨e', he', rfl⟩ := Table.mem_modify.1 he
    by_cases hkey : e'.1 = key <;> simp only [hkey, if_true, if_false, hsymbol, hside, hreal]
  exacts [h.side e' he', h.side e' he', h.real e' he', h.real e' he',
    fun symbol timeframe oid heq => h.key e' he' symbol timeframe oid (hkey.trans heq),
    h.key e' he']

theorem reduceQuantity (h : book.Tidy) {amount : ℚ} : (book.reduceQuantity key amount).Tidy := by
  unfold Book.reduceQuantity
  split
  · exact h
  · split_ifs
    · exact h.erase
    · exact h.modify (fun _ => rfl) fun _ => rfl

end Book.Tidy

namespace Agree

variable {book book' : Book} {venue : Venue} {key : PositionKey} {pos : ManagedPosition}
  {symbol : String} {side : HoldSide} {q : ℚ}

/-- What is in the book is held. -/
theorem pos_of_mem (h : Agree book venue) (hsolvent : venue.Solvent)
    (hmem : ⟨key, pos⟩ ∈ book.entries) (htag : pos.tag = (symbol, side.text)) :
    pos.quantity = venue.quantity symbol side ∧ 0 < venue.quantity symbol side := by
  obtain ⟨rfl, hside⟩ := Prod.mk.inj htag
  have hne : venue.quantity pos.symbol side ≠ 0 := fun hzero =>
    (h.absent pos.symbol side).2 hzero _ hmem htag
  exact ⟨h.quantity _ hmem side hside, lt_of_le_of_ne (hsolvent _ _) hne.symm⟩

/-- **A change at one symbol and side** keeps the agreement exactly where
the two agree there. -/
theorem change_iff (h : Agree book venue)
    (hbook : ∀ e : Sigma fun _ : PositionKey => ManagedPosition, e.2.tag ≠ (symbol, side.text) →
      (e ∈ book'.entries ↔ e ∈ book.entries)) :
    Agree book' (venue.hold symbol side q) ↔
      (∀ e ∈ book'.entries, e.2.tag = (symbol, side.text) → e.2.quantity = q) ∧
        ((∀ e ∈ book'.entries, e.2.tag ≠ (symbol, side.text)) ↔ q = 0) := by
  have hhere : (venue.hold symbol side q).quantity symbol side = q := by
    rw [Venue.quantity_hold, if_pos rfl]
  have hthere : ∀ {symbol' side'}, (symbol', HoldSide.text side') ≠ (symbol, side.text) →
      (venue.hold symbol side q).quantity symbol' side' = venue.quantity symbol' side' := by
    intro symbol' side' hne
    rw [Venue.quantity_hold, if_neg]
    rintro heq
    obtain ⟨rfl, rfl⟩ := Prod.mk.inj heq
    exact hne rfl
  constructor
  · intro h'
    refine ⟨fun e he htag => ?_, by rw [← hhere]; exact h'.absent symbol side⟩
    obtain ⟨hsymbol, hside⟩ := Prod.mk.inj htag
    rw [h'.quantity e he side hside, hsymbol, hhere]
  · rintro ⟨hquantity, habsent⟩
    refine ⟨fun e he side' hside' => ?_, fun symbol' side' => ?_⟩
    · by_cases htag : e.2.tag = (symbol, side.text)
      · obtain ⟨hsymbol, hside⟩ := Prod.mk.inj htag
        obtain rfl : side' = side := HoldSide.text_inj.1 (hside'.symm.trans hside)
        rw [hquantity e he htag, hsymbol, hhere]
      · rw [hthere (fun heq => htag (by rw [ManagedPosition.tag, hside', heq]))]
        exact h.quantity e ((hbook e htag).1 he) side' hside'
    · by_cases hsame : (symbol', HoldSide.text side') = (symbol, side.text)
      · obtain ⟨rfl, hside⟩ := Prod.mk.inj hsame
        obtain rfl := HoldSide.text_inj.1 hside
        rw [hhere]
        exact habsent
      · rw [hthere hsame, ← h.absent symbol' side']
        exact forall_congr' fun e => ⟨
          fun hnone he htag => hnone ((hbook e (by rw [htag]; exact hsame)).2 he) htag,
          fun hnone he htag => hnone ((hbook e (by rw [htag]; exact hsame)).1 he) htag⟩

/-- **An opening.** -/
theorem insert_iff (h : Agree book venue)
    (hfree : ∀ e ∈ book.entries, e.2.tag ≠ (symbol, side.text))
    (hkey : ∀ e ∈ book.entries, e.1 ≠ key) (htag : pos.tag = (symbol, side.text)) :
    Agree (book.insert key pos) (venue.hold symbol side q) ↔ pos.quantity = q ∧ q ≠ 0 := by
  rw [change_iff h fun e hne => ?_]
  · refine and_congr ⟨fun hall => hall _ (Table.mem_insert.2 (.inl rfl)) htag, ?_⟩ ?_
    · rintro hq e he hetag
      rcases Table.mem_insert.1 he with rfl | ⟨-, hold⟩
      · exact hq
      · exact absurd hetag (hfree e hold)
    · refine iff_congr (iff_of_false ?_ id) Iff.rfl |>.trans ?_
      · exact fun hnone => hnone _ (Table.mem_insert.2 (.inl rfl)) htag
      · exact ⟨fun hiff hq => hiff.2 hq, fun hne => ⟨False.elim, hne⟩⟩
  · refine Table.mem_insert.trans ⟨?_, fun he => .inr ⟨hkey e he, he⟩⟩
    rintro (rfl | ⟨-, he⟩)
    · exact absurd htag hne
    · exact he

/-- **A close of everything.** -/
theorem erase_iff (h : Agree book venue) (hunique : book.UniqueBy ManagedPosition.tag)
    (hmem : ⟨key, pos⟩ ∈ book.entries) (htag : pos.tag = (symbol, side.text)) :
    Agree (book.erase key) (venue.hold symbol side q) ↔ q = 0 := by
  have hnone : ∀ e ∈ (book.erase key).entries, e.2.tag ≠ (symbol, side.text) := by
    intro e he hetag
    obtain ⟨hne, hold⟩ := Table.mem_erase.1 he
    have heq := hunique.eq hold hmem (hetag.trans htag.symm)
    exact hne (by rw [heq])
  rw [change_iff h fun e hne => ?_]
  · exact ⟨fun hall => hall.2.1 hnone,
      fun hq => ⟨fun e he hetag => absurd hetag (hnone e he), iff_of_true hnone hq⟩⟩
  · refine Table.mem_erase.trans ⟨And.right, fun he => ⟨fun hkey => hne ?_, he⟩⟩
    rw [Table.eq_of_mem he hmem hkey]
    exact htag

/-- **A close of a part.** -/
theorem modify_iff (h : Agree book venue) (hunique : book.UniqueBy ManagedPosition.tag)
    (hmem : ⟨key, pos⟩ ∈ book.entries) (htag : pos.tag = (symbol, side.text))
    {f : ManagedPosition → ManagedPosition} (hf : ∀ p, (f p).tag = p.tag) :
    Agree (book.modify key f) (venue.hold symbol side q) ↔ (f pos).quantity = q ∧ q ≠ 0 := by
  have hnew : (⟨key, f pos⟩ : Sigma fun _ : PositionKey => ManagedPosition) ∈
      (book.modify key f).entries := Table.mem_modify.2 ⟨⟨key, pos⟩, hmem, by simp⟩
  have hnewTag : (f pos).tag = (symbol, side.text) := (hf pos).trans htag
  have honly : ∀ e ∈ (book.modify key f).entries, e.2.tag = (symbol, side.text) →
      e = ⟨key, f pos⟩ := by
    intro e he hetag
    obtain ⟨e', he', rfl⟩ := Table.mem_modify.1 he
    have htag' : e'.2.tag = pos.tag := by
      rw [htag, ← hetag]
      dsimp only
      split <;> simp [hf]
    rw [hunique.eq he' hmem htag']
    simp
  rw [change_iff h fun e hne => ?_]
  · refine and_congr ⟨fun hall => hall _ hnew hnewTag, fun hq e he hetag => ?_⟩ ?_
    · rw [honly e he hetag]
      exact hq
    · exact ⟨fun hiff hq => hiff.2 hq _ hnew hnewTag,
        fun hne => iff_of_false (fun hnone => hnone _ hnew hnewTag) hne⟩
  · refine Table.mem_modify.trans ⟨?_, fun he => ⟨e, he, ?_⟩⟩
    · rintro ⟨e', he', rfl⟩
      by_cases hkey : e'.1 = key
      · refine absurd ?_ hne
        rw [Table.eq_of_mem he' hmem hkey]
        simpa using hnewTag
      · rw [if_neg hkey]
        exact he'
    · rw [if_neg]
      intro hkey
      rw [Table.eq_of_mem he hmem hkey] at hne
      exact hne htag

end Agree

/-- Only the holdings matter. -/
theorem Agree.congr {book : Book} {venue venue' : Venue}
    (h : ∀ symbol side, venue.quantity symbol side = venue'.quantity symbol side) :
    Agree book venue ↔ Agree book venue' := by
  constructor <;> intro hagree
  · exact ⟨fun e he side hside => by rw [← h, hagree.quantity e he side hside],
      fun symbol side => by rw [← h, hagree.absent]⟩
  · exact ⟨fun e he side hside => by rw [h, hagree.quantity e he side hside],
      fun symbol side => by rw [h, hagree.absent]⟩

/-! ## A take-profit -/

namespace CloseJob

variable {cfg : EngineConfig} {sig : WebhookSignal} {rd : Readings} {s t : Shared}

/-- The side a take-profit closes. -/
def closeSide (sig : WebhookSignal) : HoldSide :=
  if sig.signalDirection = "bull" then .long else .short

theorem holdSide_eq {j : CloseJob} : j.holdSide = (closeSide j.sig).text := by
  unfold holdSide closeSide
  split <;> rfl

/-- The order for a share of a position. -/
def shareOrder (cfg : EngineConfig) (sig : WebhookSignal) (pos : ManagedPosition) : OrderBody :=
  closePartial cfg.contracts sig.symbol (pos.quantity * closeRatio sig.tpLevel) (closeSide sig).text

theorem quantity_shareOrder {pos : ManagedPosition} {venue : Venue} (symbol : String)
    (side : HoldSide) :
    (venue.execute (shareOrder cfg sig pos)).quantity symbol side =
      (venue.hold sig.symbol (closeSide sig) (max 0 (venue.quantity sig.symbol (closeSide sig) -
        (shareOrder cfg sig pos).size.value))).quantity symbol side := by
  have hside : HoldSide.ofClose (shareOrder cfg sig pos).side = closeSide sig := by
    unfold shareOrder closePartial closeSide
    dsimp only
    split <;> rfl
  rw [← hside]
  rfl

/-- A take-profit level that closes everything. -/
def IsFull (tpLevel : String) : Prop := tpLevel = "TP3" ∨ 99 / 100 ≤ closeRatio tpLevel

instance {tpLevel : String} : Decidable (IsFull tpLevel) := inferInstanceAs (Decidable (_ ∨ _))

theorem reduces_handleTp {j : CloseJob} : (handleTp cfg).reduces j =
    if IsFull j.sig.tpLevel then none else some j.closeQty := by
  have hiff : j.isFullClose = true ↔ IsFull j.sig.tpLevel := by simp [isFullClose, IsFull]
  simp only [handleTp, hiff]

/-- The book after a share of a position was closed. -/
def closedBook (sig : WebhookSignal) (key : PositionKey) (pos : ManagedPosition) (book : Book) :
    Book :=
  if IsFull sig.tpLevel then book.erase key
  else book.reduceQuantity key (pos.quantity * closeRatio sig.tpLevel)

theorem tidy_closedBook {key : PositionKey} {pos : ManagedPosition} {book : Book}
    (h : book.Tidy) : (closedBook sig key pos book).Tidy := by
  unfold closedBook
  split_ifs
  · exact h.erase
  · exact h.reduceQuantity

/-- **What a take-profit does**, where its requests are accepted and the
position it finds is real: nothing, or a share closed on the exchange and
in the book. -/
inductive Served (cfg : EngineConfig) (sig : WebhookSignal) (s t : Shared) : Prop
  | idle (hmodes : t.modes = s.modes) (hoid : t.nextOid = s.nextOid)
      (hbook : t.positions = s.positions) (hvenue : t.venue = s.venue)
  | closed (hmodes : t.modes = s.modes) (hoid : t.nextOid = s.nextOid) (key : PositionKey)
      (pos : ManagedPosition)
      (hfind : s.positions.findBySymbolSide sig.symbol (closeSide sig).text = some (key, pos))
      (hbook : t.positions = closedBook sig key pos s.positions)
      (hvenue : t.venue = s.venue.execute (shareOrder cfg sig pos))

theorem ends_tp (cfg : EngineConfig) {j : CloseJob} (hpc : j.pc = .lock)
    (hreal : ∀ e ∈ s.positions.entries, e.2.isReal = true)
    (hdelivered : ∀ i, j.rd.attempts i = .delivered) :
    Threads.Ends (step cfg (handleTp cfg))
      (fun j' t => j'.pc = .finished → Served cfg j.sig s t) j s := by
  by_cases hlocked : s.locked.contains j.sig.symbol = true
  -- a lock that is never released is waited for, or given up
  · cases htimeout : j.rd.timedOut with
    | true =>
        have hstep : step cfg (handleTp cfg) j s = some (j.goto .finished, s) := by
          simp only [step, hpc, hlocked, htimeout, if_true]
        exact .step hstep (.done rfl fun _ => .idle rfl rfl rfl rfl)
    | false =>
        have hstep : step cfg (handleTp cfg) j s = none := by
          simp only [step, hpc, hlocked, htimeout, if_true]
          rfl
        refine .done hstep fun hfinished => ?_
        rw [hpc] at hfinished
        cases hfinished
  let locked : Shared := { s with locked := j.sig.symbol :: s.locked }
  have hlock : step cfg (handleTp cfg) j s = some (j.goto .find, locked) := by
    simp only [step, hpc, hlocked]
    rfl
  refine .step hlock ?_
  cases hfind : s.positions.findBySymbolSide j.sig.symbol (closeSide j.sig).text with
  | none =>
      have hnone : step cfg (handleTp cfg) (j.goto .find) locked =
          some (j.goto .unlock, locked) := by
        have hfind' : locked.positions.findBySymbolSide (j.goto .find).sig.symbol
            (holdSide (j.goto .find)) = none := by rw [holdSide_eq]; exact hfind
        simp only [step, hfind']
        rfl
      exact .step hnone (ends_of_unlock rfl fun _ => .idle rfl rfl rfl rfl)
  | some found =>
      obtain ⟨key, pos⟩ := found
      have hlookup : s.positions.lookup key = some pos := (Table.findValue_eq_some hfind).2
      have hpos : pos.isReal = true := hreal ⟨key, pos⟩ (AList.mem_lookup_iff.1 hlookup)
      let held : CloseJob := { j with pc := .isReal, key, quantity := pos.quantity }
      have hfound : step cfg (handleTp cfg) (j.goto .find) locked = some (held, locked) := by
        have hfind' : locked.positions.findBySymbolSide (j.goto .find).sig.symbol
            (holdSide (j.goto .find)) = some (key, pos) := by rw [holdSide_eq]; exact hfind
        simp only [step, hfind']
        rfl
      have hisReal : step cfg (handleTp cfg) held locked =
          some (held.goto (.request 0 false), locked) := by
        have hlookup' : locked.positions.lookup held.key = some pos := hlookup
        simp only [step, held, hlookup', Option.any_some, hpos, if_true]
      have horder : held.partialClose cfg = shareOrder cfg j.sig pos := by
        rw [partialClose, shareOrder, holdSide_eq]
        rfl
      let filled : Shared := { locked with venue := s.venue.execute (shareOrder cfg j.sig pos) }
      let answered : CloseJob := { held with pc := .settle, sent := j.sent + 1 }
      have hrequest : step cfg (handleTp cfg) (held.goto (.request 0 false)) locked =
          some (answered, filled) := by
        have hattempt := attempt_partialClose cfg held (j.rd.attempts j.sent) s.venue
          cfg.duplicateCode
        rw [hdelivered, horder] at hattempt
        have hrequest : (handleTp cfg).request (held.goto (.request 0 false)) =
            .order (shareOrder cfg j.sig pos) := congrArg VenueRequest.order horder
        have hattempt' : locked.venue.attempt cfg.duplicateCode (j.rd.attempts j.sent)
            (.order (shareOrder cfg j.sig pos)) =
            (some Venue.accepted, s.venue.execute (shareOrder cfg j.sig pos)) := by
          rw [hdelivered]
          exact hattempt
        unfold step
        dsimp only [goto]
        erw [hrequest, hattempt']
        rfl
      have hsettle : step cfg (handleTp cfg) answered filled =
          some (answered.goto .unlock, settle (handleTp cfg) answered filled) := rfl
      have hcloses := settle_closes (c := handleTp cfg) (j := answered) (s := filled)
      refine .step hfound (.step hisReal (.step hrequest (.step hsettle (ends_of_unlock rfl
        fun _ => .closed hcloses.modes hcloses.nextOid key pos hfind ?_ hcloses.venue))))
      have hlookup' : filled.positions.lookup key = some pos := hlookup
      change (settle (handleTp cfg) answered filled).positions = _
      rw [settle, hlookup']
      dsimp only
      rw [reduces_handleTp, closedBook]
      split_ifs <;> rfl

end CloseJob

/-! ## An entry -/

namespace EntryJob

variable {cfg : EngineConfig} {j₀ j j' : EntryJob} {s t t' : Shared}

/-- What the sizing, the book and the exchange know is as it was. -/
def Untouched (s t : Shared) : Prop :=
  t.positions = s.positions ∧ t.venue = s.venue ∧ t.balance = s.balance ∧
    t.peakBalance = s.peakBalance

/-- The size is the one computed for the state the run started in. -/
def Sized (cfg : EngineConfig) (j₀ : EntryJob) (s : Shared) (j : EntryJob) : Prop :=
  ∃ leverage, j₀.sized cfg s = some (j.size, leverage)

/-- **An order that may be sent**: sized and positive, for a symbol the book
does not hold, under an id of its own. -/
def Ready (cfg : EngineConfig) (j₀ : EntryJob) (s : Shared) (j : EntryJob) (t : Shared) : Prop :=
  Sized cfg j₀ s j ∧ j.conflicts s.positions = false ∧ 0 < j.size ∧ s.nextOid ≤ j.oid ∧
    j.oid < t.nextOid

/-- The order was filled and registered. -/
def Filled (cfg : EngineConfig) (j₀ : EntryJob) (s : Shared) (j : EntryJob) (t : Shared) : Prop :=
  Ready cfg j₀ s j t ∧ (∃ now, t.positions = s.positions.insert j.key (j.position now true)) ∧
    t.venue = s.venue.execute (j.order cfg)

/-- What holds at each place of an entry that runs alone, with the modes
live and its requests accepted. -/
def Stage (cfg : EngineConfig) (j₀ : EntryJob) (s : Shared) (j : EntryJob) (t : Shared) :
    EntryPc → Prop
  | .checkEntry => Untouched s t ∧ Sized cfg j₀ s j
  | .takeOid => Untouched s t ∧ Sized cfg j₀ s j ∧ j.conflicts s.positions = false
  | .validateBreaker => Untouched s t ∧ Sized cfg j₀ s j ∧ j.conflicts s.positions = false ∧
      s.nextOid ≤ j.oid ∧ j.oid < t.nextOid
  | .validateOrders => Untouched s t ∧ Ready cfg j₀ s j t
  | .validateSymbol => Untouched s t ∧ Ready cfg j₀ s j t
  | .dispatchShadow => Untouched s t ∧ Ready cfg j₀ s j t
  | .dispatchActive => Untouched s t ∧ Ready cfg j₀ s j t
  | .registerPaper => False
  | .placed _ => Untouched s t ∧ Ready cfg j₀ s j t
  | .request _ _ => Untouched s t ∧ Ready cfg j₀ s j t
  | .orderDone _ resp => resp.status = .new ∧ t.positions = s.positions ∧
      t.venue = s.venue.execute (j.order cfg) ∧ Ready cfg j₀ s j t
  | .opened => t.positions = s.positions ∧ t.venue = s.venue.execute (j.order cfg) ∧
      Ready cfg j₀ s j t
  | .registerReal => t.positions = s.positions ∧ t.venue = s.venue.execute (j.order cfg) ∧
      Ready cfg j₀ s j t
  | .unlock => Untouched s t ∨ Filled cfg j₀ s j t
  | .finished => Untouched s t ∨ Filled cfg j₀ s j t
  | _ => Untouched s t

/-- **An entry that runs alone**, from a state. -/
structure Serving (cfg : EngineConfig) (j₀ : EntryJob) (s : Shared) (j : EntryJob) (t : Shared) :
    Prop where
  sig : j.sig = j₀.sig
  rd : j.rd = j₀.rd
  modes : t.modes = s.modes
  nextOid : s.nextOid ≤ t.nextOid
  stage : Stage cfg j₀ s j t j.pc

/-- The size depends on the signal, the readings and what is untouched. -/
theorem sized_congr (hsig : j.sig = j₀.sig) (hrd : j.rd = j₀.rd) (h : Untouched s t) :
    j.sized cfg t = j₀.sized cfg s := by
  obtain ⟨hpositions, -, hbalance, hpeak⟩ := h
  unfold sized sizeMultiplier sizeQuery drawdownPct filter tf slPrice
  rw [hsig, hrd, hpositions, hbalance, hpeak]

/-- Before the sizing a run that goes on has touched nothing. -/
theorem Serving.goto (h : Serving cfg j₀ s j t) (pc : EntryPc) (hstage : Stage cfg j₀ s j t pc) :
    Serving cfg j₀ s (j.goto pc) t :=
  ⟨h.sig, h.rd, h.modes, h.nextOid, by
    cases pc <;> exact hstage⟩

/-- The order adds to the exchange what it is sent. -/
theorem quantity_order (hopen : j.sig.getTradeSide = .open) {v : Venue} (symbol : String)
    (side : HoldSide) :
    (v.execute (j.order cfg)).quantity symbol side =
      (v.hold (symbolChars j.sig.symbol) j.holdSide
        (v.quantity (symbolChars j.sig.symbol) j.holdSide +
          (cfg.contracts.orderSize (symbolChars j.sig.symbol) j.size).value)).quantity
        symbol side := by
  have htrade : (j.order cfg).tradeSide = .open := hopen
  simp only [Venue.execute, htrade]
  rfl

theorem serving_step (hshadow : s.modes.shadowMode = false)
    (hactive : s.modes.autoLiveActive = false) (hdelivered : ∀ i, j₀.rd.attempts i = .delivered)
    (hoids : ∀ oid ∈ s.venue.clientOids, oid < s.nextOid) (h : Serving cfg j₀ s j t)
    (hstep : j.step cfg t = some (j', t')) : Serving cfg j₀ s j' t' := by
  have hstage := h.stage
  cases hpc : j.pc <;> simp only [step, hpc] at hstep <;> rw [hpc] at hstage
  case lock =>
    split_ifs at hstep <;> cases hstep
    · exact h.goto _ (.inl hstage)
    · exact ⟨h.sig, h.rd, h.modes, h.nextOid, .inl hstage⟩
    · exact ⟨h.sig, h.rd, h.modes, h.nextOid, hstage⟩
  case readActive =>
    split_ifs at hstep <;> cases hstep <;> exact h.goto _ hstage
  case readEligible =>
    cases hstep
    exact ⟨h.sig, h.rd, h.modes, h.nextOid, hstage⟩
  case tierGate | tfGate | tp1Shadow | tp1Active | feeGate =>
    split_ifs at hstep <;> cases hstep
    all_goals first
      | exact h.goto .unlock (.inl hstage)
      | exact h.goto _ hstage
  case sizing =>
    split at hstep <;> cases hstep
    · exact h.goto _ (.inl hstage)
    · rename_i size leverage hsized
      refine ⟨h.sig, h.rd, h.modes, h.nextOid, hstage, leverage, ?_⟩
      rw [← sized_congr h.sig h.rd hstage, hsized]
  case checkEntry =>
    split_ifs at hstep with hconflict hallowed <;> cases hstep
    · exact h.goto _ (.inl hstage.1)
    · refine ⟨h.sig, h.rd, h.modes, h.nextOid, hstage.1, hstage.2, ?_⟩
      rw [← hstage.1.1]
      exact Bool.eq_false_iff.2 hconflict
    · exact ⟨h.sig, h.rd, h.modes, h.nextOid, .inl hstage.1⟩
  case takeOid =>
    cases hstep
    exact ⟨h.sig, h.rd, h.modes, h.nextOid.trans (Nat.le_succ _), hstage.1, hstage.2.1, hstage.2.2,
      h.nextOid, Nat.lt_succ_self _⟩
  case validateBreaker =>
    split_ifs at hstep with hvalid <;> cases hstep
    · exact h.goto _ (.inl hstage.1)
    · obtain ⟨huntouched, hsized, hfree, hnew, hold⟩ := hstage
      have hpos : 0 < j.size := by
        simp only [Bool.or_eq_true, not_or, Bool.not_eq_true', Bool.not_eq_false,
          RiskManager.validSize, Bool.and_eq_true, decide_eq_true_eq] at hvalid
        exact hvalid.2.1
      exact h.goto _ ⟨huntouched, hsized, hfree, hpos, hnew, hold⟩
  case validateOrders | validateSymbol =>
    split_ifs at hstep <;> cases hstep
    all_goals first
      | exact h.goto _ hstage
      | exact h.goto .unlock (.inl hstage.1)
  case dispatchShadow =>
    rw [h.modes, hshadow] at hstep
    cases hstep
    exact h.goto _ hstage
  case dispatchActive =>
    rw [h.modes, hactive] at hstep
    cases hstep
    exact h.goto _ hstage
  case registerPaper => exact hstage.elim
  case placed again =>
    cases hstep
    exact ⟨h.sig, h.rd, h.modes, h.nextOid, hstage⟩
  case request again second =>
    obtain ⟨huntouched, hready⟩ := hstage
    have hnew : j.oid ∉ s.venue.clientOids := fun hmem =>
      absurd (hoids _ hmem) (Nat.not_lt.2 hready.2.2.2.1)
    have hattempt : t.venue.attempt cfg.duplicateCode (j.rd.attempts j.sent)
        (.order (j.order cfg)) = (some Venue.accepted, s.venue.execute (j.order cfg)) := by
      rw [h.rd, hdelivered, huntouched.2.1, Venue.attempt, handle_order_of_new hnew]
    rw [hattempt] at hstep
    cases hstep
    exact ⟨h.sig, h.rd, h.modes, h.nextOid, congrArg OrderResponse.status parse_accepted,
      huntouched.1, rfl, hready⟩
  case orderDone again resp =>
    -- and an accepted order is not sent again
    obtain ⟨hstatus, hrest⟩ := hstage
    have hopened : afterOrder again resp = .opened := by simp [afterOrder, hstatus]
    rw [hopened] at hstep
    cases hstep
    exact ⟨h.sig, h.rd, h.modes, h.nextOid, hrest⟩
  case opened =>
    cases hstep
    exact ⟨h.sig, h.rd, h.modes, h.nextOid, hstage⟩
  case registerReal =>
    cases hstep
    obtain ⟨hbook, hvenue, hready⟩ := hstage
    refine ⟨h.sig, h.rd, h.modes, h.nextOid, .inr ⟨hready, ⟨t.clock, ?_⟩, hvenue⟩⟩
    rw [← hbook]
    rfl
  case unlock =>
    cases hstep
    exact ⟨h.sig, h.rd, h.modes, h.nextOid, hstage⟩
  case finished => cases hstep

end EntryJob

/-! ## Handlers one after the other -/

/-- **What holds between two handlers**: the modes are live, the book is
tidy, the ids are used up to the counter, and the book and the exchange
agree. -/
structure Shared.InStep (s : Shared) : Prop where
  shadowMode : s.modes.shadowMode = false
  autoLiveActive : s.modes.autoLiveActive = false
  tidy : s.positions.Tidy
  solvent : s.venue.Solvent
  oids : ∀ oid ∈ s.venue.clientOids, oid < s.nextOid
  agree : Agree s.positions s.venue

/-- **Handlers served one at a time.** A label is a handler with the number
of steps it takes to its end. -/
def serialSystem (cfg : EngineConfig) : System Shared (Job × ℕ) where
  init s := s.InStep
  next s l :=
    if l.1.fresh && (Threads.alone (Job.step cfg) l.2 l.1 s).1.finished then
      some (Threads.alone (Job.step cfg) l.2 l.1 s).2
    else none

/-- An entry or a take-profit with its requests accepted. -/
def InScope : Job → Prop
  | .entry j => ∀ i, j.rd.attempts i = .delivered
  | .tp j => ∀ i, j.rd.attempts i = .delivered
  | _ => False

/-- The order opens what was asked for: it opens, its symbol is not cut,
and the contract sends the very size. -/
def EntryJob.OrderFits (cfg : EngineConfig) (j : EntryJob) (size : ℚ) : Prop :=
  j.sig.getTradeSide = .open ∧ symbolChars j.sig.symbol = j.sig.symbol ∧
    (cfg.contracts.orderSize j.sig.symbol size).value = size

/-- The order closes what the book gives up: all of the position, or just
its share. -/
def CloseJob.OrderFits (cfg : EngineConfig) (sig : WebhookSignal) (pos : ManagedPosition) : Prop :=
  if IsFull sig.tpLevel then pos.quantity ≤ (shareOrder cfg sig pos).size.value
  else (shareOrder cfg sig pos).size.value = pos.quantity * closeRatio sig.tpLevel

instance {cfg : EngineConfig} {j : EntryJob} {size : ℚ} : Decidable (j.OrderFits cfg size) :=
  inferInstanceAs (Decidable (_ ∧ _ ∧ _))

instance {cfg : EngineConfig} {sig : WebhookSignal} {pos : ManagedPosition} :
    Decidable (CloseJob.OrderFits cfg sig pos) := by
  unfold CloseJob.OrderFits
  infer_instance

/-- **The order fits**, where the handler comes to one. -/
def SizeFits (cfg : EngineConfig) (s : Shared) : Job → Prop
  | .entry j => ∀ sz ∈ j.sized cfg s, 0 < sz.1 → j.conflicts s.positions = false →
      j.OrderFits cfg sz.1
  | .tp j =>
      ∀ found ∈ s.positions.findBySymbolSide j.sig.symbol (CloseJob.closeSide j.sig).text,
        CloseJob.OrderFits cfg j.sig found.2
  | _ => True

instance {cfg : EngineConfig} {s : Shared} {job : Job} : Decidable (SizeFits cfg s job) := by
  cases job <;> unfold SizeFits <;> infer_instance

namespace Shared.InStep

variable {cfg : EngineConfig} {s t : Shared}

/-- **A take-profit keeps step exactly where the contract fits.** -/
theorem agree_tp_iff (h : s.InStep) {sig : WebhookSignal} {key : PositionKey}
    {pos : ManagedPosition}
    (hfind : s.positions.findBySymbolSide sig.symbol (CloseJob.closeSide sig).text =
      some (key, pos)) :
    Agree (CloseJob.closedBook sig key pos s.positions)
        (s.venue.execute (CloseJob.shareOrder cfg sig pos)) ↔ CloseJob.OrderFits cfg sig pos := by
  obtain ⟨htag, hlookup⟩ := Table.findValue_eq_some hfind
  have hmem : (⟨key, pos⟩ : Sigma fun _ : PositionKey => ManagedPosition) ∈ s.positions.entries :=
    AList.mem_lookup_iff.1 hlookup
  have htag' : pos.tag = (sig.symbol, (CloseJob.closeSide sig).text) := by
    simp only [Book.sameTag, Bool.and_eq_true, decide_eq_true_eq] at htag
    exact Prod.ext htag.1 htag.2
  obtain ⟨hquantity, hheld⟩ := h.agree.pos_of_mem h.solvent hmem htag'
  refine (Agree.congr CloseJob.quantity_shareOrder).trans ?_
  rw [CloseJob.closedBook, CloseJob.OrderFits, ← hquantity]
  rw [← hquantity] at hheld
  by_cases hfull : CloseJob.IsFull sig.tpLevel
  · rw [if_pos hfull, if_pos hfull, h.agree.erase_iff h.tidy.unique hmem htag', max_eq_left_iff,
      sub_nonpos]
  · -- a share of less than the whole leaves a position in the book
    have hratio : CloseJob.closeRatio sig.tpLevel < 1 := by
      have := mt Or.inr hfull
      linarith
    have hleft : 0 < pos.quantity - pos.quantity * CloseJob.closeRatio sig.tpLevel := by
      nlinarith
    let reduced (p : ManagedPosition) : ManagedPosition :=
      { p with quantity := p.quantity - pos.quantity * CloseJob.closeRatio sig.tpLevel }
    have hmodify := h.agree.modify_iff (q := max 0 (pos.quantity -
      (CloseJob.shareOrder cfg sig pos).size.value)) h.tidy.unique hmem htag' (f := reduced)
      fun _ => rfl
    rw [if_neg hfull, if_neg hfull, Book.reduceQuantity, hlookup]
    dsimp only
    rw [if_neg (not_le.2 hleft)]
    refine hmodify.trans ?_
    change _ - _ = _ ∧ _ ↔ _
    constructor
    · rintro ⟨heq, hne⟩
      have hsent := (max_choice 0 _).resolve_left hne
      rw [hsent] at heq
      linarith
    · intro heq
      rw [heq, max_eq_right hleft.le]
      exact ⟨rfl, hleft.ne'⟩

/-- A handler that changes nothing of either. -/
theorem of_same (h : s.InStep) (hmodes : t.modes = s.modes) (hoid : s.nextOid ≤ t.nextOid)
    (hbook : t.positions = s.positions) (hvenue : t.venue = s.venue) : t.InStep where
  shadowMode := hmodes ▸ h.shadowMode
  autoLiveActive := hmodes ▸ h.autoLiveActive
  tidy := hbook ▸ h.tidy
  solvent := hvenue ▸ h.solvent
  oids oid hmem := (h.oids oid (hvenue ▸ hmem)).trans_le hoid
  agree := hbook ▸ hvenue ▸ h.agree

/-- **A take-profit keeps step**, where its order fits. -/
theorem of_served (h : s.InStep) {sig : WebhookSignal} (hserved : CloseJob.Served cfg sig s t)
    (hfits : ∀ found ∈ s.positions.findBySymbolSide sig.symbol (CloseJob.closeSide sig).text,
      CloseJob.OrderFits cfg sig found.2) : t.InStep := by
  cases hserved with
  | idle hmodes hoid hbook hvenue => exact h.of_same hmodes hoid.ge hbook hvenue
  | closed hmodes hoid key pos hfind hbook hvenue =>
      refine ⟨hmodes ▸ h.shadowMode, hmodes ▸ h.autoLiveActive, ?_, ?_, fun oid hmem => ?_, ?_⟩
      · rw [hbook]
        exact CloseJob.tidy_closedBook h.tidy
      · rw [hvenue]
        exact (h.solvent.hold (le_max_left _ _)).congr CloseJob.quantity_shareOrder
      · rw [hvenue, Venue.clientOids_execute] at hmem
        rw [hoid]
        exact h.oids oid hmem
      · rw [hbook, hvenue]
        exact (h.agree_tp_iff hfind).2 (hfits (key, pos) hfind)

/-- **An entry keeps step**, where its order fits. -/
theorem of_filled (h : s.InStep) {j₀ j : EntryJob} (hmodes : t.modes = s.modes)
    (hoid : s.nextOid ≤ t.nextOid) (hfilled : EntryJob.Filled cfg j₀ s j t)
    (hfits : j.OrderFits cfg j.size) : t.InStep := by
  obtain ⟨⟨-, hconflicts, hpos, -, hold⟩, ⟨now, hbook⟩, hvenue⟩ := hfilled
  obtain ⟨hopen, hsymbol, hsize⟩ := hfits
  have hfree : ∀ e ∈ s.positions.entries, e.2.tag ≠ (j.sig.symbol, j.holdSide.text) := fun e he =>
    EntryJob.tag_ne_of_conflicts hconflicts he j.holdSide
  -- a key of the symbol would be an entry of the symbol
  have hkey : ∀ e ∈ s.positions.entries, e.1 ≠ j.key := by
    intro e he heq
    obtain ⟨side, hside⟩ := h.tidy.side e he
    have hsame := h.tidy.key e he _ _ _ heq
    exact EntryJob.tag_ne_of_conflicts hconflicts he side (Prod.ext hsame.symm hside)
  have hnone : s.venue.quantity j.sig.symbol j.holdSide = 0 := (h.agree.absent _ _).1 hfree
  have hquantity : ∀ symbol side, t.venue.quantity symbol side =
      (s.venue.hold j.sig.symbol j.holdSide j.size).quantity symbol side := by
    intro symbol side
    rw [hvenue, EntryJob.quantity_order hopen, hsymbol, hnone, hsize, zero_add]
  refine ⟨hmodes ▸ h.shadowMode, hmodes ▸ h.autoLiveActive, ?_, ?_, fun oid hmem => ?_, ?_⟩
  · rw [hbook]
    refine ⟨h.tidy.unique.insert fun e he _ => ?_, fun e he => ?_, fun e he => ?_, fun e he => ?_⟩
    · rw [EntryJob.tag_position]
      exact hfree e he
    all_goals rcases Table.mem_insert.1 he with rfl | ⟨-, hmem⟩
    · exact ⟨j.holdSide, EntryJob.side_eq⟩
    · exact h.tidy.side e hmem
    · rfl
    · exact h.tidy.real e hmem
    · rintro symbol timeframe oid heq
      cases heq
      rfl
    · exact h.tidy.key e hmem
  · exact (h.solvent.hold hpos.le).congr hquantity
  · rw [hvenue, EntryJob.clientOids_execute_order] at hmem
    rcases List.mem_cons.1 hmem with rfl | hmem
    · exact hold
    · exact (h.oids oid hmem).trans_le hoid
  · rw [Agree.congr hquantity, hbook]
    exact (h.agree.insert_iff hfree hkey EntryJob.tag_position).2 ⟨rfl, hpos.ne'⟩

/-- **A handler keeps step**, where its order fits. -/
theorem alone (h : s.InStep) {job : Job} {n : ℕ} (hfresh : job.fresh = true)
    (hscope : InScope job) (hfits : SizeFits cfg s job)
    (hfinished : (Threads.alone (Job.step cfg) n job s).1.finished = true) :
    (Threads.alone (Job.step cfg) n job s).2.InStep := by
  cases job with
  | entry j =>
      simp only [Job.fresh, Bool.and_eq_true, decide_eq_true_eq] at hfresh
      have hstart : EntryJob.Serving cfg j s j s := ⟨rfl, rfl, rfl, le_rfl, by
        rw [hfresh.1.1]
        exact ⟨rfl, rfl, rfl, rfl⟩⟩
      have hserving := Threads.alone_invariant (n := n) (I := EntryJob.Serving cfg j s)
        (fun _ _ _ _ => EntryJob.serving_step h.shadowMode h.autoLiveActive hscope h.oids) hstart
      rw [Threads.alone_map Job.step_entry]
        at hfinished ⊢
      have hstage := hserving.stage
      rw [show (Threads.alone (EntryJob.step cfg) n j s).1.pc = .finished from
        of_decide_eq_true hfinished] at hstage
      rcases hstage with ⟨hbook, hvenue, -⟩ | hfilled
      · exact h.of_same hserving.modes hserving.nextOid hbook hvenue
      · obtain ⟨⟨leverage, hsized⟩, hconflicts, hpos, -⟩ := hfilled.1
        refine h.of_filled hserving.modes hserving.nextOid hfilled ?_
        have hfree : j.conflicts s.positions = false := by
          rw [EntryJob.conflicts, ← hserving.sig]
          exact hconflicts
        rw [EntryJob.OrderFits, hserving.sig]
        exact hfits (_, leverage) hsized hpos hfree
  | tp j =>
      have hends := CloseJob.ends_tp cfg (of_decide_eq_true hfresh) h.tidy.real hscope
      rw [Threads.alone_map Job.step_tp]
        at hfinished ⊢
      have hpc : (Threads.alone (CloseJob.step cfg (handleTp cfg)) n j s).1.pc = .finished :=
        of_decide_eq_true hfinished
      have hserved := hends.alone (n := n) (by simp only [CloseJob.step, hpc])
      exact h.of_served (hserved hpc) hfits
  | sl j => exact hscope.elim
  | closeAll j => exact hscope.elim

end Shared.InStep

/-- **The book refines the exchange, where the contract fits.** In every run
of entries and take-profits served one after the other, with every request
accepted, the two agree after each handler, as long as each order sends
what the book is going to be told: an entry its size, a partial close its
share, and a full close at least the position. -/
theorem book_agrees {cfg : EngineConfig} {t : Shared}
    (h : (serialSystem cfg).Reachable (fun s l => InScope l.1 ∧ SizeFits cfg s l.1) t) :
    Agree t.positions t.venue := by
  refine (h.invariant (I := Shared.InStep) (fun s hs => hs) fun s l t hs hguard hnext => ?_).agree
  simp only [serialSystem, Option.ite_none_right_eq_some, Bool.and_eq_true, Option.some.injEq]
    at hnext
  obtain ⟨⟨hfresh, hfinished⟩, rfl⟩ := hnext
  exact hs.alone hfresh hguard.1 hguard.2 hfinished

/-! ## A size between two steps -/

namespace ServedRun

def flat : Shared where
  modes := Modes.start false
  balance := 1000
  peakBalance := 1000

theorem flat_inStep : flat.InStep := by
  have hnone : ∀ e, e ∉ flat.positions.entries := fun _ => List.not_mem_nil
  exact
    { shadowMode := rfl
      autoLiveActive := rfl
      tidy := ⟨Table.uniqueBy_empty, fun e he => absurd he (hnone e),
        fun e he => absurd he (hnone e), fun e he => absurd he (hnone e)⟩
      solvent := fun _ _ => le_rfl
      oids := fun _ hmem => absurd hmem List.not_mem_nil
      agree := ⟨fun e he => absurd he (hnone e),
        fun _ _ => iff_of_true (fun e he => absurd he (hnone e)) rfl⟩ }

/-- An entry for a hundred dollars. -/
def buy (price : ℚ) : Job :=
  .entry
    { sig := { symbol := "BTCUSDT", action := "buy", timeframe := "15", price, tp1 := 2 * price }
      rd := { symbolTier := "A" } }

def takeProfit : Job :=
  .tp
    { sig := { symbol := "BTCUSDT", signalDirection := "bull", sigType := .tp, tpLevel := "TP1" }
      rd := {} }

theorem inScope_buy {price : ℚ} : InScope (buy price) := fun _ => rfl

theorem inScope_takeProfit : InScope takeProfit := fun _ => rfl

/-- A handler served on its own. -/
def served (job : Job) (s : Shared) : Shared := (Threads.alone (Job.step {}) 30 job s).2

end ServedRun

/-- **A book that is ahead of the exchange.** At a price of sixty the size
is five thirds; the book keeps it, and the exchange is sent 1.666. -/
theorem book_disagrees :
    ∃ t, (serialSystem {}).Reachable (fun _ l => InScope l.1) t ∧
      t.positions.entries.map (·.2.quantity) = [5 / 3] ∧
      t.venue.quantity "BTCUSDT" .long = 833 / 500 ∧ ¬ Agree t.positions t.venue := by
  let t := ServedRun.served (ServedRun.buy 60) ServedRun.flat
  have hnext : (serialSystem {}).next ServedRun.flat (ServedRun.buy 60, 30) = some t :=
    if_pos (by decide +kernel)
  have hbook : t.positions.entries.map (fun e => (e.2.symbol, e.2.side, e.2.quantity)) =
      [("BTCUSDT", "long", 5 / 3)] := by decide +kernel
  have hvenue : t.venue.quantity "BTCUSDT" .long = 833 / 500 := by decide +kernel
  refine ⟨t, ⟨_, ServedRun.flat_inStep, .tail .refl ServedRun.inScope_buy hnext⟩,
    by decide +kernel, hvenue, fun hagree => ?_⟩
  have hhead : ("BTCUSDT", "long", (5 / 3 : ℚ)) ∈
      t.positions.entries.map (fun e => (e.2.symbol, e.2.side, e.2.quantity)) :=
    hbook ▸ List.mem_cons_self
  obtain ⟨e, hmem, heq⟩ := List.mem_map.1 hhead
  simp only [Prod.mk.injEq] at heq
  obtain ⟨hsymbol, hside, hquantity⟩ := heq
  have hsame := hagree.quantity e hmem .long hside
  rw [hsymbol, hquantity, hvenue] at hsame
  norm_num at hsame

theorem book_agrees_btc :
    ∃ t, (serialSystem {}).Reachable (fun s l => InScope l.1 ∧ SizeFits {} s l.1) t ∧
      t.venue.quantity "BTCUSDT" .long = 67 / 50 ∧ Agree t.positions t.venue := by
  let s := ServedRun.served (ServedRun.buy 50) ServedRun.flat
  let t := ServedRun.served ServedRun.takeProfit s
  have hentry : (serialSystem {}).next ServedRun.flat (ServedRun.buy 50, 30) = some s :=
    if_pos (by decide +kernel)
  have htp : (serialSystem {}).next s (ServedRun.takeProfit, 30) = some t :=
    if_pos (by decide +kernel)
  have hreach : (serialSystem {}).Reachable (fun s l => InScope l.1 ∧ SizeFits {} s l.1) t :=
    ⟨_, ServedRun.flat_inStep,
      .tail (.tail .refl ⟨ServedRun.inScope_buy, by decide +kernel⟩ hentry)
        ⟨ServedRun.inScope_takeProfit, by decide +kernel⟩ htp⟩
  exact ⟨t, hreach, by decide +kernel, book_agrees hreach⟩

end WebhookTrader
