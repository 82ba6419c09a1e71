import Mathlib.Algebra.Order.BigOperators.Group.List
import WebhookTrader.Persistence.SpotAccount

/-!
# The spot account over the program's life

The account after a restart is the account as it was last written, but
for the times, the older trades and what else the file has no room for.
As long as no write fails, no sale and none of the cash is lost.
-/

namespace WebhookTrader

/-! ## Runs of the workers -/

/-- No handler that has the lock was refused. -/
def Worker.Admitted : Worker → Prop
  | spot _ j => j.Admitted
  | _ => True

theorem Worker.Routed.admitted {q : Queued} {w : Worker} (h : Routed q w) : w.Admitted := by
  cases h with
  | spot => nofun
  | _ => trivial

theorem Worker.admitted_of_step {cfg : DeskConfig} {w w' : Worker} {d d' : Desk}
    (hadmitted : w.Admitted) (h : w.step cfg d = some (w', d')) : w'.Admitted := by
  cases move_of_step h with
  | spot ticket hstep => exact SpotJob.admitted_of_step hadmitted hstep
  | pass => exact (routed_route cfg _).admitted
  | wake => split_ifs <;> trivial
  | _ => trivial

namespace Floor

variable {cfg : DeskConfig} {parse : Text → Option Json} {s s' : Floor} {l : FloorLabel}

/-- **The spot account between the workers' steps.** -/
structure Spot (s : Floor) : Prop where
  drawn : s.Drawn
  book : SpotBook s.shared.spot.positions
  admitted : ∀ (i : ℕ) (w : Worker), s.jobs[i]? = some w → w.Admitted

/-- **A step of the workers**: the account stays in order, and stays as it is
where it is not saved. -/
structure Steps (s : Floor) (l : FloorLabel) (s' : Floor) : Prop where
  spot : s'.Spot
  nextOid : s.shared.engine.nextOid ≤ s'.shared.engine.nextOid
  account : s.saves l = false → s'.shared.spot = s.shared.spot
  booked : ∃ tr, s.shared.spot.Booked s'.shared.spot tr

theorem Spot.next (h : s.Spot) (hnext : (floorSystem cfg parse).next s l = some s') :
    s.Steps l s' := by
  have hsame : ∀ {acc : SpotAccount}, acc = s.shared.spot →
      ∃ tr, s.shared.spot.Booked acc tr := fun heq => ⟨none, heq ▸ .refl⟩
  cases Threads.move_of_next hnext with
  | start w hstart =>
      obtain ⟨job, rfl⟩ := Worker.exists_of_canStart hstart
      have hnone : (Worker.closeAll job).drawn = none := rfl
      have hdrawn : Drawn { s with jobs := s.jobs ++ [.closeAll job] } :=
        h.drawn.start ⟨free_of_none hnone, trivial⟩ fun other => apart_of_none hnone
      exact ⟨⟨hdrawn, h.book, Threads.forall_append trivial h.admitted⟩, le_rfl, fun _ => rfl,
        hsame rfl⟩
  | event e happly =>
      obtain ⟨hspot, hoid⟩ : _ ∧ _ := spot_of_event happly
      refine ⟨⟨h.drawn.event ?_ fun i w hw => ?_, ?_, h.admitted⟩, hoid.ge, fun _ => hspot,
        hsame hspot⟩
      · rw [hspot, hoid]
        exact h.drawn.shared
      · obtain ⟨hfree, hpriced⟩ := h.drawn.jobs i w hw
        exact ⟨fun oid hmem => (hfree oid hmem).of_spot hspot hoid.ge, hpriced⟩
      · rw [hspot]
        exact h.book
  | @work i w w' d' hw hwork =>
      have hadmitted : ∀ (k : ℕ) (other : Worker), (s.jobs.set i w')[k]? = some other →
          other.Admitted :=
        Threads.forall_set (Worker.admitted_of_step (h.admitted i w hw) hwork)
          fun k other _ hother => h.admitted k other hother
      rcases (Worker.move_of_step hwork).spot_cases with
        ⟨hspot, hoid, hnone, hpriced, -⟩ | ⟨ticket, j, j', rfl, rfl, hdraws⟩
      · refine ⟨⟨h.drawn.work_quiet hw hspot hoid (fun oid hmem => ?_) hpriced, ?_, hadmitted⟩,
          hoid, fun _ => hspot, hsame hspot⟩
        · rw [hnone] at hmem
          cases hmem
        · rw [hspot]
          exact h.book
      · obtain ⟨hfree, hpriced⟩ := h.drawn.jobs i _ hw
        have hpriced' : j'.Priced := hdraws.priced hpriced
        by_cases hpc : j.pc = .book
        · obtain ⟨rfl, rfl⟩ := hdraws.of_book hpc
          have hsection := j.section_account h.drawn.shared
          obtain ⟨hsound, hbook⟩ := hsection.spotBook hpc (h.admitted i _ hw) hpriced
            h.drawn.shared hfree h.book
          refine ⟨⟨h.drawn.work_account hw hpc hsound, hbook, hadmitted⟩, le_rfl, fun hsaves => ?_,
            hsection.booked hpc hpriced hfree⟩
          have hreturns : j.saves s.shared.spot = false := by
            simpa [saves, hw, hpc] using hsaves
          exact hsection.eq_of_returns hreturns
        · obtain ⟨hspot, hoid, hnew⟩ := hdraws.quiet hpc
          refine ⟨⟨h.drawn.work_quiet hw hspot hoid hnew hpriced', ?_, hadmitted⟩, hoid,
            fun _ => hspot, hsame hspot⟩
          rw [hspot]
          exact h.book

/-- **Where workers begin**, with an account that is in order. -/
theorem spot_of_idle {d : Desk} {n : ℕ} (hsound : d.spot.Sound d.engine.nextOid)
    (hbook : SpotBook d.spot.positions) : Spot ⟨d, List.replicate n .idle⟩ := by
  have hidle : ∀ (i : ℕ) (w : Worker), (List.replicate n Worker.idle)[i]? = some w → w = .idle :=
    fun i w hw => List.eq_of_mem_replicate (List.mem_of_getElem? hw)
  refine ⟨⟨hsound, fun i w hw => ?_, fun i k w other _ hw _ => ?_⟩, hbook, fun i w hw => ?_⟩
  · rw [hidle i w hw]
    exact ⟨free_of_none rfl, trivial⟩
  · rw [hidle i w hw]
    exact (apart_of_none rfl).1
  · rw [hidle i w hw]
    trivial

end Floor

/-! ## The program's life -/

/-- A saved state is loaded from the file that holds it, whatever the backup
is. -/
theorem SavedState.load_of_main {disk : StateDisk} {s : SavedState} {savedAt : String}
    (h : disk.main = .document (s.toJson savedAt)) :
    ∃ loaded, disk.load = some loaded ∧ s.RestoredAs loaded := by
  obtain ⟨loaded, hload, hrestored⟩ := load_save {} savedAt s
  have hnone : ∀ found : LoadedState, (found <|> none) = found := by
    intro found
    cases found <;> rfl
  have hmain : (StateFile.document (s.toJson savedAt)).tryLoad = some loaded :=
    (hnone _).symm.trans hload
  refine ⟨loaded, ?_, hrestored⟩
  rw [StateDisk.load, h, hmain]
  rfl

/-- A reading of keys is one of their texts, as far as the files go. -/
def SpotAccount.Reads (read : String → PositionKey) (disk : StateDisk) : Prop :=
  ∀ loaded, disk.load = some loaded → ∀ text ∈ loaded.positions.keys, (read text).text = text

namespace SpotLife

open SpotAccount (Reads restored view_ofLoaded spotBook_ofLoaded)

variable {cfg : DeskConfig} {parse : Text → Option Json} {s t : SpotLife} {l : Label}
  {read : String → PositionKey} {nextOid : ℕ}

/-- **A restart resumes**: with the workers at their start, from a number
that has not been drawn, and with the keys that were saved. -/
def Resumes (cfg : DeskConfig) (s : SpotLife) : Label → Prop
  | .restart d read =>
      d.Started cfg ∧ s.floor.shared.engine.nextOid ≤ d.engine.nextOid ∧ Reads read s.disk
  | _ => True

/-- The files hold the account that was last written. -/
def Files (disk : StateDisk) (filed : SpotAccount) : Prop :=
  disk.main = .missing ∧ disk.backup = .missing ∧ filed = {} ∨
    ∃ savedAt, disk.main = .document (filed.saved.toJson savedAt)

/-- **What a restart makes of the files.** -/
theorem Files.restored {disk : StateDisk} {filed : SpotAccount} (h : Files disk filed)
    (hsound : filed.Sound nextOid) (hbook : SpotBook filed.positions) (hread : Reads read disk) :
    (restored read disk).view = filed.view ∧ (restored read disk).Sound nextOid ∧
      SpotBook (restored read disk).positions := by
  rcases h with ⟨hmain, hbackup, rfl⟩ | ⟨savedAt, hmain⟩
  · have hload : disk.load = none := by
      rw [StateDisk.load, hmain, hbackup]
      rfl
    rw [SpotAccount.restored, hload]
    exact ⟨rfl, hsound, hbook⟩
  · obtain ⟨loaded, hload, hrestored⟩ := SavedState.load_of_main hmain
    have hkeys := hread loaded hload
    rw [SpotAccount.restored, hload]
    exact ⟨view_ofLoaded hbook hrestored hkeys, spotBook_ofLoaded hbook hsound hrestored hkeys⟩

/-- A write that fails leaves what was written: the backup is a copy of it
at most. -/
theorem Files.of_failed {disk : StateDisk} {filed : SpotAccount} {w : Write} {savedAt : String}
    {saved : SavedState} (h : Files disk filed) (hw : w.renamed = false) :
    Files (disk.write w savedAt saved) filed := by
  rcases h with ⟨hmain, hbackup, hempty⟩ | ⟨savedAt', hmain⟩
  · refine .inl ⟨?_, ?_, hempty⟩
    · simp [StateDisk.write, hw, hmain]
    · cases hcopied : w.copied <;> simp [StateDisk.write, hcopied, hmain, hbackup]
  · exact .inr ⟨savedAt', by simp [StateDisk.write, hw, hmain]⟩

/-- **What is kept over the program's life.** -/
structure Kept (s : SpotLife) : Prop where
  floor : s.floor.Spot
  sound : s.filed.Sound s.floor.shared.engine.nextOid
  book : SpotBook s.filed.positions
  files : Files s.disk s.filed
  current : s.missed = false → s.floor.shared.spot.view = s.filed.view

/-- A save, of whatever fate. -/
theorem save_kept {w : Write} {savedAt : String} (hfloor : s.floor.Spot)
    (hsound : s.filed.Sound s.floor.shared.engine.nextOid) (hbook : SpotBook s.filed.positions)
    (hfiles : Files s.disk s.filed) : (s.save w savedAt).Kept := by
  cases hw : w.renamed with
  | true =>
      have hdisk : (s.save w savedAt).disk.main =
          .document (s.floor.shared.spot.saved.toJson savedAt) := by
        simp [save, StateDisk.write, hw]
      have hfiled : (s.save w savedAt).filed = s.floor.shared.spot := by simp [save, hw]
      refine ⟨hfloor, ?_, ?_, .inr ⟨savedAt, ?_⟩, fun _ => ?_⟩
      · rw [hfiled]
        exact hfloor.drawn.shared
      · rw [hfiled]
        exact hfloor.book
      · rw [hdisk, hfiled]
      · rw [hfiled]
        rfl
  | false =>
      have hfiled : (s.save w savedAt).filed = s.filed := by simp [save, hw]
      refine ⟨hfloor, ?_, ?_, ?_, fun hmissed => ?_⟩
      · rw [hfiled]
        exact hsound
      · rw [hfiled]
        exact hbook
      · rw [hfiled]
        exact hfiles.of_failed hw
      · simp [save, hw] at hmissed

/-- **Every step keeps it.** -/
theorem Kept.next (h : s.Kept) (hguard : Resumes cfg s l)
    (hnext : (spotLife cfg parse).next s l = some t) : t.Kept := by
  cases l with
  | floor l w savedAt =>
      obtain ⟨floor, hstep, rfl⟩ := Option.map_eq_some_iff.1 hnext
      have hsteps := h.floor.next hstep
      have hsound := h.sound.mono hsteps.nextOid
      split_ifs with hsaves
      · exact save_kept hsteps.spot hsound h.book h.files
      · refine ⟨hsteps.spot, hsound, h.book, h.files, fun hmissed => ?_⟩
        rw [hsteps.account (Bool.eq_false_iff.2 hsaves)]
        exact h.current hmissed
  | save w savedAt =>
      cases hnext
      exact save_kept h.floor h.sound h.book h.files
  | restart d read =>
      cases hnext
      obtain ⟨-, hoid, hread⟩ := hguard
      obtain ⟨hview, hsound, hbook⟩ := h.files.restored h.sound h.book hread
      exact ⟨Floor.spot_of_idle (hsound.mono hoid) hbook, h.sound.mono hoid, h.book, h.files,
        fun _ => hview⟩

theorem kept_of_run (hinit : (spotLife cfg parse).init s)
    (hrun : (spotLife cfg parse).Run (Resumes cfg) s t) : t.Kept := by
  obtain ⟨⟨d, jobs⟩, ⟨hjobs, -⟩, hempty, rfl⟩ := hinit
  dsimp only at hjobs hempty
  have hsound : SpotAccount.Sound {} d.engine.nextOid := .of_empty rfl
  refine hrun.invariant (I := Kept) (fun _ _ _ h hguard hnext => h.next hguard hnext)
    ⟨?_, hsound, .empty, .inl ⟨rfl, rfl, rfl⟩, fun _ => ?_⟩
  · rw [hjobs]
    exact Floor.spot_of_idle (hempty ▸ hsound) (hempty ▸ .empty)
  · exact congrArg SpotAccount.view hempty

/-- **A restart finds the spot account as it was last written.** In every
run, whatever writes fail and however often the program is started again,
a restart makes of the files the account they were last written from, no
position dropped; and as long as no write has failed since, that is the
account as it is. -/
theorem spot_account_restored (hinit : (spotLife cfg parse).init s)
    (hrun : (spotLife cfg parse).Run (Resumes cfg) s t) (hread : Reads read t.disk) :
    (restored read t.disk).view = t.filed.view ∧
      (t.missed = false → t.floor.shared.spot.view = t.filed.view) := by
  have hkept := kept_of_run hinit hrun
  exact ⟨(hkept.files.restored hkept.sound hkept.book hread).1, hkept.current⟩

/-- **The spot account's positions**, over the program's life: each is a long
one in a won pair that has cost no more than one buy, and each is the only
one of its symbol and exchange. -/
theorem spot_positions_kept (hinit : (spotLife cfg parse).init s)
    (hrun : (spotLife cfg parse).Run (Resumes cfg) s t) :
    (∀ e ∈ t.floor.shared.spot.positions.entries,
        e.2.IsSpot ∧ 0 < e.2.entryPrice ∧ 0 < e.2.quantity) ∧
      (t.floor.shared.spot.positions.UniqueBy fun p => (p.symbol, p.exchange)) ∧
      t.floor.shared.spot.cost ≤
        SpotAccount.tradeKrw * t.floor.shared.spot.positions.size := by
  have hfloor := (kept_of_run hinit hrun).floor
  refine ⟨fun e he => ⟨hfloor.book.spot e he, hfloor.drawn.shared.positive e he⟩,
    hfloor.book.unique, ?_⟩
  have hsum := List.sum_le_card_nsmul
    (t.floor.shared.spot.positions.entries.map fun e => e.2.entryPrice * e.2.quantity)
    SpotAccount.tradeKrw fun cost hcost => by
      obtain ⟨e, he, rfl⟩ := List.mem_map.1 hcost
      exact (hfloor.book.spot e he).cost
  rw [List.length_map, nsmul_eq_mul, mul_comm] at hsum
  exact hsum

/-! ## The cash over the program's life -/

/-- The trade that a step records with the spot account. -/
def recorded (cfg : DeskConfig) (parse : Text → Option Json) (s : SpotLife) :
    Label → Option TradeRecord
  | .floor l w savedAt =>
      (next cfg parse s (.floor l w savedAt)).bind fun t =>
        (t.floor.shared.spot.trades.drop s.floor.shared.spot.trades.length).head?
  | _ => none

/-- **The program with all its spot trades**, latest first. -/
abbrev tradingLife (cfg : DeskConfig) (parse : Text → Option Json) :
    System (SpotLife × List TradeRecord) Label :=
  (spotLife cfg parse).logged (recorded cfg parse)

/-- Whatever is written takes the old file's place. -/
def Label.lasts : Label → Bool
  | .floor _ w _ => w.renamed
  | .save w _ => w.renamed
  | .restart .. => true

/-- A step of a program whose files can be written. -/
def Lasts (cfg : DeskConfig) (s : SpotLife × List TradeRecord) (l : Label) : Prop :=
  Resumes cfg s.1 l ∧ l.lasts = true

/-- What the positions have cost is seen in the view. -/
theorem cost_of_view {acc acc' : SpotAccount} (h : acc.view = acc'.view) :
    acc.cost = acc'.cost := by
  have hcost : ∀ acc : SpotAccount, acc.cost =
      (acc.view.positions.map fun p => p.2.entryPrice * p.2.quantity).sum := by
    intro acc
    simp only [SpotAccount.view, Multiset.map_coe, Multiset.sum_coe, List.map_map]
    rfl
  rw [hcost, hcost, h]

/-- The last of a list with one more are the last of the last with one
more. -/
theorem drop_concat {α : Type} (n : ℕ) (xs : List α) (x : α) :
    (xs ++ [x]).drop (xs.length + 1 - n) =
      (xs.drop (xs.length - n) ++ [x]).drop ((xs.drop (xs.length - n)).length + 1 - n) := by
  rw [← List.drop_append_of_le_length (Nat.sub_le _ _), List.drop_drop, List.length_drop]
  congr 1
  omega

/-- The last trades after another one. -/
theorem lastTrades_concat (trades : List TradeRecord) (tr : TradeRecord) :
    (SavedState.lastTrades (trades ++ [tr])).map TradeRecord.restored =
      SavedState.lastTrades
        ((SavedState.lastTrades trades).map TradeRecord.restored ++ [tr.restored]) := by
  have hmap : (SavedState.lastTrades trades).map TradeRecord.restored ++ [tr.restored] =
      (SavedState.lastTrades trades ++ [tr]).map TradeRecord.restored := by simp
  have hlast : SavedState.lastTrades (trades ++ [tr]) =
      SavedState.lastTrades (SavedState.lastTrades trades ++ [tr]) := by
    rw [SavedState.lastTrades, SavedState.lastTrades, SavedState.lastTrades,
      List.length_append, List.length_append, List.length_singleton]
    exact drop_concat 2000 trades tr
  rw [hmap, hlast]
  simp only [SavedState.lastTrades, List.length_map, List.map_drop]

/-- **What the account has of all trades.** -/
structure Tells (acc : SpotAccount) (history : List TradeRecord) : Prop where
  cash : acc.balance + acc.cost = 1000000 + (history.map fun tr => tr.pnl + tr.fee).sum
  trades : acc.view.trades = (SavedState.lastTrades history.reverse).map TradeRecord.restored

theorem Tells.of_books {acc acc' : SpotAccount} {tr : Option TradeRecord}
    {history : List TradeRecord} (h : Tells acc history) (hbooks : acc.Booked acc' tr) :
    Tells acc' (tr.toList ++ history) := by
  refine ⟨?_, ?_⟩
  · rw [hbooks.cash, h.cash, List.map_append, List.sum_append]
    ring
  · cases tr with
    | none =>
        have htrades : acc'.trades = acc.trades := by rw [hbooks.trades]; simp
        have hsame : acc'.view.trades = acc.view.trades := by
          simp only [SpotAccount.view, htrades]
        rw [hsame, h.trades]
        rfl
    | some tr =>
        have hlast : (SavedState.lastTrades acc.trades).map TradeRecord.restored =
            (SavedState.lastTrades history.reverse).map TradeRecord.restored := by
          simpa only [SpotAccount.view] using h.trades
        have htrades : acc'.view.trades =
            (SavedState.lastTrades (acc.trades ++ [tr])).map TradeRecord.restored := by
          simp only [SpotAccount.view, hbooks.trades, Option.toList_some]
        rw [htrades, lastTrades_concat, hlast, ← lastTrades_concat]
        simp

/-- A restart tells the same. -/
theorem Tells.of_view {acc acc' : SpotAccount} {history : List TradeRecord}
    (h : Tells acc history) (hview : acc'.view = acc.view) : Tells acc' history := by
  have hbalance : acc'.balance = acc.balance := congrArg SpotAccount.View.balance hview
  refine ⟨?_, ?_⟩
  · rw [hbalance, cost_of_view hview, h.cash]
  · rw [hview, h.trades]

theorem recorded_floor {floor : FloorLabel} {w : Write} {savedAt : String} {tr : Option TradeRecord}
    (hnext : next cfg parse s (.floor floor w savedAt) = some t)
    (hbooks : s.floor.shared.spot.Booked t.floor.shared.spot tr) :
    recorded cfg parse s (.floor floor w savedAt) = tr := by
  rw [recorded, hnext, Option.bind_some, hbooks.trades, List.drop_left]
  cases tr <;> rfl

/-- **Every step is told**, where it lasts. -/
theorem tells_next {u v : SpotLife × List TradeRecord} (hkept : u.1.Kept)
    (hmissed : u.1.missed = false) (htells : Tells u.1.floor.shared.spot u.2)
    (hguard : Lasts cfg u l) (hnext : (tradingLife cfg parse).next u l = some v) :
    v.1.Kept ∧ v.1.missed = false ∧ Tells v.1.floor.shared.spot v.2 := by
  obtain ⟨s, history⟩ := u
  obtain ⟨t, history'⟩ := v
  obtain ⟨hstep, hlog⟩ := System.next_logged.1 hnext
  obtain ⟨hresumes, hlasts⟩ := hguard
  dsimp only at hkept hmissed htells hstep hlog hresumes ⊢
  subst hlog
  refine ⟨hkept.next hresumes hstep, ?_⟩
  cases l with
  | floor l w savedAt =>
      have hw : w.renamed = true := hlasts
      obtain ⟨floor, hfloor, heq⟩ := Option.map_eq_some_iff.1 hstep
      obtain ⟨tr, hbooks⟩ := (hkept.floor.next hfloor).booked
      have hspot : t.floor = floor := by
        rw [← heq]
        split_ifs <;> rfl
      rw [← hspot] at hbooks
      rw [recorded_floor hstep hbooks]
      refine ⟨?_, htells.of_books hbooks⟩
      rw [← heq]
      split_ifs
      · simp [save, hw]
      · exact hmissed
  | save w savedAt =>
      have hw : w.renamed = true := hlasts
      cases hstep
      exact ⟨by simp [save, hw], htells⟩
  | restart d read =>
      cases hstep
      have hview := (hkept.files.restored hkept.sound hkept.book hresumes.2.2).1
      exact ⟨rfl, htells.of_view (hview.trans (hkept.current hmissed).symm)⟩

/-- **The spot cash over the program's life.** Where every write takes the
old file's place, the cash and the cost of what is open are what the
account began with and what all sales have ever brought beyond their cost,
fees left out, however often the program is started again; and the last
trades of the account are the last of all. -/
theorem spot_cash_over_restarts {history : List TradeRecord} (hinit : (spotLife cfg parse).init s)
    (hrun : (tradingLife cfg parse).Run (Lasts cfg) (s, []) (t, history)) :
    t.floor.shared.spot.balance + t.floor.shared.spot.cost =
        1000000 + (history.map fun tr => tr.pnl + tr.fee).sum ∧
      t.floor.shared.spot.view.trades =
        (SavedState.lastTrades history.reverse).map TradeRecord.restored := by
  have hkept := kept_of_run hinit .refl
  obtain ⟨floor, -, hempty, rfl⟩ := hinit
  have hstart : Tells floor.shared.spot [] := by
    rw [hempty]
    exact ⟨by simp [SpotAccount.cost, Table.sum], rfl⟩
  have hend := hrun.invariant
    (I := fun t => t.1.Kept ∧ t.1.missed = false ∧ Tells t.1.floor.shared.spot t.2)
    (fun _ _ _ h hguard hnext => tells_next h.1 h.2.1 h.2.2 hguard hnext) ⟨hkept, rfl, hstart⟩
  exact ⟨hend.2.2.cash, hend.2.2.trades⟩

end SpotLife

/-! ## A position over a restart -/

namespace SpotLifeRun

open FloorRun SpotCashRun

/-- Steps of the workers, whose writes succeed. -/
def written (ls : List FloorLabel) : List SpotLife.Label := ls.map fun l => .floor l {} ""

def fresh : SpotLife where
  floor := (start (shadow 1) ∅).1

/-- What the second start leaves behind. -/
def desk : Desk :=
  let d := (start (shadow 1) ∅).1.shared
  { d with engine := { d.engine with nextOid := 7 } }

def read (_ : String) : PositionKey := .entry "BTCKRW" "15" 0

/-- A step that is no restart, and whose write succeeds. -/
def Quiet (_ : SpotLife) (l : SpotLife.Label) : Prop :=
  match l with
  | .floor _ w _ => w.renamed = true
  | .save w _ => w.renamed = true
  | .restart .. => False

instance (s : SpotLife) : (l : SpotLife.Label) → Decidable (Quiet s l)
  | .floor _ _ _ => inferInstanceAs (Decidable (_ = true))
  | .save _ _ => inferInstanceAs (Decidable (_ = true))
  | .restart .. => inferInstanceAs (Decidable False)

/-- A position has been bought. -/
def held : SpotLife := (spotLife (shadow 1) parse).endOf fresh (written bought)

/-- And the program has been started again. -/
def resumed : SpotLife := (spotLife (shadow 1) parse).endOf held [.restart desk read]

/-- And the position has been sold. -/
def sold : SpotLife :=
  (spotLife (shadow 1) parse).endOf resumed (written (request 1 {} :: works 0 12))

theorem init_fresh : (spotLife (shadow 1) parse).init fresh :=
  ⟨_, (start_init _ parse _).1, rfl, rfl⟩

/-- The key that was saved is read as it was. -/
theorem reads : SpotAccount.Reads read held.disk := by
  have hkeys : (held.disk.load.all fun loaded =>
      loaded.positions.keys.all fun text => (read text).text = text) = true := by
    decide +kernel
  intro loaded hload text htext
  rw [hload, Option.all_some, List.all_eq_true] at hkeys
  exact of_decide_eq_true (hkeys text htext)

/-- What the run keeps to. -/
def Lasting (s : SpotLife) (l : SpotLife.Label) : Prop :=
  SpotLife.Resumes (shadow 1) s l ∧ l.lasts = true

theorem lasting_of_quiet (s : SpotLife) (l : SpotLife.Label) (h : Quiet s l) : Lasting s l := by
  cases l with
  | floor l w savedAt => exact ⟨trivial, h⟩
  | save w savedAt => exact ⟨trivial, h⟩
  | restart => cases h

theorem run_resumed : (spotLife (shadow 1) parse).Run Lasting fresh resumed := by
  have hbought : (spotLife (shadow 1) parse).Run Quiet fresh held :=
    System.run_endOf (written bought) (by decide +kernel)
  have hguard : Lasting held (.restart desk read) :=
    ⟨⟨⟨⟨rfl, rfl, ⟨_, rfl⟩, rfl, rfl⟩, rfl, rfl, rfl, rfl, rfl⟩, by decide +kernel, reads⟩, rfl⟩
  exact (hbought.mono lasting_of_quiet).tail hguard rfl

theorem run_sold : (spotLife (shadow 1) parse).Run Lasting fresh sold := by
  have hsold : (spotLife (shadow 1) parse).Run Quiet resumed sold :=
    System.run_endOf (written (request 1 {} :: works 0 12)) (by decide +kernel)
  exact run_resumed.trans (hsold.mono lasting_of_quiet)

end SpotLifeRun

open SpotLifeRun SpotCashRun FloorRun in
theorem SpotLife.spot_account_restored_held :
    held.floor.shared.spot.positions.size = 1 ∧
      (SpotAccount.restored read resumed.disk).view = resumed.filed.view ∧
      (resumed.missed = false → resumed.floor.shared.spot.view = resumed.filed.view) :=
  ⟨by decide +kernel,
    spot_account_restored init_fresh (run_resumed.mono fun _ _ h => h.1) reads⟩

open SpotLifeRun SpotCashRun FloorRun in
theorem SpotLife.spot_positions_kept_held :
    resumed.floor.shared.spot.positions.size = 1 ∧
      (∀ e ∈ resumed.floor.shared.spot.positions.entries,
        e.2.IsSpot ∧ 0 < e.2.entryPrice ∧ 0 < e.2.quantity) ∧
      (resumed.floor.shared.spot.positions.UniqueBy fun p => (p.symbol, p.exchange)) ∧
      resumed.floor.shared.spot.cost ≤
        SpotAccount.tradeKrw * resumed.floor.shared.spot.positions.size :=
  ⟨by decide +kernel, spot_positions_kept init_fresh (run_resumed.mono fun _ _ h => h.1)⟩

open SpotLifeRun SpotCashRun FloorRun in
/-- **A position sold after a restart** at the price it was bought for. -/
theorem SpotLife.spot_cash_over_one_restart :
    sold.floor.shared.spot.trades.length = 1 ∧ ∃ history,
      (tradingLife (shadow 1) parse).Run (Lasts (shadow 1)) (fresh, []) (sold, history) ∧
      sold.floor.shared.spot.balance + sold.floor.shared.spot.cost =
        1000000 + (history.map fun tr => tr.pnl + tr.fee).sum ∧
      sold.floor.shared.spot.view.trades =
        (SavedState.lastTrades history.reverse).map TradeRecord.restored := by
  obtain ⟨history, hrun⟩ : ∃ history,
      (tradingLife (shadow 1) parse).Run (Lasts (shadow 1)) (fresh, []) (sold, history) :=
    run_sold.exists_logged []
  exact ⟨by decide +kernel, history, hrun, spot_cash_over_restarts init_fresh hrun⟩

end WebhookTrader
