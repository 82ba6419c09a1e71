import WebhookTrader.Engine.Model.Workers
import WebhookTrader.Engine.Paper
import WebhookTrader.Engine.Removals
import WebhookTrader.Persistence.Openers
import WebhookTrader.Shadow.Timeframes

/-!
# Where results are filed and looked up

The shadow trackers and the trade recorder file results under a symbol
and a timeframe, and the entry handlers look a signal up under its own.
A signal may come without a timeframe. The handlers call that one
`unknown`, and so does the recorder, which files what the handlers have
registered; the trackers call it `0`.
-/

namespace WebhookTrader

/-! ## The keys of a signal -/

/-- What `evaluate` goes by: what the learner has under a key. -/
def Learner.find (symbol timeframe : String) (learner : Learner) : Option SymbolLearnData :=
  learner.lookup (makeKey symbol timeframe)

/-- What `handle_entry` has the learner go by. -/
def EntryJob.learnt (j : EntryJob) (learner : Learner) : Option SymbolLearnData :=
  learner.find j.sig.symbol j.tf

/-- The key `handle_entry` looks a signal up under. -/
def learnerKey (sig : WebhookSignal) : String :=
  Learner.makeKey sig.symbol (PortfolioRisk.tfName sig.timeframe)

/-- The key `handle_spot_entry` looks a signal's grade up under. -/
def gradeKey (sig : WebhookSignal) : String :=
  VirtualPosition.makeKey sig.symbol (SpotAccount.timeframe sig) sig.exchange

theorem EntryJob.learnt_eq (j : EntryJob) (learner : Learner) :
    j.learnt learner = learner.lookup (learnerKey j.sig) := rfl

theorem SpotJob.gradeBlocks_iff {j : SpotJob} {d : Desk} : j.gradeBlocks d = true ↔
    d.spotShadow.getGrade (gradeKey j.sig) = "F" ∨
      d.spotShadow.getGrade (gradeKey j.sig) = "D" := by
  unfold gradeBlocks
  dsimp only
  rw [Bool.or_eq_true, decide_eq_true_eq, decide_eq_true_eq]
  rfl

variable {sig : WebhookSignal}

/-- **The handlers spell a timeframe as the trackers do** where there is
one. -/
theorem tfName_eq_iff : ShadowTracker.timeframe sig = PortfolioRisk.tfName sig.timeframe ↔
    sig.timeframe ≠ "" := by
  unfold ShadowTracker.timeframe PortfolioRisk.tfName
  by_cases htf : sig.timeframe = ""
  · rw [if_pos htf, if_pos htf]
    exact iff_of_false (by decide) (not_not.2 htf)
  · rw [if_neg htf, if_neg htf]
    exact iff_of_true rfl htf

theorem learnerKey_eq_iff :
    Learner.makeKey sig.symbol (ShadowTracker.timeframe sig) = learnerKey sig ↔
      sig.timeframe ≠ "" := by
  have hname : PortfolioRisk.tfName sig.timeframe ≠ "" := by
    unfold PortfolioRisk.tfName
    split_ifs with h
    · decide
    · exact h
  unfold learnerKey Learner.makeKey
  rw [if_neg (ShadowTracker.timeframe_ne sig), if_neg hname, ← tfName_eq_iff]
  exact String.append_right_inj _

theorem gradeKey_eq_iff : SpotShadowTracker.signalKey sig = gradeKey sig ↔ sig.timeframe ≠ "" := by
  have hname : SpotAccount.timeframe sig = PortfolioRisk.tfName sig.timeframe := rfl
  unfold SpotShadowTracker.signalKey gradeKey VirtualPosition.makeKey
  rw [hname, ← tfName_eq_iff, String.append_left_inj, String.append_left_inj,
    String.append_right_inj]

/-! ## What the recorder files -/

namespace Book

variable {book book' : Book} {key : PositionKey} {p : ManagedPosition}

/-- **A position under an entry's key** has the key's symbol and
timeframe. -/
def Framed (book : Book) : Prop :=
  ∀ symbol tf oid p, book.lookup (.entry symbol tf oid) = some p →
    p.symbol = symbol ∧ p.timeframe = tf

/-- Where entries have gone or were changed in something else. -/
theorem Framed.of_lookup (h : book.Framed)
    (hback : ∀ key p', key.isExt = false → book'.lookup key = some p' →
      ∃ p, book.lookup key = some p ∧ p'.symbol = p.symbol ∧ p'.timeframe = p.timeframe) :
    book'.Framed := by
  intro symbol tf oid p' hp'
  obtain ⟨p, hp, hsymbol, htf⟩ := hback _ p' rfl hp'
  have hframe := h symbol tf oid p hp
  exact ⟨hsymbol.trans hframe.1, htf.trans hframe.2⟩

theorem Framed.register (h : book.Framed) (j : EntryJob) (now : Clock) (isReal : Bool) :
    Framed (AList.insert j.key (j.position now isReal) book) := by
  intro symbol tf oid p hp
  by_cases hkey : PositionKey.entry symbol tf oid = j.key
  · rw [hkey, AList.lookup_insert] at hp
    obtain rfl := Option.some.inj hp
    obtain ⟨rfl, rfl, -⟩ := PositionKey.entry.inj hkey
    exact ⟨rfl, rfl⟩
  · rw [AList.lookup_insert_ne hkey] at hp
    exact h symbol tf oid p hp

theorem Framed.reconcile (h : book.Framed) (now : Clock) (ex : ExchangeMap) :
    (book.reconcile now ex).Framed := by
  refine h.of_lookup fun key p' hkey hp' => ?_
  rw [lookup_reconcile_entry hkey] at hp'
  obtain ⟨hmarked, -⟩ := Option.filter_eq_some_iff.1 hp'
  rw [markReal, Table.lookup_mapValues] at hmarked
  obtain ⟨p, hp, rfl⟩ := Option.map_eq_some_iff.1 hmarked
  exact ⟨p, hp, by split_ifs <;> rfl, by split_ifs <;> rfl⟩

end Book

namespace Engine

variable {cfg : EngineConfig} {s t : Engine} {l : EngineLabel} {key : PositionKey}
  {trade : TradeRecord}

theorem framed_next (hs : s.shared.positions.Framed) (h : (engineSystem cfg).next s l = some t) :
    t.shared.positions.Framed := by
  cases bookStep_of_next h with
  | part _ hpart =>
      refine hs.of_lookup fun key p' _ hp' => ?_
      obtain ⟨p, hp, heq⟩ := hpart key p' hp'
      rw [heq]
      exact ⟨p, hp, rfl, rfl⟩
  | register i isReal hjob hpc heq =>
      rw [heq]
      exact hs.register _ _ _
  | sync quote heq =>
      rw [heq]
      exact hs.reconcile _ _

/-- **In every run of the program**, restarts included. -/
theorem framed_of_reachable (h : (lifeSystem cfg).Reachable System.anyStep s) :
    s.shared.positions.Framed := by
  refine h.invariant (I := fun s => s.shared.positions.Framed) (fun s hinit => ?_)
    fun s l t hs _ hnext => ?_
  · intro symbol tf oid p hp
    rw [hinit.2] at hp
    cases hp
  · cases l with
    | engine l => exact framed_next hs hnext
    | restart nextOid =>
        obtain rfl := Option.some.inj hnext
        refine hs.of_lookup fun key p' _ hp' => ?_
        have hmap : (s.shared.positions.mapValues fun _ p => p.restored).lookup key = some p' := hp'
        rw [Table.lookup_mapValues] at hmap
        obtain ⟨p, hp, rfl⟩ := Option.map_eq_some_iff.1 hmap
        exact ⟨p, hp, rfl, rfl⟩

/-- **A recorded close is of a position in the book**, with its symbol and
timeframe. -/
theorem position_of_closes (h : closes cfg s l = some (key, trade)) :
    ∃ pos, s.shared.positions.lookup key = some pos ∧ trade.symbol = pos.symbol ∧
      trade.timeframe = pos.timeframe := by
  have hclose : ∀ {c : Closing} {j : CloseJob},
      (∀ pos, (c.trade j pos).symbol = pos.symbol ∧ (c.trade j pos).timeframe = pos.timeframe) →
      j.closes c s.shared = some (key, trade) →
      ∃ pos, s.shared.positions.lookup key = some pos ∧ trade.symbol = pos.symbol ∧
        trade.timeframe = pos.timeframe := by
    intro c j htrade hj
    obtain ⟨-, hj⟩ := Option.ite_none_right_eq_some.1 hj
    obtain ⟨pos, hpos, heq⟩ := Option.map_eq_some_iff.1 hj
    cases heq
    exact ⟨pos, hpos, htrade pos⟩
  cases l with
  | start job => cases h
  | work i =>
      obtain ⟨job, -, hjob⟩ := Option.bind_eq_some_iff.1 h
      cases job with
      | entry j => cases hjob
      | tp j => exact hclose (fun pos => ⟨rfl, rfl⟩) hjob
      | sl j => exact hclose (fun pos => ⟨rfl, rfl⟩) hjob
      | closeAll j =>
          have hall : j.closes s.shared = some (key, trade) := hjob
          unfold CloseAllJob.closes at hall
          split at hall
          · obtain ⟨e, he, heq⟩ := Option.map_eq_some_iff.1 hall
            cases heq
            exact ⟨e.2, (Table.findValue_eq_some he).2, rfl, rfl⟩
          · cases hall
  | event e =>
      cases e with
      | wsPosition upd =>
          have hws : Event.closes s.shared (.wsPosition upd) = some (key, trade) := h
          unfold Event.closes at hws
          dsimp only at hws
          split_ifs at hws
          obtain ⟨e, he, heq⟩ := Option.map_eq_some_iff.1 hws
          cases heq
          exact ⟨e.2, (Table.findValue_eq_some he).2, rfl, rfl⟩
      | _ => cases h

/-- **The recorder files what an entry registered** under the key the entry
was looked up under. -/
theorem key_of_closes (hs : (lifeSystem cfg).Reachable System.anyStep s) {j : EntryJob}
    (h : closes cfg s l = some (j.key, trade)) :
    trade.symbol = j.sig.symbol ∧
      Learner.makeKey trade.symbol trade.timeframe = learnerKey j.sig := by
  obtain ⟨pos, hpos, hsymbol, htf⟩ := position_of_closes h
  obtain ⟨hsymbol', htf'⟩ := framed_of_reachable hs _ _ _ pos hpos
  rw [hsymbol, htf, hsymbol', htf']
  exact ⟨rfl, rfl⟩

end Engine

/-- **Results are looked up where they are filed** just where the signal
has a timeframe, as far as the trackers file them; the recorder's always
are. For every position a signal opened and every signal that closes it,
or sells a share of it, over restarts; with learning switched off nothing
is filed with the learner. -/
theorem filed_where_looked_up_iff (cfg : EngineConfig) (lcfg : LearnerConfig) (now : ℕ)
    (sig : WebhookSignal) :
    (∀ (other : WebhookSignal) (t : ShadowTracker), t.OpenFor lcfg sig →
      (t.track lcfg now other).positions.lookup (ShadowTracker.signalKey sig) = none →
        (lcfg.enabled = true →
          (Table.Sets (learnerKey sig) t.learner (t.track lcfg now other).learner ↔
            sig.timeframe ≠ "")) ∧
        (lcfg.enabled = false → (t.track lcfg now other).learner = t.learner)) ∧
    (∀ (other : WebhookSignal) (t : SpotShadowTracker) (vp : VirtualSpotPosition)
        (tr : TradeRecord) (rest : Option ℚ), t.OpenFor sig →
      t.deed now other = some (.sells (SpotShadowTracker.signalKey sig) vp tr rest) →
        (Table.Sets (gradeKey sig) t.symbolGrades (t.track now other).symbolGrades ↔
          sig.timeframe ≠ "")) ∧
    ∀ (s : Engine) (l : EngineLabel) (j : EntryJob) (trade : TradeRecord) (learner : Learner),
      (lifeSystem cfg).Reachable System.anyStep s → j.sig = sig →
      Engine.closes cfg s l = some (j.key, trade) → lcfg.enabled = true → sig.symbol ≠ "" →
        Table.Sets (learnerKey sig) learner (learner.recordTrade lcfg now trade) := by
  refine ⟨?_, ?_, ?_⟩
  · intro other t hopen hgone
    constructor
    · intro hon
      rw [(hopen.sets hon hgone).iff_eq]
      exact learnerKey_eq_iff
    · intro hoff
      exact hopen.learner_eq hoff hgone
  · intro other t vp tr rest hopen hsells
    rw [(hopen.sets hsells).iff_eq]
    exact gradeKey_eq_iff
  · rintro s l j trade learner hs rfl hcloses hon hsymbol
    obtain ⟨hsame, hkey⟩ := Engine.key_of_closes hs hcloses
    rw [← hkey]
    exact Learner.sets_recordTrade hon (hsame ▸ hsymbol)

/-! ### Signals with and without a timeframe -/

namespace FilingRun

/-- A buy of futures. -/
def buy (tf : String) : WebhookSignal where
  symbol := "BTCUSDT"
  timeframe := tf
  alert := "BUY"
  action := "buy"
  signalDirection := "bull"
  sigType := .entry
  price := 100

def takeProfit (tf : String) : WebhookSignal :=
  { buy tf with alert := "TP1", tpLevel := "TP1", sigType := .tp, price := 110 }

/-- A buy of spot. -/
def spotBuy (tf : String) : WebhookSignal :=
  { buy tf with symbol := "BTCKRW", exchange := "upbit", marketType := "spot" }

def spotStop (tf : String) : WebhookSignal :=
  { spotBuy tf with alert := "SL", sigType := .sl, price := 90 }

/-- The tracker with the buy's position. -/
def held (tf : String) : ShadowTracker := ShadowTracker.track {} 0 (buy tf) {}

/-- The spot tracker after some losses, with one more position. -/
def spotHeld (tf : String) (losses : ℕ) : SpotShadowTracker :=
  (SpotShadowTracker.trackAll (SpotShadowTracker.rounds (spotBuy tf) (spotStop tf) losses) {}).track
    0 (spotBuy tf)

/-- The entry that the engine's run registers. -/
def entered : EntryJob where
  sig := buy "15"
  rd := {}

/-- The position of a stop-loss is sold. -/
theorem deed_spotStop {tf key : String} {t : SpotShadowTracker} {vp : VirtualSpotPosition}
    (h : t.match? (spotStop tf) = some (key, vp)) :
    t.deed 0 (spotStop tf) = some (SpotShadowTracker.sellsAll 90 "SL" key vp) := by
  have htracks : ¬ ("spot" ≠ "spot" ∨ "BTCKRW" = "") := by decide
  have hdeed : t.deed 0 (spotStop tf) =
      if "spot" ≠ "spot" ∨ "BTCKRW" = "" then none
      else (t.match? (spotStop tf)).map fun e =>
        SpotShadowTracker.sellsAll 90 "SL" e.1 e.2 := rfl
  rw [hdeed, if_neg htracks, h]
  rfl

end FilingRun

open FilingRun in
theorem filed_where_looked_up_15 :
    Table.Sets (learnerKey (buy "15")) (held "15").learner
        ((held "15").track {} 60 (takeProfit "15")).learner ∧
      Table.Sets (gradeKey (spotBuy "15")) (spotHeld "15" 4).symbolGrades
        ((spotHeld "15" 4).track 0 (spotStop "15")).symbolGrades ∧
      ∃ s trade, (lifeSystem PaperRun.cfg).Reachable System.anyStep s ∧
        Engine.closes PaperRun.cfg s (.work 1) = some (entered.key, trade) ∧
        Table.Sets (learnerKey entered.sig) ∅ (Learner.recordTrade {} 0 trade ∅) := by
  obtain ⟨htracker, -, -⟩ := filed_where_looked_up_iff PaperRun.cfg {} 60 (buy "15")
  obtain ⟨-, hspot, -⟩ := filed_where_looked_up_iff PaperRun.cfg {} 0 (spotBuy "15")
  obtain ⟨-, -, hrecorder⟩ := filed_where_looked_up_iff PaperRun.cfg {} 0 entered.sig
  have hfree : (SpotShadowTracker.trackAll (SpotShadowTracker.rounds (spotBuy "15") (spotStop "15")
      4) {}).positions.lookup (SpotShadowTracker.signalKey (spotBuy "15")) = none := by
    decide +kernel
  have hmatch : (spotHeld "15" 4).match? (spotStop "15") = some
      (SpotShadowTracker.signalKey (spotBuy "15"), SpotShadowTracker.opened 0 (spotBuy "15")) := by
    decide +kernel
  refine ⟨?_, ?_, ?_⟩
  · exact ((htracker (takeProfit "15") (held "15")
      (.entered 0 rfl (by decide +kernel)) (by decide +kernel)).1 rfl).2 (by decide)
  · exact (hspot (spotStop "15") (spotHeld "15" 4) _ _ _
      (.entered 0 hfree (by decide +kernel)) (deed_spotStop hmatch)).2 (by decide)
  · -- a paper position is about to be closed
    obtain ⟨s, hrun, hs⟩ := System.exists_run_of_play (M := lifeSystem PaperRun.cfg)
      (G := System.anyStep) (s := PaperRun.start) (PaperRun.labels 15
        (.start (.tp { sig := LiveRun.closeSignal "BTCUSDT" "TP1", rd := {} }) ::
          LiveRun.works 1 3))
      (P := fun s => (Engine.closes PaperRun.cfg s (.work 1)).map Prod.fst = some entered.key)
      (by decide +kernel)
    obtain ⟨⟨key, trade⟩, hcloses, rfl⟩ := Option.map_eq_some_iff.1 hs
    have hreach : (lifeSystem PaperRun.cfg).Reachable System.anyStep s :=
      ⟨_, PaperRun.start_init, hrun⟩
    exact ⟨s, trade, hreach, hcloses,
      hrecorder s (.work 1) entered trade ∅ hreach rfl hcloses rfl (by decide)⟩

open FilingRun in
/-- **The results of signals without a timeframe are not found**: the
learner has a trade, and the spot tracker a bad grade, under keys that no
entry is looked up under. -/
theorem filed_elsewhere :
    ((held "").OpenFor {} (buy "") ∧
      ((held "").track {} 60 (takeProfit "")).positions.lookup
        (ShadowTracker.signalKey (buy "")) = none ∧
      (((held "").track {} 60 (takeProfit "")).learner.lookup "BTCUSDT:0").isSome = true ∧
      ((held "").track {} 60 (takeProfit "")).learner.lookup (learnerKey (buy "")) = none ∧
      ¬ Table.Sets (learnerKey (buy "")) (held "").learner
        ((held "").track {} 60 (takeProfit "")).learner) ∧
    (spotHeld "" 4).OpenFor (spotBuy "") ∧
      (∃ vp tr rest, (spotHeld "" 4).deed 0 (spotStop "") =
        some (.sells (SpotShadowTracker.signalKey (spotBuy "")) vp tr rest)) ∧
      ((spotHeld "" 4).track 0 (spotStop "")).getGrade "BTCKRW:0:upbit" = "F" ∧
      ((spotHeld "" 4).track 0 (spotStop "")).getGrade (gradeKey (spotBuy "")) = "?" ∧
      ¬ Table.Sets (gradeKey (spotBuy "")) (spotHeld "" 4).symbolGrades
        ((spotHeld "" 4).track 0 (spotStop "")).symbolGrades := by
  have hlearner : (((held "").track {} 60 (takeProfit "")).learner.lookup
      (learnerKey (buy ""))).isSome = false := by decide +kernel
  have hgrades : (((spotHeld "" 4).track 0 (spotStop "")).symbolGrades.lookup
      (gradeKey (spotBuy ""))).isSome = false := by decide +kernel
  have hfree : (SpotShadowTracker.trackAll (SpotShadowTracker.rounds (spotBuy "") (spotStop "") 4)
      {}).positions.lookup (SpotShadowTracker.signalKey (spotBuy "")) = none := by decide +kernel
  have hmatch : (spotHeld "" 4).match? (spotStop "") = some
      (SpotShadowTracker.signalKey (spotBuy ""), SpotShadowTracker.opened 0 (spotBuy "")) := by
    decide +kernel
  refine ⟨⟨.entered 0 rfl (by decide +kernel), by decide +kernel, by decide +kernel,
    Option.isSome_eq_false_iff.1 hlearner |> Option.isNone_iff_eq_none.1, fun hsets => ?_⟩,
    .entered 0 hfree (by decide +kernel), ⟨_, _, _, deed_spotStop hmatch⟩, by decide +kernel,
    by decide +kernel, fun hsets => ?_⟩
  · rw [hsets.lookup_isSome] at hlearner
    cases hlearner
  · rw [hsets.lookup_isSome] at hgrades
    cases hgrades

end WebhookTrader
