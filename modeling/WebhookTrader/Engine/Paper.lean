import WebhookTrader.Engine.Model.Life
import WebhookTrader.Engine.Books
import WebhookTrader.Engine.Ownership

/-!
# Paper positions and the exchange

A closing handler reads whether the position it found is real, and closes
a paper one in the book alone. The flag of a position that was registered
as paper is set by a sync that finds its symbol and side on the exchange,
and by nothing else, restarts included. So as long as no sync has found
it, no take-profit or stop-loss sends anything on its account.
-/

namespace WebhookTrader

/-- The symbol in an entry's key. -/
def PositionKey.entrySymbol : PositionKey → Option String
  | entry symbol _ _ => some symbol
  | ext .. => none

namespace Trace

variable {key : PositionKey} {log : List Trace} {keys : List PositionKey} {isReal : Bool}

theorem stillPaper_registered_ne {k : PositionKey} (h : k ≠ key) :
    stillPaper key (registered k isReal :: log) = stillPaper key log := by
  rw [stillPaper, if_neg h]

theorem stillPaper_marked :
    stillPaper key (marked keys :: log) = true ↔
      key ∉ keys ∧ stillPaper key log = true := by
  rw [stillPaper, Bool.and_eq_true, Bool.not_eq_true', ← Bool.not_eq_true, List.contains_iff_mem]

/-- What a closing handler logs marks and registers nothing. -/
theorem stillPaper_ofClose (j : CloseJob) :
    stillPaper key ((ofClose j).toList ++ log) = stillPaper key log := by
  unfold ofClose
  split <;> rfl

end Trace

/-! ## Closing handlers -/

namespace ClosePc

/-- The handler has found its position and goes by it. -/
def found : ClosePc → Bool
  | isReal => true
  | request _ _ => true
  | _ => false

/-- The handler asks the exchange. -/
def asks : ClosePc → Bool
  | request _ _ => true
  | _ => false

theorem found_of_asks {pc : ClosePc} (h : pc.asks = true) : pc.found = true := by
  cases pc <;> first | rfl | cases h

theorem holds_of_found {pc : ClosePc} (h : pc.found = true) : pc.holds = true := by
  cases pc <;> first | rfl | cases h

end ClosePc

/-- An entry is under its symbol's key. -/
def Book.SymbolKeyed (book : Book) : Prop :=
  ∀ key p, book.lookup key = some p → ∀ symbol ∈ key.entrySymbol, symbol = p.symbol

/-- What the log calls paper is paper in the book. -/
def Book.PaperKept (log : List Trace) (book : Book) : Prop :=
  ∀ key p, Trace.stillPaper key log = true → book.lookup key = some p → p.isReal = false

/-- **A careful closing handler**: what it found is of its symbol, and where
it asks the exchange, it is not for a position still on paper. -/
structure CloseJob.Careful (log : List Trace) (j : CloseJob) : Prop where
  symbol : j.pc.found = true → ∀ symbol ∈ j.key.entrySymbol, symbol = j.sig.symbol
  paper : j.pc.asks = true → Trace.stillPaper j.key log = false

namespace CloseJob

variable {cfg : EngineConfig} {c : Closing} {j j' : CloseJob} {s s' : Shared}
  {log log' : List Trace}

theorem careful_of_not_found (h : j.pc.found = false) : j.Careful log where
  symbol hfound := absurd (h.symm.trans hfound) Bool.false_ne_true
  paper hasks := absurd (h.symm.trans (ClosePc.found_of_asks hasks)) Bool.false_ne_true

theorem Careful.mono (h : j.Careful log)
    (hlog : j.pc.asks = true → Trace.stillPaper j.key log = false →
      Trace.stillPaper j.key log' = false) : j.Careful log' :=
  ⟨h.symbol, fun hasks => hlog hasks (h.paper hasks)⟩

/-- **A careful handler stays careful.** -/
theorem careful_step (hj : j.Careful log) (hsymbols : s.positions.SymbolKeyed)
    (hpaper : s.positions.PaperKept log) (h : j.step cfg c s = some (j', s')) :
    j'.Careful log := by
  cases hpc : j.pc <;> simp only [step, hpc] at h
  case lock =>
    split_ifs at h
    · cases h
      exact careful_of_not_found rfl
    · cases h
      exact careful_of_not_found rfl
  case find =>
    split at h
    · cases h
      exact careful_of_not_found rfl
    · rename_i key pos hfound
      cases h
      -- what is found has the signal's symbol, and so has its key
      obtain ⟨htag, hlookup⟩ := Table.findValue_eq_some hfound
      simp only [Book.sameTag, Bool.and_eq_true, decide_eq_true_eq] at htag
      exact ⟨fun _ symbol hsymbol => (hsymbols key pos hlookup symbol hsymbol).trans htag.1,
        fun hasks => by cases hasks⟩
  case isReal =>
    cases h
    have hsymbol := hj.symbol (by rw [hpc]; rfl)
    refine ⟨fun _ => hsymbol, fun hasks => ?_⟩
    dsimp only [goto] at hasks ⊢
    split_ifs at hasks with hreal
    · -- the position is real in the book, so the log does not call it paper
      by_contra hstill
      rw [Bool.not_eq_false] at hstill
      obtain ⟨p, hp, hp'⟩ := (Option.any_eq_true _ _).1 hreal
      rw [hpaper j.key p hstill hp] at hp'
      cases hp'
    · cases hasks
  case paper | settle | unlock =>
    cases h
    exact careful_of_not_found rfl
  case request round second =>
    cases h
    have hsymbol := hj.symbol (by rw [hpc]; rfl)
    exact ⟨fun _ => hsymbol, fun _ => hj.paper (by rw [hpc]; rfl)⟩
  case finished => cases h

end CloseJob

/-! ## What happens to the flags -/

namespace Book

variable {book book' : Book} {key : PositionKey} {p : ManagedPosition} {log : List Trace}

/-- Whether a book's entries are those of another, with the same symbols;
the predicate tells the keys whose flags may have changed. -/
def Follows (marked : PositionKey → Prop) (book' book : Book) : Prop :=
  ∀ key p', key.isExt = false → book'.lookup key = some p' →
    ∃ p, book.lookup key = some p ∧ p'.symbol = p.symbol ∧
      (¬ marked key → p'.isReal = p.isReal)

theorem Part.follows {marked : PositionKey → Prop} (h : Part book' book) :
    Follows marked book' book := by
  intro key p' _ hp'
  obtain ⟨p, hp, heq⟩ := h key p' hp'
  refine ⟨p, hp, ?_, fun _ => ?_⟩ <;> rw [heq]

theorem follows_restored {marked : PositionKey → Prop} :
    Follows marked (book.mapValues fun _ p => p.restored) book := by
  intro key p' _ hp'
  rw [Table.lookup_mapValues, Option.map_eq_some_iff] at hp'
  obtain ⟨p, hp, rfl⟩ := hp'
  exact ⟨p, hp, rfl, fun _ => rfl⟩

/-- **A sync changes the flags of what it finds on the exchange only.** -/
theorem follows_reconcile {now : Clock} {ex : ExchangeMap} (hex : ex.Keyed) :
    Follows (· ∈ Trace.held ex book) (book.reconcile now ex) book := by
  intro key p' hkey hp'
  have hnot : key.isExt ≠ true := by simp [hkey]
  rw [reconcile_eq] at hp'
  have hleft := (isExt_of_mem_importRows (AList.mem_lookup_iff.1 hp')).resolve_right hnot
  have hmarked : (markReal ex book).lookup key = some p' :=
    AList.mem_lookup_iff.2 ((mem_removed hex hleft).resolve_right fun hstands =>
      hnot ((congrArg PositionKey.isExt hstands.2).trans rfl))
  rw [markReal, Table.lookup_mapValues, Option.map_eq_some_iff] at hmarked
  obtain ⟨p, hp, rfl⟩ := hmarked
  refine ⟨p, hp, by split_ifs <;> rfl, fun hfree => ?_⟩
  rw [if_neg]
  intro hheld
  exact hfree (List.mem_map.2 ⟨⟨key, p⟩,
    List.mem_filter.2 ⟨AList.mem_lookup_iff.1 hp, hheld⟩, rfl⟩)

theorem Follows.symbolKeyed {marked : PositionKey → Prop} (h : Follows marked book' book)
    (hbook : book.SymbolKeyed) : book'.SymbolKeyed := by
  intro key p' hp' symbol hsymbol
  have hkey : key.isExt = false := by
    cases key
    · rfl
    · cases hsymbol
  obtain ⟨p, hp, hsame, -⟩ := h key p' hkey hp'
  exact (hbook key p hp symbol hsymbol).trans hsame.symm

end Book

/-- **What a step of the program does to the book and the log**, as far as
the flags of the entries go. -/
inductive Flags (book book' : Book) (log log' : List Trace) : Prop
  /-- No flag of an entry that is still on paper changes. -/
  | follow (marked : PositionKey → Prop) (hbook : book'.Follows marked book)
      (hlog : ∀ key, Trace.stillPaper key log' = true →
        Trace.stillPaper key log = true ∧ ¬ marked key)
  | register (j : EntryJob) (isReal : Bool) (now : Clock)
      (hbook : book' = AList.insert j.key (j.position now isReal) book)
      (hlog : log' = .registered j.key isReal :: log)

namespace Flags

variable {book book' : Book} {log log' : List Trace}

/-- **The flags stay right.** -/
theorem kept (h : Flags book book' log log') (hkept : book.PaperKept log)
    (hkeys : ∀ key, Trace.stillPaper key log = true → key.isExt = false) :
    book'.PaperKept log' := by
  intro key p' hstill hp'
  cases h with
  | follow marked hbook hlog =>
      obtain ⟨hstill, hfree⟩ := hlog key hstill
      obtain ⟨p, hp, -, hreal⟩ := hbook key p' (hkeys key hstill) hp'
      exact (hreal hfree).trans (hkept key p hstill hp)
  | register j isReal now hbook hlog =>
      subst hbook hlog
      by_cases hkey : j.key = key
      · subst hkey
        rw [AList.lookup_insert] at hp'
        cases hp'
        rw [Trace.stillPaper, if_pos rfl, Bool.not_eq_true'] at hstill
        exact hstill
      · rw [AList.lookup_insert_ne (Ne.symm hkey)] at hp'
        rw [Trace.stillPaper_registered_ne hkey] at hstill
        exact hkept key p' hstill hp'

theorem keys (h : Flags book book' log log')
    (hkeys : ∀ key, Trace.stillPaper key log = true → key.isExt = false) :
    ∀ key, Trace.stillPaper key log' = true → key.isExt = false := by
  intro key hstill
  cases h with
  | follow marked hbook hlog => exact hkeys key (hlog key hstill).1
  | register j isReal now hbook hlog =>
      subst hlog
      by_cases hkey : j.key = key
      · subst hkey
        rfl
      · rw [Trace.stillPaper_registered_ne hkey] at hstill
        exact hkeys key hstill

theorem symbolKeyed (h : Flags book book' log log') (hbook : book.SymbolKeyed) :
    book'.SymbolKeyed := by
  cases h with
  | follow marked hfollows => exact hfollows.symbolKeyed hbook
  | register j isReal now heq =>
      subst heq
      intro key p' hp' symbol hsymbol
      by_cases hkey : key = j.key
      · subst hkey
        rw [AList.lookup_insert] at hp'
        cases hp'
        exact (Option.some.inj hsymbol).symm
      · rw [AList.lookup_insert_ne hkey] at hp'
        exact hbook key p' hp' symbol hsymbol

end Flags

/-! ## Runs of the program -/

/-- Where a handler stands to a position still on paper. -/
def Job.Careful (log : List Trace) : Job → Prop
  | .tp j => j.Careful log
  | .sl j => j.Careful log
  | _ => True

/-- A handler that has found a position under an entry's key holds the lock
of its symbol. -/
theorem CloseJob.lock_of_careful {log : List Trace} {j : CloseJob} {symbol : String}
    (h : j.Careful log) (hasks : j.pc.asks = true) (hsymbol : symbol ∈ j.key.entrySymbol) :
    j.pc.holds = true ∧ symbol = j.sig.symbol :=
  have hfound := ClosePc.found_of_asks hasks
  ⟨ClosePc.holds_of_found hfound, h.symbol hfound symbol hsymbol⟩

/-- **The invariant of the paper positions.** -/
structure PaperInv (s : Engine) (log : List Trace) : Prop where
  owned : s.Owned
  symbols : s.shared.positions.SymbolKeyed
  keys : ∀ key, Trace.stillPaper key log = true → key.isExt = false
  kept : s.shared.positions.PaperKept log
  careful : ∀ (i : ℕ) (job : Job), s.jobs[i]? = some job → job.Careful log
  sent : ∀ later earlier key, log = later ++ .sent key :: earlier →
    Trace.stillPaper key earlier = false

/-- **What an entry's step logs and does to the book go together.** -/
theorem EntryJob.flags_of_step {cfg : EngineConfig} {j j' : EntryJob} {s s' : Shared}
    {log : List Trace} (h : j.step cfg s = some (j', s')) :
    Flags s.positions s'.positions log
      ((Trace.ofJob s.positions (.entry j)).toList ++ log) := by
  by_cases hpaper : j.pc = .registerPaper
  · simp only [step, hpaper] at h
    cases h
    exact .register j false s.clock rfl (by simp [Trace.ofJob, hpaper])
  by_cases hreal : j.pc = .registerReal
  · simp only [step, hreal] at h
    cases h
    exact .register j true s.clock rfl (by simp [Trace.ofJob, hreal])
  -- any other step registers nothing and leaves the book alone
  have hnone : Trace.ofJob s.positions (.entry j) = none := by
    simp only [Trace.ofJob]
  have hbook : s'.positions = s.positions := by
    cases move_of_step h with
    | register isReal hpc =>
        cases isReal
        · exact (hpaper hpc).elim
        · exact (hreal hpc).elim
    | _ => rfl
  rw [hnone, hbook]
  exact .follow (fun _ => False) Book.Part.refl.follows fun _ hstill => ⟨hstill, id⟩

namespace PaperInv

variable {cfg : EngineConfig} {s t : Engine} {log : List Trace} {l : EngineLabel}

/-- **What a step of the engine logs and does to the book go together.** -/
theorem flags_of_next (h : (engineSystem cfg).next s l = some t) :
    Flags s.shared.positions t.shared.positions log
      ((Trace.obs s (.engine l)).toList ++ log) := by
  have hpart : ∀ {book : Book} {log' : List Trace}, Book.Part book s.shared.positions →
      (∀ key, Trace.stillPaper key log' = Trace.stillPaper key log) →
      Flags s.shared.positions book log log' := fun hbook hlog =>
    .follow (fun _ => False) hbook.follows fun key hstill => ⟨hlog key ▸ hstill, id⟩
  cases Engine.move_of_next h with
  | start => exact hpart .refl fun _ => rfl
  | @work i job job' shared' hjob hstep =>
      have hobs : Trace.obs s (.engine (.work i)) = Trace.ofJob s.shared.positions job := by
        rw [Trace.obs, hjob, Option.bind_some]
      rw [hobs]
      cases job with
      | entry j =>
          obtain ⟨j', rfl, hjob'⟩ := Job.of_step_map hstep
          exact EntryJob.flags_of_step hjob'
      | tp j =>
          obtain ⟨j', rfl, hjob'⟩ := Job.of_step_map hstep
          exact hpart (CloseJob.part_of_step hjob') fun key => Trace.stillPaper_ofClose _
      | sl j =>
          obtain ⟨j', rfl, hjob'⟩ := Job.of_step_map hstep
          exact hpart (CloseJob.part_of_step hjob') fun key => Trace.stillPaper_ofClose _
      | closeAll j =>
          obtain ⟨j', rfl, hjob'⟩ := Job.of_step_map hstep
          refine hpart ?_ fun key => ?_
          · cases CloseAllJob.move_of_step hjob' with
            | settle => exact CloseAllJob.settle_part
            | quiet => exact .refl
          · simp only [Trace.ofJob]
            split <;> rfl
  | event e happly =>
      cases e with
      | sync quote =>
          cases happly
          refine .follow _ (Book.follows_reconcile (ExchangeMap.keyed_ofRows _))
            fun key hstill => ?_
          exact (Trace.stillPaper_marked.1 hstill).symm
      | _ => exact hpart ((Event.book_of_apply happly).resolve_right nofun) fun _ => rfl

/-- A registration is a step of an entry that holds its symbol's lock. -/
theorem of_obs_registered {key : PositionKey} {isReal : Bool}
    (h : Trace.obs s (.engine l) = some (.registered key isReal)) :
    ∃ i j, l = .work i ∧ s.jobs[i]? = some (.entry j) ∧ j.key = key ∧ j.pc.holds = true := by
  cases l with
  | start job => cases h
  | work i =>
      obtain ⟨job, hjob, hobs⟩ := Option.bind_eq_some_iff.1 h
      cases job with
      | entry j =>
          refine ⟨i, j, rfl, hjob, ?_⟩
          simp only [Trace.ofJob] at hobs
          split at hobs
          · cases hobs
            exact ⟨rfl, by rw [‹j.pc = _›]; rfl⟩
          · cases hobs
            exact ⟨rfl, by rw [‹j.pc = _›]; rfl⟩
          · cases hobs
      | tp j | sl j =>
          simp only [Trace.ofJob, Trace.ofClose] at hobs
          split at hobs <;> cases hobs
      | closeAll j =>
          simp only [Trace.ofJob] at hobs
          split at hobs <;> cases hobs
  | event e => cases e <;> cases h

/-- **An engine's step keeps the other handlers careful**: a registration
is not of a position that another handler asks for, since it has the lock
of the position's symbol. -/
theorem careful_others (h : PaperInv s log) (hnext : (engineSystem cfg).next s l = some t)
    {k : ℕ} {job : Job} (hjob : s.jobs[k]? = some job) (hother : l ≠ .work k) :
    job.Careful ((Trace.obs s (.engine l)).toList ++ log) := by
  have hcareful := h.careful k job hjob
  have hclose : ∀ j : CloseJob, j.Careful log →
      (j.pc.holds = true → job.lock = some j.sig.symbol) →
      j.Careful ((Trace.obs s (.engine l)).toList ++ log) := by
    intro j hj hlock
    refine hj.mono fun hasks hnot => ?_
    by_contra hstill
    rw [Bool.not_eq_false] at hstill
    have hflags : Flags s.shared.positions t.shared.positions log _ := flags_of_next hnext
    cases hflags with
    | follow marked hbook hlog =>
        rw [(hlog _ hstill).1] at hnot
        cases hnot
    | register entry isReal now hbook hlog =>
        -- the registration would be of the position that is asked for
        rw [hlog] at hstill
        have hkey : entry.key = j.key := by
          by_contra hne
          rw [Trace.stillPaper_registered_ne hne, hnot] at hstill
          cases hstill
        have hobs : Trace.obs s (.engine l) = some (.registered entry.key isReal) :=
          Option.toList_eq_singleton_iff.1 (List.append_cancel_right hlog)
        obtain ⟨i, other, rfl, hi, hsame, hholds'⟩ := of_obs_registered hobs
        have hsymbol : other.sig.symbol ∈ j.key.entrySymbol := by
          rw [← hkey, ← hsame]
          rfl
        -- both handlers would have the lock of its symbol
        obtain ⟨hholds, heq⟩ := CloseJob.lock_of_careful hj hasks hsymbol
        have hapart := h.owned.apart i k _ _ (fun hik => hother (hik ▸ rfl)) hi hjob
        exact hapart.lock other.sig.symbol (if_pos hholds') (heq ▸ hlock hholds)
  cases job with
  | tp j => exact hclose j hcareful fun hholds => if_pos hholds
  | sl j => exact hclose j hcareful fun hholds => if_pos hholds
  | _ => trivial

/-- The handler that took the step stays careful. -/
theorem careful_self (h : PaperInv s log) {i : ℕ} {job job' : Job} {shared' : Shared}
    (hjob : s.jobs[i]? = some job) (hstep : job.step cfg s.shared = some (job', shared')) :
    job'.Careful ((Trace.obs s (.engine (.work i))).toList ++ log) := by
  have hcareful := h.careful i job hjob
  rw [Trace.obs, hjob, Option.bind_some]
  have hclose : ∀ {c : Closing} {j j' : CloseJob}, j.Careful log →
      j.step cfg c s.shared = some (j', shared') →
      j'.Careful ((Trace.ofClose j).toList ++ log) := fun hj hstep =>
    (CloseJob.careful_step hj h.symbols h.kept hstep).mono fun _ hnot =>
      (Trace.stillPaper_ofClose _).trans hnot
  cases job with
  | tp j =>
      obtain ⟨j', rfl, hj'⟩ := Job.of_step_map hstep
      exact hclose hcareful hj'
  | sl j =>
      obtain ⟨j', rfl, hj'⟩ := Job.of_step_map hstep
      exact hclose hcareful hj'
  | entry j | closeAll j =>
      obtain ⟨j', rfl, -⟩ := Job.of_step_map hstep
      trivial

/-- A request is of a position that is not on paper any more. -/
theorem sent_of_obs (h : PaperInv s log) {key : PositionKey}
    (hobs : Trace.obs s (.engine l) = some (.sent key)) : Trace.stillPaper key log = false := by
  have hclose : ∀ j : CloseJob, j.Careful log → Trace.ofClose j = some (.sent key) →
      Trace.stillPaper key log = false := by
    intro j hj hsent
    unfold Trace.ofClose at hsent
    split at hsent
    · cases hsent
      exact hj.paper (by rw [‹j.pc = _›]; rfl)
    · cases hsent
  cases l with
  | start job => cases hobs
  | work i =>
      obtain ⟨job, hjob, hjobs⟩ := Option.bind_eq_some_iff.1 hobs
      have hcareful := h.careful i job hjob
      cases job with
      | tp j => exact hclose j hcareful hjobs
      | sl j => exact hclose j hcareful hjobs
      | entry j | closeAll j =>
          simp only [Trace.ofJob] at hjobs
          split at hjobs <;> cases hjobs
  | event e => cases e <;> cases hobs

/-- The requests stay right when something is logged. -/
theorem sent_append (h : PaperInv s log) {o : Option Trace}
    (ho : ∀ key, o = some (.sent key) → Trace.stillPaper key log = false) :
    ∀ later earlier key, o.toList ++ log = later ++ .sent key :: earlier →
      Trace.stillPaper key earlier = false := by
  intro later earlier key heq
  cases o with
  | none => exact h.sent later earlier key heq
  | some trace =>
      cases later with
      | nil =>
          obtain ⟨rfl, rfl⟩ := List.cons.inj heq
          exact ho key rfl
      | cons _ later => exact h.sent later earlier key (List.cons.inj heq).2

/-- **Every step of the program keeps the invariant.** -/
theorem next {l : LifeLabel} (h : PaperInv s log) (hnext : (lifeSystem cfg).next s l = some t) :
    PaperInv t ((Trace.obs s l).toList ++ log) := by
  cases l with
  | restart nextOid =>
      cases hnext
      have hflags : Flags s.shared.positions (s.shared.restarted cfg nextOid).positions log log :=
        .follow (fun _ => False) Book.follows_restored fun _ hstill => ⟨hstill, id⟩
      exact
        { owned := Threads.Holds.nil trivial rfl
          symbols := hflags.symbolKeyed h.symbols
          keys := h.keys
          kept := hflags.kept h.kept h.keys
          careful := fun i job hjob => by cases hjob
          sent := h.sent }
  | engine l =>
      have hflags : Flags s.shared.positions t.shared.positions log _ := flags_of_next hnext
      have howned := Engine.owned_next h.owned hnext
      have hsent := h.sent_append (o := Trace.obs s (.engine l)) fun key hobs => h.sent_of_obs hobs
      refine ⟨howned, hflags.symbolKeyed h.symbols, hflags.keys h.keys, hflags.kept h.kept h.keys,
        ?_, hsent⟩
      have hothers : ∀ (k : ℕ) (other : Job), s.jobs[k]? = some other → l ≠ .work k →
          other.Careful ((Trace.obs s (.engine l)).toList ++ log) :=
        fun _ _ => h.careful_others hnext
      cases Engine.move_of_next hnext with
      | start job hfresh =>
          refine Threads.forall_append ?_ fun k other hk => hothers k other hk nofun
          cases job with
          | tp j | sl j =>
              refine CloseJob.careful_of_not_found ?_
              rw [of_decide_eq_true hfresh]
              rfl
          | _ => trivial
      | work i hjob hstep =>
          refine Threads.forall_set (h.careful_self hjob hstep) fun k other hne hk =>
            hothers k other hk fun hlabel => hne ?_
          cases hlabel
          rfl
      | event e happly => exact fun k other hk => hothers k other hk nofun

theorem of_init (h : (lifeSystem cfg).init s) : PaperInv s [] where
  owned := Engine.owned_of_init h.1
  symbols key p hp := by simp [h.2] at hp
  keys key hstill := by cases hstill
  kept key p hstill := by cases hstill
  careful i job hjob := by simp [h.1.1] at hjob
  sent later earlier key heq := by simp at heq

end PaperInv

/-- **A closing signal asks for nothing on a paper position's account.** In
every run of the program, restarts included: where `handle_tp` or
`handle_sl` sends a request, the position it found was not registered as
paper, or a sync has found its symbol and side on the exchange since. -/
theorem paper_not_sent {cfg : EngineConfig} {s : Engine × List Trace}
    (h : ((lifeSystem cfg).logged Trace.obs).Reachable System.anyStep s)
    {later earlier : List Trace} {key : PositionKey} (hlog : s.2 = later ++ .sent key :: earlier) :
    Trace.stillPaper key earlier = false := by
  have hinv : PaperInv s.1 s.2 := h.invariant (I := fun s => PaperInv s.1 s.2)
    (fun s hinit => by
      rw [hinit.2]
      exact .of_init hinit.1)
    fun s l t hs _ hnext => by
      obtain ⟨hstep, hlog'⟩ := System.next_logged.1 hnext
      rw [hlog']
      exact hs.next hstep
  exact hinv.sent later earlier key hlog

/-! ### A paper position and a position opened by hand -/

namespace PaperRun

open LiveRun (buy closeSignal works)

/-- A shadow configuration. -/
def cfg : EngineConfig := { trading := { shadowMode := true } }

def start : Engine where
  shared := { modes := Modes.start true, balance := 1000, peakBalance := 1000 }

theorem start_init : (lifeSystem cfg).init start :=
  ⟨⟨rfl, ⟨rfl, rfl, ⟨1000, rfl⟩, rfl, rfl⟩⟩, rfl⟩

def key : PositionKey := .entry "BTCUSDT" "15" 0

/-- An entry, and what follows it. -/
def labels (steps : ℕ) (rest : List EngineLabel) : List LifeLabel :=
  (.start (buy "BTCUSDT") :: works 0 steps ++ rest).map .engine

/-- A position is opened by hand on the same side, a sync finds it, and a
take-profit comes. -/
def synced : List EngineLabel :=
  [.event (.holding "BTCUSDT" .long 1), .event (.sync fun _ => (50, 10)),
    .start (.tp { sig := closeSignal "BTCUSDT" "TP1", rd := {} })] ++ works 1 4

/-- Everything is closed. -/
def closedAll : List EngineLabel := .start (.closeAll { rd := {} }) :: works 1 2

end PaperRun

theorem paper_not_sent_btc :
    ∃ s, ((lifeSystem {}).logged Trace.obs).Reachable System.anyStep s ∧
      s.2 = [.sent PaperRun.key, .registered PaperRun.key true] ∧
      Trace.stillPaper PaperRun.key [.registered PaperRun.key true] = false := by
  obtain ⟨s, hrun, hs⟩ := System.exists_run_of_play (M := (lifeSystem {}).logged Trace.obs)
    (G := System.anyStep) (s := (LiveRun.start, []))
    (PaperRun.labels 21 (.start (.tp { sig := LiveRun.closeSignal "BTCUSDT" "TP1", rd := {} }) ::
      LiveRun.works 1 4))
    (P := fun s => s.2 = [.sent PaperRun.key, .registered PaperRun.key true]) (by decide +kernel)
  have hreach : ((lifeSystem {}).logged Trace.obs).Reachable System.anyStep s :=
    ⟨_, ⟨⟨LiveRun.start_init rfl, rfl⟩, rfl⟩, hrun⟩
  exact ⟨s, hreach, hs, paper_not_sent hreach (hs.trans (List.nil_append _).symm)⟩

/-- **What was registered as paper is closed on the exchange**: by a
take-profit, after a sync has found a position that was opened by hand,
and by `close_all_positions` with nothing in between. -/
theorem paper_traded :
    (∃ s, ((lifeSystem PaperRun.cfg).logged Trace.obs).Reachable System.anyStep s ∧
      s.2 = [.sent PaperRun.key, .marked [PaperRun.key], .registered PaperRun.key false] ∧
      PaperRun.key ∈ Trace.causes s.2.tail (.sent PaperRun.key) ∧
      Trace.bornPaper PaperRun.key s.2.tail = true) ∧
    ∃ s, ((lifeSystem PaperRun.cfg).logged Trace.obs).Reachable System.anyStep s ∧
      s.2.head? = some (.sentAll ("BTCUSDT", "long")) ∧
      PaperRun.key ∈ Trace.causes s.2.tail (.sentAll ("BTCUSDT", "long")) ∧
      Trace.bornPaper PaperRun.key s.2.tail = true := by
  have hinit : ((lifeSystem PaperRun.cfg).logged Trace.obs).init (PaperRun.start, []) :=
    ⟨PaperRun.start_init, rfl⟩
  constructor
  · obtain ⟨s, hrun, hs⟩ := System.exists_run_of_play
      (M := (lifeSystem PaperRun.cfg).logged Trace.obs) (G := System.anyStep)
      (s := (PaperRun.start, [])) (PaperRun.labels 15 PaperRun.synced)
      (P := fun s => s.2 = [.sent PaperRun.key, .marked [PaperRun.key],
          .registered PaperRun.key false] ∧
        PaperRun.key ∈ Trace.causes s.2.tail (.sent PaperRun.key) ∧
        Trace.bornPaper PaperRun.key s.2.tail = true) (by decide +kernel)
    exact ⟨s, ⟨_, hinit, hrun⟩, hs⟩
  · obtain ⟨s, hrun, hs⟩ := System.exists_run_of_play
      (M := (lifeSystem PaperRun.cfg).logged Trace.obs) (G := System.anyStep)
      (s := (PaperRun.start, [])) (PaperRun.labels 15 PaperRun.closedAll)
      (P := fun s => s.2.head? = some (.sentAll ("BTCUSDT", "long")) ∧
        PaperRun.key ∈ Trace.causes s.2.tail (.sentAll ("BTCUSDT", "long")) ∧
        Trace.bornPaper PaperRun.key s.2.tail = true) (by decide +kernel)
    exact ⟨s, ⟨_, hinit, hrun⟩, hs⟩

end WebhookTrader
