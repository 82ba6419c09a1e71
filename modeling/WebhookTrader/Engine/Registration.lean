import WebhookTrader.Engine.Books
import WebhookTrader.Engine.Conservation
import WebhookTrader.Engine.Exits

/-!
# What is registered

A position gets under a fresh key by an entry, whose price the sizing and
whose size `validate` has seen, or by a sync, which takes over what the
exchange holds. In both cases its quantity is positive.
-/

namespace WebhookTrader

/-! ## Entries -/

/-- The run's size has been validated. -/
def EntryPc.validated : EntryPc → Bool
  | validateOrders | validateSymbol | dispatchShadow | dispatchActive => true
  | registerPaper | registerReal => true
  | placed _ | request _ _ | orderDone _ _ | opened => true
  | _ => false

/-- **What passes `validate`** has a positive size from then on. -/
theorem EntryJob.size_pos_of_step {cfg : EngineConfig} {j j' : EntryJob} {s s' : Shared}
    (h : j.pc.validated = true → 0 < j.size) (hstep : j.step cfg s = some (j', s')) :
    j'.pc.validated = true → 0 < j'.size := by
  cases hpc : j.pc <;> simp only [step, hpc] at hstep <;> rw [hpc] at h
  case validateBreaker =>
    split_ifs at hstep with hvalid <;> cases hstep
    · rintro ⟨⟩
    · intro _
      simp only [Bool.or_eq_true, not_or, Bool.not_eq_true', Bool.not_eq_false,
        RiskManager.validSize, Bool.and_eq_true, decide_eq_true_eq] at hvalid
      exact hvalid.2.1
  case sizing =>
    split at hstep <;> cases hstep <;> rintro ⟨⟩
  case lock | readActive | tierGate | tfGate | tp1Shadow | tp1Active | feeGate | checkEntry =>
    split_ifs at hstep <;> cases hstep <;> rintro ⟨⟩
  case readEligible | takeOid | registerPaper | registerReal | unlock =>
    cases hstep
    rintro ⟨⟩
  case finished => cases hstep
  all_goals
    cases hstep
    exact fun _ => h rfl

namespace Engine

variable {cfg : EngineConfig} {G : Engine → EngineLabel → Prop} {s : Engine}

/-- Every entry that is about to register has a positive size. -/
theorem size_pos_of_reachable (h : (engineSystem cfg).Reachable G s) {j : EntryJob}
    (hj : Job.entry j ∈ s.jobs) (hpc : j.pc.validated = true) : 0 < j.size := by
  refine entry_invariant (P := fun j => j.pc.validated = true → 0 < j.size) (fun j hlock => ?_)
    (fun _ _ _ _ => EntryJob.size_pos_of_step) h hj hpc
  rw [hlock]
  rintro ⟨⟩

end Engine

/-! ## Syncs -/

/-- What the exchange is taken to hold is positive. -/
theorem ExchangeMap.total_pos_ofRows {rows : List ExchangePosition} :
    ∀ e ∈ (ofRows rows).entries, 0 < e.2.total := by
  refine List.foldlRecOn rows _ (motive := fun ex : ExchangeMap => ∀ e ∈ ex.entries,
    0 < e.2.total) nofun fun ex hex row _ => ?_
  split_ifs with hholding
  · intro e he
    rcases Table.mem_insert.1 he with rfl | ⟨-, hold⟩
    · exact hholding.2
    · exact hex e hold
  · exact hex

namespace Book

variable {now : Clock} {ex : ExchangeMap} {book : Book} {key : PositionKey}

/-- **An entry after a sync**: it has the quantity it had, or a positive
one. -/
def Taken (book : Book) (e : Sigma fun _ : PositionKey => ManagedPosition) : Prop :=
  (∃ e₀ ∈ book.entries, e.1 = e₀.1 ∧ e.2.quantity = e₀.2.quantity) ∨ 0 < e.2.quantity

theorem taken_sweepKey (hex : ∀ e ∈ ex.entries, 0 < e.2.total) {s : Sweep}
    (h : ∀ e ∈ s.book.entries, Taken book e) :
    ∀ e ∈ (sweepKey now ex s key).book.entries, Taken book e := by
  unfold sweepKey
  split
  · exact h
  rename_i p hlookup
  split
  · rename_i ep hflip
    -- what is updated in place has the quantity of the exchange
    have htotal : 0 < ep.total := by
      simp only [flipsTo, Option.ite_none_right_eq_some] at hflip
      exact hex _ (AList.mem_lookup_iff.1 hflip.2)
    have hmodify : ∀ e ∈ (s.book.modify key (flipped ep)).entries, Taken book e := by
      intro e he
      obtain ⟨e', he', rfl⟩ := Table.mem_modify.1 he
      by_cases hkey : e'.1 = key
      · exact .inr (by simpa only [if_pos hkey, flipped] using htotal)
      · simpa only [if_neg hkey] using h e' he'
    intro e he
    dsimp only at he
    split_ifs at he with hsame
    · exact hmodify e he
    · rcases Table.mem_insert.1 he with rfl | ⟨-, hold⟩
      · exact .inr htotal
      · exact hmodify e hold
  · split_ifs <;> exact h

theorem taken_importRows (hex : ∀ e ∈ ex.entries, 0 < e.2.total)
    {rows : List (Sigma fun _ : String × String => ExchangePosition)}
    (hrows : ∀ r ∈ rows, r ∈ ex.entries) {removed : Book}
    (h : ∀ e ∈ removed.entries, Taken book e) :
    ∀ e ∈ (importRows now rows removed).entries, Taken book e := by
  induction rows generalizing removed with
  | nil => exact h
  | cons r rows ih =>
      refine ih (fun r hr => hrows r (List.mem_cons_of_mem _ hr)) fun e he => ?_
      rcases Table.mem_insert.1 he with rfl | ⟨-, hold⟩
      · exact .inr (hex r (hrows r List.mem_cons_self))
      · exact h e hold

/-- **What a sync puts under a fresh key** has a positive quantity. -/
theorem quantity_pos_of_reconcile (hex : ∀ e ∈ ex.entries, 0 < e.2.total)
    (hfresh : book.lookup key = none) {p : ManagedPosition}
    (h : (book.reconcile now ex).lookup key = some p) : 0 < p.quantity := by
  have hmarked : ∀ e ∈ (markReal ex book).entries, Taken book e := by
    intro e he
    obtain ⟨e₀, hmem, rfl⟩ := Table.mem_mapValues.1 he
    exact .inl ⟨e₀, hmem, rfl, by dsimp only; split_ifs <;> rfl⟩
  have hswept : ∀ e ∈ (sweep now ex (markReal ex book)).book.entries, Taken book e :=
    List.foldlRecOn _ _ (motive := fun s : Sweep => ∀ e ∈ s.book.entries, Taken book e) hmarked
      fun _ h _ _ => taken_sweepKey hex h
  have hremoved : ∀ e ∈ (removed (sweep now ex (markReal ex book))).entries, Taken book e :=
    fun e he => hswept e (Table.mem_foldl_erase.1 he).2
  rw [reconcile_eq] at h
  have htaken : Taken book ⟨key, p⟩ := taken_importRows hex
    (fun r hr => List.mem_of_mem_filter hr) hremoved ⟨key, p⟩ (AList.mem_lookup_iff.1 h)
  refine htaken.resolve_left ?_
  rintro ⟨e₀, hmem, hkey, -⟩
  have hkey' : key = e₀.1 := hkey
  subst hkey'
  exact absurd (hfresh.symm.trans (AList.mem_lookup_iff.2 hmem)) nofun

end Book

/-! ## Registrations -/

namespace Engine.Registers

variable {cfg : EngineConfig} {s s' : Engine} {l : EngineLabel} {key : PositionKey} {quantity : ℚ}

/-- **Who registers**: an entry, or a sync. -/
theorem entry_or_sync (hreg : Engine.Registers cfg s l s' key quantity) :
    (∃ (j : EntryJob) (isReal : Bool), Job.entry j ∈ s.jobs ∧
        j.pc = (if isReal then .registerReal else .registerPaper) ∧
        s'.shared.positions.lookup key = some (j.position s.shared.clock isReal)) ∨
      ∃ quote, s'.shared = s.shared.sync quote := by
  obtain ⟨pos, hlookup, -⟩ := Option.map_eq_some_iff.1 hreg.stored
  cases Engine.bookStep_of_next hreg.step with
  | part _ hpart =>
      obtain ⟨pos₀, hpos₀, -⟩ := hpart key pos hlookup
      exact absurd (hreg.fresh.symm.trans hpos₀) nofun
  | register i isReal hjob hpc heq =>
      rename_i j
      have hkey : key = j.key := by
        by_contra hne
        rw [heq] at hlookup
        have hkept := (AList.lookup_insert_ne hne).symm.trans hlookup
        exact absurd (hreg.fresh.symm.trans hkept) nofun
      subst hkey
      refine .inl ⟨j, isReal, List.mem_of_getElem? hjob, hpc, ?_⟩
      rw [heq]
      exact AList.lookup_insert _
  | sync quote heq => exact .inr ⟨quote, heq⟩

/-- **What is registered has a positive quantity.** -/
theorem quantity_pos (hreg : Engine.Registers cfg s l s' key quantity)
    (hs : (engineSystem cfg).Reachable System.anyStep s) : 0 < quantity := by
  obtain ⟨pos, hlookup, rfl⟩ := Option.map_eq_some_iff.1 hreg.stored
  rcases hreg.entry_or_sync with ⟨j, isReal, hjob, hpc, hpos⟩ | ⟨quote, heq⟩
  · obtain rfl := Option.some.inj (hlookup.symm.trans hpos)
    refine Engine.size_pos_of_reachable hs hjob ?_
    rw [hpc]
    cases isReal <;> rfl
  · rw [heq] at hlookup
    exact Book.quantity_pos_of_reconcile ExchangeMap.total_pos_ofRows hreg.fresh hlookup

/-- **What an entry registers has a positive entry price.** -/
theorem entryPrice_pos (hreg : Engine.Registers cfg s l s' key quantity)
    (hs : (engineSystem cfg).Reachable System.anyStep s) (hkey : key.isExt = false) :
    ∀ pos ∈ s'.shared.positions.lookup key, 0 < pos.entryPrice := by
  intro pos hlookup
  rcases hreg.entry_or_sync with ⟨j, isReal, hjob, hpc, hpos⟩ | ⟨quote, heq⟩
  · obtain rfl := Option.some.inj (hlookup.symm.trans hpos)
    have hreserves : j.pc.reserves = true := by
      rw [hpc]
      cases isReal <;> rfl
    exact ((EntryJob.vetted_of_reachable hs hjob).sized (EntryPc.sized_of_reserves hreserves)).1
  · -- a sync puts nothing new under an entry's key
    rw [heq] at hlookup
    have hnone : (s.shared.sync quote).positions.lookup key = none :=
      Book.lookup_reconcile_of_fresh (ExchangeMap.keyed_ofRows _) hkey hreg.fresh
    exact absurd (hnone.symm.trans hlookup) nofun

end Engine.Registers

/-! ## What stays in the book -/

/-- **A position that is still there** is the one that was, but for its
quantity. -/
theorem Engine.kept_of_next {cfg : EngineConfig} {key : PositionKey} {symbol : String}
    {quantity : ℚ} {t u : Engine × List CloseRecord} {l : EngineLabel} {pos : ManagedPosition}
    (h : Engine.Tracking key symbol quantity t) (hguard : Engine.SyncKeeps key t l)
    (hnext : (engineSystem cfg).next t.1 l = some u.1)
    (hpos : u.1.shared.positions.lookup key = some pos) :
    ∃ pos₀, t.1.shared.positions.lookup key = some pos₀ ∧
      pos = { pos₀ with quantity := pos.quantity } := by
  cases Engine.bookStep_of_next hnext with
  | part _ hpart => exact hpart key pos hpos
  | register i isReal hjob hpc heq =>
      -- an entry registers under a number of its own
      rename_i j
      have hnumber : j.oid ∈ (Job.entry j).number := by
        simp only [Job.number, hpc]
        cases isReal <;> rfl
      have hne : key ≠ j.key := (h.jobs i _ hjob).number j.oid hnumber j.sig.symbol j.tf
      have hlookup : u.1.shared.positions.lookup key = t.1.shared.positions.lookup key := by
        rw [heq]
        exact AList.lookup_insert_ne hne
      exact ⟨pos, hlookup.symm.trans hpos, rfl⟩
  | sync quote heq =>
      have hlookup : u.1.shared.positions.lookup key = t.1.shared.positions.lookup key := by
        rw [heq]
        exact hguard
      exact ⟨pos, hlookup.symm.trans hpos, rfl⟩

end WebhookTrader
