import WebhookTrader.Engine.Model.Snapshot
import WebhookTrader.Engine.Reconcile
import Mathlib.Data.List.Induction

/-!
# What a sync achieves

On rows whose sides are long and short, a sync brings any filed book to
agreement with the exchange: a held side has a real entry, a real entry
is of a held side, and what is left is paper and young. An update in
place is then never in anyone's way, since its old side is the one side
of the symbol the exchange does not hold.
-/

namespace WebhookTrader

/-- A side of the exchange's. -/
def IsSide (side : String) : Prop := side = "long" ∨ side = "short"

/-- Two sides are the same or opposite. -/
theorem IsSide.eq_or {a b : String} (ha : IsSide a) (hb : IsSide b) :
    a = b ∨ a = Book.otherSide b := by
  rcases ha with rfl | rfl <;> rcases hb with rfl | rfl <;> simp [Book.otherSide]

/-- Every row is on a long or a short side. -/
def ExchangeMap.Sided (ex : ExchangeMap) : Prop := ∀ e ∈ ex.entries, IsSide e.1.2

theorem ExchangeMap.sided_ofRows {rows : List ExchangePosition}
    (h : ∀ row ∈ rows, IsSide row.holdSide) : (ofRows rows).Sided := by
  refine List.foldlRecOn rows _ (motive := Sided) nofun fun ex hex row hrow => ?_
  split_ifs
  · intro e he
    rcases Table.mem_insert.1 he with rfl | ⟨-, hold⟩
    · exact h row hrow
    · exact hex e hold
  · exact hex

/-- What the exchange holds is a row with a holding. -/
theorem ExchangeMap.holds_ofRows {rows : List ExchangePosition} {tag : String × String}
    (h : (ofRows rows).holds tag = true) :
    ∃ row ∈ rows, (row.symbol, row.holdSide) = tag ∧ row.symbol ≠ "" ∧ 0 < row.total := by
  suffices hall : ∀ e ∈ (ofRows rows).entries,
      ∃ row ∈ rows, (row.symbol, row.holdSide) = e.1 ∧ row.symbol ≠ "" ∧ 0 < row.total by
    obtain ⟨row, hrow⟩ := Option.isSome_iff_exists.1 h
    exact hall _ (AList.mem_lookup_iff.1 hrow)
  refine List.foldlRecOn rows _ (motive := fun ex : ExchangeMap => ∀ e ∈ ex.entries,
    ∃ row ∈ rows, (row.symbol, row.holdSide) = e.1 ∧ row.symbol ≠ "" ∧ 0 < row.total) nofun
    fun ex hex row hrow => ?_
  split_ifs with hholding
  · intro e he
    rcases Table.mem_insert.1 he with rfl | ⟨-, hold⟩
    · exact ⟨row, hrow, rfl, hholding⟩
    · exact hex e hold
  · exact hex

/-- A row with a holding is held. -/
theorem ExchangeMap.holds_of_mem {rows : List ExchangePosition} {row : ExchangePosition}
    (hrow : row ∈ rows) (hsymbol : row.symbol ≠ "") (htotal : 0 < row.total) :
    (ofRows rows).holds (row.symbol, row.holdSide) = true := by
  rw [ofRows]
  induction rows using List.reverseRecOn with
  | nil => cases hrow
  | append_singleton rows last ih =>
      rw [List.foldl_concat]
      split_ifs with hlast
      · by_cases hsame : (row.symbol, row.holdSide) = (last.symbol, last.holdSide)
        · rw [holds, hsame, AList.lookup_insert]
          rfl
        · rw [holds, AList.lookup_insert_ne hsame]
          rcases List.mem_append.1 hrow with hold | hnew
          · exact ih hold
          · obtain rfl := List.mem_singleton.1 hnew
            exact (hsame rfl).elim
      · rcases List.mem_append.1 hrow with hold | hnew
        · exact ih hold
        · obtain rfl := List.mem_singleton.1 hnew
          exact (hlast ⟨hsymbol, htotal⟩).elim

namespace Book

variable {now : Clock} {ex : ExchangeMap} {book m : Book} {key : PositionKey}
  {p : ManagedPosition} {ep : ExchangePosition} {tag : String × String}

theorem extKey_inj {a b : String × String} : extKey a = extKey b ↔ a = b := by
  constructor
  · intro h
    injection h with hsymbol hside
    exact Prod.ext hsymbol hside
  · rintro rfl
    rfl

/-! ## Filed books -/

/-- **A filed book**: every position is on a long or a short side, and an
external one is under the key of its symbol and side. -/
structure Filed (book : Book) : Prop where
  side : ∀ e ∈ book.entries, IsSide e.2.side
  ext : ∀ e ∈ book.entries, e.1.isExt = true → e.1 = extKey e.2.tag

/-- An entry under an external key has the symbol and side of the key. -/
theorem Filed.tag_eq (h : book.Filed) (hp : book.lookup (extKey tag) = some p) : p.tag = tag :=
  (extKey_inj.1 (h.ext _ (AList.mem_lookup_iff.1 hp) rfl)).symm

/-- Where entries keep their keys, symbols and sides, a book stays filed. -/
theorem Filed.of_forall {book' : Book} (h : book.Filed)
    (hsub : ∀ e ∈ book'.entries, ∃ e₀ ∈ book.entries, e.1 = e₀.1 ∧ e.2.tag = e₀.2.tag) :
    book'.Filed where
  side e he := by
    obtain ⟨e₀, hmem, -, htag⟩ := hsub e he
    have hside : e.2.side = e₀.2.side := congrArg Prod.snd htag
    rw [hside]
    exact h.side e₀ hmem
  ext e he hext := by
    obtain ⟨e₀, hmem, hkey, htag⟩ := hsub e he
    rw [hkey, htag]
    exact h.ext e₀ hmem (hkey ▸ hext)

theorem filed_markReal (h : book.Filed) : (markReal ex book).Filed :=
  h.of_forall fun e he => by
    obtain ⟨e₀, hmem, hkey, htag, -⟩ := mem_markReal he
    exact ⟨e₀, hmem, hkey, htag⟩

/-- What the exchange holds is marked. -/
theorem isReal_of_mem_markReal {e : Sigma fun _ : PositionKey => ManagedPosition}
    (he : e ∈ (markReal ex book).entries) (hheld : ex.holds e.2.tag = true) :
    e.2.isReal = true := by
  obtain ⟨e₀, -, rfl⟩ := Table.mem_mapValues.1 he
  have htag : (if ex.holds e₀.2.tag = true then { e₀.2 with isReal := true } else e₀.2).tag =
      e₀.2.tag := by split_ifs <;> rfl
  dsimp only at hheld ⊢
  rw [htag] at hheld
  rw [if_pos hheld]

/-! ## The sweep, key by key -/

/-- It goes: it is real, or an old paper position. -/
def Goes (now : Clock) (p : ManagedPosition) : Prop :=
  p.isReal = true ∨ paperLifetime ≤ now.system - p.openedAt

/-- **What the sweep of a filed book is like** once some of its keys are
done. -/
structure Sweeping (now : Clock) (ex : ExchangeMap) (m : Book) (done : List PositionKey)
    (s : Sweep) : Prop where
  /-- An entry is an old one, or real and held, or about to be removed. -/
  stands : ∀ e ∈ s.book.entries, e ∈ m.entries ∨
    (ex.holds e.2.tag = true ∧ e.2.isReal = true ∧ e.1 = extKey e.2.tag) ∨ e.1 ∈ s.toRemove
  /-- A held entry keeps its key, symbol and side. -/
  held : ∀ e ∈ m.entries, ex.holds e.2.tag = true →
    ∃ e' ∈ s.book.entries, e'.1 = e.1 ∧ e'.2.tag = e.2.tag
  /-- Any other entry stays as it is until it is about to be removed. -/
  kept : ∀ k p, m.lookup k = some p → ex.holds p.tag = false → k ∉ s.toRemove →
    s.book.lookup k = some p
  /-- What is about to be removed is done, not held, and goes. -/
  goes : ∀ k ∈ s.toRemove, k ∈ done ∧
    ∃ p, m.lookup k = some p ∧ ex.holds p.tag = false ∧ Goes now p
  /-- What is done, not held, and goes, is about to be removed. -/
  gone : ∀ k ∈ done, ∀ p, m.lookup k = some p → ex.holds p.tag = false → Goes now p →
    k ∈ s.toRemove
  /-- A symbol that was updated in place has an entry on its other side. -/
  changed : ∀ symbol ∈ s.sideChangedSymbols, ∃ e ∈ m.entries, e.2.symbol = symbol ∧
    ex.holds e.2.tag = false ∧ ex.holds (symbol, otherSide e.2.side) = true ∧
    ∃ e' ∈ s.book.entries, e'.1 = extKey (symbol, otherSide e.2.side) ∧
      e'.2.tag = (symbol, otherSide e.2.side)

theorem sweeping_nil : Sweeping now ex m [] { book := m } where
  stands e he := .inl he
  held e he _ := ⟨e, he, rfl, rfl⟩
  kept k p hp _ _ := hp
  goes k hk := by cases hk
  gone k hk := by cases hk
  changed symbol hsymbol := by cases hsymbol

/-- Where nothing happens to a key, it is done: it is held or stays. -/
theorem Sweeping.skip {s : Sweep} {done : List PositionKey} (h : Sweeping now ex m done s)
    (hstays : ∀ p, m.lookup key = some p → ex.holds p.tag = false → ¬ Goes now p) :
    Sweeping now ex m (done ++ [key]) s where
  stands := h.stands
  held := h.held
  kept := h.kept
  goes k hk := ⟨List.mem_append_left _ (h.goes k hk).1, (h.goes k hk).2⟩
  gone k hk p hp hfree hgoes := by
    rcases List.mem_append.1 hk with hold | hnew
    · exact h.gone k hold p hp hfree hgoes
    · obtain rfl := List.mem_singleton.1 hnew
      exact (hstays p hp hfree hgoes).elim
  changed := h.changed

/-- A key that is noted for removal. -/
theorem Sweeping.remove {s : Sweep} {done : List PositionKey} (h : Sweeping now ex m done s)
    (hp : m.lookup key = some p) (hfree : ex.holds p.tag = false) (hgoes : Goes now p) :
    Sweeping now ex m (done ++ [key]) { s with toRemove := key :: s.toRemove } where
  stands e he := (h.stands e he).imp_right (Or.imp_right (List.mem_cons_of_mem _))
  held := h.held
  kept k q hq hfree' hk := h.kept k q hq hfree' fun hmem => hk (List.mem_cons_of_mem _ hmem)
  goes k hk := by
    rcases List.mem_cons.1 hk with rfl | hold
    · exact ⟨List.mem_append_right _ List.mem_cons_self, p, hp, hfree, hgoes⟩
    · exact ⟨List.mem_append_left _ (h.goes k hold).1, (h.goes k hold).2⟩
  gone k hk q hq hfree' hgoes' := by
    rcases List.mem_append.1 hk with hold | hnew
    · exact List.mem_cons_of_mem _ (h.gone k hold q hq hfree' hgoes')
    · obtain rfl := List.mem_singleton.1 hnew
      exact List.mem_cons_self
  changed := h.changed

/-- A key whose position moves to its other side. -/
theorem Sweeping.flip {s : Sweep} {done : List PositionKey} (h : Sweeping now ex m done s)
    (hm : m.Filed) (hex : ex.Keyed) (hp : m.lookup key = some p)
    (hnow : s.book.lookup key = some p) (hflip : flipsTo ex key p = some ep) :
    Sweeping now ex m (done ++ [key])
      { book := (s.book.modify key (flipped ep)).insert (.ext ep.symbol ep.holdSide) (flipped ep p)
        toRemove := key :: s.toRemove
        sideChangedSymbols := p.symbol :: s.sideChangedSymbols } := by
  obtain ⟨hfree, hsymbol, hheld⟩ := flipsTo_some hex hflip
  have hreal : p.isReal = true ∧ ex.lookup (p.symbol, otherSide p.side) = some ep := by
    simp only [flipsTo, Bool.and_eq_true, Option.ite_none_right_eq_some] at hflip
    exact ⟨hflip.1.1.2, hflip.2⟩
  have hnew : (ep.symbol, ep.holdSide) = (p.symbol, otherSide p.side) := hex.of_lookup hreal.2
  have htag : (flipped ep p).tag = (ep.symbol, ep.holdSide) := tag_flipped hex hflip
  have hmem : (⟨key, p⟩ : Sigma fun _ : PositionKey => ManagedPosition) ∈ m.entries :=
    AList.mem_lookup_iff.1 hp
  have hmem' : (⟨key, p⟩ : Sigma fun _ : PositionKey => ManagedPosition) ∈ s.book.entries :=
    AList.mem_lookup_iff.1 hnow
  -- an entry elsewhere is still there
  have hstill : ∀ e ∈ s.book.entries, e.1 ≠ key → e.1 ≠ extKey (ep.symbol, ep.holdSide) →
      e ∈ ((s.book.modify key (flipped ep)).insert (.ext ep.symbol ep.holdSide)
        (flipped ep p)).entries := fun e he hkey hext =>
    Table.mem_insert.2 (.inr ⟨hext, Table.mem_modify.2 ⟨e, he, by rw [if_neg hkey]⟩⟩)
  have hthere : (⟨extKey (ep.symbol, ep.holdSide), flipped ep p⟩ :
      Sigma fun _ : PositionKey => ManagedPosition) ∈
      ((s.book.modify key (flipped ep)).insert (.ext ep.symbol ep.holdSide)
        (flipped ep p)).entries := Table.mem_insert.2 (.inl rfl)
  refine ⟨fun e he => ?_, fun e he hheld' => ?_, fun k q hq hfree' hk => ?_, fun k hk => ?_,
    fun k hk q hq hfree' hgoes => ?_, fun symbol hs => ?_⟩
  · rcases Table.mem_insert.1 he with rfl | ⟨-, he⟩
    · refine .inr (.inl ⟨htag ▸ hheld, hreal.1, ?_⟩)
      rw [htag]
      rfl
    · obtain ⟨e', he', rfl⟩ := Table.mem_modify.1 he
      by_cases hkey : e'.1 = key
      · exact .inr (.inr (hkey ▸ List.mem_cons_self))
      · rw [if_neg hkey]
        exact (h.stands e' he').imp_right (Or.imp_right (List.mem_cons_of_mem _))
  · obtain ⟨e', he', hkey', htag'⟩ := h.held e he hheld'
    -- the entry under the new key is overwritten by one of the same tag
    by_cases hext : e.1 = extKey (ep.symbol, ep.holdSide)
    · have hsame : e.1 = extKey e.2.tag := hm.ext e he (hext ▸ rfl)
      exact ⟨_, hthere, hext.symm, htag.trans (extKey_inj.1 (hext.symm.trans hsame))⟩
    · have hkey : e.1 ≠ key := by
        intro heq
        rw [Table.eq_of_mem he hmem heq] at hheld'
        exact Bool.false_ne_true (hfree.symm.trans hheld')
      exact ⟨e', hstill e' he' (hkey' ▸ hkey) (hkey' ▸ hext), hkey', htag'⟩
  · have hkey : k ≠ key := fun heq => hk (heq ▸ List.mem_cons_self)
    have hext : k ≠ extKey (ep.symbol, ep.holdSide) := by
      rintro rfl
      rw [hm.tag_eq hq, hheld] at hfree'
      cases hfree'
    have hold := h.kept k q hq hfree' fun hmem => hk (List.mem_cons_of_mem _ hmem)
    exact AList.mem_lookup_iff.2 (hstill ⟨k, q⟩ (AList.mem_lookup_iff.1 hold) hkey hext)
  · rcases List.mem_cons.1 hk with rfl | hold
    · exact ⟨List.mem_append_right _ List.mem_cons_self, p, hp, hfree, .inl hreal.1⟩
    · exact ⟨List.mem_append_left _ (h.goes k hold).1, (h.goes k hold).2⟩
  · rcases List.mem_append.1 hk with hold | hnew
    · exact List.mem_cons_of_mem _ (h.gone k hold q hq hfree' hgoes)
    · obtain rfl := List.mem_singleton.1 hnew
      exact List.mem_cons_self
  · rcases List.mem_cons.1 hs with rfl | hold
    · refine ⟨_, hmem, rfl, hfree, hnew ▸ hheld, _, hthere, ?_, ?_⟩
      · rw [hnew]
      · exact htag.trans hnew
    · obtain ⟨e, he, hsym, hfree', hheld', e', he', hkey', htag'⟩ := h.changed symbol hold
      by_cases hext : e'.1 = extKey (ep.symbol, ep.holdSide)
      · have hsame := extKey_inj.1 (hext.symm.trans hkey')
        exact ⟨e, he, hsym, hfree', hheld', _, hthere, by rw [hsame], htag.trans hsame⟩
      · have hkey : e'.1 ≠ key := by
          intro heq
          rw [Table.eq_of_mem he' hmem' heq] at htag'
          rw [← htag', hfree] at hheld'
          cases hheld'
        exact ⟨e, he, hsym, hfree', hheld', e', hstill e' he' hkey hext, hkey', htag'⟩

/-- One key of the sweep. -/
theorem Sweeping.sweepKey {s : Sweep} {done : List PositionKey} (h : Sweeping now ex m done s)
    (hm : m.Filed) (hex : ex.Keyed) (hkey : key ∈ m.keys) (hnew : key ∉ done) :
    Sweeping now ex m (done ++ [key]) (sweepKey now ex s key) := by
  have hnot : key ∉ s.toRemove := fun hmem => hnew (h.goes key hmem).1
  obtain ⟨p, hp⟩ := Option.isSome_iff_exists.1 (AList.lookup_isSome.2 hkey)
  by_cases hheld : ex.holds p.tag = true
  · -- a held entry may have been overwritten, but only by one that is held
    obtain ⟨e', he', hkey', htag⟩ := h.held ⟨key, p⟩ (AList.mem_lookup_iff.1 hp) hheld
    dsimp only at hkey' htag
    have hnow : s.book.lookup key = some e'.2 := AList.mem_lookup_iff.2 (hkey' ▸ he')
    have hheld' : ex.holds e'.2.tag = true := htag ▸ hheld
    have hsame : Book.sweepKey now ex s key = s := by
      simp [Book.sweepKey, hnow, flipsTo, isGhost, hheld']
    rw [hsame]
    refine h.skip fun q hq hfree => ?_
    obtain rfl := Option.some.inj (hp.symm.trans hq)
    exact (Bool.false_ne_true (hfree.symm.trans hheld)).elim
  · rw [Bool.not_eq_true] at hheld
    have hnow := h.kept key p hp hheld hnot
    cases hflip : flipsTo ex key p with
    | some ep =>
        -- the new key is another one, or the position would be held under it
        obtain ⟨-, -, htarget⟩ := flipsTo_some hex hflip
        have hne : PositionKey.ext ep.symbol ep.holdSide ≠ key := by
          rintro rfl
          have htag : p.tag = (ep.symbol, ep.holdSide) := hm.tag_eq hp
          rw [htag, htarget] at hheld
          cases hheld
        have hstep := h.flip hm hex hp hnow hflip
        simpa [Book.sweepKey, hnow, hflip, hne] using hstep
    | none =>
        by_cases hgoes : Goes now p
        · have hghost : isGhost now ex p = true := by
            simpa [isGhost, hheld, Goes] using hgoes
          have hstep := h.remove hp hheld hgoes
          simpa [Book.sweepKey, hnow, hflip, hghost] using hstep
        · have hghost : isGhost now ex p = false := by
            simpa [isGhost, hheld, Goes] using hgoes
          have hsame : Book.sweepKey now ex s key = s := by
            simp [Book.sweepKey, hnow, hflip, hghost]
          rw [hsame]
          refine h.skip fun q hq _ => ?_
          obtain rfl := Option.some.inj (hp.symm.trans hq)
          exact hgoes

/-- **The whole sweep.** -/
theorem sweeping_sweep (now : Clock) (hm : m.Filed) (hex : ex.Keyed) :
    Sweeping now ex m m.keys (sweep now ex m) := by
  suffices hall : ∀ (todo done : List PositionKey) (s : Sweep), done ++ todo = m.keys →
      Sweeping now ex m done s →
      Sweeping now ex m m.keys (todo.foldl (Book.sweepKey now ex) s) from
    hall m.keys [] _ rfl sweeping_nil
  intro todo
  induction todo with
  | nil =>
      intro done s hkeys h
      rw [List.append_nil] at hkeys
      exact hkeys ▸ h
  | cons key todo ih =>
      intro done s hkeys h
      have hnodup : (done ++ key :: todo).Nodup := hkeys ▸ m.keys_nodup
      have hnew : key ∉ done := fun hmem =>
        (List.disjoint_of_nodup_append hnodup) hmem List.mem_cons_self
      have hkey : key ∈ m := AList.mem_keys.2 (hkeys ▸ List.mem_append_right _ List.mem_cons_self)
      refine ih (done ++ [key]) _ ?_ (h.sweepKey hm hex hkey hnew)
      rw [List.append_assoc]
      exact hkeys

/-! ## After the removals -/

section Removed

variable (hm : m.Filed) (hex : ex.Keyed) {e : Sigma fun _ : PositionKey => ManagedPosition}

include hm hex

/-- **What is left after the removals** is held, or paper and young. -/
theorem left_of_removed (h : e ∈ (removed (sweep now ex m)).entries) :
    (e ∈ m.entries ∧ (ex.holds e.2.tag = true ∨ ¬ Goes now e.2)) ∨
      (ex.holds e.2.tag = true ∧ e.2.isReal = true ∧ e.1 = extKey e.2.tag) := by
  have hsweep := sweeping_sweep now hm hex
  obtain ⟨hleft, hmem⟩ := Table.mem_foldl_erase.1 h
  rcases hsweep.stands e hmem with hold | hnew | hgone
  · refine .inl ⟨hold, ?_⟩
    by_contra hcon
    rw [not_or, Bool.not_eq_true, not_not] at hcon
    refine hleft (hsweep.gone e.1 ?_ e.2 (AList.mem_lookup_iff.2 hold) hcon.1 hcon.2)
    exact List.mem_keys_of_mem hold
  · exact .inr hnew
  · exact (hleft hgone).elim

/-- What is not held and does not go is left as it was. -/
theorem lookup_removed (hp : m.lookup key = some p) (hfree : ex.holds p.tag = false)
    (hstays : ¬ Goes now p) : (removed (sweep now ex m)).lookup key = some p := by
  have hsweep := sweeping_sweep now hm hex
  have hnot : key ∉ (sweep now ex m).toRemove := by
    intro hmem
    obtain ⟨-, q, hq, -, hgoes⟩ := hsweep.goes key hmem
    obtain rfl := Option.some.inj (hp.symm.trans hq)
    exact hstays hgoes
  exact AList.mem_lookup_iff.2 (Table.mem_foldl_erase.2
    ⟨hnot, AList.mem_lookup_iff.1 (hsweep.kept key p hp hfree hnot)⟩)

/-- **A symbol updated in place** has an entry on the one side it is held
on. -/
theorem changed_removed (hsided : ex.Sided) (hheld : ex.holds tag = true)
    (hchanged : tag.1 ∈ (sweep now ex m).sideChangedSymbols) :
    ∃ e ∈ (removed (sweep now ex m)).entries, e.2.tag = tag := by
  have hsweep := sweeping_sweep now hm hex
  obtain ⟨e, he, hsymbol, hfree, -, e', he', hkey, htag⟩ := hsweep.changed tag.1 hchanged
  have hside : IsSide tag.2 := by
    obtain ⟨row, hrow⟩ := Option.isSome_iff_exists.1 hheld
    exact hsided _ (AList.mem_lookup_iff.1 hrow)
  have hother : tag = (tag.1, otherSide e.2.side) := by
    refine Prod.ext rfl ((hside.eq_or (hm.side e he)).resolve_left fun hsame => ?_)
    have hsame' : tag = e.2.tag := Prod.ext hsymbol.symm hsame
    rw [← hsame', hheld] at hfree
    cases hfree
  refine ⟨e', Table.mem_foldl_erase.2 ⟨fun hmem => ?_, he'⟩, htag.trans hother.symm⟩
  obtain ⟨-, q, hq, hfree', -⟩ := hsweep.goes e'.1 hmem
  rw [hkey, ← hother] at hq
  rw [hm.tag_eq hq, hheld] at hfree'
  cases hfree'

end Removed

/-! ## Agreement -/

/-- **The book agrees with the exchange**: a held side has an entry, the
entries of held sides are real, and every other entry is paper and
young. -/
structure InSync (now : Clock) (ex : ExchangeMap) (book : Book) : Prop where
  held : ∀ tag, ex.holds tag = true → ∃ e ∈ book.entries, e.2.tag = tag
  real : ∀ e ∈ book.entries, ex.holds e.2.tag = true → e.2.isReal = true
  left : ∀ e ∈ book.entries, ex.holds e.2.tag = false → ¬ Goes now e.2

/-- What was imported is in the book, unless a later row has replaced it. -/
theorem exists_of_mem_rows {rows : List (Sigma fun _ : String × String => ExchangePosition)}
    (hkeyed : ∀ r ∈ rows, (r.2.symbol, r.2.holdSide) = r.1)
    {r : Sigma fun _ : String × String => ExchangePosition} (hr : r ∈ rows) :
    ∃ e ∈ (importRows now rows book).entries, e.1 = extKey r.1 ∧ e.2.tag = r.1 := by
  induction rows using List.reverseRecOn with
  | nil => cases hr
  | append_singleton rows last ih =>
      rw [importRows, List.foldl_concat]
      have hlast := hkeyed last (List.mem_append_right _ List.mem_cons_self)
      have hkey : PositionKey.ext last.2.symbol last.2.holdSide = extKey last.1 := by
        rw [← hlast]
        rfl
      have hinserted : (imported now last.2).tag = last.1 := hlast
      by_cases hsame : r.1 = last.1
      · exact ⟨_, Table.mem_insert.2 (.inl rfl), by rw [hsame, hkey], hinserted.trans hsame.symm⟩
      · rcases List.mem_append.1 hr with hold | hnew
        · obtain ⟨e, he, hkey', htag⟩ :=
            ih (fun r hr => hkeyed r (List.mem_append_left _ hr)) hold
          refine ⟨e, Table.mem_insert.2 (.inr ⟨?_, he⟩), hkey', htag⟩
          rw [hkey', hkey]
          exact fun heq => hsame (extKey_inj.1 heq)
        · obtain rfl := List.mem_singleton.1 hnew
          exact (hsame rfl).elim

/-- An entry whose key no row takes is left alone by the imports. -/
theorem lookup_importRows {rows : List (Sigma fun _ : String × String => ExchangePosition)}
    (hkeyed : ∀ r ∈ rows, (r.2.symbol, r.2.holdSide) = r.1)
    (hfree : ∀ r ∈ rows, key ≠ extKey r.1) :
    (importRows now rows book).lookup key = book.lookup key := by
  induction rows using List.reverseRecOn with
  | nil => rfl
  | append_singleton rows last ih =>
      have hmem : last ∈ rows ++ [last] := List.mem_append_right _ List.mem_cons_self
      have hne : key ≠ .ext last.2.symbol last.2.holdSide := by
        have hkey := hfree last hmem
        rw [← hkeyed last hmem] at hkey
        exact hkey
      rw [importRows, List.foldl_concat, AList.lookup_insert_ne hne]
      exact ih (fun r hr => hkeyed r (List.mem_append_left _ hr))
        fun r hr => hfree r (List.mem_append_left _ hr)

/-- What an import adds is real, under the key of a held side. -/
theorem of_mem_importRows {rows : List (Sigma fun _ : String × String => ExchangePosition)}
    (hkeyed : ∀ r ∈ rows, (r.2.symbol, r.2.holdSide) = r.1)
    {e : Sigma fun _ : PositionKey => ManagedPosition}
    (h : e ∈ (importRows now rows book).entries) :
    e ∈ book.entries ∨ ∃ r ∈ rows, e.2.tag = r.1 ∧ e.1 = extKey r.1 ∧ e.2.isReal = true := by
  induction rows using List.reverseRecOn with
  | nil => exact .inl h
  | append_singleton rows last ih =>
      rw [importRows, List.foldl_concat] at h
      have hmem : last ∈ rows ++ [last] := List.mem_append_right _ List.mem_cons_self
      have hlast := hkeyed last hmem
      rcases Table.mem_insert.1 h with rfl | ⟨-, hold⟩
      · exact .inr ⟨last, hmem, hlast, by rw [← hlast]; rfl, rfl⟩
      · exact (ih (fun r hr => hkeyed r (List.mem_append_left _ hr)) hold).imp_right
          fun ⟨r, hr, hrest⟩ => ⟨r, List.mem_append_left _ hr, hrest⟩

theorem keyed_missingRows (hex : ex.Keyed) {sideChanged : List String} :
    ∀ r ∈ missingRows ex sideChanged book, (r.2.symbol, r.2.holdSide) = r.1 :=
  fun r hr => hex r (List.mem_of_mem_filter hr)

theorem holds_missingRows {sideChanged : List String}
    {r : Sigma fun _ : String × String => ExchangePosition}
    (hr : r ∈ missingRows ex sideChanged book) : ex.holds r.1 = true :=
  ExchangeMap.holds_of_lookup (AList.mem_lookup_iff.2 (List.mem_of_mem_filter hr))

/-- The book has nothing of a missing row. -/
theorem tag_ne_of_missing {sideChanged : List String}
    {r : Sigma fun _ : String × String => ExchangePosition}
    (hr : r ∈ missingRows ex sideChanged book) {e : Sigma fun _ : PositionKey => ManagedPosition}
    (he : e ∈ book.entries) : e.2.tag ≠ r.1 := by
  have hmissing := (List.mem_filter.1 hr).2
  simp only [Bool.and_eq_true, Bool.not_eq_true', List.any_eq_false, decide_eq_true_eq]
    at hmissing
  exact hmissing.2 e he

/-- A held side that the book does not have is missing, unless its symbol
was updated in place. -/
theorem mem_missingRows {sideChanged : List String} (hex : ex.Keyed)
    {r : Sigma fun _ : String × String => ExchangePosition} (hr : r ∈ ex.entries)
    (hchanged : r.1.1 ∉ sideChanged) (hnone : ∀ e ∈ book.entries, e.2.tag ≠ r.1) :
    r ∈ missingRows ex sideChanged book := by
  have hsymbol : r.2.symbol = r.1.1 := congrArg Prod.fst (hex r hr)
  refine List.mem_filter.2 ⟨hr, ?_⟩
  simp only [Bool.and_eq_true, Bool.not_eq_true', List.any_eq_false, decide_eq_true_eq]
  exact ⟨by simpa [hsymbol] using hchanged, hnone⟩

section Reconciled

variable (hbook : book.Filed) (hex : ex.Keyed) (hsided : ex.Sided)

include hbook hex hsided

theorem filed_removed : (removed (sweep now ex book)).Filed := by
  have hside : ∀ tag, ex.holds tag = true → IsSide tag.2 := fun tag hheld => by
    obtain ⟨row, hrow⟩ := Option.isSome_iff_exists.1 hheld
    exact hsided _ (AList.mem_lookup_iff.1 hrow)
  refine ⟨fun e he => ?_, fun e he hext => ?_⟩
  · rcases left_of_removed hbook hex he with ⟨hold, -⟩ | ⟨hheld, -⟩
    · exact hbook.side e hold
    · exact hside _ hheld
  · rcases left_of_removed hbook hex he with ⟨hold, -⟩ | ⟨-, -, hkey⟩
    · exact hbook.ext e hold hext
    · exact hkey

/-- The imports leave what is left after the removals alone. -/
theorem lookup_import {sideChanged : List String}
    (hp : (removed (sweep now ex book)).lookup key = some p) :
    (importRows now (missingRows ex sideChanged (removed (sweep now ex book)))
      (removed (sweep now ex book))).lookup key = some p := by
  rw [lookup_importRows (keyed_missingRows hex) fun r hr hkey => ?_]
  · exact hp
  · -- an external key has the symbol and side of its entry, and no missing row has them
    have hfiled : (removed (sweep now ex book)).Filed := filed_removed hbook hex hsided
    rw [hkey] at hp
    exact tag_ne_of_missing hr (AList.mem_lookup_iff.1 hp) (hfiled.tag_eq hp)

end Reconciled

/-- **A sync keeps a filed book filed.** -/
theorem filed_reconcile (hbook : book.Filed) (hex : ex.Keyed) (hsided : ex.Sided) :
    (book.reconcile now ex).Filed := by
  have hm : (markReal ex book).Filed := filed_markReal hbook
  have hleft : (removed (sweep now ex (markReal ex book))).Filed := filed_removed hm hex hsided
  rw [reconcile_eq]
  refine ⟨fun e he => ?_, fun e he hext => ?_⟩
  · rcases of_mem_importRows (keyed_missingRows hex) he with hold | ⟨r, hr, htag, -, -⟩
    · exact hleft.side e hold
    · obtain ⟨row, hrow⟩ := Option.isSome_iff_exists.1 (holds_missingRows hr)
      have hside := hsided _ (AList.mem_lookup_iff.1 hrow)
      rw [← htag] at hside
      exact hside
  · rcases of_mem_importRows (keyed_missingRows hex) he with hold | ⟨r, -, htag, hkey, -⟩
    · exact hleft.ext e hold hext
    · rw [htag]
      exact hkey

/-- What is not held after a sync does not go: no real position is left
without a counterpart. -/
theorem stays_of_mem_reconcile (hbook : book.Filed) (hex : ex.Keyed)
    {e : Sigma fun _ : PositionKey => ManagedPosition}
    (he : e ∈ (book.reconcile now ex).entries) (hfree : ex.holds e.2.tag = false) :
    ¬ Goes now e.2 := by
  have hm : (markReal ex book).Filed := filed_markReal hbook
  rw [reconcile_eq] at he
  rcases of_mem_importRows (keyed_missingRows hex) he with hold | ⟨r, hr, htag, -, -⟩
  · rcases left_of_removed hm hex hold with ⟨-, hheld | hstays⟩ | ⟨hheld, -, -⟩
    · rw [hfree] at hheld
      cases hheld
    · exact hstays
    · rw [hfree] at hheld
      cases hheld
  · rw [htag, holds_missingRows hr] at hfree
    cases hfree

/-- **A sync brings about agreement.** -/
theorem inSync_reconcile (now : Clock) (hbook : book.Filed) (hex : ex.Keyed) (hsided : ex.Sided) :
    InSync now ex (book.reconcile now ex) := by
  have hm : (markReal ex book).Filed := filed_markReal hbook
  refine ⟨fun tag hheld => ?_, fun e he hheld => ?_,
    fun e he hfree => stays_of_mem_reconcile hbook hex he hfree⟩ <;> rw [reconcile_eq] at *
  · obtain ⟨row, hrow⟩ := Option.isSome_iff_exists.1 hheld
    by_cases hthere : ∃ e ∈ (removed (sweep now ex (markReal ex book))).entries, e.2.tag = tag
    · obtain ⟨e, he, htag⟩ := hthere
      exact ⟨e, AList.mem_lookup_iff.1
        (lookup_import hm hex hsided (AList.mem_lookup_iff.2 he)), htag⟩
    · -- a symbol updated in place would have an entry on the side it is held on
      have hchanged : tag.1 ∉ (sweep now ex (markReal ex book)).sideChangedSymbols :=
        fun hmem => hthere (changed_removed hm hex hsided hheld hmem)
      have hmissing := mem_missingRows hex (AList.mem_lookup_iff.1 hrow) hchanged
        fun e he htag => hthere ⟨e, he, htag⟩
      obtain ⟨e, he, -, htag⟩ := exists_of_mem_rows (keyed_missingRows hex) hmissing
      exact ⟨e, he, htag⟩
  · rcases of_mem_importRows (keyed_missingRows hex) he with hold | ⟨r, -, -, -, hreal⟩
    · rcases left_of_removed hm hex hold with ⟨hmarked, -⟩ | ⟨-, hreal, -⟩
      · exact isReal_of_mem_markReal hmarked hheld
      · exact hreal
    · exact hreal

/-- What is not held and does not go is unchanged by a sync. -/
theorem lookup_reconcile (hbook : book.Filed) (hex : ex.Keyed) (hsided : ex.Sided)
    (hp : book.lookup key = some p) (hfree : ex.holds p.tag = false) (hstays : ¬ Goes now p) :
    (book.reconcile now ex).lookup key = some p := by
  have hm : (markReal ex book).Filed := filed_markReal hbook
  have hmarked : (markReal ex book).lookup key = some p := by
    rw [markReal, Table.lookup_mapValues, hp, Option.map_some, hfree]
    rfl
  rw [reconcile_eq]
  exact lookup_import hm hex hsided (lookup_removed hm hex hmarked hfree hstays)

/-! ## A sync in agreement changes nothing -/

theorem markReal_of_inSync (h : InSync now ex book) : markReal ex book = book := by
  refine AList.ext ?_
  rw [markReal, Table.entries_mapValues]
  refine (List.map_congr_left fun e he => ?_).trans (List.map_id _)
  obtain ⟨k, p⟩ := e
  by_cases hheld : ex.holds p.tag = true
  · have hreal : p.isReal = true := h.real ⟨k, p⟩ he hheld
    have hsame : { p with isReal := true } = p := by rw [← hreal]
    dsimp only
    rw [if_pos hheld, hsame]
    rfl
  · dsimp only
    rw [if_neg hheld]
    rfl

theorem sweep_of_inSync (h : InSync now ex book) : sweep now ex book = { book } := by
  rw [sweep]
  refine List.foldlRecOn book.keys (sweepKey now ex) (motive := fun s => s = { book }) rfl
    fun s hs key hkey => ?_
  obtain ⟨p, hp⟩ := Option.isSome_iff_exists.1 (AList.lookup_isSome.2 hkey)
  rw [hs]
  by_cases hheld : ex.holds p.tag = true
  · simp [sweepKey, hp, flipsTo, isGhost, hheld]
  · rw [Bool.not_eq_true] at hheld
    have hstays := h.left _ (AList.mem_lookup_iff.1 hp) hheld
    have hpaper : p.isReal = false := by
      rw [← Bool.not_eq_true]
      exact fun hreal => hstays (.inl hreal)
    have hyoung : ¬ paperLifetime ≤ now.system - p.openedAt := fun hold => hstays (.inr hold)
    simp [sweepKey, hp, flipsTo, isGhost, hheld, hpaper, hyoung]

theorem missingRows_of_inSync (h : InSync now ex book) : missingRows ex [] book = [] := by
  refine List.filter_eq_nil_iff.2 fun r hr => ?_
  have hheld : ex.holds r.1 = true := ExchangeMap.holds_of_lookup (AList.mem_lookup_iff.2 hr)
  obtain ⟨e, he, htag⟩ := h.held r.1 hheld
  simp only [Bool.and_eq_true, not_and, Bool.not_eq_true', List.any_eq_false, decide_eq_true_eq]
  exact fun _ hnone => hnone e he htag

/-- **A sync of a book in agreement changes nothing.** -/
theorem reconcile_of_inSync (h : InSync now ex book) : book.reconcile now ex = book := by
  rw [reconcile_eq, markReal_of_inSync h, sweep_of_inSync h]
  have hremoved : removed { book } = book := rfl
  rw [hremoved, missingRows_of_inSync h]
  rfl

end Book

end WebhookTrader
