import WebhookTrader.Engine.Model.Book

/-!
# What the reconciliation does to the book

`sync_positions_with_exchange` marks, updates in place, removes and
imports. Seen from the symbols and sides, an entry after the updates is
an old one, or stands for a side the exchange holds, under the key of
that side; and an import is of a side that is nowhere in the book.
-/

namespace WebhookTrader

namespace ExchangeMap

/-- Each row is under its own symbol and side. -/
def Keyed (ex : ExchangeMap) : Prop := ∀ e ∈ ex.entries, (e.2.symbol, e.2.holdSide) = e.1

theorem keyed_ofRows (rows : List ExchangePosition) : (ofRows rows).Keyed := by
  refine List.foldlRecOn rows _ (motive := Keyed) nofun fun ex hex row _ => ?_
  split_ifs
  · intro e he
    rcases Table.mem_insert.1 he with rfl | ⟨-, hold⟩
    · rfl
    · exact hex e hold
  · exact hex

variable {ex : ExchangeMap} {tag : String × String} {row : ExchangePosition}

theorem Keyed.of_lookup (hex : ex.Keyed) (h : ex.lookup tag = some row) :
    (row.symbol, row.holdSide) = tag := hex ⟨tag, row⟩ (AList.mem_lookup_iff.1 h)

theorem holds_of_lookup (h : ex.lookup tag = some row) : ex.holds tag = true := by
  rw [holds, h]
  rfl

end ExchangeMap

namespace Book

variable {now : Clock} {ex : ExchangeMap} {book : Book} {key : PositionKey} {p : ManagedPosition}
  {ep : ExchangePosition} {tag : String × String}

/-- The key of an external position on a symbol and side. -/
def extKey (tag : String × String) : PositionKey := .ext tag.1 tag.2

/-! ## An update in place -/

/-- **What is updated in place** is on a side the exchange does not hold,
and goes to one of the same symbol that it holds. -/
theorem flipsTo_some (hex : ex.Keyed) (h : flipsTo ex key p = some ep) :
    ex.holds p.tag = false ∧ ep.symbol = p.symbol ∧ ex.holds (ep.symbol, ep.holdSide) = true := by
  simp only [flipsTo, Bool.and_eq_true, Bool.not_eq_true', Option.ite_none_right_eq_some] at h
  obtain ⟨⟨⟨hgone, -⟩, -⟩, hlookup⟩ := h
  have htag := hex.of_lookup hlookup
  refine ⟨hgone, congrArg Prod.fst htag, ?_⟩
  rw [htag]
  exact ExchangeMap.holds_of_lookup hlookup

theorem tag_flipped (hex : ex.Keyed) (h : flipsTo ex key p = some ep) :
    (flipped ep p).tag = (ep.symbol, ep.holdSide) := by
  rw [(flipsTo_some hex h).2.1]
  rfl

/-- A side that an entry of the book is updated to. -/
def Target (ex : ExchangeMap) (book : Book) (tag : String × String) : Prop :=
  ∃ e ∈ book.entries, ∃ ep, flipsTo ex e.1 e.2 = some ep ∧ (ep.symbol, ep.holdSide) = tag

theorem Target.holds (hex : ex.Keyed) (h : Target ex book tag) : ex.holds tag = true := by
  obtain ⟨e, -, ep, hflip, rfl⟩ := h
  exact (flipsTo_some hex hflip).2.2

/-! ## Marking -/

/-- What the exchange holds is marked, and nothing else about it
changes. -/
theorem mem_markReal {e : Sigma fun _ : PositionKey => ManagedPosition}
    (h : e ∈ (markReal ex book).entries) : ∃ e₀ ∈ book.entries, e.1 = e₀.1 ∧
      e.2.tag = e₀.2.tag ∧ flipsTo ex e.1 e.2 = flipsTo ex e₀.1 e₀.2 := by
  obtain ⟨e₀, hmem, rfl⟩ := Table.mem_mapValues.1 h
  refine ⟨e₀, hmem, rfl, ?_, ?_⟩ <;> dsimp only <;> split_ifs with hheld
  · rfl
  · rfl
  · have hheld' : ex.holds { e₀.2 with isReal := true }.tag = true := hheld
    simp [flipsTo, hheld, hheld']
  · rfl

theorem uniqueBy_markReal (h : book.UniqueBy ManagedPosition.tag) :
    (markReal ex book).UniqueBy ManagedPosition.tag :=
  h.mapValues fun _ _ => by split_ifs <;> rfl

/-! ## The sweep -/

/-- **What the sweep leaves**: an entry is an old one, or stands for a side
the book was updated to, under that side's key or one to be removed. -/
def Swept (ex : ExchangeMap) (book : Book) (s : Sweep) : Prop :=
  ∀ e ∈ s.book.entries, e ∈ book.entries ∨
    Target ex book e.2.tag ∧ (e.1 = extKey e.2.tag ∨ e.1 ∈ s.toRemove)

theorem swept_sweepKey (hex : ex.Keyed) {s : Sweep} (h : Swept ex book s) :
    Swept ex book (sweepKey now ex s key) := by
  unfold sweepKey
  split
  · exact h
  rename_i p hlookup
  have hmem : (⟨key, p⟩ : Sigma fun _ : PositionKey => ManagedPosition) ∈ s.book.entries :=
    AList.mem_lookup_iff.1 hlookup
  split
  · rename_i ep hflip
    obtain ⟨hgone, -, -⟩ := flipsTo_some hex hflip
    -- what stands for an updated side is held, and not updated again
    have hold : (⟨key, p⟩ : Sigma fun _ : PositionKey => ManagedPosition) ∈ book.entries := by
      refine (h _ hmem).resolve_right fun htarget => ?_
      exact Bool.false_ne_true (hgone.symm.trans (htarget.1.holds hex))
    have htarget : Target ex book (flipped ep p).tag :=
      ⟨_, hold, ep, hflip, (tag_flipped hex hflip).symm⟩
    have hnew : extKey (flipped ep p).tag = .ext ep.symbol ep.holdSide := by
      rw [tag_flipped hex hflip]
      rfl
    have hmodify : ∀ e ∈ (s.book.modify key (flipped ep)).entries,
        e ∈ s.book.entries ∨ e = ⟨key, flipped ep p⟩ := by
      intro e he
      obtain ⟨e', he', rfl⟩ := Table.mem_modify.1 he
      by_cases hkey : e'.1 = key
      · rw [Table.eq_of_mem he' hmem hkey]
        exact .inr (by simp)
      · rw [if_neg hkey]
        exact .inl he'
    -- updated where it is, or moved to the key of its new side
    by_cases hsame : PositionKey.ext ep.symbol ep.holdSide = key
    · intro e he
      simp only [hsame, if_true] at he ⊢
      rcases hmodify e he with hkept | rfl
      · exact h e hkept
      · exact .inr ⟨htarget, .inl (hsame.symm.trans hnew.symm)⟩
    · intro e he
      simp only [hsame, if_false] at he ⊢
      rcases Table.mem_insert.1 he with rfl | ⟨-, he⟩
      · exact .inr ⟨htarget, .inl hnew.symm⟩
      rcases hmodify e he with hkept | rfl
      · exact (h e hkept).imp_right fun hstands =>
          ⟨hstands.1, hstands.2.imp_right (List.mem_cons_of_mem _)⟩
      · exact .inr ⟨htarget, .inr List.mem_cons_self⟩
  · split_ifs
    · exact fun e he => (h e he).imp_right fun hstands =>
        ⟨hstands.1, hstands.2.imp_right (List.mem_cons_of_mem _)⟩
    · exact h

theorem swept_sweep (hex : ex.Keyed) : Swept ex book (sweep now ex book) :=
  List.foldlRecOn _ _ (motive := Swept ex book) (fun _ he => .inl he)
    fun _ h _ _ => swept_sweepKey hex h

/-- The book after the removals. -/
def removed (s : Sweep) : Book := s.toRemove.foldl (fun b k => b.erase k) s.book

theorem mem_removed (hex : ex.Keyed) {e : Sigma fun _ : PositionKey => ManagedPosition}
    (h : e ∈ (removed (sweep now ex book)).entries) :
    e ∈ book.entries ∨ Target ex book e.2.tag ∧ e.1 = extKey e.2.tag := by
  obtain ⟨hkept, hmem⟩ := Table.mem_foldl_erase.1 h
  exact (swept_sweep hex e hmem).imp_right fun hstands =>
    ⟨hstands.1, hstands.2.resolve_right hkept⟩

/-- **No update in place meets an entry of its new side**, except under the
new key itself. -/
def FlipsFree (ex : ExchangeMap) (book : Book) : Prop :=
  ∀ e ∈ book.entries, ∀ ep ∈ flipsTo ex e.1 e.2, ∀ e' ∈ book.entries,
    e'.2.tag = (ep.symbol, ep.holdSide) → e'.1 = .ext ep.symbol ep.holdSide

instance : Decidable (FlipsFree ex book) := by
  unfold FlipsFree
  infer_instance

theorem flipsFree_markReal (h : FlipsFree ex book) : FlipsFree ex (markReal ex book) := by
  intro e he ep hep e' he' htag
  obtain ⟨e₀, hmem, -, -, hflips⟩ := mem_markReal he
  obtain ⟨e₀', hmem', hkey, htag', -⟩ := mem_markReal he'
  rw [hkey]
  exact h e₀ hmem ep (hflips ▸ hep) e₀' hmem' (htag' ▸ htag)

/-- **The updates in place keep a symbol and side unique.** -/
theorem uniqueBy_removed (hex : ex.Keyed) (h : book.UniqueBy ManagedPosition.tag)
    (hfree : FlipsFree ex book) :
    (removed (sweep now ex book)).UniqueBy ManagedPosition.tag := by
  have hkey : ∀ e ∈ book.entries, Target ex book e.2.tag → e.1 = extKey e.2.tag := by
    rintro e he ⟨e₀, he₀, ep, hflip, htag⟩
    rw [hfree e₀ he₀ ep hflip e he htag.symm, extKey, ← htag]
  -- two entries with one tag are old both, or under the key of the tag
  refine .of_key fun e he e' he' htag => ?_
  rcases mem_removed hex he with hold | ⟨htarget, hkey₁⟩ <;>
    rcases mem_removed hex he' with hold' | ⟨htarget', hkey₂⟩
  · rw [h.eq hold hold' htag]
  · rw [hkey e hold (htag ▸ htarget'), hkey₂, htag]
  · rw [hkey₁, hkey e' hold' (htag ▸ htarget), htag]
  · rw [hkey₁, hkey₂, htag]

/-! ## The imports -/

/-- The imports, row by row. -/
def importRows (now : Clock) (rows : List (Sigma fun _ : String × String => ExchangePosition))
    (book : Book) : Book :=
  rows.foldl (fun book e => book.insert (.ext e.2.symbol e.2.holdSide) (imported now e.2)) book

section Import

variable {rows : List (Sigma fun _ : String × String => ExchangePosition)}

theorem mem_importRows {e : Sigma fun _ : PositionKey => ManagedPosition}
    (hkeyed : ∀ r ∈ rows, (r.2.symbol, r.2.holdSide) = r.1)
    (h : e ∈ (importRows now rows book).entries) :
    e ∈ book.entries ∨ ∃ r ∈ rows, e.2.tag = r.1 := by
  induction rows generalizing book with
  | nil => exact .inl h
  | cons r rows ih =>
      rcases ih (fun r hr => hkeyed r (List.mem_cons_of_mem _ hr)) h with hmem | ⟨r', hr', htag⟩
      · rcases Table.mem_insert.1 hmem with rfl | ⟨-, hold⟩
        · exact .inr ⟨r, List.mem_cons_self, hkeyed r List.mem_cons_self⟩
        · exact .inl hold
      · exact .inr ⟨r', List.mem_cons_of_mem _ hr', htag⟩

/-- What is imported is under an external key. -/
theorem isExt_of_mem_importRows {e : Sigma fun _ : PositionKey => ManagedPosition}
    (h : e ∈ (importRows now rows book).entries) : e ∈ book.entries ∨ e.1.isExt = true := by
  induction rows generalizing book with
  | nil => exact .inl h
  | cons r rows ih =>
      rcases ih h with hmem | hext
      · rcases Table.mem_insert.1 hmem with rfl | ⟨-, hold⟩
        · exact .inr rfl
        · exact .inl hold
      · exact .inr hext

/-- **Imports of different sides, none of them in the book**, keep a symbol
and side unique. -/
theorem uniqueBy_importRows (hkeyed : ∀ r ∈ rows, (r.2.symbol, r.2.holdSide) = r.1)
    (hnodup : (rows.map Sigma.fst).Nodup) (h : book.UniqueBy ManagedPosition.tag)
    (hfresh : ∀ r ∈ rows, ∀ e ∈ book.entries, e.2.tag ≠ r.1) :
    (importRows now rows book).UniqueBy ManagedPosition.tag := by
  induction rows generalizing book with
  | nil => exact h
  | cons r rows ih =>
      obtain ⟨hnew, hnodup⟩ := List.nodup_cons.1 hnodup
      have htag : (imported now r.2).tag = r.1 := hkeyed r List.mem_cons_self
      refine ih (fun r hr => hkeyed r (List.mem_cons_of_mem _ hr)) hnodup
        (h.insert fun e he _ => htag ▸ hfresh r List.mem_cons_self e he) fun r' hr' e he => ?_
      rcases Table.mem_insert.1 he with rfl | ⟨-, hold⟩
      · rw [htag]
        rintro heq
        exact hnew (heq ▸ List.mem_map_of_mem hr')
      · exact hfresh r' (List.mem_cons_of_mem _ hr') e hold

end Import

/-- The rows that are imported. -/
def missingRows (ex : ExchangeMap) (sideChanged : List String) (book : Book) :
    List (Sigma fun _ : String × String => ExchangePosition) :=
  ex.entries.filter fun e =>
    !sideChanged.contains e.2.symbol && !(book.entries.any fun b => b.2.tag = e.1)

/-! ## The reconciliation -/

theorem reconcile_eq : book.reconcile now ex =
    importRows now (missingRows ex (sweep now ex (markReal ex book)).sideChangedSymbols
        (removed (sweep now ex (markReal ex book))))
      (removed (sweep now ex (markReal ex book))) := rfl

/-- **What is in the book afterwards** was there before, or is held by the
exchange. -/
theorem tag_of_mem_reconcile (hex : ex.Keyed) {e : Sigma fun _ : PositionKey => ManagedPosition}
    (h : e ∈ (book.reconcile now ex).entries) :
    (∃ e₀ ∈ book.entries, e₀.2.tag = e.2.tag) ∨ ex.holds e.2.tag = true := by
  rw [reconcile_eq] at h
  rcases mem_importRows (fun r hr => hex r (List.mem_of_mem_filter hr)) h with hmem | ⟨r, hr, htag⟩
  · rcases mem_removed hex hmem with hold | ⟨htarget, -⟩
    · obtain ⟨e₀, hmem₀, -, htag, -⟩ := mem_markReal hold
      exact .inl ⟨e₀, hmem₀, htag.symm⟩
    · exact .inr (htarget.holds hex)
  · rw [htag]
    exact .inr (ExchangeMap.holds_of_lookup
      (AList.mem_lookup_iff.2 (List.mem_of_mem_filter hr)))

/-- **Under an entry's key** there is what was there before, on the same
symbol and side. -/
theorem entry_of_mem_reconcile (hex : ex.Keyed) {e : Sigma fun _ : PositionKey => ManagedPosition}
    (h : e ∈ (book.reconcile now ex).entries) (hentry : e.1.isExt = false) :
    ∃ e₀ ∈ book.entries, e.1 = e₀.1 ∧ e.2.tag = e₀.2.tag := by
  have hnot : e.1.isExt ≠ true := by simp [hentry]
  rw [reconcile_eq] at h
  have hremoved := (isExt_of_mem_importRows h).resolve_right hnot
  have hmarked := (mem_removed hex hremoved).resolve_right fun hstands =>
    hnot (hstands.2 ▸ rfl)
  obtain ⟨e₀, hmem, hkey, htag, -⟩ := mem_markReal hmarked
  exact ⟨e₀, hmem, hkey, htag⟩

/-- Nothing new gets under an entry's key. -/
theorem lookup_reconcile_of_fresh (hex : ex.Keyed) (hentry : key.isExt = false)
    (hfresh : book.lookup key = none) : (book.reconcile now ex).lookup key = none := by
  rw [Option.eq_none_iff_forall_ne_some]
  intro p hp
  obtain ⟨e₀, hmem, hkey, -⟩ := entry_of_mem_reconcile hex (AList.mem_lookup_iff.1 hp) hentry
  have hsome : book.lookup e₀.1 = some e₀.2 := AList.mem_lookup_iff.2 hmem
  rw [← hkey, hfresh] at hsome
  cases hsome

/-- **The reconciliation keeps a symbol and side unique**, where no update
in place meets an entry of its new side. -/
theorem uniqueBy_reconcile (hex : ex.Keyed) (h : book.UniqueBy ManagedPosition.tag)
    (hfree : FlipsFree ex book) : (book.reconcile now ex).UniqueBy ManagedPosition.tag := by
  rw [reconcile_eq]
  refine uniqueBy_importRows (fun r hr => hex r (List.mem_of_mem_filter hr)) ?_
    (uniqueBy_removed hex (uniqueBy_markReal h) (flipsFree_markReal hfree)) fun r hr e he => ?_
  · exact ex.nodupKeys.sublist List.filter_sublist
  · have hmissing := (List.mem_filter.1 hr).2
    simp only [Bool.and_eq_true, Bool.not_eq_true', List.any_eq_false, decide_eq_true_eq]
      at hmissing
    exact hmissing.2 e he

end Book

end WebhookTrader
