import Mathlib.Data.List.AList
import Mathlib.Data.List.Nodup
import Mathlib.Data.Rat.Defs
import Mathlib.Algebra.Ring.Rat
import Mathlib.Algebra.BigOperators.Group.List.Basic

/-!
# Keyed tables

A table is a list of entries with no key twice: the reading of a hash map
whose iteration order is the list's. Mathlib's `AList` has the insertions
and look-ups; this file adds what the map's users do by value rather than
by key: counting entries with a property, summing a number over the
entries, finding the first entry with a property, and keeping a tag of
the entries unique.
-/

namespace WebhookTrader

/-- **A table**: entries of one type under keys of another, no key twice. -/
abbrev Table (α : Type) (V : Type) := AList (fun _ : α => V)

namespace Table

variable {α V γ : Type}

/-- How many entries have a property. -/
def count (p : V → Bool) (t : Table α V) : ℕ := t.entries.countP fun e => p e.2

/-- How many entries there are. -/
def size (t : Table α V) : ℕ := t.entries.length

/-- The sum of a number over the entries. -/
def sum (f : V → ℚ) (t : Table α V) : ℚ := (t.entries.map fun e => f e.2).sum

/-- The first entry with a property, with its key. -/
def findValue (p : V → Bool) (t : Table α V) : Option (α × V) :=
  (t.entries.find? fun e => p e.2).map fun e => (e.1, e.2)

/-- Rewrite every value in place. -/
def mapValues (f : α → V → V) (t : Table α V) : Table α V where
  entries := t.entries.map fun e => ⟨e.1, f e.1 e.2⟩
  nodupKeys := by
    have h := t.keys_nodup
    simpa [List.NodupKeys, AList.keys, List.keys, List.map_map, Function.comp_def] using h

/-- Rewrite the value of one key in place, where the key is present. -/
def modify [DecidableEq α] (k : α) (f : V → V) (t : Table α V) : Table α V :=
  t.mapValues fun k' v => if k' = k then f v else v

/-- The entries whose value has a property. -/
def keep (p : V → Bool) (t : Table α V) : Table α V where
  entries := t.entries.filter fun e => p e.2
  nodupKeys := t.nodupKeys.sublist List.filter_sublist

/-- The values under other keys, inserted one after the other. -/
def rekey {β : Type} [DecidableEq β] (k : α → β) (t : Table α V) : Table β V :=
  t.entries.foldl (fun other e => other.insert (k e.1) e.2) ∅

/-- Where every value has it, they all stay. -/
theorem keep_eq_self {p : V → Bool} {t : Table α V} (h : ∀ e ∈ t.entries, p e.2 = true) :
    t.keep p = t := AList.ext (List.filter_eq_self.2 h)

theorem keep_congr {p q : V → Bool} {t : Table α V} (h : ∀ e ∈ t.entries, p e.2 = q e.2) :
    t.keep p = t.keep q := AList.ext (List.filter_congr h)

theorem keep_keep (p q : V → Bool) (t : Table α V) :
    (t.keep p).keep q = t.keep fun v => p v && q v :=
  AList.ext (List.filter_filter.trans (List.filter_congr fun _ _ => Bool.and_comm _ _))

@[simp] theorem entries_mapValues (f : α → V → V) (t : Table α V) :
    (t.mapValues f).entries = t.entries.map fun e => ⟨e.1, f e.1 e.2⟩ := rfl

/-! ## Membership -/

section Membership

variable {t : Table α V} {k : α} {v : V} {e : Sigma fun _ : α => V}

theorem mem_erase [DecidableEq α] : e ∈ (t.erase k).entries ↔ e.1 ≠ k ∧ e ∈ t.entries := by
  obtain ⟨k', v'⟩ := e
  simp only [← AList.mem_lookup_iff]
  by_cases h : k' = k
  · subst h
    simp [AList.lookup_erase]
  · simp [AList.lookup_erase_ne h, h]

/-- **What is left was there.** -/
theorem of_lookup_erase [DecidableEq α] {k' : α} (h : AList.lookup k' (t.erase k) = some v) :
    t.lookup k' = some v :=
  AList.mem_lookup_iff.2 (mem_erase.1 (AList.mem_lookup_iff.1 h)).2

/-- Nothing comes by taking out. -/
theorem lookup_erase_of_none [DecidableEq α] {k' : α} (h : t.lookup k' = none) :
    AList.lookup k' (t.erase k) = none := by
  by_contra hsome
  obtain ⟨v, hv⟩ := Option.ne_none_iff_exists'.1 hsome
  rw [of_lookup_erase hv] at h
  cases h

theorem mem_foldl_erase [DecidableEq α] {ks : List α} :
    e ∈ (ks.foldl (fun t k => AList.erase k t) t).entries ↔ e.1 ∉ ks ∧ e ∈ t.entries := by
  induction ks generalizing t with
  | nil => simp
  | cons k ks ih =>
      rw [List.foldl_cons, ih, mem_erase, List.mem_cons, not_or, and_left_comm, and_assoc]

theorem lookup_foldl_erase [DecidableEq α] {ks : List α} :
    (ks.foldl (fun t k => AList.erase k t) t).lookup k = if k ∈ ks then none else t.lookup k := by
  induction ks generalizing t with
  | nil => rfl
  | cons k₀ ks ih =>
      rw [List.foldl_cons, ih]
      by_cases hk : k = k₀
      · subst hk
        rw [AList.lookup_erase, if_pos List.mem_cons_self, ite_self]
      · simp only [AList.lookup_erase_ne hk, List.mem_cons, hk, false_or]

theorem mem_insert [DecidableEq α] :
    e ∈ (t.insert k v).entries ↔ e = ⟨k, v⟩ ∨ e.1 ≠ k ∧ e ∈ t.entries := by
  rw [AList.entries_insert, List.mem_cons]
  exact or_congr_right (mem_erase (t := t))

/-- The only entry is taken out again. -/
theorem erase_insert_empty [DecidableEq α] :
    AList.erase k (AList.insert k v (∅ : Table α V)) = ∅ := by
  refine AList.ext (List.eq_nil_iff_forall_not_mem.2 fun e he => ?_)
  obtain ⟨hne, hmem⟩ := mem_erase.1 he
  rcases mem_insert.1 hmem with rfl | ⟨-, hempty⟩
  · exact hne rfl
  · exact absurd hempty List.not_mem_nil

theorem mem_mapValues {f : α → V → V} :
    e ∈ (t.mapValues f).entries ↔ ∃ e' ∈ t.entries, e = ⟨e'.1, f e'.1 e'.2⟩ := by
  simp only [entries_mapValues, List.mem_map, eq_comm]

theorem mem_modify [DecidableEq α] {f : V → V} : e ∈ (t.modify k f).entries ↔
    ∃ e' ∈ t.entries, e = ⟨e'.1, if e'.1 = k then f e'.2 else e'.2⟩ := mem_mapValues

/-- A key has one entry. -/
theorem eq_of_mem [DecidableEq α] {e' : Sigma fun _ : α => V} (he : e ∈ t.entries)
    (he' : e' ∈ t.entries) (h : e.1 = e'.1) : e = e' := by
  obtain ⟨k, v⟩ := e
  obtain ⟨k', v'⟩ := e'
  obtain rfl : k = k' := h
  have heq := (AList.mem_lookup_iff.2 he).symm.trans (AList.mem_lookup_iff.2 he')
  rw [Option.some.inj heq]

/-! ### Looking up after a rewriting -/

theorem lookup_mapValues [DecidableEq α] {f : α → V → V} :
    (t.mapValues f).lookup k = (t.lookup k).map (f k) := by
  refine Option.ext fun v => ?_
  rw [Option.map_eq_some_iff]
  constructor
  · intro h
    obtain ⟨e, he, heq⟩ := mem_mapValues.1 (AList.mem_lookup_iff.1 h)
    obtain rfl : k = e.1 := congrArg Sigma.fst heq
    exact ⟨e.2, AList.mem_lookup_iff.2 he, (eq_of_heq (Sigma.mk.inj heq).2).symm⟩
  · rintro ⟨v', hv', rfl⟩
    exact AList.mem_lookup_iff.2 (mem_mapValues.2 ⟨⟨k, v'⟩, AList.mem_lookup_iff.1 hv', rfl⟩)

theorem lookup_modify [DecidableEq α] {f : V → V} :
    (t.modify k f).lookup k = (t.lookup k).map f := by
  simp [modify, lookup_mapValues]

theorem lookup_modify_ne [DecidableEq α] {f : V → V} {k' : α} (h : k' ≠ k) :
    (t.modify k f).lookup k' = t.lookup k' := by
  simp [modify, lookup_mapValues, h]

/-! ### Rewriting every value -/

theorem keys_mapValues (f : α → V → V) (t : Table α V) : (t.mapValues f).keys = t.keys := by
  simp [AList.keys, List.keys]

/-- Values may be rewritten before an entry is taken out, or after. -/
theorem mapValues_erase [DecidableEq α] (f : α → V → V) (k : α) (t : Table α V) :
    mapValues f (t.erase k) = (t.mapValues f).erase k := by
  refine AList.ext ?_
  have hcommute := List.eraseP_map (p := fun e : Sigma fun _ : α => V => decide (k = e.1))
    (f := fun e : Sigma fun _ : α => V => ⟨e.1, f e.1 e.2⟩) (l := t.entries)
  exact hcommute.symm

theorem mapValues_insert [DecidableEq α] (f : α → V → V) (k : α) (v : V) (t : Table α V) :
    mapValues f (t.insert k v) = (t.mapValues f).insert k (f k v) := by
  refine AList.ext ?_
  rw [entries_mapValues, AList.entries_insert, AList.entries_insert, List.map_cons]
  exact congrArg (_ :: ·) (congrArg AList.entries (mapValues_erase f k t))

/-- Two rewritings that do not disturb each other. -/
theorem mapValues_modify [DecidableEq α] {f : α → V → V} {g : V → V} {k : α}
    (h : ∀ v, f k (g v) = g (f k v)) (t : Table α V) :
    mapValues f (t.modify k g) = (t.mapValues f).modify k g := by
  refine AList.ext ?_
  simp only [modify, entries_mapValues, List.map_map]
  refine List.map_congr_left fun e _ => ?_
  by_cases hk : e.1 = k
  · simp [hk, h]
  · simp [hk]

end Membership

/-! ## Writing a table down and reading it back -/

section Pairs

variable {β ε : Type}

/-- The entries, with their values written down. -/
def toPairs (write : V → β) (t : Table α V) : List (α × β) :=
  t.entries.map fun e => (e.1, write e.2)

/-- Read keyed values into a table, up to the first that raises. -/
def readEach [DecidableEq α] (read : β → Except ε V) :
    List (α × β) → Table α V → Table α V × Except ε Unit
  | [], t => (t, .ok ())
  | (k, b) :: rest, t =>
      match read b with
      | .ok v => readEach read rest (t.insert k v)
      | .error e => (t, .error e)

variable {write : V → β} {read : β → Except ε V} {f : V → V}

theorem readEach_entries [DecidableEq α] (hread : ∀ v, read (write v) = .ok (f v))
    (l : List (Sigma fun _ : α => V)) (hl : l.NodupKeys) (t : Table α V) :
    (readEach read (l.map fun e => (e.1, write e.2)) t).2 = .ok () ∧
      ∀ k, (readEach read (l.map fun e => (e.1, write e.2)) t).1.lookup k =
        ((l.dlookup k).map f).or (t.lookup k) := by
  induction l generalizing t with
  | nil => exact ⟨rfl, fun k => rfl⟩
  | cons e l ih =>
      obtain ⟨k₀, v⟩ := e
      rw [List.nodupKeys_cons] at hl
      obtain ⟨hfresh, hl⟩ := hl
      simp only [List.map_cons, readEach, hread]
      obtain ⟨hok, hlookup⟩ := ih hl (t.insert k₀ (f v))
      refine ⟨hok, fun k => ?_⟩
      rw [hlookup]
      by_cases hk : k = k₀
      · subst hk
        rw [List.dlookup_eq_none.2 hfresh, List.dlookup_cons_eq, AList.lookup_insert]
        rfl
      · rw [List.dlookup_cons_ne _ _ hk, AList.lookup_insert_ne hk]

/-- **What was written down is read back**: every reading succeeds, and what
is under a key is what reading makes of it. -/
theorem readEach_toPairs [DecidableEq α] (hread : ∀ v, read (write v) = .ok (f v))
    (t : Table α V) : (readEach read (t.toPairs write) ∅).2 = .ok () ∧
      ∀ k, (readEach read (t.toPairs write) ∅).1.lookup k = (t.lookup k).map f := by
  obtain ⟨hok, hlookup⟩ := readEach_entries hread t.entries t.nodupKeys ∅
  refine ⟨hok, fun k => ?_⟩
  rw [toPairs, hlookup, AList.lookup_empty, Option.or_none]
  rfl

end Pairs

/-! ## Counting -/

section Count

variable {p : V → Bool} {t : Table α V} {k : α} {v : V}

theorem size_eq_count : t.size = t.count fun _ => true := by simp [size, count]

/-- **Inserting an entry adds at most itself to a count.** -/
theorem count_insert_le [DecidableEq α] :
    count p (t.insert k v) ≤ count p t + if p v then 1 else 0 := by
  simp only [count, AList.entries_insert, List.countP_cons]
  exact Nat.add_le_add_right (List.kerase_sublist k t.entries).countP_le _

/-- Under a fresh key it adds just that. -/
theorem count_insert [DecidableEq α] (h : t.lookup k = none) :
    count p (t.insert k v) = count p t + if p v then 1 else 0 := by
  unfold count
  rw [AList.entries_insert_of_notMem (AList.lookup_eq_none.1 h), List.countP_cons]

/-- One entry more. -/
theorem size_insert [DecidableEq α] (h : t.lookup k = none) :
    size (t.insert k v) = t.size + 1 := by
  rw [size_eq_count, size_eq_count, count_insert h, if_pos rfl]

end Count

/-! ## Sums -/

section Sum

variable {f : V → ℚ} {g : V → V} {t : Table α V} {k : α} {v : V}

theorem nodup_entries (t : Table α V) : t.entries.Nodup :=
  List.Nodup.of_map Sigma.fst t.keys_nodup

variable [DecidableEq α]

/-- A table is one entry and the others. -/
theorem entries_perm (h : t.lookup k = some v) :
    t.entries.Perm (⟨k, v⟩ :: (t.erase k).entries) := by
  have hnot : (⟨k, v⟩ : Sigma fun _ : α => V) ∉ (t.erase k).entries :=
    fun hmem => (mem_erase.1 hmem).1 rfl
  refine (List.perm_ext_iff_of_nodup (nodup_entries t)
    (List.nodup_cons.2 ⟨hnot, nodup_entries _⟩)).2 fun e => ?_
  rw [List.mem_cons, mem_erase]
  constructor
  · intro he
    by_cases hk : e.1 = k
    · exact .inl (eq_of_mem he (AList.mem_lookup_iff.1 h) hk)
    · exact .inr ⟨hk, he⟩
  · rintro (rfl | ⟨-, he⟩)
    · exact AList.mem_lookup_iff.1 h
    · exact he

/-- An amount of the entries is that of one and of the others. -/
theorem sum_map_entries {M : Type} [AddCommMonoid M] (g : V → M) (h : t.lookup k = some v) :
    (t.entries.map fun e => g e.2).sum =
      g v + ((t.erase k).entries.map fun e => g e.2).sum := by
  have hperm := ((entries_perm h).map fun e => g e.2).sum_eq
  rw [List.map_cons, List.sum_cons] at hperm
  exact hperm

theorem sum_eq_add_erase (h : t.lookup k = some v) : t.sum f = f v + sum f (t.erase k) :=
  sum_map_entries f h

theorem sum_insert (h : t.lookup k = none) : sum f (t.insert k v) = f v + t.sum f := by
  unfold sum
  rw [AList.entries_insert_of_notMem (AList.lookup_eq_none.1 h), List.map_cons, List.sum_cons]

theorem sum_modify (h : t.lookup k = some v) :
    (t.modify k g).sum f = f (g v) + sum f (t.erase k) := by
  have hlookup : (t.modify k g).lookup k = some (g v) := by rw [lookup_modify, h, Option.map_some]
  have hrest : ((t.modify k g).erase k).entries.Perm (t.erase k).entries := by
    refine (List.perm_ext_iff_of_nodup (nodup_entries _) (nodup_entries _)).2 fun e => ?_
    rw [mem_erase, mem_erase, mem_modify]
    constructor
    · rintro ⟨hk, e', he', rfl⟩
      rw [if_neg hk]
      exact ⟨hk, he'⟩
    · rintro ⟨hk, he⟩
      exact ⟨hk, e, he, by rw [if_neg hk]⟩
  have hsum : sum f ((t.modify k g).erase k) = sum f (t.erase k) :=
    (hrest.map fun e : Sigma fun _ : α => V => f e.2).sum_eq
  rw [sum_eq_add_erase hlookup, hsum]

end Sum

/-! ## Finding by value -/

section Find

variable {p : V → Bool} {t : Table α V} {k : α} {v : V}

/-- What is found has the property and is in the table under its key. -/
theorem findValue_eq_some [DecidableEq α] (h : t.findValue p = some (k, v)) :
    p v = true ∧ t.lookup k = some v := by
  simp only [findValue, Option.map_eq_some_iff, Prod.mk.injEq] at h
  obtain ⟨e, he, rfl, rfl⟩ := h
  have hmem : (⟨e.1, e.2⟩ : Sigma fun _ : α => V) ∈ t.entries := List.mem_of_find?_eq_some he
  refine ⟨?_, ?_⟩
  · simpa using List.find?_some he
  · exact AList.mem_lookup_iff.2 hmem

/-- What is not found is the value of no entry. -/
theorem findValue_eq_none (h : t.findValue p = none) : ∀ e ∈ t.entries, ¬ p e.2 = true := by
  rw [findValue, Option.map_eq_none_iff] at h
  exact List.find?_eq_none.1 h

/-- **No other key has an entry with the property.** -/
def Only (p : V → Bool) (k : α) (t : Table α V) : Prop := ∀ e ∈ t.entries, p e.2 = true → e.1 = k

theorem Only.erase [DecidableEq α] (h : t.Only p k) : Only p k (t.erase k) :=
  fun e he hp => h e (mem_erase.1 he).2 hp

theorem Only.modify [DecidableEq α] {f : V → V} (h : t.Only p k) : (t.modify k f).Only p k := by
  intro e he hp
  obtain ⟨e', he', rfl⟩ := mem_modify.1 he
  dsimp only at hp ⊢
  split_ifs at hp with hk
  · exact hk
  · exact h e' he' hp

theorem Only.findValue [DecidableEq α] (h : t.Only p k) (hlookup : t.lookup k = some v)
    (hp : p v = true) : t.findValue p = some (k, v) := by
  have hmem : (⟨k, v⟩ : Sigma fun _ : α => V) ∈ t.entries := AList.mem_lookup_iff.1 hlookup
  have hfound : (t.entries.find? fun e => p e.2).isSome = true :=
    List.find?_isSome.2 ⟨_, hmem, hp⟩
  obtain ⟨e, he⟩ := Option.isSome_iff_exists.1 hfound
  have hkey : e.1 = k := h e (List.mem_of_find?_eq_some he) (by simpa using List.find?_some he)
  obtain rfl : e = ⟨k, v⟩ := eq_of_mem (List.mem_of_find?_eq_some he) hmem hkey
  rw [Table.findValue, he, Option.map_some]

theorem Only.findValue_eq_none [DecidableEq α] (h : t.Only p k) (hlookup : t.lookup k = none) :
    t.findValue p = none := by
  rw [Table.findValue, Option.map_eq_none_iff, List.find?_eq_none]
  intro e he hp
  have hkey : e.1 = k := h e he hp
  have hsome : t.lookup k = some e.2 := hkey ▸ AList.mem_lookup_iff.2 he
  cases hlookup.symm.trans hsome

end Find

/-! ## What is left of an entry -/

section Left

variable {p : V → Prop} {qty : V → ℚ} {k : α} {whole a : ℚ} {t : Table α V} {v : V}
  [DecidableEq α]

/-- **A share of what an entry was is left under its key**; with nothing
left the entry is gone. -/
inductive Left (p : V → Prop) (qty : V → ℚ) (k : α) (whole : ℚ) (t : Table α V) : ℚ → Prop
  | stays {a : ℚ} {v : V} (hpos : 0 < a) (hlookup : t.lookup k = some v) (hp : p v)
      (hqty : qty v = a * whole) : Left p qty k whole t a
  | gone (hlookup : t.lookup k = none) : Left p qty k whole t 0

/-- The share that is left, as it is read off the table. -/
def share (qty : V → ℚ) (k : α) (whole : ℚ) (t : Table α V) : ℚ :=
  ((t.lookup k).elim 0 qty) / whole

theorem Left.share_eq (h : Left p qty k whole t a) (hwhole : whole ≠ 0) :
    t.share qty k whole = a := by
  cases h with
  | stays _ hlookup _ hqty =>
      rw [Table.share, hlookup]
      show qty _ / whole = _
      rw [hqty, mul_div_assoc, div_self hwhole, mul_one]
  | gone hlookup =>
      rw [Table.share, hlookup]
      exact zero_div _

theorem Left.erase : Left p qty k whole (AList.erase k t) 0 := .gone (AList.lookup_erase k t)

theorem Left.modify {f : V → V} (hpos : 0 < a) (hlookup : t.lookup k = some v) (hp : p (f v))
    (hqty : qty (f v) = a * whole) : Left p qty k whole (t.modify k f) a :=
  .stays hpos (by rw [lookup_modify, hlookup, Option.map_some]) hp hqty

end Left

/-! ## Setting one entry -/

section Sets

variable {t t' : Table α V} {k k' : α} [DecidableEq α]

/-- **The one table is the other with the entry of a key set.** -/
def Sets (k : α) (t t' : Table α V) : Prop := ∃ v, t' = t.insert k v

theorem sets_insert (k : α) (v : V) (t : Table α V) : Sets k t (t.insert k v) := ⟨v, rfl⟩

/-- What is set is there. -/
theorem Sets.lookup_isSome (h : Sets k t t') : (t'.lookup k).isSome = true := by
  obtain ⟨v, rfl⟩ := h
  rw [AList.lookup_insert]
  rfl

/-- **One key is set, and no other.** -/
theorem Sets.key_eq (h : Sets k t t') (h' : Sets k' t t') : k = k' := by
  obtain ⟨v, rfl⟩ := h
  obtain ⟨v', heq⟩ := h'
  have hentries := congrArg AList.entries heq
  rw [AList.entries_insert, AList.entries_insert] at hentries
  exact congrArg Sigma.fst (List.cons.inj hentries).1

theorem Sets.iff_eq (h : Sets k t t') : Sets k' t t' ↔ k = k' := by
  constructor
  · intro h'
    exact h.key_eq h'
  · rintro rfl
    exact h

end Sets

/-! ## A part of a table, as far as a view goes -/

/-- **The views of one table's entries are among the other's**, in order
and with their multiplicity: entries have gone, and what was rewritten
keeps its view. -/
def Within (g : V → γ) (t' t : Table α V) : Prop :=
  (t'.entries.map fun e => g e.2).Sublist (t.entries.map fun e => g e.2)

section Within

variable {g : V → γ} {t t' t'' : Table α V} {k : α} {v : V}

@[simp] theorem Within.refl : Within g t t := List.Sublist.refl _

theorem Within.trans (h : Within g t'' t') (h' : Within g t' t) : Within g t'' t :=
  List.Sublist.trans h h'

theorem Within.erase [DecidableEq α] : Within g (t.erase k) t :=
  (List.kerase_sublist k t.entries).map _

theorem Within.mapValues {f : α → V → V} (hf : ∀ k v, g (f k v) = g v) :
    Within g (t.mapValues f) t := by
  simp only [Within, entries_mapValues, List.map_map, Function.comp_def, hf]
  exact List.Sublist.refl _

theorem Within.modify [DecidableEq α] {f : V → V} (hf : ∀ v, g (f v) = g v) :
    Within g (t.modify k f) t :=
  Within.mapValues fun k' v => by split <;> simp [hf]

/-- A part counts at most as many entries. -/
theorem Within.count_le (h : Within g t' t) (p : γ → Bool) :
    t'.count (fun v => p (g v)) ≤ t.count fun v => p (g v) := by
  have hcount := h.countP_le (p := p)
  rw [List.countP_map, List.countP_map] at hcount
  exact hcount

/-- What a part shows, the whole shows. -/
theorem Within.exists_of_mem (h : Within g t' t) {e : Sigma fun _ : α => V} (he : e ∈ t'.entries) :
    ∃ e' ∈ t.entries, g e'.2 = g e.2 :=
  List.mem_map.1 (h.subset (List.mem_map_of_mem he))

end Within

/-! ## A tag no two entries share -/

/-- **No two entries have the same tag.** -/
def UniqueBy (g : V → γ) (t : Table α V) : Prop := (t.entries.map fun e => g e.2).Nodup

section Unique

variable {g : V → γ} {t : Table α V} {k : α} {v : V}

@[simp] theorem uniqueBy_empty : UniqueBy g (∅ : Table α V) := List.nodup_nil

theorem UniqueBy.erase [DecidableEq α] (h : t.UniqueBy g) : UniqueBy g (t.erase k) :=
  h.sublist ((List.kerase_sublist k t.entries).map _)

/-- An entry whose tag no other entry has may be inserted. -/
theorem UniqueBy.insert [DecidableEq α] (h : t.UniqueBy g)
    (hfresh : ∀ e ∈ t.entries, e.1 ≠ k → g e.2 ≠ g v) : UniqueBy g (t.insert k v) := by
  simp only [UniqueBy, AList.entries_insert, List.map_cons, List.nodup_cons]
  refine ⟨?_, h.sublist ((List.kerase_sublist k t.entries).map _)⟩
  simp only [List.mem_map, not_exists, not_and]
  intro e he
  have hk : e.1 ≠ k := by
    rintro rfl
    exact List.notMem_keys_kerase e.1 t.nodupKeys (List.mem_keys_of_mem he)
  exact hfresh e (List.kerase_sublist k t.entries |>.subset he) hk

/-- A rewriting that keeps every tag keeps the tags unique. -/
theorem UniqueBy.mapValues (h : t.UniqueBy g) {f : α → V → V}
    (hf : ∀ e ∈ t.entries, g (f e.1 e.2) = g e.2) : UniqueBy g (t.mapValues f) := by
  have heq : (t.mapValues f).entries.map (fun e => g e.2) = t.entries.map fun e => g e.2 := by
    rw [entries_mapValues, List.map_map]
    exact List.map_congr_left fun e he => hf e he
  rw [UniqueBy, heq]
  exact h

/-- A part keeps the tags unique, where the view shows the tag. -/
theorem UniqueBy.within {δ : Type} {f : γ → δ} {t' : Table α V} (h : UniqueBy (fun v => f (g v)) t)
    (hw : Within g t' t) : UniqueBy (fun v => f (g v)) t' := by
  have hsub := hw.map f
  simp only [List.map_map, Function.comp_def] at hsub
  exact h.sublist hsub

/-- Where equal tags are on equal keys, no tag is there twice. -/
theorem UniqueBy.of_key [DecidableEq α]
    (h : ∀ e ∈ t.entries, ∀ e' ∈ t.entries, g e.2 = g e'.2 → e.1 = e'.1) : t.UniqueBy g :=
  t.nodupKeys.nodup.map_on fun e he e' he' hg => eq_of_mem he he' (h e he e' he' hg)

/-- Two entries with the same tag are the same entry. -/
theorem UniqueBy.eq (h : t.UniqueBy g) {e e' : Sigma fun _ : α => V} (he : e ∈ t.entries)
    (he' : e' ∈ t.entries) (hg : g e.2 = g e'.2) : e = e' :=
  List.inj_on_of_nodup_map h he he' hg

/-- An entry is taken out by its tag. -/
theorem UniqueBy.erase_eq_keep [DecidableEq α] [DecidableEq γ] (h : t.UniqueBy g)
    (hlookup : t.lookup k = some v) : t.erase k = t.keep fun w => g w ≠ g v := by
  have hmem : (⟨k, v⟩ : Sigma fun _ : α => V) ∈ t.entries := AList.mem_lookup_iff.1 hlookup
  obtain ⟨w, before, after, -, hsplit, herase⟩ :=
    List.exists_of_kerase (List.mem_keys_of_mem hmem)
  obtain rfl : w = v := by
    have hw : (⟨k, w⟩ : Sigma fun _ : α => V) ∈ t.entries := by simp [hsplit]
    exact Option.some.inj ((AList.mem_lookup_iff.2 hw).symm.trans hlookup)
  have hnodup : ((before ++ ⟨k, w⟩ :: after).map fun e => g e.2).Nodup := hsplit ▸ h
  rw [List.map_append, List.map_cons, List.nodup_middle, ← List.map_append,
    List.nodup_cons] at hnodup
  have hothers : ∀ e ∈ before ++ after, g e.2 ≠ g w := fun e he heq =>
    hnodup.1 (List.mem_map.2 ⟨e, he, heq⟩)
  refine AList.ext (herase.trans ?_)
  show before ++ after = t.entries.filter _
  rw [hsplit, List.filter_append, List.filter_cons_of_neg (by simp), ← List.filter_append,
    List.filter_eq_self.2 fun e he => decide_eq_true (hothers e he)]

end Unique

/-! ## Other keys -/

section Rekey

variable {β : Type} [DecidableEq β] {k : α → β} {t : Table α V}

/-- Entries under new keys are added to those there are. -/
theorem entries_foldl_insert (es : List (Sigma fun _ : α => V)) (u : Table β V)
    (hnodup : (es.map fun e => k e.1).Nodup) (hnew : ∀ e ∈ es, k e.1 ∉ u) :
    (es.foldl (fun other e => AList.insert (k e.1) e.2 other) u).entries.Perm
      (u.entries ++ es.map fun e => ⟨k e.1, e.2⟩) := by
  induction es generalizing u with
  | nil => simp
  | cons e es ih =>
      rw [List.map_cons, List.nodup_cons] at hnodup
      have hfirst : k e.1 ∉ u := hnew e List.mem_cons_self
      have hrest : ∀ e' ∈ es, k e'.1 ∉ AList.insert (k e.1) e.2 u := by
        intro e' he' hmem
        rcases (AList.mem_insert _).1 hmem with heq | hold
        · exact hnodup.1 (List.mem_map.2 ⟨e', he', heq⟩)
        · exact hnew e' (List.mem_cons_of_mem _ he') hold
      refine (ih _ hnodup.2 hrest).trans ?_
      rw [AList.entries_insert_of_notMem hfirst]
      exact List.perm_middle.symm

/-- **Other keys, the same values**, where no two keys become one. -/
theorem rekey_perm (h : (t.keys.map k).Nodup) :
    (t.rekey k).entries.Perm (t.entries.map fun e => ⟨k e.1, e.2⟩) := by
  have hnodup : (t.entries.map fun e => k e.1).Nodup := by
    simpa [AList.keys, List.keys, List.map_map, Function.comp_def] using h
  exact entries_foldl_insert t.entries ∅ hnodup fun e _ => AList.notMem_empty _

/-- Tables with the same look-ups have the same entries. -/
theorem perm_of_lookup {α : Type} [DecidableEq α] {t t' : Table α V}
    (h : ∀ k, t.lookup k = t'.lookup k) : t.entries.Perm t'.entries :=
  List.lookup_ext t.nodupKeys t'.nodupKeys fun k v => by
    have hlookup : t.entries.dlookup k = t'.entries.dlookup k := h k
    rw [hlookup]

end Rekey

end Table

end WebhookTrader
