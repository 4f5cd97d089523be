/-
**Go maps: finite maps whose iteration order is not specified.**

A map is a Mathlib `AList`: an association list with distinct keys. Lookups and updates do not
depend on the order of the list; a `range` loop does, and the order a `range` loop takes is a
parameter of the model (`MapIter`: any permutation of the entries).

* `countP`, `holders`: the number of entries that satisfy a predicate, and the set of their keys;
  `card_holders` says that a count is the size of a set of distinct keys;
* `total`: the sum of the values' sizes;
* `mapValues`: the same keys with other values, and what lookups, counts and insertions see of it;
* `ofKeys`: the map of a function on a list of keys.
-/

import Mathlib.Data.List.AList
import Mathlib.Data.Finset.Card

namespace MirBft

open List

/-- A Go map. -/
abbrev GoMap (κ α : Type) := AList fun _ : κ => α

/-- **An iteration order**: what the `range` loops over maps see, a permutation of each map's
entries. It says for each number of entries in which order their positions are visited. -/
structure MapIter where
  order : Nat → List Nat
  order_perm : ∀ count, (order count).Perm (List.range count)

/-- The entries in the order a `range` loop visits them. -/
def MapIter.run (iter : MapIter) {α : Type} (entries : List α) : List α :=
  (iter.order entries.length).filterMap fun position => entries[position]?

theorem MapIter.perm (iter : MapIter) {α : Type} (entries : List α) :
    (iter.run entries).Perm entries := by
  have visited : ((List.range entries.length).filterMap fun position => entries[position]?) =
      entries := by
    induction entries with
    | nil => rfl
    | cons first rest ih =>
      rw [length_cons, range_succ_eq_map, filterMap_cons]
      simpa [Function.comp_def] using ih
  exact ((iter.order_perm entries.length).filterMap _).trans (.of_eq visited)

/-- Iteration in list order. -/
def MapIter.inOrder : MapIter := ⟨List.range, fun _ => .refl _⟩

theorem MapIter.mem_run (iter : MapIter) {α : Type} {entries : List α} {entry : α} :
    entry ∈ iter.run entries ↔ entry ∈ entries :=
  (iter.perm entries).mem_iff

theorem MapIter.keys_run (iter : MapIter) {κ α : Type} [DecidableEq κ] (table : GoMap κ α) :
    (iter.run table.entries).Pairwise fun one other => one.1 ≠ other.1 :=
  ((iter.perm _).pairwise_iff fun differs => differs.symm).mpr (pairwise_map.mp table.keys_nodup)

/-- **Every order of the entries is taken by some iteration.** -/
theorem MapIter.exists_run {α : Type} [DecidableEq α] {entries visited : List α} (distinct : entries.Nodup)
    (perm : visited.Perm entries) : ∃ iter : MapIter, iter.run entries = visited := by
  have positions : entries.map (entries.idxOf ·) = List.range entries.length := by
    refine ext_getElem (by simp) fun index inList _ => ?_
    rw [getElem_map, getElem_range, distinct.idxOf_getElem]
  refine ⟨⟨fun count => if count = entries.length then visited.map (entries.idxOf ·) else List.range count,
    fun count => ?_⟩, ?_⟩
  · split
    · rename_i same
      rw [same, ← positions]
      exact perm.map _
    · exact .refl _
  · unfold MapIter.run
    dsimp only
    rw [if_pos rfl, filterMap_map]
    refine (filterMap_congr fun entry member => ?_).trans filterMap_some
    exact List.getElem?_idxOf (perm.mem_iff.mp member)

namespace GoMap

variable {κ α : Type} [DecidableEq κ]

/-- Maps are compared entry by entry; the instance of `AList` does not evaluate. -/
instance [DecidableEq α] : DecidableEq (GoMap κ α) := fun first second =>
  decidable_of_iff (first.entries = second.entries) AList.ext_iff.symm

/-- An entry after an insertion is the new one, or was there before. -/
theorem of_lookup_insert {m : GoMap κ α} {key other : κ} {value found : α}
    (isFound : (m.insert key value).lookup other = some found) :
    other = key ∧ value = found ∨ other ≠ key ∧ m.lookup other = some found := by
  by_cases same : other = key
  · rw [same, AList.lookup_insert] at isFound
    exact Or.inl ⟨same, Option.some.inj isFound⟩
  · rw [AList.lookup_insert_ne same] at isFound
    exact Or.inr ⟨same, isFound⟩

/-- The number of entries that satisfy `p`. -/
def countP (m : GoMap κ α) (p : κ → α → Bool) : Nat := m.entries.countP fun entry => p entry.1 entry.2

/-- The keys of the entries that satisfy `p`. -/
def holders (m : GoMap κ α) (p : κ → α → Bool) : Finset κ :=
  ((m.entries.filter fun entry => p entry.1 entry.2).map Sigma.fst).toFinset

theorem mem_holders {m : GoMap κ α} {p : κ → α → Bool} {key : κ} :
    key ∈ holders m p ↔ ∃ value, m.lookup key = some value ∧ p key value = true := by
  simp only [holders, mem_toFinset, mem_map, mem_filter]
  constructor
  · rintro ⟨⟨found, value⟩, ⟨member, holds⟩, rfl⟩
    exact ⟨value, AList.mem_lookup_iff.mpr member, holds⟩
  · rintro ⟨value, found, holds⟩
    exact ⟨⟨key, value⟩, ⟨AList.mem_lookup_iff.mp found, holds⟩, rfl⟩

/-- **A count of entries is a count of distinct keys.** -/
theorem card_holders (m : GoMap κ α) (p : κ → α → Bool) : (holders m p).card = countP m p := by
  have distinct : ((m.entries.filter fun entry => p entry.1 entry.2).map Sigma.fst).Nodup := by
    have keys : (m.entries.map Sigma.fst).Nodup := m.keys_nodup
    exact keys.sublist (filter_sublist.map _)
  rw [holders, toFinset_card_of_nodup distinct, length_map, countP,
    countP_eq_length_filter]

end GoMap

/-! ### Other values -/

namespace GoMap

variable {κ α β : Type}

/-- The map with each value replaced. -/
def mapValues (f : α → β) (m : GoMap κ α) : GoMap κ β where
  entries := m.entries.map fun entry => ⟨entry.1, f entry.2⟩
  nodupKeys := by
    have keys : (m.entries.map Sigma.fst).Nodup := m.keys_nodup
    show ((m.entries.map fun entry => (⟨entry.1, f entry.2⟩ : Σ _ : κ, β)).map Sigma.fst).Nodup
    rw [map_map]
    exact keys

theorem countP_mapValues (f : α → β) (m : GoMap κ α) (p : κ → β → Bool) :
    countP (mapValues f m) p = countP m fun key value => p key (f value) := by
  unfold countP mapValues
  rw [countP_map]
  rfl

variable [DecidableEq κ]

theorem lookup_mapValues (f : α → β) (m : GoMap κ α) (key : κ) :
    (mapValues f m).lookup key = (m.lookup key).map f :=
  dlookup_map₂ (f := fun _ => f) key

theorem mem_mapValues {f : α → β} {m : GoMap κ α} {key : κ} : key ∈ mapValues f m ↔ key ∈ m := by
  rw [← AList.lookup_isSome, lookup_mapValues, Option.isSome_map, AList.lookup_isSome]

theorem mapValues_insert {f : α → β} {m : GoMap κ α} {key : κ} {value : α} (fresh : key ∉ m) :
    mapValues f (m.insert key value) = (mapValues f m).insert key (f value) := by
  have stillFresh : key ∉ mapValues f m := fun member => fresh (mem_mapValues.mp member)
  refine AList.ext ?_
  rw [AList.entries_insert_of_notMem stillFresh]
  simp only [mapValues, AList.entries_insert_of_notMem fresh, map_cons]

end GoMap

/-! ### Maps of functions -/

namespace GoMap

variable {κ α : Type}

/-- The map that has a function's value at each of the keys. -/
def ofKeys (value : κ → α) (keys : List κ) (distinct : keys.Nodup) : GoMap κ α where
  entries := keys.map fun key => ⟨key, value key⟩
  nodupKeys := by
    show ((keys.map fun key => (⟨key, value key⟩ : Σ _ : κ, α)).map Sigma.fst).Nodup
    rw [map_map]
    simpa [Function.comp_def] using distinct

variable {value : κ → α} {keys : List κ} {distinct : keys.Nodup}

theorem countP_ofKeys (p : κ → α → Bool) :
    countP (ofKeys value keys distinct) p = keys.countP fun key => p key (value key) := by
  unfold countP ofKeys
  rw [countP_map]
  rfl

variable [DecidableEq κ]

theorem lookup_ofKeys {key : κ} {found : α} : (ofKeys value keys distinct).lookup key = some found ↔
    key ∈ keys ∧ found = value key := by
  rw [← Option.mem_def, AList.mem_lookup_iff]
  simp only [ofKeys, mem_map]
  constructor
  · rintro ⟨key, member, ⟨⟩⟩
    exact ⟨member, rfl⟩
  · rintro ⟨member, rfl⟩
    exact ⟨key, member, rfl⟩

variable {ι : Type} {items : List ι} {key : ι → κ} {value : ι → α} {k : κ}

theorem mem_foldl_insert : k ∈ items.foldl (fun (table : GoMap κ α) item => table.insert (key item)
    (value item)) ∅ ↔ ∃ item ∈ items, key item = k := by
  induction items using List.reverseRecOn with
  | nil => simp
  | append_singleton items last ih =>
    rw [foldl_append, foldl_cons, foldl_nil, AList.mem_insert, ih]
    simp [or_comm, eq_comm, or_and_right, exists_or]

theorem lookup_foldl_insert {found : α} (isFound : (items.foldl (fun (table : GoMap κ α) item =>
    table.insert (key item) (value item)) ∅).lookup k = some found) : ∃ item ∈ items, key item = k ∧
      value item = found := by
  induction items using List.reverseRecOn with
  | nil => simp at isFound
  | append_singleton items last ih =>
    rw [foldl_append, foldl_cons, foldl_nil] at isFound
    rcases of_lookup_insert isFound with ⟨same, isValue⟩ | ⟨_, isFound⟩
    · exact ⟨last, by simp, same.symm, isValue⟩
    · obtain ⟨item, member, isItem⟩ := ih isFound
      exact ⟨item, mem_append_left _ member, isItem⟩

end GoMap

end MirBft
