import Mathlib.Algebra.BigOperators.Group.Finset.Basic
import Mathlib.Data.Finmap

/-!
# Hash maps

A hash map is a finite map: what it holds does not depend on how it was built.
Walking its entries meets each of them once, in an order that its hash function
decides (`IterOrder`).
-/

namespace Foundation

/-- A finite map from keys to values. -/
abbrev HashMap (κ ν : Type) := Finmap fun _ : κ => ν

/-- Removing an entry before it is replaced makes no difference. -/
theorem HashMap.insert_erase {κ ν : Type} [DecidableEq κ] (key : κ) (value : ν)
    (map : HashMap κ ν) : (map.erase key).insert key value = map.insert key value := by
  apply Finmap.ext_lookup
  intro other
  by_cases same : other = key
  · rw [same, Finmap.lookup_insert, Finmap.lookup_insert]
  · rw [Finmap.lookup_insert_of_ne _ same, Finmap.lookup_insert_of_ne _ same,
      Finmap.lookup_erase_ne same]

/-- What is found after an insertion is what has been inserted, or it was there before. -/
theorem HashMap.of_lookup_insert {κ ν : Type} [DecidableEq κ] {key other : κ} {value found : ν}
    {map : HashMap κ ν} (lookup : (map.insert key value).lookup other = some found) :
    other = key ∧ found = value ∨ other ≠ key ∧ map.lookup other = some found := by
  by_cases same : other = key
  · rw [same, Finmap.lookup_insert] at lookup
    exact .inl ⟨same, (Option.some.inj lookup).symm⟩
  · rw [Finmap.lookup_insert_of_ne _ same] at lookup
    exact .inr ⟨same, lookup⟩

/-- What is found after a removal was there before, under another key. -/
theorem HashMap.of_lookup_erase {κ ν : Type} [DecidableEq κ] {key other : κ} {found : ν}
    {map : HashMap κ ν} (lookup : (map.erase key).lookup other = some found) :
    other ≠ key ∧ map.lookup other = some found := by
  by_cases same : other = key
  · rw [same, Finmap.lookup_erase] at lookup
    cases lookup
  · rw [Finmap.lookup_erase_ne same] at lookup
    exact ⟨same, lookup⟩

/-- The map that holds some entries. -/
def HashMap.ofEntries {κ ν : Type} [DecidableEq κ] : List (κ × ν) → HashMap κ ν
  | [] => ∅
  | (key, value) :: entries => (HashMap.ofEntries entries).insert key value

/-- Entries under different keys are all held. -/
theorem HashMap.lookup_ofEntries_iff {κ ν : Type} [DecidableEq κ] {entries : List (κ × ν)}
    (distinct : (entries.map Prod.fst).Nodup) {key : κ} {value : ν} :
    (HashMap.ofEntries entries).lookup key = some value ↔ (key, value) ∈ entries := by
  induction entries with
  | nil => simp [ofEntries]
  | cons entry entries ih =>
      obtain ⟨first, held⟩ := entry
      obtain ⟨absent, distinct⟩ := List.nodup_cons.mp distinct
      rw [ofEntries, List.mem_cons, Prod.mk.injEq]
      by_cases same : key = first
      · subst same
        have elsewhere : (key, value) ∉ entries := fun inside =>
          absent (List.mem_map.mpr ⟨(key, value), inside, rfl⟩)
        rw [Finmap.lookup_insert, Option.some.injEq]
        simp only [elsewhere, or_false, true_and]
        exact eq_comm
      · rw [Finmap.lookup_insert_of_ne _ same, ih distinct]
        simp only [same, false_and, false_or]

/-- The map after more entries have been inserted, one after the other. -/
def HashMap.insertAll {κ ν : Type} [DecidableEq κ] (map : HashMap κ ν)
    (entries : List (κ × ν)) : HashMap κ ν :=
  entries.foldl (fun map entry => map.insert entry.1 entry.2) map

/-- The last entry for a key decides its value. -/
theorem HashMap.lookup_insertAll {κ ν : Type} [DecidableEq κ] (map : HashMap κ ν)
    (entries : List (κ × ν)) (key : κ) : (map.insertAll entries).lookup key =
      ((entries.reverse.find? fun entry => entry.1 = key).map Prod.snd).or (map.lookup key) := by
  induction entries using List.reverseRecOn with
  | nil => rfl
  | append_singleton entries entry ih =>
      rw [insertAll, List.foldl_append, List.foldl_cons, List.foldl_nil, ← insertAll,
        List.reverse_append, List.reverse_singleton, List.singleton_append, List.find?_cons]
      by_cases same : entry.1 = key
      · subst same
        rw [Finmap.lookup_insert, decide_eq_true rfl]
        rfl
      · rw [Finmap.lookup_insert_of_ne _ (Ne.symm same), ih, decide_eq_false same]

/-- The entries of a map, each of them once. -/
structure HashMap.Lists {κ ν : Type} [DecidableEq κ] (map : HashMap κ ν)
    (entries : List (κ × ν)) : Prop where
  nodup : (entries.map Prod.fst).Nodup
  mem_iff : ∀ key value, (key, value) ∈ entries ↔ map.lookup key = some value

/-- Entries with distinct keys list the map that they are collected into. -/
theorem HashMap.lists_ofEntries {κ ν : Type} [DecidableEq κ] {entries : List (κ × ν)}
    (distinct : (entries.map Prod.fst).Nodup) : (HashMap.ofEntries entries).Lists entries :=
  ⟨distinct, fun _ _ => (HashMap.lookup_ofEntries_iff distinct).symm⟩

private theorem HashMap.insertAll_empty {κ ν : Type} [DecidableEq κ] (entries : List (κ × ν)) :
    HashMap.insertAll ∅ entries = HashMap.ofEntries entries.reverse := by
  induction entries using List.reverseRecOn with
  | nil => rfl
  | append_singleton entries entry ih =>
      rw [insertAll, List.foldl_append, List.foldl_cons, List.foldl_nil, ← insertAll, ih,
        List.reverse_append, List.reverse_singleton, List.singleton_append]
      rfl

/-- The entries make up the map, in whatever order they are inserted. -/
theorem HashMap.Lists.insertAll_eq {κ ν : Type} [DecidableEq κ] {map : HashMap κ ν}
    {entries : List (κ × ν)} (lists : map.Lists entries) : HashMap.insertAll ∅ entries = map := by
  have distinct : (entries.reverse.map Prod.fst).Nodup := by
    rw [List.map_reverse, List.nodup_reverse]
    exact lists.nodup
  rw [insertAll_empty]
  apply Finmap.ext_lookup
  intro key
  apply Option.ext
  intro value
  exact (HashMap.lookup_ofEntries_iff distinct).trans
    (List.mem_reverse.trans (lists.mem_iff key value))

/-- The sum of a measure over the values of a map. -/
def HashMap.total {κ ν : Type} [DecidableEq κ] (measure : ν → Nat) (map : HashMap κ ν) : Nat :=
  map.keys.sum fun key => (map.lookup key).elim 0 measure

private theorem HashMap.mem_keys_iff {κ ν : Type} [DecidableEq κ] {map : HashMap κ ν} {key : κ} :
    key ∈ map.keys ↔ (map.lookup key).isSome :=
  Finmap.mem_keys.trans Finmap.lookup_isSome.symm

/-- A new entry adds its measure to the total. -/
theorem HashMap.total_insert {κ ν : Type} [DecidableEq κ] (measure : ν → Nat) {map : HashMap κ ν}
    {key : κ} (absent : map.lookup key = none) (value : ν) :
    total measure (map.insert key value) = measure value + total measure map := by
  have missing : key ∉ map.keys := by
    rw [mem_keys_iff, absent]
    exact Bool.false_ne_true
  have keys : (map.insert key value).keys = insert key map.keys := by
    ext other
    rw [Finset.mem_insert, Finmap.mem_keys, Finmap.mem_keys, Finmap.mem_insert]
  rw [total, keys, Finset.sum_insert missing, Finmap.lookup_insert, Option.elim_some]
  apply congrArg (measure value + ·)
  apply Finset.sum_congr rfl
  intro other inside
  have different : other ≠ key := fun same => missing (same ▸ inside)
  rw [Finmap.lookup_insert_of_ne _ different]

/-- The total of a map whose keys are known. -/
theorem HashMap.total_eq_sum {κ ν : Type} [DecidableEq κ] (measure : ν → Nat)
    {map : HashMap κ ν} {keys : Finset κ} {values : κ → Option ν}
    (lookup : ∀ key, map.lookup key = values key)
    (listed : ∀ key, key ∈ keys ↔ (values key).isSome) :
    total measure map = keys.sum fun key => (values key).elim 0 measure := by
  have same : map.keys = keys := by
    ext key
    rw [mem_keys_iff, lookup, listed]
  rw [total, same]
  apply Finset.sum_congr rfl
  intro key _
  rw [lookup]

/-- The order in which the entries of hash maps are walked. -/
structure IterOrder (κ ν : Type) [DecidableEq κ] where
  entries : HashMap κ ν → List (κ × ν)
  nodup : ∀ map, ((entries map).map Prod.fst).Nodup
  mem_iff : ∀ map key value, (key, value) ∈ entries map ↔ map.lookup key = some value

namespace IterOrder

variable {κ ν : Type} [DecidableEq κ]

/-- Walks the entries in the order of a list of all keys. -/
def ofKeys (keys : List κ) (distinct : keys.Nodup) (complete : ∀ key, key ∈ keys) :
    IterOrder κ ν where
  entries map := keys.filterMap fun key => (map.lookup key).map fun value => (key, value)
  nodup map := by
    have keep : (keys.filterMap fun key => (map.lookup key).map fun value => (key, value)).map
        Prod.fst = keys.filter fun key => (map.lookup key).isSome := by
      clear distinct complete
      induction keys with
      | nil => rfl
      | cons key keys ih =>
          cases found : map.lookup key with
          | none => simp only [List.filterMap_cons, List.filter_cons, found, Option.map_none, ih,
              Option.isSome_none, Bool.false_eq_true, ↓reduceIte]
          | some value => simp only [List.filterMap_cons, List.filter_cons, found, Option.map_some,
              List.map_cons, ih, Option.isSome_some, ↓reduceIte]
    rw [keep]
    exact distinct.filter _
  mem_iff map key value := by
    simp only [List.mem_filterMap, Option.map_eq_some_iff, Prod.mk.injEq]
    constructor
    · rintro ⟨_, _, _, found, rfl, rfl⟩
      exact found
    · exact fun found => ⟨key, complete key, value, found, rfl, rfl⟩

/-- Among distinct keys each has one value. -/
private theorem filterMap_of_nodup {entries : List (κ × ν)}
    (distinct : (entries.map Prod.fst).Nodup)
    {key : κ} {value : ν} (inside : (key, value) ∈ entries) :
    (entries.filterMap fun entry => if entry.1 = key then some entry.2 else none) = [value] := by
  induction entries with
  | nil => cases inside
  | cons entry entries ih =>
      obtain ⟨absent, distinct⟩ := List.nodup_cons.mp distinct
      rcases List.mem_cons.mp inside with rfl | inside
      · rw [List.filterMap_cons, if_pos rfl, List.cons.injEq]
        refine ⟨rfl, List.filterMap_eq_nil_iff.mpr fun other member => if_neg fun same => absent ?_⟩
        exact List.mem_map.mpr ⟨other, member, same⟩
      · have different : ¬ entry.1 = key := by
          intro same
          exact absent (List.mem_map.mpr ⟨(key, value), inside, same.symm⟩)
        rw [List.filterMap_cons, if_neg different]
        exact ih distinct inside

/-- Walking the entries meets the value of a key, if it has one, and nothing else under
the key. -/
theorem filterMap_entries (order : IterOrder κ ν) (map : HashMap κ ν) (key : κ) :
    ((order.entries map).filterMap fun entry => if entry.1 = key then some entry.2 else none) =
      (map.lookup key).toList := by
  cases found : map.lookup key with
  | some value =>
      have inside := (order.mem_iff map key value).mpr found
      exact filterMap_of_nodup (order.nodup map) inside
  | none =>
      refine List.filterMap_eq_nil_iff.mpr fun entry member => if_neg ?_
      rintro rfl
      rw [(order.mem_iff map entry.1 entry.2).mp member] at found
      cases found

/-- The walk through a map lists it. -/
theorem lists (order : IterOrder κ ν) (map : HashMap κ ν) : map.Lists (order.entries map) :=
  ⟨order.nodup map, order.mem_iff map⟩

/-- The entries make up the map. -/
theorem ofEntries_entries (order : IterOrder κ ν) (map : HashMap κ ν) :
    HashMap.ofEntries (order.entries map) = map := by
  apply Finmap.ext_lookup
  intro key
  apply Option.ext
  intro value
  exact (HashMap.lookup_ofEntries_iff (order.nodup map)).trans (order.mem_iff map key value)

/-- Every key is met once. -/
theorem length_entries (order : IterOrder κ ν) (map : HashMap κ ν) :
    (order.entries map).length = map.keys.card := by
  have keys : map.keys = ((order.entries map).map Prod.fst).toFinset := by
    ext key
    rw [Finmap.mem_keys, ← Finmap.lookup_isSome, Option.isSome_iff_exists, List.mem_toFinset,
      List.mem_map]
    constructor
    · rintro ⟨value, found⟩
      exact ⟨(key, value), (order.mem_iff map key value).mpr found, rfl⟩
    · rintro ⟨⟨_, value⟩, inside, rfl⟩
      exact ⟨value, (order.mem_iff map _ value).mp inside⟩
  rw [keys, List.toFinset_card_of_nodup (order.nodup map), List.length_map]

end IterOrder

end Foundation
