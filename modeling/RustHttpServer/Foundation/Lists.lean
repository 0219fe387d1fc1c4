import Mathlib.Data.List.Forall2
import Mathlib.Data.List.Perm.Basic
import Mathlib.Data.List.Nodup

/-!
# Lists

What can be said of a list from its parts: of one in which a choice has no two equal
results, and of two lists that have the same elements in another order, or the same
elements of every kind, or correspond element by element.
-/

namespace Foundation

variable {α β : Type*}

/-- An element is known by what is chosen of it, if nothing is chosen twice. -/
theorem eq_of_nodup_filterMap {choose : α → Option β} {items : List α}
    (distinct : (items.filterMap choose).Nodup) {first second : α} {chosen : β}
    (member : first ∈ items) (member' : second ∈ items) (chooses : choose first = some chosen)
    (chooses' : choose second = some chosen) : first = second := by
  induction items with
  | nil => cases member
  | cons item items ih =>
      have behind : ∀ other ∈ items, choose other = some chosen → choose item ≠ some chosen := by
        intro other inside same chosen'
        rw [List.filterMap_cons_some chosen'] at distinct
        exact (List.nodup_cons.mp distinct).1 (List.mem_filterMap.mpr ⟨other, inside, same⟩)
      rcases List.mem_cons.mp member with rfl | inside
      · rcases List.mem_cons.mp member' with rfl | inside'
        · rfl
        · exact absurd chooses (behind second inside' chooses')
      · rcases List.mem_cons.mp member' with rfl | inside'
        · exact absurd chooses' (behind first inside chooses)
        · refine ih ?_ inside inside'
          cases chosen' : choose item with
          | none => rwa [List.filterMap_cons_none chosen'] at distinct
          | some other =>
              rw [List.filterMap_cons_some chosen'] at distinct
              exact (List.nodup_cons.mp distinct).2

/-- The order of a list does not matter to what is gathered from it, if only one element of
the list contributes. -/
theorem flatMap_eq_of_perm {f : α → List β} {items permuted : List α} (perm : items.Perm permuted)
    (alone : items.Pairwise fun first second => f first = [] ∨ f second = []) :
    items.flatMap f = permuted.flatMap f := by
  induction perm with
  | nil => rfl
  | cons item perm ih =>
      rw [List.flatMap_cons, List.flatMap_cons, ih (List.pairwise_cons.mp alone).2]
  | swap first second items =>
      rw [List.flatMap_cons, List.flatMap_cons, List.flatMap_cons, List.flatMap_cons]
      rcases (List.pairwise_cons.mp alone).1 first List.mem_cons_self with none | none <;>
        rw [none, List.nil_append, List.nil_append]
  | trans perm _ ih ih' =>
      exact (ih alone).trans (ih' (alone.perm perm Or.symm))

/-- What an element contributes stands together. -/
theorem infix_flatMap (f : α → List β) {item : α} {items : List α} (member : item ∈ items) :
    f item <:+: items.flatMap f := by
  obtain ⟨before, after, rfl⟩ := List.append_of_mem member
  refine ⟨before.flatMap f, after.flatMap f, ?_⟩
  rw [List.flatMap_append, List.flatMap_cons, List.append_assoc]

/-- Lists with the same elements of every kind are permutations of each other. -/
theorem perm_of_filter_eq [DecidableEq β] (kind : α → β) {items others : List α}
    (same : ∀ which, items.filter (fun item => kind item = which) =
      others.filter (fun item => kind item = which)) : items.Perm others := by
  classical
  refine List.perm_iff_count.mpr fun item => ?_
  have counted : ∀ items : List α,
      (items.filter fun other => kind other = kind item).count item = items.count item :=
    fun items => List.count_filter (decide_eq_true rfl)
  rw [← counted items, ← counted others, same]

/-- Lists that correspond, by their last elements. -/
theorem forall₂_concat_left_iff {relation : α → β → Prop} {items : List α} {item : α}
    {others : List β} : List.Forall₂ relation (items ++ [item]) others ↔ ∃ earlier other,
      List.Forall₂ relation items earlier ∧ relation item other ∧ others = earlier ++ [other] := by
  rw [← List.forall₂_reverse_iff, List.reverse_append, List.reverse_singleton,
    List.singleton_append, List.forall₂_cons_left_iff]
  constructor
  · rintro ⟨other, earlier, related, all, same⟩
    refine ⟨earlier.reverse, other, ?_, related, ?_⟩
    · rwa [← List.forall₂_reverse_iff, List.reverse_reverse]
    · rw [← List.reverse_cons, ← same, List.reverse_reverse]
  · rintro ⟨earlier, other, all, related, rfl⟩
    refine ⟨other, earlier.reverse, related, List.forall₂_reverse_iff.mpr all, ?_⟩
    rw [List.reverse_append, List.reverse_singleton, List.singleton_append]
end Foundation
