import Mathlib.Data.List.Sort
import Mathlib.Tactic

/-!
# Sorting by two keys

A list can be sorted by the one or the other of two keys of its elements.  When no key occurs twice, the two ways give
the same list exactly if the keys order the elements alike (`insertionSort_map_eq_iff`).
-/

namespace Aimw.Lib

variable {α N T : Type} [LinearOrder N] [LinearOrder T] {n : α → N} {t : α → T} {l : List α}

variable (n t) in
/-- The keys `n` and `t` order the elements of the list alike. -/
def Alike (l : List α) : Prop := ∀ a ∈ l, ∀ b ∈ l, n a ≤ n b ↔ t a ≤ t b

lemma Alike.insertionSort_eq (h : Alike n t l) :
    l.insertionSort (fun a b => n a ≤ n b) = l.insertionSort (fun a b => t a ≤ t b) := by
  have hmap := List.map_insertionSort (fun a b => n a ≤ n b) (fun a b => t a ≤ t b) id l h
  rwa [List.map_id, List.map_id] at hmap

/-- A list that is sorted by both keys, neither of which occurs twice, is ordered alike by them. -/
lemma alike_of_sorted (hn : (l.map n).Nodup) (ht : (l.map t).Nodup) (hsn : l.Pairwise fun a b => n a ≤ n b)
    (hst : l.Pairwise fun a b => t a ≤ t b) : Alike n t l := by
  have hpairs : l.Pairwise fun a b => (n a ≤ n b ↔ t a ≤ t b) ∧ (n b ≤ n a ↔ t b ≤ t a) := by
    have hn' := List.pairwise_map.1 hn
    have ht' := List.pairwise_map.1 ht
    refine ((hsn.and hst).and (hn'.and ht')).imp ?_
    rintro a b ⟨⟨hnab, htab⟩, hne, hte⟩
    refine ⟨iff_of_true hnab htab, iff_of_false ?_ ?_⟩
    · exact fun h => hne (le_antisymm hnab h)
    · exact fun h => hte (le_antisymm htab h)
  have : Std.Symm fun a b => (n a ≤ n b ↔ t a ≤ t b) ∧ (n b ≤ n a ↔ t b ≤ t a) := ⟨fun _ _ h => h.symm⟩
  intro a ha b hb
  refine (hpairs.forall_of_forall ?_ ha hb).1
  exact fun a _ => ⟨iff_of_true le_rfl le_rfl, iff_of_true le_rfl le_rfl⟩

/-- **Sorting by `n` and by `t` gives the same row of `t`s only when they order the list alike.** -/
theorem insertionSort_map_eq_iff (hn : (l.map n).Nodup) (ht : (l.map t).Nodup) :
    (l.insertionSort fun a b => t a ≤ t b).map t = (l.insertionSort fun a b => n a ≤ n b).map t ↔ Alike n t l := by
  constructor
  · intro h
    have hperm := List.perm_insertionSort (fun a b => n a ≤ n b) l
    have hsn := List.pairwise_insertionSort (fun a b => n a ≤ n b) l
    have hst : (l.insertionSort fun a b => n a ≤ n b).Pairwise fun a b => t a ≤ t b := by
      rw [← List.pairwise_map (f := t) (R := (· ≤ ·)), ← h, List.pairwise_map]
      exact List.pairwise_insertionSort (fun a b => t a ≤ t b) l
    have halike := alike_of_sorted ((hperm.map n).nodup_iff.2 hn) ((hperm.map t).nodup_iff.2 ht) hsn hst
    intro a ha b hb
    exact halike a (hperm.mem_iff.2 ha) b (hperm.mem_iff.2 hb)
  · intro h
    rw [h.insertionSort_eq]

end Aimw.Lib
