import Mathlib.Data.String.Basic
import Mathlib.Order.Basic
import Mathlib.Tactic.Common
import Playbook.Datum

/-!
# Sorting by keys

Texts have an order, and so have numbers. Where all keys are of one kind, sorting by them succeeds
and leaves a permutation in the order of the keys (`Datum.exists_sorted`).
-/

namespace Playbook

namespace Datum

theorem before?_text (s t : String) : (text s).before? (.text t) = some (decide (s < t)) := rfl

theorem before?_int (i j : Int) : (int i).before? (.int j) = some (decide (i < j)) := by
  simp [before?, number?, int]

theorem sortBy?_map {α β : Type} (key : β → Datum) (f : α → β) (items : List α) :
    sortBy? key (items.map f) = (sortBy? (fun a => key (f a)) items).map (List.map f) := by
  unfold sortBy?
  rw [List.all_map]
  simp only [Function.comp_def, List.all_map]
  split_ifs
  · have hsort := List.map_mergeSort (f := f) (l := items)
      (r := fun a b => !((key (f b)).before? (key (f a))).getD false)
      (s := fun a b => !((key b).before? (key a)).getD false) fun a _ b _ => rfl
    rw [Option.map_some, hsort]
  · rfl

/-- Keys that have an order are sorted by it. -/
theorem exists_sorted {α κ : Type} [LinearOrder κ] (key : α → Datum) (val : α → κ)
    {items : List α} (h : ∀ a ∈ items, ∀ b ∈ items, ∃ before,
      (key a).before? (key b) = some before ∧ (before = true ↔ val a < val b)) :
    ∃ sorted, sortBy? key items = some sorted ∧ sorted.Perm items ∧
      sorted.Pairwise fun a b => val a ≤ val b := by
  have hall : (items.all fun a => items.all fun b =>
      (key a).same (key b) || ((key a).before? (key b)).isSome) = true := by
    simp only [List.all_eq_true]
    intro a ha b hb
    obtain ⟨before, hbefore, -⟩ := h a ha b hb
    rw [hbefore, Option.isSome_some, Bool.or_true]
  have hsort : (items.mergeSort fun a b => !((key b).before? (key a)).getD false) =
      items.mergeSort fun a b => decide (val a ≤ val b) := by
    have hmap := List.map_mergeSort (f := id) (l := items)
      (r := fun a b => !((key b).before? (key a)).getD false)
      (s := fun a b => decide (val a ≤ val b)) fun a ha b hb => by
        obtain ⟨before, hbefore, hlt⟩ := h b hb a ha
        rw [hbefore, Option.getD_some, Bool.eq_iff_iff, Bool.not_eq_true', ← Bool.not_eq_true, hlt,
          not_lt, decide_eq_true_iff]
        exact Iff.rfl
    simpa using hmap
  refine ⟨_, if_pos hall, ?_, ?_⟩
  · exact List.mergeSort_perm items _
  · rw [hsort]
    refine (List.pairwise_mergeSort ?_ ?_ items).imp fun h => of_decide_eq_true h
    · intro a b c hab hbc
      exact decide_eq_true (le_trans (of_decide_eq_true hab) (of_decide_eq_true hbc))
    · intro a b
      simpa using le_total (val a) (val b)

end Datum

end Playbook
