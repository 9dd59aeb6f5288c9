import Mathlib.Algebra.Order.BigOperators.Group.Finset
import Mathlib.Data.Fintype.Basic

/-! # Counting over a finite family

What a family of components holds in total, when one component changes at a
time.
-/

namespace Foundation

universe uIndex uItem

variable {Index : Type uIndex} {Item : Type uItem} [Fintype Index]

/-- A measure summed over all members of a family. -/
def total (measure : Item → Nat) (family : Index → Item) : Nat :=
  ∑ index, measure (family index)

/-- Replacing one member trades its measure. -/
theorem total_update [DecidableEq Index] (measure : Item → Nat) (family : Index → Item)
    (index : Index) (item : Item) :
    total measure (Function.update family index item) + measure (family index) =
      total measure family + measure item := by
  have hsplit : ∀ other : Index → Item, total measure other =
      measure (other index) + ∑ i ∈ Finset.univ.erase index, measure (other i) := fun other =>
    (Finset.add_sum_erase _ (fun i => measure (other i)) (Finset.mem_univ index)).symm
  have hrest : ∑ i ∈ Finset.univ.erase index, measure (Function.update family index item i) =
      ∑ i ∈ Finset.univ.erase index, measure (family i) := by
    refine Finset.sum_congr rfl fun i hi => ?_
    rw [Function.update_of_ne (Finset.ne_of_mem_erase hi)]
  rw [hsplit (Function.update family index item), hsplit family, hrest, Function.update_self]
  omega

theorem le_total (measure : Item → Nat) (family : Index → Item) (index : Index) :
    measure (family index) ≤ total measure family := by
  classical
  unfold total
  rw [← Finset.add_sum_erase _ (fun i => measure (family i)) (Finset.mem_univ index)]
  exact Nat.le_add_right _ _

theorem total_mono {small large : Item → Nat} (hle : ∀ item, small item ≤ large item)
    (family : Index → Item) : total small family ≤ total large family :=
  Finset.sum_le_sum fun index _ => hle (family index)

/-- A measure below another one leaves its gap at one member open in total. -/
theorem total_add_le {small large : Item → Nat} {family : Index → Item} {gap : Nat}
    (hle : ∀ item, small item ≤ large item) (index : Index)
    (hgap : small (family index) + gap ≤ large (family index)) :
    total small family + gap ≤ total large family := by
  classical
  have hrest : ∑ i ∈ Finset.univ.erase index, small (family i) ≤
      ∑ i ∈ Finset.univ.erase index, large (family i) :=
    Finset.sum_le_sum fun i _ => hle (family i)
  unfold total
  rw [← Finset.add_sum_erase _ (fun i => small (family i)) (Finset.mem_univ index),
    ← Finset.add_sum_erase _ (fun i => large (family i)) (Finset.mem_univ index)]
  omega

theorem total_eq_zero {measure : Item → Nat} {family : Index → Item}
    (h : ∀ index, measure (family index) = 0) : total measure family = 0 :=
  Finset.sum_eq_zero fun index _ => h index

end Foundation
