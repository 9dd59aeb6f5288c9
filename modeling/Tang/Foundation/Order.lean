import Mathlib.Data.List.Count
import Mathlib.Data.List.Nodup
import Mathlib.Data.List.Perm.Basic

/-! # Order of occurrences in a history

`Precedes list first second` says that some occurrence of `first` stands before
some occurrence of `second`. In a history without repetitions this is the
temporal order of two events.
-/

namespace Foundation

universe u v

variable {α : Type u} {β : Type v} {first second : α} {front back list : List α}

def Precedes (list : List α) (first second : α) : Prop :=
  [first, second].Sublist list

instance [DecidableEq α] : Decidable (Precedes list first second) :=
  inferInstanceAs (Decidable (List.Sublist _ _))

namespace Precedes

theorem mem_left (h : Precedes list first second) : first ∈ list :=
  h.subset List.mem_cons_self

theorem mem_right (h : Precedes list first second) : second ∈ list :=
  h.subset (List.mem_cons_of_mem _ List.mem_cons_self)

theorem mem_tail (h : Precedes list first second) : second ∈ list.tail := by
  cases list with
  | nil => exact absurd h.mem_left List.not_mem_nil
  | cons head rest => exact List.singleton_sublist.mp (List.Sublist.tail h)

theorem append_right (h : Precedes front first second) (back : List α) :
    Precedes (front ++ back) first second :=
  h.trans (List.sublist_append_left front back)

theorem append_left (h : Precedes back first second) (front : List α) :
    Precedes (front ++ back) first second :=
  h.trans (List.sublist_append_right front back)

theorem of_mem_of_mem (hfirst : first ∈ front) (hsecond : second ∈ back) :
    Precedes (front ++ back) first second :=
  (List.singleton_sublist.mpr hfirst).append (List.singleton_sublist.mpr hsecond)

end Precedes

/-- A pair in a concatenation lies in one part or straddles the seam. -/
theorem precedes_append :
    Precedes (front ++ back) first second ↔
      Precedes front first second ∨ (first ∈ front ∧ second ∈ back) ∨
        Precedes back first second := by
  constructor
  · intro h
    obtain ⟨left, right, heq, hleft, hright⟩ := List.sublist_append_iff.mp h
    rcases left with _ | ⟨a, _ | ⟨b, rest⟩⟩
    · subst heq
      exact Or.inr (Or.inr hright)
    · simp only [List.cons_append, List.nil_append, List.cons.injEq] at heq
      obtain ⟨rfl, rfl⟩ := heq
      exact Or.inr (Or.inl ⟨List.singleton_sublist.mp hleft, List.singleton_sublist.mp hright⟩)
    · simp only [List.cons_append, List.cons.injEq, List.nil_eq, List.append_eq_nil_iff] at heq
      obtain ⟨rfl, rfl, rfl, _⟩ := heq
      exact Or.inl hleft
  · rintro (h | ⟨hfirst, hsecond⟩ | h)
    · exact h.append_right back
    · exact .of_mem_of_mem hfirst hsecond
    · exact h.append_left front

theorem precedes_append_of_notMem (hsecond : second ∉ back) :
    Precedes (front ++ back) first second ↔ Precedes front first second := by
  refine ⟨fun h => ?_, fun h => h.append_right back⟩
  rcases precedes_append.mp h with hfront | ⟨_, hback⟩ | hback
  · exact hfront
  · exact absurd hback hsecond
  · exact absurd hback.mem_right hsecond

/-- What precedes an element of the front precedes it within the front, when
nothing repeats. -/
theorem Precedes.of_append_of_mem (h : Precedes (front ++ back) first second)
    (hnodup : (front ++ back).Nodup) (hsecond : second ∈ front) :
    Precedes front first second := by
  have hdisjoint := List.disjoint_of_nodup_append hnodup
  rcases precedes_append.mp h with hfront | ⟨_, hback⟩ | hback
  · exact hfront
  · exact (hdisjoint hsecond hback).elim
  · exact (hdisjoint hsecond hback.mem_right).elim

/-- A list without repetitions of keys has no repetitions. -/
theorem nodup_of_count_map_le_one [DecidableEq β] (key : α → β)
    (h : ∀ b, (list.map key).count b ≤ 1) : list.Nodup :=
  (List.nodup_iff_count_le_one.mpr h).of_map key

end Foundation
