import Mathlib.Data.List.Nodup

/-! # A cursor in a list with keys

A cursor names the element it stands at by its key, or stands past the end. It
cuts the list in two; with distinct keys every cut of the list whose second part
begins at the cursor is that one. Insertions, removals and steps of the cursor
are then read off the two parts.
-/

namespace Foundation

universe uItem uKey

variable {Item : Type uItem} {Key : Type uKey} (key : Item → Key)

/-- The key of the first element, or none past the end. -/
def frontKey (list : List Item) : Option Key := list.head?.map key

@[simp] theorem frontKey_nil : frontKey key ([] : List Item) = none := rfl

@[simp] theorem frontKey_cons (item : Item) (rest : List Item) :
    frontKey key (item :: rest) = some (key item) := rfl

variable [DecidableEq Key]

/-- The elements before the cursor. -/
def before : Option Key → List Item → List Item
  | none, list => list
  | some cursor, list => list.takeWhile fun item => key item != cursor

/-- The elements from the cursor on. -/
def onward : Option Key → List Item → List Item
  | none, _ => []
  | some cursor, list => list.dropWhile fun item => key item != cursor

/-- The list with an element put in after the first `index` ones. -/
def insertAt (index : Nat) (item : Item) (list : List Item) : List Item :=
  list.take index ++ item :: list.drop index

variable {key} {cursor : Option Key} {list front back : List Item} {item : Item}

theorem before_append_onward (cursor : Option Key) (list : List Item) :
    before key cursor list ++ onward key cursor list = list := by
  cases cursor with
  | none => exact List.append_nil list
  | some cursor => exact List.takeWhile_append_dropWhile

theorem onward_subset {position : Option Key} (hmem : item ∈ onward key position list) :
    item ∈ list := by
  rw [← before_append_onward position list]
  exact List.mem_append_right _ hmem

/-- A cut that begins at the cursor is the cut the cursor makes. -/
theorem cut_eq (hlist : list = front ++ back) (hnodup : (list.map key).Nodup)
    (hcursor : frontKey key back = cursor) :
    before key cursor list = front ∧ onward key cursor list = back := by
  subst hlist hcursor
  cases back with
  | nil => exact ⟨List.append_nil front, rfl⟩
  | cons item rest =>
      have hfront : ∀ other ∈ front, (key other != key item) = true := by
        intro other hother
        rw [List.map_append, List.map_cons] at hnodup
        have hdisjoint := List.disjoint_of_nodup_append hnodup
        simp only [bne_iff_ne, ne_eq]
        exact fun heq => hdisjoint (List.mem_map_of_mem hother) (heq ▸ List.mem_cons_self)
      constructor
      · simp [before, frontKey, List.takeWhile_append_of_pos hfront]
      · simp [onward, frontKey, List.dropWhile_append_of_pos hfront]

/-- The second part begins with the element the cursor stands at. -/
theorem key_of_onward {position : Key} {rest : List Item}
    (honward : onward key (some position) list = item :: rest) : key item = position := by
  induction list with
  | nil => simp [onward] at honward
  | cons head tail ih =>
      by_cases hhead : key head = position
      · simp only [onward, hhead, bne_self_eq_false, Bool.false_eq_true, not_false_eq_true,
          List.dropWhile_cons_of_neg, List.cons.injEq] at honward
        exact honward.1 ▸ hhead
      · exact ih (by simpa [onward, hhead] using honward)

/-- A cursor at an element of the list is not past the end. -/
theorem onward_eq_cons {position : Key} (hposition : position ∈ list.map key) :
    ∃ item rest, onward key (some position) list = item :: rest := by
  induction list with
  | nil => simp at hposition
  | cons head tail ih =>
      by_cases hhead : key head = position
      · exact ⟨head, tail, by simp [onward, hhead]⟩
      · obtain ⟨item, rest, honward⟩ := ih (by simpa [Ne.symm hhead] using hposition)
        exact ⟨item, rest, by simpa [onward, hhead] using honward⟩

theorem insertAt_perm (index : Nat) (item : Item) (list : List Item) :
    (insertAt index item list).Perm (item :: list) := by
  have hperm := @List.perm_middle _ item (list.take index) (list.drop index)
  rwa [List.take_append_drop] at hperm

/-- An insertion into a list cut at an element happens before that element or
after it. -/
theorem insertAt_cut (index : Nat) (item head : Item) (front rest : List Item) :
    (index ≤ front.length ∧
        insertAt index item (front ++ head :: rest) = insertAt index item front ++ head :: rest) ∨
      (front.length < index ∧ ∃ later, later.Perm (item :: rest) ∧
        insertAt index item (front ++ head :: rest) = front ++ head :: later) := by
  rcases Nat.lt_or_ge front.length index with hlt | hle
  · refine Or.inr ⟨hlt, insertAt (index - front.length - 1) item rest, insertAt_perm _ _ _, ?_⟩
    obtain ⟨offset, rfl⟩ := Nat.exists_eq_add_of_lt hlt
    have hsub : front.length + offset + 1 - front.length = offset + 1 := by omega
    simp [insertAt, List.take_append, List.drop_append, hsub, List.take_of_length_le,
      List.drop_eq_nil_of_le, show front.length ≤ front.length + offset + 1 by omega]
  · refine Or.inl ⟨hle, ?_⟩
    have hsub : index - front.length = 0 := by omega
    simp [insertAt, List.take_append, List.drop_append, hsub]

/-! ## Steps of the cursor and changes of the list -/

section Changes

variable {position : Key} {head : Item} {rest : List Item}

theorem split_of_onward (honward : onward key (some position) list = head :: rest) :
    list = before key (some position) list ++ head :: rest := by
  rw [← honward]
  exact (before_append_onward (some position) list).symm

/-- A step of the cursor. -/
theorem cut_next (honward : onward key (some position) list = head :: rest)
    (hnodup : (list.map key).Nodup) :
    before key (frontKey key rest) list = before key (some position) list ++ [head] ∧
      onward key (frontKey key rest) list = rest := by
  refine cut_eq ?_ hnodup rfl
  rw [List.append_assoc, List.singleton_append]
  exact split_of_onward honward

/-- The element at the cursor is removed, and the cursor goes to the next one. -/
theorem cut_erase (honward : onward key (some position) list = head :: rest)
    (hnodup : (list.map key).Nodup) :
    let erased := list.filter fun item => key item != position
    before key (frontKey key rest) erased = before key (some position) list ∧
      onward key (frontKey key rest) erased = rest := by
  have hsplit := split_of_onward honward
  have hhead := key_of_onward honward
  have herased : (list.filter fun item => key item != position) =
      before key (some position) list ++ rest := by
    have hnodupSplit := hnodup
    rw [hsplit, List.map_append, List.map_cons, List.nodup_middle] at hnodupSplit
    have hother : ∀ item ∈ before key (some position) list ++ rest,
        (key item != position) = true := by
      intro item hitem
      rw [bne_iff_ne, ne_eq, ← hhead]
      intro hsame
      apply (List.nodup_cons.mp hnodupSplit).1
      rw [← List.map_append, ← hsame]
      exact List.mem_map_of_mem hitem
    have hkept := List.filter_eq_self.mpr hother
    rw [List.filter_append] at hkept
    conv_lhs => rw [hsplit]
    simpa [hhead] using hkept
  exact cut_eq herased ((List.filter_sublist.map key).nodup hnodup) rfl

/-- Elements other than the one at the cursor are removed. -/
theorem cut_filter {keep : Item → Bool}
    (honward : onward key (some position) list = head :: rest)
    (hnodup : (list.map key).Nodup) (hkeep : keep head) :
    before key (some position) (list.filter keep) =
        (before key (some position) list).filter keep ∧
      onward key (some position) (list.filter keep) = head :: rest.filter keep := by
  refine cut_eq ?_ ((List.filter_sublist.map key).nodup hnodup) ?_
  · conv_lhs => rw [split_of_onward honward]
    simp [hkeep]
  · simp [key_of_onward honward]

/-- The elements change, but not their keys. -/
theorem cut_map {change : Item → Item} (hkey : ∀ item, key (change item) = key item)
    (cursor : Option Key) (list : List Item) :
    before key cursor (list.map change) = (before key cursor list).map change ∧
      onward key cursor (list.map change) = (onward key cursor list).map change := by
  cases cursor with
  | none => exact ⟨rfl, rfl⟩
  | some position =>
      simp [before, onward, List.takeWhile_map, List.dropWhile_map, Function.comp_def, hkey]

/-- An element is put in. -/
theorem cut_insertAt (index : Nat)
    (honward : onward key (some position) list = head :: rest)
    (hnodup : ((insertAt index item list).map key).Nodup) :
    (index ≤ (before key (some position) list).length ∧
        before key (some position) (insertAt index item list) =
          insertAt index item (before key (some position) list) ∧
        onward key (some position) (insertAt index item list) = head :: rest) ∨
      ((before key (some position) list).length < index ∧
        before key (some position) (insertAt index item list) =
          before key (some position) list ∧
        ∃ later, later.Perm (item :: rest) ∧
          onward key (some position) (insertAt index item list) = head :: later) := by
  have hhead := key_of_onward honward
  have hsplit := split_of_onward honward
  rcases insertAt_cut index item head (before key (some position) list) rest with
    ⟨hindex, hinserted⟩ | ⟨hindex, later, hlater, hinserted⟩
  · rw [← hsplit] at hinserted
    exact Or.inl ⟨hindex, cut_eq hinserted hnodup (by simp [hhead])⟩
  · rw [← hsplit] at hinserted
    have hcut := cut_eq hinserted hnodup (show frontKey key (head :: later) = some position by
      simp [hhead])
    exact Or.inr ⟨hindex, hcut.1, later, hlater, hcut.2⟩

end Changes

end Foundation
