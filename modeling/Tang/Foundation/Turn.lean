import Tang.Foundation.Order

/-! # Waiting lines

Parties arrive at the end of a line and depart from its front. What has
departed, among those that ever stood in the line, followed by those that still
wait, is then the line of arrivals: nobody overtakes.
-/

namespace Foundation

universe u

variable {α : Type u} [DecidableEq α]

/-- The arrivals that departed, in the order of departure, and those still
waiting make up the arrivals in the order of arrival. `departures` may mention
parties that never stood in the line. -/
def InTurn (arrivals departures waiting : List α) : Prop :=
  departures.filter (· ∈ arrivals) ++ waiting = arrivals

instance (arrivals departures waiting : List α) :
    Decidable (InTurn arrivals departures waiting) :=
  inferInstanceAs (Decidable (_ = _))

namespace InTurn

variable {arrivals departures waiting front more : List α} {party first second : α}

theorem waiting_subset (hturn : InTurn arrivals departures waiting) : waiting ⊆ arrivals :=
  fun _ hmem => hturn ▸ List.mem_append_right _ hmem

/-- Whoever arrives for the first time waits at the end. -/
theorem arrive (hturn : InTurn arrivals departures waiting) (hnew : party ∉ departures) :
    InTurn (arrivals ++ [party]) departures (waiting ++ [party]) := by
  have hfilter : departures.filter (· ∈ arrivals ++ [party]) =
      departures.filter (· ∈ arrivals) := by
    apply List.filter_congr
    intro other hother
    have hne : other ≠ party := fun heq => hnew (heq ▸ hother)
    simp [hne]
  rw [InTurn, hfilter, ← List.append_assoc, hturn]

/-- The front of the line departs; outsiders may depart with it. -/
theorem depart (hturn : InTurn arrivals departures (front ++ waiting))
    (hmore : more.filter (· ∈ arrivals) = front) :
    InTurn arrivals (departures ++ more) waiting := by
  rw [InTurn, List.filter_append, hmore, List.append_assoc]
  exact hturn

/-- The front departs in the first of two ways, which nobody does any more once
somebody in the line has departed in the second. -/
theorem depart_first {last others : List α}
    (hturn : InTurn arrivals (departures ++ last) (front ++ waiting))
    (hmore : more.filter (· ∈ arrivals) = front) (hothers : others.filter (· ∈ arrivals) = [])
    (hlast : front ≠ [] → ∀ party ∈ arrivals, party ∉ last) :
    InTurn arrivals (departures ++ more ++ (last ++ others)) waiting := by
  rw [InTurn, List.filter_append] at hturn
  rw [InTurn, List.filter_append, List.filter_append, List.filter_append, hmore, hothers]
  cases front with
  | nil => simpa using hturn
  | cons head rest =>
      have hnone : last.filter (· ∈ arrivals) = [] := by
        rw [List.filter_eq_nil_iff]
        intro party hparty
        simpa using fun harrived => hlast (List.cons_ne_nil head rest) party harrived hparty
      rw [hnone] at hturn ⊢
      simpa using hturn

/-- When a later arrival has departed, so has every earlier one, and before it. -/
theorem earlier_first (hturn : InTurn arrivals departures waiting) (hnodup : arrivals.Nodup)
    (harrived : Precedes arrivals first second) (hsecond : second ∉ waiting) :
    first ∉ waiting ∧ Precedes departures first second := by
  rw [← hturn] at harrived hnodup
  have hdeparted : second ∈ departures.filter (· ∈ arrivals) :=
    (List.mem_append.mp harrived.mem_right).resolve_right hsecond
  have hbefore := harrived.of_append_of_mem hnodup hdeparted
  refine ⟨fun hfirst => ?_, hbefore.trans List.filter_sublist⟩
  exact List.disjoint_of_nodup_append hnodup hbefore.mem_left hfirst

end InTurn

/-! ## Moving up -/

/-- The first ones of a line have departed, and others have arrived. -/
def MovesUp {β : Type u} (departed : Nat) (before after : List β) : Prop :=
  ∃ arrived, after = before.drop departed ++ arrived

namespace MovesUp

variable {β : Type u} {departed later : Nat} {before middle after : List β}

theorem refl (line : List β) : MovesUp 0 line line :=
  ⟨[], by simp⟩

theorem trans (hmoves : MovesUp departed before middle) (hlater : MovesUp later middle after) :
    MovesUp (departed + later) before after := by
  obtain ⟨arrived, rfl⟩ := hmoves
  obtain ⟨more, rfl⟩ := hlater
  refine ⟨arrived.drop (later - (before.drop departed).length) ++ more, ?_⟩
  rw [List.drop_append, List.drop_drop, List.append_assoc]

/-- Who has not departed is that much closer to the front. -/
theorem getElem? (hmoves : MovesUp departed before after) {index : Nat} {party : β}
    (hindex : before[index]? = some party) (hwaits : departed ≤ index) :
    after[index - departed]? = some party := by
  obtain ⟨arrived, rfl⟩ := hmoves
  obtain ⟨hlt, _⟩ := List.getElem?_eq_some_iff.mp hindex
  rw [List.getElem?_append_left (by rw [List.length_drop]; omega), List.getElem?_drop,
    Nat.add_sub_cancel' hwaits, hindex]

end MovesUp

/-- Departures of outsiders do not show in the line. -/
theorem filter_mem_outsiders {arrivals outsiders insiders : List α} {outsider : α}
    (houtsider : outsider ∉ arrivals) (houtsiders : ∀ other ∈ outsiders, other = outsider)
    (hinsiders : insiders ⊆ arrivals) :
    (outsiders ++ insiders).filter (· ∈ arrivals) = insiders := by
  have hnone : outsiders.filter (· ∈ arrivals) = [] := by
    rw [List.filter_eq_nil_iff]
    intro other hother
    simpa [houtsiders other hother] using houtsider
  have hall : insiders.filter (· ∈ arrivals) = insiders := by
    rw [List.filter_eq_self]
    intro other hother
    simpa using hinsiders hother
  rw [List.filter_append, hnone, hall, List.nil_append]

end Foundation
