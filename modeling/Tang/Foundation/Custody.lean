import Tang.Foundation.Family

/-! # Tokens in custody

A token is issued once, passes from cell to cell, and is spent in the end. As
long as every step keeps the sum of what is held and what is spent, no cell
loses a token and no two cells hold the same one.
-/

namespace Foundation

universe uCell uToken

variable {Cell : Type uCell} {Token : Type uToken}

/-! ## Cells -/

/-- Two members of a sum that is at most one are the same. -/
theorem eq_of_sum_le_one {cells : Finset Cell} {measure : Cell → Nat}
    (hle : ∑ cell ∈ cells, measure cell ≤ 1) {first second : Cell} (hfirst : first ∈ cells)
    (hsecond : second ∈ cells) (hone : 0 < measure first) (htwo : 0 < measure second) :
    first = second := by
  classical
  by_contra hne
  -- both would count in the sum
  have hother : second ∈ cells.erase first := Finset.mem_erase.mpr ⟨Ne.symm hne, hsecond⟩
  have hrest : measure second ≤ ∑ cell ∈ cells.erase first, measure cell :=
    Finset.single_le_sum (fun _ _ => Nat.zero_le _) hother
  rw [← Finset.add_sum_erase _ measure hfirst] at hle
  omega

section Sums

variable [DecidableEq Token] {cells : Finset Cell} {before after : Cell → Option Token}
  {cell : Cell}

/-- How often the cells hold the token. -/
def custodians (cells : Finset Cell) (content : Cell → Option Token) (token : Token) : Nat :=
  ∑ cell ∈ cells, (content cell).toList.count token

theorem custodians_congr (heq : ∀ cell ∈ cells, after cell = before cell) (token : Token) :
    custodians cells after token = custodians cells before token :=
  Finset.sum_congr rfl fun cell hcell => by rw [heq cell hcell]

/-- A cell that holds the token counts. -/
theorem custodians_pos {token : Token} (hcell : cell ∈ cells)
    (hheld : before cell = some token) : 0 < custodians cells before token := by
  have hle : (before cell).toList.count token ≤ custodians cells before token :=
    Finset.single_le_sum (f := fun cell => (before cell).toList.count token)
      (fun _ _ => Nat.zero_le _) hcell
  have hone : (before cell).toList.count token = 1 := by simp [hheld]
  omega

theorem custodians_eq_zero {token : Token} (hnone : ∀ cell ∈ cells, before cell ≠ some token) :
    custodians cells before token = 0 := by
  refine Finset.sum_eq_zero fun cell hcell => List.count_eq_zero.mpr ?_
  rw [Option.mem_toList]
  exact hnone cell hcell

/-- Two cells that hold a token which is held once at most are the same. -/
theorem cell_eq_of_custodians_le_one {token : Token} (hle : custodians cells before token ≤ 1)
    {first second : Cell} (hfirst : first ∈ cells) (hsecond : second ∈ cells)
    (hone : before first = some token) (htwo : before second = some token) : first = second := by
  apply eq_of_sum_le_one hle hfirst hsecond
  · simp [hone]
  · simp [htwo]

variable [DecidableEq Cell]

/-- Replacing the content of one cell trades its token. -/
theorem custodians_replace (hcell : cell ∈ cells)
    (hothers : ∀ other, other ≠ cell → after other = before other) (token : Token) :
    custodians cells after token + (before cell).toList.count token =
      custodians cells before token + (after cell).toList.count token := by
  have hrest : ∑ other ∈ cells.erase cell, (after other).toList.count token =
      ∑ other ∈ cells.erase cell, (before other).toList.count token :=
    Finset.sum_congr rfl fun other hother => by
      rw [hothers other (Finset.ne_of_mem_erase hother)]
  unfold custodians
  rw [← Finset.add_sum_erase _ (fun other => (after other).toList.count token) hcell,
    ← Finset.add_sum_erase _ (fun other => (before other).toList.count token) hcell, hrest]
  omega

end Sums

/-! ## Cells in a list -/

section Lists

variable [DecidableEq Token]

@[simp] theorem count_some_singleton (held : Option Token) (token : Token) :
    [held].count (some token) = held.toList.count token := by
  cases held <;> simp [List.count_singleton]

/-- Replacing one member of a list trades its token. -/
theorem count_set_add {cells : List (Option Token)} {index : Nat} {held : Option Token}
    (hheld : cells[index]? = some held) (new : Option Token) (token : Token) :
    (cells.set index new).count (some token) + held.toList.count token =
      cells.count (some token) + new.toList.count token := by
  induction cells generalizing index with
  | nil => cases hheld
  | cons first rest ih =>
      rw [← count_some_singleton held, ← count_some_singleton new] at ih ⊢
      cases index with
      | zero =>
          obtain rfl : first = held := by simpa using hheld
          simp only [List.set_cons_zero, List.count_cons, List.count_nil]
          omega
      | succ index =>
          have hrest := ih (by simpa using hheld)
          simp only [List.set_cons_succ, List.count_cons, List.count_nil] at hrest ⊢
          omega

/-- A member that occurs once at most occurs at one index. -/
theorem index_eq_of_count_le_one {Member : Type uToken} [BEq Member] [LawfulBEq Member]
    {members : List Member} {member : Member} (hcount : members.count member ≤ 1)
    {first second : Nat} (hfirst : members[first]? = some member)
    (hsecond : members[second]? = some member) : first = second := by
  induction members generalizing first second with
  | nil => cases hfirst
  | cons head rest ih =>
      have hrest : ∀ {index : Nat}, rest[index]? = some member → 0 < rest.count member :=
        fun hindex => List.count_pos_iff.mpr (List.mem_of_getElem? hindex)
      have htwice : ∀ {index : Nat}, head = member → rest[index]? ≠ some member := by
        intro index heq hindex
        have hpos := hrest hindex
        rw [heq, List.count_cons_self] at hcount
        omega
      cases first with
      | zero =>
          cases second with
          | zero => rfl
          | succ second => exact absurd hsecond (htwice (Option.some.inj hfirst))
      | succ first =>
          cases second with
          | zero => exact absurd hfirst (htwice (Option.some.inj hsecond))
          | succ second =>
              have hle : rest.count member ≤ (head :: rest).count member :=
                (List.sublist_cons_self head rest).count_le member
              exact congrArg Nat.succ (ih (hle.trans hcount) hfirst hsecond)

end Lists

/-! ## The account of all tokens -/

/-- Every token that was issued is held once or spent once, and no other is. -/
def Accounted [DecidableEq Token] (issued : Finset Token) (held spent : Token → Nat) : Prop :=
  ∀ token, held token + spent token = if token ∈ issued then 1 else 0

namespace Accounted

variable [DecidableEq Token] {issued : Finset Token} {held spent heldNext spentNext : Token → Nat}
  {token : Token}

theorem le_one (haccounted : Accounted issued held spent) (token : Token) :
    held token + spent token ≤ 1 := by
  rw [haccounted token]
  split <;> omega

/-- A token that somebody holds was issued and is not spent. -/
theorem of_held (haccounted : Accounted issued held spent) (hheld : 0 < held token) :
    token ∈ issued ∧ spent token = 0 := by
  have hsum := haccounted token
  split at hsum
  next hissued => exact ⟨hissued, by omega⟩
  next => omega

/-- A token that nobody holds any more was spent. -/
theorem spent_eq_one (haccounted : Accounted issued held spent) (hissued : token ∈ issued)
    (hgone : held token = 0) : spent token = 1 := by
  have hsum := haccounted token
  rw [if_pos hissued, hgone] at hsum
  omega

/-- Tokens pass from cell to cell, or from a cell to the spent ones. -/
theorem keeps (haccounted : Accounted issued held spent)
    (hsum : ∀ token, heldNext token + spentNext token = held token + spent token) :
    Accounted issued heldNext spentNext :=
  fun token => (hsum token).trans (haccounted token)

/-- A new token is issued to a cell. -/
theorem issue (haccounted : Accounted issued held spent) (hnew : token ∉ issued)
    (hsum : ∀ other, heldNext other + spentNext other =
      held other + spent other + [token].count other) :
    Accounted (insert token issued) heldNext spentNext := by
  intro other
  rw [hsum other, haccounted other]
  by_cases heq : other = token
  · subst other
    simp [hnew]
  · simp [heq, Ne.symm heq]

end Accounted

end Foundation
