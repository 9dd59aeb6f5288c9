import Tang.Foundation.Progress
import Tang.Select.Picking

/-! # How long `select` goes on looking

A pass reads the buffer of a case and then its `closed_` flag, and between the
two reads the case may change from one of these answers to the other. Since a
channel is never opened again, a case that stays ready cannot be passed over,
and the caller picks a case in this pass or in the next one.
-/

namespace Tang.Select

open Foundation

variable {Chan H A : Type} {T : Chan → Type} {n : Nat}

/-- A step of the caller. -/
def Action.own : Action Chan H A T n → Bool
  | .shuffle _ | .advance => true
  | .foreign _ _ => false

/-- In the pass of `await_suspend`, or past it without a case: no further pass
follows. -/
def Phase.last : Phase n → Bool
  | .probing .suspend _ | .rereading .suspend _ _ | .suspended => true
  | .probing .immediate _ | .probing .round _ | .probing .ready _ => false
  | .rereading .immediate _ _ | .rereading .round _ _ | .rereading .ready _ _ => false
  | .shuffling _ | .searching | .executing _ | .calling _ | .returned => false

/-- The pass under way still gets to the case, and will find it ready. -/
def Ahead (cases : Fin n → SelectCase Chan A T) (case : Fin n) (state : State Chan H A T n) :
    Prop :=
  match state.phase with
  | .probing _ rest => case ∈ rest
  | .rereading _ other rest =>
      other = case ∧ (cases case).closed state.channels = true ∨ case ∈ rest
  | .shuffling _ | .searching | .executing _ | .calling _ | .returned => True
  | .suspended => False

instance (cases : Fin n → SelectCase Chan A T) (case : Fin n) (state : State Chan H A T n) :
    Decidable (Ahead cases case state) := by
  unfold Ahead
  split <;> infer_instance

/-- The steps the caller takes at most, when `missed` counts those of the next
pass, if this one has missed the case. -/
def Phase.patience (missed : Nat) : Phase n → Nat
  | .probing _ rest => 2 * rest.length + 2 + missed
  | .rereading _ _ rest => 2 * rest.length + 3 + missed
  | .searching => 2 * n + 4
  | .shuffling _ => 2 * n + 3
  | .executing _ => 2
  | .calling _ => 1
  | .suspended | .returned => 0

/-- The steps the caller of a ready case takes at most. -/
def patience (cases : Fin n → SelectCase Chan A T) (case : Fin n) (state : State Chan H A T n) :
    Nat :=
  state.phase.patience (if Ahead cases case state then 0 else 2 * n + 3)

/-- The case is ready for as long as the caller has not gone past the channel
operation of the case it picks. -/
def StaysReady (cases : Fin n → SelectCase Chan A T) (case : Fin n)
    (state : State Chan H A T n) : Prop :=
  state.phase.picked = false → (cases case).tryReady state.channels = true

instance (cases : Fin n → SelectCase Chan A T) (case : Fin n) (state : State Chan H A T n) :
    Decidable (StaysReady cases case state) :=
  inferInstanceAs (Decidable (_ → _))

/-- A pass has no more cases left than there are. -/
def Phase.fits : Phase n → Prop
  | .probing _ rest => rest.length ≤ n
  | .rereading _ _ rest => rest.length < n
  | .shuffling _ | .searching | .executing _ | .calling _ | .suspended | .returned => True

/-- The last pass gets to the case. -/
structure Looking (cases : Fin n → SelectCase Chan A T) (case : Fin n)
    (state : State Chan H A T n) : Prop where
  fits : state.phase.fits
  ahead : state.phase.last = true → Ahead cases case state

/-! ## A closed channel stays closed -/

theorem Foreign.closed_of_closed {V : Type} {channel : Channel H A V} (call : Foreign H A V)
    (hclosed : channel.closed = true) : (call.run channel).1.closed = true := by
  cases call with
  | trySend value | trySendMove value | tryRecv reader old | registerSendWaiter handle value
  | registerRecvWaiter handle awaiter =>
      simpa [run, Channel.trySend, Channel.trySendMove] using hclosed
  | closeExchange => rfl
  | closeFlush => exact hclosed

theorem SelectCase.closed_update [DecidableEq Chan] {case : SelectCase Chan A T}
    {channels : Channels Chan H A T} {chan : Chan} {after : Channel H A (T chan)}
    (hafter : (channels chan).closed = true → after.closed = true)
    (hclosed : case.closed channels = true) :
    case.closed (Function.update channels chan after) = true := by
  cases case with
  | recv place | send place =>
      by_cases hplace : place = chan
      · subst hplace
        simpa [closed, Channel.isClosed] using hafter hclosed
      · simpa [closed, hplace] using hclosed
  | defaultCase => exact hclosed

theorem SelectCase.closed_of_tryReady {case : SelectCase Chan A T}
    {channels : Channels Chan H A T} (hready : case.tryReady channels = true)
    (havailable : ¬ case.available channels = true) : case.closed channels = true := by
  simpa [tryReady, havailable] using hready

/-! ## The steps of a caller with a ready case -/

theorem Phase.patience_le {phase : Phase n} {missed : Nat} (hfits : phase.fits)
    (hmissed : missed ≤ 2 * n + 3) : phase.patience missed ≤ 4 * n + 5 := by
  cases phase with
  | probing | rereading =>
      simp only [fits] at hfits
      simp only [patience]
      omega
  | shuffling | searching | executing | calling | suspended | returned =>
      simp only [patience]
      omega

theorem Phase.patience_mono (phase : Phase n) {missed more : Nat} (hle : missed ≤ more) :
    phase.patience missed ≤ phase.patience more := by
  cases phase with
  | probing | rereading =>
      simp only [patience]
      omega
  | shuffling | searching | executing | calling | suspended | returned => exact Nat.le_refl _

section Steps

variable {cases : Fin n → SelectCase Chan A T} {case : Fin n} {state next : State Chan H A T n}

/-- A step that leaves the case ahead if it was ahead. -/
theorem Looking.step (hlooking : Looking cases case state) (cost : Nat)
    (hfits : next.phase.fits) (hlast : next.phase.last = true → state.phase.last = true)
    (hahead : Ahead cases case state → Ahead cases case next)
    (hcost : ∀ missed, next.phase.patience missed + cost ≤ state.phase.patience missed) :
    Looking cases case next ∧ patience cases case next + cost ≤ patience cases case state := by
  refine ⟨⟨hfits, fun h => hahead (hlooking.ahead (hlast h))⟩, ?_⟩
  have hmissed : (if Ahead cases case next then 0 else 2 * n + 3) ≤
      if Ahead cases case state then 0 else 2 * n + 3 := by
    by_cases hold : Ahead cases case state
    · simp [hold, hahead hold]
    · rw [if_neg hold]
      split <;> omega
  have hmono : patience cases case next ≤
      next.phase.patience (if Ahead cases case state then 0 else 2 * n + 3) :=
    next.phase.patience_mono hmissed
  exact Nat.le_trans (Nat.add_le_add_right hmono cost) (hcost _)

/-- A step to a place where every case is ahead. -/
theorem Looking.turn (hlooking : Looking cases case state) (hfits : next.phase.fits)
    (hlast : next.phase.last = false) (hahead : Ahead cases case next)
    (hcost : ∀ missed, next.phase.patience missed + 1 ≤ state.phase.patience missed) :
    Looking cases case next ∧ patience cases case next + 1 ≤ patience cases case state :=
  hlooking.step 1 hfits (fun h => by simp [hlast] at h) (fun _ => hahead) hcost

variable [DecidableEq Chan]

/-- A step of the caller keeps the case ahead, and takes up patience. -/
theorem Looking.advance (hlooking : Looking cases case state)
    (hready : StaysReady cases case state) (hstep : advance cases state = some next) :
    Looking cases case next ∧ patience cases case next + 1 ≤ patience cases case state := by
  have hfits : state.phase.fits := hlooking.fits
  unfold Select.advance at hstep
  split at hstep
  next => cases hstep
  next pass hphase =>
    cases hstep
    -- the pass is over, and has missed the case
    have hmissed : ¬ Ahead cases case state := by simp [Ahead, hphase]
    have hpass : pass ≠ .suspend := by
      rintro rfl
      exact hmissed (hlooking.ahead (by rw [hphase]; rfl))
    have hpatience : patience cases case state = 2 * n + 5 := by
      simp only [patience, hphase, hmissed, if_false, Phase.patience, List.length_nil]
      omega
    cases pass with
    | suspend => exact absurd rfl hpass
    | immediate =>
        refine ⟨⟨trivial, fun h => Bool.noConfusion h⟩, ?_⟩
        rw [hpatience]
        exact Nat.le_refl _
    | round | ready =>
        refine ⟨⟨trivial, fun h => Bool.noConfusion h⟩, ?_⟩
        rw [hpatience]
        exact Nat.le_succ _
  next pass head rest hphase =>
    simp only [hphase, Phase.fits, List.length_cons] at hfits
    split at hstep
    next =>
      cases hstep
      refine hlooking.turn trivial rfl trivial fun missed => ?_
      simp only [hphase, Phase.patience, List.length_cons]
      omega
    next havailable =>
      cases hstep
      refine hlooking.step 1 ?_ ?_ ?_ fun missed => ?_
      · exact hfits
      · cases pass <;> simp [hphase, Phase.last]
      · intro hahead
        have hmem : case ∈ head :: rest := by simpa only [Ahead, hphase] using hahead
        -- the case is ready without being available, so its channel is closed
        rcases List.mem_cons.mp hmem with rfl | hrest
        · have hnow := hready (by rw [hphase]; rfl)
          exact Or.inl ⟨rfl, SelectCase.closed_of_tryReady hnow havailable⟩
        · exact Or.inr hrest
      · simp only [hphase, Phase.patience, List.length_cons]
        omega
  next pass head rest hphase =>
    simp only [hphase, Phase.fits] at hfits
    split at hstep
    next =>
      cases hstep
      refine hlooking.turn trivial rfl trivial fun missed => ?_
      simp only [hphase, Phase.patience]
      omega
    next hopen =>
      cases hstep
      refine hlooking.step 1 ?_ ?_ ?_ fun missed => ?_
      · exact Nat.le_of_lt hfits
      · cases pass <;> simp [hphase, Phase.last]
      · intro hahead
        have hmem : head = case ∧ (cases case).closed state.channels = true ∨ case ∈ rest := by
          simpa only [Ahead, hphase] using hahead
        rcases hmem with ⟨rfl, hclosed⟩ | hrest
        · exact absurd hclosed hopen
        · exact hrest
      · simp only [hphase, Phase.patience]
        omega
  next hphase =>
    split at hstep
    next =>
      cases hstep
      refine hlooking.turn trivial rfl trivial fun missed => ?_
      simp only [hphase, Phase.patience]
      omega
    next =>
      cases hstep
      refine hlooking.turn trivial rfl trivial fun missed => ?_
      simp only [hphase, Phase.patience]
      omega
  next picked hphase =>
    cases hstep
    split
    next =>
      exact hlooking.turn trivial rfl trivial fun missed => by simp [hphase, Phase.patience]
    next =>
      exact hlooking.turn trivial rfl trivial fun missed => by simp [hphase, Phase.patience]
  next picked hphase =>
    cases hstep
    exact hlooking.turn trivial rfl trivial fun missed => by simp [hphase, Phase.patience]
  next => cases hstep
  next => cases hstep

/-- A step of another party leaves the caller where it is. -/
theorem Looking.foreign (hlooking : Looking cases case state) (chan : Chan)
    (call : Foreign H A (T chan)) (scheduled : List H) :
    let after : State Chan H A T n := { state with
      channels := Function.update state.channels chan (call.run (state.channels chan)).1
      scheduled := scheduled }
    Looking cases case after ∧ patience cases case after + 0 ≤ patience cases case state := by
  refine hlooking.step 0 hlooking.fits id ?_ fun missed => Nat.le_refl _
  intro hahead
  unfold Ahead at hahead ⊢
  cases hphase : state.phase with
  | rereading pass other rest =>
      simp only [hphase] at hahead ⊢
      exact hahead.imp_left fun hcaught =>
        ⟨hcaught.1, SelectCase.closed_update call.closed_of_closed hcaught.2⟩
  | probing => simpa only [hphase] using hahead
  | suspended => simp [hphase] at hahead
  | shuffling | searching | executing | calling | returned => trivial

variable [DecidableEq H] (self : Option H) (channels : Channels Chan H A T) (pass : Pass)

/-- Each step of the caller takes up patience, as long as the case stays ready. -/
theorem spends_patience (cases : Fin n → SelectCase Chan A T) (case : Fin n) :
    (machine cases self channels pass).Spends Action.own (StaysReady cases case)
      (Looking cases case) (patience cases case) := by
  intro state action next hlooking hready _ hstep
  change step cases self state action = some next at hstep
  cases action with
  | shuffle order =>
      simp only [step] at hstep
      split at hstep
      next pass hphase =>
        cases hstep
        have hmem : case ∈ order.1 := order.2.mem_iff.mpr (List.mem_finRange case)
        have hlength : order.1.length = n := by simpa using order.2.length_eq
        refine ⟨⟨Nat.le_of_eq hlength, fun _ => hmem⟩, ?_⟩
        have hahead : Ahead cases case
            { state with phase := .probing pass order.1, order := order.1 } := hmem
        simp only [patience, hahead, if_true, hphase, Phase.patience, Action.own, hlength]
        omega
      next => cases hstep
  | advance => exact hlooking.advance hready hstep
  | foreign chan call =>
      simp only [step] at hstep
      split at hstep
      next => cases hstep
      next =>
        cases hstep
        exact hlooking.foreign chan call _

/-- The caller has its next step before it until it returns or is suspended. -/
theorem own_step_enabled (hreturned : state.phase ≠ .returned)
    (hsuspended : state.phase ≠ .suspended) :
    ∃ action, Action.own action = true ∧
      ((machine cases self channels pass).step state action).isSome := by
  cases hphase : state.phase with
  | shuffling pass =>
      exact ⟨.shuffle ⟨List.finRange n, .refl _⟩, rfl, by simp [machine, Select.step, hphase]⟩
  | probing pass rest =>
      refine ⟨.advance, rfl, ?_⟩
      simp only [machine, Select.step, Select.advance, hphase]
      cases rest with
      | nil => rfl
      | cons head tail =>
          dsimp only
          split <;> rfl
  | rereading pass head rest =>
      refine ⟨.advance, rfl, ?_⟩
      simp only [machine, Select.step, Select.advance, hphase]
      split <;> rfl
  | searching =>
      refine ⟨.advance, rfl, ?_⟩
      simp only [machine, Select.step, Select.advance, hphase]
      split <;> rfl
  | executing picked | calling picked =>
      exact ⟨.advance, rfl, by simp [machine, Select.step, Select.advance, hphase]⟩
  | suspended => exact absurd hphase hsuspended
  | returned => exact absurd hphase hreturned

omit [DecidableEq H] in
theorem fits_of_advance (hfits : state.phase.fits) (hstep : advance cases state = some next) :
    next.phase.fits := by
  unfold Select.advance at hstep
  split at hstep
  next => cases hstep
  next pass hphase =>
    cases hstep
    cases pass <;> trivial
  next pass head rest hphase =>
    rw [hphase] at hfits
    split at hstep
    next =>
      cases hstep
      trivial
    next =>
      cases hstep
      exact hfits
  next pass head rest hphase =>
    rw [hphase] at hfits
    split at hstep
    next =>
      cases hstep
      trivial
    next =>
      cases hstep
      exact Nat.le_of_lt hfits
  next =>
    split at hstep <;>
      · cases hstep
        trivial
  next =>
    cases hstep
    dsimp only
    split <;> trivial
  next =>
    cases hstep
    trivial
  next => cases hstep
  next => cases hstep

/-- No pass has more cases left than there are. -/
theorem fits_of_reachable (hstate : (machine cases self channels pass).Reachable state) :
    state.phase.fits := by
  induction hstate with
  | start => trivial
  | step action _ hstep hfits =>
      change Select.step cases self _ action = some _ at hstep
      cases action with
      | shuffle order =>
          simp only [Select.step] at hstep
          split at hstep
          next =>
            cases hstep
            exact Nat.le_of_eq (by simpa using order.2.length_eq)
          next => cases hstep
      | advance => exact fits_of_advance hfits hstep
      | foreign chan call =>
          simp only [Select.step] at hstep
          split at hstep
          next => cases hstep
          next =>
            cases hstep
            exact hfits

/-- Over any channels and with any interleaving of other parties, a caller that
has a further pass before it takes at most `4 * n + 5` steps of its own for as
long as one of its `n` cases stays ready, and has a step to take until it has
returned; it is not suspended. -/
theorem returns_within (cases : Fin n → SelectCase Chan A T) (case : Fin n)
    {final : State Chan H A T n} (hstate : (machine cases self channels pass).Reachable state)
    (hlast : state.phase.last = false) (actions : List (Action Chan H A T n))
    (hready : (machine cases self channels pass).Along (StaysReady cases case) state actions)
    (hfinal : (machine cases self channels pass).exec state actions = some final) :
    actions.countP Action.own ≤ 4 * n + 5 ∧
      (final.phase = .returned ∨ ∃ action, Action.own action = true ∧
        ((machine cases self channels pass).step final action).isSome) := by
  have hfits : state.phase.fits := fits_of_reachable self channels pass hstate
  have hstart : Looking cases case state := ⟨hfits, fun h => by simp [hlast] at h⟩
  obtain ⟨hlooking, hrank⟩ :=
    (spends_patience self channels pass cases case).exec hstart hready hfinal
  constructor
  · have hpatience : patience cases case state ≤ 4 * n + 5 := by
      apply Phase.patience_le hfits
      split <;> omega
    omega
  · by_cases hreturned : final.phase = .returned
    · exact Or.inl hreturned
    · refine Or.inr (own_step_enabled self channels pass hreturned fun hsuspended => ?_)
      have hahead := hlooking.ahead (by rw [hsuspended]; rfl)
      simp [Ahead, hsuspended] at hahead

end Steps

/-- A receive from a channel that gets a value after it was probed. -/
theorem returns_within_recv :
    let cases : Fin 1 → SelectCase Unit Nat fun _ => Nat := fun _ => .recv () 0 true
    let actions : List (Action Unit Nat Nat (fun _ => Nat) 1) :=
      [.advance, .advance, .advance, .shuffle ⟨[0], by decide⟩, .advance, .advance, .advance]
    ∃ state final,
      (select cases none fun _ => .new 1).exec (initial (fun _ => .new 1) .immediate)
        [.shuffle ⟨[0], by decide⟩, .advance, .foreign () (.trySend 5)] = some state ∧
      (select cases none fun _ => .new 1).exec state actions = some final ∧
      actions.countP Action.own ≤ 4 * 1 + 5 := by
  refine ⟨_, _, rfl, rfl, ?_⟩
  refine (returns_within none (fun _ => .new 1) .immediate
    (fun _ : Fin 1 => (.recv () 0 true : SelectCase Unit Nat fun _ => Nat)) 0
    (Machine.Reachable.start.exec [.shuffle ⟨[0], by decide⟩, .advance,
      .foreign () (.trySend 5)] rfl) rfl _ ?_ rfl).1
  decide

end Tang.Select
