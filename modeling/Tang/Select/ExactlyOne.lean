import Tang.Select.Picking

/-! # Does `select` take exactly one case?

`select` runs one `try_execute` and returns, whatever it returned. Exactly one
case takes effect as long as the picked case can still succeed when its turn
comes, and this is the only thing that can go wrong.
-/

namespace Tang.Select

open Foundation

variable {Chan H A : Type} {T : Chan → Type} {n : Nat} {cases : Fin n → SelectCase Chan A T}
  {state next : State Chan H A T n} {action : Action Chan H A T n}

/-- When the call is over, one `try_execute` ran, it succeeded, and it ran the
callback of its case once if there is one. -/
def ExactlyOne (cases : Fin n → SelectCase Chan A T) (state : State Chan H A T n) : Prop :=
  state.phase = .returned → ∃ case, state.executed = [(case, true)] ∧
    state.callbacks = if (cases case).hasCallback then [case] else []

/-- A channel changes in a step of another party, or is the channel of the case
whose `try_execute` the step runs. -/
def TouchesPicked (cases : Fin n → SelectCase Chan A T) (state : State Chan H A T n)
    (action : Action Chan H A T n) (next : State Chan H A T n) : Prop :=
  ∀ chan, next.channels chan ≠ state.channels chan →
    (∃ call, action = .foreign chan call) ∨
      ∃ case result, next.executed = state.executed ++ [(case, result)] ∧
        (cases case).channel? = some chan

/-- When `try_execute` of the picked case runs, its operation can still succeed. -/
def ExecutesExecutable (cases : Fin n → SelectCase Chan A T) (state : State Chan H A T n) :
    Action Chan H A T n → Prop
  | .advance => ∀ case, state.phase = .executing case → (cases case).Executable state.channels
  | .shuffle _ | .foreign _ _ => True

/-- Nothing is executed before a case is picked, and a callback is due only
after a success. -/
def Progress (cases : Fin n → SelectCase Chan A T) (state : State Chan H A T n) : Prop :=
  match state.phase with
  | .calling case =>
      state.executed = [(case, true)] ∧ state.callbacks = [] ∧ (cases case).hasCallback = true
  | .returned => True
  | .shuffling _ | .probing _ _ | .rereading _ _ _ | .searching | .executing _ | .suspended =>
      state.executed = [] ∧ state.callbacks = []

theorem initial_progress (channels : Channels Chan H A T) (pass : Pass) :
    Progress cases (initial channels pass) :=
  ⟨rfl, rfl⟩

/-- Steps that look for a case keep the progress. -/
theorem Progress.look (hprogress : Progress cases state) (hsource : state.phase.picked = false)
    (htarget : next.phase.picked = false) (hexecuted : next.executed = state.executed)
    (hcallbacks : next.callbacks = state.callbacks) : Progress cases next := by
  have hnothing : state.executed = [] ∧ state.callbacks = [] := by
    unfold Progress at hprogress
    split at hprogress
    next case hcalling => simp [hcalling, Phase.picked] at hsource
    next hreturned => simp [hreturned, Phase.picked] at hsource
    all_goals exact hprogress
  unfold Progress
  split
  next case hcalling => simp [hcalling, Phase.picked] at htarget
  next => trivial
  all_goals rwa [hexecuted, hcallbacks]

theorem exactlyOne_of_unpicked (hphase : state.phase.picked = false) :
    ExactlyOne cases state := by
  intro hreturned
  simp [hreturned, Phase.picked] at hphase

variable [DecidableEq Chan] {self : Option H}

/-- The caller changes no channel but that of the case it executes. -/
theorem Moves.touchesPicked (hmoves : Moves cases self state action next) :
    TouchesPicked cases state action next := by
  intro chan hchanged
  cases hmoves with
  | shuffle | look | call => exact absurd rfl hchanged
  | execute case _ =>
      refine Or.inr ⟨case, _, rfl, ?_⟩
      by_contra hother
      exact hchanged ((cases case).tryExecute_channels_of_ne state.channels chan hother)
  | foreign other call _ =>
      by_cases heq : chan = other
      · subst other
        exact Or.inl ⟨call, rfl⟩
      · exact absurd (Function.update_of_ne heq _ _) hchanged

theorem Moves.progress (hmoves : Moves cases self state action next)
    (hprogress : Progress cases state) (hcondition : ExecutesExecutable cases state action) :
    Progress cases next := by
  cases hmoves with
  | shuffle pass order hphase => exact hprogress.look (by simp [hphase, Phase.picked]) rfl rfl rfl
  | look target hsource _ htarget _ => exact hprogress.look hsource htarget rfl rfl
  | execute case hphase =>
      have hresult := ((cases case).tryExecute_result_iff state.channels).mpr
        (hcondition case hphase)
      simp only [Progress, hphase] at hprogress
      cases hcallback : (cases case).hasCallback with
      | true => simp [Progress, hresult, hcallback, hprogress]
      | false => simp [Progress]
  | call case hphase => trivial
  | foreign chan call _ => exact hprogress

/-- Out of a state in which at most one case took effect, a step leads to a
state in which more or fewer did exactly if it executes a case that cannot
succeed. -/
theorem Moves.exactlyOne_iff (hmoves : Moves cases self state action next)
    (hprogress : Progress cases state) (hone : ExactlyOne cases state) :
    ExactlyOne cases next ↔ ExecutesExecutable cases state action := by
  cases hmoves with
  | shuffle pass order hphase => exact iff_of_true (exactlyOne_of_unpicked rfl) trivial
  | look target _ hidle htarget _ =>
      exact iff_of_true (exactlyOne_of_unpicked htarget)
        fun case hexecuting => absurd hexecuting (hidle case)
  | execute case hphase =>
      have hresult := (cases case).tryExecute_result_iff state.channels
      simp only [Progress, hphase] at hprogress
      constructor
      · intro hnext other hother
        have heq : case = other := by simpa [hphase] using hother
        subst other
        by_contra hblocked
        -- The failed attempt is all that was executed.
        have hfailed : ((cases case).tryExecute state.channels).result = false := by
          rw [(cases case).tryExecute_of_not_executable state.channels hblocked]
        obtain ⟨picked, hexecuted, _⟩ := hnext (by simp [hfailed])
        simp [hprogress.1, hfailed] at hexecuted
      · intro hcondition hreturned
        have hsucceeded := hresult.mpr (hcondition case hphase)
        have hcallback : (cases case).hasCallback = false := by
          simpa [hsucceeded] using hreturned
        exact ⟨case, by simp [hprogress.1, hsucceeded], by simp [hprogress.2, hcallback]⟩
  | call case hphase =>
      simp only [Progress, hphase] at hprogress
      obtain ⟨hexecuted, hcallbacks, hcallback⟩ := hprogress
      refine iff_of_true (fun _ => ⟨case, hexecuted, ?_⟩) fun other hother => ?_
      · simp [hcallbacks, hcallback]
      · simp [hphase] at hother
  | foreign chan call _ => exact iff_of_true hone trivial

variable [DecidableEq H]

/-- Over any channels and with any interleaving of other parties, `select`
touches no channel but that of the case it executes, and takes exactly one case
whenever it returns exactly if the case it executes is still executable. -/
theorem exactlyOne_along_iff (cases : Fin n → SelectCase Chan A T) (self : Option H)
    (channels : Channels Chan H A T) (actions : List (Action Chan H A T n)) :
    (select cases self channels).Throughout (TouchesPicked cases)
        (initial channels .immediate) actions ∧
      ((select cases self channels).Along (ExactlyOne cases)
          (initial channels .immediate) actions ↔
        (select cases self channels).Meets (ExecutesExecutable cases)
          (initial channels .immediate) actions) := by
  constructor
  · apply Machine.throughout_of_step
    intro state action next hstep
    exact (moves_of_step cases hstep).touchesPicked
  · apply Machine.along_iff_meets (Progress cases)
    · intro state action next hprogress _ hcondition hstep
      exact (moves_of_step cases hstep).progress hprogress hcondition
    · intro state action next hprogress hone hstep
      exact (moves_of_step cases hstep).exactlyOne_iff hprogress hone
    · exact initial_progress channels .immediate
    · exact exactlyOne_of_unpicked rfl

/-- A receive case with a callback, on a channel that is closed before the call:
it looks ready, its `try_recv` fails, and `select` returns. -/
theorem closed_channel_run :
    ¬ (select (fun _ : Fin 1 => (.recv () 0 true : SelectCase Unit Nat fun _ => Nat))
        (none : Option Nat) fun _ => .new 1).Along
      (ExactlyOne fun _ => .recv () 0 true) (initial (fun _ => .new 1) .immediate)
      [.foreign () .closeExchange, .foreign () .closeFlush, .shuffle ⟨[0], by decide⟩, .advance,
        .advance, .advance] := by
  intro halong
  have hlast := halong.last rfl
  obtain ⟨case, hexecuted, _⟩ := hlast rfl
  have hfailed : [((0 : Fin 1), false)] = [(case, true)] := hexecuted
  simp at hfailed

end Tang.Select
