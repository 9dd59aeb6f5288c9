import Tang.Select.Picking

/-! # A call that nobody disturbs

While the channels stand still, a pass takes the first case of the shuffled
order that looks ready. A default case always looks ready, in the same pass as
the others, so what stands before it decides whether it is taken.
-/

namespace Tang.Select

open Foundation

variable {Chan H A : Type} {T : Chan → Type} {n : Nat}

/-! ## The first ready case -/

section First

variable (cases : Fin n → SelectCase Chan A T) (channels : Channels Chan H A T)

/-- The case a pass over the given order picks. -/
def firstReady (order : List (Fin n)) : Option (Fin n) :=
  order.find? fun case => (cases case).tryReady channels

/-- A case in front of the first default case looks ready. -/
def ReadyBeforeDefault (order : List (Fin n)) : Prop :=
  ∃ case ∈ order.takeWhile fun case => !(cases case).isDefault,
    (cases case).tryReady channels = true

/-- A receive or send case could succeed. -/
def OtherExecutable : Prop :=
  ∃ case, (cases case).isDefault = false ∧ (cases case).Executable channels

variable {cases channels}

theorem tryReady_of_isDefault {case : SelectCase Chan A T} (hdefault : case.isDefault = true) :
    case.tryReady channels = true := by
  cases case with
  | recv | send => cases hdefault
  | defaultCase callback => rfl

/-- An order that contains a default case has a first ready case. -/
theorem firstReady_isSome {order : List (Fin n)}
    (hdefault : ∃ case ∈ order, (cases case).isDefault = true) :
    ∃ picked, firstReady cases channels order = some picked := by
  obtain ⟨case, hmem, hdefault⟩ := hdefault
  exact Option.isSome_iff_exists.mp
    (List.find?_isSome.mpr ⟨case, hmem, tryReady_of_isDefault hdefault⟩)

/-- The first ready case is a default case exactly if no ready case stands
before the first default case. -/
theorem isDefault_firstReady_iff {order : List (Fin n)} {picked : Fin n}
    (hpicked : firstReady cases channels order = some picked) :
    (cases picked).isDefault = true ↔ ¬ ReadyBeforeDefault cases channels order := by
  induction order with
  | nil => cases hpicked
  | cons head tail ih =>
      simp only [firstReady, List.find?_cons] at hpicked
      cases hdefault : (cases head).isDefault with
      | true =>
          rw [tryReady_of_isDefault hdefault] at hpicked
          cases hpicked
          apply iff_of_true hdefault
          rintro ⟨case, hmem, _⟩
          simp [hdefault] at hmem
      | false =>
          cases hready : (cases head).tryReady channels with
          | true =>
              rw [hready] at hpicked
              cases hpicked
              refine iff_of_false (by simp [hdefault]) (not_not_intro ⟨picked, ?_, hready⟩)
              simp [hdefault]
          | false =>
              rw [hready] at hpicked
              rw [ih hpicked]
              apply not_congr
              simp [ReadyBeforeDefault, hdefault, hready]

end First

/-! ## The undisturbed run -/

section Run

variable [DecidableEq Chan] [DecidableEq H] (cases : Fin n → SelectCase Chan A T)
  (self : Option H) (channels : Channels Chan H A T) (pass : Pass)

/-- `try_ready` of the first of the remaining cases, read by read. -/
theorem step_probing {state : State Chan H A T n} {head : Fin n} {tail : List (Fin n)}
    (hphase : state.phase = .probing pass (head :: tail)) :
    (machine cases self channels pass).step state .advance = some { state with
      phase := if (cases head).available state.channels then .executing head
        else .rereading pass head tail } := by
  simp only [machine, step, advance, hphase]
  split <;> rfl

theorem step_rereading (state : State Chan H A T n) (head : Fin n) (tail : List (Fin n)) :
    (machine cases self channels pass).step
        { state with phase := .rereading pass head tail } .advance = some { state with
      phase := if (cases head).closed state.channels then .executing head
        else .probing pass tail } := by
  simp only [machine, step, advance]
  split <;> rfl

/-- A pass gets to `try_execute` of the first ready case. -/
theorem exec_probing {picked : Fin n} (state : State Chan H A T n) {rest : List (Fin n)}
    (hpicked : firstReady cases state.channels rest = some picked)
    (hphase : state.phase = .probing pass rest) :
    ∃ count, (machine cases self channels pass).exec state (List.replicate count .advance) =
      some { state with phase := .executing picked } := by
  induction rest generalizing state with
  | nil => cases hpicked
  | cons head tail ih =>
      have hfirst := step_probing cases self channels pass hphase
      have hsecond := step_rereading cases self channels pass state head tail
      cases havailable : (cases head).available state.channels with
      | true =>
          have hready : (cases head).tryReady state.channels = true := by
            simp [SelectCase.tryReady, havailable]
          simp only [firstReady, List.find?_cons, hready] at hpicked
          cases hpicked
          refine ⟨1, ?_⟩
          simp only [List.replicate_one, Machine.exec, hfirst, havailable, if_true,
            Option.bind_some]
      | false =>
          simp only [havailable, Bool.false_eq_true, if_false] at hfirst
          cases hclosed : (cases head).closed state.channels with
          | true =>
              have hready : (cases head).tryReady state.channels = true := by
                simp [SelectCase.tryReady, hclosed]
              simp only [firstReady, List.find?_cons, hready] at hpicked
              cases hpicked
              refine ⟨2, ?_⟩
              simp only [List.replicate_succ, List.replicate_zero, Machine.exec, hfirst, hsecond,
                hclosed, if_true, Option.bind_some]
          | false =>
              have hready : (cases head).tryReady state.channels = false := by
                simp [SelectCase.tryReady, havailable, hclosed]
              simp only [firstReady, List.find?_cons, hready] at hpicked
              obtain ⟨count, hcount⟩ := ih { state with phase := .probing pass tail } hpicked rfl
              refine ⟨count + 2, ?_⟩
              simp only [List.replicate_succ, Machine.exec, hfirst, hsecond, hclosed,
                Bool.false_eq_true, if_false, Option.bind_some]
              exact hcount

/-- `try_execute` and its callback end the call. -/
theorem exec_executing {picked : Fin n} (state : State Chan H A T n)
    (hphase : state.phase = .executing picked) :
    ∃ count final,
      (machine cases self channels pass).exec state (List.replicate count .advance) = some final ∧
        final.phase = .returned ∧
        final.executed.map Prod.fst = state.executed.map Prod.fst ++ [picked] := by
  let attempt := (cases picked).tryExecute state.channels
  let after (phase : Phase n) : State Chan H A T n := { state with
    channels := attempt.channels
    phase := phase
    executed := state.executed ++ [(picked, attempt.result)]
    scheduled := state.scheduled ++ attempt.scheduled }
  have hfirst : (machine cases self channels pass).step state .advance = some (after
      (if attempt.result && (cases picked).hasCallback then .calling picked else .returned)) := by
    simp only [machine, step, advance, hphase]
    rfl
  have hexecuted : (after .returned).executed.map Prod.fst =
      state.executed.map Prod.fst ++ [picked] := by
    simp [after]
  cases hcalls : attempt.result && (cases picked).hasCallback with
  | true =>
      rw [hcalls, if_pos rfl] at hfirst
      refine ⟨2, { after .returned with callbacks := state.callbacks ++ [picked] }, ?_, rfl,
        hexecuted⟩
      simp only [List.replicate_succ, List.replicate_zero, Machine.exec, hfirst,
        Option.bind_some]
      rfl
  | false =>
      rw [hcalls, if_neg (by simp)] at hfirst
      refine ⟨1, after .returned, ?_, rfl, hexecuted⟩
      simp only [List.replicate_one, Machine.exec, hfirst, Option.bind_some]

/-- The call of `select`, or `await_ready`, on channels that stand still: the
first ready case of the shuffled order is executed, and the call is over. -/
theorem exec_undisturbed {picked : Fin n} (order : Shuffle n)
    (hpicked : firstReady cases channels order.1 = some picked) :
    ∃ count final, (machine cases self channels pass).exec (initial channels pass)
        (.shuffle order :: List.replicate count .advance) = some final ∧
      final.phase = .returned ∧ final.executed.map Prod.fst = [picked] := by
  let start : State Chan H A T n :=
    { initial channels pass with phase := .probing pass order.1, order := order.1 }
  obtain ⟨probes, hprobes⟩ := exec_probing cases self channels pass start hpicked rfl
  obtain ⟨rest, final, hrest, hreturned, hexecuted⟩ :=
    exec_executing cases self channels pass { start with phase := .executing picked } rfl
  refine ⟨probes + rest, final, ?_, hreturned, hexecuted⟩
  have hshuffle : (machine cases self channels pass).step (initial channels pass)
      (.shuffle order) = some start := rfl
  rw [Machine.exec, hshuffle, Option.bind_some, ← List.replicate_append_replicate,
    Machine.exec_append, hprobes, Option.bind_some, hrest]

/-- With the channels standing still, the default case is executed exactly when
no other case could succeed if and only if what looks ready before the first
default case agrees with what could succeed. -/
theorem default_last_iff (hdefault : ∃ case, (cases case).isDefault = true) (order : Shuffle n) :
    ∃ count final picked, (machine cases self channels pass).exec (initial channels pass)
        (.shuffle order :: List.replicate count .advance) = some final ∧
      final.phase = .returned ∧ final.executed.map Prod.fst = [picked] ∧
      (((cases picked).isDefault = true ↔ ¬ OtherExecutable cases channels) ↔
        (ReadyBeforeDefault cases channels order.1 ↔ OtherExecutable cases channels)) := by
  obtain ⟨default, hdefault⟩ := hdefault
  have hmem : default ∈ order.1 := order.2.mem_iff.mpr (List.mem_finRange default)
  obtain ⟨picked, hpicked⟩ : ∃ picked, firstReady cases channels order.1 = some picked :=
    firstReady_isSome ⟨default, hmem, hdefault⟩
  obtain ⟨count, final, hexec, hreturned, hexecuted⟩ :=
    exec_undisturbed cases self channels pass order hpicked
  refine ⟨count, final, picked, hexec, hreturned, hexecuted, ?_⟩
  rw [isDefault_firstReady_iff hpicked, not_iff_not]

end Run

/-- A receive case and a default case. -/
def recvOrDefault : Fin 2 → SelectCase Unit Nat fun _ => Nat
  | 0 => .recv () 0 true
  | 1 => .defaultCase true

/-- A channel with the value 5 in its buffer. -/
def filled : Channels Unit Nat Nat fun _ => Nat :=
  fun _ => ((Channel.new 1).trySend 5).channel

/-- A closed empty channel. -/
def shut : Channels Unit Nat Nat fun _ => Nat :=
  fun _ => (Channel.new 1).closeExchange.channel

theorem default_last_recv_first :
    ∃ count final picked, (select recvOrDefault none filled).exec (initial filled .immediate)
        (.shuffle ⟨[0, 1], by decide⟩ :: List.replicate count .advance) = some final ∧
      final.phase = .returned ∧ final.executed.map Prod.fst = [picked] ∧
      (((recvOrDefault picked).isDefault = true ↔ ¬ OtherExecutable recvOrDefault filled) ↔
        (ReadyBeforeDefault recvOrDefault filled [0, 1] ↔ OtherExecutable recvOrDefault filled)) :=
  default_last_iff recvOrDefault none filled .immediate ⟨1, rfl⟩ ⟨[0, 1], by decide⟩

/-- Shuffled to the front, the default case is executed although 5 could be
received; behind a receive from a closed empty channel it is not executed
although nothing else can succeed. -/
theorem default_misplaced_runs :
    (∃ final, (select recvOrDefault none filled).exec (initial filled .immediate)
        [.shuffle ⟨[1, 0], by decide⟩, .advance, .advance, .advance] = some final ∧
      final.phase = .returned ∧ final.executed = [(1, true)] ∧
      OtherExecutable recvOrDefault filled) ∧
    ∃ final, (select recvOrDefault none shut).exec (initial shut .immediate)
        [.shuffle ⟨[0, 1], by decide⟩, .advance, .advance, .advance] = some final ∧
      final.phase = .returned ∧ final.executed = [(0, false)] ∧
      ¬ OtherExecutable recvOrDefault shut := by
  constructor
  · exact ⟨_, rfl, rfl, rfl, 0, rfl, by decide⟩
  · refine ⟨_, rfl, rfl, rfl, ?_⟩
    rintro ⟨case, hother, hexecutable⟩
    match case with
    | 0 => exact absurd hexecutable (by decide)
    | 1 => cases hother

end Tang.Select
