import Tang.Runtime.Moves

/-! # Coroutines that do not suspend

A coroutine starts at once and a task that is done is not suspended for, so a
body which only awaits tasks of this kind is a function: it runs to its end on
the stack of its caller. Here such bodies are programs, whose value or exception
is computed directly, and the runtime is shown to compute the same.
-/

namespace Tang.Runtime

open Foundation

variable {Thread V Chan : Type}

/-- The body of a `task<void>` (`true`) or `task<T>`, which goes on after an await
with what the awaited coroutine ended with. -/
inductive Program (V : Type) : Bool → Type
  | returns (value : V) : Program V false
  | returnsVoid : Program V true
  | raises {void : Bool} (error : V) : Program V void
  /-- `co_await` of a call of another coroutine. -/
  | awaits {void : Bool} (inner : Bool) (child : Program V inner)
      (later : Ending V → Program V void) : Program V void

namespace Program

variable {void : Bool}

/-- The value or the exception of a program. -/
def denote : {void : Bool} → Program V void → Ending V
  | _, .returns value => .returned (.data value)
  | _, .returnsVoid => .returnedVoid
  | _, .raises error => .raised error
  | _, .awaits _ child later => (later child.denote).denote

/-- How many coroutines it calls. -/
def created : {void : Bool} → Program V void → Nat
  | _, .returns _ | _, .returnsVoid | _, .raises _ => 0
  | _, .awaits _ child later => 1 + child.created + (later child.denote).created

/-- What its awaits, and those of the coroutines it calls, get out of the tasks,
when the handles from `fresh` on are free. -/
def receipts : {void : Bool} → Program V void → (handle fresh : Nat) → List (Receipt V)
  | _, .returns _, _, _ | _, .returnsVoid, _, _ | _, .raises _, _, _ => []
  | _, .awaits _ child later, handle, fresh =>
      child.receipts fresh (fresh + 1) ++ ⟨handle, some fresh, .ending child.denote⟩ ::
        (later child.denote).receipts handle (fresh + 1 + child.created)

/-- The steps of the thread: an awaited task is the temporary of its expression,
and is destroyed at the end of it. -/
def actions (thread : Thread) : {void : Bool} → Program V void → (fresh : Nat) →
    (source : Nat) → List (Action Thread V Chan)
  | _, .returns value, _, _ => [.body thread (.returnValue value)]
  | _, .returnsVoid, _, _ => [.body thread .returnVoid]
  | _, .raises error, _, _ => [.body thread (.raise error)]
  | _, .awaits inner child later, fresh, source =>
      .code thread (.create fresh inner) :: (child.actions thread (fresh + 1) (source + 1) ++
        ([.body thread (.awaitTask source), .code thread (.dropTask source), .proceed thread] ++
          (later child.denote).actions thread (fresh + 1 + child.created)
            (source + 1 + child.created)))

end Program

/-! ## Getting the result -/

/-- An ending of a `task<void>` (`true`) or `task<T>` that carries no task. -/
inductive Ending.Plain : Bool → Ending V → Prop
  | returnedVoid : Plain true .returnedVoid
  | returned (value : V) : Plain false (.returned (.data value))
  | raised {void : Bool} (error : V) : Plain void (.raised error)

theorem Program.plain {void : Bool} (program : Program V void) : program.denote.Plain void := by
  induction program with
  | returns value => exact .returned value
  | returnsVoid => exact .returnedVoid
  | raises error => exact .raised error
  | awaits inner child later _ ih => exact ih child.denote

section Collecting

variable {void : Bool} {ending : Ending V}

/-- An await gets what the coroutine ended with, and no task stays behind in the
promise. -/
theorem Ending.Plain.awaitResume (Chan : Type) (hplain : ending.Plain void) :
    ∃ frame : Frame V Chan,
      ((Frame.created void).finish ending).awaitResume = (.ending ending, frame) ∧
        frame.status = .finished ∧ ∀ inner, frame.result ≠ some (.task inner) := by
  cases hplain <;> exact ⟨_, rfl, rfl, by simp [Frame.finish, Frame.created, Frame.unborn]⟩

variable [DecidableEq Thread] {state : State Thread V Chan} {thread : Thread}
  {handle child : Handle} {source : Nat} {rest : List (Activity V Chan)}

/-- The coroutine behind a task has been awaited, and destroyed with the task. -/
def State.collected (state : State Thread V Chan) (handle child : Handle) (source : Nat)
    (ending : Ending V) (frame : Frame V Chan) : State Thread V Chan :=
  { state with
    frames := Function.update state.frames child { frame with live := false }
    tasks := state.tasks.set source none
    receipts := state.receipts ++ [⟨handle, some child, .ending ending⟩] }

variable [DecidableEq Chan] {capacity : Chan → Nat}

/-- A `co_await` of a temporary task whose coroutine is done: the result is moved
out, and the end of the expression destroys the task. -/
theorem collects (hplain : ending.Plain void)
    (hstack : state.callStacks thread = .body handle :: rest)
    (htask : state.tasks[source]? = some (some child))
    (hframe : state.frames child = (Frame.created void).finish ending) :
    ∃ frame : Frame V Chan, frame.status = .finished ∧
      (machine Thread V Chan capacity).exec state
          [.body thread (.awaitTask source), .code thread (.dropTask source), .proceed thread] =
        some (state.collected handle child source ending frame) := by
  obtain ⟨frame, hresult, hfinished, hkept⟩ := hplain.awaitResume Chan
  have hdone : (state.frames child).done = true := by
    rw [hframe]
    cases ending <;> rfl
  have hawait : state.awaitResume handle source =
      { state.withFrame child frame with
        receipts := state.receipts ++ [⟨handle, some child, .ending ending⟩] } := by
    simp only [State.awaitResume, htask, hframe, hresult]
    cases hplain <;> simp [State.withFrame]
  let picked := state.awaitResume handle source
  let dropped := { picked with tasks := state.tasks.set source none }.withStack thread
    (.destroying child :: .body handle :: rest)
  have hpicks : step state (.body thread (.awaitTask source)) = some picked := by
    simp [step, hstack, State.bodyOp, htask, hdone, picked]
  have hdrops : step picked (.code thread (.dropTask source)) = some dropped := by
    simp [step, picked, hawait, State.withFrame, hstack, atCode, State.code, htask, dropped]
  have hdestroys : step dropped (.proceed thread) =
      some (state.collected handle child source ending frame) := by
    simp [step, dropped, picked, hawait, State.withFrame, State.withStack, State.activity,
      State.destroy, State.collected]
    rw [hstack]
    split
    · next inner hresult => exact absurd hresult (hkept (some inner))
    · rfl
  refine ⟨frame, hfinished, ?_⟩
  simp [Machine.exec, machine, hpicks, hdrops, hdestroys]

end Collecting

/-! ## Running a program -/

/-- The thread is in the body of `handle`, the handles from `fresh` on are free,
and the next task object gets the number `source`. -/
structure Calls (state : State Thread V Chan) (thread : Thread) (handle fresh : Nat)
    (source : Nat) (void : Bool) (rest : List (Activity V Chan)) : Prop where
  stack : state.callStacks thread = .body handle :: rest
  created : handle < fresh
  void : (state.frames handle).void = void
  free : ∀ other : Nat, fresh ≤ other → (state.frames other).status = .unborn
  source : state.tasks.length = source

/-- The program has run to its end: its coroutine ended with the value or the
exception of the program, the coroutines it called are gone, and nothing else
has changed. -/
structure Evaluated [DecidableEq Thread] {void : Bool} (program : Program V void) (thread : Thread)
    (handle fresh : Nat) (rest : List (Activity V Chan))
    (before after : State Thread V Chan) : Prop where
  callStacks : after.callStacks = Function.update before.callStacks thread rest
  ended : after.frames handle = (before.frames handle).finish program.denote
  gone : ∀ other : Nat, fresh ≤ other → other < fresh + program.created →
    (after.frames other).live = false ∧ (after.frames other).status = .finished
  others : ∀ other : Nat, other ≠ handle → (other < fresh ∨ fresh + program.created ≤ other) →
    after.frames other = before.frames other
  tasks : after.tasks = before.tasks ++ List.replicate program.created none
  receipts : after.receipts = before.receipts ++ program.receipts handle fresh
  channels : after.channels = before.channels
  taskQueue : after.taskQueue = before.taskQueue
  sleepers : after.sleepers = before.sleepers
  activeTasks : after.activeTasks = before.activeTasks

section Running

variable [DecidableEq Thread] {state next : State Thread V Chan} {thread : Thread}
  {handle fresh : Nat} {source : Nat} {void inner : Bool} {rest : List (Activity V Chan)}

/-- Ending the body is the whole program. -/
theorem Evaluated.of_end (program : Program V void) (hcreated : program.created = 0)
    (hreceipts : program.receipts handle fresh = [])
    (hnext : next = (state.withFrame handle
      ((state.frames handle).finish program.denote)).withStack thread rest) :
    Evaluated program thread handle fresh rest state next := by
  subst hnext
  constructor
  case gone => intro other hfirst hlast; omega
  case others =>
    intro other hne _
    simp [State.withFrame, State.withStack, hne]
  all_goals simp [State.withFrame, State.withStack, hcreated, hreceipts]

/-- The state in which the body of a new coroutine begins. -/
def State.entered (state : State Thread V Chan) (thread : Thread) (fresh : Handle) (inner : Bool) :
    State Thread V Chan :=
  { state.withFrame fresh (.created inner) with
    tasks := state.tasks ++ [some fresh] }.withStack thread
      (.body fresh :: state.callStacks thread)

theorem State.entered_calls (thread : Thread) (inner : Bool)
    (hfree : ∀ other : Nat, fresh ≤ other → (state.frames other).status = .unborn)
    (hsource : state.tasks.length = source) :
    Calls (state.entered thread fresh inner) thread fresh (fresh + 1) (source + 1) inner
      (state.callStacks thread) where
  stack := by simp [State.entered, State.withStack]
  created := Nat.lt_succ_self fresh
  void := by simp [State.entered, State.withFrame, State.withStack, Frame.created]
  free other hother := by
    have hne : other ≠ fresh := by omega
    simp [State.entered, State.withFrame, State.withStack, hne, hfree other (by omega)]
  source := by simp [State.entered, State.withStack, hsource]

variable {child : Program V inner} {later : Ending V → Program V void}
  {returned : State Thread V Chan} {frame : Frame V Chan}

/-- Only the coroutines that have just been created and are gone have changed. -/
theorem Evaluated.collected_frames
    (hchild : Evaluated child thread fresh (fresh + 1) (.body handle :: rest)
      (state.entered thread fresh inner) returned) (other : Nat)
    (hother : other < fresh ∨ fresh + 1 + child.created ≤ other) :
    (returned.collected handle fresh source child.denote frame).frames other =
      state.frames other := by
  have hne : other ≠ fresh := by omega
  have hsame := hchild.others other hne (by omega)
  simp [State.collected, hne, hsame, State.entered, State.withFrame, State.withStack]

/-- What a `co_await` of a call leaves behind is a call again. -/
theorem Calls.collected (hcalls : Calls state thread handle fresh source void rest)
    (hchild : Evaluated child thread fresh (fresh + 1) (.body handle :: rest)
      (state.entered thread fresh inner) returned) :
    Calls (returned.collected handle fresh source child.denote frame) thread handle
      (fresh + 1 + child.created) (source + 1 + child.created) void rest where
  stack := by simp [State.collected, hchild.callStacks]
  created := Nat.lt_of_lt_of_le hcalls.created (by omega)
  void := by rw [hchild.collected_frames handle (Or.inl hcalls.created), hcalls.void]
  free other hother := by
    rw [hchild.collected_frames other (Or.inr hother), hcalls.free other (by omega)]
  source := by
    simp [State.collected, hchild.tasks, State.entered, State.withStack, hcalls.source]
    omega

/-- The child has run, was collected, and the rest of the body has run. -/
theorem Evaluated.awaits (hcalls : Calls state thread handle fresh source void rest)
    (hchild : Evaluated child thread fresh (fresh + 1) (.body handle :: rest)
      (state.entered thread fresh inner) returned)
    (hfinished : frame.status = .finished)
    (hlater : Evaluated (later child.denote) thread handle (fresh + 1 + child.created) rest
      (returned.collected handle fresh source child.denote frame) next) :
    Evaluated (.awaits inner child later) thread handle fresh rest state next := by
  have hcreated := hcalls.created
  constructor
  case ended =>
    rw [hlater.ended, hchild.collected_frames handle (Or.inl hcreated)]
    rfl
  case gone =>
    intro other hfirst hlast
    simp only [Program.created] at hlast
    by_cases hlate : fresh + 1 + child.created ≤ other
    · exact hlater.gone other hlate (by omega)
    rw [hlater.others other (by omega) (Or.inl (by omega))]
    by_cases hne : other = fresh
    · simp [hne, State.collected, hfinished]
    · simpa [State.collected, hne] using hchild.gone other (by omega) (by omega)
  case others =>
    intro other hne hrange
    simp only [Program.created] at hrange
    rw [hlater.others other hne (by omega), hchild.collected_frames other (by omega)]
  case tasks =>
    -- The entry of the new task is there again without its handle.
    have hfreed : (returned.collected handle fresh source child.denote frame).tasks =
        state.tasks ++ List.replicate (1 + child.created) none := by
      simp [State.collected, hchild.tasks, State.entered, State.withStack, ← hcalls.source,
        List.replicate_add]
    simp only [hlater.tasks, hfreed, Program.created, List.replicate_add, List.append_assoc]
  case callStacks =>
    simp [hlater.callStacks, State.collected, hchild.callStacks, State.entered, State.withStack,
      State.withFrame]
  case receipts =>
    simp [hlater.receipts, State.collected, hchild.receipts, State.entered, State.withStack,
      State.withFrame, Program.receipts]
  all_goals simp [hlater.channels, hlater.taskQueue, hlater.sleepers, hlater.activeTasks,
    hchild.channels, hchild.taskQueue, hchild.sleepers, hchild.activeTasks, State.collected,
    State.entered, State.withStack, State.withFrame]

variable [DecidableEq Chan] (capacity : Chan → Nat)

theorem State.enters (inner : Bool) (hcode : atCode (state.callStacks thread) = true)
    (hunborn : (state.frames fresh).status = .unborn) :
    (machine Thread V Chan capacity).step state (.code thread (.create fresh inner)) =
      some (state.entered thread fresh inner) := by
  simp [machine, step, hcode, State.code, hunborn, State.entered]

/-- By induction on the program: a callee begins where its caller stands, and an
await that collects it leaves the caller where the rest of its body begins. -/
theorem Calls.runs (program : Program V void)
    (hcalls : Calls state thread handle fresh source void rest) :
    ∃ final, (machine Thread V Chan capacity).exec state (program.actions thread fresh source) =
        some final ∧ Evaluated program thread handle fresh rest state final := by
  induction program generalizing state handle fresh source rest with
  | returns value =>
      refine ⟨_, ?_, .of_end (.returns value) rfl rfl rfl⟩
      simp [Machine.exec, machine, Program.actions, step, hcalls.stack, State.bodyOp, hcalls.void,
        Program.denote]
  | returnsVoid =>
      refine ⟨_, ?_, .of_end .returnsVoid rfl rfl rfl⟩
      simp [Machine.exec, machine, Program.actions, step, hcalls.stack, State.bodyOp, hcalls.void,
        Program.denote]
  | raises error =>
      refine ⟨_, ?_, .of_end (.raises error) rfl rfl rfl⟩
      simp [Machine.exec, machine, Program.actions, step, hcalls.stack, State.bodyOp,
        Program.denote]
  | awaits inner child later ihchild ihlater =>
      have hcode : atCode (state.callStacks thread) = true := by rw [hcalls.stack, atCode]
      have hcreates := State.enters capacity inner hcode
        (hcalls.free fresh (Nat.le_refl fresh))
      have hentered := State.entered_calls thread inner hcalls.free hcalls.source
      rw [hcalls.stack] at hentered
      obtain ⟨returned, hrun, hchild⟩ := ihchild hentered
      obtain ⟨frame, hfinished, hcollects⟩ : ∃ frame : Frame V Chan, frame.status = .finished ∧
          (machine Thread V Chan capacity).exec returned
              [.body thread (.awaitTask source), .code thread (.dropTask source),
                .proceed thread] =
            some (returned.collected handle fresh source child.denote frame) := by
        refine collects child.plain (?_ : returned.callStacks thread = .body handle :: rest) ?_ ?_
        · simp [hchild.callStacks]
        · simp [hchild.tasks, State.entered, State.withStack, ← hcalls.source]
        · simp [hchild.ended, State.entered, State.withFrame, State.withStack]
      obtain ⟨final, hfinal, hlater⟩ := ihlater child.denote (hcalls.collected hchild)
      refine ⟨final, ?_, .awaits hcalls hchild hfinished hlater⟩
      rw [Program.actions, Machine.exec, hcreates, Option.bind_some, Machine.exec_append, hrun,
        Option.bind_some, Machine.exec_append, hcollects, Option.bind_some, hfinal]

/-- A call of a coroutine function whose body is a program returns with the
coroutine ended, by the value or the exception that the program denotes. Every
`co_await` in it, at any depth, was given what the awaited program denotes, the
coroutines it called are destroyed, and no channel, queue or counter is touched. -/
theorem program_evaluates (program : Program V void)
    (hcode : atCode (state.callStacks thread) = true)
    (hfree : ∀ other : Nat, fresh ≤ other → (state.frames other).status = .unborn) :
    ∃ final, (machine Thread V Chan capacity).exec state
        (.code thread (.create fresh void) ::
          program.actions thread (fresh + 1) (state.tasks.length + 1)) = some final ∧
      Evaluated program thread fresh (fresh + 1) (state.callStacks thread)
        (state.entered thread fresh void) final := by
  obtain ⟨final, hrun, hevaluated⟩ :=
    (State.entered_calls thread void hfree rfl).runs capacity program
  have hcreates := State.enters capacity void hcode (hfree fresh (Nat.le_refl fresh))
  exact ⟨final, by rw [Machine.exec, hcreates, Option.bind_some, hrun], hevaluated⟩

end Running

/-- One more than what another coroutine returns, whatever it raises. -/
def successor : Program Nat false :=
  .awaits false (.returns 3) fun
    | .returned (.data value) => .returns (value + 1)
    | _ => .raises 0

theorem successor_evaluates :
    successor.denote = .returned (.data 4) ∧
      ∃ final, (machine Unit Nat Unit fun _ => 0).exec (initial fun _ => 0)
          (.code () (.create 0 false) :: successor.actions () 1 1) = some final ∧
        Evaluated successor () 0 1 [] ((initial fun _ => 0).entered () 0 false) final :=
  ⟨rfl, program_evaluates (fun _ => 0) successor rfl fun _ _ => rfl⟩

end Tang.Runtime
