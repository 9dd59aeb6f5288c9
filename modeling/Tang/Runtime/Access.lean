import Tang.Runtime.Moves

/-! # One channel of a running program

What a step of the runtime does on one channel, and which operations are between
their two critical sections there: those whose second section is an activity on
some stack. All steps that leave the channel alone share a case.
-/

namespace Tang.Runtime

open Foundation Effect

variable {Thread V Chan : Type}

/-! ## Accesses -/

/-- One critical section of a channel, or the exchange of `close`. -/
inductive Access (V : Type)
  | trySend (item : Item (Option Ticket) V)
  | trySendMove (item : Item (Option Ticket) V)
  | tryRecv (reader : Option Ticket)
  | registerSend (handle : Handle) (item : Item (Option Ticket) V)
  | registerRecv (handle : Handle) (awaiter : Option Ticket)
  | exchange
  | flush
  deriving DecidableEq

namespace Access

/-- The channel after the access. -/
def channel (conduit : Conduit V) : Access V → Conduit V
  | .trySend item => (conduit.trySend item).channel
  | .trySendMove item => (conduit.trySendMove item).channel
  | .tryRecv reader => (conduit.tryRecv reader none).channel
  | .registerSend handle item => (conduit.registerSendWaiter handle item).channel
  | .registerRecv handle awaiter => (conduit.registerRecvWaiter handle awaiter).channel
  | .exchange => conduit.closeExchange.channel
  | .flush => conduit.closeFlush.channel

/-- What the access does outside the channel. -/
def signals (conduit : Conduit V) : Access V → List (Signal V)
  | .trySend item => (conduit.trySend item).effects
  | .trySendMove item => (conduit.trySendMove item).effects
  | .tryRecv reader => (conduit.tryRecv reader none).effects
  | .registerSend handle item => (conduit.registerSendWaiter handle item).effects
  | .registerRecv handle awaiter => (conduit.registerRecvWaiter handle awaiter).effects
  | .exchange => []
  | .flush => conduit.closeFlush.effects

/-- The value with which a send operation begins. -/
def offered : Access V → List V
  | .trySend item | .trySendMove item => [item.value]
  | .tryRecv _ | .registerSend _ _ | .registerRecv _ _ | .exchange | .flush => []

end Access

section Accesses

variable [DecidableEq Chan] (chan : Chan) (state : State Thread V Chan)

/-- The access of an activity to the channel. -/
def Activity.access : Activity V Chan → Option (Access V)
  | .registeringSend handle channel value =>
      if channel = chan then
        some (.registerSend handle ⟨some ⟨handle, (state.frames handle).serial⟩, value⟩)
      else none
  | .registeringRecv handle channel =>
      if channel = chan then
        some (.registerRecv handle (some ⟨handle, (state.frames handle).serial⟩))
      else none
  | .flushing channel => if channel = chan then some .flush else none
  | .body _ | .afterResume _ | .popped _ | .resuming _ | .scheduling _ | .starting _ => none
  | .enqueuing _ | .completing | .decrementing | .destroying _ => none

def CodeOp.access : CodeOp V Chan → Option (Access V)
  | .trySend channel value => if channel = chan then some (.trySend ⟨none, value⟩) else none
  | .trySendMove channel value =>
      if channel = chan then some (.trySendMove ⟨none, value⟩) else none
  | .tryRecv channel => if channel = chan then some (.tryRecv none) else none
  | .close channel => if channel = chan then some .exchange else none
  | .create _ _ | .moveTask _ | .assignTask _ _ | .dropTask _ | .runTask _ => none

/-- The access of an operation of the body of `handle`. -/
def BodyOp.access (handle : Handle) : BodyOp V Chan → Option (Access V)
  | .send channel value =>
      if channel = chan then
        some (.trySend ⟨some ⟨handle, (state.frames handle).serial + 1⟩, value⟩)
      else none
  | .recv channel =>
      if channel = chan then some (.tryRecv (some ⟨handle, (state.frames handle).serial + 1⟩))
      else none
  | .yield | .sleep | .awaitTask _ | .returnVoid | .returnValue _ | .returnTask _ | .raise _ => none

/-- The access a step makes to the channel. -/
def Action.access : Action Thread V Chan → Option (Access V)
  | .proceed thread => (state.callStacks thread).head?.bind (Activity.access chan state)
  | .code _ op => op.access chan
  | .body thread op =>
      match state.callStacks thread with
      | .body handle :: _ => op.access chan state handle
      | _ => none
  | .pop _ | .wake _ _ | .quit _ | .stop _ => none

end Accesses

/-! ## Operations between their two sections -/

/-- What the activity is going to do on the channel, as the phase of the
operation it completes. -/
def Activity.pending? [DecidableEq Chan] (chan : Chan) :
    Activity V Chan → Option (Interleaving.Phase V)
  | .registeringSend _ channel value => if channel = chan then some (.sendTried value) else none
  | .registeringRecv _ channel => if channel = chan then some .recvTried else none
  | .flushing channel => if channel = chan then some .closing else none
  | .body _ | .afterResume _ | .popped _ | .resuming _ | .scheduling _ | .starting _ => none
  | .enqueuing _ | .completing | .decrementing | .destroying _ => none

/-- A thread and a height on its stack, counted from the bottom. -/
abbrev Place (Thread : Type) := Thread × Nat

section Places

variable [DecidableEq Chan] (chan : Chan)

/-- The operation that is pending at a height of a stack. -/
def pendingIn (stack : List (Activity V Chan)) (height : Nat) : Option (Interleaving.Phase V) :=
  stack.reverse[height]?.bind (Activity.pending? chan)

/-- The operation that is pending at a place. -/
def pendingAt (callStacks : Thread → List (Activity V Chan)) (place : Place Thread) :
    Option (Interleaving.Phase V) :=
  pendingIn chan (callStacks place.1) place.2

/-- No operation on the channel is pending among the activities. -/
def Settled (activities : List (Activity V Chan)) : Prop :=
  ∀ activity ∈ activities, activity.pending? chan = none

/-- The same operations are pending at the same places. -/
def Keeps (before after : Thread → List (Activity V Chan)) : Prop :=
  pendingAt chan after = pendingAt chan before

/-- One operation becomes pending. -/
def Gains [DecidableEq Thread] (before after : Thread → List (Activity V Chan))
    (place : Place Thread) (phase : Interleaving.Phase V) : Prop :=
  pendingAt chan after = Function.update (pendingAt chan before) place (some phase)

/-- One operation is pending no more. -/
structure Loses [DecidableEq Thread] (before after : Thread → List (Activity V Chan))
    (place : Place Thread) (phase : Interleaving.Phase V) : Prop where
  here : pendingAt chan before place = some phase
  others : pendingAt chan after = Function.update (pendingAt chan before) place none

variable {chan} {above below rest : List (Activity V Chan)} {activity : Activity V Chan}
  {phase : Interleaving.Phase V}

@[simp] theorem settled_nil : Settled chan ([] : List (Activity V Chan)) :=
  fun _ hmem => absurd hmem List.not_mem_nil

@[simp] theorem settled_cons :
    Settled chan (activity :: rest) ↔ activity.pending? chan = none ∧ Settled chan rest :=
  List.forall_mem_cons

@[simp] theorem settled_append :
    Settled chan (above ++ below) ↔ Settled chan above ∧ Settled chan below :=
  List.forall_mem_append

@[simp] theorem settled_schedules (handles : List Handle) :
    Settled chan (handles.map (Activity.scheduling : Handle → Activity V Chan)) := by
  intro activity hactivity
  obtain ⟨handle, _, rfl⟩ := List.mem_map.mp hactivity
  rfl

theorem Settled.pendingIn (hsettled : Settled chan above) (height : Nat) :
    pendingIn chan above height = none := by
  unfold Runtime.pendingIn
  cases hfound : above.reverse[height]? with
  | none => rfl
  | some activity => exact hsettled activity (List.mem_reverse.mp (List.mem_of_getElem? hfound))

/-- What is below keeps its heights. -/
theorem pendingIn_append (above rest : List (Activity V Chan)) (height : Nat) :
    pendingIn chan (above ++ rest) height =
      if height < rest.length then pendingIn chan rest height
      else pendingIn chan above (height - rest.length) := by
  unfold pendingIn
  rw [List.reverse_append]
  split
  next hlow => rw [List.getElem?_append_left (by simpa using hlow)]
  next hhigh =>
    rw [List.getElem?_append_right (by simpa using hhigh), List.length_reverse]

theorem pendingIn_cons (activity : Activity V Chan) (rest : List (Activity V Chan))
    (height : Nat) :
    pendingIn chan (activity :: rest) height =
      if height = rest.length then activity.pending? chan else pendingIn chan rest height := by
  rw [← List.singleton_append, pendingIn_append]
  by_cases hlow : height < rest.length
  · rw [if_pos hlow, if_neg (Nat.ne_of_lt hlow)]
  · rw [if_neg hlow]
    split
    next heq => simp [pendingIn, heq]
    next hne =>
      have hrest : rest.reverse[height]? = none :=
        List.getElem?_eq_none (by simpa using Nat.le_of_not_lt hlow)
      have habove : [activity].reverse[height - rest.length]? = none :=
        List.getElem?_eq_none (by simp only [List.length_reverse, List.length_singleton]; omega)
      simp only [pendingIn, hrest, habove]

/-- Settled activities may come and go on top. -/
theorem Settled.pendingIn_append (hsettled : Settled chan above) (rest : List (Activity V Chan))
    (height : Nat) : Runtime.pendingIn chan (above ++ rest) height =
      Runtime.pendingIn chan rest height := by
  rw [Runtime.pendingIn_append, hsettled.pendingIn]
  split
  next => rfl
  next hhigh =>
    have hnone : rest.reverse[height]? = none :=
      List.getElem?_eq_none (by simpa using Nat.le_of_not_lt hhigh)
    simp only [Runtime.pendingIn, hnone, Option.bind_none]

variable [DecidableEq Thread] {before : Thread → List (Activity V Chan)} {thread : Thread}

theorem pendingAt_update (thread : Thread) (stack : List (Activity V Chan))
    (place : Place Thread) :
    pendingAt chan (Function.update before thread stack) place =
      if place.1 = thread then pendingIn chan stack place.2 else pendingAt chan before place := by
  unfold pendingAt
  split
  next heq => rw [heq, Function.update_self]
  next hne => rw [Function.update_of_ne hne]

theorem keeps_of_settled (below : List (Activity V Chan)) (hstack : before thread = below ++ rest)
    (hsettled : Settled chan (below ++ above)) :
    Keeps chan before (Function.update before thread (above ++ rest)) := by
  obtain ⟨hbelow, habove⟩ := settled_append.mp hsettled
  funext place
  rw [pendingAt_update]
  split
  next heq => rw [pendingAt, heq, hstack, habove.pendingIn_append, hbelow.pendingIn_append]
  next => rfl

theorem gains_of_push (below : List (Activity V Chan)) (hstack : before thread = below ++ rest)
    (hbelow : Settled chan below) (hactivity : activity.pending? chan = some phase) :
    Gains chan before (Function.update before thread (activity :: rest)) (thread, rest.length)
      phase := by
  funext place
  obtain ⟨other, height⟩ := place
  rw [pendingAt_update]
  by_cases heq : other = thread
  · subst other
    rw [if_pos rfl, pendingIn_cons]
    by_cases hheight : height = rest.length
    · rw [if_pos hheight, hheight, Function.update_self, hactivity]
    · rw [if_neg hheight, Function.update_of_ne (by simp [hheight]), pendingAt, hstack,
        hbelow.pendingIn_append]
  · rw [if_neg heq, Function.update_of_ne (by simp [heq])]

theorem loses_of_pop (hstack : before thread = activity :: rest)
    (hactivity : activity.pending? chan = some phase) (habove : Settled chan above) :
    Loses chan before (Function.update before thread (above ++ rest)) (thread, rest.length)
      phase where
  here := by rw [pendingAt, hstack, pendingIn_cons, if_pos rfl, hactivity]
  others := by
    funext place
    obtain ⟨other, height⟩ := place
    rw [pendingAt_update]
    by_cases heq : other = thread
    · subst other
      rw [if_pos rfl, habove.pendingIn_append]
      by_cases hheight : height = rest.length
      · have hnone : rest.reverse[height]? = none := List.getElem?_eq_none (by simp [hheight])
        rw [hheight, Function.update_self, pendingIn, ← hheight, hnone]
        rfl
      · rw [Function.update_of_ne (by simp [hheight]), pendingAt, hstack, pendingIn_cons,
          if_neg hheight]
    · rw [if_neg heq, Function.update_of_ne (by simp [heq])]

end Places

/-! ## What a step does -/

/-- The access succeeds or fails at once. -/
def Access.Attempts : Access V → Prop
  | .trySend _ | .trySendMove _ | .tryRecv _ => True
  | .registerSend _ _ | .registerRecv _ _ | .exchange | .flush => False

section Steps

variable [DecidableEq Chan] [DecidableEq Thread]

/-- How the access of a step goes with the operations that are pending. -/
inductive Touches (chan : Chan) (conduit : Conduit V)
    (before after : Thread → List (Activity V Chan)) : Option (Access V) → Prop
  | aside (hkeeps : Keeps chan before after) : Touches chan conduit before after none
  | attempts (access : Access V) (hattempts : access.Attempts)
      (hkeeps : Keeps chan before after) : Touches chan conduit before after (some access)
  | triesSend (ticket : Ticket) (value : V) (place : Place Thread)
      (hfails : (conduit.trySend ⟨some ticket, value⟩).result.1 = false)
      (hgains : Gains chan before after place (.sendTried value)) :
      Touches chan conduit before after (some (.trySend ⟨some ticket, value⟩))
  | triesRecv (ticket : Ticket) (place : Place Thread)
      (hfails : (conduit.tryRecv (some ticket) none).result.1 = false)
      (hgains : Gains chan before after place .recvTried) :
      Touches chan conduit before after (some (.tryRecv (some ticket)))
  | registersSend (handle : Handle) (serial : Nat) (value : V) (place : Place Thread)
      (hloses : Loses chan before after place (.sendTried value)) :
      Touches chan conduit before after
        (some (.registerSend handle ⟨some ⟨handle, serial⟩, value⟩))
  | registersRecv (handle : Handle) (serial : Nat) (place : Place Thread)
      (hloses : Loses chan before after place .recvTried) :
      Touches chan conduit before after (some (.registerRecv handle (some ⟨handle, serial⟩)))
  | exchanges (place : Place Thread) (hopen : conduit.closed = false)
      (hgains : Gains chan before after place .closing) :
      Touches chan conduit before after (some .exchange)
  | exchangesClosed (hclosed : conduit.closed = true) (hkeeps : Keeps chan before after) :
      Touches chan conduit before after (some .exchange)
  | flushes (place : Place Thread) (hloses : Loses chan before after place .closing) :
      Touches chan conduit before after (some .flush)

/-- A step makes an access to the channel, or leaves it alone. -/
structure Steps (chan : Chan) (state next : State Thread V Chan) (access : Option (Access V)) :
    Prop where
  channel : next.channels chan =
    (access.map (Access.channel (state.channels chan))).getD (state.channels chan)
  touches : Touches chan (state.channels chan) state.callStacks next.callStacks access

variable {chan : Chan} {state next : State Thread V Chan} {thread : Thread}
  {rest : List (Activity V Chan)}

/-- A step that is no access replaces activities that are none either. -/
theorem steps_aside (below above : List (Activity V Chan))
    (hchannels : next.channels chan = state.channels chan)
    (hstack : state.callStacks thread = below ++ rest)
    (hnext : next.callStacks = Function.update state.callStacks thread (above ++ rest))
    (hsettled : Settled chan (below ++ above)) : Steps chan state next none :=
  ⟨hchannels, .aside (hnext ▸ keeps_of_settled below hstack hsettled)⟩

omit [DecidableEq Thread] in
theorem Follows.aside {activity : Activity V Chan} {after : List (Activity V Chan)}
    (hfollows : Follows activity after) (chan : Chan) (state : State Thread V Chan) :
    activity.access chan state = none ∧ Settled chan ([activity] ++ after) := by
  cases hfollows <;> simp [Activity.access, Activity.pending?]

omit [DecidableEq Chan] in
/-- A resumption leaves all channels alone; the body may appear on the stack. -/
theorem State.resume_aside (state : State Thread V Chan) (thread : Thread) (handle : Handle)
    (rest : List (Activity V Chan)) :
    (state.resume thread handle rest).channels = state.channels ∧
      ∃ above, (above = [.body handle, .afterResume handle] ∨ above = [.afterResume handle]) ∧
        (state.resume thread handle rest).callStacks =
          Function.update state.callStacks thread (above ++ rest) := by
  rcases state.resume_cases thread handle rest with
    ⟨_, _, _, hresume⟩ | ⟨source, _, hresume⟩ | ⟨_, hresume⟩
  · rw [hresume]
    exact ⟨rfl, _, Or.inl rfl, rfl⟩
  · obtain ⟨hstacks, hchannels, _⟩ :=
      (state.withFrame handle (state.frames handle).wake).awaitResume_eq handle source
    rw [hresume]
    refine ⟨hchannels, _, Or.inl rfl, ?_⟩
    simp only [State.withStack, hstacks]
    rfl
  · rw [hresume]
    exact ⟨rfl, _, Or.inr rfl, rfl⟩

/-- The channel a section is not about stays as it is. -/
theorem State.calls_other {R : Type} {channel : Chan} (hne : channel ≠ chan)
    (out : Answered V R) :
    (state.calls thread channel out rest).channels chan = state.channels chan := by
  simp [State.calls, Function.update_of_ne (Ne.symm hne)]

theorem State.calls_same {R : Type} (out : Answered V R) :
    (state.calls thread chan out rest).channels chan = out.channel := by
  simp [State.calls]

variable {capacity : Chan → Nat}

/-- The steps of the activity on top of a stack. -/
theorem steps_of_proceed
    (hstep : (machine Thread V Chan capacity).step state (.proceed thread) = some next) :
    Steps chan state next ((Action.proceed thread : Action Thread V Chan).access chan state) := by
  have hmoves := moves_of_step hstep
  cases hmoves with
  | follows _ activity rest after active hstack hfollows =>
      obtain ⟨hnone, hquiet⟩ := hfollows.aside chan state
      simp only [Action.access, hstack, List.head?_cons, Option.bind_some, hnone]
      exact steps_aside [activity] after rfl hstack rfl hquiet
  | reschedules _ handle rest hstack hdone =>
      simp only [Action.access, hstack, List.head?_cons, Option.bind_some, Activity.access]
      exact steps_aside [.afterResume handle] [.scheduling handle] rfl hstack rfl
        (by simp [Activity.pending?])
  | resumes _ handle rest hstack =>
      simp only [Action.access, hstack, List.head?_cons, Option.bind_some, Activity.access]
      obtain ⟨hchannels, above, habove, hnext⟩ := state.resume_aside thread handle rest
      refine steps_aside [.resuming handle] above (congrFun hchannels chan) hstack hnext ?_
      rcases habove with rfl | rfl <;> simp [Activity.pending?]
  | enqueues _ handle rest hstack =>
      simp only [Action.access, hstack, List.head?_cons, Option.bind_some, Activity.access]
      exact steps_aside [.enqueuing handle] [] rfl hstack rfl (by simp [Activity.pending?])
  | destroys _ handle rest hstack =>
      simp only [Action.access, hstack, List.head?_cons, Option.bind_some, Activity.access]
      refine steps_aside [.destroying handle] _ rfl hstack rfl ?_
      split <;> simp [Activity.pending?]
  | registersSend _ handle channel value rest hstack =>
      simp only [Action.access, hstack, List.head?_cons, Option.bind_some, Activity.access]
      split
      next heq =>
        subst channel
        refine ⟨State.calls_same _, .registersSend handle _ value (thread, rest.length) ?_⟩
        exact loses_of_pop hstack (by simp [Activity.pending?]) (settled_schedules _)
      next hne =>
        exact steps_aside [.registeringSend handle channel value] _ (State.calls_other hne _)
          hstack rfl (by simp [Activity.pending?, hne])
  | registersRecv _ handle channel rest hstack =>
      simp only [Action.access, hstack, List.head?_cons, Option.bind_some, Activity.access]
      split
      next heq =>
        subst channel
        refine ⟨State.calls_same _, .registersRecv handle _ (thread, rest.length) ?_⟩
        exact loses_of_pop hstack (by simp [Activity.pending?]) (settled_schedules _)
      next hne =>
        exact steps_aside [.registeringRecv handle channel] _ (State.calls_other hne _) hstack rfl
          (by simp [Activity.pending?, hne])
  | flushes _ channel rest hstack =>
      simp only [Action.access, hstack, List.head?_cons, Option.bind_some, Activity.access]
      split
      next heq =>
        subst channel
        refine ⟨State.calls_same _, .flushes (thread, rest.length) ?_⟩
        exact loses_of_pop hstack (by simp [Activity.pending?]) (settled_schedules _)
      next hne =>
        exact steps_aside [.flushing channel] _ (State.calls_other hne _) hstack rfl
          (settled_cons.mpr ⟨by simp [Activity.pending?, hne], settled_schedules _⟩)

/-- The operations of any code. -/
theorem steps_of_code {op : CodeOp V Chan}
    (hstep : (machine Thread V Chan capacity).step state (.code thread op) = some next) :
    Steps chan state next (op.access chan) := by
  change (if atCode (state.callStacks thread) then state.code thread op else none) =
    some next at hstep
  split at hstep
  case isFalse => cases hstep
  cases op with
  | create handle void =>
      simp only [State.code] at hstep
      split at hstep
      next =>
        cases hstep
        exact steps_aside [] [.body handle] rfl rfl rfl (by simp [Activity.pending?])
      next => cases hstep
  | moveTask source =>
      obtain ⟨owned, _, rfl⟩ := Option.map_eq_some_iff.mp hstep
      exact ⟨rfl, .aside (.refl _)⟩
  | assignTask target source =>
      simp only [State.code] at hstep
      split at hstep
      next => cases hstep; exact ⟨rfl, .aside (.refl _)⟩
      next =>
        split at hstep
        next old owned _ _ =>
          cases hstep
          exact steps_aside [] _ rfl rfl rfl (by cases old <;> simp [Activity.pending?])
        next => cases hstep
  | dropTask source =>
      obtain ⟨owned, _, rfl⟩ := Option.map_eq_some_iff.mp hstep
      exact steps_aside [] _ rfl rfl rfl (by cases owned <;> simp [Activity.pending?])
  | runTask source =>
      simp only [State.code] at hstep
      split at hstep
      next => cases hstep
      next => cases hstep; exact ⟨rfl, .aside (.refl _)⟩
      next handle _ =>
        split at hstep
        next =>
          cases hstep
          exact steps_aside [] [.completing, .destroying handle] rfl rfl rfl
            (by simp [Activity.pending?])
        next =>
          cases hstep
          exact steps_aside [] [.scheduling handle] rfl rfl rfl (by simp [Activity.pending?])
  | trySend channel value =>
      cases hstep
      simp only [CodeOp.access]
      split
      next heq =>
        subst channel
        exact ⟨State.calls_same _, .attempts _ trivial (keeps_of_settled [] rfl (by simp))⟩
      next hne => exact steps_aside [] _ (State.calls_other hne _) rfl rfl (by simp)
  | trySendMove channel value =>
      cases hstep
      simp only [CodeOp.access]
      split
      next heq =>
        subst channel
        exact ⟨State.calls_same _, .attempts _ trivial (keeps_of_settled [] rfl (by simp))⟩
      next hne => exact steps_aside [] _ (State.calls_other hne _) rfl rfl (by simp)
  | tryRecv channel =>
      cases hstep
      simp only [CodeOp.access]
      split
      next heq =>
        subst channel
        exact ⟨State.calls_same _, .attempts _ trivial (keeps_of_settled [] rfl (by simp))⟩
      next hne => exact steps_aside [] _ (State.calls_other hne _) rfl rfl (by simp)
  | close channel =>
      cases hstep
      simp only [CodeOp.access]
      by_cases heq : channel = chan
      · subst channel
        rw [if_pos rfl]
        cases hclosed : (state.channels chan).closed with
        | true =>
            refine ⟨State.calls_same _, .exchangesClosed hclosed ?_⟩
            simp only [Channel.closeExchange, hclosed, if_true]
            exact keeps_of_settled [] rfl (by simp)
        | false =>
            refine ⟨State.calls_same _, .exchanges
              (thread, (state.callStacks thread).length) hclosed ?_⟩
            simp only [Channel.closeExchange, hclosed]
            exact gains_of_push [] rfl (by simp) (by simp [Activity.pending?])
      · rw [if_neg heq]
        cases hclosed : (state.channels channel).closed with
        | true =>
            simp only [Channel.closeExchange, hclosed, if_true]
            exact steps_aside [] [] (State.calls_other heq _) rfl rfl (by simp)
        | false =>
            simp only [Channel.closeExchange, hclosed]
            exact steps_aside [] [.flushing channel] (State.calls_other heq _) rfl rfl
              (by simp [Activity.pending?, heq])

/-- The operations of a body. -/
theorem steps_of_body {handle : Handle} {op : BodyOp V Chan}
    (hstack : state.callStacks thread = .body handle :: rest)
    (hstep : state.bodyOp thread handle rest op = some next) :
    Steps chan state next (op.access chan state handle) := by
  cases op with
  | yield =>
      cases hstep
      exact steps_aside [.body handle] [.scheduling handle] rfl hstack rfl
        (by simp [Activity.pending?])
  | sleep =>
      cases hstep
      exact steps_aside [.body handle] [] rfl hstack rfl (by simp [Activity.pending?])
  | send channel value =>
      have hrest : state.callStacks thread = [] ++ .body handle :: rest := hstack
      simp only [State.bodyOp] at hstep
      simp only [BodyOp.access]
      split at hstep
      next =>
        cases hstep
        split
        next heq =>
          subst channel
          exact ⟨State.calls_same _,
            .attempts _ trivial (keeps_of_settled [] hrest (by simp))⟩
        next hne => exact steps_aside [] _ (State.calls_other hne _) hrest rfl (by simp)
      next hfailed =>
        cases hstep
        have hfails := Bool.eq_false_iff.mpr hfailed
        have hout := (state.channels channel).failed_attempt_keeps.1 _ hfails
        split
        next heq =>
          subst channel
          refine ⟨State.calls_same _, .triesSend _ value (thread, rest.length) hfails ?_⟩
          simp only [hout]
          exact gains_of_push [.body handle] hstack (by simp [Activity.pending?])
            (by simp [Activity.pending?])
        next hne =>
          simp only [hout]
          exact steps_aside [.body handle] [.registeringSend handle channel value]
            (State.calls_other hne _) hstack rfl (by simp [Activity.pending?, hne])
  | recv channel =>
      have hrest : state.callStacks thread = [] ++ .body handle :: rest := hstack
      simp only [State.bodyOp] at hstep
      simp only [BodyOp.access]
      split at hstep
      next =>
        cases hstep
        split
        next heq =>
          subst channel
          exact ⟨State.calls_same _,
            .attempts _ trivial (keeps_of_settled [] hrest (by simp))⟩
        next hne => exact steps_aside [] _ (State.calls_other hne _) hrest rfl (by simp)
      next hfailed =>
        cases hstep
        have hfails := Bool.eq_false_iff.mpr hfailed
        have hout := (state.channels channel).failed_attempt_keeps.2.2 _ _ hfails
        split
        next heq =>
          subst channel
          refine ⟨State.calls_same _, .triesRecv _ (thread, rest.length) hfails ?_⟩
          simp only [hout]
          exact gains_of_push [.body handle] hstack (by simp [Activity.pending?])
            (by simp [Activity.pending?])
        next hne =>
          simp only [hout]
          exact steps_aside [.body handle] [.registeringRecv handle channel]
            (State.calls_other hne _) hstack rfl (by simp [Activity.pending?, hne])
  | awaitTask source =>
      simp only [State.bodyOp] at hstep
      split at hstep
      next => cases hstep
      next =>
        cases hstep
        obtain ⟨hstacks, hchannels, _⟩ := state.awaitResume_eq handle source
        exact ⟨congrFun hchannels chan, .aside (hstacks ▸ .refl _)⟩
      next child _ =>
        split at hstep
        next =>
          cases hstep
          obtain ⟨hstacks, hchannels, _⟩ := state.awaitResume_eq handle source
          exact ⟨congrFun hchannels chan, .aside (hstacks ▸ .refl _)⟩
        next =>
          cases hstep
          exact steps_aside [.body handle] [.scheduling child] rfl hstack rfl
            (by simp [Activity.pending?])
  | returnVoid =>
      simp only [State.bodyOp] at hstep
      split at hstep
      next =>
        cases hstep
        exact steps_aside [.body handle] [] rfl hstack rfl (by simp [Activity.pending?])
      next => cases hstep
  | returnValue value =>
      simp only [State.bodyOp] at hstep
      split at hstep
      next => cases hstep
      next =>
        cases hstep
        exact steps_aside [.body handle] [] rfl hstack rfl (by simp [Activity.pending?])
  | returnTask source =>
      simp only [State.bodyOp] at hstep
      split at hstep
      next => cases hstep
      next =>
        obtain ⟨owned, _, rfl⟩ := Option.map_eq_some_iff.mp hstep
        exact steps_aside [.body handle] [] rfl hstack rfl (by simp [Activity.pending?])
  | raise error =>
      cases hstep
      exact steps_aside [.body handle] [] rfl hstack rfl (by simp [Activity.pending?])

/-- Every step makes one access to the channel, or none. -/
theorem steps_of_step {action : Action Thread V Chan}
    (hstep : (machine Thread V Chan capacity).step state action = some next) :
    Steps chan state next (action.access chan state) := by
  cases action with
  | proceed thread => exact steps_of_proceed hstep
  | code thread op => exact steps_of_code hstep
  | body thread op =>
      change (match state.callStacks thread with
        | .body handle :: rest => state.bodyOp thread handle rest op
        | _ => none) = some next at hstep
      split at hstep
      next handle rest hstack =>
        simp only [Action.access, hstack]
        exact steps_of_body hstack hstep
      next => cases hstep
  | pop thread =>
      cases moves_of_step hstep with
      | pops _ handle queue hstack hqueue =>
          exact steps_aside [] [.popped handle] rfl hstack rfl (by simp [Activity.pending?])
  | wake thread handle =>
      cases moves_of_step hstep with
      | wakes _ _ hstack hsleeping =>
          exact steps_aside [] [.scheduling handle] rfl hstack rfl (by simp [Activity.pending?])
  | quit thread =>
      cases moves_of_step hstep with
      | quits _ handle hstack =>
          exact steps_aside [.popped handle] [] rfl hstack rfl (by simp [Activity.pending?])
  | stop thread =>
      cases moves_of_step hstep with
      | stops _ hcode => exact ⟨rfl, .aside (.refl _)⟩

end Steps

end Tang.Runtime
