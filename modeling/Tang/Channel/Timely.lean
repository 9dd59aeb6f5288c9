import Tang.Foundation.History
import Tang.Foundation.Linearizability
import Tang.Channel.Fifo
import Tang.Channel.Drain

/-! # When the awaiters and `close` act as one step

An awaiter acts in two critical sections, and so does `close`. As long as every
registration finds the channel still refusing the attempt that came before it,
and nobody else uses the channel while the flag is set and somebody is still
parked, each operation looks like one call on the queue. A `co_await` takes
effect in its last critical section. `close` takes effect at its exchange if
nobody is parked then, and at its flush otherwise.
-/

namespace Tang

open Foundation Effect

variable {H A T : Type}

/-! ## A channel between the two steps of `close` -/

/-- Nobody is parked at a closed channel. -/
def Channel.Resting (channel : Channel H A T) : Prop :=
  channel.closed = true → channel.sendWaiters = [] ∧ channel.recvWaiters = []

instance (channel : Channel H A T) : Decidable channel.Resting :=
  inferInstanceAs (Decidable (_ → _))

theorem Channel.Resting.flushed {channel : Channel H A T} (hresting : channel.Resting)
    (hclosed : channel.closed = true) : channel.Flushed :=
  ⟨hclosed, (hresting hclosed).1, (hresting hclosed).2⟩

theorem Channel.Flushed.resting {channel : Channel H A T} (hflushed : channel.Flushed) :
    channel.Resting :=
  fun _ => ⟨hflushed.sendWaiters, hflushed.recvWaiters⟩

/-- A send attempt that fails cannot proceed. -/
theorem Channel.blocked_of_trySend {channel : Channel H A T} {value : T}
    (hfails : (channel.trySend value).result.1 = false) :
    channel.closed = true ∨
      channel.recvWaiters = [] ∧ channel.capacity ≤ channel.buffer.length := by
  rcases channel.trySendWith_cases value (some value) with
    ⟨hblocked, _⟩ | ⟨_, _, _, _, hout⟩ | ⟨_, _, _, hout⟩
  · exact hblocked
  · simp [Channel.trySend, hout] at hfails
  · simp [Channel.trySend, hout] at hfails

/-- A receive attempt that fails cannot proceed. -/
theorem Channel.blocked_of_tryRecv {channel : Channel H A T} {reader : A} {old : Option T}
    (hfails : (channel.tryRecv reader old).result.1 = false) :
    channel.buffer = [] ∧ (channel.closed = true ∨ channel.sendWaiters = []) := by
  rcases channel.tryRecv_cases reader old with
    ⟨_, _, _, _, _, _, hout⟩ | ⟨_, _, _, _, hout⟩ | ⟨_, _, _, _, _, hout⟩ | ⟨hempty, hblocked, _⟩
  · simp [hout] at hfails
  · simp [hout] at hfails
  · simp [hout] at hfails
  · exact ⟨hempty, hblocked⟩

/-- A send that cannot proceed is refused. -/
theorem Channel.trySend_of_blocked {channel : Channel H A T} {value : T}
    (hblocked : channel.closed = true ∨
      channel.recvWaiters = [] ∧ channel.capacity ≤ channel.buffer.length) :
    channel.trySend value = ⟨(false, some value), channel, []⟩ := by
  rcases channel.trySendWith_cases value (some value) with
    ⟨_, hout⟩ | ⟨waiter, rest, hopen, hwaiters, _⟩ | ⟨hopen, _, hroom, _⟩
  · exact hout
  · simp [hopen, hwaiters] at hblocked
  · rcases hblocked with hclosed | ⟨_, hfull⟩
    · exact absurd (hopen.symm.trans hclosed) Bool.false_ne_true
    · exact absurd hroom (Nat.not_lt.mpr hfull)

/-- A receive that cannot proceed fails. -/
theorem Channel.tryRecv_of_blocked {channel : Channel H A T} {reader : A} {old : Option T}
    (hempty : channel.buffer = [])
    (hblocked : channel.closed = true ∨ channel.sendWaiters = []) :
    channel.tryRecv reader old = ⟨(false, old), channel, []⟩ := by
  rcases channel.tryRecv_cases reader old with
    ⟨_, _, _, _, hbuffer, _⟩ | ⟨_, _, hbuffer, _⟩ | ⟨_, _, hopen, _, hwaiters, _⟩ | ⟨_, _, hout⟩
  · simp [hempty] at hbuffer
  · simp [hempty] at hbuffer
  · simp [hopen, hwaiters] at hblocked
  · exact hout

theorem Channel.close_of_open {channel : Channel H A T} (hopen : channel.closed = false) :
    channel.close =
      (Channel.reply true { channel with closed := true }.closeFlush.effects,
        { channel with closed := true }.closeFlush.channel) := by
  simp [Channel.close, Channel.closeExchange, hopen]

namespace Fifo

/-- The queue with the replies of a channel. -/
def replying (H A T : Type) : Transducer (Fifo H A T) (Call H A T) (Reply H A T) :=
  (system H A T).render Answer.toReply

variable {fifo : Fifo H A T} {channel : Channel H A T}

theorem replying_step (fifo : Fifo H A T) (call : Call H A T) :
    (Channel.system H A T).step fifo.toChannel call =
      (((replying H A T).step fifo call).1, ((replying H A T).step fifo call).2.toChannel) :=
  system_simulates fifo call

/-- A call on the channel that stands for the queue is one on the queue. -/
theorem replying_of_system {after : Channel H A T} {call : Call H A T} {reply : Reply H A T}
    (hchannel : channel = fifo.toChannel)
    (hstep : (Channel.system H A T).step channel call = (reply, after)) :
    ∃ fifo' : Fifo H A T, after = fifo'.toChannel ∧
      (replying H A T).step fifo call = (reply, fifo') := by
  rw [hchannel, replying_step] at hstep
  obtain ⟨rfl, rfl⟩ := Prod.mk.injEq .. ▸ hstep
  exact ⟨_, rfl, rfl⟩

theorem toChannel_resting (fifo : Fifo H A T) : fifo.toChannel.Resting := by
  intro hclosed
  obtain ⟨hshort, hreceivers⟩ := fifo.shut hclosed
  exact ⟨by simp [toChannel, List.drop_of_length_le hshort], hreceivers⟩

/-- The channel is the queue, or only the first step of `close` is between
them and somebody is still parked. -/
def Represents (channel : Channel H A T) (fifo : Fifo H A T) : Prop :=
  channel = fifo.toChannel ∨
    ¬ channel.Resting ∧ fifo.closed = false ∧ channel = { fifo.toChannel with closed := true }

theorem Represents.eq_of_resting (hrepresents : Represents channel fifo)
    (hresting : channel.Resting) : channel = fifo.toChannel :=
  hrepresents.resolve_right fun hbetween => hbetween.1 hresting

end Fifo

namespace Interleaving

variable {Op V : Type}

/-! ## What the callers see -/

/-- A call or a reply of one operation. -/
abbrev Seen (Op V : Type) : Type :=
  CallEvent Op (Call Op Op (Item Op V)) (Reply Op Op (Item Op V))

/-- The calls that begin in a step, and the replies. The reply of an awaiter
that suspends is what its registration did. -/
def observed (state : State Op V) : Action Op V → List (Seen Op V)
  | .trySend op value =>
      let out := state.channel.trySend ⟨op, value⟩
      [.called op (.trySend ⟨op, value⟩),
        .returned op (Channel.reply out.result.1 out.effects)]
  | .trySendMove op value =>
      let out := state.channel.trySendMove ⟨op, value⟩
      [.called op (.trySendMove ⟨op, value⟩),
        .returned op (Channel.reply out.result.1 out.effects)]
  | .tryRecv op =>
      let out := state.channel.tryRecv op none
      [.called op (.tryRecv op), .returned op (Channel.reply out.result.1 out.effects)]
  | .sendReady op value =>
      let out := state.channel.trySend ⟨op, value⟩
      .called op (.send op ⟨op, value⟩) ::
        if out.result.1 then [.returned op (Channel.reply true out.effects)] else []
  | .sendSuspend op =>
      match state.phase op with
      | .sendTried value =>
          let out := state.channel.registerSendWaiter op ⟨op, value⟩
          [.returned op (Channel.reply false out.effects)]
      | _ => []
  | .recvReady op =>
      let out := state.channel.tryRecv op none
      .called op (.recv op op) ::
        if out.result.1 then [.returned op (Channel.reply true out.effects)] else []
  | .recvSuspend op =>
      let out := state.channel.registerRecvWaiter op op
      [.returned op (Channel.reply false out.effects)]
  | .closeExchange op =>
      .called op .close ::
        if state.channel.closed then [.returned op (Channel.reply true [])] else []
  | .closeFlush op => [.returned op (Channel.reply true state.channel.closeFlush.effects)]

/-- The interleavings, with what the callers see on record. -/
def watching (Op V : Type) [DecidableEq Op] (capacity : Nat) :
    Machine (State Op V × List (Seen Op V)) (Action Op V) :=
  (machine Op V capacity).recording [] fun seen state action _ => seen ++ observed state action

/-- A registration comes while the attempt before it would still fail, and only
the flush happens while somebody is parked at a closed channel. -/
def Timely (watched : State Op V × List (Seen Op V)) : Action Op V → Prop
  | .closeFlush _ => True
  | .sendSuspend _ => watched.1.channel.Resting ∧
      (watched.1.channel.closed = true ∨ watched.1.channel.recvWaiters = [] ∧
        watched.1.channel.capacity ≤ watched.1.channel.buffer.length)
  | .recvSuspend _ => watched.1.channel.Resting ∧ watched.1.channel.buffer = [] ∧
      (watched.1.channel.closed = true ∨ watched.1.channel.sendWaiters = [])
  | .trySend _ _ | .trySendMove _ _ | .tryRecv _ => watched.1.channel.Resting
  | .sendReady _ _ | .recvReady _ | .closeExchange _ => watched.1.channel.Resting

instance (watched : State Op V × List (Seen Op V)) (action : Action Op V) :
    Decidable (Timely watched action) := by
  cases action <;> unfold Timely <;> infer_instance

/-! ## The order in which the operations take effect -/

abbrev Order (Op V : Type) : Type :=
  List (Operation Op (Call Op Op (Item Op V)) (Reply Op Op (Item Op V)))

/-- The call has begun and has not taken effect. -/
def Pending (history : List (Seen Op V)) (order : Order Op V) (op : Op)
    (call : Call Op Op (Item Op V)) : Prop :=
  .called op call ∈ history ∧ op ∉ order.map Operation.id

/-- What the order says about an operation, by how far it has come. -/
def Explains (watched : State Op V × List (Seen Op V)) (order : Order Op V) (op : Op) : Prop :=
  match watched.1.phase op with
  | .fresh => ∀ call, .called op call ∉ watched.2
  | .sendTried value => Pending watched.2 order op (.send op ⟨op, value⟩)
  | .recvTried => Pending watched.2 order op (.recv op op)
  | .closing => watched.1.channel.closed = true ∧
      (watched.1.channel.Resting → ⟨op, .close, Channel.reply true []⟩ ∈ order) ∧
      (¬ watched.1.channel.Resting → Pending watched.2 order op .close)
  | .suspended | .returned => True

/-- The operations in `order` have taken effect, and the queue shows it. -/
structure Commits (capacity : Nat) (watched : State Op V × List (Seen Op V))
    (order : Order Op V) (fifo : Fifo Op Op (Item Op V)) : Prop where
  committed : Committed (Fifo.replying Op Op (Item Op V)) (.new capacity) watched.2 order fifo
  represents : Fifo.Represents watched.1.channel fifo
  alone : ∀ first second, watched.1.phase first = .closing →
    watched.1.phase second = .closing → first = second
  explained : ∀ op, Explains watched order op

theorem initial_commits (capacity : Nat) :
    Commits capacity ((initial capacity, []) : State Op V × List (Seen Op V)) []
      (.new capacity) where
  committed := .start
  represents := Or.inl (by simp [initial, Channel.new, Fifo.toChannel, Fifo.new])
  alone := by simp [initial]
  explained _ := by simp [Explains, initial]

section Steps

variable {capacity : Nat} {state next : State Op V} {seen seen' : List (Seen Op V)}
  {order order' : Order Op V} {fifo fifo' : Fifo Op Op (Item Op V)} {op : Op} {phase : Phase V}
  {call : Call Op Op (Item Op V)} {reply : Reply Op Op (Item Op V)}

/-! ## Beginning, taking effect, returning -/

theorem Commits.begun (hcommits : Commits capacity (state, seen) order fifo)
    (hfresh : state.phase op = .fresh) (call : Call Op Op (Item Op V)) :
    Committed (Fifo.replying Op Op (Item Op V)) (.new capacity) (seen ++ [.called op call])
        order fifo ∧
      Pending (seen ++ [.called op call]) order op call := by
  have hexplained := hcommits.explained op
  simp only [Explains, hfresh] at hexplained
  refine ⟨.call op call hcommits.committed hexplained, by simp, fun hmem => ?_⟩
  obtain ⟨operation, hoperation, rfl⟩ := List.mem_map.mp hmem
  exact hexplained _ (hcommits.committed.called operation hoperation)

/-- A call takes effect on the channel that stands for the queue. -/
theorem Pending.takeEffect (hpending : Pending seen order op call)
    (hcommitted : Committed (Fifo.replying Op Op (Item Op V)) (.new capacity) seen order fifo)
    {channel after : Channel Op Op (Item Op V)} (hchannel : channel = fifo.toChannel)
    (hstep : (Channel.system Op Op (Item Op V)).step channel call = (reply, after)) :
    ∃ fifo' : Fifo Op Op (Item Op V), after = fifo'.toChannel ∧
      Committed (Fifo.replying Op Op (Item Op V)) (.new capacity) seen
        (order ++ [⟨op, call, reply⟩]) fifo' := by
  obtain ⟨fifo', hafter, hreply⟩ := Fifo.replying_of_system hchannel hstep
  have heffect := hcommitted.commit op call hpending.1 hpending.2
  rw [hreply] at heffect
  exact ⟨fifo', hafter, heffect⟩

/-! ## What one step leaves to the other operations -/

/-- A step in which others begin, take effect and return. A closer that is not
the one to move finds nobody parked, before and after. -/
theorem Explains.keep {other : Op} (hexplains : Explains (state, seen) order other)
    (hphase : next.phase other = state.phase other)
    (hcalled : ∀ call, .called other call ∈ seen' ↔ .called other call ∈ seen)
    (hsubset : order ⊆ order')
    (hnew : other ∈ order'.map Operation.id → other ∈ order.map Operation.id)
    (hclosing : state.phase other = .closing →
      state.channel.Resting ∧ next.channel.closed = true ∧ next.channel.Resting) :
    Explains (next, seen') order' other := by
  unfold Explains at hexplains ⊢
  simp only [hphase]
  cases hcase : state.phase other with
  | fresh =>
      simp only [hcase] at hexplains
      exact fun call hmem => hexplains call ((hcalled call).mp hmem)
  | sendTried value =>
      simp only [hcase] at hexplains
      exact ⟨(hcalled _).mpr hexplains.1, fun hmem => hexplains.2 (hnew hmem)⟩
  | recvTried =>
      simp only [hcase] at hexplains
      exact ⟨(hcalled _).mpr hexplains.1, fun hmem => hexplains.2 (hnew hmem)⟩
  | closing =>
      simp only [hcase] at hexplains
      obtain ⟨hbefore, hclosed, hafter⟩ := hclosing hcase
      exact ⟨hclosed, fun _ => hsubset (hexplains.2.1 hbefore), fun hnot => absurd hafter hnot⟩
  | suspended => trivial
  | returned => trivial

variable [DecidableEq Op]

/-- A step of an operation, given what has taken effect after it. -/
theorem Commits.of_step (hcommits : Commits capacity (state, seen) order fifo)
    {events : List (Seen Op V)} (hshows : ∀ other call, .called other call ∈ events → other = op)
    (hphase : next.phase = Function.update state.phase op phase)
    (hcommitted : Committed (Fifo.replying Op Op (Item Op V)) (.new capacity) (seen ++ events)
      order' fifo')
    (hrepresents : Fifo.Represents next.channel fifo')
    (horder : order' = order ∨ ∃ call reply, order' = order ++ [⟨op, call, reply⟩])
    (hclosing : phase = .closing → ∀ other, state.phase other ≠ .closing)
    (hothers : ∀ other, other ≠ op → state.phase other = .closing →
      state.channel.Resting ∧ next.channel.closed = true ∧ next.channel.Resting)
    (hself : Explains (next, seen ++ events) order' op) :
    Commits capacity (next, seen ++ events) order' fifo' where
  committed := hcommitted
  represents := hrepresents
  alone first second hfirst hsecond := by
    simp only [hphase] at hfirst hsecond
    by_cases hone : first = op
    · by_cases htwo : second = op
      · rw [hone, htwo]
      · rw [hone, Function.update_self] at hfirst
        rw [Function.update_of_ne htwo] at hsecond
        exact absurd hsecond (hclosing hfirst second)
    · rw [Function.update_of_ne hone] at hfirst
      by_cases htwo : second = op
      · rw [htwo, Function.update_self] at hsecond
        exact absurd hfirst (hclosing hsecond first)
      · rw [Function.update_of_ne htwo] at hsecond
        exact hcommits.alone first second hfirst hsecond
  explained other := by
    by_cases heq : other = op
    · rwa [heq]
    · refine (hcommits.explained other).keep ?_ (fun call => ?_) ?_ ?_ (hothers other heq)
      · simp [hphase, heq]
      · have hnot : .called other call ∉ events := fun hmem => heq (hshows other call hmem)
        simp [hnot]
      · rcases horder with rfl | ⟨call, reply, rfl⟩
        · exact List.Subset.refl _
        · exact List.subset_append_left _ _
      · rcases horder with rfl | ⟨call, reply, rfl⟩
        · exact fun hmem => hmem
        · simpa using fun hmem => hmem.resolve_right heq

/-- A closer that waits for its flush sees nobody park. -/
theorem Commits.closers (hcommits : Commits capacity (state, seen) order fifo)
    {action : Action Op V} (hmoves : Moves state action next) (hresting : state.channel.Resting)
    (other : Op) (hphase : state.phase other = .closing) :
    state.channel.Resting ∧ next.channel.closed = true ∧ next.channel.Resting := by
  have hexplained := hcommits.explained other
  simp only [Explains, hphase] at hexplained
  have hflushed := (hmoves.drains (hresting.flushed hexplained.1)).channel
  exact ⟨hresting, hflushed.closed, hflushed.resting⟩

/-! ## The steps, one by one -/

/-- An operation begins, takes effect and returns in one step. -/
theorem Commits.atomic (hcommits : Commits capacity (state, seen) order fifo)
    {action : Action Op V} (hmoves : Moves state action next) (hresting : state.channel.Resting)
    (hfresh : state.phase op = .fresh)
    (hphase : next.phase = Function.update state.phase op .returned)
    (hstep : (Channel.system Op Op (Item Op V)).step state.channel call = (reply, next.channel)) :
    ∃ order' fifo', Commits capacity (next, seen ++ [.called op call, .returned op reply])
      order' fifo' := by
  obtain ⟨hbegun, hpending⟩ := hcommits.begun hfresh call
  obtain ⟨fifo', hchannel, heffect⟩ :=
    hpending.takeEffect hbegun (hcommits.represents.eq_of_resting hresting) hstep
  have hanswer := heffect.answer op call reply (by simp)
  rw [List.append_assoc] at hanswer
  refine ⟨_, fifo', hcommits.of_step (by simp) hphase hanswer (Or.inl hchannel)
    (Or.inr ⟨call, reply, rfl⟩) (by simp) ?_ (by simp [Explains, hphase])⟩
  exact fun other _ => hcommits.closers hmoves hresting other

/-- An operation begins, and its attempt fails. -/
theorem Commits.attempt (hcommits : Commits capacity (state, seen) order fifo)
    {action : Action Op V} (hmoves : Moves state action next) (hresting : state.channel.Resting)
    (hfresh : state.phase op = .fresh)
    (hphase : next.phase = Function.update state.phase op phase)
    (hchannel : next.channel = state.channel)
    (hcall : (∃ value, phase = .sendTried value ∧ call = .send op ⟨op, value⟩) ∨
      phase = .recvTried ∧ call = .recv op op) :
    ∃ order' fifo', Commits capacity (next, seen ++ [.called op call]) order' fifo' := by
  obtain ⟨hbegun, hpending⟩ := hcommits.begun hfresh call
  refine ⟨order, fifo, hcommits.of_step (by simp) hphase hbegun (hchannel ▸ hcommits.represents)
    (Or.inl rfl) ?_ (fun other _ => hcommits.closers hmoves hresting other) ?_⟩
  · rcases hcall with ⟨value, rfl, _⟩ | ⟨rfl, _⟩ <;> exact fun hclosing => nomatch hclosing
  · rcases hcall with ⟨value, rfl, rfl⟩ | ⟨rfl, rfl⟩
    · simpa [Explains, hphase] using hpending
    · simpa [Explains, hphase] using hpending

/-- An operation that has begun takes effect and returns in one step. -/
theorem Commits.finish (hcommits : Commits capacity (state, seen) order fifo)
    {action : Action Op V} (hmoves : Moves state action next) (hresting : state.channel.Resting)
    (hpending : Pending seen order op call)
    (hphase : next.phase = Function.update state.phase op .suspended)
    (hstep : (Channel.system Op Op (Item Op V)).step state.channel call = (reply, next.channel)) :
    ∃ order' fifo', Commits capacity (next, seen ++ [.returned op reply]) order' fifo' := by
  obtain ⟨fifo', hchannel, heffect⟩ :=
    hpending.takeEffect hcommits.committed (hcommits.represents.eq_of_resting hresting) hstep
  refine ⟨_, fifo', hcommits.of_step (by simp) hphase (heffect.answer op call reply (by simp))
    (Or.inl hchannel) (Or.inr ⟨call, reply, rfl⟩) (by simp) ?_ (by simp [Explains, hphase])⟩
  exact fun other _ => hcommits.closers hmoves hresting other

/-- The exchange is the moment `close` takes effect unless somebody is parked. -/
theorem Commits.exchange (hcommits : Commits capacity (state, seen) order fifo)
    (hresting : state.channel.Resting) (hfresh : state.phase op = .fresh)
    (hopen : state.channel.closed = false)
    (hphase : next.phase = Function.update state.phase op .closing)
    (hnext : next.channel = { state.channel with closed := true }) :
    ∃ order' fifo', Commits capacity (next, seen ++ [.called op .close]) order' fifo' := by
  obtain ⟨hbegun, hpending⟩ := hcommits.begun hfresh .close
  have halone : ∀ other, state.phase other ≠ .closing := by
    intro other hother
    have hexplained := hcommits.explained other
    simp only [Explains, hother, hopen] at hexplained
    exact absurd hexplained.1 Bool.false_ne_true
  by_cases hafter : next.channel.Resting
  · have hflushed : next.channel.Flushed := hafter.flushed (by rw [hnext])
    have hstep : (Channel.system Op Op (Item Op V)).step state.channel .close =
        (Channel.reply true [], next.channel) := by
      rw [hnext] at hflushed ⊢
      change state.channel.close = _
      rw [Channel.close_of_open hopen, hflushed.closeFlush]
    obtain ⟨fifo', hchannel, heffect⟩ :=
      hpending.takeEffect hbegun (hcommits.represents.eq_of_resting hresting) hstep
    refine ⟨_, fifo', hcommits.of_step (by simp) hphase heffect (Or.inl hchannel)
      (Or.inr ⟨.close, _, rfl⟩) (fun _ => halone)
      (fun other _ hclosing => absurd hclosing (halone other)) ?_⟩
    simp [Explains, hphase, hafter, hflushed.closed]
  · have hclosed : next.channel.closed = true := by rw [hnext]
    have hchannel := hcommits.represents.eq_of_resting hresting
    refine ⟨order, fifo, hcommits.of_step (by simp) hphase hbegun ?_ (Or.inl rfl)
      (fun _ => halone) (fun other _ hclosing => absurd hclosing (halone other)) ?_⟩
    · exact Or.inr ⟨hafter, by rw [← hopen, hchannel]; rfl, by rw [hnext, hchannel]⟩
    · simpa [Explains, hphase, hafter, hclosed] using hpending

/-- The flush is the moment `close` takes effect if somebody is parked. -/
theorem Commits.flush (hcommits : Commits capacity (state, seen) order fifo)
    (hclosing : state.phase op = .closing)
    (hphase : next.phase = Function.update state.phase op .returned)
    (hnext : next.channel = state.channel.closeFlush.channel) :
    ∃ order' fifo', Commits capacity
      (next, seen ++ [.returned op (Channel.reply true state.channel.closeFlush.effects)])
      order' fifo' := by
  have hexplained := hcommits.explained op
  simp only [Explains, hclosing] at hexplained
  obtain ⟨hclosed, hearly, hlate⟩ := hexplained
  have hothers : ∀ other, other ≠ op → state.phase other = .closing →
      state.channel.Resting ∧ next.channel.closed = true ∧ next.channel.Resting :=
    fun other hne hother => absurd (hcommits.alone other op hother hclosing) hne
  by_cases hresting : state.channel.Resting
  · have hflush := (hresting.flushed hclosed).closeFlush
    rw [hflush] at hnext ⊢
    have hanswer := hcommits.committed.answer op .close _ (hearly hresting)
    exact ⟨order, fifo, hcommits.of_step (by simp) hphase hanswer (hnext ▸ hcommits.represents)
      (Or.inl rfl) (by simp) hothers (by simp [Explains, hphase])⟩
  · obtain ⟨_, hopen, hbetween⟩ :=
      hcommits.represents.resolve_left fun heq => hresting (heq ▸ fifo.toChannel_resting)
    have hstep : (Channel.system Op Op (Item Op V)).step fifo.toChannel .close =
        (Channel.reply true state.channel.closeFlush.effects, next.channel) := by
      change fifo.toChannel.close = _
      rw [Channel.close_of_open hopen, ← hbetween, hnext]
    obtain ⟨fifo', hchannel, heffect⟩ :=
      (hlate hresting).takeEffect hcommits.committed rfl hstep
    exact ⟨_, fifo', hcommits.of_step (by simp) hphase (heffect.answer op .close _ (by simp))
      (Or.inl hchannel) (Or.inr ⟨.close, _, rfl⟩) (by simp) hothers (by simp [Explains, hphase])⟩

end Steps

variable [DecidableEq Op]

/-- Every timely step keeps the operations that took effect explained. -/
theorem Commits.timely {capacity : Nat} {watched after : State Op V × List (Seen Op V)}
    {action : Action Op V} {order : Order Op V} {fifo : Fifo Op Op (Item Op V)}
    (hcommits : Commits capacity watched order fifo) (htimely : Timely watched action)
    (hstep : (watching Op V capacity).step watched action = some after) :
    ∃ order' fifo', Commits capacity after order' fifo' := by
  have hrecord : after.2 = watched.2 ++ observed watched.1 action :=
    (Machine.recording_step hstep).2
  have hmachine := (Machine.recording_step hstep).1
  obtain ⟨state, seen⟩ := watched
  obtain ⟨next, seen'⟩ := after
  subst hrecord
  have hmoves := moves_of_step hmachine
  change step state action = some next at hmachine
  cases action with
  | trySend op value =>
      simp only [Interleaving.step] at hmachine
      split at hmachine
      next hfresh =>
        cases hmachine
        exact hcommits.atomic hmoves htimely hfresh rfl rfl
      next => cases hmachine
  | trySendMove op value =>
      simp only [Interleaving.step] at hmachine
      split at hmachine
      next hfresh =>
        cases hmachine
        exact hcommits.atomic hmoves htimely hfresh rfl rfl
      next => cases hmachine
  | tryRecv op =>
      simp only [Interleaving.step] at hmachine
      split at hmachine
      next hfresh =>
        cases hmachine
        exact hcommits.atomic hmoves htimely hfresh rfl rfl
      next => cases hmachine
  | sendReady op value =>
      simp only [Interleaving.step] at hmachine
      split at hmachine
      next hfresh =>
        cases hmachine
        cases hready : (state.channel.trySend ⟨op, value⟩).result.1 with
        | true =>
            simp only [observed, State.sendAwaits, hready, if_true] at hmoves ⊢
            refine hcommits.atomic hmoves htimely hfresh rfl ?_
            simp [Channel.system, Channel.send, hready]
        | false =>
            simp only [observed, State.sendAwaits, hready] at hmoves ⊢
            refine hcommits.attempt hmoves htimely hfresh rfl ?_ (Or.inl ⟨value, rfl, rfl⟩)
            rw [state.channel.failed_attempt_keeps.1 _ hready]
            rfl
      next => cases hmachine
  | sendSuspend op =>
      simp only [Interleaving.step] at hmachine
      split at hmachine
      next value htried =>
        cases hmachine
        have hpending := hcommits.explained op
        simp only [Explains, htried] at hpending
        simp only [observed, htried]
        apply hcommits.finish hmoves htimely.1 hpending rfl
        simp [Channel.system, Channel.send, Channel.trySend_of_blocked htimely.2]
      next => cases hmachine
  | recvReady op =>
      simp only [Interleaving.step] at hmachine
      split at hmachine
      next hfresh =>
        cases hmachine
        cases hready : (state.channel.tryRecv op none).result.1 with
        | true =>
            simp only [observed, State.recvAwaits, hready, if_true] at hmoves ⊢
            refine hcommits.atomic hmoves htimely hfresh rfl ?_
            simp [Channel.system, Channel.recv, hready]
        | false =>
            simp only [observed, State.recvAwaits, hready] at hmoves ⊢
            refine hcommits.attempt hmoves htimely hfresh rfl ?_ (Or.inr ⟨rfl, rfl⟩)
            rw [state.channel.failed_attempt_keeps.2.2 _ _ hready]
            rfl
      next => cases hmachine
  | recvSuspend op =>
      simp only [Interleaving.step] at hmachine
      split at hmachine
      next htried =>
        cases hmachine
        have hpending := hcommits.explained op
        simp only [Explains, htried] at hpending
        obtain ⟨hresting, hempty, hblocked⟩ := htimely
        apply hcommits.finish hmoves hresting hpending rfl
        simp [Channel.system, Channel.recv, Channel.tryRecv_of_blocked hempty hblocked]
      next => cases hmachine
  | closeExchange op =>
      simp only [Interleaving.step] at hmachine
      split at hmachine
      next hfresh =>
        cases hmachine
        cases hclosed : state.channel.closed with
        | true =>
            simp only [observed, hclosed, if_true] at hmoves ⊢
            refine hcommits.atomic hmoves htimely hfresh ?_ ?_
            · simp [State.exchanges, Channel.closeExchange, hclosed]
            · simp [Channel.system, Channel.close, State.exchanges, Channel.closeExchange, hclosed]
        | false =>
            simp only [observed, hclosed, Bool.false_eq_true, if_false] at hmoves ⊢
            refine hcommits.exchange htimely hfresh hclosed ?_ ?_
            · simp [State.exchanges, Channel.closeExchange, hclosed]
            · simp [State.exchanges, Channel.closeExchange, hclosed]
      next => cases hmachine
  | closeFlush op =>
      simp only [Interleaving.step] at hmachine
      split at hmachine
      next hclosing =>
        cases hmachine
        exact hcommits.flush hclosing rfl rfl
      next => cases hmachine

/-- Any number of parties using a channel of any capacity with all its
operations get the replies of one queue, in an order consistent with real time,
in every run whose registrations are timely and in which only the flush comes
between the exchange of `close` and its flush while somebody is parked. -/
theorem linearizable_of_timely (capacity : Nat) (actions : List (Action Op V))
    (htimely : (watching Op V capacity).Meets Timely (initial capacity, []) actions) :
    (watching Op V capacity).Along
      (fun watched => Linearizable (Fifo.replying Op Op (Item Op V)) (.new capacity) watched.2)
      (initial capacity, []) actions := by
  refine Machine.along_of_meets
    (fun watched => ∃ order fifo, Commits capacity watched order fifo) ?_ ?_
    ⟨[], _, initial_commits capacity⟩ htimely
  · rintro watched action after ⟨order, fifo, hcommits⟩ hcondition hstep
    exact hcommits.timely hcondition hstep
  · rintro watched ⟨order, fifo, hcommits⟩
    exact ⟨order, hcommits.committed.linearizes⟩

/-- Receiver 0 parks, sender 1 meets it, sender 2 parks, `close` releases it. -/
theorem timely_run_linearizable :
    (watching Nat Nat 0).Along
      (fun watched => Linearizable (Fifo.replying Nat Nat (Item Nat Nat)) (.new 0) watched.2)
      (initial 0, [])
      [.recvReady 0, .recvSuspend 0, .sendReady 1 7, .sendReady 2 8, .sendSuspend 2,
        .closeExchange 3, .closeFlush 3, .tryRecv 4] :=
  linearizable_of_timely 0 _ (by decide)

end Interleaving

end Tang
