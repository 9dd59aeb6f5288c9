import Tang.Channel.NonBlocking

/-! # The calls that never wait are linearizable

`try_send` takes effect at its read of `closed_`, `close` at its exchange, and
every other call at the step that computes its reply. Between its read and its
end a `try_send` holds the mutex, and the value it is going to append is already
in the queue.
-/

namespace Tang.NonBlocking

open Foundation

variable {Id V : Type} {state next : State Id V} {capacity : Nat}
  {order order' : List (Operation Id (Call V) (Reply V))}

/-- What the calls that took effect say about a call, by where it stands. -/
def Explains (capacity : Nat) (state : State Id V)
    (order : List (Operation Id (Call V) (Reply V))) (id : Id) : Prop :=
  match state.pc id with
  | .idle => ∀ call, .called id call ∉ state.history
  | .called call => .called id call ∈ state.history ∧ id ∉ order.map Operation.id
  | .locked call =>
      state.owner = some id ∧ .called id call ∈ state.history ∧ id ∉ order.map Operation.id
  | .read call closed =>
      state.owner = some id ∧
        if call.sends?.isSome then
          ⟨id, call, .sent (!closed && decide (state.channel.buffer.length < capacity))⟩ ∈ order
        else .called id call ∈ state.history ∧ id ∉ order.map Operation.id
  | .exchanged => ⟨id, .close, .closed⟩ ∈ order
  | .flushing => state.owner = some id ∧ ⟨id, .close, .closed⟩ ∈ order
  | .answering reply => ∃ call, ⟨id, call, reply⟩ ∈ order
  | .returned => True

/-- The value a call is going to append. -/
def Pc.appends (capacity : Nat) (buffer : List V) : Pc V → List V
  | .read call false => if buffer.length < capacity then call.sends?.toList else []
  | .read _ true | .idle | .called _ | .locked _ | .exchanged | .flushing => []
  | .answering _ | .returned => []

/-- The value the holder of the mutex is going to append. -/
def pending (capacity : Nat) (state : State Id V) : List V :=
  match state.owner with
  | some id => (state.pc id).appends capacity state.channel.buffer
  | none => []

theorem pending_of_free (hfree : state.owner = none) : pending capacity state = [] := by
  simp [pending, hfree]

theorem pending_of_owner {id : Id} (howner : state.owner = some id) :
    pending capacity state = (state.pc id).appends capacity state.channel.buffer := by
  simp [pending, howner]

/-- The queue the channel stands for. -/
def queue (capacity : Nat) (state : State Id V) : Queue V where
  items := state.channel.buffer ++ pending capacity state
  closed := state.channel.closed

/-- The calls in `order` have taken effect, and the queue shows it. -/
structure Commits (capacity : Nat) (state : State Id V)
    (order : List (Operation Id (Call V) (Reply V))) : Prop where
  committed : Committed (boundedQueue V capacity) ⟨[], false⟩ state.history order
    (queue capacity state)
  capacity_eq : state.channel.capacity = capacity
  sendWaiters : state.channel.sendWaiters = []
  recvWaiters : state.channel.recvWaiters = []
  explained : ∀ id, Explains capacity state order id

theorem initial_commits (capacity : Nat) : Commits capacity (initial capacity : State Id V) [] where
  committed := .start
  capacity_eq := rfl
  sendWaiters := rfl
  recvWaiters := rfl
  explained _ := by simp [Explains, initial]

/-- A step of another call changes nothing for a call. -/
theorem Explains.keep {other : Id} (hexplains : Explains capacity state order other)
    (hpc : next.pc other = state.pc other)
    (hcalled : ∀ call, .called other call ∈ next.history ↔ .called other call ∈ state.history)
    (hsubset : order ⊆ order')
    (hnew : other ∈ order'.map Operation.id → other ∈ order.map Operation.id)
    (howner : state.owner = some other →
      next.owner = some other ∧ next.channel.buffer = state.channel.buffer) :
    Explains capacity next order' other := by
  unfold Explains at hexplains ⊢
  rw [hpc]
  cases hphase : state.pc other with
  | idle =>
      simp only [hphase] at hexplains ⊢
      exact fun call hmem => hexplains call ((hcalled call).mp hmem)
  | called call =>
      simp only [hphase] at hexplains ⊢
      exact ⟨(hcalled call).mpr hexplains.1, fun hmem => hexplains.2 (hnew hmem)⟩
  | locked call =>
      simp only [hphase] at hexplains ⊢
      exact ⟨(howner hexplains.1).1, (hcalled call).mpr hexplains.2.1,
        fun hmem => hexplains.2.2 (hnew hmem)⟩
  | read call closed =>
      simp only [hphase] at hexplains ⊢
      obtain ⟨hholds, hrest⟩ := hexplains
      refine ⟨(howner hholds).1, ?_⟩
      rw [(howner hholds).2]
      split
      next hsends =>
        rw [if_pos hsends] at hrest
        exact hsubset hrest
      next hsends =>
        rw [if_neg hsends] at hrest
        exact ⟨(hcalled call).mpr hrest.1, fun hmem => hrest.2 (hnew hmem)⟩
  | exchanged =>
      simp only [hphase] at hexplains ⊢
      exact hsubset hexplains
  | flushing =>
      simp only [hphase] at hexplains ⊢
      exact ⟨(howner hexplains.1).1, hsubset hexplains.2⟩
  | answering reply =>
      simp only [hphase] at hexplains ⊢
      obtain ⟨call, hmem⟩ := hexplains
      exact ⟨call, hsubset hmem⟩
  | returned => trivial

variable [DecidableEq Id] {id : Id} {pc : Pc V}

/-- What a step of one call leaves to the others. -/
structure Shifts (state next : State Id V) (id : Id) (pc : Pc V) : Prop where
  moved : next.pc = Function.update state.pc id pc
  called : ∀ other, other ≠ id → ∀ call,
    .called other call ∈ next.history ↔ .called other call ∈ state.history
  others : ∀ other, other ≠ id → state.owner = some other →
    next.owner = some other ∧ next.channel.buffer = state.channel.buffer
  capacity_eq : next.channel.capacity = state.channel.capacity
  sendWaiters : state.channel.sendWaiters = [] → next.channel.sendWaiters = []
  recvWaiters : state.channel.recvWaiters = [] → next.channel.recvWaiters = []

theorem Commits.of_shifts (hcommits : Commits capacity state order)
    (hshifts : Shifts state next id pc)
    (hcommitted : Committed (boundedQueue V capacity) ⟨[], false⟩ next.history order'
      (queue capacity next))
    (horder : ∀ other, other ≠ id → (order ⊆ order' ∧
      (other ∈ order'.map Operation.id → other ∈ order.map Operation.id)))
    (hself : Explains capacity next order' id) : Commits capacity next order' where
  committed := hcommitted
  capacity_eq := hshifts.capacity_eq.trans hcommits.capacity_eq
  sendWaiters := hshifts.sendWaiters hcommits.sendWaiters
  recvWaiters := hshifts.recvWaiters hcommits.recvWaiters
  explained other := by
    by_cases heq : other = id
    · rwa [heq]
    · have hpc : next.pc other = state.pc other := by
        rw [hshifts.moved, Function.update_of_ne heq]
      exact (hcommits.explained other).keep hpc (hshifts.called other heq)
        (horder other heq).1 (horder other heq).2 (hshifts.others other heq)

/-- A step in which no call takes effect. -/
theorem Commits.quiet (hcommits : Commits capacity state order)
    (hshifts : Shifts state next id pc) (hhistory : next.history = state.history)
    (hqueue : queue capacity next = queue capacity state)
    (hself : Explains capacity next order id) : Commits capacity next order := by
  refine hcommits.of_shifts hshifts ?_ (fun _ _ => ⟨List.Subset.refl _, fun hmem => hmem⟩) hself
  rw [hhistory, hqueue]
  exact hcommits.committed

/-- A step in which the call takes effect. -/
theorem Commits.commit (hcommits : Commits capacity state order)
    (hshifts : Shifts state next id pc) (hhistory : next.history = state.history)
    {call : Call V} {reply : Reply V} (hcalled : .called id call ∈ state.history)
    (hfirst : id ∉ order.map Operation.id)
    (hspec : (boundedQueue V capacity).step (queue capacity state) call =
      (reply, queue capacity next))
    (hself : Explains capacity next (order ++ [⟨id, call, reply⟩]) id) :
    Commits capacity next (order ++ [⟨id, call, reply⟩]) := by
  have hcommitted := hcommits.committed.commit id call hcalled hfirst
  rw [hspec, ← hhistory] at hcommitted
  refine hcommits.of_shifts hshifts hcommitted (fun other hne => ⟨?_, fun hmem => ?_⟩) hself
  · exact List.subset_append_left _ _
  · rw [List.map_append, List.mem_append] at hmem
    exact hmem.resolve_right (by simpa using hne)

/-! ### The pending value -/

/-- A step of a call that has nothing to append, before or after, leaves the
pending value alone. -/
theorem pending_keep (id : Id) (howner : next.owner = state.owner)
    (hbuffer : next.channel.buffer = state.channel.buffer)
    (hmoved : next.pc = Function.update state.pc id pc)
    (hbefore : (state.pc id).appends capacity state.channel.buffer = [])
    (hafter : pc.appends capacity state.channel.buffer = []) :
    pending capacity next = pending capacity state := by
  unfold pending
  rw [howner, hbuffer, hmoved]
  cases state.owner with
  | none => rfl
  | some other =>
      by_cases heq : other = id
      · subst other
        simp [hbefore, hafter]
      · simp [heq]

omit [DecidableEq Id] in
/-- Taking the mutex and giving it back change nothing while nothing is to be
appended. -/
theorem queue_of_pending_nil (hbuffer : next.channel.buffer = state.channel.buffer)
    (hclosed : next.channel.closed = state.channel.closed)
    (hbefore : pending capacity state = []) (hafter : pending capacity next = []) :
    queue capacity next = queue capacity state := by
  simp only [queue, hbuffer, hclosed, hbefore, hafter]

/-! ### What the steps leave to the others -/

theorem shifts_move (state : State Id V) (id : Id) (pc : Pc V) :
    Shifts state (state.move id pc) id pc where
  moved := rfl
  called _ _ _ := Iff.rfl
  others _ _ howner := ⟨howner, rfl⟩
  capacity_eq := rfl
  sendWaiters := fun hnone => hnone
  recvWaiters := fun hnone => hnone

/-- Taking the free mutex concerns nobody else. -/
theorem shifts_acquire (hfree : state.owner = none) :
    Shifts state { state.move id pc with owner := some id } id pc where
  moved := rfl
  called _ _ _ := Iff.rfl
  others _ _ howner := by simp [hfree] at howner
  capacity_eq := rfl
  sendWaiters := fun hnone => hnone
  recvWaiters := fun hnone => hnone

/-- Only its holder gives the mutex back. -/
theorem shifts_release (howner : state.owner = some id) (channel : Channel Id Id V)
    (reply : Reply V) (hcapacity : channel.capacity = state.channel.capacity)
    (hsenders : state.channel.sendWaiters = [] → channel.sendWaiters = [])
    (hreceivers : state.channel.recvWaiters = [] → channel.recvWaiters = []) :
    Shifts state (state.release id channel reply) id (.answering reply) where
  moved := rfl
  called _ _ _ := Iff.rfl
  others _ hne hother := absurd (Option.some.inj (hother.symm.trans howner)) hne
  capacity_eq := hcapacity
  sendWaiters := hsenders
  recvWaiters := hreceivers

/-- A step of a call that appends to the history only what concerns itself. -/
theorem shifts_record (state : State Id V) (id : Id) (pc : Pc V)
    (event : CallEvent Id (Call V) (Reply V))
    (hevent : ∀ other, other ≠ id → ∀ call, event ≠ .called other call) :
    Shifts state { state.move id pc with history := state.history ++ [event] } id pc where
  moved := rfl
  called other hne call := by
    have hnew : CallEvent.called other call ≠ event := (hevent other hne call).symm
    simp [hnew]
  others _ _ howner := ⟨howner, rfl⟩
  capacity_eq := rfl
  sendWaiters := fun hnone => hnone
  recvWaiters := fun hnone => hnone

/-! ### The steps, one by one -/

theorem Commits.call (hcommits : Commits capacity state order) (call : Call V)
    (hpc : state.pc id = .idle) :
    Commits capacity { state.move id (.called call) with
      history := state.history ++ [.called id call] } order := by
  have hfresh := hcommits.explained id
  simp only [Explains, hpc] at hfresh
  refine hcommits.of_shifts (shifts_record state id (.called call) _ ?_) ?_
    (fun _ _ => ⟨List.Subset.refl _, fun hmem => hmem⟩) ?_
  · intro other hne call' heq
    exact hne (CallEvent.called.inj heq).1.symm
  · have hpending : pending capacity { state.move id (.called call) with
        history := state.history ++ [.called id call] } = pending capacity state :=
      pending_keep id rfl rfl rfl (by simp [hpc, Pc.appends]) rfl
    simp only [queue, hpending]
    exact .call id call hcommits.committed hfresh
  · simp only [Explains, State.move, Function.update_self]
    refine ⟨by simp, fun hmem => ?_⟩
    obtain ⟨operation, hoperation, heq⟩ := List.mem_map.mp hmem
    have hcalled := hcommits.committed.called operation hoperation
    rw [heq] at hcalled
    exact hfresh _ hcalled

theorem Commits.acquire (hcommits : Commits capacity state order) {call : Call V}
    (hpc : state.pc id = .called call) (hfree : state.owner = none) :
    Commits capacity { state.move id (.locked call) with owner := some id } order := by
  have hself := hcommits.explained id
  simp only [Explains, hpc] at hself
  apply hcommits.quiet (shifts_acquire hfree) rfl
  · refine queue_of_pending_nil rfl rfl (pending_of_free hfree) ?_
    rw [pending_of_owner rfl]
    simp [State.move, Pc.appends]
  · simpa [Explains, State.move] using hself

theorem Commits.peek (hcommits : Commits capacity state order) {call : Call V} {reply : Reply V}
    (hpc : state.pc id = .called call)
    (hreply : call = .isFull ∧ state.channel.capacity = 0 ∧ reply = .flag true ∨
      call = .isClosed ∧ reply = .flag state.channel.closed ∨
      call = .close ∧ state.channel.closed = true ∧ reply = .closed) :
    Commits capacity (state.move id (.answering reply)) (order ++ [⟨id, call, reply⟩]) := by
  have hself := hcommits.explained id
  simp only [Explains, hpc] at hself
  apply hcommits.commit (shifts_move state id _) rfl hself.1 hself.2
  · have hpending : pending capacity (state.move id (.answering reply)) =
        pending capacity state :=
      pending_keep id rfl rfl rfl (by simp [hpc, Pc.appends]) rfl
    have hcapacity := hcommits.capacity_eq
    simp only [queue, hpending]
    rcases hreply with ⟨rfl, hzero, rfl⟩ | ⟨rfl, rfl⟩ | ⟨rfl, hclosed, rfl⟩
    · simp [boundedQueue, ← hcapacity, hzero, State.move]
    · simp [boundedQueue, State.move]
    · simp [boundedQueue, hclosed, State.move]
  · simp only [Explains, State.move, Function.update_self]
    exact ⟨call, by simp⟩

theorem Commits.exchange (hcommits : Commits capacity state order)
    (hpc : state.pc id = .called .close) :
    Commits capacity { state.move id .exchanged with channel := seen state.channel true }
      (order ++ [⟨id, .close, .closed⟩]) := by
  have hself := hcommits.explained id
  simp only [Explains, hpc] at hself
  have hshifts : Shifts state { state.move id .exchanged with channel := seen state.channel true }
      id .exchanged :=
    ⟨rfl, fun _ _ _ => Iff.rfl, fun _ _ howner => ⟨howner, rfl⟩, rfl, fun hnone => hnone,
      fun hnone => hnone⟩
  apply hcommits.commit hshifts rfl hself.1 hself.2
  · have hpending : pending capacity { state.move id .exchanged with
        channel := seen state.channel true } = pending capacity state :=
      pending_keep id rfl rfl rfl (by simp [hpc, Pc.appends]) rfl
    simp only [queue, hpending]
    simp [boundedQueue, seen]
  · simp [Explains, State.move]

omit [DecidableEq Id] in
theorem boundedQueue_send {call : Call V} {value : V} (hsends : call.sends? = some value)
    (contents : Queue V) :
    (boundedQueue V capacity).step contents call =
      if contents.closed = true ∨ capacity ≤ contents.items.length then (.sent false, contents)
      else (.sent true, { contents with items := contents.items ++ [value] }) := by
  cases call with
  | trySend | trySendMove =>
      cases hsends
      rfl
  | tryRecv | isEmpty | isFull | isClosed | close => cases hsends

/-- The read of `closed_`. A send takes effect here, a receive does not. -/
theorem Commits.read (hcommits : Commits capacity state order) {call : Call V}
    (hpc : state.pc id = .locked call) :
    ∃ order', Commits capacity (state.move id (.read call state.channel.closed)) order' := by
  have hself := hcommits.explained id
  simp only [Explains, hpc] at hself
  obtain ⟨howner, hcalled, hfirst⟩ := hself
  have hbefore : pending capacity state = [] := by
    rw [pending_of_owner howner, hpc]
    rfl
  have hafter : pending capacity (state.move id (.read call state.channel.closed)) =
      (Pc.read call state.channel.closed).appends capacity state.channel.buffer := by
    have hholds : (state.move id (.read call state.channel.closed)).owner = some id := howner
    rw [pending_of_owner hholds]
    simp [State.move]
  cases hsends : call.sends? with
  | none =>
      refine ⟨order, hcommits.quiet (shifts_move state id _) rfl ?_ ?_⟩
      · refine queue_of_pending_nil rfl rfl hbefore ?_
        rw [hafter]
        cases state.channel.closed <;> simp [Pc.appends, hsends]
      · simp only [Explains, State.move, Function.update_self, hsends]
        exact ⟨howner, hcalled, hfirst⟩
  | some value =>
      have hspec : (boundedQueue V capacity).step (queue capacity state) call =
          (.sent (!state.channel.closed && decide (state.channel.buffer.length < capacity)),
            queue capacity (state.move id (.read call state.channel.closed))) := by
        rw [boundedQueue_send hsends]
        simp only [queue, hbefore, hafter, List.append_nil]
        cases hclosed : state.channel.closed with
        | true => simp [Pc.appends, State.move, hclosed]
        | false =>
            by_cases hroom : state.channel.buffer.length < capacity
            · simp [Pc.appends, State.move, hclosed, hroom, hsends]
            · simp [Pc.appends, State.move, hclosed, hroom, Nat.le_of_not_lt hroom]
      refine ⟨_, hcommits.commit (shifts_move state id _) rfl hcalled hfirst hspec ?_⟩
      simp only [Explains, State.move, Function.update_self, hsends, Option.isSome_some, if_true]
      exact ⟨howner, List.mem_append_right _ (List.mem_singleton_self _)⟩

/-- `is_empty` and `is_full` under the mutex. -/
theorem Commits.inspect (hcommits : Commits capacity state order) {call : Call V}
    {reply : Reply V} (hpc : state.pc id = .locked call)
    (hreply : call = .isEmpty ∧ reply = .flag state.channel.isEmpty ∨
      call = .isFull ∧ reply = .flag state.channel.isFull) :
    Commits capacity (state.release id state.channel reply) (order ++ [⟨id, call, reply⟩]) := by
  have hself := hcommits.explained id
  simp only [Explains, hpc] at hself
  obtain ⟨howner, hcalled, hfirst⟩ := hself
  have hshifts := shifts_release howner state.channel reply rfl (fun hnone => hnone)
    fun hnone => hnone
  apply hcommits.commit hshifts rfl hcalled hfirst
  · have hbefore : pending capacity state = [] := by
      rw [pending_of_owner howner, hpc]
      rfl
    have hafter : pending capacity (state.release id state.channel reply) = [] :=
      pending_of_free rfl
    have hcapacity := hcommits.capacity_eq
    simp only [queue, hbefore, hafter, List.append_nil]
    rcases hreply with ⟨rfl, rfl⟩ | ⟨rfl, rfl⟩
    · simp [boundedQueue, State.release, Channel.isEmpty]
    · simp only [boundedQueue, State.release, Channel.isFull, hcapacity]
      split
      next hzero => simp [hzero]
      next => rfl
  · simp only [Explains, State.release, State.move, Function.update_self]
    exact ⟨call, by simp⟩

omit [DecidableEq Id] in
/-- Without parked receivers a send succeeds exactly if it saw the channel open
and the buffer has room, and appends its value then. -/
theorem trySendWith_seen (channel : Channel Id Id V) (hreceivers : channel.recvWaiters = [])
    (closed : Bool) (value : V) (used : Option V) :
    ((seen channel closed).trySendWith value used).result.1 =
        (!closed && decide (channel.buffer.length < channel.capacity)) ∧
      ((seen channel closed).trySendWith value used).channel =
        { seen channel closed with
          buffer := channel.buffer ++
            if closed = false ∧ channel.buffer.length < channel.capacity then [value]
            else [] } := by
  rcases (seen channel closed).trySendWith_cases value used with
    ⟨hfails, hout⟩ | ⟨waiter, rest, _, hwaiters, _⟩ | ⟨hopen, _, hroom, hout⟩
  · rw [hout]
    rcases hfails with hclosed | ⟨_, hfull⟩
    · have heq : closed = true := hclosed
      simp [seen, heq]
    · have hfull' : ¬ channel.buffer.length < channel.capacity := Nat.not_lt.mpr hfull
      simp [seen, hfull']
  · have hnone : channel.recvWaiters = waiter :: rest := hwaiters
    simp [hreceivers] at hnone
  · have heq : closed = false := hopen
    have hroom' : channel.buffer.length < channel.capacity := hroom
    rw [hout]
    simp [seen, heq, hroom']

/-- The rest of `try_send` appends the pending value, if there is one. -/
theorem Commits.send (hcommits : Commits capacity state order) {call : Call V} {value : V}
    {closed : Bool} (hpc : state.pc id = .read call closed) (hsends : call.sends? = some value)
    (used : Option V) :
    Commits capacity (state.release id
      (seen ((seen state.channel closed).trySendWith value used).channel state.channel.closed)
      (.sent ((seen state.channel closed).trySendWith value used).result.1)) order := by
  have hself := hcommits.explained id
  simp only [Explains, hpc, hsends, Option.isSome_some, if_true] at hself
  obtain ⟨howner, hcommitted⟩ := hself
  obtain ⟨hresult, hchannel⟩ :=
    trySendWith_seen state.channel hcommits.recvWaiters closed value used
  rw [hresult, hchannel, hcommits.capacity_eq]
  have hshifts := shifts_release howner
    (seen { seen state.channel closed with buffer := state.channel.buffer ++
      if closed = false ∧ state.channel.buffer.length < capacity then [value] else [] }
      state.channel.closed)
    (.sent (!closed && decide (state.channel.buffer.length < capacity))) rfl
    (fun hnone => hnone) (fun hnone => hnone)
  apply hcommits.quiet hshifts rfl
  · have hbefore : pending capacity state =
        if closed = false ∧ state.channel.buffer.length < capacity then [value] else [] := by
      rw [pending_of_owner howner, hpc]
      cases closed <;> simp [Pc.appends, hsends]
    simp [queue, hbefore, pending_of_free, State.release, seen]
  · simp only [Explains, State.release, State.move, Function.update_self]
    exact ⟨call, hcommitted⟩

omit [DecidableEq Id] in
/-- Without parked senders a receive takes the front of the buffer, whatever it
saw of `closed_`. -/
theorem tryRecv_seen (channel : Channel Id Id V) (hsenders : channel.sendWaiters = [])
    (closed : Bool) (reader : Id) :
    ((seen channel closed).tryRecv reader none).result.2 = channel.buffer.head? ∧
      ((seen channel closed).tryRecv reader none).channel =
        { seen channel closed with buffer := channel.buffer.tail } := by
  have hnone : (seen channel closed).sendWaiters = [] := hsenders
  rcases (seen channel closed).tryRecv_cases reader none with
    ⟨_, _, waiter, rest, _, hwaiters, _⟩ | ⟨front, buffer, hbuffer, _, hout⟩ |
      ⟨waiter, rest, _, _, hwaiters, _⟩ | ⟨hbuffer, _, hout⟩
  · simp [hnone] at hwaiters
  · have hsame : channel.buffer = front :: buffer := hbuffer
    rw [hout]
    simp [seen, hsame]
  · simp [hnone] at hwaiters
  · have hsame : channel.buffer = [] := hbuffer
    rw [hout]
    simp [seen, hsame]

/-- The rest of `try_recv` takes the front of the queue. -/
theorem Commits.recv (hcommits : Commits capacity state order) {closed : Bool}
    (hpc : state.pc id = .read .tryRecv closed) :
    Commits capacity (state.release id
        (seen ((seen state.channel closed).tryRecv id none).channel state.channel.closed)
        (.received ((seen state.channel closed).tryRecv id none).result.2))
      (order ++ [⟨id, .tryRecv,
        .received ((seen state.channel closed).tryRecv id none).result.2⟩]) := by
  have hself := hcommits.explained id
  simp only [Explains, hpc] at hself
  obtain ⟨howner, hcalled, hfirst⟩ := hself
  obtain ⟨hresult, hchannel⟩ := tryRecv_seen state.channel hcommits.sendWaiters closed id
  rw [hresult, hchannel]
  have hshifts := shifts_release howner
    (seen { seen state.channel closed with buffer := state.channel.buffer.tail }
      state.channel.closed)
    (.received state.channel.buffer.head?) rfl (fun hnone => hnone) (fun hnone => hnone)
  apply hcommits.commit hshifts rfl hcalled hfirst
  · have hbefore : pending capacity state = [] := by
      rw [pending_of_owner howner, hpc]
      cases closed <;> simp [Pc.appends, Call.sends?]
    cases hbuffer : state.channel.buffer with
    | nil => simp [queue, boundedQueue, hbefore, hbuffer, pending_of_free, State.release, seen]
    | cons front buffer =>
        simp [queue, boundedQueue, hbefore, hbuffer, pending_of_free, State.release, seen]
  · simp only [Explains, State.release, State.move, Function.update_self]
    exact ⟨.tryRecv, by simp⟩

theorem Commits.lockFlush (hcommits : Commits capacity state order)
    (hpc : state.pc id = .exchanged) (hfree : state.owner = none) :
    Commits capacity { state.move id .flushing with owner := some id } order := by
  have hself := hcommits.explained id
  simp only [Explains, hpc] at hself
  apply hcommits.quiet (shifts_acquire hfree) rfl
  · refine queue_of_pending_nil rfl rfl (pending_of_free hfree) ?_
    rw [pending_of_owner rfl]
    simp [State.move, Pc.appends]
  · simpa [Explains, State.move] using hself

/-- The flush finds nobody parked. -/
theorem Commits.flush (hcommits : Commits capacity state order) (hpc : state.pc id = .flushing) :
    Commits capacity (state.release id state.channel.closeFlush.channel .closed) order := by
  have hself := hcommits.explained id
  simp only [Explains, hpc] at hself
  obtain ⟨howner, hcommitted⟩ := hself
  have hshifts := shifts_release howner state.channel.closeFlush.channel .closed rfl
    (fun _ => rfl) (fun _ => rfl)
  apply hcommits.quiet hshifts rfl
  · refine queue_of_pending_nil rfl rfl ?_ (pending_of_free rfl)
    rw [pending_of_owner howner, hpc]
    rfl
  · simp only [Explains, State.release, State.move, Function.update_self]
    exact ⟨.close, hcommitted⟩

theorem Commits.answer (hcommits : Commits capacity state order) {reply : Reply V}
    (hpc : state.pc id = .answering reply) :
    Commits capacity { state.move id .returned with
      history := state.history ++ [.returned id reply] } order := by
  have hself := hcommits.explained id
  simp only [Explains, hpc] at hself
  obtain ⟨call, hcommitted⟩ := hself
  refine hcommits.of_shifts (shifts_record state id .returned _ (by simp)) ?_
    (fun _ _ => ⟨List.Subset.refl _, fun hmem => hmem⟩) ?_
  · have hpending : pending capacity { state.move id .returned with
        history := state.history ++ [.returned id reply] } = pending capacity state :=
      pending_keep id rfl rfl rfl (by simp [hpc, Pc.appends]) rfl
    simp only [queue, hpending]
    exact .answer id call reply hcommits.committed hcommitted
  · simp [Explains, State.move]

/-- Every step keeps the calls that took effect explained by the queue. -/
theorem Moves.commits {action : Action Id V} (hmoves : Moves state action next)
    (hcommits : Commits capacity state order) : ∃ order', Commits capacity next order' := by
  cases hmoves with
  | call id call hpc => exact ⟨_, hcommits.call call hpc⟩
  | acquire id call hpc hfree => exact ⟨_, hcommits.acquire hpc hfree⟩
  | peek id call reply hpc hreply => exact ⟨_, hcommits.peek hpc hreply⟩
  | exchange id hpc _ => exact ⟨_, hcommits.exchange hpc⟩
  | read id call hpc _ => exact hcommits.read hpc
  | inspect id call reply hpc hreply => exact ⟨_, hcommits.inspect hpc hreply⟩
  | send id call value used closed hpc hsends => exact ⟨_, hcommits.send hpc hsends used⟩
  | recv id closed hpc => exact ⟨_, hcommits.recv hpc⟩
  | lockFlush id hpc hfree => exact ⟨_, hcommits.lockFlush hpc hfree⟩
  | flush id hpc => exact ⟨_, hcommits.flush hpc⟩
  | answer id reply hpc => exact ⟨_, hcommits.answer hpc⟩

/-- Any number of threads calling `try_send`, `try_recv`, `is_empty`, `is_full`,
`is_closed` and `close` on a channel of any capacity, in any interleaving, get
replies of a bounded queue with a closed flag. -/
theorem linearizable_along (capacity : Nat) (actions : List (Action Id V)) :
    (machine Id V capacity).Along
      (fun state => Linearizable (boundedQueue V capacity) ⟨[], false⟩ state.history)
      (initial capacity) actions := by
  apply Machine.along_of_invariant fun state => ∃ order, Commits capacity state order
  · rintro state action next ⟨order, hcommits⟩ hstep
    exact (moves_of_step hstep).commits hcommits
  · rintro state ⟨order, hcommits⟩
    exact ⟨order, hcommits.committed.linearizes⟩
  · exact ⟨[], initial_commits capacity⟩

end Tang.NonBlocking
