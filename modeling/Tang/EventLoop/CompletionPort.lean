import Mathlib.Data.List.Forall2
import Tang.Foundation.Family
import Tang.EventLoop.Narrowing
import Tang.EventLoop.Registration

/-! # The completion port poller

`iocp_event_poller` keeps no map: the structure of an operation tells `wait` the
source and the events to report. Whether the kernel associates a handle with the
port is its choice, at every call. Operations complete in any order, several
threads may wait, and each takes its packet before it looks into the structure.
-/

namespace Tang.EventLoop.Iocp

open Foundation Registration

variable {Thread Source Overlapped : Type}

/-- The fields of `iocp_overlapped` beside those of the kernel. -/
structure IocpOverlapped (Source : Type) where
  source : Source
  events : Mask
  deriving DecidableEq

/-- A completion packet. One that was posted by hand may have no structure. -/
inductive Packet (Overlapped : Type)
  | completed (overlapped : Option Overlapped)
  | failed (overlapped : Overlapped)
  deriving DecidableEq

/-- How `GetQueuedCompletionStatus` ends. -/
inductive Status (Overlapped : Type)
  | packet (packet : Packet Overlapped)
  /-- `WAIT_TIMEOUT`. -/
  | timeout
  /-- Another error, without a packet. -/
  | refused
  deriving DecidableEq

/-- The structure that `wait` gets. -/
def Status.overlapped : Status Overlapped → Option Overlapped
  | .packet (.completed overlapped) => overlapped
  | .packet (.failed overlapped) => some overlapped
  | .timeout | .refused => none

/-- The operation has not failed. -/
def Status.success : Status Overlapped → Bool
  | .packet (.completed _) => true
  | .packet (.failed _) | .timeout | .refused => false

/-- The rest of `wait`: what it returns, and the events it appends. -/
def wait (fields : Overlapped → IocpOverlapped Source) :
    Status Overlapped → Int × List (Event Source)
  | .packet (.completed (some overlapped)) =>
      (1, [⟨(fields overlapped).source, (fields overlapped).events⟩])
  | .packet (.failed overlapped) => (1, [⟨(fields overlapped).source, EventType.error⟩])
  | .timeout => (0, [])
  | .refused => (-1, [])
  | .packet (.completed none) => (0, [])

/-- The poller, with the handles that `CreateIoCompletionPort` accepted and the
completion keys it was given. -/
structure Port (Source : Type) where
  /-- `iocp_handle_` is not null. -/
  opened : Bool
  associations : List (Handle × Source)

/-- `INVALID_HANDLE_VALUE`. -/
def invalidHandle : Handle := BitVec.allOnes 64

namespace Port

def registerEvent (port : Port Source) (source : Option Source) (handle : Handle) (_ : Mask)
    (fails : Bool) : Port Source × Bool :=
  match source with
  | none => (port, false)
  | some source =>
      if port.opened then
        if handle = 0 ∨ handle = invalidHandle then (port, false)
        else if fails then (port, false)
        else ({ port with associations := (handle, source) :: port.associations }, true)
      else (port, false)

def modifyEvent (port : Port Source) (source : Option Source) (handle : Handle) (events : Mask)
    (fails : Bool) : Port Source × Bool :=
  port.registerEvent source handle events fails

def deleteEvent (port : Port Source) (_ : Option Source) : Port Source × Bool :=
  (port, true)

/-- The poller a call leaves behind and what the call returns. -/
def perform (port : Port Source) : Call Source → Port Source × Bool
  | .register source handle events fails => port.registerEvent source handle events fails
  | .modify source handle events fails => port.modifyEvent source handle events fails
  | .delete source _ _ => port.deleteEvent source

end Port

/-- A thread, by its place in `wait`. -/
inductive Stage (Overlapped : Type)
  | outside
  | waiting
  | fetched (status : Status Overlapped)
  deriving DecidableEq

structure State (Thread Source Overlapped : Type) where
  port : Port Source
  /-- What is in the structures. -/
  fields : Overlapped → IocpOverlapped Source
  /-- The operations that are under way. -/
  pending : List Overlapped
  /-- The packets in the port, the oldest first. -/
  packets : List (Packet Overlapped)
  stages : Thread → Stage Overlapped

inductive Action (Thread Source Overlapped : Type)
  /-- Code writes the fields of a structure. -/
  | fill (overlapped : Overlapped) (content : IocpOverlapped Source)
  /-- An operation is started on an associated handle. -/
  | start (overlapped : Overlapped) (handle : Handle)
  /-- An operation ends. -/
  | complete (overlapped : Overlapped) (success : Bool)
  /-- A packet without a structure is posted. -/
  | post
  | call (call : Call Source)
  | wait (thread : Thread)
  | dequeue (thread : Thread)
  | expire (thread : Thread)
  | refuse (thread : Thread)
  /-- `wait` looks into the structure and returns. -/
  | report (thread : Thread)
  deriving DecidableEq

section Steps

variable [DecidableEq Thread] [DecidableEq Overlapped]

def State.setStage (state : State Thread Source Overlapped) (thread : Thread)
    (stage : Stage Overlapped) : State Thread Source Overlapped :=
  { state with stages := Function.update state.stages thread stage }

/-- The packet of an operation that has ended. -/
def packetOf (overlapped : Overlapped) (success : Bool) : Packet Overlapped :=
  if success then .completed (some overlapped) else .failed overlapped

def step (state : State Thread Source Overlapped) :
    Action Thread Source Overlapped → Option (State Thread Source Overlapped)
  | .fill overlapped content =>
      some { state with fields := Function.update state.fields overlapped content }
  | .start overlapped handle =>
      if handle ∈ state.port.associations.map Prod.fst then
        some { state with pending := overlapped :: state.pending }
      else none
  | .complete overlapped success =>
      if overlapped ∈ state.pending then
        some { state with
          pending := state.pending.erase overlapped
          packets := state.packets ++ [packetOf overlapped success] }
      else none
  | .post =>
      if state.port.opened then some { state with packets := state.packets ++ [.completed none] }
      else none
  | .call call => some { state with port := (state.port.perform call).1 }
  | .wait thread =>
      if state.stages thread = .outside then some (state.setStage thread .waiting) else none
  | .dequeue thread =>
      if state.stages thread = .waiting then
        match state.packets with
        | [] => none
        | packet :: rest =>
            some ({ state with packets := rest }.setStage thread (.fetched (.packet packet)))
      else none
  | .expire thread =>
      if state.stages thread = .waiting then some (state.setStage thread (.fetched .timeout))
      else none
  | .refuse thread =>
      if state.stages thread = .waiting then some (state.setStage thread (.fetched .refused))
      else none
  | .report thread =>
      match state.stages thread with
      | .fetched _ => some (state.setStage thread .outside)
      | _ => none

end Steps

/-- A poller whose port was created or not, and what is in the structures. -/
def initial (opened : Bool) (fields : Overlapped → IocpOverlapped Source) :
    State Thread Source Overlapped where
  port := { opened := opened, associations := [] }
  fields := fields
  pending := []
  packets := []
  stages _ := .outside

def machine (Thread Source Overlapped : Type) [DecidableEq Thread] [DecidableEq Overlapped]
    (opened : Bool) (fields : Overlapped → IocpOverlapped Source) :
    Machine (State Thread Source Overlapped) (Action Thread Source Overlapped) where
  start := initial opened fields
  step := step

/-! ## What has happened -/

/-- A call of `wait` that returned. -/
structure Returned (Source Overlapped : Type) where
  status : Status Overlapped
  count : Int
  events : List (Event Source)
  deriving DecidableEq

structure History (Source Overlapped : Type) where
  /-- The operations started, each with what was in its structure. -/
  starts : List (Overlapped × IocpOverlapped Source) := []
  returns : List (Returned Source Overlapped) := []

def record (history : History Source Overlapped) (state : State Thread Source Overlapped)
    (action : Action Thread Source Overlapped) (_ : State Thread Source Overlapped) :
    History Source Overlapped :=
  match action with
  | .start overlapped _ =>
      { history with starts := history.starts ++ [(overlapped, state.fields overlapped)] }
  | .report thread =>
      match state.stages thread with
      | .fetched status =>
          { history with
            returns := history.returns ++
              [⟨status, (wait state.fields status).1, (wait state.fields status).2⟩] }
      | _ => history
  | _ => history

/-- The runs of the poller with their history. -/
abbrev recorded (Thread Source Overlapped : Type) [DecidableEq Thread] [DecidableEq Overlapped]
    (opened : Bool) (fields : Overlapped → IocpOverlapped Source) :
    Machine (State Thread Source Overlapped × History Source Overlapped)
      (Action Thread Source Overlapped) :=
  (machine Thread Source Overlapped opened fields).recording {} record

/-! ## Operations in flight -/

section Operations

variable [DecidableEq Overlapped]

/-- What was in the structure when its operations were started. -/
def startsOf (history : History Source Overlapped) (overlapped : Overlapped) :
    List (IocpOverlapped Source) :=
  (history.starts.filter fun start => start.1 = overlapped).map Prod.snd

/-- The calls of `wait` that got the structure. -/
def returnsOf (history : History Source Overlapped) (overlapped : Overlapped) :
    List (Returned Source Overlapped) :=
  history.returns.filter fun returned => returned.status.overlapped = some overlapped

/-- How often the stage holds the structure. -/
def Stage.holds (overlapped : Overlapped) : Stage Overlapped → Nat
  | .fetched status => if status.overlapped = some overlapped then 1 else 0
  | .outside | .waiting => 0

variable [Fintype Thread]

/-- The operations of the structure that are under way, in the port, or taken by a
call of `wait` that has not returned. -/
def State.inFlight (state : State Thread Source Overlapped) (overlapped : Overlapped) : Nat :=
  state.pending.count overlapped +
    (state.packets.map fun packet => (Status.packet packet).overlapped).count (some overlapped) +
      total (Stage.holds overlapped) state.stages

/-- The call reports one event, with what was in the structure. -/
structure Answers (content : IocpOverlapped Source) (returned : Returned Source Overlapped) :
    Prop where
  count : returned.count = 1
  events : returned.events = [⟨content.source,
    if returned.status.success then content.events else EventType.error⟩]

/-- Every operation is in flight or has been reported, by one call and with the
source and the events it was started with; a failed one is reported as an error.
The other calls report nothing. -/
structure Attributed (watched : State Thread Source Overlapped × History Source Overlapped) :
    Prop where
  balanced : ∀ overlapped, (startsOf watched.2 overlapped).length =
    (returnsOf watched.2 overlapped).length + watched.1.inFlight overlapped
  answered : ∀ overlapped, List.Forall₂ Answers
    ((startsOf watched.2 overlapped).take (returnsOf watched.2 overlapped).length)
    (returnsOf watched.2 overlapped)
  silent : ∀ returned ∈ watched.2.returns, returned.status.overlapped = none →
    returned.count ≤ 0 ∧ returned.events = []

/-- A structure is not written to, and no operation is started with it, while one
is in flight. -/
def Untouched (watched : State Thread Source Overlapped × History Source Overlapped) :
    Action Thread Source Overlapped → Prop
  | .fill overlapped _ | .start overlapped _ => watched.1.inFlight overlapped = 0
  | _ => True

instance (watched : State Thread Source Overlapped × History Source Overlapped)
    (action : Action Thread Source Overlapped) : Decidable (Untouched watched action) := by
  unfold Untouched
  split <;> infer_instance

/-- What a step does to the operations of a structure. -/
inductive Turns (watched after : State Thread Source Overlapped × History Source Overlapped)
    (overlapped : Overlapped) : Prop
  | keeps (hstarts : startsOf after.2 overlapped = startsOf watched.2 overlapped)
      (hreturns : returnsOf after.2 overlapped = returnsOf watched.2 overlapped)
      (hflight : after.1.inFlight overlapped = watched.1.inFlight overlapped)
      (hfields : 0 < watched.1.inFlight overlapped →
        after.1.fields overlapped = watched.1.fields overlapped)
  | begins (hidle : watched.1.inFlight overlapped = 0)
      (hstarts : startsOf after.2 overlapped =
        startsOf watched.2 overlapped ++ [after.1.fields overlapped])
      (hreturns : returnsOf after.2 overlapped = returnsOf watched.2 overlapped)
      (hflight : after.1.inFlight overlapped = 1)
  | ends (returned : Returned Source Overlapped)
      (hanswers : Answers (watched.1.fields overlapped) returned)
      (hstarts : startsOf after.2 overlapped = startsOf watched.2 overlapped)
      (hreturns : returnsOf after.2 overlapped = returnsOf watched.2 overlapped ++ [returned])
      (hflight : watched.1.inFlight overlapped = after.1.inFlight overlapped + 1)

/-- The operations of one structure, with the content of the last one. -/
structure Tracked (watched : State Thread Source Overlapped × History Source Overlapped)
    (overlapped : Overlapped) : Prop where
  balanced : (startsOf watched.2 overlapped).length =
    (returnsOf watched.2 overlapped).length + watched.1.inFlight overlapped
  answered : List.Forall₂ Answers
    ((startsOf watched.2 overlapped).take (returnsOf watched.2 overlapped).length)
    (returnsOf watched.2 overlapped)
  single : watched.1.inFlight overlapped ≤ 1
  current : 0 < watched.1.inFlight overlapped →
    (startsOf watched.2 overlapped).getLast? = some (watched.1.fields overlapped)

theorem Tracked.turns {watched after : State Thread Source Overlapped × History Source Overlapped}
    {overlapped : Overlapped} (htracked : Tracked watched overlapped)
    (hturns : Turns watched after overlapped) : Tracked after overlapped := by
  obtain ⟨hbalanced, hanswered, hsingle, hcurrent⟩ := htracked
  cases hturns with
  | keeps hstarts hreturns hflight hfields =>
      refine ⟨?_, ?_, ?_, fun hpos => ?_⟩
      · rw [hstarts, hreturns, hflight, hbalanced]
      · rwa [hstarts, hreturns]
      · rwa [hflight]
      · rw [hflight] at hpos
        rw [hstarts, hfields hpos]
        exact hcurrent hpos
  | begins hidle hstarts hreturns hflight =>
      have hlength : (startsOf watched.2 overlapped).length =
          (returnsOf watched.2 overlapped).length := by omega
      refine ⟨?_, ?_, by omega, fun _ => by rw [hstarts, List.getLast?_concat]⟩
      · rw [hstarts, hreturns, hflight, List.length_append, List.length_singleton, hlength]
      · rw [hstarts, hreturns, List.take_append_of_le_length (by omega)]
        exact hanswered
  | ends returned hanswers hstarts hreturns hflight =>
      have hnone : after.1.inFlight overlapped = 0 := by omega
      have hlength : (startsOf watched.2 overlapped).length =
          (returnsOf watched.2 overlapped).length + 1 := by omega
      refine ⟨?_, ?_, by omega, fun hpos => by omega⟩
      · rw [hstarts, hreturns, hnone, List.length_append, List.length_singleton, hlength]
      · -- the operation that was in flight is the last one started
        obtain ⟨front, hfront⟩ := List.getLast?_eq_some_iff.mp (hcurrent (by omega))
        rw [hfront, List.length_append, List.length_singleton, Nat.add_right_cancel_iff] at hlength
        rw [hfront, ← hlength, List.take_left] at hanswered
        rw [hstarts, hreturns, hfront, List.length_append, List.length_singleton, ← hlength,
          List.take_of_length_le (by simp)]
        exact List.rel_append hanswered (.cons hanswers .nil)

/-! ## Steps -/

omit [DecidableEq Overlapped] [Fintype Thread] in
theorem wait_answers (fields : Overlapped → IocpOverlapped Source) {status : Status Overlapped}
    {overlapped : Overlapped} (hstatus : status.overlapped = some overlapped) :
    Answers (fields overlapped) ⟨status, (wait fields status).1, (wait fields status).2⟩ := by
  cases status with
  | packet packet =>
      cases packet with
      | completed given =>
          obtain rfl : given = some overlapped := hstatus
          exact ⟨rfl, rfl⟩
      | failed given =>
          obtain rfl : given = overlapped := Option.some.inj hstatus
          exact ⟨rfl, rfl⟩
  | timeout | refused => cases hstatus

omit [DecidableEq Overlapped] [Fintype Thread] in
theorem wait_silent (fields : Overlapped → IocpOverlapped Source) {status : Status Overlapped}
    (hstatus : status.overlapped = none) :
    (wait fields status).1 ≤ 0 ∧ (wait fields status).2 = [] := by
  cases status with
  | packet packet =>
      cases packet with
      | completed given =>
          obtain rfl : given = none := hstatus
          exact ⟨le_rfl, rfl⟩
      | failed given => cases hstatus
  | timeout => exact ⟨le_rfl, rfl⟩
  | refused => exact ⟨by simp [wait], rfl⟩

/-- The end of an operation puts its packet into the port. -/
theorem inFlight_complete {state : State Thread Source Overlapped} {ended : Overlapped}
    (hpending : ended ∈ state.pending) (success : Bool) (overlapped : Overlapped) :
    { state with
      pending := state.pending.erase ended
      packets := state.packets ++ [packetOf ended success] }.inFlight overlapped =
        state.inFlight overlapped := by
  have hpacket : (Status.packet (packetOf ended success)).overlapped = some ended := by
    cases success <;> rfl
  have hcount := List.count_pos_iff.mpr hpending
  simp only [State.inFlight, List.map_append, List.count_append, List.map_singleton, hpacket]
  by_cases heq : ended = overlapped
  · subst heq
    rw [List.count_erase_self, List.count_singleton_self]
    omega
  · simp [List.count_erase_of_ne (Ne.symm heq), heq]

variable [DecidableEq Thread]

/-- A thread that moves on trades what it holds. -/
theorem inFlight_setStage (state : State Thread Source Overlapped) (thread : Thread)
    (stage : Stage Overlapped) (overlapped : Overlapped) :
    (state.setStage thread stage).inFlight overlapped + (state.stages thread).holds overlapped =
      state.inFlight overlapped + stage.holds overlapped := by
  have hupdate := total_update (Stage.holds overlapped) state.stages thread stage
  simp only [State.inFlight, State.setStage]
  omega

/-- A thread that holds no structure before and after its step. -/
theorem Turns.of_setStage {state : State Thread Source Overlapped}
    {history : History Source Overlapped} {thread : Thread} {stage : Stage Overlapped}
    {overlapped : Overlapped} (hbefore : (state.stages thread).holds overlapped = 0)
    (hafter : stage.holds overlapped = 0) :
    Turns (state, history) (state.setStage thread stage, history) overlapped := by
  refine .keeps rfl rfl ?_ fun _ => rfl
  have hstage := inFlight_setStage state thread stage overlapped
  rwa [hbefore, hafter] at hstage

/-- A thread takes the first packet. -/
theorem inFlight_dequeue {state : State Thread Source Overlapped} {thread : Thread}
    {packet : Packet Overlapped} {rest : List (Packet Overlapped)}
    (hstage : state.stages thread = .waiting) (hpackets : state.packets = packet :: rest)
    (overlapped : Overlapped) :
    ({ state with packets := rest }.setStage thread (.fetched (.packet packet))).inFlight
        overlapped = state.inFlight overlapped := by
  have htrade := inFlight_setStage { state with packets := rest } thread
    (.fetched (.packet packet)) overlapped
  simp only [hstage, Stage.holds] at htrade
  simp only [State.inFlight, hpackets, List.map_cons, List.count_cons, beq_iff_eq] at htrade ⊢
  omega

/-- A call of `wait` that returns reports the operation it holds. -/
theorem Turns.of_report {state : State Thread Source Overlapped}
    (history : History Source Overlapped) {thread : Thread} {status : Status Overlapped}
    (hstage : state.stages thread = .fetched status) (overlapped : Overlapped) :
    Turns (state, history) (state.setStage thread .outside,
      record history state (.report thread) (state.setStage thread .outside)) overlapped := by
  have htrade := inFlight_setStage state thread .outside overlapped
  simp only [hstage, Stage.holds] at htrade
  by_cases hheld : status.overlapped = some overlapped
  · refine .ends _ (wait_answers state.fields hheld) ?_ ?_ ?_
    · simp [startsOf, record, hstage]
    · simp [returnsOf, record, hstage, hheld]
    · simp only [hheld, if_true] at htrade
      exact htrade.symm
  · refine .keeps ?_ ?_ ?_ fun _ => rfl
    · simp [startsOf, record, hstage]
    · simp [returnsOf, record, hstage, hheld]
    · simpa [hheld] using htrade

theorem turns_of_step {opened : Bool} {fields : Overlapped → IocpOverlapped Source}
    {watched after : State Thread Source Overlapped × History Source Overlapped}
    {action : Action Thread Source Overlapped} (huntouched : Untouched watched action)
    (hstep : (recorded Thread Source Overlapped opened fields).step watched action = some after)
    (overlapped : Overlapped) : Turns watched after overlapped := by
  obtain ⟨state, history⟩ := watched
  obtain ⟨hnext, hrecord⟩ := Machine.recording_step hstep
  obtain ⟨next, later⟩ := after
  simp only [machine] at hnext hrecord
  subst hrecord
  cases action with
  | fill other content =>
      cases hnext
      refine .keeps rfl rfl rfl fun hpos => ?_
      have hne : overlapped ≠ other := by
        rintro rfl
        exact absurd huntouched (Nat.pos_iff_ne_zero.mp hpos)
      exact Function.update_of_ne hne _ _
  | start other handle =>
      simp only [step] at hnext
      split at hnext
      next =>
        cases hnext
        by_cases heq : other = overlapped
        · subst heq
          have hidle : state.inFlight other = 0 := huntouched
          refine .begins hidle (by simp [startsOf, record]) rfl ?_
          simp only [State.inFlight, List.count_cons_self] at hidle ⊢
          omega
        · refine .keeps (by simp [startsOf, record, heq]) rfl ?_ fun _ => rfl
          simp only [State.inFlight, List.count_cons_of_ne heq]
      next => cases hnext
  | complete other success =>
      simp only [step] at hnext
      split at hnext
      next hpending =>
        cases hnext
        exact .keeps rfl rfl (inFlight_complete hpending success overlapped) fun _ => rfl
      next => cases hnext
  | post =>
      simp only [step] at hnext
      split at hnext
      next =>
        cases hnext
        refine .keeps rfl rfl ?_ fun _ => rfl
        simp [State.inFlight, Status.overlapped]
      next => cases hnext
  | call call =>
      cases hnext
      exact .keeps rfl rfl rfl fun _ => rfl
  | wait thread =>
      simp only [step] at hnext
      split at hnext
      next hstage =>
        cases hnext
        exact .of_setStage (by rw [hstage]; rfl) rfl
      next => cases hnext
  | dequeue thread =>
      simp only [step] at hnext
      split at hnext
      next hstage =>
        split at hnext
        next => cases hnext
        next packet rest hpackets =>
          cases hnext
          exact .keeps rfl rfl (inFlight_dequeue hstage hpackets overlapped) fun _ => rfl
      next => cases hnext
  | expire thread | refuse thread =>
      simp only [step] at hnext
      split at hnext
      next hstage =>
        cases hnext
        exact .of_setStage (by rw [hstage]; rfl) rfl
      next => cases hnext
  | report thread =>
      simp only [step] at hnext
      split at hnext
      next status hstage =>
        cases hnext
        exact .of_report history hstage overlapped
      next => cases hnext

omit [DecidableEq Overlapped] [Fintype Thread] [DecidableEq Thread] in
theorem silent_of_record {state next : State Thread Source Overlapped}
    {history : History Source Overlapped} (action : Action Thread Source Overlapped)
    (hsilent : ∀ returned ∈ history.returns, returned.status.overlapped = none →
      returned.count ≤ 0 ∧ returned.events = []) :
    ∀ returned ∈ (record history state action next).returns,
      returned.status.overlapped = none → returned.count ≤ 0 ∧ returned.events = [] := by
  intro returned hreturned hnone
  cases action with
  | report thread =>
      cases hstage : state.stages thread with
      | fetched status =>
          simp only [record, hstage, List.mem_append, List.mem_singleton] at hreturned
          rcases hreturned with hold | rfl
          · exact hsilent returned hold hnone
          · exact wait_silent state.fields hnone
      | outside | waiting =>
          simp only [record, hstage] at hreturned
          exact hsilent returned hreturned hnone
  | fill | start | complete | post | call | wait | dequeue | expire | refuse =>
      exact hsilent returned hreturned hnone

end Operations

variable [DecidableEq Thread] [DecidableEq Overlapped]

/-- No completion is lost, reported twice or mistaken for another one. In every run
in which structures are left alone while their operations are in flight, whatever
the threads in `wait` do, every operation is in flight or was reported by one call
of `wait`, with what was in its structure when it was started. -/
theorem attributed_along [Fintype Thread] (opened : Bool)
    (fields : Overlapped → IocpOverlapped Source)
    (actions : List (Action Thread Source Overlapped))
    (huntouched : (recorded Thread Source Overlapped opened fields).Meets Untouched
      (recorded Thread Source Overlapped opened fields).start actions) :
    (recorded Thread Source Overlapped opened fields).Along Attributed
      (recorded Thread Source Overlapped opened fields).start actions := by
  refine Machine.along_of_meets (fun watched => (∀ overlapped, Tracked watched overlapped) ∧
      ∀ returned ∈ watched.2.returns, returned.status.overlapped = none →
        returned.count ≤ 0 ∧ returned.events = []) ?_ ?_ ?_ huntouched
  · rintro watched action after ⟨htracked, hsilent⟩ hcondition hstep
    refine ⟨fun overlapped => (htracked overlapped).turns
      (turns_of_step hcondition hstep overlapped), ?_⟩
    rw [(Machine.recording_step hstep).2]
    exact silent_of_record action hsilent
  · rintro watched ⟨htracked, hsilent⟩
    exact ⟨fun overlapped => (htracked overlapped).balanced,
      fun overlapped => (htracked overlapped).answered, hsilent⟩
  · have hnone : ∀ overlapped : Overlapped,
        (initial opened fields : State Thread Source Overlapped).inFlight overlapped = 0 :=
      fun overlapped => by
        simp only [State.inFlight, initial, List.count_nil, List.map_nil, Nat.zero_add]
        exact total_eq_zero fun _ => rfl
    refine ⟨fun overlapped => ⟨?_, .nil, ?_, fun hpos => ?_⟩, by simp [recorded, machine,
      Machine.recording]⟩
    · simp [recorded, Machine.recording, machine, hnone, startsOf, returnsOf]
    · simp [recorded, Machine.recording, machine, hnone]
    · simp [recorded, Machine.recording, machine, hnone] at hpos

/-- A structure that is used again: its first operation fails, its second one ends. -/
def reuse : List (Action Unit Nat Nat) :=
  [.call (.register (some 3) 40 0 false), .fill 0 ⟨3, EventType.read⟩, .start 0 40, .wait (),
    .complete 0 false, .dequeue (), .report (), .fill 0 ⟨3, EventType.write⟩, .start 0 40,
    .complete 0 true, .wait (), .dequeue (), .report ()]

theorem reuse_attributed :
    ((recorded Unit Nat Nat true fun _ => ⟨0, 0⟩).exec
        (recorded Unit Nat Nat true fun _ => ⟨0, 0⟩).start reuse).map
          (fun final => final.2.returns.map Returned.events) =
        some [[⟨3, EventType.error⟩], [⟨3, EventType.write⟩]] ∧
      (recorded Unit Nat Nat true fun _ => ⟨0, 0⟩).Along Attributed
        (recorded Unit Nat Nat true fun _ => ⟨0, 0⟩).start reuse :=
  ⟨by decide, attributed_along true (fun _ => ⟨0, 0⟩) reuse (by decide)⟩

end Tang.EventLoop.Iocp
