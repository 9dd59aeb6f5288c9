import Tang.Foundation.History
import Tang.Foundation.Simulation
import Tang.Channel.Accounting
import Tang.Channel.Parametric
import Tang.Runtime.Access

/-! # Every run of a program, seen on one channel

A program with any number of threads, coroutines, tasks and channels does on
each of its channels what some interleaving of operations does on a channel of
its own. The operations are numbered as they begin; an operation gets the name
under which the program knows it when it is done with the channel, since the
await that a registration writes down is the latest one of its coroutine. The
facts about interleavings thereby hold of the channels of every program.
-/

namespace Tang.Runtime

open Foundation Effect

variable {Thread V Chan : Type}

/-! ## What is recorded of a channel -/

/-- The values send operations began with, and what the channel did outside. -/
structure Record (V : Type) where
  offered : List V := []
  signals : List (Signal V) := []
  deriving DecidableEq

/-- One more step, given its access to the channel. -/
def Record.add (record : Record V) (conduit : Conduit V) : Option (Access V) → Record V
  | none => record
  | some access =>
      { offered := record.offered ++ access.offered
        signals := record.signals ++ access.signals conduit }

/-- The runs of all programs, with the accesses to one channel on record. -/
def observing (Thread V Chan : Type) [DecidableEq Thread] [DecidableEq Chan]
    (capacity : Chan → Nat) (chan : Chan) :
    Machine (State Thread V Chan × Record V) (Action Thread V Chan) :=
  (machine Thread V Chan capacity).recording {} fun record state action _ =>
    record.add (state.channels chan) (action.access chan state)

section Offers

variable {Op : Type}

/-- The value with which a send begins. -/
@[simp] def offer? : Interleaving.Event Op V → Option V
  | .beganSend _ value => some value
  | .beganRecv _ | .beganClose _ | .registered _ | .effect _ => none
  | .sendReturned _ _ | .recvReturned _ _ | .closeReturned _ => none

/-- The values with which the sends of an interleaving began. -/
def offers (log : List (Interleaving.Event Op V)) : List V :=
  log.filterMap offer?

@[simp] theorem offers_nil : offers ([] : List (Interleaving.Event Op V)) = [] := rfl

@[simp] theorem offers_cons (event : Interleaving.Event Op V)
    (log : List (Interleaving.Event Op V)) :
    offers (event :: log) = (offer? event).toList ++ offers log := by
  cases hevent : offer? event <;> simp only [offers, List.filterMap_cons, hevent] <;> rfl

@[simp] theorem offers_append (first second : List (Interleaving.Event Op V)) :
    offers (first ++ second) = offers first ++ offers second :=
  List.filterMap_append

@[simp] theorem offers_effects (list : List (Effect Op Op (Item Op V))) :
    offers (list.map .effect) = [] := by
  induction list with
  | nil => rfl
  | cons effect rest ih => exact ih

end Offers

/-! ## Names -/

/-- The name of an operation: the await behind it, if there is one. -/
abbrev Naming := Nat → Option (Option Ticket)

/-- What the numbers of the operations stand for. -/
def Naming.names (naming : Naming) (V : Type) :
    Correspondence Nat Nat (Item Nat V) Handle (Option Ticket) (Item (Option Ticket) V) where
  handle op handle := ∃ serial, naming op = some (some ⟨handle, serial⟩)
  awaiter op awaiter := naming op = some awaiter
  value item other := item.value = other.value ∧ naming item.op = some other.op

/-- Giving a name to an operation without one keeps all other names. -/
theorem Naming.within {naming : Naming} {op : Nat} (hnone : naming op = none)
    (name : Option Ticket) :
    (naming.names V).Within (Naming.names (Function.update naming op (some name)) V) := by
  have hkeep : ∀ other found, naming other = some found →
      Function.update naming op (some name) other = some found := by
    intro other found hfound
    rw [Function.update_of_ne, hfound]
    rintro rfl
    rw [hnone] at hfound
    cases hfound
  constructor
  case handle => exact fun one other ⟨serial, hname⟩ => ⟨serial, hkeep _ _ hname⟩
  case awaiter => exact fun one other hname => hkeep _ _ hname
  case value => exact fun one other ⟨hvalue, hname⟩ => ⟨hvalue, hkeep _ _ hname⟩

/-- Only operations that are done with the channel have a name, and there is
always another operation that has not begun. -/
structure Named (phases : Nat → Interleaving.Phase V) (naming : Naming) : Prop where
  unnamed : ∀ op, (phases op).finished = false → naming op = none
  supply : ∃ bound, ∀ op, bound ≤ op → phases op = .fresh

namespace Named

variable {phases : Nat → Interleaving.Phase V} {naming : Naming}

theorem supplies (hnamed : Named phases naming) {op : Nat} (phase : Interleaving.Phase V) :
    ∃ bound, ∀ other, bound ≤ other → Function.update phases op phase other = .fresh := by
  obtain ⟨bound, hbound⟩ := hnamed.supply
  refine ⟨max bound (op + 1), fun other hother => ?_⟩
  rw [Function.update_of_ne (by omega), hbound other (by omega)]

theorem fresh (hnamed : Named phases naming) : ∃ op, phases op = .fresh ∧ naming op = none := by
  obtain ⟨bound, hbound⟩ := hnamed.supply
  have hfresh := hbound bound (Nat.le_refl bound)
  exact ⟨bound, hfresh, hnamed.unnamed bound (by rw [hfresh]; rfl)⟩

/-- An operation moves on, and keeps without a name. -/
theorem moves (hnamed : Named phases naming) {op : Nat} (hnone : naming op = none)
    (phase : Interleaving.Phase V) : Named (Function.update phases op phase) naming where
  unnamed other hother := by
    by_cases heq : other = op
    · rw [heq, hnone]
    · rw [Function.update_of_ne heq] at hother
      exact hnamed.unnamed other hother
  supply := hnamed.supplies phase

/-- An operation is done, and gets its name. -/
theorem finishes (hnamed : Named phases naming) {op : Nat} {phase : Interleaving.Phase V}
    (hfinished : phase.finished = true) (name : Option Ticket) :
    Named (Function.update phases op phase) (Function.update naming op (some name)) where
  unnamed other hother := by
    by_cases heq : other = op
    · rw [heq, Function.update_self, hfinished] at hother
      cases hother
    · rw [Function.update_of_ne heq] at hother ⊢
      exact hnamed.unnamed other hother
  supply := hnamed.supplies phase

end Named

/-! ## Numbers of pending operations -/

section Labels

variable {pending pending' : Place Thread → Option (Interleaving.Phase V)}
  {phases : Nat → Interleaving.Phase V} {label : Place Thread → Nat} {place : Place Thread}
  {op : Nat} {phase held : Interleaving.Phase V}

/-- The operation pending at a place has a number of its own. -/
structure Labelled (pending : Place Thread → Option (Interleaving.Phase V))
    (phases : Nat → Interleaving.Phase V) (label : Place Thread → Nat) : Prop where
  phase_eq : ∀ place phase, pending place = some phase → phases (label place) = phase
  active : ∀ place phase, pending place = some phase → phase.finished = false ∧ phase ≠ .fresh
  apart : ∀ one other, (pending one).isSome → (pending other).isSome →
    label one = label other → one = other

namespace Labelled

/-- A pending operation is not one that has yet to begin. -/
theorem ne_of_fresh (hlabelled : Labelled pending phases label) (hfresh : phases op = .fresh)
    (hpending : pending place = some held) : label place ≠ op := by
  intro heq
  have hphase := hlabelled.phase_eq place held hpending
  rw [heq, hfresh] at hphase
  exact (hlabelled.active place held hpending).2 hphase.symm

/-- Another operation begins and ends in one step. -/
theorem keeps (hlabelled : Labelled pending phases label) (hkeeps : pending' = pending)
    (hfresh : phases op = .fresh) (phase : Interleaving.Phase V) :
    Labelled pending' (Function.update phases op phase) label := by
  subst hkeeps
  refine ⟨fun place found hfound => ?_, hlabelled.active, hlabelled.apart⟩
  rw [Function.update_of_ne (hlabelled.ne_of_fresh hfresh hfound)]
  exact hlabelled.phase_eq place found hfound

variable [DecidableEq Thread]

theorem gains (hlabelled : Labelled pending phases label)
    (hgains : pending' = Function.update pending place (some phase)) (hfresh : phases op = .fresh)
    (hphase : phase.finished = false ∧ phase ≠ .fresh) :
    Labelled pending' (Function.update phases op phase) (Function.update label place op) := by
  subst hgains
  constructor
  case phase_eq =>
    intro other found hfound
    by_cases heq : other = place
    · subst other
      rw [Function.update_self] at hfound
      rw [Function.update_self, Function.update_self, Option.some.inj hfound]
    · rw [Function.update_of_ne heq] at hfound
      rw [Function.update_of_ne heq, Function.update_of_ne (hlabelled.ne_of_fresh hfresh hfound)]
      exact hlabelled.phase_eq other found hfound
  case active =>
    intro other found hfound
    by_cases heq : other = place
    · rw [heq, Function.update_self] at hfound
      rwa [← Option.some.inj hfound]
    · rw [Function.update_of_ne heq] at hfound
      exact hlabelled.active other found hfound
  case apart =>
    intro one other hone hother hsame
    by_cases hfirst : one = place
    · by_cases hsecond : other = place
      · rw [hfirst, hsecond]
      · rw [Function.update_of_ne hsecond] at hother
        obtain ⟨found, hfound⟩ := Option.isSome_iff_exists.mp hother
        rw [hfirst, Function.update_self, Function.update_of_ne hsecond] at hsame
        exact absurd hsame.symm (hlabelled.ne_of_fresh hfresh hfound)
    · rw [Function.update_of_ne hfirst] at hone
      obtain ⟨found, hfound⟩ := Option.isSome_iff_exists.mp hone
      by_cases hsecond : other = place
      · rw [hsecond, Function.update_self, Function.update_of_ne hfirst] at hsame
        exact absurd hsame (hlabelled.ne_of_fresh hfresh hfound)
      · rw [Function.update_of_ne hsecond] at hother
        rw [Function.update_of_ne hfirst, Function.update_of_ne hsecond] at hsame
        exact hlabelled.apart one other hone hother hsame

theorem loses (hlabelled : Labelled pending phases label) (hheld : pending place = some held)
    (hloses : pending' = Function.update pending place none) (phase : Interleaving.Phase V) :
    Labelled pending' (Function.update phases (label place) phase) label := by
  subst hloses
  have hother : ∀ other found, Function.update pending place none other = some found →
      other ≠ place ∧ pending other = some found := by
    intro other found hfound
    by_cases heq : other = place
    · rw [heq, Function.update_self] at hfound
      cases hfound
    · rw [Function.update_of_ne heq] at hfound
      exact ⟨heq, hfound⟩
  constructor
  case phase_eq =>
    intro other found hfound
    obtain ⟨hne, hpending⟩ := hother other found hfound
    rw [Function.update_of_ne, hlabelled.phase_eq other found hpending]
    exact fun heq => hne (hlabelled.apart other place (by rw [hpending]; rfl)
      (by rw [hheld]; rfl) heq)
  case active =>
    exact fun other found hfound => hlabelled.active other found (hother other found hfound).2
  case apart =>
    intro one other hone htwo
    obtain ⟨found, hfound⟩ := Option.isSome_iff_exists.mp hone
    obtain ⟨another, hanother⟩ := Option.isSome_iff_exists.mp htwo
    exact hlabelled.apart one other (by rw [(hother _ _ hfound).2]; rfl)
      (by rw [(hother _ _ hanother).2]; rfl)

end Labelled

end Labels

/-! ## The simulation -/

section Projects

variable [DecidableEq Chan] {chan : Chan}

/-- The interleaving does on its channel what the program has done on `chan`. -/
structure Projects (chan : Chan) (watched : State Thread V Chan × Record V)
    (view : Interleaving.State Nat V) (naming : Naming) (label : Place Thread → Nat) : Prop where
  channel : view.channel.Related (naming.names V) (watched.1.channels chan)
  signals : List.Forall₂ (Effect.Related (naming.names V)) (Interleaving.effects view.log)
    watched.2.signals
  offered : offers view.log = watched.2.offered
  labelled : Labelled (pendingAt chan watched.1.callStacks) view.phase label
  named : Named view.phase naming

/-- The program and the interleaving agree, up to names. -/
def Projected (chan : Chan) (watched : State Thread V Chan × Record V)
    (view : Interleaving.State Nat V) : Prop :=
  ∃ naming label, Projects chan watched view naming label

theorem initial_projected (capacity : Chan → Nat) (chan : Chan) :
    Projected chan ((initial capacity, {}) : State Thread V Chan × Record V)
      (Interleaving.initial (capacity chan)) := by
  have hnone : ∀ place, pendingAt chan (initial capacity : State Thread V Chan).callStacks place =
      none := fun place => settled_nil.pendingIn place.2
  exact ⟨fun _ => none, fun _ => 0, .new _, .nil, rfl, ⟨by simp [hnone], by simp [hnone],
    by simp [hnone]⟩, ⟨fun _ _ => rfl, 0, fun _ _ => rfl⟩⟩

variable {watched : State Thread V Chan × Record V} {next : State Thread V Chan}
  {view : Interleaving.State Nat V} {naming naming' : Naming} {label label' : Place Thread → Nat}
  {op : Nat} {phase : Interleaving.Phase V} {access : Access V}

/-- One operation moves on in the interleaving as the program does. -/
theorem Projects.advance (hprojects : Projects chan watched view naming label)
    (hwithin : (naming.names V).Within (naming'.names V))
    {channel : Channel Nat Nat (Item Nat V)} {events : List (Interleaving.Event Nat V)}
    (hnext : next.channels chan = access.channel (watched.1.channels chan))
    (hchannel : channel.Related (naming'.names V) (access.channel (watched.1.channels chan)))
    (hsignals : List.Forall₂ (Effect.Related (naming'.names V)) (Interleaving.effects events)
      (access.signals (watched.1.channels chan)))
    (hoffered : offers events = access.offered)
    (hlabelled : Labelled (pendingAt chan next.callStacks) (Function.update view.phase op phase)
      label')
    (hnamed : Named (Function.update view.phase op phase) naming') :
    Projected chan (next, watched.2.add (watched.1.channels chan) (some access))
      (view.advance op phase channel events) := by
  refine ⟨naming', label', hnext ▸ hchannel, ?_, ?_, hlabelled, hnamed⟩
  · rw [Interleaving.State.advance_log, Interleaving.effects_append]
    exact List.rel_append (hprojects.signals.imp fun _ _ heffect => heffect.mono hwithin) hsignals
  · rw [Interleaving.State.advance_log, offers_append, hprojects.offered, hoffered]
    rfl

/-! ### The accesses, one by one -/

/-- A run of one step. -/
theorem exec_single {capacity : Nat} {command : Interleaving.Action Nat V}
    {after : Interleaving.State Nat V} (hstep : Interleaving.step view command = some after) :
    (Interleaving.machine Nat V capacity).exec view [command] = some after := by
  simp [Machine.exec, Interleaving.machine, hstep]

/-- What an operation with a new name sends corresponds to what the program sends. -/
theorem Naming.names_value (naming : Naming) (op : Nat) (item : Item (Option Ticket) V) :
    (Naming.names (Function.update naming op (some item.op)) V).value ⟨op, item.value⟩ item :=
  ⟨rfl, Function.update_self ..⟩

theorem Projects.attempts (hprojects : Projects chan watched view naming label)
    (hattempts : access.Attempts)
    (hnext : next.channels chan = access.channel (watched.1.channels chan))
    (hkeeps : Keeps chan watched.1.callStacks next.callStacks) (capacity : Nat) :
    ∃ commands after, (Interleaving.machine Nat V capacity).exec view commands = some after ∧
      Projected chan (next, watched.2.add (watched.1.channels chan) (some access)) after := by
  obtain ⟨op, hfresh, hnone⟩ := hprojects.named.fresh
  have hlabelled := hprojects.labelled.keeps hkeeps hfresh .returned
  cases access with
  | trySend item =>
      have hwithin := Naming.within (V := V) hnone item.op
      have hstep : Interleaving.step view (.trySend op item.value) =
          some (view.sendReturns op item.value (view.channel.trySend ⟨op, item.value⟩)) := by
        simp only [Interleaving.step, hfresh]
      have hvalue := naming.names_value op item
      have hrelated := (hprojects.channel.mono hwithin).trySendWith hvalue (.some hvalue)
      refine ⟨_, _, exec_single hstep, hprojects.advance hwithin hnext hrelated.channel ?_ ?_
        hlabelled (hprojects.named.finishes rfl _)⟩
      · simpa [Channel.trySend, Access.signals] using hrelated.effects
      · simp [Access.offered]
  | trySendMove item =>
      have hwithin := Naming.within (V := V) hnone item.op
      have hstep : Interleaving.step view (.trySendMove op item.value) =
          some (view.sendReturns op item.value (view.channel.trySendMove ⟨op, item.value⟩)) := by
        simp only [Interleaving.step, hfresh]
      have hvalue := naming.names_value op item
      have hrelated := (hprojects.channel.mono hwithin).trySendWith hvalue .none
      refine ⟨_, _, exec_single hstep, hprojects.advance hwithin hnext hrelated.channel ?_ ?_
        hlabelled (hprojects.named.finishes rfl _)⟩
      · simpa [Channel.trySendMove, Access.signals] using hrelated.effects
      · simp [Access.offered]
  | tryRecv reader =>
      have hwithin := Naming.within (V := V) hnone reader
      have hstep : Interleaving.step view (.tryRecv op) =
          some (view.recvReturns op (view.channel.tryRecv op none)) := by
        simp only [Interleaving.step, hfresh]
      have hreader : (Naming.names (Function.update naming op (some reader)) V).awaiter op
        reader := Function.update_self ..
      have hrelated := (hprojects.channel.mono hwithin).tryRecv hreader .none
      refine ⟨_, _, exec_single hstep, hprojects.advance hwithin hnext hrelated.channel ?_ ?_
        hlabelled (hprojects.named.finishes rfl _)⟩
      · simpa [Access.signals] using hrelated.effects
      · simp [Access.offered]
  | registerSend | registerRecv | exchange | flush => exact hattempts.elim

variable {place : Place Thread} [DecidableEq Thread]

/-- An attempt that fails has failed in the interleaving too, and leaves its
operation without a name. -/
theorem Projects.triesSend (hprojects : Projects chan watched view naming label)
    {item : Item (Option Ticket) V}
    (hfails : ((watched.1.channels chan).trySend item).result.1 = false)
    (hnext : next.channels chan = (Access.trySend item).channel (watched.1.channels chan))
    (hgains : Gains chan watched.1.callStacks next.callStacks place (.sendTried item.value))
    (capacity : Nat) :
    ∃ commands after, (Interleaving.machine Nat V capacity).exec view commands = some after ∧
      Projected chan (next, watched.2.add (watched.1.channels chan) (some (.trySend item)))
        after := by
  obtain ⟨op, hfresh, hnone⟩ := hprojects.named.fresh
  have hvalue := naming.names_value op item
  have hrelated := (hprojects.channel.mono (Naming.within hnone item.op)).trySendWith hvalue
    (.some hvalue)
  have hout := (watched.1.channels chan).failed_attempt_keeps.1 item hfails
  have hview := view.channel.failed_attempt_keeps.1 ⟨op, item.value⟩
    (hrelated.result.1.trans hfails)
  have hstep : Interleaving.step view (.sendReady op item.value) =
      some (view.advance op (.sendTried item.value) view.channel
        [.beganSend op item.value]) := by
    simp [Interleaving.step, hfresh, Interleaving.State.sendAwaits, hview]
  refine ⟨_, _, exec_single hstep, hprojects.advance (.refl _) hnext ?_ ?_ ?_
    (hprojects.labelled.gains hgains hfresh (by simp [Interleaving.Phase.finished]))
    (hprojects.named.moves hnone _)⟩
  · simpa [Access.channel, hout] using hprojects.channel
  · simp [Access.signals, hout]
  · simp [Access.offered]

theorem Projects.triesRecv (hprojects : Projects chan watched view naming label)
    {reader : Option Ticket}
    (hfails : ((watched.1.channels chan).tryRecv reader none).result.1 = false)
    (hnext : next.channels chan = (Access.tryRecv reader).channel (watched.1.channels chan))
    (hgains : Gains chan watched.1.callStacks next.callStacks place .recvTried)
    (capacity : Nat) :
    ∃ commands after, (Interleaving.machine Nat V capacity).exec view commands = some after ∧
      Projected chan (next, watched.2.add (watched.1.channels chan) (some (.tryRecv reader)))
        after := by
  obtain ⟨op, hfresh, hnone⟩ := hprojects.named.fresh
  have hreader : (Naming.names (Function.update naming op (some reader)) V).awaiter op reader :=
    Function.update_self ..
  have hrelated := (hprojects.channel.mono (Naming.within hnone reader)).tryRecv hreader .none
  have hout := (watched.1.channels chan).failed_attempt_keeps.2.2 reader none hfails
  have hview := view.channel.failed_attempt_keeps.2.2 op none (hrelated.result.1.trans hfails)
  have hstep : Interleaving.step view (.recvReady op) =
      some (view.advance op .recvTried view.channel [.beganRecv op]) := by
    simp [Interleaving.step, hfresh, Interleaving.State.recvAwaits, hview]
  refine ⟨_, _, exec_single hstep, hprojects.advance (.refl _) hnext ?_ ?_ ?_
    (hprojects.labelled.gains hgains hfresh (by simp [Interleaving.Phase.finished]))
    (hprojects.named.moves hnone _)⟩
  · simpa [Access.channel, hout] using hprojects.channel
  · simp [Access.signals, hout]
  · simp [Access.offered]

omit [DecidableEq Thread] in
/-- A pending operation has no name yet. -/
theorem Projects.unnamed (hprojects : Projects chan watched view naming label)
    {held : Interleaving.Phase V}
    (hpending : pendingAt chan watched.1.callStacks place = some held) :
    view.phase (label place) = held ∧ naming (label place) = none := by
  have hphase := hprojects.labelled.phase_eq place held hpending
  refine ⟨hphase, hprojects.named.unnamed _ ?_⟩
  rw [hphase]
  exact (hprojects.labelled.active place held hpending).1

/-- A registration gives its operation the name it writes down. -/
theorem Projects.registersSend (hprojects : Projects chan watched view naming label)
    {handle : Handle} {serial : Nat} {value : V}
    (hnext : next.channels chan = (Access.registerSend handle
      ⟨some ⟨handle, serial⟩, value⟩).channel (watched.1.channels chan))
    (hloses : Loses chan watched.1.callStacks next.callStacks place (.sendTried value))
    (capacity : Nat) :
    ∃ commands after, (Interleaving.machine Nat V capacity).exec view commands = some after ∧
      Projected chan (next, watched.2.add (watched.1.channels chan)
        (some (.registerSend handle ⟨some ⟨handle, serial⟩, value⟩))) after := by
  obtain ⟨hphase, hnone⟩ := hprojects.unnamed hloses.here
  have hwithin := Naming.within (V := V) hnone (some ⟨handle, serial⟩)
  have hstep : Interleaving.step view (.sendSuspend (label place)) =
      some (view.suspends (label place)
        (view.channel.registerSendWaiter (label place) ⟨label place, value⟩)) := by
    simp only [Interleaving.step, hphase]
  have hvalue := naming.names_value (label place) ⟨some ⟨handle, serial⟩, value⟩
  have hrelated := (hprojects.channel.mono hwithin).registerSendWaiter
    ⟨serial, Function.update_self ..⟩ hvalue
  refine ⟨_, _, exec_single hstep, hprojects.advance hwithin hnext hrelated.channel ?_ ?_
    (hprojects.labelled.loses hloses.here hloses.others _) (hprojects.named.finishes rfl _)⟩
  · simpa [Access.signals] using hrelated.effects
  · simp [Access.offered]

theorem Projects.registersRecv (hprojects : Projects chan watched view naming label)
    {handle : Handle} {serial : Nat}
    (hnext : next.channels chan = (Access.registerRecv handle
      (some ⟨handle, serial⟩)).channel (watched.1.channels chan))
    (hloses : Loses chan watched.1.callStacks next.callStacks place .recvTried)
    (capacity : Nat) :
    ∃ commands after, (Interleaving.machine Nat V capacity).exec view commands = some after ∧
      Projected chan (next, watched.2.add (watched.1.channels chan)
        (some (.registerRecv handle (some ⟨handle, serial⟩)))) after := by
  obtain ⟨hphase, hnone⟩ := hprojects.unnamed hloses.here
  have hwithin := Naming.within (V := V) hnone (some ⟨handle, serial⟩)
  have hstep : Interleaving.step view (.recvSuspend (label place)) =
      some (view.suspends (label place)
        (view.channel.registerRecvWaiter (label place) (label place))) := by
    simp only [Interleaving.step, hphase]
  have hrelated := (hprojects.channel.mono hwithin).registerRecvWaiter
    ⟨serial, Function.update_self ..⟩ (Function.update_self ..)
  refine ⟨_, _, exec_single hstep, hprojects.advance hwithin hnext hrelated.channel ?_ ?_
    (hprojects.labelled.loses hloses.here hloses.others _) (hprojects.named.finishes rfl _)⟩
  · simpa [Access.signals] using hrelated.effects
  · simp [Access.offered]

theorem Projects.exchanges (hprojects : Projects chan watched view naming label)
    (hopen : (watched.1.channels chan).closed = false)
    (hnext : next.channels chan = Access.exchange.channel (watched.1.channels chan))
    (hgains : Gains chan watched.1.callStacks next.callStacks place .closing)
    (capacity : Nat) :
    ∃ commands after, (Interleaving.machine Nat V capacity).exec view commands = some after ∧
      Projected chan (next, watched.2.add (watched.1.channels chan) (some .exchange)) after := by
  obtain ⟨op, hfresh, hnone⟩ := hprojects.named.fresh
  have hresult : view.channel.closeExchange.result = false :=
    hprojects.channel.closed.trans hopen
  have hstep : Interleaving.step view (.closeExchange op) =
      some (view.advance op .closing view.channel.closeExchange.channel [.beganClose op]) := by
    simp [Interleaving.step, hfresh, Interleaving.State.exchanges, hresult]
  exact ⟨_, _, exec_single hstep, hprojects.advance (.refl _) hnext
    hprojects.channel.closeExchange.channel (by simp [Access.signals]) (by simp [Access.offered])
    (hprojects.labelled.gains hgains hfresh (by simp [Interleaving.Phase.finished]))
    (hprojects.named.moves hnone _)⟩

omit [DecidableEq Thread] in
theorem Projects.exchangesClosed (hprojects : Projects chan watched view naming label)
    (hclosed : (watched.1.channels chan).closed = true)
    (hnext : next.channels chan = Access.exchange.channel (watched.1.channels chan))
    (hkeeps : Keeps chan watched.1.callStacks next.callStacks) (capacity : Nat) :
    ∃ commands after, (Interleaving.machine Nat V capacity).exec view commands = some after ∧
      Projected chan (next, watched.2.add (watched.1.channels chan) (some .exchange)) after := by
  obtain ⟨op, hfresh, hnone⟩ := hprojects.named.fresh
  have hresult : view.channel.closeExchange.result = true :=
    hprojects.channel.closed.trans hclosed
  have hstep : Interleaving.step view (.closeExchange op) =
      some (view.advance op .returned view.channel.closeExchange.channel
        [.beganClose op, .closeReturned op]) := by
    simp [Interleaving.step, hfresh, Interleaving.State.exchanges, hresult]
  exact ⟨_, _, exec_single hstep, hprojects.advance (.refl _) hnext
    hprojects.channel.closeExchange.channel (by simp [Access.signals]) (by simp [Access.offered])
    (hprojects.labelled.keeps hkeeps hfresh _) (hprojects.named.moves hnone _)⟩

theorem Projects.flushes (hprojects : Projects chan watched view naming label)
    (hnext : next.channels chan = Access.flush.channel (watched.1.channels chan))
    (hloses : Loses chan watched.1.callStacks next.callStacks place .closing) (capacity : Nat) :
    ∃ commands after, (Interleaving.machine Nat V capacity).exec view commands = some after ∧
      Projected chan (next, watched.2.add (watched.1.channels chan) (some .flush)) after := by
  obtain ⟨hphase, hnone⟩ := hprojects.unnamed hloses.here
  have hstep : Interleaving.step view (.closeFlush (label place)) =
      some (view.flushes (label place) view.channel.closeFlush) := by
    simp only [Interleaving.step, hphase]
  have hrelated := hprojects.channel.closeFlush
  refine ⟨_, _, exec_single hstep, hprojects.advance (.refl _) hnext hrelated.channel ?_ ?_
    (hprojects.labelled.loses hloses.here hloses.others _) (hprojects.named.moves hnone _)⟩
  · simpa [Access.signals] using hrelated.effects
  · simp [Access.offered]

end Projects

/-! ## Runs -/

section Runs

variable [DecidableEq Thread] [DecidableEq Chan] {capacity : Chan → Nat} {chan : Chan}

/-- Every step of the program is at most one step of the interleaving. -/
theorem observing_simulates (capacity : Chan → Nat) (chan : Chan) :
    (observing Thread V Chan capacity chan).Simulates
      (Interleaving.machine Nat V (capacity chan)) (Projected chan) := by
  rintro watched action ⟨next, record⟩ view ⟨naming, label, hprojects⟩ hstep
  obtain ⟨hmachine, hrecord⟩ := Machine.recording_step hstep
  change record = watched.2.add (watched.1.channels chan) (action.access chan watched.1) at hrecord
  subst hrecord
  have hsteps : Steps chan watched.1 next (action.access chan watched.1) :=
    steps_of_step hmachine
  obtain ⟨hnext, htouches⟩ := hsteps
  generalize action.access chan watched.1 = access at hnext htouches
  cases htouches with
  | aside hkeeps =>
      exact ⟨[], view, rfl, naming, label, hnext ▸ hprojects.channel, hprojects.signals,
        hprojects.offered, hkeeps ▸ hprojects.labelled, hprojects.named⟩
  | attempts access hattempts hkeeps => exact hprojects.attempts hattempts hnext hkeeps _
  | triesSend ticket value place hfails hgains =>
      exact hprojects.triesSend hfails hnext hgains _
  | triesRecv ticket place hfails hgains => exact hprojects.triesRecv hfails hnext hgains _
  | registersSend handle serial value place hloses =>
      exact hprojects.registersSend hnext hloses _
  | registersRecv handle serial place hloses => exact hprojects.registersRecv hnext hloses _
  | exchanges place hopen hgains => exact hprojects.exchanges hopen hnext hgains _
  | exchangesClosed hclosed hkeeps => exact hprojects.exchangesClosed hclosed hnext hkeeps _
  | flushes place hloses => exact hprojects.flushes hnext hloses _

/-- The run of the channel that explains what a program has done on it. -/
structure Explained (capacity : Nat) (conduit : Conduit V) (record : Record V)
    (commands : List (Interleaving.Action Nat V)) (view : Interleaving.State Nat V)
    (naming : Naming) : Prop where
  run : (Interleaving.machine Nat V capacity).exec (Interleaving.initial capacity) commands =
    some view
  channel : view.channel.Related (naming.names V) conduit
  signals : List.Forall₂ (Effect.Related (naming.names V)) (Interleaving.effects view.log)
    record.signals
  offered : offers view.log = record.offered

/-- Every run of every program, with any number of threads, is on each channel a
run of the operations of that channel alone: the same sends, the same channel
and the same effects in the same order, up to the names of the operations. -/
theorem channel_explained_along (capacity : Chan → Nat) (chan : Chan)
    (actions : List (Action Thread V Chan)) :
    (observing Thread V Chan capacity chan).Along
      (fun watched => ∃ commands view naming,
        Explained (capacity chan) (watched.1.channels chan) watched.2 commands view naming)
      (initial capacity, {}) actions := by
  refine (observing_simulates capacity chan).along_explained (initial_projected capacity chan)
    (fun watched commands view hrun hprojected => ?_) actions
  obtain ⟨naming, label, hprojects⟩ := hprojected
  exact ⟨commands, view, naming, hrun, hprojects.channel, hprojects.signals, hprojects.offered⟩

end Runs

/-! ## Values in a running program -/

/-- The values assigned to receivers, whoever they are. -/
def Record.received (record : Record V) : List V :=
  (delivers record.signals).map fun write => write.2.value

/-- Every value the channel took from a sender has been received, is buffered, is
parked with its sender, or was destroyed by `close`; and it was offered by a
send as often as it was taken. -/
structure Conserves (conduit : Conduit V) (record : Record V) : Prop where
  partition : ((takes record.signals).map Item.value).Perm
    (record.received ++ conduit.buffer.map Item.value ++
      conduit.sendWaiters.map (fun waiter => waiter.value.value) ++
      (discards record.signals).map Item.value)
  offered : ((takes record.signals).map Item.value).Subperm record.offered

section Values

variable [DecidableEq Thread] [DecidableEq Chan]

/-- Corresponding items carry the same values. -/
theorem Naming.map_value {naming : Naming} {items : List (Item Nat V)}
    {others : List (Item (Option Ticket) V)}
    (hitems : List.Forall₂ (naming.names V).value items others) :
    items.map Item.value = others.map Item.value := by
  induction hitems with
  | nil => rfl
  | cons hitem _ ih => rw [List.map_cons, List.map_cons, hitem.1, ih]

theorem Naming.map_delivers {naming : Naming} {writes : List (Nat × Item Nat V)}
    {others : List (Option Ticket × Item (Option Ticket) V)}
    (hwrites : List.Forall₂ (fun write other => (naming.names V).awaiter write.1 other.1 ∧
      (naming.names V).value write.2 other.2) writes others) :
    writes.map (Item.value ∘ Prod.snd) = others.map fun write => write.2.value := by
  induction hwrites with
  | nil => rfl
  | cons hwrite _ ih => rw [List.map_cons, List.map_cons, ih, Function.comp_apply, hwrite.2.1]

theorem Naming.map_parked {naming : Naming} {waiters : List (SendWaiter Nat (Item Nat V))}
    {others : List (SendWaiter Handle (Item (Option Ticket) V))}
    (hwaiters : List.Forall₂ (SendWaiter.Related (naming.names V)) waiters others) :
    waiters.map (Item.value ∘ SendWaiter.value) = others.map fun waiter => waiter.value.value := by
  induction hwaiters with
  | nil => rfl
  | cons hwaiter _ ih =>
      rw [List.map_cons, List.map_cons, ih, Function.comp_apply, hwaiter.value.1]

/-- The sends that began, with their values. -/
def begun (log : List (Interleaving.Event Nat V)) : List (Item Nat V) :=
  log.filterMap fun event => match event with
    | .beganSend op value => some ⟨op, value⟩
    | _ => none

/-- Sends take distinct numbers, so each value taken was offered once more. -/
theorem taken_subperm_offers {view : Interleaving.State Nat V}
    (hconserved : Interleaving.Conserved view) :
    ((Interleaving.taken view).map Item.value).Subperm (offers view.log) := by
  have hoffers : offers view.log = (begun view.log).map Item.value := by
    rw [begun, List.map_filterMap]
    refine congrArg (List.filterMap · view.log) (funext fun event => ?_)
    cases event <;> rfl
  have hbegun : Interleaving.taken view ⊆ begun view.log := fun item hitem =>
    List.mem_filterMap.mpr ⟨_, hconserved.sent item hitem, rfl⟩
  obtain ⟨chosen, hperm, hsublist⟩ := List.subperm_of_subset hconserved.once hbegun
  rw [hoffers]
  exact ⟨chosen.map Item.value, hperm.map _, hsublist.map _⟩

/-- In every run of every program, on every channel, no value is duplicated or
invented, however often coroutines are resumed. -/
theorem channel_conserves_along (capacity : Chan → Nat) (chan : Chan)
    (actions : List (Action Thread V Chan)) :
    (observing Thread V Chan capacity chan).Along
      (fun watched => Conserves (watched.1.channels chan) watched.2)
      (initial capacity, {}) actions := by
  classical
  refine (observing_simulates capacity chan).along_of_invariant Interleaving.Ledger
    (fun view command after hledger hstep =>
      (Interleaving.moves_of_step hstep).ledger hledger)
    (fun watched view hprojected hledger => ?_)
    (Interleaving.initial_ledger (capacity chan)) (initial_projected capacity chan) actions
  obtain ⟨naming, label, hprojects⟩ := hprojected
  have hconserved := hledger.conserved
  have htaken := Naming.map_value (Effect.related_takes hprojects.signals)
  have hreceived : (Interleaving.received view).map Item.value = watched.2.received := by
    rw [Interleaving.received, List.map_map]
    exact Naming.map_delivers (Effect.related_delivers hprojects.signals)
  have hparked : (view.channel.sendWaiters.map SendWaiter.value).map Item.value =
      (watched.1.channels chan).sendWaiters.map fun waiter => waiter.value.value := by
    rw [List.map_map]
    exact Naming.map_parked hprojects.channel.sendWaiters
  constructor
  case partition =>
    have hpartition := hconserved.partition.map Item.value
    rwa [List.map_append, List.map_append, List.map_append, Interleaving.taken, htaken, hreceived,
      hparked, Naming.map_value hprojects.channel.buffer,
      Naming.map_value (Effect.related_discards hprojects.signals)] at hpartition
  case offered =>
    have hoffered := taken_subperm_offers hconserved
    rwa [Interleaving.taken, htaken, hprojects.offered] at hoffered

end Values

end Tang.Runtime
