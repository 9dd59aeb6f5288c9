import Mathlib.Data.List.Forall2
import Tang.Channel.Laws

/-! # A channel does not look at what passes through it

The bodies of `channel<T>` move handles, awaiters and values and compare none of
them. Two channels that correspond, given corresponding arguments, therefore
return the same, leave corresponding channels, and have corresponding effects,
whatever the correspondence is.
-/

namespace Tang

open Effect

/-- What corresponds to what in another channel. -/
structure Correspondence (H A T H' A' T' : Type) where
  handle : H → H' → Prop
  awaiter : A → A' → Prop
  value : T → T' → Prop

variable {H A T R H' A' T' R' : Type}

/-- The second correspondence relates all that the first one does. -/
structure Correspondence.Within (first second : Correspondence H A T H' A' T') : Prop where
  handle : ∀ ⦃one other⦄, first.handle one other → second.handle one other
  awaiter : ∀ ⦃one other⦄, first.awaiter one other → second.awaiter one other
  value : ∀ ⦃one other⦄, first.value one other → second.value one other

theorem Correspondence.Within.refl (names : Correspondence H A T H' A' T') : names.Within names :=
  ⟨fun _ _ hname => hname, fun _ _ hname => hname, fun _ _ hname => hname⟩

variable (names : Correspondence H A T H' A' T')

structure SendWaiter.Related (first : SendWaiter H T) (second : SendWaiter H' T') : Prop where
  handle : names.handle first.handle second.handle
  value : names.value first.value second.value

structure RecvWaiter.Related (first : RecvWaiter H A) (second : RecvWaiter H' A') : Prop where
  handle : names.handle first.handle second.handle
  awaiter : names.awaiter first.awaiter second.awaiter

inductive Effect.Related : Effect H A T → Effect H' A' T' → Prop
  | take {value value'} (hvalue : names.value value value') : Related (.take value) (.take value')
  | accept {value value'} (hvalue : names.value value value') :
      Related (.accept value) (.accept value')
  | deliver {awaiter awaiter' value value'} (hawaiter : names.awaiter awaiter awaiter')
      (hvalue : names.value value value') :
      Related (.deliver awaiter value) (.deliver awaiter' value')
  | result {awaiter awaiter'} (success : Bool) (hawaiter : names.awaiter awaiter awaiter') :
      Related (.result awaiter success) (.result awaiter' success)
  | discard {value value'} (hvalue : names.value value value') :
      Related (.discard value) (.discard value')
  | schedule {handle handle'} (hhandle : names.handle handle handle') :
      Related (.schedule handle) (.schedule handle')

namespace Channel

structure Related (first : Channel H A T) (second : Channel H' A' T') : Prop where
  capacity : first.capacity = second.capacity
  buffer : List.Forall₂ names.value first.buffer second.buffer
  closed : first.closed = second.closed
  sendWaiters : List.Forall₂ (SendWaiter.Related names) first.sendWaiters second.sendWaiters
  recvWaiters : List.Forall₂ (RecvWaiter.Related names) first.recvWaiters second.recvWaiters

end Channel

/-- Two sections correspond when they return the same, up to `results`. -/
structure Outcome.Related (results : R → R' → Prop) (first : Outcome H A T R)
    (second : Outcome H' A' T' R') : Prop where
  result : results first.result second.result
  channel : Channel.Related names first.channel second.channel
  effects : List.Forall₂ (Effect.Related names) first.effects second.effects

/-- The results of two attempts: both succeed or both fail, and the variables
hold corresponding values. -/
def AttemptRelated (first : Bool × Option T) (second : Bool × Option T') : Prop :=
  first.1 = second.1 ∧ Option.Rel names.value first.2 second.2

/-! ## A wider correspondence -/

section Within

variable {names} {wider : Correspondence H A T H' A' T'} (hwithin : names.Within wider)

include hwithin

theorem SendWaiter.Related.mono {first : SendWaiter H T} {second : SendWaiter H' T'}
    (hrelated : first.Related names second) : first.Related wider second :=
  ⟨hwithin.handle hrelated.handle, hwithin.value hrelated.value⟩

theorem RecvWaiter.Related.mono {first : RecvWaiter H A} {second : RecvWaiter H' A'}
    (hrelated : first.Related names second) : first.Related wider second :=
  ⟨hwithin.handle hrelated.handle, hwithin.awaiter hrelated.awaiter⟩

theorem Effect.Related.mono {first : Effect H A T} {second : Effect H' A' T'}
    (hrelated : first.Related names second) : first.Related wider second := by
  cases hrelated with
  | take hvalue => exact .take (hwithin.value hvalue)
  | accept hvalue => exact .accept (hwithin.value hvalue)
  | deliver hawaiter hvalue => exact .deliver (hwithin.awaiter hawaiter) (hwithin.value hvalue)
  | result success hawaiter => exact .result success (hwithin.awaiter hawaiter)
  | discard hvalue => exact .discard (hwithin.value hvalue)
  | schedule hhandle => exact .schedule (hwithin.handle hhandle)

theorem Channel.Related.mono {first : Channel H A T} {second : Channel H' A' T'}
    (hrelated : first.Related names second) : first.Related wider second where
  capacity := hrelated.capacity
  buffer := hrelated.buffer.imp hwithin.value
  closed := hrelated.closed
  sendWaiters := hrelated.sendWaiters.imp fun _ _ hwaiter => hwaiter.mono hwithin
  recvWaiters := hrelated.recvWaiters.imp fun _ _ hwaiter => hwaiter.mono hwithin

end Within

/-! ## Components of corresponding effects -/

variable {names}

/-- Corresponding effects have corresponding components of every kind. -/
theorem Effect.related_collect {B B' : Type} {related : B → B' → Prop}
    {pick : Effect H A T → Option B} {pick' : Effect H' A' T' → Option B'}
    (hpick : ∀ effect effect', effect.Related names effect' →
      Option.Rel related (pick effect) (pick' effect'))
    {effects : List (Effect H A T)} {effects' : List (Effect H' A' T')}
    (heffects : List.Forall₂ (Effect.Related names) effects effects') :
    List.Forall₂ related (collect pick effects) (collect pick' effects') := by
  induction heffects with
  | nil => exact .nil
  | @cons effect effect' _ _ heffect _ ih =>
      rw [collect_cons, collect_cons]
      refine List.rel_append ?_ ih
      have hfound := hpick effect effect' heffect
      generalize pick effect = found, pick' effect' = found' at hfound
      cases hfound with
      | none => exact .nil
      | some hcomponent => exact .cons hcomponent .nil

section Components

variable {effects : List (Effect H A T)} {effects' : List (Effect H' A' T')}
  (heffects : List.Forall₂ (Effect.Related names) effects effects')

include heffects

theorem Effect.related_takes : List.Forall₂ names.value (takes effects) (takes effects') := by
  refine related_collect (fun _ _ heffect => ?_) heffects
  cases heffect <;> constructor
  assumption

theorem Effect.related_discards :
    List.Forall₂ names.value (discards effects) (discards effects') := by
  refine related_collect (fun _ _ heffect => ?_) heffects
  cases heffect <;> constructor
  assumption

theorem Effect.related_delivers :
    List.Forall₂ (fun write write' => names.awaiter write.1 write'.1 ∧
      names.value write.2 write'.2) (delivers effects) (delivers effects') := by
  refine related_collect (fun _ _ heffect => ?_) heffects
  cases heffect <;> constructor
  exact ⟨‹_›, ‹_›⟩

end Components

/-! ## The sections, one by one -/

variable {first : Channel H A T} {second : Channel H' A' T'}

theorem RecvWaiter.Related.resumeWithResult {first : RecvWaiter H A} {second : RecvWaiter H' A'}
    (hrelated : first.Related names second) (success : Bool) :
    List.Forall₂ (Effect.Related names) (first.resumeWithResult success : List (Effect H A T))
      (second.resumeWithResult success) :=
  .cons (.result success hrelated.awaiter) (.cons (.schedule hrelated.handle) .nil)

theorem SendWaiter.Related.resume {first : SendWaiter H T} {second : SendWaiter H' T'}
    (hrelated : first.Related names second) :
    List.Forall₂ (Effect.Related names) (first.resume : List (Effect H A T)) second.resume :=
  .cons (.schedule hrelated.handle) .nil

namespace Channel.Related

theorem new (capacity : Nat) :
    (Channel.new capacity : Channel H A T).Related names (.new capacity : Channel H' A' T') :=
  ⟨rfl, .nil, rfl, .nil, .nil⟩

theorem trySendWith (hrelated : first.Related names second) {value : T} {value' : T'}
    {used : Option T} {used' : Option T'} (hvalue : names.value value value')
    (hused : Option.Rel names.value used used') :
    (first.trySendWith value used).Related names (AttemptRelated names)
      (second.trySendWith value' used') := by
  have hwaiters := hrelated.recvWaiters
  have hlength := hrelated.buffer.length_eq
  unfold Channel.trySendWith
  simp only [← hrelated.closed, ← hrelated.capacity, ← hlength]
  split
  next => exact ⟨⟨rfl, .some hvalue⟩, hrelated, .nil⟩
  next =>
    cases hparked : first.recvWaiters with
    | cons waiter rest =>
        rw [hparked] at hwaiters
        obtain ⟨waiter', rest', hwaiter, hrest, hsecond⟩ := List.forall₂_cons_left_iff.mp hwaiters
        simp only [hsecond]
        refine ⟨⟨rfl, hused⟩, ⟨rfl, hrelated.buffer, rfl, hrelated.sendWaiters, hrest⟩, ?_⟩
        exact .cons (.take hvalue) (.cons (.accept hvalue)
          (.cons (.deliver hwaiter.awaiter hvalue) (hwaiter.resumeWithResult true)))
    | nil =>
        rw [hparked, List.forall₂_nil_left_iff] at hwaiters
        simp only [hwaiters]
        split
        next => exact ⟨⟨rfl, .some hvalue⟩, hrelated, .nil⟩
        next =>
          refine ⟨⟨rfl, hused⟩, ⟨rfl, List.rel_append hrelated.buffer (.cons hvalue .nil), rfl,
            hrelated.sendWaiters, .nil⟩, ?_⟩
          exact .cons (.take hvalue) (.cons (.accept hvalue) .nil)

theorem tryRecv (hrelated : first.Related names second) {reader : A} {reader' : A'}
    {old : Option T} {old' : Option T'} (hreader : names.awaiter reader reader')
    (hold : Option.Rel names.value old old') :
    (first.tryRecv reader old).Related names (AttemptRelated names)
      (second.tryRecv reader' old') := by
  have hbuffer := hrelated.buffer
  have hwaiters := hrelated.sendWaiters
  unfold Channel.tryRecv
  cases hfirst : first.buffer with
  | nil =>
      rw [hfirst, List.forall₂_nil_left_iff] at hbuffer
      simp only [hbuffer, ← hrelated.closed, List.isEmpty_nil, Bool.and_true]
      split
      next => exact ⟨⟨rfl, hold⟩, hrelated, .nil⟩
      next =>
        cases hparked : first.sendWaiters with
        | nil =>
            rw [hparked, List.forall₂_nil_left_iff] at hwaiters
            simp only [hwaiters]
            exact ⟨⟨rfl, hold⟩, hrelated, .nil⟩
        | cons waiter rest =>
            rw [hparked] at hwaiters
            obtain ⟨waiter', rest', hwaiter, hrest, hsecond⟩ :=
              List.forall₂_cons_left_iff.mp hwaiters
            simp only [hsecond]
            refine ⟨⟨rfl, .some hwaiter.value⟩,
              ⟨hrelated.capacity, .nil, rfl, hrest, hrelated.recvWaiters⟩, ?_⟩
            exact .cons (.accept hwaiter.value)
              (.cons (.deliver hreader hwaiter.value) hwaiter.resume)
  | cons front buffer =>
      rw [hfirst] at hbuffer
      obtain ⟨front', buffer', hfront, hrest, hsecond⟩ := List.forall₂_cons_left_iff.mp hbuffer
      simp only [hsecond, List.isEmpty_cons, Bool.and_false, Bool.false_eq_true, if_false]
      cases hparked : first.sendWaiters with
      | nil =>
          rw [hparked, List.forall₂_nil_left_iff] at hwaiters
          simp only [hwaiters]
          refine ⟨⟨rfl, .some hfront⟩,
            ⟨hrelated.capacity, hrest, hrelated.closed, .nil, hrelated.recvWaiters⟩, ?_⟩
          exact .cons (.deliver hreader hfront) .nil
      | cons waiter rest =>
          rw [hparked] at hwaiters
          obtain ⟨waiter', rest', hwaiter, hothers, hmore⟩ :=
            List.forall₂_cons_left_iff.mp hwaiters
          simp only [hmore]
          refine ⟨⟨rfl, .some hfront⟩, ⟨hrelated.capacity,
            List.rel_append hrest (.cons hwaiter.value .nil), hrelated.closed, hothers,
            hrelated.recvWaiters⟩, ?_⟩
          exact .cons (.deliver hreader hfront) (.cons (.accept hwaiter.value) hwaiter.resume)

theorem registerSendWaiter (hrelated : first.Related names second) {handle : H} {handle' : H'}
    {value : T} {value' : T'} (hhandle : names.handle handle handle')
    (hvalue : names.value value value') :
    (first.registerSendWaiter handle value).Related names Eq
      (second.registerSendWaiter handle' value') := by
  have hwaiters := hrelated.recvWaiters
  unfold Channel.registerSendWaiter
  simp only [← hrelated.closed]
  split
  next => exact ⟨rfl, hrelated, .cons (.schedule hhandle) .nil⟩
  next =>
    cases hparked : first.recvWaiters with
    | nil =>
        rw [hparked, List.forall₂_nil_left_iff] at hwaiters
        simp only [hwaiters]
        refine ⟨rfl, ⟨hrelated.capacity, hrelated.buffer, rfl,
          List.rel_append hrelated.sendWaiters (.cons ⟨hhandle, hvalue⟩ .nil), .nil⟩, ?_⟩
        exact .cons (.take hvalue) .nil
    | cons waiter rest =>
        rw [hparked] at hwaiters
        obtain ⟨waiter', rest', hwaiter, hrest, hsecond⟩ := List.forall₂_cons_left_iff.mp hwaiters
        simp only [hsecond]
        refine ⟨rfl, ⟨hrelated.capacity, hrelated.buffer, rfl, hrelated.sendWaiters, hrest⟩, ?_⟩
        exact .cons (.take hvalue) (.cons (.accept hvalue)
          (.cons (.deliver hwaiter.awaiter hvalue) (hwaiter.resumeWithResult true)))

theorem registerRecvWaiter (hrelated : first.Related names second) {handle : H} {handle' : H'}
    {awaiter : A} {awaiter' : A'} (hhandle : names.handle handle handle')
    (hawaiter : names.awaiter awaiter awaiter') :
    (first.registerRecvWaiter handle awaiter).Related names Eq
      (second.registerRecvWaiter handle' awaiter') := by
  have hwaiters := hrelated.sendWaiters
  unfold Channel.registerRecvWaiter
  simp only [← hrelated.closed]
  split
  next => exact ⟨rfl, hrelated, .cons (.result false hawaiter) (.cons (.schedule hhandle) .nil)⟩
  next =>
    cases hparked : first.sendWaiters with
    | nil =>
        rw [hparked, List.forall₂_nil_left_iff] at hwaiters
        simp only [hwaiters]
        exact ⟨rfl, ⟨hrelated.capacity, hrelated.buffer, rfl, .nil,
          List.rel_append hrelated.recvWaiters (.cons ⟨hhandle, hawaiter⟩ .nil)⟩, .nil⟩
    | cons waiter rest =>
        rw [hparked] at hwaiters
        obtain ⟨waiter', rest', hwaiter, hrest, hsecond⟩ := List.forall₂_cons_left_iff.mp hwaiters
        simp only [hsecond]
        refine ⟨rfl, ⟨hrelated.capacity, hrelated.buffer, rfl, hrest, hrelated.recvWaiters⟩, ?_⟩
        exact .cons (.accept hwaiter.value) (.cons (.deliver hawaiter hwaiter.value)
          (.cons (.result true hawaiter) (.cons (.schedule hhandle) hwaiter.resume)))

theorem closeExchange (hrelated : first.Related names second) :
    first.closeExchange.Related names Eq second.closeExchange :=
  ⟨hrelated.closed, { hrelated with closed := rfl }, .nil⟩

/-- Corresponding waiters are treated alike. -/
theorem flatMap {W W' : Type} {related : W → W' → Prop} {act : W → List (Effect H A T)}
    {act' : W' → List (Effect H' A' T')} {waiters : List W} {waiters' : List W'}
    (hact : ∀ waiter waiter', related waiter waiter' →
      List.Forall₂ (Effect.Related names) (act waiter) (act' waiter'))
    (hwaiters : List.Forall₂ related waiters waiters') :
    List.Forall₂ (Effect.Related names) (waiters.flatMap act) (waiters'.flatMap act') := by
  induction hwaiters with
  | nil => exact .nil
  | cons hwaiter _ ih => exact List.rel_append (hact _ _ hwaiter) ih

theorem closeFlush (hrelated : first.Related names second) :
    first.closeFlush.Related names Eq second.closeFlush := by
  refine ⟨rfl, { hrelated with sendWaiters := .nil, recvWaiters := .nil }, ?_⟩
  refine List.rel_append (List.rel_append ?_ ?_) ?_
  · exact flatMap (fun _ _ hwaiter => hwaiter.resume) hrelated.sendWaiters
  · exact List.rel_map (fun _ _ hwaiter => .discard hwaiter.value) hrelated.sendWaiters
  · exact flatMap (fun _ _ hwaiter => hwaiter.resumeWithResult false) hrelated.recvWaiters

end Channel.Related

end Tang
