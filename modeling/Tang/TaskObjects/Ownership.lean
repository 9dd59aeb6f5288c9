import Tang.TaskObjects.Custody

/-! # Linear ownership of the frames

What the task objects own, what is being destroyed and what was destroyed
account for the frames that were created. `operator=` and `run()` call
`handle.destroy()` first and use the objects afterwards, so the account holds as
long as those objects do not live in what is destroyed.
-/

namespace Tang.TaskObjects

open Foundation

/-- A move assignment onto a task that owns a frame destroys neither of the two
tasks with it, nor does `run()` on a finished coroutine destroy its task, nor a
local variable, other than the one returned, the coroutine it is declared in. -/
def Apart (state : State) : Action → Prop
  | .op (.assign target source) => target ≠ source → ∀ handle ∈ state.handleOf target,
      state.Spares (.assign target source) (.destroying handle)
  | .op (.run index) => ∀ handle ∈ state.handleOf index, handle ∈ state.finished →
      state.Spares (.run index) (.destroying handle)
  | .op (.finish frame returned) => ∀ index ∈ state.residents (.body frame),
      returned ≠ some index → state.Spares (.finish frame) (.dying index)
  | .op (.create _) | .op (.move _ _) | .op (.drop _) | .op (.awaitResume _ _) | .unwind => True

/-- A task object that exists has the handle. -/
def State.Refers (state : State) (index : Nat) (handle : Handle) : Prop :=
  state.aliveAt index ∧ state.handleOf index = some handle

/-- Each frame has one owner at most, is destroyed once at most, and is
destroyed once when no task object refers to a frame any more. -/
structure OwnsLinearly (state : State) : Prop where
  unique : ∀ handle first second, state.Refers first handle → state.Refers second handle →
    first = second
  once : ∀ handle, state.destroyed.count handle ≤ 1
  complete : state.unwinding = [] → (∀ index handle, ¬ state.Refers index handle) →
    ∀ handle < state.created, state.destroyed.count handle = 1

/-! ## The invariant -/

namespace State

variable (state : State)

/-- The home is being destroyed. -/
def Leaving : Home → Prop
  | .outside => False
  | .body frame => frame ∈ state.destroyed ∨ state.call = some (.finish frame)
  | .parameter frame | .result frame => frame ∈ state.destroyed

/-- The account, and what is known of the destructors and the call under way. -/
structure Sound : Prop where
  balanced : state.Balanced
  distinct : (dying state.unwinding).Nodup
  leaving : ∀ index ∈ dying state.unwinding,
    state.aliveAt index ∧ ∃ home, state.homeOf index = some home ∧ state.Leaving home
  present : ∀ call ∈ state.call, ∀ index, .dying index ∈ call.forbids → state.aliveAt index
  spares : ∀ call ∈ state.call, ∀ action ∈ state.unwinding, state.Spares call action
  gone : ∀ call ∈ state.call, ∀ index ∈ call.spent?, ∀ handle ∈ state.handleOf index,
    handle ∈ doomed state.unwinding ++ state.destroyed
  differ : ∀ target source, state.call = some (.assign target source) → target ≠ source

end State

namespace State.Sound

variable {state next : State} {index : Nat} {home : Home} {rest : List Unwinding}

/-! ## Operations -/

theorem of_idle (hcall : state.call = none) (hdying : dying state.unwinding = [])
    (hbalanced : state.Balanced) : state.Sound where
  balanced := hbalanced
  distinct := by simp [hdying]
  leaving := by simp [hdying]
  present := by simp [hcall]
  spares := by simp [hcall]
  gone := by simp [hcall]
  differ := by simp [hcall]

/-- A call begins with `handle.destroy()`. -/
theorem engage (hbalanced : state.Balanced) (hunwinding : state.unwinding = [])
    (hcall : state.call = none) {call : Call} (hspent : call.spent? = some index)
    (hpresent : ∀ index, .dying index ∈ call.forbids → state.aliveAt index)
    (hspares : ∀ handle ∈ state.handleOf index, state.Spares call (.destroying handle))
    (hdiffer : ∀ target source, call = .assign target source → target ≠ source) :
    (state.engage call (state.handleOf index)).Sound := by
  have hdoomed : doomed (state.engage call (state.handleOf index)).unwinding =
      (state.handleOf index).toList := doomed_map_destroying _
  have hdying : dying (state.engage call (state.handleOf index)).unwinding = [] :=
    dying_map_destroying _
  refine ⟨?_, by simp [hdying], by simp [hdying], ?_, ?_, ?_, ?_⟩
  · refine hbalanced.keeps fun frame => ?_
    have howners := owners_engage state (state.engage call (state.handleOf index)) rfl hcall hspent
      (hpresent index (Call.spent_mem_forbids hspent)) frame
    rw [hdoomed, hunwinding, howners]
    rfl
  · rintro _ ⟨⟩
    exact hpresent
  · rintro _ ⟨⟩ action haction
    obtain ⟨handle, hhandle, rfl⟩ := List.mem_map.mp haction
    exact (hspares handle (Option.mem_toList.mp hhandle)).mono (fun _ => rfl)
      fun _ => List.Subset.refl _
  · rintro _ ⟨⟩ object hobject handle hhandle
    obtain rfl := Option.some.inj (hspent.symm.trans hobject)
    rw [hdoomed]
    exact List.mem_append_left _ (Option.mem_toList.mpr hhandle)
  · exact fun target source hassign => hdiffer target source (Option.some.inj hassign)

/-- The program destroys an object. -/
theorem drop (hbalanced : state.Balanced) (hunwinding : state.unwinding = [])
    (hcall : state.call = none) (halive : state.aliveAt index) : (state.die index []).Sound := by
  refine of_idle hcall (by simp [die]) (hbalanced.keeps fun frame => ?_)
  have howners := owners_die [] halive (by simp [hcall]) frame
  have hdoomed : doomed (state.die index []).unwinding = (state.handleOf index).toList := by
    simp [die]
  rw [hdoomed, hunwinding, howners]
  rfl

theorem create (hbalanced : state.Balanced) (hunwinding : state.unwinding = [])
    (hcall : state.call = none) :
    { state.construct home (some state.created) with created := state.created + 1 }.Sound := by
  refine of_idle hcall (by simp [dying, State.construct, hunwinding]) ?_
  have hissue : Accounted (insert state.created (Finset.range state.created))
      (fun frame => (state.construct home (some state.created)).owners frame +
        (doomed state.unwinding).count frame)
      fun frame => state.destroyed.count frame :=
    hbalanced.issue Finset.notMem_range_self fun frame => by
      rw [owners_construct hcall, Option.toList_some]
      omega
  rwa [← Finset.range_add_one] at hissue

theorem move (hbalanced : state.Balanced) (hcall : state.call = none)
    (halive : state.aliveAt index) : (state.moveTo index home).Balanced :=
  hbalanced.keeps fun frame => by
    rw [owners_moveTo hcall halive]
    rfl

/-- A body ends, and its local variables are about to be destroyed. -/
theorem finish (hbalanced : state.Balanced) (hunwinding : state.unwinding = [])
    (hcall : state.call = none) {frame : Handle}
    (hspares : ∀ index ∈ state.residents (.body frame),
      state.Spares (.finish frame) (.dying index)) : (state.endBody frame).Sound := by
  refine ⟨?_, ?_, ?_, ?_, ?_, ?_, ?_⟩
  · refine hbalanced.keeps fun other => ?_
    have howners := owners_congr state (state.endBody frame) rfl
      (by simp [endBody, hcall, Call.spent?]) other
    have hdoomed : doomed (state.endBody frame).unwinding = [] := doomed_map_dying _
    rw [howners, hdoomed, hunwinding]
    rfl
  · simp only [endBody, dying_map_dying]
    exact List.nodup_reverse.mpr nodup_residents
  · intro object hmem
    simp only [endBody, dying_map_dying, List.mem_reverse, mem_residents] at hmem
    exact ⟨hmem.1, _, hmem.2, .inr rfl⟩
  · simp [endBody, Call.forbids]
  · rintro _ ⟨⟩ action haction
    obtain ⟨index, hindex, rfl⟩ := List.mem_map.mp haction
    exact (hspares index (List.mem_reverse.mp hindex)).mono (fun _ => rfl)
      fun _ => List.Subset.refl _
  · simp [endBody, Call.spent?]
  · simp [endBody]

/-- The task that is returned is not destroyed with the local variables. -/
theorem deliver (hbalanced : state.Balanced) (hunwinding : state.unwinding = [])
    (hcall : state.call = none) {frame : Handle} {returned : Option Nat}
    (haccessible : ∀ source ∈ returned, state.accessible source)
    (hapart : Apart state (.op (.finish frame returned))) :
    ((state.deliver frame returned).endBody frame).Sound := by
  cases returned with
  | none => exact finish hbalanced hunwinding hcall fun index hmem => hapart index hmem (by simp)
  | some source =>
      have halive := aliveAt_of_accessible (haccessible source rfl)
      refine finish (move hbalanced hcall halive) hunwinding hcall fun index hmem => ?_
      obtain ⟨hlive, hhome⟩ := mem_residents.mp hmem
      have hold : index ≠ state.objects.length := by
        rintro rfl
        cases homeOf_moveTo_self.symm.trans hhome
      have hbefore := mem_residents.mpr (lives_moveTo hold hlive hhome)
      intro forbidden hforbidden hreaches
      obtain rfl := List.mem_singleton.mp hforbidden
      by_cases hne : source = index
      · -- the handle was moved out of it
        subst hne
        cases hreaches with
        | owns hhandle _ =>
            rw [handleOf_moveTo_self halive] at hhandle
            cases hhandle
      · have hbody := (hreaches.of_moveTo halive).resolve_left (by simpa using hold)
        exact hapart index hbefore (by simpa using hne) _ hforbidden hbody

theorem idle (hbalanced : state.Balanced) (hunwinding : state.unwinding = [])
    (hcall : state.call = none) : state.Sound :=
  of_idle hcall (by simp [dying, hunwinding]) hbalanced

theorem perform {op : Op} (hsound : state.Sound) (hunwinding : state.unwinding = [])
    (hcall : state.call = none) (hapart : Apart state (.op op))
    (hnext : state.perform op = some next) : next.Sound := by
  have hbalanced := hsound.balanced
  cases op with
  | create home =>
      obtain ⟨_, ⟨⟩⟩ := Option.ite_none_right_eq_some.mp hnext
      exact create hbalanced hunwinding hcall
  | move source home =>
      obtain ⟨⟨haccessible, _⟩, ⟨⟩⟩ := Option.ite_none_right_eq_some.mp hnext
      exact idle (move hbalanced hcall (aliveAt_of_accessible haccessible)) hunwinding hcall
  | assign target source =>
      obtain ⟨⟨htarget, hsource⟩, hnext⟩ := Option.ite_none_right_eq_some.mp hnext
      split at hnext
      next =>
        cases hnext
        exact hsound
      next hne =>
        cases hnext
        refine engage hbalanced hunwinding hcall rfl ?_ (hapart hne) ?_
        · simp [Call.forbids, aliveAt_of_accessible htarget, aliveAt_of_accessible hsource]
        · rintro _ _ ⟨⟩
          exact hne
  | run index =>
      obtain ⟨haccessible, hnext⟩ := Option.ite_none_right_eq_some.mp hnext
      split at hnext
      next =>
        cases hnext
        exact hsound
      next handle hhandle =>
        split at hnext
        next hfinished =>
          cases hnext
          rw [← hhandle]
          refine engage hbalanced hunwinding hcall rfl ?_ ?_ (by simp)
          · simp [Call.forbids, aliveAt_of_accessible haccessible]
          · intro other hother
            obtain rfl := Option.some.inj (hhandle.symm.trans hother)
            exact hapart handle hother hfinished
        next =>
          cases hnext
          exact hsound
  | drop index =>
      obtain ⟨haccessible, ⟨⟩⟩ := Option.ite_none_right_eq_some.mp hnext
      exact drop hbalanced hunwinding hcall (aliveAt_of_accessible haccessible)
  | finish frame returned =>
      obtain ⟨⟨_, haccessible⟩, ⟨⟩⟩ := Option.ite_none_right_eq_some.mp hnext
      exact deliver hbalanced hunwinding hcall haccessible hapart
  | awaitResume index home =>
      obtain ⟨_, hnext⟩ := Option.ite_none_right_eq_some.mp hnext
      split at hnext
      next =>
        cases hnext
        exact hsound
      next frame _ =>
        split at hnext
        next result _ hresidents =>
          cases hnext
          have hmem : result ∈ state.residents (.result frame) := by simp [hresidents]
          exact idle (move hbalanced hcall (mem_residents.mp hmem).1) hunwinding hcall
        next =>
          cases hnext
          exact hsound

/-! ## Destructors -/

/-- `~task` of an object in a frame, or of a local variable. -/
theorem dies (hsound : state.Sound) (hunwinding : state.unwinding = .dying index :: rest) :
    (state.die index rest).Sound := by
  have hmem : Unwinding.dying index ∈ state.unwinding := by simp [hunwinding]
  have hdoomed : doomed state.unwinding = doomed rest := by rw [hunwinding]; rfl
  have hdying : dying state.unwinding = index :: dying rest := by rw [hunwinding]; rfl
  have hrest : dying (state.die index rest).unwinding = dying rest := by simp [die]
  have halive : state.aliveAt index := (hsound.leaving index (by simp [hdying])).1
  have hunused : ∀ call ∈ state.call, .dying index ∉ call.forbids := fun call hcall hforbidden =>
    hsound.spares call hcall _ hmem _ hforbidden (.refl _)
  have hspent : state.call.bind Call.spent? ≠ some index := by
    intro hspent
    obtain ⟨call, hcall, hspent⟩ := Option.bind_eq_some_iff.mp hspent
    exact hunused call hcall (Call.spent_mem_forbids hspent)
  have hdistinct := hsound.distinct
  rw [hdying, List.nodup_cons] at hdistinct
  refine ⟨?_, ?_, ?_, ?_, ?_, ?_, hsound.differ⟩
  · refine hsound.balanced.keeps fun frame => ?_
    have howners := owners_die rest halive hspent frame
    have hnext : doomed (state.die index rest).unwinding =
        (state.handleOf index).toList ++ doomed rest := by simp [die]
    rw [hnext, hdoomed, List.count_append, ← howners]
    simp only [die]
    omega
  · rw [hrest]
    exact hdistinct.2
  · intro other hother
    rw [hrest] at hother
    have hne : other ≠ index := fun heq => hdistinct.1 (heq ▸ hother)
    obtain ⟨halive, home, hhome, hleaving⟩ := hsound.leaving other (by simp [hdying, hother])
    exact ⟨(aliveAt_die hne).trans halive, home, homeOf_die.trans hhome, hleaving⟩
  · intro call hcall object hobject
    have hne : object ≠ index := by
      rintro rfl
      exact hunused call hcall hobject
    exact (aliveAt_die hne).trans (hsound.present call hcall object hobject)
  · intro call hcall action haction
    suffices hspares : state.Spares call action from
      hspares.mono (fun _ => handleOf_die) contents_die
    rcases List.mem_append.mp haction with hnew | hold
    -- the handle of the object that dies
    · obtain ⟨handle, hhandle, rfl⟩ := List.mem_map.mp hnew
      exact fun forbidden hforbidden hreaches =>
        hsound.spares call hcall _ hmem forbidden hforbidden
          (.owns (Option.mem_toList.mp hhandle) hreaches)
    · exact hsound.spares call hcall action (by simp [hunwinding, hold])
  · intro call hcall object hobject handle hhandle
    rw [handleOf_die] at hhandle
    have hgone := hsound.gone call hcall object hobject handle hhandle
    rw [hdoomed] at hgone
    simp only [die, doomed_append, List.append_assoc]
    exact List.mem_append_right _ hgone

theorem frame_of_leaving {frame : Handle} (hleaving : state.Leaving home)
    (hframe : home.frame? = some frame) :
    frame ∈ state.destroyed ∨ state.call = some (.finish frame) := by
  cases home with
  | outside => cases hframe
  | body owner =>
      obtain rfl := Option.some.inj hframe
      exact hleaving
  | parameter owner | result owner =>
      obtain rfl := Option.some.inj hframe
      exact .inl hleaving

theorem destroys (hsound : state.Sound) {handle : Handle}
    (hunwinding : state.unwinding = .destroying handle :: rest) :
    (state.destroy handle rest).Sound := by
  have hmem : Unwinding.destroying handle ∈ state.unwinding := by simp [hunwinding]
  have hdoomed : doomed state.unwinding = handle :: doomed rest := by rw [hunwinding]; rfl
  have hdying : dying state.unwinding = dying rest := by rw [hunwinding]; rfl
  have hfirst : handle ∉ state.destroyed := by
    have hpos : 0 < state.owners handle + (doomed state.unwinding).count handle := by
      simp [hdoomed]
    exact List.count_eq_zero.mp (hsound.balanced.of_held hpos).2
  -- the body of the coroutine is not at work
  have hended : state.call ≠ some (.finish handle) := fun hcall =>
    hsound.spares _ hcall _ hmem _ List.mem_cons_self (.refl _)
  refine ⟨?_, ?_, ?_, hsound.present, ?_, ?_, hsound.differ⟩
  · refine hsound.balanced.keeps fun frame => ?_
    rw [owners_congr state (state.destroy handle rest) rfl rfl, hdoomed]
    simp only [destroy, doomed_append, doomed_map_dying, List.nil_append, List.count_cons]
    omega
  · simp only [destroy, dying_append, dying_map_dying]
    refine (nodup_contents handle).append (hdying ▸ hsound.distinct) fun index hnew hold => ?_
    -- what was dying already does not live in a frame that is not destroyed yet
    obtain ⟨_, home, hhome, hframe⟩ := mem_contents.mp hnew
    obtain ⟨_, other, hother, hleaving⟩ := hsound.leaving index (hdying ▸ hold)
    obtain rfl := Option.some.inj (hhome.symm.trans hother)
    exact (frame_of_leaving hleaving hframe).elim hfirst hended
  · intro index hindex
    simp only [destroy, dying_append, dying_map_dying, List.mem_append] at hindex
    rcases hindex with hnew | hold
    · obtain ⟨halive, home, hhome, hframe⟩ := mem_contents.mp hnew
      refine ⟨halive, home, hhome, ?_⟩
      cases home <;> simp_all [Leaving, destroy]
    · obtain ⟨halive, home, hhome, hleaving⟩ := hsound.leaving index (hdying ▸ hold)
      refine ⟨halive, home, hhome, ?_⟩
      cases home with
      | outside => exact hleaving
      | body owner => exact hleaving.imp_left (List.mem_cons_of_mem _)
      | parameter owner | result owner => exact List.mem_cons_of_mem _ hleaving
  · intro call hcall action haction
    suffices hspares : state.Spares call action from
      hspares.mono (fun _ => rfl) fun _ => List.Subset.refl _
    rcases List.mem_append.mp haction with hnew | hold
    · obtain ⟨index, hindex, rfl⟩ := List.mem_map.mp hnew
      exact fun forbidden hforbidden hreaches =>
        hsound.spares call hcall _ hmem forbidden hforbidden
          (.holds hindex hreaches)
    · exact hsound.spares call hcall action (by simp [hunwinding, hold])
  · intro call hcall object hobject frame hframe
    have hgone := hsound.gone call hcall object hobject frame hframe
    rw [hdoomed] at hgone
    simp only [List.cons_append, List.mem_cons, List.mem_append] at hgone
    simp only [destroy, doomed_append, doomed_map_dying, List.nil_append, List.mem_append,
      List.mem_cons]
    tauto

/-- The call goes on after `handle.destroy()`, and all it uses is there. -/
theorem completes (hsound : state.Sound) (hunwinding : state.unwinding = []) {call : Call}
    (hcall : state.call = some call) : (state.complete call).Sound := by
  have hpresent := hsound.present call hcall
  cases call with
  | assign target source =>
      have hne := hsound.differ target source hcall
      have htarget := hpresent target (by simp [Call.forbids])
      have hsource := hpresent source (by simp [Call.forbids])
      have hspent : state.call.bind Call.spent? = some target := by rw [hcall]; rfl
      -- the states after `handle = other.handle` and `other.handle = nullptr`
      let given := state.setHandle target (state.handleOf source)
      let taken := given.setHandle source none
      have hgiven : given.handleOf source = state.handleOf source :=
        handleOf_setHandle (Ne.symm hne)
      have htaken : taken.handleOf target = state.handleOf source :=
        (handleOf_setHandle hne).trans (handleOf_setHandle_self (lt_of_aliveAt htarget))
      have hothers : given.call.bind Call.spent? ≠ some source := by
        rw [show given.call = state.call from rfl, hspent]
        simpa using hne
      refine idle (hsound.balanced.keeps fun frame => ?_) hunwinding rfl
      have hfirst : given.owners frame = state.owners frame := owners_setHandle_spent hspent frame
      have hsecond := owners_setHandle none (aliveAt_setHandle.trans hsource) hothers frame
      have hthird := owners_engage (state.complete (.assign target source)) taken rfl rfl hspent
        (aliveAt_setHandle.trans (aliveAt_setHandle.trans htarget)) frame
      rw [hgiven, hfirst, Option.toList_none, List.count_nil, Nat.add_zero] at hsecond
      rw [← hthird, show (state.complete (.assign target source)).handleOf target = _ from htaken,
        hsecond]
      rfl
  | run index =>
      have hlive := hpresent index (by simp [Call.forbids])
      have hspent : state.call.bind Call.spent? = some index := by rw [hcall]; rfl
      refine idle (hsound.balanced.keeps fun frame => ?_) hunwinding rfl
      have hnull : (state.complete (.run index)).handleOf index = none :=
        handleOf_setHandle_self (lt_of_aliveAt hlive)
      have howners := owners_engage (state.complete (.run index))
        (state.setHandle index none) rfl rfl hspent (aliveAt_setHandle.trans hlive) frame
      rw [hnull, owners_setHandle_spent hspent, Option.toList_none, List.count_nil] at howners
      rw [← howners]
      rfl
  | finish frame =>
      refine idle (hsound.balanced.keeps fun other => ?_) hunwinding rfl
      have howners := owners_congr state (state.complete (.finish frame)) rfl
        (by simp [complete, hcall, Call.spent?]) other
      rw [howners]
      rfl

theorem step {action : Action} (hsound : state.Sound) (hapart : Apart state action)
    (hnext : machine.step state action = some next) : next.Sound := by
  cases action with
  | op op =>
      obtain ⟨⟨hunwinding, hcall⟩, hnext⟩ := Option.ite_none_right_eq_some.mp hnext
      exact hsound.perform hunwinding hcall hapart hnext
  | unwind =>
      replace hnext : state.unwind = some next := hnext
      unfold unwind at hnext
      split at hnext
      next index rest hunwinding =>
        cases hnext
        exact hsound.dies hunwinding
      next handle rest hunwinding =>
        cases hnext
        exact hsound.destroys hunwinding
      next hunwinding =>
        obtain ⟨call, hcall, rfl⟩ := Option.map_eq_some_iff.mp hnext
        exact hsound.completes hunwinding hcall

theorem start : machine.start.Sound := by
  refine idle (fun frame => ?_) rfl rfl
  simp [machine, owners, custodians, doomed]

/-! ## What soundness says of the owners -/

/-- An object that refers to a frame owns it, or `destroy()` was called on it. -/
theorem owns_of_refers {handle : Handle} (hsound : state.Sound)
    (hrefers : state.Refers index handle) :
    state.owned index = some handle ∨
      state.call.bind Call.spent? = some index ∧ state.owners handle = 0 := by
  obtain ⟨halive, hhandle⟩ := hrefers
  by_cases hspent : state.call.bind Call.spent? = some index
  · obtain ⟨call, hcall, hobject⟩ := Option.bind_eq_some_iff.mp hspent
    have hgone := hsound.gone call hcall index hobject handle hhandle
    have hpos := List.count_pos_iff.mpr hgone
    have hle := hsound.balanced.le_one handle
    rw [List.count_append] at hpos
    exact .inr ⟨hspent, by omega⟩
  · exact .inl ((owned_of_alive halive hspent).trans hhandle)

theorem ownsLinearly (hsound : state.Sound) : OwnsLinearly state where
  unique handle first second hfirst hsecond := by
    have hmem : ∀ {index}, state.Refers index handle →
        index ∈ Finset.range state.objects.length := fun hrefers =>
      Finset.mem_range.mpr (lt_of_aliveAt hrefers.1)
    have hpos : ∀ {index}, state.Refers index handle → state.owned index = some handle →
        state.owners handle ≠ 0 := fun hrefers howned =>
      (custodians_pos (hmem hrefers) howned).ne'
    rcases hsound.owns_of_refers hfirst with hone | ⟨hone, hzero⟩
    · rcases hsound.owns_of_refers hsecond with htwo | ⟨_, hzero⟩
      · have hle := hsound.balanced.le_one handle
        exact cell_eq_of_custodians_le_one (by unfold owners at hle; omega) (hmem hfirst)
          (hmem hsecond) hone htwo
      · exact absurd hzero (hpos hfirst hone)
    · rcases hsound.owns_of_refers hsecond with htwo | ⟨htwo, _⟩
      · exact absurd hzero (hpos hsecond htwo)
      · exact Option.some.inj (hone.symm.trans htwo)
  once handle := by
    have hle := hsound.balanced.le_one handle
    omega
  complete hunwinding hnone handle hcreated := by
    refine hsound.balanced.spent_eq_one (Finset.mem_range.mpr hcreated) ?_
    have howners : state.owners handle = 0 := by
      refine custodians_eq_zero fun index _ howned => ?_
      obtain ⟨⟨halive, _⟩, hhandle⟩ := Option.ite_none_right_eq_some.mp howned
      exact hnone index handle ⟨halive, hhandle⟩
    simp [howners, hunwinding, doomed]

end State.Sound

/-! ## Objects outside all frames -/

/-- What is assigned, and what `run()` is called on, lives outside all frames, and
the body of a coroutine ends without a task in its local variables, other than
the one returned. -/
def Outside (state : State) : Action → Prop
  | .op (.assign target source) =>
      state.homeOf target = some .outside ∧ state.homeOf source = some .outside
  | .op (.run index) => state.homeOf index = some .outside
  | .op (.finish frame returned) => ∀ index ∈ state.residents (.body frame),
      returned = some index ∨ state.handleOf index = none
  | .op (.create _) | .op (.move _ _) | .op (.drop _) | .op (.awaitResume _ _) | .unwind => True

instance (state : State) : DecidablePred (Outside state)
  | .op (.assign _ _) => inferInstanceAs (Decidable (_ ∧ _))
  | .op (.run index) => inferInstanceAs (Decidable (state.homeOf index = some .outside))
  | .op (.finish frame returned) =>
      inferInstanceAs (Decidable (∀ index ∈ state.residents (.body frame),
        returned = some index ∨ state.handleOf index = none))
  | .op (.create _) | .op (.move _ _) | .op (.drop _) | .op (.awaitResume _ _) | .unwind =>
      inferInstanceAs (Decidable True)

namespace State

variable {state : State}

/-- What is destroyed along with a frame lives in a frame. -/
theorem not_reaches_outside {handle : Handle} {object : Nat}
    (houtside : state.homeOf object = some .outside) :
    ¬ state.Reaches (.destroying handle) (.dying object) := by
  intro hreaches
  generalize hfirst : Unwinding.destroying handle = first at hreaches
  generalize hlast : Unwinding.dying object = last at hreaches
  -- nothing but the destructor of the object comes to it
  have hself : first = last := by
    clear hfirst
    induction hreaches with
    | refl => rfl
    | owns _ _ ih => cases (ih hlast).trans hlast.symm
    | holds hmem _ ih =>
        obtain rfl := Unwinding.dying.inj ((ih hlast).trans hlast.symm)
        obtain ⟨_, home, hhome, hframe⟩ := mem_contents.mp hmem
        obtain rfl := Option.some.inj (houtside.symm.trans hhome)
        cases hframe
  cases hfirst.trans (hself.trans hlast.symm)

end State

theorem Outside.apart {state : State} {action : Action} (houtside : Outside state action) :
    Apart state action := by
  cases action with
  | unwind => trivial
  | op op =>
      cases op with
      | assign target source =>
          obtain ⟨htarget, hsource⟩ : _ ∧ _ := houtside
          intro _ handle _ forbidden hforbidden
          simp only [Call.forbids, List.mem_cons, List.not_mem_nil, or_false] at hforbidden
          rcases hforbidden with rfl | rfl
          · exact State.not_reaches_outside htarget
          · exact State.not_reaches_outside hsource
      | run index =>
          intro handle _ _ forbidden hforbidden
          obtain rfl := List.mem_singleton.mp hforbidden
          exact State.not_reaches_outside houtside
      | finish frame returned =>
          intro index hmem hne forbidden hforbidden hreaches
          obtain rfl := List.mem_singleton.mp hforbidden
          have hnull := (houtside index hmem).resolve_left hne
          cases hreaches with
          | owns hhandle _ =>
              rw [hnull] at hhandle
              cases hhandle
      | _ => trivial

/-! ## Runs -/

end Tang.TaskObjects
