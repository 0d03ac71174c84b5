import EggVision.Rtsp.Epochs
import Mathlib.Data.List.Perm.Basic

/-!
# Callback epochs

Closures of GStreamer keep a reference to the `CallbackState` of the epoch in which they were made,
and may be called at any time, also after `stop` and after a restart. A guard asks that state for
the server on entry and counts itself in it; `disableCallbacksAndWait` takes the server away from
the state of its epoch, and waits until nobody is counted any more.

All states ever made are kept here, in the order of the epochs. The lock of a state is held for one
step.

## Main definitions

* `CallbackEpochs`, `CallbackAction`, `CallbackEpochs.step`
* `holders` — the guards of an epoch that have the server
* `Shadows` — the callbacks of the server as the guards of its epoch

## Main results

* `epochs_closed` — what `disableCallbacksAndWait` guarantees
* `shadows_of_reachable` — the server waits for its guards
-/

namespace EggVision

open Transition

/-- `CallbackState`; `server` says that the pointer is not null. -/
structure CallbackState where
  server : Bool := false
  active : ℕ := 0
deriving DecidableEq, Repr

/-- `CallbackGuard`: the epoch of the state it holds, and whether it got the server. -/
structure CallbackGuard where
  state : Option ℕ := none
  server : Bool := false
deriving DecidableEq, Repr

/-- How far the owner is: `start` replaces the state and then gives it the server;
`disableCallbacksAndWait` takes the server away and waits. -/
inductive EpochPhase
  | closed
  | renewed
  | opened
  | waiting
deriving DecidableEq, Repr

/-- The states of all epochs, the callback data of all closures, and the guards that are alive on
any thread. `current` is `callback_state_`. The constructor makes the first state. -/
structure CallbackEpochs where
  states : List CallbackState := [{ server := true }]
  current : ℕ := 0
  phase : EpochPhase := .closed
  data : List ℕ := []
  guards : List CallbackGuard := []
deriving DecidableEq, Repr

inductive CallbackAction
  | renew
  | publish
  | disable
  | wait
  | newCallbackData
  | destroyCallbackData (index : ℕ)
  | enter (index : Option ℕ)
  | leave (index : ℕ)
deriving DecidableEq, Repr

namespace CallbackEpochs

/-- The server pointer of the current state. -/
def setServer (server : Bool) (c : CallbackEpochs) : CallbackEpochs :=
  { c with states := c.states.modify c.current fun state => { state with server } }

/-- The constructor of `CallbackGuard`, for callback data of the given epoch. -/
def enter (epoch : ℕ) (c : CallbackEpochs) : CallbackEpochs :=
  match c.states[epoch]? with
  | none => c
  | some state =>
    if state.server then
      { c with
        states := c.states.modify epoch fun state => { state with active := state.active + 1 }
        guards := c.guards ++ [{ state := some epoch, server := true }] }
    else { c with guards := c.guards ++ [{ state := some epoch }] }

/-- The destructor of `CallbackGuard`. -/
def leave (index : ℕ) (guard : CallbackGuard) (c : CallbackEpochs) : CallbackEpochs :=
  let left := { c with guards := c.guards.eraseIdx index }
  match guard.server, guard.state with
  | true, some epoch =>
    { left with
      states := c.states.modify epoch fun state => { state with active := state.active - 1 } }
  | _, _ => left

/-- `disableCallbacksAndWait` returns from its wait when nobody is counted. A guard may be made from
any callback data that has not been destroyed, and from a null pointer. -/
def step (c : CallbackEpochs) : CallbackAction → Option CallbackEpochs
  | .renew =>
    if c.phase = .closed then
      some { c with states := c.states ++ [{}], current := c.states.length, phase := .renewed }
    else none
  | .publish => if c.phase = .renewed then some { c.setServer true with phase := .opened } else none
  | .disable =>
    if c.phase = .opened then some { c.setServer false with phase := .waiting } else none
  | .wait =>
    if c.phase = .waiting ∧ c.states[c.current]?.any (fun state => decide (state.active = 0)) then
      some { c with phase := .closed }
    else none
  | .newCallbackData => some { c with data := c.data ++ [c.current] }
  | .destroyCallbackData index => some { c with data := c.data.eraseIdx index }
  | .enter none => some { c with guards := c.guards ++ [{}] }
  | .enter (some index) => c.data[index]?.map fun epoch => c.enter epoch
  | .leave index => c.guards[index]?.map fun guard => c.leave index guard

/-! ### Guards that have the server -/

/-- The guards of an epoch that have the server. -/
def holders (epoch : ℕ) (c : CallbackEpochs) : ℕ :=
  c.guards.countP fun guard => guard.server && decide (guard.state = some epoch)

/-- Every state counts its guards. -/
structure Counted (c : CallbackEpochs) : Prop where
  active : ∀ epoch state, c.states[epoch]? = some state → state.active = c.holders epoch
  guards : ∀ guard ∈ c.guards, ∀ epoch, guard.state = some epoch → epoch < c.states.length
  data : ∀ epoch ∈ c.data, epoch < c.states.length
  current : c.current < c.states.length

variable {c c' : CallbackEpochs} {a : CallbackAction}

theorem Counted.initial : Counted {} := by
  refine ⟨?_, by simp, by simp, by simp⟩
  intro epoch state h
  simp only [List.getElem?_singleton, Option.ite_none_right_eq_some, Option.some.injEq] at h
  rw [← h.2]
  rfl

theorem Counted.setServer (h : Counted c) (server : Bool) : Counted (c.setServer server) := by
  refine ⟨fun epoch state hstate => ?_, ?_, ?_, ?_⟩
  · simp only [CallbackEpochs.setServer, List.getElem?_modify, Option.map_eq_map,
      Option.map_eq_some_iff] at hstate
    obtain ⟨before, hbefore, rfl⟩ := hstate
    have hactive := h.active epoch before hbefore
    split <;> exact hactive
  · simpa [CallbackEpochs.setServer] using h.guards
  · simpa [CallbackEpochs.setServer] using h.data
  · simpa [CallbackEpochs.setServer] using h.current

/-- Nobody holds the state of an epoch that has not begun. -/
theorem Counted.holders_new (h : Counted c) {epoch : ℕ} (hnew : c.states.length ≤ epoch) :
    c.holders epoch = 0 := by
  refine List.countP_eq_zero.mpr fun guard hguard hholds => ?_
  simp only [Bool.and_eq_true, decide_eq_true_eq] at hholds
  have := h.guards guard hguard epoch hholds.2
  omega

theorem Counted.renew (h : Counted c) :
    Counted { c with
      states := c.states ++ [{}], current := c.states.length, phase := .renewed } := by
  refine ⟨fun epoch state hstate => ?_, fun guard hguard epoch hepoch => ?_, fun epoch hepoch => ?_,
    by simp⟩
  · simp only [List.getElem?_append] at hstate
    split at hstate
    · exact h.active epoch state hstate
    next hnew =>
      simp only [List.getElem?_singleton, Option.ite_none_right_eq_some,
        Option.some.injEq] at hstate
      rw [← hstate.2]
      exact (h.holders_new (Nat.not_lt.mp hnew)).symm
  · have := h.guards guard hguard epoch hepoch
    simp only [List.length_append, List.length_singleton]
    omega
  · have := h.data epoch hepoch
    simp only [List.length_append, List.length_singleton]
    omega

/-- A guard without the server counts nowhere. -/
theorem Counted.bare (h : Counted c) {state : Option ℕ}
    (hstate : ∀ epoch, state = some epoch → epoch < c.states.length) :
    Counted { c with guards := c.guards ++ [{ state }] } := by
  refine { h with active := fun epoch state hstate => ?_, guards := ?_ }
  · simpa [holders] using h.active epoch state hstate
  · intro guard hguard epoch hepoch
    rcases List.mem_append.mp hguard with hold | hnew
    · exact h.guards guard hold epoch hepoch
    · rw [List.mem_singleton.mp hnew] at hepoch
      exact hstate epoch hepoch

theorem Counted.enter (h : Counted c) {epoch : ℕ} (hepoch : epoch < c.states.length) :
    Counted (c.enter epoch) := by
  unfold CallbackEpochs.enter
  split
  · exact h
  · split
    · refine ⟨fun other state hstate => ?_, fun guard hguard other hother => ?_, ?_, ?_⟩
      · simp only [List.getElem?_modify, Option.map_eq_map, Option.map_eq_some_iff] at hstate
        obtain ⟨before, hbefore, rfl⟩ := hstate
        have hactive := h.active other before hbefore
        by_cases hsame : epoch = other
        · subst hsame
          simpa [holders] using hactive
        · simpa [holders, hsame] using hactive
      · rw [List.length_modify]
        rcases List.mem_append.mp hguard with hold | hnew
        · exact h.guards guard hold other hother
        · rw [List.mem_singleton.mp hnew, Option.some.injEq] at hother
          exact hother ▸ hepoch
      · simpa using h.data
      · simpa using h.current
    · refine h.bare ?_
      rintro _ ⟨⟩
      exact hepoch

theorem countP_eraseIdx {index : ℕ} {guard : CallbackGuard} {guards : List CallbackGuard}
    (hguard : guards[index]? = some guard) (p : CallbackGuard → Bool) :
    guards.countP p = (guards.eraseIdx index).countP p + if p guard then 1 else 0 := by
  obtain ⟨hlt, rfl⟩ := List.getElem?_eq_some_iff.mp hguard
  rw [← (List.getElem_cons_eraseIdx_perm hlt).countP_eq p, List.countP_cons]

theorem Counted.leave (h : Counted c) {index : ℕ} {guard : CallbackGuard}
    (hguard : c.guards[index]? = some guard) : Counted (c.leave index guard) := by
  have hguards : ∀ other ∈ c.guards.eraseIdx index, ∀ epoch, other.state = some epoch →
      epoch < c.states.length :=
    fun other hother => h.guards other (List.mem_of_mem_eraseIdx hother)
  obtain ⟨state, server⟩ := guard
  have hcount := fun epoch => countP_eraseIdx hguard fun guard =>
    guard.server && decide (guard.state = some epoch)
  unfold CallbackEpochs.leave
  cases server with
  | false =>
    refine ⟨fun epoch before hbefore => ?_, hguards, h.data, h.current⟩
    have hactive := h.active epoch before hbefore
    simpa [holders, hcount epoch] using hactive
  | true =>
    cases state with
    | none =>
      refine ⟨fun epoch before hbefore => ?_, hguards, h.data, h.current⟩
      have hactive := h.active epoch before hbefore
      simpa [holders, hcount epoch] using hactive
    | some epoch =>
      refine ⟨fun other after hafter => ?_, by simpa using hguards, by simpa using h.data,
        by simpa using h.current⟩
      simp only [List.getElem?_modify, Option.map_eq_map, Option.map_eq_some_iff] at hafter
      obtain ⟨before, hbefore, rfl⟩ := hafter
      have hactive := h.active other before hbefore
      by_cases hsame : epoch = other
      · subst hsame
        simp only [holders, hcount epoch, Bool.true_and, decide_true, if_true] at hactive
        simp only [if_true, holders]
        omega
      · simpa [holders, hcount other, hsame] using hactive

theorem Counted.step (h : Counted c) (hs : c.step a = some c') : Counted c' := by
  cases a with
  | renew =>
    simp only [CallbackEpochs.step] at hs
    split at hs <;> cases hs
    exact h.renew
  | publish =>
    simp only [CallbackEpochs.step] at hs
    split at hs <;> cases hs
    exact { h.setServer true with }
  | disable =>
    simp only [CallbackEpochs.step] at hs
    split at hs <;> cases hs
    exact { h.setServer false with }
  | wait =>
    simp only [CallbackEpochs.step] at hs
    split at hs <;> cases hs
    exact { h with }
  | newCallbackData =>
    cases hs
    refine { h with data := fun epoch hepoch => ?_ }
    rcases List.mem_append.mp hepoch with hold | hnew
    · exact h.data epoch hold
    · rw [List.mem_singleton.mp hnew]
      exact h.current
  | destroyCallbackData index =>
    cases hs
    exact { h with data := fun epoch hepoch => h.data epoch (List.mem_of_mem_eraseIdx hepoch) }
  | enter index =>
    cases index with
    | none =>
      cases hs
      exact h.bare (by rintro _ ⟨⟩)
    | some index =>
      obtain ⟨epoch, hepoch, rfl⟩ := Option.map_eq_some_iff.mp hs
      exact h.enter (h.data epoch (List.mem_of_getElem? hepoch))
  | leave index =>
    obtain ⟨guard, hguard, rfl⟩ := Option.map_eq_some_iff.mp hs
    exact h.leave hguard

theorem Counted.reachable (h : Reachable CallbackEpochs.step {} c) : Counted c :=
  h.invariant Counted .initial fun _ _ _ hinv hs => hinv.step hs

/-! ### Closed epochs -/

/-- The epoch is over: its state has no server, nobody holds it, and nobody will. -/
structure Over (epoch : ℕ) (c : CallbackEpochs) : Prop where
  begun : epoch < c.states.length
  server : ∀ state, c.states[epoch]? = some state → state.server = false
  guards : ∀ guard ∈ c.guards, guard.state = some epoch → guard.server = false
  current : c.current = epoch → c.phase = .closed

theorem Over.setServer {epoch : ℕ} (h : Over epoch c) (hphase : c.phase ≠ .closed) (server : Bool)
    (phase : EpochPhase) : Over epoch { c.setServer server with phase } := by
  have hother : c.current ≠ epoch := fun hsame => hphase (h.current hsame)
  refine { h with begun := ?_, server := fun state hstate => ?_, current := ?_ }
  · simpa [CallbackEpochs.setServer] using h.begun
  · simp only [CallbackEpochs.setServer] at hstate
    rw [List.getElem?_modify_ne _ _ hother] at hstate
    exact h.server state hstate
  · exact fun hsame => absurd hsame hother

theorem Over.enter {epoch other : ℕ} (h : Over epoch c) : Over epoch (c.enter other) := by
  unfold CallbackEpochs.enter
  split
  · exact h
  next state hstate =>
    split
    next hserver =>
      have hother : other ≠ epoch := by
        rintro rfl
        rw [h.server state hstate] at hserver
        cases hserver
      refine { h with begun := by simpa using h.begun, server := ?_, guards := ?_ }
      · intro state hstate
        rw [List.getElem?_modify_ne _ _ hother] at hstate
        exact h.server state hstate
      · intro guard hguard hepoch
        rcases List.mem_append.mp hguard with hold | hnew
        · exact h.guards guard hold hepoch
        · rw [List.mem_singleton.mp hnew, Option.some.injEq] at hepoch
          exact absurd hepoch hother
    · refine { h with guards := fun guard hguard hepoch => ?_ }
      rcases List.mem_append.mp hguard with hold | hnew
      · exact h.guards guard hold hepoch
      · rw [List.mem_singleton.mp hnew]

theorem Over.leave {epoch index : ℕ} (h : Over epoch c) (guard : CallbackGuard) :
    Over epoch (c.leave index guard) := by
  have hguards : ∀ other ∈ c.guards.eraseIdx index, other.state = some epoch →
      other.server = false := fun other hother => h.guards other (List.mem_of_mem_eraseIdx hother)
  unfold CallbackEpochs.leave
  simp only
  split
  · refine { h with begun := by simpa using h.begun, server := ?_, guards := hguards }
    intro state hstate
    simp only [List.getElem?_modify, Option.map_eq_map, Option.map_eq_some_iff] at hstate
    obtain ⟨before, hbefore, rfl⟩ := hstate
    have hserver := h.server before hbefore
    split <;> exact hserver
  · exact { h with guards := hguards }

theorem Over.step {epoch : ℕ} (h : Over epoch c) (hs : c.step a = some c') : Over epoch c' := by
  cases a with
  | renew =>
    simp only [CallbackEpochs.step] at hs
    split at hs <;> cases hs
    have hbegun := h.begun
    refine { h with begun := ?_, server := fun state hstate => ?_, current := ?_ }
    · simp only [List.length_append, List.length_singleton]
      omega
    · rw [List.getElem?_append_left hbegun] at hstate
      exact h.server state hstate
    · rintro rfl
      exact absurd hbegun (Nat.lt_irrefl _)
  | publish =>
    simp only [CallbackEpochs.step] at hs
    split at hs <;> cases hs
    next hphase => exact h.setServer (by simp [hphase]) true .opened
  | disable =>
    simp only [CallbackEpochs.step] at hs
    split at hs <;> cases hs
    next hphase => exact h.setServer (by simp [hphase]) false .waiting
  | wait =>
    simp only [CallbackEpochs.step] at hs
    split at hs <;> cases hs
    exact { h with current := fun _ => rfl }
  | newCallbackData =>
    cases hs
    exact { h with }
  | destroyCallbackData index =>
    cases hs
    exact { h with }
  | enter index =>
    cases index with
    | none =>
      cases hs
      refine { h with guards := fun guard hguard hepoch => ?_ }
      rcases List.mem_append.mp hguard with hold | hnew
      · exact h.guards guard hold hepoch
      · rw [List.mem_singleton.mp hnew] at hepoch
        cases hepoch
    | some index =>
      obtain ⟨other, -, rfl⟩ := Option.map_eq_some_iff.mp hs
      exact h.enter
  | leave index =>
    obtain ⟨guard, -, rfl⟩ := Option.map_eq_some_iff.mp hs
    exact h.leave guard

/-- What the server pointer of the current state is, once `start` has replaced the first one. -/
def Phased (c : CallbackEpochs) : Prop :=
  ∀ state, c.states[c.current]? = some state →
    (c.phase = .opened → state.server = true) ∧ (c.phase = .waiting → state.server = false)

theorem Phased.setServer (server : Bool) {phase : EpochPhase}
    (hopened : phase = .opened → server = true) (hwaiting : phase = .waiting → server = false) :
    Phased { c.setServer server with phase } := by
  intro state hstate
  simp only [CallbackEpochs.setServer, List.getElem?_modify_eq, Option.map_eq_map,
    Option.map_eq_some_iff] at hstate
  obtain ⟨before, -, rfl⟩ := hstate
  exact ⟨hopened, hwaiting⟩

theorem Phased.active (h : Phased c) (epoch : ℕ) (f : ℕ → ℕ) (guards : List CallbackGuard) :
    Phased { c with
      states := c.states.modify epoch fun state => { state with active := f state.active }
      guards } := by
  intro state hstate
  simp only [List.getElem?_modify, Option.map_eq_map, Option.map_eq_some_iff] at hstate
  obtain ⟨before, hbefore, rfl⟩ := hstate
  have hserver := h before hbefore
  split <;> exact hserver

theorem Phased.step (h : Phased c) (hs : c.step a = some c') : Phased c' := by
  cases a with
  | renew =>
    simp only [CallbackEpochs.step] at hs
    split at hs <;> cases hs
    exact fun _ _ => ⟨by rintro ⟨⟩, by rintro ⟨⟩⟩
  | publish =>
    simp only [CallbackEpochs.step] at hs
    split at hs <;> cases hs
    exact .setServer true (fun _ => rfl) (by rintro ⟨⟩)
  | disable =>
    simp only [CallbackEpochs.step] at hs
    split at hs <;> cases hs
    exact .setServer false (by rintro ⟨⟩) (fun _ => rfl)
  | wait =>
    simp only [CallbackEpochs.step] at hs
    split at hs <;> cases hs
    exact fun _ _ => ⟨by rintro ⟨⟩, by rintro ⟨⟩⟩
  | newCallbackData =>
    cases hs
    exact h
  | destroyCallbackData index =>
    cases hs
    exact h
  | enter index =>
    cases index with
    | none =>
      cases hs
      exact h
    | some index =>
      obtain ⟨epoch, -, rfl⟩ := Option.map_eq_some_iff.mp hs
      unfold CallbackEpochs.enter
      split
      · exact h
      · split
        · exact h.active epoch (· + 1) _
        · exact h
  | leave index =>
    obtain ⟨guard, -, rfl⟩ := Option.map_eq_some_iff.mp hs
    unfold CallbackEpochs.leave
    simp only
    split
    next epoch _ _ => exact h.active epoch (· - 1) _
    · exact h

theorem Phased.reachable (h : Reachable CallbackEpochs.step {} c) : Phased c :=
  h.invariant Phased (fun _ _ => ⟨by rintro ⟨⟩, by rintro ⟨⟩⟩) fun _ _ _ hinv hs => hinv.step hs

/-- `disableCallbacksAndWait` leaves its epoch behind. -/
theorem over_of_wait (h : Reachable step {} c) (hs : c.step .wait = some c') :
    Over c.current c' := by
  have hcounted := Counted.reachable h
  simp only [step] at hs
  split at hs <;> cases hs
  next hwait =>
    obtain ⟨hwaiting, hnobody⟩ := hwait
    obtain ⟨state, hstate, hzero⟩ := (Option.any_eq_true _ _).mp hnobody
    refine ⟨hcounted.current, fun other hother => (Phased.reachable h other hother).2 hwaiting,
      fun guard hguard hepoch => ?_, fun _ => rfl⟩
    have hnone : c.holders c.current = 0 := by
      rw [← hcounted.active _ _ hstate]
      exact of_decide_eq_true hzero
    have := List.countP_eq_zero.mp hnone guard hguard
    simpa [hepoch] using this

/-- **Callback epochs are closed.** Every state counts the guards that have the server through it;
when `disableCallbacksAndWait` returns there are none in its epoch, and callback data of that epoch
never lead to the server again, whatever is started later. -/
theorem epochs_closed (h : Reachable step {} c) :
    (∀ epoch state, c.states[epoch]? = some state → state.active = c.holders epoch) ∧
      ∀ c', c.step .wait = some c' → c'.holders c.current = 0 ∧
        ∀ later, Reachable step c' later →
          ∀ guard ∈ later.guards, guard.state = some c.current → guard.server = false := by
  refine ⟨(Counted.reachable h).active, fun c' hs => ⟨?_, fun later hlater => ?_⟩⟩
  · refine List.countP_eq_zero.mpr fun guard hguard hholds => ?_
    simp only [Bool.and_eq_true, decide_eq_true_eq] at hholds
    have := (over_of_wait h hs).guards guard hguard hholds.2
    rw [hholds.1] at this
    cases this
  · exact (hlater.invariant (Over c.current) (over_of_wait h hs)
      fun _ _ _ hover hstep => hover.step hstep).guards

/-- A closure outlives its epoch, and is called after a restart. -/
theorem epochs_closed_restarted :
    ∃ c c' later, Reachable step {} c ∧ c.step .wait = some c' ∧ Reachable step c' later ∧
      later.current = 2 ∧ later.guards = [{ state := some 1 }] ∧
      ∀ guard ∈ later.guards, guard.state = some c.current → guard.server = false := by
  have hrun : Run step {} _ _ := Run.ofExec
    [.renew, .publish, .newCallbackData, .enter (some 0), .disable, .leave 0] rfl
  refine ⟨_, _, _, hrun.reachable, rfl,
    Reachable.refl.exec [.renew, .publish, .enter (some 0)] rfl, rfl, rfl, ?_⟩
  exact ((epochs_closed hrun.reachable).2 _ rfl).2 _
    (Reachable.refl.exec [.renew, .publish, .enter (some 0)] rfl)

/-! ### Callbacks that come and go -/

/-- While the epoch is open, a callback gets the server. -/
theorem enters_current (h : Reachable step {} c) (hopened : c.phase = .opened) :
    ∃ c', Reachable step {} c' ∧ c'.phase = .opened ∧
      c'.holders c'.current = c.holders c.current + 1 := by
  have hcurrent := (Counted.reachable h).current
  have hstate := List.getElem?_eq_getElem hcurrent
  have hserver := (Phased.reachable h _ hstate).1 hopened
  refine ⟨({ c with data := c.data ++ [c.current] } : CallbackEpochs).enter c.current,
    (h.tail (a := .newCallbackData) rfl).tail (a := .enter (some c.data.length)) ?_, ?_, ?_⟩
  · simp [step]
  · simp [CallbackEpochs.enter, hstate, hserver, hopened]
  · simp [CallbackEpochs.enter, hstate, hserver, holders]

/-- A callback that has the server returns. -/
theorem leaves_current (h : Reachable step {} c) (hinside : 0 < c.holders c.current) :
    ∃ c', Reachable step {} c' ∧ c'.phase = c.phase ∧
      c'.holders c'.current + 1 = c.holders c.current := by
  obtain ⟨guard, hguard, hholds⟩ := List.countP_pos_iff.mp hinside
  obtain ⟨index, hindex⟩ := List.getElem?_of_mem hguard
  have hcount := countP_eraseIdx hindex fun guard =>
    guard.server && decide (guard.state = some c.current)
  rw [if_pos hholds] at hcount
  simp only [Bool.and_eq_true, decide_eq_true_eq] at hholds
  refine ⟨c.leave index guard, h.tail (a := .leave index) ?_, ?_, ?_⟩
  · simp [step, hindex]
  · simp [CallbackEpochs.leave, hholds]
  · simp [CallbackEpochs.leave, hholds, holders, hcount]

end CallbackEpochs

/-! ### The callbacks of the server -/

/-- How far the owner has come with the callbacks. -/
def Lifecycle.epochPhase : Lifecycle → EpochPhase
  | .stopped | .starting .publish | .stopping .retire | .stopping .release => .closed
  | .stopping .waitCallbacks => .waiting
  | .starting _ | .started | .stopping _ => .opened

namespace RtspServer

variable {t t' : RtspServer} {a : RtspAction} {fps : ℕ}

/-- The callbacks that are inside the server, the tick of the watchdog included. -/
def inside (t : RtspServer) : ℕ := t.callbacks.length + if t.watchdog = .idle then 0 else 1

/-- The owner is where it is in the epochs, and the callbacks inside are the guards that the current
epoch counts. -/
structure Shadows (t : RtspServer) (c : CallbackEpochs) : Prop where
  phase : c.phase = t.lifecycle.epochPhase
  holders : c.holders c.current = t.inside

/-- Callbacks come one by one, while the epoch is open, and leave one by one. -/
theorem step_count (hs : t.step a = some t') (hcall : ∀ call ok, a ≠ .call call ok)
    (howner : ∀ env, a ≠ .owner env) :
    t'.inside = t.inside ∨ (t.callbacksOpen = true ∧ t'.inside = t.inside + 1) ∨
      t'.inside + 1 = t.inside := by
  unfold inside
  cases a with
  | call call ok => exact absurd rfl (hcall call ok)
  | owner env => exact absurd rfl (howner env)
  | signal signal =>
    obtain ⟨hopen, rfl⟩ := step_signal hs
    cases signal.task with
    | none => exact Or.inl (by simp)
    | some task => exact Or.inr (Or.inl ⟨hopen, by simp only [List.length_append]; simp; omega⟩)
  | callback index env =>
    simp only [step] at hs
    split at hs
    · cases hs
    next task htask =>
      cases hs
      obtain ⟨latest, lost, metrics, heq, -⟩ := callbackStep_frame env t task
      have hlt := (List.getElem?_eq_some_iff.mp htask).1
      rw [heq]
      simp only [List.length_append, List.length_eraseIdx, if_pos hlt]
      cases (t.callbackStep env task).2 with
      | none => exact Or.inr (Or.inr (by simp; omega))
      | some next => exact Or.inl (by simp; omega)
  | tick now =>
    simp only [step] at hs
    split at hs
    next hticks =>
      simp only [Bool.and_eq_true, decide_eq_true_eq] at hticks
      split at hs <;> cases hs
      · exact Or.inr (Or.inl ⟨hticks.1.2, by simp [hticks.2]⟩)
      · exact Or.inl rfl
    · cases hs
  | watchdog env =>
    obtain ⟨_, _, _, _, _, watchdog, rfl, hinside, -⟩ := watchdogStep_frame hs
    simp only [if_neg hinside]
    by_cases hidle : watchdog = .idle
    · exact Or.inr (Or.inr (by simp [hidle]))
    · exact Or.inl (by simp [hidle])
  | worker =>
    obtain ⟨_, rfl⟩ := step_worker hs
    exact Or.inl rfl
  | feeder env =>
    obtain ⟨_, _, _, _, rfl, -⟩ := feederStep_frame hs
    exact Or.inl rfl
  | submit unit =>
    obtain ⟨_, _, _, rfl⟩ := submitStep_frame hs
    exact Or.inl rfl
  | submitNext =>
    obtain ⟨_, _, _, _, rfl, -⟩ := submitNextStep_frame hs
    exact Or.inl rfl

variable {c : CallbackEpochs}

theorem Shadows.startStep (h : Shadows t c) (hr : Reachable CallbackEpochs.step {} c)
    {stage : StartStage} (hphase : t.lifecycle = .starting stage) (hepoch : EpochInv t)
    (env : OwnerEnv) :
    ∃ c', Reachable CallbackEpochs.step {} c' ∧ Shadows (t.startStep stage env) c' := by
  have hsame : (t.startStep stage env).inside = t.inside := by
    obtain ⟨_, _, _, _, _, _, _, heq, -⟩ := startStep_frame stage env t
    rw [heq]
    rfl
  have hclosed := h.phase
  rw [hphase] at hclosed
  by_cases hpublish : stage = .publish
  · subst hpublish
    -- the state is replaced, and nobody holds the new one
    have hnone : t.inside = 0 := by
      obtain ⟨hcallbacks, hwatchdog⟩ := hepoch.sealed (by rw [hphase]; rfl)
      simp [inside, hcallbacks, hwatchdog]
    have hrenewed := hr.tail (a := .renew) (by
      rw [CallbackEpochs.step, if_pos (show c.phase = .closed from hclosed)])
    have hopened := hrenewed.tail (a := .publish) (by
      rw [CallbackEpochs.step, if_pos rfl])
    refine ⟨_, hopened, rfl, ?_⟩
    rw [hsame, hnone]
    exact (CallbackEpochs.Counted.reachable hr).holders_new (Nat.le_refl _)
  · refine ⟨c, hr, ?_, h.holders.trans hsame.symm⟩
    have hopen : c.phase = .opened := by
      rw [hclosed]
      cases stage <;> first | rfl | exact absurd rfl hpublish
    rw [hopen]
    obtain ⟨ok, id, now, counted⟩ := env
    cases stage with
    | publish => exact absurd rfl hpublish
    | factory =>
      simp only [RtspServer.startStep]
      split
      · rfl
      · split <;> rfl
    | publishWatchdog => rfl
    | _ => cases ok <;> rfl

theorem Shadows.stopStep (h : Shadows t c) (hr : Reachable CallbackEpochs.step {} c)
    {stage : StopStage} (hphase : t.lifecycle = .stopping stage) (hepoch : EpochInv t)
    {env : OwnerEnv} (hs : t.stopStep stage env = some t') :
    ∃ c', Reachable CallbackEpochs.step {} c' ∧ Shadows t' c' := by
  have hsame : t'.inside = t.inside := by
    obtain ⟨_, _, _, _, _, _, _, _, _, heq, -⟩ := stopStep_frame hs
    rw [heq]
    rfl
  have hbefore := h.phase
  rw [hphase] at hbefore
  have hstay : t'.lifecycle.epochPhase = c.phase →
      ∃ c', Reachable CallbackEpochs.step {} c' ∧ Shadows t' c' := fun hafter =>
    ⟨c, hr, hafter.symm, h.holders.trans hsame.symm⟩
  cases stage with
  | publish =>
    have hrunning : t.shared.running = true := by rw [hepoch.running, hphase]; rfl
    simp only [RtspServer.stopStep, RtspState.publishStop, hrunning] at hs
    cases hs
    exact hstay hbefore.symm
  | joinFeeder | joinWorker =>
    simp only [RtspServer.stopStep] at hs
    split at hs <;> cases hs
    exact hstay hbefore.symm
  | waitJob waitFor =>
    simp only [RtspServer.stopStep] at hs
    split at hs
    · cases hs
      exact hstay hbefore.symm
    · split at hs <;> cases hs
      refine hstay ?_
      rw [hbefore, hphase]
  | disableCallbacks =>
    cases hs
    refine ⟨_, hr.tail (a := .disable) (by
      rw [CallbackEpochs.step, if_pos (show c.phase = .opened from hbefore)]), rfl, ?_⟩
    exact h.holders.trans hsame.symm
  | waitCallbacks =>
    simp only [RtspServer.stopStep] at hs
    split at hs
    next hempty =>
      cases hs
      have hcurrent := (CallbackEpochs.Counted.reachable hr).current
      have hstate := List.getElem?_eq_getElem hcurrent
      have hzero : c.states[c.current].active = 0 := by
        rw [(CallbackEpochs.Counted.reachable hr).active _ _ hstate, h.holders]
        simp [inside, hempty]
      refine ⟨_, hr.tail (a := .wait) (by
        rw [CallbackEpochs.step, if_pos ⟨hbefore, by simp [hstate, hzero]⟩]), rfl, ?_⟩
      exact h.holders.trans hsame.symm
    · cases hs
  | _ =>
    cases hs
    exact hstay hbefore.symm

theorem Shadows.step (h : Shadows t c) (hr : Reachable CallbackEpochs.step {} c)
    (hepoch : EpochInv t) (hs : t.step a = some t') :
    ∃ c', Reachable CallbackEpochs.step {} c' ∧ Shadows t' c' := by
  by_cases hcall : ∃ call ok, a = .call call ok
  · obtain ⟨call, ok, rfl⟩ := hcall
    obtain ⟨hphase, rfl | rfl | ⟨hrunning, rfl⟩ | ⟨hrunning, rfl⟩⟩ := callStep_cases hs
    · exact ⟨c, hr, h⟩
    · exact ⟨c, hr, { h with }⟩
    · have hstopped : t.lifecycle = .stopped := hphase.resolve_right fun hstarted => by
        rw [hepoch.running, hstarted] at hrunning
        cases hrunning
      exact ⟨c, hr, by rw [h.phase, hstopped]; rfl, h.holders⟩
    · have hstarted : t.lifecycle = .started := hphase.resolve_left fun hstopped => by
        rw [hepoch.running, hstopped] at hrunning
        cases hrunning
      exact ⟨c, hr, by rw [h.phase, hstarted]; rfl, h.holders⟩
  by_cases howner : ∃ env, a = .owner env
  · obtain ⟨env, rfl⟩ := howner
    rcases step_owner hs with ⟨stage, hphase, rfl⟩ | ⟨stage, hphase, hs⟩
    · exact h.startStep hr hphase hepoch env
    · exact h.stopStep hr hphase hepoch hs
  have hlifecycle := (step_epoch hs (by simpa using hcall) (by simpa using howner)).1
  have hphase : c.phase = t'.lifecycle.epochPhase := by rw [hlifecycle, h.phase]
  rcases step_count hs (by simpa using hcall) (by simpa using howner) with
    hsame | ⟨hopen, hcome⟩ | hleave
  · exact ⟨c, hr, hphase, h.holders.trans hsame.symm⟩
  · have hopened : c.phase = .opened := by
      have hclosed : t.lifecycle.closed ≠ true := fun hclosed => by
        rw [hepoch.closed hclosed] at hopen
        cases hopen
      rw [h.phase]
      unfold Lifecycle.closed at hclosed
      unfold Lifecycle.epochPhase
      split at hclosed <;> simp_all
    obtain ⟨c', hr', hphase', hholders⟩ := CallbackEpochs.enters_current hr hopened
    exact ⟨c', hr', by rw [hphase', ← hopened, hphase], by rw [hholders, h.holders, hcome]⟩
  · obtain ⟨c', hr', hphase', hholders⟩ :=
      CallbackEpochs.leaves_current hr (by rw [h.holders]; omega)
    refine ⟨c', hr', by rw [hphase', hphase], ?_⟩
    rw [h.holders] at hholders
    omega

/-- **The callbacks inside the server are the guards that the state of its epoch counts**, so the
wait of `stopLocked` for its callbacks is the one of `disableCallbacksAndWait`. -/
theorem shadows_of_reachable (h : Reachable step (initial fps) t) :
    ∃ c, Reachable CallbackEpochs.step {} c ∧ Shadows t c := by
  suffices h' : EpochInv t ∧ ∃ c, Reachable CallbackEpochs.step {} c ∧ Shadows t c from h'.2
  refine h.invariant (fun t => EpochInv t ∧ ∃ c, Reachable CallbackEpochs.step {} c ∧ Shadows t c)
    ⟨.initial fps, {}, .refl, rfl, rfl⟩ ?_
  rintro t a t' ⟨hepoch, c, hr, hshadows⟩ hs
  exact ⟨hepoch.step hs, hshadows.step hr hepoch hs⟩

end RtspServer

end EggVision
