import EggVision.Camera.Capture
import EggVision.Lib.History
import EggVision.Lib.Transition
import Mathlib.Data.List.Perm.Basic

/-!
# Where the requests are

`start` queues every request of `requests_`, wherever the requests are. Requests that are still out
when it lowers the recycler's flag, because a lease or a callback of the last epoch is left or the
recycler's deque is not empty, are then in two places for the whole epoch: no step of an epoch loses
or duplicates a request, so the account of the epoch is off by exactly what was left over.

## Main definitions

* `places`, `leftover` — where requests are, and what `start` does not know of
* `Account` — the account of an epoch

## Main results

* `step_places` — what a step does to the places
* `account_run` — the account of every epoch of a run
* `passes_free`, `not_passes_free` — which requests are queued while they are in use
* `conserved_iff` — when an epoch conserves its requests
-/

namespace EggVision

namespace CameraCapture

open Transition History

/-- The requests that `start` has still to queue. -/
def OwnerPhase.pending (count : ℕ) : OwnerPhase → List Request
  | .opening | .publishing | .spawning => List.range count
  | .queueing rest => rest
  | .idle | .lowering | .raising | .raisingRecycler | .closing | .joining | .clearing => []

/-- Every place a request can be in. -/
def places (s : CameraCapture) : List Request :=
  s.owner.pending s.count ++ s.queued ++ s.leases.map Lease.request ++ s.requests ++
    s.recycler.held ++ s.callbacks.map Callback.request

/-- What is out while the camera and the recycler rest: in a lease, in a callback, or in the deque
of the recycler. -/
def leftover (s : CameraCapture) : List Request :=
  s.leases.map Lease.request ++ s.requests ++ s.callbacks.map Callback.request

/-- From the lowered flag on, up to the next `stop`. -/
def capturing (s : CameraCapture) : Bool :=
  match s.owner with
  | .opening | .publishing | .spawning | .queueing _ => true
  | .idle => s.running
  | .lowering | .raising | .raisingRecycler | .closing | .joining | .clearing => false

/-- The request that is lost by a failed `queueRequest` of the recycler. -/
def lostBy (x : CameraCapture × CameraAction) : List Request :=
  match x.2 with
  | .recycle accepted => if x.1.takes accepted then [] else x.1.recycler.held
  | _ => []

variable {s s' : CameraCapture} {a : CameraAction} {n : ℕ}
  {history : List (CameraCapture × CameraAction)}

theorem count_places (s : CameraCapture) (r : Request) : s.places.count r =
    (s.owner.pending s.count).count r + s.queued.count r +
      (s.leases.map Lease.request).count r + s.requests.count r + s.recycler.held.count r +
      (s.callbacks.map Callback.request).count r := by
  simp only [places, List.count_append]

/-- Taking one element out of a list, as its requests see it. -/
theorem count_map_erase {α : Type} [DecidableEq α] (f : α → Request) {c : α} {l : List α}
    (h : c ∈ l) (r : Request) :
    (l.map f).count r = [f c].count r + ((l.erase c).map f).count r := by
  rw [((List.perm_cons_erase h).map f).count_eq r, List.map_cons, ← List.singleton_append,
    List.count_append]

/-! ### Phases -/

/-- Between `stop` and the spawning of the recycler, up to the start of the camera. -/
def resting (s : CameraCapture) : Bool :=
  match s.owner with
  | .idle => !s.running
  | .lowering | .opening | .clearing => true
  | .publishing | .spawning | .queueing _ | .raising | .raisingRecycler | .closing | .joining =>
    false

/-- The camera runs, and nothing is queued yet. -/
def OwnerPhase.opened : OwnerPhase → Bool
  | .publishing | .spawning => true
  | _ => false

/-- What a stage knows about `running_`. -/
def OwnerPhase.runs : OwnerPhase → Option Bool
  | .spawning | .queueing _ => some true
  | .lowering | .opening | .raising | .raisingRecycler | .closing | .joining | .clearing =>
    some false
  | .idle | .publishing => none

/-- What the stages of `start` and `stop` know, in every reachable state. -/
structure Staged (s : CameraCapture) : Prop where
  lowered : s.capturing = true → s.stopping = false ∧ s.recyclerStopping = false
  resting : s.resting = true → s.cameraRunning = false ∧ s.recycler = .absent
  opened : s.owner.opened = true → s.queued = [] ∧ s.recycler = .absent
  lowering : s.owner = .lowering → s.stopping = false
  joining : s.owner = .joining → s.cameraRunning = false
  runs : ∀ running, s.owner.runs = some running → s.running = running
  closed : s.cameraRunning = false → s.queued = []

theorem staged_initial (n : ℕ) : Staged (initial n) where
  lowered := by rintro ⟨⟩
  resting := fun _ => ⟨rfl, rfl⟩
  opened := by rintro ⟨⟩
  lowering := by rintro ⟨⟩
  joining := by rintro ⟨⟩
  runs := by rintro _ ⟨⟩
  closed := fun _ => rfl

/-- What the steps of callbacks and of owners of leases leave alone. -/
structure SameStage (s s' : CameraCapture) : Prop where
  count : s'.count = s.count
  running : s'.running = s.running
  stopping : s'.stopping = s.stopping
  recyclerStopping : s'.recyclerStopping = s.recyclerStopping
  cameraRunning : s'.cameraRunning = s.cameraRunning
  queued : s'.queued = s.queued
  recycler : s'.recycler = s.recycler
  owner : s'.owner = s.owner

theorem sameStage_advance (s : CameraCapture) (callback : Callback) :
    SameStage s (s.advance callback) := by
  obtain ⟨request, stage⟩ := callback
  cases stage with
  | entered outcome =>
    simp only [advance]
    split
    · exact ⟨rfl, rfl, rfl, rfl, rfl, rfl, rfl, rfl⟩
    · cases outcome <;> exact ⟨rfl, rfl, rfl, rfl, rfl, rfl, rfl, rfl⟩
  | releasing | counting | building | released | checking | pushing =>
    exact ⟨rfl, rfl, rfl, rfl, rfl, rfl, rfl, rfl⟩

theorem sameStage_disown (s : CameraCapture) (errors : ℕ) (lease left : Lease) :
    SameStage s (disown { s with captureErrors := errors } lease left) := by
  unfold disown
  split <;> exact ⟨rfl, rfl, rfl, rfl, rfl, rfl, rfl, rfl⟩

theorem Staged.of_sameStage (h : Staged s) (hsame : SameStage s s') : Staged s' where
  lowered := by
    rw [hsame.stopping, hsame.recyclerStopping]
    intro hc
    refine h.lowered ?_
    rwa [capturing, hsame.owner, hsame.running] at hc
  resting := by
    rw [hsame.cameraRunning, hsame.recycler]
    intro hr
    refine h.resting ?_
    rwa [CameraCapture.resting, hsame.owner, hsame.running] at hr
  opened := by
    rw [hsame.owner, hsame.queued, hsame.recycler]
    exact h.opened
  lowering := by
    rw [hsame.owner, hsame.stopping]
    exact h.lowering
  joining := by
    rw [hsame.owner, hsame.cameraRunning]
    exact h.joining
  runs := by
    rw [hsame.owner, hsame.running]
    exact h.runs
  closed := by
    rw [hsame.cameraRunning, hsame.queued]
    exact h.closed

/-- The recycler moves: it has a thread, so the owner neither rests nor has yet to spawn it. -/
theorem Staged.recycler_moves (h : Staged s) (hrecycler : s.recycler ≠ .absent)
    {queued requests : List Request} (errors : ℕ) (recycler : RecyclerPhase)
    (hclosed : s.cameraRunning = false → queued = []) :
    Staged { s with queued, requests, captureErrors := errors, recycler } where
  lowered := h.lowered
  resting := fun hr => absurd (h.resting hr).2 hrecycler
  opened := fun ho => absurd (h.opened ho).2 hrecycler
  lowering := h.lowering
  joining := h.joining
  runs := h.runs
  closed := hclosed

theorem Staged.step (h : Staged s) (hs : s.step a = some s') : Staged s' := by
  cases stepped_of_step hs with
  | start hidle =>
    have hrest := h.resting (by simp [CameraCapture.resting, hidle])
    exact ⟨by rintro ⟨⟩, fun _ => hrest, by rintro ⟨⟩, fun _ => rfl, by rintro ⟨⟩,
      fun _ hr => hidle.2.trans (Option.some.inj hr), h.closed⟩
  | lower howner =>
    have hrest := h.resting (by simp [CameraCapture.resting, howner])
    exact ⟨fun _ => ⟨h.lowering howner, rfl⟩, fun _ => hrest, by rintro ⟨⟩, by rintro ⟨⟩,
      by rintro ⟨⟩, fun _ hr => h.runs _ (by rw [howner]; exact hr), h.closed⟩
  | openCamera ok howner =>
    have hrest := h.resting (by simp [CameraCapture.resting, howner])
    have hlowered := h.lowered (by simp [capturing, howner])
    cases ok with
    | true =>
      exact ⟨fun _ => hlowered, by rintro ⟨⟩, fun _ => ⟨h.closed hrest.1, hrest.2⟩, by rintro ⟨⟩,
        by rintro ⟨⟩, by rintro _ ⟨⟩, by rintro ⟨⟩⟩
    | false =>
      have hrun := h.runs false (by rw [howner]; rfl)
      exact ⟨fun hc => absurd hrun (by simpa [capturing] using hc), fun _ => ⟨rfl, hrest.2⟩,
        by rintro ⟨⟩, by rintro ⟨⟩, by rintro ⟨⟩, by rintro _ ⟨⟩, fun _ => h.closed hrest.1⟩
  | publish howner =>
    have hlowered := h.lowered (by simp [capturing, howner])
    have hopened := h.opened (by rw [howner]; rfl)
    exact ⟨fun _ => hlowered, by rintro ⟨⟩, fun _ => hopened, by rintro ⟨⟩, by rintro ⟨⟩,
      fun _ hr => Option.some.inj hr, h.closed⟩
  | spawn howner =>
    have hlowered := h.lowered (by simp [capturing, howner])
    exact ⟨fun _ => hlowered, by rintro ⟨⟩, by rintro ⟨⟩, by rintro ⟨⟩, by rintro ⟨⟩,
      fun _ hr => h.runs _ (by rw [howner]; exact hr), h.closed⟩
  | queued accepted request rest howner htakes =>
    have hlowered := h.lowered (by simp [capturing, howner])
    refine ⟨fun _ => hlowered, by rintro ⟨⟩, by rintro ⟨⟩, by rintro ⟨⟩, by rintro ⟨⟩,
      fun _ hr => h.runs _ (by rw [howner]; exact hr), fun hclosed => ?_⟩
    rw [takes, show s.cameraRunning = false from hclosed, Bool.and_false] at htakes
    cases htakes
  | refused accepted request rest howner htakes =>
    exact ⟨by rintro ⟨⟩, by rintro ⟨⟩, by rintro ⟨⟩, by rintro ⟨⟩, by rintro ⟨⟩,
      fun _ hr => Option.some.inj hr, h.closed⟩
  | started howner =>
    have hlowered := h.lowered (by simp [capturing, howner])
    have hrun := h.runs true (by rw [howner]; rfl)
    exact ⟨fun _ => hlowered, fun hr => absurd hrun (by simpa [CameraCapture.resting] using hr),
      by rintro ⟨⟩, by rintro ⟨⟩, by rintro ⟨⟩, by rintro _ ⟨⟩, h.closed⟩
  | stop hidle =>
    exact ⟨by rintro ⟨⟩, by rintro ⟨⟩, by rintro ⟨⟩, by rintro ⟨⟩, by rintro ⟨⟩,
      fun _ hr => Option.some.inj hr, h.closed⟩
  | raise howner =>
    exact ⟨by rintro ⟨⟩, by rintro ⟨⟩, by rintro ⟨⟩, by rintro ⟨⟩, by rintro ⟨⟩,
      fun _ hr => h.runs _ (by rw [howner]; exact hr), h.closed⟩
  | raiseRecycler howner =>
    exact ⟨by rintro ⟨⟩, by rintro ⟨⟩, by rintro ⟨⟩, by rintro ⟨⟩, by rintro ⟨⟩,
      fun _ hr => h.runs _ (by rw [howner]; exact hr), h.closed⟩
  | closeCamera howner =>
    exact ⟨by rintro ⟨⟩, by rintro ⟨⟩, by rintro ⟨⟩, by rintro ⟨⟩, fun _ => rfl,
      fun _ hr => h.runs _ (by rw [howner]; exact hr), fun _ => rfl⟩
  | join hjoin =>
    exact ⟨by rintro ⟨⟩, fun _ => ⟨h.joining hjoin.1, rfl⟩, by rintro ⟨⟩, by rintro ⟨⟩,
      by rintro ⟨⟩, fun _ hr => h.runs _ (by rw [hjoin.1]; exact hr), h.closed⟩
  | clear howner =>
    have hrest := h.resting (by simp [CameraCapture.resting, howner])
    have hrun := h.runs false (by rw [howner]; rfl)
    exact ⟨fun hc => absurd hrun (by simpa [capturing] using hc), fun _ => hrest, by rintro ⟨⟩,
      by rintro ⟨⟩, by rintro ⟨⟩, by rintro _ ⟨⟩, h.closed⟩
  | complete request outcome hqueued =>
    refine ⟨h.lowered, h.resting, fun ho => ?_, h.lowering, h.joining, h.runs, fun hclosed => ?_⟩
    · rw [(h.opened ho).1] at hqueued
      cases hqueued
    · rw [h.closed hclosed] at hqueued
      cases hqueued
  | callback callback hcallback =>
    exact h.of_sameStage (sameStage_advance s callback)
  | delivered lease throws hlease =>
    cases throws with
    | false => exact h.of_sameStage (sameStage_disown s s.captureErrors lease _)
    | true => exact h.of_sameStage (sameStage_disown s (s.captureErrors + 1) lease _)
  | copy lease hlease =>
    exact h.of_sameStage ⟨rfl, rfl, rfl, rfl, rfl, rfl, rfl, rfl⟩
  | drop lease hlease =>
    exact h.of_sameStage (sameStage_disown s s.captureErrors lease _)
  | take request rest hwaiting hrequests =>
    exact h.recycler_moves (by rw [hwaiting]; rintro ⟨⟩) s.captureErrors _ h.closed
  | exit hexit =>
    exact h.recycler_moves (by rw [hexit.1]; rintro ⟨⟩) s.captureErrors _ h.closed
  | recycled accepted request hholding htakes =>
    refine h.recycler_moves (by rw [hholding]; rintro ⟨⟩) s.captureErrors _ fun hclosed => ?_
    rw [takes, hclosed, Bool.and_false] at htakes
    cases htakes
  | lost accepted request hholding htakes =>
    exact h.recycler_moves (by rw [hholding]; rintro ⟨⟩) _ _ h.closed

theorem step_count (hs : s.step a = some s') : s'.count = s.count := by
  cases stepped_of_step hs with
  | callback callback hcallback =>
    exact (sameStage_advance s callback).count
  | delivered lease throws hlease =>
    cases throws with
    | false => exact (sameStage_disown s s.captureErrors lease _).count
    | true => exact (sameStage_disown s (s.captureErrors + 1) lease _).count
  | drop lease hlease =>
    exact (sameStage_disown s s.captureErrors lease _).count
  | _ => rfl

/-! ### What a step does to the places -/

/-- A step in which requests only move: none is lost while the flags are down, and none appears. -/
structure Moves (lost : List Request) (s s' : CameraCapture) : Prop where
  bounded : ∀ r, s'.places.count r + lost.count r ≤ s.places.count r
  exact : s'.capturing = true → s.capturing = true ∧
    ∀ r, s'.places.count r + lost.count r = s.places.count r

theorem Moves.of_eq {lost : List Request} (hcapturing : s'.capturing = s.capturing)
    (h : ∀ r, s'.places.count r + lost.count r = s.places.count r) : Moves lost s s' :=
  ⟨fun r => (h r).le, fun hc => ⟨hcapturing ▸ hc, h⟩⟩

theorem Moves.of_idle {lost : List Request} (hcapturing : s'.capturing = false)
    (h : ∀ r, s'.places.count r + lost.count r ≤ s.places.count r) : Moves lost s s' :=
  ⟨h, fun hc => by rw [hcapturing] at hc; cases hc⟩

/-- A callback hands its request on, or it leaves, which it only does when a flag is up. -/
theorem moves_advance (h : Staged s) {callback : Callback} (hcallback : callback ∈ s.callbacks) :
    Moves [] s (s.advance callback) := by
  have hout := count_map_erase Callback.request hcallback
  have hsame : (s.advance callback).capturing = s.capturing := by
    have hstages := sameStage_advance s callback
    rw [capturing, capturing, hstages.owner, hstages.running]
  have hkept : (∀ r, (s.advance callback).places.count r = s.places.count r) →
      Moves [] s (s.advance callback) := fun heq => .of_eq hsame fun r => by simp [heq r]
  have hleft : (s.stopping = true ∨ s.recyclerStopping = true) →
      s.advance callback = { s with callbacks := s.callbacks.erase callback } →
      Moves [] s (s.advance callback) := by
    intro hflag heq
    have hidle : s.capturing = false := by
      by_contra hc
      have hlowered := h.lowered (by simpa using hc)
      simp [hlowered] at hflag
    refine .of_idle (hsame.trans hidle) fun r => ?_
    rw [heq]
    simp only [count_places, hout r, List.count_nil]
    omega
  obtain ⟨request, stage⟩ := callback
  cases stage with
  | entered outcome =>
    cases hstop : s.stopping with
    | true => exact hleft (Or.inl hstop) (by simp [advance, hstop])
    | false =>
      refine hkept fun r => ?_
      cases outcome <;>
        · simp only [advance, hstop, Bool.false_eq_true, if_false, count_places, hout r,
            List.map_cons, List.count_cons, List.count_nil]
          omega
  | releasing =>
    cases hstop : s.stopping with
    | true => exact hleft (Or.inl hstop) (by simp [advance, hstop])
    | false =>
      refine hkept fun r => ?_
      simp only [advance, hstop, Bool.false_eq_true, if_false, count_places, hout r,
        List.map_cons, List.count_cons, List.count_nil]
      omega
  | checking =>
    cases hstop : s.recyclerStopping with
    | true => exact hleft (Or.inr hstop) (by simp [advance, hstop])
    | false =>
      refine hkept fun r => ?_
      simp only [advance, hstop, Bool.false_eq_true, if_false, count_places, hout r,
        List.map_cons, List.count_cons, List.count_nil]
      omega
  | counting | building | released | pushing =>
    refine hkept fun r => ?_
    simp only [advance, countFrame, count_places, hout r, List.map_cons, List.count_cons,
      List.count_nil, List.count_append]
    omega

/-- A lease keeps its request, or its last owner hands the request to the release function. -/
theorem moves_disown (errors : ℕ) {lease left : Lease} (hlease : lease ∈ s.leases)
    (hrequest : left.request = lease.request) :
    Moves [] s (disown { s with captureErrors := errors } lease left) := by
  have hout := count_map_erase Lease.request hlease
  have hsame := sameStage_disown s errors lease left
  refine .of_eq (by rw [capturing, capturing, hsame.owner, hsame.running]) fun r => ?_
  unfold disown
  split
  · simp only [count_places, hout r, List.map_cons, hrequest, List.count_cons, List.count_nil]
    omega
  · simp only [count_places, hout r, List.map_cons, List.count_cons, List.count_nil]
    omega

/-- Requests only move, unless `start` lowers the flag of the recycler. -/
theorem step_places (h : Staged s) (hs : s.step a = some s') (ha : a ≠ .lower) :
    Moves (lostBy (s, a)) s s' := by
  cases stepped_of_step hs with
  | lower => exact absurd rfl ha
  | start hidle =>
    exact .of_idle rfl fun r => by
      simp [count_places, hidle.1, OwnerPhase.pending, lostBy]
  | openCamera ok howner =>
    cases ok with
    | true =>
      exact .of_eq (by simp [capturing, howner]) fun r => by
        simp [count_places, howner, OwnerPhase.pending, lostBy]
    | false =>
      have hrun := h.runs false (by rw [howner]; rfl)
      exact .of_idle hrun fun r => by
        simp [count_places, howner, OwnerPhase.pending, lostBy]
  | publish howner =>
    exact .of_eq (by simp [capturing, howner]) fun r => by
      simp [count_places, howner, OwnerPhase.pending, lostBy]
  | spawn howner =>
    have habsent := (h.opened (by rw [howner]; rfl)).2
    exact .of_eq (by simp [capturing, howner]) fun r => by
      simp [count_places, howner, OwnerPhase.pending, lostBy, habsent, RecyclerPhase.held]
  | queued accepted request rest howner htakes =>
    refine .of_eq (by simp [capturing, howner]) fun r => ?_
    simp only [count_places, howner, OwnerPhase.pending, lostBy, List.count_append,
      List.count_cons, List.count_nil]
    omega
  | refused accepted request rest howner htakes =>
    refine .of_idle rfl fun r => ?_
    simp only [count_places, howner, OwnerPhase.pending, lostBy, List.count_nil]
    omega
  | started howner =>
    have hrun := h.runs true (by rw [howner]; rfl)
    exact .of_eq (by simp [capturing, howner, hrun]) fun r => by
      simp [count_places, howner, OwnerPhase.pending, lostBy]
  | stop hidle =>
    exact .of_idle rfl fun r => by
      simp [count_places, hidle.1, OwnerPhase.pending, lostBy]
  | raise howner | raiseRecycler howner =>
    exact .of_idle rfl fun r => by
      simp [count_places, howner, OwnerPhase.pending, lostBy]
  | closeCamera howner =>
    exact .of_idle rfl fun r => by
      simp [count_places, howner, OwnerPhase.pending, lostBy]
  | join hjoin =>
    exact .of_idle rfl fun r => by
      simp [count_places, hjoin.1, OwnerPhase.pending, lostBy, RecyclerPhase.held]
  | clear howner =>
    have hrun := h.runs false (by rw [howner]; rfl)
    refine .of_idle hrun fun r => ?_
    simp only [count_places, howner, OwnerPhase.pending, lostBy, List.count_nil]
    omega
  | complete request outcome hqueued =>
    refine .of_eq rfl fun r => ?_
    have hout := (List.perm_cons_erase hqueued).count_eq r
    simp only [count_places, hout, lostBy, List.map_cons, List.count_cons, List.count_nil]
    omega
  | callback callback hcallback =>
    exact moves_advance h hcallback
  | delivered lease throws hlease =>
    cases throws with
    | false => exact moves_disown s.captureErrors hlease.1 rfl
    | true => exact moves_disown (s.captureErrors + 1) hlease.1 rfl
  | copy lease hlease =>
    refine .of_eq rfl fun r => ?_
    have hout := count_map_erase Lease.request hlease r
    simp only [count_places, hout, lostBy, List.map_cons, List.count_cons, List.count_nil]
    omega
  | drop lease hlease =>
    exact moves_disown s.captureErrors hlease.1 rfl
  | take request rest hwaiting hrequests =>
    refine .of_eq rfl fun r => ?_
    simp only [count_places, hwaiting, hrequests, lostBy, RecyclerPhase.held, List.count_cons,
      List.count_nil]
    omega
  | exit hexit =>
    exact .of_eq rfl fun r => by simp [count_places, hexit.1, lostBy, RecyclerPhase.held]
  | recycled accepted request hholding htakes =>
    refine .of_eq rfl fun r => ?_
    simp only [count_places, hholding, lostBy, htakes, if_true, RecyclerPhase.held,
      List.count_append, List.count_cons, List.count_nil]
    omega
  | lost accepted request hholding htakes =>
    refine .of_eq rfl fun r => ?_
    simp only [count_places, hholding, lostBy, htakes, RecyclerPhase.held, List.count_cons,
      List.count_nil, if_false, Bool.false_eq_true]
    omega

/-! ### The account of an epoch -/

/-- The account of an epoch that started with `carried` left over and has lost `lost`: no request
is in more places than it was queued or left over, and none is in fewer before `stop`. -/
structure Account (carried lost : List Request) (s : CameraCapture) : Prop where
  bounded : ∀ r, s.places.count r + lost.count r ≤
    (List.range s.count).count r + carried.count r
  exact : s.capturing = true → ∀ r, s.places.count r + lost.count r =
    (List.range s.count).count r + carried.count r

theorem account_initial (n : ℕ) : Account [] [] (initial n) where
  bounded := fun r => by simp [count_places, initial, OwnerPhase.pending, RecyclerPhase.held]
  exact := by rintro ⟨⟩

/-- The lowered flag opens a new account. -/
theorem account_lower (h : Staged s) (hs : s.step .lower = some s') : Account s.leftover [] s' := by
  simp only [step] at hs
  split at hs
  next howner =>
    cases hs
    have hrest := h.resting (by simp [CameraCapture.resting, howner])
    have hall : ∀ r, (places { s with recyclerStopping := false, owner := .opening }).count r =
        (List.range s.count).count r + s.leftover.count r := by
      intro r
      simp only [count_places, leftover, OwnerPhase.pending, h.closed hrest.1, hrest.2,
        RecyclerPhase.held, List.count_append, List.count_nil]
      omega
    exact ⟨fun r => (hall r).le, fun _ r => hall r⟩
  · cases hs

theorem Account.step {carried lost : List Request} (h : Account carried lost s) (hstaged : Staged s)
    (hs : s.step a = some s') (ha : a ≠ .lower) : Account carried (lost ++ lostBy (s, a)) s' := by
  have hmoves := step_places hstaged hs ha
  have hcount := step_count hs
  refine ⟨fun r => ?_, fun hc r => ?_⟩
  · have := hmoves.bounded r
    have := h.bounded r
    rw [hcount, List.count_append]
    omega
  · obtain ⟨hbefore, heq⟩ := hmoves.exact hc
    have := heq r
    have := h.exact hbefore r
    rw [hcount, List.count_append]
    omega

/-- `start` lowers the flag of the recycler. -/
def Lowers (x : CameraCapture × CameraAction) : Prop := x.2 = .lower

/-- Every run has an account: since its last lowered flag, or since its beginning. -/
theorem account_run (h : Run step (initial n) history s) : Staged s ∧ s.count = n ∧
    ((s.capturing = false ∧ Account [] (history.flatMap lostBy) s) ∨
      ∃ x after, Since Lowers history x after ∧
        Account x.1.leftover (after.flatMap lostBy) s) := by
  induction h with
  | nil => exact ⟨staged_initial n, rfl, Or.inl ⟨rfl, account_initial n⟩⟩
  | @snoc history s s' a _ hs ih =>
    obtain ⟨hstaged, hcount, haccount⟩ := ih
    refine ⟨hstaged.step hs, (step_count hs).trans hcount, ?_⟩
    by_cases ha : a = .lower
    · subst ha
      exact Or.inr ⟨(s, .lower), [], .last history rfl, account_lower hstaged hs⟩
    · rcases haccount with ⟨hnone, haccount⟩ | ⟨x, after, hsince, haccount⟩
      · refine Or.inl ⟨?_, ?_⟩
        · by_contra hc
          have := ((step_places hstaged hs ha).exact (by simpa using hc)).1
          rw [hnone] at this
          cases this
        · rw [List.flatMap_append, List.flatMap_singleton]
          exact haccount.step hstaged hs ha
      · refine Or.inr ⟨x, after ++ [(s, a)], hsince.snoc ha, ?_⟩
        rw [List.flatMap_append, List.flatMap_singleton]
        exact haccount.step hstaged hs ha

/-! ### Requests that are queued -/

/-- The request is neither in a live lease nor queued at the camera. -/
def Free (s : CameraCapture) (request : Request) : Prop :=
  request ∉ s.queued ∧ ∀ lease ∈ s.leases, lease.request ≠ request

/-- What is passed to `queueRequest` is in a place of its own. -/
theorem count_of_passes {request : Request} (h : s.passes a = some request) :
    1 + s.queued.count request + (s.leases.map Lease.request).count request ≤
      s.places.count request := by
  rw [count_places]
  cases a with
  | queueNext accepted =>
    simp only [passes] at h
    split at h
    next rest howner =>
      cases h
      simp only [howner, OwnerPhase.pending, List.count_cons_self]
      omega
    · cases h
  | recycle accepted =>
    simp only [passes] at h
    split at h
    next hholding =>
      cases h
      simp only [hholding, RecyclerPhase.held, List.count_cons_self, List.count_nil]
      omega
    · cases h
  | _ => cases h

theorem Account.free {lost : List Request} (h : Account [] lost s) {request : Request}
    (hpasses : s.passes a = some request) : s.Free request := by
  have hone := count_of_passes hpasses
  have hbounded := h.bounded request
  have hrange : (List.range s.count).count request ≤ 1 := List.nodup_iff_count.mp List.nodup_range _
  rw [List.count_nil] at hbounded
  refine ⟨List.count_eq_zero.mp (by omega), fun lease hlease heq => ?_⟩
  have hmem : request ∈ s.leases.map Lease.request := List.mem_map.mpr ⟨lease, hlease, heq⟩
  have := List.count_pos_iff.mpr hmem
  omega

/-- **No request is queued while it is in use.** In every run in which `start` lowers the flag of
the recycler only when no lease is alive, no callback runs and the recycler's deque is empty, a
request is passed to `queueRequest` only when no lease for it is alive and it is not queued. -/
theorem passes_free (h : Run step (initial n) history s)
    (hgood : ∀ x ∈ history, x.2 = .lower → x.1.leftover = []) :
    ∀ x ∈ history, ∀ request, x.1.passes x.2 = some request → x.1.Free request := by
  induction h with
  | nil => simp
  | @snoc history s s' a hrun _ ih =>
    intro x hx request hpasses
    have hbefore : ∀ y ∈ history, y.2 = .lower → y.1.leftover = [] := fun y hy =>
      hgood y (List.mem_append_left _ hy)
    rcases List.mem_append.mp hx with hx | hx
    · exact ih hbefore x hx request hpasses
    · rw [List.mem_singleton.mp hx] at hpasses ⊢
      obtain ⟨-, -, ⟨-, haccount⟩ | ⟨y, after, hsince, haccount⟩⟩ := account_run hrun
      · exact haccount.free hpasses
      · rw [hbefore y hsince.mem hsince.holds] at haccount
        exact haccount.free hpasses

/-- A `start` in which the camera takes all four requests. -/
def startAll : List CameraAction :=
  [.start, .lower, .openCamera true, .publish, .spawn, .queueNext true, .queueNext true,
    .queueNext true, .queueNext true, .started]

/-- The first request completes, and its lease is built. -/
def deliverFirst : List CameraAction :=
  [.complete 0 .complete, .callback ⟨0, .entered .complete⟩, .callback ⟨0, .counting⟩,
    .callback ⟨0, .building⟩]

/-- The lease of the first request is given up, up to the push. -/
def releaseFirst : List CameraAction :=
  [.delivered ⟨0, true, 0⟩ false, .callback ⟨0, .released⟩, .callback ⟨0, .checking⟩]

/-- A `stop` while the recycler waits. -/
def stopAll : List CameraAction :=
  [.stop, .raise, .raiseRecycler, .closeCamera, .exit, .join, .clear]

/-- One request goes around once, and the capture is stopped and started again. -/
def oneRound : List CameraAction :=
  startAll ++ deliverFirst ++ releaseFirst ++
    [.callback ⟨0, .pushing⟩, .take, .recycle true] ++ stopAll ++ startAll

theorem passes_free_oneRound :
    ∃ history s, Run step (initial 4) history s ∧
      (history.filterMap fun x => x.1.passes x.2) = [0, 1, 2, 3, 0, 0, 1, 2, 3] ∧
      ∀ x ∈ history, ∀ request, x.1.passes x.2 = some request → x.1.Free request := by
  obtain ⟨s, hs, -⟩ := (Option.any_eq_true (fun s : CameraCapture => s.running)
    (exec step (initial 4) oneRound)).mp (by decide)
  have hrun := Run.ofExec oneRound hs
  exact ⟨_, s, hrun, by decide, passes_free hrun (by decide)⟩

/-- A consumer keeps the lease across `stop` and the next `start`. -/
def keptLease : List CameraAction :=
  startAll ++ deliverFirst ++ [.copy ⟨0, true, 0⟩, .delivered ⟨0, true, 1⟩ false] ++ stopAll ++
    startAll

/-- The release of the lease checks the flag before `stop` and pushes after it. -/
def straddlingPush : List CameraAction :=
  startAll ++ deliverFirst ++ releaseFirst ++ stopAll ++ [.callback ⟨0, .pushing⟩] ++ startAll ++
    [.take, .recycle true]

/-- A request is queued while a lease for it is alive, and another while it is queued. -/
theorem not_passes_free :
    (¬ ∀ n history s, 4 ≤ n → Run step (initial n) history s →
        ∀ x ∈ history, ∀ request, x.1.passes x.2 = some request →
          ∀ lease ∈ x.1.leases, lease.request ≠ request) ∧
      ¬ ∀ n history s, 4 ≤ n → Run step (initial n) history s →
        ∀ x ∈ history, ∀ request, x.1.passes x.2 = some request → request ∉ x.1.queued := by
  refine ⟨fun h => ?_, fun h => ?_⟩
  · obtain ⟨s, hs, -⟩ := (Option.any_eq_true (fun s : CameraCapture => s.running)
      (exec step (initial 4) keptLease)).mp (by decide)
    obtain ⟨x, hx, hbad⟩ : ∃ x ∈ trace step (initial 4) keptLease,
        ∃ request ∈ x.1.passes x.2, ∃ lease ∈ x.1.leases, lease.request = request := by decide
    obtain ⟨request, hpasses, lease, hlease, heq⟩ := hbad
    exact h 4 _ s le_rfl (Run.ofExec keptLease hs) x hx request hpasses lease hlease heq
  · obtain ⟨s, hs, -⟩ := (Option.any_eq_true (fun s : CameraCapture => s.running)
      (exec step (initial 4) straddlingPush)).mp (by decide)
    obtain ⟨x, hx, hbad⟩ : ∃ x ∈ trace step (initial 4) straddlingPush,
        ∃ request ∈ x.1.passes x.2, request ∈ x.1.queued := by decide
    obtain ⟨request, hpasses, hqueued⟩ := hbad
    exact h 4 _ s le_rfl (Run.ofExec straddlingPush hs) x hx request hpasses hqueued

/-! ### The counters -/

/-- The callback has counted its lease and not yet built it, or not yet taken it off. -/
def Callback.counts (callback : Callback) : Bool :=
  callback.stage == .building || callback.stage == .released

/-- `outstanding_leases` counts the live leases and those that callbacks are about to build or to
take off. -/
def Metered (s : CameraCapture) : Prop :=
  s.outstandingLeases = s.leases.length + s.callbacks.countP Callback.counts

/-- What a step does to the counters. -/
structure Counts (lost : List Request) (s s' : CameraCapture) : Prop where
  metered : Metered s → Metered s'
  peak : s.outstandingLeases ≤ s.outstandingLeasesPeak →
    s'.outstandingLeasesPeak = max s.outstandingLeasesPeak s'.outstandingLeases
  errors : s.captureErrors + lost.length ≤ s'.captureErrors

theorem Counts.of_eq (hmetered : Metered s → Metered s')
    (houtstanding : s'.outstandingLeases ≤ s.outstandingLeases)
    (hpeak : s'.outstandingLeasesPeak = s.outstandingLeasesPeak)
    (herrors : s.captureErrors ≤ s'.captureErrors) : Counts [] s s' :=
  ⟨hmetered, fun h => by rw [hpeak]; exact (Nat.max_eq_left (houtstanding.trans h)).symm, herrors⟩

theorem counts_advance {callback : Callback} (hcallback : callback ∈ s.callbacks) :
    Counts [] s (s.advance callback) := by
  have hout := (List.perm_cons_erase hcallback).countP_eq Callback.counts
  obtain ⟨request, stage⟩ := callback
  cases stage with
  | entered outcome =>
    simp only [advance]
    split
    · refine .of_eq (fun h => ?_) le_rfl rfl le_rfl
      simpa [Metered, hout, Callback.counts] using h
    · cases outcome with
      | complete =>
        refine .of_eq (fun h => ?_) le_rfl rfl le_rfl
        simpa [Metered, hout, Callback.counts] using h
      | error | missingBuffers =>
        refine .of_eq (fun h => ?_) le_rfl rfl (Nat.le_succ _)
        simpa [Metered, hout, Callback.counts] using h
  | releasing | checking =>
    refine .of_eq (fun h => ?_) le_rfl rfl le_rfl
    simp only [advance]
    split <;> simpa [Metered, hout, Callback.counts] using h
  | counting =>
    refine ⟨fun h => ?_, fun _ => rfl, le_rfl⟩
    simp [advance, countFrame, Metered, hout, Callback.counts] at h ⊢
    omega
  | building =>
    refine .of_eq (fun h => ?_) le_rfl rfl le_rfl
    simp [advance, Metered, hout, Callback.counts] at h ⊢
    omega
  | released =>
    refine .of_eq (fun h => ?_) (Nat.sub_le _ _) rfl le_rfl
    simp [advance, Metered, hout, Callback.counts] at h ⊢
    omega
  | pushing =>
    refine .of_eq (fun h => ?_) le_rfl rfl le_rfl
    simpa [advance, Metered, hout, Callback.counts] using h

theorem counts_disown {errors : ℕ} (herrors : s.captureErrors ≤ errors) {lease left : Lease}
    (hlease : lease ∈ s.leases) :
    Counts [] s (disown { s with captureErrors := errors } lease left) := by
  have hout := (List.perm_cons_erase hlease).length_eq
  rw [List.length_cons] at hout
  unfold disown
  split
  · refine .of_eq (fun h => ?_) le_rfl rfl herrors
    simp only [Metered, hout, List.length_cons] at h ⊢
    exact h
  · refine .of_eq (fun h => ?_) le_rfl rfl herrors
    simp [Metered, hout, Callback.counts] at h ⊢
    omega

theorem counts_step (hs : s.step a = some s') : Counts (lostBy (s, a)) s s' := by
  cases stepped_of_step hs with
  | callback callback hcallback =>
    exact counts_advance hcallback
  | delivered lease throws hlease =>
    cases throws with
    | false => exact counts_disown le_rfl hlease.1
    | true => exact counts_disown (Nat.le_succ _) hlease.1
  | drop lease hlease =>
    exact counts_disown le_rfl hlease.1
  | copy lease hlease =>
    refine .of_eq (fun h => ?_) le_rfl rfl le_rfl
    rw [Metered, (List.perm_cons_erase hlease).length_eq] at h
    exact h
  | complete request outcome hqueued =>
    refine .of_eq (fun h => ?_) le_rfl rfl le_rfl
    simpa [Metered, Callback.counts] using h
  | recycled accepted request hholding htakes =>
    rw [show lostBy (s, .recycle accepted) = [] from if_pos htakes]
    exact .of_eq id le_rfl rfl le_rfl
  | lost accepted request hholding htakes =>
    have hlost : lostBy (s, .recycle accepted) = s.recycler.held :=
      if_neg (by rw [htakes]; rintro ⟨⟩)
    rw [hlost, hholding]
    exact ⟨id, fun h => (Nat.max_eq_left h).symm, le_rfl⟩
  | _ => exact .of_eq id le_rfl rfl le_rfl

/-- Every value that `outstanding_leases` has had. -/
def outstandings (history : List (CameraCapture × CameraAction)) (s : CameraCapture) : List ℕ :=
  history.map (·.1.outstandingLeases) ++ [s.outstandingLeases]

theorem counts_run (h : Run step (initial n) history s) : Metered s ∧
    (s.outstandingLeasesPeak ∈ outstandings history s ∧
      ∀ k ∈ outstandings history s, k ≤ s.outstandingLeasesPeak) ∧
    (history.flatMap lostBy).length ≤ s.captureErrors := by
  induction h with
  | nil => exact ⟨rfl, by simp [outstandings, initial], le_rfl⟩
  | @snoc history s s' a _ hs ih =>
    obtain ⟨hmetered, ⟨hmem, hupper⟩, herrors⟩ := ih
    have hcounts := counts_step hs
    have hnow := hupper s.outstandingLeases (by simp [outstandings])
    have hall : outstandings (history ++ [(s, a)]) s' =
        outstandings history s ++ [s'.outstandingLeases] := by simp [outstandings]
    have hpeak := hcounts.peak hnow
    rw [hall, hpeak]
    refine ⟨hcounts.metered hmetered, ⟨?_, fun k hk => ?_⟩, ?_⟩
    · rcases Nat.le_total s.outstandingLeasesPeak s'.outstandingLeases with hle | hle
      · rw [Nat.max_eq_right hle]
        simp
      · rw [Nat.max_eq_left hle]
        exact List.mem_append_left _ hmem
    · rcases List.mem_append.mp hk with hk | hk
      · exact (hupper k hk).trans (Nat.le_max_left _ _)
      · rw [List.mem_singleton.mp hk]
        exact Nat.le_max_right _ _
    · rw [List.flatMap_append, List.flatMap_singleton, List.length_append]
      have := hcounts.errors
      omega

/-! ### Conservation -/

/-- Every request is in one place, `lost` included; what was lost was counted; and the metrics are
those of the live leases. -/
structure Conserved (lost : List Request) (history : List (CameraCapture × CameraAction))
    (s : CameraCapture) : Prop where
  once : (s.queued ++ s.leases.map Lease.request ++ s.requests ++ s.recycler.held ++ lost).Perm
    (List.range s.count)
  counted : lost.length ≤ s.captureErrors
  outstanding : s.outstandingLeases = s.leases.length
  peak : s.outstandingLeasesPeak ∈ outstandings history s ∧
    ∀ k ∈ outstandings history s, k ≤ s.outstandingLeasesPeak

/-- **Conservation of requests.** While the capture runs, and with no callback in its middle, every
request is in exactly one place and the metrics are right iff nothing was left over when `start`
lowered the flag of the recycler. -/
theorem conserved_iff (h : Run step (initial n) history s) (howner : s.owner = .idle)
    (hrun : s.running = true) (hcallbacks : s.callbacks = []) :
    ∃ x after, Since Lowers history x after ∧
      (Conserved (after.flatMap lostBy) history s ↔ x.1.leftover = []) := by
  obtain ⟨hmetered, hpeak, herrors⟩ := counts_run h
  have hcapturing : s.capturing = true := by rw [capturing, howner, hrun]
  obtain ⟨-, -, ⟨hnone, -⟩ | ⟨x, after, hsince, haccount⟩⟩ := account_run h
  · rw [hcapturing] at hnone
    cases hnone
  have hplaces : s.places =
      s.queued ++ s.leases.map Lease.request ++ s.requests ++ s.recycler.held := by
    simp [places, howner, OwnerPhase.pending, hcallbacks]
  have hbalance := haccount.exact hcapturing
  refine ⟨x, after, hsince, fun hconserved => ?_, fun hleftover => ⟨?_, ?_, ?_, hpeak⟩⟩
  · -- what was left over is what is in one place too many
    refine List.eq_nil_iff_forall_not_mem.mpr fun r hr => ?_
    have honce := hconserved.once.count_eq r
    have hpos := List.count_pos_iff.mpr hr
    have := hbalance r
    rw [List.count_append, ← hplaces] at honce
    omega
  · refine List.perm_iff_count.mpr fun r => ?_
    have := hbalance r
    rw [hleftover, List.count_nil] at this
    rw [List.count_append, ← hplaces]
    exact this
  · obtain ⟨before, hsplit⟩ := hsince.split
    rw [hsplit, List.flatMap_append, List.flatMap_cons, List.length_append,
      List.length_append] at herrors
    omega
  · rw [Metered, hcallbacks] at hmetered
    exact hmetered

/-- Behind a clean restart the account is right again. -/
theorem conserved_iff_oneRound :
    ∃ history s x after, Run step (initial 4) history s ∧ Since Lowers history x after ∧
      Conserved (after.flatMap lostBy) history s ∧ s.queued = [0, 1, 2, 3] := by
  obtain ⟨s, hs, hend⟩ := (Option.any_eq_true (fun s : CameraCapture => decide
    (s.owner = .idle ∧ s.running = true ∧ s.callbacks = [] ∧ s.queued = [0, 1, 2, 3]))
    (exec step (initial 4) oneRound)).mp (by decide)
  obtain ⟨howner, hrun, hcallbacks, hqueued⟩ := of_decide_eq_true hend
  have hrun' := Run.ofExec oneRound hs
  have hclean : ∀ x ∈ trace step (initial 4) oneRound, x.2 = .lower → x.1.leftover = [] := by
    decide
  obtain ⟨x, after, hsince, hiff⟩ := conserved_iff hrun' howner hrun hcallbacks
  exact ⟨_, s, x, after, hrun', hsince, hiff.mpr (hclean x hsince.mem hsince.holds), hqueued⟩

/-- Behind a restart with a lease left over, a request is queued and leased at once. -/
theorem not_conserved :
    ¬ ∀ n history s, 4 ≤ n → Run step (initial n) history s → s.owner = .idle →
      s.running = true → s.callbacks = [] →
      ∀ request ∈ s.queued, ∀ lease ∈ s.leases, lease.request ≠ request := by
  intro h
  obtain ⟨s, hs, hbad⟩ := (Option.any_eq_true (fun s : CameraCapture => decide
    (s.owner = .idle ∧ s.running = true ∧ s.callbacks = [] ∧
      ∃ request ∈ s.queued, ∃ lease ∈ s.leases, lease.request = request))
    (exec step (initial 4) keptLease)).mp (by decide)
  obtain ⟨howner, hrun, hcallbacks, request, hqueued, lease, hlease, heq⟩ := of_decide_eq_true hbad
  exact h 4 _ s le_rfl (Run.ofExec keptLease hs) howner hrun hcallbacks request hqueued lease hlease
    heq

end CameraCapture

end EggVision
