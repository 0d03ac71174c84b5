import Mathlib.Data.List.Range

/-!
# The camera and its requests

`CameraCapture` owns a fixed set of requests. It queues them at the camera, hands the frame of each
completed one to its consumers under a shared `FrameLease`, and when the last owner of the lease is
gone the request goes through the recycler back to the camera.

Completion callbacks run on the camera's thread, releases on whatever thread drops the last owner,
and the recycler on its own. `start` and `stop` are called by one owner, one after the other. Every
load or store of a flag, every lock region and every call of the camera is a step of its own, so
that a callback may be anywhere in its body while the owner stops and starts again.

The camera is assumed to complete a queued request at most once, and to take requests only while it
runs. When it stops it cancels what is queued, and the callbacks of cancelled requests return at
once, so they are no steps here. The model starts behind a successful `initialize`.

## Main definitions

* `CameraCapture`, `CameraAction`, `CameraCapture.step`
* `CameraCapture.CallbackStage` — the stages of `onRequestCompleted` and of the release of a lease
* `CameraCapture.OwnerPhase` — the stages of `start` and `stop`
* `CameraCapture.Stepped` — what a step does, and when

## Main results

* `CameraCapture.stepped_of_step`
-/

namespace EggVision

namespace CameraCapture

/-- A request of `requests_`, by its index. -/
abbrev Request := ℕ

/-- What `onRequestCompleted` finds in a request that was not cancelled: a complete one with both
of its buffers, a failed one, or a complete one without one of them. -/
inductive RequestOutcome
  | complete
  | error
  | missingBuffers
deriving DecidableEq, Repr

/-- A `FrameLease` that is alive: `delivering` as long as the callback that built it holds it, and
the copies its consumers hold. -/
structure Lease where
  request : Request
  delivering : Bool := true
  copies : ℕ := 0
deriving DecidableEq, Repr

/-- Some owner is left. -/
def Lease.owned (lease : Lease) : Bool := lease.delivering || decide (0 < lease.copies)

/-- What a thread inside a callback does next. The first four are stages of `onRequestCompleted`,
and `released` is the start of the release function of a lease. Both ways end in the same push. -/
inductive CallbackStage
  /-- loads `stopping_` -/
  | entered (outcome : RequestOutcome)
  /-- loads `stopping_` in `releaseRequest` -/
  | releasing
  /-- counts the frame -/
  | counting
  /-- builds the lease -/
  | building
  /-- takes the lease off `outstanding_leases` -/
  | released
  /-- loads `stopping` of the recycler -/
  | checking
  /-- pushes the request under the recycler's mutex -/
  | pushing
deriving DecidableEq, Repr

/-- A callback that runs for a request. -/
structure Callback where
  request : Request
  stage : CallbackStage
deriving DecidableEq, Repr

/-- Where the recycler thread is. `waiting` covers the loop's head and the wait. -/
inductive RecyclerPhase
  | absent
  | waiting
  | holding (request : Request)
  | exited
deriving DecidableEq, Repr

/-- The request in the hands of the recycler. -/
def RecyclerPhase.held : RecyclerPhase → List Request
  | .holding request => [request]
  | .absent | .waiting | .exited => []

/-- What `start` or `stop` does next. `lowering` to `queueing` are stages of `start`, the rest of
`stop`, which `start` also calls when it cannot queue a request. -/
inductive OwnerPhase
  | idle
  | lowering
  | opening
  | publishing
  | spawning
  | queueing (rest : List Request)
  | raising
  | raisingRecycler
  | closing
  | joining
  | clearing
deriving DecidableEq, Repr

end CameraCapture

open CameraCapture in
/-- The fields of `CameraCapture`, `RecyclerState` and `Metrics` that decide about requests, what
the camera has, and where the threads are. -/
structure CameraCapture where
  /-- the size of `requests_` -/
  count : ℕ
  running : Bool := false
  stopping : Bool := false
  recyclerStopping : Bool := false
  /-- `recycler_->requests` -/
  requests : List Request := []
  captured : ℕ := 0
  captureErrors : ℕ := 0
  outstandingLeases : ℕ := 0
  outstandingLeasesPeak : ℕ := 0
  cameraRunning : Bool := false
  /-- what is queued at the camera -/
  queued : List Request := []
  leases : List Lease := []
  callbacks : List Callback := []
  recycler : RecyclerPhase := .absent
  owner : OwnerPhase := .idle
deriving DecidableEq, Repr

namespace CameraCapture

/-- The steps: those of `start` and of `stop`, of the camera, of callbacks, of owners of leases, and
of the recycler. -/
inductive CameraAction
  | start
  | lower
  | openCamera (ok : Bool)
  | publish
  | spawn
  | queueNext (accepted : Bool)
  | started
  | stop
  | raise
  | raiseRecycler
  | closeCamera
  | join
  | clear
  | complete (request : Request) (outcome : RequestOutcome)
  | callback (callback : Callback)
  | delivered (lease : Lease) (throws : Bool)
  | copy (lease : Lease)
  | drop (lease : Lease)
  | take
  | exit
  | recycle (accepted : Bool)
deriving DecidableEq, Repr

/-- A constructed and initialized `CameraCapture`. -/
def initial (count : ℕ) : CameraCapture := { count }

/-- One more frame that is counted in `onRequestCompleted`. -/
def countFrame (s : CameraCapture) : CameraCapture :=
  let outstanding := s.outstandingLeases + 1
  { s with
    captured := s.captured + 1
    outstandingLeases := outstanding
    outstandingLeasesPeak := max s.outstandingLeasesPeak outstanding }

/-- The next step of a thread inside a callback. -/
def advance (s : CameraCapture) (callback : Callback) : CameraCapture :=
  let left := s.callbacks.erase callback
  match callback.stage with
  | .entered outcome =>
    if s.stopping then { s with callbacks := left }
    else
      match outcome with
      | .complete => { s with callbacks := { callback with stage := .counting } :: left }
      | .error | .missingBuffers =>
        { s with
          captureErrors := s.captureErrors + 1
          callbacks := { callback with stage := .releasing } :: left }
  | .releasing =>
    { s with
      callbacks := if s.stopping then left else { callback with stage := .checking } :: left }
  | .counting => { s.countFrame with callbacks := { callback with stage := .building } :: left }
  | .building =>
    { s with
      leases := { request := callback.request } :: s.leases
      callbacks := left }
  | .released =>
    { s with
      outstandingLeases := s.outstandingLeases - 1
      callbacks := { callback with stage := .checking } :: left }
  | .checking =>
    { s with
      callbacks :=
        if s.recyclerStopping then left else { callback with stage := .pushing } :: left }
  | .pushing =>
    { s with
      requests := s.requests ++ [callback.request]
      callbacks := left }

/-- An owner of a lease is gone. With the last one the release function starts. -/
def disown (s : CameraCapture) (lease left : Lease) : CameraCapture :=
  if left.owned then { s with leases := left :: s.leases.erase lease }
  else { s with
    leases := s.leases.erase lease
    callbacks := { request := lease.request, stage := .released } :: s.callbacks }

/-- `queueRequest` succeeds only on a running camera. -/
def takes (s : CameraCapture) (accepted : Bool) : Bool := accepted && s.cameraRunning

def step (s : CameraCapture) : CameraAction → Option CameraCapture
  | .start =>
    if s.owner = .idle ∧ s.running = false then
      some { s with stopping := false, owner := .lowering }
    else none
  | .lower =>
    if s.owner = .lowering then some { s with recyclerStopping := false, owner := .opening }
    else none
  | .openCamera ok =>
    if s.owner = .opening then
      some { s with cameraRunning := ok, owner := if ok then .publishing else .idle }
    else none
  | .publish =>
    if s.owner = .publishing then some { s with running := true, owner := .spawning } else none
  | .spawn =>
    if s.owner = .spawning then
      some { s with recycler := .waiting, owner := .queueing (List.range s.count) }
    else none
  | .queueNext accepted =>
    match s.owner with
    | .queueing (request :: rest) =>
      if s.takes accepted then
        some { s with queued := s.queued ++ [request], owner := .queueing rest }
      else some { s with running := false, owner := .raising }
    | _ => none
  | .started => if s.owner = .queueing [] then some { s with owner := .idle } else none
  | .stop =>
    if s.owner = .idle ∧ s.running = true then some { s with running := false, owner := .raising }
    else none
  | .raise =>
    if s.owner = .raising then some { s with stopping := true, owner := .raisingRecycler }
    else none
  | .raiseRecycler =>
    if s.owner = .raisingRecycler then
      some { s with recyclerStopping := true, owner := .closing }
    else none
  | .closeCamera =>
    if s.owner = .closing then
      some { s with cameraRunning := false, queued := [], owner := .joining }
    else none
  | .join =>
    if s.owner = .joining ∧ (s.recycler = .exited ∨ s.recycler = .absent) then
      some { s with recycler := .absent, owner := .clearing }
    else none
  | .clear => if s.owner = .clearing then some { s with requests := [], owner := .idle } else none
  | .complete request outcome =>
    if request ∈ s.queued then
      some { s with
        queued := s.queued.erase request
        callbacks := { request, stage := .entered outcome } :: s.callbacks }
    else none
  | .callback callback =>
    if callback ∈ s.callbacks then some (s.advance callback) else none
  | .delivered lease throws =>
    if lease ∈ s.leases ∧ lease.delivering = true then
      let s := if throws then { s with captureErrors := s.captureErrors + 1 } else s
      some (s.disown lease { lease with delivering := false })
    else none
  | .copy lease =>
    if lease ∈ s.leases then
      some { s with
        leases := { lease with copies := lease.copies + 1 } :: s.leases.erase lease }
    else none
  | .drop lease =>
    if lease ∈ s.leases ∧ 0 < lease.copies then
      some (s.disown lease { lease with copies := lease.copies - 1 })
    else none
  | .take =>
    match s.recycler, s.requests with
    | .waiting, request :: rest =>
      if s.recyclerStopping then none
      else some { s with requests := rest, recycler := .holding request }
    | _, _ => none
  | .exit =>
    if s.recycler = .waiting ∧ s.recyclerStopping = true then some { s with recycler := .exited }
    else none
  | .recycle accepted =>
    match s.recycler with
    | .holding request =>
      if s.takes accepted then
        some { s with queued := s.queued ++ [request], recycler := .waiting }
      else some { s with captureErrors := s.captureErrors + 1, recycler := .waiting }
    | _ => none

/-- What a step does, and when. -/
inductive Stepped (s : CameraCapture) : CameraAction → CameraCapture → Prop
  | start (hidle : s.owner = .idle ∧ s.running = false) :
      Stepped s .start { s with stopping := false, owner := .lowering }
  | lower (howner : s.owner = .lowering) :
      Stepped s .lower { s with recyclerStopping := false, owner := .opening }
  | openCamera (ok : Bool) (howner : s.owner = .opening) :
      Stepped s (.openCamera ok)
        { s with cameraRunning := ok, owner := if ok then .publishing else .idle }
  | publish (howner : s.owner = .publishing) :
      Stepped s .publish { s with running := true, owner := .spawning }
  | spawn (howner : s.owner = .spawning) :
      Stepped s .spawn { s with recycler := .waiting, owner := .queueing (List.range s.count) }
  | queued (accepted : Bool) (request : Request) (rest : List Request)
      (howner : s.owner = .queueing (request :: rest)) (htakes : s.takes accepted = true) :
      Stepped s (.queueNext accepted)
        { s with queued := s.queued ++ [request], owner := .queueing rest }
  | refused (accepted : Bool) (request : Request) (rest : List Request)
      (howner : s.owner = .queueing (request :: rest)) (htakes : s.takes accepted = false) :
      Stepped s (.queueNext accepted) { s with running := false, owner := .raising }
  | started (howner : s.owner = .queueing []) : Stepped s .started { s with owner := .idle }
  | stop (hidle : s.owner = .idle ∧ s.running = true) :
      Stepped s .stop { s with running := false, owner := .raising }
  | raise (howner : s.owner = .raising) :
      Stepped s .raise { s with stopping := true, owner := .raisingRecycler }
  | raiseRecycler (howner : s.owner = .raisingRecycler) :
      Stepped s .raiseRecycler { s with recyclerStopping := true, owner := .closing }
  | closeCamera (howner : s.owner = .closing) :
      Stepped s .closeCamera { s with cameraRunning := false, queued := [], owner := .joining }
  | join (hjoin : s.owner = .joining ∧ (s.recycler = .exited ∨ s.recycler = .absent)) :
      Stepped s .join { s with recycler := .absent, owner := .clearing }
  | clear (howner : s.owner = .clearing) :
      Stepped s .clear { s with requests := [], owner := .idle }
  | complete (request : Request) (outcome : RequestOutcome) (hqueued : request ∈ s.queued) :
      Stepped s (.complete request outcome) { s with
        queued := s.queued.erase request
        callbacks := { request, stage := .entered outcome } :: s.callbacks }
  | callback (callback : Callback) (hcallback : callback ∈ s.callbacks) :
      Stepped s (.callback callback) (s.advance callback)
  | delivered (lease : Lease) (throws : Bool)
      (hlease : lease ∈ s.leases ∧ lease.delivering = true) :
      Stepped s (.delivered lease throws)
        (disown (if throws then { s with captureErrors := s.captureErrors + 1 } else s) lease
          { lease with delivering := false })
  | copy (lease : Lease) (hlease : lease ∈ s.leases) :
      Stepped s (.copy lease)
        { s with leases := { lease with copies := lease.copies + 1 } :: s.leases.erase lease }
  | drop (lease : Lease) (hlease : lease ∈ s.leases ∧ 0 < lease.copies) :
      Stepped s (.drop lease) (s.disown lease { lease with copies := lease.copies - 1 })
  | take (request : Request) (rest : List Request) (hwaiting : s.recycler = .waiting)
      (hrequests : s.requests = request :: rest) :
      Stepped s .take { s with requests := rest, recycler := .holding request }
  | exit (hexit : s.recycler = .waiting ∧ s.recyclerStopping = true) :
      Stepped s .exit { s with recycler := .exited }
  | recycled (accepted : Bool) (request : Request) (hholding : s.recycler = .holding request)
      (htakes : s.takes accepted = true) :
      Stepped s (.recycle accepted)
        { s with queued := s.queued ++ [request], recycler := .waiting }
  | lost (accepted : Bool) (request : Request) (hholding : s.recycler = .holding request)
      (htakes : s.takes accepted = false) :
      Stepped s (.recycle accepted)
        { s with captureErrors := s.captureErrors + 1, recycler := .waiting }

theorem stepped_of_step {s s' : CameraCapture} {a : CameraAction} (hs : s.step a = some s') :
    Stepped s a s' := by
  cases a with
  | queueNext accepted =>
    simp only [step] at hs
    split at hs
    next request rest howner =>
      split at hs
      next htakes =>
        cases hs
        exact .queued accepted request rest howner htakes
      next htakes =>
        cases hs
        exact .refused accepted request rest howner (by simpa using htakes)
    · cases hs
  | take =>
    simp only [step] at hs
    split at hs
    next request rest hwaiting hrequests =>
      split at hs
      · cases hs
      · cases hs
        exact .take request rest hwaiting hrequests
    · cases hs
  | recycle accepted =>
    simp only [step] at hs
    split at hs
    next request hholding =>
      split at hs
      next htakes =>
        cases hs
        exact .recycled accepted request hholding htakes
      next htakes =>
        cases hs
        exact .lost accepted request hholding (by simpa using htakes)
    · cases hs
  | _ =>
    obtain ⟨hguard, hs⟩ := Option.ite_none_right_eq_some.mp hs
    cases hs
    constructor
    exact hguard

/-- The request that the step passes to `queueRequest`. -/
def passes (s : CameraCapture) : CameraAction → Option Request
  | .queueNext _ =>
    match s.owner with
    | .queueing (request :: _) => some request
    | _ => none
  | .recycle _ =>
    match s.recycler with
    | .holding request => some request
    | _ => none
  | _ => none

end CameraCapture

end EggVision
