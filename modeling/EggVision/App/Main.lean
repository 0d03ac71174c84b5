import EggVision.Encoder.Units
import EggVision.Ring.Buffer

/-!
# The program

`main` brings the components up one after the other, and takes them down again. While it runs it
looks for an encoder that has failed, and puts another in its place: stop, clear the history,
initialize, start, wait for a frame. The encoder and the history are the models of the other
modules here, with their threads going on between any two steps of `main`; of the other components
there is what their calls return.

## Main definitions

* `App.step` — one step of `main`, or of the encoder's threads
* `App.encoderHistory` — what a run of the program is for the encoder
-/

namespace EggVision

open Transition

/-- The local objects of `main` that have threads. -/
inductive Component
  | recorder
  | inference
  | encoder
  | camera
  | rtsp
deriving DecidableEq, Repr

/-- The calls of the startup condition. -/
inductive StartCall
  | recorder
  | encoder
  | inference
  | camera
  | independentFrame
  | rtsp
deriving DecidableEq, Repr

/-- The calls of a recovery. -/
inductive RecoveryCall
  | stopEncoder
  | clear
  | initializeEncoder
  | startEncoder
  | independentFrame
deriving DecidableEq, Repr

/-- Why `main` takes the components down. -/
inductive ExitReason
  | startupFailed
  | requested
  | encoderFailed
deriving DecidableEq, Repr

/-- Where `main` is. The calls of a condition or of a block are those still to be made. -/
inductive MainStage
  | initializing (calls : List Component)
  | starting (calls : List StartCall)
  | looping
  | polling
  | recovering (call : RecoveryCall)
  | ticking
  | stopping (calls : List Component) (reason : ExitReason)
  | exited (code : ℕ)
deriving DecidableEq, Repr

/-- What a component has been told. -/
inductive ServiceState
  | untouched
  | failed
  | started
  | stopped
deriving DecidableEq, Repr

/-- `!recorder.initialize() || !inference.initialize() || …`. -/
def initializeCalls : List Component := [.recorder, .inference, .encoder, .camera]

/-- `!recorder.start() || !encoder.start() || …`. -/
def startupCalls : List StartCall :=
  [.recorder, .encoder, .inference, .camera, .independentFrame, .rtsp]

/-- The camera goes first, so that nothing is produced while the others let go. -/
def stopCalls : List Component := [.camera, .inference, .encoder, .recorder, .rtsp]

/-- The program. `calling` says that `main` is inside a call of the encoder. -/
structure App where
  encoder : EncoderStream
  ring : EncodedRingBuffer
  service : Component → ServiceState := fun _ => .untouched
  stage : MainStage := .initializing initializeCalls
  calling : Bool := false
  recoveries : ℕ := 0
  recoveryFailures : ℕ := 0

/-- A step of `main`, with what the call returns or the condition says; or one of the encoder's
threads, of its pipeline, or of its own code inside a call. -/
inductive AppAction
  | main (ok : Bool)
  | thread (a : StreamAction)

namespace App

def initial (fps : ℕ) (ring : EncodedRingBuffer) : App := { encoder := .initial fps, ring }

/-- `main` tells a component to start or to stop. -/
def told (c : Component) (state : ServiceState) (s : App) : App :=
  { s with service := Function.update s.service c state }

/-- A call of the encoder, and what `main` does once it has returned. -/
def encoderCall (a : StreamAction) (next : Bool → App → App) (s : App) : Option App :=
  if s.calling then
    if s.encoder.owner = .idle then some { next s.encoder.result s with calling := false }
    else none
  else (s.encoder.step a).map fun encoder => { s with encoder, calling := true }

/-- `return 2`. -/
def afterInitialize (calls : List Component) (ok : Bool) (s : App) : App :=
  { s with stage := if ok then .initializing calls else .exited 2 }

def afterStart (calls : List StartCall) (ok : Bool) (s : App) : App :=
  { s with stage := if ok then .starting calls else .stopping stopCalls .startupFailed }

def startService (c : Component) (calls : List StartCall) (ok : Bool) (s : App) : App :=
  (s.told c (if ok then .started else .failed)).afterStart calls ok

def stopService (c : Component) (calls : List Component) (reason : ExitReason) (s : App) : App :=
  { s.told c .stopped with stage := .stopping calls reason }

/-- `fatal_encoder_failure = true; break`. -/
def afterRecovery (call : RecoveryCall) (ok : Bool) (s : App) : App :=
  if ok then { s with stage := .recovering call }
  else { s with
    recoveryFailures := s.recoveryFailures + 1, stage := .stopping stopCalls .encoderFailed }

/-- `returned` says that there are no outstanding leases. -/
def exitCode (returned : Bool) : ExitReason → ℕ
  | .startupFailed => 3
  | .encoderFailed => 5
  | .requested => if returned then 0 else 4

def mainStep (ok : Bool) (s : App) : Option App :=
  match s.stage with
  | .initializing [] => some { s with stage := .starting startupCalls }
  | .initializing (.encoder :: calls) =>
    s.encoderCall (.initializeEncoder ok) (afterInitialize calls)
  | .initializing (_ :: calls) => some (s.afterInitialize calls ok)
  | .starting [] => some { s with stage := .looping }
  | .starting (.recorder :: calls) => some (s.startService .recorder calls ok)
  | .starting (.encoder :: calls) => s.encoderCall .startEncoder (startService .encoder calls)
  | .starting (.inference :: calls) => some (s.startService .inference calls ok)
  | .starting (.camera :: calls) => some (s.startService .camera calls ok)
  | .starting (.independentFrame :: calls) =>
    some (s.afterStart calls s.encoder.waitForIndependentFrame)
  | .starting (.rtsp :: calls) => some (s.startService .rtsp calls ok)
  -- `exit_requested`
  | .looping => some { s with stage := if ok then .stopping stopCalls .requested else .polling }
  | .polling =>
    some { s with
      stage := if s.encoder.recoveryRequested then .recovering .stopEncoder else .ticking }
  | .recovering .stopEncoder =>
    s.encoderCall .stopEncoder fun _ s =>
      { s.told .encoder .stopped with stage := .recovering .clear }
  | .recovering .clear =>
    some { s with ring := s.ring.clear, stage := .recovering .initializeEncoder }
  | .recovering .initializeEncoder =>
    s.encoderCall (.initializeEncoder ok) (afterRecovery .startEncoder)
  | .recovering .startEncoder =>
    s.encoderCall .startEncoder fun ok s =>
      (s.told .encoder (if ok then .started else .failed)).afterRecovery .independentFrame ok
  | .recovering .independentFrame =>
    if s.encoder.waitForIndependentFrame then
      some { s with recoveries := s.recoveries + 1, stage := .ticking }
    else some (s.afterRecovery .independentFrame false)
  -- `duration_seconds` have passed, or a report is due or not
  | .ticking => some { s with stage := if ok then .stopping stopCalls .requested else .looping }
  | .stopping [] reason => some { s with stage := .exited (exitCode ok reason) }
  | .stopping (.encoder :: calls) reason =>
    s.encoderCall .stopEncoder fun _ => stopService .encoder calls reason
  | .stopping (c :: calls) reason => some (s.stopService c calls reason)
  | .exited _ => none

/-- The unit that the step hands to the consumer. -/
def consumed (encoder : EncoderStream) (a : StreamAction) : Option EncodedAccessUnit :=
  match a, encoder.output with
  | .output _ _, .consuming unit => some unit
  | _, _ => none

/-- The calls of the encoder are those of `main`. -/
def byThread : StreamAction → Bool
  | .initializeEncoder _ | .startEncoder | .stopEncoder => false
  | _ => true

/-- A step of a thread. The consumer pushes the unit into the history. -/
def threadStep (a : StreamAction) (s : App) : Option App :=
  if byThread a then
    (s.encoder.step a).map fun encoder =>
      { s with
        encoder
        ring := match consumed s.encoder a with
          | some unit => (s.ring.push (some unit)).1
          | none => s.ring }
  else none

def step (s : App) : AppAction → Option App
  | .main ok => s.mainStep ok
  | .thread a => s.threadStep a

/-- The call that a step of `main` makes. -/
def called (s : App) (ok : Bool) : Option StreamAction :=
  if s.calling then none
  else
    match s.stage with
    | .initializing (.encoder :: _) => some (.initializeEncoder ok)
    | .starting (.encoder :: _) => some .startEncoder
    | .recovering .stopEncoder => some .stopEncoder
    | .recovering .initializeEncoder => some (.initializeEncoder ok)
    | .recovering .startEncoder => some .startEncoder
    | .stopping (.encoder :: _) _ => some .stopEncoder
    | _ => none

/-- What a step is for the encoder. -/
def encoderAction (s : App) : AppAction → Option StreamAction
  | .main ok => s.called ok
  | .thread a => some a

/-- What a run is for the encoder. -/
def encoderHistory (history : List (App × AppAction)) : List (EncoderStream × StreamAction) :=
  history.filterMap fun x => (x.1.encoderAction x.2).map fun a => (x.1.encoder, a)

end App

end EggVision
