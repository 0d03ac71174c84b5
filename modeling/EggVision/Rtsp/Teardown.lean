import EggVision.Rtsp.Renewal

/-!
# The main loop and the end of `stopLocked`

`start` creates the main loop, and returns as soon as the thread that is to run it exists. The last
stretch of `stopLocked` asks the loop to quit, joins that thread, and drops the objects. GLib sets
the loop's flag when `g_main_loop_run` is entered and clears it in `g_main_loop_quit`; it does not
remember that it was asked to quit before.

The callbacks of clients and the owner of the session pool are here as well, since they write the
number of sessions.

## Main definitions

* `RtspHost`, `HostAction`, `RtspHost.step` — the server with its loop and its sessions
* `StopBlocked` — `stopLocked` waits for the loop thread in every state to come
* `quitsEarly` — the loop is asked to quit before its thread has entered it
* `Clean` — what `stopLocked` promises

## Main results

* `server_reachable` — the server in it makes a run of `RtspServer.step`
* `loop_joins_iff` — when `stopLocked` is never blocked
* `not_loop_joins` — a `stop` that is faster than the thread
* `stop_returns_clean` — every stop ends in the state of a constructed server
-/

namespace EggVision

open Transition RtspState

/-- The thread of `g_main_loop_run`. `absent` is a `std::thread` without a thread. -/
inductive LoopThread
  | absent
  | created
  | iterating
  | returned
deriving DecidableEq, Repr

/-- The end of `stopLocked`, behind its last section. -/
inductive ReleaseStage
  | quit
  | join
  | drop
deriving DecidableEq, Repr

/-- The counters of `SessionCleanupState`. -/
structure SessionCleanup where
  current : ℕ := 0
  cleaned : ℕ := 0
deriving DecidableEq, Repr

/-- The metrics of sessions. -/
structure SessionMetrics where
  current : ℕ := 0
  peak : ℕ := 0
  cleaned : ℕ := 0
deriving DecidableEq, Repr

/-- The callbacks of clients. -/
inductive ClientTask
  | connected
  | newSession
deriving DecidableEq, Repr

/-- The server with its main loop and its sessions. `mainLoop` is `loop_`, with the flag that GLib
keeps in it. -/
structure RtspHost where
  server : RtspServer
  mainLoop : Option Bool := none
  loopThread : LoopThread := .absent
  gstServer : Bool := false
  mounts : Bool := false
  clientConnected : Bool := false
  clients : List ClientTask := []
  sessionCleanup : Option SessionCleanup := none
  sessions : SessionMetrics := {}
  release : ReleaseStage := .quit
deriving DecidableEq, Repr

inductive HostAction
  | server (action : RtspAction)
  | allocate (loop server mounts : Bool)
  | enterLoop
  | leaveLoop
  | client (task : ClientTask)
  | clientStep (index active : ℕ)
  | cleanup (removed active : ℕ)
deriving DecidableEq, Repr

/-- `start` has created the main loop. -/
def Lifecycle.looped : Lifecycle → Bool
  | .starting .publish | .starting .allocate | .stopped | .stopping _ => false
  | .starting _ | .started => true

/-- `start` has not created the loop thread. -/
def Lifecycle.threadless : Lifecycle → Bool
  | .stopped | .starting _ => true
  | .started | .stopping _ => false

/-- The owner of the session pool is not there yet, or not any more. -/
def Lifecycle.cleanupless : Lifecycle → Bool
  | .stopped | .starting .publish | .starting .allocate | .starting .factory
  | .starting .recoveryWorker | .starting .listener | .starting .sessionCleanup
  | .stopping (.waitJob _) | .stopping .stopWorker | .stopping .joinWorker
  | .stopping .disableCallbacks | .stopping .waitCallbacks | .stopping .retire
  | .stopping .release => true
  | .starting _ | .started | .stopping _ => false

theorem Lifecycle.threadless_of_between {phase : Lifecycle} (h : phase.between = true) :
    phase.threadless = true := by
  unfold Lifecycle.between at h
  split at h <;> first | rfl | cases h

namespace RtspHost

/-- A constructed server. -/
def initial (fps : ℕ) : RtspHost := { server := .initial fps }

/-- A step of the server alone. -/
def advance (action : RtspAction) (h : RtspHost) : Option RtspHost :=
  (h.server.step action).map fun server => { h with server }

/-- `loop_` and `server_`; the handler and the mount points come with them. -/
def allocateStep (loop server mounts : Bool) (h : RtspHost) : Option RtspHost :=
  if h.server.lifecycle = .starting .allocate then
    let allocated := loop && server
    (h.advance (.owner { ok := allocated })).map fun h =>
      { h with
        mainLoop := if loop then some false else none
        gstServer := server
        clientConnected := allocated
        mounts := allocated && mounts }
  else none

/-- `requestSessionCleanupStop`. -/
def stopCleanup (h : RtspHost) : RtspHost :=
  match h.sessionCleanup with
  | none => h
  | some state =>
    { h with
      sessionCleanup := none
      sessions := { h.sessions with current := state.current, cleaned := state.cleaned } }

/-- The end of `stopLocked`. -/
def releaseStep (env : OwnerEnv) (h : RtspHost) : Option RtspHost :=
  match h.release with
  | .quit => some { h with mainLoop := h.mainLoop.map fun _ => false, release := .join }
  | .join =>
    if h.loopThread = .returned ∨ h.loopThread = .absent then
      some { h with loopThread := .absent, release := .drop }
    else none
  | .drop =>
    (h.advance (.owner env)).map fun h =>
      { h with
        mounts := false
        gstServer := false
        mainLoop := none
        sessions := { h.sessions with current := 0 }
        release := .quit }

/-- The steps of `start` and `stopLocked`. -/
def ownerStep (env : OwnerEnv) (h : RtspHost) : Option RtspHost :=
  match h.server.lifecycle with
  | .starting stage =>
    match stage with
    | .allocate => none
    | .factory => h.advance (.owner { env with ok := env.ok && h.mounts })
    | .listener => h.advance (.owner { env with ok := env.ok && h.gstServer })
    | .sessionCleanup =>
      let ok := env.ok && h.gstServer && h.sessionCleanup.isNone
      (h.advance (.owner { env with ok })).map fun h =>
        { h with sessionCleanup := if ok then some {} else h.sessionCleanup }
    | .loop =>
      (h.advance (.owner env)).map fun h =>
        { h with loopThread := if env.ok then .created else h.loopThread }
    | .publish | .recoveryWorker | .watchdog | .publishWatchdog | .feeder =>
      h.advance (.owner env)
  | .stopping stage =>
    match stage with
    | .destroySources _ => (h.advance (.owner env)).map stopCleanup
    | .disableCallbacks =>
      (h.advance (.owner env)).map fun h => { h with clientConnected := false }
    | .waitCallbacks => if h.clients = [] then h.advance (.owner env) else none
    | .release => h.releaseStep env
    | .publish | .closeQueue | .joinFeeder | .takeSources | .waitJob _ | .stopWorker | .joinWorker
    | .retire => h.advance (.owner env)
  | .stopped | .started => none

/-- The watchdog ticks on the loop thread, and copies the counters of the sessions first. -/
def tickStep (now : ℤ) (h : RtspHost) : Option RtspHost :=
  if h.loopThread = .iterating then
    (h.advance (.tick now)).map fun h' =>
      if h.server.shared.running then
        match h.sessionCleanup with
        | none => h'
        | some state =>
          { h' with
            sessions := { h.sessions with current := state.current, cleaned := state.cleaned } }
      else h'
  else none

/-- `onClientConnected` and `onClientNewSession`, with the number of sessions in the pool. -/
def clientStep (index active : ℕ) (h : RtspHost) : Option RtspHost :=
  match h.clients[index]? with
  | none => none
  | some .connected => some { h with clients := h.clients.eraseIdx index }
  | some .newSession =>
    let h' := { h with clients := h.clients.eraseIdx index }
    some (if h.gstServer then
      { h' with
        sessions := { h.sessions with current := active, peak := max h.sessions.peak active }
        sessionCleanup := h.sessionCleanup.map fun state => { state with current := active } }
      else h')

def step (h : RtspHost) : HostAction → Option RtspHost
  | .server action =>
    match action with
    | .owner env => h.ownerStep env
    | .tick now => h.tickStep now
    | .call _ _ | .signal _ | .callback _ _ | .watchdog _ | .worker | .feeder _ | .submit _
    | .submitNext => h.advance action
  | .allocate loop server mounts => h.allocateStep loop server mounts
  | .enterLoop =>
    if h.loopThread = .created then
      some { h with loopThread := .iterating, mainLoop := h.mainLoop.map fun _ => true }
    else none
  | .leaveLoop =>
    if h.loopThread = .iterating ∧ h.mainLoop = some false ∧ h.server.watchdog = .idle then
      some { h with loopThread := .returned }
    else none
  | .client task =>
    if h.server.callbacksOpen && h.clientConnected then
      some { h with clients := h.clients ++ [task] }
    else none
  | .clientStep index active => h.clientStep index active
  | .cleanup removed active =>
    h.sessionCleanup.map fun state =>
      { h with
        sessionCleanup := some { current := active, cleaned := state.cleaned + removed } }

variable {h h' u : RtspHost} {a : HostAction} {fps : ℕ}

/-! ### The server in it -/

theorem advance_eq_some {action : RtspAction} (hs : h.advance action = some h') :
    ∃ server, h.server.step action = some server ∧ h' = { h with server } := by
  obtain ⟨server, hserver, heq⟩ := Option.map_eq_some_iff.mp hs
  exact ⟨server, hserver, heq.symm⟩

theorem advance_map {action : RtspAction} {f : RtspHost → RtspHost}
    (hf : ∀ u, (f u).server = u.server ∧ (f u).release = u.release)
    (hs : (h.advance action).map f = some h') :
    h'.release = h.release ∧ h.server.step action = some h'.server := by
  obtain ⟨u, hu, rfl⟩ := Option.map_eq_some_iff.mp hs
  obtain ⟨server, hserver, rfl⟩ := advance_eq_some hu
  exact ⟨(hf _).2, by rw [(hf _).1, hserver]⟩

/-- What a step of the owner is: the server's own step, with the outcome it can have here, or a step
inside its last one. -/
theorem ownerStep_cases {env : OwnerEnv} (hs : h.ownerStep env = some h') :
    (h'.release = h.release ∧ ∃ env', h.server.step (.owner env') = some h'.server) ∨
      h.server.lifecycle = .stopping .release ∧ h.releaseStep env = some h' := by
  have hplain : ∀ {env' : OwnerEnv}, h.advance (.owner env') = some h' →
      h'.release = h.release ∧ ∃ env', h.server.step (.owner env') = some h'.server := by
    intro env' hu
    obtain ⟨server, hserver, rfl⟩ := advance_eq_some hu
    exact ⟨rfl, env', hserver⟩
  unfold ownerStep at hs
  split at hs
  next stage hphase =>
    refine Or.inl ?_
    cases stage with
    | allocate => cases hs
    | sessionCleanup =>
      dsimp only at hs
      exact (advance_map (by exact fun _ => ⟨rfl, rfl⟩) hs).imp_right fun h => ⟨_, h⟩
    | loop =>
      dsimp only at hs
      exact (advance_map (by exact fun _ => ⟨rfl, rfl⟩) hs).imp_right fun h => ⟨_, h⟩
    | _ => exact hplain hs
  next stage hphase =>
    cases stage with
    | destroySources waitFor =>
      refine Or.inl ((advance_map (fun u => ?_) hs).imp_right fun h => ⟨_, h⟩)
      unfold stopCleanup
      split <;> exact ⟨rfl, rfl⟩
    | disableCallbacks =>
      dsimp only at hs
      exact Or.inl ((advance_map (by exact fun _ => ⟨rfl, rfl⟩) hs).imp_right fun h => ⟨_, h⟩)
    | waitCallbacks =>
      dsimp only at hs
      split at hs
      · exact Or.inl (hplain hs)
      · cases hs
    | release => exact Or.inr ⟨hphase, hs⟩
    | _ => exact Or.inl (hplain hs)
  · cases hs
  · cases hs

/-- What a step of anybody else is. Only the call of GLib that makes the loop, and the thread that
runs it, touch it. -/
theorem step_cases (howner : ∀ env, a ≠ .server (.owner env)) (hs : h.step a = some h') :
    h'.release = h.release ∧
      (h'.server = h.server ∨ ∃ action, h.server.step action = some h'.server ∧
        ((∃ env, action = .owner env) → h.server.lifecycle = .starting .allocate)) ∧
      (h.server.lifecycle = .starting .allocate ∨
        h'.loopThread = h.loopThread ∧ h'.mainLoop = h.mainLoop ∨
        h.loopThread = .created ∧ h'.loopThread = .iterating ∧
          h'.mainLoop = h.mainLoop.map (fun _ => true) ∨
        h.loopThread = .iterating ∧ h.mainLoop = some false ∧ h'.loopThread = .returned) := by
  cases a with
  | server action =>
    cases action with
    | owner env => exact absurd rfl (howner env)
    | tick now =>
      simp only [step, tickStep] at hs
      split at hs
      · obtain ⟨u, hu, rfl⟩ := Option.map_eq_some_iff.mp hs
        obtain ⟨server, hserver, rfl⟩ := advance_eq_some hu
        split
        · split <;> exact ⟨rfl, Or.inr ⟨_, hserver, by rintro ⟨_, ⟨⟩⟩⟩, Or.inr (Or.inl ⟨rfl, rfl⟩)⟩
        · exact ⟨rfl, Or.inr ⟨_, hserver, by rintro ⟨_, ⟨⟩⟩⟩, Or.inr (Or.inl ⟨rfl, rfl⟩)⟩
      · cases hs
    | _ =>
      obtain ⟨server, hserver, rfl⟩ := advance_eq_some hs
      exact ⟨rfl, Or.inr ⟨_, hserver, by rintro ⟨_, ⟨⟩⟩⟩, Or.inr (Or.inl ⟨rfl, rfl⟩)⟩
  | allocate loop server mounts =>
    simp only [step, allocateStep] at hs
    split at hs
    next hphase =>
      obtain ⟨hrelease, hserver⟩ := advance_map (by exact fun _ => ⟨rfl, rfl⟩) hs
      exact ⟨hrelease, Or.inr ⟨_, hserver, fun _ => hphase⟩, Or.inl hphase⟩
    · cases hs
  | enterLoop =>
    simp only [step] at hs
    split at hs <;> cases hs
    next hcreated => exact ⟨rfl, Or.inl rfl, Or.inr (Or.inr (Or.inl ⟨hcreated, rfl, rfl⟩))⟩
  | leaveLoop =>
    simp only [step] at hs
    split at hs <;> cases hs
    next hleaves =>
      exact ⟨rfl, Or.inl rfl, Or.inr (Or.inr (Or.inr ⟨hleaves.1, hleaves.2.1, rfl⟩))⟩
  | client task =>
    simp only [step] at hs
    split at hs <;> cases hs
    exact ⟨rfl, Or.inl rfl, Or.inr (Or.inl ⟨rfl, rfl⟩)⟩
  | clientStep index active =>
    simp only [step, clientStep] at hs
    split at hs
    · cases hs
    · cases hs
      exact ⟨rfl, Or.inl rfl, Or.inr (Or.inl ⟨rfl, rfl⟩)⟩
    · cases hs
      split <;> exact ⟨rfl, Or.inl rfl, Or.inr (Or.inl ⟨rfl, rfl⟩)⟩
  | cleanup removed active =>
    obtain ⟨state, -, rfl⟩ := Option.map_eq_some_iff.mp hs
    exact ⟨rfl, Or.inl rfl, Or.inr (Or.inl ⟨rfl, rfl⟩)⟩

/-- A step of the host is a step of the server, or it leaves the server alone. -/
theorem step_server (hs : h.step a = some h') :
    h'.server = h.server ∨ ∃ action, h.server.step action = some h'.server := by
  by_cases howner : ∃ env, a = .server (.owner env)
  · obtain ⟨env, rfl⟩ := howner
    rcases ownerStep_cases hs with ⟨-, env', hserver⟩ | ⟨-, hs⟩
    · exact Or.inr ⟨_, hserver⟩
    unfold releaseStep at hs
    split at hs
    · cases hs
      exact Or.inl rfl
    · split at hs <;> cases hs
      exact Or.inl rfl
    · obtain ⟨u, hu, rfl⟩ := Option.map_eq_some_iff.mp hs
      obtain ⟨server, hserver, rfl⟩ := advance_eq_some hu
      exact Or.inr ⟨_, hserver⟩
  · obtain ⟨-, hsame | ⟨action, hserver, -⟩, -⟩ := step_cases (by simpa using howner) hs
    · exact Or.inl hsame
    · exact Or.inr ⟨action, hserver⟩

/-- Only the end of `stopLocked` goes on at its end. -/
theorem step_release (hphase : h.server.lifecycle ≠ .stopping .release)
    (hs : h.step a = some h') : h'.release = h.release := by
  by_cases howner : ∃ env, a = .server (.owner env)
  · obtain ⟨env, rfl⟩ := howner
    rcases ownerStep_cases hs with ⟨hsame, -⟩ | ⟨hrelease, -⟩
    · exact hsame
    · exact absurd hrelease hphase
  · exact (step_cases (by simpa using howner) hs).1

/-- At the end of `stopLocked` the loop is left to its thread and the owner. -/
theorem step_beside (hphase : h.server.lifecycle = .stopping .release)
    (howner : ∀ env, a ≠ .server (.owner env)) (hs : h.step a = some h') :
    h'.server.lifecycle = h.server.lifecycle ∧ h'.release = h.release ∧
      (h'.loopThread = h.loopThread ∧ h'.mainLoop = h.mainLoop ∨
        h.loopThread = .created ∧ h'.loopThread = .iterating ∧
          h'.mainLoop = h.mainLoop.map (fun _ => true) ∨
        h.loopThread = .iterating ∧ h.mainLoop = some false ∧ h'.loopThread = .returned) := by
  obtain ⟨hrelease, hserver, hthread⟩ := step_cases howner hs
  have hlater : h.server.lifecycle ≠ .starting .allocate := by rw [hphase]; rintro ⟨⟩
  refine ⟨?_, hrelease, hthread.resolve_left hlater⟩
  rcases hserver with hsame | ⟨action, hstep, hallocate⟩
  · rw [hsame]
  · refine (RtspServer.step_epoch hstep ?_ fun env hc => hlater (hallocate ⟨env, hc⟩)).1
    rintro call ok rfl
    obtain ⟨hc | hc, -⟩ := RtspServer.callStep_cases hstep <;> rw [hphase] at hc <;> cases hc

theorem server_reachable (hr : Reachable step (initial fps) h) :
    Reachable RtspServer.step (.initial fps) h.server :=
  Reachable.map RtspHost.server (fun _ _ _ => step_server) hr

theorem stopCleanup_eq (h : RtspHost) :
    ∃ sessions, h.stopCleanup = { h with sessionCleanup := none, sessions } := by
  unfold stopCleanup
  split
  next hnone => exact ⟨h.sessions, by rw [← hnone]⟩
  · exact ⟨_, rfl⟩

/-! ### What there is at each point of an epoch -/

/-- Which objects there are at each point of an epoch. -/
structure HostInv (h : RtspHost) : Prop where
  looped : h.server.lifecycle.looped = true → h.mainLoop ≠ none
  iterated : h.loopThread ≠ .absent → h.mainLoop ≠ none
  threadless : h.server.lifecycle.threadless = true ∨ h.release = .drop → h.loopThread = .absent
  released : h.server.lifecycle ≠ .stopping .release → h.release = .quit
  vacant : h.server.lifecycle.between = true →
    h.mainLoop = none ∧ h.gstServer = false ∧ h.mounts = false
  connected : h.server.lifecycle.closed = true → h.clientConnected = false
  clients : h.server.lifecycle.sealed = true → h.clients = []
  cleanup : h.server.lifecycle.cleanupless = true → h.sessionCleanup = none
  counted : h.server.lifecycle.between = true → h.sessions.current = 0

theorem HostInv.initial (fps : ℕ) : HostInv (initial fps) := by
  constructor <;> simp [RtspHost.initial, RtspServer.initial, Lifecycle.looped]

/-- The owner's place is the same, and nothing else is there. -/
theorem HostInv.of_same (hinv : HostInv h)
    (hlifecycle : h'.server.lifecycle = h.server.lifecycle) (hloop : h'.mainLoop = h.mainLoop)
    (hthread : h'.loopThread = h.loopThread) (hserver : h'.gstServer = h.gstServer)
    (hmounts : h'.mounts = h.mounts) (hconnected : h'.clientConnected = h.clientConnected)
    (hclients : h.clients = [] → h.server.lifecycle.sealed = true → h'.clients = [])
    (hcleanup : h.sessionCleanup = none → h'.sessionCleanup = none)
    (hsessions : h.server.lifecycle.between = true → h'.sessions = h.sessions)
    (hrelease : h'.release = h.release) : HostInv h' where
  looped := by
    rw [hlifecycle, hloop]
    exact hinv.looped
  iterated := by
    rw [hthread, hloop]
    exact hinv.iterated
  threadless := by
    rw [hlifecycle, hrelease, hthread]
    exact hinv.threadless
  released := by
    rw [hlifecycle, hrelease]
    exact hinv.released
  vacant := by
    rw [hlifecycle, hloop, hserver, hmounts]
    exact hinv.vacant
  connected := by
    rw [hlifecycle, hconnected]
    exact hinv.connected
  clients := by
    rw [hlifecycle]
    exact fun hsealed => hclients (hinv.clients hsealed) hsealed
  cleanup := by
    rw [hlifecycle]
    exact fun hphase => hcleanup (hinv.cleanup hphase)
  counted := by
    rw [hlifecycle]
    intro hphase
    rw [hsessions hphase]
    exact hinv.counted hphase

/-- `start` and `stopLocked` go on, and come to no point where more has to be gone than before. -/
theorem HostInv.onward (hinv : HostInv h) {server : RtspServer}
    (hlooped : server.lifecycle.looped = true → h.server.lifecycle.looped = true)
    (hthreadless : server.lifecycle.threadless = true → h.server.lifecycle.threadless = true)
    (hrelease : h.server.lifecycle ≠ .stopping .release)
    (hbetween : server.lifecycle.between = false)
    (hclosed : server.lifecycle.closed = true → h.server.lifecycle.closed = true)
    (hsealed : server.lifecycle.sealed = true → h.server.lifecycle.sealed = true)
    (hcleanupless : server.lifecycle.cleanupless = true →
      h.server.lifecycle.cleanupless = true) : HostInv { h with server } where
  looped := fun hphase => hinv.looped (hlooped hphase)
  iterated := hinv.iterated
  threadless := fun hphase => hinv.threadless (hphase.imp_left hthreadless)
  released := fun _ => hinv.released hrelease
  vacant := fun hphase => by
    rw [hbetween] at hphase
    cases hphase
  connected := fun hphase => hinv.connected (hclosed hphase)
  clients := fun hphase => hinv.clients (hsealed hphase)
  cleanup := fun hphase => hinv.cleanup (hcleanupless hphase)
  counted := fun hphase => by
    rw [hbetween] at hphase
    cases hphase

theorem HostInv.call (hinv : HostInv h) {call : OwnerCall} {ok : Bool}
    (hs : h.advance (.call call ok) = some h') (hepoch : h.server.EpochInv) : HostInv h' := by
  obtain ⟨server, hserver, rfl⟩ := advance_eq_some hs
  obtain ⟨hphase, rfl | rfl | ⟨hrunning, rfl⟩ | ⟨hrunning, rfl⟩⟩ :=
    RtspServer.callStep_cases hserver
  · exact hinv
  · exact hinv.of_same rfl rfl rfl rfl rfl rfl (fun hnone _ => hnone) id (fun _ => rfl) rfl
  · have hstopped : h.server.lifecycle = .stopped := hphase.resolve_right fun hstarted => by
      rw [hepoch.running, hstarted] at hrunning
      cases hrunning
    have hbefore := hinv.vacant (by rw [hstopped]; rfl)
    refine { hinv with
      looped := by rintro ⟨⟩
      threadless := fun _ => hinv.threadless (Or.inl (by rw [hstopped]; rfl))
      released := fun _ => hinv.released (by rw [hstopped]; rintro ⟨⟩)
      vacant := fun _ => hbefore
      connected := fun _ => hinv.connected (by rw [hstopped]; rfl)
      clients := fun _ => hinv.clients (by rw [hstopped]; rfl)
      cleanup := fun _ => hinv.cleanup (by rw [hstopped]; rfl)
      counted := fun _ => hinv.counted (by rw [hstopped]; rfl) }
  · refine hinv.onward (by rintro ⟨⟩) (by rintro ⟨⟩) ?_ rfl (by rintro ⟨⟩) (by rintro ⟨⟩)
      (by rintro ⟨⟩)
    rcases hphase with hphase | hphase <;> rw [hphase] <;> rintro ⟨⟩

theorem HostInv.startStep (hinv : HostInv h) {stage : StartStage}
    (hphase : h.server.lifecycle = .starting stage) {env : OwnerEnv}
    (hs : h.ownerStep env = some h') : HostInv h' := by
  obtain ⟨ok, id, now, counted⟩ := env
  have hstep : ∀ env, h.server.step (.owner env) = some (h.server.startStep stage env) := by
    intro env
    simp only [RtspServer.step, RtspServer.ownerStep, hphase]
  have hrelease : h.server.lifecycle ≠ .stopping .release := by rw [hphase]; rintro ⟨⟩
  have hthread : h.server.lifecycle.threadless = true := by rw [hphase]; rfl
  -- a failure goes to `stopLocked`
  have hfails : ∀ server : RtspServer, server.lifecycle = .stopping .publish →
      HostInv { h with server } := fun server hfailed => by
    refine hinv.onward ?_ ?_ hrelease ?_ ?_ ?_ ?_ <;> rw [hfailed] <;> first | rfl | rintro ⟨⟩
  have hgoes : ∀ (server : RtspServer) (next : StartStage), server.lifecycle = .starting next →
      next ≠ .publish → ((Lifecycle.starting next).looped = true →
        (Lifecycle.starting stage).looped = true) →
      ((Lifecycle.starting next).cleanupless = true →
        (Lifecycle.starting stage).cleanupless = true) → HostInv { h with server } := by
    intro server next hnext hpublish hlooped hcleanupless
    rw [← hphase, ← hnext] at hlooped hcleanupless
    refine hinv.onward hlooped (fun _ => hthread) hrelease ?_ ?_ ?_ hcleanupless <;> rw [hnext] <;>
      cases next <;> first | rfl | exact absurd rfl hpublish | rintro ⟨⟩
  simp only [ownerStep, hphase, advance, hstep] at hs
  cases stage with
  | publish =>
    cases hs
    exact hgoes _ .allocate rfl (by rintro ⟨⟩) (by rintro ⟨⟩) fun _ => rfl
  | allocate => cases hs
  | factory =>
    cases hs
    cases hok : ok && h.mounts with
    | false => exact hfails _ rfl
    | true =>
      cases hinstalled : (h.server.shared.publishFactory id).2 with
      | false => exact hfails _ (by simp [RtspServer.startStep, hinstalled])
      | true =>
        exact hgoes _ .recoveryWorker (by simp [RtspServer.startStep, hinstalled]) (by rintro ⟨⟩)
          (fun _ => rfl) fun _ => rfl
  | recoveryWorker =>
    cases hs
    cases ok with
    | false => exact hfails _ rfl
    | true => exact hgoes _ .listener rfl (by rintro ⟨⟩) (fun _ => rfl) fun _ => rfl
  | listener =>
    cases hs
    cases hok : ok && h.gstServer with
    | false => exact hfails _ rfl
    | true => exact hgoes _ .sessionCleanup rfl (by rintro ⟨⟩) (fun _ => rfl) fun _ => rfl
  | sessionCleanup =>
    cases hs
    cases hok : ok && h.gstServer && h.sessionCleanup.isNone with
    | false => exact hfails _ rfl
    | true =>
      exact {
        hgoes (h.server.startStep .sessionCleanup ⟨true, id, now, counted⟩) .watchdog rfl
          (by rintro ⟨⟩) (fun _ => rfl) (by rintro ⟨⟩) with
        cleanup := by rintro ⟨⟩ }
  | watchdog =>
    cases hs
    cases ok with
    | false => exact hfails _ rfl
    | true => exact hgoes _ .publishWatchdog rfl (by rintro ⟨⟩) (fun _ => rfl) (by rintro ⟨⟩)
  | publishWatchdog =>
    cases hs
    exact hgoes _ .feeder rfl (by rintro ⟨⟩) (fun _ => rfl) (by rintro ⟨⟩)
  | feeder =>
    cases hs
    cases ok with
    | false => exact hfails _ rfl
    | true => exact hgoes _ .loop rfl (by rintro ⟨⟩) (fun _ => rfl) (by rintro ⟨⟩)
  | loop =>
    cases hs
    cases ok with
    | false => exact hfails _ rfl
    | true =>
      have hloop := hinv.looped (by rw [hphase]; rfl)
      have hreleased := hinv.released hrelease
      exact {
        looped := fun _ => hloop
        iterated := fun _ => hloop
        threadless := by
          rintro (hc | hc)
          · cases hc
          · rw [hreleased] at hc
            cases hc
        released := fun _ => hreleased
        vacant := by rintro ⟨⟩
        connected := by rintro ⟨⟩
        clients := by rintro ⟨⟩
        cleanup := by rintro ⟨⟩
        counted := by rintro ⟨⟩ }

theorem HostInv.allocate (hinv : HostInv h) {loop server mounts : Bool}
    (hs : h.allocateStep loop server mounts = some h') : HostInv h' := by
  unfold allocateStep at hs
  split at hs
  next hphase =>
    have hthread := hinv.threadless (Or.inl (by rw [hphase]; rfl))
    have hcleanup := hinv.cleanup (by rw [hphase]; rfl)
    have hreleased := hinv.released (by rw [hphase]; rintro ⟨⟩)
    obtain ⟨u, hu, rfl⟩ := Option.map_eq_some_iff.mp hs
    obtain ⟨after, hafter, rfl⟩ := advance_eq_some hu
    simp only [RtspServer.step, RtspServer.ownerStep, hphase, Option.some.injEq] at hafter
    subst hafter
    cases loop <;> cases server <;> constructor <;>
      simp_all [RtspServer.startStep, Lifecycle.looped, Lifecycle.between, Lifecycle.closed,
        Lifecycle.sealed]
  · cases hs

/-- `stopLocked` goes on with its main loop and its thread as they are, and has yet to drop them. -/
theorem HostInv.winding (hinv : HostInv h) {stage next : StopStage}
    (hphase : h.server.lifecycle = .stopping stage) (hstage : stage ≠ .release)
    (hnext : h'.server.lifecycle = .stopping next) (hloop : h'.mainLoop = h.mainLoop)
    (hthread : h'.loopThread = h.loopThread) (hrelease : h'.release = h.release)
    (hconnected : (Lifecycle.stopping next).closed = true → h'.clientConnected = false)
    (hclients : (Lifecycle.stopping next).sealed = true → h'.clients = [])
    (hcleanup : (Lifecycle.stopping next).cleanupless = true → h'.sessionCleanup = none) :
    HostInv h' where
  looped := by
    rw [hnext]
    rintro ⟨⟩
  iterated := by
    rw [hthread, hloop]
    exact hinv.iterated
  threadless := by
    rw [hnext, hrelease, hthread]
    exact fun hc => hinv.threadless (hc.imp_left (by rintro ⟨⟩))
  released := fun _ => by
    rw [hrelease]
    exact hinv.released (by rw [hphase]; exact fun hc => hstage (Lifecycle.stopping.inj hc))
  vacant := by
    rw [hnext]
    rintro ⟨⟩
  connected := by
    rw [hnext]
    exact hconnected
  clients := by
    rw [hnext]
    exact hclients
  cleanup := by
    rw [hnext]
    exact hcleanup
  counted := by
    rw [hnext]
    rintro ⟨⟩

theorem HostInv.stopStep (hinv : HostInv h) (hepoch : h.server.EpochInv) {stage : StopStage}
    (hphase : h.server.lifecycle = .stopping stage) {env : OwnerEnv}
    (hs : h.ownerStep env = some h') : HostInv h' := by
  have hstep : h.server.step (.owner env) = h.server.stopStep stage env := by
    simp only [RtspServer.step, RtspServer.ownerStep, hphase]
  have hgoes : ∀ (server : RtspServer) (next : StopStage), server.lifecycle = .stopping next →
      stage ≠ .release → ((Lifecycle.stopping next).closed = true →
        (Lifecycle.stopping stage).closed = true) →
      ((Lifecycle.stopping next).sealed = true → (Lifecycle.stopping stage).sealed = true) →
      ((Lifecycle.stopping next).cleanupless = true →
        (Lifecycle.stopping stage).cleanupless = true) → HostInv { h with server } := by
    intro server next hnext hstage hclosed hsealed hcleanupless
    rw [← hphase] at hclosed hsealed hcleanupless
    exact hinv.winding hphase hstage hnext rfl rfl rfl (fun hc => hinv.connected (hclosed hc))
      (fun hc => hinv.clients (hsealed hc)) fun hc => hinv.cleanup (hcleanupless hc)
  simp only [ownerStep, hphase, advance, hstep] at hs
  cases stage with
  | publish =>
    have hrunning : h.server.shared.running = true := by rw [hepoch.running, hphase]; rfl
    simp only [RtspServer.stopStep, publishStop, hrunning] at hs
    cases hs
    exact hgoes _ .closeQueue rfl (by rintro ⟨⟩) (by rintro ⟨⟩) (by rintro ⟨⟩) (by rintro ⟨⟩)
  | closeQueue =>
    cases hs
    exact hgoes _ .joinFeeder rfl (by rintro ⟨⟩) (by rintro ⟨⟩) (by rintro ⟨⟩) (by rintro ⟨⟩)
  | joinFeeder =>
    simp only [RtspServer.stopStep] at hs
    split at hs <;> cases hs
    exact hgoes _ .takeSources rfl (by rintro ⟨⟩) (by rintro ⟨⟩) (by rintro ⟨⟩) (by rintro ⟨⟩)
  | takeSources =>
    cases hs
    exact hgoes _ (.destroySources _) rfl (by rintro ⟨⟩) (by rintro ⟨⟩) (by rintro ⟨⟩)
      (by rintro ⟨⟩)
  | destroySources waitFor =>
    cases hs
    obtain ⟨sessions, heq⟩ := stopCleanup_eq
      { h with server := { h.server with
          watchdogAttached := false, lifecycle := .stopping (.waitJob waitFor) } }
    rw [heq]
    exact hinv.winding hphase (by rintro ⟨⟩) rfl rfl rfl rfl (by rintro ⟨⟩) (by rintro ⟨⟩)
      fun _ => rfl
  | waitJob waitFor =>
    simp only [RtspServer.stopStep] at hs
    split at hs
    · cases hs
      exact hgoes _ .stopWorker rfl (by rintro ⟨⟩) (by rintro ⟨⟩) (by rintro ⟨⟩) fun _ => rfl
    · split at hs <;> cases hs
      exact hgoes _ (.waitJob waitFor) hphase (by rintro ⟨⟩) (by rintro ⟨⟩) (by rintro ⟨⟩)
        fun _ => rfl
  | stopWorker =>
    cases hs
    exact hgoes _ .joinWorker rfl (by rintro ⟨⟩) (by rintro ⟨⟩) (by rintro ⟨⟩) fun _ => rfl
  | joinWorker =>
    simp only [RtspServer.stopStep] at hs
    split at hs <;> cases hs
    exact hgoes _ .disableCallbacks rfl (by rintro ⟨⟩) (by rintro ⟨⟩) (by rintro ⟨⟩) fun _ => rfl
  | disableCallbacks =>
    cases hs
    exact hinv.winding hphase (by rintro ⟨⟩) rfl rfl rfl rfl (fun _ => rfl) (by rintro ⟨⟩)
      fun _ => hinv.cleanup (by rw [hphase]; rfl)
  | waitCallbacks =>
    simp only [RtspServer.stopStep] at hs
    split at hs
    next hclients =>
      split at hs <;> cases hs
      exact hinv.winding hphase (by rintro ⟨⟩) rfl rfl rfl rfl
        (fun _ => hinv.connected (by rw [hphase]; rfl)) (fun _ => hclients)
        fun _ => hinv.cleanup (by rw [hphase]; rfl)
    · cases hs
  | retire =>
    cases hs
    exact hgoes _ .release rfl (by rintro ⟨⟩) (fun _ => rfl) (fun _ => rfl) fun _ => rfl
  | release =>
    simp only [releaseStep, advance, hstep] at hs
    split at hs
    · cases hs
      exact {
        looped := by
          rw [hphase]
          rintro ⟨⟩
        iterated := fun hthread => by
          simpa using hinv.iterated hthread
        threadless := by
          rw [hphase]
          rintro (hc | hc) <;> cases hc
        released := fun hc => absurd hphase hc
        vacant := by
          rw [hphase]
          rintro ⟨⟩
        connected := hinv.connected
        clients := hinv.clients
        cleanup := hinv.cleanup
        counted := by
          rw [hphase]
          rintro ⟨⟩ }
    · split at hs <;> cases hs
      exact { hinv with
        iterated := fun hc => absurd rfl hc
        threadless := fun _ => rfl
        released := fun hc => absurd hphase hc }
    next hdrop =>
      have hthread := hinv.threadless (Or.inr hdrop)
      cases hs
      exact {
        looped := by rintro ⟨⟩
        iterated := fun hc => absurd hthread hc
        threadless := fun _ => hthread
        released := fun _ => rfl
        vacant := fun _ => ⟨rfl, rfl, rfl⟩
        connected := fun _ => hinv.connected (by rw [hphase]; rfl)
        clients := fun _ => hinv.clients (by rw [hphase]; rfl)
        cleanup := fun _ => hinv.cleanup (by rw [hphase]; rfl)
        counted := fun _ => rfl }

theorem HostInv.step (hinv : HostInv h) (hepoch : h.server.EpochInv) (hs : h.step a = some h') :
    HostInv h' := by
  cases a with
  | server action =>
    cases action with
    | call call ok => exact hinv.call hs hepoch
    | owner env =>
      cases hphase : h.server.lifecycle with
      | starting stage => exact hinv.startStep hphase hs
      | stopping stage => exact hinv.stopStep hepoch hphase hs
      | _ => simp [RtspHost.step, ownerStep, hphase] at hs
    | tick now =>
      simp only [RtspHost.step, tickStep] at hs
      split at hs
      next hiterating =>
        obtain ⟨u, hu, rfl⟩ := Option.map_eq_some_iff.mp hs
        obtain ⟨server, hserver, rfl⟩ := advance_eq_some hu
        have hsame := (RtspServer.step_epoch hserver (by rintro _ _ ⟨⟩) (by rintro _ ⟨⟩)).1
        have hbusy : ¬ h.server.lifecycle.between = true := fun hc => by
          rw [hinv.threadless (Or.inl (Lifecycle.threadless_of_between hc))] at hiterating
          cases hiterating
        split
        · split <;>
            exact hinv.of_same hsame rfl rfl rfl rfl rfl (fun hc _ => hc) id
              (fun hc => absurd hc hbusy) rfl
        · exact hinv.of_same hsame rfl rfl rfl rfl rfl (fun hc _ => hc) id (fun _ => rfl) rfl
      · cases hs
    | _ =>
      obtain ⟨server, hserver, rfl⟩ := advance_eq_some hs
      have hsame := (RtspServer.step_epoch hserver (by rintro _ _ ⟨⟩) (by rintro _ ⟨⟩)).1
      exact hinv.of_same hsame rfl rfl rfl rfl rfl (fun hc _ => hc) id (fun _ => rfl) rfl
  | allocate loop server mounts => exact hinv.allocate hs
  | enterLoop =>
    simp only [RtspHost.step] at hs
    split at hs <;> cases hs
    next hcreated =>
      have hloop := hinv.iterated (by rw [hcreated]; rintro ⟨⟩)
      have hnot : ¬ (h.server.lifecycle.threadless = true ∨ h.release = .drop) := fun hc => by
        rw [hinv.threadless hc] at hcreated
        cases hcreated
      exact { hinv with
        looped := fun _ => by simpa using hloop
        iterated := fun _ => by simpa using hloop
        threadless := fun hc => absurd hc hnot
        vacant := fun hc => absurd (hinv.vacant hc).1 hloop }
  | leaveLoop =>
    simp only [RtspHost.step] at hs
    split at hs <;> cases hs
    next hleaves =>
      have hthread : h.loopThread ≠ .absent := by rw [hleaves.1]; rintro ⟨⟩
      exact { hinv with
        iterated := fun _ => hinv.iterated hthread
        threadless := fun hc => absurd (hinv.threadless hc) hthread }
  | client task =>
    simp only [RtspHost.step, Bool.and_eq_true] at hs
    split at hs <;> cases hs
    next hopen =>
      exact { hinv with
        clients := fun hsealed => by
          have := hinv.connected (Lifecycle.closed_of_sealed hsealed)
          rw [this] at hopen
          cases hopen.2 }
  | clientStep index active =>
    simp only [RtspHost.step, clientStep] at hs
    split at hs
    · cases hs
    · cases hs
      exact { hinv with clients := fun hsealed => by simp [hinv.clients hsealed] }
    next hclient =>
      have hbusy : ¬ h.server.lifecycle.between = true := fun hc => by
        rw [hinv.clients (Lifecycle.sealed_of_retired (Lifecycle.retired_of_between hc))]
          at hclient
        cases hclient
      cases hs
      split
      · exact { hinv with
          clients := fun hsealed => by simp [hinv.clients hsealed]
          cleanup := fun hphase => by simp [hinv.cleanup hphase]
          counted := fun hc => absurd hc hbusy }
      · exact { hinv with clients := fun hsealed => by simp [hinv.clients hsealed] }
  | cleanup removed active =>
    obtain ⟨state, hstate, rfl⟩ := Option.map_eq_some_iff.mp hs
    exact { hinv with
      cleanup := fun hphase => by
        rw [hinv.cleanup hphase] at hstate
        cases hstate }

theorem HostInv.reachable (hr : Reachable RtspHost.step (RtspHost.initial fps) h) :
    HostInv h := by
  suffices h' : h.server.EpochInv ∧ HostInv h from h'.2
  refine hr.invariant (fun h => h.server.EpochInv ∧ HostInv h)
    ⟨.initial fps, .initial fps⟩ ?_
  rintro h a h' ⟨hepoch, hinv⟩ hs
  refine ⟨?_, hinv.step hepoch hs⟩
  rcases step_server hs with hsame | ⟨action, hserver⟩
  · rw [hsame]
    exact hepoch
  · exact hepoch.step hserver

/-! ### The join of the loop thread -/

/-- `stopLocked` waits for the loop thread to return. -/
def Joins (h : RtspHost) : Prop :=
  h.server.lifecycle = .stopping .release ∧ h.release = .join ∧
    h.loopThread ≠ .absent ∧ h.loopThread ≠ .returned

/-- `stopLocked` waits for the loop thread, whatever happens from here on. -/
def StopBlocked (h : RtspHost) : Prop := ∀ h', Reachable step h h' → h'.Joins

/-- The loop is asked to quit, but its thread has not entered it yet. -/
def quitsEarly (h : RtspHost) : HostAction → Bool
  | .server (.owner _) =>
    decide (h.server.lifecycle = .stopping .release ∧ h.release = .quit ∧ h.loopThread = .created)
  | _ => false

/-- The loop was asked to quit, but its flag is set, or its thread is yet to set it. -/
def Unquit (h : RtspHost) : Prop :=
  h.server.lifecycle = .stopping .release ∧ h.release = .join ∧
    (h.loopThread = .created ∨ h.loopThread = .iterating ∧ h.mainLoop = some true)

instance : DecidablePred Unquit := fun h =>
  inferInstanceAs (Decidable (h.server.lifecycle = .stopping .release ∧ h.release = .join ∧
    (h.loopThread = .created ∨ h.loopThread = .iterating ∧ h.mainLoop = some true)))

theorem Unquit.joins (hunquit : Unquit h) : Joins h := by
  obtain ⟨hphase, hjoin, hthread⟩ := hunquit
  refine ⟨hphase, hjoin, ?_⟩
  rcases hthread with hthread | ⟨hthread, -⟩ <;> rw [hthread] <;> exact ⟨by rintro ⟨⟩, by rintro ⟨⟩⟩

/-- The owner has no step while it waits for the thread. -/
theorem ownerStep_joins (hjoins : Joins h) (env : OwnerEnv) : h.ownerStep env = none := by
  obtain ⟨hphase, hjoin, habsent, hreturned⟩ := hjoins
  simp [ownerStep, releaseStep, hphase, hjoin, habsent, hreturned]

/-- Once it has entered, the thread sees the flag that it has set itself. -/
theorem Unquit.step (hunquit : Unquit h) (hloop : h.mainLoop ≠ none)
    (hs : h.step a = some h') : Unquit h' ∧ h'.mainLoop ≠ none := by
  have howner : ∀ env, a ≠ .server (.owner env) := by
    rintro env rfl
    exact absurd hs (by simp [RtspHost.step, ownerStep_joins hunquit.joins])
  obtain ⟨hphase, hjoin, hbefore⟩ := hunquit
  obtain ⟨hlifecycle, hrelease, hthread⟩ := step_beside hphase howner hs
  rw [← hlifecycle] at hphase
  rw [← hrelease] at hjoin
  rcases hthread with ⟨hthread, hsame⟩ | ⟨-, hthread, hsame⟩ | ⟨hiterating, hfalse, -⟩
  · rw [← hthread, ← hsame] at hbefore
    rw [← hsame] at hloop
    exact ⟨⟨hphase, hjoin, hbefore⟩, hloop⟩
  · obtain ⟨flag, hflag⟩ := Option.ne_none_iff_exists'.mp hloop
    rw [hflag] at hsame
    exact ⟨⟨hphase, hjoin, Or.inr ⟨hthread, hsame⟩⟩, by rw [hsame]; rintro ⟨⟩⟩
  · rw [hiterating, hfalse] at hbefore
    rcases hbefore with hc | ⟨-, hc⟩ <;> cases hc

/-- A stop is blocked where the thread is behind the one request to quit. -/
theorem stopBlocked_iff (hr : Reachable step (initial fps) h) : StopBlocked h ↔ Unquit h := by
  have hinv := HostInv.reachable hr
  refine ⟨fun hblocked => ?_, fun hunquit h' hreach => ?_⟩
  · obtain ⟨hphase, hjoin, habsent, hreturned⟩ := hblocked h .refl
    have hloop := hinv.iterated habsent
    have hidle := ((RtspServer.EpochInv.reachable (server_reachable hr)).sealed
      (by rw [hphase]; rfl)).2
    refine ⟨hphase, hjoin, ?_⟩
    cases hthread : h.loopThread with
    | absent => exact absurd hthread habsent
    | returned => exact absurd hthread hreturned
    | created => exact Or.inl rfl
    | iterating =>
      cases hflag : h.mainLoop with
      | none => exact absurd hflag hloop
      | some flag =>
        cases flag with
        | true => exact Or.inr ⟨rfl, rfl⟩
        | false =>
          have hleaves : h.step .leaveLoop = some { h with loopThread := .returned } := by
            simp [step, hthread, hflag, hidle]
          exact absurd rfl (hblocked _ (Reachable.refl.tail hleaves)).2.2.2
  · have hkept : Unquit h' ∧ h'.mainLoop ≠ none :=
      hreach.invariant (fun h => Unquit h ∧ h.mainLoop ≠ none)
        ⟨hunquit, hinv.iterated hunquit.joins.2.2.1⟩ fun _ _ _ hkept hs => hkept.1.step hkept.2 hs
    exact hkept.1.joins

/-- A stop gets blocked by a request to quit that comes before the thread's entry. -/
theorem unquit_of_step (hinv : HostInv h) (hs : h.step a = some h') (hunquit : Unquit h') :
    Unquit h ∨ h.quitsEarly a = true := by
  obtain ⟨-, hjoin', hthread'⟩ := hunquit
  have hphase : h.server.lifecycle = .stopping .release := by
    by_contra hc
    rw [step_release hc hs, hinv.released hc] at hjoin'
    cases hjoin'
  by_cases howner : ∃ env, a = .server (.owner env)
  · obtain ⟨env, rfl⟩ := howner
    simp only [step, ownerStep, hphase, releaseStep] at hs
    cases hstage : h.release with
    | quit =>
      simp only [hstage, Option.some.injEq] at hs
      subst hs
      rcases hthread' with hcreated | ⟨-, hflag⟩
      · exact Or.inr (decide_eq_true ⟨hphase, hstage, hcreated⟩)
      · obtain ⟨flag, -, hc⟩ := Option.map_eq_some_iff.mp hflag
        cases hc
    | join =>
      simp only [hstage] at hs
      split at hs <;> cases hs
      cases hjoin'
    | drop =>
      simp only [hstage] at hs
      obtain ⟨u, -, rfl⟩ := Option.map_eq_some_iff.mp hs
      cases hjoin'
  · -- the request was made before this step
    obtain ⟨-, hrelease, hthread⟩ := step_beside hphase (by simpa using howner) hs
    rw [hrelease] at hjoin'
    refine Or.inl ⟨hphase, hjoin', ?_⟩
    rcases hthread with ⟨hthread, hsame⟩ | ⟨hcreated, -, -⟩ | ⟨-, -, hreturned⟩
    · rw [← hthread, ← hsame]
      exact hthread'
    · exact Or.inl hcreated
    · rw [hreturned] at hthread'
      rcases hthread' with hc | ⟨hc, -⟩ <;> cases hc

/-- **When `stopLocked` never waits for the loop thread in vain**: if the thread has entered the
loop each time the loop is asked to quit. -/
theorem loop_joins_iff {history : List (RtspHost × HostAction)}
    (hrun : Run step (initial fps) history h) :
    ((∀ x ∈ history, ¬ x.1.StopBlocked) ∧ ¬ h.StopBlocked) ↔
      ∀ x ∈ history, x.1.quitsEarly x.2 = false := by
  refine hrun.forall_iff (fun h => ¬ h.StopBlocked) (fun h a => h.quitsEarly a = false) ?_ ?_ ?_
  · rw [stopBlocked_iff .refl]
    rintro ⟨⟨⟩, -⟩
  · intro h a h' hr hfree hentered hs hblocked
    rcases unquit_of_step (.reachable hr) hs ((stopBlocked_iff (hr.tail hs)).mp hblocked) with
      hunquit | hearly
    · exact hfree ((stopBlocked_iff hr).mpr hunquit)
    · rw [hentered] at hearly
      cases hearly
  · intro h a h' hr _ hearly hs hfree
    refine hfree ((stopBlocked_iff (hr.tail hs)).mpr ?_)
    cases a with
    | server action =>
      cases action with
      | owner env =>
        obtain ⟨hphase, hstage, hcreated⟩ := of_decide_eq_true (eq_true_of_ne_false hearly)
        simp only [step, ownerStep, hphase, releaseStep, hstage, Option.some.injEq] at hs
        rw [← hs]
        exact ⟨hphase, rfl, Or.inl hcreated⟩
      | _ => exact absurd rfl hearly
    | _ => exact absurd rfl hearly

/-- A `start` in which nothing fails. -/
def startHost : List HostAction :=
  [.server (.call .start true), .server (.owner {}), .allocate true true true] ++
    ([.owner { id := 1 }, .owner {}, .owner { id := 2 }, .owner {}, .owner {}, .owner { id := 3 },
      .owner {}, .owner {}] : List RtspAction).map .server

/-- A `stop` up to its last section. -/
def stopHost : List HostAction :=
  ([.call .stop true, .owner {}, .owner {}, .feeder {}, .feeder {}, .owner {}, .owner {}, .owner {},
    .owner {}, .owner {}, .worker, .owner {}, .owner {}, .owner {}, .owner {}] :
      List RtspAction).map .server

/-- The thread enters its loop before the server is stopped. -/
theorem loop_joins_iff_entered :
    ∃ history h, Run step (initial 30) history h ∧ h.server.lifecycle = .stopped ∧
      history.length = 31 ∧ ∀ x ∈ history, ¬ x.1.StopBlocked := by
  have hrun : Run step (initial 30) _ _ :=
    Run.ofExec (startHost ++ .enterLoop :: stopHost ++
      [.server (.owner {}), .leaveLoop, .server (.owner {}), .server (.owner {})]) rfl
  exact ⟨_, _, hrun, rfl, rfl, ((loop_joins_iff hrun).mpr (by decide)).1⟩

/-- A `stop` that is faster than the thread waits for it for ever. -/
theorem not_loop_joins : ¬ ∀ fps h, Reachable step (initial fps) h → ¬ h.StopBlocked := by
  intro hall
  obtain ⟨h, hr, hunquit⟩ := exists_reachable step (initial 30)
    (startHost ++ stopHost ++ [.server (.owner {})]) Unquit (by decide)
  exact hall 30 h hr ((stopBlocked_iff hr).mpr hunquit)

/-! ### The state that a stop leaves -/

/-- What `stopLocked` promises. -/
structure Clean (h : RtspHost) : Prop where
  running : h.server.shared.running = false
  threads : h.server.feeder.phase = .absent ∧ h.loopThread = .absent ∧
    h.server.worker.thread = .absent
  hosts : h.mainLoop = none ∧ h.gstServer = false ∧ h.server.shared.server = false ∧
    h.mounts = false
  media : h.server.shared.currentFactory = none ∧ h.server.shared.currentMedia = none ∧
    h.server.shared.appsrc = none
  sources : h.server.shared.listenerSource = none ∧ h.server.shared.watchdogSource = none
  owners : h.server.shared.recoveryJob = none ∧ h.server.shared.recoveryWorker = false ∧
    h.sessionCleanup = none
  recovery : h.server.shared.recoveryState = .idle ∧ h.server.shared.recoveryToken = 0 ∧
    h.server.shared.recoveryGeneration = 0
  queue : h.server.latest = { value := none, closed := true }
  sessions : h.sessions.current = 0

/-- The host without what nobody can read. -/
def live (h : RtspHost) : RtspHost := { h with server := h.server.live }

/-- A constructed server with the counters of another. -/
def renewed (h : RtspHost) : RtspHost :=
  { server := h.server.renewed, sessions := { h.sessions with current := 0 } }

theorem advance_live (hworker : h.server.shared.recoveryWorker = true →
    h.server.worker.thread ≠ .absent) (action : RtspAction) :
    (h.live.advance action).map live = (h.advance action).map live := by
  have hstep := congrArg (Option.map fun server => ({ h with server } : RtspHost))
    (RtspServer.live_step hworker action)
  rw [Option.map_map, Option.map_map] at hstep
  rw [advance, advance, Option.map_map, Option.map_map]
  exact hstep

/-- What the host does beside the server does not touch what nobody can read. -/
theorem advance_map_live (hworker : h.server.shared.recoveryWorker = true →
    h.server.worker.thread ≠ .absent) (action : RtspAction) {f : RtspHost → RtspHost}
    (hf : ∀ u, (f u).live = f u.live) :
    ((h.live.advance action).map f).map live = ((h.advance action).map f).map live := by
  have hcomp : live ∘ f = f ∘ live := funext hf
  rw [Option.map_map, Option.map_map, hcomp, ← Option.map_map, ← Option.map_map,
    advance_live hworker]

theorem live_ownerStep (hworker : h.server.shared.recoveryWorker = true →
    h.server.worker.thread ≠ .absent) (env : OwnerEnv) :
    (h.live.ownerStep env).map live = (h.ownerStep env).map live := by
  have hlifecycle : h.live.server.lifecycle = h.server.lifecycle := rfl
  cases hphase : h.server.lifecycle with
  | starting stage =>
    simp only [ownerStep, hlifecycle, hphase]
    cases stage with
    | allocate => rfl
    | sessionCleanup => exact advance_map_live hworker _ fun _ => rfl
    | loop => exact advance_map_live hworker _ fun _ => rfl
    | _ => exact advance_live hworker _
  | stopping stage =>
    simp only [ownerStep, hlifecycle, hphase]
    cases stage with
    | destroySources waitFor =>
      refine advance_map_live hworker _ fun u => ?_
      cases hcleanup : u.sessionCleanup <;> simp [stopCleanup, live, hcleanup]
    | disableCallbacks => exact advance_map_live hworker _ fun _ => rfl
    | waitCallbacks =>
      by_cases hclients : h.clients = []
      · have hlive : h.live.clients = [] := hclients
        simp only [hclients, hlive, if_true]
        exact advance_live hworker _
      · have hlive : h.live.clients ≠ [] := hclients
        simp only [hclients, hlive, if_false]
    | release =>
      simp only [releaseStep]
      cases hstage : h.release with
      | quit => simp [live, hstage]
      | join =>
        by_cases hdone : h.loopThread = .returned ∨ h.loopThread = .absent
        · simp [live, hstage, hdone]
        · simp [live, hstage, hdone]
      | drop =>
        have hlive : h.live.release = .drop := hstage
        simp only [hlive]
        exact advance_map_live hworker _ fun _ => rfl
    | _ => exact advance_live hworker _
  | _ => simp only [ownerStep, hlifecycle, hphase]

/-- What nobody can read makes no difference to the host. -/
theorem live_step (hworker : h.server.shared.recoveryWorker = true →
    h.server.worker.thread ≠ .absent) (a : HostAction) :
    (h.live.step a).map live = (h.step a).map live := by
  cases a with
  | server action =>
    cases action with
    | owner env => exact live_ownerStep hworker env
    | tick now =>
      simp only [step, tickStep]
      by_cases hthread : h.loopThread = .iterating
      · have hlive : h.live.loopThread = .iterating := hthread
        simp only [hthread, hlive, if_true]
        refine advance_map_live hworker _ fun u => ?_
        split
        · split <;> rfl
        · rfl
      · have hlive : h.live.loopThread ≠ .iterating := hthread
        simp only [hthread, hlive, if_false]
    | _ => exact advance_live hworker _
  | allocate loop server mounts =>
    simp only [step, allocateStep]
    by_cases hphase : h.server.lifecycle = .starting .allocate
    · have hlive : h.live.server.lifecycle = .starting .allocate := hphase
      simp only [hphase, hlive, if_true]
      exact advance_map_live hworker _ fun _ => rfl
    · have hlive : h.live.server.lifecycle ≠ .starting .allocate := hphase
      simp only [hphase, hlive, if_false]
  | enterLoop => by_cases hthread : h.loopThread = .created <;> simp [step, live, hthread]
  | leaveLoop =>
    by_cases hleaves : h.loopThread = .iterating ∧ h.mainLoop = some false ∧
        h.server.watchdog = .idle <;>
      simp [step, live, RtspServer.live, hleaves]
  | client task =>
    cases hopen : h.server.callbacksOpen && h.clientConnected <;>
      simp [step, live, RtspServer.live, hopen]
  | clientStep index active =>
    simp only [step, clientStep]
    have hlive : h.live.clients = h.clients := rfl
    rw [hlive]
    cases h.clients[index]? with
    | none => rfl
    | some task => cases task <;> cases hserver : h.gstServer <;> simp [live, hserver]
  | cleanup removed active => cases hcleanup : h.sessionCleanup <;> simp [step, live, hcleanup]

/-- Two hosts that differ in nothing anybody can read take the same steps. -/
theorem step_of_live (hworker : h.server.shared.recoveryWorker = true →
    h.server.worker.thread ≠ .absent) (heq : h.live = u.live) (a : HostAction) :
    (h.step a).map live = (u.step a).map live := by
  have hserver : h.server.live = u.server.live := congrArg RtspHost.server heq
  have hshared : h.server.live.shared = u.server.live.shared :=
    congrArg RtspServer.shared hserver
  have hthread : h.server.worker.live.thread = u.server.worker.live.thread :=
    congrArg (fun server => server.worker.thread) hserver
  rw [RecoveryWorker.live_thread, RecoveryWorker.live_thread] at hthread
  simp only [RtspServer.live] at hshared
  rw [← live_step hworker, heq, live_step]
  rw [← hshared, ← hthread]
  exact hworker

/-- They make the same runs. -/
theorem exec_of_live (hr : Reachable step (initial fps) h) (heq : h.live = u.live)
    (actions : List HostAction) :
    (exec step h actions).map live = (exec step u actions).map live := by
  induction actions generalizing h u with
  | nil => exact congrArg some heq
  | cons a rest ih =>
    have hstep := step_of_live (RtspServer.worker_of_reachable (server_reachable hr)) heq a
    simp only [exec]
    cases hs : h.step a with
    | none =>
      rw [hs] at hstep
      rw [Option.map_eq_none_iff.mp hstep.symm]
    | some h' =>
      rw [hs] at hstep
      obtain ⟨u', hu, heq'⟩ := Option.map_eq_some_iff.mp hstep.symm
      rw [hu]
      exact ih (hr.tail hs) heq'.symm

/-- Everything is gone when no epoch is there. -/
theorem clean_of_stopped (hr : Reachable step (initial fps) h)
    (hstopped : h.server.lifecycle = .stopped)
    (hqueue : h.server.latest = { value := none, closed := true }) : Clean h := by
  have hserver := server_reachable hr
  have hinv := HostInv.reachable hr
  have hshared := RtspServer.blank_of_stopped hserver hstopped
  have hvacant := hinv.vacant (by rw [hstopped]; rfl)
  have hblank : ∀ {α : Type} (field : RtspState → α),
      field h.server.shared = field h.server.shared.blank := fun field => congrArg field hshared
  exact {
    running := hblank RtspState.running
    threads := ⟨(RtspServer.FeedInv.reachable hserver).absent (by rw [hstopped]; rfl),
      hinv.threadless (Or.inl (by rw [hstopped]; rfl)),
      (RtspServer.JobInv.reachable hserver).joined (by rw [hstopped]; rfl)⟩
    hosts := ⟨hvacant.1, hvacant.2.1, hblank RtspState.server, hvacant.2.2⟩
    media := ⟨hblank RtspState.currentFactory, hblank RtspState.currentMedia,
      hblank RtspState.appsrc⟩
    sources := ⟨hblank RtspState.listenerSource, hblank RtspState.watchdogSource⟩
    owners := ⟨hblank RtspState.recoveryJob, hblank RtspState.recoveryWorker,
      hinv.cleanup (by rw [hstopped]; rfl)⟩
    recovery := ⟨hblank RtspState.recoveryState, hblank RtspState.recoveryToken,
      hblank RtspState.recoveryGeneration⟩
    queue := hqueue
    sessions := hinv.counted (by rw [hstopped]; rfl) }

/-- A stopped host is a constructed one, but for the counters and the closed queue. -/
theorem start_of_stopped (hr : Reachable step (initial fps) h)
    (hstopped : h.server.lifecycle = .stopped)
    (hqueue : h.server.latest = { value := none, closed := true }) :
    (h.step (.server (.call .start true))).map live =
      (h.renewed.step (.server (.call .start true))).map live := by
  have hinv := HostInv.reachable hr
  obtain ⟨hloop, hserver, hmounts⟩ := hinv.vacant (by rw [hstopped]; rfl)
  have hthread := hinv.threadless (Or.inl (by rw [hstopped]; rfl))
  have hrelease := hinv.released (by rw [hstopped]; rintro ⟨⟩)
  have hconnected := hinv.connected (by rw [hstopped]; rfl)
  have hclients := hinv.clients (by rw [hstopped]; rfl)
  have hcleanup := hinv.cleanup (by rw [hstopped]; rfl)
  have hsessions : { h.sessions with current := 0 } = h.sessions := by
    rw [← hinv.counted (by rw [hstopped]; rfl)]
  have hrest : (fun server => ({ h.renewed with server } : RtspHost)) =
      fun server => { h with server } := by
    funext server
    simp only [renewed, hloop, hserver, hmounts, hthread, hrelease, hconnected, hclients,
      hcleanup, hsessions]
  have hstart := congrArg (Option.map fun server => ({ h with server } : RtspHost))
    (RtspServer.start_of_stopped (server_reachable hr) hstopped hqueue)
  rw [Option.map_map, Option.map_map] at hstart
  simp only [step, advance, hrest]
  rw [Option.map_map, Option.map_map]
  exact hstart

/-- From the first stop on, the queue of a stopped server is closed and empty. -/
theorem queue_of_stopped (hr : Reachable step (initial fps) h)
    (hqueue : h.server.latest = { value := none, closed := true })
    (hreach : Reachable step h u) (hstopped : u.server.lifecycle = .stopped) :
    u.server.latest = { value := none, closed := true } := by
  suffices hkept : Reachable step (initial fps) u ∧ (u.server.lifecycle = .stopped →
      u.server.latest = { value := none, closed := true }) from hkept.2 hstopped
  refine hreach.invariant (fun u => Reachable step (initial fps) u ∧
    (u.server.lifecycle = .stopped → u.server.latest = { value := none, closed := true }))
    ⟨hr, fun _ => hqueue⟩ ?_
  rintro u a u' ⟨hr, hbefore⟩ hs
  refine ⟨hr.tail hs, fun hstopped => ?_⟩
  rcases step_server hs with hsame | ⟨action, hserver⟩
  · rw [hsame] at hstopped ⊢
    exact hbefore hstopped
  · exact RtspServer.queue_of_stopped (server_reachable hr) hbefore hserver hstopped

/-- **A stop ends in one state**, whatever part of `start` came before it and whichever recovery was
in flight. A `start` that follows, at once or later, makes the runs of a constructed server with the
same counters. -/
theorem stop_returns_clean (hr : Reachable step (initial fps) h) {stage : StopStage}
    (hstopping : h.server.lifecycle = .stopping stage) (hs : h.step a = some h')
    (hstopped : h'.server.lifecycle = .stopped) :
    Clean h' ∧ ∀ u, Reachable step h' u → u.server.lifecycle = .stopped → ∀ rest,
      (exec step u (.server (.call .start true) :: rest)).map live =
        (exec step u.renewed (.server (.call .start true) :: rest)).map live := by
  have hr' := hr.tail hs
  have hqueue : h'.server.latest = { value := none, closed := true } := by
    rcases step_server hs with hsame | ⟨action, hserver⟩
    · rw [hsame, hstopping] at hstopped
      cases hstopped
    · refine RtspServer.queue_of_stopped (server_reachable hr) ?_ hserver hstopped
      rw [hstopping]
      rintro ⟨⟩
  refine ⟨clean_of_stopped hr' hstopped hqueue, fun u hreach hphase rest => ?_⟩
  have hru : Reachable step (initial fps) u := by
    obtain ⟨history, hrun⟩ := hreach
    exact hrun.reachable.invariant (Reachable step (initial fps)) hr' fun _ _ _ => Reachable.tail
  have hstart := start_of_stopped hru hphase (queue_of_stopped hr' hqueue hreach hphase)
  simp only [exec]
  cases hfirst : u.step (.server (.call .start true)) with
  | none =>
    rw [hfirst] at hstart
    rw [Option.map_eq_none_iff.mp hstart.symm]
  | some v =>
    rw [hfirst] at hstart
    obtain ⟨v', hv, heq⟩ := Option.map_eq_some_iff.mp hstart.symm
    rw [hv]
    exact exec_of_live (hru.tail hfirst) heq.symm rest

/-- A server that failed to get its listener, and stops. -/
theorem stop_returns_clean_failed :
    ∃ h h', Reachable step (initial 30) h ∧ h.server.lifecycle = .stopping .release ∧
      h.step (.server (.owner {})) = some h' ∧ h'.server.lifecycle = .stopped ∧ Clean h' := by
  have hr : Reachable step (initial 30) _ := Reachable.refl.exec
    ([.server (.call .start true), .server (.owner {}), .allocate true true true,
      .server (.owner { id := 1 }), .server (.owner {}), .server (.owner { ok := false })] ++
      ([.owner {}, .owner {}, .owner {}, .owner {}, .owner {}, .owner {}, .owner {}, .worker,
        .owner {}, .owner {}, .owner {}, .owner {}, .owner {}, .owner {}] :
          List RtspAction).map .server) rfl
  exact ⟨_, _, hr, rfl, rfl, rfl, (stop_returns_clean hr (a := .server (.owner {})) rfl rfl rfl).1⟩

end RtspHost

end EggVision
