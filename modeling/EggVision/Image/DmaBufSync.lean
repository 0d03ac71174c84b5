import EggVision.Image.I420
import EggVision.Lib.FirstAppearances

/-!
# Read sessions on DMA-BUFs

`DmaBufReadSync` brackets the CPU's reads from the planes of a view: each file is started once, and
whatever was started is ended, by `finish` or by the destructor. The sync operation answers each
call with an error number, `0` for success; a call that was interrupted is made again.

The answers are a sequence, one for each call of the operation; a call that is made again and again
is answered at last. The calls are recorded with their answers, the last one at the end. What
`std::strerror` says about an error is a parameter.

## Main definitions

* `SyncResults` — the answers of the operation.
* `DmaBufReadSync.construct`, `DmaBufReadSync.finish` — the object's constructor and `finish`.
* `DmaBufReadSync.life` — an object after any number of calls of `finish`.
* `ReadSession` — the calls of a balanced session.

## Main results

* `finalCalls_synchronize` — however often it is made, a call counts once.
* `endLoop_eq` — what `finish` calls and reports.
* `DmaBufReadSync.life_balanced` — the calls over an object's life are a balanced session.
-/

namespace EggVision

/-! ### The sync operation -/

def EINTR : ℤ := 4

def EAGAIN : ℤ := 11

/-- An answer that ends the loop of `synchronize`. -/
def isFinal (result : ℤ) : Bool := result ≠ EINTR && result ≠ EAGAIN

/-- The direction of a call, `DMA_BUF_SYNC_START` or `DMA_BUF_SYNC_END`; every call is for reading,
`DMA_BUF_SYNC_READ`. -/
inductive SyncPhase
  | START
  | END
  deriving DecidableEq, Repr

/-- A call of the sync operation and its answer. -/
structure SyncCall where
  fd : ℤ
  phase : SyncPhase
  result : ℤ
  deriving DecidableEq, Repr

/-- The answers of the sync operation, in the order of the calls. After any of them there is one
more that is not `EINTR` or `EAGAIN`. -/
structure SyncResults where
  result : ℕ → ℤ
  answered : ∀ n, ∃ m, n ≤ m ∧ isFinal (result m) = true

/-- How many answers there are up to the next final one. -/
def SyncResults.wait (results : SyncResults) (n : ℕ) : ℕ :=
  Nat.find (results.answered n) - n

theorem SyncResults.wait_succ {results : SyncResults} {n : ℕ}
    (h : isFinal (results.result n) = false) : results.wait (n + 1) < results.wait n := by
  obtain ⟨hle, hfinal⟩ := Nat.find_spec (results.answered n)
  have hne : Nat.find (results.answered n) ≠ n := by
    intro heq
    rw [heq, h] at hfinal
    cases hfinal
  have hnext : Nat.find (results.answered (n + 1)) ≤ Nat.find (results.answered n) :=
    Nat.find_min' _ ⟨by omega, hfinal⟩
  rw [wait, wait]
  omega

/-- `synchronize`: the call is made until it has a final answer. -/
def synchronize (results : SyncResults) (fd : ℤ) (phase : SyncPhase) (calls : List SyncCall) :
    ℤ × List SyncCall :=
  let result := results.result calls.length
  let calls' := calls ++ [⟨fd, phase, result⟩]
  if isFinal result then (result, calls') else synchronize results fd phase calls'
termination_by results.wait calls.length
decreasing_by
  rename_i h
  rw [List.length_append]
  exact results.wait_succ (by simpa using h)

/-- `syncError`. -/
def syncError (strerror : ℤ → String) (phase : String) (fd errorNumber : ℤ) : String :=
  "DMA_BUF_IOCTL_SYNC " ++ phase ++ " failed for fd " ++ toString fd ++ ": " ++
    strerror errorNumber

/-! ### The object -/

/-- The object. Only an operation can have started a file. -/
structure DmaBufReadSync where
  operation : Option SyncResults
  synchronizedFds : List ℤ := []
  ready : Bool := false
  usable : operation = none → synchronizedFds = []

/-- What `finish` returns, its error text, and the calls so far. -/
structure FinishOutcome where
  success : Bool
  error : String
  calls : List SyncCall

/-- The loop of `finish`. -/
def endLoop (results : SyncResults) (strerror : ℤ → String) : List ℤ → FinishOutcome → FinishOutcome
  | [], outcome => outcome
  | fd :: rest, outcome =>
    let (result, calls) := synchronize results fd .END outcome.calls
    if result ≠ 0 ∧ outcome.success = true then
      endLoop results strerror rest
        { success := false, error := syncError strerror "END" fd result, calls }
    else
      endLoop results strerror rest { outcome with calls }

namespace DmaBufReadSync

/-- `finish`. -/
def finish (strerror : ℤ → String) (sync : DmaBufReadSync) (calls : List SyncCall) :
    FinishOutcome × DmaBufReadSync :=
  let outcome : FinishOutcome := { success := true, error := "", calls }
  let ended : DmaBufReadSync :=
    { operation := sync.operation, synchronizedFds := [], ready := false, usable := fun _ => rfl }
  match sync.operation with
  | some results => (endLoop results strerror sync.synchronizedFds.reverse outcome, ended)
  | none => (outcome, ended) -- the loop has no rounds, by `usable`

/-- The loop of the constructor over the planes; there is no list when a descriptor is negative. -/
def uniqueFds : List PlaneView → List ℤ → Option (List ℤ)
  | [], fds => some fds
  | plane :: rest, fds =>
    if plane.fd < 0 then none else uniqueFds rest (FirstAppearances.insertNew fds plane.fd)

/-- A constructed object, the error text, and the calls so far. -/
structure Constructed where
  sync : DmaBufReadSync
  error : String
  calls : List SyncCall

/-- An object that has started these files. -/
def opened (results : SyncResults) (synchronizedFds : List ℤ) (ready : Bool) : DmaBufReadSync where
  operation := some results
  synchronizedFds := synchronizedFds
  ready := ready
  usable h := by cases h

/-- The loop of the constructor over the descriptors, and what follows it. -/
def startLoop (results : SyncResults) (strerror : ℤ → String) :
    (fds synchronizedFds : List ℤ) → List SyncCall → Constructed
  | [], synchronizedFds, calls =>
    { sync := opened results synchronizedFds true, error := "", calls }
  | fd :: rest, synchronizedFds, calls =>
    let (result, calls) := synchronize results fd .START calls
    if result ≠ 0 then
      let error := syncError strerror "START" fd result
      let (cleanup, sync) := finish strerror (opened results synchronizedFds false) calls
      let error := if cleanup.error ≠ "" then error ++ ("; cleanup: " ++ cleanup.error) else error
      { sync, error, calls := cleanup.calls }
    else
      startLoop results strerror rest (synchronizedFds ++ [fd]) calls

/-- The constructor. -/
def construct (operation : Option SyncResults) (strerror : ℤ → String) (view : StreamView)
    (calls : List SyncCall) : Constructed :=
  let unopened : DmaBufReadSync := { operation, usable := fun _ => rfl }
  match operation with
  | none => { sync := unopened, error := "DMA-BUF sync operation is unavailable", calls }
  | some results =>
    match uniqueFds view.planes [] with
    | none =>
      { sync := unopened, error := "DMA-BUF sync requires valid plane file descriptors", calls }
    | some [] => { sync := unopened, error := "DMA-BUF sync requires at least one plane", calls }
    | some (fd :: fds) => startLoop results strerror (fd :: fds) [] calls

/-- An object after so many calls of `finish`, and the calls so far. -/
def life (operation : Option SyncResults) (strerror : ℤ → String) (view : StreamView) :
    ℕ → DmaBufReadSync × List SyncCall
  | 0 =>
    let constructed := construct operation strerror view []
    (constructed.sync, constructed.calls)
  | finishes + 1 =>
    let (sync, calls) := life operation strerror view finishes
    let (outcome, sync) := finish strerror sync calls
    (sync, outcome.calls)

/-- The destructor: a `finish` whose error is ignored. The calls over the whole life. -/
def destroyed (operation : Option SyncResults) (strerror : ℤ → String) (view : StreamView)
    (finishes : ℕ) : List SyncCall :=
  let (sync, calls) := life operation strerror view finishes
  (finish strerror sync calls).1.calls

end DmaBufReadSync

/-! ### Calls that count -/

/-- The calls with a final answer. -/
def finalCalls (calls : List SyncCall) : List SyncCall :=
  calls.filter fun call => isFinal call.result

theorem finalCalls_append (calls more : List SyncCall) :
    finalCalls (calls ++ more) = finalCalls calls ++ finalCalls more :=
  List.filter_append ..

/-- **However often it is made, a call counts once**, with the answer that `synchronize` returns. -/
theorem finalCalls_synchronize (results : SyncResults) (fd : ℤ) (phase : SyncPhase)
    (calls : List SyncCall) :
    finalCalls (synchronize results fd phase calls).2 =
      finalCalls calls ++ [⟨fd, phase, (synchronize results fd phase calls).1⟩] := by
  induction calls using synchronize.induct results fd phase with
  | case1 calls result hfinal =>
    rw [synchronize, if_pos hfinal, finalCalls_append]
    simp [finalCalls, show isFinal (results.result calls.length) = true from hfinal]
  | case2 calls result calls' hfinal ih =>
    have hskip : finalCalls calls' = finalCalls calls := by
      rw [finalCalls_append]
      simp [finalCalls, hfinal]
    rw [synchronize, if_neg hfinal, ih, hskip]

/-- A file's place in a session: its descriptor and the direction of the call. -/
def SyncCall.side (call : SyncCall) : ℤ × SyncPhase := (call.fd, call.phase)

/-- What the loop of `finish` calls and reports: each file is ended, whatever the answers, and the
error is there when one of them was one. -/
structure Ended (fds : List ℤ) (outcome : FinishOutcome) (outcome' : FinishOutcome)
    (ends : List SyncCall) : Prop where
  calls : finalCalls outcome'.calls = finalCalls outcome.calls ++ ends
  side : ends.map SyncCall.side = fds.map fun fd => (fd, .END)
  success : outcome'.success = true ↔ outcome.success = true ∧ ∀ call ∈ ends, call.result = 0
  error : (outcome.success = false → outcome.error ≠ "") →
    outcome'.success = false → outcome'.error ≠ ""

theorem append_ne {a b : String} (h : a ≠ "") : a ++ b ≠ "" := by
  intro hab
  have hlist := congrArg String.toList hab
  rw [String.toList_append] at hlist
  exact h (String.toList_inj.mp (List.append_eq_nil_iff.mp hlist).1)

theorem syncError_ne (strerror : ℤ → String) (phase : String) (fd errorNumber : ℤ) :
    syncError strerror phase fd errorNumber ≠ "" :=
  append_ne (append_ne (append_ne (append_ne (append_ne (by decide)))))

theorem endLoop_eq (results : SyncResults) (strerror : ℤ → String) (fds : List ℤ)
    (outcome : FinishOutcome) :
    ∃ ends, Ended fds outcome (endLoop results strerror fds outcome) ends := by
  induction fds generalizing outcome with
  | nil => exact ⟨[], by simp [endLoop], rfl, by simp [endLoop], id⟩
  | cons fd rest ih =>
    have hcalls := finalCalls_synchronize results fd .END outcome.calls
    rw [endLoop]
    generalize synchronize results fd .END outcome.calls = answer at hcalls ⊢
    obtain ⟨result, calls⟩ := answer
    simp only at hcalls ⊢
    split
    · rename_i hfailed
      obtain ⟨ends, hends⟩ :=
        ih { success := false, error := syncError strerror "END" fd result, calls }
      refine ⟨⟨fd, .END, result⟩ :: ends, ?_, ?_, ?_, ?_⟩
      · rw [hends.calls, hcalls, List.append_assoc]
        rfl
      · rw [List.map_cons, List.map_cons, hends.side]
        rfl
      · rw [hends.success]
        simp [hfailed.1]
      · exact fun _ => hends.error fun _ => syncError_ne strerror "END" fd result
    · rename_i hgood
      obtain ⟨ends, hends⟩ := ih { outcome with calls }
      refine ⟨⟨fd, .END, result⟩ :: ends, ?_, ?_, ?_, ?_⟩
      · rw [hends.calls, hcalls, List.append_assoc]
        rfl
      · rw [List.map_cons, List.map_cons, hends.side]
        rfl
      · rw [hends.success, List.forall_mem_cons]
        by_cases hresult : result = 0
        · simp [hresult]
        · simp [hresult] at hgood ⊢
          simp [hgood]
      · exact hends.error

/-! ### Balanced sessions -/

/-- The calls of a session over the files of some planes. Each file is started in the order of its
first appearance, until a `START` fails; those that were started are ended in the reverse order. -/
structure ReadSession (planeFds : List ℤ) where
  fds : List ℤ
  inOrder : FirstAppearances.Of fds planeFds
  started : List ℤ
  failed : Option SyncCall
  reached : (failed = none ∧ started = fds) ∨
    ∃ fd result rest, result ≠ 0 ∧ failed = some ⟨fd, .START, result⟩ ∧ fds = started ++ fd :: rest
  ends : List SyncCall
  ends_side : ends.map SyncCall.side = started.reverse.map fun fd => (fd, .END)

/-- The calls that start files. -/
def startCalls (fds : List ℤ) : List SyncCall := fds.map fun fd => ⟨fd, .START, 0⟩

def ReadSession.calls {planeFds : List ℤ} (session : ReadSession planeFds) : List SyncCall :=
  startCalls session.started ++ session.failed.toList ++ session.ends

/-- All calls of a session have succeeded when no `START` has failed and no `END` has. -/
theorem ReadSession.succeeded_iff {planeFds : List ℤ} (session : ReadSession planeFds) :
    (∀ call ∈ session.calls, call.result = 0) ↔
      session.failed = none ∧ ∀ call ∈ session.ends, call.result = 0 := by
  constructor
  · intro h
    refine ⟨?_, fun call hmem => h call (by simp [calls, hmem])⟩
    rcases session.reached with ⟨hnone, -⟩ | ⟨fd, result, rest, hresult, hfailed, -⟩
    · exact hnone
    · exact absurd (h ⟨fd, .START, result⟩ (by simp [calls, hfailed])) hresult
  · rintro ⟨hfailed, hends⟩ call hmem
    rw [calls, hfailed] at hmem
    simp only [Option.toList_none, List.append_nil, List.mem_append, startCalls,
      List.mem_map] at hmem
    rcases hmem with ⟨fd, -, rfl⟩ | hmem
    · rfl
    · exact hends call hmem

/-- Whatever a session has started, it has ended. -/
theorem ReadSession.ended_of_started {planeFds : List ℤ} (session : ReadSession planeFds) {fd : ℤ}
    (h : ⟨fd, .START, 0⟩ ∈ session.calls) : ∃ result, ⟨fd, .END, result⟩ ∈ session.calls := by
  have hends {call : SyncCall} (hmem : call ∈ session.ends) : call.phase = .END := by
    have hside := List.mem_map_of_mem (f := SyncCall.side) hmem
    rw [session.ends_side] at hside
    obtain ⟨_, -, heq⟩ := List.mem_map.mp hside
    exact (congrArg Prod.snd heq).symm
  rw [calls, List.mem_append, List.mem_append] at h
  rcases h with (h | h) | h
  · obtain ⟨fd', hstarted, heq⟩ := List.mem_map.mp h
    cases heq
    have hside : (fd, SyncPhase.END) ∈ session.ends.map SyncCall.side := by
      rw [session.ends_side]
      exact List.mem_map_of_mem (List.mem_reverse.mpr hstarted)
    obtain ⟨⟨_, _, result⟩, hmem, heq⟩ := List.mem_map.mp hside
    cases heq
    exact ⟨result, List.mem_append_right _ hmem⟩
  · rcases session.reached with ⟨hnone, -⟩ | ⟨_, result, _, hresult, hfailed, -⟩
    · rw [hnone] at h
      cases h
    · rw [hfailed, Option.toList_some, List.mem_singleton] at h
      cases h
      exact absurd rfl hresult
  · cases hends h

namespace DmaBufReadSync

theorem finish_calls_of_empty (strerror : ℤ → String) {sync : DmaBufReadSync}
    (h : sync.synchronizedFds = []) (calls : List SyncCall) :
    (finish strerror sync calls).1.calls = calls := by
  rw [finish, h]
  split <;> rfl

theorem finish_synchronizedFds (strerror : ℤ → String) (sync : DmaBufReadSync)
    (calls : List SyncCall) : (finish strerror sync calls).2.synchronizedFds = [] := by
  rw [finish]
  split <;> rfl

theorem finish_ready (strerror : ℤ → String) (sync : DmaBufReadSync) (calls : List SyncCall) :
    (finish strerror sync calls).2.ready = false := by
  rw [finish]
  split <;> rfl

/-- What `finish` calls and reports for the files that an object has started. -/
theorem finish_opened (results : SyncResults) (strerror : ℤ → String) (fds : List ℤ) (ready : Bool)
    (calls : List SyncCall) :
    ∃ ends, Ended fds.reverse { success := true, error := "", calls }
      (finish strerror (opened results fds ready) calls).1 ends :=
  endLoop_eq results strerror fds.reverse _

theorem uniqueFds_of_nonneg {planes : List PlaneView} (h : ∀ plane ∈ planes, 0 ≤ plane.fd)
    (fds : List ℤ) :
    uniqueFds planes fds =
      some ((planes.map PlaneView.fd).foldl FirstAppearances.insertNew fds) := by
  induction planes generalizing fds with
  | nil => rfl
  | cons plane rest ih =>
    obtain ⟨hplane, hrest⟩ := List.forall_mem_cons.mp h
    rw [uniqueFds, if_neg (by omega), ih hrest]
    rfl

theorem uniqueFds_of_neg {planes : List PlaneView} (h : ∃ plane ∈ planes, plane.fd < 0)
    (fds : List ℤ) : uniqueFds planes fds = none := by
  induction planes generalizing fds with
  | nil =>
    obtain ⟨plane, hmem, -⟩ := h
    cases hmem
  | cons plane rest ih =>
    rw [uniqueFds]
    split
    · rfl
    · rename_i hplane
      exact ih ((List.exists_mem_cons_iff ..).mp h |>.resolve_left hplane) _

/-- What the loop of the constructor leaves: an object with all files, or an error and a session
that has been ended. -/
inductive Started (results : SyncResults) (done fds : List ℤ) (constructed : Constructed) : Prop
  | success (sync : constructed.sync = opened results (done ++ fds) true)
      (error : constructed.error = "")
      (calls : finalCalls constructed.calls = startCalls (done ++ fds))
  | failure (before rest : List ℤ) (fd result : ℤ) (ends : List SyncCall)
      (reached : fds = before ++ fd :: rest) (failed : result ≠ 0)
      (sync : constructed.sync = opened results [] false) (error : constructed.error ≠ "")
      (calls : finalCalls constructed.calls =
        startCalls (done ++ before) ++ [⟨fd, .START, result⟩] ++ ends)
      (side : ends.map SyncCall.side = (done ++ before).reverse.map fun fd => (fd, .END))

theorem startLoop_started (results : SyncResults) (strerror : ℤ → String) (fds done : List ℤ)
    (calls : List SyncCall) (h : finalCalls calls = startCalls done) :
    Started results done fds (startLoop results strerror fds done calls) := by
  induction fds generalizing done calls with
  | nil => exact .success (by rw [List.append_nil]; rfl) rfl (by rw [List.append_nil]; exact h)
  | cons fd rest ih =>
    have hcalls := finalCalls_synchronize results fd .START calls
    rw [startLoop]
    generalize synchronize results fd .START calls = answer at hcalls ⊢
    obtain ⟨result, calls'⟩ := answer
    simp only [h] at hcalls ⊢
    by_cases hresult : result = 0
    · subst hresult
      rw [if_neg (by simp)]
      have hdone : finalCalls calls' = startCalls (done ++ [fd]) := by
        rw [hcalls, startCalls, startCalls, List.map_append]
        rfl
      rcases ih (done ++ [fd]) calls' hdone with
        ⟨hsync, herror, hfinal⟩ | ⟨before, rest', fd', result, ends, hreached, hfailed, hsync,
          herror, hfinal, hside⟩
      · rw [← List.append_cons done fd rest] at hsync hfinal
        exact .success hsync herror hfinal
      · rw [← List.append_cons done fd before] at hfinal hside
        exact .failure (fd :: before) rest' fd' result ends (by rw [hreached]; rfl) hfailed hsync
          herror hfinal hside
    · rw [if_pos hresult]
      obtain ⟨ends, hends⟩ := finish_opened results strerror done false calls'
      refine .failure [] rest fd result ends rfl hresult rfl ?_ ?_ ?_
      · split
        · exact append_ne (syncError_ne strerror "START" fd result)
        · exact syncError_ne strerror "START" fd result
      · rw [hends.calls, hcalls, List.append_nil]
      · rw [hends.side, List.append_nil]

/-- A view without a session: there is nothing to start, or no way to. -/
def Refused (operation : Option SyncResults) (view : StreamView) : Prop :=
  operation = none ∨ view.planes = [] ∨ ∃ plane ∈ view.planes, plane.fd < 0

/-- Nothing is started for a refused view. -/
theorem construct_refused {operation : Option SyncResults} {view : StreamView}
    (h : Refused operation view) (strerror : ℤ → String) (calls : List SyncCall) :
    (construct operation strerror view calls).sync.synchronizedFds = [] ∧
      (construct operation strerror view calls).sync.ready = false ∧
      (construct operation strerror view calls).error ≠ "" ∧
      (construct operation strerror view calls).calls = calls := by
  rcases operation with _ | results
  · exact ⟨rfl, rfl, (by decide : "DMA-BUF sync operation is unavailable" ≠ ""), rfl⟩
  · rw [construct]
    rcases h with h | h | h
    · cases h
    · rw [h]
      exact ⟨rfl, rfl, (by decide : "DMA-BUF sync requires at least one plane" ≠ ""), rfl⟩
    · rw [uniqueFds_of_neg h]
      exact ⟨rfl, rfl,
        (by decide : "DMA-BUF sync requires valid plane file descriptors" ≠ ""), rfl⟩

/-- Otherwise the files of the planes are started, each once. -/
theorem construct_started (results : SyncResults) {view : StreamView} (hplanes : view.planes ≠ [])
    (hfds : ∀ plane ∈ view.planes, 0 ≤ plane.fd) (strerror : ℤ → String) :
    ∃ fds, FirstAppearances.Of fds (view.planes.map PlaneView.fd) ∧
      Started results [] fds (construct (some results) strerror view []) := by
  have hof := FirstAppearances.of_foldl FirstAppearances.of_nil (view.planes.map PlaneView.fd)
  rw [List.nil_append] at hof
  rw [construct, uniqueFds_of_nonneg hfds]
  generalize (view.planes.map PlaneView.fd).foldl FirstAppearances.insertNew [] = fds at hof ⊢
  rcases fds with _ | ⟨fd, fds⟩
  · obtain ⟨plane, hmem⟩ := List.exists_mem_of_ne_nil _ hplanes
    cases (hof.mem_iff plane.fd).mpr (List.mem_map_of_mem hmem)
  · exact ⟨fd :: fds, hof, startLoop_started results strerror (fd :: fds) [] [] rfl⟩

/-- After the first `finish` nothing is left to end. -/
theorem life_succ (operation : Option SyncResults) (strerror : ℤ → String) (view : StreamView)
    (finishes : ℕ) :
    (life operation strerror view (finishes + 1)).1.synchronizedFds = [] ∧
      (life operation strerror view (finishes + 1)).1.ready = false ∧
      (life operation strerror view (finishes + 1)).2 = destroyed operation strerror view 0 := by
  refine ⟨finish_synchronizedFds _ _ _, finish_ready _ _ _, ?_⟩
  induction finishes with
  | zero => rfl
  | succ finishes ih =>
    refine Eq.trans ?_ ih
    exact finish_calls_of_empty strerror (finish_synchronizedFds _ _ _) _

/-- The number of calls of `finish` makes no difference. -/
theorem destroyed_eq (operation : Option SyncResults) (strerror : ℤ → String) (view : StreamView)
    (finishes : ℕ) :
    destroyed operation strerror view finishes = destroyed operation strerror view 0 := by
  rcases finishes with _ | finishes
  · rfl
  · obtain ⟨hfds, -, hcalls⟩ := life_succ operation strerror view finishes
    rw [← hcalls]
    exact finish_calls_of_empty strerror hfds _

/-- What the constructor and a `finish` after it do for a session. -/
structure SessionOf {planeFds : List ℤ} (strerror : ℤ → String) (constructed : Constructed)
    (session : ReadSession planeFds) : Prop where
  calls : finalCalls (finish strerror constructed.sync constructed.calls).1.calls = session.calls
  ready : constructed.sync.ready = true ↔ session.failed = none
  error : constructed.sync.ready = false → constructed.error ≠ ""
  success : constructed.sync.ready = true →
    ((finish strerror constructed.sync constructed.calls).1.success = true ↔
      ∀ call ∈ session.ends, call.result = 0)
  finish_error : (finish strerror constructed.sync constructed.calls).1.success = false →
    (finish strerror constructed.sync constructed.calls).1.error ≠ ""

theorem construct_session (results : SyncResults) {view : StreamView} (hplanes : view.planes ≠ [])
    (hfds : ∀ plane ∈ view.planes, 0 ≤ plane.fd) (strerror : ℤ → String) :
    ∃ session : ReadSession (view.planes.map PlaneView.fd),
      SessionOf strerror (construct (some results) strerror view []) session := by
  obtain ⟨fds, hof, hstarted⟩ := construct_started results hplanes hfds strerror
  generalize construct (some results) strerror view [] = constructed at hstarted ⊢
  obtain ⟨sync, error, calls⟩ := constructed
  rcases hstarted with ⟨hsync, herror, hcalls⟩ |
    ⟨before, rest, fd, result, ends, hreached, hfailed, hsync, herror, hcalls, hside⟩
  · simp only [List.nil_append] at hsync hcalls
    subst hsync
    obtain ⟨ends, hends⟩ := finish_opened results strerror fds true calls
    refine ⟨⟨fds, hof, fds, none, .inl ⟨rfl, rfl⟩, ends, hends.side⟩, ?_, ?_, ?_, ?_, ?_⟩
    · rw [hends.calls, hcalls]
      simp [ReadSession.calls]
    · exact ⟨fun _ => rfl, fun _ => rfl⟩
    · intro h
      cases h
    · intro _
      rw [hends.success]
      simp
    · exact hends.error fun h => by cases h
  · simp only at hsync hcalls herror
    subst hsync
    have hclosed : (finish strerror (opened results [] false) calls).1 =
        { success := true, error := "", calls } := rfl
    refine ⟨⟨fds, hof, before, some ⟨fd, .START, result⟩,
      .inr ⟨fd, result, rest, hfailed, rfl, hreached⟩, ends, hside⟩, ?_, ?_, ?_, ?_, ?_⟩
    · rw [hclosed]
      exact hcalls
    · exact ⟨fun h => (by cases h), fun h => (by cases h)⟩
    · exact fun _ => herror
    · intro h
      cases h
    · intro h
      cases h

/-- **Read sessions are balanced.** Over an object's life, whatever the operation answers and
however often `finish` is called, the calls that count are those of one session, and the object is
ready from a complete start up to the first `finish`. Without planes, or with an invalid descriptor,
there are no calls at all. -/
theorem life_balanced (operation : Option SyncResults) (strerror : ℤ → String)
    (view : StreamView) :
    (Refused operation view → ∀ finishes, destroyed operation strerror view finishes = [] ∧
      (life operation strerror view finishes).1.ready = false) ∧
    ∀ results, operation = some results → view.planes ≠ [] →
      (∀ plane ∈ view.planes, 0 ≤ plane.fd) →
      ∃ session : ReadSession (view.planes.map PlaneView.fd), ∀ finishes,
        finalCalls (destroyed operation strerror view finishes) = session.calls ∧
        ((life operation strerror view finishes).1.ready = true ↔
          session.failed = none ∧ finishes = 0) := by
  have hready (finishes : ℕ) :
      (life operation strerror view (finishes + 1)).1.ready = false :=
    (life_succ operation strerror view finishes).2.1
  constructor
  · intro hrefused finishes
    obtain ⟨hfds, hnotReady, -, hcalls⟩ := construct_refused hrefused strerror []
    refine ⟨?_, ?_⟩
    · rw [destroyed_eq]
      exact (finish_calls_of_empty strerror hfds _).trans hcalls
    · rcases finishes with _ | finishes
      · exact hnotReady
      · exact hready finishes
  · rintro results rfl hplanes hfds
    obtain ⟨session, hsession⟩ := construct_session results hplanes hfds strerror
    refine ⟨session, fun finishes => ⟨?_, ?_⟩⟩
    · rw [destroyed_eq]
      exact hsession.calls
    · rcases finishes with _ | finishes
      · rw [and_iff_left rfl]
        exact hsession.ready
      · rw [hready finishes]
        simp

end DmaBufReadSync

end EggVision
