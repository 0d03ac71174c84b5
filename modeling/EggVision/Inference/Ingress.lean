import EggVision.Image.Copy
import EggVision.Image.DmaBufSync

/-!
# The way of a frame into the inference

`InferenceWorker::workerLoop` reads the small image of a frame inside a read session on its files:
in place if it is compact, and row by row into a buffer of its own otherwise. Either way
`cv::cvtColor` makes the picture for the model, in the first case while the session lasts and in the
second after it. A pass that is left early, by `continue` or by an exception, leaves the session to
the destructor.

What `cvtColor` makes of the bytes is a parameter; it may throw.

## Main definitions

* `ingress` — this part of a pass through the loop, with what it does to the memory

## Main results

* `ingress_spec` — the picture is the same either way, and no byte is read outside the session
-/

namespace EggVision

/-- The addresses of the bytes of a matrix. -/
def Mat.addresses (mat : Mat) : List ℕ :=
  (List.range (mat.rows * mat.cols).toNat).map fun i => mat.data + i

namespace Inference

open DmaBufReadSync Planar

/-- What happens to the memory of a frame. -/
inductive MemoryEvent
  | sync (call : SyncCall)
  | read (address : ℕ)
deriving DecidableEq, Repr

/-- How the part of the loop ends that reads the frame. -/
inductive IngressEnd (β : Type)
  | startFailed
  | copyFailed
  | threw
  | endFailed
  | converted (bgr : β)
deriving DecidableEq

/-- What is known after it. -/
structure Ingress (β : Type) where
  status : CompactI420Status
  ending : IngressEnd β
  events : List MemoryEvent

/-- The reads come after the calls that opened the session. -/
def eventsOf (opening : List SyncCall) (reads : List ℕ) (calls : List SyncCall) :
    List MemoryEvent :=
  opening.map .sync ++ reads.map .read ++ (calls.drop opening.length).map .sync

section

variable {β : Type} (results : SyncResults) (strerror : ℤ → String) (memory : ℕ → UInt8)
  (cvtColor : List UInt8 → ℤ → ℤ → Option β) (view : StreamView)

/-- The body of the loop up to the end of the input. -/
def ingress : Ingress β :=
  let compact := inspectCompactI420 view
  let constructed := construct (some results) strerror view []
  if ¬ constructed.sync.ready then
    let (destroyed, _) := finish strerror constructed.sync constructed.calls
    { status := compact.status
      ending := .startFailed
      events := eventsOf constructed.calls [] destroyed.calls }
  else if compact.status = .compatible then
    let yuv := inputMat view compact.data
    match cvtColor (yuv.addresses.map memory) yuv.rows yuv.cols with
    | none =>
      let (destroyed, _) := finish strerror constructed.sync constructed.calls
      { status := compact.status
        ending := .threw
        events := eventsOf constructed.calls yuv.addresses destroyed.calls }
    | some bgr =>
      let (ended, readSync) := finish strerror constructed.sync constructed.calls
      let (destroyed, _) := finish strerror readSync ended.calls
      { status := compact.status
        ending := if ended.success then .converted bgr else .endFailed
        events := eventsOf constructed.calls yuv.addresses destroyed.calls }
  else
    let copy := copyCall memory view
    if ¬ copy.copied then
      let (destroyed, _) := finish strerror constructed.sync constructed.calls
      { status := compact.status
        ending := .copyFailed
        events := eventsOf constructed.calls copy.reads destroyed.calls }
    else
      let (ended, readSync) := finish strerror constructed.sync constructed.calls
      let (destroyed, _) := finish strerror readSync ended.calls
      let yuv := inputMat view 0 -- over the buffer, wherever it is
      { status := compact.status
        ending :=
          if ¬ ended.success then .endFailed
          else match cvtColor copy.destination yuv.rows yuv.cols with
            | none => .threw
            | some bgr => .converted bgr
        events := eventsOf constructed.calls copy.reads destroyed.calls }

variable {results strerror memory cvtColor view}

/-! ### The order of events -/

theorem calls_synchronize (fd : ℤ) (phase : SyncPhase) (calls : List SyncCall) :
    calls <+: (synchronize results fd phase calls).2 := by
  induction calls using synchronize.induct results fd phase with
  | case1 calls result hfinal =>
    rw [synchronize, if_pos hfinal]
    exact List.prefix_append _ _
  | case2 calls result calls' hfinal ih =>
    rw [synchronize, if_neg hfinal]
    exact (List.prefix_append _ _).trans ih

theorem calls_endLoop (fds : List ℤ) (outcome : FinishOutcome) :
    outcome.calls <+: (endLoop results strerror fds outcome).calls := by
  induction fds generalizing outcome with
  | nil => exact List.prefix_rfl
  | cons fd rest ih =>
    have hcalls : outcome.calls <+: (synchronize results fd .END outcome.calls).2 :=
      calls_synchronize fd .END outcome.calls
    rw [endLoop]
    generalize synchronize results fd .END outcome.calls = answer at hcalls ⊢
    obtain ⟨result, calls⟩ := answer
    simp only
    split
    · exact hcalls.trans (ih ⟨_, _, calls⟩)
    · exact hcalls.trans (ih ⟨_, _, calls⟩)

theorem calls_finish (sync : DmaBufReadSync) (calls : List SyncCall) :
    calls <+: (finish strerror sync calls).1.calls := by
  rw [finish]
  split
  · exact calls_endLoop _ ⟨true, "", calls⟩
  · exact List.prefix_rfl

def MemoryEvent.call : MemoryEvent → Option SyncCall
  | .sync call => some call
  | .read _ => none

/-- The calls among the events. -/
def syncCalls (events : List MemoryEvent) : List SyncCall := events.filterMap MemoryEvent.call

theorem syncCalls_eventsOf {opening calls : List SyncCall} (reads : List ℕ)
    (h : opening <+: calls) : syncCalls (eventsOf opening reads calls) = calls := by
  have hsync (calls : List SyncCall) : syncCalls (calls.map .sync) = calls := by
    rw [syncCalls, List.filterMap_map]
    exact List.filterMap_some
  have hread : syncCalls (reads.map .read) = [] := by
    rw [syncCalls, List.filterMap_map]
    exact List.filterMap_eq_nil_iff.mpr fun _ _ => rfl
  rw [eventsOf, syncCalls, List.filterMap_append, List.filterMap_append]
  change syncCalls _ ++ syncCalls _ ++ syncCalls _ = calls
  rw [hsync, hread, hsync, List.append_nil]
  exact List.prefix_iff_eq_append.mp h

/-! ### A compact image -/

/-- The matrix over a compact image has the samples, in their order. -/
theorem compact_addresses {sizes : I420Sizes} {y u v : PlaneView} (h : Compact view sizes y u v) :
    (inputMat view y.data).addresses = sampleAddresses view := by
  have hsized := sized_of_calculateSizes h.sized
  have hchroma := hsized.chroma
  simp only [toNat_half] at hchroma
  obtain ⟨hydata, hudata, hvdata⟩ := h.data
  obtain ⟨-, -, harea⟩ := h.inputMat_eq y.data
  have hstart := planeSources_start h.sources_eq
  have hmat : (inputMat view y.data).addresses = bytesAt id y.data sizes.total := by
    rw [Mat.addresses, harea]
    rfl
  rw [hmat, sampleAddresses, ← I420Plane.addresses_eq (hstart .y),
    ← I420Plane.addresses_eq (hstart .u), ← I420Plane.addresses_eq (hstart .v)]
  simp only [PlaneSources.pointer, I420Plane.rows, I420Plane.columns, I420Plane.stride, h.stride]
  rw [strided_contiguous, strided_contiguous, strided_contiguous, ← hsized.y, ← hchroma, hudata,
    hvdata, ← hydata, bytesAt_append, Nat.add_assoc, bytesAt_append, hsized.total, Nat.two_mul,
    Nat.add_assoc]

/-- A compact image could have been copied. -/
theorem copied_of_compact {sizes : I420Sizes} {y u v : PlaneView} (memory : ℕ → UInt8)
    (h : Compact view sizes y u v) : (copyCall memory view).copied = true := by
  have hstride := h.stride
  have hsized := sized_of_calculateSizes h.sized
  have hcopy : copyMappedI420 memory view =
      .ok (planarBytes memory view { y := y.data, u := u.data, v := v.data }) :=
    copyMappedI420_eq_ok.mpr ⟨sizes, _, h.sized, by rw [hstride], by
      rw [hstride]
      exact hsized.width_even, h.sources_eq, rfl⟩
  rw [copyCall, hcopy]

/-! ### A pass -/

/-- Nothing is read but between the calls that start every file and those that end every file. -/
def Bracketed (view : StreamView) (events : List MemoryEvent) : Prop :=
  ∃ (fds : List ℤ) (opening : List SyncCall) (reads : List ℕ) (closing : List SyncCall),
    FirstAppearances.Of fds (view.planes.map PlaneView.fd) ∧
    events = opening.map .sync ++ reads.map .read ++ closing.map .sync ∧
    finalCalls opening = startCalls fds ∧
    (finalCalls closing).map SyncCall.side = fds.reverse.map fun fd => (fd, .END)

theorem opened_of_ready (hready : (construct (some results) strerror view []).sync.ready = true)
    (hplanes : view.planes ≠ []) (hfds : ∀ plane ∈ view.planes, 0 ≤ plane.fd) :
    ∃ fds, FirstAppearances.Of fds (view.planes.map PlaneView.fd) ∧
      (construct (some results) strerror view []).sync = opened results fds true ∧
      finalCalls (construct (some results) strerror view []).calls = startCalls fds := by
  obtain ⟨fds, hof, hstarted⟩ := construct_started results hplanes hfds strerror
  rcases hstarted with ⟨hsync, -, hcalls⟩ | ⟨-, -, -, -, -, -, -, hsync, -, -, -⟩
  · exact ⟨fds, hof, hsync, hcalls⟩
  · rw [hsync] at hready
    cases hready

/-- The session of an image that is read brackets the reads. -/
theorem bracketed_of_ready (reads : List ℕ)
    (hready : (construct (some results) strerror view []).sync.ready = true)
    (hplanes : view.planes ≠ []) (hfds : ∀ plane ∈ view.planes, 0 ≤ plane.fd) :
    Bracketed view (eventsOf (construct (some results) strerror view []).calls reads
      (finish strerror (construct (some results) strerror view []).sync
        (construct (some results) strerror view []).calls).1.calls) := by
  obtain ⟨fds, hof, hsync, hopening⟩ := opened_of_ready hready hplanes hfds
  refine ⟨fds, _, reads, _, hof, rfl, hopening, ?_⟩
  rw [hsync]
  generalize (construct (some results) strerror view []).calls = opening
  obtain ⟨ends, hends⟩ := finish_opened results strerror fds true opening
  have hextended : opening <+: (finish strerror (opened results fds true) opening).1.calls :=
    calls_finish (opened results fds true) opening
  have hclosing := List.prefix_iff_eq_append.mp hextended
  have hcalls := hends.calls
  rw [← hclosing, finalCalls_append] at hcalls
  rw [List.append_cancel_left hcalls, hends.side]

/-- A session that could not be started is over at once. -/
theorem ingress_unready (hready : (construct (some results) strerror view []).sync.ready = false) :
    ingress results strerror memory cvtColor view =
      { status := (inspectCompactI420 view).status
        ending := .startFailed
        events := eventsOf (construct (some results) strerror view []).calls []
          (finish strerror (construct (some results) strerror view []).sync
            (construct (some results) strerror view []).calls).1.calls } := by
  rw [ingress, if_pos (by simp [hready])]

/-- What a pass with a session reads, and when there is a picture at its end. -/
theorem ingress_ready (hready : (construct (some results) strerror view []).sync.ready = true) :
    (∃ reads, (ingress results strerror memory cvtColor view).events =
        eventsOf (construct (some results) strerror view []).calls reads
          (finish strerror (construct (some results) strerror view []).sync
            (construct (some results) strerror view []).calls).1.calls ∧
      (reads = [] ∨ (copyCall memory view).copied = true ∧ reads = sampleAddresses view)) ∧
    ∀ bgr, (ingress results strerror memory cvtColor view).ending = .converted bgr ↔
      (finish strerror (construct (some results) strerror view []).sync
        (construct (some results) strerror view []).calls).1.success = true ∧
      (copyCall memory view).copied = true ∧
      cvtColor ((sampleAddresses view).map memory) (inputMat view 0).rows (inputMat view 0).cols =
        some bgr := by
  have hdestroyed := finish_calls_of_empty strerror (finish_synchronizedFds strerror
    (construct (some results) strerror view []).sync
    (construct (some results) strerror view []).calls)
  rw [ingress, if_neg (by simp [hready])]
  generalize construct (some results) strerror view [] = constructed at hdestroyed ⊢
  simp only [hdestroyed]
  generalize (finish strerror constructed.sync constructed.calls).1 = ended
  by_cases hstatus : (inspectCompactI420 view).status = .compatible
  · obtain ⟨sizes, y, u, v, hcompact, hresult⟩ := inspectCompactI420_compatible hstatus
    have hcopied := copied_of_compact memory hcompact
    have haddresses := compact_addresses hcompact
    rw [if_pos hstatus, hresult]
    have hdims : (inputMat view y.data).rows = (inputMat view 0).rows ∧
        (inputMat view y.data).cols = (inputMat view 0).cols := ⟨rfl, rfl⟩
    simp only [haddresses, hdims, hcopied, true_and]
    generalize cvtColor ((sampleAddresses view).map memory) (inputMat view 0).rows
      (inputMat view 0).cols = picture
    cases picture with
    | none => exact ⟨⟨_, rfl, .inr rfl⟩, by simp⟩
    | some bgr =>
      refine ⟨⟨_, rfl, .inr rfl⟩, fun bgr' => ?_⟩
      cases ended.success <;> simp
  · rw [if_neg hstatus]
    cases hcopied : (copyCall memory view).copied with
    | false =>
      obtain ⟨-, -, hreads⟩ := copyCall_refused hcopied
      rw [if_pos (by simp), hreads]
      exact ⟨⟨[], rfl, .inl rfl⟩, by simp⟩
    | true =>
      obtain ⟨-, hreads, hdestination, -⟩ := copyCall_accepted hcopied
      rw [if_neg (by simp), hreads, hdestination]
      refine ⟨⟨_, rfl, .inr ⟨rfl, rfl⟩⟩, fun bgr => ?_⟩
      generalize cvtColor ((sampleAddresses view).map memory) (inputMat view 0).rows
        (inputMat view 0).cols = picture
      cases ended.success <;> cases picture <;> simp

/-- A picture is made of the samples of the image. -/
theorem samples_of_converted {bgr : β}
    (h : (ingress results strerror memory cvtColor view).ending = .converted bgr) :
    cvtColor ((sampleAddresses view).map memory) (inputMat view 0).rows (inputMat view 0).cols =
      some bgr := by
  cases hready : (construct (some results) strerror view []).sync.ready with
  | false =>
    rw [ingress_unready hready] at h
    cases h
  | true => exact ((ingress_ready hready).2 bgr).mp h |>.2.2

/-- There is something to start, and a way to. -/
def Startable (view : StreamView) : Prop :=
  view.planes ≠ [] ∧ ∀ plane ∈ view.planes, 0 ≤ plane.fd

theorem refused_of_not_startable (h : ¬ Startable view) : Refused (some results) view := by
  rw [Startable, not_and_or, not_not] at h
  rcases h with hplanes | hfds
  · exact .inr (.inl hplanes)
  · push Not at hfds
    exact .inr (.inr hfds)

/-- What the memory of a frame sees of the inference. -/
structure Ingress.Guarded (view : StreamView) (input : Ingress β) : Prop where
  bracketed : (∃ address, .read address ∈ input.events) → Bracketed view input.events
  inPlane : ∀ address, .read address ∈ input.events → ∃ (plane : I420Plane) (source : PlaneView),
    plane.source view = some source ∧ source.Holds address
  ended : ∀ fd, ⟨fd, .START, 0⟩ ∈ finalCalls (syncCalls input.events) →
    ∃ result, ⟨fd, .END, result⟩ ∈ finalCalls (syncCalls input.events)

theorem mem_eventsOf {opening calls : List SyncCall} {reads : List ℕ} {address : ℕ} :
    .read address ∈ eventsOf opening reads calls ↔ address ∈ reads := by
  simp [eventsOf, -List.map_drop]

variable (results strerror memory cvtColor view)

/-- **The picture is the same either way, and no byte is read outside the session.** There is a
picture exactly if the image could be copied and no call of a session has failed, and it is made of
the samples of the image. What is read is in the planes of the image, after all its files have been
started and before any is ended; and every file that has been started is ended. -/
theorem ingress_spec :
    (∀ bgr, (ingress results strerror memory cvtColor view).ending = .converted bgr ↔
      Startable view ∧
      (∀ call ∈ finalCalls (syncCalls (ingress results strerror memory cvtColor view).events),
        call.result = 0) ∧
      (copyCall memory view).copied = true ∧
      cvtColor ((sampleAddresses view).map memory) (inputMat view 0).rows (inputMat view 0).cols =
        some bgr) ∧
    (ingress results strerror memory cvtColor view).Guarded view := by
  by_cases hstartable : Startable view
  swap
  · -- nothing is started, and nothing is read
    obtain ⟨hfds, hready, -, hcalls⟩ :=
      construct_refused (show Refused (some results) view from refused_of_not_startable hstartable)
        strerror []
    have hevents : (ingress results strerror memory cvtColor view).events = [] := by
      rw [ingress_unready hready, finish_calls_of_empty strerror hfds, hcalls]
      rfl
    refine ⟨fun bgr => ?_, ?_⟩
    · rw [ingress_unready hready]
      simp [hstartable]
    · constructor
      · simp [hevents]
      · simp [hevents]
      · simp [hevents, syncCalls, finalCalls]
  · have hplanes := hstartable.1
    have hfds := hstartable.2
    obtain ⟨session, hsession⟩ := construct_session results hplanes hfds strerror
    have hprefix : (construct (some results) strerror view []).calls <+:
        (finish strerror (construct (some results) strerror view []).sync
          (construct (some results) strerror view []).calls).1.calls :=
      calls_finish _ _
    cases hready : (construct (some results) strerror view []).sync.ready with
    | false =>
      have hfailed : ¬ session.failed = none := by
        rw [← hsession.ready, hready]
        exact Bool.false_ne_true
      rw [ingress_unready hready]
      simp only [syncCalls_eventsOf [] hprefix, hsession.calls]
      refine ⟨fun bgr => ⟨fun h => (by cases h), fun h => ?_⟩, ?_⟩
      · exact absurd (session.succeeded_iff.mp h.2.1).1 hfailed
      · constructor
        · rintro ⟨address, haddress⟩
          exact absurd (mem_eventsOf.mp haddress) List.not_mem_nil
        · intro address haddress
          exact absurd (mem_eventsOf.mp haddress) List.not_mem_nil
        · intro fd
          rw [syncCalls_eventsOf [] hprefix, hsession.calls]
          exact session.ended_of_started
    | true =>
      obtain ⟨⟨reads, hevents, hreads⟩, hconverted⟩ :=
        @ingress_ready _ results strerror memory cvtColor view hready
      have hcalls : finalCalls (syncCalls (ingress results strerror memory cvtColor view).events) =
          session.calls := by
        rw [hevents, syncCalls_eventsOf reads hprefix, hsession.calls]
      refine ⟨fun bgr => ?_, ?_⟩
      · rw [hconverted, hcalls, session.succeeded_iff, hsession.success hready,
          and_iff_right (hsession.ready.mp hready), and_iff_right hstartable]
      · constructor
        · intro _
          rw [hevents]
          exact bracketed_of_ready reads hready hplanes hfds
        · intro address haddress
          rw [hevents, mem_eventsOf] at haddress
          rcases hreads with rfl | ⟨hcopied, rfl⟩
          · cases haddress
          · obtain ⟨-, hread, -, hholds⟩ := copyCall_accepted hcopied
            obtain ⟨plane, -, -, -, -, -, source, hsource, hin⟩ := hholds address (hread ▸ haddress)
            exact ⟨plane, source, hsource, hin⟩
        · intro fd
          rw [hcalls]
          exact session.ended_of_started

end

end Inference

end EggVision
