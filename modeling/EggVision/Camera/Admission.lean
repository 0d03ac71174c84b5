import EggVision.Camera.Consumers

/-!
# How many requests the consumers can hold

`submit` of the encoder compares the number of all live leases, its own frame included, with a limit
below `buffer_count`. A frame that it lets pass is one of those it has counted, so the frames of the
encoder stay below the limit, whoever else takes or drops leases meanwhile. The inference asks
nobody, but has room for two frames only: one in its queue and one in its thread.

The limit is computed from `config_.buffer_count`; how many requests there are is decided by the
camera.

## Main definitions

* `encoderHeld` — the number of live leases that the encoder holds
* `ConsumerInv` — the invariant
* `completing` — some thread is inside `onRequestCompleted`

## Main results

* `encoder_admission` — what the encoder can hold
* `never_starved_iff` — for how many requests one is always left to the camera
-/

namespace EggVision

open Transition CameraCapture

/-- The encoder has the frame, or is about to push it. -/
def LeasedFrame.admitted (f : LeasedFrame) : Bool := f.encoder == .pushing || f.encoder.holds

/-- The number of frames in the thread. -/
def InferencePhase.works : InferencePhase → ℕ
  | .working => 1
  | .absent | .checking | .popping | .exited => 0

/-- The callback is inside `onRequestCompleted`, and the frame's lease is yet to be built. -/
def CameraCapture.Callback.completing (callback : Callback) : Bool :=
  match callback.stage with
  | .entered _ | .releasing | .counting | .building => true
  | .released | .checking | .pushing => false

namespace FramePipeline

variable {s s' : FramePipeline} {f f' : LeasedFrame} {a : FrameAction} {bufferCount : UInt32}
  {count : ℕ}

/-- The number of live leases that the encoder holds: in its queue, in `inputLoop`, and in
buffers. -/
def encoderHeld (s : FramePipeline) : ℕ := s.frames.countP fun f => f.encoder.holds

/-- What holds in every reachable state. -/
structure ConsumerInv (bufferCount : UInt32) (count : ℕ) (s : FramePipeline) : Prop where
  config : s.bufferCount = bufferCount
  camera : Reachable CameraCapture.step (.initial count) s.camera
  linked : Linked s
  owned : ∀ f ∈ s.frames, f.lease.owned = true
  admitted : s.frames.countP LeasedFrame.admitted ≤ (admissionLimit bufferCount).toNat - 1
  queue : s.frames.countP (fun f => f.inference == .queued) ≤ 1
  worker : s.frames.countP (fun f => f.inference == .worker) ≤ s.inference.worker.works

theorem ConsumerInv.initial (bufferCount : UInt32) (count : ℕ) :
    ConsumerInv bufferCount count (initial bufferCount count) :=
  ⟨rfl, .refl, .nil, by rintro _ ⟨⟩, Nat.zero_le _, Nat.zero_le _, Nat.zero_le _⟩

/-! ### One frame changes -/

theorem Exchanged.mem_of_ne (h : Exchanged s s' f f') {g : LeasedFrame} (hg : g ∈ s.frames)
    (hne : g ≠ f) : g ∈ s'.frames := by
  have hrest := (List.mem_erase_of_ne hne).mpr hg
  rcases h.frames with ⟨heq, -⟩ | heq <;> rw [heq]
  · exact List.mem_cons_of_mem _ hrest
  · exact hrest

theorem Exchanged.owned (h : Exchanged s s' f f') (howned : ∀ f ∈ s.frames, f.lease.owned = true) :
    ∀ f ∈ s'.frames, f.lease.owned = true := by
  intro g hg
  rcases h.frames with ⟨heq, hkept⟩ | heq <;> rw [heq] at hg
  · rcases List.mem_cons.mp hg with rfl | hg
    · exact hkept (howned _ h.mem)
    · exact howned g (List.mem_of_mem_erase hg)
  · exact howned g (List.mem_of_mem_erase hg)

/-- A frame moves on to a place that is no worse. -/
theorem ConsumerInv.exchanged (hinv : ConsumerInv bufferCount count s) (h : Exchanged s s' f f')
    (hadmitted : f'.admitted = true → f.admitted = true)
    (hqueue : f'.inference = .queued → f.inference = .queued)
    (hworker : f'.inference = .worker → f.inference = .worker) :
    ConsumerInv bufferCount count s' where
  config := h.bufferCount.trans hinv.config
  camera := h.camera hinv.camera
  linked := h.linked hinv.linked
  owned := h.owned hinv.owned
  admitted := (h.countP_mono hadmitted).trans hinv.admitted
  queue := (h.countP_mono (by simpa using hqueue)).trans hinv.queue
  worker := by
    rw [h.inference]
    exact (h.countP_mono (by simpa using hworker)).trans hinv.worker

theorem ConsumerInv.evictEncoder (hinv : ConsumerInv bufferCount count s)
    (hs : s.evictEncoder = some s') : ConsumerInv bufferCount count s' := by
  rcases evictEncoder_cases hs with ⟨rfl, -⟩ | ⟨old, -, h⟩
  · exact hinv
  · exact hinv.exchanged h (by rintro ⟨⟩) id id

theorem ConsumerInv.evictInference (hinv : ConsumerInv bufferCount count s)
    (hs : s.evictInference = some s') : ConsumerInv bufferCount count s' := by
  rcases evictInference_cases hs with ⟨rfl, -⟩ | ⟨old, -, h⟩
  · exact hinv
  · exact hinv.exchanged h id (by rintro ⟨⟩) (by rintro ⟨⟩)

/-- The threads of the encoder move on without a frame. -/
theorem ConsumerInv.withEncoder (hinv : ConsumerInv bufferCount count s) (encoder : H264Encoder) :
    ConsumerInv bufferCount count { s with encoder } := { hinv with }

/-- The thread of the inference moves on without a frame. -/
theorem ConsumerInv.withInference (hinv : ConsumerInv bufferCount count s)
    (inference : InferenceWorker) (hworks : s.inference.worker.works ≤ inference.worker.works) :
    ConsumerInv bufferCount count { s with inference } :=
  { hinv with worker := hinv.worker.trans hworks }

/-! ### The steps -/

/-- **The frame that is let pass is one of those that were counted.** -/
theorem ConsumerInv.admit (hinv : ConsumerInv bufferCount count s) (hf : f ∈ s.frames)
    (hpart : f.encoder = .admitting)
    (hlimit : ¬ (admissionLimit s.bufferCount).toNat ≤ s.camera.outstandingLeases) :
    ConsumerInv bufferCount count (s.relabel f { f with encoder := .pushing }) := by
  have hx := exchanged_encoder (p := .pushing) hf (by rw [hpart]; rfl)
  refine {
    config := hinv.config
    camera := hx.camera hinv.camera
    linked := hx.linked hinv.linked
    owned := hx.owned hinv.owned
    admitted := ?_
    queue := (hx.countP_mono (by exact id)).trans hinv.queue
    worker := (hx.countP_mono (by exact id)).trans hinv.worker }
  have hnot : f.admitted = false := by simp [LeasedFrame.admitted, hpart, EncoderPart.holds]
  have hone : (s.relabel f { f with encoder := .pushing }).frames.countP LeasedFrame.admitted ≤
      s.frames.countP LeasedFrame.admitted + 1 := by
    have hle := hx.countP_le LeasedFrame.admitted
    rw [hnot] at hle
    exact hle
  have hbelow : s.frames.countP LeasedFrame.admitted < s.frames.length := by
    refine lt_of_le_of_ne List.countP_le_length fun hall => ?_
    rw [List.countP_eq_length.mp hall f hf] at hnot
    cases hnot
  -- every live lease is counted in `outstanding_leases`
  have hmetered : s.frames.length ≤ s.camera.outstandingLeases := by
    obtain ⟨history, hrun⟩ := hinv.camera
    have hcounted := (counts_run hrun).1
    rw [Metered, hinv.linked.length_eq, List.length_map] at hcounted
    omega
  rw [hinv.config] at hlimit
  omega

theorem ConsumerInv.submit (hinv : ConsumerInv bufferCount count s) (hs : s.submit f = some s') :
    ConsumerInv bufferCount count s' := by
  unfold FramePipeline.submit at hs
  split at hs
  next hf =>
    have hgone : f.encoder.holds = false → ConsumerInv bufferCount count
        (s.relabel f { f with encoder := .gone }) := fun hheld =>
      hinv.exchanged (exchanged_encoder hf.1 (by rw [hheld]; rfl)) (by rintro ⟨⟩) id id
    split at hs
    next hpart =>
      cases hs
      split
      · exact hinv.exchanged (exchanged_encoder hf.1 (by rw [hpart]; rfl)) (by rintro ⟨⟩) id id
      · exact hgone (by rw [hpart]; rfl)
    next hpart =>
      split at hs
      · cases hs
        exact (hgone (by rw [hpart]; rfl)).withEncoder _
      next hlimit =>
        cases hs
        exact hinv.admit hf.1 hpart hlimit
    next hpart =>
      split at hs
      · cases hs
        exact hgone (by rw [hpart]; rfl)
      · obtain ⟨u, hu, rfl⟩ := Option.map_eq_some_iff.mp hs
        obtain ⟨mid, hmid, hhold⟩ := Option.bind_eq_some_iff.mp hu
        have hmem : f ∈ mid.frames := by
          rcases evictEncoder_cases hmid with ⟨rfl, -⟩ | ⟨old, hold, h⟩
          · exact hf.1
          · refine h.mem_of_ne hf.1 fun heq => ?_
            rw [← heq, hpart] at hold
            cases hold
        refine ((hinv.evictEncoder hmid).exchanged (exchanged_hold hmem hhold ?_) ?_ id
          id).withEncoder _
        · exact LeasedFrame.lease_encoder_queued (by rw [hpart]; rfl)
        · exact fun _ => by rw [LeasedFrame.admitted, hpart]; rfl
    · cases hs
    · cases hs
    · cases hs
    · cases hs
  · cases hs

theorem ConsumerInv.offer (hinv : ConsumerInv bufferCount count s) (hs : s.offer f = some s') :
    ConsumerInv bufferCount count s' := by
  unfold FramePipeline.offer at hs
  split at hs
  next hf =>
    have hgone : f.inference.holds = false → ConsumerInv bufferCount count
        (s.relabel f { f with inference := .gone }) := fun hheld =>
      hinv.exchanged (exchanged_inference hf.1 (by rw [hheld]; rfl)) id (by rintro ⟨⟩)
        (by rintro ⟨⟩)
    split at hs
    next hpart =>
      cases hs
      split
      · exact hinv.exchanged (exchanged_inference hf.1 (by rw [hpart]; rfl)) id (by rintro ⟨⟩)
          (by rintro ⟨⟩)
      · exact hgone (by rw [hpart]; rfl)
    next hpart =>
      split at hs
      · cases hs
        exact hgone (by rw [hpart]; rfl)
      · obtain ⟨u, hu, rfl⟩ := Option.map_eq_some_iff.mp hs
        obtain ⟨mid, hmid, hhold⟩ := Option.bind_eq_some_iff.mp hu
        -- the queue is empty before the frame is put into it
        obtain ⟨hmem, hempty⟩ : f ∈ mid.frames ∧
            mid.frames.countP (fun f => f.inference == .queued) = 0 := by
          rcases evictInference_cases hmid with ⟨rfl, hnone⟩ | ⟨old, hold, h⟩
          · exact ⟨hf.1, List.countP_eq_zero.mpr fun g hg => by simpa using hnone g hg⟩
          · refine ⟨h.mem_of_ne hf.1 fun heq => ?_, ?_⟩
            · rw [← heq, hpart] at hold
              cases hold
            · have hle := h.countP_le fun f => f.inference == .queued
              have := hinv.queue
              simp only [hold, beq_self_eq_true, Bool.toNat_true] at hle
              change _ ≤ _ + 0 at hle
              omega
        have hbefore := hinv.evictInference hmid
        have hx := exchanged_hold hmem hhold
          (LeasedFrame.lease_inference_queued (by rw [hpart]; rfl))
        have hle := hx.countP_le fun f => f.inference == .queued
        rw [hempty, hpart] at hle
        have hafter : ConsumerInv bufferCount count u := {
          config := hx.bufferCount.trans hbefore.config
          camera := hx.camera hbefore.camera
          linked := hx.linked hbefore.linked
          owned := hx.owned hbefore.owned
          admitted := (hx.countP_mono (by exact id)).trans hbefore.admitted
          queue := hle
          worker := by
            rw [hx.inference]
            exact (hx.countP_mono (by rintro ⟨⟩)).trans hbefore.worker }
        exact hafter.withInference _ le_rfl
    · cases hs
    · cases hs
    · cases hs
  · cases hs

theorem ConsumerInv.deliveredStep (hinv : ConsumerInv bufferCount count s) {throws : Bool}
    (hs : s.deliveredStep f throws = some s') : ConsumerInv bufferCount count s' := by
  obtain ⟨hf, hs⟩ := Option.ite_none_right_eq_some.mp hs
  exact hinv.exchanged (exchanged_delivered hf.1 hs) id id id

theorem ConsumerInv.inputStep (hinv : ConsumerInv bufferCount count s) {made pushed : Bool}
    (hs : s.inputStep made pushed = some s') : ConsumerInv bufferCount count s' := by
  unfold FramePipeline.inputStep at hs
  split at hs
  · cases hs
  · cases hs
  · cases hs
    exact hinv.withEncoder _
  · split at hs
    next f hfind =>
      have hpart : f.encoder = .queued := by simpa using List.find?_some hfind
      cases hs
      have hx := exchanged_encoder (p := .input) (List.mem_of_find?_eq_some hfind)
        (by rw [hpart]; rfl)
      refine (hinv.exchanged hx (fun _ => ?_) id id).withEncoder _
      rw [LeasedFrame.admitted, hpart]
      rfl
    · split at hs <;> cases hs
      exact hinv.withEncoder _
  · split at hs
    · cases hs
    next f hfind =>
      have hf := List.mem_of_find?_eq_some hfind
      have hpart : f.encoder = .input := by simpa using List.find?_some hfind
      split at hs
      · cases hs
        have hx := exchanged_encoder (p := .buffer) hf (by rw [hpart]; rfl)
        refine (hinv.exchanged hx (fun _ => ?_) id id).withEncoder _
        rw [LeasedFrame.admitted, hpart]
        rfl
      · obtain ⟨u, hu, rfl⟩ := Option.map_eq_some_iff.mp hs
        exact (hinv.exchanged (exchanged_release hf hu
          (LeasedFrame.lease_encoder_gone (by rw [hpart]; rfl))) (by rintro ⟨⟩) id id).withEncoder _

theorem ConsumerInv.destroyStep (hinv : ConsumerInv bufferCount count s)
    (hs : s.destroyStep f = some s') : ConsumerInv bufferCount count s' := by
  obtain ⟨hf, hs⟩ := Option.ite_none_right_eq_some.mp hs
  exact hinv.exchanged (exchanged_release hf.1 hs
    (LeasedFrame.lease_encoder_gone (by rw [hf.2]; rfl))) (by rintro ⟨⟩) id id

theorem ConsumerInv.busStep (hinv : ConsumerInv bufferCount count s) {error : Bool}
    (hs : s.busStep error = some s') : ConsumerInv bufferCount count s' := by
  unfold FramePipeline.busStep at hs
  split at hs
  · cases hs
  · cases hs
  · split at hs
    · split at hs <;> cases hs
      · exact hinv.withEncoder _
      · exact hinv
    · cases hs
      exact hinv.withEncoder _
  · obtain ⟨u, hu, rfl⟩ := Option.map_eq_some_iff.mp hs
    exact (hinv.evictEncoder hu).withEncoder _

theorem ConsumerInv.encoderOwnerStep (hinv : ConsumerInv bufferCount count s) {ok : Bool}
    (hs : s.encoderOwnerStep ok = some s') : ConsumerInv bufferCount count s' := by
  unfold FramePipeline.encoderOwnerStep at hs
  split at hs
  · cases hs
  · obtain ⟨u, hu, rfl⟩ := Option.map_eq_some_iff.mp hs
    exact (hinv.evictEncoder hu).withEncoder _
  · cases hs
    exact hinv.withEncoder _
  · split at hs <;> cases hs
    exact hinv.withEncoder _
  · split at hs <;> cases hs
    exact hinv.withEncoder _
  · obtain ⟨u, hu, rfl⟩ := Option.map_eq_some_iff.mp hs
    exact (hinv.evictEncoder hu).withEncoder _
  · split at hs <;> cases hs
    exact hinv.withEncoder _

theorem ConsumerInv.workerStep (hinv : ConsumerInv bufferCount count s)
    (hs : s.workerStep = some s') : ConsumerInv bufferCount count s' := by
  unfold FramePipeline.workerStep at hs
  split at hs
  · cases hs
  · cases hs
  next hphase =>
    cases hs
    exact hinv.withInference _ (by rw [hphase]; exact Nat.zero_le _)
  next hphase =>
    split at hs
    next f hfind =>
      have hpart : f.inference = .queued := by simpa using List.find?_some hfind
      cases hs
      have hx := exchanged_inference (p := .worker) (List.mem_of_find?_eq_some hfind)
        (by rw [hpart]; rfl)
      have hnone := hinv.worker
      rw [hphase] at hnone
      have hle := hx.countP_le fun f => f.inference == .worker
      rw [hpart] at hle
      exact {
        config := hinv.config
        camera := hx.camera hinv.camera
        linked := hx.linked hinv.linked
        owned := hx.owned hinv.owned
        admitted := (hx.countP_mono (by exact id)).trans hinv.admitted
        queue := (hx.countP_mono (by rintro ⟨⟩)).trans hinv.queue
        worker := hle.trans (Nat.add_le_add_right hnone 1) }
    · split at hs <;> cases hs
      exact hinv.withInference _ (by rw [hphase]; exact Nat.zero_le _)
  next hphase =>
    split at hs
    · cases hs
    next f hfind =>
      have hpart : f.inference = .worker := by simpa using List.find?_some hfind
      obtain ⟨u, hu, rfl⟩ := Option.map_eq_some_iff.mp hs
      have hx := exchanged_release (List.mem_of_find?_eq_some hfind) hu
        (LeasedFrame.lease_inference_gone (by rw [hpart]; rfl))
      have hafter := hinv.exchanged hx id (by rintro ⟨⟩) (by rintro ⟨⟩)
      have hone := hinv.worker
      rw [hphase] at hone
      have hle := hx.countP_le fun f => f.inference == .worker
      rw [hpart] at hle
      exact { hafter with worker := Nat.le_of_succ_le_succ (hle.trans hone) }

theorem ConsumerInv.inferenceOwnerStep (hinv : ConsumerInv bufferCount count s) {ok : Bool}
    (hs : s.inferenceOwnerStep ok = some s') : ConsumerInv bufferCount count s' := by
  unfold FramePipeline.inferenceOwnerStep at hs
  split at hs
  · cases hs
  · split at hs <;> cases hs
    next habsent => exact hinv.withInference _ (by rw [habsent]; exact Nat.zero_le _)
  · obtain ⟨u, hu, rfl⟩ := Option.map_eq_some_iff.mp hs
    exact (hinv.evictInference hu).withInference _ le_rfl
  · split at hs <;> cases hs
    next hdone =>
      refine hinv.withInference _ ?_
      rcases hdone with hdone | hdone
      · rw [hdone]
        exact Nat.zero_le _
      · rw [hdone]

theorem ConsumerInv.cameraStep (hinv : ConsumerInv bufferCount count s) {action : CameraAction}
    (hs : s.cameraStep action = some s') : ConsumerInv bufferCount count s' := by
  obtain ⟨hcount, -, hinference, hcamera, ⟨hframes, hleases⟩ | ⟨request, hframes, hleases⟩⟩ :=
    cameraStep_cases hs
  · exact {
      config := hcount.trans hinv.config
      camera := hinv.camera.tail hcamera
      linked := by
        rw [Linked, hleases, hframes]
        exact hinv.linked
      owned := by
        rw [hframes]
        exact hinv.owned
      admitted := by
        rw [hframes]
        exact hinv.admitted
      queue := by
        rw [hframes]
        exact hinv.queue
      worker := by
        rw [hframes, hinference]
        exact hinv.worker }
  · exact {
      config := hcount.trans hinv.config
      camera := hinv.camera.tail hcamera
      linked := by
        rw [Linked, hleases, hframes]
        exact hinv.linked.cons _
      owned := by
        rw [hframes]
        intro f hf
        rcases List.mem_cons.mp hf with rfl | hf
        · rfl
        · exact hinv.owned f hf
      admitted := by
        rw [hframes]
        exact hinv.admitted
      queue := by
        rw [hframes]
        exact hinv.queue
      worker := by
        rw [hframes, hinference]
        exact hinv.worker }

theorem ConsumerInv.step (hinv : ConsumerInv bufferCount count s) (hs : s.step a = some s') :
    ConsumerInv bufferCount count s' := by
  cases a with
  | camera action => exact hinv.cameraStep hs
  | submit f => exact hinv.submit hs
  | offer f => exact hinv.offer hs
  | delivered f throws => exact hinv.deliveredStep hs
  | input made pushed => exact hinv.inputStep hs
  | destroy f => exact hinv.destroyStep hs
  | bus error => exact hinv.busStep hs
  | encoderOwner ok => exact hinv.encoderOwnerStep hs
  | worker => exact hinv.workerStep hs
  | inferenceOwner ok => exact hinv.inferenceOwnerStep hs
  | startEncoder =>
    obtain ⟨-, hs⟩ := Option.ite_none_right_eq_some.mp hs
    cases hs
    exact hinv.withEncoder _
  | stopEncoder =>
    obtain ⟨-, hs⟩ := Option.ite_none_right_eq_some.mp hs
    cases hs
    exact hinv.withEncoder _
  | startInference =>
    obtain ⟨-, hs⟩ := Option.ite_none_right_eq_some.mp hs
    cases hs
    exact hinv.withInference _ le_rfl
  | stopInference =>
    obtain ⟨-, hs⟩ := Option.ite_none_right_eq_some.mp hs
    cases hs
    exact hinv.withInference _ le_rfl

theorem ConsumerInv.reachable
    (hr : Reachable FramePipeline.step (FramePipeline.initial bufferCount count) s) :
    ConsumerInv bufferCount count s :=
  hr.invariant (ConsumerInv bufferCount count) (.initial bufferCount count) fun _ _ _ hinv hs =>
    hinv.step hs

/-! ### The encoder -/

theorem ConsumerInv.encoderHeld_le (hinv : ConsumerInv bufferCount count s) :
    s.encoderHeld ≤ bufferCount.toNat - (reserve bufferCount).toNat - 1 := by
  rw [← toNat_admissionLimit]
  refine le_trans (List.countP_mono_left fun f _ hholds => ?_) hinv.admitted
  rw [LeasedFrame.admitted, hholds, Bool.or_true]

/-- **What the encoder can hold.** In every state of every run it holds fewer live leases than
`buffer_count` less the reserve, and none where that leaves nothing; the reserve is within
`buffer_count`, so that the subtraction does not wrap. -/
theorem encoder_admission (hr : Reachable step (initial bufferCount count) s) :
    s.encoderHeld ≤ bufferCount.toNat - (reserve bufferCount).toNat - 1 ∧
      (bufferCount ≤ 1 → s.encoderHeld = 0) ∧
      (reserve bufferCount).toNat = min 2 (bufferCount.toNat / 2) ∧
      (reserve bufferCount).toNat ≤ bufferCount.toNat ∧
      (admissionLimit bufferCount).toNat =
        bufferCount.toNat - (reserve bufferCount).toNat := by
  have hheld := (ConsumerInv.reachable hr).encoderHeld_le
  have hreserve := toNat_reserve bufferCount
  refine ⟨hheld, fun hone => ?_, hreserve, by omega, toNat_admissionLimit bufferCount⟩
  have : bufferCount.toNat ≤ 1 := UInt32.le_iff_toNat_le.mp hone
  omega

/-- The consumers and the camera start, and all requests are queued. -/
def startConsumers (count : ℕ) : List FrameAction :=
  [.startEncoder, .encoderOwner true, .encoderOwner true, .encoderOwner true, .encoderOwner true,
    .startInference, .inferenceOwner true] ++
    ([.start, .lower, .openCamera true, .publish, .spawn] ++
      List.replicate count (.queueNext true) ++ [.started] : List CameraAction).map .camera

/-- A request completes, and its lease is built. -/
def completeNext (request : Request) : List FrameAction :=
  [.camera (.complete request .complete), .camera (.callback ⟨request, .entered .complete⟩),
    .camera (.callback ⟨request, .counting⟩), .camera (.callback ⟨request, .building⟩)]

/-- The encoder has the frame in a buffer, and the inference is done with it. -/
def takeFrame (request : Request) : List FrameAction :=
  completeNext request ++
    [.submit ⟨request, true, .loading, .loading⟩, .submit ⟨request, true, .admitting, .loading⟩,
      .submit ⟨request, true, .pushing, .loading⟩, .input true true, .input true true,
      .input true true, .offer ⟨request, true, .buffer, .loading⟩,
      .offer ⟨request, true, .buffer, .pushing⟩, .worker, .worker, .worker,
      .delivered ⟨request, true, .buffer, .gone⟩ false]

/-- The encoder refuses the frame, and the inference has it in its queue. -/
def refuseFrame (request : Request) : List FrameAction :=
  completeNext request ++
    [.submit ⟨request, true, .loading, .loading⟩, .submit ⟨request, true, .admitting, .loading⟩,
      .offer ⟨request, true, .gone, .loading⟩, .offer ⟨request, true, .gone, .pushing⟩,
      .delivered ⟨request, true, .gone, .queued⟩ false]

/-- The pipeline keeps its buffers, and then the inference its frame. -/
def stall (count : ℕ) : List FrameAction :=
  startConsumers count ++ (List.range (min count 5)).flatMap takeFrame ++
    (if 5 < count then refuseFrame 5 ++ [.worker, .worker] else []) ++
    (if 6 < count then refuseFrame 6 else [])

/-- A stalled encoder has five of eight requests, and not six. -/
theorem encoder_admission_stall :
    ∃ s, Reachable step (initial 8 8) s ∧ s.encoderHeld = 5 ∧
      s.encoderHeld ≤ (8 : UInt32).toNat - (reserve 8).toNat - 1 := by
  obtain ⟨s, hr, hfive⟩ := exists_reachable step (initial 8 8) (stall 8)
    (fun s => s.encoderHeld = 5) (by decide +kernel)
  exact ⟨s, hr, hfive, (encoder_admission hr).1⟩

/-! ### The requests that are left -/

/-- Some thread is inside `onRequestCompleted`. -/
def completing (s : FramePipeline) : Bool :=
  s.frames.any LeasedFrame.delivering || s.camera.callbacks.any Callback.completing

/-- A `queueRequest` that fails. -/
def queueFails (s : FramePipeline) : FrameAction → Bool
  | .camera (.queueNext accepted) | .camera (.recycle accepted) => !s.camera.takes accepted
  | _ => false

/-- A frame that nobody delivers is with the encoder, or with the inference. -/
theorem held_of_owned (howned : f.lease.owned = true) (hdelivering : f.delivering = false) :
    f.encoder.holds = true ∨ f.inference = .queued ∨ f.inference = .worker := by
  cases hencoder : f.encoder.holds with
  | true => exact Or.inl rfl
  | false =>
    right
    cases hinference : f.inference with
    | queued => exact Or.inl rfl
    | worker => exact Or.inr rfl
    | _ =>
      simp [LeasedFrame.lease, Lease.owned, hdelivering, hencoder, hinference,
        InferencePart.holds] at howned

/-- Frames of three kinds are no more than the frames of each kind together. -/
theorem length_le_of_cover {p q r : LeasedFrame → Bool} {l : List LeasedFrame}
    (hcover : ∀ f ∈ l, p f = true ∨ q f = true ∨ r f = true) :
    l.length ≤ l.countP p + l.countP q + l.countP r := by
  induction l with
  | nil => exact Nat.zero_le _
  | cons f rest ih =>
    have hrest := ih fun g hg => hcover g (List.mem_cons_of_mem _ hg)
    simp only [List.length_cons, List.countP_cons]
    rcases hcover f List.mem_cons_self with h | h | h <;> rw [if_pos h] <;> omega

/-- Outside `onRequestCompleted` the live leases are those of the encoder and two for inference. -/
theorem ConsumerInv.leases_le (hinv : ConsumerInv bufferCount count s)
    (houtside : s.completing = false) : s.camera.leases.length ≤ s.encoderHeld + 2 := by
  rw [completing, Bool.or_eq_false_iff, List.any_eq_false] at houtside
  have hle := length_le_of_cover (p := fun f => f.encoder.holds)
    (q := fun f => f.inference == .queued) (r := fun f => f.inference == .worker)
    (l := s.frames) fun f hf => by
      simpa using held_of_owned (hinv.owned f hf) (by simpa using houtside.1 f hf)
  have hlength := hinv.linked.length_eq
  rw [List.length_map] at hlength
  have hqueue := hinv.queue
  have hworker : s.inference.worker.works ≤ 1 := by
    unfold InferencePhase.works
    split <;> simp
  have := hinv.worker
  unfold encoderHeld
  omega

/-- Fewer leases than requests leave a request. -/
theorem exists_unleased {leases : List Lease} (h : leases.length < count) :
    ∃ request < count, ∀ lease ∈ leases, lease.request ≠ request := by
  by_contra! hall
  have hsubset : List.range count ⊆ leases.map Lease.request := fun request hrequest => by
    obtain ⟨lease, hlease, heq⟩ := hall request (List.mem_range.mp hrequest)
    exact List.mem_map.mpr ⟨lease, hlease, heq⟩
  have := (List.subperm_of_subset List.nodup_range hsubset).length_le
  rw [List.length_range, List.length_map] at this
  omega

/-- Some request is in no live lease. -/
def Unstarved (count : ℕ) (s : FramePipeline) : Prop :=
  ∃ request < count, ∀ lease ∈ s.camera.leases, lease.request ≠ request

/-- The run makes no failed `queueRequest`, and ends with a running capture, outside of
`onRequestCompleted`, and with all requests in leases. -/
def starves (count : ℕ) (actions : List FrameAction) : Bool :=
  (trace step (initial 8 count) actions).all (fun x => !x.1.queueFails x.2) &&
    (exec step (initial 8 count) actions).any fun s =>
      s.camera.running && !s.completing && s.camera.callbacks.isEmpty &&
        decide (∀ request < count, ∃ lease ∈ s.camera.leases, lease.request = request)

theorem exists_of_starves {actions : List FrameAction} (h : starves count actions = true) :
    ∃ history s, Run step (initial 8 count) history s ∧
      (∀ x ∈ history, x.1.queueFails x.2 = false) ∧ s.camera.running = true ∧
      s.completing = false ∧ s.camera.callbacks = [] ∧ ¬ Unstarved count s := by
  obtain ⟨hqueued, hend⟩ := Bool.and_eq_true_iff.mp h
  obtain ⟨s, hs, hall⟩ := (Option.any_eq_true _ _).mp hend
  simp only [Bool.and_eq_true, Bool.not_eq_true', List.isEmpty_iff, decide_eq_true_eq] at hall
  obtain ⟨⟨⟨hrunning, houtside⟩, hcallbacks⟩, hleased⟩ := hall
  refine ⟨_, s, Run.ofExec actions hs, ?_, hrunning, houtside, hcallbacks, ?_⟩
  · simpa using hqueued
  · rintro ⟨request, hrequest, hfree⟩
    obtain ⟨lease, hlease, heq⟩ := hleased request hrequest
    exact hfree lease hlease heq

/-- Seven requests are leased at most, five to the encoder and two for inference. -/
theorem unstarved_of_le (hcount : 8 ≤ count) (hr : Reachable step (initial 8 count) s)
    (houtside : s.completing = false) : Unstarved count s := by
  have hinv := ConsumerInv.reachable hr
  have hheld := hinv.encoderHeld_le
  have hlimit : (8 : UInt32).toNat - (reserve 8).toNat - 1 = 5 := by decide
  have hleases := hinv.leases_le houtside
  exact exists_unleased (by omega)

/-- **For how many requests the camera is never starved**: `buffer_count` is eight, and the camera
has allocated no fewer buffers. -/
theorem never_starved_iff (hcount : 4 ≤ count) :
    (∀ history s, Run step (initial 8 count) history s →
      (∀ x ∈ history, x.1.queueFails x.2 = false) → s.camera.running = true →
      s.completing = false → Unstarved count s) ↔ 8 ≤ count := by
  refine ⟨fun hall => ?_, fun h history s hrun _ _ houtside =>
    unstarved_of_le h hrun.reachable houtside⟩
  by_contra hfew
  have hstarves : starves count (stall count) = true := by
    obtain rfl | rfl | rfl | rfl : count = 4 ∨ count = 5 ∨ count = 6 ∨ count = 7 := by omega
    all_goals decide +kernel
  obtain ⟨history, s, hrun, hqueued, hrunning, houtside, -, hnone⟩ := exists_of_starves hstarves
  exact hnone (hall history s hrun hqueued hrunning houtside)

/-- With eight requests a stalled encoder and a stalled inference leave one. -/
theorem never_starved_iff_stall :
    ∃ history s, Run step (initial 8 8) history s ∧ s.camera.leases.length = 7 ∧
      Unstarved 8 s := by
  obtain ⟨s, hs, hend⟩ := (Option.any_eq_true (fun s : FramePipeline => s.camera.running &&
    !s.completing && s.camera.leases.length == 7) (exec step (initial 8 8) (stall 8))).mp
      (by decide +kernel)
  simp only [Bool.and_eq_true, Bool.not_eq_true', beq_iff_eq] at hend
  have hrun := Run.ofExec (stall 8) hs
  exact ⟨_, s, hrun, hend.2, (never_starved_iff (by decide)).mpr le_rfl _ s hrun
    (by decide +kernel) hend.1.1 hend.1.2⟩

/-- With four requests, which `createRequests` accepts, a stalled encoder has them all. -/
theorem not_never_starved :
    ¬ ∀ count history s, 4 ≤ count → Run step (initial 8 count) history s →
      (∀ x ∈ history, x.1.queueFails x.2 = false) → s.camera.running = true →
      s.completing = false → s.camera.callbacks = [] → Unstarved count s := by
  intro hall
  obtain ⟨history, s, hrun, hqueued, hrunning, houtside, hcallbacks, hnone⟩ :=
    @exists_of_starves 4 (stall 4) (by decide +kernel)
  exact hnone (hall 4 history s le_rfl hrun hqueued hrunning houtside hcallbacks)

end FramePipeline

end EggVision
