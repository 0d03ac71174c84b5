import EggVision.App.Records
import EggVision.Inference.Ingress
import Mathlib.Data.List.Destutter
import Mathlib.Data.UInt

/-!
# The thread of the inference

`InferenceWorker::workerLoop` takes one frame after another from its queue. A pass ends in one of
several ways, and the counters say how often in which; the reason for which an image could not be
read in place is written to the log when it is another than the last time.

What happens around a pass, the answers of the operating system, what is in the memory, what the
model finds, whether the consumer of the detections throws, is in the pass. Times are measured
elsewhere and only added up here.

## Main definitions

* `Pass` — a frame, and what happens around it
* `workerPass`, `workerRun` — the body of the loop, and the loop

## Main results

* `workerRun_counts` — what the counters say after any number of passes
* `workerRun_reports` — what has been written to the log, and what the consumer has been given
-/

namespace EggVision

namespace Inference

/-- How `infer` ends: by an exception that is counted as one of the backend, by another, or with
what was found. -/
inductive InferEnd (δ : Type)
  | threw
  | backendFailed
  | detections (found : List δ)

structure Pass (β δ : Type) where
  sequence : ℕ
  lores : StreamView
  results : SyncResults
  strerror : ℤ → String
  memory : ℕ → UInt8
  cvtColor : List UInt8 → ℤ → ℤ → Option β
  infer : β → InferEnd δ
  consumerThrows : Bool
  inputUs : UInt64
  totalUs : UInt64

/-- The variables of the loop, and what it has told others: the frames and detections that the
consumer was given, the reasons in the log, and the frames with a record in the log. -/
structure WorkerState (δ : Type) where
  metrics : Metrics := {}
  reportedRejection : Option CompactI420Status := none
  consumed : List (ℕ × List δ) := []
  reasons : List CompactI420Status := []
  records : List (ℕ × ℕ) := []

variable {β δ : Type}

def Pass.ingress (p : Pass β δ) : Ingress β :=
  Inference.ingress p.results p.strerror p.memory p.cvtColor p.lores

/-- `recordI420Rejection`. -/
def recordI420Rejection (metrics : Metrics) : CompactI420Status → Metrics
  | .compatible => metrics
  | .invalidDimensions =>
    { metrics with
      inferenceI420InvalidDimensions := metrics.inferenceI420InvalidDimensions + 1 }
  | .unexpectedPlaneCount =>
    { metrics with
      inferenceI420UnexpectedPlaneCount := metrics.inferenceI420UnexpectedPlaneCount + 1 }
  | .unexpectedStride =>
    { metrics with inferenceI420UnexpectedStride := metrics.inferenceI420UnexpectedStride + 1 }
  | .invalidFileDescriptor =>
    { metrics with inferenceI420InvalidFd := metrics.inferenceI420InvalidFd + 1 }
  | .differentFileDescriptors =>
    { metrics with inferenceI420SeparateFds := metrics.inferenceI420SeparateFds + 1 }
  | .missingMapping =>
    { metrics with inferenceI420MissingMapping := metrics.inferenceI420MissingMapping + 1 }
  | .inconsistentMapping =>
    { metrics with
      inferenceI420InconsistentMapping := metrics.inferenceI420InconsistentMapping + 1 }
  | .nonCompactOffsets =>
    { metrics with inferenceI420NonCompactOffsets := metrics.inferenceI420NonCompactOffsets + 1 }
  | .planeTooShort =>
    { metrics with inferenceI420PlaneTooShort := metrics.inferenceI420PlaneTooShort + 1 }
  | .payloadTooShort =>
    { metrics with inferenceI420PayloadTooShort := metrics.inferenceI420PayloadTooShort + 1 }
  | .mappingTooShort =>
    { metrics with inferenceI420MappingTooShort := metrics.inferenceI420MappingTooShort + 1 }

/-- The counter of a reason. -/
def rejectionCounter (metrics : Metrics) : CompactI420Status → UInt64
  | .compatible => 0
  | .invalidDimensions => metrics.inferenceI420InvalidDimensions
  | .unexpectedPlaneCount => metrics.inferenceI420UnexpectedPlaneCount
  | .unexpectedStride => metrics.inferenceI420UnexpectedStride
  | .invalidFileDescriptor => metrics.inferenceI420InvalidFd
  | .differentFileDescriptors => metrics.inferenceI420SeparateFds
  | .missingMapping => metrics.inferenceI420MissingMapping
  | .inconsistentMapping => metrics.inferenceI420InconsistentMapping
  | .nonCompactOffsets => metrics.inferenceI420NonCompactOffsets
  | .planeTooShort => metrics.inferenceI420PlaneTooShort
  | .payloadTooShort => metrics.inferenceI420PayloadTooShort
  | .mappingTooShort => metrics.inferenceI420MappingTooShort

namespace WorkerState

/-- The image is about to be read, in place or through the copy. -/
def enter (status : CompactI420Status) (s : WorkerState δ) : WorkerState δ :=
  if status = .compatible then
    { s with
      metrics := { s.metrics with
        inferenceZeroCopyIngress := s.metrics.inferenceZeroCopyIngress + 1 } }
  else
    let metrics := { s.metrics with
      inferenceCopyFallback := s.metrics.inferenceCopyFallback + 1 }
    let s := { s with metrics := recordI420Rejection metrics status }
    if s.reportedRejection = some status then s
    else { s with reportedRejection := some status, reasons := s.reasons ++ [status] }

def preprocessFailed (dmaSync : Bool) (s : WorkerState δ) : WorkerState δ :=
  { s with
    metrics := { s.metrics with
      inferencePreprocessErrors := s.metrics.inferencePreprocessErrors + 1
      inferenceDmaSyncErrors := s.metrics.inferenceDmaSyncErrors + dmaSync.toUInt64 } }

def backendFailed (s : WorkerState δ) : WorkerState δ :=
  { s with
    metrics := { s.metrics with
      inferenceBackendErrors := s.metrics.inferenceBackendErrors + 1 } }

/-- What follows a successful `infer`. An exception of the consumer leaves the pass. -/
def finished (consumer : Bool) (p : Pass β δ) (found : List δ) (s : WorkerState δ) :
    WorkerState δ :=
  let processed := s.metrics.inferenceProcessed + 1
  let s := { s with
    metrics := { s.metrics with
      inferenceProcessed := processed
      detectedPersons := s.metrics.detectedPersons + found.length.toUInt64
      inferenceInputTotalUs := s.metrics.inferenceInputTotalUs + p.inputUs
      inferenceTotalUs := s.metrics.inferenceTotalUs + p.totalUs } }
  let consumes := !found.isEmpty && consumer
  let s := if consumes then { s with consumed := s.consumed ++ [(p.sequence, found)] } else s
  if consumes && p.consumerThrows then s
  else if processed % 10 = 0 ∨ found ≠ [] then
    { s with records := s.records ++ [(p.sequence, found.length)] }
  else s

end WorkerState

/-- The body of the loop. `consumer` says that there is a consumer of detections. -/
def workerPass (consumer : Bool) (s : WorkerState δ) (p : Pass β δ) : WorkerState δ :=
  let input := p.ingress
  match input.ending with
  | .startFailed => s.preprocessFailed true
  | .copyFailed => (s.enter input.status).preprocessFailed false
  | .endFailed => (s.enter input.status).preprocessFailed true
  | .threw => s.enter input.status
  | .converted bgr =>
    let s := s.enter input.status
    match p.infer bgr with
    | .threw => s
    | .backendFailed => s.backendFailed
    | .detections found => s.finished consumer p found

/-- The loop, over the frames that it takes from the queue. -/
def workerRun (consumer : Bool) (passes : List (Pass β δ)) : WorkerState δ :=
  passes.foldl (workerPass consumer) {}

/-! ### How a pass ends -/

/-- The ways in which a pass ends. -/
inductive PassEnd (δ : Type)
  | syncFailed
  | copyFailed
  | threw
  | backendFailed
  | processed (found : List δ)

def Pass.ending (p : Pass β δ) : PassEnd δ :=
  match p.ingress.ending with
  | .startFailed | .endFailed => .syncFailed
  | .copyFailed => .copyFailed
  | .threw => .threw
  | .converted bgr =>
    match p.infer bgr with
    | .threw => .threw
    | .backendFailed => .backendFailed
    | .detections found => .processed found

/-- The image is read. -/
def Pass.enters (p : Pass β δ) : Bool :=
  match p.ingress.ending with
  | .startFailed => false
  | _ => true

def Pass.status (p : Pass β δ) : CompactI420Status := (inspectCompactI420 p.lores).status

/-- The image is read through the copy. -/
def Pass.fallsBack (p : Pass β δ) : Bool := p.enters && decide (p.status ≠ .compatible)

def Pass.syncFails (p : Pass β δ) : Bool :=
  match p.ending with
  | .syncFailed => true
  | _ => false

def Pass.copyFails (p : Pass β δ) : Bool :=
  match p.ending with
  | .copyFailed => true
  | _ => false

def Pass.throws (p : Pass β δ) : Bool :=
  match p.ending with
  | .threw => true
  | _ => false

def Pass.backendFails (p : Pass β δ) : Bool :=
  match p.ending with
  | .backendFailed => true
  | _ => false

/-- What was found, if the model has run. -/
def Pass.found (p : Pass β δ) : Option (List δ) :=
  match p.ending with
  | .processed found => some found
  | _ => none

theorem ingress_status (p : Pass β δ) : p.ingress.status = p.status := by
  rw [Pass.ingress, ingress]
  split
  · rfl
  · split
    · dsimp only
      split <;> rfl
    · dsimp only
      split <;> rfl

/-! ### The counters -/

/-- The counters after a pass. -/
structure Counted (p : Pass β δ) (m m' : Metrics) : Prop where
  processed : m'.inferenceProcessed = m.inferenceProcessed + p.found.isSome.toUInt64
  zeroCopy : m'.inferenceZeroCopyIngress =
    m.inferenceZeroCopyIngress + (p.enters && decide (p.status = .compatible)).toUInt64
  fallback : m'.inferenceCopyFallback =
    m.inferenceCopyFallback + p.fallsBack.toUInt64
  preprocess : m'.inferencePreprocessErrors =
    m.inferencePreprocessErrors + (p.syncFails || p.copyFails).toUInt64
  dmaSync : m'.inferenceDmaSyncErrors = m.inferenceDmaSyncErrors + p.syncFails.toUInt64
  backend : m'.inferenceBackendErrors = m.inferenceBackendErrors + p.backendFails.toUInt64
  rejection : ∀ status ≠ .compatible, rejectionCounter m' status =
    rejectionCounter m status + (p.enters && decide (p.status = status)).toUInt64

@[simp] theorem toUInt64_false : false.toUInt64 = 0 := rfl

@[simp] theorem toUInt64_true : true.toUInt64 = 1 := rfl

theorem rejectionCounter_record (m : Metrics) {status status' : CompactI420Status}
    (h : status' ≠ .compatible) :
    rejectionCounter (recordI420Rejection m status) status' =
      rejectionCounter m status' + (decide (status = status')).toUInt64 := by
  cases status <;> cases status' <;> simp_all [recordI420Rejection, rejectionCounter]

/-- The counters once the image is about to be read. -/
structure Entered (status : CompactI420Status) (m m' : Metrics) : Prop where
  zeroCopy : m'.inferenceZeroCopyIngress =
    m.inferenceZeroCopyIngress + (decide (status = .compatible)).toUInt64
  fallback : m'.inferenceCopyFallback =
    m.inferenceCopyFallback + (decide (status ≠ .compatible)).toUInt64
  rejection : ∀ status' ≠ .compatible, rejectionCounter m' status' =
    rejectionCounter m status' + (decide (status = status')).toUInt64
  rest : m'.inferenceProcessed = m.inferenceProcessed ∧
    m'.inferencePreprocessErrors = m.inferencePreprocessErrors ∧
    m'.inferenceDmaSyncErrors = m.inferenceDmaSyncErrors ∧
    m'.inferenceBackendErrors = m.inferenceBackendErrors

theorem recordI420Rejection_rest (m : Metrics) (status : CompactI420Status) :
    (recordI420Rejection m status).inferenceZeroCopyIngress = m.inferenceZeroCopyIngress ∧
      (recordI420Rejection m status).inferenceCopyFallback = m.inferenceCopyFallback ∧
      (recordI420Rejection m status).inferenceProcessed = m.inferenceProcessed ∧
      (recordI420Rejection m status).inferencePreprocessErrors = m.inferencePreprocessErrors ∧
      (recordI420Rejection m status).inferenceDmaSyncErrors = m.inferenceDmaSyncErrors ∧
      (recordI420Rejection m status).inferenceBackendErrors = m.inferenceBackendErrors := by
  cases status <;> exact ⟨rfl, rfl, rfl, rfl, rfl, rfl⟩

theorem entered (status : CompactI420Status) (s : WorkerState δ) :
    Entered status s.metrics (s.enter status).metrics := by
  by_cases hcompatible : status = .compatible
  · subst hcompatible
    refine ⟨rfl, (UInt64.add_zero _).symm, fun status' hstatus' => ?_, rfl, rfl, rfl, rfl⟩
    rw [decide_eq_false hstatus'.symm, toUInt64_false, UInt64.add_zero]
    cases status' <;> rfl
  · have hmetrics : (s.enter status).metrics = recordI420Rejection { s.metrics with
        inferenceCopyFallback := s.metrics.inferenceCopyFallback + 1 } status := by
      rw [WorkerState.enter, if_neg hcompatible]
      dsimp only
      split_ifs <;> rfl
    obtain ⟨hzero, hfallback, hrest⟩ := recordI420Rejection_rest { s.metrics with
      inferenceCopyFallback := s.metrics.inferenceCopyFallback + 1 } status
    rw [hmetrics]
    refine ⟨?_, ?_, fun status' hstatus' => ?_, hrest⟩
    · rw [hzero, decide_eq_false hcompatible, toUInt64_false, UInt64.add_zero]
    · rw [hfallback, decide_eq_true hcompatible, toUInt64_true]
    · rw [rejectionCounter_record _ hstatus']
      cases status' <;> rfl

/-- The counters of a pass that reads its image, from those once it is about to. -/
theorem Entered.counted {p : Pass β δ} {m m₁ m' : Metrics} (h : Entered p.status m m₁)
    (henters : p.enters = true) (hzero : m'.inferenceZeroCopyIngress = m₁.inferenceZeroCopyIngress)
    (hfallback : m'.inferenceCopyFallback = m₁.inferenceCopyFallback)
    (hrejection : rejectionCounter m' = rejectionCounter m₁)
    (hprocessed : m'.inferenceProcessed = m₁.inferenceProcessed + p.found.isSome.toUInt64)
    (hpreprocess : m'.inferencePreprocessErrors =
      m₁.inferencePreprocessErrors + (p.syncFails || p.copyFails).toUInt64)
    (hdmaSync : m'.inferenceDmaSyncErrors = m₁.inferenceDmaSyncErrors + p.syncFails.toUInt64)
    (hbackend : m'.inferenceBackendErrors = m₁.inferenceBackendErrors + p.backendFails.toUInt64) :
    Counted p m m' := by
  obtain ⟨hrest, hrest', hrest'', hkept⟩ := h.rest
  constructor
  · rw [hprocessed, hrest]
  · rw [hzero, h.zeroCopy, henters, Bool.true_and]
  · rw [hfallback, h.fallback, Pass.fallsBack, henters, Bool.true_and]
  · rw [hpreprocess, hrest']
  · rw [hdmaSync, hrest'']
  · rw [hbackend, hkept]
  · intro status hstatus
    rw [hrejection, h.rejection status hstatus, henters, Bool.true_and]

theorem finished_metrics (consumer : Bool) (p : Pass β δ) (found : List δ) (s : WorkerState δ) :
    (s.finished consumer p found).metrics = { s.metrics with
      inferenceProcessed := s.metrics.inferenceProcessed + 1
      detectedPersons := s.metrics.detectedPersons + found.length.toUInt64
      inferenceInputTotalUs := s.metrics.inferenceInputTotalUs + p.inputUs
      inferenceTotalUs := s.metrics.inferenceTotalUs + p.totalUs } := by
  rw [WorkerState.finished]
  dsimp only
  split_ifs <;> rfl

/-- A counter that none of the reasons has leaves theirs alone. -/
theorem rejectionCounter_backendFailed (s : WorkerState δ) :
    rejectionCounter s.backendFailed.metrics = rejectionCounter s.metrics := by
  funext status
  cases status <;> rfl

theorem rejectionCounter_preprocessFailed (dmaSync : Bool) (s : WorkerState δ) :
    rejectionCounter (s.preprocessFailed dmaSync).metrics = rejectionCounter s.metrics := by
  funext status
  cases status <;> rfl

theorem rejectionCounter_finished (consumer : Bool) (p : Pass β δ) (found : List δ)
    (s : WorkerState δ) :
    rejectionCounter (s.finished consumer p found).metrics = rejectionCounter s.metrics := by
  rw [finished_metrics]
  funext status
  cases status <;> rfl

/-- **What a pass counts.** -/
theorem counted (consumer : Bool) (s : WorkerState δ) (p : Pass β δ) :
    Counted p s.metrics (workerPass consumer s p).metrics := by
  have hentered := entered p.status s
  rw [workerPass]
  dsimp only
  rw [ingress_status]
  generalize s.enter p.status = s₁ at hentered ⊢
  cases hend : p.ingress.ending with
  | startFailed =>
    have hending : p.ending = .syncFailed := by rw [Pass.ending, hend]
    have henters : p.enters = false := by rw [Pass.enters, hend]
    dsimp only
    constructor
    case rejection =>
      intro status _
      rw [rejectionCounter_preprocessFailed, henters, Bool.false_and, toUInt64_false,
        UInt64.add_zero]
    all_goals simp [Pass.found, Pass.syncFails, Pass.backendFails, Pass.fallsBack, hending,
      henters, WorkerState.preprocessFailed]
  | copyFailed =>
    have hending : p.ending = .copyFailed := by rw [Pass.ending, hend]
    refine hentered.counted (by rw [Pass.enters, hend]) rfl rfl
      (rejectionCounter_preprocessFailed _ _) ?_ ?_ ?_ ?_
    all_goals simp [Pass.found, Pass.syncFails, Pass.copyFails, Pass.backendFails, hending,
      WorkerState.preprocessFailed]
  | endFailed =>
    have hending : p.ending = .syncFailed := by rw [Pass.ending, hend]
    refine hentered.counted (by rw [Pass.enters, hend]) rfl rfl
      (rejectionCounter_preprocessFailed _ _) ?_ ?_ ?_ ?_
    all_goals simp [Pass.found, Pass.syncFails, Pass.backendFails, hending,
      WorkerState.preprocessFailed]
  | threw =>
    have hending : p.ending = .threw := by rw [Pass.ending, hend]
    refine hentered.counted (by rw [Pass.enters, hend]) rfl rfl rfl ?_ ?_ ?_ ?_
    all_goals simp [Pass.found, Pass.syncFails, Pass.copyFails, Pass.backendFails, hending]
  | converted bgr =>
    have henters : p.enters = true := by rw [Pass.enters, hend]
    dsimp only
    cases hinfer : p.infer bgr with
    | threw =>
      have hending : p.ending = .threw := by simp only [Pass.ending, hend, hinfer]
      refine hentered.counted henters rfl rfl rfl ?_ ?_ ?_ ?_
      all_goals simp [Pass.found, Pass.syncFails, Pass.copyFails, Pass.backendFails, hending]
    | backendFailed =>
      have hending : p.ending = .backendFailed := by simp only [Pass.ending, hend, hinfer]
      refine hentered.counted henters rfl rfl (rejectionCounter_backendFailed _) ?_ ?_ ?_ ?_
      all_goals simp [Pass.found, Pass.syncFails, Pass.copyFails, Pass.backendFails, hending,
        WorkerState.backendFailed]
    | detections found =>
      have hending : p.ending = .processed found := by simp only [Pass.ending, hend, hinfer]
      have hmetrics := finished_metrics consumer p found s₁
      refine hentered.counted henters (by rw [hmetrics]) (by rw [hmetrics])
        (rejectionCounter_finished _ _ _ _) ?_ ?_ ?_ ?_
      all_goals simp [Pass.found, Pass.syncFails, Pass.copyFails, Pass.backendFails, hending,
        hmetrics]

/-- How often something has been the case. -/
def tally (test : Pass β δ → Bool) (passes : List (Pass β δ)) : UInt64 :=
  UInt64.ofNat (passes.countP test)

/-- A counter that every pass advances or not. -/
theorem workerRun_counter {f : Metrics → UInt64} {test : Pass β δ → Bool} (consumer : Bool)
    (hinitial : f {} = 0)
    (hstep : ∀ (s : WorkerState δ) (p : Pass β δ),
      f (workerPass consumer s p).metrics = f s.metrics + (test p).toUInt64)
    (passes : List (Pass β δ)) : f (workerRun consumer passes).metrics = tally test passes := by
  induction passes using List.reverseRecOn with
  | nil => exact hinitial
  | append_singleton passes p ih =>
    rw [workerRun, List.foldl_append, List.foldl_cons, List.foldl_nil, hstep, ← workerRun, ih,
      tally, tally, List.countP_append, UInt64.ofNat_add, List.countP_singleton]
    cases test p <;> rfl

theorem workerRun_tallies (consumer : Bool) (passes : List (Pass β δ)) :
    (workerRun consumer passes).metrics.inferenceProcessed =
        tally (fun p => p.found.isSome) passes ∧
      (workerRun consumer passes).metrics.inferenceZeroCopyIngress =
        tally (fun p => p.enters && decide (p.status = .compatible)) passes ∧
      (workerRun consumer passes).metrics.inferenceCopyFallback =
        tally Pass.fallsBack passes ∧
      (workerRun consumer passes).metrics.inferencePreprocessErrors =
        tally (fun p => p.syncFails || p.copyFails) passes ∧
      (workerRun consumer passes).metrics.inferenceDmaSyncErrors = tally Pass.syncFails passes ∧
      (workerRun consumer passes).metrics.inferenceBackendErrors =
        tally Pass.backendFails passes ∧
      ∀ status ≠ .compatible, rejectionCounter (workerRun consumer passes).metrics status =
        tally (fun p => p.enters && decide (p.status = status)) passes := by
  refine ⟨?_, ?_, ?_, ?_, ?_, ?_, fun status hstatus => ?_⟩
  · exact workerRun_counter consumer rfl (fun s p => (counted consumer s p).processed) passes
  · exact workerRun_counter consumer rfl (fun s p => (counted consumer s p).zeroCopy) passes
  · exact workerRun_counter consumer rfl (fun s p => (counted consumer s p).fallback) passes
  · exact workerRun_counter consumer rfl (fun s p => (counted consumer s p).preprocess) passes
  · exact workerRun_counter consumer rfl (fun s p => (counted consumer s p).dmaSync) passes
  · exact workerRun_counter consumer rfl (fun s p => (counted consumer s p).backend) passes
  · refine workerRun_counter (f := fun m => rejectionCounter m status) consumer ?_
      (fun s p => (counted consumer s p).rejection status hstatus) passes
    cases status <;> rfl

/-- The reasons for a copy. -/
def rejectionReasons : List CompactI420Status :=
  [.invalidDimensions, .unexpectedPlaneCount, .unexpectedStride, .invalidFileDescriptor,
    .differentFileDescriptors, .missingMapping, .inconsistentMapping, .nonCompactOffsets,
    .planeTooShort, .payloadTooShort, .mappingTooShort]

theorem countP_split {tests : List (Pass β δ → Bool)} {test : Pass β δ → Bool}
    (h : ∀ p, (tests.map fun t => (t p).toNat).sum = (test p).toNat) (passes : List (Pass β δ)) :
    (tests.map fun t => passes.countP t).sum = passes.countP test := by
  induction passes with
  | nil => simp
  | cons p passes ih =>
    have hcons (t : Pass β δ → Bool) :
        (p :: passes).countP t = passes.countP t + (t p).toNat := by
      rw [List.countP_cons]
      cases t p <;> rfl
    simp only [hcons, List.sum_map_add, ih, h]

/-- Tests of which one holds where another one does tally up to that. -/
theorem tally_split (tests : List (Pass β δ → Bool)) (test : Pass β δ → Bool)
    (h : ∀ p, (tests.map fun t => (t p).toNat).sum = (test p).toNat) (passes : List (Pass β δ)) :
    (tests.map fun t => tally t passes).sum = tally test passes := by
  have hcast (tests : List (Pass β δ → Bool)) :
      (tests.map fun t => tally t passes).sum =
        UInt64.ofNat (tests.map fun t => passes.countP t).sum := by
    induction tests with
    | nil => rfl
    | cons t tests ih =>
      rw [List.map_cons, List.sum_cons, ih, List.map_cons, List.sum_cons, UInt64.ofNat_add, tally]
  rw [hcast, countP_split h, tally]

/-- A pass ends in one way. -/
theorem ends_once (p : Pass β δ) :
    (([fun p => p.found.isSome, fun p => p.syncFails || p.copyFails, Pass.backendFails,
      Pass.throws] : List (Pass β δ → Bool)).map fun t => (t p).toNat).sum = 1 := by
  cases hending : p.ending <;>
    simp [Pass.found, Pass.syncFails, Pass.copyFails, Pass.backendFails, Pass.throws, hending]

/-- An image that is read is read in one way. -/
theorem enters_once (p : Pass β δ) :
    (([fun p => p.enters && decide (p.status = .compatible), Pass.fallsBack] :
      List (Pass β δ → Bool)).map fun t => (t p).toNat).sum = p.enters.toNat := by
  cases henters : p.enters <;> by_cases hstatus : p.status = .compatible <;>
    simp [Pass.fallsBack, henters, hstatus]

/-- A copy has one reason. -/
theorem fallsBack_once (p : Pass β δ) :
    ((rejectionReasons.map fun status (p : Pass β δ) =>
      p.enters && decide (p.status = status)).map fun t => (t p).toNat).sum =
        p.fallsBack.toNat := by
  cases henters : p.enters <;> cases hstatus : p.status <;>
    simp [Pass.fallsBack, rejectionReasons, henters, hstatus]

/-- **Every frame is accounted for.** Whatever happens around the passes, each of them is processed,
or one of two errors is counted, or it has left the pass by an exception. Each image that is read is
counted as one that was read in place or as one that was copied, and each of the latter under its
own reason. -/
theorem workerRun_counts (consumer : Bool) (passes : List (Pass β δ)) :
    [(workerRun consumer passes).metrics.inferenceProcessed,
        (workerRun consumer passes).metrics.inferencePreprocessErrors,
        (workerRun consumer passes).metrics.inferenceBackendErrors,
        tally Pass.throws passes].sum = UInt64.ofNat passes.length ∧
      [(workerRun consumer passes).metrics.inferenceZeroCopyIngress,
        (workerRun consumer passes).metrics.inferenceCopyFallback].sum =
          tally Pass.enters passes ∧
      (rejectionReasons.map (rejectionCounter (workerRun consumer passes).metrics)).sum =
        (workerRun consumer passes).metrics.inferenceCopyFallback ∧
      (∀ status ≠ .compatible, rejectionCounter (workerRun consumer passes).metrics status =
        tally (fun p => p.enters && decide (p.status = status)) passes) ∧
      (workerRun consumer passes).metrics.inferenceDmaSyncErrors = tally Pass.syncFails passes := by
  obtain ⟨hprocessed, hzeroCopy, hfallback, hpreprocess, hdmaSync, hbackend, hrejection⟩ :=
    workerRun_tallies consumer passes
  refine ⟨?_, ?_, ?_, hrejection, hdmaSync⟩
  · have hall : tally (fun _ => true) passes = UInt64.ofNat passes.length := by
      rw [tally, List.countP_true]
    rw [hprocessed, hpreprocess, hbackend, ← hall]
    exact tally_split _ (fun _ => true) ends_once passes
  · rw [hzeroCopy, hfallback]
    exact tally_split _ Pass.enters enters_once passes
  · have hreasons : rejectionReasons.map (rejectionCounter (workerRun consumer passes).metrics) =
        (rejectionReasons.map fun status (p : Pass β δ) =>
          p.enters && decide (p.status = status)).map fun t => tally t passes := by
      rw [List.map_map]
      refine List.map_congr_left fun status hstatus => hrejection status ?_
      rintro rfl
      revert hstatus
      decide
    rw [hreasons, hfallback]
    exact tally_split _ Pass.fallsBack fallsBack_once passes

/-! ### The log and the consumer -/

/-- An element at the end is left out if it is the one that was kept last. -/
theorem destutter'_snoc {α : Type} [DecidableEq α] (a : α) (l : List α) (b : α) :
    (l ++ [b]).destutter' (· ≠ ·) a =
      if (l.destutter' (· ≠ ·) a).getLast? = some b then l.destutter' (· ≠ ·) a
      else l.destutter' (· ≠ ·) a ++ [b] := by
  induction l generalizing a with
  | nil => by_cases h : a = b <;> simp [List.destutter', h]
  | cons c l ih =>
    by_cases hc : a ≠ c
    · have hne : l.destutter' (· ≠ ·) c ≠ [] := List.ne_nil_of_mem (List.mem_destutter' _ _ _)
      obtain ⟨d, rest, hrest⟩ := List.exists_cons_of_ne_nil hne
      rw [List.cons_append, List.destutter'_cons_pos _ hc, List.destutter'_cons_pos _ hc, ih, hrest,
        List.getLast?_cons_cons]
      split_ifs <;> rfl
    · rw [List.cons_append, List.destutter'_cons_neg _ hc, List.destutter'_cons_neg _ hc, ih]

theorem destutter_snoc {α : Type} [DecidableEq α] (l : List α) (b : α) :
    (l ++ [b]).destutter (· ≠ ·) =
      if (l.destutter (· ≠ ·)).getLast? = some b then l.destutter (· ≠ ·)
      else l.destutter (· ≠ ·) ++ [b] := by
  cases l with
  | nil => rfl
  | cons a l => exact destutter'_snoc a l b

/-- The reasons for which images were copied. -/
def fallbacks (passes : List (Pass β δ)) : List CompactI420Status :=
  (passes.filter Pass.fallsBack).map Pass.status

theorem fallbacks_snoc (passes : List (Pass β δ)) (p : Pass β δ) :
    fallbacks (passes ++ [p]) = fallbacks passes ++ if p.fallsBack then [p.status] else [] := by
  rw [fallbacks, List.filter_append, List.map_append, ← fallbacks]
  cases hfallback : p.fallsBack <;> simp [hfallback]

/-- What the consumer is given in a pass. -/
def Pass.consumption (consumer : Bool) (p : Pass β δ) : Option (ℕ × List δ) :=
  match p.found with
  | some found => if !found.isEmpty && consumer then some (p.sequence, found) else none
  | none => none

/-- What a pass says. -/
structure Said (consumer : Bool) (p : Pass β δ) (s s' : WorkerState δ) : Prop where
  reported : s'.reportedRejection =
    if p.fallsBack then some p.status else s.reportedRejection
  reasons : s'.reasons =
    if p.fallsBack ∧ s.reportedRejection ≠ some p.status then s.reasons ++ [p.status]
    else s.reasons
  consumed : s'.consumed = s.consumed ++ (p.consumption consumer).toList

theorem enter_said (status : CompactI420Status) (s : WorkerState δ) :
    (s.enter status).reportedRejection =
        (if status ≠ .compatible then some status else s.reportedRejection) ∧
      (s.enter status).reasons =
        (if status ≠ .compatible ∧ s.reportedRejection ≠ some status then s.reasons ++ [status]
          else s.reasons) ∧
      (s.enter status).consumed = s.consumed := by
  by_cases hcompatible : status = .compatible
  · rw [WorkerState.enter, if_pos hcompatible]
    simp [hcompatible]
  · rw [WorkerState.enter, if_neg hcompatible]
    by_cases hreported : s.reportedRejection = some status
    · simp [hcompatible, hreported]
    · simp [hcompatible, hreported]

theorem finished_said (consumer : Bool) (p : Pass β δ) (found : List δ) (s : WorkerState δ) :
    (s.finished consumer p found).reportedRejection = s.reportedRejection ∧
      (s.finished consumer p found).reasons = s.reasons ∧
      (s.finished consumer p found).consumed = s.consumed ++
        (if !found.isEmpty && consumer then some (p.sequence, found) else none).toList := by
  rw [WorkerState.finished]
  dsimp only
  cases !found.isEmpty && consumer with
  | true =>
    refine ⟨?_, ?_, ?_⟩
    all_goals simp only [if_true, Bool.true_and, Option.toList_some]
    all_goals split_ifs <;> rfl
  | false =>
    refine ⟨?_, ?_, ?_⟩
    all_goals simp only [Bool.false_and, Bool.false_eq_true, if_false, Option.toList_none,
      List.append_nil]
    all_goals split_ifs <;> rfl

/-- A pass that reads its image says what it says on entering, and what it finds. -/
theorem said_of_enter {consumer : Bool} {p : Pass β δ} {s s' : WorkerState δ}
    (henters : p.enters = true)
    (hreported : s'.reportedRejection = (s.enter p.status).reportedRejection)
    (hreasons : s'.reasons = (s.enter p.status).reasons)
    (hconsumed : s'.consumed = (s.enter p.status).consumed ++ (p.consumption consumer).toList) :
    Said consumer p s s' := by
  obtain ⟨hentered, hentered', hentered''⟩ := enter_said p.status s
  constructor
  · rw [hreported, hentered, Pass.fallsBack, henters]
    simp
  · rw [hreasons, hentered', Pass.fallsBack, henters]
    simp
  · rw [hconsumed, hentered'']

theorem said (consumer : Bool) (s : WorkerState δ) (p : Pass β δ) :
    Said consumer p s (workerPass consumer s p) := by
  have hnone (hfound : p.found = none) (l : List (ℕ × List δ)) :
      l = l ++ (p.consumption consumer).toList := by
    simp [Pass.consumption, hfound]
  rw [workerPass]
  dsimp only
  rw [ingress_status]
  cases hend : p.ingress.ending with
  | startFailed =>
    have henters : p.enters = false := by rw [Pass.enters, hend]
    constructor
    · rw [Pass.fallsBack, henters]
      rfl
    · rw [Pass.fallsBack, henters]
      simp [WorkerState.preprocessFailed]
    · exact hnone (by rw [Pass.found, Pass.ending, hend]) _
  | copyFailed | endFailed | threw =>
    exact said_of_enter (by rw [Pass.enters, hend]) rfl rfl
      (hnone (by rw [Pass.found, Pass.ending, hend]) _)
  | converted bgr =>
    have henters : p.enters = true := by rw [Pass.enters, hend]
    dsimp only
    cases hinfer : p.infer bgr with
    | threw | backendFailed =>
      exact said_of_enter henters rfl rfl
        (hnone (by simp only [Pass.found, Pass.ending, hend, hinfer]) _)
    | detections found =>
      have hfound : p.found = some found := by simp only [Pass.found, Pass.ending, hend, hinfer]
      obtain ⟨hreported, hreasons, hconsumed⟩ := finished_said consumer p found (s.enter p.status)
      refine said_of_enter henters hreported hreasons ?_
      rw [hconsumed, Pass.consumption, hfound]

/-- The reason that is remembered is the last one in the log. -/
theorem workerRun_reported (consumer : Bool) (passes : List (Pass β δ)) :
    (workerRun consumer passes).reportedRejection =
        (workerRun consumer passes).reasons.getLast? ∧
      (workerRun consumer passes).reasons = (fallbacks passes).destutter (· ≠ ·) := by
  induction passes using List.reverseRecOn with
  | nil => exact ⟨rfl, rfl⟩
  | append_singleton passes p ih =>
    obtain ⟨hlast, hreasons⟩ := ih
    have hsaid := said consumer (workerRun consumer passes) p
    have hrun : workerRun consumer (passes ++ [p]) =
        workerPass consumer (workerRun consumer passes) p := by
      rw [workerRun, List.foldl_append]
      rfl
    rw [hrun, hsaid.reported, hsaid.reasons, fallbacks_snoc, hlast, hreasons]
    cases p.fallsBack with
    | false => simp
    | true =>
      simp only [if_true, true_and, destutter_snoc]
      by_cases hsame : ((fallbacks passes).destutter (· ≠ ·)).getLast? = some p.status
      · simp [hsame]
      · simp [hsame]

/-- **What has been said.** The log has the reasons for which images were copied, without those that
repeat the one before; and the consumer has been given what was found, frame after frame. -/
theorem workerRun_reports (consumer : Bool) (passes : List (Pass β δ)) :
    (workerRun consumer passes).reasons = (fallbacks passes).destutter (· ≠ ·) ∧
      (workerRun consumer passes).consumed = passes.filterMap (Pass.consumption consumer) := by
  refine ⟨(workerRun_reported consumer passes).2, ?_⟩
  induction passes using List.reverseRecOn with
  | nil => rfl
  | append_singleton passes p ih =>
    rw [List.filterMap_append, ← ih, workerRun, List.foldl_append]
    refine (said consumer (workerRun consumer passes) p).consumed.trans ?_
    cases hconsumption : p.consumption consumer <;> simp [hconsumption]

end Inference

end EggVision
