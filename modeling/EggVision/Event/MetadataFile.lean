import EggVision.Config.Limits
import EggVision.Event.Metadata
import EggVision.Event.Store
import EggVision.Inference.Decode
import EggVision.Lib.FixedText

/-!
# `metadata.json`

The text that `writeMetadata` writes, as a stream writes it, and what a reader of JSON makes of it:
the document that was meant, as long as every number of a detection is one. A confidence that is
NaN is written by its name, and then the file is no JSON at all.

Files and identifiers are bytes here. `main_width` and `main_height` are arguments, and so are the
two casts of `event_pre_seconds` and `event_post_seconds`, which need not be defined.

## Main definitions

* `EventReport` — what is written about an event
* `metadataText`, `writeMetadata`
* `metadataJson` — the document that is meant

## Main results

* `document_metadataText`
-/

namespace EggVision

open JsonString JsonText Floating EventRecorder

/-- A detection of the inference, with the numbers it carries. -/
abbrev ReportedDetection := Inference.Detection Value (Inference.Rect Value)

/-- What `writeMetadata` reads of an `EventJob` and of its artifacts; detections and errors are
those of the job, with all their values. -/
structure EventReport where
  job : EventJob
  wallTime : WallTime
  detections : List ReportedDetection
  errors : List Bytes
  snapshot : ArtifactResult
  video : ArtifactResult

/-- The bytes of a `std::string`. -/
def textBytes (text : String) : Bytes := text.toUTF8.data.toList

/-- `"\"" + jsonEscape(value) + "\""`. -/
def quoted (value : Bytes) : Bytes := quote :: (jsonEscape value ++ [quote])

def EventRecorder.ArtifactStatus.text : ArtifactStatus → String
  | .unavailable => "unavailable"
  | .failed => "failed"
  | .complete => "complete"

/-- `result.path`: the name of the file, if there is one. -/
def artifactPath (container : String) (file : EventFile) (result : ArtifactResult) : Option Bytes :=
  if result.status = .complete then some (textBytes (file.name { eventContainer := container }))
  else none

def pathText (path : Option Bytes) : Bytes :=
  match path with
  | some path => quoted path
  | none => ascii "null"

def boolText (b : Bool) : Bytes := ascii (if b then "true" else "false")

/-- A number of a detection, with `std::fixed` and `std::setprecision(6)`. -/
def numberText (x : Value) : Bytes := fixedText 6 x

def boxText (box : Inference.Rect Value) : Bytes :=
  objectText [] (ascii " ") (ascii " ") []
    [(ascii "x", numberText box.x), (ascii "y", numberText box.y),
      (ascii "width", numberText box.width), (ascii "height", numberText box.height)]

def detectionText (detection : ReportedDetection) : Bytes :=
  objectText [] (ascii " ") (ascii " ") []
    [(ascii "class_id", signed detection.classId),
      (ascii "confidence", numberText detection.confidence),
      (ascii "lores_box", boxText detection.box)]

def detectionsText (detections : List ReportedDetection) : Bytes :=
  arrayText (ascii "\n    ") (ascii "\n    ") (ascii "\n  ") (detections.map detectionText)

def errorsText (errors : List Bytes) : Bytes :=
  arrayText [] (ascii " ") [] (errors.map quoted)

section

variable (config : AppConfig) (mainWidth mainHeight : ℕ) (report : EventReport)

def videoText : Bytes :=
  objectText (ascii "\n    ") (ascii "\n    ") (ascii " ") (ascii "\n  ")
    [(ascii "status", quote :: (ascii report.video.status.text ++ [quote])),
      (ascii "path", pathText (artifactPath config.eventContainer .clip report.video)),
      (ascii "codec", ascii "\"h264\""),
      (ascii "profile", ascii "\"high\""),
      (ascii "level", ascii "\"4\""),
      (ascii "container", quoted (textBytes config.eventContainer)),
      (ascii "width", decimal mainWidth),
      (ascii "height", decimal mainHeight),
      (ascii "nominal_fps", decimal config.fps),
      (ascii "access_units", decimal report.job.units.length),
      (ascii "bytes", decimal report.video.bytes)]

def snapshotText : Bytes :=
  objectText (ascii "\n    ") (ascii "\n    ") (ascii " ") (ascii "\n  ")
    [(ascii "status", quote :: (ascii report.snapshot.status.text ++ [quote])),
      (ascii "path", pathText (artifactPath config.eventContainer .snapshot report.snapshot)),
      (ascii "width", decimal report.job.snapshot.width),
      (ascii "height", decimal report.job.snapshot.height),
      (ascii "sequence", decimal report.job.snapshot.sequence),
      (ascii "sensor_timestamp_ns", decimal report.job.snapshot.sensorTimestampNs),
      (ascii "jpeg_quality", signed config.eventJpegQuality)]

/-- The file, with what the two casts give. -/
def metadataText (preRollMs postRollMs : ℕ) : Bytes :=
  objectText (ascii "\n  ") (ascii "\n  ") (ascii " ") (ascii "\n")
    [(ascii "schema_version", decimal 1),
      (ascii "event_id", quoted (textBytes report.job.id)),
      (ascii "trigger_wall_time", quoted (textBytes (formatWallTime report.wallTime))),
      (ascii "trigger_sequence", decimal report.job.triggerSequence),
      (ascii "trigger_sensor_timestamp_ns", decimal report.job.triggerSensorTimestampNs),
      (ascii "requested_pre_roll_ms", decimal preRollMs),
      (ascii "requested_post_roll_ms", decimal postRollMs),
      (ascii "requested_start_sensor_timestamp_ns",
        decimal report.job.requestedStartSensorTimestampNs),
      (ascii "requested_end_sensor_timestamp_ns",
        decimal report.job.requestedEndSensorTimestampNs),
      (ascii "actual_start_sensor_timestamp_ns", decimal report.job.actualStartSensorTimestampNs),
      (ascii "actual_end_sensor_timestamp_ns", decimal report.job.actualEndSensorTimestampNs),
      (ascii "pre_roll_complete", boolText report.job.preRollComplete),
      (ascii "post_roll_complete", boolText report.job.postRollComplete),
      (ascii "video", videoText config mainWidth mainHeight report),
      (ascii "snapshot", snapshotText config report),
      (ascii "detections", detectionsText report.detections),
      (ascii "encoder_generation", decimal report.job.generation),
      (ascii "errors", errorsText report.errors)] ++ ascii "\n"

/-- `static_cast<std::uint64_t>(seconds * 1000.0 + 0.5)`. -/
def requestedRollMs (rounding : Rounding) (seconds : Value) : Option ℕ :=
  castUInt64 (rounding.add (rounding.mul seconds (.finite 1000)) (.finite (1 / 2)))

/-- `writeMetadata`, where its casts are defined. -/
def writeMetadata (rounding : Rounding) : Option Bytes :=
  (requestedRollMs rounding config.eventPreSeconds).bind fun preRollMs =>
    (requestedRollMs rounding config.eventPostSeconds).map fun postRollMs =>
      metadataText config mainWidth mainHeight report preRollMs postRollMs

end

/-! ### What is meant -/

/-- A name or a text of the source as a key or a string. -/
def word (text : String) : Json := .string (ascii text)

def natural (n : ℕ) : Json := .number n

/-- A number of a detection, to six places. -/
def sixPlaces : Value → Json
  | .finite q => .number (rounded 6 q)
  | .infinite _ | .nan => .null

def boxJson (box : Inference.Rect Value) : Json :=
  .object [(ascii "x", sixPlaces box.x), (ascii "y", sixPlaces box.y),
    (ascii "width", sixPlaces box.width), (ascii "height", sixPlaces box.height)]

def detectionJson (detection : ReportedDetection) : Json :=
  .object [(ascii "class_id", .number detection.classId),
    (ascii "confidence", sixPlaces detection.confidence),
    (ascii "lores_box", boxJson detection.box)]

def pathJson : Option Bytes → Json
  | some path => .string path
  | none => .null

section

variable (config : AppConfig) (mainWidth mainHeight : ℕ) (report : EventReport)

def videoJson : Json :=
  .object [(ascii "status", word report.video.status.text),
    (ascii "path", pathJson (artifactPath config.eventContainer .clip report.video)),
    (ascii "codec", word "h264"), (ascii "profile", word "high"), (ascii "level", word "4"),
    (ascii "container", .string (textBytes config.eventContainer)),
    (ascii "width", natural mainWidth), (ascii "height", natural mainHeight),
    (ascii "nominal_fps", natural config.fps),
    (ascii "access_units", natural report.job.units.length),
    (ascii "bytes", natural report.video.bytes)]

def snapshotJson : Json :=
  .object [(ascii "status", word report.snapshot.status.text),
    (ascii "path", pathJson (artifactPath config.eventContainer .snapshot report.snapshot)),
    (ascii "width", natural report.job.snapshot.width),
    (ascii "height", natural report.job.snapshot.height),
    (ascii "sequence", natural report.job.snapshot.sequence),
    (ascii "sensor_timestamp_ns", natural report.job.snapshot.sensorTimestampNs),
    (ascii "jpeg_quality", .number config.eventJpegQuality)]

/-- The document. -/
def metadataJson (preRollMs postRollMs : ℕ) : Json :=
  .object [(ascii "schema_version", natural 1),
    (ascii "event_id", .string (textBytes report.job.id)),
    (ascii "trigger_wall_time", .string (textBytes (formatWallTime report.wallTime))),
    (ascii "trigger_sequence", natural report.job.triggerSequence),
    (ascii "trigger_sensor_timestamp_ns", natural report.job.triggerSensorTimestampNs),
    (ascii "requested_pre_roll_ms", natural preRollMs),
    (ascii "requested_post_roll_ms", natural postRollMs),
    (ascii "requested_start_sensor_timestamp_ns",
      natural report.job.requestedStartSensorTimestampNs),
    (ascii "requested_end_sensor_timestamp_ns", natural report.job.requestedEndSensorTimestampNs),
    (ascii "actual_start_sensor_timestamp_ns", natural report.job.actualStartSensorTimestampNs),
    (ascii "actual_end_sensor_timestamp_ns", natural report.job.actualEndSensorTimestampNs),
    (ascii "pre_roll_complete", .bool report.job.preRollComplete),
    (ascii "post_roll_complete", .bool report.job.postRollComplete),
    (ascii "video", videoJson config mainWidth mainHeight report),
    (ascii "snapshot", snapshotJson config report),
    (ascii "detections", .array (report.detections.map detectionJson)),
    (ascii "encoder_generation", natural report.job.generation),
    (ascii "errors", .array (report.errors.map .string))]

end

/-- All numbers of a detection are finite. -/
def allFinite (detection : ReportedDetection) : Bool :=
  detection.confidence.isFinite && detection.box.x.isFinite && detection.box.y.isFinite &&
    detection.box.width.isFinite && detection.box.height.isFinite

/-! ### The pieces -/

theorem spells_jsonEscape (value : Bytes) : Spells (jsonEscape value) value := by
  intro rest
  rw [jsonEscape_eq]
  induction value with
  | nil => exact readBody_quote rest
  | cons b value ih =>
    rw [List.flatMap_cons, List.append_assoc]
    rcases escaped_cases b with ⟨hquote, hbackslash, hcontrol, heq⟩ | hescape
    · rw [heq, List.singleton_append, readBody_plain hquote hbackslash hcontrol, ih]
      rfl
    · rw [hescape.readBody, ih]
      rfl

theorem Reads.quoted (value : Bytes) : Reads (quoted value) (some (.string value)) :=
  Reads.string (spells_jsonEscape value)

/-- A text that needs no escapes. -/
def isPlain (text : String) : Bool :=
  (ascii text).all fun b => b != quote && b != backslash && !decide (b < 0x20)

theorem spells_ascii {text : String} (h : isPlain text = true) :
    Spells (ascii text) (ascii text) := by
  refine Spells.plain fun b hb => ?_
  have := List.all_eq_true.mp h b hb
  simpa [and_assoc] using this

theorem readsField (key : String) {text : Bytes} {result : Option Json} (h : Reads text result)
    (hkey : isPlain key = true := by decide) :
    ReadsField (ascii key, text) (ascii key, result) :=
  ⟨spells_ascii hkey, h⟩

theorem Reads.word (text : String) (h : isPlain text = true) :
    Reads (quote :: (ascii text ++ [quote])) (some (word text)) :=
  Reads.string (spells_ascii h)

theorem Reads.status (status : ArtifactStatus) :
    Reads (quote :: (ascii status.text ++ [quote])) (some (EggVision.word status.text)) := by
  cases status <;> exact Reads.word _ (by decide)

theorem Reads.path (path : Option Bytes) : Reads (pathText path) (some (pathJson path)) := by
  cases path with
  | none => exact Reads.null
  | some path => exact Reads.quoted path

/-- A number is read back if it is finite. -/
theorem readBack_eq (x : Value) :
    readBack 6 x = if x.isFinite then some (sixPlaces x) else none := by
  cases x <;> rfl

theorem Reads.number (x : Value) :
    Reads (numberText x) (if x.isFinite then some (sixPlaces x) else none) :=
  readBack_eq x ▸ Reads.fixedText (by omega) x

theorem reads_box (box : Inference.Rect Value) : Reads (boxText box)
    (if box.x.isFinite && box.y.isFinite && box.width.isFinite && box.height.isFinite then
      some (boxJson box) else none) := by
  have hfields := Reads.objectText (by decide : Blank []) (by decide : Blank (ascii " "))
    (by decide : Blank (ascii " ")) (by decide : Blank [])
    (.cons (readsField "x" (Reads.number box.x)) <|
      .cons (readsField "y" (Reads.number box.y)) <|
      .cons (readsField "width" (Reads.number box.width)) <|
      .cons (readsField "height" (Reads.number box.height)) .nil)
  refine hfields.of_eq ?_
  cases box.x.isFinite <;> cases box.y.isFinite <;> cases box.width.isFinite <;>
    cases box.height.isFinite <;> rfl

theorem reads_detection (detection : ReportedDetection) : Reads (detectionText detection)
    (if allFinite detection then some (detectionJson detection) else none) := by
  have hfields := Reads.objectText (by decide : Blank []) (by decide : Blank (ascii " "))
    (by decide : Blank (ascii " ")) (by decide : Blank [])
    (.cons (readsField "class_id" (Reads.signed detection.classId)) <|
      .cons (readsField "confidence" (Reads.number detection.confidence)) <|
      .cons (readsField "lores_box" (reads_box detection.box)) .nil)
  refine hfields.of_eq ?_
  unfold allFinite
  cases detection.confidence.isFinite <;> cases detection.box.x.isFinite <;>
    cases detection.box.y.isFinite <;> cases detection.box.width.isFinite <;>
    cases detection.box.height.isFinite <;> rfl

theorem reads_detections (detections : List ReportedDetection) :
    Reads (detectionsText detections)
      (if detections.all allFinite then some (.array (detections.map detectionJson))
        else none) := by
  have hitems : List.Forall₂ Reads (detections.map detectionText) (detections.map fun detection =>
      if allFinite detection then some (detectionJson detection) else none) := by
    induction detections with
    | nil => exact .nil
    | cons detection detections ih => exact .cons (reads_detection detection) ih
  have harray := Reads.arrayText (by decide : Blank (ascii "\n    "))
    (by decide : Blank (ascii "\n    ")) (by decide : Blank (ascii "\n  "))
    (fun item hitem => by
      obtain ⟨detection, -, rfl⟩ := List.mem_map.mp hitem
      exact ⟨byte '{', rfl, by decide, by decide⟩) hitems
  refine harray.of_eq ?_
  have hall : allItems (detections.map fun detection =>
      if allFinite detection then some (detectionJson detection) else none) =
        if detections.all allFinite then some (detections.map detectionJson) else none := by
    clear harray hitems
    induction detections with
    | nil => rfl
    | cons detection detections ih =>
      rw [List.map_cons, allItems, ih]
      cases hfinite : allFinite detection <;> cases hrest : detections.all allFinite <;>
        simp [hfinite, hrest]
  rw [hall]
  cases detections.all allFinite <;> rfl

theorem reads_errors (errors : List Bytes) :
    Reads (errorsText errors) (some (.array (errors.map .string))) := by
  have hitems : List.Forall₂ Reads (errors.map quoted)
      (errors.map fun error => some (.string error)) := by
    induction errors with
    | nil => exact .nil
    | cons error errors ih => exact .cons (Reads.quoted error) ih
  have harray := Reads.arrayText (by decide : Blank []) (by decide : Blank (ascii " "))
    (by decide : Blank []) (fun item hitem => by
      obtain ⟨error, -, rfl⟩ := List.mem_map.mp hitem
      exact ⟨quote, rfl, by decide, by decide⟩) hitems
  refine harray.of_eq ?_
  have hall : allItems (errors.map fun error => some (Json.string error)) =
      some (errors.map .string) := by
    clear harray hitems
    induction errors with
    | nil => rfl
    | cons error errors ih =>
      rw [List.map_cons, allItems, ih]
      rfl
  rw [hall]
  rfl

section

variable (config : AppConfig) (mainWidth mainHeight : ℕ) (report : EventReport)

theorem reads_video : Reads (videoText config mainWidth mainHeight report)
    (some (videoJson config mainWidth mainHeight report)) :=
  Reads.objectText (by decide : Blank (ascii "\n    ")) (by decide : Blank (ascii "\n    "))
    (by decide : Blank (ascii " ")) (by decide : Blank (ascii "\n  ")) <|
    .cons (readsField "status" (Reads.status report.video.status)) <|
    .cons (readsField "path" (Reads.path _)) <|
    .cons (readsField "codec" (Reads.word "h264" (by decide))) <|
    .cons (readsField "profile" (Reads.word "high" (by decide))) <|
    .cons (readsField "level" (Reads.word "4" (by decide))) <|
    .cons (readsField "container" (Reads.quoted (textBytes config.eventContainer))) <|
    .cons (readsField "width" (Reads.decimal mainWidth)) <|
    .cons (readsField "height" (Reads.decimal mainHeight)) <|
    .cons (readsField "nominal_fps" (Reads.decimal config.fps)) <|
    .cons (readsField "access_units" (Reads.decimal report.job.units.length)) <|
    .cons (readsField "bytes" (Reads.decimal report.video.bytes)) .nil

theorem reads_snapshot : Reads (snapshotText config report) (some (snapshotJson config report)) :=
  Reads.objectText (by decide : Blank (ascii "\n    ")) (by decide : Blank (ascii "\n    "))
    (by decide : Blank (ascii " ")) (by decide : Blank (ascii "\n  ")) <|
    .cons (readsField "status" (Reads.status report.snapshot.status)) <|
    .cons (readsField "path" (Reads.path _)) <|
    .cons (readsField "width" (Reads.decimal report.job.snapshot.width)) <|
    .cons (readsField "height" (Reads.decimal report.job.snapshot.height)) <|
    .cons (readsField "sequence" (Reads.decimal report.job.snapshot.sequence)) <|
    .cons (readsField "sensor_timestamp_ns"
      (Reads.decimal report.job.snapshot.sensorTimestampNs)) <|
    .cons (readsField "jpeg_quality" (Reads.signed config.eventJpegQuality)) .nil

/-- **The metadata reads back as the document that is meant, if and only if all numbers of its
detections are finite.** Whatever the other fields are, the file is JSON then, and each number of a
detection is there to six places; with a single NaN or infinity it is no JSON. -/
theorem document_metadataText (preRollMs postRollMs : ℕ) :
    document (metadataText config mainWidth mainHeight report preRollMs postRollMs) =
      if report.detections.all allFinite then
        some (metadataJson config mainWidth mainHeight report preRollMs postRollMs)
      else none := by
  refine Reads.document ?_ (by decide)
  have hfields := Reads.objectText (by decide : Blank (ascii "\n  "))
    (by decide : Blank (ascii "\n  ")) (by decide : Blank (ascii " "))
    (by decide : Blank (ascii "\n")) <|
    .cons (readsField "schema_version" (Reads.decimal 1)) <|
    .cons (readsField "event_id" (Reads.quoted (textBytes report.job.id))) <|
    .cons (readsField "trigger_wall_time"
      (Reads.quoted (textBytes (formatWallTime report.wallTime)))) <|
    .cons (readsField "trigger_sequence" (Reads.decimal report.job.triggerSequence)) <|
    .cons (readsField "trigger_sensor_timestamp_ns"
      (Reads.decimal report.job.triggerSensorTimestampNs)) <|
    .cons (readsField "requested_pre_roll_ms" (Reads.decimal preRollMs)) <|
    .cons (readsField "requested_post_roll_ms" (Reads.decimal postRollMs)) <|
    .cons (readsField "requested_start_sensor_timestamp_ns"
      (Reads.decimal report.job.requestedStartSensorTimestampNs)) <|
    .cons (readsField "requested_end_sensor_timestamp_ns"
      (Reads.decimal report.job.requestedEndSensorTimestampNs)) <|
    .cons (readsField "actual_start_sensor_timestamp_ns"
      (Reads.decimal report.job.actualStartSensorTimestampNs)) <|
    .cons (readsField "actual_end_sensor_timestamp_ns"
      (Reads.decimal report.job.actualEndSensorTimestampNs)) <|
    .cons (readsField "pre_roll_complete" (Reads.bool report.job.preRollComplete)) <|
    .cons (readsField "post_roll_complete" (Reads.bool report.job.postRollComplete)) <|
    .cons (readsField "video" (reads_video config mainWidth mainHeight report)) <|
    .cons (readsField "snapshot" (reads_snapshot config report)) <|
    .cons (readsField "detections" (reads_detections report.detections)) <|
    .cons (readsField "encoder_generation" (Reads.decimal report.job.generation)) <|
    .cons (readsField "errors" (reads_errors report.errors)) .nil
  refine hfields.of_eq ?_
  cases report.detections.all allFinite <;> rfl

end

/-! ### Detections of the inference -/

section

open Inference

variable {r : Rounding}

/-- A detection of the inference in a report. -/
def reported (d : Inference.Detection (Num r) (Rect (Num r))) : ReportedDetection :=
  { classId := d.classId
    confidence := d.confidence
    box := ⟨d.box.x, d.box.y, d.box.width, d.box.height⟩ }

/-- The size of an image is a number, and so is every distance in it. -/
structure Measures (r : Rounding) (size : ℤ) : Prop where
  nonneg : 0 ≤ size
  whole : r.round size = .finite size
  within : ∀ q : ℚ, -size ≤ q → q ≤ size → (r.round q).isFinite = true

/-- What is neither below nor above the limits is NaN or between them. -/
theorem nan_or_between {x : Value} {lo hi : ℚ} (hlo : ¬ x < .finite lo) (hhi : ¬ .finite hi < x) :
    x = .nan ∨ ∃ q, x = .finite q ∧ lo ≤ q ∧ q ≤ hi := by
  cases x with
  | nan => exact Or.inl rfl
  | infinite negative =>
    cases negative with
    | true => exact absurd ⟨_, rfl, _, rfl, WithBot.bot_lt_coe _⟩ hlo
    | false =>
      exact absurd ⟨_, rfl, _, rfl, WithBot.coe_lt_coe.mpr (WithTop.coe_lt_top hi)⟩ hhi
  | finite q =>
    rw [Value.finite_lt_finite, not_lt] at hlo hhi
    exact Or.inr ⟨q, rfl, hlo, hhi⟩

theorem add_nan (x : Value) : r.add x .nan = .nan := by
  rw [r.add_comm]
  rfl

/-- An edge of a box in an image, or NaN. -/
def IsEdge (size : ℤ) (x : Value) : Prop :=
  x = .nan ∨ ∃ q : ℚ, x = .finite q ∧ 0 ≤ q ∧ q ≤ size

/-- What is clamped to an image is in it, or it is NaN. -/
theorem isEdge_clamp {size : ℤ} (h : Measures r size) (x : Num r) :
    IsEdge size (clamp (K := Num r) x 0 size) := by
  have hsize : (size : Num r) = Value.finite size := h.whole
  have hnonneg : (0 : ℚ) ≤ size := by exact_mod_cast h.nonneg
  unfold clamp
  by_cases hlow : x < 0
  · rw [if_pos hlow]
    exact Or.inr ⟨0, rfl, le_refl 0, hnonneg⟩
  · rw [if_neg hlow]
    by_cases hhigh : (size : Num r) < x
    · rw [if_pos hhigh]
      exact Or.inr ⟨size, hsize, hnonneg, le_refl _⟩
    · rw [if_neg hhigh]
      rw [hsize] at hhigh
      exact nan_or_between hlow hhigh

/-- The distance of two edges, if it is a size, is finite, and so is the first edge. -/
theorem isFinite_of_larger {size : ℤ} (h : Measures r size) {a b : Num r} (ha : IsEdge size a)
    (hb : IsEdge size b) (hsize : 0 < larger 0 (b - a)) :
    Value.isFinite a = true ∧ Value.isFinite (larger (K := Num r) 0 (b - a)) = true := by
  have hzero : ¬ (0 : Num r) < 0 := by
    change ¬ Value.finite 0 < Value.finite 0
    simp
  by_cases hlt : 0 < b - a
  · rw [larger, if_pos hlt]
    change Value.finite 0 < r.add b (Value.neg a) at hlt
    change _ ∧ Value.isFinite (r.add b (Value.neg a)) = true
    rcases ha with rfl | ⟨p, rfl, hp, hp'⟩
    · exact absurd (add_nan b ▸ hlt) (Value.not_lt_nan _)
    · rcases hb with rfl | ⟨q, rfl, hq, hq'⟩
      · exact absurd hlt (Value.not_lt_nan _)
      · exact ⟨rfl, h.within _ (by linarith) (by linarith)⟩
  · rw [larger, if_neg hlt] at hsize
    exact absurd hsize hzero

/-- A box that is visible in the image is one of numbers. -/
theorem Inference.Visible.allFinite {transform : LetterboxTransform (Num r)}
    {sourceWidth sourceHeight : ℤ} {row : ℕ → Num r} (hwidth : Measures r sourceWidth)
    (hheight : Measures r sourceHeight)
    (h : Inference.Visible transform sourceWidth sourceHeight row) :
    let box := restoredBox transform sourceWidth sourceHeight row
    Value.isFinite box.x = true ∧ Value.isFinite box.y = true ∧
      Value.isFinite box.width = true ∧ Value.isFinite box.height = true := by
  obtain ⟨hx, hw⟩ :=
    isFinite_of_larger hwidth (isEdge_clamp hwidth _) (isEdge_clamp hwidth _) h.1
  obtain ⟨hy, hh⟩ :=
    isFinite_of_larger hheight (isEdge_clamp hheight _) (isEdge_clamp hheight _) h.2
  exact ⟨hx, hy, hw, hh⟩

/-- **Only a confidence can spoil the metadata.** For detections that the inference has found in an
image whose size is a number, the file is the document if and only if every confidence is finite. -/
theorem document_inferred {threshold : Num r} {transform : LetterboxTransform (Num r)}
    {sourceWidth sourceHeight : ℤ} {output : InferenceTensor (Num r)}
    {found kept : List (Inference.Detection (Num r) (Rect (Num r)))} {report : EventReport}
    (config : AppConfig) (mainWidth mainHeight preRollMs postRollMs : ℕ)
    (hwidth : Measures r sourceWidth) (hheight : Measures r sourceHeight)
    (hfound : inferDetections threshold transform sourceWidth sourceHeight output = .ok found)
    (hkept : kept ⊆ found) (hreport : report.detections = kept.map reported) :
    document (metadataText config mainWidth mainHeight report preRollMs postRollMs) =
      if ∀ d ∈ kept, Value.isFinite d.confidence = true then
        some (metadataJson config mainWidth mainHeight report preRollMs postRollMs)
      else none := by
  have hbox : ∀ d ∈ kept, allFinite (reported d) = Value.isFinite d.confidence := by
    intro d hd
    unfold inferDetections at hfound
    split at hfound
    · cases hfound
    · split at hfound
      · cases hfound
      · cases hfound
        obtain ⟨i, -, hdecoded⟩ := List.mem_filterMap.mp (hkept hd)
        obtain ⟨-, hvisible, rfl⟩ := decodeRow_eq_some_iff.mp hdecoded
        obtain ⟨hx, hy, hw, hh⟩ := Inference.Visible.allFinite hwidth hheight hvisible
        simp only [EggVision.allFinite, reported, hx, hy, hw, hh, Bool.and_true]
  rw [document_metadataText, hreport]
  have hall : (kept.map reported).all allFinite = true ↔
      ∀ d ∈ kept, Value.isFinite d.confidence = true := by
    rw [List.all_map, List.all_eq_true]
    exact forall₂_congr fun d hd => by rw [Function.comp_apply, hbox d hd]
  simp only [hall]

/-- The report of an event with the given detections. -/
def reportOf (kept : List (Inference.Detection (Num exact) (Rect (Num exact)))) : EventReport where
  job := { id := formatEventId someWallTime 7, triggerSequence := 7 }
  wallTime := someWallTime
  detections := kept.map reported
  errors := []
  snapshot := {}
  video := {}

theorem measures_exact {size : ℤ} (h : 0 ≤ size) : Measures exact size :=
  ⟨h, rfl, fun _ _ _ => rfl⟩

/-- A score that is NaN ends in a file that is no JSON. -/
theorem document_inferred_nan :
    document (metadataText {} 1920 1080 (reportOf [inTheMiddle 0 .nan]) 1500 1500) = none := by
  have hfound : inferDetections (Num.ofRat (1 / 4)) cameraLetterbox 640 480 (sideBySide [.nan]) =
      .ok [inTheMiddle 0 .nan] := congrArg Except.ok (by decide +kernel)
  have hreport : (reportOf [inTheMiddle 0 .nan]).detections =
    [inTheMiddle 0 .nan].map reported := rfl
  rw [document_inferred {} 1920 1080 1500 1500 (measures_exact (by decide))
    (measures_exact (by decide)) hfound (List.Subset.refl _) hreport]
  exact if_neg fun h => Bool.noConfusion (h (inTheMiddle 0 .nan) (by simp))

end

end EggVision
