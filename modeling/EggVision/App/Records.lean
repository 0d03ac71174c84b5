import EggVision.Event.MetadataFile
import EggVision.Event.Names
import EggVision.Lib.TextLines
import EggVision.Ring.Buffer

/-!
# The records of the log

Among the lines that the program writes for a reader there are records for a program: one line each,
a JSON object with a `type`. Every component writes its own, and none of them with a writer for
JSON: the texts are put together by hand, with quotation marks that are written out, and only some
of what stands between them is escaped.

Doubles are rationals, written with two places. What the escapes are for, messages of the operating
system and paths, is bytes.

## Main definitions

* `Metrics`, `Report` — what a record of type `metrics` tells
* `LogRecord`, `LogRecord.text`, `LogRecord.json`

## Main results

* `LogRecord.document_text` — every record is read as what was meant
* `LogRecord.printable_text` — and is one line
-/

namespace EggVision

open JsonString JsonText TextLines Floating

/-! ### What is written -/

/-- The counters. -/
structure Metrics where
  captured : UInt64 := 0
  captureErrors : UInt64 := 0
  outstandingLeases : UInt64 := 0
  outstandingLeasesPeak : UInt64 := 0
  encoderAccessUnits : UInt64 := 0
  encoderOutputBytes : UInt64 := 0
  encoderDropped : UInt64 := 0
  encoderErrors : UInt64 := 0
  encoderRecoveries : UInt64 := 0
  encoderRecoveryFailures : UInt64 := 0
  rtspPushed : UInt64 := 0
  rtspDropped : UInt64 := 0
  rtspErrors : UInt64 := 0
  rtspRecoveries : UInt64 := 0
  rtspRecoveryFailures : UInt64 := 0
  rtspSessionsCurrent : UInt64 := 0
  rtspSessionsPeak : UInt64 := 0
  rtspSessionsCleaned : UInt64 := 0
  inferenceProcessed : UInt64 := 0
  inferenceDropped : UInt64 := 0
  inferenceZeroCopyIngress : UInt64 := 0
  inferenceCopyFallback : UInt64 := 0
  inferencePreprocessErrors : UInt64 := 0
  inferenceDmaSyncErrors : UInt64 := 0
  inferenceBackendErrors : UInt64 := 0
  inferenceI420InvalidDimensions : UInt64 := 0
  inferenceI420UnexpectedPlaneCount : UInt64 := 0
  inferenceI420UnexpectedStride : UInt64 := 0
  inferenceI420InvalidFd : UInt64 := 0
  inferenceI420SeparateFds : UInt64 := 0
  inferenceI420MissingMapping : UInt64 := 0
  inferenceI420InconsistentMapping : UInt64 := 0
  inferenceI420NonCompactOffsets : UInt64 := 0
  inferenceI420PlaneTooShort : UInt64 := 0
  inferenceI420PayloadTooShort : UInt64 := 0
  inferenceI420MappingTooShort : UInt64 := 0
  detectedPersons : UInt64 := 0
  inferenceInputTotalUs : UInt64 := 0
  inferenceTotalUs : UInt64 := 0
  eventsTriggered : UInt64 := 0
  eventsSuppressed : UInt64 := 0
  eventsCompleted : UInt64 := 0
  eventsPartialPreroll : UInt64 := 0
  eventsPartialPostroll : UInt64 := 0
  eventsFailed : UInt64 := 0
  eventVideoBytes : UInt64 := 0
  eventSnapshotBytes : UInt64 := 0
  eventMuxErrors : UInt64 := 0
  eventSnapshotErrors : UInt64 := 0
  eventDiskSpaceRejections : UInt64 := 0
deriving DecidableEq, Repr, Inhabited

structure EncodedRingStats where
  units : ℕ := 0
  bytes : ℕ := 0
  peakBytes : ℕ := 0
  resets : ℕ := 0
deriving DecidableEq, Repr, Inhabited

def EncodedRingBuffer.stats (ring : EncodedRingBuffer) : EncodedRingStats :=
  { units := ring.units.length, bytes := ring.bytes, peakBytes := ring.peakBytes
    resets := ring.resets }

/-- The backends that the arguments can name. -/
inductive BackendName
  | mnn
  | openvino
deriving DecidableEq, Repr, Inhabited

def BackendName.text : BackendName → String
  | .mnn => "mnn"
  | .openvino => "openvino"

/-- What `g_checksum_get_string` returns: hexadecimal digits. -/
abbrev Digest := List (Fin 16)

def Digest.text (digest : Digest) : Bytes :=
  digest.map fun d : Fin 16 => byte (Nat.digitChar d.val)

/-- `inferenceModelFingerprint`, or the empty string where there is no model. -/
inductive ModelFingerprint
  | disabled
  | model (hash : Digest)
  | modelAndWeights (hash weights : Digest)
deriving DecidableEq, Repr, Inhabited

def ModelFingerprint.text : ModelFingerprint → Bytes
  | .disabled => []
  | .model hash => hash.text
  | .modelAndWeights hash weights => ascii "xml:" ++ hash.text ++ ascii ",bin:" ++ weights.text

/-- What `main` reports. -/
structure Report where
  uptimeMs : ℕ
  captureFps : ℚ
  rtspFps : ℚ
  inferenceFps : ℚ
  averageInferenceMs : ℚ
  averageInputMs : ℚ
  metrics : Metrics
  ring : EncodedRingStats
  inferenceBackend : BackendName
  modelSha256 : ModelFingerprint
deriving DecidableEq, Repr, Inhabited

/-- The id of an event, by what it is made from. -/
structure EventId where
  wallTime : WallTime
  sequence : ℕ
deriving DecidableEq, Repr

def EventId.text (id : EventId) : Bytes := ascii (formatEventId id.wallTime id.sequence)

/-- Why an event has failed. -/
inductive EventFailure
  | queueFull
  | directoryCreation (message : Bytes)
  | metadataWrite
  | artifactFinalize (partialDir : Bytes)
  | publish (message : Bytes)
deriving DecidableEq, Repr

inductive LogRecord
  | metrics (report : Report)
  | inference (sequence persons : ℕ)
      (inputMs preprocessMs inferenceMs postprocessMs totalMs pipelineMs : ℚ)
  | encodedRingReset (generation : ℕ) (regression : Bool)
  | encoderRecoveryStarted
  | encoderRecoveryFailed
  | encoderRecovered
  | eventStorageRejected (availableBytes minimumBytes : ℕ) (error : Bytes)
  | eventFailed (id : EventId) (failure : EventFailure)
  | eventMuxStarted (id : EventId) (accessUnits : ℕ)
  | eventCompleted (id : EventId) (videoBytes snapshotBytes : ℕ)
      (preRollComplete postRollComplete : Bool)
  | eventSuppressed (sequence sensorTimestampNs : ℕ)
  | eventTriggered (id : EventId) (sequence sensorTimestampNs generation : ℕ)
      (preRollComplete : Bool)
  | eventCollecting (id : EventId) (requestedEndSensorTimestampNs : ℕ)
deriving DecidableEq, Repr

/-- A value as it is written: a text between quotation marks, as it is or with a text in front and
the rest escaped; a number; an object of counters. -/
inductive LogValue
  | text (value : Bytes)
  | escaped (label : String) (value : Bytes)
  | natural (n : ℕ)
  | bool (b : Bool)
  | fixed (q : ℚ)
  | counters (fields : List (String × UInt64))

def LogValue.written : LogValue → Bytes
  | .text value => quote :: (value ++ [quote])
  | .escaped label value => quote :: (ascii label ++ jsonEscape value ++ [quote])
  | .natural n => decimal n
  | .bool b => boolText b
  | .fixed q => fixedText 2 (.finite q)
  | .counters fields => objectText [] [] [] [] (fields.map fun f => (ascii f.1, decimal f.2.toNat))

/-- What a value means. -/
def LogValue.json : LogValue → Json
  | .text value => .string value
  | .escaped label value => .string (ascii label ++ value)
  | .natural n => .number n
  | .bool b => .bool b
  | .fixed q => .number (rounded 2 q)
  | .counters fields => .object (fields.map fun f => (ascii f.1, .number f.2.toNat))

def Metrics.rejections (metrics : Metrics) : List (String × UInt64) :=
  [("invalid_dimensions", metrics.inferenceI420InvalidDimensions),
    ("unexpected_plane_count", metrics.inferenceI420UnexpectedPlaneCount),
    ("unexpected_stride", metrics.inferenceI420UnexpectedStride),
    ("invalid_fd", metrics.inferenceI420InvalidFd),
    ("separate_fds", metrics.inferenceI420SeparateFds),
    ("missing_mapping", metrics.inferenceI420MissingMapping),
    ("inconsistent_mapping", metrics.inferenceI420InconsistentMapping),
    ("non_compact_offsets", metrics.inferenceI420NonCompactOffsets),
    ("plane_too_short", metrics.inferenceI420PlaneTooShort),
    ("payload_too_short", metrics.inferenceI420PayloadTooShort),
    ("mapping_too_short", metrics.inferenceI420MappingTooShort)]

def counter (n : UInt64) : LogValue := .natural n.toNat

def Report.fields (report : Report) : List (String × LogValue) :=
  let metrics := report.metrics
  [("uptime_ms", .natural report.uptimeMs),
    ("capture_fps", .fixed report.captureFps),
    ("rtsp_fps", .fixed report.rtspFps),
    ("inference_fps", .fixed report.inferenceFps),
    ("inference_avg_ms", .fixed report.averageInferenceMs),
    ("inference_input_avg_ms", .fixed report.averageInputMs),
    ("outstanding_leases", counter metrics.outstandingLeases),
    ("outstanding_leases_peak", counter metrics.outstandingLeasesPeak),
    ("encoder_access_units", counter metrics.encoderAccessUnits),
    ("encoder_output_bytes", counter metrics.encoderOutputBytes),
    ("encoder_dropped", counter metrics.encoderDropped),
    ("encoder_errors", counter metrics.encoderErrors),
    ("encoder_recoveries", counter metrics.encoderRecoveries),
    ("encoder_recovery_failures", counter metrics.encoderRecoveryFailures),
    ("rtsp_dropped", counter metrics.rtspDropped),
    ("inference_dropped", counter metrics.inferenceDropped),
    ("inference_backend", .text (ascii report.inferenceBackend.text)),
    ("inference_model_sha256", .text report.modelSha256.text),
    ("inference_zero_copy_ingress", counter metrics.inferenceZeroCopyIngress),
    ("inference_copy_fallback", counter metrics.inferenceCopyFallback),
    ("inference_preprocess_errors", counter metrics.inferencePreprocessErrors),
    ("inference_dma_sync_errors", counter metrics.inferenceDmaSyncErrors),
    ("inference_backend_errors", counter metrics.inferenceBackendErrors),
    ("inference_i420_rejections", .counters metrics.rejections),
    ("capture_errors", counter metrics.captureErrors),
    ("rtsp_errors", counter metrics.rtspErrors),
    ("rtsp_recoveries", counter metrics.rtspRecoveries),
    ("rtsp_recovery_failures", counter metrics.rtspRecoveryFailures),
    ("rtsp_sessions_current", counter metrics.rtspSessionsCurrent),
    ("rtsp_sessions_peak", counter metrics.rtspSessionsPeak),
    ("rtsp_sessions_cleaned", counter metrics.rtspSessionsCleaned),
    ("encoded_ring_units", .natural report.ring.units),
    ("encoded_ring_bytes", .natural report.ring.bytes),
    ("encoded_ring_peak_bytes", .natural report.ring.peakBytes),
    ("encoded_ring_resets", .natural report.ring.resets),
    ("events_triggered", counter metrics.eventsTriggered),
    ("events_suppressed", counter metrics.eventsSuppressed),
    ("events_completed", counter metrics.eventsCompleted),
    ("events_partial_preroll", counter metrics.eventsPartialPreroll),
    ("events_partial_postroll", counter metrics.eventsPartialPostroll),
    ("events_failed", counter metrics.eventsFailed),
    ("event_video_bytes", counter metrics.eventVideoBytes),
    ("event_snapshot_bytes", counter metrics.eventSnapshotBytes),
    ("event_mux_errors", counter metrics.eventMuxErrors),
    ("event_snapshot_errors", counter metrics.eventSnapshotErrors),
    ("event_disk_space_rejections", counter metrics.eventDiskSpaceRejections)]

def EventFailure.fields : EventFailure → List (String × LogValue)
  | .queueFull => [("error", .text (ascii "event worker queue is full"))]
  | .directoryCreation message =>
    [("error", .escaped "event directory creation failed: " message)]
  | .metadataWrite => [("error", .text (ascii "metadata write failed"))]
  | .artifactFinalize partialDir =>
    [("partial_dir", .escaped "" partialDir), ("error", .text (ascii "artifact finalize failed"))]
  | .publish message => [("error", .escaped "atomic publish failed: " message)]

namespace LogRecord

def kind : LogRecord → String
  | .metrics _ => "metrics"
  | .inference .. => "inference"
  | .encodedRingReset .. => "encoded_ring_reset"
  | .encoderRecoveryStarted => "encoder_recovery_started"
  | .encoderRecoveryFailed => "encoder_recovery_failed"
  | .encoderRecovered => "encoder_recovered"
  | .eventStorageRejected .. => "event_storage_rejected"
  | .eventFailed .. => "event_failed"
  | .eventMuxStarted .. => "event_mux_started"
  | .eventCompleted .. => "event_completed"
  | .eventSuppressed .. => "event_suppressed"
  | .eventTriggered .. => "event_triggered"
  | .eventCollecting .. => "event_collecting"

/-- What follows the type. -/
def fields : LogRecord → List (String × LogValue)
  | .metrics report => report.fields
  | .inference sequence persons inputMs preprocessMs inferenceMs postprocessMs totalMs pipelineMs =>
    [("sequence", .natural sequence), ("persons", .natural persons), ("input_ms", .fixed inputMs),
      ("preprocess_ms", .fixed preprocessMs), ("inference_ms", .fixed inferenceMs),
      ("postprocess_ms", .fixed postprocessMs), ("total_ms", .fixed totalMs),
      ("pipeline_ms", .fixed pipelineMs)]
  | .encodedRingReset generation regression =>
    [("generation", .natural generation),
      ("reason", .text (ascii (if regression then "timestamp_regression" else "generation")))]
  | .encoderRecoveryStarted | .encoderRecoveryFailed | .encoderRecovered => []
  | .eventStorageRejected availableBytes minimumBytes error =>
    [("available_bytes", .natural availableBytes), ("minimum_bytes", .natural minimumBytes),
      ("error", .escaped "" error)]
  | .eventFailed id failure => ("event_id", .text id.text) :: failure.fields
  | .eventMuxStarted id accessUnits =>
    [("event_id", .text id.text), ("access_units", .natural accessUnits)]
  | .eventCompleted id videoBytes snapshotBytes preRollComplete postRollComplete =>
    [("event_id", .text id.text), ("video_bytes", .natural videoBytes),
      ("snapshot_bytes", .natural snapshotBytes), ("pre_roll_complete", .bool preRollComplete),
      ("post_roll_complete", .bool postRollComplete)]
  | .eventSuppressed sequence sensorTimestampNs =>
    [("sequence", .natural sequence), ("sensor_timestamp_ns", .natural sensorTimestampNs)]
  | .eventTriggered id sequence sensorTimestampNs generation preRollComplete =>
    [("event_id", .text id.text), ("sequence", .natural sequence),
      ("sensor_timestamp_ns", .natural sensorTimestampNs), ("generation", .natural generation),
      ("pre_roll_complete", .bool preRollComplete)]
  | .eventCollecting id requestedEndSensorTimestampNs =>
    [("event_id", .text id.text),
      ("requested_end_sensor_timestamp_ns", .natural requestedEndSensorTimestampNs)]

/-- The type and what follows. -/
def allFields (record : LogRecord) : List (String × LogValue) :=
  ("type", .text (ascii record.kind)) :: record.fields

/-- The line, without its end. -/
def text (record : LogRecord) : Bytes :=
  objectText [] [] [] [] (record.allFields.map fun f => (ascii f.1, f.2.written))

/-- What the line means. -/
def json (record : LogRecord) : Json :=
  .object (record.allFields.map fun f => (ascii f.1, f.2.json))

end LogRecord

/-! ### Texts that mean themselves -/

/-- Printable, with nothing that a string would have to escape. -/
def isPlainByte (b : UInt8) : Bool :=
  b != quote && b != backslash && decide (0x20 ≤ b) && decide (b < 0x7F)

def PlainText (text : Bytes) : Prop := ∀ b ∈ text, isPlainByte b = true

variable {text text' : Bytes}

theorem plainText_of_all (h : text.all isPlainByte = true) : PlainText text :=
  List.all_eq_true.mp h

theorem PlainText.append (h : PlainText text) (h' : PlainText text') :
    PlainText (text ++ text') := by
  intro b hb
  rcases List.mem_append.mp hb with hb | hb
  · exact h b hb
  · exact h' b hb

theorem PlainText.printable (h : PlainText text) : Printable text := by
  intro b hb
  have hplain := h b hb
  simp only [isPlainByte, Bool.and_eq_true, decide_eq_true_eq] at hplain
  exact ⟨hplain.1.2, hplain.2⟩

theorem isPlainByte_ne {b : UInt8} (h : isPlainByte b = true) :
    b ≠ quote ∧ b ≠ backslash ∧ ¬ b < 0x20 := by
  simp only [isPlainByte, Bool.and_eq_true, bne_iff_ne, decide_eq_true_eq] at h
  exact ⟨h.1.1.1, h.1.1.2, UInt8.not_lt.mpr h.1.2⟩

theorem PlainText.spells (h : PlainText text) : Spells text text :=
  Spells.plain fun b hb => isPlainByte_ne (h b hb)

theorem isPlainByte_digit {b : UInt8} (h : isDigit b = true) : isPlainByte b = true := by
  simp only [isDigit, Bool.and_eq_true, decide_eq_true_eq] at h
  have hall : ∀ n < 10, isPlainByte (48 + n).toUInt8 = true := by decide
  have hlo := UInt8.le_iff_toNat_le.mp h.1
  have hhi := UInt8.le_iff_toNat_le.mp h.2
  rw [show (byte '0').toNat = 48 from rfl] at hlo
  rw [show (byte '9').toNat = 57 from rfl] at hhi
  have hb := hall (b.toNat - 48) (by omega)
  rwa [show 48 + (b.toNat - 48) = b.toNat by omega,
    show b.toNat.toUInt8 = b from UInt8.ofNat_toNat] at hb

theorem plainText_digits {l : List Char} (h : ∀ c ∈ l, c.isDigit = true) :
    PlainText (l.map byte) := by
  intro b hb
  obtain ⟨c, hc, rfl⟩ := List.mem_map.mp hb
  exact isPlainByte_digit (isDigit_byte (h c hc))

theorem plainText_decimal (n : ℕ) : PlainText (decimal n) :=
  fun b hb => isPlainByte_digit (decimal_digits n b hb)

theorem plainText_padded (width n : ℕ) : PlainText ((Digits.padded width n).map byte) :=
  plainText_digits fun _ => Digits.isDigit_of_mem_padded

theorem plainText_digest (digest : Digest) : PlainText digest.text := by
  have hall : ∀ d : Fin 16, isPlainByte (byte (Nat.digitChar d.val)) = true := by decide
  intro b hb
  obtain ⟨d, -, rfl⟩ := List.mem_map.mp hb
  exact hall d

theorem plainText_fingerprint (fingerprint : ModelFingerprint) : PlainText fingerprint.text := by
  cases fingerprint with
  | disabled => exact plainText_of_all rfl
  | model hash => exact plainText_digest hash
  | modelAndWeights hash weights =>
    have hxml : PlainText (ascii "xml:") := plainText_of_all (by decide)
    have hbin : PlainText (ascii ",bin:") := plainText_of_all (by decide)
    exact ((hxml.append (plainText_digest hash)).append hbin).append (plainText_digest weights)

theorem ascii_ofList (l : List Char) : ascii (String.ofList l) = l.map byte := by
  rw [ascii, String.toList_ofList]

theorem plainText_id (id : EventId) : PlainText id.text := by
  have hpadded := plainText_padded
  rw [EventId.text, formatEventId, ascii_ofList]
  have hsign : PlainText [byte (if id.wallTime.localTime.west then '-' else '+')] := by
    cases id.wallTime.localTime.west
    · exact plainText_of_all (by decide)
    · exact plainText_of_all (by decide)
  have hseq : PlainText (['_', 's', 'e', 'q'].map byte) := plainText_of_all (by decide)
  have ht : PlainText [byte 'T'] := plainText_of_all (by decide)
  have hdot : PlainText [byte '.'] := plainText_of_all (by decide)
  have hdate : PlainText ((id.wallTime.localTime.date []).map byte) :=
    plainText_digits fun _ => LocalTime.isDigit_of_mem_date
  have hclock : PlainText ((id.wallTime.localTime.clock []).map byte) := by
    simp only [LocalTime.clock, List.append_nil, List.map_append]
    exact ((hpadded _ _).append (hpadded _ _)).append (hpadded _ _)
  have hoffset : PlainText ((id.wallTime.localTime.offset []).map byte) := by
    simp only [LocalTime.offset, List.append_nil, List.map_append, List.map_cons]
    exact hsign.append ((hpadded _ _).append (hpadded _ _))
  have hmilliseconds := hpadded 3 id.wallTime.milliseconds
  have hall := ((((hdate.append (ht.append hclock)).append (hdot.append hmilliseconds)).append
    hoffset).append hseq).append (plainText_decimal id.sequence)
  simpa [decimal] using hall

/-! ### Texts of values -/

/-- A text in front of an escaped one. -/
theorem spells_label {label : Bytes} (h : PlainText label) (value : Bytes) :
    Spells (label ++ jsonEscape value) (label ++ value) := by
  intro rest
  induction label with
  | nil => exact spells_jsonEscape value rest
  | cons b label ih =>
    obtain ⟨hquote, hbackslash, hcontrol⟩ := isPlainByte_ne (h b List.mem_cons_self)
    rw [List.cons_append, List.cons_append, readBody_plain hquote hbackslash hcontrol,
      ih fun c hc => h c (List.mem_cons_of_mem b hc)]
    rfl

/-- Two lists that come from one. -/
theorem forall₂_map {α β γ : Type*} {R : β → γ → Prop} {f : α → β} {g : α → γ} {l : List α}
    (h : ∀ a ∈ l, R (f a) (g a)) : List.Forall₂ R (l.map f) (l.map g) := by
  rw [List.forall₂_map_left_iff, List.forall₂_map_right_iff, List.forall₂_same]
  exact h

/-- The members of an object that is written without blanks. -/
theorem reads_object {fields : List (Bytes × Bytes)} {members : List (Bytes × Json)}
    (h : List.Forall₂ (fun field member => Spells field.1 member.1 ∧
      Reads field.2 (some member.2)) fields members) (hne : fields ≠ []) :
    Reads (objectText [] [] [] [] fields) (some (.object members)) := by
  cases h with
  | nil => exact absurd rfl hne
  | @cons field member fields members hfield hfields =>
    have hresults : List.Forall₂ ReadsField (field :: fields)
        ((member :: members).map fun m => (m.1, some m.2)) := by
      refine .cons hfield ?_
      clear hfield hne
      induction hfields with
      | nil => exact .nil
      | cons hfield _ ih => exact .cons hfield ih
    have hblank : Blank [] := by decide
    have hreads := Reads.objectText hblank hblank hblank hblank hresults
    refine hreads.of_eq ?_
    have hmembers : ∀ members : List (Bytes × Json),
        allMembers (members.map fun m => (m.1, some m.2)) = some members := by
      intro members
      induction members with
      | nil => rfl
      | cons member members ih =>
        rw [List.map_cons, allMembers, ih]
        rfl
    rw [hmembers]
    rfl

theorem printable_escaped {b : UInt8} (h : 0x20 ≤ b ∧ b < 0x7F) :
    Printable (escaped b) := by
  have hall : ∀ n < 127, 32 ≤ n → Printable (escaped n.toUInt8) := by decide
  have hb := hall b.toNat (UInt8.lt_iff_toNat_lt.mp h.2) (UInt8.le_iff_toNat_le.mp h.1)
  rwa [show b.toNat.toUInt8 = b from UInt8.ofNat_toNat] at hb

theorem printable_quoted (h : Printable text) : Printable (quote :: (text ++ [quote])) :=
  .cons (by decide) (h.append (by decide))

theorem printable_object {fields : List (Bytes × Bytes)}
    (h : ∀ f ∈ fields, Printable f.1 ∧ Printable f.2) :
    Printable (objectText [] [] [] [] fields) := by
  have hmember : ∀ f ∈ fields, Printable (member [] f.1 f.2) := by
    intro f hf
    obtain ⟨hkey, htext⟩ := h f hf
    exact .cons (by decide) (hkey.append (.cons (by decide) (.cons (by decide) htext)))
  cases fields with
  | nil => decide
  | cons f fields =>
    refine .cons (by decide) ((hmember f List.mem_cons_self).append (.append ?_ (by decide)))
    refine .flatMap fun g hg => .cons (by decide) (hmember g (List.mem_cons_of_mem f hg))

/-! ### Every value is read -/

namespace LogValue

/-- What stands between quotation marks needs no escape, or is escaped. -/
def WellFormed : LogValue → Prop
  | .text value => PlainText value
  | .escaped label _ => PlainText (ascii label)
  | .counters fields => fields ≠ [] ∧ ∀ f ∈ fields, PlainText (ascii f.1)
  | _ => True

/-- What is escaped is printable all the same. -/
def Legible : LogValue → Prop
  | .escaped _ value => Printable value
  | _ => True

variable {value : LogValue}

theorem reads (h : value.WellFormed) : Reads value.written (some value.json) := by
  cases value with
  | text value => exact Reads.string h.spells
  | escaped label value => exact Reads.string (spells_label h value)
  | natural n => exact Reads.decimal n
  | bool b => exact Reads.bool b
  | fixed q => exact Reads.fixedText (by omega) (.finite q)
  | counters fields =>
    refine reads_object (forall₂_map fun f hf => ⟨(h.2 f hf).spells, Reads.decimal _⟩) ?_
    rw [Ne, List.map_eq_nil_iff]
    exact h.1

theorem printable (h : value.WellFormed) (hlegible : value.Legible) : Printable value.written := by
  cases value with
  | text value => exact printable_quoted (PlainText.printable h)
  | escaped label value =>
    refine printable_quoted ((PlainText.printable h).append ?_)
    rw [jsonEscape_eq]
    exact .flatMap fun b hb => printable_escaped (hlegible b hb)
  | natural n => exact (plainText_decimal n).printable
  | bool b => cases b <;> decide
  | fixed q =>
    have hsign : Printable (if decide (q < 0) = true then [byte '-'] else []) := by
      split <;> decide
    exact (hsign.append (plainText_decimal _).printable).append
      (.cons (by decide) (plainText_padded _ _).printable)
  | counters fields =>
    refine printable_object fun f hf => ?_
    obtain ⟨g, hg, rfl⟩ := List.mem_map.mp hf
    exact ⟨(h.2 g hg).printable, (plainText_decimal _).printable⟩

end LogValue

/-! ### Every record is read -/

/-- A key that needs no escape, and a value that is read. -/
structure FieldReads (f : String × LogValue) : Prop where
  key : PlainText (ascii f.1)
  value : f.2.WellFormed

theorem fieldReads {key : String} {value : LogValue} (hvalue : value.WellFormed)
    (hkey : (ascii key).all isPlainByte = true) : FieldReads (key, value) :=
  ⟨plainText_of_all hkey, hvalue⟩

theorem wellFormed_rejections (metrics : Metrics) :
    (LogValue.counters metrics.rejections).WellFormed := by
  refine ⟨by rintro ⟨⟩, ?_⟩
  simp only [Metrics.rejections, List.forall_mem_cons]
  repeat' apply And.intro
  all_goals first
    | exact plainText_of_all (by decide)
    | exact List.forall_mem_nil _

theorem wellFormed_ascii {text : String} (h : (ascii text).all isPlainByte = true) :
    (LogValue.text (ascii text)).WellFormed :=
  plainText_of_all h

theorem fieldReads_report (report : Report) : ∀ f ∈ report.fields, FieldReads f := by
  have hbackend : (LogValue.text (ascii report.inferenceBackend.text)).WellFormed := by
    cases report.inferenceBackend
    · exact wellFormed_ascii (by decide)
    · exact wellFormed_ascii (by decide)
  have hmodel : (LogValue.text report.modelSha256.text).WellFormed := plainText_fingerprint _
  have hrejections := wellFormed_rejections report.metrics
  simp only [Report.fields, List.forall_mem_cons]
  repeat' apply And.intro
  all_goals first
    | exact fieldReads hbackend (by decide)
    | exact fieldReads hmodel (by decide)
    | exact fieldReads hrejections (by decide)
    | exact fieldReads trivial (by decide)
    | exact List.forall_mem_nil _

theorem fieldReads_failure (failure : EventFailure) : ∀ f ∈ failure.fields, FieldReads f := by
  cases failure
  all_goals
    simp only [EventFailure.fields, List.forall_mem_cons]
    repeat' apply And.intro
    all_goals first
      | exact fieldReads (wellFormed_ascii (by decide)) (by decide)
      | exact List.forall_mem_nil _

/-- In every field the key needs no escape, and the value is read. -/
theorem fieldReads_record (record : LogRecord) : ∀ f ∈ record.allFields, FieldReads f := by
  have hid : ∀ id : EventId, FieldReads ("event_id", .text id.text) :=
    fun id => fieldReads (plainText_id id) (by decide)
  have hrest : ∀ f ∈ record.fields, FieldReads f := by
    cases record with
    | metrics report => exact fieldReads_report report
    | eventFailed id failure =>
      simp only [LogRecord.fields, List.forall_mem_cons]
      exact ⟨hid id, fieldReads_failure failure⟩
    | encodedRingReset generation regression =>
      simp only [LogRecord.fields, List.forall_mem_cons]
      refine ⟨fieldReads trivial (by decide), ?_, List.forall_mem_nil _⟩
      cases regression
      · exact fieldReads (wellFormed_ascii (by decide)) (by decide)
      · exact fieldReads (wellFormed_ascii (by decide)) (by decide)
    | eventStorageRejected =>
      simp only [LogRecord.fields, List.forall_mem_cons]
      exact ⟨fieldReads trivial (by decide), fieldReads trivial (by decide),
        fieldReads (plainText_of_all rfl) (by decide), List.forall_mem_nil _⟩
    | _ =>
      simp only [LogRecord.fields, List.forall_mem_cons]
      repeat' apply And.intro
      all_goals first
        | exact hid _
        | exact fieldReads trivial (by decide)
        | exact List.forall_mem_nil _
  intro f hf
  rcases List.mem_cons.mp hf with rfl | hf
  · refine fieldReads (wellFormed_ascii ?_) (by decide)
    cases record
    all_goals
      simp only [LogRecord.kind]
      decide
  · exact hrest f hf

namespace LogRecord

variable (record : LogRecord)

theorem reads_text : Reads record.text (some record.json) := by
  refine reads_object (forall₂_map fun f hf => ?_) (by rintro ⟨⟩)
  have hf := fieldReads_record record f hf
  exact ⟨hf.key.spells, LogValue.reads hf.value⟩

/-- **Every record is read as what was meant.** -/
theorem document_text : document record.text = some record.json := by
  have hdocument := (reads_text record).document (by decide : Blank [])
  rwa [List.append_nil] at hdocument

/-- Messages and paths are printable. -/
def Legible : Prop := ∀ f ∈ record.allFields, f.2.Legible

/-- A record is one line. -/
theorem printable_text (h : record.Legible) : Printable record.text := by
  refine printable_object fun f hf => ?_
  obtain ⟨g, hg, rfl⟩ := List.mem_map.mp hf
  have hread := fieldReads_record record g hg
  exact ⟨hread.key.printable, LogValue.printable hread.value (h g hg)⟩

end LogRecord

end EggVision
