import EggVision.App.Logging
import EggVision.App.Records
import EggVision.Soak.Metrics

/-!
# The log of a soak run

`parse_metrics` reads the log line by line. A line that begins with a brace has to be JSON, and a
line that does not must not look like a record; a single bad line and there are no metrics at all.
So it matters that no record of the program is anything but JSON, and that no line is torn by
another.

What `json.loads` takes beyond JSON, the names of NaN and of the infinities, is not modelled: the
program does not write them. Messages and paths are in printable ASCII, and no message of the
program looks like a record.

## Main definitions

* `parseMetrics` — the rows of the metrics records
* `LogEntry` — a line of the log: a record, or a message

## Main results

* `parseMetrics_log` — what is read from the log is what was reported
-/

namespace EggVision

open JsonString JsonText TextLines Transition

/-! ### The reader -/

/-- `row.get(key)`. Of members with the same key the last one counts. -/
def jsonGet (key : Bytes) : Json → Option Json
  | .object members => (members.reverse.find? fun m => m.1 == key).map Prod.snd
  | _ => none

/-- `row.get("type") == "metrics"`. -/
def isMetrics (row : Json) : Bool :=
  match jsonGet (ascii "type") row with
  | some (.string kind) => kind == ascii "metrics"
  | _ => false

/-- What is wrong with a line. -/
inductive MalformedRecord
  | markerOutside
  | notJson
deriving DecidableEq, Repr

/-- `STRUCTURED_LOG_MARKERS`. -/
def structuredLogMarker : Bytes := quote :: (ascii "type" ++ [quote, byte ':'])

/-- The body of the loop: a row, if the line is a metrics record. -/
def readLine (line : Bytes) : Except MalformedRecord (Option Json) :=
  if line.head? = some (byte '{') then
    match document line with
    | some row => .ok (if isMetrics row then some row else none)
    | none => .error .notJson
  else if structuredLogMarker <:+: line then .error .markerOutside
  else .ok none

/-- The rows, and the malformed lines with their numbers. -/
def readLog : ℕ → List Bytes → List Json × List (ℕ × MalformedRecord)
  | _, [] => ([], [])
  | number, line :: lines =>
    let (metrics, malformed) := readLog (number + 1) lines
    match readLine line with
    | .ok (some row) => (row :: metrics, malformed)
    | .ok none => (metrics, malformed)
    | .error error => (metrics, (number, error) :: malformed)

def parseMetrics (text : Bytes) : Except (List (ℕ × MalformedRecord)) (List Json) :=
  match readLog 1 (splitlines text) with
  | (metrics, []) => .ok metrics
  | (_, malformed) => .error (malformed.take 3)

/-- What `metric_number` finds in a row. -/
def metricValue : Option Json → MetricValue
  | some (.number q) => .finite q
  | _ => .other

def metricsRow (row : Json) : MetricsRow where
  uptimeMs := metricValue (jsonGet (ascii "uptime_ms") row)
  captureFps := metricValue (jsonGet (ascii "capture_fps") row)
  rtspFps := metricValue (jsonGet (ascii "rtsp_fps") row)
  inferenceFps := metricValue (jsonGet (ascii "inference_fps") row)

/-! ### The lines -/

/-- A line of the log, without its end. -/
inductive LogEntry
  | json (record : LogRecord)
  | message (text : Bytes)

namespace LogEntry

def text : LogEntry → Bytes
  | .json record => record.text
  | .message text => text

/-- Printable; and a message does not look like a record. -/
def Clean : LogEntry → Prop
  | .json record => record.Legible
  | .message text =>
    Printable text ∧ text.head? ≠ some (byte '{') ∧ ¬ structuredLogMarker <:+: text

def report : LogEntry → Option Report
  | .json (.metrics report) => some report
  | _ => none

theorem printable {entry : LogEntry} (h : entry.Clean) : Printable entry.text := by
  cases entry with
  | json record => exact record.printable_text h
  | message text => exact h.1

end LogEntry

/-! ### What a record is read as -/

/-- A member whose key does not come again. -/
theorem jsonGet_of_unique {before after : List (String × LogValue)} {key : String}
    {value : LogValue} (h : ∀ f ∈ after, ascii f.1 ≠ ascii key) :
    jsonGet (ascii key) (.object
      ((before ++ (key, value) :: after).map fun f => (ascii f.1, f.2.json))) =
        some value.json := by
  have hnone : ((after.map fun f => (ascii f.1, f.2.json)).reverse.find?
      fun m => m.1 == ascii key) = none := by
    rw [List.find?_eq_none]
    intro m hm
    obtain ⟨f, hf, rfl⟩ := List.mem_map.mp (List.mem_reverse.mp hm)
    simpa using h f hf
  rw [jsonGet]
  simp only [List.map_append, List.map_cons, List.reverse_append, List.reverse_cons,
    List.find?_append, hnone]
  simp

/-- The keys that are read. -/
def readKeys : List Bytes :=
  [ascii "type", ascii "uptime_ms", ascii "capture_fps", ascii "rtsp_fps", ascii "inference_fps"]

/-- They come first. -/
theorem not_mem_readKeys (report : Report) :
    ∀ f ∈ report.fields.drop 4, ascii f.1 ∉ readKeys := by
  simp only [Report.fields, List.drop_succ_cons, List.drop_zero, List.forall_mem_cons]
  repeat' apply And.intro
  all_goals first
    | exact List.forall_mem_nil _
    | decide

/-- The row of a report has the numbers that were written. -/
def Report.row (report : Report) : MetricsRow where
  uptimeMs := .finite report.uptimeMs
  captureFps := .finite (rounded 2 report.captureFps)
  rtspFps := .finite (rounded 2 report.rtspFps)
  inferenceFps := .finite (rounded 2 report.inferenceFps)

theorem jsonGet_report {report : Report} {before after : List (String × LogValue)} {key : String}
    {value : LogValue} (hfields : (LogRecord.metrics report).allFields =
      before ++ (key, value) :: (after ++ report.fields.drop 4))
    (hkey : ascii key ∈ readKeys) (hafter : ∀ f ∈ after, ascii f.1 ≠ ascii key) :
    jsonGet (ascii key) (LogRecord.metrics report).json = some value.json := by
  rw [LogRecord.json, hfields]
  refine jsonGet_of_unique fun f hf => ?_
  rcases List.mem_append.mp hf with hf | hf
  · exact hafter f hf
  · intro heq
    exact not_mem_readKeys report f hf (heq ▸ hkey)

theorem metricsRow_report (report : Report) :
    metricsRow (LogRecord.metrics report).json = report.row := by
  have huptime := @jsonGet_report report [_] [_, _, _] "uptime_ms" _ rfl (by decide) (by
    simp only [List.forall_mem_cons]
    exact ⟨by decide, by decide, by decide, List.forall_mem_nil _⟩)
  have hcapture := @jsonGet_report report [_, _] [_, _] "capture_fps" _ rfl (by decide) (by
    simp only [List.forall_mem_cons]
    exact ⟨by decide, by decide, List.forall_mem_nil _⟩)
  have hrtsp := @jsonGet_report report [_, _, _] [_] "rtsp_fps" _ rfl (by decide) (by
    simp only [List.forall_mem_cons]
    exact ⟨by decide, List.forall_mem_nil _⟩)
  have hinference := @jsonGet_report report [_, _, _, _] [] "inference_fps" _ rfl (by decide)
    (List.forall_mem_nil _)
  rw [metricsRow, huptime, hcapture, hrtsp, hinference]
  rfl

/-- No field that follows the type is called so. -/
theorem key_ne_type (record : LogRecord) : ∀ f ∈ record.fields, ascii f.1 ≠ ascii "type" := by
  have hfailure : ∀ failure : EventFailure, ∀ f ∈ failure.fields, ascii f.1 ≠ ascii "type" := by
    intro failure
    cases failure
    all_goals
      simp only [EventFailure.fields, List.forall_mem_cons]
      repeat' apply And.intro
      all_goals first
        | exact List.forall_mem_nil _
        | decide
  cases record with
  | metrics report =>
    have hfields : report.fields = report.fields.take 4 ++ report.fields.drop 4 :=
      (List.take_append_drop 4 _).symm
    intro f hf
    rw [LogRecord.fields, hfields] at hf
    rcases List.mem_append.mp hf with hf | hf
    · have hfirst : ∀ g ∈ report.fields.take 4, ascii g.1 ≠ ascii "type" := by
        simp only [Report.fields, List.take_succ_cons, List.take_zero, List.forall_mem_cons]
        exact ⟨by decide, by decide, by decide, by decide, List.forall_mem_nil _⟩
      exact hfirst f hf
    · intro heq
      exact not_mem_readKeys report f hf (heq ▸ List.mem_cons_self)
  | eventFailed id failure =>
    simp only [LogRecord.fields, List.forall_mem_cons]
    exact ⟨by decide, hfailure failure⟩
  | _ =>
    simp only [LogRecord.fields, List.forall_mem_cons]
    repeat' apply And.intro
    all_goals first
      | exact List.forall_mem_nil _
      | decide

/-- The types of the records. -/
def recordKinds : List String :=
  ["metrics", "inference", "encoded_ring_reset", "encoder_recovery_started",
    "encoder_recovery_failed", "encoder_recovered", "event_storage_rejected", "event_failed",
    "event_mux_started", "event_completed", "event_suppressed", "event_triggered",
    "event_collecting"]

theorem isMetrics_json (record : LogRecord) :
    isMetrics record.json = decide (record.kind = "metrics") := by
  have hget : jsonGet (ascii "type") record.json = some (.string (ascii record.kind)) :=
    @jsonGet_of_unique [] _ "type" (.text (ascii record.kind)) (key_ne_type record)
  have hkinds : ∀ kind ∈ recordKinds,
      (ascii kind == ascii "metrics") = decide (kind = "metrics") := by decide
  have hkind : record.kind ∈ recordKinds := by
    cases record
    all_goals
      simp only [LogRecord.kind]
      decide
  rw [isMetrics, hget]
  exact hkinds _ hkind

/-- What a line of the log is read as. -/
theorem readLine_entry {entry : LogEntry} (h : entry.Clean) :
    readLine entry.text =
      .ok (entry.report.map fun report => (LogRecord.metrics report).json) := by
  cases entry with
  | message text =>
    obtain ⟨-, hhead, hmarker⟩ := h
    show readLine text = _
    rw [readLine, if_neg hhead, if_neg hmarker]
    rfl
  | json record =>
    show readLine record.text = _
    have hhead : record.text.head? = some (byte '{') := rfl
    rw [readLine, if_pos hhead, record.document_text]
    dsimp only
    rw [isMetrics_json]
    cases record <;> rfl

/-! ### The whole log -/

theorem readLog_lines {α : Type*} {text : α → Bytes} {row : α → Option Json} {entries : List α}
    (h : ∀ e ∈ entries, readLine (text e) = .ok (row e)) (number : ℕ) :
    readLog number (entries.map text) = (entries.filterMap row, []) := by
  induction entries generalizing number with
  | nil => rfl
  | cons e entries ih =>
    have hrest := ih (fun d hd => h d (List.mem_cons_of_mem e hd)) (number + 1)
    rw [List.map_cons, readLog, hrest, h e List.mem_cons_self]
    cases hrow : row e with
    | none => simp [hrow]
    | some json => simp [hrow]

/-- The text of a log. -/
def logText (entries : List LogEntry) : Bytes :=
  entries.flatMap fun entry => entry.text ++ [newline]

/-- **What is read from the log is what was reported.** The records of type `metrics` come out in
their order, with their integers as they were and their rates as they were written, whatever other
records and messages are between them. -/
theorem parseMetrics_log {entries : List LogEntry} (h : ∀ entry ∈ entries, entry.Clean) :
    ∃ rows, parseMetrics (logText entries) = .ok rows ∧
      rows.map metricsRow = (entries.filterMap LogEntry.report).map Report.row := by
  have hlines : splitlines (logText entries) = entries.map LogEntry.text := by
    rw [logText, show (entries.flatMap fun entry => entry.text ++ [newline]) =
      (entries.map LogEntry.text).flatMap (· ++ [newline]) from by rw [List.flatMap_map]]
    refine splitlines_lines fun line hline => ?_
    obtain ⟨entry, hentry, rfl⟩ := List.mem_map.mp hline
    exact LogEntry.printable (h entry hentry)
  have hread := readLog_lines (fun entry hentry => readLine_entry (h entry hentry)) 1
  refine ⟨_, by rw [parseMetrics, hlines, hread], ?_⟩
  rw [List.map_filterMap, List.map_filterMap]
  congr 1
  funext entry
  rw [Option.map_map]
  congr 1
  funext report
  exact metricsRow_report report

theorem logText_flatMap {lines : List Bytes} {entries : Bytes → List LogEntry}
    (h : ∀ line ∈ lines, line = logText (entries line)) :
    lines.flatten = logText (lines.flatMap entries) := by
  induction lines with
  | nil => rfl
  | cons line lines ih =>
    have hrest := ih fun text htext => h text (List.mem_cons_of_mem line htext)
    have happend : logText (entries line ++ lines.flatMap entries) =
        logText (entries line) ++ logText (lines.flatMap entries) := List.flatMap_append
    rw [List.flatten_cons, List.flatMap_cons, happend, ← hrest, ← h line List.mem_cons_self]

/-- What every line that is put together is known to consist of. -/
def Consists (entries : Bytes → List LogEntry) (line : Bytes) : Prop :=
  line = logText (entries line) ∧ ∀ entry ∈ entries line, entry.Clean

section

variable {s : SynchronizedLog} {history : List (SynchronizedLog × LogAction)}
  {entries : Bytes → List LogEntry}

/-- The file is the text of the lines that were written. -/
theorem stream_logText (h : Run SynchronizedLog.step {} history s)
    (hlines : ∀ pieces ∈ SynchronizedLog.begunLines history, Consists entries pieces.flatten) :
    s.stream = logText ((SynchronizedLog.writtenLines history).flatMap entries) ∧
      ∀ entry ∈ (SynchronizedLog.writtenLines history).flatMap entries, entry.Clean := by
  obtain ⟨hstream, hwritten⟩ := SynchronizedLog.stream_eq h
  have hconsists : ∀ text ∈ SynchronizedLog.writtenLines history, Consists entries text := by
    intro text htext
    obtain ⟨pieces, hpieces, rfl⟩ := hwritten text htext
    exact hlines pieces hpieces
  refine ⟨?_, fun entry hentry => ?_⟩
  · rw [hstream, logText_flatMap fun text htext => (hconsists text htext).1]
  · obtain ⟨text, htext, hentry⟩ := List.mem_flatMap.mp hentry
    exact (hconsists text htext).2 entry hentry

/-- **However the threads take turns, the soak test reads what was reported.** If every line that is
put together consists of records and messages, the metrics of the file are those of the lines that
were written, in the order in which they were. -/
theorem parseMetrics_stream (h : Run SynchronizedLog.step {} history s)
    (hlines : ∀ pieces ∈ SynchronizedLog.begunLines history, Consists entries pieces.flatten) :
    ∃ rows, parseMetrics s.stream = .ok rows ∧ rows.map metricsRow =
      (((SynchronizedLog.writtenLines history).flatMap entries).filterMap LogEntry.report).map
        Report.row := by
  obtain ⟨hstream, hclean⟩ := stream_logText h hlines
  rw [hstream]
  exact parseMetrics_log hclean

end

/-- Two threads that put a line together at the same time. -/
def twoLines (first second : Bytes) : List LogAction :=
  [.construct 0 [first, [newline]], .construct 1 [second, [newline]], .insert 0, .insert 1,
    .insert 1, .destroy 1 false, .insert 0, .destroy 0 false]

theorem legible_metrics (report : Report) : (LogRecord.metrics report).Legible := by
  simp only [LogRecord.Legible, LogRecord.allFields, LogRecord.fields, Report.fields,
    List.forall_mem_cons]
  repeat' apply And.intro
  all_goals first
    | trivial
    | exact List.forall_mem_nil _

theorem parseMetrics_stream_twoLines : ∃ history s rows, Run SynchronizedLog.step {} history s ∧
    parseMetrics s.stream = .ok rows ∧ rows.map metricsRow = [(default : Report).row] := by
  let first := (LogRecord.metrics default).text
  let second := ascii "[camera] capture stopped"
  let entries : Bytes → List LogEntry := fun text =>
    if text.head? = some (byte '{') then [.json (.metrics default)] else [.message second]
  obtain ⟨s, hs⟩ : ∃ s, exec SynchronizedLog.step {} (twoLines first second) = some s := ⟨_, rfl⟩
  have hrun := Run.ofExec (twoLines first second) hs
  have hbegun : SynchronizedLog.begunLines (trace SynchronizedLog.step {} (twoLines first second)) =
      [[first, [newline]], [second, [newline]]] := rfl
  have hwritten : SynchronizedLog.writtenLines
      (trace SynchronizedLog.step {} (twoLines first second)) =
        [second ++ [newline], first ++ [newline]] := rfl
  have hfirst : first ++ [newline] = logText [.json (.metrics default)] :=
    (List.append_nil _).symm
  have hsecond : second ++ [newline] = logText [.message second] := (List.append_nil _).symm
  have hclean : (LogEntry.message second).Clean := ⟨by decide, by decide, by decide⟩
  have hlines : ∀ pieces ∈ SynchronizedLog.begunLines
      (trace SynchronizedLog.step {} (twoLines first second)),
      Consists entries pieces.flatten := by
    rw [hbegun]
    intro pieces hpieces
    rcases List.mem_pair.mp hpieces with rfl | rfl
    · refine ⟨hfirst, fun entry hentry => ?_⟩
      rw [List.mem_singleton.mp hentry]
      exact legible_metrics default
    · refine ⟨hsecond, fun entry hentry => ?_⟩
      rw [List.mem_singleton.mp hentry]
      exact hclean
  obtain ⟨rows, hrows, hread⟩ := parseMetrics_stream hrun hlines
  refine ⟨_, s, rows, hrun, hrows, ?_⟩
  rw [hread, hwritten]
  rfl

end EggVision
