import EggVision.Lib.DecimalText
import EggVision.Lib.Floating
import EggVision.Lib.Outcome

/-!
# The arguments of the program

`parseArguments` goes through the arguments once. An option that takes a value takes the argument
after it, whatever that is, and stores it at once, so that the last of several counts; the checks
come at the end. `std::stof` and `std::stod` are parameters: they may return any value, NaN and the
infinities too. The other conversions are `DecimalText`.

## Main definitions

* `AppConfig`, `ValueOption`, `Flag`
* `parseArguments`
* `occurrences`, `given` — what the arguments say, option by option

## Main results

* `parseArguments_spec` — the loop, the defaults and the checks of an accepted list
* `StoredBy.last` — a field holds what was given last for its option
* `storedBy_storage` — every option is stored in a field of its own
-/

namespace EggVision

open Floating DecimalText Outcome

/-- `AppConfig`, as far as the arguments reach it, and `fps`. -/
structure AppConfig where
  fps : ℕ := 30
  rtspPort : String := "8554"
  rtspMount : String := "/stream"
  rtspMaxSessions : ℕ := 32
  bitrate : ℕ := 4000000
  gop : ℕ := 12
  inferenceEnabled : Bool := true
  inferenceBackend : String := "mnn"
  modelPath : String := "models/yolov5n.mnn"
  confidenceThreshold : Value := .finite (3 / 10)
  nmsThreshold : Value := .finite (45 / 100)
  inferenceThreads : ℕ := 3
  eventRecordingEnabled : Bool := true
  eventsDir : String := "/var/lib/eggvision/events"
  eventPreSeconds : Value := .finite (3 / 2)
  eventPostSeconds : Value := .finite (3 / 2)
  eventCooldownSeconds : Value := .finite 10
  eventRingSeconds : Value := .finite 4
  eventRingMaxBytes : ℕ := 8 * 1024 * 1024
  eventMinFreeBytes : ℕ := 1024 * 1024 * 1024
  eventJpegQuality : ℤ := 90
  eventContainer : String := "mp4"
  durationSeconds : ℕ := 0
deriving DecidableEq, Repr

/-- How `parseArguments` ends when it does not return. -/
inductive Stop
  | thrown (what : String)
  | exited
deriving DecidableEq, Repr

/-- The options that take a value. -/
inductive ValueOption
  | inferenceBackend
  | model
  | port
  | mount
  | maxRtspSessions
  | bitrate
  | gop
  | confidence
  | nms
  | inferenceThreads
  | eventsDir
  | eventPreSeconds
  | eventPostSeconds
  | eventCooldownSeconds
  | eventRingSeconds
  | eventRingMaxBytes
  | eventMinFreeBytes
  | eventJpegQuality
  | eventContainer
  | duration
deriving DecidableEq, Repr

def ValueOption.ofArgument : String → Option ValueOption
  | "--inference-backend" => some .inferenceBackend
  | "--model" => some .model
  | "--port" => some .port
  | "--mount" => some .mount
  | "--max-rtsp-sessions" => some .maxRtspSessions
  | "--bitrate" => some .bitrate
  | "--gop" => some .gop
  | "--confidence" => some .confidence
  | "--nms" => some .nms
  | "--inference-threads" => some .inferenceThreads
  | "--events-dir" => some .eventsDir
  | "--event-pre-seconds" => some .eventPreSeconds
  | "--event-post-seconds" => some .eventPostSeconds
  | "--event-cooldown-seconds" => some .eventCooldownSeconds
  | "--event-ring-seconds" => some .eventRingSeconds
  | "--event-ring-max-bytes" => some .eventRingMaxBytes
  | "--event-min-free-bytes" => some .eventMinFreeBytes
  | "--event-jpeg-quality" => some .eventJpegQuality
  | "--event-container" => some .eventContainer
  | "--duration" => some .duration
  | _ => none

/-- The options that take none, `--help` apart. -/
inductive Flag
  | noInference
  | noEventRecording
deriving DecidableEq, Repr

def Flag.ofArgument : String → Option Flag
  | "--no-inference" => some .noInference
  | "--no-event-recording" => some .noEventRecording
  | _ => none

/-- The variables of the loop. -/
structure ParseState where
  config : AppConfig := {}
  modelOverridden : Bool := false
  threadsOverridden : Bool := false
deriving DecidableEq, Repr

/-- `std::stof` and `std::stod`, and the arithmetic of `double`. -/
structure FloatLibrary where
  rounding : Rounding
  stof : String → Option Value
  stod : String → Option Value

/-- A conversion of the standard library; what it throws tells its name. -/
def converted {α : Type} (name : String) : Option α → Except Stop α
  | none => .error (.thrown name)
  | some value => .ok value

/-- `static_cast<unsigned>(std::stoul(text))`. -/
def toUnsigned (text : String) : Except Stop ℕ :=
  (converted "stoul" (stoul text)).map fun n => n % 2 ^ 32

def ParseState.update (change : AppConfig → AppConfig) (s : ParseState) : ParseState :=
  { s with config := change s.config }

/-- What the branch of an option does with its value. -/
def ValueOption.assign (library : FloatLibrary) (text : String) (s : ParseState) :
    ValueOption → Except Stop ParseState
  | .inferenceBackend => .ok (s.update fun config => { config with inferenceBackend := text })
  | .model =>
    .ok { s.update (fun config => { config with modelPath := text }) with modelOverridden := true }
  | .port => .ok (s.update fun config => { config with rtspPort := text })
  | .mount => .ok (s.update fun config => { config with rtspMount := text })
  | .maxRtspSessions => (toUnsigned text).map fun n =>
    s.update fun config => { config with rtspMaxSessions := n }
  | .bitrate => (toUnsigned text).map fun n => s.update fun config => { config with bitrate := n }
  | .gop => (toUnsigned text).map fun n => s.update fun config => { config with gop := n }
  | .confidence => (converted "stof" (library.stof text)).map fun x =>
    s.update fun config => { config with confidenceThreshold := x }
  | .nms => (converted "stof" (library.stof text)).map fun x =>
    s.update fun config => { config with nmsThreshold := x }
  | .inferenceThreads => (toUnsigned text).map fun n =>
    { s.update (fun config => { config with inferenceThreads := n }) with
      threadsOverridden := true }
  | .eventsDir => .ok (s.update fun config => { config with eventsDir := text })
  | .eventPreSeconds => (converted "stod" (library.stod text)).map fun x =>
    s.update fun config => { config with eventPreSeconds := x }
  | .eventPostSeconds => (converted "stod" (library.stod text)).map fun x =>
    s.update fun config => { config with eventPostSeconds := x }
  | .eventCooldownSeconds => (converted "stod" (library.stod text)).map fun x =>
    s.update fun config => { config with eventCooldownSeconds := x }
  | .eventRingSeconds => (converted "stod" (library.stod text)).map fun x =>
    s.update fun config => { config with eventRingSeconds := x }
  | .eventRingMaxBytes => (converted "stoull" (stoul text)).map fun n =>
    s.update fun config => { config with eventRingMaxBytes := n }
  | .eventMinFreeBytes => (converted "stoull" (stoul text)).map fun n =>
    s.update fun config => { config with eventMinFreeBytes := n }
  | .eventJpegQuality => (converted "stoi" (stoi text)).map fun n =>
    s.update fun config => { config with eventJpegQuality := n }
  | .eventContainer => .ok (s.update fun config => { config with eventContainer := text })
  | .duration => (toUnsigned text).map fun n =>
    s.update fun config => { config with durationSeconds := n }

def Flag.set (s : ParseState) : Flag → ParseState
  | .noInference => s.update fun config => { config with inferenceEnabled := false }
  | .noEventRecording => s.update fun config => { config with eventRecordingEnabled := false }

/-- The loop over the arguments. -/
def parseLoop (library : FloatLibrary) : List String → ParseState → Except Stop ParseState
  | [], s => .ok s
  | argument :: rest, s =>
    match ValueOption.ofArgument argument with
    | some option =>
      match rest with
      | [] => .error (.thrown ("missing value after " ++ argument))
      | text :: rest => (option.assign library text s).bind (parseLoop library rest)
    | none =>
      match Flag.ofArgument argument with
      | some flag => parseLoop library rest (flag.set s)
      | none =>
        if argument = "--help" then .error .exited
        else .error (.thrown ("unknown argument: " ++ argument))

/-- `minimum_ring`. -/
def minimumRing (rounding : Rounding) (config : AppConfig) : Value :=
  rounding.add (rounding.add config.eventPreSeconds
    (rounding.div (.finite config.gop) (.finite config.fps))) (.finite (1 / 2))

/-- The checks after the defaults, each with what it throws. -/
def checks (rounding : Rounding) (config : AppConfig) : List (Bool × String) :=
  [(config.rtspMount.isEmpty || decide (config.rtspMount.front ≠ '/'),
      "--mount must begin with '/'"),
    (decide (config.confidenceThreshold < .finite 0) ||
        decide (.finite 1 < config.confidenceThreshold) ||
        decide (config.nmsThreshold < .finite 0) || decide (.finite 1 < config.nmsThreshold),
      "confidence and NMS thresholds must be in [0,1]"),
    (decide (config.inferenceThreads = 0), "--inference-threads must be at least 1"),
    (decide (config.rtspMaxSessions = 0), "--max-rtsp-sessions must be at least 1"),
    (decide (config.bitrate = 0) || decide (config.gop = 0),
      "--bitrate and --gop must be at least 1")] ++
  if config.eventRecordingEnabled then
    [(config.eventsDir.isEmpty, "--events-dir must not be empty"),
      (decide (config.eventPreSeconds ≤ .finite 0) ||
          decide (config.eventPostSeconds ≤ .finite 0) ||
          decide (config.eventCooldownSeconds < .finite 0) ||
          decide (config.eventRingSeconds ≤ .finite 0),
        "event durations must be positive; cooldown may be zero"),
      (decide (config.eventRingSeconds < minimumRing rounding config),
        "--event-ring-seconds must cover pre-roll, one GOP, and 0.5s safety"),
      (decide (config.eventRingMaxBytes < 1024 * 1024),
        "--event-ring-max-bytes must be at least 1048576"),
      (decide (config.eventJpegQuality < 1) || decide (100 < config.eventJpegQuality),
        "--event-jpeg-quality must be in [1,100]"),
      (decide (config.eventContainer ≠ "mp4") && decide (config.eventContainer ≠ "mkv"),
        "--event-container must be mp4 or mkv")]
  else []

/-- The defaults that depend on the backend. -/
def withDefaults (s : ParseState) : AppConfig :=
  { s.config with
    modelPath :=
      if s.modelOverridden then s.config.modelPath
      else if s.config.inferenceBackend = "mnn" then "models/yolov5n.mnn"
      else "models/yolov5n.xml"
    inferenceThreads :=
      if s.threadsOverridden then s.config.inferenceThreads
      else if s.config.inferenceBackend = "mnn" then 3 else 2 }

/-- What `parseArguments` does after the loop. -/
def checkedConfig (rounding : Rounding) (s : ParseState) : Except Stop AppConfig :=
  if s.config.inferenceBackend ≠ "mnn" ∧ s.config.inferenceBackend ≠ "openvino" then
    .error (.thrown "--inference-backend must be mnn or openvino")
  else
    let config := withDefaults s
    match (checks rounding config).find? Prod.fst with
    | some (_, what) => .error (.thrown what)
    | none => .ok config

/-- `parseArguments`, without the program's name. -/
def parseArguments (library : FloatLibrary) (arguments : List String) : Except Stop AppConfig :=
  (parseLoop library arguments {}).bind (checkedConfig library.rounding)

/-! ### What the arguments say -/

/-- An option with its value, or a flag. -/
inductive Occurrence
  | value (option : ValueOption) (text : String)
  | flag (flag : Flag)
deriving DecidableEq, Repr

/-- The arguments, read in the way the loop reads them, as far as it can go. -/
def occurrences : List String → List Occurrence
  | [] => []
  | argument :: rest =>
    match ValueOption.ofArgument argument with
    | some option =>
      match rest with
      | [] => []
      | text :: rest => .value option text :: occurrences rest
    | none =>
      match Flag.ofArgument argument with
      | some flag => .flag flag :: occurrences rest
      | none => []

def Occurrence.valueOf (option : ValueOption) : Occurrence → Option String
  | .value option' text => if option' = option then some text else none
  | .flag _ => none

/-- The texts that are given to an option, in order. -/
def given (option : ValueOption) (arguments : List String) : List String :=
  (occurrences arguments).filterMap (Occurrence.valueOf option)

def Occurrence.apply (library : FloatLibrary) (s : ParseState) :
    Occurrence → Except Stop ParseState
  | .value option text => option.assign library text s
  | .flag switch => .ok (switch.set s)

variable {library : FloatLibrary} {s s' : ParseState}

/-- A loop that comes to its end has applied every occurrence, one after the other. -/
theorem parseLoop_ok (arguments : List String) (s : ParseState)
    (h : parseLoop library arguments s = .ok s') :
    (occurrences arguments).foldlM (Occurrence.apply library) s = .ok s' := by
  induction arguments using occurrences.induct generalizing s with
  | case1 => exact h
  | case2 argument option hoption =>
    rw [parseLoop, hoption] at h
    cases h
  | case3 argument option hoption text rest ih =>
    rw [parseLoop, hoption] at h
    obtain ⟨s₁, hassign, hrest⟩ := bind_ok h
    rw [occurrences, hoption]
    simp only [List.foldlM_cons, Occurrence.apply, hassign]
    exact ih s₁ hrest
  | case4 argument rest hoption flag hflag ih =>
    rw [parseLoop, hoption] at h
    simp only [hflag] at h
    rw [occurrences, hoption]
    simp only [hflag, List.foldlM_cons, Occurrence.apply]
    exact ih _ h
  | case5 argument rest hoption hflag =>
    rw [parseLoop, hoption] at h
    simp only [hflag] at h
    split at h <;> cases h

/-- An accepted list of arguments has gone through the loop, and no check complains about what came
out with the defaults. -/
theorem parseArguments_spec {arguments : List String} {config : AppConfig}
    (h : parseArguments library arguments = .ok config) :
    ∃ s, (occurrences arguments).foldlM (Occurrence.apply library) {} = .ok s ∧
      config = withDefaults s ∧ ∀ check ∈ checks library.rounding config, check.1 = false := by
  obtain ⟨s, hloop, hchecked⟩ := bind_ok h
  unfold checkedConfig at hchecked
  split at hchecked
  · cases hchecked
  · simp only at hchecked
    split at hchecked
    · cases hchecked
    next hnone =>
      cases hchecked
      refine ⟨s, parseLoop_ok arguments {} hloop, rfl, fun check hcheck => ?_⟩
      simpa using List.find?_eq_none.mp hnone check hcheck

/-! ### The last of several -/

/-- The field `get` is the one in which `option` stores what `convert` makes of its value, and no
other option touches it. -/
structure StoredBy {α : Type} (library : FloatLibrary) (option : ValueOption)
    (convert : String → Except Stop α) (get : ParseState → α) : Prop where
  own : ∀ {text s s'}, option.assign library text s = .ok s' → convert text = .ok (get s')
  other : ∀ {option'}, option' ≠ option → ∀ {text s s'}, option'.assign library text s = .ok s' →
    get s' = get s
  flag : ∀ (flag : Flag) (s : ParseState), get (flag.set s) = get s

variable {α : Type} {option : ValueOption} {convert : String → Except Stop α}
  {get : ParseState → α}

/-- When the loop is over, every text given to the option has been converted, and the field holds
the last of them, or what it held before. -/
theorem StoredBy.last (h : StoredBy library option convert get) {arguments : List String}
    (hrun : (occurrences arguments).foldlM (Occurrence.apply library) s = .ok s') :
    (∀ text ∈ given option arguments, ∃ a, convert text = .ok a) ∧
      match (given option arguments).getLast? with
      | none => get s' = get s
      | some text => convert text = .ok (get s') := by
  unfold given
  generalize occurrences arguments = occs at hrun
  induction occs generalizing s with
  | nil =>
    cases hrun
    exact ⟨by simp, rfl⟩
  | cons occ occs ih =>
    rw [List.foldlM_cons] at hrun
    obtain ⟨s₁, hfirst, hrest⟩ := bind_ok hrun
    obtain ⟨hall, hlast⟩ := ih hrest
    cases occ with
    | flag switch =>
      cases hfirst
      rw [h.flag] at hlast
      exact ⟨hall, hlast⟩
    | value option' text =>
      by_cases hoption : option' = option
      · subst hoption
        have hown := h.own hfirst
        rw [List.filterMap_cons_some (b := text) (by simp [Occurrence.valueOf])]
        refine ⟨List.forall_mem_cons.mpr ⟨⟨_, hown⟩, hall⟩, ?_⟩
        rw [List.getLast?_cons]
        revert hlast
        cases (occs.filterMap (Occurrence.valueOf option')).getLast? with
        | none => exact fun hlast => hlast ▸ hown
        | some last => exact id
      · rw [List.filterMap_cons_none (by simp [Occurrence.valueOf, hoption])]
        rw [h.other hoption hfirst] at hlast
        exact ⟨hall, hlast⟩

/-! ### Where options are stored -/

/-- A field of the loop's variables, and what becomes of a text that is stored in it. -/
structure Storage where
  Content : Type
  convert : String → Except Stop Content
  get : ParseState → Content

def ValueOption.storage (library : FloatLibrary) : ValueOption → Storage
  | .inferenceBackend => ⟨String, .ok, fun s => s.config.inferenceBackend⟩
  | .model => ⟨String, .ok, fun s => s.config.modelPath⟩
  | .port => ⟨String, .ok, fun s => s.config.rtspPort⟩
  | .mount => ⟨String, .ok, fun s => s.config.rtspMount⟩
  | .maxRtspSessions => ⟨ℕ, toUnsigned, fun s => s.config.rtspMaxSessions⟩
  | .bitrate => ⟨ℕ, toUnsigned, fun s => s.config.bitrate⟩
  | .gop => ⟨ℕ, toUnsigned, fun s => s.config.gop⟩
  | .confidence =>
    ⟨Value, fun text => converted "stof" (library.stof text), fun s => s.config.confidenceThreshold⟩
  | .nms =>
    ⟨Value, fun text => converted "stof" (library.stof text), fun s => s.config.nmsThreshold⟩
  | .inferenceThreads => ⟨ℕ, toUnsigned, fun s => s.config.inferenceThreads⟩
  | .eventsDir => ⟨String, .ok, fun s => s.config.eventsDir⟩
  | .eventPreSeconds =>
    ⟨Value, fun text => converted "stod" (library.stod text), fun s => s.config.eventPreSeconds⟩
  | .eventPostSeconds =>
    ⟨Value, fun text => converted "stod" (library.stod text), fun s => s.config.eventPostSeconds⟩
  | .eventCooldownSeconds =>
    ⟨Value, fun text => converted "stod" (library.stod text),
      fun s => s.config.eventCooldownSeconds⟩
  | .eventRingSeconds =>
    ⟨Value, fun text => converted "stod" (library.stod text), fun s => s.config.eventRingSeconds⟩
  | .eventRingMaxBytes =>
    ⟨ℕ, fun text => converted "stoull" (stoul text), fun s => s.config.eventRingMaxBytes⟩
  | .eventMinFreeBytes =>
    ⟨ℕ, fun text => converted "stoull" (stoul text), fun s => s.config.eventMinFreeBytes⟩
  | .eventJpegQuality =>
    ⟨ℤ, fun text => converted "stoi" (stoi text), fun s => s.config.eventJpegQuality⟩
  | .eventContainer => ⟨String, .ok, fun s => s.config.eventContainer⟩
  | .duration => ⟨ℕ, toUnsigned, fun s => s.config.durationSeconds⟩

theorem storage_own {option : ValueOption} {text : String}
    (h : option.assign library text s = .ok s') :
    (option.storage library).convert text = .ok ((option.storage library).get s') := by
  cases option <;> first
    | (cases h; rfl)
    | (obtain ⟨_, hn, rfl⟩ := map_ok h; exact hn)

theorem storage_other {option option' : ValueOption} (hne : option' ≠ option) {text : String}
    (h : option'.assign library text s = .ok s') :
    (option.storage library).get s' = (option.storage library).get s := by
  -- by the option that is given; each changes one field, which no other option has
  cases option' <;> first
    | (cases h; cases option <;> first | exact absurd rfl hne | rfl)
    | (obtain ⟨_, -, rfl⟩ := map_ok h; cases option <;> first | exact absurd rfl hne | rfl)

/-- **Every option has a field of its own.** -/
theorem storedBy_storage (option : ValueOption) :
    StoredBy library option (option.storage library).convert (option.storage library).get := by
  refine ⟨storage_own, fun hne => storage_other hne, fun flag s => ?_⟩
  cases option <;> cases flag <;> rfl

end EggVision
