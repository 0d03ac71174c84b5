import EggVision.Config.Arguments

/-!
# The limits of an accepted configuration

The checks of `parseArguments` ask whether a number is too small or too large. NaN is neither, so it
passes wherever it is asked about; infinity passes where there is no upper limit; and nothing asks
whether the ring can be kept in nanoseconds. For every other number the checks say what they mean.

## Main definitions

* `ringRetention` — the retention that `main` computes for the ring
* `Limits` — what a configuration is supposed to satisfy
* `lastNumber` — what the arguments say about a number

## Main results

* `limits_iff`
-/

namespace EggVision

open Floating Outcome

/-- `static_cast<std::uint64_t>`, which is only defined for what fits. -/
def castUInt64 : Value → Option ℕ
  | .finite q => if -1 < q ∧ q < 2 ^ 64 then some q.floor.toNat else none
  | .nan | .infinite _ => none

/-- `ring_retention_ns` in `main`. -/
def ringRetention (rounding : Rounding) (seconds : Value) : Option ℕ :=
  castUInt64 (rounding.add (rounding.mul seconds (.finite 1000000000)) (.finite (1 / 2)))

/-- What is asked of a configuration that records events. -/
structure EventLimits (rounding : Rounding) (config : AppConfig) : Prop where
  preSeconds : .finite 0 < config.eventPreSeconds ∧ config.eventPreSeconds.isFinite = true
  postSeconds : .finite 0 < config.eventPostSeconds ∧ config.eventPostSeconds.isFinite = true
  cooldownSeconds : .finite 0 ≤ config.eventCooldownSeconds
  ringSeconds : minimumRing rounding config ≤ config.eventRingSeconds
  retention : (ringRetention rounding config.eventRingSeconds).isSome = true

/-- What is asked of every configuration. -/
structure Limits (rounding : Rounding) (config : AppConfig) : Prop where
  confidence : .finite 0 ≤ config.confidenceThreshold ∧ config.confidenceThreshold ≤ .finite 1
  nms : .finite 0 ≤ config.nmsThreshold ∧ config.nmsThreshold ≤ .finite 1
  inferenceThreads : 1 ≤ config.inferenceThreads
  rtspMaxSessions : 1 ≤ config.rtspMaxSessions
  bitrate : 1 ≤ config.bitrate
  gop : 1 ≤ config.gop
  events : config.eventRecordingEnabled = true → EventLimits rounding config

/-! ### What the arguments say -/

/-- The options for numbers that need not be whole, and their fields. -/
def ValueOption.numberField : ValueOption → Option (AppConfig → Value)
  | .confidence => some AppConfig.confidenceThreshold
  | .nms => some AppConfig.nmsThreshold
  | .eventPreSeconds => some AppConfig.eventPreSeconds
  | .eventPostSeconds => some AppConfig.eventPostSeconds
  | .eventCooldownSeconds => some AppConfig.eventCooldownSeconds
  | .eventRingSeconds => some AppConfig.eventRingSeconds
  | _ => none

/-- The conversion of such an option. -/
def ValueOption.toNumber (library : FloatLibrary) (text : String) :
    ValueOption → Except Stop Value
  | .confidence | .nms => converted "stof" (library.stof text)
  | _ => converted "stod" (library.stod text)

/-- The number given last to an option, or the default. -/
def lastNumber (library : FloatLibrary) (arguments : List String) (option : ValueOption)
    (field : AppConfig → Value) : Value :=
  match (given option arguments).getLast? with
  | none => field {}
  | some text =>
    match option.toNumber library text with
    | .ok x => x
    | .error _ => .nan

/-- A flag is given. -/
def flagGiven (arguments : List String) (flag : Flag) : Bool :=
  (occurrences arguments).any fun occurrence => decide (occurrence = .flag flag)

/-- A time in seconds that, in nanoseconds and rounded, 64 bits can hold. -/
def Keepable (rounding : Rounding) (seconds : Value) : Prop :=
  ∃ q : ℚ, rounding.add (rounding.mul seconds (.finite 1000000000)) (.finite (1 / 2)) = .finite q ∧
    -1 < q ∧ q < 2 ^ 64

/-- The numbers can be compared, and those that have to be kept are not too large. -/
structure Comparable (library : FloatLibrary) (arguments : List String) : Prop where
  confidence : lastNumber library arguments .confidence AppConfig.confidenceThreshold ≠ .nan
  nms : lastNumber library arguments .nms AppConfig.nmsThreshold ≠ .nan
  preSeconds : flagGiven arguments .noEventRecording = false →
    (lastNumber library arguments .eventPreSeconds AppConfig.eventPreSeconds).isFinite = true
  postSeconds : flagGiven arguments .noEventRecording = false →
    (lastNumber library arguments .eventPostSeconds AppConfig.eventPostSeconds).isFinite = true
  cooldownSeconds : flagGiven arguments .noEventRecording = false →
    lastNumber library arguments .eventCooldownSeconds AppConfig.eventCooldownSeconds ≠ .nan
  ringSeconds : flagGiven arguments .noEventRecording = false →
    Keepable library.rounding
      (lastNumber library arguments .eventRingSeconds AppConfig.eventRingSeconds)

variable {library : FloatLibrary} {arguments : List String} {config : AppConfig}
  {option : ValueOption} {field : AppConfig → Value} {s s' : ParseState}

theorem storedBy_numberField (h : option.numberField = some field) :
    StoredBy library option (fun text => option.toNumber library text)
      fun s => field s.config := by
  cases option <;> cases h <;> exact storedBy_storage _

/-- A field of an accepted configuration holds the number that the arguments say. -/
theorem field_eq_lastNumber
    (hrun : (occurrences arguments).foldlM (Occurrence.apply library) {} = .ok s)
    (hoption : option.numberField = some field) :
    field s.config = lastNumber library arguments option field := by
  have hlast := ((storedBy_numberField hoption).last hrun).2
  unfold lastNumber
  cases htext : (given option arguments).getLast? with
  | none =>
    rw [htext] at hlast
    exact hlast
  | some text =>
    rw [htext] at hlast
    simp only at hlast ⊢
    rw [hlast]

/-- Only the flag turns the recording of events off. -/
theorem eventRecordingEnabled_eq
    (hrun : (occurrences arguments).foldlM (Occurrence.apply library) s = .ok s') :
    s'.config.eventRecordingEnabled =
      (s.config.eventRecordingEnabled && !flagGiven arguments .noEventRecording) := by
  unfold flagGiven
  generalize occurrences arguments = occs at hrun
  induction occs generalizing s with
  | nil =>
    cases hrun
    simp
  | cons occ occs ih =>
    rw [List.foldlM_cons] at hrun
    obtain ⟨s₁, hfirst, hrest⟩ := bind_ok hrun
    rw [ih hrest, List.any_cons]
    cases occ with
    | flag switch =>
      cases hfirst
      cases switch <;> simp [Flag.set, ParseState.update]
    | value option text =>
      have hkept : s₁.config.eventRecordingEnabled = s.config.eventRecordingEnabled := by
        cases option <;> first
          | (cases hfirst; rfl)
          | (obtain ⟨_, -, rfl⟩ := map_ok hfirst; rfl)
      simp [hkept]

/-! ### The checks -/

/-- What no check complains about, as the checks put it. -/
structure Unchallenged (rounding : Rounding) (config : AppConfig) : Prop where
  confidence : ¬ config.confidenceThreshold < .finite 0 ∧ ¬ .finite 1 < config.confidenceThreshold
  nms : ¬ config.nmsThreshold < .finite 0 ∧ ¬ .finite 1 < config.nmsThreshold
  inferenceThreads : config.inferenceThreads ≠ 0
  rtspMaxSessions : config.rtspMaxSessions ≠ 0
  bitrate : config.bitrate ≠ 0
  gop : config.gop ≠ 0
  preSeconds : config.eventRecordingEnabled = true → ¬ config.eventPreSeconds ≤ .finite 0
  postSeconds : config.eventRecordingEnabled = true → ¬ config.eventPostSeconds ≤ .finite 0
  cooldownSeconds : config.eventRecordingEnabled = true →
    ¬ config.eventCooldownSeconds < .finite 0
  ringSeconds : config.eventRecordingEnabled = true →
    ¬ config.eventRingSeconds < minimumRing rounding config

theorem unchallenged {rounding : Rounding}
    (h : ∀ check ∈ checks rounding config, check.1 = false) : Unchallenged rounding config := by
  rw [checks, List.forall_mem_append] at h
  obtain ⟨halways, hevents⟩ := h
  simp only [List.forall_mem_cons, Bool.or_eq_false_iff, decide_eq_false_iff_not,
    List.not_mem_nil, false_imp_iff, implies_true, and_true] at halways
  obtain ⟨-, ⟨⟨⟨hconfidence, hconfidence'⟩, hnms⟩, hnms'⟩, hthreads, hsessions, hbitrate, hgop⟩ :=
    halways
  have hrecording : config.eventRecordingEnabled = true →
      ((¬ config.eventPreSeconds ≤ .finite 0 ∧ ¬ config.eventPostSeconds ≤ .finite 0) ∧
        ¬ config.eventCooldownSeconds < .finite 0) ∧
        ¬ config.eventRingSeconds < minimumRing rounding config := by
    intro hrecording
    simp only [hrecording, if_true, List.forall_mem_cons, Bool.or_eq_false_iff,
      decide_eq_false_iff_not] at hevents
    exact ⟨hevents.2.1.1, hevents.2.2.1⟩
  exact ⟨⟨hconfidence, hconfidence'⟩, ⟨hnms, hnms'⟩, hthreads, hsessions, hbitrate, hgop,
    fun h => (hrecording h).1.1.1, fun h => (hrecording h).1.1.2, fun h => (hrecording h).1.2,
    fun h => (hrecording h).2⟩

/-! ### Where they say what they mean -/

theorem ne_nan_of_isFinite {x : Value} (h : x.isFinite = true) : x ≠ .nan := by
  rintro rfl
  cases h

/-- A number that is neither below nor above the limits is between them, unless it is NaN. -/
theorem between_iff {x : Value} {lo hi : ℚ} (h : ¬ x < .finite lo ∧ ¬ .finite hi < x) :
    .finite lo ≤ x ∧ x ≤ .finite hi ↔ x ≠ .nan := by
  refine ⟨fun hle hnan => ?_, fun hnumber => ?_⟩
  · rw [hnan] at hle
    exact Value.not_le_nan _ hle.1
  · exact ⟨(Value.le_iff_not_lt (by simp) hnumber).mpr h.1,
      (Value.le_iff_not_lt hnumber (by simp)).mpr h.2⟩

/-- A finite number that is not at most zero is positive. -/
theorem positive_of_isFinite {x : Value} (hfinite : x.isFinite = true) (h : ¬ x ≤ .finite 0) :
    .finite 0 < x :=
  not_not.mp fun hnot =>
    h ((Value.le_iff_not_lt (ne_nan_of_isFinite hfinite) (by simp)).mpr hnot)

/-- The shortest ring that is accepted is a number when the pre-roll is finite. -/
theorem minimumRing_ne_nan {rounding : Rounding} (hpre : config.eventPreSeconds.isFinite = true)
    (hgop : config.gop ≠ 0) : minimumRing rounding config ≠ .nan := by
  have hgroup : rounding.div (.finite config.gop) (.finite config.fps) ≠ .nan := by
    simp only [Rounding.div]
    split
    · exact rounding.round_ne_nan _
    · simp [hgop]
  refine rounding.add_ne_nan ?_
  cases hvalue : config.eventPreSeconds with
  | finite q =>
    rw [rounding.add_comm]
    exact rounding.add_ne_nan hgroup
  | nan | infinite negative => simp [hvalue, Value.isFinite] at hpre

theorem isSome_ringRetention {rounding : Rounding} {x : Value} :
    (ringRetention rounding x).isSome = true ↔ Keepable rounding x := by
  rw [ringRetention, Keepable]
  cases rounding.add (rounding.mul x (.finite 1000000000)) (.finite (1 / 2)) with
  | finite q => simp [castUInt64]
  | nan | infinite negative => simp [castUInt64]

/-- A ring that can be kept is given by a number. -/
theorem Keepable.ne_nan {rounding : Rounding} {x : Value} (h : Keepable rounding x) :
    x ≠ .nan := by
  rintro rfl
  obtain ⟨q, hq, -⟩ := h
  cases hq

/-- **When an accepted configuration keeps its limits**: if none of the numbers it was given last
is NaN, pre-roll and post-roll are finite, and the ring can be kept in nanoseconds. -/
theorem limits_iff (h : parseArguments library arguments = .ok config) :
    Limits library.rounding config ↔ Comparable library arguments := by
  obtain ⟨s, hrun, rfl, hchecks⟩ := parseArguments_spec h
  have hpass := unchallenged hchecks
  have hfield : ∀ {option field}, ValueOption.numberField option = some field →
      field (withDefaults s) = lastNumber library arguments option field := by
    intro option field hoption
    rw [← field_eq_lastNumber hrun hoption]
    cases option <;> cases hoption <;> rfl
  have hrecording : (withDefaults s).eventRecordingEnabled = true ↔
      flagGiven arguments .noEventRecording = false := by
    rw [show (withDefaults s).eventRecordingEnabled = s.config.eventRecordingEnabled from rfl,
      eventRecordingEnabled_eq hrun]
    simp
  constructor
  · rintro ⟨hconfidence, hnms, -, -, -, -, hevents⟩
    refine ⟨?_, ?_, fun hon => ?_, fun hon => ?_, fun hon => ?_, fun hon => ?_⟩
    · rw [← hfield rfl]
      exact (between_iff hpass.confidence).mp hconfidence
    · rw [← hfield rfl]
      exact (between_iff hpass.nms).mp hnms
    · rw [← hfield rfl]
      exact (hevents (hrecording.mpr hon)).preSeconds.2
    · rw [← hfield rfl]
      exact (hevents (hrecording.mpr hon)).postSeconds.2
    · rw [← hfield rfl]
      intro hnan
      have hcooldown := (hevents (hrecording.mpr hon)).cooldownSeconds
      rw [hnan] at hcooldown
      exact Value.not_le_nan _ hcooldown
    · rw [← hfield rfl]
      exact isSome_ringRetention.mp (hevents (hrecording.mpr hon)).retention
  · rintro ⟨hconfidence, hnms, hpre, hpost, hcooldown, hring⟩
    rw [← hfield rfl] at hconfidence hnms hpre hpost hcooldown hring
    refine ⟨(between_iff hpass.confidence).mpr hconfidence, (between_iff hpass.nms).mpr hnms,
      Nat.one_le_iff_ne_zero.mpr hpass.inferenceThreads,
      Nat.one_le_iff_ne_zero.mpr hpass.rtspMaxSessions, Nat.one_le_iff_ne_zero.mpr hpass.bitrate,
      Nat.one_le_iff_ne_zero.mpr hpass.gop, fun hon => ?_⟩
    have hoff := hrecording.mp hon
    exact {
      preSeconds := ⟨positive_of_isFinite (hpre hoff) (hpass.preSeconds hon), hpre hoff⟩
      postSeconds := ⟨positive_of_isFinite (hpost hoff) (hpass.postSeconds hon), hpost hoff⟩
      cooldownSeconds := (Value.le_iff_not_lt (by simp) (hcooldown hoff)).mpr
        (hpass.cooldownSeconds hon)
      ringSeconds := (Value.le_iff_not_lt (minimumRing_ne_nan (hpre hoff) hpass.gop)
        (hring hoff).ne_nan).mpr (hpass.ringSeconds hon)
      retention := isSome_ringRetention.mpr (hring hoff) }

/-- A library that reads a few texts, in the way the standard library does. -/
def someFloats : FloatLibrary :=
  { rounding := exact
    stof := fun text => if text = "nan" then some .nan else some (.finite (1 / 2))
    stod := fun text =>
      if text = "2.5" then some (.finite (5 / 2))
      else if text = "1e12" then some (.finite 1000000000000) else none }

/-- A longer pre-roll that the ring still covers. -/
theorem limits_iff_longer :
    ∃ config, parseArguments someFloats ["--event-pre-seconds", "2.5"] = .ok config ∧
      config.eventPreSeconds = .finite (5 / 2) ∧ Limits exact config := by
  obtain ⟨config, hok, hpre⟩ := exists_ok
    (parseArguments someFloats ["--event-pre-seconds", "2.5"])
    (fun config => config.eventPreSeconds = .finite (5 / 2)) (by decide +kernel)
  refine ⟨config, hok, hpre, (limits_iff hok).mpr ⟨?_, ?_, ?_, ?_, ?_, fun _ => ?_⟩⟩
  case refine_6 => exact isSome_ringRetention.mp (by decide +kernel)
  all_goals decide +kernel

/-- A threshold that is not a number is accepted, and so is a ring whose retention has no place in
64 bits. -/
theorem not_limits :
    ∃ config, parseArguments someFloats ["--confidence", "nan", "--event-ring-seconds", "1e12"] =
        .ok config ∧ ¬ .finite 0 ≤ config.confidenceThreshold ∧
      ringRetention exact config.eventRingSeconds = none ∧ ¬ Limits exact config := by
  obtain ⟨config, hok, hconfidence, hring⟩ := exists_ok
    (parseArguments someFloats ["--confidence", "nan", "--event-ring-seconds", "1e12"])
    (fun config => ¬ .finite 0 ≤ config.confidenceThreshold ∧
      ringRetention exact config.eventRingSeconds = none) (by decide +kernel)
  exact ⟨config, hok, hconfidence, hring, fun hlimits => hconfidence hlimits.confidence.1⟩

end EggVision
