import EggVision.Config.Arguments

/-!
# Unsigned options

Seven options are read with `std::stoul` or `std::stoull`, five of them into 32 bits. None of them
looks at what follows the digits, at a minus sign or at the upper half of what it gets, and the
checks come later. So a text is stored as it is written only if it is a number and nothing else, and
if that fits.

## Main definitions

* `ValueOption.unsignedField` — the seven options, each with its width and its field

## Main results

* `unsigned_stored_iff`
-/

namespace EggVision

open Floating DecimalText Outcome

/-- The unsigned options, with the width of the field and the field. -/
def ValueOption.unsignedField : ValueOption → Option (ℕ × (AppConfig → ℕ))
  | .maxRtspSessions => some (32, AppConfig.rtspMaxSessions)
  | .bitrate => some (32, AppConfig.bitrate)
  | .gop => some (32, AppConfig.gop)
  | .inferenceThreads => some (32, AppConfig.inferenceThreads)
  | .duration => some (32, AppConfig.durationSeconds)
  | .eventRingMaxBytes => some (64, AppConfig.eventRingMaxBytes)
  | .eventMinFreeBytes => some (64, AppConfig.eventMinFreeBytes)
  | _ => none

variable {library : FloatLibrary} {arguments : List String} {config : AppConfig}
  {option : ValueOption} {bits : ℕ} {field : AppConfig → ℕ}

/-- The conversion of an unsigned option. -/
def ValueOption.toField (text : String) : ValueOption → Except Stop ℕ
  | .eventRingMaxBytes | .eventMinFreeBytes => converted "stoull" (stoul text)
  | _ => toUnsigned text

theorem storedBy_unsignedField (h : option.unsignedField = some (bits, field)) :
    StoredBy library option (fun text => option.toField text) fun s => field s.config := by
  cases option <;> cases h <;> exact storedBy_storage _

/-- Giving the number of threads at all is remembered. -/
theorem storedBy_threadsOverridden :
    StoredBy library .inferenceThreads (fun text => (toUnsigned text).map fun _ => true)
      ParseState.threadsOverridden := by
  refine ⟨fun {text s s'} hs => ?_, fun {option'} hne {text s s'} hs => ?_, fun flag s => ?_⟩
  · obtain ⟨n, hn, rfl⟩ := map_ok hs
    rw [hn]
    rfl
  · cases option' <;> first
      | exact absurd rfl hne
      | (cases hs; rfl)
      | (obtain ⟨_, -, rfl⟩ := map_ok hs; rfl)
  · cases flag <;> rfl

theorem converted_ok {α : Type} {name : String} {x : Option α} {a : α}
    (h : converted name x = .ok a) : x = some a := by
  cases x with
  | none => cases h
  | some b => exact congrArg some (Except.ok.inj h)

/-- What an unsigned option makes of a text: what `std::stoul` makes of it, cut to the width. -/
theorem toField_ok (hoption : option.unsignedField = some (bits, field)) {text : String} {n : ℕ}
    (h : option.toField text = .ok n) : ∃ m, stoul text = some m ∧ n = m % 2 ^ bits := by
  have hwide : ∀ {name : String}, converted name (stoul text) = .ok n →
      ∃ m, stoul text = some m ∧ n = m % 2 ^ 64 := fun hconverted =>
    ⟨n, converted_ok hconverted, (Nat.mod_eq_of_lt (stoul_lt (converted_ok hconverted))).symm⟩
  have hnarrow : toUnsigned text = .ok n → ∃ m, stoul text = some m ∧ n = m % 2 ^ 32 := by
    intro hconverted
    obtain ⟨m, hm, rfl⟩ := map_ok hconverted
    exact ⟨m, converted_ok hm, rfl⟩
  cases option <;> cases hoption
  case eventRingMaxBytes | eventMinFreeBytes => exact hwide h
  all_goals exact hnarrow h

/-- The defaults that come after the loop leave a number of threads that was given alone. -/
theorem field_withDefaults (hoption : option.unsignedField = some (bits, field)) {s : ParseState}
    (hthreads : option = .inferenceThreads → s.threadsOverridden = true) :
    field (withDefaults s) = field s.config := by
  cases option <;> cases hoption
  case inferenceThreads => simp [withDefaults, hthreads rfl]
  all_goals rfl

/-- In an accepted list, every text given to an unsigned option has been converted, and the field
holds the last of them. -/
theorem unsigned_last (h : parseArguments library arguments = .ok config)
    (hoption : option.unsignedField = some (bits, field)) :
    (∀ text ∈ given option arguments, ∃ m, stoul text = some m) ∧
      ∀ text ∈ (given option arguments).getLast?,
        ∃ m, stoul text = some m ∧ field config = m % 2 ^ bits := by
  obtain ⟨s, hrun, rfl, -⟩ := parseArguments_spec h
  obtain ⟨hall, hlast⟩ := (storedBy_unsignedField hoption).last hrun
  refine ⟨fun text htext => ?_, fun text htext => ?_⟩
  · obtain ⟨n, hn⟩ := hall text htext
    obtain ⟨m, hm, -⟩ := toField_ok hoption hn
    exact ⟨m, hm⟩
  · rw [Option.mem_def] at htext
    rw [htext] at hlast
    obtain ⟨m, hm, hfield⟩ := toField_ok hoption hlast
    refine ⟨m, hm, (field_withDefaults hoption ?_).trans hfield⟩
    rintro rfl
    have hthreads := (storedBy_threadsOverridden.last hrun).2
    rw [htext] at hthreads
    obtain ⟨_, -, htrue⟩ := map_ok hthreads
    exact htrue

/-- **When unsigned options are stored as they are written**: if every text that is given to one of
them is a plain number, and the last one fits the width of its field. -/
theorem unsigned_stored_iff (h : parseArguments library arguments = .ok config) :
    (∀ option bits field, ValueOption.unsignedField option = some (bits, field) →
        (∀ text ∈ given option arguments, Plain text.toList) ∧
          ∀ text ∈ (given option arguments).getLast?, field config = value text.toList) ↔
      ∀ option bits field, ValueOption.unsignedField option = some (bits, field) →
        (∀ text ∈ given option arguments, Plain text.toList) ∧
          ∀ text ∈ (given option arguments).getLast?, value text.toList < 2 ^ bits := by
  refine forall₃_congr fun option bits field => forall_congr' fun hoption =>
    and_congr_right fun hplain => forall₂_congr fun text htext => ?_
  obtain ⟨m, hm, hfield⟩ := (unsigned_last h hoption).2 text htext
  rw [stoul_plain (hplain text (List.mem_of_getLast? htext))] at hm
  have hvalue : m = value text.toList := by
    split at hm <;> cases hm
    rfl
  rw [hfield, hvalue, Nat.mod_eq_iff_lt (Nat.ne_of_gt (Nat.two_pow_pos bits))]

/-- A library that reads no number at all. -/
def noFloats : FloatLibrary := { rounding := exact, stof := fun _ => none, stod := fun _ => none }

/-- An option that is given twice. -/
theorem unsigned_stored_iff_twice :
    ∃ config, parseArguments noFloats ["--gop", "24", "--duration", "60", "--gop", "48"] =
        .ok config ∧ config.gop = 48 ∧
      ∀ option bits field, ValueOption.unsignedField option = some (bits, field) →
        ∀ text ∈ (given option ["--gop", "24", "--duration", "60", "--gop", "48"]).getLast?,
          field config = value text.toList := by
  obtain ⟨config, hok, hgop⟩ := exists_ok
    (parseArguments noFloats ["--gop", "24", "--duration", "60", "--gop", "48"])
    (fun config => config.gop = 48) (by decide +kernel)
  refine ⟨config, hok, hgop, fun option bits field hoption => ?_⟩
  refine ((unsigned_stored_iff hok).mpr (fun option bits field hoption => ?_) option bits field
    hoption).2
  cases option <;> cases hoption <;> decide +kernel

/-- The unit that a bit rate is given in is not read, and neither is the upper half of a number. -/
theorem unsigned_not_stored :
    ∃ config, parseArguments noFloats ["--bitrate", "4M", "--duration", "4294967297"] =
        .ok config ∧ config.bitrate = 4 ∧ config.durationSeconds = 1 ∧
      ¬ ∀ option bits field, ValueOption.unsignedField option = some (bits, field) →
        (∀ text ∈ given option ["--bitrate", "4M", "--duration", "4294967297"],
          Plain text.toList) ∧
        ∀ text ∈ (given option ["--bitrate", "4M", "--duration", "4294967297"]).getLast?,
          field config = value text.toList := by
  obtain ⟨config, hok, hbitrate, hduration⟩ := exists_ok
    (parseArguments noFloats ["--bitrate", "4M", "--duration", "4294967297"])
    (fun config => config.bitrate = 4 ∧ config.durationSeconds = 1) (by decide +kernel)
  refine ⟨config, hok, hbitrate, hduration, fun hall => ?_⟩
  have hstored := (hall .duration 32 AppConfig.durationSeconds rfl).2 "4294967297"
    (by decide +kernel)
  rw [hduration] at hstored
  exact absurd hstored (by decide +kernel)

end EggVision
