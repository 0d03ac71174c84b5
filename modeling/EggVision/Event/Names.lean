import EggVision.Lib.Digits
import Mathlib.Data.List.Basic

/-!
# The names of events

An event is named by the local time of its trigger and by the sequence number of its frame. What
`localtime_r` fills in is an argument, with its ranges; `strftime` is modelled for the three formats
the recorder uses. Years have at least four digits.

## Main definitions

* `LocalTime`, `WallTime`
* `formatEventId`, `formatDate`, `formatWallTime`
* `partialName` — the name of a directory that is still being written

## Main results

* `formatEventId_inj` — what an id can be read back to
* `unhidden_formatEventId`, `unhidden_formatDate` — no name of an event is a hidden one
-/

namespace EggVision

open Digits

/-- `std::tm`, with the offset that `%z` prints. -/
structure LocalTime where
  year : ℕ
  month : Fin 13
  day : Fin 32
  hour : Fin 24
  minute : Fin 60
  second : Fin 61
  west : Bool
  offsetHours : Fin 100
  offsetMinutes : Fin 60
deriving DecidableEq, Repr

/-- A point of `system_clock`, to the millisecond. -/
structure WallTime where
  localTime : LocalTime
  milliseconds : Fin 1000
deriving DecidableEq, Repr

namespace LocalTime

/-- `%Y%m%d` with a separator. -/
def date (separator : List Char) (time : LocalTime) : List Char :=
  padded 4 time.year ++ separator ++ padded 2 time.month ++ separator ++ padded 2 time.day

/-- `%H%M%S` with a separator. -/
def clock (separator : List Char) (time : LocalTime) : List Char :=
  padded 2 time.hour ++ separator ++ padded 2 time.minute ++ separator ++ padded 2 time.second

/-- `%z` with a separator. -/
def offset (separator : List Char) (time : LocalTime) : List Char :=
  (if time.west then '-' else '+') ::
    (padded 2 time.offsetHours ++ separator ++ padded 2 time.offsetMinutes)

end LocalTime

def formatEventId (wallTime : WallTime) (sequence : ℕ) : String :=
  String.ofList (wallTime.localTime.date [] ++ 'T' :: wallTime.localTime.clock [] ++
    '.' :: padded 3 wallTime.milliseconds ++ wallTime.localTime.offset [] ++
    ['_', 's', 'e', 'q'] ++ Nat.toDigits 10 sequence)

def formatDate (wallTime : WallTime) : String :=
  String.ofList (wallTime.localTime.date ['-'])

def formatWallTime (wallTime : WallTime) : String :=
  String.ofList (wallTime.localTime.date ['-'] ++ 'T' :: wallTime.localTime.clock [':'] ++
    '.' :: padded 3 wallTime.milliseconds ++ wallTime.localTime.offset [':'])

/-- `"." + job.id + ".partial"`. -/
def partialName (id : String) : String := "." ++ id ++ ".partial"

/-! ### Reading names back -/

/-- Two texts that are cut behind the same number of characters. -/
theorem append_inj_of_length {l l' m m' : List Char} {n : ℕ} (h : l ++ m = l' ++ m')
    (hl : l.length = n) (hl' : l'.length = n) : l = l' ∧ m = m' :=
  List.append_inj h (hl.trans hl'.symm)

/-- Two texts that are cut at the first character that is no digit. -/
theorem append_inj_of_digits {l l' m m' : List Char} {c : Char} (hc : c.isDigit = false)
    (hl : ∀ d ∈ l, d.isDigit = true) (hl' : ∀ d ∈ l', d.isDigit = true)
    (h : l ++ c :: m = l' ++ c :: m') : l = l' ∧ m = m' := by
  have htake : ∀ k n : List Char, (∀ d ∈ k, d.isDigit = true) →
      (k ++ c :: n).takeWhile Char.isDigit = k := by
    intro k n hk
    rw [List.takeWhile_append_of_pos hk]
    simp [hc]
  have heq : l = l' := by rw [← htake l m hl, h, htake l' m' hl']
  subst heq
  exact ⟨rfl, (List.cons.inj (List.append_cancel_left h)).2⟩

namespace LocalTime

variable {time time' : LocalTime}

theorem isDigit_of_mem_date {c : Char} (h : c ∈ time.date []) : c.isDigit = true := by
  simp only [date, List.append_nil, List.mem_append] at h
  rcases h with (h | h) | h <;> exact isDigit_of_mem_padded h

theorem date_inj (h : time.date [] = time'.date []) :
    time.year = time'.year ∧ time.month = time'.month ∧ time.day = time'.day := by
  simp only [date, List.append_nil] at h
  obtain ⟨h, hday⟩ := List.append_inj' h (by
    rw [length_padded (by omega) (by omega), length_padded (by omega) (by omega)])
  obtain ⟨hyear, hmonth⟩ := List.append_inj' h (by
    rw [length_padded (by omega) (by omega), length_padded (by omega) (by omega)])
  exact ⟨padded_injective hyear, Fin.ext (padded_injective hmonth), Fin.ext (padded_injective hday)⟩

theorem length_clock : (time.clock []).length = 6 := by
  simp only [clock, List.append_nil, List.length_append]
  rw [length_padded (by omega) (by omega), length_padded (by omega) (by omega),
    length_padded (by omega) (by omega)]

theorem clock_inj (h : time.clock [] = time'.clock []) :
    time.hour = time'.hour ∧ time.minute = time'.minute ∧ time.second = time'.second := by
  simp only [clock, List.append_nil] at h
  obtain ⟨h, hsecond⟩ := List.append_inj' h (by
    rw [length_padded (by omega) (by omega), length_padded (by omega) (by omega)])
  obtain ⟨hhour, hminute⟩ := List.append_inj' h (by
    rw [length_padded (by omega) (by omega), length_padded (by omega) (by omega)])
  exact ⟨Fin.ext (padded_injective hhour), Fin.ext (padded_injective hminute),
    Fin.ext (padded_injective hsecond)⟩

theorem length_offset : (time.offset []).length = 5 := by
  simp only [offset, List.append_nil, List.length_cons, List.length_append]
  rw [length_padded (by omega) (by omega), length_padded (by omega) (by omega)]

theorem offset_inj (h : time.offset [] = time'.offset []) :
    time.west = time'.west ∧ time.offsetHours = time'.offsetHours ∧
      time.offsetMinutes = time'.offsetMinutes := by
  simp only [offset, List.append_nil, List.cons.injEq] at h
  obtain ⟨hsign, h⟩ := h
  obtain ⟨hhours, hminutes⟩ := List.append_inj' h (by
    rw [length_padded (by omega) (by omega), length_padded (by omega) (by omega)])
  refine ⟨?_, Fin.ext (padded_injective hhours), Fin.ext (padded_injective hminutes)⟩
  cases hwest : time.west <;> cases hwest' : time'.west <;> simp_all

end LocalTime

/-- **An id names one trigger**: the local time to the millisecond, its offset, and the frame. -/
theorem formatEventId_inj {wallTime wallTime' : WallTime} {sequence sequence' : ℕ} :
    formatEventId wallTime sequence = formatEventId wallTime' sequence' ↔
      wallTime = wallTime' ∧ sequence = sequence' := by
  refine ⟨fun h => ?_, fun ⟨h, h'⟩ => by rw [h, h']⟩
  have h := String.ofList_injective h
  simp only [List.append_assoc, List.cons_append] at h
  obtain ⟨hdate, h⟩ := append_inj_of_digits rfl (fun _ => LocalTime.isDigit_of_mem_date)
    (fun _ => LocalTime.isDigit_of_mem_date) h
  obtain ⟨hclock, h⟩ := append_inj_of_length h LocalTime.length_clock LocalTime.length_clock
  simp only [List.cons.injEq, true_and] at h
  obtain ⟨hmilliseconds, h⟩ := append_inj_of_length h (length_padded (by omega) (by omega))
    (length_padded (by omega) (by omega))
  obtain ⟨hoffset, h⟩ := append_inj_of_length h LocalTime.length_offset LocalTime.length_offset
  simp only [List.nil_append, List.cons.injEq, true_and] at h
  obtain ⟨hyear, hmonth, hday⟩ := LocalTime.date_inj hdate
  obtain ⟨hhour, hminute, hsecond⟩ := LocalTime.clock_inj hclock
  obtain ⟨hwest, hhours, hminutes⟩ := LocalTime.offset_inj hoffset
  have hsequence : sequence = sequence' := by
    rw [← Nat.ofDigitChars_ten_toDigits (n := sequence), h, Nat.ofDigitChars_ten_toDigits]
  have hmilliseconds := Fin.ext (padded_injective hmilliseconds)
  refine ⟨?_, hsequence⟩
  clear h
  rcases wallTime with ⟨⟨⟩, _⟩
  rcases wallTime' with ⟨⟨⟩, _⟩
  simp_all

def someWallTime : WallTime where
  localTime :=
    { year := 2026, month := 1, day := 2, hour := 3, minute := 4, second := 5
      west := false, offsetHours := 1, offsetMinutes := 0 }
  milliseconds := 6

example : formatEventId someWallTime 7 = "20260102T030405.006+0100_seq7" := by decide

example : formatWallTime someWallTime = "2026-01-02T03:04:05.006+01:00" := by decide

/-! ### Hidden names -/

/-- Not a name that starts with a dot. -/
def Unhidden (name : String) : Prop := ∃ c rest, name.toList = c :: rest ∧ c ≠ '.'

theorem not_unhidden_append {hidden : String} (h : hidden.toList.head? = some '.') (rest : String) :
    ¬ Unhidden (hidden ++ rest) := by
  rintro ⟨c, tail, heq, hc⟩
  obtain ⟨more, hmore⟩ := List.head?_eq_some_iff.mp h
  rw [String.toList_append, hmore, List.cons_append] at heq
  exact hc (List.cons.inj heq).1.symm

theorem not_unhidden_partialName (id : String) : ¬ Unhidden (partialName id) := by
  rw [partialName, String.append_assoc]
  exact not_unhidden_append (by decide +kernel) _

theorem partialName_ne {name id : String} (h : Unhidden name) : name ≠ partialName id := by
  rintro rfl
  exact not_unhidden_partialName id h

theorem unhidden_of_digits {name : String} (width n : ℕ) {rest : List Char}
    (h : name.toList = padded width n ++ rest) : Unhidden name := by
  obtain ⟨c, digits, hdigits⟩ : ∃ c digits, padded width n = c :: digits := by
    refine List.exists_cons_of_ne_nil fun hnil => ?_
    exact Nat.toDigits_ne_nil (List.append_eq_nil_iff.mp hnil).2
  refine ⟨c, digits ++ rest, by rw [h, hdigits, List.cons_append], ?_⟩
  rintro rfl
  have := isDigit_of_mem_padded (hdigits ▸ List.mem_cons_self : '.' ∈ padded width n)
  cases this

theorem unhidden_formatEventId (wallTime : WallTime) (sequence : ℕ) :
    Unhidden (formatEventId wallTime sequence) :=
  unhidden_of_digits 4 wallTime.localTime.year (by simp [formatEventId, LocalTime.date]; rfl)

theorem unhidden_formatDate (wallTime : WallTime) : Unhidden (formatDate wallTime) :=
  unhidden_of_digits 4 wallTime.localTime.year (by simp [formatDate, LocalTime.date]; rfl)

end EggVision
