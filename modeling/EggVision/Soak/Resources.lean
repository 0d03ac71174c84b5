import EggVision.Lib.Outcome
import Mathlib.Algebra.Order.Field.Rat
import Mathlib.Data.List.Sort
import Mathlib.Data.Rat.Floor

/-!
# The resources of a soak run

`verify_resource_stability` looks for leaks: it compares the last samples of a run with the median
of some early ones. The early ones have to lie before the last ones at every length of the log, or a
leak would raise its own limit.

## Main definitions

* `ResourceSample`, `verifyResourceStability`
* `LargerTail` — a log that differs only in that the last samples are larger

## Main results

* `accepted_iff` — the checks as conditions on the samples
* `leakCheck_monotone`
-/

namespace EggVision

open Outcome

/-- A parsed sample. `timestamp` is in seconds. -/
structure ResourceSample where
  timestamp : ℚ
  rssKb : ℕ
  fdCount : ℕ
  temperature : ℚ
  throttled : ℕ
  line : String := ""
deriving DecidableEq, Repr

/-- What `verify_resource_stability` raises, with what the message tells. The last one stands for
the errors that Python raises by itself. -/
inductive ResourceError
  | insufficientSamples (samples : ℕ) (minimum : ℤ)
  | invalidGap (gap : ℚ)
  | insufficientCoverage (coverage minimum : ℚ)
  | throttling (line : String)
  | rssCeiling (rssKb : ℕ)
  | fdCeiling (fdCount : ℕ)
  | rssGrowth (baseline : ℚ) (tailMax : ℕ) (limit : ℚ)
  | fdGrowth (baseline : ℚ) (tailMax : ℕ) (limit : ℚ)
  | emptySequence
deriving DecidableEq, Repr

/-- What `verify_resource_stability` returns. -/
structure ResourceReport where
  resourceSamples : ℕ
  coverageSeconds : ℚ
  rssBaselineKb : ℚ
  rssTailKb : ℚ
  rssTailMaxKb : ℕ
  rssFinalKb : ℕ
  rssPeakKb : ℕ
  fdBaseline : ℚ
  fdTail : ℚ
  fdTailMax : ℕ
  fdFinal : ℕ
  fdPeak : ℕ
  minimumTemperature : ℚ
  maximumTemperature : ℚ
deriving DecidableEq, Repr

/-- `statistics.median`. -/
def median (data : List ℕ) : Option ℚ :=
  let sorted := data.insertionSort (· ≤ ·)
  let n := sorted.length
  if n % 2 = 1 then sorted[n / 2]?.map fun x => (x : ℚ)
  else do
    let low ← if n = 0 then none else sorted[n / 2 - 1]?
    let high ← sorted[n / 2]?
    some (((low : ℚ) + high) / 2)

/-! ### The checks -/

def minimumResourceSamples (duration : ℚ) : ℤ := max 2 ⌊duration / 30 * (4 / 5)⌋

/-- The loop over neighbours. -/
def checkGaps : List ℚ → Except ResourceError Unit
  | previous :: current :: rest => do
    refuse (decide (current - previous ≤ 0) || decide (65 < current - previous))
      (.invalidGap (current - previous))
    checkGaps (current :: rest)
  | _ => .ok ()

/-- The first and the last time, not too close to one another. -/
def checkCoverage (duration : ℚ) (timestamps : List ℚ) : Except ResourceError ℚ :=
  match timestamps.head?, timestamps.getLast? with
  | some first, some last => do
    refuse (decide (last - first < max 0 (duration - 2 * 30)))
      (.insufficientCoverage (last - first) (max 0 (duration - 2 * 30)))
    .ok (last - first)
  | _, _ => .error .emptySequence

/-- The loop over the samples. -/
def checkSamples : List ResourceSample → Except ResourceError Unit
  | [] => .ok ()
  | sample :: samples => do
    refuse (decide (sample.throttled &&& 0xF ≠ 0)) (.throttling sample.line)
    refuse (decide (512 * 1024 < sample.rssKb)) (.rssCeiling sample.rssKb)
    refuse (decide (1024 < sample.fdCount)) (.fdCeiling sample.fdCount)
    checkSamples samples

def windowSize (samples : ℕ) : ℕ := min 5 (max 1 (samples / 4))

def baselineStart (samples : ℕ) : ℕ := min 4 (max 0 (samples / 3))

def baselineOf (samples : List ResourceSample) : List ResourceSample :=
  (samples.drop (baselineStart samples.length)).take (windowSize samples.length)

def tailOf (samples : List ResourceSample) : List ResourceSample :=
  samples.drop (samples.length - windowSize samples.length)

/-- A baseline, and a tail that has not outgrown it. -/
structure Growth where
  baseline : ℚ
  tail : ℚ
  tailMax : ℕ
deriving DecidableEq, Repr

/-- The comparison of the tail with the baseline, for one of the two resources. -/
def checkGrowth (floor ratio : ℚ) (error : ℚ → ℕ → ℚ → ResourceError) (baseline tail : List ℕ) :
    Except ResourceError Growth :=
  match median baseline, median tail, tail.max? with
  | some baselineMedian, some tailMedian, some tailMax => do
    let limit := max floor (baselineMedian * ratio)
    refuse (decide (limit < tailMax - baselineMedian)) (error baselineMedian tailMax limit)
    .ok { baseline := baselineMedian, tail := tailMedian, tailMax }
  | _, _, _ => .error .emptySequence

def checkRssGrowth (samples : List ResourceSample) : Except ResourceError Growth :=
  checkGrowth (16 * 1024) (1 / 5) .rssGrowth ((baselineOf samples).map ResourceSample.rssKb)
    ((tailOf samples).map ResourceSample.rssKb)

def checkFdGrowth (samples : List ResourceSample) : Except ResourceError Growth :=
  checkGrowth 16 (1 / 4) .fdGrowth ((baselineOf samples).map ResourceSample.fdCount)
    ((tailOf samples).map ResourceSample.fdCount)

/-- `verify_resource_stability`, on the samples of the log. -/
def verifyResourceStability (samples : List ResourceSample) (duration : ℚ) :
    Except ResourceError ResourceReport := do
  refuse (decide ((samples.length : ℤ) < minimumResourceSamples duration))
    (.insufficientSamples samples.length (minimumResourceSamples duration))
  checkGaps (samples.map ResourceSample.timestamp)
  let coverage ← checkCoverage duration (samples.map ResourceSample.timestamp)
  checkSamples samples
  let rss ← checkRssGrowth samples
  let fd ← checkFdGrowth samples
  .ok {
    resourceSamples := samples.length
    coverageSeconds := coverage
    rssBaselineKb := rss.baseline
    rssTailKb := rss.tail
    rssTailMaxKb := rss.tailMax
    rssFinalKb := (samples.getLast?.map ResourceSample.rssKb).getD 0
    rssPeakKb := (samples.map ResourceSample.rssKb).max?.getD 0
    fdBaseline := fd.baseline
    fdTail := fd.tail
    fdTailMax := fd.tailMax
    fdFinal := (samples.getLast?.map ResourceSample.fdCount).getD 0
    fdPeak := (samples.map ResourceSample.fdCount).max?.getD 0
    minimumTemperature := (samples.map ResourceSample.temperature).min?.getD 0
    maximumTemperature := (samples.map ResourceSample.temperature).max?.getD 0 }

/-! ### The windows -/

variable {samples samples' : List ResourceSample} {duration : ℚ}

/-- The early samples end before the last ones begin, however many there are. -/
theorem windows_apart {n : ℕ} (h : 2 ≤ n) :
    0 < windowSize n ∧ baselineStart n + windowSize n ≤ n - windowSize n := by
  unfold windowSize baselineStart
  omega

theorem length_baselineOf (h : 2 ≤ samples.length) :
    (baselineOf samples).length = windowSize samples.length := by
  obtain ⟨-, happart⟩ := windows_apart h
  rw [baselineOf, List.length_take, List.length_drop]
  omega

theorem length_tailOf (h : 2 ≤ samples.length) :
    (tailOf samples).length = windowSize samples.length := by
  obtain ⟨-, happart⟩ := windows_apart h
  rw [tailOf, List.length_drop]
  omega

theorem baselineOf_ne_nil (h : 2 ≤ samples.length) : baselineOf samples ≠ [] :=
  List.ne_nil_of_length_pos ((length_baselineOf h).symm ▸ (windows_apart h).1)

theorem tailOf_ne_nil (h : 2 ≤ samples.length) : tailOf samples ≠ [] :=
  List.ne_nil_of_length_pos ((length_tailOf h).symm ▸ (windows_apart h).1)

/-- The early samples are found before the last ones. -/
theorem baselineOf_eq (h : 2 ≤ samples.length) :
    baselineOf samples =
      ((samples.take (samples.length - windowSize samples.length)).drop
        (baselineStart samples.length)).take (windowSize samples.length) := by
  obtain ⟨-, happart⟩ := windows_apart h
  rw [baselineOf, List.drop_take, List.take_take, Nat.min_eq_left (by omega)]

/-! ### The checks as conditions -/

theorem exists_median {data : List ℕ} (h : data ≠ []) : ∃ m, median data = some m := by
  have hlength : 0 < (data.insertionSort (· ≤ ·)).length := by
    rw [List.length_insertionSort]
    exact List.length_pos_iff.mpr h
  simp only [median]
  split
  · rw [List.getElem?_eq_getElem (by omega)]
    exact ⟨_, rfl⟩
  · rw [if_neg (by omega), List.getElem?_eq_getElem (by omega), List.getElem?_eq_getElem (by omega)]
    exact ⟨_, rfl⟩

/-- No value is further above the baseline than is allowed. -/
def Bounded (floor ratio : ℚ) (baseline tail : List ℕ) : Prop :=
  ∃ m, median baseline = some m ∧ ∀ v ∈ tail, (v : ℚ) - m ≤ max floor (m * ratio)

/-- The largest value of the tail decides for all of them. -/
theorem checkGrowth_ok_iff {floor ratio : ℚ} {error : ℚ → ℕ → ℚ → ResourceError}
    {baseline tail : List ℕ} (hbaseline : baseline ≠ []) (htail : tail ≠ []) :
    (∃ growth, checkGrowth floor ratio error baseline tail = .ok growth) ↔
      Bounded floor ratio baseline tail := by
  obtain ⟨m, hm⟩ := exists_median hbaseline
  obtain ⟨k, hk⟩ := exists_median htail
  obtain ⟨top, htop⟩ := Option.isSome_iff_exists.mp (List.isSome_max?_iff.mpr htail)
  obtain ⟨hmem, hmax⟩ := List.max?_eq_some_iff.mp htop
  simp only [checkGrowth, hm, hk, htop, Bounded, Option.some.injEq, exists_eq_left']
  constructor
  · rintro ⟨growth, h⟩ v hv
    obtain ⟨_, hrefuse, -⟩ := bind_ok h
    have htopbound := not_lt.mp (of_decide_eq_false (refuse_ok_iff.mp hrefuse))
    have hle : (v : ℚ) ≤ top := by exact_mod_cast hmax v hv
    exact (sub_le_sub_right hle m).trans htopbound
  · intro hall
    refine exists_bind_ok_iff.mpr ⟨(), refuse_ok_iff.mpr ?_, _, rfl⟩
    exact decide_eq_false (not_lt.mpr (hall top hmem))

theorem checkSamples_ok_iff :
    checkSamples samples = .ok () ↔ ∀ sample ∈ samples,
      sample.throttled &&& 0xF = 0 ∧ sample.rssKb ≤ 512 * 1024 ∧ sample.fdCount ≤ 1024 := by
  induction samples with
  | nil => simp [checkSamples]
  | cons sample samples ih =>
    rw [List.forall_mem_cons, ← ih]
    constructor
    · intro h
      obtain ⟨_, hthrottled, h⟩ := bind_ok h
      obtain ⟨_, hrss, h⟩ := bind_ok h
      obtain ⟨_, hfd, h⟩ := bind_ok h
      rw [refuse_ok_iff, decide_eq_false_iff_not] at hthrottled hrss hfd
      exact ⟨⟨not_not.mp hthrottled, not_lt.mp hrss, not_lt.mp hfd⟩, h⟩
    · rintro ⟨⟨hthrottled, hrss, hfd⟩, h⟩
      simp only [checkSamples, refuse, hthrottled, not_lt.mpr hrss, not_lt.mpr hfd, h]
      rfl

/-- What the checks of an accepted log have established. -/
structure Stable (samples : List ResourceSample) (duration : ℚ) : Prop where
  enough : minimumResourceSamples duration ≤ samples.length
  gaps : checkGaps (samples.map ResourceSample.timestamp) = .ok ()
  coverage : ∃ c, checkCoverage duration (samples.map ResourceSample.timestamp) = .ok c
  ceilings : ∀ sample ∈ samples,
    sample.throttled &&& 0xF = 0 ∧ sample.rssKb ≤ 512 * 1024 ∧ sample.fdCount ≤ 1024
  rss : Bounded (16 * 1024) (1 / 5) ((baselineOf samples).map ResourceSample.rssKb)
    ((tailOf samples).map ResourceSample.rssKb)
  fd : Bounded 16 (1 / 4) ((baselineOf samples).map ResourceSample.fdCount)
    ((tailOf samples).map ResourceSample.fdCount)

theorem two_le_of_enough (h : minimumResourceSamples duration ≤ samples.length) :
    2 ≤ samples.length := by
  have htwo : (2 : ℤ) ≤ samples.length := (le_max_left _ _).trans h
  exact_mod_cast htwo

/-- **A log is accepted if and only if its samples satisfy the conditions.** -/
theorem accepted_iff :
    (∃ report, verifyResourceStability samples duration = .ok report) ↔
      Stable samples duration := by
  have hgrowth : ∀ {floor ratio : ℚ} {error : ℚ → ℕ → ℚ → ResourceError}
      {f : ResourceSample → ℕ}, 2 ≤ samples.length →
      ((∃ growth, checkGrowth floor ratio error ((baselineOf samples).map f)
          ((tailOf samples).map f) = .ok growth) ↔
        Bounded floor ratio ((baselineOf samples).map f) ((tailOf samples).map f)) :=
    fun h => checkGrowth_ok_iff (by simpa using baselineOf_ne_nil h)
      (by simpa using tailOf_ne_nil h)
  constructor
  · rintro ⟨report, h⟩
    obtain ⟨_, henough, h⟩ := bind_ok h
    obtain ⟨_, hgaps, h⟩ := bind_ok h
    obtain ⟨coverage, hcoverage, h⟩ := bind_ok h
    obtain ⟨_, hsamples, h⟩ := bind_ok h
    obtain ⟨rss, hrss, h⟩ := bind_ok h
    obtain ⟨fd, hfd, -⟩ := bind_ok h
    have hlength := not_lt.mp (of_decide_eq_false (refuse_ok_iff.mp henough))
    have htwo := two_le_of_enough hlength
    exact ⟨hlength, hgaps, ⟨coverage, hcoverage⟩, checkSamples_ok_iff.mp hsamples,
      (hgrowth htwo).mp ⟨rss, hrss⟩, (hgrowth htwo).mp ⟨fd, hfd⟩⟩
  · rintro ⟨henough, hgaps, ⟨coverage, hcoverage⟩, hceilings, hrss, hfd⟩
    have htwo := two_le_of_enough henough
    obtain ⟨rss, hrss⟩ := (hgrowth htwo).mpr hrss
    obtain ⟨fd, hfd⟩ := (hgrowth htwo).mpr hfd
    refine exists_bind_ok_iff.mpr ⟨(), refuse_ok_iff.mpr (decide_eq_false (not_lt.mpr henough)), ?_⟩
    refine exists_bind_ok_iff.mpr ⟨(), hgaps, ?_⟩
    refine exists_bind_ok_iff.mpr ⟨coverage, hcoverage, ?_⟩
    refine exists_bind_ok_iff.mpr ⟨(), checkSamples_ok_iff.mpr hceilings, ?_⟩
    refine exists_bind_ok_iff.mpr ⟨rss, hrss, ?_⟩
    exact exists_bind_ok_iff.mpr ⟨fd, hfd, _, rfl⟩

/-! ### Late growth -/

/-- The same sample with the same or larger resources. -/
structure ResourceSample.Grown (sample sample' : ResourceSample) : Prop where
  timestamp : sample'.timestamp = sample.timestamp
  throttled : sample'.throttled = sample.throttled
  rssKb : sample.rssKb ≤ sample'.rssKb
  fdCount : sample.fdCount ≤ sample'.fdCount

/-- The logs differ only in that resources of the last samples are larger in the second. -/
structure LargerTail (samples samples' : List ResourceSample) : Prop where
  before : samples'.take (samples.length - windowSize samples.length) =
    samples.take (samples.length - windowSize samples.length)
  tail : List.Forall₂ ResourceSample.Grown (tailOf samples)
    (samples'.drop (samples.length - windowSize samples.length))

theorem LargerTail.length_eq (h : LargerTail samples samples') :
    samples'.length = samples.length := by
  have hbefore := congrArg List.length h.before
  have htail := h.tail.length_eq
  rw [List.length_take, List.length_take] at hbefore
  rw [tailOf, List.length_drop, List.length_drop] at htail
  omega

theorem LargerTail.tailOf (h : LargerTail samples samples') :
    List.Forall₂ ResourceSample.Grown (tailOf samples) (tailOf samples') := by
  have htail := h.tail
  rwa [← h.length_eq] at htail

theorem ResourceSample.Grown.refl (sample : ResourceSample) : sample.Grown sample :=
  ⟨rfl, rfl, le_refl _, le_refl _⟩

/-- Sample by sample, the second log has grown. -/
theorem LargerTail.grown (h : LargerTail samples samples') :
    List.Forall₂ ResourceSample.Grown samples samples' := by
  have hbefore : List.Forall₂ ResourceSample.Grown
      (samples.take (samples.length - windowSize samples.length))
      (samples'.take (samples.length - windowSize samples.length)) := by
    rw [h.before]
    exact List.forall₂_same.mpr fun sample _ => .refl sample
  have hall := List.rel_append hbefore h.tail
  beta_reduce at hall
  rwa [EggVision.tailOf, List.take_append_drop, List.take_append_drop] at hall

theorem timestamps_grown (h : List.Forall₂ ResourceSample.Grown samples samples') :
    samples'.map ResourceSample.timestamp = samples.map ResourceSample.timestamp := by
  induction h with
  | nil => rfl
  | cons hgrown _ ih => rw [List.map_cons, List.map_cons, hgrown.timestamp, ih]

theorem exists_grown (h : List.Forall₂ ResourceSample.Grown samples samples') :
    ∀ sample ∈ samples, ∃ sample' ∈ samples', sample.Grown sample' := by
  induction h with
  | nil => simp
  | cons hgrown _ ih =>
    refine List.forall_mem_cons.mpr ⟨⟨_, List.mem_cons_self, hgrown⟩, fun sample hsample => ?_⟩
    obtain ⟨sample', hsample', hgrown'⟩ := ih sample hsample
    exact ⟨sample', List.mem_cons_of_mem _ hsample', hgrown'⟩

theorem LargerTail.baselineOf (h : LargerTail samples samples') (hlength : 2 ≤ samples.length) :
    baselineOf samples' = baselineOf samples := by
  rw [baselineOf_eq hlength, baselineOf_eq (h.length_eq.symm ▸ hlength), h.length_eq, h.before]

/-- A smaller tail is bounded where a larger one is. -/
theorem LargerTail.bounded (h : LargerTail samples samples') (hlength : 2 ≤ samples.length)
    {floor ratio : ℚ} {f : ResourceSample → ℕ}
    (hf : ∀ {sample sample' : ResourceSample}, sample.Grown sample' → f sample ≤ f sample')
    (hbounded : Bounded floor ratio ((EggVision.baselineOf samples').map f)
      ((EggVision.tailOf samples').map f)) :
    Bounded floor ratio ((EggVision.baselineOf samples).map f)
      ((EggVision.tailOf samples).map f) := by
  obtain ⟨m, hm, hall⟩ := hbounded
  rw [h.baselineOf hlength] at hm
  refine ⟨m, hm, fun v hv => ?_⟩
  obtain ⟨sample, hsample, rfl⟩ := List.mem_map.mp hv
  obtain ⟨sample', hsample', hgrown⟩ := exists_grown h.tailOf sample hsample
  have hle : (f sample : ℚ) ≤ f sample' := by exact_mod_cast hf hgrown
  exact (sub_le_sub_right hle m).trans (hall _ (List.mem_map_of_mem hsample'))

/-- A log that is accepted is accepted with a smaller tail as well. -/
theorem LargerTail.stable (h : LargerTail samples samples') (hstable : Stable samples' duration) :
    Stable samples duration := by
  have hlength : 2 ≤ samples.length := h.length_eq ▸ two_le_of_enough hstable.enough
  have htimestamps := timestamps_grown h.grown
  refine ⟨h.length_eq ▸ hstable.enough, htimestamps ▸ hstable.gaps,
    htimestamps ▸ hstable.coverage, fun sample hsample => ?_, ?_, ?_⟩
  · obtain ⟨sample', hsample', hgrown⟩ := exists_grown h.grown sample hsample
    obtain ⟨hthrottled, hrss, hfd⟩ := hstable.ceilings sample' hsample'
    exact ⟨hgrown.throttled ▸ hthrottled, hgrown.rssKb.trans hrss, hgrown.fdCount.trans hfd⟩
  · exact h.bounded hlength (fun hgrown => hgrown.rssKb) hstable.rss
  · exact h.bounded hlength (fun hgrown => hgrown.fdCount) hstable.fd

/-- The log is refused. -/
def Refused (samples : List ResourceSample) (duration : ℚ) : Prop :=
  ∃ error, verifyResourceStability samples duration = .error error

theorem refused_iff : Refused samples duration ↔ ¬ Stable samples duration := by
  rw [← accepted_iff, Refused]
  cases verifyResourceStability samples duration <;> simp

/-- **The leak check is monotone in late growth.** Its two windows are not empty and do not overlap;
a log with a larger tail is refused where the one with the smaller tail is; and in an accepted log
no value of the tail is above the median of the baseline by more than is allowed. -/
theorem leakCheck_monotone (samples samples' : List ResourceSample) (duration : ℚ) :
    (2 ≤ samples.length → baselineOf samples ≠ [] ∧ tailOf samples ≠ [] ∧
        baselineStart samples.length + (baselineOf samples).length ≤
          samples.length - (tailOf samples).length) ∧
      (LargerTail samples samples' → Refused samples duration → Refused samples' duration) ∧
      ∀ report, verifyResourceStability samples duration = .ok report →
        (∃ m, median ((baselineOf samples).map ResourceSample.rssKb) = some m ∧
          ∀ sample ∈ tailOf samples, (sample.rssKb : ℚ) - m ≤ max 16384 (m * (20 / 100))) ∧
        ∃ m, median ((baselineOf samples).map ResourceSample.fdCount) = some m ∧
          ∀ sample ∈ tailOf samples, (sample.fdCount : ℚ) - m ≤ max 16 (m * (25 / 100)) := by
  refine ⟨fun h => ?_, fun h => ?_, fun report h => ?_⟩
  · rw [length_baselineOf h, length_tailOf h]
    exact ⟨baselineOf_ne_nil h, tailOf_ne_nil h, (windows_apart h).2⟩
  · rw [refused_iff, refused_iff]
    exact mt h.stable
  · obtain ⟨-, -, -, -, ⟨m, hm, hrss⟩, m', hm', hfd⟩ := accepted_iff.mp ⟨report, h⟩
    refine ⟨⟨m, hm, fun sample hsample => ?_⟩, m', hm', fun sample hsample => ?_⟩
    · have hle := hrss _ (List.mem_map_of_mem hsample)
      norm_num at hle ⊢
      exact hle
    · have hle := hfd _ (List.mem_map_of_mem hsample)
      norm_num at hle ⊢
      exact hle

/-- A sample of a run that does nothing else. -/
def sampleAt (timestamp : ℚ) (rssKb : ℕ) : ResourceSample :=
  { timestamp, rssKb, fdCount := 20, temperature := 50, throttled := 0 }

/-- A leak of 20000 KiB is found, and so is a larger one. -/
theorem leakCheck_monotone_leak :
    Refused [sampleAt 0 100000, sampleAt 30 100000, sampleAt 60 120001] 60 ∧
      Refused [sampleAt 0 100000, sampleAt 30 100000, sampleAt 60 150000] 60 := by
  have hleak : Refused [sampleAt 0 100000, sampleAt 30 100000, sampleAt 60 120001] 60 :=
    ⟨.rssGrowth 100000 120001 20000, by decide +kernel⟩
  have hlarger : LargerTail [sampleAt 0 100000, sampleAt 30 100000, sampleAt 60 120001]
      [sampleAt 0 100000, sampleAt 30 100000, sampleAt 60 150000] :=
    ⟨by decide +kernel, .cons ⟨rfl, rfl, by decide, by decide⟩ .nil⟩
  exact ⟨hleak, (leakCheck_monotone _ _ 60).2.1 hlarger hleak⟩

end EggVision
