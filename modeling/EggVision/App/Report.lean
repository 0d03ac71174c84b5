import EggVision.App.Records
import Mathlib.Tactic.Linarith
import Mathlib.Tactic.Positivity

/-!
# The reports

Every few seconds the loop of `main` reports what has been counted, and rates: how much a counter
has grown since the last report, by the time since then. Doubles are rationals here.

## Main definitions

* `Reporting.report` — a report, if one is due
* `reports` — those of a run of the loop
* `Frames` — what a rate says about two reports

## Main results

* `isChain_reports` — the rates of a report say how many frames came since the one before
-/

namespace EggVision

/-- `config.metrics_interval_seconds`, which no argument changes. -/
def metricsIntervalSeconds : ℕ := 5

/-- What a turn of the loop finds: the steady clock, in nanoseconds, and what is counted. -/
structure Sample where
  now : ℕ
  metrics : Metrics
  ring : EncodedRingStats
deriving DecidableEq, Repr

/-- The local variables of `main` that reports need. -/
structure Reporting where
  started : ℕ
  lastReport : ℕ
  lastCapture : UInt64 := 0
  lastRtsp : UInt64 := 0
  lastInference : UInt64 := 0
  inferenceBackend : BackendName
  modelSha256 : ModelFingerprint

namespace Reporting

/-- `started = last_report = now`. -/
def begin (now : ℕ) (inferenceBackend : BackendName) (modelSha256 : ModelFingerprint) : Reporting :=
  { started := now, lastReport := now, inferenceBackend, modelSha256 }

def rate (count last : UInt64) (seconds : ℚ) : ℚ := (count - last).toNat / seconds

def averageMs (totalUs inferred : UInt64) : ℚ :=
  if inferred = 0 then 0 else totalUs.toNat / 1000 / inferred.toNat

/-- The rest of the body of the loop. `none` is the `continue`. -/
def report (s : Reporting) (sample : Sample) : Option (Report × Reporting) :=
  if sample.now - s.lastReport < metricsIntervalSeconds * 10 ^ 9 then none
  else
    let seconds : ℚ := (sample.now - s.lastReport : ℕ) / 10 ^ 9
    let metrics := sample.metrics
    some
      ({ uptimeMs := (sample.now - s.started) / 10 ^ 6
         captureFps := rate metrics.captured s.lastCapture seconds
         rtspFps := rate metrics.rtspPushed s.lastRtsp seconds
         inferenceFps := rate metrics.inferenceProcessed s.lastInference seconds
         averageInferenceMs := averageMs metrics.inferenceTotalUs metrics.inferenceProcessed
         averageInputMs := averageMs metrics.inferenceInputTotalUs metrics.inferenceProcessed
         metrics, ring := sample.ring
         inferenceBackend := s.inferenceBackend, modelSha256 := s.modelSha256 },
       { s with
         lastReport := sample.now
         lastCapture := metrics.captured
         lastRtsp := metrics.rtspPushed
         lastInference := metrics.inferenceProcessed })

/-- The reports of a run of the loop, each with what it was made from. -/
def reports : Reporting → List Sample → List (Sample × Report)
  | _, [] => []
  | s, sample :: samples =>
    match s.report sample with
    | some (report, s) => (sample, report) :: s.reports samples
    | none => s.reports samples

end Reporting

/-! ### Frames between two reports -/

/-- The frames between two turns of the loop, by what is counted. -/
structure Frames (x y : Sample) (capture rtsp inference : ℚ) : Prop where
  captured : y.metrics.captured.toNat - x.metrics.captured.toNat = capture
  pushed : y.metrics.rtspPushed.toNat - x.metrics.rtspPushed.toNat = rtsp
  inferred : y.metrics.inferenceProcessed.toNat - x.metrics.inferenceProcessed.toNat = inference

/-- The seconds between two turns of the loop. -/
def Sample.seconds (x y : Sample) : ℚ := ((y.now : ℚ) - x.now) / 10 ^ 9

/-- The counters are only ever added to. -/
structure Sample.Grown (x y : Sample) : Prop where
  captured : x.metrics.captured ≤ y.metrics.captured
  pushed : x.metrics.rtspPushed ≤ y.metrics.rtspPushed
  inferred : x.metrics.inferenceProcessed ≤ y.metrics.inferenceProcessed

instance (x y : Sample) : Decidable (x.Grown y) :=
  decidable_of_iff (x.metrics.captured ≤ y.metrics.captured ∧
      x.metrics.rtspPushed ≤ y.metrics.rtspPushed ∧
      x.metrics.inferenceProcessed ≤ y.metrics.inferenceProcessed)
    ⟨fun ⟨h, h', h''⟩ => ⟨h, h', h''⟩, fun h => ⟨h.captured, h.pushed, h.inferred⟩⟩

/-- What a report says about the time since the one before. -/
structure Follows (x y : Sample × Report) : Prop where
  later : x.1.now + metricsIntervalSeconds * 10 ^ 9 ≤ y.1.now
  frames : Frames x.1 y.1 (y.2.captureFps * x.1.seconds y.1) (y.2.rtspFps * x.1.seconds y.1)
    (y.2.inferenceFps * x.1.seconds y.1)

open Reporting

variable {s s' : Reporting} {x sample : Sample} {report : Report} {samples : List Sample}

/-- The last report was made from `x`. -/
structure Reporting.After (s : Reporting) (x : Sample) : Prop where
  lastReport : s.lastReport = x.now
  lastCapture : s.lastCapture = x.metrics.captured
  lastRtsp : s.lastRtsp = x.metrics.rtspPushed
  lastInference : s.lastInference = x.metrics.inferenceProcessed

theorem rate_mul {count last : UInt64} {seconds : ℚ} (h : last ≤ count) (hseconds : 0 < seconds) :
    rate count last seconds * seconds = count.toNat - last.toNat := by
  have hle : last.toNat ≤ count.toNat := UInt64.le_iff_toNat_le.mp h
  rw [rate, div_mul_cancel₀ _ hseconds.ne', UInt64.toNat_sub_of_le _ _ h, Nat.cast_sub hle]

/-- One report. -/
theorem follows_of_report (h : s.After x) (hgrown : x.Grown sample)
    (hs : s.report sample = some (report, s')) (previous : Report) :
    Follows (x, previous) (sample, report) ∧ s'.After sample := by
  unfold Reporting.report at hs
  split_ifs at hs with hdue
  obtain ⟨rfl, rfl⟩ := Prod.mk.inj (Option.some.inj hs)
  have hlater : x.now + metricsIntervalSeconds * 10 ^ 9 ≤ sample.now := by
    rw [h.lastReport] at hdue
    unfold metricsIntervalSeconds at hdue ⊢
    omega
  have hnext : x.now < sample.now := by
    unfold metricsIntervalSeconds at hlater
    omega
  have hseconds : ((sample.now - s.lastReport : ℕ) : ℚ) / 10 ^ 9 = x.seconds sample := by
    rw [h.lastReport, Sample.seconds, Nat.cast_sub hnext.le]
  have hpos : 0 < x.seconds sample := by
    have hnow : (x.now : ℚ) < sample.now := Nat.cast_lt.mpr hnext
    exact div_pos (by linarith) (by norm_num)
  refine ⟨⟨hlater, ?_⟩, ⟨rfl, rfl, rfl, rfl⟩⟩
  dsimp only
  rw [hseconds, h.lastCapture, h.lastRtsp, h.lastInference]
  exact ⟨(rate_mul hgrown.captured hpos).symm, (rate_mul hgrown.pushed hpos).symm,
    (rate_mul hgrown.inferred hpos).symm⟩

theorem isChain_reports_cons (h : s.After x) (hx : ∀ y ∈ samples, x.Grown y)
    (hsamples : samples.Pairwise Sample.Grown) (previous : Report) :
    ((x, previous) :: s.reports samples).IsChain Follows := by
  induction samples generalizing s x previous with
  | nil => exact .singleton _
  | cons sample samples ih =>
    obtain ⟨hsample, hlater⟩ := List.pairwise_cons.mp hsamples
    have hx' : ∀ y ∈ samples, x.Grown y := fun y hy => hx y (List.mem_cons_of_mem sample hy)
    rw [reports]
    cases hreport : s.report sample with
    | none => exact ih h hx' hlater previous
    | some result =>
      obtain ⟨report, s'⟩ := result
      obtain ⟨hfollows, hafter⟩ :=
        follows_of_report h (hx sample List.mem_cons_self) hreport previous
      exact .cons_cons hfollows (ih hafter hsample hlater report)

theorem mem_of_mem_reports : ∀ y ∈ s.reports samples, y.1 ∈ samples := by
  induction samples generalizing s with
  | nil => simp [reports]
  | cons sample samples ih =>
    rw [reports]
    intro y hy
    cases hreport : s.report sample with
    | none =>
      rw [hreport] at hy
      exact List.mem_cons_of_mem sample (ih y hy)
    | some result =>
      rw [hreport] at hy
      rcases List.mem_cons.mp hy with rfl | hy
      · exact List.mem_cons_self
      · exact List.mem_cons_of_mem sample (ih y hy)

/-- Uptimes count from the beginning. -/
theorem uptime_reports (hstarted : s.started ≤ s.lastReport) : ∀ y ∈ s.reports samples,
    s.started ≤ y.1.now ∧ y.2.uptimeMs = (y.1.now - s.started) / 10 ^ 6 := by
  induction samples generalizing s with
  | nil => simp [reports]
  | cons sample samples ih =>
    rw [reports]
    cases hreport : s.report sample with
    | none => exact ih hstarted
    | some result =>
      obtain ⟨report, s'⟩ := result
      unfold Reporting.report at hreport
      split_ifs at hreport with hdue
      obtain ⟨rfl, rfl⟩ := Prod.mk.inj (Option.some.inj hreport)
      have hnow : s.started ≤ sample.now := by
        unfold metricsIntervalSeconds at hdue
        omega
      exact List.forall_mem_cons.mpr ⟨⟨hnow, rfl⟩, ih hnow⟩

/-- **The rates of a report say how many frames came since the one before.** -/
theorem isChain_reports {now : ℕ} {backend : BackendName} {fingerprint : ModelFingerprint}
    (hsamples : samples.Pairwise Sample.Grown) :
    ((Reporting.begin now backend fingerprint).reports samples).IsChain Follows := by
  have hstart : (Reporting.begin now backend fingerprint).After
      { now, metrics := {}, ring := {} } := ⟨rfl, rfl, rfl, rfl⟩
  have hgrown : ∀ y ∈ samples, Sample.Grown { now, metrics := {}, ring := {} } y := by
    intro y _
    exact ⟨UInt64.zero_le, UInt64.zero_le, UInt64.zero_le⟩
  have hchain := isChain_reports_cons hstart hgrown hsamples default
  exact hchain.tail

end EggVision
