import EggVision.Lib.Outcome
import EggVision.Lib.Sampling
import Mathlib.Algebra.Order.Field.Rat
import Mathlib.Data.Rat.Floor
import Mathlib.Tactic.Linarith

/-!
# The metrics of a soak run

`verify_metrics` decides from the metrics records of a run whether the camera, the stream and the
detector kept up. It does not look at the time between two records, so what it accepts has to leave
no room between them: the gaps, the first record after the warm-up and the last one together cover
the run. Numbers are rationals here where the script has `float`.

## Main definitions

* `MetricsRow`, `verifyMetrics`

## Main results

* `verifyMetrics_spec` — what an accepted log says about every moment of the run
-/

namespace EggVision

open Outcome Sampling

/-- What `row.get` finds: a number, one that is not finite, or no number at all. -/
inductive MetricValue
  | finite (q : ℚ)
  | nonFinite
  | other
deriving DecidableEq, Repr

/-- A metrics record, with the fields that are read. -/
structure MetricsRow where
  uptimeMs : MetricValue
  captureFps : MetricValue
  rtspFps : MetricValue
  inferenceFps : MetricValue
deriving DecidableEq, Repr

inductive MetricField
  | uptimeMs
  | captureFps
  | rtspFps
  | inferenceFps
deriving DecidableEq, Repr

def MetricsRow.get (row : MetricsRow) : MetricField → MetricValue
  | .uptimeMs => row.uptimeMs
  | .captureFps => row.captureFps
  | .rtspFps => row.rtspFps
  | .inferenceFps => row.inferenceFps

/-- What `verify_metrics` raises, with what the message tells. -/
inductive MetricsError
  | noRecords
  | invalid (field : MetricField) (index : ℕ)
  | nonFinite (field : MetricField) (index : ℕ)
  | negativeUptime (index : ℕ) (uptimeMs : ℚ)
  | invalidGap (gaps : List ℚ)
  | insufficient (measured : ℕ) (minimum : ℤ)
  | startedLate (uptime : ℚ)
  | endedEarly (uptime minimum : ℚ)
  | insufficientCoverage (coverage minimum : ℚ)
  | fellBelow (field : MetricField) (threshold : ℚ) (indexes : List ℕ)
  | indexOutOfRange
deriving DecidableEq, Repr

/-- What `verify_metrics` returns. -/
structure MetricsReport where
  metrics : ℕ
  measuredMetrics : ℕ
  firstMeasuredUptime : ℚ
  lastMeasuredUptime : ℚ
  coverage : ℚ
  maxGap : ℚ
  minimumCaptureFps : ℚ
  minimumRtspFps : ℚ
  minimumInferenceFps : ℚ
deriving DecidableEq, Repr

def metricNumber (row : MetricsRow) (field : MetricField) (index : ℕ) : Except MetricsError ℚ :=
  match row.get field with
  | .finite q => .ok q
  | .nonFinite => .error (.nonFinite field index)
  | .other => .error (.invalid field index)

/-- The body of the first loop: the uptime of a record in seconds. The rates only have to be
numbers. -/
def readUptime (row : MetricsRow) (index : ℕ) : Except MetricsError ℚ := do
  let uptimeMs ← metricNumber row .uptimeMs index
  refuse (decide (uptimeMs < 0)) (.negativeUptime index uptimeMs)
  let _ ← metricNumber row .captureFps index
  let _ ← metricNumber row .rtspFps index
  let _ ← metricNumber row .inferenceFps index
  .ok (uptimeMs / 1000)

def readUptimes : List MetricsRow → ℕ → Except MetricsError (List ℚ)
  | [], _ => .ok []
  | row :: rows, index => do
    let uptime ← readUptime row index
    let uptimes ← readUptimes rows (index + 1)
    .ok (uptime :: uptimes)

/-- The differences of neighbours. -/
def gapsOf (uptimes : List ℚ) : List ℚ :=
  List.zipWith (fun previous current => current - previous) uptimes uptimes.tail

/-- A measured record, with its index and its uptime. -/
structure Measured where
  index : ℕ
  row : MetricsRow
  uptime : ℚ

/-- The records after the warm-up. -/
def measuredFrom : List MetricsRow → List ℚ → ℕ → List Measured
  | row :: rows, uptime :: uptimes, index =>
    if 60 ≤ uptime then { index, row, uptime } :: measuredFrom rows uptimes (index + 1)
    else measuredFrom rows uptimes (index + 1)
  | _, _, _ => []

def minimumSamples (duration : ℚ) : ℤ := max 1 ⌊max 0 (duration - 60) / 5 * (4 / 5)⌋

/-- The indexes of the measured records that a rate is too low in. -/
def failures (field : MetricField) (threshold : ℚ) : List Measured → Except MetricsError (List ℕ)
  | [] => .ok []
  | m :: measured => do
    let number ← metricNumber m.row field m.index
    let later ← failures field threshold measured
    .ok (if number < threshold then m.index :: later else later)

def thresholds : List (MetricField × ℚ) :=
  [(.captureFps, 25), (.rtspFps, 25), (.inferenceFps, 8)]

def checkThresholds (measured : List Measured) : List (MetricField × ℚ) → Except MetricsError Unit
  | [] => .ok ()
  | (field, threshold) :: rest => do
    let failed ← failures field threshold measured
    refuse (!failed.isEmpty) (.fellBelow field threshold (failed.take 10))
    checkThresholds measured rest

/-- The checks that follow, once there is a first and a last measured record. -/
def checkWindow (duration first last : ℚ) : Except MetricsError Unit := do
  refuse (decide (60 + 15 / 2 < first)) (.startedLate first)
  refuse (decide (last < max 0 (duration - 15 / 2))) (.endedEarly last (max 0 (duration - 15 / 2)))
  refuse (decide (last - first < max 0 (duration - 60 - 2 * (15 / 2))))
    (.insufficientCoverage (last - first) (max 0 (duration - 60 - 2 * (15 / 2))))

/-- The least value of a rate among the measured records. -/
def lowest (field : MetricField) (measured : List Measured) : ℚ :=
  ((measured.filterMap fun m =>
    match m.row.get field with
    | .finite q => some q
    | .nonFinite | .other => none).min?).getD 0

/-- `verify_metrics`, on the records of the log. -/
def verifyMetrics (rows : List MetricsRow) (duration : ℚ) :
    Except MetricsError MetricsReport := do
  refuse rows.isEmpty .noRecords
  let uptimes ← readUptimes rows 0
  let gaps := gapsOf uptimes
  let invalidGaps := gaps.filter fun gap => decide (gap ≤ 0) || decide (15 / 2 < gap)
  refuse (!invalidGaps.isEmpty) (.invalidGap (invalidGaps.take 10))
  let measured := measuredFrom rows uptimes 0
  refuse (decide ((measured.length : ℤ) < minimumSamples duration))
    (.insufficient measured.length (minimumSamples duration))
  match measured.head?, measured.getLast? with
  | some first, some last =>
    checkWindow duration first.uptime last.uptime
    checkThresholds measured thresholds
    .ok {
      metrics := rows.length
      measuredMetrics := measured.length
      firstMeasuredUptime := first.uptime
      lastMeasuredUptime := last.uptime
      coverage := last.uptime - first.uptime
      maxGap := gaps.max?.getD 0
      minimumCaptureFps := lowest .captureFps measured
      minimumRtspFps := lowest .rtspFps measured
      minimumInferenceFps := lowest .inferenceFps measured }
  | _, _ => .error .indexOutOfRange

/-! ### What the loops find -/

variable {rows : List MetricsRow} {uptimes : List ℚ} {index : ℕ} {duration : ℚ}

theorem metricNumber_ok {row : MetricsRow} {field : MetricField} {q : ℚ}
    (h : metricNumber row field index = .ok q) : row.get field = .finite q := by
  unfold metricNumber at h
  split at h
  next hfinite =>
    cases h
    exact hfinite
  · cases h
  · cases h

/-- The uptime of a record, in seconds. -/
def MetricsRow.HasUptime (row : MetricsRow) (uptime : ℚ) : Prop :=
  row.uptimeMs = .finite (uptime * 1000)

theorem readUptimes_ok (h : readUptimes rows index = .ok uptimes) :
    List.Forall₂ MetricsRow.HasUptime rows uptimes := by
  induction rows generalizing index uptimes with
  | nil =>
    cases h
    exact .nil
  | cons row rows ih =>
    obtain ⟨uptime, huptime, h⟩ := bind_ok h
    obtain ⟨later, hlater, h⟩ := bind_ok h
    cases h
    obtain ⟨ms, hms, huptime⟩ := bind_ok huptime
    obtain ⟨_, -, huptime⟩ := bind_ok huptime
    obtain ⟨_, -, huptime⟩ := bind_ok huptime
    obtain ⟨_, -, huptime⟩ := bind_ok huptime
    obtain ⟨_, -, huptime⟩ := bind_ok huptime
    cases huptime
    refine .cons ?_ (ih hlater)
    rw [MetricsRow.HasUptime, div_mul_cancel₀ ms (by norm_num)]
    exact metricNumber_ok hms

/-- Neighbours without an invalid gap between them rise, and not by much. -/
theorem dense_of_gaps
    (h : ((gapsOf uptimes).filter fun gap => decide (gap ≤ 0) || decide (15 / 2 < gap)) = []) :
    Dense (15 / 2) uptimes := by
  induction uptimes with
  | nil => exact .nil
  | cons a l ih =>
    cases l with
    | nil => exact .singleton a
    | cons b l =>
      have hgaps : gapsOf (a :: b :: l) = (b - a) :: gapsOf (b :: l) := rfl
      rw [hgaps, List.filter_cons] at h
      split at h
      · cases h
      next hvalid =>
        simp only [Bool.or_eq_true, decide_eq_true_eq, not_or, not_le, not_lt] at hvalid
        exact .cons_cons ⟨by linarith [hvalid.1], by linarith [hvalid.2]⟩ (ih h)

/-- The measured records are those of the rows whose uptime is past the warm-up. -/
theorem exists_measured_iff {row : MetricsRow} {uptime : ℚ} :
    (∃ m ∈ measuredFrom rows uptimes index, m.row = row ∧ m.uptime = uptime) ↔
      (row, uptime) ∈ rows.zip uptimes ∧ 60 ≤ uptime := by
  fun_induction measuredFrom rows uptimes index with
  | case1 r rs u us index hmeasured ih =>
    simp only [List.mem_cons, exists_eq_or_imp, ih, List.zip_cons_cons, Prod.mk.injEq]
    constructor
    · rintro (⟨rfl, rfl⟩ | ⟨hmem, hlate⟩)
      · exact ⟨Or.inl ⟨rfl, rfl⟩, hmeasured⟩
      · exact ⟨Or.inr hmem, hlate⟩
    · rintro ⟨⟨rfl, rfl⟩ | hmem, hlate⟩
      · exact Or.inl ⟨rfl, rfl⟩
      · exact Or.inr ⟨hmem, hlate⟩
  | case2 r rs u us index hwarm ih =>
    simp only [ih, List.zip_cons_cons, List.mem_cons, Prod.mk.injEq]
    constructor
    · rintro ⟨hmem, hlate⟩
      exact ⟨Or.inr hmem, hlate⟩
    · rintro ⟨⟨rfl, rfl⟩ | hmem, hlate⟩
      · exact absurd hlate hwarm
      · exact ⟨hmem, hlate⟩
  | case3 rs us index hshort =>
    have hzip : rs.zip us = [] := by
      cases rs with
      | nil => rfl
      | cons r rs =>
        cases us with
        | nil => rfl
        | cons u us => exact absurd rfl (hshort r rs u us rfl)
    simp [hzip]

theorem failures_ok {field : MetricField} {threshold : ℚ} {measured : List Measured}
    (h : failures field threshold measured = .ok []) :
    ∀ m ∈ measured, ∃ q, m.row.get field = .finite q ∧ threshold ≤ q := by
  induction measured with
  | nil => simp
  | cons m measured ih =>
    obtain ⟨number, hnumber, h⟩ := bind_ok h
    obtain ⟨later, hlater, h⟩ := bind_ok h
    rw [Except.ok.injEq] at h
    split at h
    · cases h
    next hhigh =>
      rw [h] at hlater
      exact List.forall_mem_cons.mpr ⟨⟨number, metricNumber_ok hnumber, not_lt.mp hhigh⟩, ih hlater⟩

theorem checkThresholds_ok {measured : List Measured} {limits : List (MetricField × ℚ)} {u : Unit}
    (h : checkThresholds measured limits = .ok u) :
    ∀ limit ∈ limits, ∀ m ∈ measured, ∃ q, m.row.get limit.1 = .finite q ∧ limit.2 ≤ q := by
  induction limits with
  | nil => simp
  | cons limit limits ih =>
    obtain ⟨field, threshold⟩ := limit
    obtain ⟨failed, hfailed, h⟩ := bind_ok h
    obtain ⟨_, hnone, h⟩ := bind_ok h
    have hempty : failed = [] := by simpa using refuse_ok_iff.mp hnone
    rw [hempty] at hfailed
    exact List.forall_mem_cons.mpr ⟨failures_ok hfailed, ih h⟩

/-! ### What is accepted -/

/-- The window that the measured records of an accepted log cover. -/
theorem checkWindow_ok {first last : ℚ} {u : Unit} (h : checkWindow duration first last = .ok u) :
    first ≤ 135 / 2 ∧ duration - 15 / 2 ≤ last := by
  obtain ⟨_, hlate, h⟩ := bind_ok h
  obtain ⟨_, hearly, -⟩ := bind_ok h
  have hfirst := of_decide_eq_false (refuse_ok_iff.mp hlate)
  have hlast := of_decide_eq_false (refuse_ok_iff.mp hearly)
  exact ⟨by linarith [not_lt.mp hfirst], (le_max_right _ _).trans (not_lt.mp hlast)⟩

/-- What the checks of an accepted log have established. -/
structure Verified (rows : List MetricsRow) (uptimes : List ℚ) (duration : ℚ) : Prop where
  read : List.Forall₂ MetricsRow.HasUptime rows uptimes
  dense : Dense (15 / 2) uptimes
  started : ∃ u ∈ uptimes, u ≤ 135 / 2
  ended : ∃ u ∈ uptimes, duration - 15 / 2 ≤ u
  rates : ∀ row uptime, (row, uptime) ∈ rows.zip uptimes → 60 ≤ uptime →
    ∀ limit ∈ thresholds, ∃ q, row.get limit.1 = .finite q ∧ limit.2 ≤ q

theorem verified_of_ok {report : MetricsReport} (h : verifyMetrics rows duration = .ok report) :
    ∃ uptimes, Verified rows uptimes duration := by
  obtain ⟨_, -, h⟩ := bind_ok h
  obtain ⟨uptimes, huptimes, h⟩ := bind_ok h
  obtain ⟨_, hgaps, h⟩ := bind_ok h
  obtain ⟨_, -, h⟩ := bind_ok h
  have hdense : Dense (15 / 2) uptimes := dense_of_gaps (by simpa using refuse_ok_iff.mp hgaps)
  split at h
  next first last hfirst hlast =>
    obtain ⟨_, hwindow, h⟩ := bind_ok h
    obtain ⟨_, hthresholds, -⟩ := bind_ok h
    obtain ⟨hstarted, hended⟩ := checkWindow_ok hwindow
    have hmem : ∀ m ∈ measuredFrom rows uptimes 0, m.uptime ∈ uptimes := fun m hm =>
      (List.of_mem_zip (exists_measured_iff.mp ⟨m, hm, rfl, rfl⟩).1).2
    refine ⟨uptimes, readUptimes_ok huptimes, hdense,
      ⟨_, hmem first (List.mem_of_head? hfirst), hstarted⟩,
      ⟨_, hmem last (List.mem_of_getLast? hlast), hended⟩, ?_⟩
    intro row uptime hzip hlate limit hlimit
    obtain ⟨m, hm, rfl, -⟩ := exists_measured_iff.mpr ⟨hzip, hlate⟩
    exact checkThresholds_ok hthresholds limit hlimit m hm
  · cases h

/-- No moment of the run is far from a record. -/
theorem Verified.near (h : Verified rows uptimes duration) {t : ℚ} (hstart : 135 / 2 ≤ t)
    (hend : t ≤ duration - 15 / 2) :
    (∃ u ∈ uptimes, t - 15 / 2 ≤ u ∧ u ≤ t) ∧ ∃ u ∈ uptimes, t ≤ u ∧ u ≤ t + 15 / 2 := by
  obtain ⟨first, hfirst, hstarted⟩ := h.started
  obtain ⟨last, hlast, hended⟩ := h.ended
  have hdense := h.dense
  cases huptimes : uptimes with
  | nil =>
    rw [huptimes] at hfirst
    cases hfirst
  | cons u rest =>
    rw [huptimes] at hdense hfirst hlast
    have hhead : u ≤ t := by
      rcases List.mem_cons.mp hfirst with rfl | hlater
      · exact hstarted.trans hstart
      · exact ((List.pairwise_cons.mp hdense.pairwise).1 first hlater).le.trans
          (hstarted.trans hstart)
    obtain ⟨⟨a, ha, hbefore⟩, b, hb, hafter⟩ :=
      hdense.exists_near (by norm_num) hhead hlast (hend.trans hended)
    exact ⟨⟨a, ha, by linarith [hbefore.2], hbefore.1⟩, b, hb, hafter⟩

/-- **The metrics check has no blind spot.** In a log that is accepted the uptimes rise, by at most
7.5 s; every moment from 67.5 s on, up to 7.5 s before the end, has a record at most 7.5 s before it
and one at most 7.5 s after it; and every record after the warm-up has the rates that are asked
for. -/
theorem verifyMetrics_spec {report : MetricsReport}
    (h : verifyMetrics rows duration = .ok report) :
    ∃ uptimes, List.Forall₂ MetricsRow.HasUptime rows uptimes ∧ uptimes.Pairwise (· < ·) ∧
      uptimes.IsChain (fun previous current => current - previous ≤ 15 / 2) ∧
      (∀ t, 135 / 2 ≤ t → t ≤ duration - 15 / 2 →
        (∃ u ∈ uptimes, t - 15 / 2 ≤ u ∧ u ≤ t) ∧ ∃ u ∈ uptimes, t ≤ u ∧ u ≤ t + 15 / 2) ∧
      ∀ row uptime, (row, uptime) ∈ rows.zip uptimes → 60 ≤ uptime →
        (∃ q, row.captureFps = .finite q ∧ 25 ≤ q) ∧ (∃ q, row.rtspFps = .finite q ∧ 25 ≤ q) ∧
          ∃ q, row.inferenceFps = .finite q ∧ 8 ≤ q := by
  obtain ⟨uptimes, hverified⟩ := verified_of_ok h
  refine ⟨uptimes, hverified.read, hverified.dense.pairwise, ?_, fun t => hverified.near,
    fun row uptime hzip hlate => ?_⟩
  · exact hverified.dense.imp fun a b hab => by linarith [hab.2]
  · have hrates := hverified.rates row uptime hzip hlate
    exact ⟨hrates (.captureFps, 25) (by simp [thresholds]),
      hrates (.rtspFps, 25) (by simp [thresholds]),
      hrates (.inferenceFps, 8) (by simp [thresholds])⟩

/-- A record of a run that keeps up. -/
def steadyRow (uptimeMs : ℚ) : MetricsRow :=
  { uptimeMs := .finite uptimeMs
    captureFps := .finite 30
    rtspFps := .finite 30
    inferenceFps := .finite 10 }

/-- A short run with a record every five seconds. -/
theorem verifyMetrics_spec_steady :
    ∃ report, verifyMetrics ([60000, 65000, 70000, 75000].map steadyRow) 80 = .ok report ∧
      report.coverage = 15 ∧ ∃ uptimes : List ℚ,
        List.Forall₂ MetricsRow.HasUptime ([60000, 65000, 70000, 75000].map steadyRow) uptimes ∧
        ∃ u ∈ uptimes, 68 - 15 / 2 ≤ u ∧ u ≤ 68 := by
  obtain ⟨report, hok, hcoverage⟩ := exists_ok
    (verifyMetrics ([60000, 65000, 70000, 75000].map steadyRow) 80)
    (fun report => report.coverage = 15) (by decide +kernel)
  obtain ⟨uptimes, hread, -, -, hnear, -⟩ := verifyMetrics_spec hok
  exact ⟨report, hok, hcoverage, uptimes, hread, (hnear 68 (by norm_num) (by norm_num)).1⟩

end EggVision
