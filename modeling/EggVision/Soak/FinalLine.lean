import EggVision.App.Records
import EggVision.Lib.Fields

/-!
# The last line

The last thing that the program says is what it has counted, and the soak test decides by that line
whether the run was clean. It looks for texts: `grep` for a name with `=0` behind it, and `sed` for
the number behind a name. Names are parts of other names and numbers begin with other numbers, so a
text that is found might be another one; on the line that the program writes it never is.

The log is a list of lines here. What the script writes behind the line, the errors of the kernel,
has no such line in it.

## Main definitions

* `finalLine` — the line
* `finalLineAccepted` — what `soak_test.sh` makes of it

## Main results

* `finalLineAccepted_iff` — the line is accepted exactly if the counters are what they should be
-/

namespace EggVision

open JsonString JsonText Fields

/-- The fields of the line, in their order. -/
def finalFields (metrics : Metrics) : List (String × UInt64) :=
  [("captured", metrics.captured),
    ("rtsp", metrics.rtspPushed),
    ("inferred", metrics.inferenceProcessed),
    ("encoded", metrics.encoderAccessUnits),
    ("outstanding", metrics.outstandingLeases),
    ("outstanding_peak", metrics.outstandingLeasesPeak),
    ("inference_zero_copy", metrics.inferenceZeroCopyIngress),
    ("inference_copy_fallback", metrics.inferenceCopyFallback),
    ("inference_preprocess_errors", metrics.inferencePreprocessErrors),
    ("inference_dma_sync_errors", metrics.inferenceDmaSyncErrors),
    ("inference_backend_errors", metrics.inferenceBackendErrors),
    ("capture_errors", metrics.captureErrors),
    ("encoder_errors", metrics.encoderErrors),
    ("encoder_recoveries", metrics.encoderRecoveries),
    ("encoder_recovery_failures", metrics.encoderRecoveryFailures),
    ("rtsp_errors", metrics.rtspErrors),
    ("rtsp_recoveries", metrics.rtspRecoveries),
    ("rtsp_recovery_failures", metrics.rtspRecoveryFailures),
    ("rtsp_sessions_current", metrics.rtspSessionsCurrent),
    ("rtsp_sessions_peak", metrics.rtspSessionsPeak),
    ("rtsp_sessions_cleaned", metrics.rtspSessionsCleaned),
    ("events_triggered", metrics.eventsTriggered),
    ("events_completed", metrics.eventsCompleted),
    ("events_failed", metrics.eventsFailed)]

def fieldBytes (f : String × UInt64) : Bytes × Bytes := (ascii f.1, decimal f.2.toNat)

/-- `"[app] stopped captured="` and so on. -/
def finalLine (metrics : Metrics) : Bytes :=
  ascii "[app] stopped" ++
    fieldsText (byte ' ') (byte '=') ((finalFields metrics).map fieldBytes)

/-- The names that have to be zero. -/
def zeroFields : List String :=
  ["outstanding", "inference_copy_fallback", "inference_preprocess_errors",
    "inference_dma_sync_errors", "inference_backend_errors", "capture_errors", "encoder_errors",
    "encoder_recovery_failures", "rtsp_errors", "rtsp_recovery_failures", "rtsp_sessions_current",
    "events_failed"]

/-- `grep -q "${field}=0"`. -/
def grepZero (field : String) (line : Bytes) : Bool :=
  decide (ascii field ++ [byte '=', byte '0'] <:+: line)

/-- `sed -n 's/.* field=\([0-9][0-9]*\).*/\1/p'`. -/
def sedNumber (field : String) (line : Bytes) : Option Bytes :=
  (lastAfter (byte ' ' :: (ascii field ++ [byte '='])) isDigit line).map (List.takeWhile isDigit)

/-- The number that the shell computes with: 64 bits, and no check for an overflow. -/
def shellNumber (digits : Bytes) : ℤ := (BitVec.ofNat 64 (digitsValue digits)).toInt

def lineAccepted (line : Bytes) : Bool :=
  zeroFields.all (fun field => grepZero field line) &&
    match sedNumber "inferred" line with
    | some inferred =>
      decide (0 < shellNumber inferred) && sedNumber "inference_zero_copy" line == some inferred
    | none => false

/-- `grep '\[app\] stopped ' "$log" | tail -n 1`, and what is made of it. -/
def finalLineAccepted (log : List Bytes) : Bool :=
  match (log.filter fun line => decide (ascii "[app] stopped " <:+: line)).getLast? with
  | some line => lineAccepted line
  | none => false

variable (metrics : Metrics)

/-! ### The fields -/

theorem isWord_of_digits {l : Bytes} (h : ∀ b ∈ l, isDigit b = true) :
    IsWord (byte ' ') (byte '=') l := by
  constructor
  · intro hmem
    cases h _ hmem
  · intro hmem
    cases h _ hmem

/-- The names of the line. -/
def finalNames : List String := (finalFields {}).map Prod.fst

theorem mem_finalNames {f : String × UInt64} (h : f ∈ finalFields metrics) :
    f.1 ∈ finalNames := by
  have hnames : (finalFields metrics).map Prod.fst = finalNames := rfl
  rw [← hnames]
  exact List.mem_map_of_mem h

theorem areFields_final :
    AreFields (byte ' ') (byte '=') ((finalFields metrics).map fieldBytes) := by
  have hnames : ∀ name ∈ finalNames, byte ' ' ∉ ascii name ∧ byte '=' ∉ ascii name := by
    decide
  intro field hfield
  obtain ⟨f, hf, rfl⟩ := List.mem_map.mp hfield
  exact ⟨hnames f.1 (mem_finalNames metrics hf), isWord_of_digits (decimal_digits _)⟩

/-- A number begins with a zero only if it is zero. -/
theorem head?_decimal_eq_zero {n : ℕ} : (decimal n).head? = some (byte '0') ↔ n = 0 := by
  constructor
  · intro hhead
    have hshort : ¬ 1 < (decimal n).length := fun hlong => decimal_head n ⟨hlong, hhead⟩
    obtain ⟨rest, hrest⟩ := List.head?_eq_some_iff.mp hhead
    have hnil : rest = [] := by
      rw [hrest, List.length_cons] at hshort
      exact List.eq_nil_of_length_eq_zero (by omega)
    rw [← digitsValue_decimal n, hrest, hnil]
    rfl
  · rintro rfl
    rfl

/-! ### What is found -/

/-- **What `grep` finds is the field.** -/
theorem grepZero_iff {field : String} (h : field ∈ zeroFields) :
    grepZero field (finalLine metrics) = true ↔ (field, 0) ∈ finalFields metrics := by
  have hword : ∀ field ∈ zeroFields, byte ' ' ∉ ascii field ∧ byte '=' ∉ ascii field := by
    decide
  -- a name that has to be zero is not the end of another name
  have hsuffix : ∀ field ∈ zeroFields, ∀ name ∈ finalNames,
      ascii field <:+ ascii name → name = field := by
    decide
  rw [grepZero, decide_eq_true_iff, finalLine, infix_fieldsText_iff (by decide)
    (areFields_final metrics) (by decide) (hword field h) (by decide)]
  constructor
  · rintro ⟨f, hf, hname, hzero⟩
    obtain ⟨g, hg, rfl⟩ := List.mem_map.mp hf
    have hkey := hsuffix field h g.1 (mem_finalNames metrics hg) hname
    have hvalue : g.2 = 0 := UInt64.toNat_inj.mp (head?_decimal_eq_zero.mp hzero)
    rw [← hkey, ← hvalue]
    exact hg
  · intro hmem
    exact ⟨fieldBytes (field, 0), List.mem_map_of_mem hmem, List.suffix_rfl,
      head?_decimal_eq_zero.mpr rfl⟩

/-- All the names are found if all the counters are zero. -/
theorem grepZeros_iff :
    zeroFields.all (fun field => grepZero field (finalLine metrics)) = true ↔
      ∀ f ∈ finalFields metrics, f.1 ∈ zeroFields → f.2 = 0 := by
  have hnames : (finalFields metrics).map Prod.fst = finalNames := rfl
  rw [List.all_eq_true]
  constructor
  · intro h f hf hzero
    have hnodup : ((finalFields metrics).map Prod.fst).Nodup := by
      rw [hnames]
      decide
    have hfound := (grepZero_iff metrics hzero).mp (h f.1 hzero)
    have heq := List.inj_on_of_nodup_map hnodup hf hfound rfl
    exact congrArg Prod.snd heq
  · intro h field hzero
    have hsub : ∀ field ∈ zeroFields, field ∈ finalNames := by decide
    obtain ⟨f, hf, rfl⟩ := List.mem_map.mp (hnames ▸ hsub field hzero)
    refine (grepZero_iff metrics hzero).mpr ?_
    rw [← h f hf hzero]
    exact hf

/-- The digits of a number that is followed by a field. -/
theorem takeWhile_value (n : ℕ) (after : List (Bytes × Bytes)) :
    (decimal n ++ fieldsText (byte ' ') (byte '=') after).takeWhile isDigit = decimal n := by
  rw [List.takeWhile_append_of_pos (decimal_digits n)]
  cases after with
  | nil => exact List.append_nil _
  | cons field after => exact List.append_nil _

theorem head?_decimal (n : ℕ) : (decimal n).head?.any isDigit = true := by
  obtain ⟨b, digits, hdigits⟩ := List.exists_cons_of_ne_nil (decimal_ne_nil n)
  rw [hdigits]
  exact decimal_digits n b (by simp [hdigits])

/-- **What `sed` finds is the value of the field.** -/
theorem sedNumber_eq (before after : List (String × UInt64)) {f : String × UInt64}
    (hfields : finalFields metrics = before ++ f :: after) :
    sedNumber f.1 (finalLine metrics) = some (decimal f.2.toNat) := by
  have hall : (((finalFields metrics).map fieldBytes).map Prod.fst).Nodup := by
    have hnames : (finalFields metrics).map Prod.fst = finalNames := rfl
    have hkeys : ((finalFields metrics).map fieldBytes).map Prod.fst = finalNames.map ascii := by
      rw [← hnames, List.map_map, List.map_map]
      rfl
    rw [hkeys]
    decide
  rw [hfields, List.map_append, List.map_cons, List.map_append, List.map_cons] at hall
  obtain ⟨-, htail, hapart⟩ := List.nodup_append.mp hall
  have hbefore : ∀ g ∈ before.map fieldBytes, g.1 ≠ (fieldBytes f).1 := by
    intro g hg
    exact hapart g.1 (List.mem_map_of_mem hg) (fieldBytes f).1 List.mem_cons_self
  have hafter : ∀ g ∈ after.map fieldBytes, g.1 ≠ (fieldBytes f).1 := by
    intro g hg hkey
    exact (List.nodup_cons.mp htail).1 (hkey ▸ List.mem_map_of_mem hg)
  have hare := areFields_final metrics
  rw [hfields, List.map_append, List.map_cons] at hare
  have hlead : byte '=' ∉ ascii "[app] stopped" := by decide
  have hfound := lastAfter_fieldsText (by decide) hare hlead (head?_decimal f.2.toNat) hbefore
    hafter
  rw [sedNumber, finalLine, hfields, List.map_append, List.map_cons]
  refine (congrArg (Option.map (List.takeWhile isDigit)) hfound).trans ?_
  exact congrArg some (takeWhile_value _ _)

theorem shellNumber_pos_iff {n : ℕ} (h : n < 2 ^ 64) :
    0 < shellNumber (decimal n) ↔ 0 < n ∧ n < 2 ^ 63 := by
  rw [shellNumber, digitsValue_decimal, BitVec.toInt_eq_toNat_cond, BitVec.toNat_ofNat,
    Nat.mod_eq_of_lt h]
  split_ifs with hsmall
  · omega
  · omega

/-- A single line is accepted if the counters are what they should be. -/
theorem lineAccepted_iff :
    lineAccepted (finalLine metrics) = true ↔
      (∀ f ∈ finalFields metrics, f.1 ∈ zeroFields → f.2 = 0) ∧
        0 < metrics.inferenceProcessed ∧ metrics.inferenceProcessed.toNat < 2 ^ 63 ∧
        metrics.inferenceZeroCopyIngress = metrics.inferenceProcessed := by
  have hinferred : sedNumber "inferred" (finalLine metrics) =
      some (decimal metrics.inferenceProcessed.toNat) :=
    sedNumber_eq (f := ("inferred", metrics.inferenceProcessed)) metrics
      ((finalFields metrics).take 2) ((finalFields metrics).drop 3) rfl
  have hzeroCopy : sedNumber "inference_zero_copy" (finalLine metrics) =
      some (decimal metrics.inferenceZeroCopyIngress.toNat) :=
    sedNumber_eq (f := ("inference_zero_copy", metrics.inferenceZeroCopyIngress)) metrics
      ((finalFields metrics).take 6) ((finalFields metrics).drop 7) rfl
  have hsame : decimal metrics.inferenceZeroCopyIngress.toNat =
      decimal metrics.inferenceProcessed.toNat ↔
        metrics.inferenceZeroCopyIngress = metrics.inferenceProcessed := by
    constructor
    · intro h
      have hvalue := congrArg digitsValue h
      rw [digitsValue_decimal, digitsValue_decimal] at hvalue
      exact UInt64.toNat_inj.mp hvalue
    · intro h
      rw [h]
  rw [lineAccepted, hinferred, hzeroCopy, Bool.and_eq_true, Bool.and_eq_true, decide_eq_true_iff,
    grepZeros_iff, shellNumber_pos_iff metrics.inferenceProcessed.toNat_lt, beq_iff_eq,
    Option.some_inj, hsame, and_assoc]
  exact Iff.rfl

/-- The line that decides is the last of its kind. -/
theorem finalLineAccepted_eq (before : List Bytes) {after : List Bytes}
    (hafter : ∀ line ∈ after, ¬ ascii "[app] stopped " <:+: line) :
    finalLineAccepted (before ++ finalLine metrics :: after) =
      lineAccepted (finalLine metrics) := by
  have hline : ascii "[app] stopped " <:+: finalLine metrics := by
    refine ⟨[], ascii "captured" ++ byte '=' :: (decimal metrics.captured.toNat ++
      fieldsText (byte ' ') (byte '=') ((finalFields metrics).tail.map fieldBytes)), ?_⟩
    have hlead : ascii "[app] stopped " = ascii "[app] stopped" ++ [byte ' '] := by decide
    have hfirst : finalFields metrics =
        ("captured", metrics.captured) :: (finalFields metrics).tail := rfl
    rw [finalLine, hlead, hfirst]
    simp [fieldsText, fieldText, fieldBytes]
  have hnone : (after.filter fun line => decide (ascii "[app] stopped " <:+: line)) = [] := by
    rw [List.filter_eq_nil_iff]
    intro line hmem
    simpa using hafter line hmem
  rw [finalLineAccepted, List.filter_append, List.filter_cons_of_pos (by simpa), hnone,
    List.getLast?_concat]

/-- **The soak test accepts the line of a clean run, and no other.** -/
theorem finalLineAccepted_iff {before after : List Bytes}
    (hafter : ∀ line ∈ after, ¬ ascii "[app] stopped " <:+: line) :
    finalLineAccepted (before ++ finalLine metrics :: after) = true ↔
      (∀ f ∈ finalFields metrics, f.1 ∈ zeroFields → f.2 = 0) ∧
        0 < metrics.inferenceProcessed ∧ metrics.inferenceProcessed.toNat < 2 ^ 63 ∧
        metrics.inferenceZeroCopyIngress = metrics.inferenceProcessed := by
  rw [finalLineAccepted_eq metrics before hafter]
  exact lineAccepted_iff metrics

/-- A short run, and the line that the script writes last. -/
theorem finalLineAccepted_iff_short :
    finalLineAccepted ([ascii "[app] graceful shutdown requested"] ++
        finalLine { captured := 7, rtspPushed := 7, inferenceProcessed := 5,
                    inferenceZeroCopyIngress := 5 } :: [ascii "kernel_errors_end"]) = true :=
  (finalLineAccepted_iff _ (by decide)).mpr (by decide)

end EggVision
