import EggVision.AccessUnit
import Mathlib.Data.List.Infix
import Mathlib.Logic.Function.Iterate

/-!
# The encoded ring buffer

`EncodedRingBuffer` keeps a bounded history of access units for event pre-roll. Every operation
runs under the buffer's own mutex, so each is one function from the buffer to the buffer.

The two limits are positive in every buffer that exists: the constructor throws otherwise, and
here the two proofs are fields.

Payload sums are exact naturals; `bytes` is the cached counter the source keeps beside the deque.

## Main definitions

* `EncodedRingBuffer.new`, `push`, `clear`, `selectPreRoll`
* `EncodedRingBuffer.pruneByTimeLocked`, `pruneByBytesLocked`, `discardFrontLocked`
-/

namespace EggVision

/-- `EncodedRingPushResult`. -/
inductive EncodedRingPushResult
  | accepted
  | resetForGeneration
  | resetForTimestampRegression
  | rejectedInvalid
  | rejectedOversize
deriving DecidableEq, Repr

/-- Whether a push left the unit out: one of the two `Rejected` results. -/
def EncodedRingPushResult.rejected : EncodedRingPushResult → Bool
  | .rejectedInvalid | .rejectedOversize => true
  | .accepted | .resetForGeneration | .resetForTimestampRegression => false

/-- `EncodedRingSelection`, with the defaults of the struct. -/
structure EncodedRingSelection where
  generation : ℕ := 0
  requestedStartSensorTimestampNs : ℕ := 0
  actualStartSensorTimestampNs : ℕ := 0
  preRollComplete : Bool := false
  hasIndependentStart : Bool := false
  units : List EncodedAccessUnit := []
deriving DecidableEq, Repr

structure EncodedRingBuffer where
  retentionNs : ℕ
  maxBytes : ℕ
  units : List EncodedAccessUnit := []
  bytes : ℕ := 0
  peakBytes : ℕ := 0
  resets : ℕ := 0
  generation : ℕ := 0
  latestSensorTimestampNs : ℕ := 0
  retention_pos : 0 < retentionNs
  maxBytes_pos : 0 < maxBytes
deriving DecidableEq, Repr

namespace EncodedRingBuffer

/-- The constructor; the error is the text of the exception it throws. -/
def new (retentionNs maxBytes : ℕ) : Except String EncodedRingBuffer :=
  if hR : retentionNs = 0 then .error "encoded ring retention must be positive"
  else if hM : maxBytes = 0 then .error "encoded ring byte limit must be positive"
  else .ok
    { retentionNs, maxBytes
      retention_pos := Nat.pos_of_ne_zero hR
      maxBytes_pos := Nat.pos_of_ne_zero hM }

def resetLocked (ring : EncodedRingBuffer) : EncodedRingBuffer :=
  { ring with
    units := []
    bytes := 0
    generation := 0
    latestSensorTimestampNs := 0
    resets := ring.resets + 1 }

/-- Callers never call this on an empty deque, where `front()` is undefined. -/
def discardFrontLocked (ring : EncodedRingBuffer) : EncodedRingBuffer :=
  match ring.units with
  | [] => ring
  | front :: rest =>
    { ring with
      units := rest
      bytes := ring.bytes - front.sizeBytes
      generation := if rest.isEmpty then 0 else ring.generation
      latestSensorTimestampNs := if rest.isEmpty then 0 else ring.latestSensorTimestampNs }

/-- `while (condition) discardFrontLocked();`, the loop taken at most `n` times. -/
def discardWhile (condition : EncodedRingBuffer → Bool) : ℕ → EncodedRingBuffer → EncodedRingBuffer
  | 0, ring => ring
  | n + 1, ring =>
    if condition ring then discardWhile condition n ring.discardFrontLocked else ring

/-- The search loop of `pruneByTimeLocked` and of the first phase of `selectPreRoll`: walk from
`index` on, stop at the first unit later than `bound`, and remember the last independently
decodable unit passed. -/
def newestIndependent (bound : ℕ) : List EncodedAccessUnit → ℕ → Option ℕ → Option ℕ
  | [], _, found => found
  | unit :: rest, index, found =>
    if unit.sensorTimestampNs > bound then found
    else newestIndependent bound rest (index + 1)
      (if unit.independentlyDecodable then some index else found)

/-- The fallback loop of `selectPreRoll`: the first independently decodable unit, unless a unit
later than `bound` comes before it. -/
def firstIndependent (bound : ℕ) : List EncodedAccessUnit → ℕ → Option ℕ
  | [], _ => none
  | unit :: rest, index =>
    if unit.sensorTimestampNs > bound then none
    else if unit.independentlyDecodable then some index
    else firstIndependent bound rest (index + 1)

def pruneByTimeLocked (ring : EncodedRingBuffer) : EncodedRingBuffer :=
  if ring.units.length < 2 ∨ ring.latestSensorTimestampNs ≤ ring.retentionNs then ring
  else
    let cutoff := ring.latestSensorTimestampNs - ring.retentionNs
    match newestIndependent cutoff ring.units 0 none with
    | none =>
      discardWhile
        (fun r => decide (1 < r.units.length) &&
          (r.units.head?.any fun front => front.sensorTimestampNs < cutoff))
        ring.units.length ring
    | some keep => discardFrontLocked^[keep] ring

/-- The first loop of `pruneByBytesLocked` still has to run. -/
def overBytes (ring : EncodedRingBuffer) : Bool :=
  !ring.units.isEmpty && decide (ring.maxBytes < ring.bytes)

/-- The second loop of `pruneByBytesLocked` still has to run. -/
def unusablePrefix (ring : EncodedRingBuffer) : Bool :=
  ring.units.head?.any fun front => !front.independentlyDecodable

def pruneByBytesLocked (ring : EncodedRingBuffer) : EncodedRingBuffer :=
  let ring := discardWhile overBytes ring.units.length ring
  -- A byte eviction may cut through a GOP: the unusable prefix goes too.
  discardWhile unusablePrefix ring.units.length ring

/-- The checks `push` makes on a non-null unit before it takes the mutex. -/
def rejection? (ring : EncodedRingBuffer) (unit : EncodedAccessUnit) :
    Option EncodedRingPushResult :=
  if unit.payload.isNone || unit.sizeBytes == 0 || unit.generation == 0 ||
      unit.sensorTimestampNs == 0 then some .rejectedInvalid
  else if unit.sizeBytes > ring.maxBytes then some .rejectedOversize
  else none

/-- The reset decision of `push`. -/
def startEpoch (ring : EncodedRingBuffer) (unit : EncodedAccessUnit) :
    EncodedRingBuffer × EncodedRingPushResult :=
  if !ring.units.isEmpty && unit.generation != ring.generation then
    (ring.resetLocked, .resetForGeneration)
  else if !ring.units.isEmpty && decide (unit.sensorTimestampNs < ring.latestSensorTimestampNs) then
    (ring.resetLocked, .resetForTimestampRegression)
  else (ring, .accepted)

/-- `push` up to the two prune calls. -/
def append (ring : EncodedRingBuffer) (unit : EncodedAccessUnit) : EncodedRingBuffer :=
  { ring with
    generation := unit.generation
    latestSensorTimestampNs := unit.sensorTimestampNs
    bytes := ring.bytes + unit.sizeBytes
    units := ring.units ++ [unit] }

def push (ring : EncodedRingBuffer) (unit : Option EncodedAccessUnit) :
    EncodedRingBuffer × EncodedRingPushResult :=
  match unit with
  | none => (ring, .rejectedInvalid)
  | some unit =>
    match ring.rejection? unit with
    | some result => (ring, result)
    | none =>
      let (ring, result) := ring.startEpoch unit
      let ring := (ring.append unit).pruneByTimeLocked.pruneByBytesLocked
      ({ ring with peakBytes := max ring.peakBytes ring.bytes }, result)

def clear (ring : EncodedRingBuffer) : EncodedRingBuffer := ring.resetLocked

/-- The `start` index of `selectPreRoll`: the newest decodable unit at or before the requested
boundary, and where there is none the first decodable unit that still precedes the trigger. -/
def preRollStart (requested trigger : ℕ) (units : List EncodedAccessUnit) : Option ℕ :=
  match newestIndependent requested units 0 none with
  | some start => some start
  | none => firstIndependent trigger units 0

/-- `selectPreRoll`. The subtraction is guarded in the source, so it saturates at zero. -/
def selectPreRoll (ring : EncodedRingBuffer) (triggerSensorTimestampNs preRollNs : ℕ) :
    EncodedRingSelection :=
  let requested :=
    if triggerSensorTimestampNs > preRollNs then triggerSensorTimestampNs - preRollNs else 0
  if ring.units.isEmpty then { requestedStartSensorTimestampNs := requested }
  else
    match preRollStart requested triggerSensorTimestampNs ring.units with
    | none =>
      { requestedStartSensorTimestampNs := requested, generation := ring.generation }
    | some start =>
      let units := ring.units.drop start
      let actual := (units.head?.map (·.sensorTimestampNs)).getD 0
      { generation := ring.generation
        requestedStartSensorTimestampNs := requested
        actualStartSensorTimestampNs := actual
        preRollComplete := decide (actual ≤ requested)
        hasIndependentStart := true
        units }

/-! ### What a push returns -/

theorem rejected_of_rejection? {ring : EncodedRingBuffer} {unit : EncodedAccessUnit}
    {result : EncodedRingPushResult} (h : ring.rejection? unit = some result) :
    result.rejected = true := by
  unfold rejection? at h
  split at h
  · cases h
    rfl
  · split at h <;> cases h
    rfl

theorem not_rejected_startEpoch (ring : EncodedRingBuffer) (unit : EncodedAccessUnit) :
    (ring.startEpoch unit).2.rejected = false := by
  unfold startEpoch
  split
  · rfl
  · split <;> rfl

/-- A push either rejects the unit and changes nothing, or stores it and prunes. -/
theorem push_cases (ring : EncodedRingBuffer) (unit : EncodedAccessUnit) :
    ((ring.push (some unit)).1 = ring ∧ (ring.push (some unit)).2.rejected = true ∧
      (ring.rejection? unit).isSome = true) ∨
    ((ring.push (some unit)).2.rejected = false ∧ ring.rejection? unit = none ∧
      (ring.push (some unit)).1 =
        let pruned := ((ring.startEpoch unit).1.append unit).pruneByTimeLocked.pruneByBytesLocked
        { pruned with peakBytes := max pruned.peakBytes pruned.bytes }) := by
  simp only [push]
  cases hrej : ring.rejection? unit with
  | some result => exact Or.inl ⟨rfl, rejected_of_rejection? hrej, rfl⟩
  | none => exact Or.inr ⟨not_rejected_startEpoch ring unit, rfl, rfl⟩

/-! ### What the two search loops find

Both loops stop at the first unit later than their bound. On a list whose timestamps do not
decrease nothing behind that unit could have matched, so the loops search the whole list. -/

/-- Sensor timestamps do not decrease along the list. -/
def TimeOrdered (units : List EncodedAccessUnit) : Prop :=
  units.Pairwise fun u v => u.sensorTimestampNs ≤ v.sensorTimestampNs

theorem TimeOrdered.le_of_mem {u : EncodedAccessUnit} {rest : List EncodedAccessUnit}
    (h : TimeOrdered (u :: rest)) {v : EncodedAccessUnit} (hv : v ∈ u :: rest) :
    u.sensorTimestampNs ≤ v.sensorTimestampNs := by
  rcases List.mem_cons.mp hv with rfl | hv
  · exact Nat.le_refl _
  · exact (List.pairwise_cons.mp h).1 v hv

theorem TimeOrdered.tail {u : EncodedAccessUnit} {rest : List EncodedAccessUnit}
    (h : TimeOrdered (u :: rest)) : TimeOrdered rest := (List.pairwise_cons.mp h).2

/-- Either no decodable unit is at or before the bound, and `found` is returned unchanged, or the
last such unit is found. -/
theorem newestIndependent_spec (bound : ℕ) : ∀ {units : List EncodedAccessUnit},
    TimeOrdered units → ∀ (index : ℕ) (found : Option ℕ),
    (newestIndependent bound units index found = found ∧
      ∀ v ∈ units, v.independentlyDecodable = true → bound < v.sensorTimestampNs) ∨
    ∃ pre u post, units = pre ++ u :: post ∧
      newestIndependent bound units index found = some (index + pre.length) ∧
      u.independentlyDecodable = true ∧ u.sensorTimestampNs ≤ bound ∧
      ∀ v ∈ post, v.independentlyDecodable = true → bound < v.sensorTimestampNs := by
  intro units
  induction units with
  | nil => intro _ index found; exact Or.inl ⟨rfl, by simp⟩
  | cons w rest ih =>
    intro hs index found
    rw [newestIndependent]
    split
    next hlate =>
      exact Or.inl ⟨rfl, fun v hv _ => lt_of_lt_of_le hlate (hs.le_of_mem hv)⟩
    next hle =>
      have hle : w.sensorTimestampNs ≤ bound := Nat.le_of_not_lt hle
      rcases ih hs.tail (index + 1) (if w.independentlyDecodable then some index else found) with
        ⟨heq, hnone⟩ | ⟨pre, u, post, rfl, heq, hu⟩
      · by_cases hw : w.independentlyDecodable = true
        · refine Or.inr ⟨[], w, rest, rfl, ?_, hw, hle, hnone⟩
          rw [heq, if_pos hw, List.length_nil, Nat.add_zero]
        · refine Or.inl ⟨by rw [heq, if_neg hw], fun v hv hvd => ?_⟩
          rcases List.mem_cons.mp hv with rfl | hv
          · exact absurd hvd hw
          · exact hnone v hv hvd
      · refine Or.inr ⟨w :: pre, u, post, rfl, ?_, hu⟩
        rw [heq, List.length_cons]
        congr 1
        omega

/-- Either no decodable unit is at or before the bound, or the first decodable unit is, and it is
found. -/
theorem firstIndependent_spec (bound : ℕ) : ∀ {units : List EncodedAccessUnit},
    TimeOrdered units → ∀ index : ℕ,
    (firstIndependent bound units index = none ∧
      ∀ v ∈ units, v.independentlyDecodable = true → bound < v.sensorTimestampNs) ∨
    ∃ pre u post, units = pre ++ u :: post ∧
      firstIndependent bound units index = some (index + pre.length) ∧
      u.independentlyDecodable = true ∧ u.sensorTimestampNs ≤ bound ∧
      ∀ v ∈ pre, v.independentlyDecodable = false := by
  intro units
  induction units with
  | nil => intro _ index; exact Or.inl ⟨rfl, by simp⟩
  | cons w rest ih =>
    intro hs index
    rw [firstIndependent]
    split
    next hlate =>
      exact Or.inl ⟨rfl, fun v hv _ => lt_of_lt_of_le hlate (hs.le_of_mem hv)⟩
    next hle =>
      have hle : w.sensorTimestampNs ≤ bound := Nat.le_of_not_lt hle
      split
      next hw => exact Or.inr ⟨[], w, rest, rfl, rfl, hw, hle, by simp⟩
      next hw =>
        rcases ih hs.tail (index + 1) with ⟨heq, hnone⟩ | ⟨pre, u, post, rfl, heq, hu, hb, hpre⟩
        · refine Or.inl ⟨heq, fun v hv hvd => ?_⟩
          rcases List.mem_cons.mp hv with rfl | hv
          · exact absurd hvd hw
          · exact hnone v hv hvd
        · refine Or.inr ⟨w :: pre, u, post, rfl, ?_, hu, hb, fun v hv => ?_⟩
          · rw [heq, List.length_cons]
            congr 1
            omega
          · rcases List.mem_cons.mp hv with rfl | hv
            · simpa using hw
            · exact hpre v hv

/-! ### What the eviction loops preserve -/

@[simp] theorem discardFrontLocked_units (ring : EncodedRingBuffer) :
    ring.discardFrontLocked.units = ring.units.tail := by
  unfold discardFrontLocked
  split <;> simp_all

@[simp] theorem discardFrontLocked_retentionNs (ring : EncodedRingBuffer) :
    ring.discardFrontLocked.retentionNs = ring.retentionNs := by
  unfold discardFrontLocked
  split <;> rfl

@[simp] theorem discardFrontLocked_maxBytes (ring : EncodedRingBuffer) :
    ring.discardFrontLocked.maxBytes = ring.maxBytes := by
  unfold discardFrontLocked
  split <;> rfl

/-- The loop rule of `discardWhile`: what every iteration preserves holds at the end, and a loop
with enough iterations ends because its condition failed. -/
theorem discardWhile_induction (condition : EncodedRingBuffer → Bool)
    (Inv : EncodedRingBuffer → Prop)
    (hnonempty : ∀ ring, condition ring = true → ring.units ≠ [])
    (hstep : ∀ ring, Inv ring → condition ring = true → Inv ring.discardFrontLocked) :
    ∀ (n : ℕ) (ring : EncodedRingBuffer), ring.units.length ≤ n → Inv ring →
      Inv (discardWhile condition n ring) ∧ condition (discardWhile condition n ring) = false := by
  intro n
  induction n with
  | zero =>
    intro ring hlen hinv
    refine ⟨hinv, ?_⟩
    by_contra hc
    exact hnonempty ring (by simpa [discardWhile] using hc)
      (List.length_eq_zero_iff.mp (Nat.le_zero.mp hlen))
  | succ n ih =>
    intro ring hlen hinv
    rw [discardWhile]
    split
    next hc =>
      refine ih _ ?_ (hstep ring hinv hc)
      rw [discardFrontLocked_units, List.length_tail]
      omega
    next hc => exact ⟨hinv, by simpa using hc⟩

/-- What every eviction keeps, the two prune calls of a push keep. -/
theorem prune_induction {ring : EncodedRingBuffer} (Inv : EncodedRingBuffer → Prop)
    (hstep : ∀ r, Inv r → Inv r.discardFrontLocked) (h : Inv ring) :
    Inv ring.pruneByTimeLocked.pruneByBytesLocked := by
  have hwhile : ∀ (condition : EncodedRingBuffer → Bool) (n : ℕ) (r : EncodedRingBuffer),
      Inv r → Inv (discardWhile condition n r) := by
    intro condition n
    induction n with
    | zero => exact fun r hr => hr
    | succ n ih =>
      intro r hr
      rw [discardWhile]
      split
      · exact ih _ (hstep r hr)
      · exact hr
  have htime : Inv ring.pruneByTimeLocked := by
    unfold pruneByTimeLocked
    split
    · exact h
    · dsimp only
      split
      · exact hwhile _ _ _ h
      · exact Function.Iterate.rec Inv h hstep _
  exact hwhile _ _ _ (hwhile _ _ _ htime)

/-! ### What a push and a selection take -/

/-- Units were dropped from the front, and the limit stayed. -/
def Evicted (ring ring' : EncodedRingBuffer) : Prop :=
  ring'.units <:+ ring.units ∧ ring'.maxBytes = ring.maxBytes

theorem evicted_prune (ring : EncodedRingBuffer) :
    Evicted ring ring.pruneByTimeLocked.pruneByBytesLocked := by
  refine prune_induction (Evicted ring) (fun r h => ?_) ⟨List.suffix_refl _, rfl⟩
  obtain ⟨hsuffix, hmax⟩ := h
  refine ⟨?_, (discardFrontLocked_maxBytes r).trans hmax⟩
  rw [discardFrontLocked_units]
  exact (List.tail_suffix _).trans hsuffix

/-- The units that are left after an accepted push end with the new one, or none is left. -/
theorem push_units_suffix {ring : EncodedRingBuffer} {unit : EncodedAccessUnit}
    (h : ring.rejection? unit = none) :
    (ring.push (some unit)).1.units <:+ ring.units ++ [unit] := by
  rcases push_cases ring unit with ⟨-, -, hrej⟩ | ⟨-, -, hpush⟩
  · simp [h] at hrej
  · rw [hpush]
    have happend : ((ring.startEpoch unit).1.append unit).units <:+ ring.units ++ [unit] := by
      have hreset : (ring.resetLocked.append unit).units <:+ ring.units ++ [unit] :=
        List.suffix_append _ _
      unfold startEpoch
      split
      · exact hreset
      · split
        · exact hreset
        · exact List.suffix_refl _
    exact (evicted_prune _).1.trans happend

theorem push_maxBytes (ring : EncodedRingBuffer) (unit : EncodedAccessUnit) :
    (ring.push (some unit)).1.maxBytes = ring.maxBytes := by
  rcases push_cases ring unit with ⟨hpush, -⟩ | ⟨-, -, hpush⟩
  · rw [hpush]
  · rw [hpush]
    refine (evicted_prune _).2.trans ?_
    unfold startEpoch
    split
    · rfl
    · split <;> rfl

theorem selectPreRoll_units_suffix (ring : EncodedRingBuffer) (trigger preRollNs : ℕ) :
    (ring.selectPreRoll trigger preRollNs).units <:+ ring.units := by
  unfold selectPreRoll
  dsimp only
  generalize (if trigger > preRollNs then trigger - preRollNs else 0) = requested
  split
  · exact List.nil_suffix
  · split
    · exact List.nil_suffix
    · exact List.drop_suffix _ _

/-- The selection has no units without a start. -/
theorem selectPreRoll_noStart {ring : EncodedRingBuffer} {trigger preRollNs : ℕ}
    (h : (ring.selectPreRoll trigger preRollNs).hasIndependentStart = false) :
    (ring.selectPreRoll trigger preRollNs).units = [] := by
  unfold selectPreRoll at h ⊢
  dsimp only at h ⊢
  split
  · rfl
  next hfull =>
    rw [if_neg hfull] at h
    split
    · rfl
    next hfound =>
      rw [hfound] at h
      cases h

end EncodedRingBuffer

end EggVision
