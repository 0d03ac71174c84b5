import EggVision.Lib.Words
import EggVision.Ring.Retention

/-!
# The ring in 64 bits

`bytes_` and `resets_` are unsigned 64-bit counters, and the deque's bookkeeping depends on the
first: one subtraction below zero would make the ring look full and evict everything. This file
has the ring once more, with arithmetic that wraps around, and with a note of whether `bytes_` ever
did. The cutoff of `pruneByTimeLocked` and the start of `selectPreRoll` are subtracted behind a
comparison, so they are exact.

It never does, and so the two rings agree but for the number of resets, which is that of the exact
ring modulo `2 ^ 64`.

## Main definitions

* `WordRing`, with the functions of the ring
* `RingCall`, `WordRing.run` — runs, with a log of what the calls returned
* `Represents` — how the cached fields and the deque belong together

## Main results

* `WordRing.push_embed` — a push in 64 bits is an exact push
* `WordRing.run_represents` — the representation invariant of every run
-/

namespace EggVision

/-- The push reset the ring. -/
def EncodedRingPushResult.isReset : EncodedRingPushResult → Bool
  | .resetForGeneration | .resetForTimestampRegression => true
  | .accepted | .rejectedInvalid | .rejectedOversize => false

namespace EncodedRingBuffer

open Suffix

/-- The ring of the source. `wrapped` says that an addition to `bytes_` or a subtraction from it
has left the range. -/
structure WordRing where
  ring : EncodedRingBuffer
  wrapped : Bool := false
deriving DecidableEq, Repr

namespace WordRing

def resetLocked (w : WordRing) : WordRing :=
  { w with
    ring := { w.ring with
      units := []
      bytes := 0
      generation := 0
      latestSensorTimestampNs := 0
      resets := Words.add 64 w.ring.resets 1 } }

def discardFrontLocked (w : WordRing) : WordRing :=
  match w.ring.units with
  | [] => w
  | front :: rest =>
    { ring := { w.ring with
        units := rest
        bytes := Words.sub 64 w.ring.bytes front.sizeBytes
        generation := if rest.isEmpty then 0 else w.ring.generation
        latestSensorTimestampNs := if rest.isEmpty then 0 else w.ring.latestSensorTimestampNs }
      wrapped := w.wrapped || Words.subWraps w.ring.bytes front.sizeBytes }

/-- `while (condition) discardFrontLocked();`, the loop taken at most `n` times. -/
def discardWhile (condition : EncodedRingBuffer → Bool) : ℕ → WordRing → WordRing
  | 0, w => w
  | n + 1, w => if condition w.ring then discardWhile condition n w.discardFrontLocked else w

def pruneByTimeLocked (w : WordRing) : WordRing :=
  if w.ring.units.length < 2 ∨ w.ring.latestSensorTimestampNs ≤ w.ring.retentionNs then w
  else
    let cutoff := w.ring.latestSensorTimestampNs - w.ring.retentionNs
    match newestIndependent cutoff w.ring.units 0 none with
    | none =>
      discardWhile
        (fun r => decide (1 < r.units.length) &&
          (r.units.head?.any fun front => front.sensorTimestampNs < cutoff))
        w.ring.units.length w
    | some keep => discardFrontLocked^[keep] w

def pruneByBytesLocked (w : WordRing) : WordRing :=
  let w := discardWhile overBytes w.ring.units.length w
  discardWhile unusablePrefix w.ring.units.length w

/-- The reset decision of `push`. -/
def startEpoch (w : WordRing) (unit : EncodedAccessUnit) : WordRing × EncodedRingPushResult :=
  if !w.ring.units.isEmpty && unit.generation != w.ring.generation then
    (w.resetLocked, .resetForGeneration)
  else if !w.ring.units.isEmpty &&
      decide (unit.sensorTimestampNs < w.ring.latestSensorTimestampNs) then
    (w.resetLocked, .resetForTimestampRegression)
  else (w, .accepted)

/-- `push` up to the two prune calls. -/
def append (w : WordRing) (unit : EncodedAccessUnit) : WordRing where
  ring := { w.ring with
    generation := unit.generation
    latestSensorTimestampNs := unit.sensorTimestampNs
    bytes := Words.add 64 w.ring.bytes unit.sizeBytes
    units := w.ring.units ++ [unit] }
  wrapped := w.wrapped || Words.addWraps 64 w.ring.bytes unit.sizeBytes

def push (w : WordRing) (unit : Option EncodedAccessUnit) : WordRing × EncodedRingPushResult :=
  match unit with
  | none => (w, .rejectedInvalid)
  | some unit =>
    match w.ring.rejection? unit with
    | some result => (w, result)
    | none =>
      let (w, result) := w.startEpoch unit
      let w := (w.append unit).pruneByTimeLocked.pruneByBytesLocked
      ({ w with ring := { w.ring with peakBytes := max w.ring.peakBytes w.ring.bytes } }, result)

def clear (w : WordRing) : WordRing := w.resetLocked

end WordRing

/-! ### Runs -/

/-- An access unit that exists: the length of a `std::vector` is a difference of its iterators. -/
abbrev StoredUnit := { unit : EncodedAccessUnit // unit.sizeBytes < 2 ^ 63 }

/-- A call that changes the ring. -/
inductive RingCall
  | push (unit : Option StoredUnit)
  | clear

/-- What a call leaves behind: the result of a push with the `bytes_` after it, or a clear. -/
inductive RingEvent
  | pushed (result : EncodedRingPushResult) (bytes : ℕ)
  | cleared
deriving DecidableEq, Repr

namespace RingEvent

/-- A push that stored its unit, with the `bytes_` after it. -/
def stored : RingEvent → Option ℕ
  | .pushed result bytes => if result.rejected then none else some bytes
  | .cleared => none

/-- A clear, or a push that returned one of the two `Reset` results. -/
def isReset : RingEvent → Bool
  | .pushed result _ => result.isReset
  | .cleared => true

end RingEvent

/-- The greatest `bytes_` after a push that stored its unit. -/
def peakOf (log : List RingEvent) : ℕ := (log.filterMap RingEvent.stored).foldr max 0

namespace WordRing

/-- One call, with what it leaves behind. -/
def call (w : WordRing) : RingCall → WordRing × RingEvent
  | .clear => (w.clear, .cleared)
  | .push unit =>
    let (w, result) := w.push (unit.map (·.val))
    (w, .pushed result w.ring.bytes)

/-- The calls of a list, on a newly constructed ring. -/
def run (ring : EncodedRingBuffer) (calls : List RingCall) : WordRing × List RingEvent :=
  calls.foldl
    (fun (w, log) c =>
      let (w, event) := w.call c
      (w, log ++ [event]))
    ({ ring }, [])

end WordRing

/-! ### The exact ring -/

variable {ring : EncodedRingBuffer}

theorem push_rejected {unit : EncodedAccessUnit} {result : EncodedRingPushResult}
    (h : ring.rejection? unit = some result) : ring.push (some unit) = (ring, result) := by
  simp only [push, h]

theorem push_stored {unit : EncodedAccessUnit} (h : ring.rejection? unit = none) :
    ∃ stored : EncodedRingBuffer,
      stored = ((ring.startEpoch unit).1.append unit).pruneByTimeLocked.pruneByBytesLocked ∧
        ring.push (some unit) =
          ({ stored with peakBytes := max stored.peakBytes stored.bytes },
            (ring.startEpoch unit).2) := by
  refine ⟨_, rfl, ?_⟩
  simp only [push, h]

/-- An empty ring has forgotten its epoch. -/
def Blank (ring : EncodedRingBuffer) : Prop :=
  ring.units = [] → ring.generation = 0 ∧ ring.latestSensorTimestampNs = 0

theorem Blank.discardFrontLocked (h : Blank ring) : Blank ring.discardFrontLocked := by
  unfold EncodedRingBuffer.discardFrontLocked
  split
  · exact h
  · rintro rfl
    exact ⟨rfl, rfl⟩

theorem Blank.push (h : Blank ring) (unit : Option EncodedAccessUnit) :
    Blank (ring.push unit).1 := by
  cases unit with
  | none => exact h
  | some unit =>
    cases hrejection : ring.rejection? unit with
    | some result =>
      rw [push_rejected hrejection]
      exact h
    | none =>
      obtain ⟨stored, hstored, hpush⟩ := push_stored hrejection
      have hblank : Blank stored := by
        rw [hstored]
        refine prune_induction Blank (fun _ => Blank.discardFrontLocked) fun hnil => ?_
        simp [append] at hnil
      rw [hpush]
      exact fun hnil => hblank hnil

/-- How the cached fields and the deque belong together. -/
structure Represents (maxBytes : ℕ) (ring : EncodedRingBuffer) : Prop where
  bytes : ring.bytes = totalBytes ring.units
  within : ring.bytes ≤ maxBytes
  generation : ∀ u ∈ ring.units, u.generation = ring.generation
  ordered : TimeOrdered ring.units
  latest : ∀ last ∈ ring.units.getLast?, last.sensorTimestampNs = ring.latestSensorTimestampNs
  empty : ring.units = [] →
    ring.generation = 0 ∧ ring.latestSensorTimestampNs = 0 ∧ ring.bytes = 0
  front : ∀ front ∈ ring.units.head?, front.independentlyDecodable = true

theorem Represents.of_retains {tracked : Tracked} {maxBytes : ℕ} (h : Retains maxBytes tracked)
    (hblank : Blank tracked.ring) : Represents maxBytes tracked.ring := by
  have hretainable : tracked.ring.units ≠ [] →
      retainable tracked.ring.retentionNs maxBytes tracked.ring.units = true := by
    intro hne
    rw [h.units] at hne ⊢
    exact longestSuffix_holds hne
  have hparts : tracked.ring.units ≠ [] →
      tracked.ring.units.head?.any (·.independentlyDecodable) = true ∧
        totalBytes tracked.ring.units ≤ maxBytes := by
    intro hne
    have hall := hretainable hne
    rw [retainable, Bool.and_eq_true, Bool.and_eq_true, decide_eq_true_eq] at hall
    exact hall.1
  refine ⟨h.coherent.bytes, ?_, h.coherent.generation, h.ordered.of_suffix h.suffix, ?_, ?_, ?_⟩
  · rw [h.coherent.bytes]
    rcases eq_or_ne tracked.ring.units [] with hnil | hne
    · simp [hnil]
    · exact (hparts hne).2
  · intro last hlast
    have hne : tracked.ring.units ≠ [] := by
      rintro hnil
      simp [hnil] at hlast
    rw [h.coherent.latest hne, lastTimestamp, hlast]
    rfl
  · intro hnil
    obtain ⟨hgeneration, hlatest⟩ := hblank hnil
    exact ⟨hgeneration, hlatest, by rw [h.coherent.bytes, hnil]; rfl⟩
  · intro front hfront
    have hne : tracked.ring.units ≠ [] := by
      rintro hnil
      simp [hnil] at hfront
    have hany := (hparts hne).1
    rw [Option.mem_def.mp hfront] at hany
    exact hany

/-! ### The two rings agree -/

namespace WordRing

/-- An exact ring, all of whose numbers but that of the resets are in range. -/
def embed (ring : EncodedRingBuffer) : WordRing where
  ring := { ring with resets := ring.resets % 2 ^ 64 }

@[simp] theorem embed_units (ring : EncodedRingBuffer) : (embed ring).ring.units = ring.units := rfl

@[simp] theorem embed_retentionNs (ring : EncodedRingBuffer) :
    (embed ring).ring.retentionNs = ring.retentionNs := rfl

@[simp] theorem embed_generation (ring : EncodedRingBuffer) :
    (embed ring).ring.generation = ring.generation := rfl

@[simp] theorem embed_latestSensorTimestampNs (ring : EncodedRingBuffer) :
    (embed ring).ring.latestSensorTimestampNs = ring.latestSensorTimestampNs := rfl

/-- `bytes_` is in step with the deque, and in range. -/
def Fits (ring : EncodedRingBuffer) : Prop := Coherent ring ∧ ring.bytes < 2 ^ 64

theorem Fits.discardFrontLocked (h : Fits ring) : Fits ring.discardFrontLocked := by
  refine ⟨h.1.discardFrontLocked, ?_⟩
  unfold EncodedRingBuffer.discardFrontLocked
  split
  · exact h.2
  · exact (Nat.sub_le _ _).trans_lt h.2

/-- The front is part of what `bytes_` counts. -/
theorem discardFrontLocked_embed (h : Fits ring) :
    (embed ring).discardFrontLocked = embed ring.discardFrontLocked := by
  unfold WordRing.discardFrontLocked EncodedRingBuffer.discardFrontLocked
  cases hunits : ring.units with
  | nil => simp only [embed, hunits]
  | cons front rest =>
    have hle : front.sizeBytes ≤ ring.bytes := by
      rw [h.1.bytes, hunits, totalBytes_cons]
      exact Nat.le_add_right _ _
    have hwraps : Words.subWraps ring.bytes front.sizeBytes = false :=
      decide_eq_false (Nat.not_lt.mpr hle)
    simp only [embed, hunits, hwraps, Words.sub_of_not_wraps h.2 hwraps, Bool.or_false]

theorem discardWhile_embed {condition : EncodedRingBuffer → Bool}
    (hcondition : ∀ r : EncodedRingBuffer, condition (embed r).ring = condition r) (n : ℕ) :
    ∀ {ring : EncodedRingBuffer}, Fits ring →
      Fits (EncodedRingBuffer.discardWhile condition n ring) ∧
        discardWhile condition n (embed ring) =
          embed (EncodedRingBuffer.discardWhile condition n ring) := by
  induction n with
  | zero => exact fun h => ⟨h, rfl⟩
  | succ n ih =>
    intro ring h
    rw [discardWhile, EncodedRingBuffer.discardWhile, hcondition]
    split
    · rw [discardFrontLocked_embed h]
      exact ih h.discardFrontLocked
    · exact ⟨h, rfl⟩

theorem iterate_embed (n : ℕ) : ∀ {ring : EncodedRingBuffer}, Fits ring →
    Fits (EncodedRingBuffer.discardFrontLocked^[n] ring) ∧
      discardFrontLocked^[n] (embed ring) =
        embed (EncodedRingBuffer.discardFrontLocked^[n] ring) := by
  induction n with
  | zero => exact fun h => ⟨h, rfl⟩
  | succ n ih =>
    intro ring h
    rw [Function.iterate_succ_apply, Function.iterate_succ_apply, discardFrontLocked_embed h]
    exact ih h.discardFrontLocked

theorem pruneByTimeLocked_embed (h : Fits ring) : Fits ring.pruneByTimeLocked ∧
    (embed ring).pruneByTimeLocked = embed ring.pruneByTimeLocked := by
  unfold WordRing.pruneByTimeLocked EncodedRingBuffer.pruneByTimeLocked
  rw [embed_units, embed_retentionNs, embed_latestSensorTimestampNs]
  split
  · exact ⟨h, rfl⟩
  · dsimp only
    cases newestIndependent (ring.latestSensorTimestampNs - ring.retentionNs) ring.units 0 none with
    | none => exact discardWhile_embed (fun _ => rfl) _ h
    | some keep => exact iterate_embed keep h

theorem pruneByBytesLocked_embed (h : Fits ring) : Fits ring.pruneByBytesLocked ∧
    (embed ring).pruneByBytesLocked = embed ring.pruneByBytesLocked := by
  unfold WordRing.pruneByBytesLocked EncodedRingBuffer.pruneByBytesLocked
  have hover : ∀ r : EncodedRingBuffer, overBytes (embed r).ring = overBytes r := fun _ => rfl
  obtain ⟨hfits, heq⟩ := discardWhile_embed hover ring.units.length h
  rw [embed_units, heq]
  exact discardWhile_embed (fun r => rfl) _ hfits

theorem resetLocked_embed (ring : EncodedRingBuffer) :
    (embed ring).resetLocked = embed ring.resetLocked := by
  simp only [WordRing.resetLocked, EncodedRingBuffer.resetLocked, embed, Words.add_mod_left]

theorem startEpoch_embed (ring : EncodedRingBuffer) (unit : EncodedAccessUnit) :
    (embed ring).startEpoch unit = (embed (ring.startEpoch unit).1, (ring.startEpoch unit).2) := by
  unfold WordRing.startEpoch EncodedRingBuffer.startEpoch
  rw [resetLocked_embed, embed_units, embed_generation, embed_latestSensorTimestampNs]
  split
  · rfl
  · split <;> rfl

/-- An addition that stays in range. -/
theorem append_embed {unit : EncodedAccessUnit} (h : ring.bytes + unit.sizeBytes < 2 ^ 64) :
    (embed ring).append unit = embed (ring.append unit) := by
  have hwraps : Words.addWraps 64 ring.bytes unit.sizeBytes = false :=
    decide_eq_false (Nat.not_le.mpr h)
  simp only [WordRing.append, EncodedRingBuffer.append, embed, hwraps,
    Words.add_of_not_wraps hwraps, Bool.or_false]

theorem startEpoch_bytes_le (ring : EncodedRingBuffer) (unit : EncodedAccessUnit) :
    (ring.startEpoch unit).1.bytes ≤ ring.bytes := by
  unfold EncodedRingBuffer.startEpoch
  split
  · exact Nat.zero_le _
  · split
    · exact Nat.zero_le _
    · exact Nat.le_refl _

/-- **A push in 64 bits is an exact push**: a unit that exists fits on top of what the ring
holds. -/
theorem push_embed {tracked : Tracked} {bound : ℕ} (h : Retains bound tracked)
    (hbytes : tracked.ring.bytes ≤ 2 ^ 63) (unit : Option StoredUnit) :
    (embed tracked.ring).push (unit.map (·.val)) =
      (embed (tracked.ring.push (unit.map (·.val))).1,
        (tracked.ring.push (unit.map (·.val))).2) := by
  cases unit with
  | none => rfl
  | some unit =>
    obtain ⟨unit, hunit⟩ := unit
    simp only [Option.map_some, WordRing.push, EncodedRingBuffer.push]
    have hrejection : (embed tracked.ring).ring.rejection? unit =
        tracked.ring.rejection? unit := rfl
    rw [hrejection]
    cases tracked.ring.rejection? unit with
    | some result => rfl
    | none =>
      rw [startEpoch_embed]
      dsimp only
      have hsum : (tracked.ring.startEpoch unit).1.bytes + unit.sizeBytes < 2 ^ 64 := by
        have := startEpoch_bytes_le tracked.ring unit
        omega
      have hfits : Fits ((tracked.ring.startEpoch unit).1.append unit) :=
        ⟨(h.append unit).1, hsum⟩
      rw [append_embed hsum, (pruneByTimeLocked_embed hfits).2,
        (pruneByBytesLocked_embed (pruneByTimeLocked_embed hfits).1).2]
      generalize ((tracked.ring.startEpoch unit).1.append unit).pruneByTimeLocked.pruneByBytesLocked
        = stored
      rfl

end WordRing

/-! ### Peaks and resets -/

@[simp] theorem discardFrontLocked_peakBytes (ring : EncodedRingBuffer) :
    ring.discardFrontLocked.peakBytes = ring.peakBytes := by
  unfold discardFrontLocked
  split <;> rfl

@[simp] theorem discardFrontLocked_resets (ring : EncodedRingBuffer) :
    ring.discardFrontLocked.resets = ring.resets := by
  unfold discardFrontLocked
  split <;> rfl

theorem startEpoch_counters (ring : EncodedRingBuffer) (unit : EncodedAccessUnit) :
    (ring.startEpoch unit).1.resets = ring.resets + (ring.startEpoch unit).2.isReset.toNat ∧
      (ring.startEpoch unit).1.peakBytes = ring.peakBytes := by
  unfold startEpoch
  split
  · exact ⟨rfl, rfl⟩
  · split <;> exact ⟨rfl, rfl⟩

/-- A push counts its own reset, and raises the peak to what it leaves. -/
theorem push_counters (ring : EncodedRingBuffer) (unit : Option EncodedAccessUnit) :
    (ring.push unit).1.resets = ring.resets + (ring.push unit).2.isReset.toNat ∧
      (ring.push unit).1.peakBytes =
        if (ring.push unit).2.rejected then ring.peakBytes
        else max ring.peakBytes (ring.push unit).1.bytes := by
  cases unit with
  | none => exact ⟨rfl, rfl⟩
  | some unit =>
    cases hrejection : ring.rejection? unit with
    | some result =>
      have hrejected := rejected_of_rejection? hrejection
      rw [push_rejected hrejection, hrejected]
      cases result with
      | rejectedInvalid => exact ⟨rfl, rfl⟩
      | rejectedOversize => exact ⟨rfl, rfl⟩
      | _ => cases hrejected
    | none =>
      obtain ⟨stored, hstored, hpush⟩ := push_stored hrejection
      have hopened : ((ring.startEpoch unit).1.append unit).resets =
            ring.resets + (ring.startEpoch unit).2.isReset.toNat ∧
          ((ring.startEpoch unit).1.append unit).peakBytes = ring.peakBytes :=
        startEpoch_counters ring unit
      obtain ⟨hresets, hpeak⟩ := (prune_induction (fun r =>
        r.resets = ring.resets + (ring.startEpoch unit).2.isReset.toNat ∧
          r.peakBytes = ring.peakBytes) (by simp) hopened)
      rw [← hstored] at hresets hpeak
      rw [hpush, not_rejected_startEpoch]
      exact ⟨hresets, by simp only [hpeak, Bool.false_eq_true, if_false]⟩

/-! ### Every run -/

/-- The exact operation behind a call. -/
def RingCall.op : RingCall → RingOp
  | .push unit => .push (unit.map (·.val))
  | .clear => .clear

theorem peakOf_snoc (log : List RingEvent) (event : RingEvent) :
    peakOf (log ++ [event]) = max (peakOf log) ((event.stored).getD 0) := by
  have hfoldr : ∀ (l : List ℕ) (n : ℕ), (l ++ [n]).foldr max 0 = max (l.foldr max 0) n := by
    intro l n
    induction l with
    | nil => simp
    | cons m l ih => rw [List.cons_append, List.foldr_cons, ih, List.foldr_cons, max_assoc]
  unfold peakOf
  cases hstored : event.stored with
  | none => simp [hstored]
  | some bytes => simp [List.filterMap_append, hstored, hfoldr]

/-- A run in 64 bits, and the exact run beside it. -/
structure Keeps (maxBytes : ℕ) (tracked : Tracked) (state : WordRing × List RingEvent) : Prop where
  retains : Retains maxBytes tracked
  limit : tracked.ring.maxBytes = maxBytes
  blank : Blank tracked.ring
  embed : state.1 = WordRing.embed tracked.ring
  peak : tracked.ring.peakBytes = peakOf state.2
  resets : tracked.ring.resets = state.2.countP RingEvent.isReset

theorem Keeps.represents {maxBytes : ℕ} {tracked : Tracked} {state : WordRing × List RingEvent}
    (h : Keeps maxBytes tracked state) : Represents maxBytes tracked.ring :=
  .of_retains h.retains h.blank

theorem Keeps.call {maxBytes : ℕ} {tracked : Tracked} {w : WordRing} {log : List RingEvent}
    (h : Keeps maxBytes tracked (w, log)) (hlimit : maxBytes ≤ 2 ^ 63) (c : RingCall) :
    Keeps maxBytes (tracked.apply c.op) ((w.call c).1, log ++ [(w.call c).2]) := by
  obtain ⟨hretains, -, hM⟩ := h.retains.apply h.limit c.op
  have hw : w = WordRing.embed tracked.ring := h.embed
  have hpeak : tracked.ring.peakBytes = peakOf log := h.peak
  have hresets : tracked.ring.resets = log.countP RingEvent.isReset := h.resets
  cases c with
  | clear =>
    refine ⟨hretains, hM.trans h.limit, fun _ => ⟨rfl, rfl⟩, ?_, ?_, ?_⟩
    · rw [hw]
      exact WordRing.resetLocked_embed tracked.ring
    · have hsame : (tracked.apply RingCall.clear.op).ring.peakBytes = tracked.ring.peakBytes := rfl
      rw [peakOf_snoc, hsame, hpeak]
      exact (Nat.max_zero _).symm
    · rw [List.countP_append, ← hresets]
      rfl
  | push unit =>
    have hbytes : tracked.ring.bytes ≤ 2 ^ 63 := h.represents.within.trans hlimit
    have hpush := WordRing.push_embed h.retains hbytes unit
    have hring : (tracked.apply (RingCall.push unit).op).ring =
        (tracked.ring.push (unit.map (·.val))).1 := by
      cases unit <;> rfl
    have hcall : w.call (.push unit) =
        (WordRing.embed (tracked.ring.push (unit.map (·.val))).1,
          .pushed (tracked.ring.push (unit.map (·.val))).2
            (tracked.ring.push (unit.map (·.val))).1.bytes) := by
      rw [hw, WordRing.call, hpush]
      rfl
    obtain ⟨hresets', hpeak'⟩ := push_counters tracked.ring (unit.map (·.val))
    have hblank := h.blank.push (unit.map (·.val))
    rw [← hring] at hblank
    rw [hcall]
    refine ⟨hretains, hM.trans h.limit, hblank, by rw [hring], ?_, ?_⟩
    all_goals
      rw [hring]
      generalize tracked.ring.push (unit.map (·.val)) = pushed at hresets' hpeak' ⊢
    · rw [hpeak', peakOf_snoc, hpeak, RingEvent.stored]
      cases pushed.2.rejected
      · rfl
      · exact (Nat.max_zero _).symm
    · rw [hresets', List.countP_append, ← hresets]
      cases hreset : pushed.2.isReset <;> simp [RingEvent.isReset, hreset]

theorem keeps_run {retentionNs maxBytes : ℕ} (hring : new retentionNs maxBytes = .ok ring)
    (hlimit : maxBytes ≤ 2 ^ 63) (calls : List RingCall) :
    Keeps maxBytes (Tracked.run ring (calls.map RingCall.op)) (WordRing.run ring calls) := by
  unfold Tracked.run WordRing.run
  induction calls using List.reverseRecOn with
  | nil =>
    obtain ⟨hretains, -, hM⟩ := retains_new maxBytes hring
    unfold new at hring
    split at hring
    · cases hring
    · split at hring
      · cases hring
      · cases hring
        exact ⟨hretains, hM, fun _ => ⟨rfl, rfl⟩, rfl, rfl, rfl⟩
  | append_singleton calls c ih =>
    rw [List.map_append, List.foldl_append, List.foldl_append]
    exact ih.call hlimit c

/-- A rejected push changes nothing. -/
theorem WordRing.push_of_rejected (w : WordRing) (unit : Option EncodedAccessUnit)
    (h : (w.push unit).2.rejected = true) : (w.push unit).1 = w := by
  cases unit with
  | none => rfl
  | some unit =>
    have haccepts : (w.startEpoch unit).2.rejected = false := by
      unfold WordRing.startEpoch
      split
      · rfl
      · split <;> rfl
    cases hrejection : w.ring.rejection? unit with
    | some result => simp only [WordRing.push, hrejection]
    | none =>
      simp only [WordRing.push, hrejection, haccepts] at h
      cases h

/-- **The representation of the ring**, whatever was pushed and cleared. The cached fields are in
step with the deque, no arithmetic on `bytes_` has wrapped, `peak_bytes_` is the greatest of the
values that `bytes_` had after a push, `resets_` counts the resets with the 64 bits that it has, and
a push that is rejected next changes nothing. -/
theorem WordRing.run_represents {retentionNs maxBytes : ℕ}
    (hring : new retentionNs maxBytes = .ok ring) (hlimit : maxBytes ≤ 2 ^ 63)
    (calls : List RingCall) :
    let w := (WordRing.run ring calls).1
    let log := (WordRing.run ring calls).2
    Represents maxBytes w.ring ∧ w.wrapped = false ∧ w.ring.peakBytes = peakOf log ∧
      w.ring.resets = log.countP RingEvent.isReset % 2 ^ 64 ∧
      ∀ unit, (w.push unit).2.rejected = true → (w.push unit).1 = w := by
  have h := keeps_run hring hlimit calls
  have hrepresents := h.represents
  have hpeak := h.peak
  have hresets := h.resets
  rw [h.embed]
  refine ⟨?_, rfl, hpeak, ?_, fun unit => WordRing.push_of_rejected _ unit⟩
  · obtain ⟨hbytes, hwithin, hgeneration, hordered, hlatest, hempty, hfront⟩ := hrepresents
    exact ⟨hbytes, hwithin, hgeneration, hordered, hlatest, hempty, hfront⟩
  · rw [← hresets]
    rfl

/-- A new generation, a delta unit that evicts its keyframe and then cannot stay, and a clear. -/
theorem WordRing.run_represents_evicted :
    let unit (time generation size : ℕ) (key : Bool) (h : size < 2 ^ 63) : StoredUnit :=
      ⟨.ofTest time generation key size,
        by simpa [EncodedAccessUnit.ofTest, EncodedAccessUnit.sizeBytes] using h⟩
    let calls : List RingCall := [.push (some (unit 1 1 4 true (by decide))),
      .push (some (unit 2 2 3 true (by decide))), .push none,
      .push (some (unit 3 2 4 false (by decide))), .clear]
    ∃ ring, new 100 6 = .ok ring ∧
      (let w := (WordRing.run ring calls).1
       let log := (WordRing.run ring calls).2
       Represents 6 w.ring ∧ w.wrapped = false ∧ w.ring.peakBytes = peakOf log ∧
        w.ring.resets = log.countP RingEvent.isReset % 2 ^ 64 ∧
        ∀ unit, (w.push unit).2.rejected = true → (w.push unit).1 = w) ∧
      (WordRing.run ring calls).2 = [.pushed .accepted 4, .pushed .resetForGeneration 3,
        .pushed .rejectedInvalid 3, .pushed .accepted 0, .cleared] := by
  intro unit calls
  exact ⟨_, rfl, WordRing.run_represents (show new 100 6 = .ok _ from rfl) (by decide) calls,
    by decide⟩

end EncodedRingBuffer

end EggVision
