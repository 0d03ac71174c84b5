import EggVision.App.Lifecycle
import EggVision.Ring.Counters

/-!
# What resets the history

The history throws everything away when a unit of another generation comes, or one that is older
than the last. The program gives it no such unit: the units of a generation come in the order of
their frames, and `main` clears the history between two generations. What the counter of resets
shows is the number of times that the encoder has been put in place again, or should have been.

## Main definitions

* `App.pending` — a recovery that has cleared the history, and is not over
* `App.Continues` — the invariant

## Main results

* `App.resets_eq`
-/

namespace EggVision

open Transition

/-! ### One unit -/

namespace EncodedRingBuffer

variable {ring : EncodedRingBuffer} {unit : EncodedAccessUnit}

/-- A unit that goes on where the history ends resets nothing. -/
theorem push_continues (h : ring.units ≠ [] → unit.generation = ring.generation ∧
    ring.latestSensorTimestampNs ≤ unit.sensorTimestampNs) :
    (ring.push (some unit)).1.resets = ring.resets := by
  have hreset : (ring.push (some unit)).2.isReset = false := by
    rw [push]
    cases hrejection : ring.rejection? unit with
    | some result =>
      have hrejected := rejected_of_rejection? hrejection
      cases result <;> first | rfl | cases hrejected
    | none =>
      show (ring.startEpoch unit).2.isReset = false
      by_cases hunits : ring.units = []
      · simp [startEpoch, hunits, EncodedRingPushResult.isReset]
      · obtain ⟨hgeneration, hlatest⟩ := h hunits
        have hnot := Nat.not_lt.mpr hlatest
        simp [startEpoch, hgeneration, hnot, EncodedRingPushResult.isReset]
  rw [(push_counters ring (some unit)).1, hreset]
  rfl

/-- The history ends with the unit that was pushed last, if it was taken and there is anything left
of it. -/
theorem push_newest (hunits : (ring.push (some unit)).1.units ≠ []) :
    ((ring.push (some unit)).1.generation = unit.generation ∧
        (ring.push (some unit)).1.latestSensorTimestampNs = unit.sensorTimestampNs) ∨
      (ring.push (some unit)).1 = ring := by
  rcases push_cases ring unit with ⟨hsame, -⟩ | ⟨-, -, hpush⟩
  · exact Or.inr hsame
  · refine Or.inl ?_
    rw [hpush] at hunits ⊢
    refine prune_induction (fun r => r.units ≠ [] → r.generation = unit.generation ∧
      r.latestSensorTimestampNs = unit.sensorTimestampNs) (fun r hr => ?_) (fun _ => ⟨rfl, rfl⟩)
      hunits
    unfold discardFrontLocked
    split
    · exact hr
    next front rest hcons =>
      intro hrest
      obtain ⟨hgeneration, hlatest⟩ := hr (by rw [hcons]; rintro ⟨⟩)
      have hne : rest.isEmpty = false := by simpa using hrest
      simp [hne, hgeneration, hlatest]

end EncodedRingBuffer

namespace EncoderStream

variable {s s' : EncoderStream} {a : StreamAction}

/-- A unit that is handed over is of the generation that is on. -/
def Current (s : EncoderStream) : Prop :=
  ∀ unit, s.output = .consuming unit → unit.generation = s.generation

theorem Current.of_output (h : s.Current) (houtput : s'.output = s.output)
    (hgeneration : s'.generation = s.generation) : s'.Current := by
  intro unit hunit
  rw [hgeneration]
  exact h unit (houtput.symm.trans hunit)

theorem Current.of_silent (hsilent : ∀ unit, s.output ≠ .consuming unit) : s.Current :=
  fun unit hunit => absurd hunit (hsilent unit)

theorem Current.step (h : s.Current) (hstart : StartsThreadless (s, a))
    (hs : s.step a = some s') : s'.Current := by
  cases a with
  | submit frame refused =>
    obtain rfl := Option.some.inj hs
    unfold submit
    split
    · exact h
    · exact h
  | input outcomes flow =>
    obtain ⟨_, _, _, _, _, _, rfl⟩ := inputStep_eq hs
    exact h
  | lose index =>
    obtain rfl := Option.some.inj hs
    exact h
  | output pulled throws =>
    replace hs : s.outputStep pulled throws = some s' := hs
    unfold outputStep at hs
    split at hs
    · cases hs
    · cases hs
    · obtain rfl := Option.some.inj hs
      exact .of_silent fun _ => by dsimp only; split <;> rintro ⟨⟩
    · split at hs
      · obtain rfl := Option.some.inj hs
        exact .of_silent fun _ => by rintro ⟨⟩
      · cases hs
      · obtain rfl := Option.some.inj hs
        exact .of_silent fun _ => by rintro ⟨⟩
    · split at hs
      · obtain rfl := Option.some.inj hs
        exact .of_silent fun _ => by rintro ⟨⟩
      · obtain rfl := Option.some.inj hs
        rintro unit ⟨⟩
        rfl
    · obtain rfl := Option.some.inj hs
      exact .of_silent fun _ => by rintro ⟨⟩
  | bus message =>
    obtain ⟨_, _, _, _, _, rfl⟩ := busStep_eq hs
    exact h
  | owner ok =>
    replace hs : s.ownerStep ok = some s' := hs
    unfold ownerStep at hs
    split at hs
    · cases hs
    · rw [← Option.some.inj hs]
      split
      · exact h
      · exact h
    · obtain ⟨-, rfl | rfl⟩ := spawn_eq_some hs
      · exact h
      · exact h
    · obtain ⟨-, rfl | rfl⟩ := spawn_eq_some hs
      · exact .of_silent fun _ => by rintro ⟨⟩
      · exact h
    · obtain ⟨-, rfl | rfl⟩ := spawn_eq_some hs
      · exact h
      · exact h
    · obtain rfl := Option.some.inj hs
      exact h
    · obtain rfl := Option.some.inj (Option.ite_none_right_eq_some.mp hs).2
      exact .of_silent fun _ => by rintro ⟨⟩
    · obtain rfl := Option.some.inj hs
      exact h
    · obtain rfl := Option.some.inj (Option.ite_none_right_eq_some.mp hs).2
      exact .of_silent fun _ => by rintro ⟨⟩
  | initializeEncoder ok =>
    obtain ⟨-, hs⟩ := Option.ite_none_right_eq_some.mp hs
    rw [← Option.some.inj hs]
    split
    · exact h
    · exact h
  | startEncoder =>
    obtain ⟨-, hs⟩ := Option.ite_none_right_eq_some.mp hs
    rw [← Option.some.inj hs]
    split_ifs
    · exact h
    · exact h
    · refine .of_silent fun unit hunit => ?_
      cases (Threadless.absent hstart).2.1.symm.trans hunit
  | stopEncoder =>
    obtain ⟨-, hs⟩ := Option.ite_none_right_eq_some.mp hs
    rw [← Option.some.inj hs]
    exact h

end EncoderStream

namespace App

variable {s s' : App} {ok : Bool} {fps : ℕ} {ring : EncodedRingBuffer}
  {history : List (App × AppAction)}

/-! ### The invariant -/

/-- The history has been cleared for a recovery that is not over. -/
def pending : MainStage → Bool
  | .recovering .initializeEncoder | .recovering .startEncoder => true
  | .recovering .independentFrame => true
  | _ => false

/-- The encoder is yet to be started, the first time or again. -/
def awaitsStart : MainStage → Bool
  | .initializing _ => true
  | .starting calls => decide (.encoder ∈ calls)
  | .recovering .initializeEncoder | .recovering .startEncoder => true
  | _ => false

structure Continues (s : App) : Prop where
  resets : s.ring.resets = s.recoveries + s.recoveryFailures + (pending s.stage).toNat
  empty : awaitsStart s.stage = true → s.mayRun = false → s.ring.units = []
  newest : s.ring.units ≠ [] → s.ring.generation = s.encoder.generation ∧
    (s.ring.generation, s.ring.latestSensorTimestampNs) ∈
      s.encoder.delivered.map EncoderStream.unitStamp

/-- `main` goes on, and the history is as it was. -/
theorem Continues.next (h : Continues s) (hring : s'.ring = s.ring)
    (hencoder : s'.encoder = s.encoder)
    (hresets : s'.recoveries + s'.recoveryFailures + (pending s'.stage).toNat =
      s.recoveries + s.recoveryFailures + (pending s.stage).toNat)
    (hempty : awaitsStart s'.stage = true → s'.mayRun = false →
      awaitsStart s.stage = true ∧ s.mayRun = false) : Continues s' where
  resets := by rw [hring, hresets, h.resets]
  empty := fun hawaits hrun => by
    obtain ⟨hawaits, hrun⟩ := hempty hawaits hrun
    rw [hring]
    exact h.empty hawaits hrun
  newest := by
    rw [hring, hencoder]
    exact h.newest

/-- `main` begins a call of the encoder. A generation begins with nothing in the history. -/
theorem Continues.begin (h : Continues s) {a : StreamAction} {encoder : EncoderStream}
    (hencoder : s.encoder.step a = some encoder) (ha : byThread a = false)
    (hstart : a = .startEncoder → awaitsStart s.stage = true ∧ s.mayRun = false)
    (hempty : awaitsStart s.stage = true →
      App.mayRun { s with encoder, calling := true } = false → s.mayRun = false) :
    Continues { s with encoder, calling := true } where
  resets := h.resets
  empty := fun hawaits hrun => h.empty hawaits (hempty hawaits hrun)
  newest := by
    intro hunits
    obtain ⟨hgeneration, hmem⟩ := h.newest hunits
    cases a with
    | initializeEncoder ok =>
      obtain ⟨-, hcall⟩ := Option.ite_none_right_eq_some.mp hencoder
      rw [← Option.some.inj hcall]
      split
      · exact ⟨hgeneration, hmem⟩
      · exact ⟨hgeneration, hmem⟩
    | startEncoder =>
      obtain ⟨hawaits, hrun⟩ := hstart rfl
      exact absurd (h.empty hawaits hrun) hunits
    | stopEncoder =>
      obtain ⟨-, hcall⟩ := Option.ite_none_right_eq_some.mp hencoder
      rw [← Option.some.inj hcall]
      exact ⟨hgeneration, hmem⟩
    | _ => cases ha

/-- `main` goes on with the startup condition, or gives it up. -/
theorem Continues.startup (h : Continues s) {call : StartCall} {calls : List StartCall}
    (hstage : s.stage = .starting (call :: calls)) (hcalling : s.calling = false)
    (hring : s'.ring = s.ring) (hencoder : s'.encoder = s.encoder)
    (hcount : s'.recoveries + s'.recoveryFailures = s.recoveries + s.recoveryFailures)
    (hstage' : s'.stage = .starting calls ∨ s'.stage = .stopping stopCalls .startupFailed) :
    Continues s' := by
  refine h.next hring hencoder ?_ fun hawaits _ => ?_
  · rw [hcount, hstage]
    rcases hstage' with hstage' | hstage'
    · rw [hstage']
      rfl
    · rw [hstage']
      rfl
  · rcases hstage' with hstage' | hstage'
    · rw [hstage', awaitsStart, decide_eq_true_iff] at hawaits
      have hmem : .encoder ∈ call :: calls := List.mem_cons_of_mem _ hawaits
      rw [mayRun_starting hstage hcalling, hstage]
      exact ⟨decide_eq_true hmem, decide_eq_false (not_not.mpr hmem)⟩
    · rw [hstage'] at hawaits
      cases hawaits

theorem Continues.main (h : Continues s) (hlife : Lifecycle s) (hs : s.mainStep ok = some s') :
    Continues s' := by
  unfold mainStep at hs
  split at hs
  all_goals rename_i hstage
  case h_1 =>
    obtain rfl := Option.some.inj hs
    exact h.next rfl rfl (by rw [hstage]; rfl) fun _ _ => by rw [mayRun, hstage]; exact ⟨rfl, rfl⟩
  case h_2 calls =>
    rcases encoderCall_cases hs with ⟨-, -, rfl⟩ | ⟨-, encoder, hencoder, rfl⟩
    · refine h.next rfl rfl ?_ fun _ _ => by rw [mayRun, hstage]; exact ⟨rfl, rfl⟩
      rw [hstage]
      cases s.encoder.result <;> rfl
    · exact h.begin hencoder rfl (by rintro ⟨⟩) fun _ _ => by rw [mayRun, hstage]
  case h_3 =>
    obtain rfl := Option.some.inj hs
    refine h.next rfl rfl ?_ fun _ _ => by rw [mayRun, hstage]; exact ⟨rfl, rfl⟩
    rw [hstage]
    cases ok <;> rfl
  case h_4 =>
    obtain rfl := Option.some.inj hs
    exact h.next rfl rfl (by rw [hstage]; rfl) (by rintro ⟨⟩)
  case h_5 | h_7 | h_8 | h_10 =>
    obtain rfl := Option.some.inj hs
    have hcalling := hlife.calling_eq_false (by rw [hstage]; rfl)
    refine h.startup hstage hcalling rfl rfl rfl ?_
    cases ok <;> simp [startService, afterStart]
  case h_6 calls =>
    rcases encoderCall_cases hs with ⟨-, -, rfl⟩ | ⟨hcalling, encoder, hencoder, rfl⟩
    · have hprogram : .encoder :: calls <:+ startupCalls := by
        have := hlife.program
        rwa [hstage] at this
      have hnodup : .encoder ∉ calls :=
        (List.nodup_cons.mp (hprogram.sublist.nodup (by decide))).1
      refine h.next rfl rfl ?_ fun hawaits _ => ?_
      · rw [hstage]
        cases s.encoder.result <;> rfl
      · cases hresult : s.encoder.result with
        | true =>
          simp only [hresult, startService, afterStart, awaitsStart] at hawaits
          exact absurd (of_decide_eq_true hawaits) hnodup
        | false => simp [hresult, startService, afterStart, awaitsStart] at hawaits
    · refine h.begin hencoder rfl (fun _ => ?_) fun _ hrun => ?_
      · rw [mayRun_starting hstage hcalling, hstage]
        exact ⟨by simp [awaitsStart], by simp⟩
      · simp [mayRun, hstage] at hrun
  case h_9 calls =>
    obtain rfl := Option.some.inj hs
    have hcalling := hlife.calling_eq_false (by rw [hstage]; rfl)
    refine h.startup hstage hcalling rfl rfl rfl ?_
    cases s.encoder.waitForIndependentFrame <;> simp [afterStart]
  case h_11 | h_18 =>
    obtain rfl := Option.some.inj hs
    refine h.next rfl rfl ?_ fun hawaits _ => ?_
    · rw [hstage]
      cases ok <;> rfl
    · cases ok <;> cases hawaits
  case h_12 =>
    obtain rfl := Option.some.inj hs
    refine h.next rfl rfl ?_ fun hawaits _ => ?_
    · rw [hstage]
      cases s.encoder.recoveryRequested <;> rfl
    · cases hrequested : s.encoder.recoveryRequested
      · rw [hrequested] at hawaits
        cases hawaits
      · rw [hrequested] at hawaits
        cases hawaits
  case h_13 =>
    rcases encoderCall_cases hs with ⟨-, -, rfl⟩ | ⟨-, encoder, hencoder, rfl⟩
    · exact h.next rfl rfl (by rw [hstage]; rfl) (by rintro ⟨⟩)
    · refine h.begin hencoder rfl (by rintro ⟨⟩) fun hawaits _ => ?_
      rw [hstage] at hawaits
      cases hawaits
  case h_14 =>
    obtain rfl := Option.some.inj hs
    refine ⟨?_, fun _ _ => rfl, fun hunits => absurd rfl hunits⟩
    have hresets := h.resets
    rw [hstage] at hresets
    exact congrArg Nat.succ hresets
  case h_15 =>
    rcases encoderCall_cases hs with ⟨-, -, rfl⟩ | ⟨-, encoder, hencoder, rfl⟩
    · cases hresult : s.encoder.result with
      | true =>
        exact h.next rfl rfl (by rw [hstage]; rfl) fun _ _ => by
          rw [mayRun, hstage]
          exact ⟨rfl, rfl⟩
      | false =>
        exact h.next rfl rfl (by rw [hstage]; exact Nat.add_right_comm _ _ _) (by rintro ⟨⟩)
    · exact h.begin hencoder rfl (by rintro ⟨⟩) fun _ _ => by rw [mayRun, hstage]
  case h_16 =>
    rcases encoderCall_cases hs with ⟨-, -, rfl⟩ | ⟨hcalling, encoder, hencoder, rfl⟩
    · cases hresult : s.encoder.result with
      | true => exact h.next rfl rfl (by rw [hstage]; rfl) (by rintro ⟨⟩)
      | false =>
        exact h.next rfl rfl (by rw [hstage]; exact Nat.add_right_comm _ _ _) (by rintro ⟨⟩)
    · refine h.begin hencoder rfl (fun _ => ?_) fun _ hrun => ?_
      · rw [mayRun, hstage]
        exact ⟨rfl, hcalling⟩
      · simp [mayRun, hstage] at hrun
  case h_17 =>
    split_ifs at hs
    · obtain rfl := Option.some.inj hs
      refine h.next rfl rfl ?_ (by rintro ⟨⟩)
      rw [hstage]
      show s.recoveries + 1 + s.recoveryFailures + 0 = s.recoveries + s.recoveryFailures + 1
      omega
    · obtain rfl := Option.some.inj hs
      refine h.next rfl rfl ?_ (by rintro ⟨⟩)
      rw [hstage]
      exact Nat.add_right_comm _ _ _
  case h_19 =>
    obtain rfl := Option.some.inj hs
    exact h.next rfl rfl (by rw [hstage]; rfl) (by rintro ⟨⟩)
  case h_20 =>
    rcases encoderCall_cases hs with ⟨-, -, rfl⟩ | ⟨-, encoder, hencoder, rfl⟩
    · exact h.next rfl rfl (by rw [hstage]; rfl) (by rintro ⟨⟩)
    · refine h.begin hencoder rfl (by rintro ⟨⟩) fun hawaits _ => ?_
      rw [hstage] at hawaits
      cases hawaits
  case h_21 =>
    obtain rfl := Option.some.inj hs
    exact h.next rfl rfl (by rw [hstage]; rfl) (by rintro ⟨⟩)
  case h_22 => cases hs

/-! ### A step of a thread -/

/-- What a thread adds to the units that are delivered. -/
theorem thread_delivered {encoder encoder' : EncoderStream} {a : StreamAction}
    (ha : byThread a = true) (hs : encoder.step a = some encoder') :
    encoder'.delivered = encoder.delivered ++ (consumed encoder a).toList ∧
      encoder'.generation = encoder.generation := by
  cases a with
  | submit frame refused =>
    obtain rfl := Option.some.inj hs
    unfold EncoderStream.submit
    split
    · exact ⟨(List.append_nil _).symm, rfl⟩
    · exact ⟨(List.append_nil _).symm, rfl⟩
  | input outcomes flow =>
    obtain ⟨_, _, _, _, _, _, rfl⟩ := EncoderStream.inputStep_eq hs
    exact ⟨(List.append_nil _).symm, rfl⟩
  | lose index =>
    obtain rfl := Option.some.inj hs
    exact ⟨(List.append_nil _).symm, rfl⟩
  | output pulled throws =>
    refine ⟨?_, (EncoderStream.outputStep_seen hs).1⟩
    replace hs : encoder.outputStep pulled throws = some encoder' := hs
    unfold EncoderStream.outputStep at hs
    cases houtput : encoder.output with
    | absent => simp [houtput] at hs
    | exited => simp [houtput] at hs
    | checking =>
      simp only [houtput, Option.some.injEq] at hs
      subst hs
      simp [consumed, houtput]
    | pulling =>
      simp only [houtput] at hs
      split at hs
      · obtain rfl := Option.some.inj hs
        simp [consumed, houtput]
      · cases hs
      · obtain rfl := Option.some.inj hs
        simp [consumed, houtput]
    | mapping sample =>
      simp only [houtput] at hs
      split at hs
      · obtain rfl := Option.some.inj hs
        simp [consumed, houtput]
      · obtain rfl := Option.some.inj hs
        simp [consumed, houtput]
    | consuming unit =>
      simp only [houtput, Option.some.injEq] at hs
      subst hs
      simp [consumed, houtput]
  | bus message =>
    obtain ⟨_, _, _, _, _, rfl⟩ := EncoderStream.busStep_eq hs
    exact ⟨(List.append_nil _).symm, rfl⟩
  | owner ok =>
    obtain ⟨_, _, _, _, _, _, _, _, _, _, _, rfl⟩ := EncoderStream.ownerStep_eq hs
    exact ⟨(List.append_nil _).symm, rfl⟩
  | initializeEncoder ok => cases ha
  | startEncoder => cases ha
  | stopEncoder => cases ha

theorem consumed_eq_some {encoder : EncoderStream} {a : StreamAction} {unit : EncodedAccessUnit}
    (h : consumed encoder a = some unit) : encoder.output = .consuming unit := by
  unfold consumed at h
  split at h
  · rename_i hstage
    rw [hstage, Option.some.inj h]
  · cases h

/-- A unit that is handed over comes after those that are in the history. -/
theorem Continues.follows (h : Continues s) {sent : List (ℕ × ℕ)}
    (hstamped : EncoderStream.Stamped sent s.encoder) (hmono : EncoderStream.Monotonic sent)
    {unit : EncodedAccessUnit} (houtput : s.encoder.output = .consuming unit)
    (hgeneration : unit.generation = s.encoder.generation) (hunits : s.ring.units ≠ []) :
    unit.generation = s.ring.generation ∧
      s.ring.latestSensorTimestampNs ≤ unit.sensorTimestampNs := by
  obtain ⟨hring, hmem⟩ := h.newest hunits
  refine ⟨hgeneration.trans hring.symm, ?_⟩
  have hpairwise := hmono.pairwise.sublist hstamped.sublist
  rw [EncoderStream.units] at hpairwise
  refine (List.pairwise_append.mp hpairwise).2.2 _ hmem (EncoderStream.unitStamp unit) ?_
  simp [EncoderStream.carried, EncoderStream.stamped, EncoderStream.handing, houtput,
    EncoderStream.unitStamp]

theorem Continues.thread (h : Continues s) (hlife : Lifecycle s) {sent : List (ℕ × ℕ)}
    (hstamped : EncoderStream.Stamped sent s.encoder) (hmono : EncoderStream.Monotonic sent)
    (hcurrent : s.encoder.Current) {a : StreamAction} (hs : s.threadStep a = some s') :
    Continues s' := by
  obtain ⟨ha, hs⟩ := Option.ite_none_right_eq_some.mp hs
  obtain ⟨encoder, hencoder, rfl⟩ := Option.map_eq_some_iff.mp hs
  obtain ⟨hdelivered, hgeneration⟩ := thread_delivered ha hencoder
  cases hconsumed : consumed s.encoder a with
  | none =>
    rw [hconsumed, Option.toList_none, List.append_nil] at hdelivered
    refine ⟨h.resets, h.empty, fun hunits => ?_⟩
    show s.ring.generation = encoder.generation ∧ _ ∈ encoder.delivered.map _
    rw [hgeneration, hdelivered]
    exact h.newest hunits
  | some unit =>
    have houtput := consumed_eq_some hconsumed
    have hfollows := h.follows hstamped hmono houtput (hcurrent unit houtput)
    rw [hconsumed, Option.toList_some] at hdelivered
    refine ⟨?_, fun _ hrun => ?_, fun hunits => ?_⟩
    · exact (EncodedRingBuffer.push_continues hfollows).trans h.resets
    · have habsent := (hlife.down hrun).1.absent.2.1
      rw [houtput] at habsent
      cases habsent
    · show (s.ring.push (some unit)).1.generation = encoder.generation ∧
        _ ∈ encoder.delivered.map _
      rw [hgeneration, hdelivered, List.map_append]
      rcases EncodedRingBuffer.push_newest hunits with ⟨hnewest, hlatest⟩ | hsame
      · refine ⟨hnewest.trans (hcurrent unit houtput), List.mem_append_right _ ?_⟩
        show ((s.ring.push (some unit)).1.generation, _) ∈ _
        rw [hnewest]
        show (_, (s.ring.push (some unit)).1.latestSensorTimestampNs) ∈ _
        rw [hlatest]
        exact List.mem_singleton_self _
      · have hbefore : s.ring.units ≠ [] := by
          rwa [← hsame]
        obtain ⟨hring, hmem⟩ := h.newest hbefore
        show (s.ring.push (some unit)).1.generation = _ ∧
          ((s.ring.push (some unit)).1.generation,
            (s.ring.push (some unit)).1.latestSensorTimestampNs) ∈ _
        rw [hsame]
        exact ⟨hring, List.mem_append_left _ hmem⟩

/-! ### Every run -/

theorem encoderHistory_snoc (history : List (App × AppAction)) (x : App × AppAction) :
    encoderHistory (history ++ [x]) = encoderHistory history ++ encoderHistory [x] :=
  List.filterMap_append

theorem frames_append (earlier later : List (EncoderStream × StreamAction)) :
    EncoderStream.frames (earlier ++ later) =
      EncoderStream.frames earlier ++ EncoderStream.frames later :=
  List.filterMap_append

/-- No unit is handed over in a generation that it is not of. -/
theorem current_of_run (h : Run App.step (initial fps ring) history s) : s.encoder.Current :=
  (Run.forall_of EncoderStream.Current (fun s a => EncoderStream.StartsThreadless (s, a))
    (.of_silent fun _ => by rintro ⟨⟩) (fun _ _ _ _ hcurrent hstart hs => hcurrent.step hstart hs)
    (run_encoder h) (startsThreadless h).1).2

theorem continues_of_run {retentionNs maxBytes : ℕ}
    (hring : EncodedRingBuffer.new retentionNs maxBytes = .ok ring)
    (h : Run App.step (initial fps ring) history s)
    (hkeeps : ∀ x ∈ encoderHistory history, EncoderStream.KeepsPts x)
    (hmono : EncoderStream.Monotonic (EncoderStream.frames (encoderHistory history))) :
    Continues s := by
  induction h with
  | nil =>
    obtain ⟨hunits, hresets⟩ : ring.units = [] ∧ ring.resets = 0 := by
      unfold EncodedRingBuffer.new at hring
      split_ifs at hring
      obtain rfl := Except.ok.inj hring
      exact ⟨rfl, rfl⟩
    exact ⟨hresets, fun _ _ => hunits, fun hne => absurd hunits hne⟩
  | @snoc history s s' a hrun hs ih =>
    rw [encoderHistory_snoc] at hkeeps hmono
    rw [frames_append] at hmono
    have hkept : ∀ x ∈ encoderHistory history, EncoderStream.KeepsPts x :=
      fun x hx => hkeeps x (List.mem_append_left _ hx)
    have hcontinues := ih hkept hmono.left
    have hlife := lifecycle_of_reachable hrun.reachable
    cases a with
    | main ok => exact hcontinues.main hlife hs
    | thread a =>
      have hstamped := EncoderStream.stamped_of_run (run_encoder hrun) hkept
        (startsThreadless hrun).1 hmono.left
      exact hcontinues.thread hlife hstamped hmono.left (current_of_run hrun) hs

/-- **What the counter of resets counts.** In every run of the program in which the frames of the
camera have sensor timestamps that never go back and the pipeline keeps the presentation times, the
history has been reset as often as a recovery has been tried: no unit has ever reset it. -/
theorem resets_eq {retentionNs maxBytes : ℕ}
    (hring : EncodedRingBuffer.new retentionNs maxBytes = .ok ring)
    (h : Run App.step (initial fps ring) history s)
    (hkeeps : ∀ x ∈ encoderHistory history, EncoderStream.KeepsPts x)
    (hmono : EncoderStream.Monotonic (EncoderStream.frames (encoderHistory history))) :
    s.ring.resets = s.recoveries + s.recoveryFailures + (pending s.stage).toNat :=
  (continues_of_run hring h hkeeps hmono).resets

/-- The encoder fails once it is up, and another one is put in its place, which delivers a frame. -/
def recover : List AppAction :=
  let outcomes : RawOutcomes :=
    { buffer := true, allocator := true, duplicated := fun _ => true, allocated := fun _ => true }
  let sample : GstSample :=
    { pts := some 0, duration := none, deltaUnit := false
      data := some [0, 0, 0, 1, 0x67, 0, 0, 1, 0x68, 0, 0, 1, 0x65] }
  [.thread (.output none false), .main true, .main true, .main false] ++
    [.thread (.bus true), .thread (.bus false), .thread (.bus false), .main true, .main true,
      .thread (.owner true), .thread (.input outcomes .ok), .thread (.output none false),
      .thread (.owner true)] ++
    List.replicate 5 (.main true) ++ List.replicate 4 (.thread (.owner true)) ++ [.main true] ++
    [.thread (.submit { main := { planes := [{}] }, sensorTimestampNs := 9 } false)] ++
    List.replicate 4 (.thread (.input outcomes .ok)) ++
    List.replicate 3 (.thread (.output (some sample) false)) ++
    [.thread (.output none false), .main true]

theorem resets_eq_recover : ∃ history s, Run App.step (initial 30 someRing) history s ∧
    s.recoveries = 1 ∧ s.ring.units.length = 1 ∧ s.ring.resets = 1 := by
  obtain ⟨s, hs, hstate⟩ := (Option.any_eq_true _ _).mp
    (show (exec App.step (initial 30 someRing) (comeUp ++ recover)).any (fun s =>
      s.recoveries == 1 && s.ring.units.length == 1 && s.recoveryFailures == 0 &&
        s.stage == .ticking) = true by decide)
  simp only [Bool.and_eq_true, beq_iff_eq] at hstate
  obtain ⟨⟨⟨hrecoveries, hunits⟩, hfailures⟩, hstage⟩ := hstate
  have hrun := Run.ofExec (comeUp ++ recover) hs
  have hframes : EncoderStream.frames (encoderHistory
      (trace App.step (initial 30 someRing) (comeUp ++ recover))) = [(1, 5), (2, 9)] := by
    decide
  have hring : EncodedRingBuffer.new 4000000000 1000 = .ok someRing := rfl
  have hresets := resets_eq hring hrun (by decide) (by rw [hframes]; exact ⟨by decide, by decide⟩)
  rw [hrecoveries, hfailures, hstage] at hresets
  exact ⟨_, s, hrun, hrecoveries, hunits, hresets⟩

end App

end EggVision
