import EggVision.App.Main

/-!
# Up and down

`main` makes the calls of the encoder one after the other, and each in a state that is fit for it. A
thread is started only where there is none: the assignment to a thread object that has one would
end the program. The listener opens when there is a frame to be seen, and whatever `main` has
brought up it takes down, the camera first.

## Main definitions

* `App.mayRun` — the encoder may have threads
* `App.Lifecycle` — the invariant

## Main results

* `App.startsThreadless`, `App.listens_after_frame`, `App.shutdown`
-/

namespace EggVision

open Transition

/-! ### The encoder, between two calls -/

namespace EncoderStream

variable {s s' : EncoderStream} {a : StreamAction}

/-- What the threads, the pipeline and the camera leave as it is. -/
structure Kept (s s' : EncoderStream) : Prop where
  owner : s'.owner = s.owner
  result : s'.result = s.result
  generation : s'.generation = s.generation
  threadless : s.Threadless → s'.Threadless

theorem step_kept (ha : App.byThread a = true) (hs : s.step a = some s') :
    Kept s s' ∨ ∃ ok, a = .owner ok ∧ s.ownerStep ok = some s' := by
  cases a with
  | submit frame refused =>
    obtain rfl := Option.some.inj hs
    unfold submit
    split
    · exact Or.inl ⟨rfl, rfl, rfl, id⟩
    · exact Or.inl ⟨rfl, rfl, rfl, id⟩
  | input outcomes flow =>
    have hnot : ¬ s.Threadless := by
      intro h
      simp [step, inputStep, h.absent.1] at hs
    obtain ⟨_, _, _, _, _, _, rfl⟩ := inputStep_eq hs
    exact Or.inl ⟨rfl, rfl, rfl, fun h => absurd h hnot⟩
  | lose index =>
    obtain rfl := Option.some.inj hs
    exact Or.inl ⟨rfl, rfl, rfl, id⟩
  | output pulled throws =>
    have hnot : ¬ s.Threadless := by
      intro h
      simp [step, outputStep, h.absent.2.1] at hs
    obtain ⟨_, _, _, _, _, _, _, rfl⟩ := outputStep_eq hs
    exact Or.inl ⟨rfl, rfl, rfl, fun h => absurd h hnot⟩
  | bus message =>
    have hnot : ¬ s.Threadless := by
      intro h
      simp [step, busStep, h.absent.2.2] at hs
    obtain ⟨_, _, _, _, _, rfl⟩ := busStep_eq hs
    exact Or.inl ⟨rfl, rfl, rfl, fun h => absurd h hnot⟩
  | owner ok => exact Or.inr ⟨ok, rfl, hs⟩
  | initializeEncoder ok => cases ha
  | startEncoder => cases ha
  | stopEncoder => cases ha

/-- A step that is not a call leaves an idle encoder idle. -/
theorem kept_of_idle (howner : s.owner = .idle) (ha : App.byThread a = true)
    (hs : s.step a = some s') : Kept s s' := by
  rcases step_kept ha hs with h | ⟨ok, -, hok⟩
  · exact h
  · simp [ownerStep, howner] at hok

/-- `stop` is on its way, or has joined the threads. -/
def Stopping (s : EncoderStream) : Prop :=
  s.owner = .closing ∨ s.owner = .joining ∨ s.owner = .idle ∧ s.Threadless

theorem Stopping.thread (h : s.Stopping) (ha : App.byThread a = true)
    (hs : s.step a = some s') : s'.Stopping := by
  rcases step_kept ha hs with hkept | ⟨ok, -, hok⟩
  · rcases h with h | h | ⟨howner, hthreadless⟩
    · exact Or.inl (hkept.owner.trans h)
    · exact Or.inr (Or.inl (hkept.owner.trans h))
    · exact Or.inr (Or.inr ⟨hkept.owner.trans howner, hkept.threadless hthreadless⟩)
  · rcases h with h | h | ⟨howner, -⟩
    · simp only [ownerStep, h, Option.some.injEq] at hok
      subst hok
      exact Or.inr (Or.inl rfl)
    · simp only [ownerStep, h, Option.ite_none_right_eq_some, Option.some.injEq] at hok
      obtain ⟨-, rfl⟩ := hok
      exact Or.inr (Or.inr ⟨rfl, trivial⟩)
    · simp [ownerStep, howner] at hok

/-- The thread objects that `start` has still to assign are free. -/
def Spawnable (s : EncoderStream) : Prop :=
  match s.owner with
  | .playing | .spawningInput => s.Threadless
  | .spawningOutput => s.output = .absent ∧ s.bus = .absent
  | .spawningBus => s.bus = .absent
  | _ => True

theorem Spawnable.of_idle (h : s.owner = .idle) : s.Spawnable := by
  rw [Spawnable, h]
  trivial

theorem Spawnable.ownerStep (h : s.Spawnable) {ok : Bool} (hs : s.ownerStep ok = some s') :
    s'.Spawnable := by
  unfold Spawnable at h
  unfold EncoderStream.ownerStep at hs
  cases howner : s.owner <;> simp only [howner] at h hs
  case idle => cases hs
  case playing =>
    rw [← Option.some.inj hs]
    split
    · exact h
    · exact .of_idle rfl
  case spawningInput =>
    obtain ⟨-, rfl | rfl⟩ := spawn_eq_some hs
    · exact h.absent.2
    · trivial
  case spawningOutput =>
    obtain ⟨-, rfl | rfl⟩ := spawn_eq_some hs
    · exact h.2
    · trivial
  case spawningBus =>
    obtain ⟨-, rfl | rfl⟩ := spawn_eq_some hs
    · exact .of_idle rfl
    · trivial
  case unwinding | closing =>
    obtain rfl := Option.some.inj hs
    trivial
  case abandoning | joining =>
    obtain ⟨-, hs⟩ := Option.ite_none_right_eq_some.mp hs
    obtain rfl := Option.some.inj hs
    exact .of_idle rfl

theorem Spawnable.step (h : s.Spawnable) (hstart : StartsThreadless (s, a))
    (hs : s.step a = some s') : s'.Spawnable := by
  cases a with
  | submit frame refused =>
    obtain rfl := Option.some.inj hs
    unfold submit
    split
    · exact h
    · exact h
  | input outcomes flow =>
    have hpresent : s.input ≠ .absent := by
      intro habsent
      simp [EncoderStream.step, inputStep, habsent] at hs
    obtain ⟨_, _, _, _, _, _, rfl⟩ := inputStep_eq hs
    unfold Spawnable at h ⊢
    cases howner : s.owner <;> simp only [howner] at h ⊢
    case playing | spawningInput => exact absurd h.absent.1 hpresent
    case spawningOutput | spawningBus => exact h
  | lose index =>
    obtain rfl := Option.some.inj hs
    exact h
  | output pulled throws =>
    have hpresent : s.output ≠ .absent := by
      intro habsent
      simp [EncoderStream.step, outputStep, habsent] at hs
    obtain ⟨_, _, _, _, _, _, _, rfl⟩ := outputStep_eq hs
    unfold Spawnable at h ⊢
    cases howner : s.owner <;> simp only [howner] at h ⊢
    case playing | spawningInput => exact absurd h.absent.2.1 hpresent
    case spawningOutput => exact absurd h.1 hpresent
    case spawningBus => exact h
  | bus message =>
    have hpresent : s.bus ≠ .absent := by
      intro habsent
      simp [EncoderStream.step, busStep, habsent] at hs
    obtain ⟨_, _, _, _, _, rfl⟩ := busStep_eq hs
    unfold Spawnable at h ⊢
    cases howner : s.owner <;> simp only [howner] at h ⊢
    case playing | spawningInput => exact absurd h.absent.2.2 hpresent
    case spawningOutput => exact absurd h.2 hpresent
    case spawningBus => exact absurd h hpresent
  | owner ok => exact h.ownerStep hs
  | initializeEncoder ok =>
    obtain ⟨howner, hs⟩ := Option.ite_none_right_eq_some.mp hs
    rw [← Option.some.inj hs]
    split
    · exact .of_idle howner
    · exact .of_idle howner
  | startEncoder =>
    obtain ⟨howner, hs⟩ := Option.ite_none_right_eq_some.mp hs
    rw [← Option.some.inj hs]
    split_ifs
    · exact .of_idle howner
    · exact .of_idle howner
    · exact hstart
  | stopEncoder =>
    obtain ⟨-, hs⟩ := Option.ite_none_right_eq_some.mp hs
    rw [← Option.some.inj hs]
    trivial

/-- The next thread is started, or cannot be: it never meets a thread object that has one. -/
theorem Spawnable.isSome (h : s.Spawnable) (ok : Bool)
    (howner : s.owner = .spawningInput ∨ s.owner = .spawningOutput ∨ s.owner = .spawningBus) :
    (s.ownerStep ok).isSome := by
  unfold Spawnable at h
  rcases howner with howner | howner | howner <;> simp only [howner] at h
  · simp [EncoderStream.ownerStep, howner, spawn, h.absent.1]
  · simp [EncoderStream.ownerStep, howner, spawn, h.1]
  · simp [EncoderStream.ownerStep, howner, spawn, h]

/-- A unit that can be decoded on its own has come out of this generation. -/
def Ready (s : EncoderStream) : Prop :=
  ∃ unit, (unit ∈ s.delivered ∨ s.output = .consuming unit) ∧
    unit.generation = s.generation ∧ unit.independentlyDecodable = true

/-- No unit is taken back. -/
theorem Ready.mono (h : s.Ready) (hgeneration : s'.generation = s.generation)
    (hdelivered : ∀ unit ∈ s.delivered, unit ∈ s'.delivered)
    (houtput : ∀ unit, s.output = .consuming unit →
      unit ∈ s'.delivered ∨ s'.output = .consuming unit) : s'.Ready := by
  obtain ⟨unit, hunit, hunits, hdecodable⟩ := h
  refine ⟨unit, ?_, hunits.trans hgeneration.symm, hdecodable⟩
  rcases hunit with hunit | hunit
  · exact Or.inl (hdelivered unit hunit)
  · exact houtput unit hunit

theorem Joined.not_consuming (h : s.Joined) (unit : EncodedAccessUnit) :
    s.output ≠ .consuming unit := by
  intro houtput
  have hjoined := h.2.1
  rw [houtput] at hjoined
  exact hjoined

theorem seen_of_ownerStep {ok : Bool} (h : s.independentFrameSeen = true → s.Ready)
    (hs : s.ownerStep ok = some s') : s'.independentFrameSeen = true → s'.Ready := by
  have hsame : s'.independentFrameSeen = s.independentFrameSeen ∧ s'.delivered = s.delivered ∧
      s'.generation = s.generation := by
    obtain ⟨_, _, _, _, _, _, _, _, _, _, _, rfl⟩ := ownerStep_eq hs
    exact ⟨rfl, rfl, rfl⟩
  obtain ⟨hseen, hdelivered, hgeneration⟩ := hsame
  intro hseen'
  refine (h (hseen ▸ hseen')).mono hgeneration (fun unit hunit => hdelivered ▸ hunit) ?_
  intro unit hunit
  unfold ownerStep at hs
  split at hs
  · cases hs
  · rw [← Option.some.inj hs]
    split
    · exact Or.inr hunit
    · exact Or.inr hunit
  · obtain ⟨-, rfl | rfl⟩ := spawn_eq_some hs
    · exact Or.inr hunit
    · exact Or.inr hunit
  · obtain ⟨hfree, -⟩ := spawn_eq_some hs
    rw [hunit] at hfree
    cases hfree
  · obtain ⟨-, rfl | rfl⟩ := spawn_eq_some hs
    · exact Or.inr hunit
    · exact Or.inr hunit
  · obtain rfl := Option.some.inj hs
    exact Or.inr hunit
  · exact absurd hunit ((Option.ite_none_right_eq_some.mp hs).1.not_consuming unit)
  · obtain rfl := Option.some.inj hs
    exact Or.inr hunit
  · exact absurd hunit ((Option.ite_none_right_eq_some.mp hs).1.not_consuming unit)

theorem seen_of_outputStep {pulled : Option GstSample} {throws : Bool}
    (h : s.independentFrameSeen = true → s.Ready) (hs : s.outputStep pulled throws = some s') :
    s'.independentFrameSeen = true → s'.Ready := by
  intro hseen
  unfold outputStep at hs
  cases houtput : s.output with
  | absent => simp [houtput] at hs
  | exited => simp [houtput] at hs
  | checking =>
    simp only [houtput, Option.some.injEq] at hs
    subst hs
    exact (h hseen).mono rfl (fun _ h => h) (by rw [houtput]; rintro _ ⟨⟩)
  | pulling =>
    simp only [houtput] at hs
    split at hs
    · obtain rfl := Option.some.inj hs
      exact (h hseen).mono rfl (fun _ h => h) (by rw [houtput]; rintro _ ⟨⟩)
    · cases hs
    · obtain rfl := Option.some.inj hs
      exact (h hseen).mono rfl (fun _ h => h) (by rw [houtput]; rintro _ ⟨⟩)
  | mapping sample =>
    simp only [houtput] at hs
    split at hs
    · obtain rfl := Option.some.inj hs
      exact (h hseen).mono rfl (fun _ h => h) (by rw [houtput]; rintro _ ⟨⟩)
    next bytes hbytes =>
      obtain rfl := Option.some.inj hs
      rcases Bool.or_eq_true_iff.mp hseen with hbefore | hdecodable
      · exact (h hbefore).mono rfl (fun _ h => h) (by rw [houtput]; rintro _ ⟨⟩)
      · exact ⟨_, Or.inr rfl, rfl, hdecodable⟩
  | consuming unit =>
    simp only [houtput, Option.some.injEq] at hs
    subst hs
    refine (h hseen).mono rfl (fun _ h => List.mem_append_left _ h) fun other hother => ?_
    rw [houtput] at hother
    obtain rfl := OutputStage.consuming.inj hother
    exact Or.inl (List.mem_append_right _ (List.mem_singleton_self _))

theorem outputStep_seen {pulled : Option GstSample} {throws : Bool}
    (hs : s.outputStep pulled throws = some s') : s'.generation = s.generation ∧
      (s.independentFrameSeen = true → s'.independentFrameSeen = true) := by
  unfold outputStep at hs
  split at hs
  · cases hs
  · cases hs
  · obtain rfl := Option.some.inj hs
    exact ⟨rfl, id⟩
  · split at hs
    · obtain rfl := Option.some.inj hs
      exact ⟨rfl, id⟩
    · cases hs
    · obtain rfl := Option.some.inj hs
      exact ⟨rfl, id⟩
  · split at hs
    · obtain rfl := Option.some.inj hs
      exact ⟨rfl, id⟩
    · obtain rfl := Option.some.inj hs
      exact ⟨rfl, fun hseen => by simp [hseen]⟩
  · obtain rfl := Option.some.inj hs
    exact ⟨rfl, id⟩

/-- The flag that `waitForIndependentFrame` waits for says what it is for. -/
theorem seen_of_step (h : s.independentFrameSeen = true → s.Ready) (hs : s.step a = some s') :
    s'.independentFrameSeen = true → s'.Ready := by
  cases a with
  | submit frame refused =>
    obtain rfl := Option.some.inj hs
    unfold submit
    split
    · exact h
    · exact h
  | input outcomes flow =>
    obtain ⟨_, _, _, _, _, _, rfl⟩ := inputStep_eq hs
    exact h
  | lose index =>
    obtain rfl := Option.some.inj hs
    exact h
  | output pulled throws => exact seen_of_outputStep h hs
  | bus message =>
    obtain ⟨_, _, _, _, _, rfl⟩ := busStep_eq hs
    exact h
  | owner ok => exact seen_of_ownerStep h hs
  | initializeEncoder ok =>
    obtain ⟨-, hs⟩ := Option.ite_none_right_eq_some.mp hs
    rw [← Option.some.inj hs]
    split
    · exact h
    · exact h
  | startEncoder =>
    obtain ⟨-, hs⟩ := Option.ite_none_right_eq_some.mp hs
    rw [← Option.some.inj hs]
    split_ifs
    · exact h
    · exact h
    · rintro ⟨⟩
  | stopEncoder =>
    obtain ⟨-, hs⟩ := Option.ite_none_right_eq_some.mp hs
    rw [← Option.some.inj hs]
    exact h

end EncoderStream

/-! ### What `main` knows -/

namespace App

variable {s s' : App} {ok : Bool}

/-- The encoder may have threads. -/
def mayRun (s : App) : Bool :=
  match s.stage with
  | .initializing _ | .exited _ => false
  | .starting (.encoder :: _) => s.calling
  | .starting calls => decide (.encoder ∉ calls)
  | .recovering .startEncoder => s.calling
  | .recovering .clear | .recovering .initializeEncoder => false
  | .stopping calls _ => decide (.encoder ∈ calls)
  | _ => true

/-- The next call is `stop` of the encoder. -/
def stopsEncoder : MainStage → Bool
  | .recovering .stopEncoder | .stopping (.encoder :: _) _ => true
  | _ => false

/-- `main` is inside a call of the encoder, or about to make one. -/
def callsEncoder : MainStage → Bool
  | .initializing (.encoder :: _) | .starting (.encoder :: _) | .stopping (.encoder :: _) _ => true
  | .recovering .stopEncoder | .recovering .initializeEncoder | .recovering .startEncoder => true
  | _ => false

/-- The calls that are still to be made are the last ones of their list. -/
def InProgram : MainStage → Prop
  | .initializing calls => calls <:+ initializeCalls
  | .starting calls => calls <:+ startupCalls
  | .stopping calls _ => calls <:+ stopCalls
  | _ => True

/-- The invariant. -/
structure Lifecycle (s : App) : Prop where
  program : InProgram s.stage
  calls : s.calling = true → callsEncoder s.stage = true
  idle : s.calling = false → s.encoder.owner = .idle
  stopping : s.calling = true → stopsEncoder s.stage = true → s.encoder.Stopping
  down : s.mayRun = false → s.encoder.Threadless ∧ s.encoder.owner = .idle

theorem encoderCall_cases {a : StreamAction} {next : Bool → App → App}
    (hs : s.encoderCall a next = some s') :
    (s.calling = true ∧ s.encoder.owner = .idle ∧
        s' = { next s.encoder.result s with calling := false }) ∨
      (s.calling = false ∧ ∃ encoder, s.encoder.step a = some encoder ∧
        s' = { s with encoder, calling := true }) := by
  unfold encoderCall at hs
  cases hcalling : s.calling with
  | true =>
    rw [if_pos hcalling] at hs
    obtain ⟨howner, hs⟩ := Option.ite_none_right_eq_some.mp hs
    exact Or.inl ⟨rfl, howner, (Option.some.inj hs).symm⟩
  | false =>
    rw [if_neg (by simp [hcalling])] at hs
    obtain ⟨encoder, hencoder, rfl⟩ := Option.map_eq_some_iff.mp hs
    exact Or.inr ⟨rfl, encoder, hencoder, rfl⟩

/-- `main` goes on, with the encoder as it is. -/
theorem Lifecycle.next (hcalling : s'.calling = false) (howner : s'.encoder.owner = .idle)
    (hprogram : InProgram s'.stage) (hdown : s'.mayRun = false → s'.encoder.Threadless) :
    Lifecycle s' where
  program := hprogram
  calls := fun h => by simp [hcalling] at h
  idle := fun _ => howner
  stopping := fun h => by simp [hcalling] at h
  down := fun h => ⟨hdown h, howner⟩

theorem Lifecycle.calling_eq_false (h : Lifecycle s) (hstage : callsEncoder s.stage = false) :
    s.calling = false := by
  by_contra hcalling
  rw [h.calls (by simpa using hcalling)] at hstage
  cases hstage

/-- `main` is inside a call. -/
theorem Lifecycle.begin (h : Lifecycle s) {a : StreamAction} {encoder : EncoderStream}
    (hencoder : s.encoder.step a = some encoder) (hcalls : callsEncoder s.stage = true)
    (hstops : stopsEncoder s.stage = true → a = .stopEncoder)
    (hdown : App.mayRun { s with encoder, calling := true } = false →
      s.mayRun = false ∧ ∃ ok, a = .initializeEncoder ok) :
    Lifecycle { s with encoder, calling := true } where
  program := h.program
  calls := fun _ => hcalls
  idle := by rintro ⟨⟩
  stopping := fun _ hstage => by
    obtain rfl := hstops hstage
    obtain ⟨-, hcall⟩ := Option.ite_none_right_eq_some.mp hencoder
    rw [← Option.some.inj hcall]
    exact Or.inl rfl
  down := fun hrun => by
    obtain ⟨hbefore, ok, rfl⟩ := hdown hrun
    obtain ⟨hthreadless, howner⟩ := h.down hbefore
    obtain ⟨-, hcall⟩ := Option.ite_none_right_eq_some.mp hencoder
    rw [← Option.some.inj hcall]
    split
    · exact ⟨hthreadless, howner⟩
    · exact ⟨hthreadless, howner⟩

theorem mayRun_starting {calls : List StartCall} (hstage : s.stage = .starting calls)
    (hcalling : s.calling = false) : s.mayRun = decide (.encoder ∉ calls) := by
  cases calls with
  | nil => simp [mayRun, hstage]
  | cons call calls => cases call <;> simp [mayRun, hstage, hcalling]

/-- Once `stop` has returned, there are no threads. -/
theorem Lifecycle.stopped (h : Lifecycle s) (hcalling : s.calling = true)
    (hstops : stopsEncoder s.stage = true) (howner : s.encoder.owner = .idle) :
    s.encoder.Threadless := by
  rcases h.stopping hcalling hstops with hclosing | hjoining | ⟨-, hthreadless⟩
  · rw [howner] at hclosing
    cases hclosing
  · rw [howner] at hjoining
    cases hjoining
  · exact hthreadless

/-- A component that is not the encoder is started, or not. -/
theorem Lifecycle.startService (h : Lifecycle s) {call : StartCall} {calls : List StartCall}
    (hstage : s.stage = .starting (call :: calls)) (hcalling : s.calling = false)
    (hcalling' : s'.calling = false) (hencoder : s'.encoder = s.encoder)
    (hstage' : s'.stage = .starting calls ∨ s'.stage = .stopping stopCalls .startupFailed) :
    Lifecycle s' := by
  have hprogram : call :: calls <:+ startupCalls := by
    have := h.program
    rwa [hstage] at this
  have howner : s'.encoder.owner = .idle := by rw [hencoder, h.idle hcalling]
  rcases hstage' with hstage' | hstage'
  · refine .next hcalling' howner ?_ fun hrun => ?_
    · rw [hstage']
      exact (List.suffix_cons _ _).trans hprogram
    · rw [mayRun_starting hstage' hcalling', decide_eq_false_iff_not, not_not] at hrun
      rw [hencoder]
      refine (h.down ?_).1
      rw [mayRun_starting hstage hcalling, decide_eq_false_iff_not, not_not]
      exact List.mem_cons_of_mem _ hrun
  · refine .next hcalling' howner ?_ fun hrun => ?_
    · rw [hstage']
      exact List.suffix_refl _
    · simp [mayRun, hstage', stopCalls] at hrun

theorem Lifecycle.main (h : Lifecycle s) (hs : s.mainStep ok = some s') : Lifecycle s' := by
  have hprogram := h.program
  have hdown := h.down
  unfold mainStep at hs
  split at hs
  all_goals
    rename_i hstage
    rw [hstage] at hprogram
    rw [mayRun, hstage] at hdown
  case h_1 =>
    obtain rfl := Option.some.inj hs
    have hcalling := h.calling_eq_false (by rw [hstage]; rfl)
    exact .next hcalling (h.idle hcalling) (List.suffix_refl _) fun _ => (hdown rfl).1
  case h_2 calls =>
    rcases encoderCall_cases hs with ⟨-, howner, rfl⟩ | ⟨hcalling, encoder, hencoder, rfl⟩
    · refine .next rfl howner ?_ fun _ => (hdown rfl).1
      show InProgram (if s.encoder.result then _ else _)
      split
      · exact (List.suffix_cons _ _).trans hprogram
      · trivial
    · refine h.begin hencoder (by rw [hstage]; rfl) (by rw [hstage]; rintro ⟨⟩) fun _ => ?_
      exact ⟨by rw [mayRun, hstage], _, rfl⟩
  case h_3 c calls hc =>
    obtain rfl := Option.some.inj hs
    have hcalling := h.calling_eq_false (by rw [hstage]; cases c <;> first | rfl | cases hc rfl)
    refine .next hcalling (h.idle hcalling) ?_ fun _ => (hdown rfl).1
    show InProgram (if ok then _ else _)
    split
    · exact (List.suffix_cons _ _).trans hprogram
    · trivial
  case h_4 =>
    obtain rfl := Option.some.inj hs
    have hcalling := h.calling_eq_false (by rw [hstage]; rfl)
    exact .next hcalling (h.idle hcalling) trivial (by rintro ⟨⟩)
  case h_5 calls | h_7 calls | h_8 calls | h_10 calls =>
    obtain rfl := Option.some.inj hs
    have hcalling := h.calling_eq_false (by rw [hstage]; rfl)
    refine h.startService hstage hcalling hcalling rfl ?_
    cases ok <;> simp [App.startService, afterStart]
  case h_6 calls =>
    rcases encoderCall_cases hs with ⟨-, howner, rfl⟩ | ⟨hcalling, encoder, hencoder, rfl⟩
    · have hnodup : .encoder ∉ calls := by
        have := hprogram.sublist.nodup (by decide)
        exact (List.nodup_cons.mp this).1
      cases hresult : s.encoder.result with
      | true =>
        refine .next rfl howner ((List.suffix_cons _ _).trans hprogram) fun hrun => ?_
        rw [mayRun_starting rfl rfl, decide_eq_false_iff_not] at hrun
        exact absurd hnodup hrun
      | false =>
        refine .next rfl howner (List.suffix_refl _) fun hrun => ?_
        simp [mayRun, App.startService, afterStart, stopCalls] at hrun
    · refine h.begin hencoder (by rw [hstage]; rfl) (by rw [hstage]; rintro ⟨⟩) fun hrun => ?_
      simp [mayRun, hstage] at hrun
  case h_9 calls =>
    obtain rfl := Option.some.inj hs
    have hcalling := h.calling_eq_false (by rw [hstage]; rfl)
    refine h.startService hstage hcalling hcalling rfl ?_
    cases s.encoder.waitForIndependentFrame <;> simp [afterStart]
  case h_11 =>
    obtain rfl := Option.some.inj hs
    have hcalling := h.calling_eq_false (by rw [hstage]; rfl)
    cases ok with
    | true =>
      refine .next hcalling (h.idle hcalling) (List.suffix_refl _) fun hrun => ?_
      simp [mayRun, stopCalls] at hrun
    | false => exact .next hcalling (h.idle hcalling) trivial (by rintro ⟨⟩)
  case h_12 =>
    obtain rfl := Option.some.inj hs
    have hcalling := h.calling_eq_false (by rw [hstage]; rfl)
    cases hrequested : s.encoder.recoveryRequested with
    | true => exact .next hcalling (h.idle hcalling) trivial (by rintro ⟨⟩)
    | false => exact .next hcalling (h.idle hcalling) trivial (by rintro ⟨⟩)
  case h_13 =>
    rcases encoderCall_cases hs with ⟨hcalling, howner, rfl⟩ | ⟨hcalling, encoder, hencoder, rfl⟩
    · exact .next rfl howner trivial fun _ => h.stopped hcalling (by rw [hstage]; rfl) howner
    · refine h.begin hencoder (by rw [hstage]; rfl) (fun _ => rfl) fun hrun => ?_
      simp [mayRun, hstage] at hrun
  case h_14 =>
    obtain rfl := Option.some.inj hs
    have hcalling := h.calling_eq_false (by rw [hstage]; rfl)
    exact .next hcalling (h.idle hcalling) trivial fun _ => (hdown rfl).1
  case h_15 =>
    rcases encoderCall_cases hs with ⟨-, howner, rfl⟩ | ⟨hcalling, encoder, hencoder, rfl⟩
    · cases hresult : s.encoder.result with
      | true => exact .next rfl howner trivial fun _ => (hdown rfl).1
      | false =>
        refine .next rfl howner (List.suffix_refl _) fun hrun => ?_
        simp [mayRun, afterRecovery, stopCalls] at hrun
    · refine h.begin hencoder (by rw [hstage]; rfl) (by rw [hstage]; rintro ⟨⟩) fun _ => ?_
      exact ⟨by rw [mayRun, hstage], _, rfl⟩
  case h_16 =>
    rcases encoderCall_cases hs with ⟨-, howner, rfl⟩ | ⟨hcalling, encoder, hencoder, rfl⟩
    · cases hresult : s.encoder.result with
      | true => exact .next rfl howner trivial (by rintro ⟨⟩)
      | false =>
        refine .next rfl howner (List.suffix_refl _) fun hrun => ?_
        simp [mayRun, afterRecovery, stopCalls] at hrun
    · refine h.begin hencoder (by rw [hstage]; rfl) (by rw [hstage]; rintro ⟨⟩) fun hrun => ?_
      simp [mayRun, hstage] at hrun
  case h_17 =>
    have hcalling := h.calling_eq_false (by rw [hstage]; rfl)
    split_ifs at hs
    · obtain rfl := Option.some.inj hs
      exact .next hcalling (h.idle hcalling) trivial (by rintro ⟨⟩)
    · obtain rfl := Option.some.inj hs
      refine .next hcalling (h.idle hcalling) (List.suffix_refl _) fun hrun => ?_
      simp [mayRun, afterRecovery, stopCalls] at hrun
  case h_18 =>
    obtain rfl := Option.some.inj hs
    have hcalling := h.calling_eq_false (by rw [hstage]; rfl)
    cases ok with
    | true =>
      refine .next hcalling (h.idle hcalling) (List.suffix_refl _) fun hrun => ?_
      simp [mayRun, stopCalls] at hrun
    | false => exact .next hcalling (h.idle hcalling) trivial (by rintro ⟨⟩)
  case h_19 reason =>
    obtain rfl := Option.some.inj hs
    have hcalling := h.calling_eq_false (by rw [hstage]; rfl)
    exact .next hcalling (h.idle hcalling) trivial fun _ => (hdown rfl).1
  case h_20 calls reason =>
    rcases encoderCall_cases hs with ⟨hcalling, howner, rfl⟩ | ⟨hcalling, encoder, hencoder, rfl⟩
    · exact .next rfl howner ((List.suffix_cons _ _).trans hprogram) fun _ =>
        h.stopped hcalling (by rw [hstage]; rfl) howner
    · refine h.begin hencoder (by rw [hstage]; rfl) (fun _ => rfl) fun hrun => ?_
      simp [mayRun, hstage] at hrun
  case h_21 c calls reason hc =>
    obtain rfl := Option.some.inj hs
    have hcalling := h.calling_eq_false (by rw [hstage]; cases c <;> first | rfl | cases hc rfl)
    refine .next hcalling (h.idle hcalling) ((List.suffix_cons _ _).trans hprogram) fun hrun => ?_
    refine (hdown ?_).1
    simp only [mayRun, stopService, decide_eq_false_iff_not] at hrun ⊢
    rintro (_ | ⟨_, hmem⟩)
    · exact hc rfl
    · exact hrun hmem
  case h_22 => cases hs

theorem Lifecycle.thread (h : Lifecycle s) {a : StreamAction} (hs : s.threadStep a = some s') :
    Lifecycle s' := by
  obtain ⟨ha, hs⟩ := Option.ite_none_right_eq_some.mp hs
  obtain ⟨encoder, hencoder, rfl⟩ := Option.map_eq_some_iff.mp hs
  refine ⟨h.program, h.calls, fun hcalling => ?_, fun hcalling hstops => ?_, fun hrun => ?_⟩
  · have howner := h.idle hcalling
    exact (EncoderStream.kept_of_idle howner ha hencoder).owner.trans howner
  · exact (h.stopping hcalling hstops).thread ha hencoder
  · obtain ⟨hthreadless, howner⟩ := h.down hrun
    have hkept := EncoderStream.kept_of_idle howner ha hencoder
    exact ⟨hkept.threadless hthreadless, hkept.owner.trans howner⟩

theorem lifecycle_initial (fps : ℕ) (ring : EncodedRingBuffer) : Lifecycle (initial fps ring) :=
  .next rfl rfl (List.suffix_refl _) fun _ => trivial

theorem Lifecycle.step (h : Lifecycle s) {a : AppAction} (hs : s.step a = some s') :
    Lifecycle s' := by
  cases a with
  | main ok => exact h.main hs
  | thread a => exact h.thread hs

theorem lifecycle_of_reachable {fps : ℕ} {ring : EncodedRingBuffer}
    (h : Reachable App.step (initial fps ring) s) : Lifecycle s :=
  h.invariant Lifecycle (lifecycle_initial fps ring) fun _ _ _ hs h => hs.step h

/-! ### What a run is for the encoder -/

theorem encoderCall_encoder {a : StreamAction} {next : Bool → App → App}
    (hs : s.encoderCall a next = some s') (hnext : ∀ ok s, (next ok s).encoder = s.encoder) :
    match if s.calling then none else some a with
    | some a => s.encoder.step a = some s'.encoder
    | none => s'.encoder = s.encoder := by
  rcases encoderCall_cases hs with ⟨hcalling, -, rfl⟩ | ⟨hcalling, encoder, hencoder, rfl⟩
  · simp only [hcalling]
    exact hnext _ _
  · simp only [hcalling]
    exact hencoder

theorem mainStep_encoder (hs : s.mainStep ok = some s') :
    match s.called ok with
    | some a => s.encoder.step a = some s'.encoder
    | none => s'.encoder = s.encoder := by
  unfold mainStep at hs
  unfold called
  split at hs
  all_goals
    rename_i hstage
    simp only [hstage]
  case h_2 | h_6 | h_13 | h_20 => exact encoderCall_encoder hs fun _ _ => rfl
  case h_15 | h_16 => exact encoderCall_encoder hs fun ok _ => by cases ok <;> rfl
  case h_22 => cases hs
  case h_17 =>
    rw [ite_self]
    split_ifs at hs
    · rw [← Option.some.inj hs]
    · rw [← Option.some.inj hs]
      rfl
  case h_3 c calls hc =>
    rw [← Option.some.inj hs]
    cases c <;> simp [afterInitialize] at hc ⊢
  case h_21 c calls reason hc =>
    rw [← Option.some.inj hs]
    cases c <;> simp [stopService, told] at hc ⊢
  all_goals simp [← Option.some.inj hs, startService, afterStart, told]

theorem step_encoder {a : AppAction} (hs : s.step a = some s') :
    match s.encoderAction a with
    | some b => s.encoder.step b = some s'.encoder
    | none => s'.encoder = s.encoder := by
  cases a with
  | main ok => exact mainStep_encoder hs
  | thread a =>
    obtain ⟨-, hs⟩ := Option.ite_none_right_eq_some.mp hs
    obtain ⟨encoder, hencoder, rfl⟩ := Option.map_eq_some_iff.mp hs
    exact hencoder

/-- A run of the program is a run of the encoder. -/
theorem run_encoder {fps : ℕ} {ring : EncodedRingBuffer} {history : List (App × AppAction)}
    (h : Run App.step (initial fps ring) history s) :
    Run EncoderStream.step (.initial fps) (encoderHistory history) s.encoder := by
  refine h.project App.encoder encoderAction (fun s a s' b hs hact => ?_) fun s a s' hs hact => ?_
  · have := step_encoder hs
    rwa [hact] at this
  · have := step_encoder hs
    rwa [hact] at this

/-- `main` calls `start` where the encoder cannot have threads. -/
theorem mayRun_of_starts {a : AppAction} (hs : s.step a = some s')
    (hact : s.encoderAction a = some .startEncoder) : s.mayRun = false := by
  cases a with
  | main ok =>
    rw [encoderAction, called] at hact
    split_ifs at hact with hcalling
    split at hact <;> simp_all [mayRun]
  | thread a =>
    obtain rfl := Option.some.inj hact
    cases hs

/-- **`start` never meets a thread.** Whenever the program calls `start` of the encoder, no thread
object has a thread; and whenever `start` assigns one, that one is free. -/
theorem startsThreadless {fps : ℕ} {ring : EncodedRingBuffer} {history : List (App × AppAction)}
    (h : Run App.step (initial fps ring) history s) :
    (∀ x ∈ encoderHistory history, EncoderStream.StartsThreadless x) ∧
      ((s.encoder.owner = .spawningInput ∨ s.encoder.owner = .spawningOutput ∨
        s.encoder.owner = .spawningBus) → ∀ ok, (s.encoder.ownerStep ok).isSome) := by
  have hstarts : ∀ x ∈ encoderHistory history, EncoderStream.StartsThreadless x := by
    intro x hx
    obtain ⟨⟨t, a⟩, hmem, hact⟩ := List.mem_filterMap.mp hx
    obtain ⟨b, hb, rfl⟩ := Option.map_eq_some_iff.mp hact
    have hlife := lifecycle_of_reachable (h.reachable_of_mem _ hmem)
    cases b with
    | startEncoder =>
      obtain ⟨t', ht, -⟩ := h.step_of_mem _ hmem
      exact (hlife.down (mayRun_of_starts ht hb)).1
    | _ => trivial
  refine ⟨hstarts, fun howner ok => EncoderStream.Spawnable.isSome ?_ ok howner⟩
  exact ((run_encoder h).forall_of EncoderStream.Spawnable
    (fun s a => EncoderStream.StartsThreadless (s, a)) (.of_idle rfl)
    (fun _ _ _ _ h hgood hs => h.step hgood hs) hstarts).2

/-- Everything comes up, and the encoder puts out a keyframe. -/
def comeUp : List AppAction :=
  let outcomes : RawOutcomes :=
    { buffer := true, allocator := true, duplicated := fun _ => true, allocated := fun _ => true }
  let sample : GstSample :=
    { pts := some 0, duration := none, deltaUnit := false
      data := some [0, 0, 0, 1, 0x67, 0, 0, 1, 0x68, 0, 0, 1, 0x65] }
  List.replicate 8 (.main true) ++ List.replicate 4 (.thread (.owner true)) ++
    List.replicate 3 (.main true) ++
    [.thread (.submit { main := { planes := [{}] }, sensorTimestampNs := 5 } false)] ++
    List.replicate 4 (.thread (.input outcomes .ok)) ++
    List.replicate 3 (.thread (.output (some sample) false)) ++ [.main true]

/-- The program is asked to end, and everything goes down. -/
def goDown : List AppAction :=
  let outcomes : RawOutcomes :=
    { buffer := true, allocator := true, duplicated := fun _ => true, allocated := fun _ => true }
  List.replicate 6 (.main true) ++ [.thread (.owner true)] ++
    [.thread (.input outcomes .ok)] ++ List.replicate 2 (.thread (.output none false)) ++
    [.thread (.bus false), .thread (.owner true)] ++ List.replicate 4 (.main true)

def someRing : EncodedRingBuffer :=
  { retentionNs := 4000000000, maxBytes := 1000, retention_pos := by decide
    maxBytes_pos := by decide }

theorem startsThreadless_comeUp : ∃ history s, Run App.step (initial 30 someRing) history s ∧
    s.encoder.generation = 1 ∧
    ∀ x ∈ encoderHistory history, EncoderStream.StartsThreadless x := by
  obtain ⟨s, hs, hgeneration⟩ := (Option.any_eq_true _ _).mp
    (show (exec App.step (initial 30 someRing) comeUp).any
      (fun s => s.encoder.generation == 1) = true by decide)
  have hrun := Run.ofExec comeUp hs
  exact ⟨_, s, hrun, eq_of_beq hgeneration, (startsThreadless hrun).1⟩

/-! ### The components -/

/-- The call that starts a component. -/
def startCall : Component → StartCall
  | .recorder => .recorder
  | .encoder => .encoder
  | .inference => .inference
  | .camera => .camera
  | .rtsp => .rtsp

/-- What has become of the components by now. -/
def Served (service : Component → ServiceState) : MainStage → Prop
  | .initializing _ => ∀ c, service c = .untouched
  | .starting calls => calls <:+ startupCalls ∧
      ∀ c, service c = if startCall c ∈ calls then .untouched else .started
  | .looping | .polling | .ticking | .recovering .independentFrame =>
    ∀ c, service c = .started
  | .recovering _ => ∀ c, c ≠ .encoder → service c = .started
  | .stopping calls _ => calls <:+ stopCalls ∧ ∀ c, c ∉ calls → service c = .stopped
  | .exited code => if code = 2 then ∀ c, service c = .untouched else ∀ c, service c = .stopped

theorem Served.start {c : Component} {calls : List StartCall} {ok : Bool}
    (h : Served s.service (.starting (startCall c :: calls))) :
    Served (s.startService c calls ok).service (s.startService c calls ok).stage := by
  obtain ⟨hcalls, hservice⟩ := h
  cases ok with
  | false =>
    refine ⟨List.suffix_refl _, fun other hother => ?_⟩
    exact absurd (by cases other <;> decide) hother
  | true =>
    refine ⟨(List.suffix_cons _ _).trans hcalls, fun other => ?_⟩
    have hnodup : startCall c ∉ calls := (List.nodup_cons.mp (hcalls.sublist.nodup (by decide))).1
    show Function.update s.service c .started other = _
    by_cases hother : other = c
    · rw [hother, Function.update_self, if_neg hnodup]
    · have hne : startCall other ≠ startCall c := by
        cases other <;> cases c <;> first | exact absurd rfl hother | decide
      rw [Function.update_of_ne hother, hservice]
      simp [hne]

theorem Served.stop {c : Component} {calls : List Component} {reason : ExitReason}
    (h : Served s.service (.stopping (c :: calls) reason)) :
    Served (s.stopService c calls reason).service (s.stopService c calls reason).stage := by
  obtain ⟨hcalls, hservice⟩ := h
  refine ⟨(List.suffix_cons _ _).trans hcalls, fun other hother => ?_⟩
  show Function.update s.service c .stopped other = _
  by_cases hsame : other = c
  · rw [hsame, Function.update_self]
  · rw [Function.update_of_ne hsame, hservice]
    simp [hsame, hother]

/-- `main` goes down with all components to be stopped. -/
theorem served_stopCalls (service : Component → ServiceState) (reason : ExitReason) :
    Served service (.stopping stopCalls reason) :=
  ⟨List.suffix_refl _, fun c hc => absurd (by cases c <;> decide) hc⟩

theorem Served.main (h : Served s.service s.stage) (hs : s.mainStep ok = some s') :
    Served s'.service s'.stage := by
  have hkept := h
  unfold mainStep at hs
  split at hs
  all_goals
    rename_i hstage
    rw [hstage] at h
  case h_1 =>
    obtain rfl := Option.some.inj hs
    exact ⟨List.suffix_refl _, fun c => (h c).trans (by cases c <;> decide)⟩
  case h_2 calls =>
    rcases encoderCall_cases hs with ⟨-, -, rfl⟩ | ⟨-, encoder, -, rfl⟩
    · cases hresult : s.encoder.result with
      | true => exact h
      | false => exact h
    · exact hkept
  case h_3 c calls _ =>
    obtain rfl := Option.some.inj hs
    cases ok with
    | true => exact h
    | false => exact h
  case h_4 =>
    obtain rfl := Option.some.inj hs
    exact h.2
  case h_5 | h_7 | h_8 | h_10 =>
    obtain rfl := Option.some.inj hs
    exact Served.start h
  case h_6 =>
    rcases encoderCall_cases hs with ⟨-, -, rfl⟩ | ⟨-, encoder, -, rfl⟩
    · exact Served.start h
    · exact hkept
  case h_9 calls =>
    obtain rfl := Option.some.inj hs
    obtain ⟨hcalls, hservice⟩ := h
    cases hseen : s.encoder.waitForIndependentFrame with
    | true =>
      refine ⟨(List.suffix_cons _ _).trans hcalls, fun c => (hservice c).trans ?_⟩
      have hne : startCall c ≠ .independentFrame := by cases c <;> decide
      simp [hne]
    | false => exact served_stopCalls _ _
  case h_11 =>
    obtain rfl := Option.some.inj hs
    cases ok with
    | true => exact served_stopCalls _ _
    | false => exact h
  case h_12 =>
    obtain rfl := Option.some.inj hs
    cases hrequested : s.encoder.recoveryRequested with
    | true => exact fun c _ => h c
    | false => exact h
  case h_13 =>
    rcases encoderCall_cases hs with ⟨-, -, rfl⟩ | ⟨-, encoder, -, rfl⟩
    · exact fun c hc => (Function.update_of_ne hc _ _).trans (h c hc)
    · exact hkept
  case h_14 =>
    obtain rfl := Option.some.inj hs
    exact h
  case h_15 =>
    rcases encoderCall_cases hs with ⟨-, -, rfl⟩ | ⟨-, encoder, -, rfl⟩
    · cases hresult : s.encoder.result with
      | true => exact h
      | false => exact served_stopCalls _ _
    · exact hkept
  case h_16 =>
    rcases encoderCall_cases hs with ⟨-, -, rfl⟩ | ⟨-, encoder, -, rfl⟩
    · cases hresult : s.encoder.result with
      | true =>
        intro c
        show Function.update s.service .encoder .started c = .started
        by_cases hc : c = .encoder
        · rw [hc, Function.update_self]
        · exact (Function.update_of_ne hc _ _).trans (h c hc)
      | false => exact served_stopCalls _ _
    · exact hkept
  case h_17 =>
    split_ifs at hs
    · obtain rfl := Option.some.inj hs
      exact h
    · obtain rfl := Option.some.inj hs
      exact served_stopCalls _ _
  case h_18 =>
    obtain rfl := Option.some.inj hs
    cases ok with
    | true => exact served_stopCalls _ _
    | false => exact h
  case h_19 reason =>
    obtain rfl := Option.some.inj hs
    have hcode : exitCode ok reason ≠ 2 := by cases reason <;> cases ok <;> decide
    show if exitCode ok reason = 2 then _ else _
    rw [if_neg hcode]
    exact fun c => h.2 c (List.not_mem_nil)
  case h_20 =>
    rcases encoderCall_cases hs with ⟨-, -, rfl⟩ | ⟨-, encoder, -, rfl⟩
    · exact Served.stop h
    · exact hkept
  case h_21 =>
    obtain rfl := Option.some.inj hs
    exact Served.stop h
  case h_22 => cases hs

theorem Served.step (h : Served s.service s.stage) {a : AppAction} (hs : s.step a = some s') :
    Served s'.service s'.stage := by
  cases a with
  | main ok => exact h.main hs
  | thread a =>
    obtain ⟨-, hs⟩ := Option.ite_none_right_eq_some.mp hs
    obtain ⟨encoder, -, rfl⟩ := Option.map_eq_some_iff.mp hs
    exact h

theorem served_of_reachable {fps : ℕ} {ring : EncodedRingBuffer}
    (h : Reachable App.step (initial fps ring) s) : Served s.service s.stage := by
  have hinitial : Served (initial fps ring).service (initial fps ring).stage := fun _ => rfl
  exact h.invariant (fun s => Served s.service s.stage) hinitial fun s a s' h hs => h.step hs

/-! ### What is known of the encoder -/

/-- The failed recoveries, by where `main` is. -/
def failures : MainStage → ℕ
  | .stopping _ .encoderFailed => 1
  | .exited code => if code = 5 then 1 else 0
  | _ => 0

/-- `main` has waited for the first frame, and has not yet gone on to its loop. -/
def hasWaited : MainStage → Bool
  | .starting calls => decide (.independentFrame ∉ calls)
  | _ => false

/-- The encoder has never been started. -/
def unborn : MainStage → Bool
  | .initializing _ => true
  | .exited code => code == 2
  | _ => false

structure Noted (s : App) : Prop where
  failures : s.recoveryFailures = App.failures s.stage
  seen : hasWaited s.stage = true → s.encoder.independentFrameSeen = true
  unborn : App.unborn s.stage = true → s.encoder.generation = 0

/-- `main` goes on with the startup condition. -/
theorem Noted.start {call : StartCall} {calls : List StartCall} (h : Noted s)
    (hstage : s.stage = .starting (call :: calls)) (hcall : call ≠ .independentFrame)
    (hencoder : s'.encoder = s.encoder) (hfailures : s'.recoveryFailures = s.recoveryFailures)
    (hstage' : s'.stage = .starting calls ∨ s'.stage = .stopping stopCalls .startupFailed) :
    Noted s' := by
  have hnone : s'.recoveryFailures = 0 := by
    rw [hfailures, h.failures, hstage]
    rfl
  rcases hstage' with hstage' | hstage'
  · refine ⟨by rw [hnone, hstage']; rfl, fun hwaited => ?_, by rw [hstage']; rintro ⟨⟩⟩
    rw [hencoder]
    refine h.seen ?_
    rw [hstage', hasWaited, decide_eq_true_iff] at hwaited
    rw [hstage, hasWaited, decide_eq_true_iff]
    rintro (_ | ⟨_, hlater⟩)
    · exact hcall rfl
    · exact hwaited hlater
  · refine ⟨by rw [hnone, hstage']; rfl, ?_, ?_⟩
    · rw [hstage']
      rintro ⟨⟩
    · rw [hstage']
      rintro ⟨⟩

/-- `main` goes down. -/
theorem Noted.down {calls : List Component} {reason : ExitReason}
    (hstage : s.stage = .stopping calls reason)
    (hfailures : s.recoveryFailures = App.failures s.stage) : Noted s where
  failures := hfailures
  seen := by
    rw [hstage]
    rintro ⟨⟩
  unborn := by
    rw [hstage]
    rintro ⟨⟩

/-- The encoder is started before its first frame is waited for. -/
theorem independentFrame_mem {calls : List StartCall} (h : .encoder :: calls <:+ startupCalls) :
    .independentFrame ∈ StartCall.encoder :: calls := by
  have hall : ∀ l ∈ startupCalls.tails, l.head? = some .encoder → .independentFrame ∈ l := by decide
  exact hall _ ((List.mem_tails _ _).mpr h) rfl

/-- `main` begins a call of the encoder. -/
theorem Noted.begin (h : Noted s) {a : StreamAction} {encoder : EncoderStream}
    (hencoder : s.encoder.step a = some encoder)
    (hquiet : (∃ ok, a = .initializeEncoder ok) ∨
      hasWaited s.stage = false ∧ App.unborn s.stage = false) :
    Noted { s with encoder, calling := true } := by
  rcases hquiet with ⟨ok, rfl⟩ | ⟨hwaited, hunborn⟩
  · obtain ⟨-, hcall⟩ := Option.ite_none_right_eq_some.mp hencoder
    rw [← Option.some.inj hcall]
    split
    · exact ⟨h.failures, h.seen, h.unborn⟩
    · exact ⟨h.failures, h.seen, h.unborn⟩
  · exact ⟨h.failures, by simp [hwaited], by simp [hunborn]⟩

theorem Noted.main (h : Noted s) (hserved : Served s.service s.stage)
    (hs : s.mainStep ok = some s') : Noted s' := by
  have hfailures := h.failures
  unfold mainStep at hs
  split at hs
  all_goals
    rename_i hstage
    rw [hstage] at hserved hfailures
  case h_1 =>
    obtain rfl := Option.some.inj hs
    exact ⟨hfailures, by rintro ⟨⟩, by rintro ⟨⟩⟩
  case h_2 calls =>
    have hunborn := h.unborn (by rw [hstage]; rfl)
    rcases encoderCall_cases hs with ⟨-, -, rfl⟩ | ⟨-, encoder, hencoder, rfl⟩
    · cases hresult : s.encoder.result with
      | true => exact ⟨hfailures, by rintro ⟨⟩, fun _ => hunborn⟩
      | false => exact ⟨hfailures, by rintro ⟨⟩, fun _ => hunborn⟩
    · exact h.begin hencoder (.inl ⟨_, rfl⟩)
  case h_3 c calls _ =>
    have hunborn := h.unborn (by rw [hstage]; rfl)
    obtain rfl := Option.some.inj hs
    cases ok with
    | true => exact ⟨hfailures, by rintro ⟨⟩, fun _ => hunborn⟩
    | false => exact ⟨hfailures, by rintro ⟨⟩, fun _ => hunborn⟩
  case h_5 | h_7 | h_8 | h_10 =>
    obtain rfl := Option.some.inj hs
    refine h.start hstage (by rintro ⟨⟩) rfl rfl ?_
    cases ok <;> simp [startService, afterStart]
  case h_6 calls =>
    rcases encoderCall_cases hs with ⟨-, -, rfl⟩ | ⟨-, encoder, hencoder, rfl⟩
    · refine h.start hstage (by rintro ⟨⟩) rfl rfl ?_
      cases s.encoder.result <;> simp [startService, afterStart]
    · refine h.begin hencoder (.inr ⟨?_, by rw [hstage]; rfl⟩)
      rw [hstage, hasWaited, decide_eq_false_iff_not, not_not]
      exact independentFrame_mem hserved.1
  case h_9 calls =>
    obtain rfl := Option.some.inj hs
    cases hseen : s.encoder.waitForIndependentFrame with
    | true => exact ⟨hfailures, fun _ => hseen, by rintro ⟨⟩⟩
    | false => exact .down rfl hfailures
  case h_11 | h_18 =>
    obtain rfl := Option.some.inj hs
    cases ok with
    | true => exact .down rfl hfailures
    | false => exact ⟨hfailures, by rintro ⟨⟩, by rintro ⟨⟩⟩
  case h_4 | h_14 =>
    obtain rfl := Option.some.inj hs
    exact ⟨hfailures, by rintro ⟨⟩, by rintro ⟨⟩⟩
  case h_12 =>
    obtain rfl := Option.some.inj hs
    cases hrequested : s.encoder.recoveryRequested with
    | true => exact ⟨hfailures, by rintro ⟨⟩, by rintro ⟨⟩⟩
    | false => exact ⟨hfailures, by rintro ⟨⟩, by rintro ⟨⟩⟩
  case h_13 =>
    rcases encoderCall_cases hs with ⟨-, -, rfl⟩ | ⟨-, encoder, hencoder, rfl⟩
    · exact ⟨hfailures, by rintro ⟨⟩, by rintro ⟨⟩⟩
    · exact h.begin hencoder (.inr (by rw [hstage]; exact ⟨rfl, rfl⟩))
  case h_15 | h_16 =>
    rcases encoderCall_cases hs with ⟨-, -, rfl⟩ | ⟨-, encoder, hencoder, rfl⟩
    · cases hresult : s.encoder.result with
      | true => exact ⟨hfailures, by rintro ⟨⟩, by rintro ⟨⟩⟩
      | false => exact .down rfl (congrArg Nat.succ hfailures)
    · exact h.begin hencoder (.inr (by rw [hstage]; exact ⟨rfl, rfl⟩))
  case h_17 =>
    split_ifs at hs
    · obtain rfl := Option.some.inj hs
      exact ⟨hfailures, by rintro ⟨⟩, by rintro ⟨⟩⟩
    · obtain rfl := Option.some.inj hs
      exact .down rfl (congrArg Nat.succ hfailures)
  case h_19 reason =>
    obtain rfl := Option.some.inj hs
    refine ⟨?_, by rintro ⟨⟩, ?_⟩
    · rw [hfailures]
      cases reason <;> cases ok <;> rfl
    · cases reason <;> cases ok <;> rintro ⟨⟩
  case h_20 calls reason =>
    rcases encoderCall_cases hs with ⟨-, -, rfl⟩ | ⟨-, encoder, hencoder, rfl⟩
    · exact .down rfl (by cases reason <;> exact hfailures)
    · exact h.begin hencoder (.inr (by rw [hstage]; exact ⟨rfl, rfl⟩))
  case h_21 c calls reason _ =>
    obtain rfl := Option.some.inj hs
    exact .down rfl (by cases reason <;> exact hfailures)
  case h_22 => cases hs

/-- No thread takes the flag down, or begins a generation. -/
theorem Noted.thread (h : Noted s) {a : StreamAction} (hs : s.threadStep a = some s') :
    Noted s' := by
  obtain ⟨ha, hs⟩ := Option.ite_none_right_eq_some.mp hs
  obtain ⟨encoder, hencoder, rfl⟩ := Option.map_eq_some_iff.mp hs
  have hkept : encoder.generation = s.encoder.generation ∧
      (s.encoder.independentFrameSeen = true → encoder.independentFrameSeen = true) := by
    cases a with
    | submit frame refused =>
      obtain rfl := Option.some.inj hencoder
      unfold EncoderStream.submit
      split
      · exact ⟨rfl, id⟩
      · exact ⟨rfl, id⟩
    | input outcomes flow =>
      obtain ⟨_, _, _, _, _, _, rfl⟩ := EncoderStream.inputStep_eq hencoder
      exact ⟨rfl, id⟩
    | lose index =>
      obtain rfl := Option.some.inj hencoder
      exact ⟨rfl, id⟩
    | output pulled throws => exact EncoderStream.outputStep_seen hencoder
    | bus message =>
      obtain ⟨_, _, _, _, _, rfl⟩ := EncoderStream.busStep_eq hencoder
      exact ⟨rfl, id⟩
    | owner ok =>
      obtain ⟨_, _, _, _, _, _, _, _, _, _, _, rfl⟩ := EncoderStream.ownerStep_eq hencoder
      exact ⟨rfl, id⟩
    | initializeEncoder ok => cases ha
    | startEncoder => cases ha
    | stopEncoder => cases ha
  exact ⟨h.failures, fun hwaited => hkept.2 (h.seen hwaited),
    fun hunborn => hkept.1.trans (h.unborn hunborn)⟩

theorem noted_of_reachable {fps : ℕ} {ring : EncodedRingBuffer}
    (h : Reachable App.step (initial fps ring) s) : Noted s := by
  have hinitial : Noted (initial fps ring) := ⟨rfl, by rintro ⟨⟩, fun _ => rfl⟩
  have hboth : Noted s ∧ Served s.service s.stage := by
    refine h.invariant (fun s => Noted s ∧ Served s.service s.stage) ⟨hinitial, fun _ => rfl⟩ ?_
    rintro s a s' ⟨hnoted, hserved⟩ hs
    refine ⟨?_, hserved.step hs⟩
    cases a with
    | main ok => exact hnoted.main hserved hs
    | thread a => exact hnoted.thread hs
  exact hboth.1

/-! ### Listening -/

theorem ready_of_reachable {fps : ℕ} {ring : EncodedRingBuffer}
    (h : Reachable App.step (initial fps ring) s) (hseen : s.encoder.independentFrameSeen = true) :
    s.encoder.Ready := by
  obtain ⟨history, hrun⟩ := h
  exact (run_encoder hrun).reachable.invariant
    (fun e => e.independentFrameSeen = true → e.Ready) (by rintro ⟨⟩)
    (fun _ _ _ h hs => EncoderStream.seen_of_step h hs) hseen

theorem rtsp_last {calls : List StartCall} (h : .rtsp :: calls <:+ startupCalls) : calls = [] := by
  have hall : ∀ l ∈ startupCalls.tails, l.head? = some .rtsp → l.tail = [] := by decide
  exact hall _ ((List.mem_tails _ _).mpr h) rfl

/-- **The listener opens on a picture.** When `rtsp.start()` is called the other components have
been started, and the encoder has put out a unit of its generation that can be decoded on its own.
A recovery counts as one when the new encoder has put out such a unit. -/
theorem listens_after_frame {fps : ℕ} {ring : EncodedRingBuffer}
    (h : Reachable App.step (initial fps ring) s) (hs : s.mainStep ok = some s') :
    (s.service .rtsp = .untouched → s'.service .rtsp = .started ∨ s'.service .rtsp = .failed →
      (∀ c, c ≠ .rtsp → s.service c = .started) ∧ s.encoder.Ready) ∧
    (s.recoveries < s'.recoveries → s.encoder.Ready) := by
  have hserved := served_of_reachable h
  have hother : ∀ t : App, (t.service .rtsp = s.service .rtsp ∨ t.service .rtsp = .stopped) →
      t.recoveries = s.recoveries →
      (s.service .rtsp = .untouched → t.service .rtsp = .started ∨ t.service .rtsp = .failed →
        (∀ c, c ≠ .rtsp → s.service c = .started) ∧ s.encoder.Ready) ∧
      (s.recoveries < t.recoveries → s.encoder.Ready) := by
    intro t hrtsp hrecoveries
    refine ⟨fun hbefore hafter => ?_, fun hlt => absurd hrecoveries hlt.ne'⟩
    rw [hbefore] at hrtsp
    rcases hrtsp with hrtsp | hrtsp <;> simp [hrtsp] at hafter
  unfold mainStep at hs
  split at hs
  all_goals rename_i hstage
  case h_10 calls =>
    obtain rfl := Option.some.inj hs
    rw [hstage] at hserved
    obtain ⟨hcalls, hservice⟩ := hserved
    have hlast : calls = [] := rtsp_last hcalls
    subst hlast
    refine ⟨fun _ _ => ⟨fun c hc => ?_, ready_of_reachable h ?_⟩, fun hlt => ?_⟩
    · rw [hservice]
      cases c <;> first | rfl | exact absurd rfl hc
    · exact (noted_of_reachable h).seen (by rw [hstage]; decide)
    · cases ok <;> exact absurd hlt (lt_irrefl _)
  case h_17 =>
    split_ifs at hs with hseen
    · obtain rfl := Option.some.inj hs
      exact ⟨(hother { s with stage := .ticking } (.inl rfl) rfl).1,
        fun _ => ready_of_reachable h hseen⟩
    · obtain rfl := Option.some.inj hs
      exact hother _ (.inl rfl) rfl
  case h_2 | h_6 | h_13 | h_15 | h_16 | h_20 =>
    rcases encoderCall_cases hs with ⟨-, -, rfl⟩ | ⟨-, encoder, -, rfl⟩
    · refine hother _ (.inl ?_) ?_
      · cases s.encoder.result <;> rfl
      · cases s.encoder.result <;> rfl
    · exact hother _ (.inl rfl) rfl
  case h_21 c _ _ _ =>
    obtain rfl := Option.some.inj hs
    refine hother _ ?_ rfl
    cases c
    case rtsp => exact .inr rfl
    all_goals exact .inl rfl
  case h_22 => cases hs
  all_goals
    obtain rfl := Option.some.inj hs
    exact hother _ (.inl rfl) rfl

theorem listens_after_frame_comeUp : ∃ s s', Reachable App.step (initial 30 someRing) s ∧
    s.mainStep true = some s' ∧ s'.service .rtsp = .started ∧
    (∀ c, c ≠ .rtsp → s.service c = .started) ∧ s.encoder.Ready := by
  obtain ⟨s, hs, hnext⟩ := (Option.any_eq_true _ _).mp
    (show (exec App.step (initial 30 someRing) comeUp).any (fun s =>
      s.service .rtsp == .untouched &&
      (s.mainStep true).any fun s' => s'.service .rtsp == .started) = true by decide)
  obtain ⟨hbefore, hnext⟩ := Bool.and_eq_true_iff.mp hnext
  obtain ⟨s', hs', hafter⟩ := (Option.any_eq_true _ _).mp hnext
  have hreach := (Run.ofExec comeUp hs).reachable
  have hafter := eq_of_beq hafter
  exact ⟨s, s', hreach, hs', hafter,
    (listens_after_frame hreach hs').1 (eq_of_beq hbefore) (.inl hafter)⟩

/-- **Everything that was brought up is taken down, the camera first.** While `main` takes the
components down, those that are still up are the last ones of its list; when it has returned, every
component has been stopped and the encoder has no thread, or else nothing was ever started. The
exit code is that of a failed encoder exactly if a recovery has failed. -/
theorem shutdown {fps : ℕ} {ring : EncodedRingBuffer}
    (h : Reachable App.step (initial fps ring) s) :
    (∀ calls reason, s.stage = .stopping calls reason →
      calls <:+ stopCalls ∧ ∀ c, c ∉ calls → s.service c = .stopped) ∧
    (∀ code, s.stage = .exited code → s.encoder.Threadless ∧
      (code = 5 ↔ s.recoveryFailures ≠ 0) ∧
      if code = 2 then s.encoder.generation = 0 ∧ ∀ c, s.service c = .untouched
      else ∀ c, s.service c = .stopped) := by
  have hserved := served_of_reachable h
  have hnoted := noted_of_reachable h
  constructor
  · intro calls reason hstage
    rw [hstage] at hserved
    exact hserved
  · intro code hstage
    have hdown := (lifecycle_of_reachable h).down (by rw [mayRun, hstage])
    have hfailures := hnoted.failures
    rw [hstage] at hserved hfailures
    refine ⟨hdown.1, ?_, ?_⟩
    · rw [hfailures, failures]
      by_cases hcode : code = 5 <;> simp [hcode]
    · by_cases hcode : code = 2
      · rw [if_pos hcode]
        subst hcode
        exact ⟨hnoted.unborn (by rw [hstage]; rfl), hserved⟩
      · rw [if_neg hcode]
        rw [Served, if_neg hcode] at hserved
        exact hserved

theorem shutdown_goDown : ∃ s, Reachable App.step (initial 30 someRing) s ∧
    s.stage = .exited 0 ∧ s.encoder.Threadless ∧ ∀ c, s.service c = .stopped := by
  obtain ⟨s, hs, hexited⟩ := (Option.any_eq_true _ _).mp
    (show (exec App.step (initial 30 someRing) (comeUp ++ goDown)).any
      (fun s => s.stage == .exited 0) = true by decide)
  have hreach := (Run.ofExec (comeUp ++ goDown) hs).reachable
  have hexited := eq_of_beq hexited
  obtain ⟨hthreadless, -, hstopped⟩ := (shutdown hreach).2 0 hexited
  exact ⟨s, hreach, hexited, hthreadless, hstopped⟩

end App

end EggVision
