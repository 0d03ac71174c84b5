import EggVision.Lib.JsonString
import EggVision.Lib.Transition
import Mathlib.Logic.Function.Basic

/-!
# Lines of the log

Every thread of the program logs. A line is put together in a temporary object of its thread, piece
by piece, and is written when the temporary is destroyed, by one thread at a time. Both standard
streams are one file here, as the soak test has them.

The line that cannot be written because an exception is thrown is lost, and no exception leaves the
destructor.

## Main definitions

* `SynchronizedLog` — the temporaries that are alive, and the file
* `SynchronizedLog.step`

## Main results

* `SynchronizedLog.stream_eq` — the file consists of whole lines
-/

namespace EggVision

open JsonString Transition

/-- `SynchronizedLogLine`, with what is still to be inserted before it is destroyed. -/
structure SynchronizedLogLine where
  buffer : Bytes := []
  pieces : List Bytes
deriving DecidableEq, Repr

structure SynchronizedLog where
  lines : ℕ → Option SynchronizedLogLine := fun _ => none
  stream : Bytes := []

inductive LogAction
  /-- `synchronizedLog(stream)`, in an expression that inserts these pieces -/
  | construct (line : ℕ) (pieces : List Bytes)
  /-- `operator<<` -/
  | insert (line : ℕ)
  /-- the destructor, which may fail -/
  | destroy (line : ℕ) (throws : Bool)

namespace SynchronizedLog

def set (line : ℕ) (state : Option SynchronizedLogLine) (s : SynchronizedLog) : SynchronizedLog :=
  { s with lines := Function.update s.lines line state }

def step (s : SynchronizedLog) : LogAction → Option SynchronizedLog
  | .construct line pieces =>
    match s.lines line with
    | none => some (s.set line (some { pieces }))
    | some _ => none
  | .insert line =>
    match s.lines line with
    | some { buffer, pieces := piece :: pieces } =>
      some (s.set line (some { buffer := buffer ++ piece, pieces }))
    | _ => none
  | .destroy line throws =>
    match s.lines line with
    | some { buffer, pieces := [] } =>
      some { s.set line none with stream := if throws then s.stream else s.stream ++ buffer }
    | _ => none

/-- The line that a step writes. -/
def written (x : SynchronizedLog × LogAction) : Option Bytes :=
  match x.2 with
  | .destroy line false => (x.1.lines line).map SynchronizedLogLine.buffer
  | _ => none

/-- The pieces of the line that a step begins. -/
def begun (x : SynchronizedLog × LogAction) : Option (List Bytes) :=
  match x.2 with
  | .construct _ pieces => some pieces
  | _ => none

variable {s s' : SynchronizedLog} {a : LogAction} {history : List (SynchronizedLog × LogAction)}

/-! ### One step -/

variable {line : ℕ} {pieces : List Bytes}

theorem construct_eq (hs : s.step (.construct line pieces) = some s') :
    s' = s.set line (some { pieces }) := by
  simp only [step] at hs
  split at hs
  · exact (Option.some.inj hs).symm
  · cases hs

theorem insert_eq (hs : s.step (.insert line) = some s') : ∃ buffer piece pieces,
    s.lines line = some { buffer, pieces := piece :: pieces } ∧
      s' = s.set line (some { buffer := buffer ++ piece, pieces }) := by
  simp only [step] at hs
  split at hs
  next buffer piece pieces hstate =>
    exact ⟨buffer, piece, pieces, hstate, (Option.some.inj hs).symm⟩
  · cases hs

theorem destroy_eq {throws : Bool} (hs : s.step (.destroy line throws) = some s') : ∃ buffer,
    s.lines line = some { buffer, pieces := [] } ∧
      s' = { s.set line none with
        stream := if throws then s.stream else s.stream ++ buffer } := by
  simp only [step] at hs
  split at hs
  next buffer hstate => exact ⟨buffer, hstate, (Option.some.inj hs).symm⟩
  · cases hs

/-! ### The invariant -/

/-- What has been inserted and what has not are together a line that was begun. -/
def Whole (lines : List (List Bytes)) (s : SynchronizedLog) : Prop :=
  ∀ line state, s.lines line = some state →
    ∃ pieces ∈ lines, state.buffer ++ state.pieces.flatten = pieces.flatten

variable {lines lines' : List (List Bytes)}

theorem Whole.mono (h : Whole lines s) (hlines : ∀ pieces ∈ lines, pieces ∈ lines') :
    Whole lines' s := by
  intro line state hstate
  obtain ⟨pieces, hmem, heq⟩ := h line state hstate
  exact ⟨pieces, hlines pieces hmem, heq⟩

/-- One line changes, and the others do not. -/
theorem Whole.set (h : Whole lines s) {state : Option SynchronizedLogLine}
    (hstate : ∀ t, state = some t →
      ∃ pieces ∈ lines, t.buffer ++ t.pieces.flatten = pieces.flatten) :
    Whole lines (s.set line state) := by
  intro other t ht
  replace ht : Function.update s.lines line state other = some t := ht
  by_cases hother : other = line
  · subst hother
    rw [Function.update_self] at ht
    exact hstate t ht
  · rw [Function.update_of_ne hother] at ht
    exact h other t ht

theorem Whole.step (h : Whole lines s) (hs : s.step a = some s') :
    Whole (lines ++ (begun (s, a)).toList) s' := by
  cases a with
  | construct line pieces =>
    have hbegun : (begun (s, .construct line pieces)).toList = [pieces] := rfl
    obtain rfl := construct_eq hs
    rw [hbegun]
    refine (h.mono fun p hp => List.mem_append_left _ hp).set ?_
    rintro t ⟨⟩
    exact ⟨pieces, by simp, rfl⟩
  | insert line =>
    have hbegun : (begun (s, .insert line)).toList = [] := rfl
    obtain ⟨buffer, piece, pieces, hstate, rfl⟩ := insert_eq hs
    rw [hbegun, List.append_nil]
    refine h.set ?_
    rintro t ⟨⟩
    obtain ⟨whole, hmem, heq⟩ := h line _ hstate
    refine ⟨whole, hmem, ?_⟩
    rw [← heq, List.flatten_cons, List.append_assoc]
  | destroy line throws =>
    have hbegun : (begun (s, .destroy line throws)).toList = [] := rfl
    obtain ⟨buffer, -, rfl⟩ := destroy_eq hs
    rw [hbegun, List.append_nil]
    have hset : Whole lines (s.set line none) := h.set (by rintro t ⟨⟩)
    exact hset

/-- What a step adds to the file is a line that was begun, or nothing. -/
theorem Whole.stream (h : Whole lines s) (hs : s.step a = some s') :
    s'.stream = s.stream ++ (written (s, a)).toList.flatten ∧
      ∀ text ∈ written (s, a), ∃ pieces ∈ lines, text = pieces.flatten := by
  cases a with
  | construct line pieces =>
    obtain rfl := construct_eq hs
    exact ⟨(List.append_nil _).symm, by rintro text ⟨⟩⟩
  | insert line =>
    obtain ⟨buffer, piece, pieces, hstate, rfl⟩ := insert_eq hs
    exact ⟨(List.append_nil _).symm, by rintro text ⟨⟩⟩
  | destroy line throws =>
    obtain ⟨buffer, hstate, rfl⟩ := destroy_eq hs
    cases throws with
    | true => exact ⟨(List.append_nil _).symm, by rintro text ⟨⟩⟩
    | false =>
      have hwritten : written (s, .destroy line false) = some buffer := by
        show (s.lines line).map SynchronizedLogLine.buffer = _
        rw [hstate]
        rfl
      rw [hwritten]
      refine ⟨by simp, ?_⟩
      rintro text ⟨⟩
      obtain ⟨pieces, hmem, heq⟩ := h line _ hstate
      exact ⟨pieces, hmem, by simpa using heq⟩

/-! ### Every run -/

/-- The lines that are begun in a run. -/
def begunLines (history : List (SynchronizedLog × LogAction)) : List (List Bytes) :=
  history.filterMap begun

/-- The lines that are written in a run, in their order. -/
def writtenLines (history : List (SynchronizedLog × LogAction)) : List Bytes :=
  history.filterMap written

theorem filterMap_snoc {α β : Type*} (f : α → Option β) (l : List α) (a : α) :
    (l ++ [a]).filterMap f = l.filterMap f ++ (f a).toList := by
  rw [List.filterMap_append]
  cases h : f a <;> simp [h]

/-- **The file consists of whole lines.** However the threads take turns, what is in the file is one
line after the other, each with all its pieces and nothing between them. -/
theorem stream_eq (h : Run step {} history s) :
    s.stream = (writtenLines history).flatten ∧
      ∀ text ∈ writtenLines history, ∃ pieces ∈ begunLines history, text = pieces.flatten := by
  suffices hall : Whole (begunLines history) s ∧ s.stream = (writtenLines history).flatten ∧
      ∀ text ∈ writtenLines history, ∃ pieces ∈ begunLines history, text = pieces.flatten from
    hall.2
  induction h with
  | nil =>
    refine ⟨?_, rfl, by simp [writtenLines]⟩
    rintro line state ⟨⟩
  | @snoc history s s' a _ hs ih =>
    obtain ⟨hwhole, hstream, hlines⟩ := ih
    obtain ⟨hadds, hadded⟩ := hwhole.stream hs
    rw [begunLines, writtenLines, filterMap_snoc, filterMap_snoc]
    refine ⟨hwhole.step hs, ?_, fun text htext => ?_⟩
    · rw [hadds, hstream, List.flatten_append]
      rfl
    · rcases List.mem_append.mp htext with htext | htext
      · obtain ⟨pieces, hmem, heq⟩ := hlines text htext
        exact ⟨pieces, List.mem_append_left _ hmem, heq⟩
      · obtain ⟨pieces, hmem, heq⟩ := hadded text (Option.mem_toList.mp htext)
        exact ⟨pieces, List.mem_append_left _ hmem, heq⟩

end SynchronizedLog

end EggVision
