import Mathlib.Data.List.Infix
import Mathlib.Data.List.Flatten

/-!
# Frames behind start codes

A byte stream is cut into frames by a start code, here `zero zero one`, that no frame contains.
Frames carry no length: a reader has to find the codes, and it may be misled by a frame that ends
in a prefix of the code. So a frame that is to be found again neither contains the code nor ends in
`zero`, and then any number of further `zero`s may stand before a code or after the last frame.

## Main definitions

* `StartCodes.headers` — the element after each start code, from the left, where the search goes
  on behind the element found.
* `StartCodes.Frame` — a frame that can be found again.
* `StartCodes.stream` — frames behind their codes, with padding.

## Main results

* `StartCodes.infix_of_mem_headers` — every header found stands behind a start code.
* `StartCodes.headers_stream` — the headers of a stream are the first elements of its frames, in
  order.
-/

namespace StartCodes

variable {α : Type*} [DecidableEq α] (zero one : α)

/-- The element behind each start code. The search resumes after that element, so a start code
that begins with the header of a frame is not seen. -/
def headers : List α → List α
  | a :: b :: c :: h :: rest =>
    if a = zero ∧ b = zero ∧ c = one then h :: headers rest else headers (b :: c :: h :: rest)
  | _ => []

/-- A non-empty frame that neither contains the start code nor ends in `zero`. -/
structure Frame where
  header : α
  body : List α
  no_code : ¬ [zero, zero, one] <:+: header :: body
  last_ne : (header :: body).getLast? ≠ some zero

variable {zero one}

/-- The elements of a frame. -/
def Frame.elements (frame : Frame zero one) : List α := frame.header :: frame.body

/-- Each frame behind its start code and the number of additional `zero`s given with it, and
`trailing` zeros at the end. -/
def stream (frames : List (ℕ × Frame zero one)) (trailing : ℕ) : List α :=
  frames.flatMap (fun f => List.replicate f.1 zero ++ [zero, zero, one] ++ f.2.elements) ++
    List.replicate trailing zero

@[simp] theorem headers_code (h : α) (rest : List α) :
    headers zero one (zero :: zero :: one :: h :: rest) = h :: headers zero one rest := by
  simp [headers]

/-- A start code and the element behind it are four elements. -/
theorem headers_of_length_le {l : List α} (h : l.length ≤ 3) : headers zero one l = [] := by
  rcases l with _ | ⟨a, _ | ⟨b, _ | ⟨c, _ | ⟨d, rest⟩⟩⟩⟩
  · rfl
  · rfl
  · rfl
  · rfl
  · simp only [List.length_cons] at h
    omega

/-- Where no start code stands, the search moves on by one element. -/
theorem headers_cons {a : α} {l : List α} (h : ¬ [zero, zero, one] <+: a :: l) :
    headers zero one (a :: l) = headers zero one l := by
  rcases l with _ | ⟨b, _ | ⟨c, _ | ⟨d, rest⟩⟩⟩
  · rfl
  · rfl
  · rfl
  · have hcode : ¬ (a = zero ∧ b = zero ∧ c = one) := by
      rintro ⟨rfl, rfl, rfl⟩
      exact h ⟨d :: rest, rfl⟩
    rw [headers, if_neg hcode]

/-- Every header found stands behind a start code. -/
theorem infix_of_mem_headers {h : α} (l : List α) (hmem : h ∈ headers zero one l) :
    [zero, zero, one, h] <:+: l := by
  induction l using headers.induct zero one with
  | case1 a b c d rest hcode ih =>
    rw [headers, if_pos hcode, List.mem_cons] at hmem
    rcases hmem with rfl | hmem
    · obtain ⟨rfl, rfl, rfl⟩ := hcode
      exact ⟨[], rest, rfl⟩
    · exact (ih hmem).trans (List.suffix_append [a, b, c, d] rest).isInfix
  | case2 a b c d rest hcode ih =>
    rw [headers, if_neg hcode] at hmem
    exact (ih hmem).trans (List.suffix_cons _ _).isInfix
  | case3 l hshort =>
    rw [headers] at hmem
    · cases hmem
    · exact hshort

/-! ## Streams of frames -/

/-- A part of a frame hides nothing of what follows it: it neither contains a start code nor ends
in the beginning of one. -/
theorem headers_append {body : List α} (next : List α) (hcode : ¬ [zero, zero, one] <:+: body)
    (hlast : body.getLast? ≠ some zero) :
    headers zero one (body ++ next) = headers zero one next := by
  induction body with
  | nil => rfl
  | cons a body ih =>
    have hnot : ¬ [zero, zero, one] <+: a :: body ++ next := by
      intro hprefix
      rcases body with _ | ⟨b, _ | ⟨c, body⟩⟩
      · obtain ⟨rest, hrest⟩ := hprefix
        simp only [List.cons_append, List.cons.injEq] at hrest
        exact hlast (by simp [← hrest.1])
      · obtain ⟨rest, hrest⟩ := hprefix
        simp only [List.cons_append, List.cons.injEq] at hrest
        exact hlast (by simp [← hrest.2.1])
      · refine hcode (List.IsPrefix.isInfix ?_)
        exact List.prefix_of_prefix_length_le hprefix (List.prefix_append _ _) (by simp)
    rw [List.cons_append] at hnot ⊢
    rw [headers_cons hnot]
    refine ih (fun h => hcode (h.trans (List.suffix_cons _ _).isInfix)) fun h => ?_
    rcases body with _ | ⟨b, body⟩
    · cases h
    · exact hlast (by rw [List.getLast?_cons_cons]; exact h)

/-- Zeros without a start code behind them hold no header. -/
theorem headers_replicate (h01 : zero ≠ one) (n : ℕ) :
    headers zero one (List.replicate n zero) = [] := by
  induction n with
  | zero => rfl
  | succ n ih =>
    rw [List.replicate_succ, headers_cons, ih]
    rintro ⟨rest, hrest⟩
    have hone : one ∈ zero :: List.replicate n zero := by rw [← hrest]; simp
    rw [← List.replicate_succ] at hone
    exact h01 (List.eq_of_mem_replicate hone).symm

/-- Further zeros before a start code do not hide it. -/
theorem headers_padded (h01 : zero ≠ one) (n : ℕ) (h : α) (rest : List α) :
    headers zero one (List.replicate n zero ++ zero :: zero :: one :: h :: rest) =
      h :: headers zero one rest := by
  induction n with
  | zero => exact headers_code h rest
  | succ n ih =>
    rw [List.replicate_succ, List.cons_append, headers_cons, ih]
    rintro ⟨tail, htail⟩
    -- with a zero more, the third element is a zero in place of the code's last one
    rcases n with _ | _ | n <;> simp [List.replicate_succ] at htail <;> exact h01 htail.1.symm

/-- **The headers of a stream are those of its frames.** -/
theorem headers_stream (h01 : zero ≠ one) (frames : List (ℕ × Frame zero one)) (trailing : ℕ) :
    headers zero one (stream frames trailing) = frames.map (fun f => f.2.header) := by
  induction frames with
  | nil => exact headers_replicate h01 trailing
  | cons f frames ih =>
    obtain ⟨n, frame⟩ := f
    have hbody : ¬ [zero, zero, one] <:+: frame.body := fun h =>
      frame.no_code (h.trans (List.suffix_cons _ _).isInfix)
    have hlast : frame.body.getLast? ≠ some zero := by
      intro h
      refine frame.last_ne ?_
      rw [List.getLast?_cons, h]
      rfl
    calc headers zero one (stream ((n, frame) :: frames) trailing)
        = headers zero one (List.replicate n zero ++ zero :: zero :: one :: frame.header ::
            (frame.body ++ stream frames trailing)) := by simp [stream, Frame.elements]
      _ = frame.header :: headers zero one (frame.body ++ stream frames trailing) :=
          headers_padded h01 n _ _
      _ = frame.header :: frames.map (fun f => f.2.header) := by
          rw [headers_append _ hbody hlast, ih]

end StartCodes
