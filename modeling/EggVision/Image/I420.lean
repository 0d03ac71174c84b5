import EggVision.Lib.Planar
import Mathlib.Tactic.Linarith

/-!
# I420 views

`inspectCompactI420` tells whether the three planes of a mapped view lie one after the other in one
mapping, so that the inference thread can read them in place; `copyMappedI420` gathers them
otherwise. An address is a number, `0` the null pointer; `std::size_t` is a natural number up to
`sizeMax`.

## Main definitions

* `PlaneView`, `StreamView` — the views of `frame.hpp`
* `inspectCompactI420`, `copyMappedI420` — the two paths
* `inputMat` — the matrix that `workerLoop` builds

## Main results

* `inspectCompactI420_compatible` — what a compatible view has passed
* `copyMappedI420_planes` — what an accepted view copies
* `inspectCompactI420_agrees` — the two paths read the same bytes
-/

namespace EggVision

open Planar

/-! ### Views -/

/-- `PlaneView`. -/
structure PlaneView where
  fd : ℤ := -1
  offset : UInt32 := 0
  length : UInt32 := 0
  bytesUsed : UInt32 := 0
  /-- The address of the first byte of the plane. -/
  data : ℕ := 0
  /-- Where the file is mapped. -/
  mappingBase : ℕ := 0
  mappedLength : ℕ := 0
  deriving DecidableEq, Repr

/-- `StreamView`. -/
structure StreamView where
  width : UInt32 := 0
  height : UInt32 := 0
  stride : UInt32 := 0
  frameSize : UInt32 := 0
  planes : List PlaneView := []
  deriving DecidableEq, Repr

/-- `std::numeric_limits<std::size_t>::max()`. -/
def sizeMax : ℕ := 2 ^ 64 - 1

structure I420Sizes where
  y : ℕ := 0
  chroma : ℕ := 0
  total : ℕ := 0
  deriving DecidableEq, Repr

def checkedMultiply (left right : ℕ) : Option ℕ :=
  if left ≠ 0 ∧ right > sizeMax / left then none else some (left * right)

def calculateSizes (view : StreamView) : Option I420Sizes :=
  if view.width = 0 ∨ view.height = 0 ∨ view.width % 2 ≠ 0 ∨ view.height % 2 ≠ 0 then none
  else
    match checkedMultiply view.width.toNat view.height.toNat with
    | none => none
    | some y =>
      if y / 4 > (sizeMax - y) / 2 then none
      else some { y, chroma := y / 4, total := y + 2 * (y / 4) }

def requiredRowSpan (rows width stride : UInt32) : Option ℕ :=
  if rows = 0 ∨ width = 0 ∨ stride < width then none
  else
    match checkedMultiply (rows - 1).toNat stride.toNat with
    | none => none
    | some rowOffset =>
      if width.toNat > sizeMax - rowOffset then none else some (rowOffset + width.toNat)

def containsBytes (plane : PlaneView) (required : ℕ) : Bool :=
  if plane.data = 0 ∨ required > plane.length.toNat ∨ required > plane.bytesUsed.toNat then false
  else if plane.mappingBase = 0 then true
  else if plane.data < plane.mappingBase ∨ plane.data - plane.mappingBase > plane.mappedLength then
    false
  else required ≤ plane.mappedLength - (plane.data - plane.mappingBase)

/-! ### Reading in place -/

inductive CompactI420Status
  | compatible
  | invalidDimensions
  | unexpectedPlaneCount
  | unexpectedStride
  | invalidFileDescriptor
  | differentFileDescriptors
  | missingMapping
  | inconsistentMapping
  | nonCompactOffsets
  | planeTooShort
  | payloadTooShort
  | mappingTooShort
  deriving DecidableEq, Repr

structure CompactI420View where
  status : CompactI420Status := .invalidDimensions
  data : ℕ := 0
  size : ℕ := 0
  deriving DecidableEq, Repr

/-- `inspectCompactI420`. -/
def inspectCompactI420 (view : StreamView) : CompactI420View :=
  match calculateSizes view with
  | none => { status := .invalidDimensions }
  | some sizes =>
    match view.planes with
    | [y, u, v] =>
      if view.stride ≠ view.width then { status := .unexpectedStride }
      else if y.fd < 0 ∨ u.fd < 0 ∨ v.fd < 0 then { status := .invalidFileDescriptor }
      else if y.fd ≠ u.fd ∨ y.fd ≠ v.fd then { status := .differentFileDescriptors }
      else if y.data = 0 ∨ u.data = 0 ∨ v.data = 0 ∨ y.mappingBase = 0 ∨ u.mappingBase = 0 ∨
          v.mappingBase = 0 then
        { status := .missingMapping }
      else if y.mappingBase ≠ u.mappingBase ∨ y.mappingBase ≠ v.mappingBase ∨
          y.mappedLength ≠ u.mappedLength ∨ y.mappedLength ≠ v.mappedLength then
        { status := .inconsistentMapping }
      else if y.offset.toNat ≠ 0 ∨ u.offset.toNat ≠ sizes.y ∨
          v.offset.toNat ≠ sizes.y + sizes.chroma then
        { status := .nonCompactOffsets }
      else if y.length.toNat < sizes.y ∨ u.length.toNat < sizes.chroma ∨
          v.length.toNat < sizes.chroma then
        { status := .planeTooShort }
      else if y.bytesUsed.toNat < sizes.y ∨ u.bytesUsed.toNat < sizes.chroma ∨
          v.bytesUsed.toNat < sizes.chroma then
        { status := .payloadTooShort }
      else if view.frameSize.toNat < sizes.total ∨ y.mappedLength < sizes.total then
        { status := .mappingTooShort }
      else if y.data ≠ y.mappingBase ∨ u.data ≠ y.mappingBase + sizes.y ∨
          v.data ≠ y.mappingBase + sizes.y + sizes.chroma then
        { status := .inconsistentMapping }
      else { status := .compatible, data := y.data, size := sizes.total }
    | _ => { status := .unexpectedPlaneCount }

/-! ### Copying -/

/-- The three pointers that `copyMappedI420` reads rows from. -/
structure PlaneSources where
  y : ℕ
  u : ℕ
  v : ℕ
  deriving DecidableEq, Repr

/-- The pointers, once the planes are known to contain the rows. -/
def planeSources (view : StreamView) (ySpan chromaSpan : ℕ) : Except String PlaneSources :=
  match view.planes with
  | [plane] =>
    match checkedMultiply view.stride.toNat view.height.toNat,
        checkedMultiply (view.stride / 2).toNat (view.height / 2).toNat with
    | some yBlock, some chromaBlock =>
      if chromaBlock > (sizeMax - yBlock) / 2 then .error "mapped I420 plane span overflow"
      else if containsBytes plane (yBlock + 2 * chromaBlock) then
        .ok { y := plane.data, u := plane.data + yBlock, v := plane.data + yBlock + chromaBlock }
      else .error "mapped I420 plane is shorter than its stride layout"
    | _, _ => .error "mapped I420 plane span overflow"
  | [y, u, v] =>
    if containsBytes y ySpan && containsBytes u chromaSpan && containsBytes v chromaSpan then
      .ok { y := y.data, u := u.data, v := v.data }
    else .error "mapped I420 plane is shorter than its row layout"
  | _ => .error "mapped I420 requires one or three planes"

/-- `copyMappedI420`: the destination it fills, or the error it reports with the destination left
empty. -/
def copyMappedI420 (memory : ℕ → UInt8) (view : StreamView) : Except String (List UInt8) :=
  match calculateSizes view with
  | none => .error "invalid mapped I420 layout"
  | some sizes =>
    if view.stride < view.width ∨ view.stride % 2 ≠ 0 ∨ view.planes = [] then
      .error "invalid mapped I420 layout"
    else
      match requiredRowSpan view.height view.width view.stride,
          requiredRowSpan (view.height / 2) (view.width / 2) (view.stride / 2) with
      | some ySpan, some chromaSpan =>
        match planeSources view ySpan chromaSpan with
        | .error error => .error error
        | .ok sources =>
          let height := view.height.toNat
          let width := view.width.toNat
          let stride := view.stride.toNat
          let chromaHeight := (view.height / 2).toNat
          let chromaWidth := (view.width / 2).toNat
          let chromaStride := (view.stride / 2).toNat
          let destination := List.replicate sizes.total 0
          let destination := copyRows memory destination 0 sources.y height width stride
          let destination := copyRows memory destination sizes.y sources.u chromaHeight chromaWidth
            chromaStride
          .ok (copyRows memory destination (sizes.y + sizes.chroma) sources.v chromaHeight
            chromaWidth chromaStride)
      | _, _ => .error "mapped I420 row span overflow"

/-! ### The matrix of the inference thread -/

/-- `static_cast<int>` of an unsigned number. -/
def intOf (x : UInt32) : ℤ :=
  x.toInt32.toInt

/-- A `CV_8UC1` matrix over foreign bytes. -/
structure Mat where
  rows : ℤ
  cols : ℤ
  data : ℕ
  deriving DecidableEq, Repr

/-- The matrix that `workerLoop` hands to `cvtColor`. -/
def inputMat (view : StreamView) (data : ℕ) : Mat where
  rows := intOf (view.height * 3 / 2)
  cols := intOf view.width
  data := data

/-! ### What the checks establish -/

theorem checkedMultiply_eq_some {left right product : ℕ} :
    checkedMultiply left right = some product ↔
      product = left * right ∧ left * right ≤ sizeMax := by
  rcases Nat.eq_zero_or_pos left with rfl | hleft
  · simp [checkedMultiply, eq_comm]
  · have hle : right ≤ sizeMax / left ↔ left * right ≤ sizeMax := by
      rw [Nat.le_div_iff_mul_le hleft, Nat.mul_comm]
    have hne : left ≠ 0 := by omega
    by_cases hfits : left * right ≤ sizeMax
    · simp [checkedMultiply, hne, Nat.not_lt.mpr (hle.mpr hfits), hfits, eq_comm]
    · have hgt : sizeMax / left < right := Nat.lt_of_not_le (mt hle.mp hfits)
      simp [checkedMultiply, hne, hgt, hfits]

theorem toNat_eq_zero {x : UInt32} : x = 0 ↔ x.toNat = 0 := by
  simp [← UInt32.toNat_inj]

theorem toNat_parity (x : UInt32) : (x % 2).toNat = x.toNat % 2 := by
  simp

@[simp] theorem toNat_half (x : UInt32) : (x / 2).toNat = x.toNat / 2 := by
  simp

theorem intOf_eq (x : UInt32) :
    intOf x = if x.toNat < 2 ^ 31 then (x.toNat : ℤ) else x.toNat - 2 ^ 32 := by
  have hcond : intOf x = if 2 * x.toNat < 2 ^ 32 then (x.toNat : ℤ) else x.toNat - (2 ^ 32 : ℕ) :=
    BitVec.toInt_eq_toNat_cond x.toBitVec
  rw [hcond]
  split_ifs <;> omega

/-- The sizes of a view with even, positive dimensions. -/
structure Sized (view : StreamView) (sizes : I420Sizes) : Prop where
  width_pos : 0 < view.width.toNat
  height_pos : 0 < view.height.toNat
  width_even : view.width.toNat % 2 = 0
  height_even : view.height.toNat % 2 = 0
  y : sizes.y = view.height.toNat * view.width.toNat
  chroma : sizes.chroma = (view.height / 2).toNat * (view.width / 2).toNat
  total : sizes.total = sizes.y + 2 * sizes.chroma

theorem sized_of_calculateSizes {view : StreamView} {sizes : I420Sizes}
    (h : calculateSizes view = some sizes) : Sized view sizes := by
  unfold calculateSizes at h
  split at h
  · cases h
  rename_i hdims
  split at h
  · cases h
  rename_i y hy
  split at h
  · cases h
  cases h
  obtain ⟨rfl, -⟩ := checkedMultiply_eq_some.mp hy
  simp only [not_or, ne_eq, not_not, toNat_eq_zero, toNat_parity] at hdims
  obtain ⟨hwidth, hheight, hwidth2, hheight2⟩ := hdims
  have hquarter : view.width.toNat * view.height.toNat / 4 =
      view.height.toNat / 2 * (view.width.toNat / 2) := by
    obtain ⟨w, hw⟩ : ∃ w, view.width.toNat = 2 * w := ⟨view.width.toNat / 2, by omega⟩
    obtain ⟨h, hh⟩ : ∃ h, view.height.toNat = 2 * h := ⟨view.height.toNat / 2, by omega⟩
    have hproduct : 2 * w * (2 * h) = 4 * (h * w) := by ring
    rw [hw, hh, hproduct]
    simp
  refine ⟨by omega, by omega, hwidth2, hheight2, Nat.mul_comm _ _, ?_, rfl⟩
  simpa using hquarter

/-- Numbers of 32 bits cannot overflow a row span. -/
theorem span_le_sizeMax (rows width stride : UInt32) :
    rows.toNat * stride.toNat + width.toNat ≤ sizeMax := by
  have hrows := UInt32.toNat_lt rows
  have hwidth := UInt32.toNat_lt width
  have hstride := UInt32.toNat_lt stride
  have hproduct : rows.toNat * stride.toNat ≤ (2 ^ 32 - 1) * (2 ^ 32 - 1) :=
    Nat.mul_le_mul (by omega) (by omega)
  unfold sizeMax
  omega

theorem requiredRowSpan_eq_some {rows width stride : UInt32} {span : ℕ} :
    requiredRowSpan rows width stride = some span ↔
      0 < rows.toNat ∧ 0 < width.toNat ∧ width.toNat ≤ stride.toNat ∧
        span = (rows.toNat - 1) * stride.toNat + width.toNat := by
  unfold requiredRowSpan
  split
  · rename_i hbad
    simp only [toNat_eq_zero, UInt32.lt_iff_toNat_lt] at hbad
    constructor
    · intro h
      cases h
    · rintro ⟨hrows, hwidth, hstride, -⟩
      omega
  · rename_i hgood
    simp only [not_or, toNat_eq_zero, UInt32.lt_iff_toNat_lt, not_lt] at hgood
    obtain ⟨hrows, hwidth, hstride⟩ := hgood
    have hpred : (rows - 1).toNat = rows.toNat - 1 :=
      UInt32.toNat_sub_of_le _ _ (UInt32.le_iff_toNat_le.mpr (Nat.pos_of_ne_zero hrows))
    have hspan := span_le_sizeMax (rows - 1) width stride
    rw [checkedMultiply_eq_some.mpr ⟨rfl, by omega⟩, hpred] at *
    simp only [if_neg (show ¬ width.toNat > sizeMax - (rows.toNat - 1) * stride.toNat by omega),
      Option.some.injEq]
    constructor
    · rintro rfl
      exact ⟨by omega, by omega, hstride, rfl⟩
    · exact fun h => h.2.2.2.symm

/-- A mapped plane contains its bytes inside the mapping. -/
theorem containsBytes_iff {plane : PlaneView} {required : ℕ} (hbase : plane.mappingBase ≠ 0) :
    containsBytes plane required = true ↔
      plane.data ≠ 0 ∧ required ≤ plane.length.toNat ∧ required ≤ plane.bytesUsed.toNat ∧
        plane.mappingBase ≤ plane.data ∧
        plane.data + required ≤ plane.mappingBase + plane.mappedLength := by
  unfold containsBytes
  split_ifs
  · simp only [false_iff]
    omega
  · simp only [false_iff]
    omega
  · simp only [decide_eq_true_eq]
    omega

theorem containsBytes_length {plane : PlaneView} {required : ℕ}
    (h : containsBytes plane required = true) :
    plane.data ≠ 0 ∧ required ≤ plane.length.toNat := by
  unfold containsBytes at h
  split at h
  · cases h
  · omega

/-! ### The copy path -/

/-- The rows of the three planes, one plane after the other. -/
def planarBytes (memory : ℕ → UInt8) (view : StreamView) (sources : PlaneSources) : List UInt8 :=
  strided memory sources.y view.height.toNat view.width.toNat view.stride.toNat ++
    strided memory sources.u (view.height.toNat / 2) (view.width.toNat / 2)
      (view.stride.toNat / 2) ++
    strided memory sources.v (view.height.toNat / 2) (view.width.toNat / 2)
      (view.stride.toNat / 2)

/-- Three planes written behind each other fill the destination. -/
theorem copyRows_planar {memory : ℕ → UInt8} {view : StreamView} {sizes : I420Sizes}
    {sources : PlaneSources} (hsized : Sized view sizes) :
    copyRows memory
      (copyRows memory
        (copyRows memory (List.replicate sizes.total 0) 0 sources.y view.height.toNat
          view.width.toNat view.stride.toNat)
        sizes.y sources.u (view.height / 2).toNat (view.width / 2).toNat (view.stride / 2).toNat)
      (sizes.y + sizes.chroma) sources.v (view.height / 2).toNat (view.width / 2).toNat
      (view.stride / 2).toNat = planarBytes memory view sources := by
  have hy := hsized.y
  have hchroma := hsized.chroma
  have htotal := hsized.total
  simp only [toNat_half] at hchroma ⊢
  rw [copyRows_eq_strided _ _ (Nat.zero_le _), copyRows_overwrite _ _ (by simp [hy]),
    copyRows_overwrite _ _ (by simp [hy, hchroma])]
  refine overwrite_all ?_
  simp only [List.length_replicate, List.length_append, strided_length]
  omega

/-- The two layouts the copy accepts, and where it finds the planes. -/
theorem planeSources_eq_ok {view : StreamView} {ySpan chromaSpan : ℕ} {sources : PlaneSources}
    (h : planeSources view ySpan chromaSpan = .ok sources) :
    (∃ plane yBlock chromaBlock, view.planes = [plane] ∧
      yBlock = view.stride.toNat * view.height.toNat ∧
      chromaBlock = (view.stride / 2).toNat * (view.height / 2).toNat ∧
      containsBytes plane (yBlock + 2 * chromaBlock) = true ∧
      sources = { y := plane.data, u := plane.data + yBlock,
                  v := plane.data + yBlock + chromaBlock }) ∨
    ∃ y u v, view.planes = [y, u, v] ∧ containsBytes y ySpan = true ∧
      containsBytes u chromaSpan = true ∧ containsBytes v chromaSpan = true ∧
      sources = { y := y.data, u := u.data, v := v.data } := by
  unfold planeSources at h
  split at h
  · rename_i plane hplanes
    split at h
    · rename_i yBlock chromaBlock hy hchroma
      split_ifs at h with hoverflow hcontains
      cases h
      exact .inl ⟨plane, yBlock, chromaBlock, hplanes, (checkedMultiply_eq_some.mp hy).1,
        (checkedMultiply_eq_some.mp hchroma).1, hcontains, rfl⟩
    · cases h
  · rename_i y u v hplanes
    split_ifs at h with hcontains
    cases h
    simp only [Bool.and_eq_true] at hcontains
    exact .inr ⟨y, u, v, hplanes, hcontains.1.1, hcontains.1.2, hcontains.2, rfl⟩
  · cases h

/-- When the copy succeeds, and what it copies. -/
theorem copyMappedI420_eq_ok {memory : ℕ → UInt8} {view : StreamView} {destination : List UInt8} :
    copyMappedI420 memory view = .ok destination ↔
      ∃ sizes sources, calculateSizes view = some sizes ∧
        view.width.toNat ≤ view.stride.toNat ∧ view.stride.toNat % 2 = 0 ∧
        planeSources view ((view.height.toNat - 1) * view.stride.toNat + view.width.toNat)
          ((view.height.toNat / 2 - 1) * (view.stride.toNat / 2) + view.width.toNat / 2) =
            .ok sources ∧
        destination = planarBytes memory view sources := by
  unfold copyMappedI420
  rcases hsizes : calculateSizes view with _ | sizes
  · simp
  have hsized := sized_of_calculateSizes hsizes
  have hheight := hsized.height_pos
  have hheight2 := hsized.height_even
  have hwidth := hsized.width_pos
  have hwidth2 := hsized.width_even
  simp only [UInt32.lt_iff_toNat_lt, toNat_eq_zero, toNat_parity, ne_eq]
  split_ifs with hbad
  · simp only [false_iff]
    rintro ⟨_, sources, -, hstride, hstride2, hsources, -⟩
    have hplanes : view.planes = [] := by
      rcases hbad with h | h | h
      · omega
      · exact absurd hstride2 h
      · exact h
    rw [planeSources, hplanes] at hsources
    cases hsources
  · simp only [not_or, not_lt, not_not] at hbad
    obtain ⟨hstride, hstride2, -⟩ := hbad
    rw [requiredRowSpan_eq_some.mpr ⟨hheight, hwidth, hstride, rfl⟩,
      requiredRowSpan_eq_some.mpr ⟨by rw [toNat_half]; omega, by rw [toNat_half]; omega,
        by rw [toNat_half, toNat_half]; omega, rfl⟩]
    simp only [copyRows_planar hsized]
    simp only [toNat_half]
    split
    · rename_i hsources
      simp [hsources]
    · rename_i sources hsources
      simp [hsources, hstride, hstride2, eq_comm]

/-! ### The zero-copy path -/

/-- What `inspectCompactI420` has checked of a compatible view. -/
structure Compact (view : StreamView) (sizes : I420Sizes) (y u v : PlaneView) : Prop where
  sized : calculateSizes view = some sizes
  planes : view.planes = [y, u, v]
  stride : view.stride = view.width
  fd : 0 ≤ y.fd ∧ u.fd = y.fd ∧ v.fd = y.fd
  mapped : y.mappingBase ≠ 0 ∧ u.mappingBase = y.mappingBase ∧ v.mappingBase = y.mappingBase ∧
    u.mappedLength = y.mappedLength ∧ v.mappedLength = y.mappedLength
  offset : y.offset.toNat = 0 ∧ u.offset.toNat = sizes.y ∧ v.offset.toNat = sizes.y + sizes.chroma
  length : sizes.y ≤ y.length.toNat ∧ sizes.chroma ≤ u.length.toNat ∧ sizes.chroma ≤ v.length.toNat
  bytesUsed : sizes.y ≤ y.bytesUsed.toNat ∧ sizes.chroma ≤ u.bytesUsed.toNat ∧
    sizes.chroma ≤ v.bytesUsed.toNat
  frameSize : sizes.total ≤ view.frameSize.toNat
  mappedLength : sizes.total ≤ y.mappedLength
  data : y.data = y.mappingBase ∧ u.data = y.mappingBase + sizes.y ∧
    v.data = y.mappingBase + sizes.y + sizes.chroma

/-- A check that a compatible view has passed. -/
theorem passed {p : Prop} [Decidable p] {failure rest result : CompactI420View}
    (hfailure : failure.status ≠ .compatible) (h : result.status = .compatible)
    (hresult : (if p then failure else rest) = result) : ¬p ∧ rest = result := by
  split at hresult
  · subst hresult
    exact absurd h hfailure
  · rename_i hp
    exact ⟨hp, hresult⟩

theorem inspectCompactI420_compatible {view : StreamView}
    (h : (inspectCompactI420 view).status = .compatible) :
    ∃ sizes y u v, Compact view sizes y u v ∧
      inspectCompactI420 view =
        { status := .compatible, data := y.data, size := sizes.total } := by
  generalize hresult : inspectCompactI420 view = result at h ⊢
  rcases hsizes : calculateSizes view with _ | sizes
  · rw [inspectCompactI420, hsizes] at hresult
    subst hresult
    cases h
  rw [inspectCompactI420, hsizes] at hresult
  simp only at hresult
  split at hresult
  swap
  · subst hresult
    cases h
  rename_i y u v hplanes
  obtain ⟨h1, hresult⟩ := passed (by decide) h hresult
  obtain ⟨h2, hresult⟩ := passed (by decide) h hresult
  obtain ⟨h3, hresult⟩ := passed (by decide) h hresult
  obtain ⟨h4, hresult⟩ := passed (by decide) h hresult
  obtain ⟨h5, hresult⟩ := passed (by decide) h hresult
  obtain ⟨h6, hresult⟩ := passed (by decide) h hresult
  obtain ⟨h7, hresult⟩ := passed (by decide) h hresult
  obtain ⟨h8, hresult⟩ := passed (by decide) h hresult
  obtain ⟨h9, hresult⟩ := passed (by decide) h hresult
  obtain ⟨h10, hresult⟩ := passed (by decide) h hresult
  simp only [not_or, not_not, not_lt, ne_eq] at h1 h2 h3 h4 h5 h6 h7 h8 h9 h10
  refine ⟨sizes, y, u, v, ?_, hresult.symm⟩
  exact {
    sized := hsizes
    planes := hplanes
    stride := h1
    fd := ⟨h2.1, h3.1.symm, h3.2.symm⟩
    mapped := ⟨h4.2.2.2.1, h5.1.symm, h5.2.1.symm, h5.2.2.1.symm, h5.2.2.2.symm⟩
    offset := h6
    length := h7
    bytesUsed := h8
    frameSize := h9.1
    mappedLength := h9.2
    data := h10 }

/-- Rows without padding have a span of all their bytes. -/
theorem span_of_unpadded {rows width : ℕ} (hrows : 0 < rows) :
    (rows - 1) * width + width = rows * width := by
  rw [← Nat.succ_mul, Nat.succ_eq_add_one, Nat.sub_add_cancel hrows]

/-- The planes of a compatible view satisfy the checks of the copy path. -/
theorem Compact.sources_eq {view : StreamView} {sizes : I420Sizes} {y u v : PlaneView}
    (h : Compact view sizes y u v) :
    planeSources view ((view.height.toNat - 1) * view.stride.toNat + view.width.toNat)
      ((view.height.toNat / 2 - 1) * (view.stride.toNat / 2) + view.width.toNat / 2) =
        .ok { y := y.data, u := u.data, v := v.data } := by
  have hsized := sized_of_calculateSizes h.sized
  have hy := hsized.y
  have hchroma := hsized.chroma
  have htotal := hsized.total
  have hheight := hsized.height_pos
  have hheight2 := hsized.height_even
  have hmapped := h.mapped
  have hdata := h.data
  have hlength := h.length
  have hbytesUsed := h.bytesUsed
  have hmappedLength := h.mappedLength
  simp only [toNat_half] at hchroma
  rw [h.stride, span_of_unpadded hheight, span_of_unpadded (by omega), ← hy, ← hchroma]
  have hcontains : (containsBytes y sizes.y && containsBytes u sizes.chroma &&
      containsBytes v sizes.chroma) = true := by
    simp only [Bool.and_eq_true]
    refine ⟨⟨(containsBytes_iff ?_).mpr ?_, (containsBytes_iff ?_).mpr ?_⟩,
      (containsBytes_iff ?_).mpr ?_⟩
    all_goals omega
  rw [planeSources, h.planes]
  exact if_pos hcontains

/-- The planes of a compatible view are one range of bytes. -/
theorem Compact.planarBytes_eq {memory : ℕ → UInt8} {view : StreamView} {sizes : I420Sizes}
    {y u v : PlaneView} (h : Compact view sizes y u v) :
    planarBytes memory view { y := y.data, u := u.data, v := v.data } =
      bytesAt memory y.data sizes.total := by
  have hsized := sized_of_calculateSizes h.sized
  obtain ⟨hydata, hudata, hvdata⟩ := h.data
  have hchroma := hsized.chroma
  simp only [toNat_half] at hchroma
  rw [planarBytes, h.stride, strided_contiguous, strided_contiguous, strided_contiguous, ← hsized.y,
    ← hchroma, hudata, hvdata, ← hydata, bytesAt_append, Nat.add_assoc, bytesAt_append,
    hsized.total, Nat.two_mul, Nat.add_assoc]

/-- The frame size has 32 bits, so neither dimension can wrap. -/
theorem Compact.inputMat_eq {view : StreamView} {sizes : I420Sizes} {y u v : PlaneView}
    (h : Compact view sizes y u v) (data : ℕ) :
    (inputMat view data).rows = (view.height.toNat * 3 / 2 : ℕ) ∧
      (inputMat view data).cols = view.width.toNat ∧
      (inputMat view data).rows * (inputMat view data).cols = sizes.total := by
  have hsized := sized_of_calculateSizes h.sized
  have hframeSize := UInt32.toNat_lt view.frameSize
  have hfits := h.frameSize
  have htotal := hsized.total
  have hheight := hsized.height_pos
  have hwidth := hsized.width_pos
  obtain ⟨a, ha⟩ : ∃ a, view.width.toNat = 2 * a :=
    ⟨view.width.toNat / 2, by have := hsized.width_even; omega⟩
  obtain ⟨b, hb⟩ : ∃ b, view.height.toNat = 2 * b :=
    ⟨view.height.toNat / 2, by have := hsized.height_even; omega⟩
  rw [hsized.y, hsized.chroma, toNat_half, toNat_half, ha, hb,
    Nat.mul_div_cancel_left _ Nat.two_pos, Nat.mul_div_cancel_left _ Nat.two_pos] at htotal
  have harea : sizes.total = 6 * (b * a) := by rw [htotal]; ring
  have hha : a ≤ b * a := Nat.le_mul_of_pos_left a (by omega)
  have hhb : b ≤ b * a := Nat.le_mul_of_pos_right b (by omega)
  have hrows : (inputMat view data).rows = (3 * b : ℕ) := by
    have hthree : (3 : UInt32).toNat = 3 := rfl
    have hrows : (view.height * 3 / 2).toNat = 3 * b := by
      rw [toNat_half, UInt32.toNat_mul, hb, hthree]
      omega
    show intOf (view.height * 3 / 2) = _
    rw [intOf_eq, hrows, if_pos (by omega)]
  have hcols : (inputMat view data).cols = (2 * a : ℕ) := by
    show intOf view.width = _
    rw [intOf_eq, ha, if_pos (by omega)]
  refine ⟨?_, ?_, ?_⟩
  · rw [hrows, hb]
    congr 1
    omega
  · rw [hcols, ha]
  · rw [hrows, hcols, harea]
    push_cast
    ring

/-- **The two paths agree.** What the inference thread reads in place is what it would have copied,
it lies inside the mapping, and the matrix over it has as many bytes. -/
theorem inspectCompactI420_agrees (memory : ℕ → UInt8) {view : StreamView}
    (h : (inspectCompactI420 view).status = .compatible) :
    copyMappedI420 memory view =
        .ok (bytesAt memory (inspectCompactI420 view).data (inspectCompactI420 view).size) ∧
      (∀ plane ∈ view.planes, plane.mappingBase ≤ (inspectCompactI420 view).data ∧
        (inspectCompactI420 view).data + (inspectCompactI420 view).size ≤
          plane.mappingBase + plane.mappedLength) ∧
      (inputMat view (inspectCompactI420 view).data).rows = (view.height.toNat * 3 / 2 : ℕ) ∧
      (inputMat view (inspectCompactI420 view).data).cols = view.width.toNat ∧
      (inputMat view (inspectCompactI420 view).data).rows *
        (inputMat view (inspectCompactI420 view).data).cols = (inspectCompactI420 view).size := by
  obtain ⟨sizes, y, u, v, hcompact, hresult⟩ := inspectCompactI420_compatible h
  rw [hresult]
  refine ⟨?_, ?_, hcompact.inputMat_eq y.data⟩
  · have hstride := hcompact.stride
    have hsized := sized_of_calculateSizes hcompact.sized
    refine copyMappedI420_eq_ok.mpr ⟨sizes, _, hcompact.sized, by rw [hstride], ?_,
      hcompact.sources_eq, hcompact.planarBytes_eq.symm⟩
    rw [hstride]
    exact hsized.width_even
  · intro plane hplane
    have hmapped := hcompact.mapped
    have hlength := hcompact.mappedLength
    have hdata := hcompact.data
    rw [hcompact.planes] at hplane
    simp only [List.mem_cons, List.not_mem_nil, or_false] at hplane
    rcases hplane with rfl | rfl | rfl
    all_goals simp only
    all_goals omega

/-- A 4 × 4 view of one mapping, its planes behind each other. -/
def compactView : StreamView where
  width := 4
  height := 4
  stride := 4
  frameSize := 24
  planes :=
    [{ fd := 17, offset := 0, length := 16, bytesUsed := 16, data := 4096, mappingBase := 4096,
       mappedLength := 24 },
     { fd := 17, offset := 16, length := 4, bytesUsed := 4, data := 4112, mappingBase := 4096,
       mappedLength := 24 },
     { fd := 17, offset := 20, length := 4, bytesUsed := 4, data := 4116, mappingBase := 4096,
       mappedLength := 24 }]

theorem inspectCompactI420_agrees_compactView :
    copyMappedI420 (fun address => address.toUInt8) compactView =
        .ok (bytesAt (fun address => address.toUInt8) 4096 24) ∧
      (inputMat compactView 4096).rows * (inputMat compactView 4096).cols = 24 := by
  have h : inspectCompactI420 compactView =
      { status := .compatible, data := 4096, size := 24 } := by decide
  have hstatus : (inspectCompactI420 compactView).status = .compatible := by rw [h]
  obtain ⟨hcopy, -, -, -, hsize⟩ :=
    inspectCompactI420_agrees (fun address => address.toUInt8) hstatus
  rw [h] at hcopy hsize
  exact ⟨hcopy, hsize⟩

end EggVision
