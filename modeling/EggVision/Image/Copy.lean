import EggVision.Image.RawBuffer

/-!
# What the copy reads and leaves

A caller of `copyMappedI420` sees a flag, a destination and an error text, all three written by the
call. Behind it are the reads: the rows of the three planes, of which nothing but the checks on the
spans says that they lie in the planes.

## Main definitions

* `copyReads` — the addresses that the `copy_n` calls read, in order.
* `CopyCall` — what a call leaves in its parameters.
* `I420Plane.address` — where a sample of a plane is stored.
* `PlaneView.Holds` — the addresses of a plane that may be read.

## Main results

* `planeSources_start` — the pointers of the copy are those of the layout.
* `holds_of_sources` — each sample of an accepted view lies in its plane.
* `copyCall_accepted`, `copyCall_refused` — the two ways a call ends.
* `copyMappedI420_exact` — an accepted copy is exact and bounded, a refused one leaves an error.
-/

namespace EggVision

open Planar

/-! ### A call with its reads -/

/-- The addresses that the three `copyRows` of `copyMappedI420` read. -/
def copyReads (view : StreamView) : List ℕ :=
  match requiredRowSpan view.height view.width view.stride,
      requiredRowSpan (view.height / 2) (view.width / 2) (view.stride / 2) with
  | some ySpan, some chromaSpan =>
    match planeSources view ySpan chromaSpan with
    | .ok sources =>
      strided id sources.y view.height.toNat view.width.toNat view.stride.toNat ++
        strided id sources.u (view.height / 2).toNat (view.width / 2).toNat
          (view.stride / 2).toNat ++
        strided id sources.v (view.height / 2).toNat (view.width / 2).toNat
          (view.stride / 2).toNat
    | .error _ => []
  | _, _ => []

/-- The result of `copyMappedI420`, its two reference parameters, and what it has read. -/
structure CopyCall where
  copied : Bool
  destination : List UInt8
  error : String
  reads : List ℕ
  deriving DecidableEq, Repr

/-- `copyMappedI420` with its reference parameters, which it clears first. -/
def copyCall (memory : ℕ → UInt8) (view : StreamView) : CopyCall :=
  match copyMappedI420 memory view with
  | .ok destination => { copied := true, destination, error := "", reads := copyReads view }
  | .error error => { copied := false, destination := [], error, reads := [] }

/-! ### Where the samples are stored -/

/-- Where a plane begins in a view of one plane: each block has the rows of its plane, padded to
the stride. -/
def I420Plane.blockStart (view : StreamView) : I420Plane → ℕ
  | .y => 0
  | .u => view.stride.toNat * view.height.toNat
  | .v => view.stride.toNat * view.height.toNat +
      view.stride.toNat / 2 * (view.height.toNat / 2)

/-- The address of the first sample of a plane. -/
def I420Plane.start (view : StreamView) (plane : I420Plane) : ℕ :=
  match view.planes with
  | [whole] => whole.data + plane.blockStart view
  | _ => ((plane.source view).getD {}).data

def I420Plane.address (view : StreamView) (plane : I420Plane) (row column : ℕ) : ℕ :=
  plane.start view + row * plane.stride view + column

/-- The addresses of the samples of a plane, row after row. -/
def I420Plane.addresses (view : StreamView) (plane : I420Plane) : List ℕ :=
  (List.range (plane.rows view)).flatMap fun row =>
    (List.range (plane.columns view)).map fun column => plane.address view row column

/-- The addresses of the Y, U and V samples. -/
def sampleAddresses (view : StreamView) : List ℕ :=
  I420Plane.y.addresses view ++ I420Plane.u.addresses view ++ I420Plane.v.addresses view

/-- The address is one of the first `min(length, bytes_used)` bytes of the plane, and inside the
mapping if there is one. -/
structure PlaneView.Holds (plane : PlaneView) (address : ℕ) : Prop where
  data_le : plane.data ≤ address
  lt_payload : address < plane.data + min plane.length.toNat plane.bytesUsed.toNat
  mapped : plane.mappingBase ≠ 0 →
    plane.mappingBase ≤ address ∧ address < plane.mappingBase + plane.mappedLength

/-- The bytes that `containsBytes` asks for may be read. -/
theorem holds_of_containsBytes {plane : PlaneView} {required i : ℕ}
    (h : containsBytes plane required = true) (hi : i < required) :
    plane.Holds (plane.data + i) := by
  have hlength := containsBytes_length h
  have hbytesUsed : required ≤ plane.bytesUsed.toNat := by
    unfold containsBytes at h
    split at h
    · cases h
    · omega
  refine ⟨Nat.le_add_right _ _, by omega, fun hbase => ?_⟩
  obtain ⟨-, -, -, hle, hfits⟩ := (containsBytes_iff hbase).mp h
  omega

/-! ### What an accepted view has passed -/

/-- The pointers of the copy are where the layout puts the planes. -/
theorem planeSources_start {view : StreamView} {ySpan chromaSpan : ℕ} {sources : PlaneSources}
    (h : planeSources view ySpan chromaSpan = .ok sources) (plane : I420Plane) :
    sources.pointer plane = plane.start view := by
  rcases planeSources_eq_ok h with
    ⟨whole, yBlock, chromaBlock, hplanes, hy, hchroma, -, rfl⟩ |
    ⟨first, second, third, hplanes, -, -, -, rfl⟩
  · rw [toNat_half, toNat_half] at hchroma
    rw [I420Plane.start, hplanes]
    cases plane
    all_goals simp only [PlaneSources.pointer, I420Plane.blockStart]
    all_goals omega
  · rw [I420Plane.start, hplanes, I420Plane.source, hplanes]
    cases plane <;> rfl

/-- A sample lies within the rows of its plane, each padded to the stride. -/
theorem sample_lt_block {rows columns stride row column : ℕ} (hstride : columns ≤ stride)
    (hrow : row < rows) (hcolumn : column < columns) :
    row * stride + column < stride * rows := by
  have hspan : row * stride + column < (rows - 1) * stride + columns := row_lt_span hrow hcolumn
  have hblock : (rows - 1) * stride + stride = rows * stride :=
    span_of_unpadded (Nat.zero_lt_of_lt hrow)
  rw [Nat.mul_comm stride rows]
  omega

/-- Each sample of an accepted view lies in the plane of the view that stores it. -/
theorem holds_of_sources {view : StreamView} {sources : PlaneSources}
    (hstride : view.width.toNat ≤ view.stride.toNat)
    (h : planeSources view (I420Plane.y.span view) (I420Plane.u.span view) = .ok sources)
    {plane : I420Plane} {row column : ℕ} (hrow : row < plane.rows view)
    (hcolumn : column < plane.columns view) :
    ∃ source, plane.source view = some source ∧ source.Holds (plane.address view row column) := by
  rcases planeSources_eq_ok h with
    ⟨whole, yBlock, chromaBlock, hplanes, hy, hchroma, hcontains, -⟩ |
    ⟨first, second, third, hplanes, hfirst, hsecond, hthird, -⟩
  · refine ⟨whole, by rw [I420Plane.source, hplanes], ?_⟩
    have hle : plane.columns view ≤ plane.stride view := by
      cases plane
      all_goals simp only [I420Plane.columns, I420Plane.stride]
      all_goals omega
    have hlt := sample_lt_block hle hrow hcolumn
    have hoffset : plane.blockStart view + (row * plane.stride view + column) <
        yBlock + 2 * chromaBlock := by
      rw [toNat_half, toNat_half] at hchroma
      cases plane
      all_goals simp only [I420Plane.blockStart, I420Plane.stride, I420Plane.rows] at hlt ⊢
      all_goals omega
    rw [I420Plane.address, I420Plane.start, hplanes, Nat.add_assoc, Nat.add_assoc]
    exact holds_of_containsBytes hcontains hoffset
  · have hlt : row * plane.stride view + column <
        (plane.rows view - 1) * plane.stride view + plane.columns view := row_lt_span hrow hcolumn
    rw [I420Plane.address, I420Plane.start, I420Plane.source, hplanes, Nat.add_assoc]
    cases plane
    · exact ⟨first, rfl, holds_of_containsBytes hfirst hlt⟩
    · exact ⟨second, rfl, holds_of_containsBytes hsecond hlt⟩
    · exact ⟨third, rfl, holds_of_containsBytes hthird hlt⟩

/-! ### What the destination holds -/

theorem strided_eq_map (memory : ℕ → UInt8) (source rows width stride : ℕ) :
    strided memory source rows width stride = (strided id source rows width stride).map memory := by
  simp [strided, bytesAt, List.map_flatMap, Function.comp_def]

theorem I420Plane.addresses_eq {view : StreamView} {plane : I420Plane} {start : ℕ}
    (h : start = plane.start view) :
    strided id start (plane.rows view) (plane.columns view) (plane.stride view) =
      plane.addresses view := by
  subst h
  rfl

theorem planarBytes_eq_map {view : StreamView} {sources : PlaneSources} (memory : ℕ → UInt8)
    (h : ∀ plane : I420Plane, sources.pointer plane = plane.start view) :
    planarBytes memory view sources = (sampleAddresses view).map memory := by
  rw [sampleAddresses, ← I420Plane.addresses_eq (h .y), ← I420Plane.addresses_eq (h .u),
    ← I420Plane.addresses_eq (h .v), List.map_append, List.map_append, ← strided_eq_map,
    ← strided_eq_map, ← strided_eq_map]
  rfl

theorem I420Plane.mem_addresses {view : StreamView} {plane : I420Plane} {address : ℕ}
    (h : address ∈ plane.addresses view) :
    ∃ row column, row < plane.rows view ∧ column < plane.columns view ∧
      address = plane.address view row column := by
  obtain ⟨row, hrow, hmem⟩ := List.mem_flatMap.mp h
  obtain ⟨column, hcolumn, rfl⟩ := List.mem_map.mp hmem
  exact ⟨row, column, List.mem_range.mp hrow, List.mem_range.mp hcolumn, rfl⟩

theorem mem_sampleAddresses {view : StreamView} {address : ℕ} (h : address ∈ sampleAddresses view) :
    ∃ (plane : I420Plane) (row column : ℕ), row < plane.rows view ∧ column < plane.columns view ∧
      address = plane.address view row column := by
  rw [sampleAddresses, List.mem_append, List.mem_append] at h
  rcases h with (h | h) | h
  · exact ⟨.y, I420Plane.mem_addresses h⟩
  · exact ⟨.u, I420Plane.mem_addresses h⟩
  · exact ⟨.v, I420Plane.mem_addresses h⟩

theorem sampleAddresses_length {view : StreamView} {sizes : I420Sizes} (h : Sized view sizes) :
    (sampleAddresses view).length = view.width.toNat * view.height.toNat * 3 / 2 := by
  have hlength (plane : I420Plane) :
      (plane.addresses view).length = plane.rows view * plane.columns view := by
    rw [← I420Plane.addresses_eq rfl, strided_length]
  obtain ⟨w, hw⟩ : ∃ w, view.width.toNat = 2 * w :=
    ⟨view.width.toNat / 2, by have := h.width_even; omega⟩
  obtain ⟨k, hk⟩ : ∃ k, view.height.toNat = 2 * k :=
    ⟨view.height.toNat / 2, by have := h.height_even; omega⟩
  rw [sampleAddresses, List.length_append, List.length_append, hlength, hlength, hlength]
  simp only [I420Plane.rows, I420Plane.columns, hw, hk, Nat.mul_div_cancel_left _ Nat.two_pos]
  have harea : 2 * w * (2 * k) * 3 = 2 * (6 * (k * w)) := by ring
  rw [harea, Nat.mul_div_cancel_left _ Nat.two_pos]
  ring

/-! ### The call -/

theorem planeSources_error {view : StreamView} {ySpan chromaSpan : ℕ} {error : String}
    (h : planeSources view ySpan chromaSpan = .error error) : error ≠ "" := by
  unfold planeSources at h
  split at h
  · split at h
    · split_ifs at h
      all_goals cases h
      all_goals decide
    · cases h
      decide
  · split_ifs at h
    cases h
    decide
  · cases h
    decide

/-- Every refusal says why. -/
theorem copyMappedI420_error {memory : ℕ → UInt8} {view : StreamView} {error : String}
    (h : copyMappedI420 memory view = .error error) : error ≠ "" := by
  unfold copyMappedI420 at h
  split at h
  · cases h
    decide
  split_ifs at h
  · cases h
    decide
  split at h
  · split at h
    · rename_i hsources
      cases h
      exact planeSources_error hsources
    · cases h
  · cases h
    decide

/-- What the copy reads of a view that it accepts. -/
theorem copyReads_eq {view : StreamView} {sizes : I420Sizes} {sources : PlaneSources}
    (hsized : Sized view sizes) (hstride : view.width.toNat ≤ view.stride.toNat)
    (h : planeSources view (I420Plane.y.span view) (I420Plane.u.span view) = .ok sources) :
    copyReads view = sampleAddresses view := by
  have hheight := hsized.height_pos
  have hheight2 := hsized.height_even
  have hwidth := hsized.width_pos
  have hwidth2 := hsized.width_even
  rw [copyReads, requiredRowSpan_eq_some.mpr ⟨hheight, hwidth, hstride, rfl⟩,
    requiredRowSpan_eq_some.mpr ⟨by rw [toNat_half]; omega, by rw [toNat_half]; omega,
      by rw [toNat_half, toNat_half]; omega, rfl⟩]
  simp only [toNat_half]
  rw [show planeSources view ((view.height.toNat - 1) * view.stride.toNat + view.width.toNat)
    ((view.height.toNat / 2 - 1) * (view.stride.toNat / 2) + view.width.toNat / 2) = .ok sources
    from h]
  rw [sampleAddresses, ← I420Plane.addresses_eq (planeSources_start h .y),
    ← I420Plane.addresses_eq (planeSources_start h .u),
    ← I420Plane.addresses_eq (planeSources_start h .v)]
  rfl

/-- An accepted copy has the samples of the view, and has read nothing else. -/
theorem copyCall_accepted {memory : ℕ → UInt8} {view : StreamView}
    (h : (copyCall memory view).copied = true) :
    (copyCall memory view).destination.length = view.width.toNat * view.height.toNat * 3 / 2 ∧
      (copyCall memory view).reads = sampleAddresses view ∧
      (copyCall memory view).destination = (sampleAddresses view).map memory ∧
      ∀ address ∈ (copyCall memory view).reads, ∃ (plane : I420Plane) (row column : ℕ),
        row < plane.rows view ∧ column < plane.columns view ∧
        address = plane.address view row column ∧
        ∃ source, plane.source view = some source ∧ source.Holds address := by
  rcases hcopy : copyMappedI420 memory view with error | destination
  · rw [copyCall, hcopy] at h
    cases h
  · have hcall : copyCall memory view =
        { copied := true, destination, error := "", reads := copyReads view } := by
      rw [copyCall, hcopy]
    obtain ⟨sizes, sources, hsizes, hstride, -, hsources, rfl⟩ := copyMappedI420_eq_ok.mp hcopy
    have hsized := sized_of_calculateSizes hsizes
    have hreads : copyReads view = sampleAddresses view := copyReads_eq hsized hstride hsources
    rw [hcall]
    simp only [hreads, planarBytes_eq_map memory (planeSources_start hsources), List.length_map]
    refine ⟨sampleAddresses_length hsized, trivial, trivial, fun address hmem => ?_⟩
    obtain ⟨plane, row, column, hrow, hcolumn, rfl⟩ := mem_sampleAddresses hmem
    exact ⟨plane, row, column, hrow, hcolumn, rfl,
      holds_of_sources hstride hsources hrow hcolumn⟩

/-- A refused copy has an error and nothing else. -/
theorem copyCall_refused {memory : ℕ → UInt8} {view : StreamView}
    (h : (copyCall memory view).copied = false) :
    (copyCall memory view).destination = [] ∧ (copyCall memory view).error ≠ "" ∧
      (copyCall memory view).reads = [] := by
  rcases hcopy : copyMappedI420 memory view with error | destination
  · rw [copyCall, hcopy]
    exact ⟨rfl, copyMappedI420_error hcopy, rfl⟩
  · rw [copyCall, hcopy] at h
    cases h

/-- **The copy is exact and bounded.** It returns the Y, U and V samples of the view in order, read
from nothing but the payloads of the planes; or it returns nothing and an error. -/
theorem copyMappedI420_exact (memory : ℕ → UInt8) (view : StreamView) :
    ((copyCall memory view).copied = true →
      (copyCall memory view).destination.length =
        view.width.toNat * view.height.toNat * 3 / 2 ∧
      (copyCall memory view).reads = sampleAddresses view ∧
      (copyCall memory view).destination = (sampleAddresses view).map memory ∧
      ∀ address ∈ (copyCall memory view).reads, ∃ (plane : I420Plane) (row column : ℕ),
        row < plane.rows view ∧ column < plane.columns view ∧
        address = plane.address view row column ∧
        ∃ source, plane.source view = some source ∧ source.Holds address) ∧
    ((copyCall memory view).copied = false →
      (copyCall memory view).destination = [] ∧ (copyCall memory view).error ≠ "" ∧
      (copyCall memory view).reads = []) :=
  ⟨copyCall_accepted, copyCall_refused⟩

end EggVision
