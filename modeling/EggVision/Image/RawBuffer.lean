import EggVision.Image.I420
import EggVision.Rtsp.Feeder

/-!
# The buffers of the encoder

`makeRawBuffer` hands a frame to the encoder without copying it: the buffer consists of ranges of
the DMA-BUF files, and its video meta tells where in them the three planes lie. It is compared here
with `copyMappedI420`, which reads the same view through the mappings of the files. A file is
identified by its descriptor, and `dup` of a descriptor is the same file.

## Main definitions

* `makeView` — the view of a libcamera buffer
* `makeRawBuffer`, `RawBuffer.pixel` — the buffer, and the byte of a file behind a pixel
* `SamePixels` — the encoder reads the bytes that the copy reads
* `Aligned` — the views for which it does

## Main results

* `copied_of_ok` — what is known of a view that the copy accepts
* `makeRawBuffer_eq_some` — the memories and the video meta of a buffer
* `samePixel_iff`, `samePixel_of_within` — when a pixel is the same
* `makeRawBuffer_samePixels_iff` — which views are encoded as they are copied
-/

namespace EggVision

open Planar

/-! ### Views of the camera's buffers -/

/-- `CameraCapture::Mapping`: the bytes of the file from `0` on are mapped at `base`. -/
structure Mapping where
  fd : ℤ
  base : ℕ
  mappedLength : ℕ
  deriving DecidableEq, Repr

/-- `libcamera::FrameBuffer::Plane`. -/
structure FramePlane where
  fd : ℤ
  offset : UInt32
  length : UInt32
  deriving DecidableEq, Repr

/-- A `libcamera::FrameBuffer`, with the `bytesused` of its metadata planes. -/
structure FrameBuffer where
  address : ℕ
  planes : List FramePlane
  metadata : List UInt32
  deriving DecidableEq, Repr

/-- The mappings of each buffer. -/
abbrev MappingTable := ℕ → Option (List Mapping)

/-- The body of the loop of `makeView`, for one plane. -/
def makePlaneView (mappings : Option (List Mapping)) (plane : FramePlane) (bytesUsed : UInt32) :
    PlaneView :=
  let unmapped : PlaneView :=
    { fd := plane.fd, offset := plane.offset, length := plane.length, bytesUsed }
  match mappings with
  | none => unmapped
  | some candidates =>
    match candidates.find? fun candidate => candidate.fd = plane.fd with
    | none => unmapped
    | some mapping =>
      if plane.length.toNat ≤ sizeMax - plane.offset.toNat ∧
          plane.offset.toNat + plane.length.toNat ≤ mapping.mappedLength then
        { unmapped with
          data := mapping.base + plane.offset.toNat
          mappingBase := mapping.base
          mappedLength := mapping.mappedLength }
      else unmapped

/-- `makeView`. -/
def makeView (buffer : FrameBuffer) (layout : StreamView) (mappings : MappingTable) : StreamView :=
  { layout with
    planes := buffer.planes.mapIdx fun i plane =>
      makePlaneView (mappings buffer.address) plane (buffer.metadata.getD i plane.length) }

/-! ### Buffers for the encoder -/

inductive I420Plane
  | y
  | u
  | v
  deriving DecidableEq, Repr

/-- What `gst_buffer_add_video_meta_full` is given. -/
structure VideoMeta where
  width : UInt32
  height : UInt32
  offsets : I420Plane → ℕ
  strides : I420Plane → ℤ

/-- The fields of `GstBuffer` that `makeRawBuffer` sets. -/
structure RawBuffer where
  memories : List (Segment ℤ)
  videoMeta : VideoMeta
  pts : ℕ
  dts : ℕ
  duration : ℕ
  offset : ℕ
  offsetEnd : ℕ
  live : Bool

/-- The outcomes of the calls of `makeRawBuffer` that may fail; `duplicated` and `allocated` are
those of `dup` and `gst_dmabuf_allocator_alloc` for each memory. -/
structure RawOutcomes where
  buffer : Bool
  allocator : Bool
  duplicated : ℕ → Bool
  allocated : ℕ → Bool

/-- `gst_dmabuf_allocator_alloc` on a duplicated descriptor: the first `size` bytes of the file. -/
def dmabufMemory (outcomes : RawOutcomes) (n : ℕ) (fd : ℤ) (size : ℕ) : Option (Segment ℤ) :=
  if outcomes.duplicated n && outcomes.allocated n then some { store := fd, first := 0, size }
  else none

/-- `gst_memory_resize`. -/
def resizeMemory (memory : Segment ℤ) (offset size : ℕ) : Segment ℤ :=
  { memory with first := memory.first + offset, size }

/-- The memories of planes in files of their own. -/
def separateMemories (outcomes : RawOutcomes) : ℕ → List PlaneView → Option (List (Segment ℤ))
  | _, [] => some []
  | n, plane :: rest =>
    match dmabufMemory outcomes n plane.fd (plane.offset.toNat + plane.length.toNat) with
    | none => none
    | some memory =>
      let memory := if plane.offset ≠ 0 then
          resizeMemory memory plane.offset.toNat plane.length.toNat
        else memory
      match separateMemories outcomes (n + 1) rest with
      | none => none
      | some memories => some (memory :: memories)

def sharedFd (planes : List PlaneView) : Bool :=
  planes.all fun plane => plane.fd = (planes.headD {}).fd

/-- The size of the one memory of planes in one file. -/
def sharedSize (view : StreamView) : ℕ :=
  view.planes.foldl (fun size plane => max size (plane.offset.toNat + plane.length.toNat))
    view.frameSize.toNat

def rawMemories (outcomes : RawOutcomes) (view : StreamView) : Option (List (Segment ℤ)) :=
  if sharedFd view.planes then
    (dmabufMemory outcomes 0 (view.planes.headD {}).fd (sharedSize view)).map fun memory => [memory]
  else if view.planes.length = 3 then separateMemories outcomes 0 view.planes
  else none

/-- Where the planes begin when the view has no usable plane offsets. -/
def blockOffset (view : StreamView) : I420Plane → ℕ
  | .y => 0
  | .u => view.stride.toNat * view.height.toNat
  | .v => (view.stride.toNat * view.height.toNat +
      (view.stride / 2).toNat * (view.height / 2).toNat) % 2 ^ 64

def makeVideoMeta (view : StreamView) : VideoMeta where
  width := view.width
  height := view.height
  strides
    | .y => intOf view.stride
    | .u => intOf (view.stride / 2)
    | .v => intOf (view.stride / 2)
  offsets :=
    match sharedFd view.planes, view.planes with
    | true, [y, u, v] => fun
      | .y => y.offset.toNat
      | .u => u.offset.toNat
      | .v => v.offset.toNat
    | _, _ => blockOffset view

/-- `makeRawBuffer`. -/
def makeRawBuffer (fps : ℕ) (outcomes : RawOutcomes) (view : StreamView)
    (sensorTimestampNs baseSensorTimestampNs frameIndex : ℕ) : Option RawBuffer :=
  if view.planes = [] ∨ ¬ outcomes.buffer ∨ ¬ outcomes.allocator then none
  else
    match rawMemories outcomes view with
    | none => none
    | some memories =>
      let pts := if sensorTimestampNs ≥ baseSensorTimestampNs then
          sensorTimestampNs - baseSensorTimestampNs
        else presentationTime fps frameIndex
      some {
        memories
        videoMeta := makeVideoMeta view
        pts
        dts := pts
        duration := gstSecond / fps
        offset := frameIndex
        offsetEnd := frameIndex + 1
        live := true }

/-! ### Pixels -/

namespace I420Plane

def rows (view : StreamView) : I420Plane → ℕ
  | .y => view.height.toNat
  | .u => view.height.toNat / 2
  | .v => view.height.toNat / 2

def columns (view : StreamView) : I420Plane → ℕ
  | .y => view.width.toNat
  | .u => view.width.toNat / 2
  | .v => view.width.toNat / 2

def stride (view : StreamView) : I420Plane → ℕ
  | .y => view.stride.toNat
  | .u => view.stride.toNat / 2
  | .v => view.stride.toNat / 2

/-- The index of a pixel in the destination of the copy. -/
def index (view : StreamView) (plane : I420Plane) (row column : ℕ) : ℕ :=
  match plane with
  | .y => row * y.columns view + column
  | .u => y.rows view * y.columns view + (row * u.columns view + column)
  | .v => y.rows view * y.columns view + u.rows view * u.columns view +
      (row * v.columns view + column)

/-- The plane of the view that the copy reads. -/
def source (view : StreamView) (plane : I420Plane) : Option PlaneView :=
  match view.planes with
  | [whole] => some whole
  | [first, second, third] =>
    match plane with
    | .y => some first
    | .u => some second
    | .v => some third
  | _ => none

/-- The row span of a plane. -/
def span (view : StreamView) (plane : I420Plane) : ℕ :=
  (plane.rows view - 1) * plane.stride view + plane.columns view

end I420Plane

/-- The byte of a file that the video meta addresses for a pixel. -/
def RawBuffer.pixel (raw : RawBuffer) (plane : I420Plane) (row column : ℕ) : Option (ℤ × ℕ) :=
  let position : ℤ := raw.videoMeta.offsets plane + row * raw.videoMeta.strides plane + column
  if position < 0 then none else locate raw.memories position.toNat

/-- In every memory, the copy puts the byte at `address` at `index`. -/
def Copies (view : StreamView) (index address : ℕ) : Prop :=
  ∀ memory, ∃ destination, copyMappedI420 memory view = .ok destination ∧
    destination[index]? = some (memory address)

/-- The byte that the copy reads for a pixel is byte `position` of the file that is mapped there,
and the encoder reads the same byte. -/
def SamePixel (view : StreamView) (raw : RawBuffer) (plane : I420Plane) (row column : ℕ) : Prop :=
  ∃ source position, plane.source view = some source ∧
    Copies view (plane.index view row column) (source.mappingBase + position) ∧
    raw.pixel plane row column = some (source.fd, position)

/-- The encoder and the copy see the same pixels. -/
def SamePixels (view : StreamView) (raw : RawBuffer) : Prop :=
  ∀ (plane : I420Plane) (row column : ℕ), row < plane.rows view → column < plane.columns view →
    SamePixel view raw plane row column

/-- The bytes of a plane in its file. -/
def PlaneView.segment (plane : PlaneView) : Segment ℤ where
  store := plane.fd
  first := plane.offset.toNat
  size := plane.length.toNat

/-- The views that the encoder sees as the copy does. A single plane must begin its file. Three
planes in one file may lie anywhere; three planes of several files must follow each other, the
chroma planes where a stride without further padding puts them. -/
def Aligned (view : StreamView) : Prop :=
  match view.planes with
  | [whole] => whole.offset.toNat = 0
  | [first, second, third] =>
    view.stride.toNat < 2 ^ 31 ∧
      ((second.fd = first.fd ∧ third.fd = first.fd) ∨
        (Within second.fd second.offset.toNat (I420Plane.u.span view)
            (view.planes.map PlaneView.segment) (view.stride.toNat * view.height.toNat) ∧
          Within third.fd third.offset.toNat (I420Plane.v.span view)
            (view.planes.map PlaneView.segment)
            (view.stride.toNat * view.height.toNat +
              view.stride.toNat / 2 * (view.height.toNat / 2))))
  | _ => False

instance (view : StreamView) : Decidable (Aligned view) :=
  match view with
  | ⟨_, _, _, _, []⟩ => isFalse id
  | ⟨_, _, _, _, [_]⟩ => inferInstanceAs (Decidable (_ = _))
  | ⟨_, _, _, _, [_, _]⟩ => isFalse id
  | ⟨_, _, _, _, [_, _, _]⟩ => inferInstanceAs (Decidable (_ ∧ _))
  | ⟨_, _, _, _, _ :: _ :: _ :: _ :: _⟩ => isFalse id

/-! ### What the copy reads -/

/-- The pointer of the copy for each plane. -/
def PlaneSources.pointer (sources : PlaneSources) : I420Plane → ℕ
  | .y => sources.y
  | .u => sources.u
  | .v => sources.v

theorem I420Plane.index_getElem? (memory : ℕ → UInt8) {view : StreamView} (sources : PlaneSources)
    {plane : I420Plane} {row column : ℕ} (hrow : row < plane.rows view)
    (hcolumn : column < plane.columns view) :
    (planarBytes memory view sources)[plane.index view row column]? =
      some (memory (sources.pointer plane + row * plane.stride view + column)) := by
  have hbyte : (strided memory (sources.pointer plane) (plane.rows view) (plane.columns view)
      (plane.stride view))[row * plane.columns view + column]? =
        some (memory (sources.pointer plane + row * plane.stride view + column)) :=
    strided_getElem? hrow hcolumn
  have hlt : row * plane.columns view + column < plane.rows view * plane.columns view := by
    rw [← span_of_unpadded (Nat.zero_lt_of_lt hrow)]
    exact row_lt_span hrow hcolumn
  have hrest (first second : List UInt8) (i : ℕ) :
      (first ++ second)[first.length + i]? = second[i]? := by
    rw [List.getElem?_append_right (Nat.le_add_right _ _), Nat.add_sub_cancel_left]
  rw [planarBytes, List.append_assoc]
  cases plane with
  | y =>
    rw [List.getElem?_append_left (by rw [strided_length]; exact hlt)]
    exact hbyte
  | u =>
    have hy := hrest (strided memory sources.y view.height.toNat view.width.toNat view.stride.toNat)
    rw [strided_length] at hy
    rw [index, rows, columns, hy, List.getElem?_append_left (by rw [strided_length]; exact hlt)]
    exact hbyte
  | v =>
    have hy := hrest (strided memory sources.y view.height.toNat view.width.toNat view.stride.toNat)
    have hu := hrest (strided memory sources.u (view.height.toNat / 2) (view.width.toNat / 2)
      (view.stride.toNat / 2))
    rw [strided_length] at hy hu
    rw [index, rows, columns, rows, columns, Nat.add_assoc, hy, hu]
    exact hbyte

/-- The copy of a pixel determines the address it was read from. -/
theorem Copies.address_unique {view : StreamView} {index a b : ℕ} (ha : Copies view index a)
    (hb : Copies view index b) : a = b := by
  obtain ⟨destination, hcopy, hbyte⟩ := ha fun address => if address = a then 1 else 0
  obtain ⟨destination', hcopy', hbyte'⟩ := hb fun address => if address = a then 1 else 0
  rw [hcopy] at hcopy'
  cases hcopy'
  rw [hbyte] at hbyte'
  simp only [if_true, Option.some.injEq] at hbyte'
  by_contra hne
  rw [if_neg (Ne.symm hne)] at hbyte'
  cases hbyte'

/-! ### Where the copied planes lie in their files -/

/-- Where in its file a plane begins. -/
def I420Plane.fileOffset (view : StreamView) (plane : I420Plane) : ℕ :=
  match view.planes with
  | [whole] => whole.offset.toNat + blockOffset view plane
  | _ => ((plane.source view).getD {}).offset.toNat

/-- A mapped plane begins at its offset in the mapping. -/
theorem makeView_data {buffer : FrameBuffer} {layout : StreamView} {mappings : MappingTable}
    {plane : PlaneView} (hplane : plane ∈ (makeView buffer layout mappings).planes)
    (hdata : plane.data ≠ 0) : plane.data = plane.mappingBase + plane.offset.toNat := by
  obtain ⟨i, hi, rfl⟩ := List.mem_mapIdx.mp hplane
  revert hdata
  generalize buffer.planes[i] = source
  unfold makePlaneView
  split
  · exact fun h => absurd rfl h
  split
  · exact fun h => absurd rfl h
  split
  · exact fun _ => rfl
  · exact fun h => absurd rfl h

/-- The bytes of the one plane of a view, its rows padded to the stride. -/
def blockSize (view : StreamView) : ℕ :=
  view.stride.toNat * view.height.toNat + 2 * (view.stride.toNat / 2 * (view.height.toNat / 2))

/-- What is known of a view that was copied. -/
structure Copied (view : StreamView) : Prop where
  width_le : view.width.toNat ≤ view.stride.toNat
  height_pos : 2 ≤ view.height.toNat
  height_even : view.height.toNat % 2 = 0
  width_pos : 2 ≤ view.width.toNat
  stride_even : view.stride.toNat % 2 = 0
  /-- The rows fit into the planes. -/
  fits : (∃ whole, view.planes = [whole] ∧ blockSize view ≤ whole.length.toNat) ∨
    ∃ first second third, view.planes = [first, second, third] ∧
      I420Plane.y.span view ≤ first.length.toNat ∧ I420Plane.u.span view ≤ second.length.toNat ∧
      I420Plane.v.span view ≤ third.length.toNat
  /-- Each plane is read from its file, from its offset on. -/
  copies : ∀ plane : I420Plane, ∃ source, plane.source view = some source ∧
    ∀ row column, row < plane.rows view → column < plane.columns view →
      Copies view (plane.index view row column)
        (source.mappingBase + (plane.fileOffset view + (row * plane.stride view + column)))

theorem Copied.rows_pos {view : StreamView} (h : Copied view) (plane : I420Plane) :
    0 < plane.rows view := by
  have hheight := h.height_pos
  cases plane
  all_goals simp only [I420Plane.rows]
  all_goals omega

theorem Copied.columns_pos {view : StreamView} (h : Copied view) (plane : I420Plane) :
    0 < plane.columns view := by
  have hwidth := h.width_pos
  cases plane
  all_goals simp only [I420Plane.columns]
  all_goals omega

theorem Copied.columns_le {view : StreamView} (h : Copied view) (plane : I420Plane) :
    plane.columns view ≤ plane.stride view := by
  have hwidth := h.width_le
  cases plane
  all_goals simp only [I420Plane.columns, I420Plane.stride]
  all_goals omega

theorem Copied.span_le {view : StreamView} (h : Copied view) (plane : I420Plane) :
    plane.span view ≤ plane.rows view * plane.stride view := by
  rw [← span_of_unpadded (h.rows_pos plane), I420Plane.span]
  exact Nat.add_le_add_left (h.columns_le plane) _

theorem blockOffset_eq {view : StreamView} (h : blockSize view < 2 ^ 64) (plane : I420Plane) :
    blockOffset view plane = match plane with
      | .y => 0
      | .u => view.stride.toNat * view.height.toNat
      | .v => view.stride.toNat * view.height.toNat +
          view.stride.toNat / 2 * (view.height.toNat / 2) := by
  unfold blockSize at h
  cases plane with
  | y => rfl
  | u => rfl
  | v =>
    rw [blockOffset, toNat_half, toNat_half]
    exact Nat.mod_eq_of_lt (by omega)

theorem copied_of_ok {view : StreamView} {memory : ℕ → UInt8} {destination : List UInt8}
    (hmapped : ∀ plane ∈ view.planes, plane.data ≠ 0 →
      plane.data = plane.mappingBase + plane.offset.toNat)
    (h : copyMappedI420 memory view = .ok destination) : Copied view := by
  obtain ⟨sizes, sources, hsizes, hstride, hstride2, hsources, -⟩ := copyMappedI420_eq_ok.mp h
  have hsized := sized_of_calculateSizes hsizes
  have hheight := hsized.height_pos
  have hheight2 := hsized.height_even
  have hwidth := hsized.width_pos
  have hwidth2 := hsized.width_even
  have hcopies (plane : I420Plane) (row column : ℕ) (hrow : row < plane.rows view)
      (hcolumn : column < plane.columns view) :
      Copies view (plane.index view row column)
        (sources.pointer plane + row * plane.stride view + column) := fun memory' =>
    ⟨_, copyMappedI420_eq_ok.mpr ⟨sizes, sources, hsizes, hstride, hstride2, hsources, rfl⟩,
      I420Plane.index_getElem? memory' sources hrow hcolumn⟩
  rcases planeSources_eq_ok hsources with
    ⟨whole, yBlock, chromaBlock, hplanes, hy, hchroma, hcontains, hpointers⟩ |
    ⟨first, second, third, hplanes, hfirst, hsecond, hthird, hpointers⟩
  · obtain ⟨hdata, hlength⟩ := containsBytes_length hcontains
    have hwhole := hmapped whole (by rw [hplanes]; exact List.mem_singleton_self whole) hdata
    have hfits : blockSize view ≤ whole.length.toNat := by
      rw [blockSize, ← hy, ← toNat_half, ← toNat_half, ← hchroma]
      exact hlength
    refine ⟨hstride, by omega, hheight2, by omega, hstride2, .inl ⟨whole, hplanes, hfits⟩, ?_⟩
    intro plane
    refine ⟨whole, by rw [I420Plane.source, hplanes], ?_⟩
    intro row column hrow hcolumn
    have hpointer : sources.pointer plane = whole.mappingBase + plane.fileOffset view := by
      rw [I420Plane.fileOffset, hplanes, hpointers]
      simp only [toNat_half] at hchroma
      have hlength := UInt32.toNat_lt whole.length
      have hsize : blockSize view < 2 ^ 64 := by omega
      have hoffset := blockOffset_eq hsize plane
      cases plane
      all_goals simp only [PlaneSources.pointer] at hoffset ⊢
      all_goals omega
    have hcopy := hcopies plane row column hrow hcolumn
    rwa [hpointer, Nat.add_assoc, Nat.add_assoc] at hcopy
  · obtain ⟨hfirst0, hfirst⟩ := containsBytes_length hfirst
    obtain ⟨hsecond0, hsecond⟩ := containsBytes_length hsecond
    obtain ⟨hthird0, hthird⟩ := containsBytes_length hthird
    refine ⟨hstride, by omega, hheight2, by omega, hstride2,
      .inr ⟨first, second, third, hplanes, hfirst, hsecond, hthird⟩, ?_⟩
    have hsource (plane : I420Plane) : ∃ source, plane.source view = some source ∧
        source ∈ view.planes ∧ source.data ≠ 0 ∧ sources.pointer plane = source.data := by
      rw [I420Plane.source, hplanes, hpointers]
      cases plane with
      | y => exact ⟨first, rfl, by simp, hfirst0, rfl⟩
      | u => exact ⟨second, rfl, by simp, hsecond0, rfl⟩
      | v => exact ⟨third, rfl, by simp, hthird0, rfl⟩
    intro plane
    obtain ⟨source, hsome, hmem, hdata, hpointer⟩ := hsource plane
    refine ⟨source, hsome, ?_⟩
    intro row column hrow hcolumn
    have hoffset : plane.fileOffset view = source.offset.toNat := by
      rw [I420Plane.fileOffset, hplanes]
      simp only [hsome, Option.getD_some]
    have hcopy := hcopies plane row column hrow hcolumn
    rwa [hpointer, hmapped source hmem hdata, ← hoffset, Nat.add_assoc, Nat.add_assoc] at hcopy

/-- The pixel is the same when the encoder reads the byte of the file that the copy read. -/
theorem samePixel_iff {view : StreamView} (h : Copied view) {raw : RawBuffer} {plane : I420Plane}
    {source : PlaneView} (hsource : plane.source view = some source) {row column : ℕ}
    (hrow : row < plane.rows view) (hcolumn : column < plane.columns view) :
    SamePixel view raw plane row column ↔
      raw.pixel plane row column =
        some (source.fd, plane.fileOffset view + (row * plane.stride view + column)) := by
  obtain ⟨source', hsource', hcopies⟩ := h.copies plane
  rw [hsource] at hsource'
  cases hsource'
  have hcopy := hcopies row column hrow hcolumn
  constructor
  · rintro ⟨source', position, hsource', hcopy', hpixel⟩
    rw [hsource] at hsource'
    cases hsource'
    have hposition := hcopy.address_unique hcopy'
    rw [hpixel]
    congr 2
    omega
  · intro hpixel
    exact ⟨source, _, hsource, hcopy, hpixel⟩

/-! ### What the encoder reads -/

theorem RawBuffer.pixel_eq {raw : RawBuffer} {view : StreamView} {plane : I420Plane}
    (hstride : raw.videoMeta.strides plane = plane.stride view) (row column : ℕ) :
    raw.pixel plane row column =
      locate raw.memories (raw.videoMeta.offsets plane + (row * plane.stride view + column)) := by
  have hposition : (raw.videoMeta.offsets plane + row * raw.videoMeta.strides plane + column : ℤ) =
      (raw.videoMeta.offsets plane + (row * plane.stride view + column) : ℕ) := by
    rw [hstride]
    push_cast
    ring
  rw [RawBuffer.pixel, hposition]
  simp only [if_neg (Int.not_lt.mpr (Int.natCast_nonneg _)), Int.toNat_natCast]

/-- A plane is the same where one memory holds its whole span. -/
theorem samePixel_of_within {view : StreamView} (h : Copied view) {raw : RawBuffer}
    {plane : I420Plane} {source : PlaneView} (hsource : plane.source view = some source)
    (hstride : raw.videoMeta.strides plane = plane.stride view)
    (hwithin : Within source.fd (plane.fileOffset view) (plane.span view) raw.memories
      (raw.videoMeta.offsets plane))
    {row column : ℕ} (hrow : row < plane.rows view) (hcolumn : column < plane.columns view) :
    SamePixel view raw plane row column := by
  rw [samePixel_iff h hsource hrow hcolumn, RawBuffer.pixel_eq hstride]
  exact locate_of_within (row_lt_span hrow hcolumn) hwithin

/-- The first and the last pixel of a plane that is the same. -/
theorem locate_ends {view : StreamView} (h : Copied view) {raw : RawBuffer}
    (hsame : SamePixels view raw) {plane : I420Plane} {source : PlaneView}
    (hsource : plane.source view = some source)
    (hstride : raw.videoMeta.strides plane = plane.stride view) :
    locate raw.memories (raw.videoMeta.offsets plane) =
        some (source.fd, plane.fileOffset view) ∧
      locate raw.memories (raw.videoMeta.offsets plane + (plane.span view - 1)) =
        some (source.fd, plane.fileOffset view + (plane.span view - 1)) := by
  have hrows := h.rows_pos plane
  have hcolumns := h.columns_pos plane
  have hpixel {row column : ℕ} (hrow : row < plane.rows view)
      (hcolumn : column < plane.columns view) :=
    (RawBuffer.pixel_eq hstride row column).symm.trans
      ((samePixel_iff h hsource hrow hcolumn).mp (hsame plane row column hrow hcolumn))
  have hlast : (plane.rows view - 1) * plane.stride view + (plane.columns view - 1) =
      plane.span view - 1 := by
    rw [I420Plane.span]
    omega
  refine ⟨?_, ?_⟩
  · simpa using hpixel hrows hcolumns
  · rw [← hlast]
    exact hpixel (Nat.sub_lt hrows Nat.one_pos) (Nat.sub_lt hcolumns Nat.one_pos)

/-- A stride with the sign bit of `int` sends the second row to a place before the first. -/
theorem RawBuffer.locate_of_second_row {raw : RawBuffer} {view : StreamView}
    (hstrides : raw.videoMeta.strides .y = intOf view.stride)
    (hstride : ¬view.stride.toNat < 2 ^ 31) {fd : ℤ} {offset : ℕ}
    (hpixel : raw.pixel .y 1 0 = some (fd, offset)) :
    ∃ position, position + 2 ^ 32 = raw.videoMeta.offsets .y + view.stride.toNat ∧
      locate raw.memories position = some (fd, offset) := by
  rw [RawBuffer.pixel, hstrides, intOf_eq, if_neg hstride] at hpixel
  split at hpixel
  · cases hpixel
  · refine ⟨_, ?_, hpixel⟩
    omega

/-! ### The memories and the video meta -/

theorem le_foldl_max (planes : List PlaneView) (size : ℕ) :
    size ≤ planes.foldl
        (fun size plane => max size (plane.offset.toNat + plane.length.toNat)) size ∧
      ∀ plane ∈ planes, plane.offset.toNat + plane.length.toNat ≤ planes.foldl
        (fun size plane => max size (plane.offset.toNat + plane.length.toNat)) size := by
  induction planes generalizing size with
  | nil => simp
  | cons plane rest ih =>
    have hrest := ih (max size (plane.offset.toNat + plane.length.toNat))
    simp only [List.foldl_cons, List.forall_mem_cons]
    exact ⟨le_trans (le_max_left _ _) hrest.1, le_trans (le_max_right _ _) hrest.1, hrest.2⟩

/-- Each memory of planes in several files is the bytes of one plane. -/
theorem separateMemories_eq {outcomes : RawOutcomes} :
    ∀ {planes : List PlaneView} {n : ℕ} {memories : List (Segment ℤ)},
      separateMemories outcomes n planes = some memories →
        memories = planes.map PlaneView.segment := by
  intro planes
  induction planes with
  | nil =>
    intro n memories h
    cases h
    rfl
  | cons plane rest ih =>
    intro n memories h
    rw [separateMemories] at h
    split at h
    · cases h
    rename_i memory hmemory
    simp only at h
    split at h
    · cases h
    rename_i memories' hrest
    cases h
    rw [List.map_cons, ih hrest]
    congr 1
    unfold dmabufMemory at hmemory
    split at hmemory
    · cases hmemory
      split
      · simp [resizeMemory, PlaneView.segment]
      · rename_i hoffset
        simp only [ne_eq, not_not, toNat_eq_zero] at hoffset
        simp [PlaneView.segment, hoffset]
    · cases hmemory

/-- What the buffer of a view consists of. -/
theorem makeRawBuffer_eq_some {fps : ℕ} {outcomes : RawOutcomes} {view : StreamView}
    {sensorTimestampNs baseSensorTimestampNs frameIndex : ℕ} {raw : RawBuffer}
    (h : makeRawBuffer fps outcomes view sensorTimestampNs baseSensorTimestampNs frameIndex =
      some raw) :
    raw.videoMeta = makeVideoMeta view ∧
      ((sharedFd view.planes = true ∧
          raw.memories = [{ store := (view.planes.headD {}).fd, first := 0,
                            size := sharedSize view }]) ∨
        (sharedFd view.planes = false ∧ raw.memories = view.planes.map PlaneView.segment)) := by
  unfold makeRawBuffer at h
  split at h
  · cases h
  split at h
  · cases h
  rename_i memories hmemories
  cases h
  refine ⟨rfl, ?_⟩
  unfold rawMemories at hmemories
  split at hmemories
  · rename_i hshared
    refine .inl ⟨hshared, ?_⟩
    unfold dmabufMemory at hmemories
    split at hmemories
    · cases hmemories
      rfl
    · cases hmemories
  · rename_i hseparate
    split at hmemories
    · exact .inr ⟨by simpa using hseparate, separateMemories_eq hmemories⟩
    · cases hmemories

/-- The strides of the meta are those of the rows, unless the stride has the sign bit of `int`. -/
theorem makeVideoMeta_strides {view : StreamView} (hstride : view.stride.toNat < 2 ^ 31)
    (plane : I420Plane) : (makeVideoMeta view).strides plane = plane.stride view := by
  have hhalf (stride : UInt32) : intOf (stride / 2) = (stride.toNat / 2 : ℕ) := by
    have hlt := UInt32.toNat_lt stride
    rw [intOf_eq, toNat_half, if_pos (by omega)]
  cases plane with
  | y => exact (intOf_eq view.stride).trans (if_pos hstride)
  | u => exact hhalf view.stride
  | v => exact hhalf view.stride

/-! ### One plane -/

theorem samePixels_iff_of_one {view : StreamView} {raw : RawBuffer} {whole : PlaneView}
    (h : Copied view) (hplanes : view.planes = [whole])
    (hfits : blockSize view ≤ whole.length.toNat) (hmeta : raw.videoMeta = makeVideoMeta view)
    (hmemories : raw.memories = [{ store := whole.fd, first := 0, size := sharedSize view }]) :
    SamePixels view raw ↔ whole.offset.toNat = 0 := by
  have hlength := UInt32.toNat_lt whole.length
  have hheight := h.height_pos
  have hwidth := h.width_pos
  have hsource (plane : I420Plane) : plane.source view = some whole := by
    rw [I420Plane.source, hplanes]
  have hfile (plane : I420Plane) :
      plane.fileOffset view = whole.offset.toNat + blockOffset view plane := by
    rw [I420Plane.fileOffset, hplanes]
  have hoffsets : raw.videoMeta.offsets = blockOffset view := by
    rw [hmeta, makeVideoMeta, hplanes]
    cases sharedFd [whole] with
    | false => rfl
    | true => rfl
  have hsize : blockSize view < 2 ^ 64 := by omega
  have hmemory : blockSize view ≤ sharedSize view := by
    have hwhole := (le_foldl_max view.planes view.frameSize.toNat).2 whole
      (by rw [hplanes]; exact List.mem_singleton_self whole)
    exact le_trans hfits (le_trans (Nat.le_add_left _ _) hwhole)
  have hstride : view.stride.toNat < 2 ^ 31 := by
    have hrows : view.stride.toNat * 2 ≤ view.stride.toNat * view.height.toNat :=
      Nat.mul_le_mul_left _ hheight
    unfold blockSize at hfits
    omega
  have hstrides (plane : I420Plane) : raw.videoMeta.strides plane = plane.stride view := by
    rw [hmeta]
    exact makeVideoMeta_strides hstride plane
  constructor
  · intro hsame
    have hfirst := (locate_ends h hsame (hsource .y) (hstrides .y)).1
    rw [hmemories, hoffsets, hfile, locate] at hfirst
    split at hfirst
    · simp only [blockOffset, Option.some.injEq, Prod.mk.injEq, true_and] at hfirst
      omega
    · cases hfirst
  · intro hzero plane row column hrow hcolumn
    refine samePixel_of_within h (hsource plane) (hstrides plane) ?_ hrow hcolumn
    rw [hmemories, hoffsets, hfile, hzero]
    refine .inl ⟨rfl, rfl, ?_⟩
    have hspan := h.span_le plane
    have hoffset := blockOffset_eq hsize plane
    have hcommute := Nat.mul_comm view.stride.toNat view.height.toNat
    have hchroma := Nat.mul_comm (view.stride.toNat / 2) (view.height.toNat / 2)
    refine le_trans ?_ hmemory
    unfold blockSize
    cases plane
    all_goals simp only [I420Plane.rows, I420Plane.stride] at hspan hoffset
    all_goals omega

/-! ### Three planes -/

variable {view : StreamView} {raw : RawBuffer} {first second third : PlaneView}

theorem source_of_three (hplanes : view.planes = [first, second, third])
    (hfirst : I420Plane.y.span view ≤ first.length.toNat)
    (hsecond : I420Plane.u.span view ≤ second.length.toNat)
    (hthird : I420Plane.v.span view ≤ third.length.toNat) (plane : I420Plane) :
    ∃ source ∈ view.planes, plane.source view = some source ∧
      plane.fileOffset view = source.offset.toNat ∧ plane.span view ≤ source.length.toNat ∧
      (makeVideoMeta view).offsets plane =
        if sharedFd view.planes then source.offset.toNat else blockOffset view plane := by
  rw [I420Plane.fileOffset, I420Plane.source, makeVideoMeta, hplanes]
  cases sharedFd [first, second, third]
  all_goals
    cases plane with
    | y => exact ⟨first, by simp, rfl, rfl, hfirst, rfl⟩
    | u => exact ⟨second, by simp, rfl, rfl, hsecond, rfl⟩
    | v => exact ⟨third, by simp, rfl, rfl, hthird, rfl⟩

/-- Planes whose rows fit into 32 bits cannot overflow the offsets of the meta. -/
theorem blockSize_lt_of_span (h : Copied view) (hspan : I420Plane.y.span view < 2 ^ 32) :
    blockSize view < 2 ^ 64 := by
  have hheight := h.height_pos
  have hrows : view.stride.toNat * view.height.toNat ≤
      2 * ((view.height.toNat - 1) * view.stride.toNat) := by
    rw [Nat.mul_comm view.stride.toNat, ← Nat.mul_assoc]
    exact Nat.mul_le_mul_right _ (by omega)
  have hchroma : view.stride.toNat / 2 * (view.height.toNat / 2) ≤
      view.stride.toNat * view.height.toNat :=
    Nat.mul_le_mul (Nat.div_le_self _ 2) (Nat.div_le_self _ 2)
  simp only [I420Plane.span, I420Plane.rows, I420Plane.stride] at hspan
  unfold blockSize
  omega

/-- If not all segments are of one store, then a range of the second or third whose ends are found
is found in one segment. -/
theorem within_of_ends {a b c target : Segment ℤ} (htarget : target = b ∨ target = c)
    (hne : ¬(b.store = a.store ∧ c.store = a.store)) {position span : ℕ} (hspan : 0 < span)
    (hfits : span ≤ target.size)
    (hstart : locate [a, b, c] position = some (target.store, target.first))
    (hend : locate [a, b, c] (position + (span - 1)) =
      some (target.store, target.first + (span - 1))) :
    Within target.store target.first span [a, b, c] position := by
  simp only [locate] at hstart hend
  -- The segment the range begins in is the one that holds it.
  split_ifs at hstart with ha hb hc
  · simp only [Option.some.injEq, Prod.mk.injEq] at hstart
    refine .inl ⟨hstart.1, hstart.2, ?_⟩
    split_ifs at hend
    all_goals simp only [Option.some.injEq, Prod.mk.injEq] at hend
    all_goals rcases htarget with rfl | rfl
    all_goals omega
  · simp only [Option.some.injEq, Prod.mk.injEq] at hstart
    refine .inr ⟨Nat.le_of_not_lt ha, .inl ⟨hstart.1, hstart.2, ?_⟩⟩
    split_ifs at hend
    all_goals simp only [Option.some.injEq, Prod.mk.injEq] at hend
    all_goals rcases htarget with rfl | rfl
    all_goals omega
  · simp only [Option.some.injEq, Prod.mk.injEq] at hstart
    refine .inr ⟨Nat.le_of_not_lt ha, .inr ⟨Nat.le_of_not_lt hb,
      .inl ⟨hstart.1, hstart.2, ?_⟩⟩⟩
    split_ifs at hend
    all_goals simp only [Option.some.injEq, Prod.mk.injEq] at hend
    all_goals rcases htarget with rfl | rfl
    all_goals omega

theorem samePixels_iff_of_shared (h : Copied view) (hplanes : view.planes = [first, second, third])
    (hfirst : I420Plane.y.span view ≤ first.length.toNat)
    (hsecond : I420Plane.u.span view ≤ second.length.toNat)
    (hthird : I420Plane.v.span view ≤ third.length.toNat)
    (hmeta : raw.videoMeta = makeVideoMeta view) (hshared : sharedFd view.planes = true)
    (hmemories : raw.memories = [{ store := first.fd, first := 0, size := sharedSize view }]) :
    SamePixels view raw ↔ view.stride.toNat < 2 ^ 31 := by
  have hsources := source_of_three hplanes hfirst hsecond hthird
  simp only [← hmeta, hshared, if_true] at hsources
  constructor
  · intro hsame
    by_contra hstride
    obtain ⟨source, -, hsource, hfile, -, hoffset⟩ := hsources .y
    have hrow : 1 < I420Plane.y.rows view := h.height_pos
    have hcolumn := h.columns_pos .y
    obtain ⟨position, hposition, hlocate⟩ := RawBuffer.locate_of_second_row (by rw [hmeta]; rfl)
      hstride ((samePixel_iff h hsource hrow hcolumn).mp (hsame .y 1 0 hrow hcolumn))
    rw [hmemories, locate] at hlocate
    split at hlocate
    · simp only [Option.some.injEq, Prod.mk.injEq, I420Plane.stride] at hlocate
      omega
    · cases hlocate
  · intro hstride plane row column hrow hcolumn
    obtain ⟨source, hmem, hsource, hfile, hspan, hoffset⟩ := hsources plane
    refine samePixel_of_within h hsource (by rw [hmeta]; exact makeVideoMeta_strides hstride plane)
      ?_ hrow hcolumn
    have hfd : source.fd = first.fd := by
      have hall := List.all_eq_true.mp hshared source hmem
      simpa [hplanes] using hall
    have hsize : source.offset.toNat + source.length.toNat ≤ sharedSize view :=
      (le_foldl_max view.planes view.frameSize.toNat).2 source hmem
    rw [hmemories, hoffset, hfile, hfd]
    exact .inl ⟨rfl, Nat.zero_add _, le_trans (Nat.add_le_add_left hspan _) hsize⟩

theorem samePixels_iff_of_separate (h : Copied view)
    (hplanes : view.planes = [first, second, third])
    (hfirst : I420Plane.y.span view ≤ first.length.toNat)
    (hsecond : I420Plane.u.span view ≤ second.length.toNat)
    (hthird : I420Plane.v.span view ≤ third.length.toNat)
    (hmeta : raw.videoMeta = makeVideoMeta view) (hseparate : sharedFd view.planes = false)
    (hmemories : raw.memories = view.planes.map PlaneView.segment) :
    SamePixels view raw ↔ Aligned view := by
  have hoffsets (plane : I420Plane) : raw.videoMeta.offsets plane = blockOffset view plane := by
    obtain ⟨source, -, -, -, -, hoffset⟩ := source_of_three hplanes hfirst hsecond hthird plane
    rw [hmeta, hoffset, hseparate, if_neg Bool.false_ne_true]
  have hsize := blockSize_lt_of_span h (lt_of_le_of_lt hfirst (UInt32.toNat_lt first.length))
  have hu : raw.videoMeta.offsets .u = view.stride.toNat * view.height.toNat :=
    (hoffsets .u).trans (blockOffset_eq hsize .u)
  have hv : raw.videoMeta.offsets .v = view.stride.toNat * view.height.toNat +
      view.stride.toNat / 2 * (view.height.toNat / 2) :=
    (hoffsets .v).trans (blockOffset_eq hsize .v)
  have hfd : ¬(second.fd = first.fd ∧ third.fd = first.fd) := by
    simpa [hplanes, sharedFd] using hseparate
  have hsource (plane : I420Plane) : plane.source view = some (match plane with
      | .y => first
      | .u => second
      | .v => third) := by
    rw [I420Plane.source, hplanes]
    cases plane
    all_goals rfl
  have hfile (plane : I420Plane) : plane.fileOffset view = (match plane with
      | .y => first
      | .u => second
      | .v => third).offset.toNat := by
    rw [I420Plane.fileOffset, hplanes]
    simp only [hsource, Option.getD_some]
  constructor
  · intro hsame
    have hstride : view.stride.toNat < 2 ^ 31 := by
      by_contra hstride
      have hrow : 1 < I420Plane.y.rows view := h.height_pos
      have hcolumn := h.columns_pos .y
      obtain ⟨position, hposition, -⟩ := RawBuffer.locate_of_second_row (by rw [hmeta]; rfl)
        hstride ((samePixel_iff h (hsource .y) hrow hcolumn).mp (hsame .y 1 0 hrow hcolumn))
      have hlt := UInt32.toNat_lt view.stride
      rw [hoffsets, blockOffset] at hposition
      omega
    have hstrides (plane : I420Plane) : raw.videoMeta.strides plane = plane.stride view := by
      rw [hmeta]
      exact makeVideoMeta_strides hstride plane
    have huends := locate_ends h hsame (hsource .u) (hstrides .u)
    have hvends := locate_ends h hsame (hsource .v) (hstrides .v)
    rw [hmemories, hplanes, hfile] at huends hvends
    have huspan : 0 < I420Plane.u.span view := Nat.add_pos_right _ (h.columns_pos .u)
    have hvspan : 0 < I420Plane.v.span view := Nat.add_pos_right _ (h.columns_pos .v)
    rw [Aligned, hplanes]
    refine ⟨hstride, .inr ⟨?_, ?_⟩⟩
    · rw [← hu]
      exact within_of_ends (.inl rfl) hfd huspan hsecond huends.1 huends.2
    · rw [← hv]
      exact within_of_ends (.inr rfl) hfd hvspan hthird hvends.1 hvends.2
  · intro haligned plane row column hrow hcolumn
    rw [Aligned, hplanes] at haligned
    obtain ⟨hstride, hfds | ⟨huwithin, hvwithin⟩⟩ := haligned
    · exact absurd hfds hfd
    refine samePixel_of_within h (hsource plane)
      (by rw [hmeta]; exact makeVideoMeta_strides hstride plane) ?_ hrow hcolumn
    rw [hmemories, hfile, hplanes]
    cases plane with
    | y =>
      rw [hoffsets]
      exact .inl ⟨rfl, Nat.add_zero _, by rw [blockOffset, Nat.zero_add]; exact hfirst⟩
    | u => rwa [hu]
    | v => rwa [hv]

/-- **When the encoder sees what the copy sees.** Of the views of the camera's buffers that the copy
accepts, these are the ones whose pixels the video meta finds in the bytes that the copy reads. -/
theorem makeRawBuffer_samePixels_iff {buffer : FrameBuffer} {layout : StreamView}
    {mappings : MappingTable} {memory : ℕ → UInt8} {destination : List UInt8}
    (hcopy : copyMappedI420 memory (makeView buffer layout mappings) = .ok destination)
    {fps : ℕ} {outcomes : RawOutcomes}
    {sensorTimestampNs baseSensorTimestampNs frameIndex : ℕ} {raw : RawBuffer}
    (hraw : makeRawBuffer fps outcomes (makeView buffer layout mappings) sensorTimestampNs
      baseSensorTimestampNs frameIndex = some raw) :
    SamePixels (makeView buffer layout mappings) raw ↔
      Aligned (makeView buffer layout mappings) := by
  have hcopied := copied_of_ok (fun plane hplane hdata => makeView_data hplane hdata) hcopy
  generalize makeView buffer layout mappings = view at hcopied hraw ⊢
  obtain ⟨hmeta, hmemories⟩ := makeRawBuffer_eq_some hraw
  rcases hcopied.fits with
    ⟨whole, hplanes, hfits⟩ | ⟨first, second, third, hplanes, hfirst, hsecond, hthird⟩
  · have hshared : sharedFd view.planes = true := by simp [hplanes, sharedFd]
    rcases hmemories with ⟨-, hmemories⟩ | ⟨hseparate, -⟩
    · rw [hplanes] at hmemories
      rw [samePixels_iff_of_one hcopied hplanes hfits hmeta hmemories, Aligned, hplanes]
    · rw [hshared] at hseparate
      cases hseparate
  · rcases hmemories with ⟨hshared, hmemories⟩ | ⟨hseparate, hmemories⟩
    · have hfd : second.fd = first.fd ∧ third.fd = first.fd := by
        simpa [hplanes, sharedFd] using hshared
      rw [hplanes] at hmemories
      rw [samePixels_iff_of_shared hcopied hplanes hfirst hsecond hthird hmeta hshared hmemories,
        Aligned, hplanes]
      simp [hfd]
    · exact samePixels_iff_of_separate hcopied hplanes hfirst hsecond hthird hmeta hseparate
        hmemories

/-! ### Padded planes in files of their own -/

def smallLayout : StreamView where
  width := 4
  height := 4
  stride := 4
  frameSize := 24

/-- Planes at arbitrary places of one file. -/
def sharedBuffer : FrameBuffer where
  address := 1
  planes := [⟨5, 64, 16⟩, ⟨5, 96, 4⟩, ⟨5, 112, 4⟩]
  metadata := [16, 4, 4]

/-- Planes of a page each, in files of their own. -/
def paddedBuffer : FrameBuffer where
  address := 2
  planes := [⟨5, 0, 4096⟩, ⟨6, 0, 4096⟩, ⟨7, 0, 4096⟩]
  metadata := [4096, 4096, 4096]

def smallMappings : MappingTable := fun _ =>
  some [⟨5, 65536, 4096⟩, ⟨6, 73728, 4096⟩, ⟨7, 81920, 4096⟩]

def succeeding : RawOutcomes where
  buffer := true
  allocator := true
  duplicated _ := true
  allocated _ := true

theorem makeRawBuffer_samePixels_iff_sharedBuffer :
    ∃ raw, makeRawBuffer 30 succeeding (makeView sharedBuffer smallLayout smallMappings) 0 0 0 =
        some raw ∧
      SamePixels (makeView sharedBuffer smallLayout smallMappings) raw := by
  have hcopy : copyMappedI420 (fun _ => 0) (makeView sharedBuffer smallLayout smallMappings) =
      .ok (List.replicate 24 0) := by decide +kernel
  obtain ⟨raw, hraw⟩ : ∃ raw, makeRawBuffer 30 succeeding
      (makeView sharedBuffer smallLayout smallMappings) 0 0 0 = some raw := ⟨_, rfl⟩
  exact ⟨raw, hraw, (makeRawBuffer_samePixels_iff hcopy hraw).mpr (by decide)⟩

/-- The meta looks for the first byte of `u` behind the 16 bytes of the first file that `y` needs,
in the padding of that file. -/
theorem not_samePixels : ¬ ∀ (buffer : FrameBuffer) (layout : StreamView) (mappings : MappingTable)
    (memory : ℕ → UInt8) (destination : List UInt8) (fps : ℕ) (outcomes : RawOutcomes)
    (sensorTimestampNs baseSensorTimestampNs frameIndex : ℕ) (raw : RawBuffer),
    copyMappedI420 memory (makeView buffer layout mappings) = .ok destination →
    makeRawBuffer fps outcomes (makeView buffer layout mappings) sensorTimestampNs
      baseSensorTimestampNs frameIndex = some raw →
    SamePixels (makeView buffer layout mappings) raw := by
  intro h
  have hcopy : copyMappedI420 (fun _ => 0) (makeView paddedBuffer smallLayout smallMappings) =
      .ok (List.replicate 24 0) := by decide +kernel
  obtain ⟨source, position, hsource, -, hpixel⟩ :=
    h paddedBuffer smallLayout smallMappings _ _ 30 succeeding 0 0 0 _ hcopy rfl .u 0 0
      (by decide) (by decide)
  have hfd : source.fd = 6 := by
    cases hsource
    rfl
  rw [hfd] at hpixel
  cases hpixel

end EggVision
