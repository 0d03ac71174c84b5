import EggVision.Image.RawBuffer
import EggVision.Lib.FirstAppearances
import Mathlib.Order.Bounds.Basic

/-!
# Mapping the camera's buffers

`mapBuffers` maps the files of each buffer once, far enough for all planes in the file; `makeView`
looks the mapping of a plane up again for every frame. What one leaves in the table is what the
other needs: a mapping for each file, and room in it for each plane.

`mmap` answers with an address or `MAP_FAILED`; called without a hint it never answers with the null
pointer. The calls of `mmap` and `munmap` are recorded with their answers, the last one at the end.

## Main definitions

* `mapBuffers` — the function, with its calls.
* `Spans` — one mapping for each file, as long as its planes need.
* `MapsBuffer` — the mappings of a buffer as `mapBuffers` records them.
* `BufferFailed` — the calls for a buffer that could not be mapped.
* `ViewOf` — the view of a plane inside its mapping.

## Main results

* `spanLoop_spans` — the pass over the planes finds the spans.
* `mapLoop_cases` — all mappings of a buffer are made, or those made are taken back.
* `MapsBuffer.viewOf` — the second lookup finds the mapping, and the plane in it.
* `mapBuffers_correct` — mapped views stay inside their mappings.
-/

namespace EggVision

/-! ### The function -/

/-- `MAP_FAILED`. -/
def mapFailed : ℕ := sizeMax

/-- The answers of `mmap`, in the order of all calls. -/
structure MmapResults where
  result : ℕ → ℕ
  nonnull : ∀ n, result n ≠ 0

inductive MapCall
  | mmap (fd : ℤ) (length base : ℕ)
  | munmap (base length : ℕ)
  deriving DecidableEq, Repr

def Mapping.mmapCall (mapping : Mapping) : MapCall :=
  .mmap mapping.fd mapping.mappedLength mapping.base

def Mapping.munmapCall (mapping : Mapping) : MapCall :=
  .munmap mapping.base mapping.mappedLength

/-- `mapping.base && mapping.base != MAP_FAILED`. -/
def Mapping.isMapped (mapping : Mapping) : Bool :=
  mapping.base ≠ 0 && mapping.base ≠ mapFailed

/-- The first mapping of the file is made long enough, or a new one is added. -/
def widen (fd : ℤ) (mapLength : ℕ) : List Mapping → List Mapping
  | [] => [{ fd, base := 0, mappedLength := mapLength }]
  | mapping :: rest =>
    if mapping.fd = fd then
      { mapping with mappedLength := max mapping.mappedLength mapLength } :: rest
    else mapping :: widen fd mapLength rest

/-- The loop over the planes of a buffer; there is no list when a plane is invalid. -/
def spanLoop : List FramePlane → List Mapping → Option (List Mapping)
  | [], mappings => some mappings
  | plane :: rest, mappings =>
    if plane.fd < 0 ∨ plane.length.toNat > sizeMax - plane.offset.toNat then none
    else spanLoop rest (widen plane.fd (plane.offset.toNat + plane.length.toNat) mappings)

/-- The clean-up after a failed `mmap`, over all mappings of the buffer. -/
def unmapCalls (mappings : List Mapping) : List MapCall :=
  (mappings.filter Mapping.isMapped).map Mapping.munmapCall

/-- The loop over the mappings of a buffer: those it has been through, and those it has not. -/
def mapLoop (results : MmapResults) (done : List Mapping) :
    List Mapping → List MapCall → Option (List Mapping) × List MapCall
  | [], calls => (some done, calls)
  | mapping :: rest, calls =>
    let mapping := { mapping with base := results.result calls.length }
    let calls := calls ++ [mapping.mmapCall]
    if mapping.base = mapFailed then (none, calls ++ unmapCalls (done ++ mapping :: rest))
    else mapLoop results (done ++ [mapping]) rest calls

/-- `target.emplace`. -/
def MappingTable.emplace (table : MappingTable) (address : ℕ) (mappings : List Mapping) :
    MappingTable :=
  if (table address).isSome then table else Function.update table address (some mappings)

structure MapOutcome where
  success : Bool
  table : MappingTable
  calls : List MapCall

/-- `mapBuffers`. -/
def mapBuffers (results : MmapResults) :
    List FrameBuffer → MappingTable → List MapCall → MapOutcome
  | [], table, calls => { success := true, table, calls }
  | buffer :: rest, table, calls =>
    match spanLoop buffer.planes [] with
    | none => { success := false, table, calls }
    | some mappings =>
      match mapLoop results [] mappings calls with
      | (none, calls) => { success := false, table, calls }
      | (some mappings, calls) =>
        mapBuffers results rest (table.emplace buffer.address mappings) calls

/-! ### The spans of a buffer -/

/-- Where the planes in a file end. -/
def planeEnds (planes : List FramePlane) (fd : ℤ) : Set ℕ :=
  {n | ∃ plane ∈ planes, plane.fd = fd ∧ plane.offset.toNat + plane.length.toNat = n}

/-- One mapping for each file, up to the end of the last plane in it. -/
structure Spans (planes : List FramePlane) (mappings : List Mapping) : Prop where
  fds : FirstAppearances.Of (mappings.map Mapping.fd) (planes.map FramePlane.fd)
  length : ∀ mapping ∈ mappings, IsGreatest (planeEnds planes mapping.fd) mapping.mappedLength

theorem widen_fds (fd : ℤ) (mapLength : ℕ) (mappings : List Mapping) :
    (widen fd mapLength mappings).map Mapping.fd =
      FirstAppearances.insertNew (mappings.map Mapping.fd) fd := by
  induction mappings with
  | nil => rfl
  | cons mapping rest ih =>
    rw [widen]
    by_cases hfd : mapping.fd = fd
    · simp [FirstAppearances.insertNew, hfd]
    · rw [if_neg hfd, List.map_cons, ih, List.map_cons]
      by_cases hmem : fd ∈ rest.map Mapping.fd
      · rw [FirstAppearances.insertNew, if_pos hmem, FirstAppearances.insertNew,
          if_pos (List.mem_cons_of_mem _ hmem)]
      · have hmem' : fd ∉ mapping.fd :: rest.map Mapping.fd := by
          simp [Ne.symm hfd, hmem]
        rw [FirstAppearances.insertNew, if_neg hmem, FirstAppearances.insertNew, if_neg hmem']
        rfl

/-- A mapping after the step was there before, or is the one of the file. -/
theorem mem_widen {fd : ℤ} {mapLength : ℕ} {mappings : List Mapping} {mapping : Mapping}
    (hnodup : (mappings.map Mapping.fd).Nodup) (h : mapping ∈ widen fd mapLength mappings) :
    (mapping ∈ mappings ∧ mapping.fd ≠ fd) ∨
      (mapping.fd = fd ∧
        ((∃ before ∈ mappings, before.fd = fd ∧
            mapping.mappedLength = max before.mappedLength mapLength) ∨
          (fd ∉ mappings.map Mapping.fd ∧ mapping.mappedLength = mapLength))) := by
  induction mappings with
  | nil =>
    rw [widen, List.mem_singleton] at h
    subst h
    exact .inr ⟨rfl, .inr ⟨List.not_mem_nil, rfl⟩⟩
  | cons head rest ih =>
    rw [List.map_cons, List.nodup_cons] at hnodup
    rw [widen] at h
    by_cases hfd : head.fd = fd
    · rw [if_pos hfd, List.mem_cons] at h
      rcases h with rfl | h
      · exact .inr ⟨hfd, .inl ⟨head, List.mem_cons_self, hfd, rfl⟩⟩
      · refine .inl ⟨List.mem_cons_of_mem _ h, fun heq => hnodup.1 ?_⟩
        rw [hfd, ← heq]
        exact List.mem_map_of_mem h
    · rw [if_neg hfd, List.mem_cons] at h
      rcases h with rfl | h
      · exact .inl ⟨List.mem_cons_self, hfd⟩
      · rcases ih hnodup.2 h with ⟨hmem, hne⟩ | ⟨heq, ⟨before, hmem, hbefore⟩ | ⟨hnot, hlength⟩⟩
        · exact .inl ⟨List.mem_cons_of_mem _ hmem, hne⟩
        · exact .inr ⟨heq, .inl ⟨before, List.mem_cons_of_mem _ hmem, hbefore⟩⟩
        · refine .inr ⟨heq, .inr ⟨?_, hlength⟩⟩
          rw [List.map_cons, List.mem_cons]
          exact fun hor => hor.elim (fun h => hfd h.symm) hnot

theorem planeEnds_append (planes : List FramePlane) (plane : FramePlane) (fd : ℤ) :
    planeEnds (planes ++ [plane]) fd =
      if plane.fd = fd then
        insert (plane.offset.toNat + plane.length.toNat) (planeEnds planes fd)
      else planeEnds planes fd := by
  ext n
  split
  · rename_i hfd
    simp only [planeEnds, Set.mem_ofPred_eq, List.mem_append, List.mem_singleton,
      Set.mem_insert_iff]
    constructor
    · rintro ⟨other, hmem | rfl, hother, hn⟩
      · exact .inr ⟨other, hmem, hother, hn⟩
      · exact .inl hn.symm
    · rintro (rfl | ⟨other, hmem, hother, hn⟩)
      · exact ⟨plane, .inr rfl, hfd, rfl⟩
      · exact ⟨other, .inl hmem, hother, hn⟩
  · rename_i hfd
    simp only [planeEnds, Set.mem_ofPred_eq, List.mem_append, List.mem_singleton]
    constructor
    · rintro ⟨other, hmem | rfl, hother, hn⟩
      · exact ⟨other, hmem, hother, hn⟩
      · exact absurd hother hfd
    · rintro ⟨other, hmem, hother, hn⟩
      exact ⟨other, .inl hmem, hother, hn⟩

/-- A file without a mapping has no plane yet. -/
theorem Spans.planeEnds_empty {planes : List FramePlane} {mappings : List Mapping}
    (h : Spans planes mappings) {fd : ℤ} (hfd : fd ∉ mappings.map Mapping.fd) :
    planeEnds planes fd = ∅ := by
  rw [Set.eq_empty_iff_forall_notMem]
  rintro n ⟨plane, hmem, rfl, -⟩
  exact hfd ((h.fds.mem_iff _).mpr (List.mem_map_of_mem hmem))

theorem Spans.widen {planes : List FramePlane} {mappings : List Mapping} (h : Spans planes mappings)
    (plane : FramePlane) :
    Spans (planes ++ [plane])
      (widen plane.fd (plane.offset.toNat + plane.length.toNat) mappings) := by
  constructor
  · rw [widen_fds, List.map_append]
    exact h.fds.insertNew plane.fd
  · intro mapping hmem
    rw [planeEnds_append]
    rcases mem_widen h.fds.nodup hmem with
      ⟨hold, hne⟩ | ⟨heq, ⟨before, hbefore, hfd, hlength⟩ | ⟨hnot, hlength⟩⟩
    · rw [if_neg (Ne.symm hne)]
      exact h.length mapping hold
    · have hgreatest := h.length before hbefore
      rw [if_pos heq.symm, hlength, heq, max_comm]
      rw [hfd] at hgreatest
      exact hgreatest.insert _
    · rw [if_pos heq.symm, hlength, heq, h.planeEnds_empty hnot, insert_empty_eq]
      exact isGreatest_singleton

/-- **The pass over the planes finds the spans**, unless a descriptor is negative: with 32 bits
each, offset and length have a sum. -/
theorem spanLoop_spans {before : List FramePlane} {mappings : List Mapping}
    (h : Spans before mappings) (planes : List FramePlane) :
    (∃ mappings', spanLoop planes mappings = some mappings' ∧ Spans (before ++ planes) mappings') ∨
      (spanLoop planes mappings = none ∧ ∃ plane ∈ planes, plane.fd < 0) := by
  induction planes generalizing before mappings with
  | nil => exact .inl ⟨mappings, rfl, by rwa [List.append_nil]⟩
  | cons plane rest ih =>
    have hoffset := UInt32.toNat_lt plane.offset
    have hlength := UInt32.toNat_lt plane.length
    have hfits : ¬ plane.length.toNat > sizeMax - plane.offset.toNat := by
      unfold sizeMax
      omega
    rw [spanLoop]
    by_cases hfd : plane.fd < 0
    · rw [if_pos (.inl hfd)]
      exact .inr ⟨rfl, plane, List.mem_cons_self, hfd⟩
    · rw [if_neg (not_or.mpr ⟨hfd, hfits⟩), List.append_cons]
      rcases ih (h.widen plane) with hgood | ⟨hnone, other, hmem, hneg⟩
      · exact .inl hgood
      · exact .inr ⟨hnone, other, List.mem_cons_of_mem _ hmem, hneg⟩

theorem spans_nil : Spans [] [] :=
  ⟨FirstAppearances.of_nil, fun _ h => absurd h List.not_mem_nil⟩

/-- Spans do not depend on where the files are mapped. -/
theorem Spans.congr {planes : List FramePlane} {mappings mappings' : List Mapping}
    (h : Spans planes mappings)
    (heq : List.Forall₂ (fun m m' => m'.fd = m.fd ∧ m'.mappedLength = m.mappedLength)
      mappings mappings') : Spans planes mappings' := by
  constructor
  · have hfds : mappings'.map Mapping.fd = mappings.map Mapping.fd := by
      clear h
      induction heq with
      | nil => rfl
      | cons hhead _ ih => rw [List.map_cons, List.map_cons, hhead.1, ih]
    rw [hfds]
    exact h.fds
  · intro mapping' hmem
    obtain ⟨mapping, hmem, hfd, hlength⟩ :
        ∃ mapping ∈ mappings, mapping'.fd = mapping.fd ∧
          mapping'.mappedLength = mapping.mappedLength := by
      have hlength := h.length
      clear h hlength
      induction heq with
      | nil => cases hmem
      | cons hhead _ ih =>
        rcases List.mem_cons.mp hmem with rfl | hmem
        · exact ⟨_, List.mem_cons_self, hhead⟩
        · obtain ⟨mapping, hmem, hspan⟩ := ih hmem
          exact ⟨mapping, List.mem_cons_of_mem _ hmem, hspan⟩
    rw [hfd, hlength]
    exact h.length mapping hmem

/-- Before the files are mapped, no mapping has an address. -/
theorem widen_base {fd : ℤ} {mapLength : ℕ} {mappings : List Mapping}
    (h : ∀ mapping ∈ mappings, mapping.base = 0) :
    ∀ mapping ∈ widen fd mapLength mappings, mapping.base = 0 := by
  induction mappings with
  | nil =>
    intro mapping hmem
    rw [widen, List.mem_singleton] at hmem
    rw [hmem]
  | cons head rest ih =>
    obtain ⟨hhead, hrest⟩ := List.forall_mem_cons.mp h
    rw [widen]
    split
    · exact List.forall_mem_cons.mpr ⟨hhead, hrest⟩
    · exact List.forall_mem_cons.mpr ⟨hhead, ih hrest⟩

theorem spanLoop_base {planes : List FramePlane} {mappings mappings' : List Mapping}
    (h : ∀ mapping ∈ mappings, mapping.base = 0)
    (hloop : spanLoop planes mappings = some mappings') :
    ∀ mapping ∈ mappings', mapping.base = 0 := by
  induction planes generalizing mappings with
  | nil =>
    cases hloop
    exact h
  | cons plane rest ih =>
    rw [spanLoop] at hloop
    split at hloop
    · cases hloop
    · exact ih (widen_base h) hloop

/-! ### The calls for a buffer -/

/-- The mappings with addresses: same files and lengths. -/
abbrev Placed (pending placed : List Mapping) : Prop :=
  List.Forall₂ (fun m m' => m'.fd = m.fd ∧ m'.mappedLength = m.mappedLength) pending placed

/-- The clean-up takes back what has been mapped, and nothing else. -/
theorem unmapCalls_eq {done pending : List Mapping} {failed : Mapping}
    (hdone : ∀ mapping ∈ done, mapping.isMapped = true) (hfailed : failed.base = mapFailed)
    (hpending : ∀ mapping ∈ pending, mapping.base = 0) :
    unmapCalls (done ++ failed :: pending) = done.map Mapping.munmapCall := by
  have hnot : ∀ mapping ∈ failed :: pending, ¬ mapping.isMapped = true := by
    refine List.forall_mem_cons.mpr ⟨?_, fun mapping hmem => ?_⟩
    · simp [Mapping.isMapped, hfailed]
    · simp [Mapping.isMapped, hpending mapping hmem]
  rw [unmapCalls, List.filter_append, List.filter_eq_self.mpr hdone,
    List.filter_eq_nil_iff.mpr hnot, List.append_nil]

/-- **All mappings of a buffer are made, or those made are taken back**, each once. -/
theorem mapLoop_cases (results : MmapResults) (pending : List Mapping) {done : List Mapping}
    (calls : List MapCall) (hdone : ∀ mapping ∈ done, mapping.isMapped = true)
    (hpending : ∀ mapping ∈ pending, mapping.base = 0) :
    (∃ placed, mapLoop results done pending calls =
        (some (done ++ placed), calls ++ placed.map Mapping.mmapCall) ∧
      Placed pending placed ∧ ∀ mapping ∈ placed, mapping.isMapped = true) ∨
    ∃ placed failed rest, mapLoop results done pending calls =
        (none, calls ++ placed.map Mapping.mmapCall ++
          failed.mmapCall :: (done ++ placed).map Mapping.munmapCall) ∧
      failed.base = mapFailed ∧ Placed pending (placed ++ failed :: rest) ∧
      ∀ mapping ∈ placed, mapping.isMapped = true := by
  induction pending generalizing done calls with
  | nil =>
    exact .inl ⟨[], by rw [mapLoop, List.append_nil, List.map_nil, List.append_nil], .nil,
      fun _ h => absurd h List.not_mem_nil⟩
  | cons mapping rest ih =>
    obtain ⟨-, hrest⟩ := List.forall_mem_cons.mp hpending
    have hplaced : Placed rest rest := List.forall₂_same.mpr fun _ _ => ⟨rfl, rfl⟩
    rw [mapLoop]
    generalize hanswer : { mapping with base := results.result calls.length } = answer
    have hspan : answer.fd = mapping.fd ∧ answer.mappedLength = mapping.mappedLength := by
      rw [← hanswer]
      exact ⟨rfl, rfl⟩
    have hnonnull : answer.base ≠ 0 := by
      rw [← hanswer]
      exact results.nonnull _
    by_cases hfailed : answer.base = mapFailed
    · simp only [hfailed, if_true]
      refine .inr ⟨[], answer, rest, ?_, hfailed, .cons hspan hplaced,
        fun _ h => absurd h List.not_mem_nil⟩
      rw [unmapCalls_eq hdone hfailed hrest]
      simp
    · simp only [hfailed, if_false]
      have hmapped : answer.isMapped = true := by simp [Mapping.isMapped, hnonnull, hfailed]
      have hdone' : ∀ mapping ∈ done ++ [answer], mapping.isMapped = true :=
        List.forall_mem_append.mpr ⟨hdone, List.forall_mem_singleton.mpr hmapped⟩
      rcases ih (calls ++ [answer.mmapCall]) hdone' hrest with
        ⟨placed, hloop, hplaced, hall⟩ | ⟨placed, failed, rest', hloop, hbase, hplaced, hall⟩
      · refine .inl ⟨answer :: placed, ?_, .cons hspan hplaced,
          List.forall_mem_cons.mpr ⟨hmapped, hall⟩⟩
        rw [hloop]
        simp
      · refine .inr ⟨answer :: placed, failed, rest', ?_, hbase, .cons hspan hplaced,
          List.forall_mem_cons.mpr ⟨hmapped, hall⟩⟩
        rw [hloop]
        simp

/-- The mappings of a buffer as they are recorded. -/
structure MapsBuffer (buffer : FrameBuffer) (mappings : List Mapping) : Prop where
  spans : Spans buffer.planes mappings
  mapped : ∀ mapping ∈ mappings, mapping.base ≠ 0 ∧ mapping.base ≠ mapFailed

/-- The calls for a buffer that could not be mapped: none at all, or the mappings up to the one that
failed and their clean-up. -/
inductive BufferFailed (buffer : FrameBuffer) : List MapCall → Prop
  | invalid (plane : FramePlane) (mem : plane ∈ buffer.planes) (negative : plane.fd < 0) :
    BufferFailed buffer []
  | mmap (mapped : List Mapping) (failed : Mapping) (rest : List Mapping)
    (spans : Spans buffer.planes (mapped ++ failed :: rest)) (failure : failed.base = mapFailed)
    (success : ∀ mapping ∈ mapped, mapping.base ≠ 0 ∧ mapping.base ≠ mapFailed) :
    BufferFailed buffer
      (mapped.map Mapping.mmapCall ++ failed.mmapCall :: mapped.map Mapping.munmapCall)

theorem isMapped_iff {mapping : Mapping} :
    mapping.isMapped = true ↔ mapping.base ≠ 0 ∧ mapping.base ≠ mapFailed := by
  simp [Mapping.isMapped]

/-- What happens for one buffer. -/
theorem mapBuffers_cons (results : MmapResults) (buffer : FrameBuffer) (rest : List FrameBuffer)
    (table : MappingTable) (calls : List MapCall) :
    (∃ mappings, MapsBuffer buffer mappings ∧
      mapBuffers results (buffer :: rest) table calls =
        mapBuffers results rest (table.emplace buffer.address mappings)
          (calls ++ mappings.map Mapping.mmapCall)) ∨
    ∃ own, BufferFailed buffer own ∧
      mapBuffers results (buffer :: rest) table calls =
        { success := false, table, calls := calls ++ own } := by
  rw [mapBuffers]
  rcases spanLoop_spans spans_nil buffer.planes with
    ⟨mappings, hloop, hspans⟩ | ⟨hloop, plane, hmem, hnegative⟩
  · rw [List.nil_append] at hspans
    have hbase := spanLoop_base (fun _ h => absurd h List.not_mem_nil) hloop
    rw [hloop]
    rcases mapLoop_cases results mappings calls (fun _ h => absurd h List.not_mem_nil) hbase with
      ⟨placed, hmap, hplaced, hall⟩ | ⟨placed, failed, rest', hmap, hfailed, hplaced, hall⟩
    · refine .inl ⟨placed, ⟨hspans.congr hplaced, fun mapping hmem =>
        isMapped_iff.mp (hall mapping hmem)⟩, ?_⟩
      simp only [hmap, List.nil_append]
    · refine .inr ⟨_, .mmap placed failed rest' (hspans.congr hplaced) hfailed fun mapping hmem =>
        isMapped_iff.mp (hall mapping hmem), ?_⟩
      simp only [hmap, List.nil_append, List.append_assoc]
  · rw [hloop]
    exact .inr ⟨[], .invalid plane hmem hnegative, by rw [List.append_nil]⟩

/-! ### The buffers of a stream -/

/-- The buffers that an allocator holds for a stream. They exist at the same time, at addresses of
their own. -/
structure StreamBuffers where
  buffers : List FrameBuffer
  distinct : (buffers.map FrameBuffer.address).Nodup

/-- `mapBuffers` for a stream, which has no mappings before. -/
def mapStream (results : MmapResults) (stream : StreamBuffers) : MapOutcome :=
  mapBuffers results stream.buffers (fun _ => none) []

/-- The calls that made the mappings recorded for a buffer. -/
def recordedCalls (table : MappingTable) (buffer : FrameBuffer) : List MapCall :=
  ((table buffer.address).getD []).map Mapping.mmapCall

/-- What a run has done to the table and called: it has recorded the mappings of some buffers, and
either there are no others, or the next one failed. -/
structure MapRun (buffers : List FrameBuffer) (table : MappingTable) (calls : List MapCall)
    (outcome : MapOutcome) (mapped rest : List FrameBuffer) (own : List MapCall) : Prop where
  split : buffers = mapped ++ rest
  recorded : ∀ buffer ∈ mapped, ∃ mappings,
    outcome.table buffer.address = some mappings ∧ MapsBuffer buffer mappings
  frame : ∀ address, address ∉ mapped.map FrameBuffer.address →
    outcome.table address = table address
  calls : outcome.calls = calls ++ mapped.flatMap (recordedCalls outcome.table) ++ own
  outcome : (outcome.success = true ∧ rest = [] ∧ own = []) ∨
    (outcome.success = false ∧ ∃ buffer later, rest = buffer :: later ∧ BufferFailed buffer own)

theorem mapBuffers_run (results : MmapResults) (buffers : List FrameBuffer) (table : MappingTable)
    (calls : List MapCall) (hdistinct : (buffers.map FrameBuffer.address).Nodup)
    (hfresh : ∀ buffer ∈ buffers, table buffer.address = none) :
    ∃ mapped rest own,
      MapRun buffers table calls (mapBuffers results buffers table calls) mapped rest own := by
  induction buffers generalizing table calls with
  | nil =>
    exact ⟨[], [], [], rfl, fun _ h => absurd h List.not_mem_nil, fun _ _ => rfl,
      by simp [mapBuffers], .inl ⟨rfl, rfl, rfl⟩⟩
  | cons buffer later ih =>
    rw [List.map_cons, List.nodup_cons] at hdistinct
    obtain ⟨hbuffer, hlater⟩ := List.forall_mem_cons.mp hfresh
    rcases mapBuffers_cons results buffer later table calls with
      ⟨mappings, hmaps, heq⟩ | ⟨own, hfailed, heq⟩
    · have hemplace : table.emplace buffer.address mappings =
          Function.update table buffer.address (some mappings) := by
        rw [MappingTable.emplace, hbuffer]
        rfl
      rw [heq, hemplace]
      have hfresh' : ∀ other ∈ later,
          Function.update table buffer.address (some mappings) other.address = none := by
        intro other hmem
        have hne : other.address ≠ buffer.address := fun h =>
          hdistinct.1 (h ▸ List.mem_map_of_mem hmem)
        rw [Function.update_of_ne hne]
        exact hlater other hmem
      obtain ⟨mapped, rest, own, hrun⟩ := ih _ (calls ++ mappings.map Mapping.mmapCall)
        hdistinct.2 hfresh'
      have hnot : buffer.address ∉ mapped.map FrameBuffer.address := fun h => by
        refine hdistinct.1 ?_
        rw [hrun.split, List.map_append]
        exact List.mem_append_left _ h
      have hown := hrun.frame buffer.address hnot
      rw [Function.update_self] at hown
      refine ⟨buffer :: mapped, rest, own, ?_, ?_, ?_, ?_, hrun.outcome⟩
      · rw [hrun.split]
        rfl
      · exact List.forall_mem_cons.mpr ⟨⟨mappings, hown, hmaps⟩, hrun.recorded⟩
      · intro address haddress
        rw [List.map_cons, List.mem_cons, not_or] at haddress
        rw [hrun.frame address haddress.2, Function.update_of_ne haddress.1]
      · rw [hrun.calls, List.flatMap_cons, recordedCalls, hown]
        simp
    · rw [heq]
      exact ⟨[], buffer :: later, own, rfl, fun _ h => absurd h List.not_mem_nil, fun _ _ => rfl,
        by simp, .inr ⟨rfl, buffer, later, rfl, hfailed⟩⟩

/-! ### The second lookup -/

/-- The view of a plane lies in one of the mappings, at the plane's offset. -/
structure ViewOf (mappings : List Mapping) (plane : FramePlane) (view : PlaneView) : Prop where
  fd : view.fd = plane.fd
  offset : view.offset = plane.offset
  length : view.length = plane.length
  mapping : ⟨plane.fd, view.mappingBase, view.mappedLength⟩ ∈ mappings
  data_ne : view.data ≠ 0
  data : view.data = view.mappingBase + view.offset.toNat
  inside : view.offset.toNat + view.length.toNat ≤ view.mappedLength

/-- **The second lookup finds the mapping**, with room for the plane. -/
theorem MapsBuffer.viewOf {buffer : FrameBuffer} {mappings : List Mapping}
    (h : MapsBuffer buffer mappings) {plane : FramePlane} (hmem : plane ∈ buffer.planes)
    (bytesUsed : UInt32) :
    ViewOf mappings plane (makePlaneView (some mappings) plane bytesUsed) := by
  have hfd : plane.fd ∈ mappings.map Mapping.fd :=
    (h.spans.fds.mem_iff _).mpr (List.mem_map_of_mem hmem)
  obtain ⟨mapping, hfind⟩ : ∃ mapping,
      mappings.find? (fun candidate => candidate.fd = plane.fd) = some mapping := by
    obtain ⟨candidate, hcandidate, hsame⟩ := List.mem_map.mp hfd
    exact Option.isSome_iff_exists.mp
      (List.find?_isSome.mpr ⟨candidate, hcandidate, by simpa using hsame⟩)
  have hmapping := List.mem_of_find?_eq_some hfind
  have hsame : mapping.fd = plane.fd := by simpa using List.find?_some hfind
  have hend : plane.offset.toNat + plane.length.toNat ≤ mapping.mappedLength :=
    (h.spans.length mapping hmapping).2 ⟨plane, hmem, hsame.symm, rfl⟩
  have hoffset := UInt32.toNat_lt plane.offset
  have hlength := UInt32.toNat_lt plane.length
  have hspan : plane.length.toNat ≤ sizeMax - plane.offset.toNat := by
    unfold sizeMax
    omega
  have hbase := (h.mapped mapping hmapping).1
  have hview : makePlaneView (some mappings) plane bytesUsed =
      { fd := plane.fd
        offset := plane.offset
        length := plane.length
        bytesUsed := bytesUsed
        data := mapping.base + plane.offset.toNat
        mappingBase := mapping.base
        mappedLength := mapping.mappedLength } := by
    simp only [makePlaneView, hfind, hspan, hend, and_self, if_true]
  rw [hview]
  exact ⟨rfl, rfl, rfl, by rw [← hsame]; exact hmapping, by simp only; omega, rfl, hend⟩

/-- The views of a frame, each of its own plane. -/
theorem makeView_viewOf {buffer : FrameBuffer} {mappings : List Mapping} {table : MappingTable}
    (h : MapsBuffer buffer mappings) (htable : table buffer.address = some mappings)
    (metadata : List UInt32) (layout : StreamView) {i : ℕ} {plane : FramePlane}
    (hplane : buffer.planes[i]? = some plane) :
    ∃ view, (makeView { buffer with metadata } layout table).planes[i]? = some view ∧
      ViewOf mappings plane view := by
  refine ⟨makePlaneView (some mappings) plane (metadata.getD i plane.length), ?_,
    h.viewOf (List.mem_of_getElem? hplane) _⟩
  simp only [makeView, htable, List.getElem?_mapIdx, hplane, Option.map_some]

/-- **Mapped views stay inside their mappings.** If all buffers of a stream could be mapped, each
file of a buffer is mapped once, up to the end of the last plane in it, and from then on every frame
in the buffer has its planes inside the mappings. Otherwise the buffers before some buffer are
mapped; whatever had been mapped of that buffer has been unmapped, each mapping once, and nothing is
recorded for it or a later one. -/
theorem mapBuffers_correct (results : MmapResults) (stream : StreamBuffers) :
    ((mapStream results stream).success = true →
      (mapStream results stream).calls =
        stream.buffers.flatMap (recordedCalls (mapStream results stream).table) ∧
      ∀ buffer ∈ stream.buffers, ∃ mappings,
        (mapStream results stream).table buffer.address = some mappings ∧
        MapsBuffer buffer mappings ∧
        ∀ (metadata : List UInt32) (layout : StreamView) (i : ℕ) (plane : FramePlane),
          buffer.planes[i]? = some plane →
          ∃ view, (makeView { buffer with metadata } layout
              (mapStream results stream).table).planes[i]? = some view ∧
            ViewOf mappings plane view) ∧
    ((mapStream results stream).success = false →
      ∃ mapped buffer later own, stream.buffers = mapped ++ buffer :: later ∧
        BufferFailed buffer own ∧
        (mapStream results stream).calls =
          mapped.flatMap (recordedCalls (mapStream results stream).table) ++ own ∧
        (∀ buffer ∈ mapped, ∃ mappings,
          (mapStream results stream).table buffer.address = some mappings ∧
          MapsBuffer buffer mappings) ∧
        ∀ other ∈ buffer :: later, (mapStream results stream).table other.address = none) := by
  obtain ⟨mapped, rest, own, hrun⟩ := mapBuffers_run results stream.buffers (fun _ => none) []
    stream.distinct (fun _ _ => rfl)
  have hcalls := hrun.calls
  rw [List.nil_append] at hcalls
  rcases hrun.outcome with ⟨hsuccess, rfl, rfl⟩ | ⟨hsuccess, buffer, later, rfl, hfailed⟩
  · have hsplit := hrun.split
    rw [List.append_nil] at hsplit hcalls
    refine ⟨fun _ => ⟨?_, fun buffer hmem => ?_⟩, fun h => ?_⟩
    · rw [hsplit]
      exact hcalls
    · rw [hsplit] at hmem
      obtain ⟨mappings, htable, hmaps⟩ := hrun.recorded buffer hmem
      exact ⟨mappings, htable, hmaps, fun metadata layout i plane hplane =>
        makeView_viewOf hmaps htable metadata layout hplane⟩
    · rw [mapStream, hsuccess] at h
      cases h
  · refine ⟨fun h => ?_, fun _ => ⟨mapped, buffer, later, own, hrun.split, hfailed, hcalls,
      hrun.recorded, fun other hmem => ?_⟩⟩
    · rw [mapStream, hsuccess] at h
      cases h
    · refine hrun.frame other.address fun hmapped => ?_
      have hnodup := stream.distinct
      rw [hrun.split, List.map_append, List.nodup_append] at hnodup
      exact hnodup.2.2 _ hmapped _ (List.mem_map_of_mem hmem) rfl

end EggVision
