import EggVision.Event.Store

/-!
# What is published, and that it stays

An event directory that has its name is complete, whatever failed on the way and whenever a process
was killed: its metadata is there and says which artifacts are. And nothing that is on the disk is
written over: a published directory stays as it is, and so does what a killed process has left.

## Main definitions

* `Stage.Held` — what is in the hidden directory at each stage
* `Published` — a complete event
* `EventStore.Sound` — the invariant

## Main results

* `published_complete`, `nothing_lost`
-/

namespace EggVision

open FileTree Transition EventRecorder

/-! ### The files of one directory -/

section

variable {config : StoreConfig} {disk disk' : EventDisk} {dir : List String}

/-- The files of an event that are in a directory. -/
def filesIn (config : StoreConfig) (disk : EventDisk) (dir : List String) (file : EventFile) :
    Option (Node Content) := disk.entries dir (file.name config)

/-- There is a directory, with nothing in it that is not a file of an event. -/
structure EventDir (config : StoreConfig) (disk : EventDisk) (dir : List String) : Prop where
  directory : disk.node dir = some .directory
  others : ∀ name, (∀ file, EventFile.name config file ≠ name) → disk.entries dir name = none

theorem EventDir.write {file : EventFile} {content : Content} (h : EventDir config disk dir)
    (hwrite : disk.write dir (file.name config) content = some disk') :
    EventDir config disk' dir ∧
      filesIn config disk' dir =
        Function.update (filesIn config disk dir) file (some (.file content)) := by
  obtain ⟨hnode, hentries⟩ := Tree.write_entries hwrite
  refine ⟨⟨by rw [hnode, h.directory], fun name hname => ?_⟩, funext fun other => ?_⟩
  · rw [hentries, Function.update_of_ne (hname file).symm, h.others name hname]
  · rw [filesIn, hentries]
    by_cases hother : other = file
    · rw [hother, Function.update_self, Function.update_self]
    · rw [Function.update_of_ne ((EventFile.name_injective config).ne hother),
        Function.update_of_ne hother, filesIn]

theorem EventDir.rename {file file' : EventFile} (h : EventDir config disk dir)
    (hrename : disk.rename dir (file.name config) dir (file'.name config) = some disk') :
    EventDir config disk' dir ∧
      filesIn config disk' dir =
        Function.update (Function.update (filesIn config disk dir) file none) file'
          (filesIn config disk dir file) := by
  obtain ⟨hnode, hentries⟩ := Tree.rename_within_entries hrename
  have hne : ∀ {f g : EventFile}, f ≠ g → f.name config ≠ g.name config :=
    fun hfg => (EventFile.name_injective config).ne hfg
  refine ⟨⟨by rw [hnode, h.directory], fun name hname => ?_⟩, funext fun other => ?_⟩
  · rw [hentries, Function.update_of_ne (hname file').symm,
      Function.update_of_ne (hname file).symm, h.others name hname]
  · rw [filesIn, hentries]
    by_cases htarget : other = file'
    · rw [htarget, Function.update_self, Function.update_self, filesIn]
    · rw [Function.update_of_ne (hne htarget), Function.update_of_ne htarget]
      by_cases hsource : other = file
      · rw [hsource, Function.update_self, Function.update_self]
      · rw [Function.update_of_ne (hne hsource), Function.update_of_ne hsource, filesIn]

/-- A write that failed touches its own file, if any. -/
theorem leaveDebris_outside (config : StoreConfig) (disk : EventDisk) (dir : List String)
    (file : EventFile) (debris : Bool) :
    Tree.Outside disk (leaveDebris config disk dir file debris) dir := by
  unfold leaveDebris
  split
  · cases hwrite : disk.write dir (file.name config) .torn with
    | none => exact Tree.Outside.refl _ _
    | some disk' => exact (Tree.write_outside hwrite).of_append
  · exact Tree.Outside.refl _ _

theorem EventDir.leaveDebris (h : EventDir config disk dir) (file : EventFile) (debris : Bool) :
    EventDir config (leaveDebris config disk dir file debris) dir ∧
      ∃ left, filesIn config (leaveDebris config disk dir file debris) dir =
        Function.update (filesIn config disk dir) file left := by
  have hsame : EventDir config disk dir ∧ ∃ left, filesIn config disk dir =
      Function.update (filesIn config disk dir) file left :=
    ⟨h, filesIn config disk dir file, by rw [Function.update_eq_self]⟩
  unfold EggVision.leaveDebris
  split
  · cases hwrite : disk.write dir (file.name config) .torn with
    | none => exact hsame
    | some disk' => exact ⟨(h.write hwrite).1, _, (h.write hwrite).2⟩
  · exact hsame

/-- A directory is as it was if what differs is elsewhere. -/
theorem EventDir.same (h : EventDir config disk dir) (hsame : Tree.Same disk disk' dir) :
    EventDir config disk' dir ∧ filesIn config disk' dir = filesIn config disk dir :=
  ⟨⟨by rw [hsame.node, h.directory], fun name hname => (hsame [name]).trans (h.others name hname)⟩,
    funext fun file => hsame [file.name config]⟩

theorem EventDir.moved {path : List String} {name name' : String}
    (h : EventDir config disk (path ++ [name]))
    (hrename : disk.rename path name path name' = some disk') :
    EventDir config disk' (path ++ [name']) ∧
      filesIn config disk' (path ++ [name']) = filesIn config disk (path ++ [name]) := by
  obtain ⟨-, hnode⟩ := Tree.rename_eq_some hrename
  have hbelow : ∀ rest, disk'.node (path ++ [name'] ++ rest) = disk.node (path ++ [name] ++ rest) :=
    fun rest => by rw [hnode, moved_below]
  refine ⟨⟨?_, fun other hother => (hbelow [other]).trans (h.others other hother)⟩,
    funext fun file => hbelow [file.name config]⟩
  simpa using (hbelow []).trans (by simpa using h.directory)

end

/-! ### What is there at each stage -/

/-- What the writer of an artifact has left, by the result it gave. Only a failure may leave the
partial file behind. -/
def ArtifactHeld (held : EventFile → Option (Node Content)) (partialFile file : EventFile)
    (content : Content) (result : ArtifactResult) : Prop :=
  match result.status with
  | .complete => held file = some (.file content) ∧ held partialFile = none
  | .failed => held file = none
  | .unavailable => held file = none ∧ held partialFile = none

/-- The two artifacts of an event are there as far as their results say, and the results are those
that `writeSnapshot` and `muxVideo` give. -/
def SnapshotHeld (event : QueuedEvent) (held : EventFile → Option (Node Content))
    (snapshot : ArtifactResult) : Prop :=
  (∃ encoded, snapshot = writeSnapshot event.job.snapshot encoded) ∧
    ArtifactHeld held .snapshotPartial .snapshot (.jpeg event.job.snapshot) snapshot

def ClipHeld (event : QueuedEvent) (held : EventFile → Option (Node Content))
    (video : ArtifactResult) : Prop :=
  (∃ muxed, video = muxVideo event.job muxed) ∧
    ArtifactHeld held .clipPartial .clip (.muxed event.job.units) video

section

variable {event : QueuedEvent} {held : EventFile → Option (Node Content)}
  {result : ArtifactResult} {file : EventFile}

theorem ArtifactHeld.update {partialFile name : EventFile} {content : Content}
    (h : ArtifactHeld held partialFile name content result) (hhidden : partialFile ≠ file)
    (hname : name ≠ file) (new : Option (Node Content)) :
    ArtifactHeld (Function.update held file new) partialFile name content result := by
  unfold ArtifactHeld at h ⊢
  rw [Function.update_of_ne hhidden, Function.update_of_ne hname]
  exact h

theorem SnapshotHeld.update (h : SnapshotHeld event held result)
    (hhidden : .snapshotPartial ≠ file) (hname : .snapshot ≠ file) (new : Option (Node Content)) :
    SnapshotHeld event (Function.update held file new) result :=
  ⟨h.1, h.2.update hhidden hname new⟩

theorem ClipHeld.update (h : ClipHeld event held result) (hhidden : .clipPartial ≠ file)
    (hname : .clip ≠ file) (new : Option (Node Content)) :
    ClipHeld event (Function.update held file new) result :=
  ⟨h.1, h.2.update hhidden hname new⟩

end

/-- There is something to publish. -/
def Publishable (snapshot video : ArtifactResult) : Prop :=
  video.status ≠ .failed ∧ (snapshot.status = .complete ∨ video.status = .complete)

/-- What is in the hidden directory before the call of a stage. -/
def Stage.Held (event : QueuedEvent) (held : EventFile → Option (Node Content)) : Stage → Prop
  | .snapshot =>
    EventWriter.refusedSnapshot event.job.snapshot = none ∧ ∀ file, held file = none
  | .snapshotName =>
    EventWriter.refusedSnapshot event.job.snapshot = none ∧
      held .snapshotPartial = some (.file (.jpeg event.job.snapshot)) ∧
      ∀ file ≠ .snapshotPartial, held file = none
  | .clip shot =>
    EventWriter.refusedClip event.job = none ∧ SnapshotHeld event held shot ∧
      held .clipPartial = none ∧ held .clip = none ∧
      held .metadataPartial = none ∧ held .metadata = none
  | .clipName shot =>
    EventWriter.refusedClip event.job = none ∧ SnapshotHeld event held shot ∧
      held .clipPartial = some (.file (.muxed event.job.units)) ∧ held .clip = none ∧
      held .metadataPartial = none ∧ held .metadata = none
  | .metadata shot video =>
    SnapshotHeld event held shot ∧ ClipHeld event held video ∧
      held .metadataPartial = none ∧ held .metadata = none
  | .metadataName shot video =>
    SnapshotHeld event held shot ∧ ClipHeld event held video ∧ Publishable shot video ∧
      held .metadataPartial = some (.file (.document ⟨event, shot, video⟩)) ∧
      held .metadata = none
  | .publish shot video =>
    SnapshotHeld event held shot ∧ ClipHeld event held video ∧ Publishable shot video ∧
      held .metadataPartial = none ∧
      held .metadata = some (.file (.document ⟨event, shot, video⟩))

/-- What holds of the event that is being written. -/
structure Writing.Sound (config : StoreConfig) (disk : EventDisk) (w : Writing) : Prop where
  dir : EventDir config disk w.event.partialDir
  held : w.stage.Held w.event (filesIn config disk w.event.partialDir)
  unnamed : disk.node w.event.finalDir = none

/-! ### Between two calls -/

/-- The same event, with more or fewer errors noted. -/
structure QueuedEvent.Like (event event' : QueuedEvent) : Prop where
  wallTime : event'.wallTime = event.wallTime
  job : ∃ errors, event'.job = { event.job with errors }

namespace QueuedEvent

variable {event event' event'' : QueuedEvent}

theorem Like.refl (event : QueuedEvent) : event.Like event := ⟨rfl, event.job.errors, rfl⟩

theorem Like.trans (h : event.Like event') (h' : event'.Like event'') : event.Like event'' := by
  obtain ⟨errors, hjob⟩ := h.job
  obtain ⟨errors', hjob'⟩ := h'.job
  exact ⟨h'.wallTime.trans h.wallTime, errors', by rw [hjob', hjob]⟩

theorem note_like (event : QueuedEvent) (error : String) : event.Like (event.note error) :=
  ⟨rfl, _, rfl⟩

theorem Like.partialDir (h : event.Like event') : event'.partialDir = event.partialDir := by
  obtain ⟨errors, hjob⟩ := h.job
  simp only [QueuedEvent.partialDir, QueuedEvent.dateDir, h.wallTime, hjob]

theorem Like.finalDir (h : event.Like event') : event'.finalDir = event.finalDir := by
  obtain ⟨errors, hjob⟩ := h.job
  simp only [QueuedEvent.finalDir, QueuedEvent.dateDir, h.wallTime, hjob]

theorem published_node {disk disk' : EventDisk} (h : disk.rename event.dateDir
    (partialName event.job.id) event.dateDir event.job.id = some disk') :
    disk'.node = moved disk.node event.partialDir event.finalDir := (Tree.rename_eq_some h).2

theorem unhidden_id (event : QueuedEvent) : Unhidden event.job.id := by
  rw [event.id_eq]
  exact unhidden_formatEventId _ _

/-- No path of an event that has its name is below a hidden directory. -/
theorem partialDir_not_prefix (event : QueuedEvent) {date id : String} (h : Unhidden id)
    (rest : List String) : ¬ event.partialDir <+: [date, id] ++ rest := by
  rintro ⟨more, hmore⟩
  simp only [partialDir, dateDir, List.cons_append, List.nil_append, List.cons.injEq] at hmore
  exact partialName_ne h hmore.2.1.symm

end QueuedEvent

namespace EventWriter

variable {event : QueuedEvent} {metrics : EventMetrics} {snapshot : MainSnapshot} {job : EventJob}

/-- A snapshot is refused by the checks of `writeSnapshot`, or its fate is up to the world. -/
theorem writeSnapshot_cases (snapshot : MainSnapshot) :
    (∃ result, result.status = .failed ∧ refusedSnapshot snapshot = some result ∧
      ∀ encoded, writeSnapshot snapshot encoded = result) ∨
    (refusedSnapshot snapshot = none ∧
      ∀ encoded, writeSnapshot snapshot encoded = .ofOutcome encoded) := by
  unfold refusedSnapshot writeSnapshot
  split_ifs with hunavailable hsize
  · exact Or.inl ⟨_, rfl, by simp, fun _ => rfl⟩
  · exact Or.inl ⟨_, rfl, by simp, fun _ => rfl⟩
  · exact Or.inr ⟨by simp [ArtifactResult.ofOutcome], fun _ => rfl⟩

theorem muxVideo_cases (job : EventJob) :
    (∃ result, result.status ≠ .complete ∧ refusedClip job = some result ∧
      ∀ muxed, muxVideo job muxed = result) ∨
    (refusedClip job = none ∧ ∀ muxed, muxVideo job muxed = .ofOutcome muxed) := by
  unfold refusedClip muxVideo
  split
  · exact Or.inl ⟨_, by simp, by simp, fun _ => rfl⟩
  · split_ifs
    · exact Or.inl ⟨_, by simp, by simp, fun _ => rfl⟩
    · exact Or.inl ⟨_, by simp, by simp, fun _ => rfl⟩
    · exact Or.inr ⟨by simp [ArtifactResult.ofOutcome], fun _ => rfl⟩

variable {held : EventFile → Option (Node Content)} {shot video : ArtifactResult}

theorem writeSnapshot_of_refused_none (h : refusedSnapshot snapshot = none)
    (encoded : Except String ℕ) : writeSnapshot snapshot encoded = .ofOutcome encoded := by
  rcases writeSnapshot_cases snapshot with ⟨result, -, hrefused, -⟩ | ⟨-, hworld⟩
  · cases hrefused.symm.trans h
  · exact hworld encoded

theorem muxVideo_of_refused_none (h : refusedClip job = none) (muxed : Except String ℕ) :
    muxVideo job muxed = .ofOutcome muxed := by
  rcases muxVideo_cases job with ⟨result, -, hrefused, -⟩ | ⟨-, hworld⟩
  · cases hrefused.symm.trans h
  · exact hworld muxed

/-- `muxVideo` is done. -/
theorem finishClip_held (metrics : EventMetrics) (hshot : SnapshotHeld event held shot)
    (hclip : ClipHeld event held video) (hhidden : held .metadataPartial = none)
    (hmetadata : held .metadata = none) :
    ∃ w, (finishClip event metrics shot video).writing = some w ∧ event.Like w.event ∧
      w.stage.Held w.event held := by
  refine ⟨_, rfl, ?_⟩
  dsimp only
  split
  · exact ⟨event.note_like _, hshot, hclip, hhidden, hmetadata⟩
  · exact ⟨.refl event, hshot, hclip, hhidden, hmetadata⟩

/-- `writeSnapshot` is done. -/
theorem finishSnapshot_held (metrics : EventMetrics) (hshot : SnapshotHeld event held shot)
    (hnone : ∀ file, file ≠ .snapshotPartial → file ≠ .snapshot → held file = none) :
    ∃ w, (finishSnapshot event metrics shot).writing = some w ∧ event.Like w.event ∧
      w.stage.Held w.event held := by
  have hnone' : held .clipPartial = none ∧ held .clip = none ∧ held .metadataPartial = none ∧
      held .metadata = none := by
    refine ⟨?_, ?_, ?_, ?_⟩ <;> exact hnone _ (by decide) (by decide)
  obtain ⟨hhidden, hclip, hmetadataPartial, hmetadata⟩ := hnone'
  unfold finishSnapshot
  dsimp only
  set event' := if shot.status = .complete then event else event.note shot.error with hevent'
  have hlike : event.Like event' := by
    rw [hevent']
    split
    · exact .refl event
    · exact event.note_like _
  have hshot' : SnapshotHeld event' held shot := by
    obtain ⟨errors, hjob⟩ := hlike.job
    simpa only [SnapshotHeld, hjob] using hshot
  rcases muxVideo_cases event'.job with ⟨video, hstatus, hrefused, hmux⟩ | ⟨hrefused, -⟩
  · rw [hrefused]
    have hvideo : ClipHeld event' held video := by
      refine ⟨⟨.ok 0, (hmux _).symm⟩, ?_⟩
      unfold ArtifactHeld
      split
      · exact absurd ‹_› hstatus
      · exact hclip
      · exact ⟨hclip, hhidden⟩
    obtain ⟨w, hw, hlike', hheld⟩ := finishClip_held (countSnapshot shot metrics) hshot' hvideo
      hmetadataPartial hmetadata
    exact ⟨w, hw, hlike.trans hlike', hheld⟩
  · rw [hrefused]
    exact ⟨_, rfl, hlike, hrefused, hshot', hhidden, hclip, hmetadataPartial, hmetadata⟩

/-- The directory is there and empty. -/
theorem begin_held (metrics : EventMetrics) (hnone : ∀ file, held file = none) :
    ∃ w, (begin event metrics).writing = some w ∧ event.Like w.event ∧
      w.stage.Held w.event held := by
  unfold begin
  rcases writeSnapshot_cases event.job.snapshot with
    ⟨shot, hstatus, hrefused, hwrite⟩ | ⟨hrefused, -⟩
  · rw [hrefused]
    refine finishSnapshot_held metrics ⟨⟨.ok 0, (hwrite _).symm⟩, ?_⟩ fun file _ _ => hnone file
    rw [ArtifactHeld, hstatus]
    exact hnone _
  · rw [hrefused]
    exact ⟨_, rfl, .refl event, hrefused, hnone⟩

end EventWriter

/-! ### One call -/

namespace Writing

variable {config : StoreConfig} {disk disk' : EventDisk} {a : Answer} {metrics : EventMetrics}
  {writer : EventWriter} {w w' : Writing}

theorem Sound.next (h : w.Sound config disk) (hlike : w.event.Like w'.event)
    (houtside : Tree.Outside disk disk' w.event.partialDir)
    (hdir : EventDir config disk' w.event.partialDir)
    (hheld : w'.stage.Held w'.event (filesIn config disk' w.event.partialDir)) :
    w'.Sound config disk' := by
  refine ⟨by rwa [hlike.partialDir], by rwa [hlike.partialDir], ?_⟩
  rw [hlike.finalDir]
  exact (houtside _ (w.event.partialDir_not_prefix w.event.unhidden_id [])).trans h.unnamed

/-- The call has changed only what is below the hidden directory; the event goes on. -/
def GoesOn (config : StoreConfig) (disk disk' : EventDisk) (w : Writing) (writer : EventWriter) :
    Prop :=
  Tree.Outside disk disk' w.event.partialDir ∧
    ∃ w', writer.writing = some w' ∧ w.event.Like w'.event ∧ w'.Sound config disk'

/-- The artifact is written to its partial file. -/
theorem Sound.write (h : w.Sound config disk) {file : EventFile} {content : Content} {stage : Stage}
    (hwrite : disk.write w.event.partialDir (file.name config) content = some disk')
    (hheld : stage.Held w.event
      (Function.update (filesIn config disk w.event.partialDir) file (some (.file content)))) :
    w.GoesOn config disk disk' { metrics, writing := some { w with stage } } := by
  obtain ⟨hdir, hfiles⟩ := h.dir.write hwrite
  have houtside := (Tree.write_outside hwrite).of_append
  exact ⟨houtside, _, rfl, .refl _, h.next (.refl _) houtside hdir (hfiles ▸ hheld)⟩

/-- A partial file gets its name. -/
theorem Sound.rename (h : w.Sound config disk) {file file' : EventFile}
    (hrename : disk.rename w.event.partialDir (file.name config) w.event.partialDir
      (file'.name config) = some disk')
    (hheld : ∃ w', writer.writing = some w' ∧ w.event.Like w'.event ∧ w'.stage.Held w'.event
      (Function.update (Function.update (filesIn config disk w.event.partialDir) file none) file'
        (filesIn config disk w.event.partialDir file))) :
    w.GoesOn config disk disk' writer := by
  obtain ⟨hdir, hfiles⟩ := h.dir.rename hrename
  have houtside := Tree.rename_within_outside hrename
  obtain ⟨w', hw', hlike, hheld⟩ := hheld
  exact ⟨houtside, w', hw', hlike, h.next hlike houtside hdir (hfiles ▸ hheld)⟩

/-- A write has failed, and the event goes on without. -/
theorem Sound.debris (h : w.Sound config disk) {file : EventFile} {debris : Bool}
    (hheld : ∀ left, ∃ w', writer.writing = some w' ∧ w.event.Like w'.event ∧
      w'.stage.Held w'.event
        (Function.update (filesIn config disk w.event.partialDir) file left)) :
    w.GoesOn config disk (leaveDebris config disk w.event.partialDir file debris) writer := by
  obtain ⟨hdir, left, hfiles⟩ := h.dir.leaveDebris file debris
  have houtside := leaveDebris_outside config disk w.event.partialDir file debris
  obtain ⟨w', hw', hlike, hheld⟩ := hheld left
  exact ⟨houtside, w', hw', hlike, h.next hlike houtside hdir (hfiles ▸ hheld)⟩

/-- A call that fails and changes nothing, after which the event goes on. -/
theorem Sound.stay (h : w.Sound config disk)
    (hheld : ∃ w', writer.writing = some w' ∧ w.event.Like w'.event ∧
      w'.stage.Held w'.event (filesIn config disk w.event.partialDir)) :
    w.GoesOn config disk disk writer := by
  obtain ⟨w', hw', hlike, hheld⟩ := hheld
  have houtside := Tree.Outside.refl disk w.event.partialDir
  exact ⟨houtside, w', hw', hlike, h.next hlike houtside h.dir hheld⟩

/-- What an answer can do: the event goes on, it has failed, or it gets its name. -/
theorem answer_cases (hs : w.Sound config disk)
    (h : w.answer config a metrics disk = some (disk', writer)) :
    w.GoesOn config disk disk' writer ∨
    (Tree.Outside disk disk' w.event.partialDir ∧ writer = { metrics := metrics.fail }) ∨
    (∃ shot video bytes, w.stage = .publish shot video ∧ a.result = .ok bytes ∧
      disk.rename w.event.dateDir (partialName w.event.job.id) w.event.dateDir w.event.job.id =
        some disk' ∧
      writer = { metrics := { metrics with eventsCompleted := metrics.eventsCompleted + 1 } }) := by
  have hheld := hs.held
  unfold answer at h
  dsimp only at h
  rcases hstage : w.stage with
      _ | _ | shot | shot | ⟨shot, video⟩ | ⟨shot, video⟩ | ⟨shot, video⟩ <;>
    rcases hresult : a.result with error | bytes <;>
    simp only [hstage, hresult, Option.map_eq_some_iff, Option.some.injEq, Prod.mk.injEq] at h <;>
    rw [hstage] at hheld
  case snapshot.error =>
    obtain ⟨rfl, rfl⟩ := h
    obtain ⟨hrefused, hnone⟩ := hheld
    refine Or.inl (hs.debris fun left => EventWriter.finishSnapshot_held metrics ?_ ?_)
    · refine ⟨⟨.error error, ?_⟩, ?_⟩
      · rw [EventWriter.writeSnapshot_of_refused_none hrefused]
        rfl
      · simp [ArtifactHeld, hnone]
    · simp +contextual [Function.update_of_ne, hnone]
  case snapshot.ok =>
    obtain ⟨_, hwrite, rfl, rfl⟩ := h
    obtain ⟨hrefused, hnone⟩ := hheld
    refine Or.inl (hs.write hwrite ⟨hrefused, by simp, ?_⟩)
    simp +contextual [Function.update_of_ne, hnone]
  case snapshotName.error =>
    obtain ⟨rfl, rfl⟩ := h
    obtain ⟨hrefused, -, hnone⟩ := hheld
    refine Or.inl (hs.stay (EventWriter.finishSnapshot_held metrics ⟨⟨.error error, ?_⟩, ?_⟩ ?_))
    · rw [EventWriter.writeSnapshot_of_refused_none hrefused]
      rfl
    · exact hnone _ (by decide)
    · exact fun file hhidden _ => hnone file hhidden
  case snapshotName.ok =>
    obtain ⟨_, hrename, rfl, rfl⟩ := h
    obtain ⟨hrefused, hjpeg, hnone⟩ := hheld
    refine Or.inl (hs.rename hrename
      (EventWriter.finishSnapshot_held metrics ⟨⟨.ok bytes, ?_⟩, ?_⟩ ?_))
    · rw [EventWriter.writeSnapshot_of_refused_none hrefused]
      rfl
    · exact ⟨by simp [hjpeg], by simp⟩
    · simp +contextual [Function.update_of_ne, hnone]
  case clip.error =>
    obtain ⟨rfl, rfl⟩ := h
    obtain ⟨hrefused, hshot, hhidden, hclip, hmetadataPartial, hmetadata⟩ := hheld
    refine Or.inl (hs.debris fun left => EventWriter.finishClip_held metrics
      (hshot.update (by decide) (by decide) left) ⟨⟨.error error, ?_⟩, ?_⟩ ?_ ?_)
    · rw [EventWriter.muxVideo_of_refused_none hrefused]
      rfl
    · simp [ArtifactHeld, hclip]
    · simp [hmetadataPartial]
    · simp [hmetadata]
  case clip.ok =>
    obtain ⟨_, hwrite, rfl, rfl⟩ := h
    obtain ⟨hrefused, hshot, hhidden, hclip, hmetadataPartial, hmetadata⟩ := hheld
    exact Or.inl (hs.write hwrite ⟨hrefused, hshot.update (by decide) (by decide) _, by simp,
      by simp [hclip], by simp [hmetadataPartial], by simp [hmetadata]⟩)
  case clipName.error =>
    obtain ⟨rfl, rfl⟩ := h
    obtain ⟨hrefused, hshot, -, hclip, hmetadataPartial, hmetadata⟩ := hheld
    refine Or.inl (hs.stay (EventWriter.finishClip_held metrics hshot ⟨⟨.error error, ?_⟩, hclip⟩
      hmetadataPartial hmetadata))
    rw [EventWriter.muxVideo_of_refused_none hrefused]
    rfl
  case clipName.ok =>
    obtain ⟨_, hrename, rfl, rfl⟩ := h
    obtain ⟨hrefused, hshot, hhidden, -, hmetadataPartial, hmetadata⟩ := hheld
    refine Or.inl (hs.rename hrename (EventWriter.finishClip_held metrics
      ((hshot.update (by decide) (by decide) _).update (by decide) (by decide) _)
      ⟨⟨.ok bytes, ?_⟩, ?_⟩ ?_ ?_))
    · rw [EventWriter.muxVideo_of_refused_none hrefused]
      rfl
    · exact ⟨by simp [hhidden], by simp⟩
    · simp [hmetadataPartial]
    · simp [hmetadata]
  case metadata.error =>
    obtain ⟨rfl, rfl⟩ := h
    exact Or.inr (Or.inl ⟨leaveDebris_outside _ _ _ _ _, rfl⟩)
  case metadata.ok =>
    obtain ⟨_, hwrite, rfl, rfl⟩ := h
    obtain ⟨hshot, hclip, -, hmetadata⟩ := hheld
    split
    next => exact Or.inr (Or.inl ⟨(Tree.write_outside hwrite).of_append, rfl⟩)
    next hfine =>
      refine Or.inl (hs.write hwrite ⟨hshot.update (by decide) (by decide) _,
        hclip.update (by decide) (by decide) _, ?_, by simp, by simp [hmetadata]⟩)
      simp only [Bool.or_eq_true, decide_eq_true_eq, Bool.and_eq_true, Bool.not_eq_true',
        decide_eq_false_iff_not, not_or, not_and, Decidable.not_not] at hfine
      exact ⟨hfine.1, or_iff_not_imp_left.mpr hfine.2⟩
  case metadataName.error =>
    obtain ⟨rfl, rfl⟩ := h
    exact Or.inr (Or.inl ⟨.refl _ _, rfl⟩)
  case metadataName.ok =>
    obtain ⟨_, hrename, rfl, rfl⟩ := h
    obtain ⟨hshot, hclip, hfine, hdocument, -⟩ := hheld
    refine Or.inl (hs.rename hrename ⟨_, rfl, .refl _, ?_, ?_, hfine, by simp, by simp [hdocument]⟩)
    · exact (hshot.update (by decide) (by decide) _).update (by decide) (by decide) _
    · exact (hclip.update (by decide) (by decide) _).update (by decide) (by decide) _
  case publish.error =>
    obtain ⟨rfl, rfl⟩ := h
    exact Or.inr (Or.inl ⟨.refl _ _, rfl⟩)
  case publish.ok =>
    obtain ⟨_, hrename, rfl, rfl⟩ := h
    exact Or.inr (Or.inr ⟨shot, video, bytes, rfl, rfl, hrename, rfl⟩)

end Writing

/-! ### Every step -/

/-- A complete event: its metadata, and the artifacts the metadata speaks of. -/
structure Published (config : StoreConfig) (disk : EventDisk) (dir : List String)
    (document : EventDocument) : Prop where
  finalDir : document.event.finalDir = dir
  isDir : EventDir config disk dir
  snapshot : SnapshotHeld document.event (filesIn config disk dir) document.snapshot
  clip : ClipHeld document.event (filesIn config disk dir) document.video
  publishable : Publishable document.snapshot document.video
  metadataPartial : filesIn config disk dir .metadataPartial = none
  metadata : filesIn config disk dir .metadata = some (.file (.document document))

theorem Published.same {config : StoreConfig} {disk disk' : EventDisk} {dir : List String}
    {document : EventDocument} (h : Published config disk dir document)
    (hsame : Tree.Same disk disk' dir) : Published config disk' dir document := by
  obtain ⟨hdir, hfiles⟩ := h.isDir.same hsame
  exact ⟨h.finalDir, hdir, hfiles ▸ h.snapshot, hfiles ▸ h.clip, h.publishable,
    hfiles ▸ h.metadataPartial, hfiles ▸ h.metadata⟩

/-- The hidden directory gets its name. -/
theorem Writing.Sound.published {config : StoreConfig} {disk disk' : EventDisk} {w : Writing}
    {shot video : ArtifactResult} (h : w.Sound config disk) (hstage : w.stage = .publish shot video)
    (hrename : disk.rename w.event.dateDir (partialName w.event.job.id) w.event.dateDir
      w.event.job.id = some disk') :
    Published config disk' w.event.finalDir ⟨w.event, shot, video⟩ := by
  have hheld := h.held
  rw [hstage] at hheld
  obtain ⟨hdir, hfiles⟩ := h.dir.moved hrename
  change filesIn config disk' w.event.finalDir = filesIn config disk w.event.partialDir at hfiles
  rw [← hfiles] at hheld
  obtain ⟨hshot, hclip, hfine, hhidden, hmetadata⟩ := hheld
  exact ⟨rfl, hdir, hshot, hclip, hfine, hhidden, hmetadata⟩

/-- The directory for a new event is new, and nothing else has changed but the one around it. -/
theorem openEventDir_spec (config : StoreConfig) (dateCreated dirCreated : Bool)
    (event : QueuedEvent) (disk : EventDisk) :
    let opened := openEventDir dateCreated dirCreated event disk
    (∀ path, path ≠ event.dateDir → path ≠ event.partialDir →
        opened.1.node path = disk.node path) ∧
      (∀ path, disk.node path ≠ none → opened.1.node path = disk.node path) ∧
      (opened.2 = true → disk.node event.partialDir = none ∧
        EventDir config opened.1 event.partialDir ∧
        (∀ file, filesIn config opened.1 event.partialDir file = none) ∧
        opened.1.node event.finalDir = none) := by
  have hne : event.finalDir ≠ event.partialDir := by
    simpa [QueuedEvent.finalDir, QueuedEvent.partialDir] using partialName_ne event.unhidden_id
  have hdated : ∀ dated, (if !dateCreated then none
      else if Node.isDirectory (disk.node event.dateDir) then some disk
      else disk.mkdir [] (formatDate event.wallTime)) = some dated →
      ∀ path, (path ≠ event.dateDir ∨ disk.node path ≠ none) →
        dated.node path = disk.node path := by
    intro dated h path hpath
    split_ifs at h
    · obtain rfl := Option.some.inj h
      rfl
    · obtain ⟨-, hnone, hnode⟩ := Tree.mkdir_eq_some h
      rw [hnode, Function.update_of_ne]
      rintro rfl
      exact hpath.elim (fun hne => hne rfl) fun hsome => hsome hnone
  unfold openEventDir
  dsimp only
  split
  next => exact ⟨fun _ _ _ => rfl, fun _ _ => rfl, by rintro ⟨⟩⟩
  next dated hcreated =>
    have hkept := hdated dated hcreated
    split_ifs with hused
    · exact ⟨fun path hdate _ => hkept path (.inl hdate), fun path hsome => hkept path (.inr hsome),
        by rintro ⟨⟩⟩
    · simp only [Bool.or_eq_true, Option.isSome_iff_ne_none, Bool.not_eq_true', not_or,
        Decidable.not_not] at hused
      cases hmkdir : dated.mkdir event.dateDir (partialName event.job.id) with
      | none =>
        exact ⟨fun path hdate _ => hkept path (.inl hdate),
          fun path hsome => hkept path (.inr hsome), by rintro ⟨⟩⟩
      | some made =>
        obtain ⟨-, hnone, hnode⟩ := Tree.mkdir_eq_some hmkdir
        obtain ⟨hdir, hentries⟩ := Tree.mkdir_entries hmkdir
        change made.node = Function.update dated.node event.partialDir (some .directory) at hnode
        have hhidden : disk.node event.partialDir = none := by
          by_contra hsome
          rw [← hkept _ (.inr hsome)] at hsome
          exact hsome hused.1.1
        refine ⟨fun path hdate hpath => ?_, fun path hsome => ?_, fun _ =>
          ⟨hhidden, ⟨hdir, fun name _ => hentries name⟩, fun file => hentries _, ?_⟩⟩
        · rw [hnode, Function.update_of_ne hpath, hkept path (.inl hdate)]
        · rw [hnode, Function.update_of_ne, hkept path (.inr hsome)]
          rintro rfl
          exact hsome hhidden
        · rw [hnode, Function.update_of_ne hne, hused.1.2]

theorem not_unhidden_probeName (pid : ℕ) : ¬ Unhidden (probeName pid) :=
  not_unhidden_append (by decide +kernel) _

/-- A start of the recorder leaves all but its probe as it is. -/
theorem initializeStore_node (pid : ℕ) (a : StartAnswer) (disk : EventDisk) (path : List String)
    (h : path ≠ [probeName pid]) : (initializeStore pid a disk).1.node path = disk.node path := by
  unfold initializeStore
  split
  · rfl
  · split
    · rfl
    next written hwrite =>
      have hwritten : written.node path = disk.node path := by
        rw [(Tree.write_eq_some hwrite).2, Function.update_of_ne (by simpa using h)]
      split
      · exact hwritten
      · dsimp only
        split
        · cases hremove : written.remove [] (probeName pid) with
          | none => exact hwritten
          | some removed =>
            rw [Option.getD_some, Tree.remove_eq_some hremove,
              Function.update_of_ne (by simpa using h), hwritten]
        · exact hwritten

namespace EventStore

variable {config : StoreConfig} {start s s' : EventStore} {action : StoreAction}

/-- The event that is being written. -/
def current (s : EventStore) : Option Writing := s.writer.bind EventWriter.writing

def Sound (config : StoreConfig) (s : EventStore) : Prop :=
  ∀ w, s.current = some w → w.Sound config s.disk

theorem tear_outside (config : StoreConfig) (debris : Bool) (disk : EventDisk)
    (writer : EventWriter) {path : List String}
    (h : ∀ w, writer.writing = some w → ¬ w.event.partialDir <+: path) :
    (tear config debris disk writer).node path = disk.node path := by
  unfold tear
  split
  · rfl
  next w hw =>
    split
    · rfl
    · exact leaveDebris_outside config disk w.event.partialDir _ debris path (h w hw)

/-- What a step can do to the disk, and which event is written after it. -/
inductive Effect (config : StoreConfig) (s s' : EventStore) : StoreAction → Prop
  | probed (pid : ℕ) (a : StartAnswer) :
    (∀ path, path ≠ [probeName pid] → s'.disk.node path = s.disk.node path) →
    s'.current = none → Effect config s s' (.start pid a)
  | opened (event : QueuedEvent) (dateCreated dirCreated : Bool) :
    (∀ path, path ≠ event.dateDir → path ≠ event.partialDir →
      s'.disk.node path = s.disk.node path) →
    (∀ path, s.disk.node path ≠ none → s'.disk.node path = s.disk.node path) →
    (∀ w, s'.current = some w → event.Like w.event ∧ s.disk.node event.partialDir = none ∧
      w.Sound config s'.disk) → Effect config s s' (.take event dateCreated dirCreated)
  | within (w : Writing) (action : StoreAction) : s.current = some w →
    Tree.Outside s.disk s'.disk w.event.partialDir →
    (∀ w', s'.current = some w' → w.event.Like w'.event ∧ w'.Sound config s'.disk) →
    Effect config s s' action
  | published (w : Writing) (shot video : ArtifactResult) (bytes : ℕ) (debris : Bool) :
    s.current = some w → w.stage = .publish shot video → s'.current = none →
    s.disk.rename w.event.dateDir (partialName w.event.job.id) w.event.dateDir w.event.job.id =
      some s'.disk → Effect config s s' (.answer ⟨.ok bytes, debris⟩)
  | killed (debris : Bool) : s'.disk = s.disk → s'.current = none →
    Effect config s s' (.crash debris)

theorem step_effect (hs : s.Sound config) (h : s.step config action = some s') :
    Effect config s s' action := by
  rcases s with ⟨disk, writer⟩
  cases action with
  | start pid a =>
    rcases writer with _ | writer
    · have hnode := initializeStore_node pid a disk
      simp only [step] at h
      rcases hinit : initializeStore pid a disk with ⟨disk', _ | _⟩ <;>
        rw [hinit] at h hnode <;> obtain rfl := Option.some.inj h
      · exact .probed pid a hnode rfl
      · exact .probed pid a hnode rfl
    · cases h
  | take event dateCreated dirCreated =>
    rcases writer with _ | ⟨metrics, _ | w⟩
    · cases h
    · obtain ⟨hother, hkept, hnew⟩ := openEventDir_spec config dateCreated dirCreated event disk
      simp only [step] at h
      split at h
      next disk' hopen =>
        obtain rfl := Option.some.inj h
        rw [hopen] at hother hkept
        exact .opened event _ _ hother hkept (by rintro w ⟨⟩)
      next disk' hopen =>
        obtain rfl := Option.some.inj h
        rw [hopen] at hother hkept hnew
        obtain ⟨hnone, hdir, hempty, hfinal⟩ := hnew rfl
        refine .opened event _ _ hother hkept fun w hw => ?_
        obtain ⟨w', hw', hlike, hheld⟩ := EventWriter.begin_held metrics hempty
        obtain rfl : w' = w := Option.some.inj (hw'.symm.trans hw)
        exact ⟨hlike, hnone, by rwa [hlike.partialDir], by rwa [hlike.partialDir],
          by rwa [hlike.finalDir]⟩
    · cases h
  | answer a =>
    rcases writer with _ | ⟨metrics, _ | w⟩
    · cases h
    · cases h
    · obtain ⟨⟨disk', writer'⟩, hanswer, rfl⟩ := Option.map_eq_some_iff.mp h
      rcases Writing.answer_cases (hs w rfl) hanswer with
        ⟨houtside, w', hw', hlike, hsound⟩ | ⟨houtside, rfl⟩ |
          ⟨shot, video, bytes, hstage, hresult, hrename, rfl⟩
      · refine .within w _ rfl houtside fun w'' hw'' => ?_
        obtain rfl : w' = w'' := Option.some.inj (hw'.symm.trans hw'')
        exact ⟨hlike, hsound⟩
      · exact .within w _ rfl houtside (by rintro _ ⟨⟩)
      · obtain ⟨result, debris⟩ := a
        obtain rfl : result = .ok bytes := hresult
        exact .published w shot video bytes debris rfl hstage rfl hrename
  | crash debris =>
    rcases writer with _ | ⟨metrics, _ | w⟩
    · cases h
    · obtain rfl := Option.some.inj h
      exact .killed debris rfl rfl
    · obtain rfl := Option.some.inj h
      refine .within w _ rfl (fun path hpath => ?_) (by rintro _ ⟨⟩)
      refine tear_outside config debris disk _ fun w' hw' => ?_
      obtain rfl : w = w' := Option.some.inj hw'
      exact hpath

theorem Effect.sound (h : Effect config s s' action) : s'.Sound config := by
  intro w' hw'
  cases h with
  | probed _ _ _ hidle | published _ _ _ _ _ _ _ hidle _ | killed _ _ hidle =>
    rw [hidle] at hw'
    cases hw'
  | opened _ _ _ _ _ hnew => exact (hnew w' hw').2.2
  | within _ _ _ _ hnext => exact (hnext w' hw').2

/-- The start has no process, or one that is not at an event. -/
theorem sound_of_reachable (hstart : start.current = none)
    (h : Reachable (step config) start s) : s.Sound config := by
  refine h.invariant (EventStore.Sound config) (by simp [EventStore.Sound, hstart]) ?_
  intro s action s' hs hstep
  exact (step_effect hs hstep).sound

/-- Nothing at or below an event that has its name is touched. -/
theorem Effect.same {date id : String} (h : Effect config s s' action) (hs : s.Sound config)
    (hid : Unhidden id) (hthere : s.disk.node [date, id] ≠ none) :
    Tree.Same s.disk s'.disk [date, id] := by
  cases h with
  | probed _ _ hnode _ => exact fun rest => hnode _ (by simp)
  | opened event _ _ hother _ _ =>
    refine fun rest => hother _ (by simp [QueuedEvent.dateDir]) fun heq => ?_
    exact event.partialDir_not_prefix hid rest ⟨[], by rw [List.append_nil, heq]⟩
  | within w _ _ houtside _ => exact houtside.same (w.event.partialDir_not_prefix hid)
  | published w _ _ _ _ hw _ _ hrename =>
    intro rest
    rw [QueuedEvent.published_node hrename, moved_apart]
    · exact w.event.partialDir_not_prefix hid rest
    · rintro ⟨more, hmore⟩
      obtain ⟨hdir, -⟩ := List.append_inj hmore rfl
      exact hthere (hdir ▸ (hs w hw).unnamed)
  | killed _ hdisk _ =>
    rw [hdisk]
    exact .refl _ _

/-- A name appears when its event is complete. -/
theorem Effect.appears {date id : String} (h : Effect config s s' action) (hs : s.Sound config)
    (hid : Unhidden id) (hnone : s.disk.node [date, id] = none)
    (hsome : s'.disk.node [date, id] ≠ none) :
    ∃ document, Published config s'.disk [date, id] document := by
  have hsame : s'.disk.node [date, id] ≠ s.disk.node [date, id] := by rwa [hnone]
  cases h with
  | probed _ _ hnode _ => exact absurd (hnode _ (by simp)) hsame
  | opened event _ _ hother _ _ =>
    refine absurd (hother _ (by simp [QueuedEvent.dateDir]) fun heq => ?_) hsame
    exact event.partialDir_not_prefix hid [] ⟨[], by rw [← heq]⟩
  | within w _ _ houtside _ =>
    exact absurd (houtside _ (w.event.partialDir_not_prefix hid [])) hsame
  | published w shot video _ _ hw hstage _ hrename =>
    have hdocument := (hs w hw).published hstage hrename
    by_cases hdir : w.event.finalDir = [date, id]
    · rw [hdir] at hdocument
      exact ⟨_, hdocument⟩
    · rw [QueuedEvent.published_node hrename, moved_apart] at hsame
      · exact absurd rfl hsame
      · exact w.event.partialDir_not_prefix hid []
      · rintro ⟨more, hmore⟩
        obtain ⟨hdir', -⟩ := List.append_inj (hmore.trans (List.append_nil _).symm) rfl
        exact hdir hdir'
  | killed _ hdisk _ =>
    rw [hdisk] at hsame
    exact absurd rfl hsame

/-- What is not the probe and not below the directory that is written stays, and is not written in
the next step either. -/
theorem Effect.kept {path : List String} (h : Effect config s s' action)
    (hthere : s.disk.node path ≠ none) (hprobe : ∀ pid, path ≠ [probeName pid])
    (hs : s.Sound config) (hwriting : ∀ w, s.current = some w → ¬ w.event.partialDir <+: path) :
    s'.disk.node path = s.disk.node path ∧
      ∀ w', s'.current = some w' → ¬ w'.event.partialDir <+: path := by
  cases h with
  | probed pid _ hnode hidle => exact ⟨hnode _ (hprobe pid), by simp [hidle]⟩
  | opened event _ _ _ hkept hnew =>
    refine ⟨hkept path hthere, fun w' hw' hpre => ?_⟩
    obtain ⟨hlike, hnone, -⟩ := hnew w' hw'
    exact hthere (Tree.none_of_prefix hnone (hlike.partialDir ▸ hpre))
  | within w _ hw houtside hnext =>
    refine ⟨houtside path (hwriting w hw), fun w' hw' hpre => ?_⟩
    exact hwriting w hw ((hnext w' hw').1.partialDir ▸ hpre)
  | published w _ _ _ _ hw _ hidle hrename =>
    refine ⟨?_, by simp [hidle]⟩
    rw [QueuedEvent.published_node hrename, moved_apart (hwriting w hw)]
    exact fun hpre => hthere (Tree.none_of_prefix (hs w hw).unnamed hpre)
  | killed _ hdisk hidle => exact ⟨by rw [hdisk], by simp [hidle]⟩

/-! ### Every run -/

/-- **A published event is complete**, through failures and crashes: whatever has a name that is
not hidden was there from the beginning and is as it was, or has all that its metadata says. -/
theorem published_complete {date id : String} (hstart : start.writer = none)
    (h : Reachable (step config) start s) (hid : Unhidden id)
    (hthere : s.disk.node [date, id] ≠ none) :
    (start.disk.node [date, id] ≠ none ∧ Tree.Same start.disk s.disk [date, id]) ∨
      ∃ document, Published config s.disk [date, id] document := by
  have hidle : start.current = none := by rw [current, hstart]; rfl
  suffices hinv : s.Sound config ∧ (s.disk.node [date, id] ≠ none →
      (start.disk.node [date, id] ≠ none ∧ Tree.Same start.disk s.disk [date, id]) ∨
        ∃ document, Published config s.disk [date, id] document) from hinv.2 hthere
  refine h.invariant (fun s => s.Sound config ∧ (s.disk.node [date, id] ≠ none →
      (start.disk.node [date, id] ≠ none ∧ Tree.Same start.disk s.disk [date, id]) ∨
        ∃ document, Published config s.disk [date, id] document))
    ⟨by simp [Sound, hidle], fun hsome => Or.inl ⟨hsome, .refl _ _⟩⟩ ?_
  rintro s action s' ⟨hs, hdir⟩ hstep
  have heffect := step_effect hs hstep
  refine ⟨heffect.sound, fun hsome => ?_⟩
  by_cases hbefore : s.disk.node [date, id] = none
  · exact Or.inr (heffect.appears hs hid hbefore hsome)
  · have hsame := heffect.same hs hid hbefore
    rcases hdir hbefore with ⟨hold, hkept⟩ | ⟨document, hdocument⟩
    · exact Or.inl ⟨hold, hkept.trans hsame⟩
    · exact Or.inr ⟨document, hdocument.same hsame⟩

def someQueuedEvent : QueuedEvent where
  job :=
    { id := formatEventId someWallTime 7
      triggerSequence := 7
      generation := 1
      units := [.ofTest 100 1 true 8] }
  wallTime := someWallTime
  id_eq := rfl

/-- An event without a snapshot, from the start of the process to its name. -/
def publishing : List StoreAction :=
  [.start 1 {}, .take someQueuedEvent true true] ++ List.replicate 5 (.answer ⟨.ok 10, false⟩)

theorem exists_publishing : ∃ s, Reachable (step {}) ⟨Tree.empty, none⟩ s ∧
    (Node.isDirectory (s.disk.node ["2026-01-02", "20260102T030405.006+0100_seq7"]) = true ∧
      s.current.isNone = true ∧ (s.step {} (.crash false)).isSome = true) :=
  exists_reachable (step {}) ⟨Tree.empty, none⟩ publishing _ (by rfl)

theorem unhidden_id_of_someWallTime : Unhidden "20260102T030405.006+0100_seq7" :=
  unhidden_formatEventId someWallTime 7

theorem published_complete_one : ∃ s, Reachable (step {}) ⟨Tree.empty, none⟩ s ∧
    ∃ document, Published {} s.disk ["2026-01-02", "20260102T030405.006+0100_seq7"] document := by
  obtain ⟨s, hreach, hdir, -, -⟩ := exists_publishing
  have hthere := Node.isDirectory_iff.mp hdir
  refine ⟨s, hreach, (published_complete rfl hreach unhidden_id_of_someWallTime
    (by simp [hthere])).resolve_left ?_⟩
  rintro ⟨hthere, -⟩
  exact hthere rfl

/-- **Nothing is lost.** What is on the disk stays on it, as it is, whatever comes: other events,
crashes, and processes that start again. The exceptions are the probe of a start, and the hidden
directory of the event that is being written. In an event that has its name nothing is added
either. -/
theorem nothing_lost (hstart : start.writer = none) (h : Reachable (step config) start s)
    (hlater : Reachable (step config) s s') :
    (∀ path, s.disk.node path ≠ none → (∀ pid, path ≠ [probeName pid]) →
      (∀ w, s.current = some w → ¬ w.event.partialDir <+: path) →
      s'.disk.node path = s.disk.node path) ∧
    ∀ date id, Unhidden id → s.disk.node [date, id] ≠ none →
      Tree.Same s.disk s'.disk [date, id] := by
  have hidle : start.current = none := by rw [current, hstart]; rfl
  have hs := sound_of_reachable hidle h
  constructor
  · intro path hthere hprobe hwriting
    refine (hlater.invariant (fun t => t.Sound config ∧ t.disk.node path = s.disk.node path ∧
      ∀ w, t.current = some w → ¬ w.event.partialDir <+: path) ⟨hs, rfl, hwriting⟩ ?_).2.1
    rintro t action t' ⟨ht, hnode, hw⟩ hstep
    have heffect := step_effect ht hstep
    obtain ⟨hkept, hw'⟩ := heffect.kept (hnode ▸ hthere) hprobe ht hw
    exact ⟨heffect.sound, hkept.trans hnode, hw'⟩
  · intro date id hid hthere
    refine (hlater.invariant (fun t => t.Sound config ∧ Tree.Same s.disk t.disk [date, id])
      ⟨hs, .refl _ _⟩ ?_).2
    rintro t action t' ⟨ht, hsame⟩ hstep
    have heffect := step_effect ht hstep
    exact ⟨heffect.sound, hsame.trans (heffect.same ht hid (hsame.node ▸ hthere))⟩

/-- The process is killed, and another one starts. -/
theorem nothing_lost_restart : ∃ s s', Reachable (step {}) ⟨Tree.empty, none⟩ s ∧
    Reachable (step {}) s s' ∧ s'.disk.node ["2026-01-02"] = s.disk.node ["2026-01-02"] ∧
    Tree.Same s.disk s'.disk ["2026-01-02", "20260102T030405.006+0100_seq7"] := by
  obtain ⟨s, hreach, hdir, hidle, hcrash⟩ := exists_publishing
  have hthere := Node.isDirectory_iff.mp hdir
  have hdate := s.disk.rooted ["2026-01-02"] "20260102T030405.006+0100_seq7" (by simp [hthere])
  obtain ⟨s', hs'⟩ := Option.isSome_iff_exists.mp hcrash
  have hlater : Reachable (step {}) s s' := Reachable.refl.tail hs'
  have hkept := nothing_lost rfl hreach hlater
  refine ⟨s, s', hreach, hlater, hkept.1 _ (by simp [hdate]) (fun pid h => ?_) ?_,
    hkept.2 _ _ unhidden_id_of_someWallTime (by simp [hthere])⟩
  · exact not_unhidden_probeName pid ((List.cons.inj h).1 ▸ unhidden_formatDate someWallTime)
  · rw [Option.isNone_iff_eq_none.mp hidle]
    rintro _ ⟨⟩

end EventStore

end EggVision
