import Guardata.Machine.Run
import Guardata.Proofs.FileSync

/-! # The blocks of uploaded manifests

A manifest is computed under the entry lock, and its blocks are uploaded without. `_upload_blocks` takes a
block that it does not find for an uploaded one. Between the two, a call on a descriptor may replace a chunk
of the file, and delete the block with the next write to disk. Then the uploaded version refers to a block
that nobody has. Where no step deletes such a block, every version can be read.
-/

namespace Guardata

open Machine Coroutine

/-- A coroutine that is not at its end. -/
def Waiting {α : Type} (rest : Transaction α) : Prop := ∃ update next, rest = .atomic update next

/-- The stage keeps to the discipline, and is given what it relies on. -/
def SyncStage.Sound (world : World) (holds : Bool) : SyncStage → Prop
  | .loading => holds = false
  | .stepping remote _ rest => world.Knows remote ∧ Waiting rest ∧
      rest.Follows fileDiscipline (fun _ => True) (fun side result world => side = false ∧
        Ends (fun toUpload world => world.Uploads toUpload) (fun _ => True) result world) holds world
  | .reshaping remote _ rest => world.Knows remote ∧ Waiting rest ∧
      rest.Follows fileDiscipline (fun _ => True) (fun side result world => side = false ∧
        Ends (fun _ _ => True) (fun _ => True) result world) holds world
  | .downloading remote _ rest => world.Knows remote ∧ Waiting rest ∧
      rest.Follows fileDiscipline (fun _ => True) (fun side result world => side = false ∧
        Ends (fun _ _ => True) (fun _ => True) result world) holds world
  | .uploading manifest rest => manifest.WellFormed world.nextId ∧ Waiting rest ∧
      rest.Follows fileDiscipline (fun world => world.InFlight manifest) (fun side result world =>
        side = false ∧ Ends (fun _ world => manifest.Complete world.backend) (fun _ => True) result world)
        holds world
  | .publishing manifest => holds = false ∧ manifest.WellFormed world.nextId ∧
      manifest.Complete world.backend
  | .reloading => holds = false

def FileTask.Sound (world : World) (holds : Bool) : FileTask → Prop
  | .call rest => Waiting rest ∧ rest.Follows fileDiscipline (fun _ => True)
      (fun side result world => side = false ∧ Ends (fun _ _ => True) (fun _ => True) result world) holds
      world
  | .sync stage => stage.Sound world holds

section Sound

variable {world after : World} {holds : Bool}

theorem follows_of_rely {α : Type} {assume : World → Prop} {post : Bool → Except FileError α → World → Prop}
    {rest : Transaction α} (waiting : Waiting rest)
    (follows : rest.Follows fileDiscipline assume post holds world)
    (moved : fileDiscipline.rely holds world after) :
    rest.Follows fileDiscipline assume post holds after := by
  obtain ⟨update, next, rfl⟩ := waiting
  exact follows.rely moved

theorem SyncStage.Sound.rely {stage : SyncStage} (sound : stage.Sound world holds)
    (moved : fileDiscipline.rely holds world after) : stage.Sound after holds := by
  have grows : world.Grows after := fileDiscipline.grows_of_rely moved
  cases stage with
  | loading => exact sound
  | stepping remote final rest =>
    exact ⟨sound.1.of_grows grows, sound.2.1, follows_of_rely sound.2.1 sound.2.2 moved⟩
  | reshaping remote final rest =>
    exact ⟨sound.1.of_grows grows, sound.2.1, follows_of_rely sound.2.1 sound.2.2 moved⟩
  | downloading remote final rest =>
    exact ⟨sound.1.of_grows grows, sound.2.1, follows_of_rely sound.2.1 sound.2.2 moved⟩
  | uploading manifest rest =>
    exact ⟨LocalFileManifest.WellFormed.mono sound.1 grows.drawn, sound.2.1,
      follows_of_rely sound.2.1 sound.2.2 moved⟩
  | publishing manifest =>
    exact ⟨sound.1, LocalFileManifest.WellFormed.mono sound.2.1 grows.drawn,
      fun access member => grows.has _ (sound.2.2 access member)⟩
  | reloading => exact sound

theorem FileTask.Sound.rely {task : FileTask} (sound : task.Sound world holds)
    (moved : fileDiscipline.rely holds world after) : task.Sound after holds := by
  cases task with
  | call rest => exact ⟨sound.1, follows_of_rely sound.1 sound.2 moved⟩
  | sync stage => exact SyncStage.Sound.rely sound moved

end Sound

/-- What is about to be uploaded can be uploaded, or has been. -/
def SyncStage.InFlight (world : World) : SyncStage → Prop
  | .uploading manifest _ => world.InFlight manifest
  | _ => True

section Stages

variable {localAuthor : DeviceID} {world : World} {holds confined final : Bool}
  {remote : Option RemoteFileManifest} {stage : SyncStage}

theorem sound_beginStep (knows : world.Knows remote) :
    (SyncStage.beginStep localAuthor confined remote final).Sound world false :=
  ⟨knows, ⟨_, _, rfl⟩, runs_synchronizationStep localAuthor confined final world knows⟩

theorem sound_fileReshape (knows : world.Knows remote) :
    (SyncStage.reshaping remote final Transaction.fileReshape).Sound world false :=
  ⟨knows, ⟨_, _, rfl⟩, runs_fileReshape world trivial⟩

theorem sound_goOnUploading {manifest : RemoteFileManifest} {rest : Transaction Unit}
    (wellFormed : manifest.WellFormed world.nextId) (inFlight : world.InFlight manifest)
    (follows : rest.Follows fileDiscipline (fun world => world.InFlight manifest)
      (fun side result world => side = false ∧
        Ends (fun _ world => manifest.Complete world.backend) (fun _ => True) result world) holds world)
    (goes : SyncStage.goOnUploading world manifest rest = some stage) :
    stage.Sound world holds ∧ stage.InFlight world := by
  cases rest with
  | ret _ =>
    cases goes
    obtain ⟨positive, layout, drawn, named⟩ := wellFormed
    exact ⟨⟨follows.1, ⟨positive, layout, drawn, named⟩, follows.2⟩, trivial⟩
  | raise _ => cases goes
  | atomic update next =>
    cases goes
    exact ⟨⟨wellFormed, ⟨_, _, rfl⟩, follows⟩, inFlight⟩

theorem sound_goOnStepping {rest : Transaction (Option RemoteFileManifest)} (knows : world.Knows remote)
    (follows : rest.Follows fileDiscipline (fun _ => True) (fun side result world => side = false ∧
      Ends (fun toUpload world => world.Uploads toUpload) (fun _ => True) result world) holds world)
    (goes : SyncStage.goOnStepping world remote final rest = some stage) :
    stage.Sound world holds ∧ stage.InFlight world := by
  cases rest with
  | ret toUpload =>
    obtain ⟨rfl, uploads⟩ := follows
    cases toUpload with
    | none => cases goes
    | some manifest =>
      obtain ⟨wellFormed, inFlight⟩ := uploads manifest rfl
      exact sound_goOnUploading wellFormed inFlight (runs_uploadBlocks manifest world trivial) goes
  | raise error =>
    obtain ⟨rfl, -⟩ := follows
    cases error with
    | reshapingRequired =>
      cases goes
      exact ⟨sound_fileReshape knows, trivial⟩
    | _ => cases goes
  | atomic update next =>
    cases goes
    exact ⟨⟨knows, ⟨_, _, rfl⟩, follows⟩, trivial⟩

theorem sound_goOnDownloading {rest : Transaction Unit} (knows : world.Knows remote)
    (follows : rest.Follows fileDiscipline (fun _ => True) (fun side result world => side = false ∧
      Ends (fun _ _ => True) (fun _ => True) result world) holds world)
    (goes : SyncStage.goOnDownloading remote final rest = some stage) :
    stage.Sound world holds ∧ stage.InFlight world := by
  cases rest with
  | ret _ =>
    obtain ⟨rfl, -⟩ := follows
    cases goes
    exact ⟨sound_fileReshape knows, trivial⟩
  | raise _ => cases goes
  | atomic update next =>
    cases goes
    exact ⟨⟨knows, ⟨_, _, rfl⟩, follows⟩, trivial⟩

theorem sound_goOnReshaping {rest : Transaction (List BlockAccess)} (knows : world.Knows remote)
    (follows : rest.Follows fileDiscipline (fun _ => True) (fun side result world => side = false ∧
      Ends (fun _ _ => True) (fun _ => True) result world) holds world)
    (goes : SyncStage.goOnReshaping localAuthor confined remote final rest = some stage) :
    stage.Sound world holds ∧ stage.InFlight world := by
  cases rest with
  | ret missing =>
    obtain ⟨rfl, -⟩ := follows
    cases missing with
    | nil =>
      cases goes
      exact ⟨sound_beginStep knows, trivial⟩
    | cons access rest =>
      have goes : SyncStage.goOnDownloading remote final (Transaction.loadBlocks (access :: rest)) =
        some stage := goes
      exact sound_goOnDownloading knows (runs_loadBlocks _ world trivial) goes
  | raise _ => cases goes
  | atomic update next =>
    cases goes
    exact ⟨⟨knows, ⟨_, _, rfl⟩, follows⟩, trivial⟩

theorem sound_callProgress {rest : Transaction Unit} {task : FileTask}
    (follows : rest.Follows fileDiscipline (fun _ => True) (fun side result world => side = false ∧
      Ends (fun _ _ => True) (fun _ => True) result world) holds world)
    (goes : FileSync.callProgress rest = some task) : task.Sound world holds := by
  cases rest with
  | ret _ => cases goes
  | raise _ => cases goes
  | atomic update next =>
    cases goes
    exact ⟨⟨_, _, rfl⟩, follows⟩

end Stages

namespace FileSync

/-- A step deletes a block that a manifest on its way to the backend refers to, and that the backend
does not have. -/
def LosesBlock (system next : FileSync) : Prop :=
  ∃ task manifest rest, system.tasks task = some (.sync (.uploading manifest rest)) ∧
    ∃ access ∈ manifest.blocks, ¬ system.world.backend.Has access.id ∧
      system.world.storage.chunkStorage access.id ≠ none ∧
      next.world.storage.chunkStorage access.id = none

/-- The invariant, when `holder` has the entry lock. -/
structure Sound (system : FileSync) (holder : Option ℕ) : Prop where
  consistent : system.world.Consistent
  locked : holder.isSome → system.world.storage.locked = true
  known : ∀ task, holder = some task → (system.tasks task).isSome
  tasks : ∀ task progress, system.tasks task = some progress →
    progress.Sound system.world (decide (holder = some task))
  inFlight : ∀ task stage, system.tasks task = some (.sync stage) → stage.InFlight system.world

variable {system : FileSync} {holder : Option ℕ}

theorem inFlight_of_not_losesBlock {next : FileSync} (safe : ¬ system.LosesBlock next)
    (grows : system.world.Grows next.world) {task : ℕ} {stage : SyncStage}
    (stands : system.tasks task = some (.sync stage)) (inFlight : stage.InFlight system.world) :
    stage.InFlight next.world := by
  cases stage with
  | uploading manifest rest =>
    intro access member
    rcases inFlight access member with ⟨data, stored⟩ | has
    · by_cases has : system.world.backend.Has access.id
      · exact .inr (grows.has _ has)
      · cases later : next.world.storage.chunkStorage access.id with
        | some data => exact .inl ⟨data, later⟩
        | none =>
          refine absurd ⟨task, manifest, rest, stands, access, member, has, ?_, later⟩ safe
          rw [stored]
          exact Option.some_ne_none data
    · exact .inr (grows.has _ has)
  | _ => trivial

/-- The step lemma: one action of a task, which takes it to its next stage. -/
theorem Sound.setTask (sound : system.Sound holder) {task : ℕ} {after : World} {progress : Option FileTask}
    (consistent : after.Consistent) (grows : system.world.Grows after)
    (moves : fileDiscipline.Moves (decide (holder = some task)) system.world after)
    (ends : ∀ next, progress = some next →
      next.Sound after (fileDiscipline.holdsAfter (decide (holder = some task)) system.world after))
    (inFlight : ∀ stage, progress = some (.sync stage) → stage.InFlight after)
    (safe : ¬ system.LosesBlock (system.setTask task after progress)) :
    ∃ holder, (system.setTask task after progress).Sound holder := by
  obtain ⟨locked, others⟩ := Discipline.turn sound.locked grows moves
  let next := fileDiscipline.holderAfter holder task system.world after
  have elsewhere (other : ℕ) (different : other ≠ task) :
      (system.setTask task after progress).tasks other = system.tasks other :=
    Function.update_of_ne different ..
  have here : (system.setTask task after progress).tasks task = progress := Function.update_self ..
  -- The task that has ended, if it has, gives up the lock.
  refine ⟨if progress = none ∧ next = some task then none else next, consistent, fun held => ?_,
    fun other holds => ?_, fun other found stands => ?_, fun other stage stands => ?_⟩
  · split at held
    · cases held
    · exact locked held
  · split at holds
    · cases holds
    · next kept =>
      by_cases different : other = task
      · subst different
        rw [here]
        exact Option.isSome_iff_ne_none.mpr fun ended => kept ⟨ended, holds⟩
      · rw [elsewhere other different]
        exact sound.known other ((others other different).2.mp holds)
  · by_cases different : other = task
    · subst different
      rw [here] at stands
      have side : (if progress = none ∧ next = some other then none else next) = next :=
        if_neg fun both => by
          rw [stands] at both
          cases both.1
      rw [side]
      have same : decide (next = some other) =
          fileDiscipline.holdsAfter (decide (holder = some other)) system.world after := by
        rw [Bool.eq_iff_iff, decide_eq_true_iff]
        exact Discipline.holderAfter_eq_actor_iff
      rw [same]
      exact ends found stands
    · rw [elsewhere other different] at stands
      have same : decide ((if progress = none ∧ next = some task then none else next) = some other) =
          decide (holder = some other) := by
        rw [decide_eq_decide, ← (others other different).2]
        split
        · next both =>
          change _ ↔ next = some other
          rw [both.2]
          refine ⟨fun is => ?_, fun is => absurd (Option.some.inj is).symm different⟩
          cases is
        · exact Iff.rfl
      rw [same]
      exact (sound.tasks other found stands).rely (others other different).1
  · by_cases different : other = task
    · subst different
      rw [here] at stands
      exact inFlight stage stands
    · rw [elsewhere other different] at stands
      exact inFlight_of_not_losesBlock safe grows stands (sound.inFlight other stage stands)

theorem holdsAfter_self (world : World) : fileDiscipline.holdsAfter false world world = false := by
  simp [Discipline.holdsAfter]

/-- A task begins, or does something that the world does not notice. -/
theorem Sound.setTask_self (sound : system.Sound holder) {task : ℕ} {progress : Option FileTask}
    (outside : ¬ holder = some task) (ends : ∀ next, progress = some next → next.Sound system.world false)
    (inFlight : ∀ stage, progress = some (.sync stage) → stage.InFlight system.world)
    (safe : ¬ system.LosesBlock (system.setTask task system.world progress)) :
    ∃ holder, (system.setTask task system.world progress).Sound holder := by
  refine sound.setTask sound.consistent (.refl _) (fun _ => .inr (World.Spares.refl _)) (fun next is => ?_)
    inFlight safe
  rw [decide_eq_false outside, holdsAfter_self]
  exact ends next is

theorem Sound.outside (sound : system.Sound holder) {task : ℕ} (idle : ¬ (system.tasks task).isSome) :
    ¬ holder = some task :=
  fun holds => idle (sound.known task holds)

variable {localAuthor : DeviceID}

/-- The step lemma for the next action of a transaction. -/
theorem Sound.advance (sound : system.Sound holder) {task : ℕ} {progress : Option FileTask} {α : Type}
    {assume : World → Prop} {post : Bool → Except FileError α → World → Prop} {rest later : Transaction α}
    {after : World}
    (follows : rest.Follows fileDiscipline assume post (decide (holder = some task)) system.world)
    (assumed : assume system.world) (advanced : rest.advance system.world = some (later, after))
    (ends : ∀ holds next, later.Follows fileDiscipline assume post holds after → system.world.Grows after →
      progress = some next → next.Sound after holds ∧ ∀ stage, next = .sync stage → stage.InFlight after)
    (safe : ¬ system.LosesBlock (system.setTask task after progress)) :
    ∃ holder, (system.setTask task after progress).Sound holder := by
  have held : decide (holder = some task) = true → fileDiscipline.locked system.world = true := by
    intro holds
    exact sound.locked (by rw [of_decide_eq_true holds]; rfl)
  obtain ⟨consistent, grows, moves, continues⟩ := follows.advance (fileDiscipline.rely_refl _ _)
    sound.consistent assumed held advanced
  refine sound.setTask consistent grows moves (fun next is => ?_) (fun stage is => ?_) safe
  · exact (ends _ next continues grows is).1
  · exact (ends _ _ continues grows is).2 stage rfl

theorem exists_of_map_sync {stage : Option SyncStage} {next : FileTask} (is : stage.map .sync = some next) :
    ∃ found, stage = some found ∧ next = .sync found := by
  obtain ⟨found, here, rfl⟩ := Option.map_eq_some_iff.mp is
  exact ⟨found, here, rfl⟩

theorem knows_getLast? (consistent : system.world.Consistent) :
    system.world.Knows system.world.backend.versions.getLast? :=
  fun version is => consistent.versions version (List.mem_of_getLast? is)

/-- What an upload comes to. -/
theorem publish_cases (system : FileSync) (localAuthor : DeviceID) (task : ℕ) (confined : Bool)
    (manifest : RemoteFileManifest) :
    system.publish localAuthor task confined manifest =
        system.setStage task system.world (some .reloading) ∨
      system.publish localAuthor task confined manifest = system.setStage task system.world none ∨
      system.publish localAuthor task confined manifest = system.setStage task
        { system.world with backend := { system.world.backend with
          versions := system.world.backend.versions ++ [manifest] } }
        (some (.beginStep localAuthor confined (some manifest) true)) := by
  unfold publish
  dsimp only
  split
  · exact .inl rfl
  · split
    · exact .inr (.inl rfl)
    · exact .inr (.inr rfl)

/-- An uploaded manifest refers to blocks that the backend has. -/
theorem Sound.publish (sound : system.Sound holder) {task : ℕ} {manifest : RemoteFileManifest}
    (confined : Bool) (stands : system.tasks task = some (.sync (.publishing manifest)))
    (safe : ¬ system.LosesBlock (system.publish localAuthor task confined manifest)) :
    ∃ holder, (system.publish localAuthor task confined manifest).Sound holder := by
  obtain ⟨free, wellFormed, complete⟩ := sound.tasks task _ stands
  have outside : ¬ holder = some task := of_decide_eq_false free
  rcases publish_cases system localAuthor task confined manifest with is | is | is
  · rw [is] at safe ⊢
    refine sound.setTask_self outside (fun next is => ?_) (fun stage is => ?_) safe
    · cases is
      exact rfl
    · cases is
      trivial
  · rw [is] at safe ⊢
    refine sound.setTask_self outside (fun next is => ?_) (fun stage is => ?_) safe
    · cases is
    · cases is
  · rw [is] at safe ⊢
    have spares : system.world.Spares { system.world with backend := { system.world.backend with
        versions := system.world.backend.versions ++ [manifest] } } :=
      ⟨⟨fun _ => id, le_rfl⟩, rfl, rfl, rfl, fun _ => id⟩
    refine sound.setTask ⟨sound.consistent.clean, sound.consistent.manifest, sound.consistent.available,
      sound.consistent.pending, fun version member => ?_⟩ spares.toGrows (fun _ => .inr spares)
      (fun next is => ?_) (fun stage is => ?_) safe
    · rcases List.mem_append.mp member with old | new
      · exact sound.consistent.versions version old
      · obtain rfl := List.mem_singleton.mp new
        exact ⟨wellFormed, complete⟩
    · cases is
      have side : fileDiscipline.holdsAfter (decide (holder = some task)) system.world
          { system.world with backend := { system.world.backend with
            versions := system.world.backend.versions ++ [manifest] } } = false := by
        rw [decide_eq_false outside]
        exact holdsAfter_self system.world
      rw [side]
      refine sound_beginStep fun version is => ?_
      cases is
      exact ⟨wellFormed, complete⟩
    · cases is
      trivial

theorem Sound.proceedSync (sound : system.Sound holder) {task : ℕ} {stage : SyncStage} {confined : Bool}
    {next : FileSync} (stands : system.tasks task = some (.sync stage))
    (step : system.proceedSync localAuthor task confined stage = some next)
    (safe : ¬ system.LosesBlock next) : ∃ holder, next.Sound holder := by
  have here := sound.tasks task _ stands
  cases stage with
  | loading =>
    cases step
    refine sound.setTask_self (of_decide_eq_false here) (fun next is => ?_) (fun stage is => ?_) safe
    · cases is
      exact sound_beginStep (knows_getLast? sound.consistent)
    · cases is
      trivial
  | reloading =>
    obtain ⟨remote, last, is⟩ := Option.bind_eq_some_iff.mp step
    cases is
    refine sound.setTask_self (of_decide_eq_false here) (fun next is => ?_) (fun stage is => ?_) safe
    · cases is
      refine sound_beginStep ?_
      rw [← last]
      exact knows_getLast? sound.consistent
    · cases is
      trivial
  | publishing manifest =>
    cases step
    exact sound.publish confined stands safe
  | stepping remote final rest =>
    obtain ⟨⟨later, after⟩, advanced, is⟩ := Option.bind_eq_some_iff.mp step
    cases is
    refine sound.advance here.2.2 trivial advanced (fun holds next follows grows is => ?_) safe
    obtain ⟨stage, goes, rfl⟩ := exists_of_map_sync is
    obtain ⟨stageSound, inFlight⟩ := sound_goOnStepping (here.1.of_grows grows) follows goes
    refine ⟨stageSound, fun other same => ?_⟩
    cases same
    exact inFlight
  | reshaping remote final rest =>
    obtain ⟨⟨later, after⟩, advanced, is⟩ := Option.bind_eq_some_iff.mp step
    cases is
    refine sound.advance here.2.2 trivial advanced (fun holds next follows grows is => ?_) safe
    obtain ⟨stage, goes, rfl⟩ := exists_of_map_sync is
    obtain ⟨stageSound, inFlight⟩ := sound_goOnReshaping (here.1.of_grows grows) follows goes
    refine ⟨stageSound, fun other same => ?_⟩
    cases same
    exact inFlight
  | downloading remote final rest =>
    obtain ⟨⟨later, after⟩, advanced, is⟩ := Option.bind_eq_some_iff.mp step
    cases is
    refine sound.advance here.2.2 trivial advanced (fun holds next follows grows is => ?_) safe
    obtain ⟨stage, goes, rfl⟩ := exists_of_map_sync is
    obtain ⟨stageSound, inFlight⟩ := sound_goOnDownloading (here.1.of_grows grows) follows goes
    refine ⟨stageSound, fun other same => ?_⟩
    cases same
    exact inFlight
  | uploading manifest rest =>
    obtain ⟨⟨later, after⟩, advanced, is⟩ := Option.bind_eq_some_iff.mp step
    cases is
    have before := sound.inFlight task _ stands
    refine sound.advance here.2.2 before advanced (fun holds next follows grows is => ?_) safe
    obtain ⟨stage, goes, rfl⟩ := exists_of_map_sync is
    have kept : SyncStage.InFlight after (.uploading manifest rest) :=
      inFlight_of_not_losesBlock safe grows stands before
    obtain ⟨stageSound, inFlight⟩ := sound_goOnUploading
      (LocalFileManifest.WellFormed.mono here.1 grows.drawn) kept follows goes
    refine ⟨stageSound, fun other same => ?_⟩
    cases same
    exact inFlight

/-- A call begins outside the lock. -/
theorem sound_call (world : World) (call : DescriptorCall) {task : FileTask}
    (begins : callProgress call.transaction = some task) : task.Sound world false :=
  sound_callProgress (call.runs world trivial) begins

theorem exists_sound_step (sound : system.Sound holder) {event : FileSyncEvent} {next : FileSync}
    (step : system.step? localAuthor event = some next) (safe : ¬ system.LosesBlock next) :
    ∃ holder, next.Sound holder := by
  cases event with
  | call task call =>
    simp only [step?] at step
    split at step
    · cases step
    · next idle =>
      cases step
      refine sound.setTask_self (sound.outside idle) (fun next is => sound_call _ call is)
        (fun stage is => ?_) safe
      unfold callProgress at is
      split at is <;> cases is
  | syncById task remoteChanged confined =>
    simp only [step?] at step
    split at step
    · cases step
    · next idle =>
      cases step
      refine sound.setTask_self (sound.outside idle) (fun next is => ?_) (fun stage is => ?_) safe
      · cases is
        cases remoteChanged with
        | true => exact rfl
        | false => exact sound_beginStep fun version is => by cases is
      · cases is
        cases remoteChanged <;> trivial
  | proceed task confined =>
    simp only [step?] at step
    split at step
    · cases step
    · next rest stands =>
      obtain ⟨⟨later, after⟩, advanced, is⟩ := Option.bind_eq_some_iff.mp step
      cases is
      have here := sound.tasks task _ stands
      refine sound.advance here.2 trivial advanced (fun holds next follows _ is => ?_) safe
      refine ⟨sound_callProgress follows is, fun stage same => ?_⟩
      subst same
      unfold callProgress at is
      split at is <;> cases is
    · next stage stands => exact sound.proceedSync stands step safe
  | abandon task =>
    simp only [step?] at step
    split at step
    · cases step
      refine sound.setTask sound.consistent (.refl _) (fun _ => .inr (World.Spares.refl _))
        (fun next is => ?_) (fun stage is => ?_) safe
      · cases is
      · cases is
    · cases step
  | tick now =>
    cases step
    have spares : system.world.Spares { system.world with clock := now } :=
      ⟨⟨fun _ => id, le_rfl⟩, rfl, rfl, rfl, fun _ => id⟩
    refine ⟨holder, ⟨sound.consistent.clean, sound.consistent.manifest, sound.consistent.available,
      sound.consistent.pending, sound.consistent.versions⟩, sound.locked, sound.known,
      fun task progress stands => (sound.tasks task progress stands).rely ?_, fun task stage stands => ?_⟩
    · cases decide (holder = some task) with
      | true => exact spares
      | false => exact spares.toGrows
    · exact sound.inFlight task stage stands

/-- A device that has opened the file, and does nothing with it yet: the file is new, or as some version of
it, and the backend is in order. -/
structure Opened (system : FileSync) : Prop where
  idle : ∀ task, system.tasks task = none
  unlocked : system.world.storage.locked = false
  written : system.world.storage.aheadOfLocaldb = none
  clean : ∀ id data, system.world.storage.blockStorage id = some data → system.world.backend.Has id
  versions : ∀ version ∈ system.world.backend.versions,
    version.WellFormed system.world.nextId ∧ version.Complete system.world.backend
  manifest : (∃ author parent id now blocksize, 0 < blocksize ∧
      system.world.storage.manifest = .newPlaceholder author parent id now blocksize) ∨
    ∃ version ∈ system.world.backend.versions, system.world.storage.manifest = .fromRemote version

theorem Opened.sound (opened : system.Opened) : system.Sound none where
  consistent := by
    refine ⟨opened.clean, ?_, ?_, fun id member => ?_, opened.versions⟩
    · rcases opened.manifest with ⟨author, parent, id, now, blocksize, positive, is⟩ | ⟨version, member, is⟩
      · rw [is]
        refine ⟨positive, ⟨fun _ => none, FileLayout.empty _ blocksize⟩, fun id member => ?_,
          fun chunk member => ?_⟩
        · cases member
        · cases member
      · rw [is]
        exact (opened.versions version member).1
    · rcases opened.manifest with ⟨author, parent, id, now, blocksize, positive, is⟩ | ⟨version, member, is⟩
      · rw [is]
        intro chunk member
        cases member
      · rw [is]
        intro chunk inside access has
        obtain ⟨part, listed, inside⟩ := List.mem_flatten.mp inside
        obtain ⟨found, uploaded, rfl⟩ := List.mem_map.mp listed
        obtain rfl := List.mem_singleton.mp inside
        exact .inr ((opened.versions version member).2 found uploaded)
    · rw [LocalStorage.pending, opened.written] at member
      cases member
  locked := by
    intro held
    cases held
  known := by
    intro task holds
    cases holds
  tasks := by
    intro task progress stands
    rw [opened.idle task] at stands
    cases stands
  inFlight := by
    intro task stage stands
    rw [opened.idle task] at stands
    cases stands

/-- Every state of a run is in order, if no step of it deletes a block that a manifest on its way to
the backend needs. -/
theorem exists_sound_of_run {localAuthor : DeviceID} {system after : FileSync} {events : List FileSyncEvent}
    (opened : system.Opened)
    (keeps : Along (step? localAuthor) (fun system _ next => ¬ system.LosesBlock next) system events)
    (played : run? (step? localAuthor) system events = some after) : ∃ holder, after.Sound holder := by
  have preserved (system : FileSync) (event : FileSyncEvent) (next : FileSync)
      (step : system.step? localAuthor event = some next) (safe : ¬ system.LosesBlock next)
      (sound : ∃ holder, system.Sound holder) : ∃ holder, next.Sound holder :=
    sound.elim fun _ sound => exists_sound_step sound step safe
  exact run?_invariant preserved keeps played ⟨none, opened.sound⟩

/-- In every state of a run no step of which deletes a block that a manifest on its way to the backend needs,
every version of the file refers to blocks that the backend has. -/
theorem uploaded_versions_are_complete (localAuthor : DeviceID) {system after : FileSync}
    {events : List FileSyncEvent} (opened : system.Opened)
    (keeps : Along (step? localAuthor) (fun system _ next => ¬ system.LosesBlock next) system events)
    (played : run? (step? localAuthor) system events = some after) :
    ∀ version ∈ after.world.backend.versions, version.Complete after.world.backend := by
  obtain ⟨_, sound⟩ := exists_sound_of_run opened keeps played
  exact fun version member => (sound.consistent.versions version member).2

section Examples

private def localDevice : DeviceID := ⟨"alice", "laptop"⟩

/-- A new file, open on the device. -/
private def created : FileSync where
  world := { storage := { manifest := .newPlaceholder localDevice 1 2 0 8, openFds := {1} } }

/-- A block is on its way to the backend while a second write replaces it, in the cache only. -/
private def writtenDuringUpload : List FileSyncEvent :=
  .call 0 (.write 1 [1] 0 false) :: List.replicate 9 (.proceed 0 false) ++
    .syncById 1 false false :: List.replicate 10 (.proceed 1 false) ++
    .call 0 (.write 1 [2] 0 false) :: List.replicate 9 (.proceed 0 false) ++
    List.replicate 5 (.proceed 1 false)

section Along

variable {system next : FileSync} {event : FileSyncEvent} {rest : List FileSyncEvent} {id : ChunkID}
  (step : system.step? localDevice event = some next)
  (later : Along (step? localDevice) (fun system _ next => ¬ system.LosesBlock next) next rest)
include step later

/-- What is deleted was not needed, or has been uploaded. -/
private theorem along_kept (kept : ∀ id, next.world.storage.chunkStorage id = none →
      system.world.storage.chunkStorage id = none ∨ system.world.backend.Has id) :
    Along (step? localDevice) (fun system _ next => ¬ system.LosesBlock next) system (event :: rest) := by
  intro other is
  obtain rfl : next = other := Option.some.inj (step.symm.trans is)
  refine ⟨?_, later⟩
  rintro ⟨_, _, _, _, access, _, unknown, stored, gone⟩
  exact (kept access.id gone).elim stored unknown

private theorem along_stored {data : Bytes} (stores : next.world.storage.chunkStorage =
      Function.update system.world.storage.chunkStorage id (some data)) :
    Along (step? localDevice) (fun system _ next => ¬ system.LosesBlock next) system (event :: rest) := by
  refine along_kept step later fun other gone => .inl ?_
  rw [stores] at gone
  by_cases same : other = id
  · rw [same, Function.update_self] at gone
    cases gone
  · rwa [Function.update_of_ne same] at gone

private theorem along_uploaded {ciphered : Ciphered Bytes}
    (clears : next.world.storage.chunkStorage = Function.update system.world.storage.chunkStorage id none)
    (uploaded : system.world.backend.blocks id = some ciphered) :
    Along (step? localDevice) (fun system _ next => ¬ system.LosesBlock next) system (event :: rest) := by
  refine along_kept step later fun other gone => ?_
  by_cases same : other = id
  · exact .inr ⟨ciphered, same ▸ uploaded⟩
  · rw [clears, Function.update_of_ne same] at gone
    exact .inl gone

end Along

private theorem opened_created : created.Opened where
  idle _ := rfl
  unlocked := rfl
  written := rfl
  clean _ _ stored := by cases stored
  versions _ member := by cases member
  manifest := .inl ⟨localDevice, 1, 2, 0, 8, by decide, rfl⟩

theorem uploaded_versions_are_complete_written : ∃ after : FileSync,
    run? (step? localDevice) created writtenDuringUpload = some after ∧
      after.world.backend.versions.map (·.blocks.map (·.id)) = [[0]] ∧
      ∀ version ∈ after.world.backend.versions, version.Complete after.world.backend := by
  have keeps : Along (step? localDevice) (fun system _ next => ¬ system.LosesBlock next) created
      writtenDuringUpload := by
    iterate 5 refine along_kept rfl ?_ fun _ => .inl
    refine along_stored rfl ?_ rfl
    iterate 20 refine along_kept rfl ?_ fun _ => .inl
    refine along_stored rfl ?_ rfl
    iterate 7 refine along_kept rfl ?_ fun _ => .inl
    -- The chunk of the first write is deleted once its block has been uploaded.
    refine along_uploaded rfl ?_ rfl rfl
    exact along_kept rfl trivial fun _ => .inl
  exact ⟨_, rfl, rfl, uploaded_versions_are_complete localDevice opened_created keeps (by rfl)⟩

/-- The descriptor is closed after the second write, which deletes the block of the first one. -/
private def overwrittenDuringUpload : List FileSyncEvent :=
  .call 0 (.write 1 [1] 0 false) :: List.replicate 9 (.proceed 0 false) ++
    .syncById 1 false false :: List.replicate 10 (.proceed 1 false) ++
    .call 0 (.write 1 [2] 0 false) :: List.replicate 9 (.proceed 0 false) ++
    .call 0 (.close 1) :: List.replicate 8 (.proceed 0 false) ++ List.replicate 7 (.proceed 1 false)

theorem overwritten_block_is_referred_to : created.Opened ∧ ∃ after,
    run? (step? localDevice) created overwrittenDuringUpload = some after ∧
      ∃ version ∈ after.world.backend.versions, ¬ version.Complete after.world.backend := by
  have outcome : (run? (step? localDevice) created overwrittenDuringUpload).map (fun after =>
      (after.world.backend.versions.map (·.blocks.map (·.id)), after.world.backend.blocks 0)) =
        some ([[0]], none) := by rfl
  obtain ⟨after, played, same⟩ := Option.map_eq_some_iff.mp outcome
  obtain ⟨versions, missing⟩ := Prod.mk.inj same
  have member : [0] ∈ after.world.backend.versions.map (·.blocks.map (·.id)) := by
    rw [versions]
    exact List.mem_singleton_self _
  obtain ⟨version, listed, ids⟩ := List.mem_map.mp member
  have referred : 0 ∈ version.blocks.map (·.id) := by
    rw [ids]
    exact List.mem_singleton_self _
  obtain ⟨access, inside, id⟩ := List.mem_map.mp referred
  refine ⟨opened_created, after, played, version, listed, fun complete => ?_⟩
  obtain ⟨ciphered, has⟩ := complete access inside
  rw [id, missing] at has
  cases has

end Examples

end FileSync

end Guardata
