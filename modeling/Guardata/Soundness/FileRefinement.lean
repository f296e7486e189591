import Guardata.Proofs.FileTransactions

/-! # A file behaves as a byte array

Calls on the descriptors of a new file, one after the other, at any times and with any arguments.
The device answers as a byte array would, the size in its manifest is the length of the array, and
its chunk storage holds what the manifest refers to: nothing is missing, and nothing is left over
but what waits for its deletion.
-/

namespace Guardata

open Machine Coroutine Transaction

/-- A call on a file descriptor. A flush reshapes the file; so does a write, at times. -/
inductive FileCall where
  | write (fd : FileDescriptor) (content : Bytes) (offset : ℤ) (constrained : Bool)
  | resize (fd : FileDescriptor) (length : ℕ) (truncateOnly : Bool)
  | read (fd : FileDescriptor) (size offset : ℤ) (raiseEof : Bool)
  | flush (fd : FileDescriptor)
deriving DecidableEq

inductive FileAnswer where
  | written (length : ℕ)
  | done
  | data (data : Option Bytes)
deriving DecidableEq

namespace FileCall

def fd : FileCall → FileDescriptor
  | write fd _ _ _ | resize fd _ _ | read fd _ _ _ | flush fd => fd

/-- The call as the device carries it out. -/
def transaction (attempts : ℕ) : FileCall → Transaction FileAnswer
  | write fd content offset constrained => do
      return .written (← fdWrite fd content offset constrained)
  | resize fd length truncateOnly => do
      fdResize fd length truncateOnly
      return .done
  | read fd size offset raiseEof => do
      return .data (← fdRead fd size offset raiseEof (attempts + 1) [])
  | flush fd => do
      fdFlush fd
      return .done

/-- The call on a byte array. -/
def reference (file : Bytes) : FileCall → Except FileError FileAnswer × Bytes
  | write _ content offset constrained =>
      let content := ByteFile.limit file content offset constrained
      (.ok (.written content.length), ByteFile.writeAt file content offset)
  | resize _ length truncateOnly =>
      (.ok .done, if truncateOnly ∧ file.length ≤ length then file else ByteFile.resize file length)
  | read _ size offset raiseEof =>
      (if raiseEof ∧ (file.length : ℤ) ≤ offset then .error .endOfFile
        else .ok (.data (some (ByteFile.read file (ByteFile.normalize file size)
          (ByteFile.normalize file offset)))), file)
  | flush _ => (.ok .done, file)

/-- Calls on a descriptor that is not open are refused. -/
def referenceOn (fds : Finset FileDescriptor) (file : Bytes) (call : FileCall) :
    Except FileError FileAnswer × Bytes :=
  if call.fd ∈ fds then call.reference file else (.error (.invalidFileDescriptor call.fd), file)

end FileCall

/-- A new file, with some descriptors open on it. -/
def newFile (author : DeviceID) (parent id : EntryID) (now : DateTime) (blocksize : ℕ)
    (fds : Finset FileDescriptor) : World where
  storage := { manifest := .newPlaceholder author parent id now blocksize, openFds := fds }

/-- The answers to the calls, each made at its own time, and the world after them. -/
def playCalls (attempts : ℕ) (world : World) :
    List (DateTime × FileCall) → Option (List (Except FileError FileAnswer) × World)
  | [] => some ([], world)
  | (now, call) :: rest => do
      let (answer, after) ← (call.transaction attempts).run { world with clock := now }
      let (answers, final) ← playCalls attempts after rest
      return (answer :: answers, final)

/-- The answers of a byte array to the calls, and the array after them. -/
def playReference (fds : Finset FileDescriptor) (file : Bytes) :
    List (DateTime × FileCall) → List (Except FileError FileAnswer) × Bytes
  | [] => ([], file)
  | (_, call) :: rest =>
      let (answer, after) := call.referenceOn fds file
      let (answers, final) := playReference fds after rest
      (answer :: answers, final)

/-- Between two calls: nobody holds the entry lock, and the storage shows the byte array. -/
structure Idle (fds : Finset FileDescriptor) (world : World) (file : Bytes) : Prop where
  represents : Represents world.storage world.nextId file
  openFds : world.storage.openFds = fds
  unlocked : world.storage.locked = false

variable {fds : Finset FileDescriptor} {world : World} {file : Bytes}

theorem Idle.clock (idle : Idle fds world file) (now : DateTime) : Idle fds
    { world with clock := now } file :=
  ⟨idle.represents, idle.openFds, idle.unlocked⟩

theorem Idle.of_reaches {after : World} {later : Bytes} (idle : Idle fds world file)
    (reaches : Reaches world after later) (unlocked : after.storage.locked = false) :
    Idle fds after later :=
  ⟨reaches.represents, reaches.openFds.trans idle.openFds, unlocked⟩

theorem idle_newFile (author : DeviceID) (parent id : EntryID) (now : DateTime) {blocksize : ℕ}
    (positive : 0 < blocksize) (fds : Finset FileDescriptor) :
    Idle fds (newFile author parent id now blocksize fds) [] where
  represents := {
    positive := positive
    layout := FileLayout.empty _ _
    content := rfl
    drawn := by intro id stored; cases stored
    waiting := by intro id member; cases member
    exact := by
      intro id
      simp [newFile, LocalFileManifest.newPlaceholder, fileIds, chunkIdSet] }
  openFds := rfl
  unlocked := rfl

/-- The step lemma: one call is answered as the byte array answers it. -/
theorem Idle.call (idle : Idle fds world file) (attempts : ℕ) (call : FileCall) :
    ∃ after, (call.transaction attempts).run world = some ((call.referenceOn fds file).1, after) ∧
      Idle fds after (call.referenceOn fds file).2 := by
  obtain ⟨represents, openFds, unlocked⟩ := id idle
  by_cases known : call.fd ∈ fds
  · rw [FileCall.referenceOn, if_pos known]
    rw [← openFds] at known
    cases call with
    | write fd content offset constrained =>
      obtain ⟨after, played, reaches, free⟩ :=
        run_fdWrite represents known unlocked content offset constrained
      exact ⟨after, run_bind_of_ok _ played, idle.of_reaches reaches free⟩
    | resize fd length truncateOnly =>
      obtain ⟨after, played, reaches, free⟩ :=
        run_fdResize represents known unlocked length truncateOnly
      exact ⟨after, run_bind_of_ok _ played, idle.of_reaches reaches free⟩
    | read fd size offset raiseEof =>
      change fd ∈ _ at known
      obtain ⟨after, played, reaches, free⟩ :=
        run_fdRead represents known unlocked size offset raiseEof attempts
      refine ⟨after, ?_, idle.of_reaches reaches free⟩
      simp only [FileCall.transaction, FileCall.reference]
      rw [run_bind, played]
      split <;> rfl
    | flush fd =>
      obtain ⟨after, played, reaches, free⟩ := run_fdFlush represents known unlocked
      exact ⟨after, run_bind_of_ok _ played, idle.of_reaches reaches free⟩
  · rw [FileCall.referenceOn, if_neg known]
    rw [← openFds] at known
    refine ⟨world, ?_, idle⟩
    cases call with
    | write fd content offset constrained =>
      exact run_bind_of_error _ (run_loadAndLockFile_of_closed known)
    | resize fd length truncateOnly =>
      exact run_bind_of_error _ (run_loadAndLockFile_of_closed known)
    | read fd size offset raiseEof =>
      have refused : (readAttempt fd size offset raiseEof).run world =
          some (.error (.invalidFileDescriptor fd), world) := run_loadAndLockFile_of_closed known
      refine run_bind_of_error _ ?_
      change (readAttempt fd size offset raiseEof >>= _).run world = _
      rw [run_bind_of_error _ refused]
      rfl
    | flush fd =>
      exact run_bind_of_error _ (run_loadAndLockFile_of_closed known)

/-- The run lemma: so are any number of calls. -/
theorem Idle.playCalls (idle : Idle fds world file) (attempts : ℕ) (calls : List (DateTime × FileCall)) :
    ∃ final, Guardata.playCalls attempts world calls =
        some ((playReference fds file calls).1, final) ∧
      Idle fds final (playReference fds file calls).2 := by
  induction calls generalizing world file with
  | nil => exact ⟨world, rfl, idle⟩
  | cons timed rest ih =>
    obtain ⟨now, call⟩ := timed
    obtain ⟨after, answered, next⟩ := (idle.clock now).call attempts call
    obtain ⟨final, played, last⟩ := ih next
    refine ⟨final, ?_, last⟩
    rw [Guardata.playCalls, answered]
    simp only [Option.bind_eq_bind, Option.bind_some]
    rw [played]
    rfl

/-- Every read returns the bytes that a byte array would have in the range, every other call has
the answer that a byte array would give, and the manifest has the size of the array. -/
theorem file_refines_byte_array (author : DeviceID) (parent id : EntryID) (now : DateTime)
    {blocksize : ℕ} (enough : 8 ≤ blocksize) (fds : Finset FileDescriptor) (attempts : ℕ)
    (calls : List (DateTime × FileCall)) :
    ∃ final, playCalls attempts (newFile author parent id now blocksize fds) calls =
        some ((playReference fds [] calls).1, final) ∧
      final.storage.manifest.size = (playReference fds [] calls).2.length := by
  have positive : 0 < blocksize := by omega
  obtain ⟨final, played, idle⟩ :=
    (idle_newFile author parent id now positive fds).playCalls attempts calls
  exact ⟨final, played, idle.represents.size_eq⟩

/-- A write past the end of a file of two blocks, a truncation into the first, and a read. -/
theorem file_refines_byte_array_two_blocks : 8 ≤ 8 ∧ ∃ final,
    playCalls 0 (newFile ⟨"alice", "laptop"⟩ 1 2 0 8 {1})
        [(1, .write 1 [1, 2, 3] 9 false), (2, .flush 1), (3, .resize 1 10 false), (4, .read 1 3 8 false)] =
      some ([.ok (.written 3), .ok .done, .ok .done, .ok (.data (some [0, 1]))], final) ∧
    final.storage.manifest.size = 10 :=
  ⟨le_rfl, file_refines_byte_array ⟨"alice", "laptop"⟩ 1 2 0 le_rfl {1} 0
    [(1, .write 1 [1, 2, 3] 9 false), (2, .flush 1), (3, .resize 1 10 false), (4, .read 1 3 8 false)]⟩

/-- The chunk storage is exact: the manifest passes its assertions, the ids that were written and not
removed are those it refers to, and each of them has as many bytes as its chunk says. -/
theorem chunk_storage_exact (author : DeviceID) (parent id : EntryID) (now : DateTime)
    {blocksize : ℕ} (enough : 8 ≤ blocksize) (fds : Finset FileDescriptor) (attempts : ℕ)
    (calls : List (DateTime × FileCall)) :
    ∃ answers final, playCalls attempts (newFile author parent id now blocksize fds) calls =
        some (answers, final) ∧
      final.storage.manifest.assertIntegrity = .ok () ∧
      (∀ id, ((final.storage.chunkStorage id).isSome ∧ id ∉ final.storage.pending) ↔
        id ∈ fileIds final.storage.manifest.blocks) ∧
      ∀ chunk ∈ final.storage.manifest.blocks.flatten, ∃ data,
        final.storage.chunkStorage chunk.id = some data ∧ data.length = chunk.rawSize := by
  have positive : 0 < blocksize := by omega
  obtain ⟨final, played, idle⟩ :=
    (idle_newFile author parent id now positive fds).playCalls attempts calls
  have represents := idle.represents
  exact ⟨_, final, played, assertIntegrity_eq_ok_iff.mpr represents.layout.integrity, represents.exact,
    represents.layout.stored_flatten⟩

/-- An overwrite that splits a chunk in two, a flush, and a truncation that drops one of its parts. -/
theorem chunk_storage_exact_split : 8 ≤ 8 ∧ ∃ answers final,
    playCalls 0 (newFile ⟨"alice", "laptop"⟩ 1 2 0 8 {1})
        [(1, .write 1 [1, 2, 3, 4, 5] 0 false), (2, .write 1 [6] 2 false), (3, .resize 1 3 false)] =
      some (answers, final) ∧
    final.storage.manifest.assertIntegrity = .ok () ∧
    (∀ id, ((final.storage.chunkStorage id).isSome ∧ id ∉ final.storage.pending) ↔
      id ∈ fileIds final.storage.manifest.blocks) ∧
    ∀ chunk ∈ final.storage.manifest.blocks.flatten, ∃ data,
      final.storage.chunkStorage chunk.id = some data ∧ data.length = chunk.rawSize :=
  ⟨le_rfl, chunk_storage_exact ⟨"alice", "laptop"⟩ 1 2 0 le_rfl {1} 0
    [(1, .write 1 [1, 2, 3, 4, 5] 0 false), (2, .write 1 [6] 2 false), (3, .resize 1 3 false)]⟩

end Guardata
