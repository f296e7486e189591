import Guardata.Model.WorkspaceFile
import Guardata.Proofs.FileContents
import Guardata.Soundness.FileRefinement

/-! # A file object behaves as a byte array with a position

Any calls on a file object that nobody else uses, at any times. The check of a negative seek from the end
of the file looks at the position instead of the size, so this needs that the two come to the same at every
such call; a position from which it does not may be refused for nothing, or become negative.
-/

namespace Guardata

open Machine Coroutine

/-- A call of a method of a file object. -/
inductive FileMethodCall where
  | seek (offset : ℤ) (whence : Whence)
  | tell
  | read (size : ℤ)
  | write (data : Bytes)
  | truncate (size : Option ℤ)
deriving DecidableEq

inductive FileMethodAnswer where
  | position (position : ℤ)
  | data (data : Option Bytes)
  | written (length : ℕ)
  | size (size : ℤ)
deriving DecidableEq

/-- The call as the file object carries it out. -/
def FileMethodCall.method (attempts : ℕ) : FileMethodCall → FileMethod FileMethodAnswer
  | seek offset whence => do return .position (← WorkspaceFile.seek offset whence)
  | tell => do return .position (← WorkspaceFile.tell)
  | read size => do return .data (← WorkspaceFile.read attempts size)
  | write data => do return .written (← WorkspaceFile.write data)
  | truncate size => do return .size (← WorkspaceFile.truncate size)

/-- A byte array with a position. -/
structure ByteObject where
  file : Bytes
  position : ℕ := 0
  readable : Bool
  writable : Bool

namespace ByteObject

/-- A byte array that is opened in a mode other than `a`. -/
def opened (mode : List Char) (file : Bytes) : ByteObject where
  file := if 'r' ∈ mode then file else []
  readable := 'r' ∈ mode ∨ '+' ∈ mode
  writable := 'r' ∉ mode ∨ '+' ∈ mode

/-- Where a seek counts from. -/
def origin (object : ByteObject) : Whence → ℕ
  | .seekSet => 0
  | .seekCur => object.position
  | .seekEnd => object.file.length

/-- The answer to a call, and the object after it. -/
def answer (object : ByteObject) : FileMethodCall → Except WorkspaceFileError FileMethodAnswer × ByteObject
  | .seek offset whence =>
      let target := object.origin whence + offset
      if target < 0 then (.error .offset, object)
      else (.ok (.position target), { object with position := target.toNat })
  | .tell => (.ok (.position object.position), object)
  | .read size =>
      if !object.readable then (.error .unsupportedOperation, object)
      else if size < -1 then (.error (.value "read length must be non-negative or -1"), object)
      else
        let data := ByteFile.read object.file (ByteFile.normalize object.file size) object.position
        (.ok (.data (some data)), { object with position := object.position + data.length })
  | .write data =>
      if !object.writable then (.error .unsupportedOperation, object)
      else (.ok (.written data.length), { object with
        file := ByteFile.writeAt object.file data object.position
        position := object.position + data.length })
  | .truncate size =>
      let length := size.getD object.position
      if !object.writable then (.error .unsupportedOperation, object)
      else if length < 0 then (.error .offset, object)
      else (.ok (.size length), { object with file := ByteFile.resize object.file length.toNat })

/-- The answers to the calls, and the object after them. -/
def play (object : ByteObject) : List FileMethodCall →
    List (Except WorkspaceFileError FileMethodAnswer) × ByteObject
  | [] => ([], object)
  | call :: rest =>
      let (answer, after) := object.answer call
      let (answers, final) := after.play rest
      (answer :: answers, final)

end ByteObject

namespace FileSession

/-- Make a call at a time. -/
def call (attempts : ℕ) (session : FileSession) (timed : DateTime × FileMethodCall) :
    Option (Except WorkspaceFileError FileMethodAnswer × FileSession) :=
  (timed.2.method attempts).run { session with world := { session.world with clock := timed.1 } }

/-- The answers to the calls, and the session after them. -/
def play (attempts : ℕ) (session : FileSession) : List (DateTime × FileMethodCall) →
    Option (List (Except WorkspaceFileError FileMethodAnswer) × FileSession)
  | [] => some ([], session)
  | timed :: rest => do
      let (answer, after) ← session.call attempts timed
      let (answers, final) ← after.play attempts rest
      return (answer :: answers, final)

/-- A negative seek from the end leaves the file exactly where it would leave it from the position. -/
def SeeksAlike (session : FileSession) : FileMethodCall → Prop
  | .seek offset .seekEnd => offset < 0 →
      (session.file.offset + offset < 0 ↔ (session.world.storage.manifest.size : ℤ) + offset < 0)
  | _ => True

/-- The negative seeks from the end that are made on the way do. -/
def AllSeekAlike (attempts : ℕ) (session : FileSession) : List (DateTime × FileMethodCall) → Prop
  | [] => True
  | timed :: rest => session.SeeksAlike timed.2 ∧ ∀ answer after,
      session.call attempts timed = some (answer, after) → after.AllSeekAlike attempts rest

/-- The file object stands for the byte array with its position. -/
structure Mirrors (elsewhere : ChunkID → Option Bytes) (session : FileSession) (object : ByteObject) : Prop where
  contains : Contains elsewhere session.world object.file
  known : session.file.fd ∈ session.world.storage.openFds
  unlocked : session.world.storage.locked = false
  state : session.file.state = .opened
  binary : session.file.binary = true
  append : session.file.append = false
  readable : session.file.readable = object.readable
  writable : session.file.writable = object.writable
  position : session.file.offset = object.position

end FileSession

/-- A file that is truncated to nothing need not be resized if it is empty already. -/
theorem resize_of_truncateOnly {file : Bytes} {length : ℕ} {truncateOnly : Bool}
    (nothing : truncateOnly = true → length = 0) :
    (if truncateOnly = true ∧ file.length ≤ length then file else ByteFile.resize file length) =
      ByteFile.resize file length := by
  split
  · next both =>
    obtain rfl := nothing both.1
    obtain rfl := List.length_eq_zero_iff.mp (Nat.le_zero.mp both.2)
    rfl
  · rfl

namespace WorkspaceFile

variable {session : FileSession}

@[simp] theorem run_self : self.run session = some (.ok session.file, session) := rfl

@[simp] theorem run_modify (change : WorkspaceFile → WorkspaceFile) : (modify change).run session =
    some (.ok (), { session with file := change session.file }) := rfl

theorem run_transaction {α : Type} {body : Transaction α} {result : Except FileError α} {after : World}
    (played : body.run session.world = some (result, after)) : (transaction body).run session =
      some (result.mapError .transaction, { session with world := after }) := by
  rw [transaction, run_within]
  change (body.run session.world).map _ = _
  rw [played]
  rfl

variable (opened : session.file.state = .opened)
include opened

theorem run_checkState : checkState.run session = some (.ok (), session) := by
  rw [checkState, run_bind_of_ok _ run_self]
  simp only [opened]
  rfl

theorem run_isReadable : isReadable.run session = some (.ok session.file.readable, session) :=
  run_bind_of_ok _ (run_checkState opened)

theorem run_isWritable : isWritable.run session = some (.ok session.file.writable, session) :=
  run_bind_of_ok _ (run_checkState opened)

theorem run_isSeekable : isSeekable.run session = some (.ok true, session) :=
  run_bind_of_ok _ (run_checkState opened)

theorem run_getSize (known : session.file.fd ∈ session.world.storage.openFds) :
    getSize.run session = some (.ok session.world.storage.manifest.size, session) := by
  have loaded : (Transaction.fdInfo session.file.fd).run session.world =
      some (.ok session.world.storage.manifest.size, session.world) := by
    have found := @run_loadFileDescriptor session.world session.file.fd
    rw [if_pos known] at found
    exact run_bind_of_ok _ found
  rw [getSize, run_bind_of_ok _ (run_checkState opened), run_bind_of_ok _ run_self, run_transaction loaded]
  rfl

end WorkspaceFile

namespace FileSession.Mirrors

variable {elsewhere : ChunkID → Option Bytes} {session : FileSession} {object : ByteObject}

theorem clock (mirrors : Mirrors elsewhere session object) (now : DateTime) :
    Mirrors elsewhere { session with world := { session.world with clock := now } } object :=
  { mirrors with contains := mirrors.contains.congr rfl rfl rfl rfl rfl }

/-- A transaction has changed the bytes, and the position has moved. -/
theorem of_leads (mirrors : Mirrors elsewhere session object) {after : World} {file : Bytes}
    (leads : Leads elsewhere session.world after file) (unlocked : after.storage.locked = false)
    {offset : ℤ} {position : ℕ} (moved : offset = position) :
    Mirrors elsewhere { file := { session.file with offset := offset }, world := after }
      { object with file := file, position := position } :=
  { mirrors with
    contains := leads.contains
    known := by
      rw [leads.openFds]
      exact mirrors.known
    unlocked := unlocked
    position := moved }

theorem move (mirrors : Mirrors elsewhere session object) {offset : ℤ} {position : ℕ}
    (moved : offset = position) : Mirrors elsewhere { session with file := { session.file with
      offset := offset } } { object with position := position } :=
  { mirrors with position := moved }

/-- The seek of the object, once its checks have passed. -/
theorem seek (mirrors : Mirrors elsewhere session object) (offset : ℤ) (whence : Whence)
    (alike : session.SeeksAlike (.seek offset whence)) (attempts : ℕ) :
    ∃ after, ((FileMethodCall.seek offset whence).method attempts).run session =
        some ((object.answer (.seek offset whence)).1, after) ∧
      Mirrors elsewhere after (object.answer (.seek offset whence)).2 := by
  have position := mirrors.position
  simp only [FileMethodCall.method, WorkspaceFile.seek, ByteObject.answer]
  rw [run_bind, run_bind_of_ok _ (WorkspaceFile.run_isSeekable mirrors.state)]
  simp only [Bool.not_true, Bool.false_eq_true, ↓reduceIte]
  rw [run_bind_of_ok _ WorkspaceFile.run_self]
  cases whence with
  | seekSet =>
    have target : (object.origin .seekSet : ℤ) + offset = offset := zero_add offset
    rw [target]
    dsimp only
    split
    · exact ⟨session, rfl, mirrors⟩
    · exact ⟨_, rfl, mirrors.move (by omega)⟩
  | seekCur =>
    have target : (object.origin .seekCur : ℤ) + offset = session.file.offset + offset := by
      rw [position]
      rfl
    rw [target]
    dsimp only
    by_cases negative : session.file.offset + offset < 0
    · rw [if_pos ⟨by omega, negative⟩, if_pos negative]
      exact ⟨session, rfl, mirrors⟩
    · rw [if_neg (fun both => negative both.2), if_neg negative]
      exact ⟨_, rfl, mirrors.move (by omega)⟩
  | seekEnd =>
    have target : (object.origin .seekEnd : ℤ) + offset =
        (session.world.storage.manifest.size : ℤ) + offset := by
      rw [mirrors.contains.size_eq]
      rfl
    rw [target]
    dsimp only
    by_cases negative : (session.world.storage.manifest.size : ℤ) + offset < 0
    · have before : offset < 0 := by omega
      rw [if_pos ⟨before, (alike before).mpr negative⟩, if_pos negative]
      exact ⟨session, rfl, mirrors⟩
    · rw [if_neg (fun both => negative ((alike both.1).mp both.2)), if_neg negative,
        run_bind_of_ok _ (WorkspaceFile.run_getSize mirrors.state mirrors.known)]
      exact ⟨_, rfl, mirrors.move (by omega)⟩

theorem read (mirrors : Mirrors elsewhere session object) (size : ℤ) (attempts : ℕ) :
    ∃ after, ((FileMethodCall.read size).method (attempts + 2)).run session =
        some ((object.answer (.read size)).1, after) ∧
      Mirrors elsewhere after (object.answer (.read size)).2 := by
  simp only [FileMethodCall.method, WorkspaceFile.read, ByteObject.answer]
  rw [run_bind, run_bind_of_ok _ (WorkspaceFile.run_isReadable mirrors.state), mirrors.readable]
  split
  · exact ⟨session, rfl, mirrors⟩
  · split
    · exact ⟨session, rfl, mirrors⟩
    · obtain ⟨after, played, leads, unlocked⟩ := mirrors.contains.exists_fdRead mirrors.known
        mirrors.unlocked size session.file.offset attempts
      have position : ByteFile.normalize object.file session.file.offset = object.position := by
        rw [ByteFile.normalize, mirrors.position, if_neg (by omega), Int.toNat_natCast]
      rw [position] at played
      rw [run_bind_of_ok _ WorkspaceFile.run_self, run_bind_of_ok _ (WorkspaceFile.run_transaction played)]
      refine ⟨_, rfl, mirrors.of_leads leads unlocked ?_⟩
      rw [mirrors.position]
      exact (Nat.cast_add _ _).symm

theorem write (mirrors : Mirrors elsewhere session object) (data : Bytes) (attempts : ℕ) :
    ∃ after, ((FileMethodCall.write data).method attempts).run session =
        some ((object.answer (.write data)).1, after) ∧
      Mirrors elsewhere after (object.answer (.write data)).2 := by
  simp only [FileMethodCall.method, WorkspaceFile.write, ByteObject.answer]
  rw [run_bind, run_bind_of_ok _ (WorkspaceFile.run_isWritable mirrors.state), mirrors.writable]
  split
  · exact ⟨session, rfl, mirrors⟩
  · obtain ⟨after, played, leads, unlocked⟩ := mirrors.contains.exists_fdWrite mirrors.known
      mirrors.unlocked data session.file.offset
    have written := WorkspaceFile.run_transaction played
    rw [mirrors.position] at leads
    rw [run_bind_of_ok _ WorkspaceFile.run_self]
    simp only [mirrors.append, Bool.false_eq_true, ↓reduceIte]
    rw [run_bind_of_ok _ WorkspaceFile.run_self]
    simp only [mirrors.binary, ↓reduceIte]
    rw [WorkspaceFile.writeBytes, run_bind_of_ok _ WorkspaceFile.run_self, run_bind_of_ok _ written,
      run_bind_of_ok _ WorkspaceFile.run_self]
    simp only [mirrors.append, Bool.not_false, ↓reduceIte]
    refine ⟨_, rfl, mirrors.of_leads leads unlocked ?_⟩
    rw [mirrors.position]
    exact (Nat.cast_add _ _).symm

theorem truncate (mirrors : Mirrors elsewhere session object) (size : Option ℤ) (attempts : ℕ) :
    ∃ after, ((FileMethodCall.truncate size).method attempts).run session =
        some ((object.answer (.truncate size)).1, after) ∧
      Mirrors elsewhere after (object.answer (.truncate size)).2 := by
  have position := mirrors.position
  simp only [FileMethodCall.method, WorkspaceFile.truncate, ByteObject.answer]
  rw [run_bind, run_bind_of_ok _ (WorkspaceFile.run_isSeekable mirrors.state)]
  simp only [Bool.not_true, Bool.false_eq_true, ↓reduceIte]
  rw [run_bind_of_ok _ (WorkspaceFile.run_isWritable mirrors.state), mirrors.writable]
  split
  · exact ⟨session, rfl, mirrors⟩
  · rw [run_bind_of_ok _ WorkspaceFile.run_self]
    cases size with
    | none =>
      obtain ⟨after, played, leads, unlocked⟩ := mirrors.contains.exists_fdResize mirrors.known
        mirrors.unlocked session.file.offset.toNat false
      have resized := WorkspaceFile.run_transaction played
      simp only [Option.getD_none, Bool.false_eq_true, false_and, ↓reduceIte] at leads ⊢
      rw [if_neg (by omega), if_neg (by omega), run_bind_of_ok _ resized]
      rw [position] at leads ⊢
      exact ⟨_, rfl, mirrors.of_leads leads unlocked position⟩
    | some size =>
      simp only [Option.getD_some]
      split
      · exact ⟨session, rfl, mirrors⟩
      · obtain ⟨after, played, leads, unlocked⟩ := mirrors.contains.exists_fdResize mirrors.known
          mirrors.unlocked size.toNat (size = 0)
        have resized := WorkspaceFile.run_transaction played
        rw [resize_of_truncateOnly (by simp +contextual)] at leads
        rw [run_bind_of_ok _ resized]
        exact ⟨_, rfl, mirrors.of_leads leads unlocked position⟩

/-- The step lemma: a call is answered as the byte array answers it. -/
theorem call (mirrors : Mirrors elsewhere session object) (attempts : ℕ) (timed : DateTime × FileMethodCall)
    (alike : session.SeeksAlike timed.2) :
    ∃ after, session.call (attempts + 2) timed = some ((object.answer timed.2).1, after) ∧
      Mirrors elsewhere after (object.answer timed.2).2 := by
  obtain ⟨now, call⟩ := timed
  have then_ := mirrors.clock now
  cases call with
  | seek offset whence => exact then_.seek offset whence alike (attempts + 2)
  | tell =>
    refine ⟨_, ?_, then_⟩
    rw [FileSession.call, FileMethodCall.method, WorkspaceFile.tell, run_bind,
      run_bind_of_ok _ (WorkspaceFile.run_isSeekable then_.state)]
    simp only [Bool.not_true, Bool.false_eq_true, ↓reduceIte]
    rw [run_bind_of_ok _ WorkspaceFile.run_self, mirrors.position]
    rfl
  | read size => exact then_.read size attempts
  | write data => exact then_.write data (attempts + 2)
  | truncate size => exact then_.truncate size (attempts + 2)

/-- The run lemma. -/
theorem play (mirrors : Mirrors elsewhere session object) (attempts : ℕ)
    (calls : List (DateTime × FileMethodCall)) (alike : session.AllSeekAlike (attempts + 2) calls) :
    ∃ final, session.play (attempts + 2) calls = some ((object.play (calls.map Prod.snd)).1, final) ∧
      Mirrors elsewhere final (object.play (calls.map Prod.snd)).2 := by
  induction calls generalizing session object with
  | nil => exact ⟨session, rfl, mirrors⟩
  | cons timed rest ih =>
    obtain ⟨after, answered, next⟩ := mirrors.call attempts timed alike.1
    obtain ⟨final, played, last⟩ := ih next (alike.2 _ after answered)
    refine ⟨final, ?_, last⟩
    rw [FileSession.play, answered]
    simp only [Option.bind_eq_bind, Option.bind_some]
    rw [played]
    rfl

end FileSession.Mirrors

/-- A mode that the constructor accepts has one of the four letters, and the file object keeps it. -/
theorem WorkspaceFile.new_eq_ok_iff {fd : FileDescriptor} {mode : List Char} {object : WorkspaceFile} :
    WorkspaceFile.new fd mode = .ok object ↔
      (['r', 'w', 'a', 'x'].filter fun c => c ∈ mode.map Char.toLower).length = 1 ∧
      (∀ c ∈ mode.map Char.toLower, c ∈ ['a', 'r', 'w', 'x', 'b', '+']) ∧
      object = { fd := fd, mode := mode.map Char.toLower } := by
  rw [WorkspaceFile.new]
  split
  · next several =>
    constructor
    · intro made
      cases made
    · rintro ⟨one, -⟩
      exact absurd one several
  · next one =>
    rw [not_not] at one
    split
    · next other =>
      obtain ⟨c, member, odd⟩ := List.any_eq_true.mp other
      constructor
      · intro made
        cases made
      · rintro ⟨-, known, -⟩
        exact absurd (known c member) (of_decide_eq_true odd)
    · next none =>
      have known : ∀ c ∈ mode.map Char.toLower, c ∈ ['a', 'r', 'w', 'x', 'b', '+'] := by
        intro c member
        by_contra odd
        exact none (List.any_eq_true.mpr ⟨c, member, decide_eq_true odd⟩)
      constructor
      · intro made
        cases made
        exact ⟨one, known, rfl⟩
      · rintro ⟨-, -, rfl⟩
        rfl

section Open

variable {elsewhere : ChunkID → Option Bytes} {world : World} {file : Bytes} {fd : FileDescriptor}

/-- Truncating to nothing, in a mode that allows it. -/
theorem FileSession.Mirrors.exists_truncate {session : FileSession} {object : ByteObject}
    (mirrors : session.Mirrors elsewhere object) (writable : object.writable = true) :
    ∃ after, (WorkspaceFile.truncate (some 0)).run session = some (.ok 0, after) ∧
      after.Mirrors elsewhere { object with file := [] } := by
  obtain ⟨after, played, later⟩ := mirrors.truncate (some 0) 0
  have emptied : object.answer (.truncate (some 0)) = (.ok (.size 0), { object with file := [] }) := by
    simp [ByteObject.answer, writable, ByteFile.resize]
  rw [emptied] at played later
  rw [FileMethodCall.method, run_bind, Option.bind_eq_some_iff] at played
  obtain ⟨⟨result, middle⟩, ran, ends⟩ := played
  refine ⟨after, ?_, later⟩
  cases result with
  | ok value =>
    cases ends
    exact ran
  | error error => cases ends

/-- After `ainit` the file object stands for the byte array that is opened in its mode. -/
theorem exists_ainit (contains : Contains elsewhere world file) (known : fd ∈ world.storage.openFds)
    (unlocked : world.storage.locked = false) {mode : List Char} {object : WorkspaceFile}
    (made : WorkspaceFile.new fd mode = .ok object) (binary : 'b' ∈ object.mode)
    (nonAppend : 'a' ∉ object.mode) :
    ∃ opened, WorkspaceFile.ainit.run ⟨object, world⟩ = some (.ok (), opened) ∧
      opened.Mirrors elsewhere (.opened object.mode file) := by
  obtain ⟨one, -, rfl⟩ := WorkspaceFile.new_eq_ok_iff.mp made
  generalize mode.map Char.toLower = mode at one binary nonAppend ⊢
  rw [WorkspaceFile.ainit, run_bind_of_ok _ WorkspaceFile.run_self, if_pos rfl,
    run_bind_of_ok _ (WorkspaceFile.run_modify _), run_bind_of_ok _ WorkspaceFile.run_self]
  dsimp only
  by_cases writes : 'w' ∈ mode ∨ 'x' ∈ mode
  · have noRead : 'r' ∉ mode := by
      intro reads
      rcases writes with writes | writes <;>
      by_cases other : 'x' ∈ mode <;> by_cases another : 'w' ∈ mode <;> simp_all
    rw [if_pos writes, run_bind_of_ok _ (WorkspaceFile.run_modify _)]
    have mirrors : FileSession.Mirrors elsewhere
        ⟨{ fd := fd, mode := mode, state := .opened, binary := 'b' ∈ mode, writable := true }, world⟩
        { file := file, readable := false, writable := true } :=
      ⟨contains, known, unlocked, rfl, decide_eq_true binary, rfl, rfl, rfl, rfl⟩
    obtain ⟨after, truncated, later⟩ := mirrors.exists_truncate rfl
    rw [run_bind_of_ok _ truncated]
    have object : ByteObject.opened mode file = { file := [], readable := '+' ∈ mode, writable := true } := by
      simp [ByteObject.opened, noRead]
    rw [object]
    split
    · next plus => exact ⟨_, rfl, { later with readable := (decide_eq_true plus).symm }⟩
    · next plain => exact ⟨_, rfl, { later with readable := later.readable.trans (decide_eq_false plain).symm }⟩
  · have reads : 'r' ∈ mode := by
      rw [not_or] at writes
      by_contra noRead
      simp [noRead, writes.1, writes.2, nonAppend] at one
    have object : ByteObject.opened mode file = { file := file, readable := true, writable := '+' ∈ mode } := by
      simp [ByteObject.opened, reads]
    rw [if_neg writes, if_pos reads, run_bind_of_ok _ (WorkspaceFile.run_modify _), object]
    split
    · next plus =>
      exact ⟨_, rfl, ⟨contains, known, unlocked, rfl, decide_eq_true binary, rfl, rfl,
        (decide_eq_true plus).symm, rfl⟩⟩
    · next plain =>
      exact ⟨_, rfl, ⟨contains, known, unlocked, rfl, decide_eq_true binary, rfl, rfl,
        (decide_eq_false plain).symm, rfl⟩⟩

end Open

theorem contains_newFile (elsewhere : ChunkID → Option Bytes) (author : DeviceID) (parent id : EntryID)
    (now : DateTime) {blocksize : ℕ} (positive : 0 < blocksize) (fds : Finset FileDescriptor) :
    Contains elsewhere (newFile author parent id now blocksize fds) [] where
  positive := positive
  shows := {
    integrity := (FileLayout.empty elsewhere blocksize).integrity
    stored := fun _ member => absurd member List.not_mem_nil
    reachable := fun _ member => absurd member List.not_mem_nil
    content := rfl
    apart := (FileLayout.empty elsewhere blocksize).apart
    drawn := fun id member => absurd member (Finset.notMem_empty id)
    waiting := fun id member => absurd member (Finset.notMem_empty id) }
  covered := Nat.zero_le _
  downloadable := fun _ member => absurd member List.not_mem_nil

/-- In every binary mode but `a`, a file object over any file answers any calls as a byte array with a
position does, as long as the negative seeks from the end come to the same from the position. -/
theorem file_object_refines (elsewhere : ChunkID → Option Bytes) {world : World} {file : Bytes}
    (contains : Contains elsewhere world file) {fd : FileDescriptor} (known : fd ∈ world.storage.openFds)
    (unlocked : world.storage.locked = false) {mode : List Char} {object : WorkspaceFile}
    (made : WorkspaceFile.new fd mode = .ok object) (binary : 'b' ∈ object.mode)
    (nonAppend : 'a' ∉ object.mode) (attempts : ℕ) (calls : List (DateTime × FileMethodCall)) :
    ∃ opened, WorkspaceFile.ainit.run ⟨object, world⟩ = some (.ok (), opened) ∧
      (opened.AllSeekAlike (attempts + 2) calls →
        let reference := (ByteObject.opened object.mode file).play (calls.map Prod.snd)
        ∃ final, opened.play (attempts + 2) calls = some (reference.1, final) ∧
          final.file.offset = reference.2.position ∧ Contains elsewhere final.world reference.2.file) := by
  obtain ⟨opened, initialized, mirrors⟩ := exists_ainit contains known unlocked made binary nonAppend
  refine ⟨opened, initialized, fun alike => ?_⟩
  obtain ⟨final, played, still⟩ := mirrors.play attempts calls alike
  exact ⟨final, played, still.position, still.contains⟩

section Examples

/-- Nothing lies anywhere else. -/
private def emptyHanded (_ : ChunkID) : Option Bytes := none

private def freshFile : World := newFile ⟨"alice", "laptop"⟩ 1 2 0 8 {1}

private theorem contains_freshFile : Contains emptyHanded freshFile [] :=
  contains_newFile emptyHanded ⟨"alice", "laptop"⟩ 1 2 0 (Nat.succ_pos 7) {1}

private def openedFile (mode : List Char) (writable : Bool) : FileSession where
  file := { fd := 1, mode := mode, readable := true, writable := writable, binary := true, state := .opened }
  world := freshFile

/-- A refused seek, a write past the end, and a read of what is there then. -/
theorem file_object_refines_past_end : ∃ final,
    (openedFile ['r', 'b', '+'] true).play 2
        [(1, .seek (-1) .seekEnd), (2, .seek 2 .seekSet), (3, .write [7]), (4, .seek 1 .seekSet),
          (5, .read (-1))] =
      some ([.error .offset, .ok (.position 2), .ok (.written 1), .ok (.position 1),
        .ok (.data (some [0, 7]))], final) ∧
    final.file.offset = 3 ∧ Contains emptyHanded final.world [0, 0, 7] := by
  have made : WorkspaceFile.new 1 ['R', 'B', '+'] = .ok { fd := 1, mode := ['r', 'b', '+'] } := by decide
  obtain ⟨opened, initialized, plays⟩ := file_object_refines emptyHanded contains_freshFile
    (by decide : 1 ∈ freshFile.storage.openFds) rfl made (by decide) (by decide) 0
    [(1, .seek (-1) .seekEnd), (2, .seek 2 .seekSet), (3, .write [7]), (4, .seek 1 .seekSet), (5, .read (-1))]
  cases initialized
  refine plays ⟨fun _ => Iff.rfl, fun _ _ _ => ⟨trivial, fun _ _ _ => ⟨trivial, fun _ _ _ => ⟨trivial,
    fun _ _ _ => ⟨trivial, fun _ _ _ => trivial⟩⟩⟩⟩⟩

/-- From position 5 of an empty file, a seek to 4 before its end leaves the position at -4. -/
theorem seek_before_start : Contains emptyHanded freshFile [] ∧
    WorkspaceFile.ainit.run ⟨{ fd := 1, mode := ['r', 'b'] }, freshFile⟩ =
      some (.ok (), openedFile ['r', 'b'] false) ∧
    (∃ final, (openedFile ['r', 'b'] false).play 2 [(1, .seek 5 .seekSet), (2, .seek (-4) .seekEnd)] =
      some ([.ok (.position 5), .ok (.position (-4))], final) ∧ final.file.offset = -4) ∧
    (ByteObject.opened ['r', 'b'] []).play [.seek 5 .seekSet, .seek (-4) .seekEnd] =
      ([.ok (.position 5), .error .offset], ⟨[], 5, true, false⟩) :=
  ⟨contains_freshFile, rfl, ⟨_, rfl, rfl⟩, rfl⟩

end Examples

end Guardata
