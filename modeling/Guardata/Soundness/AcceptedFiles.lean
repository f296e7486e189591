import Guardata.Proofs.DecodedData
import Guardata.Proofs.FileOperations

/-! # Which accepted file manifests can be worked with

Decoding looks at the fields of a file manifest one by one, so the blocks may lie anywhere and have any
size. A local manifest made of it passes `assert_integrity`, goes through every run of changes and shows
all the bytes that a read asks for if and only if the blocks fill the file: each lies where the blocks
before it end, only the last one is shorter, and none is empty or longer.
-/

namespace Guardata

/-- The blocks are the file, cut at the multiples of the block size. -/
structure RemoteFileManifest.Aligned (remote : RemoteFileManifest) : Prop where
  placed : ∀ (index : ℕ) access, remote.blocks[index]? = some access →
    access.offset = index * remote.blocksize ∧ 0 < access.size
  filled : ∀ (index : ℕ) access, remote.blocks[index]? = some access →
    access.size = min remote.blocksize (remote.size - index * remote.blocksize)
  covered : remote.size ≤ remote.blocks.length * remote.blocksize

/-- What changes a file. A reshape goes over the blocks, as far as their data is there. -/
inductive FileChange where
  | write (size offset : ℕ)
  | resize (size : ℕ)
  | reshape (block : ℕ) (key : SecretKey) (data : Bytes)

/-- The manifest after a change: `fd_write` with something to write, `_manifest_resize`, or one round of
`_manifest_reshape`. -/
def FileChange.apply (nextId : ℕ) (now : DateTime) (manifest : LocalFileManifest) :
    FileChange → Except FileError LocalFileManifest
  | .write size offset =>
      if size = 0 then .ok manifest
      else (prepareWrite manifest size offset nextId now).map PreparedWrite.manifest
  | .resize size =>
      if manifest.size = size then .ok manifest
      else (prepareResize manifest size nextId now).map PreparedWrite.manifest
  | .reshape block key data =>
      match manifest.blocks[block]? with
      | none => .ok manifest
      | some chunks => do
          match ← reshapeBlock chunks nextId with
          | none => return manifest
          | some operation => return updateManifest block manifest (← operation.destination.evolveAsBlock key data)

/-- A run of changes, each with the next id and the time that it sees. -/
def playChanges (changes : List (FileChange × ℕ × DateTime)) (manifest : LocalFileManifest) :
    Except FileError LocalFileManifest :=
  changes.foldlM (fun manifest change => change.1.apply change.2.1 change.2.2 manifest) manifest

/-- How many bytes chunks show. -/
def shownBytes (chunks : List Chunk) : ℕ := (chunks.map fun chunk => chunk.stop - chunk.start).sum

/-- The manifest passes the check, and so it does after every run of changes, none of which fails; and
then every read inside of the file is shown in full. -/
def LocalFileManifest.Workable (manifest : LocalFileManifest) : Prop :=
  manifest.assertIntegrity = .ok () ∧
    ∀ changes, ∃ later, playChanges changes manifest = .ok later ∧ later.assertIntegrity = .ok () ∧
      ∀ size offset, offset + size ≤ later.size → shownBytes (prepareRead later size offset) = size

section Read

variable {manifest : LocalFileManifest}

theorem Contiguous.shownBytes {start stop : ℕ} {chunks : List Chunk} (contiguous : Contiguous start chunks stop) :
    shownBytes chunks = stop - start := by
  induction chunks generalizing start with
  | nil =>
    obtain rfl : start = stop := contiguous
    rw [Nat.sub_self]
    rfl
  | cons chunk rest ih =>
    obtain ⟨rfl, within, later⟩ := contiguous
    have ordered := within.2.1
    have beyond := later.le
    have here : Guardata.shownBytes (chunk :: rest) = (chunk.stop - chunk.start) + Guardata.shownBytes rest := rfl
    rw [here, ih later]
    omega

/-- A read of everything shows what lies in blocks. -/
theorem shownBytes_prepareRead (integrity : FileIntegrity manifest.blocksize manifest.size manifest.blocks)
    (positive : 0 < manifest.blocksize) {size offset : ℕ} (inside : offset + size ≤ manifest.size) :
    shownBytes (prepareRead manifest size offset) =
      max offset (min (offset + size) (manifest.blocks.length * manifest.blocksize)) - offset := by
  have contiguous := integrity.contiguous_prepareRead positive size offset
  simp only [min_eq_left (show offset ≤ manifest.size by omega),
    min_eq_left (show size ≤ manifest.size - offset by omega)] at contiguous
  exact contiguous.shownBytes

end Read

section Changes

variable {manifest : LocalFileManifest}

/-- The run lemma of a write: the shape is kept from part to part. -/
theorem exists_foldlM_writeBlock {blocksize size origin padding block start stop : ℕ}
    {parts : List (ℕ × ℕ × ℕ)} (tiles : Tiles blocksize block start stop parts)
    (occupied : ∀ part ∈ parts, part.2.1 < part.2.2) (state : WriteState)
    (shape : FileShape blocksize size state.blocks)
    (same : ∀ other, block ≤ other → state.blocks[other]? = manifest.blocks[other]?) (reach : start ≤ size) :
    ∃ final, (parts.map fun (block, start, stop) => (block, stop - start, start, start - origin)).foldlM
        (writeBlock manifest padding) state = .ok final ∧
      FileShape blocksize (max size stop) final.blocks := by
  induction tiles generalizing size state with
  | nil block offset =>
    refine ⟨state, rfl, ?_⟩
    rwa [max_eq_left reach]
  | @cons block start middle stop rest lower ordered inside upper later ih =>
    obtain ⟨here, others⟩ := List.forall_mem_cons.mp occupied
    replace here : start < middle := here
    have chunks : manifest.getChunks block = state.blocks[block]?.getD [] := by
      rw [LocalFileManifest.getChunks, same block le_rfl]
    have further := later.le
    have bound := shape.block_le_length (show 0 < blocksize by rw [Nat.succ_mul] at upper; omega)
      (lower.trans reach)
    obtain ⟨written, shape'⟩ := writeBlock_eq shape chunks reach lower here upper padding (start - origin)
    have kept (chunks : List Chunk) (other : ℕ) (beyond : block + 1 ≤ other) :
        (replaceBlock state.blocks block chunks)[other]? = manifest.blocks[other]? := by
      rw [getElem?_replaceBlock bound, if_neg (by omega), same other (by omega)]
    obtain ⟨final, walked, shape''⟩ := ih others ⟨_, _, _, _⟩ shape' (kept _) (le_max_right _ _)
    refine ⟨final, ?_, ?_⟩
    · rw [List.map_cons, List.foldlM_cons, written]
      exact walked
    · rwa [max_assoc, max_eq_right further] at shape''

theorem exists_prepareWrite (shape : FileShape manifest.blocksize manifest.size manifest.blocks)
    (positive : 0 < manifest.blocksize) {size offset : ℕ} (something : 0 < size + (offset - manifest.size))
    (nextId : ℕ) (now : DateTime) :
    ∃ prepared, prepareWrite manifest size offset nextId now = .ok prepared ∧
      prepared.manifest.blocksize = manifest.blocksize ∧
      FileShape manifest.blocksize prepared.manifest.size prepared.manifest.blocks := by
  let padding := offset - manifest.size
  let origin := min offset manifest.size
  have tiles := tiles_locateRange positive (by omega : origin ≤ origin + (size + padding))
  obtain ⟨final, walked, shape'⟩ := @exists_foldlM_writeBlock manifest _ _ origin padding _ _ _ _ tiles
    (fun part => locateRange_lt positive (by omega)) ⟨manifest.blocks, [], ∅, nextId⟩ shape
    (fun _ _ => rfl) (by omega)
  refine ⟨⟨manifest.evolveAndMarkUpdated (max manifest.size (origin + (size + padding))) final.blocks now,
    final.writeOperations, final.removedIds, final.nextId⟩, ?_, rfl, shape'⟩
  rw [prepareWrite, splitWrite, walked]
  rfl

theorem exists_prepareResize (shape : FileShape manifest.blocksize manifest.size manifest.blocks)
    (positive : 0 < manifest.blocksize) {size : ℕ} (different : manifest.size ≠ size) (nextId : ℕ)
    (now : DateTime) :
    ∃ prepared, prepareResize manifest size nextId now = .ok prepared ∧
      prepared.manifest.blocksize = manifest.blocksize ∧
      FileShape manifest.blocksize prepared.manifest.size prepared.manifest.blocks := by
  unfold prepareResize
  split
  · next longer => exact exists_prepareWrite shape positive (by omega) nextId now
  · next shorter =>
    obtain ⟨chunks, kept, -, -, done, shape'⟩ :=
      prepareTruncate_eq shape positive (by omega : size < manifest.size) now
    rw [done]
    exact ⟨_, rfl, rfl, shape'⟩

/-- A chunk that covers its block can take its place. -/
theorem FileShape.set {blocksize size block : ℕ} {blocks : List (List Chunk)} {chunks : List Chunk}
    (shape : FileShape blocksize size blocks) (found : blocks[block]? = some chunks) (chunk : Chunk)
    (contiguous : Contiguous (block * blocksize) [chunk] (min ((block + 1) * blocksize) size))
    (proper : chunk.start < chunk.stop) : FileShape blocksize size (blocks.set block [chunk]) := by
  have bound := (List.getElem?_eq_some_iff.mp found).1
  have inside := (shape.exists_iff block).mp bound
  have ends : chunk.stop = min ((block + 1) * blocksize) size := contiguous.2.2
  have begins : chunk.start = block * blocksize := contiguous.1
  have whole : max size chunk.stop = size := by omega
  have placed : FileShape blocksize (max size chunk.stop) (replaceBlock blocks block [chunk]) := by
    refine shape.replace inside.le (by omega) (by omega) ?_ ?_ bound.le
    · rwa [whole]
    · intro other member
      rw [List.mem_singleton.mp member]
      exact proper
  rwa [whole, replaceBlock, ← List.set_eq_take_cons_drop _ bound] at placed

/-- A chunk at the start of its raw data gets an access. -/
theorem exists_evolveAsBlock {chunk : Chunk} (aligned : chunk.rawOffset = chunk.start) (key : SecretKey)
    (data : Bytes) : ∃ access, chunk.evolveAsBlock key data = .ok { chunk with access := access } := by
  by_cases already : chunk.isBlock
  · exact ⟨chunk.access, by rw [Chunk.evolveAsBlock, if_pos already]⟩
  · refine ⟨some ⟨chunk.id, key, chunk.start, chunk.stop - chunk.start, .fromData data⟩, ?_⟩
    rw [Chunk.evolveAsBlock, if_neg already, Except.require, if_pos aligned]
    rfl

/-- The round of a reshape succeeds, and the block is as long as it was. -/
theorem exists_reshape (shape : FileShape manifest.blocksize manifest.size manifest.blocks)
    (positive : 0 < manifest.blocksize) (nextId : ℕ) (now : DateTime) (block : ℕ) (key : SecretKey)
    (data : Bytes) :
    ∃ later, FileChange.apply nextId now manifest (.reshape block key data) = .ok later ∧
      later.blocksize = manifest.blocksize ∧ FileShape manifest.blocksize later.size later.blocks := by
  rw [FileChange.apply]
  cases found : manifest.blocks[block]? with
  | none => exact ⟨manifest, rfl, rfl, shape⟩
  | some chunks =>
    have inside := (shape.exists_iff block).mp (List.getElem?_eq_some_iff.mp found).1
    have contiguous := shape.contiguous block chunks found
    have occupied : block * manifest.blocksize < min ((block + 1) * manifest.blocksize) manifest.size := by
      rw [Nat.succ_mul]
      omega
    rcases reshapeBlock_spec contiguous occupied nextId with ⟨chunk, rfl, -, done⟩ |
      ⟨chunk, rfl, aligned, -, done⟩ | done
    · refine ⟨manifest, ?_, rfl, shape⟩
      simp only [done, Except.ok_bind]
      rfl
    · simp only [Chunk.isPseudoBlock, decide_eq_true_eq] at aligned
      obtain ⟨access, evolved⟩ := exists_evolveAsBlock aligned.1.symm key data
      refine ⟨updateManifest block manifest { chunk with access := access }, ?_, rfl, ?_⟩
      · simp only [done, Except.ok_bind, evolved]
        rfl
      · have proper := shape.proper _ (List.mem_of_getElem? found) chunk (List.mem_singleton_self chunk)
        exact shape.set found _ contiguous proper
    · generalize starts : block * manifest.blocksize = start at *
      generalize stops : min ((block + 1) * manifest.blocksize) manifest.size = stop at *
      obtain ⟨access, evolved⟩ := @exists_evolveAsBlock (newChunk nextId start stop) rfl key data
      refine ⟨updateManifest block manifest { newChunk nextId start stop with access := access }, ?_, rfl, ?_⟩
      · simp only [done, Except.ok_bind, evolved]
        rfl
      · refine shape.set found _ ⟨starts.symm, ?_, stops.symm⟩ occupied
        simp only [newChunk, Chunk.Within]
        omega

/-- The step lemma: no change fails, and each keeps the shape. -/
theorem exists_apply (shape : FileShape manifest.blocksize manifest.size manifest.blocks)
    (positive : 0 < manifest.blocksize) (nextId : ℕ) (now : DateTime) (change : FileChange) :
    ∃ later, change.apply nextId now manifest = .ok later ∧ later.blocksize = manifest.blocksize ∧
      FileShape manifest.blocksize later.size later.blocks := by
  cases change with
  | write size offset =>
    rw [FileChange.apply]
    split
    · exact ⟨manifest, rfl, rfl, shape⟩
    · next something =>
      obtain ⟨prepared, done, kept, shape'⟩ :=
        exists_prepareWrite shape positive (by omega : 0 < size + (offset - manifest.size)) nextId now
      exact ⟨prepared.manifest, by rw [done]; rfl, kept, shape'⟩
  | resize size =>
    rw [FileChange.apply]
    split
    · exact ⟨manifest, rfl, rfl, shape⟩
    · next different =>
      obtain ⟨prepared, done, kept, shape'⟩ := exists_prepareResize shape positive different nextId now
      exact ⟨prepared.manifest, by rw [done]; rfl, kept, shape'⟩
  | reshape block key data => exact exists_reshape shape positive nextId now block key data

/-- The run lemma. -/
theorem exists_playChanges (shape : FileShape manifest.blocksize manifest.size manifest.blocks)
    (positive : 0 < manifest.blocksize) (changes : List (FileChange × ℕ × DateTime)) :
    ∃ later, playChanges changes manifest = .ok later ∧ later.blocksize = manifest.blocksize ∧
      FileShape manifest.blocksize later.size later.blocks := by
  induction changes generalizing manifest with
  | nil => exact ⟨manifest, rfl, rfl, shape⟩
  | cons change rest ih =>
    obtain ⟨next, applied, same, shape'⟩ := exists_apply shape positive change.2.1 change.2.2 change.1
    rw [← same] at shape' positive
    obtain ⟨later, played, kept, shape''⟩ := ih shape' positive
    refine ⟨later, ?_, kept.trans same, same ▸ shape''⟩
    rw [playChanges, List.foldlM_cons, applied]
    exact played

end Changes

section Remote

variable {remote : RemoteFileManifest}

theorem getElem?_fromRemote (index : ℕ) : (LocalFileManifest.fromRemote remote).blocks[index]? =
    remote.blocks[index]?.map fun access => [Chunk.fromBlockAccess access] := by
  rw [LocalFileManifest.fromRemote, List.getElem?_map]

theorem contiguous_fromBlockAccess_iff {access : BlockAccess} {start stop : ℕ} :
    Contiguous start [Chunk.fromBlockAccess access] stop ↔
      access.offset = start ∧ access.offset + access.size = stop := by
  simp [Contiguous, Chunk.Within, Chunk.fromBlockAccess]

/-- Aligned blocks have the shape of a file. -/
theorem RemoteFileManifest.Aligned.shape (aligned : remote.Aligned) :
    FileShape remote.blocksize remote.size (LocalFileManifest.fromRemote remote).blocks where
  exists_iff := by
    intro index
    rw [LocalFileManifest.fromRemote, List.length_map]
    constructor
    · intro bound
      have found := List.getElem?_eq_getElem bound
      have positive := (aligned.placed index _ found).2
      have filled := aligned.filled index _ found
      omega
    · intro inside
      by_contra beyond
      have covered := aligned.covered
      have := Nat.mul_le_mul_right remote.blocksize (Nat.le_of_not_lt beyond)
      omega
  contiguous := by
    intro index chunks found
    rw [getElem?_fromRemote, Option.map_eq_some_iff] at found
    obtain ⟨access, there, rfl⟩ := found
    obtain ⟨placed, positive⟩ := aligned.placed index access there
    have filled := aligned.filled index access there
    rw [contiguous_fromBlockAccess_iff, Nat.succ_mul]
    omega
  proper := by
    intro chunks member chunk inside
    obtain ⟨access, found, rfl⟩ := List.mem_map.mp member
    obtain ⟨index, there⟩ := List.mem_iff_getElem?.mp found
    have positive := (aligned.placed index access there).2
    rw [List.mem_singleton.mp inside]
    exact Nat.lt_add_of_pos_right positive

theorem FileShape.workable {manifest : LocalFileManifest}
    (shape : FileShape manifest.blocksize manifest.size manifest.blocks) (positive : 0 < manifest.blocksize) :
    manifest.Workable := by
  refine ⟨assertIntegrity_eq_ok_iff.mpr shape.integrity, ?_⟩
  intro changes
  obtain ⟨later, played, same, shape'⟩ := exists_playChanges shape positive changes
  rw [← same] at shape' positive
  refine ⟨later, played, assertIntegrity_eq_ok_iff.mpr shape'.integrity, ?_⟩
  intro size offset inside
  have last := shape'.size_le
  rw [shownBytes_prepareRead shape'.integrity positive inside]
  omega

/-- The check and a read of the whole file are enough to tell. -/
theorem RemoteFileManifest.Aligned.of_workable (positive : 0 < remote.blocksize)
    (workable : (LocalFileManifest.fromRemote remote).Workable) : remote.Aligned := by
  have integrity := assertIntegrity_eq_ok_iff.mp workable.1
  have count : (LocalFileManifest.fromRemote remote).blocks.length = remote.blocks.length := List.length_map ..
  have covered : remote.size ≤ remote.blocks.length * remote.blocksize := by
    obtain ⟨later, played, -, reads⟩ := workable.2 []
    obtain rfl : LocalFileManifest.fromRemote remote = later := Except.ok.inj played
    have whole := reads remote.size 0 (by rw [Nat.zero_add]; exact le_rfl)
    rw [shownBytes_prepareRead integrity positive (by rw [Nat.zero_add]; exact le_rfl), count] at whole
    change max 0 (min (0 + remote.size) (remote.blocks.length * remote.blocksize)) - 0 = remote.size at whole
    omega
  have lies (index : ℕ) (access : BlockAccess) (found : remote.blocks[index]? = some access) :
      access.offset = index * remote.blocksize ∧ 0 < access.size ∧
        access.offset + access.size = blockStop remote.blocksize remote.size
          (LocalFileManifest.fromRemote remote).blocks index := by
    have there : (LocalFileManifest.fromRemote remote).blocks[index]? = some [Chunk.fromBlockAccess access] := by
      rw [getElem?_fromRemote, found]
      rfl
    obtain ⟨begins, ends⟩ := contiguous_fromBlockAccess_iff.mp (integrity.contiguous index _ there)
    have proper := integrity.proper _ (List.mem_of_getElem? there) _ (List.mem_singleton_self _)
    exact ⟨begins, by simpa [Chunk.fromBlockAccess] using proper, ends⟩
  have inside (index : ℕ) (bound : index < remote.blocks.length) : index * remote.blocksize < remote.size := by
    have last : remote.blocks.length - 1 < remote.blocks.length := by omega
    obtain ⟨begins, occupied, ends⟩ := lies _ _ (List.getElem?_eq_getElem last)
    rw [blockStop, if_pos (by omega)] at ends
    have := Nat.mul_le_mul_right remote.blocksize (show index ≤ remote.blocks.length - 1 by omega)
    omega
  refine ⟨?_, ?_, covered⟩
  · intro index access found
    obtain ⟨begins, occupied, -⟩ := lies index access found
    exact ⟨begins, occupied⟩
  · intro index access found
    obtain ⟨begins, occupied, ends⟩ := lies index access found
    have bound := (List.getElem?_eq_some_iff.mp found).1
    rw [blockStop, count] at ends
    split at ends
    · next last =>
      rw [← last, Nat.succ_mul] at covered
      omega
    · next more =>
      have next := inside (index + 1) (by omega)
      rw [Nat.succ_mul] at next ends
      omega

end Remote

section Decoding

variable {lib : DecodingLibrary}

theorem le_of_naturalField {low number : ℕ} {value : Value}
    (read : notNull (naturalField lib low) value = .ok number) : low ≤ number := by
  have accepted : naturalField lib low value = .ok number := by
    cases value <;> first | exact read | cases read
  simp only [naturalField, Except.bind_eq_ok_iff, Except.require_eq_ok_iff, Except.exists_done,
    Except.pure_eq_ok_iff] at accepted
  obtain ⟨whole, -, bound, rfl⟩ := accepted
  omega

/-- What the schema says about block sizes. -/
theorem blocksize_of_loadFileManifest {data : Value} {remote : RemoteFileManifest}
    (loaded : loadFileManifest lib data = .ok (some remote)) : 8 ≤ remote.blocksize := by
  obtain ⟨fixed, -, fields⟩ := preLoad_eq_ok_iff.mp loaded
  have fields := onMapping_eq_ok_some fields
  simp only [ap_eq_ok_some_iff, Loading.build, Except.ok.injEq, Option.some.injEq] at fields
  obtain ⟨-, blocks, ⟨-, blocksize, ⟨-, -, ⟨-, -, ⟨-, -, ⟨-, -, ⟨-, -, ⟨-, -, ⟨-, -, ⟨-, -, ⟨-, -, rfl, -,
    rfl⟩, -, rfl⟩, -, rfl⟩, -, rfl⟩, -, rfl⟩, -, rfl⟩, -, rfl⟩, -, rfl⟩, -, rfl⟩, read, rfl⟩, -, rfl⟩ := fields
  rw [requiredField, storeErrors_eq_ok_some_iff] at read
  cases found : fixed.get? "blocksize" with
  | none => rw [found] at read; cases read
  | some value =>
    rw [found] at read
    exact le_of_naturalField read

/-- Whatever class loads it, a file manifest is what its schema gives. -/
theorem loadFileManifest_of_load {cls : SignedDataClass} {data : Value} {remote : RemoteFileManifest}
    (loaded : cls.load lib data = .ok (some (.fileManifest remote))) :
    loadFileManifest lib data = .ok (some remote) := by
  cases cls with
  | fileManifest =>
    obtain ⟨manifest, inner, ⟨⟩⟩ := content_eq_ok_some_iff.mp loaded
    exact inner
  | baseManifest =>
    obtain ⟨schema, member, chosen⟩ := exists_of_loadOneOf loaded
    simp only [manifestTypeSchemas, List.mem_cons, List.not_mem_nil, or_false] at member
    rcases member with rfl | rfl | rfl | rfl
    all_goals obtain ⟨manifest, inner, ⟨⟩⟩ := content_eq_ok_some_iff.mp chosen
    exact inner
  | baseMessageContent =>
    obtain ⟨schema, member, chosen⟩ := exists_of_loadOneOf loaded
    simp only [messageTypeSchemas, List.mem_cons, List.not_mem_nil, or_false] at member
    rcases member with rfl | rfl | rfl | rfl
    all_goals obtain ⟨message, -, ⟨⟩⟩ := content_eq_ok_some_iff.mp chosen
  | _ => obtain ⟨manifest, -, ⟨⟩⟩ := content_eq_ok_some_iff.mp loaded

end Decoding

/-- The local manifest of an accepted file passes the integrity check, survives every run of changes and
shows what reads ask for if and only if the blocks are aligned. -/
theorem accepted_file_workable_iff (lib : DecodingLibrary) (cls : SignedDataClass) (signed : SignedBytes)
    (authorVerifyKey : VerifyKey) (expectedAuthor : Option DeviceID) (expectations : Expectations)
    (remote : RemoteFileManifest)
    (accepted : cls.verifyAndLoad lib signed authorVerifyKey expectedAuthor expectations =
      .ok (.fileManifest remote)) :
    (LocalFileManifest.fromRemote remote).Workable ↔ remote.Aligned := by
  obtain ⟨packed, data, -, -, loaded⟩ := load_of_verifyAndLoad accepted
  have blocksize := blocksize_of_loadFileManifest (loadFileManifest_of_load loaded)
  have positive : 0 < remote.blocksize := by omega
  constructor
  · intro workable
    exact .of_workable positive workable
  · intro aligned
    exact aligned.shape.workable positive

section Example

private def fileLibrary : DecodingLibrary :=
  { plainLibrary with secretKey := fun _ => some ⟨0⟩, hashDigest := fun data => some ⟨data⟩ }

private def packedBlock (offset size : ℕ) : Packed :=
  .map [(.str "id", .ext 2 (List.replicate 16 1)), (.str "key", .bin []), (.str "offset", .int offset),
    (.str "size", .int size), (.str "digest", .bin [])]

private def packedFile (size : ℕ) (blocks : List Packed) : SignedBytes :=
  ⟨⟨1⟩, some (.map [(.str "type", .str "file_manifest"), (.str "author", .str "bob@dev"),
    (.str "timestamp", .ext 1 (List.replicate 8 0)), (.str "id", .ext 2 (List.replicate 16 0)),
    (.str "parent", .ext 2 (List.replicate 16 0)), (.str "version", .int 1),
    (.str "created", .ext 1 (List.replicate 8 0)), (.str "updated", .ext 1 (List.replicate 8 0)),
    (.str "size", .int size), (.str "blocksize", .int 8), (.str "blocks", .array blocks)])⟩

private def decodedFile (size : ℕ) (blocks : List (ℕ × ℕ)) : RemoteFileManifest :=
  ⟨⟨"bob", "dev"⟩, 0, 0, 0, 1, 0, 0, size, 8,
    blocks.map fun block => ⟨ByteInteger.ofBytes (List.replicate 16 1), ⟨0⟩, block.1, block.2, ⟨[]⟩⟩⟩

/-- Ten bytes in two blocks. -/
theorem accepted_file_workable_iff_two : (LocalFileManifest.fromRemote (decodedFile 10 [(0, 8), (8, 2)])).Workable :=
  (accepted_file_workable_iff fileLibrary .baseManifest (packedFile 10 [packedBlock 0 8, packedBlock 8 2]) ⟨1⟩
    (some ⟨"bob", "dev"⟩) {} (decodedFile 10 [(0, 8), (8, 2)]) (by decide)).mpr
    ⟨by rintro (_ | _ | index) access ⟨⟩ <;> decide, by rintro (_ | _ | index) access ⟨⟩ <;> decide, by decide⟩

/-- A block that starts in the middle fails the check. A block of nine bytes passes it, and a read of the
nine bytes shows eight. -/
theorem accepted_blocks_misplaced :
    (SignedDataClass.fileManifest.verifyAndLoad fileLibrary (packedFile 8 [packedBlock 4 4]) ⟨1⟩
        (some ⟨"bob", "dev"⟩) {} = .ok (.fileManifest (decodedFile 8 [(4, 4)])) ∧
      (LocalFileManifest.fromRemote (decodedFile 8 [(4, 4)])).assertIntegrity = .error .assertion) ∧
    SignedDataClass.fileManifest.verifyAndLoad fileLibrary (packedFile 9 [packedBlock 0 9]) ⟨1⟩
        (some ⟨"bob", "dev"⟩) {} = .ok (.fileManifest (decodedFile 9 [(0, 9)])) ∧
      shownBytes (prepareRead (.fromRemote (decodedFile 9 [(0, 9)])) 9 0) = 8 := by
  decide

end Example

end Guardata
