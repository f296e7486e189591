import Guardata.Model.Winify
import Mathlib.Data.List.Sort

/-! # Listing a folder on Windows

`read_directory` returns the entries of an opened folder behind a marker, which is the name of the last entry that
was taken. What `entry_info` answers is a parameter: a listing is looked at while the folders stay as they are.
-/

namespace Guardata

/-- What only one kind of entry has in its stats. -/
inductive EntryKind where
  | file (size : ℕ)
  | folder (children : List EntryName)
deriving DecidableEq, Repr

/-- The stats of an entry. -/
structure EntryStat where
  id : EntryID
  created : DateTime
  updated : DateTime
  kind : EntryKind
deriving DecidableEq, Repr

/-- `to_stats`; the names are sorted. -/
def LocalEntryManifest.toStats : LocalEntryManifest → EntryStat
  | file manifest => ⟨manifest.base.id, manifest.base.created, manifest.updated, .file manifest.size⟩
  | folder manifest => ⟨manifest.base.id, manifest.base.created, manifest.updated,
      .folder (manifest.children.keys.insertionSort (· ≤ ·))⟩

/-- The members of `FILE_ATTRIBUTE` that are used here. -/
inductive FileAttribute where
  | directory
  | archive
  | notContentIndexed
deriving DecidableEq, Repr

/-- What `stat_to_winfsp_attributes` returns; times are filetimes. -/
structure WinfspAttributes where
  creationTime : ℕ
  lastAccessTime : ℕ
  lastWriteTime : ℕ
  changeTime : ℕ
  indexNumber : ℕ
  fileAttributes : List FileAttribute
  allocationSize : ℕ
  fileSize : ℕ
deriving DecidableEq, Repr

structure DirectoryEntry where
  fileName : String
  attributes : WinfspAttributes
deriving DecidableEq, Repr

def roundToBlockSize (size blockSize : ℕ) : ℕ :=
  if size % blockSize = 0 then size else (size / blockSize + 1) * blockSize

/-- Why a listing raises; the decorator of the operations translates it. -/
inductive ListingError (ε : Type*) where
  | notADirectory
  | access (error : ε)
  | text (error : TextError)
deriving DecidableEq, Repr

section ReadDirectory

variable {ε : Type*} (normalize : String → String) (dtToFiletime : DateTime → ℕ)
  (entryInfo : FsPath → Except ε EntryStat)

def statToWinfspAttributes (stat : EntryStat) : WinfspAttributes :=
  let created := dtToFiletime stat.created
  let updated := dtToFiletime stat.updated
  let (sort, allocationSize, fileSize) := match stat.kind with
    | .folder _ => (FileAttribute.directory, 0, 0)
    | .file size => (FileAttribute.archive, roundToBlockSize size defaultBlockSize, size)
  { creationTime := created
    lastAccessTime := updated
    lastWriteTime := updated
    changeTime := updated
    indexNumber := stat.id % 2 ^ 32
    fileAttributes := [sort, .notContentIndexed]
    allocationSize := allocationSize
    fileSize := fileSize }

/-- The body of the loop over the remaining children. -/
def childEntry (path : FsPath) (childName : EntryName) : Except (ListingError ε) DirectoryEntry := do
  let name ← (winifyEntryName childName).mapError .text
  let childPath ← (path.truediv normalize childName).mapError .text
  let childStat ← (entryInfo childPath).mapError .access
  return ⟨name, statToWinfspAttributes dtToFiletime childStat⟩

/-- The children behind the one that has the given name. -/
def childrenAfter (children : List EntryName) : Option String → List EntryName
  | none => children
  | some marker => (children.dropWhile (· ≠ marker)).drop 1

def readDirectory (path : FsPath) (marker : Option String) : Except (ListingError ε) (List DirectoryEntry) := do
  let stat ← (entryInfo path).mapError .access
  match stat.kind with
  | .file _ => .error .notADirectory
  | .folder children =>
      -- Current directory
      let current := if marker = none ∧ ¬ path.isRoot then
          [⟨".", statToWinfspAttributes dtToFiletime stat⟩] else []
      let marker := if marker = some "." then none else marker
      -- Parent directory
      let parent ← if marker = none ∧ ¬ path.isRoot then do
          let parentStat ← (entryInfo path.parent).mapError .access
          pure [⟨"..", statToWinfspAttributes dtToFiletime parentStat⟩]
        else pure []
      let marker := if marker = some ".." then none else marker
      let rest ← (childrenAfter children marker).mapM (childEntry normalize dtToFiletime entryInfo path)
      return current ++ parent ++ rest

/-- A listing in batches of the given sizes: each call takes up behind the last entry of the batch before it, an
empty one ends it, and the last call takes all that is left. -/
def listInBatches (path : FsPath) : Option String → List ℕ → Except (ListingError ε) (List DirectoryEntry)
  | marker, [] => readDirectory normalize dtToFiletime entryInfo path marker
  | marker, size :: sizes => do
      let entries ← readDirectory normalize dtToFiletime entryInfo path marker
      match (entries.take size).getLast? with
      | none => return []
      | some last => do
          let rest ← listInBatches path (some last.fileName) sizes
          return entries.take size ++ rest

end ReadDirectory

end Guardata
