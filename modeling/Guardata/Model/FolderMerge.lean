import Guardata.Model.SignedData
import Guardata.ToMathlib.Dict

/-! # Merging the children of a folder

Both sides of a conflict changed the children of a folder since their common base. Every entry id
is first given its rightful name, on the local or on the remote side; then the two mappings are
laid over each other, and a local name that is taken already gets a suffix. The source walks
through a set of ids, so the order of the walk is an argument.

Unicode normalization is a parameter: `normalize` stands for `unicodedata.normalize("NFC", ·)`.
-/

namespace Guardata

abbrev EntryID := UUID
abbrev EntryName := String

/-- The names that `EntryName` refuses. -/
structure InvalidEntryName where
  raw : String
deriving DecidableEq, Repr

/-- `EntryName(raw)`: the checks look at the raw text, the value is the normalized one. -/
def EntryName.new (normalize : String → String) (raw : String) : Except InvalidEntryName EntryName :=
  if 0 < raw.utf8ByteSize ∧ raw.utf8ByteSize < 256 ∧ raw ≠ "." ∧ raw ≠ ".." ∧
      '/' ∉ raw.toList ∧ '\x00' ∉ raw.toList then
    .ok (normalize raw)
  else
    .error ⟨raw⟩

/-- The suffixes as they are written behind a name. -/
def suffixString (suffixes : List String) : String :=
  String.join (suffixes.map fun suffix => " (" ++ suffix ++ ")")

/-- `full_name`: the suffixes go before the first dot, unless the only dot leads the name. -/
def fullName (normalize : String → String) (name : EntryName) (suffixes : List String) :
    Except InvalidEntryName EntryName :=
  if suffixes = [] then .ok name
  else if '.' ∉ name.toList.drop 1 then EntryName.new normalize (name ++ suffixString suffixes)
  else
    match (name.toList.splitOn '.').map String.ofList with
    | [] => EntryName.new normalize (suffixString suffixes)
    | firstName :: ext =>
        EntryName.new normalize (".".intercalate ((firstName ++ suffixString suffixes) :: ext))

/-- The suffix that `get_conflict_filename` tries in a given round. -/
def conflictSuffix (author : String) : ℕ → String
  | 0 => "conflicting with " ++ author
  | round + 1 => "conflicting with " ++ author ++ " - " ++ toString (round + 2)

/-- The loop of `get_conflict_filename` from a given round on; none if it is still running after as
many more rounds as given. -/
def conflictFilenameFrom (normalize : String → String) (filename : EntryName) (filenames : List EntryName)
    (author : String) : ℕ → ℕ → Option (Except InvalidEntryName EntryName)
  | 0, _ => none
  | rounds + 1, round =>
      match fullName normalize filename [conflictSuffix author round] with
      | .error refused => some (.error refused)
      | .ok newFilename =>
          if newFilename ∈ filenames then
            conflictFilenameFrom normalize filename filenames author rounds (round + 1)
          else some (.ok newFilename)

/-- `get_conflict_filename`, for at most as many rounds as given. -/
def getConflictFilename (normalize : String → String) (filename : EntryName) (filenames : List EntryName)
    (author : String) (rounds : ℕ) : Option (Except InvalidEntryName EntryName) :=
  conflictFilenameFrom normalize filename filenames author rounds 0

/-- Ids to names. With several names for one id the last one stays. -/
def reversedChildren (children : Dict EntryName EntryID) : Dict EntryID EntryName :=
  Dict.ofList (children.items.map Prod.swap)

/-- The rightful name of an id: on the remote side, on the local side, or none at all. -/
inductive RightfulName where
  | removed
  | remoteSide (name : EntryName) (suffixes : List String)
  | localSide (name : EntryName)
deriving DecidableEq, Repr

/-- The branches of the source, in its order. -/
def rightfulName (baseName localName remoteName : Option EntryName) (remoteDeviceName : String) :
    RightfulName :=
  match baseName, localName, remoteName with
  -- Added locally
  | none, some localName, _ => .localSide localName
  -- Added remotely
  | none, none, some remoteName => .remoteSide remoteName []
  -- Removed locally
  | _, none, _ => .removed
  -- Removed remotely
  | some _, some _, none => .removed
  | some baseName, some localName, some remoteName =>
      -- Preserved with the same naming, or name changed locally
      if localName = remoteName then .localSide localName
      else if baseName = remoteName then .localSide localName
      -- Name changed remotely
      else if baseName = localName then .remoteSide remoteName []
      -- Name changed both locally and remotely
      else .remoteSide remoteName ["renamed by " ++ remoteDeviceName]

/-- The children solved so far, each with its id and the suffixes of its name. -/
structure SolvedChildren where
  localSide : Dict EntryName (EntryID × List String) := ∅
  remoteSide : Dict EntryName (EntryID × List String) := ∅

/-- The arguments of `merge_folder_children`; the device name as it is written into a suffix. -/
structure ConflictingChildren where
  baseChildren : Dict EntryName EntryID
  localChildren : Dict EntryName EntryID
  remoteChildren : Dict EntryName EntryID
  remoteDeviceName : String

section Merge

variable (normalize : String → String) (conflict : ConflictingChildren)

/-- The rightful name of an id of the two sides. -/
def ConflictingChildren.rightfulNameOf (id : EntryID) : RightfulName :=
  rightfulName ((reversedChildren conflict.baseChildren).get? id)
    ((reversedChildren conflict.localChildren).get? id)
    ((reversedChildren conflict.remoteChildren).get? id) conflict.remoteDeviceName

/-- Map one more id to its rightful name. -/
def solveChild (solved : SolvedChildren) (id : EntryID) : SolvedChildren :=
  match conflict.rightfulNameOf id with
  | .removed => solved
  | .remoteSide name suffixes => { solved with
      remoteSide := solved.remoteSide.insert name ((conflict.remoteChildren.get? name).getD id, suffixes) }
  | .localSide name => { solved with
      localSide := solved.localSide.insert name ((conflict.localChildren.get? name).getD id, []) }

/-- Lay a remote child under its full name. -/
def placeRemoteChild (children : Dict EntryName EntryID)
    (child : EntryName × EntryID × List String) : Except InvalidEntryName (Dict EntryName EntryID) := do
  let name ← fullName normalize child.1 child.2.2
  return children.insert name child.2.1

/-- Lay a local child under its name, with a suffix if that is taken. -/
def placeLocalChild (remoteDeviceName : String) (children : Dict EntryName EntryID)
    (child : EntryName × EntryID × List String) : Except InvalidEntryName (Dict EntryName EntryID) := do
  let suffixes := if children.contains child.1 then
    child.2.2 ++ ["conflicting with " ++ remoteDeviceName] else child.2.2
  let name ← fullName normalize child.1 suffixes
  return children.insert name child.2.1

/-- `merge_folder_children`, walking through the ids in the given order. -/
def mergeFolderChildren (ids : List EntryID) : Except InvalidEntryName (Dict EntryName EntryID) := do
  let solved := ids.foldl (solveChild conflict) {}
  let children ← solved.remoteSide.items.foldlM (placeRemoteChild normalize) ∅
  solved.localSide.items.foldlM (placeLocalChild normalize conflict.remoteDeviceName) children

/-- An order in which a set of the local and remote ids may be walked through. -/
def ConflictingChildren.IsWalk (ids : List EntryID) : Prop :=
  ids.Nodup ∧ ∀ id, id ∈ ids ↔ id ∈ conflict.localChildren.values ∨ id ∈ conflict.remoteChildren.values

end Merge

end Guardata
