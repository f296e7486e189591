import Guardata.Model.DeviceIds
import Guardata.Model.WorkspaceTransactions

/-! # Paths as texts

`FsPath(raw)` splits a text at its slashes, resolves the dots and makes an `EntryName` of every part that is
left; `str(path)` writes the names behind slashes. A name that is joined to a path goes through `EntryName`
once more.
-/

namespace Guardata

/-- `EntryName(raw)` where its refusal is one `ValueError` among others. -/
def EntryName.parse (normalize : String → String) (raw : String) : Except TextError EntryName :=
  (EntryName.new normalize raw).mapError fun _ => .value "Invalid entry name"

namespace FsPath

section Parse

variable (normalize : String → String)

/-- The body of the loop of `FsPath.__init__`. -/
def addRawPart (parts : List EntryName) (rawPart : String) : Except TextError (List EntryName) :=
  if rawPart = "." ∨ rawPart = "" then .ok parts
  else if rawPart = ".." then .ok parts.dropLast
  else do
    let name ← EntryName.parse normalize rawPart
    return parts ++ [name]

/-- `FsPath(raw)` of a text. -/
def parse (raw : String) : Except TextError FsPath := do
  .require (raw.toList.head? = some '/') (.value "Path must be absolute")
  ((raw.toList.splitOn '/').map String.ofList).foldlM (addRawPart normalize) []

/-- `path / entry`. -/
def truediv (path : FsPath) (entry : String) : Except TextError FsPath := do
  let name ← EntryName.parse normalize entry
  return path ++ [name]

end Parse

/-- `str(path)`. -/
def text (path : FsPath) : String := "/" ++ "/".intercalate path

def isRoot (path : FsPath) : Bool := path.isEmpty

end FsPath

/-- The children of a manifest as they are serialized. -/
def serializedChildren (children : Dict EntryName EntryID) : List (Value × Value) :=
  children.items.map fun child => (.str child.1, .uuid child.2)

end Guardata
