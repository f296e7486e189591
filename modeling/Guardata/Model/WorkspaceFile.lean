import Guardata.Model.FileTransactions

/-! # File objects

A file object is a descriptor with a position, used as a mode allows. The position lives here, while the
size and the bytes live in the file transactions below, so every method is a coroutine over both. Text is
never written: `_write_str` is not implemented. A resize to a negative position is left out; the blocks of
such a file mean nothing.
-/

namespace Guardata

open Machine Coroutine

inductive FileState where
  | init
  | opened
  | closed
deriving DecidableEq

inductive WorkspaceFileError where
  /-- `ValueError`. -/
  | value (message : String)
  /-- `TypeError`. -/
  | type (message : String)
  /-- `FSOffsetError`. -/
  | offset
  /-- `FSUnsupportedOperation`. -/
  | unsupportedOperation
  | transaction (error : FileError)
deriving DecidableEq

inductive Whence where
  | seekSet
  | seekCur
  | seekEnd
deriving DecidableEq

structure WorkspaceFile where
  fd : FileDescriptor
  mode : List Char
  readable : Bool := false
  writable : Bool := false
  append : Bool := false
  binary : Bool := false
  offset : ℤ := 0
  state : FileState := .init
deriving DecidableEq

/-- `WorkspaceFile.__init__`. -/
def WorkspaceFile.new (fd : FileDescriptor) (mode : List Char) : Except WorkspaceFileError WorkspaceFile := do
  let mode := mode.map Char.toLower
  -- Preventing to open in write and read in same time or write and append or open with no mode
  if (['r', 'w', 'a', 'x'].filter fun c => c ∈ mode).length ≠ 1 then
    .error (.value "must have exactly one of create/read/write/append mode")
  else if mode.any fun c => c ∉ ['a', 'r', 'w', 'x', 'b', '+'] then
    .error (.value ("invalid mode: '" ++ String.ofList mode ++ "'"))
  else return { fd, mode }

/-- A file object and the device it works on. -/
structure FileSession where
  file : WorkspaceFile
  world : World

def FileSession.worldComponent : Component World FileSession where
  get := FileSession.world
  set world session := { session with world := world }
  get_set _ _ := rfl
  set_set _ _ _ := rfl
  set_get _ := rfl

abbrev FileMethod := Coroutine WorkspaceFileError FileSession

/-- `fd_info`, of which only the size is used. -/
def Transaction.fdInfo (fd : FileDescriptor) : Transaction ℕ := do
  return (← loadFileDescriptor fd).size

namespace WorkspaceFile

def self : FileMethod WorkspaceFile := observe FileSession.file

def modify (change : WorkspaceFile → WorkspaceFile) : FileMethod Unit :=
  update fun session => { session with file := change session.file }

def transaction {α : Type} (body : Transaction α) : FileMethod α :=
  body.within FileSession.worldComponent .transaction

/-- The decorator `check_state`. -/
def checkState : FileMethod Unit := do
  match (← self).state with
  | .closed => .raise (.value "I/O operation on closed file.")
  | .init => .raise (.value "I/O operation on non-initialized file.")
  | .opened => return ()

def isReadable : FileMethod Bool := do
  checkState
  return (← self).readable

def isWritable : FileMethod Bool := do
  checkState
  return (← self).writable

/-- `seekable`, which holds of every open file. -/
def isSeekable : FileMethod Bool := do
  checkState
  return true

def getSize : FileMethod ℕ := do
  checkState
  transaction (Transaction.fdInfo (← self).fd)

/-- `read`; `none` if the attempts of `fd_read` are used up. -/
def read (attempts : ℕ) (size : ℤ) : FileMethod (Option Bytes) := do
  if !(← isReadable) then .raise .unsupportedOperation
  else if size < -1 then .raise (.value "read length must be non-negative or -1")
  else
    let file ← self
    match ← transaction (Transaction.fdRead file.fd size file.offset false attempts []) with
    | none => return none
    | some result =>
        modify fun file => { file with offset := file.offset + result.length }
        return some result

def seek (offset : ℤ) (whence : Whence) : FileMethod ℤ := do
  if !(← isSeekable) then .raise .unsupportedOperation
  else
    let file ← self
    match whence with
    | .seekSet =>
        if offset < 0 then .raise .offset
        else modify fun file => { file with offset := offset }
    | .seekCur =>
        if offset < 0 ∧ file.offset + offset < 0 then .raise .offset
        else modify fun file => { file with offset := file.offset + offset }
    | .seekEnd =>
        -- If offset going negative
        if offset < 0 ∧ file.offset + offset < 0 then .raise .offset
        else
          let size ← getSize
          modify fun file => { file with offset := size + offset }
    return (← self).offset

def tell : FileMethod ℤ := do
  if !(← isSeekable) then .raise .unsupportedOperation
  else return (← self).offset

/-- `truncate`; without a size, to the current position. -/
def truncate (size : Option ℤ) : FileMethod ℤ := do
  if !(← isSeekable) then .raise .unsupportedOperation
  else if !(← isWritable) then .raise .unsupportedOperation
  else
    let file ← self
    match size with
    | none =>
        if file.offset < 0 then .atomic (fun _ => none) fun _ => .raise .offset
        else
          transaction (Transaction.fdResize file.fd file.offset.toNat false)
          return file.offset
    | some size =>
        if size < 0 then .raise .offset
        else
          transaction (Transaction.fdResize file.fd size.toNat (size = 0))
          return size

def writeBytes (data : Bytes) : FileMethod ℕ := do
  let file ← self
  let result ← transaction (Transaction.fdWrite file.fd data file.offset false)
  if !(← self).append then
    modify fun file => { file with offset := file.offset + result }
  return result

/-- `write` of bytes. -/
def write (data : Bytes) : FileMethod ℕ := do
  if !(← isWritable) then .raise .unsupportedOperation
  else
    -- Preparing offset at EOF if open with append mode
    if (← self).append then
      let size ← getSize
      modify fun file => { file with offset := size }
    if (← self).binary then writeBytes data
    else .raise (.type "write() argument must be str, not bytes")

/-- `ainit`: the modes `w` and `x` truncate the file. -/
def ainit : FileMethod Unit := do
  if (← self).state = .init then
    modify fun file => { file with state := .opened, binary := 'b' ∈ file.mode }
    let mode := (← self).mode
    if 'w' ∈ mode ∨ 'x' ∈ mode then
      modify fun file => { file with writable := true }
      let _ ← truncate (some 0)
      if '+' ∈ mode then modify fun file => { file with readable := true }
    else if 'r' ∈ mode then
      modify fun file => { file with readable := true }
      if '+' ∈ mode then modify fun file => { file with writable := true }
      let _ ← seek 0 .seekSet
    else if 'a' ∈ mode then
      modify fun file => { file with writable := true, append := true }
      if '+' ∈ mode then modify fun file => { file with readable := true }

end WorkspaceFile

end Guardata
