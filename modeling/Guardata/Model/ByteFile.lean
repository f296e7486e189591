import Guardata.Model.FileManifest

/-! # A file as a byte array

What a file is for: a run of bytes that is read and written in place, and that grows by null bytes
up to a write or a resize past its end. Nothing here knows of blocks or chunks.
-/

namespace Guardata.ByteFile

def read (file : Bytes) (size offset : ℕ) : Bytes := (file.drop offset).take size

def write (file content : Bytes) (offset : ℕ) : Bytes :=
  file.take offset ++ List.replicate (offset - file.length) 0 ++ content ++
    file.drop (offset + content.length)

def resize (file : Bytes) (length : ℕ) : Bytes :=
  file.take length ++ List.replicate (length - file.length) 0

/-- A negative position or size stands for the length of the file. -/
def normalize (file : Bytes) (arg : ℤ) : ℕ := if arg < 0 then file.length else arg.toNat

/-- A constrained write is cut at the end of the file. -/
def limit (file content : Bytes) (offset : ℤ) (constrained : Bool) : Bytes :=
  if constrained then
    content.take (max (min (file.length : ℤ) (offset + content.length) - offset) 0).toNat
  else content

/-- Writing nothing changes nothing, wherever it would go. -/
def writeAt (file content : Bytes) (offset : ℤ) : Bytes :=
  if content = [] then file else write file content (normalize file offset)

end Guardata.ByteFile
