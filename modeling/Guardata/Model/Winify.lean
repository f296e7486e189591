import Guardata.Model.EntryPaths
import Guardata.ToMathlib.CharLists

/-! # Names and paths on Windows

What Windows does not take in a name is written as `~` with two hexadecimal digits. A name with a reserved
word in front of its first dot has the last letter of that word escaped; in every other name the reserved
characters are. A dot or a blank at the end is escaped in both. Reading a name undoes whatever looks like an
escape.
-/

namespace Guardata

/-- `_WIN32_RES_CHARS`. -/
def win32ResChars : List Char :=
  ((List.range' 1 31).map Char.ofNat) ++ ['<', '>', ':', '"', '\\', '|', '?', '*']

/-- `_WIN32_RES_NAMES`. -/
def win32ResNames : List String :=
  ["CON", "PRN", "AUX", "NUL", "COM1", "COM2", "COM3", "COM4", "COM5", "COM6", "COM7", "COM8", "COM9", "LPT1",
    "LPT2", "LPT3", "LPT4", "LPT5", "LPT6", "LPT7", "LPT8", "LPT9"]

/-- `f"~{ord(char):02x}"`. -/
def escapeChar (char : Char) : List Char :=
  let digits := Nat.toDigits 16 char.toNat
  '~' :: List.replicate (2 - digits.length) '0' ++ digits

/-- `name.replace(reserved, f"~{ord(reserved):02x}")`. -/
def replaceReserved (name : List Char) (reserved : Char) : List Char :=
  name.flatMap fun char => if char = reserved then escapeChar reserved else [char]

/-- The part of a name in front of its first dot. -/
def firstPart (name : List Char) : List Char := name.takeWhile (· ≠ '.')

/-- The first dot and what is behind it. -/
def fullSuffix (name : List Char) : List Char := name.dropWhile (· ≠ '.')

def isReservedName (name : List Char) : Bool := String.ofList (firstPart name) ∈ win32ResNames

/-- Escape a character at the end if the given test says so. -/
def escapeLast (test : Char → Bool) (name : List Char) : Except TextError (List Char) :=
  match name.getLast? with
  | none => .error .index
  | some last => .ok (if test last then name.dropLast ++ escapeChar last else name)

/-- The conditional of `winify_entry_name`. -/
def escapeReserved (name : List Char) : Except TextError (List Char) :=
  if isReservedName name then (escapeLast (fun _ => true) (firstPart name)).map (· ++ fullSuffix name)
  else .ok (win32ResChars.foldl replaceReserved name)

def winifyEntryName (name : String) : Except TextError String := do
  let escaped ← escapeReserved name.toList
  let escaped ← escapeLast (fun last => last = '.' ∨ last = ' ') escaped
  return String.ofList escaped

/-- `[0-9A-Fa-f]`. -/
def isHexDigit (char : Char) : Bool :=
  ('0' ≤ char ∧ char ≤ '9') ∨ ('A' ≤ char ∧ char ≤ 'F') ∨ ('a' ≤ char ∧ char ≤ 'f')

def hexDigitValue (char : Char) : ℕ :=
  if char ≤ '9' then char.toNat - '0'.toNat
  else if char ≤ 'F' then char.toNat - 'A'.toNat + 10
  else char.toNat - 'a'.toNat + 10

/-- `re.split(r"(~[0-9A-Fa-f]{2})", name)`: texts and escapes by turns. -/
def splitEscapes : List Char → List (List Char)
  | char :: high :: low :: rest =>
      if char = '~' ∧ isHexDigit high ∧ isHexDigit low then [] :: [char, high, low] :: splitEscapes rest
      else (splitEscapes (high :: low :: rest)).modifyHead (char :: ·)
  | short => [short]

/-- `chr(int(part[1:], 16))`, unless that may stand in no name. -/
def convertEscape (part : List Char) : Except TextError Char := do
  let converted := Char.ofNat ((part.drop 1).foldl (fun value digit => 16 * value + hexDigitValue digit) 0)
  .require (converted ≠ '/' ∧ converted ≠ '\x00') (.value "Invalid escaped value")
  return converted

def convertPart (isEscape : Bool) (part : List Char) : Except TextError (List Char) :=
  if isEscape then (convertEscape part).map ([·]) else .ok part

/-- The loop over the parts; the last of them is no escape. -/
def convertParts (isEscape : Bool) : List (List Char) → Except TextError (List Char)
  | [] => .ok []
  | [last] => .ok last
  | part :: next :: rest => do
      let converted ← convertPart isEscape part
      let more ← convertParts (!isEscape) (next :: rest)
      return converted ++ more

def unwinifyEntryName (name : String) : Except TextError String :=
  if '~' ∉ name.toList then .ok name
  else (convertParts false (splitEscapes name.toList)).map String.ofList

section Paths

variable (normalize : String → String)

/-- `path.replace("\\", "/")`. -/
def replaceBackslashes (path : String) : String :=
  String.ofList (path.toList.map fun char => if char = '\\' then '/' else char)

def winpathToGuardata (path : String) : Except TextError FsPath := do
  let decoded ← unwinifyEntryName (replaceBackslashes path)
  FsPath.parse normalize decoded

/-- `_parsec_to_winpath`. -/
def parsecToWinpath (path : FsPath) : Except TextError String := do
  let names ← path.mapM winifyEntryName
  return "\\" ++ "\\".intercalate names

end Paths

end Guardata
