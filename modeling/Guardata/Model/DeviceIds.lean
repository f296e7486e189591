import Guardata.Model.SignedSchemas

/-! # Ids as texts

The constructors of `OrganizationID`, `UserID`, `DeviceName` and `DeviceID` look at a text and keep it: a
pattern bounds its characters, and `_bytes_size` its bytes. Elsewhere a device id stands in its two parts.
Here it is the text, and its properties take the parts out of it and hand them to the constructors again.
-/

namespace Guardata

/-- What the constructors and the properties of texts raise. -/
inductive TextError where
  /-- `ValueError`. -/
  | value (message : String)
  /-- `IndexError`. -/
  | index
deriving DecidableEq, Repr

/-- A device id as the text that it is. -/
abbrev DeviceIDText := String

section Texts

variable (lib : DecodingLibrary)

/-- `^[\w\-]{1,32}$`. -/
def matchesIdentifier (raw : String) : Bool := isIdentifier lib (dropNewline raw.toList)

/-- `^[\w\-]{1,32}@[\w\-]{1,32}$`. -/
def matchesDeviceId (raw : String) : Bool :=
  (List.range raw.toList.length).any fun position =>
    raw.toList[position]? = some '@' ∧ isIdentifier lib (raw.toList.take position) ∧
      isIdentifier lib (dropNewline (raw.toList.drop (position + 1)))

/-- A text that matches a pattern and is not too long in UTF-8. -/
def checkedText (matched : Bool) (limit : ℕ) (message raw : String) : Except TextError String := do
  .require (matched = true ∧ raw.utf8ByteSize ≤ limit) (.value message)
  return raw

theorem checkedText_eq_ok_iff {matched : Bool} {limit : ℕ} {message raw id : String} :
    checkedText matched limit message raw = .ok id ↔ (matched = true ∧ raw.utf8ByteSize ≤ limit) ∧ raw = id := by
  simp only [checkedText, Except.bind_eq_ok_iff, Except.require_eq_ok_iff, exists_const, Except.pure_eq_ok_iff]

def OrganizationID.new (raw : String) : Except TextError OrganizationID :=
  checkedText (matchesIdentifier lib raw) 32 "Invalid organization ID" raw

def UserID.new (raw : String) : Except TextError UserID :=
  checkedText (matchesIdentifier lib raw) 32 "Invalid user name" raw

def DeviceName.new (raw : String) : Except TextError DeviceName :=
  checkedText (matchesIdentifier lib raw) 32 "Invalid device name" raw

namespace DeviceIDText

def new (raw : String) : Except TextError DeviceIDText :=
  checkedText (matchesDeviceId lib raw) 65 "Invalid device ID" raw

/-- `self.split("@")`. -/
def parts (id : DeviceIDText) : List String := (id.toList.splitOn '@').map String.ofList

def userId (id : DeviceIDText) : Except TextError UserID := do
  let part ← id.parts[0]?.elim (.error .index) .ok
  UserID.new lib part

def deviceName (id : DeviceIDText) : Except TextError DeviceName := do
  let part ← id.parts[1]?.elim (.error .index) .ok
  DeviceName.new lib part

end DeviceIDText

def UserID.toDeviceId (userId : UserID) (deviceName : DeviceName) : Except TextError DeviceIDText :=
  DeviceIDText.new lib (userId ++ "@" ++ deviceName)

end Texts

end Guardata
