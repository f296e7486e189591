import Guardata.Model.SignedData
import Guardata.ToMathlib.ByteInteger

/-! # Unpacking

What a sequence of msgpack bytes holds, and the value that `unpackb` makes of it. Extension types 1
and 2 are dates and UUIDs, which the hook builds while the bytes are read: one value after the other,
the key of a map before its value. The extensions of other codes stay as they are.

`from_timestamp` is a parameter, as is everything else that the source calls and does not contain;
a double is the eight bytes that encode it. Of the keys of a dictionary only the texts are looked
up, so texts alone are compared when an entry is stored.
-/

namespace Guardata

/-- The exceptions that decoding meets. -/
inductive PyException where
  /-- `marshmallow.ValidationError`. -/
  | validationError
  | valueError
  | typeError
  | keyError
  | attributeError
  | structError
  | overflowError
  | other
deriving DecidableEq, Repr

/-- What msgpack bytes hold. -/
inductive Packed where
  | nil
  | bool (value : Bool)
  | int (value : ℤ)
  | float (bits : Bytes)
  | str (text : String)
  | bin (data : Bytes)
  | array (items : List Packed)
  | map (entries : List (Packed × Packed))
  | ext (code : ℤ) (data : Bytes)

/-- What the schemas are given. -/
inductive Value where
  | none
  | bool (value : Bool)
  | int (value : ℤ)
  | float (bits : Bytes)
  | str (text : String)
  | bytes (data : Bytes)
  | list (items : List Value)
  | dict (entries : List (Value × Value))
  | dateTime (date : DateTime)
  | uuid (id : UUID)
  | extType (code : ℤ) (data : Bytes)

namespace Value

/-- Lists and dictionaries are no keys of a dictionary. -/
def hashable : Value → Bool
  | list _ | dict _ => false
  | _ => true

/-- The value under a text. -/
def lookup (name : String) : List (Value × Value) → Option Value
  | [] => Option.none
  | (str text, value) :: rest => if text = name then some value else lookup name rest
  | _ :: rest => lookup name rest

/-- `data.get(name)` for a dictionary. -/
def get? (name : String) : Value → Option Value
  | dict entries => lookup name entries
  | _ => Option.none

/-- Store a value under a text that is there already, or behind the others. -/
def store (name : String) (value : Value) : List (Value × Value) → List (Value × Value)
  | [] => [(str name, value)]
  | (str text, old) :: rest =>
      if text = name then (str name, value) :: rest else (str text, old) :: store name value rest
  | entry :: rest => entry :: store name value rest

/-- `ret[key] = value`, for a key that is hashable. -/
def setItem (entries : List (Value × Value)) (key value : Value) : List (Value × Value) :=
  match key with
  | str name => store name value entries
  | _ => entries ++ [(key, value)]

end Value

section Unpack

variable (fromTimestamp : Bytes → Except PyException DateTime)

/-- `_unpackb_ext_hook`; `ExtType` has a code between 0 and 127. -/
def unpackbExtHook (code : ℤ) (data : Bytes) : Except PyException Value :=
  if code = 1 then
    if data.length = 8 then (fromTimestamp data).map .dateTime else .error .structError
  else if code = 2 then
    if data.length = 16 then .ok (.uuid (ByteInteger.ofBytes data.reverse)) else .error .valueError
  else if 0 ≤ code ∧ code ≤ 127 then .ok (.extType code data)
  else .error .valueError

mutual

/-- The value of what was packed. -/
def Packed.unpack : Packed → Except PyException Value
  | .nil => .ok .none
  | .bool value => .ok (.bool value)
  | .int value => .ok (.int value)
  | .float bits => .ok (.float bits)
  | .str text => .ok (.str text)
  | .bin data => .ok (.bytes data)
  | .array items => (unpackItems items).map .list
  | .map entries => (unpackEntries [] entries).map .dict
  | .ext code data => unpackbExtHook fromTimestamp code data

def unpackItems : List Packed → Except PyException (List Value)
  | [] => .ok []
  | item :: rest => do
      let value ← item.unpack
      let values ← unpackItems rest
      return value :: values

/-- The entries are stored one after the other into those that are there. -/
def unpackEntries (stored : List (Value × Value)) :
    List (Packed × Packed) → Except PyException (List (Value × Value))
  | [] => .ok stored
  | (packedKey, packedValue) :: rest => do
      let key ← packedKey.unpack
      let value ← packedValue.unpack
      .require key.hashable .typeError
      unpackEntries (Value.setItem stored key value) rest

end

end Unpack

end Guardata
