import Mathlib.Algebra.Order.Group.Unbundled.Abs
import Mathlib.Algebra.Order.Ring.Int
import Guardata.ToMathlib.Except

/-! # Identities, dates and signed data

The vocabulary shared by the backend and the clients: organization, user and device ids, dates,
realm roles, user profiles, and the certificates that devices sign. Dates count microseconds.

Signatures and encryption are symbolic. A signed byte string records the key that really produced
it together with what its payload deserializes to, if anything; `verifyAndLoad` succeeds under
that key only, and then applies the checks of `BaseSignedData.verify_and_load`. Reading the
payload without checking anything is `unsecureLoad`. Ciphered bytes open under their key only.
-/

namespace Guardata

abbrev OrganizationID := String
abbrev UserID := String
abbrev DeviceName := String
abbrev UUID := ℕ
abbrev DateTime := ℤ
abbrev Bytes := List UInt8

/-- A device id `user@device` in its two parts. -/
structure DeviceID where
  userId : UserID
  deviceName : DeviceName
deriving DecidableEq, Repr, Inhabited

/-- A verify key, standing for the signing key that belongs to it. -/
structure VerifyKey where
  id : ℕ
deriving DecidableEq, Repr, Inhabited

inductive RealmRole where
  | owner
  | manager
  | contributor
  | reader
deriving DecidableEq, Repr

inductive UserProfile where
  | admin
  | standard
  | outsider
deriving DecidableEq, Repr

/-- `TIMESTAMP_MAX_DT`, thirty minutes. -/
def timestampMaxDt : ℤ := 30 * 60 * 1000000

/-- Whether a self-declared date is close enough to the local clock. -/
def timestampsInTheBallpark (first second : DateTime) (maxDt : ℤ := timestampMaxDt) : Bool :=
  decide ((first - second).natAbs < maxDt)

/-- A symmetric key. -/
structure SecretKey where
  id : ℕ
deriving DecidableEq, Repr, Inhabited

/-- Why signed data is refused: a bad signature or key, an undecodable payload, or a header that
is not the expected one. -/
inductive DataError where
  | crypto
  | deserialization
  | author (expected got : Option DeviceID)
  | timestamp (expected got : DateTime)
  | entryId (expected got : UUID)
  | version (expected got : ℕ)
deriving DecidableEq, Repr

/-- Signed bytes: the key they were signed with and the payload they decode to. -/
structure Signed (α : Type) where
  signer : VerifyKey
  payload : Option α
deriving DecidableEq, Repr

namespace Signed

variable {α : Type}

/-- Signed data of which only a part is looked at. -/
def map {β : Type} (part : α → β) (signed : Signed α) : Signed β := ⟨signed.signer, signed.payload.map part⟩

/-- Decode the payload without looking at the signature. -/
def unsecureLoad (signed : Signed α) : Except DataError α :=
  match signed.payload with
  | some data => .ok data
  | none => .error .deserialization

/-- Check the signature, decode, and compare the author. -/
def verifyAndLoad (author : α → Option DeviceID) (signed : Signed α) (authorVerifyKey : VerifyKey)
    (expectedAuthor : Option DeviceID) : Except DataError α := do
  .require (signed.signer = authorVerifyKey) .crypto
  let data ← signed.unsecureLoad
  .require (author data = expectedAuthor) (.author expectedAuthor (author data))
  return data

@[simp] theorem unsecureLoad_eq_ok_iff {signed : Signed α} {data : α} :
    signed.unsecureLoad = .ok data ↔ signed.payload = some data := by
  unfold unsecureLoad
  cases signed.payload <;> simp

/-- Verified data is the payload, really signed with the key, by the expected author. -/
theorem verifyAndLoad_eq_ok_iff {author : α → Option DeviceID} {signed : Signed α} {key : VerifyKey}
    {expected : Option DeviceID} {data : α} :
    signed.verifyAndLoad author key expected = .ok data ↔
      signed.signer = key ∧ signed.payload = some data ∧ author data = expected := by
  simp only [verifyAndLoad, Except.bind_eq_ok_iff, Except.require_eq_ok_iff, exists_const,
    unsecureLoad_eq_ok_iff, Except.pure_eq_ok_iff]
  constructor
  · rintro ⟨signer, loaded, decoded, sameAuthor, rfl⟩
    exact ⟨signer, decoded, sameAuthor⟩
  · rintro ⟨signer, decoded, sameAuthor⟩
    exact ⟨signer, data, decoded, sameAuthor, rfl⟩

end Signed

/-- `RealmRoleCertificateContent`; a `none` role removes the user from the realm. -/
structure RealmRoleCertificateContent where
  author : DeviceID
  timestamp : DateTime
  realmId : UUID
  userId : UserID
  role : Option RealmRole
deriving DecidableEq, Repr

/-- `RealmRoleCertificateContent.verify_and_load`, with no further expectation. -/
def RealmRoleCertificateContent.verifyAndLoad (signed : Signed RealmRoleCertificateContent)
    (authorVerifyKey : VerifyKey) (expectedAuthor : DeviceID) :
    Except DataError RealmRoleCertificateContent :=
  signed.verifyAndLoad (fun data => some data.author) authorVerifyKey (some expectedAuthor)

/-- What every manifest says about itself, beside the content of its own kind. -/
structure RemoteManifest (γ : Type) where
  author : DeviceID
  timestamp : DateTime
  id : UUID
  version : ℕ
  content : γ
deriving DecidableEq, Repr

/-- Ciphered bytes: the key they were encrypted with and what they hold. -/
structure Ciphered (α : Type) where
  key : SecretKey
  plain : α
deriving DecidableEq, Repr

def Ciphered.decrypt {α : Type} (ciphered : Ciphered α) (key : SecretKey) : Except DataError α :=
  if ciphered.key = key then .ok ciphered.plain else .error .crypto

/-- `BaseManifest.decrypt_verify_and_load`, with every expectation that a reader has. -/
def RemoteManifest.decryptVerifyAndLoad {γ : Type} (encrypted : Ciphered (Signed (RemoteManifest γ)))
    (key : SecretKey) (authorVerifyKey : VerifyKey) (expectedAuthor : DeviceID)
    (expectedTimestamp : DateTime) (expectedId : UUID) (expectedVersion : ℕ) :
    Except DataError (RemoteManifest γ) := do
  let signed ← encrypted.decrypt key
  let data ← signed.verifyAndLoad (fun data => some data.author) authorVerifyKey (some expectedAuthor)
  .require (data.timestamp = expectedTimestamp) (.timestamp expectedTimestamp data.timestamp)
  .require (data.id = expectedId) (.entryId expectedId data.id)
  .require (data.version = expectedVersion) (.version expectedVersion data.version)
  return data

end Guardata
