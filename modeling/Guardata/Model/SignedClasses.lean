import Guardata.Model.FileManifest
import Guardata.Model.FolderManifest
import Guardata.Model.Trustchain
import Guardata.Model.UserManifest

/-! # The classes of signed data

Everything that devices sign for others to load belongs to one of these classes: certificates, manifests
and messages. A class reads back only what its schema accepts, which the `type` field decides; the base
classes of manifests and messages read any of theirs.

The serializer is any encoding that can be read back. Signed bytes are symbolic: the key that signed them
and what it signed.
-/

namespace Guardata

structure HumanHandle where
  email : String
  label : String
deriving DecidableEq, Repr

structure PublicKey where
  id : ℕ
deriving DecidableEq, Repr

/-- `UserCertificateContent` with the fields that the trustchain does not look at. -/
structure FullUserCertificateContent extends UserCertificateContent where
  humanHandle : Option HumanHandle
  publicKey : PublicKey
deriving DecidableEq, Repr

/-- `DeviceCertificateContent` with the field that the trustchain does not look at. -/
structure FullDeviceCertificateContent extends DeviceCertificateContent where
  deviceLabel : Option String
deriving DecidableEq, Repr

/-- `SharingGrantedMessageContent` and `SharingReencryptedMessageContent`. -/
structure SharingGrantedMessageContent where
  author : DeviceID
  timestamp : DateTime
  name : String
  id : EntryID
  encryptionRevision : ℤ
  encryptedOn : DateTime
  key : SecretKey
deriving DecidableEq, Repr

structure SharingRevokedMessageContent where
  author : DeviceID
  timestamp : DateTime
  id : EntryID
deriving DecidableEq, Repr

structure PingMessageContent where
  author : DeviceID
  timestamp : DateTime
  ping : String
deriving DecidableEq, Repr

/-- An instance of some class, which is what its `type` field says. -/
inductive SignedContent where
  | userCertificate (content : FullUserCertificateContent)
  | revokedUserCertificate (content : RevokedUserCertificateContent)
  | deviceCertificate (content : FullDeviceCertificateContent)
  | realmRoleCertificate (content : RealmRoleCertificateContent)
  | fileManifest (manifest : RemoteFileManifest)
  | folderManifest (manifest : RemoteFolderishManifest)
  | workspaceManifest (manifest : RemoteFolderishManifest)
  | userManifest (manifest : UserManifest)
  | sharingGranted (message : SharingGrantedMessageContent)
  | sharingReencrypted (message : SharingGrantedMessageContent)
  | sharingRevoked (message : SharingRevokedMessageContent)
  | ping (message : PingMessageContent)
deriving DecidableEq

namespace SignedContent

/-- Only the certificates of users and devices may be signed by the root key, which has no author. -/
def author : SignedContent → Option DeviceID
  | userCertificate content => content.author
  | revokedUserCertificate content => some content.author
  | deviceCertificate content => content.author
  | realmRoleCertificate content => some content.author
  | fileManifest manifest => some manifest.author
  | folderManifest manifest => some manifest.author
  | workspaceManifest manifest => some manifest.author
  | userManifest manifest => some manifest.author
  | sharingGranted message => some message.author
  | sharingReencrypted message => some message.author
  | sharingRevoked message => some message.author
  | ping message => some message.author

def timestamp : SignedContent → DateTime
  | userCertificate content => content.timestamp
  | revokedUserCertificate content => content.timestamp
  | deviceCertificate content => content.timestamp
  | realmRoleCertificate content => content.timestamp
  | fileManifest manifest => manifest.timestamp
  | folderManifest manifest => manifest.timestamp
  | workspaceManifest manifest => manifest.timestamp
  | userManifest manifest => manifest.timestamp
  | sharingGranted message => message.timestamp
  | sharingReencrypted message => message.timestamp
  | sharingRevoked message => message.timestamp
  | ping message => message.timestamp

end SignedContent

/-- The classes that inherit `BaseAPISignedData`. -/
inductive SignedDataClass where
  | userCertificateContent
  | revokedUserCertificateContent
  | deviceCertificateContent
  | realmRoleCertificateContent
  | baseManifest
  | fileManifest
  | folderManifest
  | workspaceManifest
  | userManifest
  | baseMessageContent
  | sharingGrantedMessageContent
  | sharingReencryptedMessageContent
  | sharingRevokedMessageContent
  | pingMessageContent
deriving DecidableEq, Repr

/-- Whether the schema of the class accepts the `type` of what was unpacked. -/
def SignedDataClass.accepts : SignedDataClass → SignedContent → Bool
  | .userCertificateContent, .userCertificate _ => true
  | .revokedUserCertificateContent, .revokedUserCertificate _ => true
  | .deviceCertificateContent, .deviceCertificate _ => true
  | .realmRoleCertificateContent, .realmRoleCertificate _ => true
  | .baseManifest, .fileManifest _ | .baseManifest, .folderManifest _ => true
  | .baseManifest, .workspaceManifest _ | .baseManifest, .userManifest _ => true
  | .fileManifest, .fileManifest _ => true
  | .folderManifest, .folderManifest _ => true
  | .workspaceManifest, .workspaceManifest _ => true
  | .userManifest, .userManifest _ => true
  | .baseMessageContent, .sharingGranted _ | .baseMessageContent, .sharingReencrypted _ => true
  | .baseMessageContent, .sharingRevoked _ | .baseMessageContent, .ping _ => true
  | .sharingGrantedMessageContent, .sharingGranted _ => true
  | .sharingReencryptedMessageContent, .sharingReencrypted _ => true
  | .sharingRevokedMessageContent, .sharingRevoked _ => true
  | .pingMessageContent, .ping _ => true
  | _, _ => false

/-- Bytes under a signature: who signed, and what. -/
structure SignedMessage where
  signer : VerifyKey
  message : Bytes
deriving DecidableEq, Repr

/-- `SigningKey.sign`, for the signing key that belongs to the verify key. -/
def VerifyKey.sign (key : VerifyKey) (message : Bytes) : SignedMessage := ⟨key, message⟩

def VerifyKey.verify (key : VerifyKey) (signed : SignedMessage) : Except DataError Bytes :=
  if signed.signer = key then .ok signed.message else .error .crypto

/-- An encoding of signed data that can be read back. -/
structure DataSerializer where
  dumps : SignedContent → Bytes
  loads : Bytes → Option SignedContent
  loads_dumps : ∀ content, loads (dumps content) = some content

namespace DataSerializer

variable (serializer : DataSerializer)

/-- `_deserialize`. -/
def deserialize (cls : SignedDataClass) (raw : Bytes) : Except DataError SignedContent :=
  match serializer.loads raw with
  | none => .error .deserialization
  | some content => if cls.accepts content then .ok content else .error .deserialization

def dumpAndSign (content : SignedContent) (authorSignkey : VerifyKey) : SignedMessage :=
  authorSignkey.sign (serializer.dumps content)

/-- Compare the date, if one is expected. -/
def checkTimestamp (data : SignedContent) : Option DateTime → Except DataError Unit
  | none => .ok ()
  | some expected => .require (data.timestamp = expected) (.timestamp expected data.timestamp)

def verifyAndLoad (cls : SignedDataClass) (signed : SignedMessage) (authorVerifyKey : VerifyKey)
    (expectedAuthor : Option DeviceID) (expectedTimestamp : Option DateTime := none) :
    Except DataError SignedContent := do
  let raw ← authorVerifyKey.verify signed
  let data ← serializer.deserialize cls raw
  .require (data.author = expectedAuthor) (.author expectedAuthor data.author)
  checkTimestamp data expectedTimestamp
  return data

end DataSerializer

end Guardata
