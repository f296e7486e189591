import Guardata.Model.Packing
import Guardata.Model.SignedClasses

/-! # The schemas of the signed data

A schema runs the fields that it declares. A field that refuses its value raises a validation error,
which is recorded while the other fields go on; any other exception leaves the schema at once. A field
inside of a mapping, or of a pair, ends that mapping or pair with its first error.

The fields that marshmallow brings along (`Integer`, `String`, `Boolean`), the constructors of keys
and digests, and the functions of the standard library that are no part of the language are
parameters. What is no mapping is no valid input of a schema, but whether `None` is one is left to the
library. An `ExtType` is a pair, and so it is treated wherever pairs are told from other values.
-/

namespace Guardata

/-- What the schemas call and the source does not contain. -/
structure DecodingLibrary where
  fromTimestamp : Bytes → Except PyException DateTime
  /-- `unicodedata.normalize("NFC", ·)`. -/
  normalize : String → String
  /-- The characters of `\w`. -/
  wordCharacter : Char → Bool
  /-- `email.utils.parseaddr`. -/
  parseaddr : String → String × String
  /-- `UUID(hex=str(value))`, which raises nothing but `ValueError`. -/
  uuidOfText : Value → Option UUID
  integer : Value → Except PyException ℤ
  string : Value → Except PyException String
  boolean : Value → Except PyException Bool
  secretKey : Bytes → Option SecretKey
  hashDigest : Bytes → Option HashDigest
  publicKey : Value → Option PublicKey
  verifyKey : Value → Option VerifyKey
  /-- Whether a schema takes `None` for an input on which no field runs, and goes on with its hooks. -/
  takesNone : Bool

section Identifiers

variable (lib : DecodingLibrary)

/-- In a pattern, `$` also matches in front of a newline that ends the text. -/
def dropNewline (text : List Char) : List Char :=
  if text.getLast? = some '\n' then text.dropLast else text

/-- `[\w\-]{1,32}`. -/
def isIdentifier (text : List Char) : Bool :=
  1 ≤ text.length ∧ text.length ≤ 32 ∧ text.all fun char => lib.wordCharacter char || char = '-'

def parseUserID (raw : String) : Option UserID :=
  if isIdentifier lib (dropNewline raw.toList) ∧ raw.utf8ByteSize ≤ 32 then some raw else none

/-- The parts in front of the `@` and behind it. -/
def parseDeviceID (raw : String) : Option DeviceID :=
  let userId := raw.toList.takeWhile (· ≠ '@')
  let deviceName := (raw.toList.dropWhile (· ≠ '@')).drop 1
  if isIdentifier lib userId ∧ isIdentifier lib (dropNewline deviceName) ∧ raw.utf8ByteSize ≤ 65 then
    some ⟨String.ofList userId, String.ofList deviceName⟩
  else none

/-- A part of a domain between two dots. -/
def isDomainLabel (text : List Char) : Bool :=
  1 ≤ text.length ∧ text.length ≤ 63 ∧ (text.all fun char => char.isAlphanum || char = '-') ∧
    text.head? ≠ some '-' ∧ text.getLast? ≠ some '-'

def matchesEmail (email : String) : Bool :=
  let address := dropNewline email.toList
  let name := address.takeWhile (· ≠ '@')
  let domain := (address.dropWhile (· ≠ '@')).drop 1
  name ≠ [] ∧ (name.all fun char => char.isAlphanum || char ∈ ".!#&+?~-_=".toList) ∧
    (domain.splitOn '.').all isDomainLabel

/-- The checks of `HumanHandle(email, label)`. -/
def HumanHandle.new (email label : String) : Option HumanHandle :=
  if 3 < email.utf8ByteSize ∧ email.utf8ByteSize < 255 ∧ matchesEmail email ∧
      0 < label.utf8ByteSize ∧ label.utf8ByteSize < 255 ∧
      lib.parseaddr (label ++ " <" ++ email ++ ">") = (label, email) then
    some ⟨email, label⟩
  else none

end Identifiers

section Fields

variable {α κ : Type} (lib : DecodingLibrary)

/-- A constructor that raises `ValueError`, or an exception that the field turns into a refusal. -/
def accept (built : Option α) : Except PyException α := built.elim (.error .validationError) .ok

/-- `str_based_field_factory` for a type that checks that it is given a text. -/
def strBasedField (parse : String → Option α) : Value → Except PyException α
  | .str raw => accept (parse raw)
  | _ => .error .validationError

/-- `EntryNameField`: the name is normalized before anything is checked, and only texts can be. -/
def entryNameField : Value → Except PyException EntryName
  | .str raw => (EntryName.new lib.normalize raw).mapError fun _ => .validationError
  | _ => .error .typeError

/-- `EntryNameField(validate=validate.Length(min=1, max=256))`. -/
def childNameField (value : Value) : Except PyException EntryName := do
  let name ← entryNameField lib value
  .require (1 ≤ name.length ∧ name.length ≤ 256) .validationError
  return name

def bytesBasedField (build : Bytes → Option α) : Value → Except PyException α
  | .bytes data => accept (build data)
  | _ => .error .validationError

def uuidBasedField (value : Value) : Except PyException UUID := accept (lib.uuidOfText value)

def uuidField : Value → Except PyException UUID
  | .uuid id => .ok id
  | _ => .error .validationError

def dateTimeField : Value → Except PyException DateTime
  | .dateTime date => .ok date
  | _ => .error .validationError

/-- `Integer(validate=validate.Range(min=low))`. -/
def naturalField (low : ℕ) (value : Value) : Except PyException ℕ := do
  let number ← lib.integer value
  .require ((low : ℤ) ≤ number) .validationError
  return number.toNat

def enumField (choices : List (String × α)) : Value → Except PyException α
  | .str raw => accept (choices.lookup raw)
  | _ => .error .validationError

/-- `CheckedConstant` and `EnumCheckedConstant`. -/
def checkedConstant (constant : String) : Value → Except PyException Unit
  | .str raw => .require (raw = constant) .validationError
  | _ => .error .validationError

def realmRoleField : Value → Except PyException RealmRole :=
  enumField [("OWNER", .owner), ("MANAGER", .manager), ("CONTRIBUTOR", .contributor), ("READER", .reader)]

def userProfileField : Value → Except PyException UserProfile :=
  enumField [("ADMIN", .admin), ("STANDARD", .standard), ("OUTSIDER", .outsider)]

/-- `deserialize` of a field: there has to be a value. -/
def notNull (field : Value → Except PyException α) : Value → Except PyException α
  | .none => .error .validationError
  | value => field value

/-- `HumanHandleField` on a pair: the two texts, and then the constructor, whose `ValueError` nobody expects. -/
def humanHandlePair (email label : Value) : Except PyException HumanHandle := do
  let email ← notNull lib.string email
  let label ← notNull lib.string label
  (HumanHandle.new lib email label).elim (.error .valueError) .ok

def humanHandleField : Value → Except PyException HumanHandle
  | .list [email, label] => humanHandlePair lib email label
  | .extType code data => humanHandlePair lib (.int code) (.bytes data)
  | _ => .error .validationError

/-- The body of the loop of `Map._deserialize`. -/
def mapEntry [DecidableEq κ] (keyField : Value → Except PyException κ)
    (nestedField : Value → Except PyException α) (ret : Dict κ α) (entry : Value × Value) :
    Except PyException (Dict κ α) := do
  let key ← notNull keyField entry.1
  let value ← notNull nestedField entry.2
  return ret.insert key value

/-- `FrozenMap`. -/
def mapField [DecidableEq κ] (keyField : Value → Except PyException κ)
    (nestedField : Value → Except PyException α) : Value → Except PyException (Dict κ α)
  | .dict entries => entries.foldlM (mapEntry keyField nestedField) ∅
  | _ => .error .validationError

end Fields

/-- What a schema comes to: nothing, if a field has recorded an error. -/
abbrev Loading (α : Type) := Except PyException (Option α)

namespace Loading

variable {α β : Type}

/-- `call_and_store`: a validation error is recorded. -/
def storeErrors (field : Except PyException α) : Loading α :=
  match field with
  | .ok value => .ok (some value)
  | .error .validationError => .ok none
  | .error raised => .error raised

/-- One more field. It runs whatever the fields before it have recorded. -/
def ap (build : Loading (α → β)) (field : Loading α) : Loading β :=
  Except.bind build fun build => Except.map (fun value => build <*> value) field

/-- The object that the fields are put together to. -/
def build (make : α) : Loading α := .ok (some make)

/-- A `post_load` hook that may refuse what was loaded. -/
def postLoad (hook : α → Option β) (loaded : Loading α) : Loading β :=
  Except.map (fun loaded => Option.bind loaded hook) loaded

end Loading

section Schemas

variable {α : Type} (lib : DecodingLibrary) (data : Value)

/-- The fields of a schema run on a mapping. The hook `make_obj` cannot do anything with `None`. -/
def onMapping (fields : Loading α) : Loading α :=
  match data with
  | .dict _ => fields
  | .none => if lib.takesNone then .error .attributeError else .ok none
  | _ => .ok none

/-- `required=True`. -/
def requiredField (name : String) (field : Value → Except PyException α) : Loading α :=
  .storeErrors ((data.get? name).elim (.error .validationError) (notNull field))

/-- `allow_none=True`. -/
def nullable (field : Value → Except PyException α) : Value → Except PyException (Option α)
  | .none => .ok none
  | value => (field value).map some

/-- `missing=None`. -/
def missingNoneField (name : String) (field : Value → Except PyException α) : Loading (Option α) :=
  .storeErrors ((data.get? name).elim (.ok none) (nullable field))

/-- A field that is not required is left out of the result. -/
def optionalField (name : String) (field : Value → Except PyException α) : Loading (Option α) :=
  .storeErrors ((data.get? name).elim (.ok none) fun value => (notNull field value).map some)

/-- `allow_none=True` and `required=True`. -/
def requiredNullableField (name : String) (field : Value → Except PyException α) : Loading (Option α) :=
  .storeErrors ((data.get? name).elim (.error .validationError) (nullable field))

/-- The `author` and the `timestamp` of all signed data. -/
def authorField : Loading DeviceID := requiredField data "author" (strBasedField (parseDeviceID lib))
def timestampField : Loading DateTime := requiredField data "timestamp" dateTimeField

def typeField (constant : String) : Loading Unit := requiredField data "type" (checkedConstant constant)

def entryIdField (name : String) : Loading EntryID := requiredField data name (uuidBasedField lib)

/-- `Nested`: a value inside of a list. -/
def nestedItem (load : Value → Loading α) : Value → Loading α
  | .none => .ok none
  | value => load value

/-- `List(Nested(...))`: the errors of all items are recorded. -/
def nestedListField (load : Value → Loading α) : Value → Except PyException (List α)
  | .list items => do
      let loaded ← items.mapM (m := Except PyException) (nestedItem load)
      accept (loaded.mapM id)
  | _ => .error .validationError

def loadBlockAccess : Loading BlockAccess :=
  onMapping lib data <| Loading.build BlockAccess.mk
    |>.ap (entryIdField lib data "id")
    |>.ap (requiredField data "key" (bytesBasedField lib.secretKey))
    |>.ap (requiredField data "offset" (naturalField lib 0))
    |>.ap (requiredField data "size" (naturalField lib 0))
    |>.ap (requiredField data "digest" (bytesBasedField lib.hashDigest))

def loadWorkspaceEntry : Loading UserWorkspaceEntry :=
  onMapping lib data <| Loading.build (fun name id key encryptionRevision encryptedOn roleCachedOn role =>
      (⟨⟨key, encryptionRevision⟩, name, id, encryptedOn, roleCachedOn, role⟩ : UserWorkspaceEntry))
    |>.ap (requiredField data "name" (childNameField lib))
    |>.ap (entryIdField lib data "id")
    |>.ap (requiredField data "key" (bytesBasedField lib.secretKey))
    |>.ap (requiredField data "encryption_revision" (naturalField lib 0))
    |>.ap (requiredField data "encrypted_on" dateTimeField)
    |>.ap (requiredField data "role_cached_on" dateTimeField)
    |>.ap (requiredNullableField data "role" realmRoleField)

end Schemas

section Certificates

variable (lib : DecodingLibrary) (data : Value)

/-- The legacy field `is_admin` and the profile may not contradict each other. -/
def profileOf (isAdmin : Bool) : Option UserProfile → Option UserProfile
  | none => some (if isAdmin then .admin else .standard)
  | some profile => if isAdmin ∧ profile ≠ .admin then none else some profile

def loadUserCertificate : Loading FullUserCertificateContent :=
  onMapping lib data <| Loading.postLoad (fun content => content) <|
    Loading.build (fun author timestamp (_ : Unit) userId humanHandle publicKey isAdmin profile =>
        (profileOf isAdmin profile).map fun profile =>
          (⟨⟨author, timestamp, userId, profile⟩, humanHandle, publicKey⟩ : FullUserCertificateContent))
      |>.ap (requiredNullableField data "author" (strBasedField (parseDeviceID lib)))
      |>.ap (timestampField data)
      |>.ap (typeField data "user_certificate")
      |>.ap (requiredField data "user_id" (strBasedField (parseUserID lib)))
      |>.ap (missingNoneField data "human_handle" (humanHandleField lib))
      |>.ap (requiredField data "public_key" fun value => accept (lib.publicKey value))
      |>.ap (requiredField data "is_admin" lib.boolean)
      |>.ap (optionalField data "profile" userProfileField)

def loadRevokedUserCertificate : Loading RevokedUserCertificateContent :=
  onMapping lib data <| Loading.build (fun author timestamp (_ : Unit) userId =>
      (⟨author, timestamp, userId⟩ : RevokedUserCertificateContent))
    |>.ap (authorField lib data)
    |>.ap (timestampField data)
    |>.ap (typeField data "revoked_user_certificate")
    |>.ap (requiredField data "user_id" (strBasedField (parseUserID lib)))

def loadDeviceCertificate : Loading FullDeviceCertificateContent :=
  onMapping lib data <| Loading.build (fun author timestamp (_ : Unit) deviceId deviceLabel verifyKey =>
      (⟨⟨author, timestamp, deviceId, verifyKey⟩, deviceLabel⟩ : FullDeviceCertificateContent))
    |>.ap (requiredNullableField data "author" (strBasedField (parseDeviceID lib)))
    |>.ap (timestampField data)
    |>.ap (typeField data "device_certificate")
    |>.ap (requiredField data "device_id" (strBasedField (parseDeviceID lib)))
    |>.ap (missingNoneField data "device_label" lib.string)
    |>.ap (requiredField data "verify_key" fun value => accept (lib.verifyKey value))

def loadRealmRoleCertificate : Loading RealmRoleCertificateContent :=
  onMapping lib data <| Loading.build (fun author timestamp (_ : Unit) realmId userId role =>
      (⟨author, timestamp, realmId, userId, role⟩ : RealmRoleCertificateContent))
    |>.ap (authorField lib data)
    |>.ap (timestampField data)
    |>.ap (typeField data "realm_role_certificate")
    |>.ap (requiredField data "realm_id" uuidField)
    |>.ap (requiredField data "user_id" (strBasedField (parseUserID lib)))
    |>.ap (requiredNullableField data "role" realmRoleField)

end Certificates

section Manifests

variable (lib : DecodingLibrary)

def localAuthorLegacyPlaceholder : String :=
  "LOCAL_AUTHOR_LEGACY_PLACEHOLDER@LOCAL_AUTHOR_LEGACY_PLACEHOLDER"

/-- The hook `fix_legacy`. It runs before anything has looked at the data. -/
def fixLegacy : Value → Except PyException Value
  | .dict entries =>
      match Value.lookup "author" entries with
      | none => .error .keyError
      | some .none => .ok (.dict (Value.store "author" (.str localAuthorLegacyPlaceholder) entries))
      | some _ => .ok (.dict entries)
  | _ => .error .typeError

/-- The hook `pre_load`, and then the fields. -/
def preLoad {α : Type} (hook : Value → Except PyException Value) (load : Value → Loading α)
    (data : Value) : Loading α :=
  Except.bind (hook data) load

def fileManifestFields (data : Value) : Loading RemoteFileManifest :=
  onMapping lib data <| Loading.build (fun author timestamp (_ : Unit) id parent version created updated
      size blocksize blocks =>
      (⟨author, timestamp, id, parent, version, created, updated, size, blocksize, blocks⟩ :
        RemoteFileManifest))
    |>.ap (authorField lib data)
    |>.ap (timestampField data)
    |>.ap (typeField data "file_manifest")
    |>.ap (entryIdField lib data "id")
    |>.ap (entryIdField lib data "parent")
    |>.ap (requiredField data "version" (naturalField lib 0))
    |>.ap (requiredField data "created" dateTimeField)
    |>.ap (requiredField data "updated" dateTimeField)
    |>.ap (requiredField data "size" (naturalField lib 0))
    |>.ap (requiredField data "blocksize" (naturalField lib 8))
    |>.ap (requiredField data "blocks" (nestedListField (loadBlockAccess lib)))

/-- The children of a folder and of a workspace. -/
def childrenField (data : Value) : Loading (Dict EntryName EntryID) :=
  requiredField data "children" (mapField (childNameField lib) (uuidBasedField lib))

def folderManifestFields (data : Value) : Loading RemoteFolderishManifest :=
  onMapping lib data <| Loading.build (fun author timestamp (_ : Unit) id parent version created updated
      children => (⟨author, timestamp, id, some parent, version, created, updated, children⟩ :
        RemoteFolderishManifest))
    |>.ap (authorField lib data)
    |>.ap (timestampField data)
    |>.ap (typeField data "folder_manifest")
    |>.ap (entryIdField lib data "id")
    |>.ap (entryIdField lib data "parent")
    |>.ap (requiredField data "version" (naturalField lib 0))
    |>.ap (requiredField data "created" dateTimeField)
    |>.ap (requiredField data "updated" dateTimeField)
    |>.ap (childrenField lib data)

def workspaceManifestFields (data : Value) : Loading RemoteFolderishManifest :=
  onMapping lib data <| Loading.build (fun author timestamp (_ : Unit) id version created updated children =>
      (⟨author, timestamp, id, none, version, created, updated, children⟩ : RemoteFolderishManifest))
    |>.ap (authorField lib data)
    |>.ap (timestampField data)
    |>.ap (typeField data "workspace_manifest")
    |>.ap (entryIdField lib data "id")
    |>.ap (requiredField data "version" (naturalField lib 0))
    |>.ap (requiredField data "created" dateTimeField)
    |>.ap (requiredField data "updated" dateTimeField)
    |>.ap (childrenField lib data)

def userManifestFields (data : Value) : Loading UserManifest :=
  onMapping lib data <| Loading.build (fun author timestamp (_ : Unit) id version created updated
      lastProcessedMessage workspaces =>
      (⟨author, timestamp, id, version, created, updated, lastProcessedMessage, workspaces⟩ : UserManifest))
    |>.ap (authorField lib data)
    |>.ap (timestampField data)
    |>.ap (typeField data "user_manifest")
    |>.ap (entryIdField lib data "id")
    |>.ap (requiredField data "version" (naturalField lib 0))
    |>.ap (requiredField data "created" dateTimeField)
    |>.ap (requiredField data "updated" dateTimeField)
    |>.ap (requiredField data "last_processed_message" (naturalField lib 0))
    |>.ap (requiredField data "workspaces" (nestedListField (loadWorkspaceEntry lib)))

def loadFileManifest : Value → Loading RemoteFileManifest := preLoad fixLegacy (fileManifestFields lib)
def loadFolderManifest : Value → Loading RemoteFolderishManifest :=
  preLoad fixLegacy (folderManifestFields lib)
def loadWorkspaceManifest : Value → Loading RemoteFolderishManifest :=
  preLoad fixLegacy (workspaceManifestFields lib)
def loadUserManifest : Value → Loading UserManifest := preLoad fixLegacy (userManifestFields lib)

end Manifests

section Messages

variable (lib : DecodingLibrary) (data : Value)

/-- The schema of both messages that bring a key. -/
def loadSharingMessage (type : String) : Loading SharingGrantedMessageContent :=
  onMapping lib data <| Loading.build (fun author timestamp (_ : Unit) name id encryptionRevision encryptedOn
      key => (⟨author, timestamp, name, id, encryptionRevision, encryptedOn, key⟩ :
        SharingGrantedMessageContent))
    |>.ap (authorField lib data)
    |>.ap (timestampField data)
    |>.ap (typeField data type)
    |>.ap (requiredField data "name" lib.string)
    |>.ap (entryIdField lib data "id")
    |>.ap (requiredField data "encryption_revision" lib.integer)
    |>.ap (requiredField data "encrypted_on" dateTimeField)
    |>.ap (requiredField data "key" (bytesBasedField lib.secretKey))

def loadSharingGranted : Loading SharingGrantedMessageContent := loadSharingMessage lib data "sharing.granted"
def loadSharingReencrypted : Loading SharingGrantedMessageContent :=
  loadSharingMessage lib data "sharing.reencrypted"

def loadSharingRevoked : Loading SharingRevokedMessageContent :=
  onMapping lib data <| Loading.build (fun author timestamp (_ : Unit) id =>
      (⟨author, timestamp, id⟩ : SharingRevokedMessageContent))
    |>.ap (authorField lib data)
    |>.ap (timestampField data)
    |>.ap (typeField data "sharing.revoked")
    |>.ap (entryIdField lib data "id")

def loadPing : Loading PingMessageContent :=
  onMapping lib data <| Loading.build (fun author timestamp (_ : Unit) ping =>
      (⟨author, timestamp, ping⟩ : PingMessageContent))
    |>.ap (authorField lib data)
    |>.ap (timestampField data)
    |>.ap (typeField data "ping")
    |>.ap (requiredField data "ping" lib.string)

end Messages

/-- An object of a class, as signed content. -/
def Loading.content {α : Type} (make : α → SignedContent) (loaded : Loading α) : Loading SignedContent :=
  Except.map (Option.map make) loaded

/-- An error whose text is `"... %s" % value`. There is one place for the two parts of an `ExtType`. -/
def recordValue : Value → Loading SignedContent
  | .extType _ _ => .error .typeError
  | _ => .ok none

/-- `OneOfSchema._load`: the text under `type` selects the schema. -/
def loadOneOf (typeSchemas : List (String × (Value → Loading SignedContent))) (data : Value) :
    Loading SignedContent :=
  match data with
  | .dict entries =>
      match Value.lookup "type" entries with
      | none => .ok none
      | some (.str type) => (typeSchemas.lookup type).elim (.ok none) fun load => load data
      | some value => recordValue value
  | _ => recordValue data

/-- `BaseManifest.SCHEMA_CLS.type_schemas`. -/
def manifestTypeSchemas (lib : DecodingLibrary) : List (String × (Value → Loading SignedContent)) :=
  [("file_manifest", fun data => (loadFileManifest lib data).content .fileManifest),
    ("folder_manifest", fun data => (loadFolderManifest lib data).content .folderManifest),
    ("workspace_manifest", fun data => (loadWorkspaceManifest lib data).content .workspaceManifest),
    ("user_manifest", fun data => (loadUserManifest lib data).content .userManifest)]

/-- `BaseMessageContent.SCHEMA_CLS.type_schemas`. -/
def messageTypeSchemas (lib : DecodingLibrary) : List (String × (Value → Loading SignedContent)) :=
  [("sharing.granted", fun data => (loadSharingGranted lib data).content .sharingGranted),
    ("sharing.reencrypted", fun data => (loadSharingReencrypted lib data).content .sharingReencrypted),
    ("sharing.revoked", fun data => (loadSharingRevoked lib data).content .sharingRevoked),
    ("ping", fun data => (loadPing lib data).content .ping)]

/-- The schema of a class. -/
def SignedDataClass.load (lib : DecodingLibrary) : SignedDataClass → Value → Loading SignedContent
  | .userCertificateContent, data => (loadUserCertificate lib data).content .userCertificate
  | .revokedUserCertificateContent, data =>
      (loadRevokedUserCertificate lib data).content .revokedUserCertificate
  | .deviceCertificateContent, data => (loadDeviceCertificate lib data).content .deviceCertificate
  | .realmRoleCertificateContent, data => (loadRealmRoleCertificate lib data).content .realmRoleCertificate
  | .fileManifest, data => (loadFileManifest lib data).content .fileManifest
  | .folderManifest, data => (loadFolderManifest lib data).content .folderManifest
  | .workspaceManifest, data => (loadWorkspaceManifest lib data).content .workspaceManifest
  | .userManifest, data => (loadUserManifest lib data).content .userManifest
  | .sharingGrantedMessageContent, data => (loadSharingGranted lib data).content .sharingGranted
  | .sharingReencryptedMessageContent, data => (loadSharingReencrypted lib data).content .sharingReencrypted
  | .sharingRevokedMessageContent, data => (loadSharingRevoked lib data).content .sharingRevoked
  | .pingMessageContent, data => (loadPing lib data).content .ping
  | .baseManifest, data => loadOneOf (manifestTypeSchemas lib) data
  | .baseMessageContent, data => loadOneOf (messageTypeSchemas lib) data

/-- What a reader expects beyond the author. A class looks at the expectations that it has. -/
structure Expectations where
  timestamp : Option DateTime := none
  user : Option UserID := none
  humanHandle : Option HumanHandle := none
  device : Option DeviceID := none
  realm : Option UUID := none
  role : Option RealmRole := none
  id : Option EntryID := none
  version : Option ℕ := none
  parent : Option EntryID := none

/-- A value that was expected, if any was. -/
def Expected {α : Type} (expected : Option α) (got : α) : Prop := ∀ value ∈ expected, value = got

instance {α : Type} [DecidableEq α] (expected : Option α) (got : α) : Decidable (Expected expected got) :=
  inferInstanceAs (Decidable (∀ value ∈ expected, value = got))

/-- The checks of the `verify_and_load` of each class. Unlike `==`, the `!=` of human handles looks at the
labels too. -/
def SignedContent.meets (expectations : Expectations) : SignedContent → Prop
  | .userCertificate content => Expected expectations.user content.userId ∧
      ∀ handle ∈ expectations.humanHandle, content.humanHandle = some handle
  | .revokedUserCertificate content => Expected expectations.user content.userId
  | .deviceCertificate content => Expected expectations.device content.deviceId
  | .realmRoleCertificate content => Expected expectations.user content.userId ∧
      Expected expectations.realm content.realmId ∧ ∀ role ∈ expectations.role, content.role = some role
  | .fileManifest manifest => Expected expectations.id manifest.id ∧
      Expected expectations.version manifest.version ∧ Expected expectations.parent manifest.parent
  | .folderManifest manifest => Expected expectations.id manifest.id ∧
      Expected expectations.version manifest.version ∧ ∀ parent ∈ expectations.parent, manifest.parent = some parent
  | .workspaceManifest manifest => Expected expectations.id manifest.id ∧
      Expected expectations.version manifest.version
  | .userManifest manifest => Expected expectations.id manifest.id ∧
      Expected expectations.version manifest.version
  | _ => True

instance (expectations : Expectations) (content : SignedContent) :
    Decidable (content.meets expectations) := by
  cases content <;> unfold SignedContent.meets <;> infer_instance

/-- The subclasses of `DataError`, and `DataError` itself with what it says. -/
inductive SignedDataError where
  | crypto
  | packing
  | validation
  | author (expected got : Option DeviceID)
  | timestamp (expected : Option DateTime) (got : DateTime)
  | expectation
deriving DecidableEq, Repr

/-- How a call that decodes signed data ends if it does not return. -/
inductive LoadFailure where
  | dataError (err : SignedDataError)
  | escaped (raised : PyException)
deriving DecidableEq, Repr

/-- Signed bytes: the key that signed them, and what they hold under zlib and msgpack, if anything. -/
structure SignedBytes where
  signer : VerifyKey
  packed : Option Packed

/-- `unpackb`, behind `zlib.decompress`. -/
def unpackb (lib : DecodingLibrary) (packed : Option Packed) : Except LoadFailure Value :=
  match packed with
  | none => .error (.dataError .packing)
  | some packed => (packed.unpack lib.fromTimestamp).mapError fun
      | .valueError => .dataError .packing
      | raised => .escaped raised

/-- `BaseSerializer.load`, with a strict schema. -/
def SignedDataClass.deserialize (lib : DecodingLibrary) (cls : SignedDataClass) (data : Value) :
    Except LoadFailure SignedContent :=
  match cls.load lib data with
  | .ok (some content) => .ok content
  | .ok none => .error (.dataError .validation)
  | .error raised => .error (.escaped raised)

/-- `verify_and_load` of a class. -/
def SignedDataClass.verifyAndLoad (lib : DecodingLibrary) (cls : SignedDataClass) (signed : SignedBytes)
    (authorVerifyKey : VerifyKey) (expectedAuthor : Option DeviceID) (expectations : Expectations) :
    Except LoadFailure SignedContent := do
  .require (signed.signer = authorVerifyKey) (.dataError .crypto)
  let raw ← unpackb lib signed.packed
  let data ← cls.deserialize lib raw
  .require (data.author = expectedAuthor) (.dataError (.author expectedAuthor data.author))
  .require (Expected expectations.timestamp data.timestamp)
    (.dataError (.timestamp expectations.timestamp data.timestamp))
  .require (data.meets expectations) (.dataError .expectation)
  return data

end Guardata
