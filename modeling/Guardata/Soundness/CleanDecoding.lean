import Guardata.Proofs.DecodedData
import Guardata.Proofs.Packing
import Guardata.Proofs.SignedSchemas

/-! # On which signed data decoding fails cleanly

Whoever has a registered device chooses what its signed bytes hold. Callers are prepared for a
`DataError`. What escapes beside it: a date whose payload has not eight bytes, or that lies out of
range; a container as the key of a map; an extension where the text of an error has room for one value
only; nothing at all, if the library runs the hooks on it; a manifest that is no mapping or has no author,
because the legacy hook runs before the fields are checked; a name of a child or of a workspace that is no
text, because it is normalized before it is looked at; and two texts that are no human handle.
-/

namespace Guardata

open Loading

section Classes

variable (lib : DecodingLibrary) (data : Value)

/-- Numbers are left to marshmallow. -/
def NumberEscapes (name : String) : Prop := Holds data name fun value => Escapes (lib.integer value)

def StringEscapes (name : String) : Prop := Holds data name fun value => Escapes (lib.string value)

def FileContentEscapes : Prop := NumberEscapes lib data "size" ∨ NumberEscapes lib data "blocksize" ∨
  Holds data "blocks" (ItemEscapes (BlockEscapes lib))

/-- Folders and workspaces. -/
def FolderContentEscapes : Prop := Holds data "children" (ChildrenEscape lib)

def UserContentEscapes : Prop := NumberEscapes lib data "last_processed_message" ∨
  Holds data "workspaces" (ItemEscapes (WorkspaceEscapes lib))

/-- What all manifests have in common, beside the content of each. -/
def ManifestEscapes (content : DecodingLibrary → Value → Prop) : Prop :=
  data.get? "author" = none ∨ NumberEscapes lib data "version" ∨ content lib data

def SharingEscapes : Prop := StringEscapes lib data "name" ∨ NumberEscapes lib data "encryption_revision"

/-- The text under `type`. -/
def HasType (type : String) : Prop := data.get? "type" = some (.str type)

/-- An `ExtType` is all there is, or stands under `type`. -/
def ExtTypeEscapes : Prop :=
  ∃ code bytes, data = .extType code bytes ∨ data.get? "type" = some (.extType code bytes)

/-- The schema of the class raises something other than a validation error on the data. -/
def SignedDataClass.EscapesOn : SignedDataClass → Prop
  | .userCertificateContent => NoneEscapes lib data ∨ Holds data "human_handle" (HandleEscapes lib) ∨
      Holds data "is_admin" fun value => Escapes (lib.boolean value)
  | .deviceCertificateContent => NoneEscapes lib data ∨ StringEscapes lib data "device_label"
  | .revokedUserCertificateContent | .realmRoleCertificateContent | .sharingRevokedMessageContent =>
      NoneEscapes lib data
  | .fileManifest => ManifestEscapes lib data FileContentEscapes
  | .folderManifest | .workspaceManifest => ManifestEscapes lib data FolderContentEscapes
  | .userManifest => ManifestEscapes lib data UserContentEscapes
  | .sharingGrantedMessageContent | .sharingReencryptedMessageContent =>
      NoneEscapes lib data ∨ SharingEscapes lib data
  | .pingMessageContent => NoneEscapes lib data ∨ StringEscapes lib data "ping"
  | .baseManifest => ExtTypeEscapes data ∨
      HasType data "file_manifest" ∧ ManifestEscapes lib data FileContentEscapes ∨
      HasType data "folder_manifest" ∧ ManifestEscapes lib data FolderContentEscapes ∨
      HasType data "workspace_manifest" ∧ ManifestEscapes lib data FolderContentEscapes ∨
      HasType data "user_manifest" ∧ ManifestEscapes lib data UserContentEscapes
  | .baseMessageContent => ExtTypeEscapes data ∨
      HasType data "sharing.granted" ∧ SharingEscapes lib data ∨
      HasType data "sharing.reencrypted" ∧ SharingEscapes lib data ∨
      HasType data "ping" ∧ StringEscapes lib data "ping"

end Classes

section Schemas

variable {lib : DecodingLibrary} {data : Value}

/-- The fields run on what the hook leaves, which differs in the author only. -/
theorem leaves_manifest {α : Type} {load : Value → Loading α} (content : DecodingLibrary → Value → Prop)
    (fields : ∀ entries, (load (.dict entries)).Leaves ↔
      NumberEscapes lib (.dict entries) "version" ∨ content lib (.dict entries))
    (stable : ∀ fixed, fixLegacy data = .ok fixed → (content lib fixed ↔ content lib data)) :
    (preLoad fixLegacy load data).Leaves ↔ ManifestEscapes lib data content := by
  have same {fixed : Value} (ran : fixLegacy data = .ok fixed) :
      (load fixed).Leaves ↔ NumberEscapes lib data "version" ∨ content lib data := by
    obtain ⟨entries, rfl⟩ := dict_of_fixLegacy ran
    rw [fields, stable _ ran, NumberEscapes, holds_fixLegacy_iff ran (by decide)]
    rfl
  rw [leaves_preLoad_fixLegacy, ManifestEscapes]
  constructor
  · rintro (missing | ⟨fixed, ran, leaves⟩)
    · exact .inl missing
    · exact .inr ((same ran).mp leaves)
  · rintro (missing | trouble)
    · exact .inl missing
    · by_cases author : data.get? "author" = none
      · exact .inl author
      · obtain ⟨fixed, ran⟩ := exists_fixLegacy author
        exact .inr ⟨fixed, ran, (same ran).mpr trouble⟩

/-- Only a mapping has fields that raise. -/
theorem leaves_onMapping_of {α : Type} {fields : Loading α} {trouble : Prop}
    (same : fields.Leaves ↔ trouble) (mapping : trouble → ∃ entries, data = .dict entries) :
    (onMapping lib data fields).Leaves ↔ NoneEscapes lib data ∨ trouble := by
  rw [leaves_onMapping, same]
  exact or_congr_right (and_iff_right_of_imp mapping)

theorem leaves_onMapping_dict {α : Type} {fields : Loading α} {entries : List (Value × Value)} {trouble : Prop}
    (same : fields.Leaves ↔ trouble) : (onMapping lib (.dict entries) fields).Leaves ↔ trouble := same

theorem leaves_loadFileManifest :
    (loadFileManifest lib data).Leaves ↔ ManifestEscapes lib data FileContentEscapes := by
  refine leaves_manifest FileContentEscapes (fun entries => leaves_onMapping_dict ?_) fun fixed ran => ?_
  · simp [authorField, timestampField, typeField, entryIdField, NumberEscapes, FileContentEscapes, or_assoc]
  · simp only [FileContentEscapes, NumberEscapes, holds_fixLegacy_iff ran (show "size" ≠ "author" by decide),
      holds_fixLegacy_iff ran (show "blocksize" ≠ "author" by decide),
      holds_fixLegacy_iff ran (show "blocks" ≠ "author" by decide)]

theorem leaves_loadFolderManifest :
    (loadFolderManifest lib data).Leaves ↔ ManifestEscapes lib data FolderContentEscapes := by
  refine leaves_manifest FolderContentEscapes (fun entries => leaves_onMapping_dict ?_) fun fixed ran => ?_
  · simp [authorField, timestampField, typeField, entryIdField, childrenField, NumberEscapes,
      FolderContentEscapes]
  · exact holds_fixLegacy_iff ran (by decide)

theorem leaves_loadWorkspaceManifest :
    (loadWorkspaceManifest lib data).Leaves ↔ ManifestEscapes lib data FolderContentEscapes := by
  refine leaves_manifest FolderContentEscapes (fun entries => leaves_onMapping_dict ?_) fun fixed ran => ?_
  · simp [authorField, timestampField, typeField, entryIdField, childrenField, NumberEscapes,
      FolderContentEscapes]
  · exact holds_fixLegacy_iff ran (by decide)

theorem leaves_loadUserManifest :
    (loadUserManifest lib data).Leaves ↔ ManifestEscapes lib data UserContentEscapes := by
  refine leaves_manifest UserContentEscapes (fun entries => leaves_onMapping_dict ?_) fun fixed ran => ?_
  · simp [authorField, timestampField, typeField, entryIdField, NumberEscapes, UserContentEscapes, or_assoc]
  · simp only [UserContentEscapes, NumberEscapes,
      holds_fixLegacy_iff ran (show "last_processed_message" ≠ "author" by decide),
      holds_fixLegacy_iff ran (show "workspaces" ≠ "author" by decide)]

theorem leaves_loadUserCertificate : (loadUserCertificate lib data).Leaves ↔ NoneEscapes lib data ∨
    Holds data "human_handle" (HandleEscapes lib) ∨
      Holds data "is_admin" fun value => Escapes (lib.boolean value) := by
  refine leaves_onMapping_of ?_ ?_
  · simp [timestampField, typeField]
  · rintro (handle | isAdmin)
    all_goals apply Holds.exists_dict; assumption

theorem leaves_loadDeviceCertificate : (loadDeviceCertificate lib data).Leaves ↔
    NoneEscapes lib data ∨ StringEscapes lib data "device_label" := by
  refine leaves_onMapping_of ?_ Holds.exists_dict
  simp [timestampField, typeField, StringEscapes]

theorem leaves_loadRevokedUserCertificate :
    (loadRevokedUserCertificate lib data).Leaves ↔ NoneEscapes lib data := by
  rw [loadRevokedUserCertificate, leaves_onMapping]
  simp [authorField, timestampField, typeField]

theorem leaves_loadRealmRoleCertificate :
    (loadRealmRoleCertificate lib data).Leaves ↔ NoneEscapes lib data := by
  rw [loadRealmRoleCertificate, leaves_onMapping]
  simp [authorField, timestampField, typeField]

theorem leaves_loadSharingMessage {type : String} :
    (loadSharingMessage lib data type).Leaves ↔ NoneEscapes lib data ∨ SharingEscapes lib data := by
  refine leaves_onMapping_of ?_ ?_
  · simp [authorField, timestampField, typeField, entryIdField, SharingEscapes, StringEscapes, NumberEscapes]
  · rintro (name | revision)
    all_goals apply Holds.exists_dict; assumption

theorem leaves_loadSharingRevoked : (loadSharingRevoked lib data).Leaves ↔ NoneEscapes lib data := by
  rw [loadSharingRevoked, leaves_onMapping]
  simp [authorField, timestampField, typeField, entryIdField]

theorem leaves_loadPing : (loadPing lib data).Leaves ↔ NoneEscapes lib data ∨ StringEscapes lib data "ping" := by
  refine leaves_onMapping_of ?_ Holds.exists_dict
  simp [authorField, timestampField, typeField, StringEscapes]

theorem leaves_recordValue {value : Value} :
    (recordValue value).Leaves ↔ ∃ code bytes, value = .extType code bytes := by
  cases value with
  | extType code bytes => exact iff_of_true ⟨_, rfl⟩ ⟨code, bytes, rfl⟩
  | _ => simp [recordValue]

/-- A schema escapes, or the text of an error cannot be put together. -/
theorem leaves_loadOneOf {schemas : List (String × (Value → Loading SignedContent))}
    (distinct : (schemas.map Prod.fst).Nodup) : (loadOneOf schemas data).Leaves ↔ ExtTypeEscapes data ∨
      ∃ schema ∈ schemas, HasType data schema.1 ∧ (schema.2 data).Leaves := by
  unfold loadOneOf HasType ExtTypeEscapes
  split
  · next entries =>
    split
    · next missing => simp [Value.get?, missing]
    · next type found =>
      have noExt : ¬ ∃ code bytes, Value.dict entries = .extType code bytes ∨
          (Value.dict entries).get? "type" = some (.extType code bytes) := by
        simp [Value.get?, found]
      rw [or_iff_right noExt]
      constructor
      · intro leaves
        cases selected : schemas.lookup type with
        | none => rw [selected] at leaves; exact absurd leaves leaves_ok
        | some load =>
          rw [selected] at leaves
          exact ⟨(type, load), (Dict.lookup_iff distinct).mp selected, found, leaves⟩
      · rintro ⟨⟨other, load⟩, member, same, leaves⟩
        cases found.symm.trans same
        rwa [(Dict.lookup_iff distinct).mpr member]
    · next value other found =>
      have noText : ¬ ∃ schema ∈ schemas, (Value.dict entries).get? "type" = some (.str schema.1) ∧
          (schema.2 (.dict entries)).Leaves := by
        rintro ⟨⟨type, load⟩, -, same, -⟩
        exact other type (Option.some_inj.mp (found.symm.trans same))
      rw [or_iff_left noText, leaves_recordValue]
      simp [Value.get?, found]
  · next other =>
    have plain (value : Value) : data.get? "type" ≠ some value := by
      cases data with
      | dict entries => exact absurd rfl (other entries)
      | _ => simp [Value.get?]
    rw [leaves_recordValue]
    simp [plain]

/-- What has a type is not `None`. -/
theorem hasType_and_noneEscapes_or {type : String} {trouble : Prop} :
    HasType data type ∧ (NoneEscapes lib data ∨ trouble) ↔ HasType data type ∧ trouble := by
  refine and_congr_right fun typed => or_iff_right ?_
  rintro ⟨rfl, -⟩
  cases typed

theorem hasType_and_noneEscapes {type : String} : ¬ (HasType data type ∧ NoneEscapes lib data) := by
  rintro ⟨typed, rfl, -⟩
  cases typed

/-- One case for each class. -/
theorem leaves_load (cls : SignedDataClass) : (cls.load lib data).Leaves ↔ cls.EscapesOn lib data := by
  cases cls with
  | userCertificateContent => exact leaves_content.trans leaves_loadUserCertificate
  | revokedUserCertificateContent => exact leaves_content.trans leaves_loadRevokedUserCertificate
  | deviceCertificateContent => exact leaves_content.trans leaves_loadDeviceCertificate
  | realmRoleCertificateContent => exact leaves_content.trans leaves_loadRealmRoleCertificate
  | fileManifest => exact leaves_content.trans leaves_loadFileManifest
  | folderManifest => exact leaves_content.trans leaves_loadFolderManifest
  | workspaceManifest => exact leaves_content.trans leaves_loadWorkspaceManifest
  | userManifest => exact leaves_content.trans leaves_loadUserManifest
  | sharingGrantedMessageContent => exact leaves_content.trans leaves_loadSharingMessage
  | sharingReencryptedMessageContent => exact leaves_content.trans leaves_loadSharingMessage
  | sharingRevokedMessageContent => exact leaves_content.trans leaves_loadSharingRevoked
  | pingMessageContent => exact leaves_content.trans leaves_loadPing
  | baseManifest =>
    have distinct : ((manifestTypeSchemas lib).map Prod.fst).Nodup := by simp [manifestTypeSchemas]
    rw [SignedDataClass.load, leaves_loadOneOf distinct]
    simp only [manifestTypeSchemas, List.mem_cons, List.not_mem_nil, or_false, exists_eq_or_imp,
      exists_eq_left, leaves_content, leaves_loadFileManifest, leaves_loadFolderManifest,
      leaves_loadWorkspaceManifest, leaves_loadUserManifest]
    rfl
  | baseMessageContent =>
    have distinct : ((messageTypeSchemas lib).map Prod.fst).Nodup := by simp [messageTypeSchemas]
    rw [SignedDataClass.load, leaves_loadOneOf distinct]
    simp only [messageTypeSchemas, List.mem_cons, List.not_mem_nil, or_false, exists_eq_or_imp,
      exists_eq_left, leaves_content, loadSharingGranted, loadSharingReencrypted, leaves_loadSharingMessage,
      leaves_loadSharingRevoked, leaves_loadPing, hasType_and_noneEscapes_or, hasType_and_noneEscapes, false_or]
    rfl

/-- What was unpacked, and then fails. -/
theorem unpackb_eq_error_iff {packed : Option Packed} {raised : PyException} :
    unpackb lib packed = .error (.escaped raised) ↔ ∃ content, packed = some content ∧
      content.events.findSome? (UnpackEvent.raises lib.fromTimestamp) = some raised ∧
        raised ≠ .valueError := by
  cases packed with
  | none => simp [unpackb]
  | some content =>
    simp only [unpackb, ← raised?_unpack, Option.some.injEq, exists_eq_left']
    cases content.unpack lib.fromTimestamp with
    | ok value => simp
    | error err => cases err <;> cases raised <;> simp

theorem deserialize_eq_escaped_iff {cls : SignedDataClass} {raised : PyException} :
    cls.deserialize lib data = .error (.escaped raised) ↔ cls.load lib data = .error raised := by
  unfold SignedDataClass.deserialize
  split <;> simp_all

/-- A schema builds objects of its class. -/
theorem accepts_of_load {cls : SignedDataClass} {content : SignedContent}
    (loaded : cls.load lib data = .ok (some content)) : cls.accepts content := by
  cases cls with
  | baseManifest =>
    obtain ⟨schema, member, built⟩ := exists_of_loadOneOf loaded
    simp only [manifestTypeSchemas, List.mem_cons, List.not_mem_nil, or_false] at member
    rcases member with rfl | rfl | rfl | rfl
    all_goals obtain ⟨value, -, rfl⟩ := content_eq_ok_some_iff.mp built
    all_goals rfl
  | baseMessageContent =>
    obtain ⟨schema, member, built⟩ := exists_of_loadOneOf loaded
    simp only [messageTypeSchemas, List.mem_cons, List.not_mem_nil, or_false] at member
    rcases member with rfl | rfl | rfl | rfl
    all_goals obtain ⟨value, -, rfl⟩ := content_eq_ok_some_iff.mp built
    all_goals rfl
  | _ =>
    obtain ⟨value, -, rfl⟩ := content_eq_ok_some_iff.mp loaded
    rfl

/-- What escapes comes from unpacking or from the schema. -/
theorem verifyAndLoad_eq_escaped_iff {cls : SignedDataClass} {signed : SignedBytes} {key : VerifyKey}
    {author : Option DeviceID} {expectations : Expectations} {raised : PyException} :
    cls.verifyAndLoad lib signed key author expectations = .error (.escaped raised) ↔
      signed.signer = key ∧ (unpackb lib signed.packed = .error (.escaped raised) ∨
        ∃ data, unpackb lib signed.packed = .ok data ∧ cls.load lib data = .error raised) := by
  simp [SignedDataClass.verifyAndLoad, Except.bind_eq_error_iff, Except.require_eq_error_iff,
    deserialize_eq_escaped_iff, pure, Except.pure]

theorem accepts_of_verifyAndLoad {cls : SignedDataClass} {signed : SignedBytes} {key : VerifyKey}
    {author : Option DeviceID} {expectations : Expectations} {content : SignedContent}
    (returned : cls.verifyAndLoad lib signed key author expectations = .ok content) : cls.accepts content := by
  obtain ⟨packed, data, -, -, loaded⟩ := load_of_verifyAndLoad returned
  exact accepts_of_load loaded

end Schemas

/-- The data is read, and the schema of the class raises nothing but validation errors on it. -/
def DecodesCleanly (lib : DecodingLibrary) (cls : SignedDataClass) (packed : Packed) : Prop :=
  packed.events.findSome? (UnpackEvent.raises lib.fromTimestamp) ∈ [none, some .valueError] ∧
    ∀ data, packed.unpack lib.fromTimestamp = .ok data → ¬ cls.EscapesOn lib data

section Example

/-- What is signed with the first key. -/
private def signedPacked (packed : Packed) : SignedBytes := ⟨⟨1⟩, some packed⟩

/-- A message as it should be. -/
example : SignedDataClass.baseMessageContent.verifyAndLoad plainLibrary
    (signedPacked (.map [(.str "type", .str "ping"), (.str "author", .str "bob@dev"),
      (.str "timestamp", .ext 1 (List.replicate 8 0)), (.str "ping", .str "hello")])) ⟨1⟩
      (some ⟨"bob", "dev"⟩) {} = .ok (.ping ⟨⟨"bob", "dev"⟩, 0, "hello"⟩) := by decide

end Example

end Guardata
