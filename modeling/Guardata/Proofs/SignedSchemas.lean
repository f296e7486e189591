import Guardata.Model.SignedSchemas
import Guardata.Proofs.Packing

/-! # Which values make a schema raise

A field escapes on a value if it raises anything but a validation error. A schema escapes if one of its
fields does, whatever the others record. The lemmas below say for each kind of field on which values
that is, in terms of the value alone and of what the library does with it.
-/

namespace Guardata

variable {α β κ : Type} {lib : DecodingLibrary}

/-- The exception is not recorded. -/
def Escapes (field : Except PyException α) : Prop := ∃ raised, field = .error raised ∧ raised ≠ .validationError

namespace Loading

/-- The schema is left by an exception. -/
def Leaves (loading : Loading α) : Prop := ∃ raised, loading = .error raised

@[simp] theorem leaves_ok {result : Option α} : ¬ Leaves (.ok result : Loading α) := nofun

@[simp] theorem leaves_build {make : α} : ¬ Leaves (build make) := nofun

@[simp] theorem leaves_storeErrors {field : Except PyException α} :
    Leaves (storeErrors field) ↔ Escapes field := by
  cases field with
  | ok value => simp [storeErrors, Leaves, Escapes]
  | error raised => cases raised <;> simp [storeErrors, Leaves, Escapes]

@[simp] theorem leaves_ap {build : Loading (α → β)} {field : Loading α} :
    Leaves (build.ap field) ↔ Leaves build ∨ Leaves field := by
  cases build <;> cases field <;> simp [ap, Leaves, Except.bind, Except.map]

@[simp] theorem leaves_postLoad {loaded : Loading α} {hook : α → Option β} :
    Leaves (loaded.postLoad hook) ↔ Leaves loaded := by
  cases loaded <;> simp [postLoad, Leaves, Except.map]

@[simp] theorem leaves_content {loaded : Loading α} {make : α → SignedContent} :
    Leaves (loaded.content make) ↔ Leaves loaded := by
  cases loaded <;> simp [content, Leaves, Except.map]

end Loading

open Loading

section Fields

@[simp] theorem escapes_ok {value : α} : ¬ Escapes (.ok value : Except PyException α) := nofun

@[simp] theorem escapes_validationError : ¬ Escapes (.error .validationError : Except PyException α) := by
  rintro ⟨raised, ⟨⟩, recorded⟩
  exact recorded rfl

@[simp] theorem escapes_accept {built : Option α} : ¬ Escapes (accept built) := by
  cases built <;> simp [accept]

@[simp] theorem escapes_map {field : Except PyException α} {f : α → β} :
    Escapes (field.map f) ↔ Escapes field := by
  cases field <;> simp [Escapes, Except.map]

theorem escapes_bind {first : Except PyException α} {next : α → Except PyException β} :
    Escapes (first >>= next) ↔ Escapes first ∨ ∃ value, first = .ok value ∧ Escapes (next value) := by
  cases first <;> simp [Escapes, bind, Except.bind]

@[simp] theorem escapes_require {cond : Prop} [Decidable cond] :
    ¬ Escapes (Except.require cond PyException.validationError) := by
  rintro ⟨raised, required, recorded⟩
  by_cases holds : cond <;> simp [Except.require, holds] at required
  exact recorded required.symm

@[simp] theorem escapes_strBasedField {parse : String → Option α} {value : Value} :
    ¬ Escapes (strBasedField parse value) := by
  cases value <;> simp [strBasedField]

@[simp] theorem escapes_bytesBasedField {build : Bytes → Option α} {value : Value} :
    ¬ Escapes (bytesBasedField build value) := by
  cases value <;> simp [bytesBasedField]

@[simp] theorem escapes_uuidBasedField {value : Value} : ¬ Escapes (uuidBasedField lib value) := escapes_accept

@[simp] theorem escapes_uuidField {value : Value} : ¬ Escapes (uuidField value) := by
  cases value <;> simp [uuidField]

@[simp] theorem escapes_dateTimeField {value : Value} : ¬ Escapes (dateTimeField value) := by
  cases value <;> simp [dateTimeField]

@[simp] theorem escapes_enumField {choices : List (String × α)} {value : Value} :
    ¬ Escapes (enumField choices value) := by
  cases value <;> simp [enumField]

@[simp] theorem escapes_realmRoleField {value : Value} : ¬ Escapes (realmRoleField value) := escapes_enumField

@[simp] theorem escapes_userProfileField {value : Value} : ¬ Escapes (userProfileField value) :=
  escapes_enumField

@[simp] theorem escapes_checkedConstant {constant : String} {value : Value} :
    ¬ Escapes (checkedConstant constant value) := by
  cases value <;> simp [checkedConstant]

@[simp] theorem escapes_naturalField {low : ℕ} {value : Value} :
    Escapes (naturalField lib low value) ↔ Escapes (lib.integer value) := by
  simp [naturalField, escapes_bind, pure, Except.pure]

theorem escapes_notNull {field : Value → Except PyException α} {value : Value} :
    Escapes (notNull field value) ↔ value ≠ .none ∧ Escapes (field value) := by
  cases value <;> simp [notNull]

def Value.IsText : Value → Prop
  | .str _ => True
  | _ => False

/-- A name that is no text cannot be normalized. -/
@[simp] theorem escapes_childNameField {value : Value} :
    Escapes (childNameField lib value) ↔ ¬ value.IsText := by
  have plain (raised : entryNameField lib value = .error .typeError) : Escapes (childNameField lib value) :=
    ⟨.typeError, by rw [childNameField, raised]; rfl, nofun⟩
  cases value with
  | str text =>
    simp only [childNameField, entryNameField, Value.IsText, not_true, iff_false, escapes_bind]
    rintro (name | ⟨name, -, length | ⟨-, -, done⟩⟩)
    · cases built : EntryName.new lib.normalize text <;> rw [built] at name
      · exact escapes_validationError name
      · exact escapes_ok name
    · exact escapes_require length
    · exact escapes_ok done
  | _ => exact iff_of_true (plain rfl) (by simp [Value.IsText])

/-- Two texts that are no human handle, or one that marshmallow cannot read. -/
def PairEscapes (lib : DecodingLibrary) (email label : Value) : Prop :=
  Escapes (notNull lib.string email) ∨
    ∃ address, notNull lib.string email = .ok address ∧ (Escapes (notNull lib.string label) ∨
      ∃ text, notNull lib.string label = .ok text ∧ HumanHandle.new lib address text = none)

theorem escapes_humanHandlePair {email label : Value} :
    Escapes (humanHandlePair lib email label) ↔ PairEscapes lib email label := by
  simp only [humanHandlePair, escapes_bind, PairEscapes]
  refine or_congr_right (exists_congr fun address => and_congr_right fun _ => or_congr_right
    (exists_congr fun text => and_congr_right fun _ => ?_))
  cases HumanHandle.new lib address text with
  | none => exact iff_of_true ⟨.valueError, rfl, by decide⟩ rfl
  | some handle => exact iff_of_false escapes_ok (Option.some_ne_none handle)

def HandleEscapes (lib : DecodingLibrary) : Value → Prop
  | .list [email, label] => PairEscapes lib email label
  | .extType code data => PairEscapes lib (.int code) (.bytes data)
  | _ => False

@[simp] theorem escapes_humanHandleField {value : Value} :
    Escapes (humanHandleField lib value) ↔ HandleEscapes lib value := by
  cases value with
  | list items =>
    rcases items with _ | ⟨email, _ | ⟨label, _ | ⟨third, rest⟩⟩⟩
    · exact iff_of_false escapes_validationError id
    · exact iff_of_false escapes_validationError id
    · exact escapes_humanHandlePair
    · exact iff_of_false escapes_validationError id
  | extType code data => exact escapes_humanHandlePair
  | _ => exact iff_of_false escapes_validationError id

/-- An entry that a mapping keeps. -/
def EntryReads (lib : DecodingLibrary) (entry : Value × Value) : Prop :=
  (∃ name, notNull (childNameField lib) entry.1 = .ok name) ∧
    ∃ id, notNull (uuidBasedField lib) entry.2 = .ok id

/-- Behind entries that are kept comes one whose name is neither a text nor nothing. -/
def ChildrenEscape (lib : DecodingLibrary) : Value → Prop
  | .dict entries => ∃ before name child after, entries = before ++ (name, child) :: after ∧
      (∀ entry ∈ before, EntryReads lib entry) ∧ name ≠ .none ∧ ¬ name.IsText
  | _ => False

/-- The step lemma of the loop over the entries. -/
theorem escapes_mapEntry {ret : Dict EntryName EntryID} {entry : Value × Value} :
    Escapes (mapEntry (childNameField lib) (uuidBasedField lib) ret entry) ↔
      entry.1 ≠ .none ∧ ¬ entry.1.IsText := by
  rw [mapEntry, escapes_bind, escapes_notNull, escapes_childNameField, or_iff_left]
  rintro ⟨name, -, later⟩
  rw [escapes_bind, escapes_notNull] at later
  rcases later with ⟨-, child⟩ | ⟨id, -, done⟩
  · exact escapes_uuidBasedField child
  · exact escapes_ok done

theorem mapEntry_ok_iff {ret : Dict EntryName EntryID} {entry : Value × Value} :
    (∃ next, mapEntry (childNameField lib) (uuidBasedField lib) ret entry = .ok next) ↔
      EntryReads lib entry := by
  simp only [mapEntry, EntryReads, Except.bind_eq_ok_iff, Except.pure_eq_ok_iff]
  constructor
  · rintro ⟨next, name, readName, id, readId, -⟩
    exact ⟨⟨name, readName⟩, id, readId⟩
  · rintro ⟨⟨name, readName⟩, id, readId⟩
    exact ⟨_, name, readName, id, readId, rfl⟩

/-- The run lemma. -/
theorem escapes_foldlM_mapEntry {entries : List (Value × Value)} {ret : Dict EntryName EntryID} :
    Escapes (entries.foldlM (mapEntry (childNameField lib) (uuidBasedField lib)) ret) ↔
      ChildrenEscape lib (.dict entries) := by
  induction entries generalizing ret with
  | nil => simp [ChildrenEscape, pure, Except.pure]
  | cons entry rest ih =>
    rw [List.foldlM_cons, escapes_bind, escapes_mapEntry]
    constructor
    · rintro (here | ⟨next, read, later⟩)
      · exact ⟨[], entry.1, entry.2, rest, rfl, by simp, here⟩
      · obtain ⟨before, name, child, after, rfl, reads, refused⟩ := ih.mp later
        refine ⟨entry :: before, name, child, after, rfl, ?_, refused⟩
        exact List.forall_mem_cons.mpr ⟨mapEntry_ok_iff.mp ⟨next, read⟩, reads⟩
    · rintro ⟨before, name, child, after, split, reads, refused⟩
      cases before with
      | nil =>
        obtain ⟨rfl, -⟩ := List.cons.inj split
        exact .inl refused
      | cons first before =>
        obtain ⟨rfl, rfl⟩ := List.cons.inj split
        obtain ⟨here, reads⟩ := List.forall_mem_cons.mp reads
        obtain ⟨next, read⟩ := mapEntry_ok_iff.mpr here
        exact .inr ⟨next, read, ih.mpr ⟨before, name, child, after, rfl, reads, refused⟩⟩

@[simp] theorem escapes_mapField {value : Value} :
    Escapes (mapField (childNameField lib) (uuidBasedField lib) value) ↔ ChildrenEscape lib value := by
  cases value with
  | dict entries => exact escapes_foldlM_mapEntry
  | _ => simp [mapField, ChildrenEscape]

/-- An item of a list on which a nested schema escapes. -/
def ItemEscapes (trouble : Value → Prop) : Value → Prop
  | .list items => ∃ item ∈ items, item ≠ .none ∧ trouble item
  | _ => False

theorem leaves_nestedItem {load : Value → Loading α} {item : Value} :
    (nestedItem load item).Leaves ↔ item ≠ .none ∧ (load item).Leaves := by
  cases item <;> simp [nestedItem]

/-- Recorded errors do not end the walk over the items, exceptions do. -/
theorem leaves_mapM {load : Value → Loading α} {items : List Value} :
    (∃ raised, items.mapM (m := Except PyException) (nestedItem load) = .error raised) ↔
      ∃ item ∈ items, item ≠ .none ∧ (load item).Leaves := by
  induction items with
  | nil => simp [pure, Except.pure]
  | cons item rest ih =>
    rw [List.mapM_cons, List.exists_mem_cons_iff, ← leaves_nestedItem, ← ih]
    cases nestedItem load item with
    | error raised => simp [bind, Except.bind, Leaves]
    | ok recorded =>
      cases rest.mapM (m := Except PyException) (nestedItem load) <;>
        simp [bind, Except.bind, Leaves, pure, Except.pure]

end Fields

section Schemas

variable {data : Value} {name : String}

/-- The field has a value, and a bad one. -/
def Holds (data : Value) (name : String) (bad : Value → Prop) : Prop :=
  ∃ value, data.get? name = some value ∧ value ≠ .none ∧ bad value

@[simp] theorem holds_false : ¬ Holds data name fun _ => False := by
  rintro ⟨_, _, _, ⟨⟩⟩

theorem Holds.exists_dict {bad : Value → Prop} (holds : Holds data name bad) :
    ∃ entries, data = .dict entries := by
  obtain ⟨value, found, -⟩ := holds
  cases data <;> first | exact ⟨_, rfl⟩ | cases found

@[simp] theorem leaves_requiredField {field : Value → Except PyException α} :
    (requiredField data name field).Leaves ↔ Holds data name fun value => Escapes (field value) := by
  rw [requiredField, leaves_storeErrors, Holds]
  cases data.get? name with
  | none => simp
  | some value => simp [escapes_notNull]

@[simp] theorem leaves_requiredNullableField {field : Value → Except PyException α} :
    (requiredNullableField data name field).Leaves ↔ Holds data name fun value => Escapes (field value) := by
  rw [requiredNullableField, leaves_storeErrors, Holds]
  cases data.get? name with
  | none => simp
  | some value => cases value <;> simp [nullable]

@[simp] theorem leaves_missingNoneField {field : Value → Except PyException α} :
    (missingNoneField data name field).Leaves ↔ Holds data name fun value => Escapes (field value) := by
  rw [missingNoneField, leaves_storeErrors, Holds]
  cases data.get? name with
  | none => simp
  | some value => cases value <;> simp [nullable]

@[simp] theorem leaves_optionalField {field : Value → Except PyException α} :
    (optionalField data name field).Leaves ↔ Holds data name fun value => Escapes (field value) := by
  rw [optionalField, leaves_storeErrors, Holds]
  cases data.get? name with
  | none => simp
  | some value => simp [escapes_notNull]

/-- A schema is called with `None`, and its hook as well. -/
def NoneEscapes (lib : DecodingLibrary) (data : Value) : Prop := data = .none ∧ lib.takesNone = true

/-- What is neither a mapping nor `None` is recorded as such. -/
theorem leaves_onMapping {fields : Loading α} : (onMapping lib data fields).Leaves ↔
    NoneEscapes lib data ∨ (∃ entries, data = .dict entries) ∧ fields.Leaves := by
  cases data with
  | none =>
    rw [onMapping]
    split_ifs with takes
    · exact iff_of_true ⟨_, rfl⟩ (.inl ⟨rfl, takes⟩)
    · simp [NoneEscapes, takes]
  | _ => simp [onMapping, NoneEscapes]

/-- A schema records its validation errors. -/
theorem storeErrors_ne {field : Except PyException α} : storeErrors field ≠ .error .validationError := by
  rcases field with raised | value
  · cases raised <;> simp [storeErrors]
  · nofun

theorem ap_ne {build : Loading (α → β)} {field : Loading α} (first : build ≠ .error .validationError)
    (second : field ≠ .error .validationError) : build.ap field ≠ .error .validationError := by
  cases build <;> cases field <;> simp_all [ap, Except.bind, Except.map]

theorem onMapping_ne {fields : Loading α} (recorded : fields ≠ .error .validationError) :
    onMapping lib data fields ≠ .error .validationError := by
  cases data with
  | dict entries => exact recorded
  | none =>
    rw [onMapping]
    split_ifs <;> nofun
  | _ => nofun

theorem escapes_nestedListField {load : Value → Loading α}
    (recorded : ∀ item, load item ≠ .error .validationError) {value : Value} :
    Escapes (nestedListField load value) ↔ ItemEscapes (fun item => (load item).Leaves) value := by
  cases value with
  | list items =>
    have raises : Escapes (items.mapM (m := Except PyException) (nestedItem load)) ↔
        ∃ raised, items.mapM (m := Except PyException) (nestedItem load) = .error raised := by
      refine exists_congr fun raised => and_iff_left_of_imp ?_
      rintro failed rfl
      refine Except.mapM_ne_error (fun item => ?_) items failed
      cases item <;> first | exact recorded _ | nofun
    rw [nestedListField, ItemEscapes, ← leaves_mapM, escapes_bind, raises, or_iff_left]
    rintro ⟨loaded, -, accepted⟩
    exact escapes_accept accepted
  | _ => simp [nestedListField, ItemEscapes]

/-- An access whose offset or size marshmallow cannot read. -/
def BlockEscapes (lib : DecodingLibrary) (item : Value) : Prop :=
  Holds item "offset" (fun value => Escapes (lib.integer value)) ∨
    Holds item "size" fun value => Escapes (lib.integer value)

/-- A workspace whose name is no text, or whose revision marshmallow cannot read. -/
def WorkspaceEscapes (lib : DecodingLibrary) (item : Value) : Prop :=
  Holds item "name" (fun value => ¬ value.IsText) ∨
    Holds item "encryption_revision" fun value => Escapes (lib.integer value)

theorem leaves_loadBlockAccess {item : Value} :
    (loadBlockAccess lib item).Leaves ↔ NoneEscapes lib item ∨ BlockEscapes lib item := by
  simp only [loadBlockAccess, BlockEscapes, leaves_onMapping, entryIdField, leaves_ap, leaves_build,
    leaves_requiredField, escapes_uuidBasedField, escapes_bytesBasedField, escapes_naturalField, holds_false,
    false_or, or_false]
  exact or_congr_right <|
    and_iff_right_of_imp fun trouble => trouble.elim Holds.exists_dict Holds.exists_dict

theorem leaves_loadWorkspaceEntry {item : Value} :
    (loadWorkspaceEntry lib item).Leaves ↔ NoneEscapes lib item ∨ WorkspaceEscapes lib item := by
  simp only [loadWorkspaceEntry, WorkspaceEscapes, leaves_onMapping, entryIdField, leaves_ap, leaves_build,
    leaves_requiredField, leaves_requiredNullableField, escapes_uuidBasedField, escapes_bytesBasedField,
    escapes_naturalField, escapes_dateTimeField, escapes_realmRoleField, escapes_childNameField, holds_false,
    false_or, or_false]
  exact or_congr_right <|
    and_iff_right_of_imp fun trouble => trouble.elim Holds.exists_dict Holds.exists_dict

/-- No item of a list is `None` where a nested schema is called. -/
theorem itemEscapes_noneEscapes_or {trouble : Value → Prop} {value : Value} :
    ItemEscapes (fun item => NoneEscapes lib item ∨ trouble item) value ↔ ItemEscapes trouble value := by
  cases value with
  | list items =>
    refine exists_congr fun item => and_congr_right fun _ => and_congr_right fun here => ?_
    exact or_iff_right fun escapes => here escapes.1
  | _ => exact Iff.rfl

@[simp] theorem escapes_blocksField {value : Value} :
    Escapes (nestedListField (loadBlockAccess lib) value) ↔ ItemEscapes (BlockEscapes lib) value := by
  rw [escapes_nestedListField]
  · simp only [leaves_loadBlockAccess, itemEscapes_noneEscapes_or]
  · intro item
    refine onMapping_ne (ap_ne (ap_ne (ap_ne (ap_ne (ap_ne nofun ?_) ?_) ?_) ?_) ?_)
    all_goals exact storeErrors_ne

@[simp] theorem escapes_workspacesField {value : Value} :
    Escapes (nestedListField (loadWorkspaceEntry lib) value) ↔ ItemEscapes (WorkspaceEscapes lib) value := by
  rw [escapes_nestedListField]
  · simp only [leaves_loadWorkspaceEntry, itemEscapes_noneEscapes_or]
  · intro item
    refine onMapping_ne (ap_ne (ap_ne (ap_ne (ap_ne (ap_ne (ap_ne (ap_ne nofun ?_) ?_) ?_) ?_) ?_) ?_) ?_)
    all_goals exact storeErrors_ne

/-- The hook that runs first needs a mapping with an author. -/
theorem leaves_preLoad_fixLegacy {load : Value → Loading α} :
    (preLoad fixLegacy load data).Leaves ↔ data.get? "author" = none ∨
      ∃ fixed, fixLegacy data = .ok fixed ∧ (load fixed).Leaves := by
  cases data with
  | dict entries =>
    rw [preLoad, fixLegacy, Value.get?]
    cases Value.lookup "author" entries with
    | none => simp [Leaves, Except.bind]
    | some author => cases author <;> simp [Except.bind]
  | _ => simp [preLoad, fixLegacy, Value.get?, Leaves, Except.bind]

/-- The hook changes nothing but the author. -/
theorem get?_fixLegacy {fixed : Value} (ran : fixLegacy data = .ok fixed) (other : name ≠ "author") :
    fixed.get? name = data.get? name := by
  unfold fixLegacy at ran
  split at ran
  · split at ran
    · cases ran
    · cases ran
      exact lookup_store_of_ne other.symm _
    · cases ran
      rfl
  · cases ran

theorem holds_fixLegacy_iff {fixed : Value} {bad : Value → Prop} (ran : fixLegacy data = .ok fixed)
    (other : name ≠ "author") : Holds fixed name bad ↔ Holds data name bad := by
  rw [Holds, Holds, get?_fixLegacy ran other]

theorem dict_of_fixLegacy {fixed : Value} (ran : fixLegacy data = .ok fixed) : ∃ entries, fixed = .dict entries := by
  unfold fixLegacy at ran
  split at ran
  · split at ran
    · cases ran
    · cases ran
      exact ⟨_, rfl⟩
    · cases ran
      exact ⟨_, rfl⟩
  · cases ran

/-- The author is all that the hook asks for. -/
theorem exists_fixLegacy (author : data.get? "author" ≠ none) : ∃ fixed, fixLegacy data = .ok fixed := by
  cases data with
  | dict entries =>
    rw [fixLegacy]
    rw [Value.get?] at author
    cases found : Value.lookup "author" entries with
    | none => exact absurd found author
    | some value => cases value <;> exact ⟨_, rfl⟩
  | _ => exact absurd rfl author

end Schemas

end Guardata
