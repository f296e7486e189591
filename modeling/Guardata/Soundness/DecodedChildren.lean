import Mathlib.Data.Finset.Card
import Guardata.Proofs.DecodedData
import Guardata.Proofs.SignedSchemas

/-! # Decoding keeps the children whose names have different normal forms

The names of the children are normalized while their mapping is rebuilt. Of two names on the wire with
one normal form only the later one leaves its id behind, so the decoded mapping has as many entries as the
map on the wire if and only if all normal forms differ. Then no id is lost either.
-/

namespace Guardata

namespace Packed

def text? : Packed → Option String
  | .str text => some text
  | _ => none

/-- The last value under a text. -/
def lastUnder (name : String) : List (Packed × Packed) → Option Packed
  | [] => none
  | entry :: rest => (lastUnder name rest).or (if entry.1.text? = some name then some entry.2 else none)

/-- The value of a field of a packed mapping. -/
def field? (name : String) : Packed → Option Packed
  | .map entries => lastUnder name entries
  | _ => none

end Packed

/-- The children of a folder or of a workspace. -/
def SignedContent.children? : SignedContent → Option (Dict EntryName EntryID)
  | .folderManifest manifest | .workspaceManifest manifest => some manifest.children
  | _ => none

section Unpack

variable {fromTimestamp : Bytes → Except PyException DateTime} {name : String}
  {stored entries result : List (Value × Value)} {key value : Value} {wire : List (Packed × Packed)}

/-- Only texts are unpacked as texts. -/
theorem unpack_eq_text_iff {packed : Packed} {text : String} :
    packed.unpack fromTimestamp = .ok (.str text) ↔ packed = .str text := by
  constructor
  · intro unpacked
    cases packed with
    | str other => cases unpacked; rfl
    | array items => obtain ⟨values, -, ⟨⟩⟩ := Except.map_eq_ok_iff.mp unpacked
    | map entries => obtain ⟨values, -, ⟨⟩⟩ := Except.map_eq_ok_iff.mp unpacked
    | ext code data =>
      rw [Packed.unpack, unpackbExtHook] at unpacked
      split at unpacked
      · split at unpacked
        · obtain ⟨date, -, ⟨⟩⟩ := Except.map_eq_ok_iff.mp unpacked
        · cases unpacked
      · split at unpacked <;> split at unpacked <;> cases unpacked
    | _ => cases unpacked
  · rintro rfl
    rfl

/-- Only maps are unpacked as dictionaries. -/
theorem exists_map_of_unpack {packed : Packed} (unpacked : packed.unpack fromTimestamp = .ok (.dict result)) :
    ∃ wire, packed = .map wire ∧ unpackEntries fromTimestamp [] wire = .ok result := by
  cases packed with
  | map wire =>
    obtain ⟨values, read, ⟨⟩⟩ := Except.map_eq_ok_iff.mp unpacked
    exact ⟨wire, rfl, read⟩
  | array items => obtain ⟨values, -, ⟨⟩⟩ := Except.map_eq_ok_iff.mp unpacked
  | ext code data =>
    rw [Packed.unpack, unpackbExtHook] at unpacked
    split at unpacked
    · split at unpacked
      · obtain ⟨date, -, ⟨⟩⟩ := Except.map_eq_ok_iff.mp unpacked
      · cases unpacked
    · split at unpacked <;> split at unpacked <;> cases unpacked
  | _ => cases unpacked

/-- One entry is stored, and the others follow. -/
theorem unpackEntries_cons_eq_ok_iff {entry : Packed × Packed} :
    unpackEntries fromTimestamp stored (entry :: wire) = .ok result ↔
      ∃ key value, entry.1.unpack fromTimestamp = .ok key ∧ entry.2.unpack fromTimestamp = .ok value ∧
        key.hashable ∧ unpackEntries fromTimestamp (Value.setItem stored key value) wire = .ok result := by
  simp only [unpackEntries, Except.bind_eq_ok_iff, Except.require_eq_ok_iff, Except.exists_done]
  constructor
  · rintro ⟨key, readKey, value, readValue, hashable, later⟩
    exact ⟨key, value, readKey, readValue, hashable, later⟩
  · rintro ⟨key, value, readKey, readValue, hashable, later⟩
    exact ⟨key, readKey, value, readValue, hashable, later⟩

/-- Under a text is found what the last entry with this key holds. -/
theorem lookup_unpackEntries (name : String)
    (unpacked : unpackEntries fromTimestamp stored wire = .ok result) :
    (∃ packed value, Packed.lastUnder name wire = some packed ∧ packed.unpack fromTimestamp = .ok value ∧
        Value.lookup name result = some value) ∨
      (Packed.lastUnder name wire = none ∧ Value.lookup name result = Value.lookup name stored) := by
  induction wire generalizing stored with
  | nil =>
    cases unpacked
    exact .inr ⟨rfl, rfl⟩
  | cons entry rest ih =>
    obtain ⟨key, value, readKey, readValue, -, later⟩ := unpackEntries_cons_eq_ok_iff.mp unpacked
    rw [Packed.lastUnder]
    rcases ih later with ⟨packed, last, found, reads, here⟩ | ⟨absent, here⟩
    · exact .inl ⟨packed, last, by rw [found]; rfl, reads, here⟩
    · rw [absent, here, Option.none_or]
      by_cases same : key = .str name
      · subst same
        have text := unpack_eq_text_iff.mp readKey
        rw [text, Packed.text?, if_pos rfl]
        exact .inl ⟨entry.2, value, rfl, readValue, lookup_store_self stored⟩
      · have other : entry.1.text? ≠ some name := by
          intro text
          refine same (Except.ok.inj (readKey.symm.trans (unpack_eq_text_iff.mpr ?_)))
          unfold Packed.text? at text
          split at text
          · next raw found => rw [found, Option.some.inj text]
          · cases text
        rw [if_neg other, lookup_setItem_of_ne same]
        exact .inr ⟨rfl, rfl⟩

/-- Every entry under a text was stored. -/
theorem mem_unpackEntries (unpacked : unpackEntries fromTimestamp stored wire = .ok result) {text : String}
    {value : Value} (member : (.str text, value) ∈ result) : (.str text, value) ∈ stored ∨
      ∃ packed, (Packed.str text, packed) ∈ wire ∧ packed.unpack fromTimestamp = .ok value := by
  induction wire generalizing stored with
  | nil =>
    cases unpacked
    exact .inl member
  | cons entry rest ih =>
    obtain ⟨key, here, readKey, readHere, -, later⟩ := unpackEntries_cons_eq_ok_iff.mp unpacked
    rcases ih later with old | ⟨packed, found, reads⟩
    · rcases mem_setItem old with old | ⟨rfl, rfl⟩
      · exact .inl old
      · refine .inr ⟨entry.2, ?_, readHere⟩
        rw [← unpack_eq_text_iff.mp readKey]
        exact List.mem_cons_self
    · exact .inr ⟨packed, List.mem_cons_of_mem _ found, reads⟩

theorem mem_store_of_not_text {text : String} {value : Value} {entry : Value × Value}
    (member : entry ∈ stored) (other : ¬ entry.1.IsText) : entry ∈ Value.store text value stored := by
  induction stored with
  | nil => cases member
  | cons first rest ih =>
    obtain ⟨key, old⟩ := first
    have keep (front : Value × Value) (there : entry = (key, old) ∨ entry ∈ rest)
        (here : entry = (key, old) → entry = front) : entry ∈ front :: Value.store text value rest := by
      rcases there with same | later
      · exact here same ▸ List.mem_cons_self
      · exact List.mem_cons_of_mem _ (ih later)
    have there := List.mem_cons.mp member
    cases key with
    | str name =>
      rw [Value.store]
      have later : entry ∈ rest := there.resolve_left fun same => other (same ▸ trivial)
      split
      · exact List.mem_cons_of_mem _ later
      · exact keep _ there id
    | _ =>
      simp only [Value.store]
      exact keep _ there id

theorem exists_setItem_of_not_text {value : Value}
    (other : (∃ entry ∈ stored, ¬ entry.1.IsText) ∨ ¬ key.IsText) :
    ∃ entry ∈ Value.setItem stored key value, ¬ entry.1.IsText := by
  cases key with
  | str text =>
    obtain ⟨entry, member, other⟩ := other.resolve_right fun refused => refused trivial
    exact ⟨entry, mem_store_of_not_text member other, other⟩
  | _ => exact ⟨_, List.mem_append_right _ (List.mem_singleton_self _), id⟩

/-- A key that is no text stays in the result. -/
theorem exists_of_not_text (unpacked : unpackEntries fromTimestamp stored wire = .ok result)
    (other : (∃ entry ∈ stored, ¬ entry.1.IsText) ∨ ∃ entry ∈ wire, entry.1.text? = none) :
    ∃ entry ∈ result, ¬ entry.1.IsText := by
  induction wire generalizing stored with
  | nil =>
    cases unpacked
    exact other.resolve_right (by simp)
  | cons entry rest ih =>
    obtain ⟨key, value, readKey, -, -, later⟩ := unpackEntries_cons_eq_ok_iff.mp unpacked
    refine ih later ?_
    rcases other with old | ⟨found, member, noText⟩
    · exact .inl (exists_setItem_of_not_text (.inl old))
    · rcases List.mem_cons.mp member with rfl | member
      · refine .inl (exists_setItem_of_not_text (.inr ?_))
        intro text
        cases key with
        | str raw =>
          rw [unpack_eq_text_iff.mp readKey] at noText
          cases noText
        | _ => exact text
      · exact .inr ⟨found, member, noText⟩

theorem lastUnder_ne_none {packed : Packed} (member : (Packed.str name, packed) ∈ wire) :
    Packed.lastUnder name wire ≠ none := by
  induction wire with
  | nil => cases member
  | cons entry rest ih =>
    rw [Packed.lastUnder, Ne, Option.or_eq_none_iff]
    rintro ⟨later, here⟩
    rcases List.mem_cons.mp member with rfl | member
    · simp [Packed.text?] at here
    · exact ih member later

end Unpack

section Children

variable {lib : DecodingLibrary} {entries : List (Value × Value)} {ret children : Dict EntryName EntryID}

theorem childNameField_eq_ok {value : Value} {name : EntryName}
    (read : notNull (childNameField lib) value = .ok name) : ∃ raw, value = .str raw ∧ name = lib.normalize raw := by
  cases value with
  | str raw =>
    simp only [notNull, childNameField, entryNameField, Except.bind_eq_ok_iff, Except.mapError_eq_ok_iff,
      Except.pure_eq_ok_iff] at read
    obtain ⟨built, accepted, -, -, rfl⟩ := read
    unfold EntryName.new at accepted
    split at accepted <;> cases accepted
    exact ⟨raw, rfl, rfl⟩
  | none => cases read
  | _ => cases read

/-- One entry more: its id, under the normal form of its name. -/
theorem foldlM_mapEntry_cons {entry : Value × Value}
    (loaded : (entry :: entries).foldlM (mapEntry (childNameField lib) (uuidBasedField lib)) ret = .ok children) :
    ∃ raw id, entry.1 = .str raw ∧ lib.uuidOfText entry.2 = some id ∧
      entries.foldlM (mapEntry (childNameField lib) (uuidBasedField lib)) (ret.insert (lib.normalize raw) id) =
        .ok children := by
  simp only [List.foldlM_cons, mapEntry, Except.bind_eq_ok_iff, Except.pure_eq_ok_iff] at loaded
  obtain ⟨_, ⟨name, readName, id, readId, rfl⟩, later⟩ := loaded
  obtain ⟨raw, text, rfl⟩ := childNameField_eq_ok readName
  refine ⟨raw, id, text, ?_, later⟩
  have accepted : uuidBasedField lib entry.2 = .ok id := by
    cases same : entry.2 <;> rw [same] at readId <;> first | exact readId | cases readId
  exact Option.elim_eq_ok_iff.mp accepted

/-- The names of the children are the normal forms of the names in the mapping. -/
theorem contains_foldlM_mapEntry
    (loaded : entries.foldlM (mapEntry (childNameField lib) (uuidBasedField lib)) ret = .ok children)
    (name : EntryName) : children.contains name = true ↔
      ret.contains name = true ∨ ∃ raw value, (.str raw, value) ∈ entries ∧ lib.normalize raw = name := by
  induction entries generalizing ret with
  | nil =>
    cases loaded
    simp
  | cons entry rest ih =>
    obtain ⟨raw, id, text, -, later⟩ := foldlM_mapEntry_cons loaded
    obtain ⟨key, value⟩ := entry
    cases text
    rw [ih later, Dict.contains_insert_iff]
    constructor
    · rintro ((rfl | old) | ⟨other, found, member, same⟩)
      · exact .inr ⟨raw, value, List.mem_cons_self, rfl⟩
      · exact .inl old
      · exact .inr ⟨other, found, List.mem_cons_of_mem _ member, same⟩
    · rintro (old | ⟨other, found, member, same⟩)
      · exact .inl (.inr old)
      · rcases List.mem_cons.mp member with here | member
        · cases here
          exact .inl (.inl same.symm)
        · exact .inr ⟨other, found, member, same⟩

/-- An id stays, if what else has its name has the same value. -/
theorem get?_foldlM_mapEntry
    (loaded : entries.foldlM (mapEntry (childNameField lib) (uuidBasedField lib)) ret = .ok children)
    {raw : String} {value : Value} (agree : ∀ other found, (.str other, found) ∈ entries →
      lib.normalize other = lib.normalize raw → found = value)
    (stored : (∃ other, (.str other, value) ∈ entries ∧ lib.normalize other = lib.normalize raw) ∨
      ∃ id, lib.uuidOfText value = some id ∧ ret.get? (lib.normalize raw) = some id) :
    ∃ id, lib.uuidOfText value = some id ∧ children.get? (lib.normalize raw) = some id := by
  induction entries generalizing ret with
  | nil =>
    cases loaded
    exact stored.resolve_left (by simp)
  | cons entry rest ih =>
    obtain ⟨name, id, text, read, later⟩ := foldlM_mapEntry_cons loaded
    obtain ⟨key, found⟩ := entry
    cases text
    refine ih later (fun other found member => agree other found (List.mem_cons_of_mem _ member)) ?_
    by_cases here : lib.normalize name = lib.normalize raw
    · have same : found = value := agree name found List.mem_cons_self here
      exact .inr ⟨id, same ▸ read, by rw [here, Dict.get?_insert, if_pos rfl]⟩
    · rcases stored with ⟨other, member, same⟩ | ⟨old, reads, there⟩
      · refine .inl ⟨other, (List.mem_cons.mp member).resolve_left ?_, same⟩
        rintro ⟨⟩
        exact here same
      · exact .inr ⟨old, reads, by rw [Dict.get?_insert, if_neg (Ne.symm here), there]⟩

theorem text_of_foldlM_mapEntry
    (loaded : entries.foldlM (mapEntry (childNameField lib) (uuidBasedField lib)) ret = .ok children)
    {entry : Value × Value} (member : entry ∈ entries) : entry.1.IsText := by
  induction entries generalizing ret with
  | nil => cases member
  | cons first rest ih =>
    obtain ⟨raw, id, text, -, later⟩ := foldlM_mapEntry_cons loaded
    rcases List.mem_cons.mp member with rfl | member
    · rw [text]; trivial
    · exact ih later member

/-- The normal form of the name of an entry on the wire. -/
def wireName (lib : DecodingLibrary) (entry : Packed × Packed) : Option EntryName :=
  entry.1.text?.map lib.normalize

variable {wire : List (Packed × Packed)}

theorem exists_text_of_wire (unpacked : unpackEntries lib.fromTimestamp [] wire = .ok entries)
    (loaded : entries.foldlM (mapEntry (childNameField lib) (uuidBasedField lib)) ∅ = .ok children)
    {entry : Packed × Packed} (member : entry ∈ wire) : ∃ raw, entry.1 = .str raw := by
  cases text : entry.1.text? with
  | none =>
    obtain ⟨found, there, other⟩ := exists_of_not_text unpacked (.inr ⟨entry, member, text⟩)
    exact absurd (text_of_foldlM_mapEntry loaded there) other
  | some raw =>
    unfold Packed.text? at text
    split at text
    · next raw' found => exact ⟨raw', found⟩
    · cases text

/-- Every text on the wire is a text in the mapping. -/
theorem exists_mem_entries (unpacked : unpackEntries lib.fromTimestamp [] wire = .ok entries) {raw : String}
    {packed : Packed} (member : (Packed.str raw, packed) ∈ wire) :
    ∃ value, (Value.str raw, value) ∈ entries := by
  rcases lookup_unpackEntries raw unpacked with ⟨-, value, -, -, found⟩ | ⟨absent, -⟩
  · exact ⟨value, mem_of_lookup found⟩
  · exact absurd absent (lastUnder_ne_none member)

theorem mem_keys_children_iff (unpacked : unpackEntries lib.fromTimestamp [] wire = .ok entries)
    (loaded : entries.foldlM (mapEntry (childNameField lib) (uuidBasedField lib)) ∅ = .ok children)
    {name : Option EntryName} : name ∈ wire.map (wireName lib) ↔ name ∈ children.keys.map some := by
  simp only [List.mem_map]
  constructor
  · rintro ⟨entry, member, rfl⟩
    obtain ⟨raw, text⟩ := exists_text_of_wire unpacked loaded member
    obtain ⟨packedKey, packed⟩ := entry
    cases text
    obtain ⟨value, there⟩ := exists_mem_entries unpacked member
    have known := (contains_foldlM_mapEntry loaded (lib.normalize raw)).mpr (.inr ⟨raw, value, there, rfl⟩)
    exact ⟨lib.normalize raw, Dict.mem_keys_iff.mpr (Dict.contains_eq_true_iff.mp known), rfl⟩
  · rintro ⟨key, member, rfl⟩
    rcases (contains_foldlM_mapEntry loaded key).mp
        (Dict.contains_eq_true_iff.mpr (Dict.mem_keys_iff.mp member)) with
      nothing | ⟨raw, value, there, rfl⟩
    · cases nothing
    · rcases mem_unpackEntries unpacked there with nothing | ⟨packed, found, -⟩
      · cases nothing
      · exact ⟨_, found, rfl⟩

/-- Counting the normal forms. -/
theorem length_children_iff (unpacked : unpackEntries lib.fromTimestamp [] wire = .ok entries)
    (loaded : entries.foldlM (mapEntry (childNameField lib) (uuidBasedField lib)) ∅ = .ok children) :
    children.items.length = wire.length ↔ (wire.map (wireName lib)).Nodup := by
  have distinct : (children.keys.map some).Nodup :=
    children.nodup_keys.map (Option.some_injective _)
  have same : (wire.map (wireName lib)).toFinset = (children.keys.map some).toFinset := by
    ext name
    rw [List.mem_toFinset, List.mem_toFinset, mem_keys_children_iff unpacked loaded]
  have count : (wire.map (wireName lib)).toFinset.card = children.items.length := by
    rw [same, List.toFinset_card_of_nodup distinct, List.length_map, Dict.keys, List.length_map]
  rw [← count, ← Multiset.coe_nodup, ← Multiset.toFinset_card_eq_card_iff_nodup, Multiset.coe_card,
    List.length_map]
  rfl

/-- With distinct normal forms no id is lost. -/
theorem mem_values_children (unpacked : unpackEntries lib.fromTimestamp [] wire = .ok entries)
    (loaded : entries.foldlM (mapEntry (childNameField lib) (uuidBasedField lib)) ∅ = .ok children)
    (distinct : (wire.map (wireName lib)).Nodup) {entry : Packed × Packed} (member : entry ∈ wire)
    {value : Value} {id : EntryID} (unpackedValue : entry.2.unpack lib.fromTimestamp = .ok value)
    (read : lib.uuidOfText value = some id) : id ∈ children.values := by
  obtain ⟨raw, text⟩ := exists_text_of_wire unpacked loaded member
  obtain ⟨packedKey, packed⟩ := entry
  cases text
  have agree : ∀ other found, (Value.str other, found) ∈ entries →
      lib.normalize other = lib.normalize raw → found = value := by
    intro other found there same
    rcases mem_unpackEntries unpacked there with nothing | ⟨origin, stands, reads⟩
    · cases nothing
    · have one := List.inj_on_of_nodup_map distinct stands member (by simp [wireName, Packed.text?, same])
      cases one
      exact Except.ok.inj (reads.symm.trans unpackedValue)
  obtain ⟨found, there⟩ := exists_mem_entries unpacked member
  cases agree raw found there rfl
  obtain ⟨kept, reads, stays⟩ := get?_foldlM_mapEntry loaded agree (.inl ⟨raw, there, rfl⟩)
  cases read.symm.trans reads
  exact Dict.mem_values_iff.mpr ⟨_, stays⟩

end Children

section Load

variable {lib : DecodingLibrary} {children : Dict EntryName EntryID}

open Loading

/-- Children come from a mapping under their name. -/
theorem exists_entries {data : Value} (loaded : childrenField lib data = .ok (some children)) :
    ∃ entries, data.get? "children" = some (.dict entries) ∧
      entries.foldlM (mapEntry (childNameField lib) (uuidBasedField lib)) ∅ = .ok children := by
  rw [childrenField, requiredField, storeErrors_eq_ok_some_iff] at loaded
  cases found : data.get? "children" with
  | none => rw [found] at loaded; cases loaded
  | some value =>
    rw [found, Option.elim_some] at loaded
    cases value with
    | dict entries => exact ⟨entries, rfl, loaded⟩
    | none => cases loaded
    | _ => cases loaded

theorem childrenField_of_folder {data : Value} {manifest : RemoteFolderishManifest}
    (loaded : loadFolderManifest lib data = .ok (some manifest)) :
    ∃ fixed, fixLegacy data = .ok fixed ∧ childrenField lib fixed = .ok (some manifest.children) := by
  obtain ⟨fixed, ran, fields⟩ := preLoad_eq_ok_iff.mp loaded
  have fields := onMapping_eq_ok_some fields
  simp only [ap_eq_ok_some_iff, Loading.build, Except.ok.injEq, Option.some.injEq] at fields
  obtain ⟨make, children, rest, found, rfl⟩ := fields
  obtain ⟨-, -, ⟨-, -, ⟨-, -, ⟨-, -, ⟨-, -, ⟨-, -, ⟨-, -, ⟨-, -, rfl, -, rfl⟩, -, rfl⟩, -, rfl⟩, -, rfl⟩, -,
    rfl⟩, -, rfl⟩, -, rfl⟩, -, rfl⟩ := rest
  exact ⟨fixed, ran, found⟩

theorem childrenField_of_workspace {data : Value} {manifest : RemoteFolderishManifest}
    (loaded : loadWorkspaceManifest lib data = .ok (some manifest)) :
    ∃ fixed, fixLegacy data = .ok fixed ∧ childrenField lib fixed = .ok (some manifest.children) := by
  obtain ⟨fixed, ran, fields⟩ := preLoad_eq_ok_iff.mp loaded
  have fields := onMapping_eq_ok_some fields
  simp only [ap_eq_ok_some_iff, Loading.build, Except.ok.injEq, Option.some.injEq] at fields
  obtain ⟨make, children, rest, found, rfl⟩ := fields
  obtain ⟨-, -, ⟨-, -, ⟨-, -, ⟨-, -, ⟨-, -, ⟨-, -, ⟨-, -, rfl, -, rfl⟩, -, rfl⟩, -, rfl⟩, -, rfl⟩, -,
    rfl⟩, -, rfl⟩, -, rfl⟩ := rest
  exact ⟨fixed, ran, found⟩

/-- Whatever class loads it, the children of a folder or a workspace are what the field gives. -/
theorem childrenField_of_load {cls : SignedDataClass} {data : Value} {content : SignedContent}
    (loaded : cls.load lib data = .ok (some content)) (shows : content.children? = some children) :
    ∃ fixed, fixLegacy data = .ok fixed ∧ childrenField lib fixed = .ok (some children) := by
  have folder {manifest : RemoteFolderishManifest} (loaded : loadFolderManifest lib data = .ok (some manifest))
      (shows : (SignedContent.folderManifest manifest).children? = some children) :
      ∃ fixed, fixLegacy data = .ok fixed ∧ childrenField lib fixed = .ok (some children) := by
    cases shows
    exact childrenField_of_folder loaded
  have workspace {manifest : RemoteFolderishManifest}
      (loaded : loadWorkspaceManifest lib data = .ok (some manifest))
      (shows : (SignedContent.workspaceManifest manifest).children? = some children) :
      ∃ fixed, fixLegacy data = .ok fixed ∧ childrenField lib fixed = .ok (some children) := by
    cases shows
    exact childrenField_of_workspace loaded
  cases cls with
  | folderManifest =>
    obtain ⟨manifest, inner, rfl⟩ := content_eq_ok_some_iff.mp loaded
    exact folder inner shows
  | workspaceManifest =>
    obtain ⟨manifest, inner, rfl⟩ := content_eq_ok_some_iff.mp loaded
    exact workspace inner shows
  | baseManifest =>
    obtain ⟨schema, member, chosen⟩ := exists_of_loadOneOf loaded
    simp only [manifestTypeSchemas, List.mem_cons, List.not_mem_nil, or_false] at member
    rcases member with rfl | rfl | rfl | rfl
    all_goals obtain ⟨manifest, inner, rfl⟩ := content_eq_ok_some_iff.mp chosen
    · cases shows
    · exact folder inner shows
    · exact workspace inner shows
    · cases shows
  | baseMessageContent =>
    obtain ⟨schema, member, chosen⟩ := exists_of_loadOneOf loaded
    simp only [messageTypeSchemas, List.mem_cons, List.not_mem_nil, or_false] at member
    rcases member with rfl | rfl | rfl | rfl
    all_goals obtain ⟨message, -, rfl⟩ := content_eq_ok_some_iff.mp chosen
    all_goals cases shows
  | _ =>
    obtain ⟨value, -, rfl⟩ := content_eq_ok_some_iff.mp loaded
    cases shows

/-- The bytes of a folder or a workspace hold a map of children, which is unpacked and then rebuilt. -/
theorem exists_wire {cls : SignedDataClass} {signed : SignedBytes} {key : VerifyKey}
    {author : Option DeviceID} {expectations : Expectations} {content : SignedContent}
    (returned : cls.verifyAndLoad lib signed key author expectations = .ok content)
    (shows : content.children? = some children) :
    ∃ packed wire entries, signed.packed = some packed ∧ packed.field? "children" = some (.map wire) ∧
      unpackEntries lib.fromTimestamp [] wire = .ok entries ∧
      entries.foldlM (mapEntry (childNameField lib) (uuidBasedField lib)) ∅ = .ok children := by
  obtain ⟨packed, data, held, unpacked, loaded⟩ := load_of_verifyAndLoad returned
  obtain ⟨fixed, ran, field⟩ := childrenField_of_load loaded shows
  obtain ⟨entries, under, rebuilt⟩ := exists_entries field
  rw [get?_fixLegacy ran (by decide)] at under
  cases data with
  | dict fields =>
    obtain ⟨packedFields, rfl, fieldsUnpacked⟩ := exists_map_of_unpack unpacked
    rcases lookup_unpackEntries "children" fieldsUnpacked with ⟨_, _, last, reads, there⟩ | ⟨-, absent⟩
    · cases under.symm.trans there
      obtain ⟨wire, rfl, childrenUnpacked⟩ := exists_map_of_unpack reads
      exact ⟨_, wire, entries, held, last, childrenUnpacked, rebuilt⟩
    · cases under.symm.trans absent
  | _ => cases under

end Load

/-- The children that a folder or a workspace is decoded to are as many as on the wire, and none of the
ids that stand there is missing, if and only if the names on the wire have different normal forms. -/
theorem decoded_children_complete_iff (lib : DecodingLibrary) (cls : SignedDataClass) (signed : SignedBytes)
    (authorVerifyKey : VerifyKey) (expectedAuthor : Option DeviceID) (expectations : Expectations)
    (content : SignedContent) (children : Dict EntryName EntryID)
    (returned : cls.verifyAndLoad lib signed authorVerifyKey expectedAuthor expectations = .ok content)
    (shows : content.children? = some children) :
    ∃ packed wire, signed.packed = some packed ∧ packed.field? "children" = some (.map wire) ∧
      ((children.items.length = wire.length ∧ ∀ entry ∈ wire, ∀ value id,
          entry.2.unpack lib.fromTimestamp = .ok value → lib.uuidOfText value = some id → id ∈ children.values) ↔
        (wire.map (wireName lib)).Nodup) := by
  obtain ⟨packed, wire, entries, held, under, unpacked, rebuilt⟩ := exists_wire returned shows
  refine ⟨packed, wire, held, under, ?_⟩
  constructor
  · rintro ⟨count, -⟩
    exact (length_children_iff unpacked rebuilt).mp count
  · intro distinct
    refine ⟨(length_children_iff unpacked rebuilt).mpr distinct, ?_⟩
    intro entry member value id unpackedValue read
    exact mem_values_children unpacked rebuilt distinct member unpackedValue read

section Example

/-- The normal form of an `e` with an accent behind it is the letter that has both. -/
private def composed (text : String) : String :=
  if text = "e\u0301" then "\u00e9" else text

private def childrenLibrary : DecodingLibrary := { plainLibrary with normalize := composed }

/-- A UUID with this last byte. -/
private def packedId (last : UInt8) : Packed := .ext 2 (List.replicate 15 0 ++ [last])

private def packedWorkspace (children : List (Packed × Packed)) : Packed :=
  .map [(.str "type", .str "workspace_manifest"), (.str "author", .str "bob@dev"),
    (.str "timestamp", .ext 1 (List.replicate 8 0)), (.str "id", packedId 1), (.str "version", .int 1),
    (.str "created", .ext 1 (List.replicate 8 0)), (.str "updated", .ext 1 (List.replicate 8 0)),
    (.str "children", .map children)]

private def decodedWorkspace (children : List (EntryName × EntryID)) : RemoteFolderishManifest :=
  ⟨⟨"bob", "dev"⟩, 0, 1, none, 1, 0, 0, .ofList children⟩

/-- The two names of the letter stand on the wire, and one of them is left. -/
theorem canonical_names_collapse :
    let wire := [(Packed.str "\u00e9", packedId 2), (.str "e\u0301", packedId 3)]
    ∃ content children,
      SignedDataClass.baseManifest.verifyAndLoad childrenLibrary ⟨⟨1⟩, some (packedWorkspace wire)⟩ ⟨1⟩
          (some ⟨"bob", "dev"⟩) {} = .ok content ∧
        content.children? = some children ∧ children.items.length ≠ wire.length ∧ 2 ∉ children.values :=
  ⟨.workspaceManifest (decodedWorkspace [("\u00e9", 3)]), .ofList [("\u00e9", 3)], by decide, rfl, by decide,
    by decide⟩

/-- Two names that stay different. -/
theorem decoded_children_complete_iff_two :
    let wire := [(Packed.str "e\u0301", packedId 2), (.str "e", packedId 3)]
    let children := Dict.ofList [("\u00e9", 2), ("e", 3)]
    SignedDataClass.baseManifest.verifyAndLoad childrenLibrary ⟨⟨1⟩, some (packedWorkspace wire)⟩ ⟨1⟩
        (some ⟨"bob", "dev"⟩) {} =
      .ok (.workspaceManifest (decodedWorkspace [("\u00e9", 2), ("e", 3)])) ∧
      children.items.length = 2 := by
  have returned : SignedDataClass.baseManifest.verifyAndLoad childrenLibrary
      ⟨⟨1⟩, some (packedWorkspace [(Packed.str "e\u0301", packedId 2), (.str "e", packedId 3)])⟩ ⟨1⟩
        (some ⟨"bob", "dev"⟩) {} =
      .ok (.workspaceManifest (decodedWorkspace [("\u00e9", 2), ("e", 3)])) := by decide
  refine ⟨returned, ?_⟩
  obtain ⟨packed, wire, held, under, complete⟩ := decoded_children_complete_iff _ _ _ _ _ _ _ _ returned rfl
  cases held
  cases under
  exact (complete.mpr (by decide)).1

end Example

end Guardata
