import Guardata.Model.SignedSchemas

/-! # What a schema returns

An object is loaded if every field is: the fields are read off one after the other from the object
they were put together to.
-/

namespace Guardata

open Loading

variable {lib : DecodingLibrary} {data : Value} {α β : Type}

theorem ap_eq_ok_some_iff {build : Loading (α → β)} {field : Loading α} {result : β} :
    build.ap field = .ok (some result) ↔
      ∃ make value, build = .ok (some make) ∧ field = .ok (some value) ∧ make value = result := by
  rcases build with raised | _ | make
  · simp [ap, Except.bind]
  · rcases field with raised | _ | value <;> simp [ap, Except.bind, Except.map, Seq.seq]
  · rcases field with raised | _ | value <;> simp [ap, Except.bind, Except.map, Seq.seq]

theorem onMapping_eq_ok_some {fields : Loading α} {result : α}
    (loaded : onMapping lib data fields = .ok (some result)) : fields = .ok (some result) := by
  cases data with
  | dict entries => exact loaded
  | none =>
    rw [onMapping] at loaded
    split_ifs at loaded
    cases loaded
  | _ => cases loaded

theorem storeErrors_eq_ok_some_iff {field : Except PyException α} {value : α} :
    storeErrors field = .ok (some value) ↔ field = .ok value := by
  rcases field with raised | found
  · cases raised <;> simp [storeErrors]
  · simp [storeErrors]

/-- The hook ran, and the fields were loaded from what it left. -/
theorem preLoad_eq_ok_iff {load : Value → Loading α} {result : Option α} :
    preLoad fixLegacy load data = .ok result ↔ ∃ fixed, fixLegacy data = .ok fixed ∧ load fixed = .ok result := by
  rw [preLoad]
  cases fixLegacy data <;> simp [Except.bind]

theorem content_eq_ok_some_iff {loaded : Loading α} {make : α → SignedContent} {content : SignedContent} :
    loaded.content make = .ok (some content) ↔ ∃ value, loaded = .ok (some value) ∧ make value = content := by
  rcases loaded with raised | _ | value <;> simp [Loading.content, Except.map]

/-- One of the schemas was selected. -/
theorem exists_of_loadOneOf {schemas : List (String × (Value → Loading SignedContent))}
    {content : SignedContent} (loaded : loadOneOf schemas data = .ok (some content)) :
    ∃ schema ∈ schemas, schema.2 data = .ok (some content) := by
  have recorded {value : Value} (loaded : recordValue value = .ok (some content)) : False := by
    cases value <;> cases loaded
  unfold loadOneOf at loaded
  split at loaded
  · split at loaded
    · cases loaded
    · next type found =>
      cases selected : schemas.lookup type with
      | none => rw [selected] at loaded; cases loaded
      | some load =>
        rw [selected] at loaded
        obtain ⟨before, after, rfl, -⟩ := List.lookup_eq_some_iff.mp selected
        exact ⟨(type, load), by simp, loaded⟩
    · exact (recorded loaded).elim
  · exact (recorded loaded).elim

theorem unpackb_eq_ok_iff {packed : Option Packed} {value : Value} : unpackb lib packed = .ok value ↔
    ∃ content, packed = some content ∧ content.unpack lib.fromTimestamp = .ok value := by
  cases packed with
  | none => simp [unpackb]
  | some content => simp [unpackb]

/-- What is returned was loaded from what the bytes hold. -/
theorem load_of_verifyAndLoad {cls : SignedDataClass} {signed : SignedBytes} {key : VerifyKey}
    {author : Option DeviceID} {expectations : Expectations} {content : SignedContent}
    (returned : cls.verifyAndLoad lib signed key author expectations = .ok content) :
    ∃ packed data, signed.packed = some packed ∧ packed.unpack lib.fromTimestamp = .ok data ∧
      cls.load lib data = .ok (some content) := by
  simp only [SignedDataClass.verifyAndLoad, Except.bind_eq_ok_iff, Except.pure_eq_ok_iff] at returned
  obtain ⟨-, -, data, unpacking, found, built, -, -, -, -, -, -, rfl⟩ := returned
  obtain ⟨packed, held, unpacked⟩ := unpackb_eq_ok_iff.mp unpacking
  refine ⟨packed, data, held, unpacked, ?_⟩
  unfold SignedDataClass.deserialize at built
  split at built <;> cases built
  assumption

/-- A library that reads plain values only. -/
def plainLibrary : DecodingLibrary where
  fromTimestamp _ := .ok 0
  normalize := id
  wordCharacter := Char.isAlphanum
  parseaddr _ := ("", "")
  uuidOfText
    | .uuid id => some id
    | _ => none
  integer
    | .int number => .ok number
    | _ => .error .validationError
  string
    | .str text => .ok text
    | _ => .error .validationError
  boolean
    | .bool flag => .ok flag
    | _ => .error .validationError
  secretKey _ := none
  hashDigest _ := none
  publicKey _ := none
  verifyKey _ := none
  takesNone := true

end Guardata
