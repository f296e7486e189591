import Guardata.Proofs.DecodedData
import Guardata.Proofs.EntryPaths

/-! # Names and paths round-trip

An entry name is the normal form of the text that was checked, and a normal form may have more bytes than the
text. A name that has become too long is refused by everything that looks at it again: the constructor, the
field that reads the children of a manifest, a path that is read back, and a path that the name is joined to.
Nothing else can be wrong with it.
-/

namespace Guardata

variable {lib : DecodingLibrary}

theorem length_le_utf8ByteSize (text : String) : text.length ≤ text.utf8ByteSize := by
  have chars : ∀ chars : List Char, chars.length ≤ String.utf8Len chars := by
    intro chars
    induction chars with
    | nil => exact Nat.le_refl 0
    | cons char rest ih =>
      have one := char.utf8Size_pos
      rw [String.utf8Len_cons, List.length_cons]
      omega
  have := chars text.toList
  rwa [String.length_toList, ← String.utf8ByteSize_ofList, String.ofList_toList] at this

/-- The field adds a bound on the characters, which follows from the one on the bytes. -/
theorem childNameField_iff (form : NormalForm lib.normalize) {name : EntryName}
    (valid : EntryName.IsValid lib.normalize name) {read : EntryName} :
    childNameField lib (.str name) = .ok read ↔ name.utf8ByteSize < 256 ∧ read = name := by
  have plain := valid.plain form
  simp only [childNameField, entryNameField, Except.bind_eq_ok_iff, Except.mapError_eq_ok_iff, valid.new_iff form,
    Except.require_eq_ok_iff, exists_const, Except.pure_eq_ok_iff]
  constructor
  · rintro ⟨_, ⟨fits, rfl⟩, -, rfl⟩
    exact ⟨fits, rfl⟩
  · rintro ⟨fits, rfl⟩
    have some : read.length ≠ 0 := fun none => plain (by simp [String.length_eq_zero_iff.mp none])
    have := length_le_utf8ByteSize read
    exact ⟨read, ⟨fits, rfl⟩, by omega, rfl⟩

/-- Reading one child back. -/
theorem mapEntry_iff (form : NormalForm lib.normalize) (ids : ∀ id, lib.uuidOfText (.uuid id) = some id)
    {name : EntryName} (valid : EntryName.IsValid lib.normalize name) {id : EntryID}
    {before after : Dict EntryName EntryID} :
    mapEntry (childNameField lib) (uuidBasedField lib) before (.str name, .uuid id) = .ok after ↔
      name.utf8ByteSize < 256 ∧ after = before.insert name id := by
  have text : notNull (childNameField lib) (.str name) = childNameField lib (.str name) := rfl
  have uuid : notNull (uuidBasedField lib) (.uuid id) = .ok id := by
    simp [notNull, uuidBasedField, ids, accept]
  simp only [mapEntry, text, uuid, Except.bind_eq_ok_iff, childNameField_iff form valid, Except.ok.injEq,
    exists_eq_left', Except.pure_eq_ok_iff]
  constructor
  · rintro ⟨_, ⟨fits, rfl⟩, rfl⟩
    exact ⟨fits, rfl⟩
  · rintro ⟨fits, rfl⟩
    exact ⟨name, ⟨fits, rfl⟩, rfl⟩

theorem mapEntries_iff (form : NormalForm lib.normalize) (ids : ∀ id, lib.uuidOfText (.uuid id) = some id)
    {entries : List (EntryName × EntryID)} (valid : ∀ entry ∈ entries, EntryName.IsValid lib.normalize entry.1)
    {before after : Dict EntryName EntryID} :
    (entries.map fun child => (Value.str child.1, Value.uuid child.2)).foldlM
        (mapEntry (childNameField lib) (uuidBasedField lib)) before = .ok after ↔
      (∀ entry ∈ entries, entry.1.utf8ByteSize < 256) ∧ after = before.insertMany entries := by
  induction entries generalizing before with
  | nil => simp [Dict.insertMany, eq_comm, pure, Except.pure]
  | cons entry rest ih =>
    simp only [List.map_cons, List.foldlM_cons, Except.bind_eq_ok_iff,
      mapEntry_iff form ids (valid entry (List.mem_cons_self ..)), and_assoc, exists_and_left, exists_eq_left,
      ih fun other member => valid other (List.mem_cons_of_mem _ member), List.forall_mem_cons]
    rfl

/-- The children of a manifest are read back if their names are short enough. -/
theorem reload_children_iff (form : NormalForm lib.normalize) (ids : ∀ id, lib.uuidOfText (.uuid id) = some id)
    {children : Dict EntryName EntryID} (valid : ∀ name ∈ children.keys, EntryName.IsValid lib.normalize name) :
    mapField (childNameField lib) (uuidBasedField lib) (.dict (serializedChildren children)) = .ok children ↔
      ∀ name ∈ children.keys, name.utf8ByteSize < 256 := by
  have each (holds : EntryName → Prop) : (∀ entry ∈ children.items, holds entry.1) ↔
      ∀ name ∈ children.keys, holds name := by
    simp [Dict.keys]
  rw [mapField, serializedChildren, mapEntries_iff form ids ((each _).mpr valid), each (·.utf8ByteSize < 256)]
  exact and_iff_left children.ofList_items.symm

/-- Names, the children of manifests, paths and joined paths are what they were when they are read again, if and
only if the normal forms of the names that they are made of have fewer than 256 bytes. -/
theorem names_and_paths_round_trip_iff (lib : DecodingLibrary) (form : NormalForm lib.normalize)
    (ids : ∀ id, lib.uuidOfText (.uuid id) = some id) :
    (∀ raw name, EntryName.parse lib.normalize raw = .ok name →
      (EntryName.parse lib.normalize name = .ok name ↔ (lib.normalize raw).utf8ByteSize < 256)) ∧
    (∀ children : Dict EntryName EntryID, (∀ name ∈ children.keys, EntryName.IsValid lib.normalize name) →
      (mapField (childNameField lib) (uuidBasedField lib) (.dict (serializedChildren children)) = .ok children ↔
        ∀ name ∈ children.keys, name.utf8ByteSize < 256)) ∧
    (∀ raw path, FsPath.parse lib.normalize raw = .ok path →
      (FsPath.parse lib.normalize path.text = .ok path ↔ ∀ name ∈ path, name.utf8ByteSize < 256)) ∧
    ∀ raw path rawName name, FsPath.parse lib.normalize raw = .ok path →
      EntryName.parse lib.normalize rawName = .ok name →
      ((∃ joined, FsPath.truediv lib.normalize path name = .ok joined ∧ joined.parent = path ∧ joined.name = name) ↔
        (lib.normalize rawName).utf8ByteSize < 256) := by
  have normal {raw : String} {name : EntryName} (accepted : EntryName.parse lib.normalize raw = .ok name) :
      lib.normalize raw = name := (EntryName.new_eq_ok_iff.mp (Except.mapError_eq_ok_iff.mp accepted)).2
  refine ⟨?_, ?_, ?_, ?_⟩
  · intro raw name accepted
    rw [(EntryName.isValid_of_parse accepted).parse_iff form, normal accepted]
    exact and_iff_left rfl
  · exact fun children valid => reload_children_iff form ids valid
  · intro raw path accepted
    rw [FsPath.parse_text_iff form (FsPath.isValid_of_parse accepted)]
    exact and_iff_left rfl
  · intro raw path rawName name _ accepted
    simp only [FsPath.truediv_iff form (EntryName.isValid_of_parse accepted), and_assoc, exists_and_left,
      exists_eq_left, normal accepted, FsPath.parent, FsPath.name, List.dropLast_concat, List.getLastD_concat,
      and_self, and_true]

section Example

/-- The normal form of the letter is another letter with a sign behind it. -/
private def decomposed (text : String) : String :=
  String.ofList (text.toList.flatMap fun char => if char = '\u0958' then ['\u0915', '\u093c'] else [char])

private def decomposingLibrary : DecodingLibrary := { plainLibrary with normalize := decomposed }

private theorem decomposed_of_not_mem {text : String} (absent : '\u0958' ∉ text.toList) : decomposed text = text := by
  have still : ∀ chars : List Char, '\u0958' ∉ chars →
      (chars.flatMap fun char => if char = '\u0958' then ['\u0915', '\u093c'] else [char]) = chars := by
    intro chars absent
    induction chars with
    | nil => rfl
    | cons char rest ih =>
      rw [List.mem_cons, not_or] at absent
      rw [List.flatMap_cons, if_neg (Ne.symm absent.1), ih absent.2, List.singleton_append]
  rw [decomposed, still text.toList absent, String.ofList_toList]

private theorem mem_decomposed_iff {text : String} {char : Char} : char ∈ (decomposed text).toList ↔
    (char ≠ '\u0958' ∧ char ∈ text.toList) ∨ ('\u0958' ∈ text.toList ∧ (char = '\u0915' ∨ char = '\u093c')) := by
  rw [decomposed, String.toList_ofList, List.mem_flatMap]
  constructor
  · rintro ⟨origin, member, here⟩
    split at here
    · next same => exact .inr ⟨same ▸ member, by simpa using here⟩
    · next other =>
      rw [List.mem_singleton] at here
      exact .inl ⟨here ▸ other, here ▸ member⟩
  · rintro (⟨other, member⟩ | ⟨member, here⟩)
    · exact ⟨char, member, by simp [other]⟩
    · exact ⟨_, member, by simpa using here⟩

private theorem decomposing_form : NormalForm decomposingLibrary.normalize where
  idempotent text := decomposed_of_not_mem fun member => by
    rcases mem_decomposed_iff.mp member with ⟨other, -⟩ | ⟨-, here⟩
    · exact other rfl
    · exact absurd here (by decide)
  separators text clean := by
    have kept {char : Char} (absent : char ∉ text.toList) (other : char ≠ '\u0915' ∧ char ≠ '\u093c') :
        char ∉ (decomposed text).toList := by
      intro member
      rcases mem_decomposed_iff.mp member with ⟨-, there⟩ | ⟨-, here⟩
      · exact absent there
      · exact here.elim other.1 other.2
    exact ⟨kept clean.1 (by decide), kept clean.2 (by decide)⟩
  dots text dots := decomposed_of_not_mem fun member => by
    have letter : '\u0915' ∈ (decomposed text).toList := mem_decomposed_iff.mpr (.inr ⟨member, .inl rfl⟩)
    have none : ∀ dots ∈ ["", ".", ".."], '\u0915' ∉ String.toList dots := by decide
    exact none _ dots letter

private def letters (count : ℕ) : String := String.ofList (List.replicate count '\u0958')

private theorem size_letters (count : ℕ) : (letters count).utf8ByteSize = 3 * count := by
  rw [letters, String.utf8ByteSize_ofList]
  induction count with
  | zero => rfl
  | succ count ih =>
    rw [List.replicate_succ, String.utf8Len_cons, ih, Nat.mul_succ]
    rfl

private theorem size_decomposed_letters (count : ℕ) : (decomposed (letters count)).utf8ByteSize = 6 * count := by
  rw [decomposed, letters, String.toList_ofList, String.utf8ByteSize_ofList]
  induction count with
  | zero => rfl
  | succ count ih =>
    rw [List.replicate_succ, List.flatMap_cons, String.utf8Len_append, ih, Nat.mul_succ, Nat.add_comm]
    rfl

/-- Eighty-five letters of three bytes each are accepted, and their normal form of 510 bytes is not. -/
theorem long_normal_form_refused :
    ∃ name, EntryName.parse decomposingLibrary.normalize (letters 85) = .ok name ∧
      EntryName.parse decomposingLibrary.normalize name = .error (.value "Invalid entry name") := by
  have other {text : String} (short : text.utf8ByteSize ≠ 255) : letters 85 ≠ text :=
    fun same => short (same ▸ size_letters 85)
  have absent {char : Char} (different : char ≠ '\u0958') : char ∉ (letters 85).toList := by
    rw [letters, String.toList_ofList]
    exact fun member => different (List.eq_of_mem_replicate member)
  refine ⟨decomposed (letters 85), Except.mapError_eq_ok_iff.mpr (EntryName.new_eq_ok_iff.mpr
    ⟨⟨?_, ?_, other (by decide),
    other (by decide), absent (by decide), absent (by decide)⟩, rfl⟩), ?_⟩
  · rw [size_letters]
    decide
  · rw [size_letters]
    decide
  · have long : ¬ (decomposed (letters 85)).utf8ByteSize < 256 := by
      rw [size_decomposed_letters]
      decide
    rw [EntryName.parse, EntryName.new, if_neg fun valid => long valid.2.1]
    rfl

/-- Names and paths whose normal forms stay short. -/
theorem names_and_paths_round_trip_iff_short :
    EntryName.parse decomposingLibrary.normalize "\u0915\u093c" = .ok "\u0915\u093c" ∧
      mapField (childNameField decomposingLibrary) (uuidBasedField decomposingLibrary)
          (.dict (serializedChildren (.ofList [("\u0915\u093c", 7)]))) = .ok (.ofList [("\u0915\u093c", 7)]) ∧
      FsPath.parse decomposingLibrary.normalize (FsPath.text ["a", "\u0915\u093c"]) = .ok ["a", "\u0915\u093c"] ∧
      ∃ joined, FsPath.truediv decomposingLibrary.normalize ["a", "\u0915\u093c"] "\u0915\u093c" = .ok joined ∧
        joined.parent = ["a", "\u0915\u093c"] ∧ joined.name = "\u0915\u093c" := by
  have ids : ∀ id, decomposingLibrary.uuidOfText (.uuid id) = some id := fun _ => rfl
  obtain ⟨names, children, paths, joined⟩ := names_and_paths_round_trip_iff decomposingLibrary decomposing_form ids
  refine ⟨(names "\u0958" _ (by decide)).mpr (by decide), (children _ ?_).mpr (by decide),
    (paths "/a/./b/../\u0958" _ (by decide)).mpr (by decide),
    (joined "/a/./b/../\u0958" _ "\u0958" _ (by decide) (by decide)).mpr (by decide)⟩
  intro name member
  obtain rfl : name = "\u0915\u093c" := by simpa [Dict.keys, Dict.ofList, Dict.insertMany, Dict.insert] using member
  exact ⟨"\u0958", by decide⟩

end Example

end Guardata
