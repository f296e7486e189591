import Guardata.Model.EntryPaths
import Guardata.Proofs.EntryNames

/-! # Names and paths that are read again

A name that was accepted is its own normal form. Looked at once more it can only be too long. A path that is
written and read again is made of the names that it had.
-/

namespace Guardata

/-- What Unicode says about a normal form: it is its own normal form, and separators and dots come from
nothing but themselves. -/
structure NormalForm (normalize : String → String) : Prop where
  idempotent : ∀ text, normalize (normalize text) = normalize text
  separators : KeepsSeparators normalize
  dots : ∀ text, normalize text ∈ ["", ".", ".."] → normalize text = text

variable {normalize : String → String} {name : EntryName} {path : FsPath}

namespace EntryName

theorem IsValid.normalize_eq (form : NormalForm normalize) (valid : IsValid normalize name) :
    normalize name = name := by
  obtain ⟨raw, accepted⟩ := valid
  obtain ⟨-, rfl⟩ := new_eq_ok_iff.mp accepted
  exact form.idempotent raw

theorem IsValid.plain (form : NormalForm normalize) (valid : IsValid normalize name) :
    name ∉ ["", ".", ".."] := by
  obtain ⟨raw, accepted⟩ := valid
  obtain ⟨⟨some, -, notDot, notDots, -⟩, rfl⟩ := new_eq_ok_iff.mp accepted
  intro dots
  rw [form.dots raw dots] at dots
  simp only [List.mem_cons, List.not_mem_nil, or_false] at dots
  rcases dots with rfl | rfl | rfl
  · exact absurd some (by decide)
  · exact notDot rfl
  · exact notDots rfl

/-- A name that is looked at again is refused only if it has become too long. -/
theorem IsValid.new_iff (form : NormalForm normalize) (valid : IsValid normalize name) {again : EntryName} :
    EntryName.new normalize name = .ok again ↔ name.utf8ByteSize < 256 ∧ name = again := by
  have plain := valid.plain form
  simp only [List.mem_cons, List.not_mem_nil, or_false, not_or] at plain
  have some : 0 < name.utf8ByteSize :=
    Nat.pos_of_ne_zero fun none => plain.1 (String.utf8ByteSize_eq_zero_iff.mp none)
  rw [new_eq_ok_iff, valid.normalize_eq form]
  constructor
  · rintro ⟨⟨-, fits, -⟩, same⟩
    exact ⟨fits, same⟩
  · rintro ⟨fits, same⟩
    exact ⟨⟨some, fits, plain.2.1, plain.2.2, valid.noSeparators form.separators⟩, same⟩

theorem IsValid.parse_iff (form : NormalForm normalize) (valid : IsValid normalize name) {again : EntryName} :
    EntryName.parse normalize name = .ok again ↔ name.utf8ByteSize < 256 ∧ name = again := by
  rw [EntryName.parse, Except.mapError_eq_ok_iff, valid.new_iff form]

theorem isValid_of_parse {raw : String} (accepted : EntryName.parse normalize raw = .ok name) :
    IsValid normalize name := ⟨raw, Except.mapError_eq_ok_iff.mp accepted⟩

end EntryName

namespace FsPath

/-- Every part is an entry name. -/
def IsValid (normalize : String → String) (path : FsPath) : Prop :=
  ∀ name ∈ path, EntryName.IsValid normalize name

theorem IsValid.addRawPart (valid : IsValid normalize path) {rawPart : String} {next : List EntryName}
    (added : addRawPart normalize path rawPart = .ok next) : IsValid normalize next := by
  unfold FsPath.addRawPart at added
  split at added
  · cases added
    exact valid
  · split at added
    · cases added
      exact fun name member => valid name (List.mem_of_mem_dropLast member)
    · simp only [Except.bind_eq_ok_iff, Except.pure_eq_ok_iff] at added
      obtain ⟨last, accepted, rfl⟩ := added
      intro name member
      rcases List.mem_append.mp member with before | here
      · exact valid name before
      · exact List.mem_singleton.mp here ▸ EntryName.isValid_of_parse accepted

theorem IsValid.addRawParts (valid : IsValid normalize path) {rawParts : List String} {last : List EntryName}
    (added : rawParts.foldlM (FsPath.addRawPart normalize) path = .ok last) : IsValid normalize last := by
  induction rawParts generalizing path with
  | nil =>
    cases added
    exact valid
  | cons rawPart rest ih =>
    simp only [List.foldlM_cons, Except.bind_eq_ok_iff] at added
    obtain ⟨next, here, later⟩ := added
    exact ih (valid.addRawPart here) later

theorem isValid_of_parse {raw : String} (accepted : parse normalize raw = .ok path) :
    IsValid normalize path := by
  simp only [parse, Except.bind_eq_ok_iff, Except.require_eq_ok_iff, exists_const] at accepted
  have empty : IsValid normalize [] := fun _ here => absurd here List.not_mem_nil
  exact empty.addRawParts accepted.2

theorem addRawPart_empty : addRawPart normalize path "" = .ok path := if_pos (.inr rfl)

theorem addRawPart_iff (form : NormalForm normalize) (valid : EntryName.IsValid normalize name)
    {next : List EntryName} :
    addRawPart normalize path name = .ok next ↔ name.utf8ByteSize < 256 ∧ next = path ++ [name] := by
  have plain := valid.plain form
  simp only [List.mem_cons, List.not_mem_nil, or_false, not_or] at plain
  rw [addRawPart, if_neg (by tauto), if_neg plain.2.2]
  simp only [Except.bind_eq_ok_iff, valid.parse_iff form, Except.pure_eq_ok_iff]
  constructor
  · rintro ⟨_, ⟨fits, rfl⟩, rfl⟩
    exact ⟨fits, rfl⟩
  · rintro ⟨fits, rfl⟩
    exact ⟨name, ⟨fits, rfl⟩, rfl⟩

/-- Names that are read again are appended as they are. -/
theorem addRawParts_iff (form : NormalForm normalize) {names : List EntryName}
    (valid : IsValid normalize names) {last : List EntryName} :
    names.foldlM (addRawPart normalize) path = .ok last ↔
      (∀ name ∈ names, name.utf8ByteSize < 256) ∧ last = path ++ names := by
  induction names generalizing path with
  | nil =>
    rw [List.foldlM_nil, Except.pure_eq_ok_iff, List.append_nil]
    simp [eq_comm]
  | cons name rest ih =>
    simp only [List.foldlM_cons, Except.bind_eq_ok_iff,
      addRawPart_iff form (valid name (List.mem_cons_self ..)), and_assoc, exists_and_left, exists_eq_left,
      ih fun other member => valid other (List.mem_cons_of_mem _ member), List.forall_mem_cons, List.append_assoc,
      List.singleton_append]

theorem toList_text (path : FsPath) : (text path).toList = '/' :: ['/'].intercalate (path.map String.toList) := by
  simp [text]

/-- The text of a path comes apart into its names. -/
theorem rawParts_text (clean : ∀ name ∈ path, '/' ∉ name.toList) :
    ((text path).toList.splitOn '/').map String.ofList = "" :: if path = [] then [""] else path := by
  have split := List.splitOn_append_cons_self_of_not_mem (List.not_mem_nil (a := '/'))
    (['/'].intercalate (path.map String.toList))
  rw [toList_text, ← List.nil_append ('/' :: _), split]
  cases path with
  | nil => rfl
  | cons name rest =>
    rw [if_neg (by simp), List.splitOn_intercalate _ (by simpa using clean) (by simp), List.map_cons, List.map_map]
    have same : (name :: rest).map (String.ofList ∘ String.toList) = name :: rest :=
      (List.map_congr_left fun part _ => String.ofList_toList).trans (List.map_id _)
    rw [same]

/-- What is read of the text of a path is the path, if every name is still accepted. -/
theorem parse_text_iff (form : NormalForm normalize) (valid : IsValid normalize path) {again : FsPath} :
    parse normalize (text path) = .ok again ↔ (∀ name ∈ path, name.utf8ByteSize < 256) ∧ again = path := by
  have absolute : (text path).toList.head? = some '/' := by rw [toList_text]; rfl
  have clean : ∀ name ∈ path, '/' ∉ name.toList :=
    fun name member => ((valid name member).noSeparators form.separators).1
  simp only [parse, Except.bind_eq_ok_iff, Except.require_eq_ok_iff, exists_const, absolute, true_and,
    rawParts_text clean, List.foldlM_cons, addRawPart_empty, Except.ok.injEq, exists_eq_left']
  cases path with
  | nil => simp [addRawPart_empty, eq_comm]
  | cons name rest =>
    rw [if_neg (by simp), addRawParts_iff form valid, List.nil_append]

theorem truediv_iff (form : NormalForm normalize) (valid : EntryName.IsValid normalize name) {joined : FsPath} :
    truediv normalize path name = .ok joined ↔ name.utf8ByteSize < 256 ∧ joined = path ++ [name] := by
  simp only [truediv, Except.bind_eq_ok_iff, valid.parse_iff form, Except.pure_eq_ok_iff]
  constructor
  · rintro ⟨_, ⟨fits, rfl⟩, rfl⟩
    exact ⟨fits, rfl⟩
  · rintro ⟨fits, rfl⟩
    exact ⟨name, ⟨fits, rfl⟩, rfl⟩

end FsPath

end Guardata
