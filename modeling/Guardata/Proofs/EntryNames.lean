import Mathlib.Data.String.Basic
import Guardata.Proofs.FolderMerge

/-! # Suffixed entry names

A suffix is put into a name as it is, so a name of an entry with a suffix is refused only if it gets too
long. The numbered suffixes grow with their numbers.
-/

namespace Guardata

/-- The text of some `EntryName`. -/
def EntryName.IsValid (normalize : String → String) (name : String) : Prop :=
  ∃ raw, EntryName.new normalize raw = .ok name

/-- A text that may stand inside of a name. -/
def NoSeparators (text : String) : Prop := '/' ∉ text.toList ∧ '\x00' ∉ text.toList

instance (text : String) : Decidable (NoSeparators text) := inferInstanceAs (Decidable (_ ∧ _))

/-- Unicode normalization makes no separator out of other characters. -/
def KeepsSeparators (normalize : String → String) : Prop :=
  ∀ text, NoSeparators text → NoSeparators (normalize text)

theorem NoSeparators.append_iff {first second : String} :
    NoSeparators (first ++ second) ↔ NoSeparators first ∧ NoSeparators second := by
  simp only [NoSeparators, String.toList_append, List.mem_append, not_or]
  tauto

theorem EntryName.new_eq_ok_iff {normalize : String → String} {raw : String} {name : EntryName} :
    EntryName.new normalize raw = .ok name ↔
      (0 < raw.utf8ByteSize ∧ raw.utf8ByteSize < 256 ∧ raw ≠ "." ∧ raw ≠ ".." ∧ NoSeparators raw) ∧
        normalize raw = name := by
  rw [EntryName.new]
  split
  · next valid => simpa [NoSeparators] using fun _ => valid
  · next refused =>
    simp only [reduceCtorEq, false_iff, not_and]
    exact fun valid => absurd valid refused

theorem EntryName.IsValid.noSeparators {normalize : String → String} (keeps : KeepsSeparators normalize)
    {name : EntryName} (valid : EntryName.IsValid normalize name) : NoSeparators name := by
  obtain ⟨raw, accepted⟩ := valid
  obtain ⟨⟨-, -, -, -, none⟩, rfl⟩ := EntryName.new_eq_ok_iff.mp accepted
  exact keeps raw none

/-- Where the suffixes go into a name does not depend on them. -/
theorem exists_fullName_eq (normalize : String → String) (name : EntryName) :
    ∃ stem extension, name = stem ++ extension ∧ ∀ suffixes, suffixes ≠ [] →
      fullName normalize name suffixes = EntryName.new normalize
      (stem ++ suffixString suffixes ++ extension) := by
  by_cases plain : '.' ∉ name.toList.drop 1
  · refine ⟨name, "", by simp, fun suffixes some => ?_⟩
    rw [fullName, if_neg some, if_pos plain, String.append_empty]
  · have joined : ".".intercalate ((name.toList.splitOn '.').map String.ofList) = name := by
      rw [← String.toList_inj, String.toList_intercalate, List.map_map]
      have same : (name.toList.splitOn '.').map (String.toList ∘ String.ofList) = name.toList.splitOn '.' :=
        (List.map_congr_left fun part _ => String.toList_ofList).trans (List.map_id _)
      rw [same]
      exact List.intercalate_splitOn '.'
    cases parts : (name.toList.splitOn '.').map String.ofList with
    | nil =>
      have nothing : name = "" := by rw [← joined, parts, String.intercalate_nil]
      rw [nothing] at plain
      exact absurd (by simp) plain
    | cons stem rest =>
      rw [parts] at joined
      have split : stem ++ ".".intercalate ("" :: rest) = name := by
        rw [← String.intercalate_cons_append, String.append_empty, joined]
      refine ⟨stem, ".".intercalate ("" :: rest), split.symm, fun suffixes some => ?_⟩
      rw [fullName, if_neg some, if_neg plain, parts]
      simp only
      have inserted : ".".intercalate ((stem ++ suffixString suffixes) :: rest) =
          stem ++ suffixString suffixes ++ ".".intercalate ("" :: rest) := by
        rw [← String.intercalate_cons_append, String.append_empty]
      rw [inserted]

theorem suffixString_singleton (suffix : String) : suffixString [suffix] = " (" ++ suffix ++ ")" := by
  simp [suffixString, String.join]

/-- A suffixed name is refused only if it is too long. -/
theorem fullName_returns_iff {normalize : String → String} {name : EntryName} {suffix : String}
    (bare : NoSeparators name) (clean : NoSeparators suffix) :
    (∃ full, fullName normalize name [suffix] = .ok full) ↔
      name.utf8ByteSize + (suffixString [suffix]).utf8ByteSize < 256 := by
  obtain ⟨stem, extension, rfl, full⟩ := exists_fullName_eq normalize name
  rw [NoSeparators.append_iff] at bare
  have size : (stem ++ suffixString [suffix] ++ extension).utf8ByteSize =
      (stem ++ extension).utf8ByteSize + (suffixString [suffix]).utf8ByteSize := by
    simp only [String.utf8ByteSize_append]
    omega
  have blank : ' ' ∈ (stem ++ suffixString [suffix] ++ extension).toList := by
    simp [suffixString_singleton]
  have separators : NoSeparators (stem ++ suffixString [suffix] ++ extension) := by
    rw [NoSeparators.append_iff, NoSeparators.append_iff, suffixString_singleton, NoSeparators.append_iff,
      NoSeparators.append_iff]
    exact ⟨⟨bare.1, ⟨by simp [NoSeparators], clean⟩, by simp [NoSeparators]⟩, bare.2⟩
  rw [full [suffix] (by simp), ← size]
  constructor
  · rintro ⟨name, accepted⟩
    exact (EntryName.new_eq_ok_iff.mp accepted).1.2.1
  · intro fits
    refine ⟨_, EntryName.new_eq_ok_iff.mpr ⟨⟨?_, fits, ?_, ?_, separators⟩, rfl⟩⟩
    · rw [size, suffixString_singleton]
      simp only [String.utf8ByteSize_append]
      have opening : (" (" : String).utf8ByteSize = 2 := by decide
      omega
    · intro dot
      rw [dot] at blank
      simp at blank
    · intro dots
      rw [dots] at blank
      simp at blank

theorem utf8Len_of_digits {digits : List Char} (all : ∀ digit ∈ digits, digit.isDigit) :
    String.utf8Len digits = digits.length := by
  induction digits with
  | nil => rfl
  | cons digit rest ih =>
    have one : digit.utf8Size = 1 := by
      have range := all digit (List.mem_cons_self ..)
      simp only [Char.isDigit, Bool.and_eq_true, decide_eq_true_eq] at range
      rw [Char.utf8Size, if_pos]
      exact UInt32.le_trans range.2 (by decide)
    rw [String.utf8Len_cons, ih fun other member => all other (List.mem_cons_of_mem _ member), one,
      List.length_cons]

/-- A number has as many bytes as digits. -/
theorem utf8ByteSize_repr (number : ℕ) : (toString number).utf8ByteSize = number.repr.length := by
  have digits : ∀ digit ∈ Nat.toDigits 10 number, digit.isDigit :=
    fun digit member => Nat.isDigit_of_mem_toDigits (by decide) (by decide) member
  rw [Nat.toString_eq_ofList_toDigits, String.utf8ByteSize_ofList, utf8Len_of_digits digits,
    Nat.repr_eq_ofList_toDigits, String.length_ofList]

theorem length_repr_mono {first second : ℕ} (le : first ≤ second) :
    first.repr.length ≤ second.repr.length := by
  have pos : 0 < second.repr.length := Nat.length_repr_pos
  exact (Nat.length_repr_le_iff pos).mpr (le.trans_lt ((Nat.length_repr_le_iff pos).mp le_rfl))

theorem conflictSuffix_zero (author : String) : conflictSuffix author 0 = "conflicting with " ++ author := rfl

theorem conflictSuffix_succ (author : String) (round : ℕ) :
    conflictSuffix author (round + 1) = "conflicting with " ++ author ++ " - " ++ toString (round + 2) := rfl

/-- The suffixes get longer and longer. -/
theorem conflictSuffix_mono (author : String) {first second : ℕ} (le : first ≤ second) :
    (suffixString [conflictSuffix author first]).utf8ByteSize ≤
      (suffixString [conflictSuffix author second]).utf8ByteSize := by
  simp only [suffixString_singleton, String.utf8ByteSize_append]
  cases second with
  | zero =>
    obtain rfl := Nat.le_zero.mp le
    exact le_rfl
  | succ second =>
    cases first with
    | zero =>
      simp only [conflictSuffix_zero, conflictSuffix_succ, String.utf8ByteSize_append, Nat.add_assoc]
      gcongr
      exact (Nat.le_add_left ..).trans (Nat.le_add_left ..)
    | succ first =>
      have digits := length_repr_mono (show first + 2 ≤ second + 2 by omega)
      simp only [conflictSuffix_succ, String.utf8ByteSize_append, utf8ByteSize_repr]
      gcongr

/-- Some suffix is too long for any name. -/
theorem exists_conflictSuffix_too_long (author : String) (bound : ℕ) :
    ∃ round, bound ≤ (suffixString [conflictSuffix author round]).utf8ByteSize := by
  have digits : ¬ (10 ^ (bound + 1) + 2).repr.length ≤ bound + 1 := by
    rw [Nat.length_repr_le_iff (Nat.succ_pos bound)]
    omega
  refine ⟨10 ^ (bound + 1) + 1, ?_⟩
  simp only [suffixString_singleton, conflictSuffix_succ, String.utf8ByteSize_append, utf8ByteSize_repr]
  refine le_trans ?_ (Nat.le_add_right ..)
  refine le_trans ?_ (Nat.le_add_left ..)
  refine le_trans ?_ (Nat.le_add_left ..)
  exact (Nat.le_succ bound).trans (Nat.le_of_not_le digits)

theorem noSeparators_conflictSuffix {author : String} (clean : NoSeparators author) (round : ℕ) :
    NoSeparators (conflictSuffix author round) := by
  have text : NoSeparators "conflicting with " := by simp [NoSeparators]
  cases round with
  | zero => exact NoSeparators.append_iff.mpr ⟨text, clean⟩
  | succ round =>
    have digits : NoSeparators (toString (round + 2)) := by
      rw [Nat.toString_eq_ofList_toDigits, NoSeparators, String.toList_ofList]
      constructor
      · intro member
        have digit := Nat.isDigit_of_mem_toDigits (by decide) (by decide) member
        exact absurd digit (by decide)
      · intro member
        have digit := Nat.isDigit_of_mem_toDigits (by decide) (by decide) member
        exact absurd digit (by decide)
    simp only [conflictSuffix_succ, NoSeparators.append_iff]
    exact ⟨⟨⟨text, clean⟩, by simp [NoSeparators]⟩, digits⟩

end Guardata
