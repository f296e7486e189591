import Mathlib.Data.Nat.Find
import Guardata.Proofs.EntryNames

/-! # When a folder merge returns

A merge raises only where it has to put a suffix into a name that gets too long. So does the search for
the name of a conflict file, which tries one suffix after the other: it always ends, with a name that is
free or with a refusal.
-/

namespace Guardata

section ConflictFilename

variable {normalize : String → String} {filename : EntryName} {filenames : List EntryName} {author : String}

/-- The name of this round is one of the others. -/
def IsTaken (normalize : String → String) (filename : EntryName) (filenames : List EntryName)
    (author : String)
    (round : ℕ) : Prop :=
  ∃ taken ∈ filenames, fullName normalize filename [conflictSuffix author round] = .ok taken

/-- The search goes past the taken names. -/
theorem conflictFilenameFrom_of_taken {rounds start : ℕ}
    (past : ∀ round < rounds, IsTaken normalize filename filenames author (start + round))
    (free : ¬ IsTaken normalize filename filenames author (start + rounds)) :
    conflictFilenameFrom normalize filename filenames author (rounds + 1) start =
      some (fullName normalize filename [conflictSuffix author (start + rounds)]) := by
  induction rounds generalizing start with
  | zero =>
    rw [Nat.add_zero] at free ⊢
    rw [conflictFilenameFrom]
    cases full : fullName normalize filename [conflictSuffix author start] with
    | error refused => rfl
    | ok name => exact if_neg fun member => free ⟨name, member, full⟩
  | succ rounds ih =>
    obtain ⟨taken, member, full⟩ := past 0 (Nat.succ_pos rounds)
    rw [Nat.add_zero] at full
    rw [conflictFilenameFrom, full]
    simp only [member, if_true]
    have further : ∀ round < rounds, IsTaken normalize filename filenames author (start + 1 + round) := by
      intro round below
      have next := past (round + 1) (Nat.succ_lt_succ below)
      rwa [Nat.add_comm round, ← Nat.add_assoc] at next
    rw [ih further (by rwa [Nat.add_assoc, Nat.add_comm 1]), Nat.add_assoc, Nat.add_comm 1]

/-- What the search comes to is the outcome of a round whose name is not taken. -/
theorem exists_round_of_conflictFilenameFrom {rounds start : ℕ} {outcome : Except InvalidEntryName EntryName}
    (found : conflictFilenameFrom normalize filename filenames author rounds start = some outcome) :
    ∃ round, ¬ IsTaken normalize filename filenames author round ∧
      outcome = fullName normalize filename [conflictSuffix author round] := by
  induction rounds generalizing start with
  | zero => cases found
  | succ rounds ih =>
    rw [conflictFilenameFrom] at found
    cases full : fullName normalize filename [conflictSuffix author start] with
    | error refused =>
      rw [full] at found
      cases found
      refine ⟨start, ?_, full.symm⟩
      rintro ⟨taken, -, accepted⟩
      cases full.symm.trans accepted
    | ok name =>
      rw [full] at found
      simp only at found
      split at found
      · exact ih found
      · next free =>
        cases found
        refine ⟨start, ?_, full.symm⟩
        rintro ⟨taken, member, accepted⟩
        cases full.symm.trans accepted
        exact free member

/-- A name that is too long is not taken, so some name is not. -/
theorem exists_not_isTaken (bare : NoSeparators filename) (clean : NoSeparators author) :
    ∃ round, ¬ IsTaken normalize filename filenames author round := by
  obtain ⟨round, long⟩ := exists_conflictSuffix_too_long author 256
  refine ⟨round, ?_⟩
  rintro ⟨taken, -, accepted⟩
  have fits := (fullName_returns_iff bare (noSeparators_conflictSuffix clean round)).mp ⟨taken, accepted⟩
  omega

/-- The search ends with the first name that is not taken. -/
theorem getConflictFilename_of_first {round : ℕ}
    (past : ∀ earlier < round, IsTaken normalize filename filenames author earlier)
    (free : ¬ IsTaken normalize filename filenames author round) :
    getConflictFilename normalize filename filenames author (round + 1) =
      some (fullName normalize filename [conflictSuffix author round]) := by
  have searched : conflictFilenameFrom normalize filename filenames author (round + 1) 0 =
      some (fullName normalize filename [conflictSuffix author (0 + round)]) :=
    conflictFilenameFrom_of_taken (by simpa using past) (by simpa using free)
  rwa [Nat.zero_add] at searched

open Classical in
theorem exists_first_not_isTaken {round : ℕ} (free : ¬ IsTaken normalize filename filenames author round) :
    ∃ first ≤ round, (∀ earlier < first, IsTaken normalize filename filenames author earlier) ∧
      ¬ IsTaken normalize filename filenames author first := by
  have some : ∃ round, ¬ IsTaken normalize filename filenames author round := ⟨round, free⟩
  exact ⟨Nat.find some, Nat.find_min' some free, fun _ below => not_not.mp (Nat.find_min some below),
    Nat.find_spec some⟩

/-- The search returns exactly if one of the names that are not too long is free. -/
theorem getConflictFilename_returns_iff (bare : NoSeparators filename) (clean : NoSeparators author) :
    (∃ rounds name, getConflictFilename normalize filename filenames author rounds = some (.ok name) ∧
        EntryName.IsValid normalize name ∧ name ∉ filenames) ↔
      ∃ round, filename.utf8ByteSize + (suffixString [conflictSuffix author round]).utf8ByteSize < 256 ∧
        ¬ IsTaken normalize filename filenames author round := by
  constructor
  · rintro ⟨rounds, name, found, -, -⟩
    obtain ⟨round, free, full⟩ := exists_round_of_conflictFilenameFrom found
    exact ⟨round, (fullName_returns_iff bare (noSeparators_conflictSuffix clean round)).mp
      ⟨name, full.symm⟩, free⟩
  · rintro ⟨round, fits, free⟩
    obtain ⟨first, le, past, free⟩ := exists_first_not_isTaken free
    have shorter := conflictSuffix_mono author le
    obtain ⟨name, full⟩ : ∃ name, fullName normalize filename [conflictSuffix author first] = .ok name :=
      (fullName_returns_iff bare (noSeparators_conflictSuffix clean first)).mpr (by omega)
    refine ⟨first + 1, name, by rw [getConflictFilename_of_first past free, full], ?_,
      fun member => free ⟨name, member, full⟩⟩
    obtain ⟨stem, extension, -, inserted⟩ := exists_fullName_eq normalize filename
    exact ⟨_, (inserted _ (by simp)).symm.trans full⟩

end ConflictFilename

namespace ConflictingChildren

/-- Every name on either side is one that an entry can have. -/
structure NamesValid (normalize : String → String) (conflict : ConflictingChildren) : Prop where
  localSide : ∀ name ∈ conflict.localChildren.keys, EntryName.IsValid normalize name
  remoteSide : ∀ name ∈ conflict.remoteChildren.keys, EntryName.IsValid normalize name

/-- No name that a merge may have to invent has more than 255 bytes. -/
structure SuffixesFit (normalize : String → String) (conflict : ConflictingChildren) : Prop where
  remotely : ∀ id name suffix, conflict.rightfulNameOf id = .remoteSide name [suffix] →
    name.utf8ByteSize + (suffixString [suffix]).utf8ByteSize < 256
  locally : ∀ id name, conflict.Crowded normalize id → conflict.rightfulNameOf id = .localSide name →
    name.utf8ByteSize +
      (suffixString ["conflicting with " ++ conflict.remoteDeviceName]).utf8ByteSize < 256

variable {normalize : String → String} {conflict : ConflictingChildren}

/-- A remote child keeps its name, or is renamed on both sides. -/
theorem suffixes_of_remoteSide {id : EntryID} {name : EntryName} {suffixes : List String}
    (rightful : conflict.rightfulNameOf id = .remoteSide name suffixes) :
    suffixes = [] ∨ suffixes = ["renamed by " ++ conflict.remoteDeviceName] := by
  unfold rightfulNameOf rightfulName at rightful
  split at rightful
  · cases rightful
  · cases rightful
    exact .inl rfl
  · cases rightful
  · cases rightful
  · split_ifs at rightful
    · cases rightful
      exact .inl rfl
    · cases rightful
      exact .inr rfl

theorem namesFit_iff_suffixesFit (keeps : KeepsSeparators normalize)
    (clean : NoSeparators conflict.remoteDeviceName) (valid : conflict.NamesValid normalize) :
    conflict.NamesFit normalize ↔ conflict.SuffixesFit normalize := by
  have locals {id : EntryID} {name : EntryName} (rightful : conflict.rightfulNameOf id = .localSide name) :
      NoSeparators name :=
    (valid.localSide name (Dict.mem_keys_iff.mpr ⟨id, get?_of_localSide rightful⟩)).noSeparators keeps
  have remotes {id : EntryID} {name : EntryName} {suffixes : List String}
      (rightful : conflict.rightfulNameOf id = .remoteSide name suffixes) : NoSeparators name :=
    (valid.remoteSide name (Dict.mem_keys_iff.mpr ⟨id, get?_of_remoteSide rightful⟩)).noSeparators keeps
  have renamed : NoSeparators ("renamed by " ++ conflict.remoteDeviceName) :=
    NoSeparators.append_iff.mpr ⟨by simp [NoSeparators], clean⟩
  have conflicting : NoSeparators ("conflicting with " ++ conflict.remoteDeviceName) :=
    NoSeparators.append_iff.mpr ⟨by simp [NoSeparators], clean⟩
  constructor
  · intro fit
    constructor
    · intro id name suffix rightful
      rcases suffixes_of_remoteSide rightful with nothing | same
      · cases nothing
      · cases same
        exact (fullName_returns_iff (remotes rightful) renamed).mp (fit.remotely id name _ rightful)
    · intro id name crowded rightful
      exact (fullName_returns_iff (locals rightful) conflicting).mp (fit.locally id name crowded rightful)
  · intro fit
    constructor
    · intro id name suffixes rightful
      obtain rfl | rfl := suffixes_of_remoteSide rightful
      · exact ⟨name, if_pos rfl⟩
      · exact (fullName_returns_iff (remotes rightful) renamed).mpr (fit.remotely id name _ rightful)
    · intro id name crowded rightful
      exact (fullName_returns_iff (locals rightful) conflicting).mpr (fit.locally id name crowded rightful)

end ConflictingChildren

/-- A merge returns in whatever order it walks exactly if no name that it may have to invent is too
long. The search for the name of a conflict file always ends, and returns exactly if one of its
names that are not too long is free. -/
theorem folder_merge_total_iff {normalize : String → String} (keeps : KeepsSeparators normalize)
    {author : String} (clean : NoSeparators author) :
    (∀ conflict : ConflictingChildren, conflict.remoteDeviceName = author → conflict.NamesValid normalize →
      ((∀ ids, conflict.IsWalk ids → ∃ children, mergeFolderChildren normalize conflict ids = .ok children) ↔
        conflict.SuffixesFit normalize)) ∧
    ∀ filename filenames, EntryName.IsValid normalize filename →
      (∃ rounds outcome, getConflictFilename normalize filename filenames author rounds = some outcome) ∧
      ((∃ rounds name, getConflictFilename normalize filename filenames author rounds = some (.ok name) ∧
          EntryName.IsValid normalize name ∧ name ∉ filenames) ↔
        ∃ round, filename.utf8ByteSize + (suffixString [conflictSuffix author round]).utf8ByteSize < 256 ∧
          ∀ taken ∈ filenames, fullName normalize filename [conflictSuffix author round] ≠ .ok taken) := by
  constructor
  · rintro conflict rfl valid
    rw [ConflictingChildren.mergeFolderChildren_returns_iff]
    exact ConflictingChildren.namesFit_iff_suffixesFit keeps clean valid
  intro filename filenames valid
  have bare := valid.noSeparators keeps
  constructor
  · obtain ⟨round, free⟩ : ∃ round, ¬ IsTaken normalize filename filenames author round :=
      exists_not_isTaken bare clean
    obtain ⟨first, -, past, free⟩ := exists_first_not_isTaken free
    exact ⟨first + 1, _, getConflictFilename_of_first past free⟩
  · rw [getConflictFilename_returns_iff bare clean]
    simp only [IsTaken, not_exists, not_and, ne_eq]

theorem folder_merge_total_iff_short :
    ∃ rounds name, getConflictFilename id "notes.txt" [] "bob@laptop" rounds = some (.ok name) ∧
      EntryName.IsValid id name ∧ name ∉ [] := by
  have valid : EntryName.IsValid id "notes.txt" := ⟨"notes.txt", by decide⟩
  have keeps : KeepsSeparators id := fun _ kept => kept
  have clean : NoSeparators "bob@laptop" := by decide
  have returns := ((folder_merge_total_iff keeps clean).2 "notes.txt" [] valid).2
  exact returns.mpr ⟨0, by decide, by simp⟩

/-- An entry was added under one name on either side. -/
private def addedTwice (name : EntryName) : ConflictingChildren where
  baseChildren := ∅
  localChildren := Dict.ofList [(name, 1)]
  remoteChildren := Dict.ofList [(name, 2)]
  remoteDeviceName := "bob@laptop"

private def longName : EntryName := String.ofList (List.replicate 240 '1')

private theorem mem_keys_single {name other : EntryName} {child : EntryID}
    (member : other ∈ (Dict.ofList [(name, child)]).keys) : other = name := List.mem_singleton.mp member

private theorem size_ones (count : ℕ) : (String.ofList (List.replicate count '1')).utf8ByteSize = count := by
  have digits : ∀ digit ∈ List.replicate count '1', digit.isDigit := by
    intro digit member
    rw [List.eq_of_mem_replicate member]
    decide
  rw [String.utf8ByteSize_ofList, utf8Len_of_digits digits, List.length_replicate]

private theorem ones_isValid {count : ℕ} (some : 2 < count) (few : count < 256) :
    EntryName.IsValid id (String.ofList (List.replicate count '1')) := by
  have size := size_ones count
  generalize is : String.ofList (List.replicate count '1') = text at size ⊢
  refine ⟨text, EntryName.new_eq_ok_iff.mpr ⟨⟨?_, ?_, ?_, ?_, ?_⟩, rfl⟩⟩
  · omega
  · omega
  · intro dot
    have one : (".".utf8ByteSize) = 1 := by decide
    rw [dot] at size
    omega
  · intro dots
    have two : ("..".utf8ByteSize) = 2 := by decide
    rw [dots] at size
    omega
  · rw [← is, NoSeparators, String.toList_ofList]
    simp

private theorem size_longName : longName.utf8ByteSize = 240 := size_ones 240

private theorem longName_isValid : EntryName.IsValid id longName := ones_isValid (by decide) (by decide)

/-- A name of 240 bytes was added on both sides: the merge raises, and so does the search for a name. -/
theorem long_name_cannot_be_merged :
    (addedTwice longName).Unique ∧ (addedTwice longName).NamesValid id ∧
      (¬ ∀ ids, (addedTwice longName).IsWalk ids →
        ∃ children, mergeFolderChildren id (addedTwice longName) ids = .ok children) ∧
      ∀ rounds name, getConflictFilename id longName [] "bob@laptop" rounds ≠ some (.ok name) := by
  have clean : NoSeparators "bob@laptop" := by decide
  have keeps : KeepsSeparators id := fun _ kept => kept
  have bare : NoSeparators longName := longName_isValid.noSeparators keeps
  have valid : (addedTwice longName).NamesValid id := by
    constructor
    · intro name member
      obtain rfl : name = longName := mem_keys_single member
      exact longName_isValid
    · intro name member
      obtain rfl : name = longName := mem_keys_single member
      exact longName_isValid
  refine ⟨⟨List.nodup_nil, List.nodup_singleton _, List.nodup_singleton _⟩, valid, ?_, ?_⟩
  · rw [ConflictingChildren.mergeFolderChildren_returns_iff,
      ConflictingChildren.namesFit_iff_suffixesFit keeps clean valid]
    intro fit
    have stands : (addedTwice longName).rightfulNameOf 1 = .localSide longName := rfl
    have taken : longName ∈ (addedTwice longName).takenNames id :=
      ConflictingChildren.mem_takenNames_iff.mpr ⟨2, longName, [], rfl, if_pos rfl⟩
    have short := fit.locally 1 longName (.remotely stands taken) stands
    rw [size_longName] at short
    exact absurd short (by decide)
  · intro rounds name found
    obtain ⟨round, -, full⟩ := exists_round_of_conflictFilenameFrom found
    have short := (fullName_returns_iff bare (noSeparators_conflictSuffix clean round)).mp ⟨name, full.symm⟩
    have longer := conflictSuffix_mono "bob@laptop" (Nat.zero_le round)
    have first : 16 ≤ (suffixString [conflictSuffix "bob@laptop" 0]).utf8ByteSize := by decide
    rw [size_longName] at short
    omega

end Guardata
