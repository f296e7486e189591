import Guardata.Model.ReadDirectory
import Guardata.Proofs.Winify
import Mathlib.Data.List.TakeWhile

/-! # Taking up a listing

The marker is the name that was shown, and it is looked for among the names of the children. A child whose name is
shown as it is takes the listing up where it was left. Behind any other name everything is cut off, unless the name
that was shown is the name of another child.
-/

namespace Guardata

/-- Every entry has the stats of a manifest, whose children have entry names. -/
def ListsManifests {ε : Type*} (normalize : String → String) (entryInfo : FsPath → Except ε EntryStat) : Prop :=
  ∀ path stat, entryInfo path = .ok stat → ∃ manifest : LocalEntryManifest, stat = manifest.toStats ∧
    ∀ children, stat.kind = .folder children → ∀ name ∈ children, EntryName.IsValid normalize name

/-- A listing is taken up rightly behind a child whose name Windows takes, and behind the last child if no child has
the name that is shown of it. -/
def TakenUpBehind (children : List EntryName) (position : ℕ) (name : EntryName) : Prop :=
  IsLegal name ∨ (position + 1 = children.length ∧ ∀ shown ∈ children, winifyEntryName name ≠ .ok shown)

instance (children : List EntryName) (position : ℕ) (name : EntryName) :
    Decidable (TakenUpBehind children position name) := inferInstanceAs (Decidable (_ ∨ _))

section Scan

variable {children : List EntryName} {position : ℕ} {name : EntryName}

theorem LocalEntryManifest.nodup_toStats {manifest : LocalEntryManifest}
    (folder : manifest.toStats.kind = .folder children) : children.Nodup := by
  cases manifest with
  | file manifest => exact nomatch folder
  | folder manifest =>
    cases folder
    exact (List.perm_insertionSort _ _).nodup_iff.mpr manifest.children.nodup_keys

/-- The scan stops behind the child that has the name. -/
theorem childrenAfter_of_getElem? (distinct : children.Nodup) (here : children[position]? = some name) :
    childrenAfter children (some name) = children.drop (position + 1) := by
  induction children generalizing position with
  | nil => exact nomatch here
  | cons first rest ih =>
    rw [List.nodup_cons] at distinct
    cases position with
    | zero =>
      obtain rfl : first = name := by simpa using here
      simp [childrenAfter]
    | succ position =>
      rw [List.getElem?_cons_succ] at here
      have other : first ≠ name := fun same => distinct.1 (same ▸ List.mem_of_getElem? here)
      simpa [childrenAfter, other] using ih distinct.2 here

theorem childrenAfter_of_not_mem {marker : String} (absent : marker ∉ children) :
    childrenAfter children (some marker) = [] := by
  have all : ∀ child ∈ children, decide (child ≠ marker) := by
    intro child member
    exact decide_eq_true fun same => absent (same ▸ member)
  rw [childrenAfter, List.dropWhile_eq_nil_iff.mpr all, List.drop_nil]

/-- What is left behind the name that is shown of a child. -/
theorem childrenAfter_eq_iff (distinct : children.Nodup) (here : children[position]? = some name) (nonempty : name ≠ "")
    {shown : String} (shows : winifyEntryName name = .ok shown) :
    childrenAfter children (some shown) = children.drop (position + 1) ↔ TakenUpBehind children position name := by
  obtain ⟨inside, _⟩ := List.getElem?_eq_some_iff.mp here
  rw [TakenUpBehind, ← winify_eq_self_iff nonempty, shows, Except.ok.injEq]
  constructor
  · intro rest
    by_cases member : shown ∈ children
    · obtain ⟨other, found⟩ := List.getElem?_of_mem member
      rw [childrenAfter_of_getElem? distinct found] at rest
      have lengths := congrArg List.length rest
      obtain ⟨within, -⟩ := List.getElem?_eq_some_iff.mp found
      rw [List.length_drop, List.length_drop] at lengths
      obtain rfl : other = position := by omega
      exact .inl (Option.some.inj (found.symm.trans here))
    · rw [childrenAfter_of_not_mem member] at rest
      have last : position + 1 = children.length := by
        have := List.drop_eq_nil_iff.mp rest.symm
        omega
      refine .inr ⟨last, fun other isChild same => member ?_⟩
      exact Except.ok.inj same ▸ isChild
  · rintro (rfl | ⟨last, absent⟩)
    · exact childrenAfter_of_getElem? distinct here
    · rw [childrenAfter_of_not_mem fun member => absent shown member rfl, last, List.drop_length]

end Scan

section Listing

variable {ε : Type*} (normalize : String → String) (dtToFiletime : DateTime → ℕ)
  (entryInfo : FsPath → Except ε EntryStat) (path : FsPath)

/-- How many entries stand in front of the children. -/
def leadingEntries : ℕ := if path.isRoot then 0 else 2

variable {normalize dtToFiletime entryInfo path} {stat : EntryStat} {children : List EntryName}
  {entries : List DirectoryEntry}

/-- Behind any other name than the dots only children are listed. -/
theorem readDirectory_behind (opened : entryInfo path = .ok stat) (folder : stat.kind = .folder children)
    {marker : String} (child : marker ≠ "." ∧ marker ≠ "..") :
    readDirectory normalize dtToFiletime entryInfo path (some marker) =
      (childrenAfter children (some marker)).mapM (childEntry normalize dtToFiletime entryInfo path) := by
  simp only [readDirectory, opened, Except.mapError_ok, Except.ok_bind, folder, reduceCtorEq, false_and, if_false,
    Option.some.injEq, child.1, child.2, pure_bind, List.nil_append]
  exact bind_pure _

/-- A whole listing: the dots, unless the folder is the root, and an entry for every child. Behind the dots
everything else is listed. -/
theorem exists_of_readDirectory_none (opened : entryInfo path = .ok stat) (folder : stat.kind = .folder children)
    (full : readDirectory normalize dtToFiletime entryInfo path none = .ok entries) : ∃ leading listed,
      leading.length = leadingEntries path ∧ entries = leading ++ listed ∧
      List.Forall₂ (fun child entry =>
        childEntry normalize dtToFiletime entryInfo path child = .ok entry) children listed ∧
      ∀ position entry, leading[position]? = some entry →
        readDirectory normalize dtToFiletime entryInfo path (some entry.fileName) =
          .ok (entries.drop (position + 1)) := by
  simp only [readDirectory, opened, Except.mapError_ok, Except.ok_bind, folder, true_and, reduceCtorEq, if_false,
    childrenAfter] at full
  cases root : path.isRoot with
  | true =>
    simp only [root, not_true_eq_false, if_false, pure_bind, List.nil_append, bind_pure] at full
    exact ⟨[], entries, by simp [leadingEntries, root], rfl, Except.mapM_eq_ok_iff.mp full, by simp⟩
  | false =>
    simp only [root, Bool.false_eq_true, not_false_eq_true, if_true, Except.bind_eq_ok_iff, Except.pure_eq_ok_iff,
      Except.mapError_eq_ok_iff] at full
    obtain ⟨parentStat, above, _, rfl, listed, each, rfl⟩ := full
    refine ⟨[⟨".", statToWinfspAttributes dtToFiletime stat⟩, ⟨"..", statToWinfspAttributes dtToFiletime parentStat⟩],
      listed, by simp [leadingEntries, root], rfl, Except.mapM_eq_ok_iff.mp each, ?_⟩
    intro position entry here
    rcases position with _ | _ | _
    · obtain rfl := Option.some.inj here
      simp [readDirectory, opened, folder, root, above, each, childrenAfter, pure, Except.pure, bind, Except.bind]
    · obtain rfl := Option.some.inj here
      simp [readDirectory, opened, folder, root, each, childrenAfter, pure, Except.pure, bind, Except.bind]
    · cases here

/-- What is listed behind a child. -/
theorem readDirectory_child_iff (form : NormalForm normalize) (manifests : ListsManifests normalize entryInfo)
    (opened : entryInfo path = .ok stat) (folder : stat.kind = .folder children) {listed : List DirectoryEntry}
    (each : List.Forall₂ (fun child entry => childEntry normalize dtToFiletime entryInfo path child = .ok entry)
      children listed) {position : ℕ} {name : EntryName} {entry : DirectoryEntry}
    (child : children[position]? = some name) (here : listed[position]? = some entry) :
    readDirectory normalize dtToFiletime entryInfo path (some entry.fileName) = .ok (listed.drop (position + 1)) ↔
      TakenUpBehind children position name := by
  obtain ⟨manifest, stats, names⟩ := manifests path stat opened
  have valid := names children folder name (List.mem_of_getElem? child)
  have nonempty : name ≠ "" := fun nil => valid.plain form (by simp [nil])
  have distinct : children.Nodup := LocalEntryManifest.nodup_toStats (stats ▸ folder)
  have made : childEntry normalize dtToFiletime entryInfo path name = .ok entry := by
    obtain ⟨inside, at_⟩ := List.getElem?_eq_some_iff.mp child
    obtain ⟨within, is⟩ := List.getElem?_eq_some_iff.mp here
    have := List.Forall₂.get each inside within
    simpa [at_, is] using this
  simp only [childEntry, Except.bind_eq_ok_iff, Except.mapError_eq_ok_iff, Except.pure_eq_ok_iff] at made
  obtain ⟨shown, shows, _, _, _, _, rfl⟩ := made
  have ends := winify_ends nonempty shows
  have dots : shown ≠ "." ∧ shown ≠ ".." := by
    constructor
    · rintro rfl
      exact ends.1 (by decide)
    · rintro rfl
      exact ends.1 (by decide)
  rw [readDirectory_behind opened folder dots,
    ← childrenAfter_eq_iff distinct child nonempty shows, Except.mapM_eq_ok_iff]
  constructor
  · intro rest
    -- Both are ends of the list of children, and they have as many of them.
    have lengths := rest.length_eq.trans (List.forall₂_drop (position + 1) each).length_eq.symm
    have ends : childrenAfter children (some shown) <:+ children :=
      (List.drop_suffix 1 _).trans (List.dropWhile_suffix _)
    exact (List.suffix_of_suffix_length_le ends (List.drop_suffix _ _) lengths.le).eq_of_length lengths
  · intro same
    rw [same]
    exact List.forall₂_drop _ each

/-- Where every call takes up rightly, all entries are listed once, whatever the batches. -/
theorem listInBatches_eq (resumes : ∀ position entry, entries[position]? = some entry →
      readDirectory normalize dtToFiletime entryInfo path (some entry.fileName) = .ok (entries.drop (position + 1)))
    {sizes : List ℕ} (positive : ∀ size ∈ sizes, 0 < size) {marker : Option String} {position : ℕ}
    (start : readDirectory normalize dtToFiletime entryInfo path marker = .ok (entries.drop position)) :
    listInBatches normalize dtToFiletime entryInfo path marker sizes = .ok (entries.drop position) := by
  induction sizes generalizing marker position with
  | nil => exact start
  | cons size sizes ih =>
    rw [List.forall_mem_cons] at positive
    rw [listInBatches, start, Except.ok_bind]
    cases ends : ((entries.drop position).take size).getLast? with
    | none =>
      have nothing : entries.drop position = [] := by
        have := List.getLast?_eq_none_iff.mp ends
        exact (List.take_eq_nil_iff.mp this).resolve_left positive.1.ne'
      rw [nothing]
      rfl
    | some last =>
      -- The batch ends behind as many entries as it has.
      obtain ⟨taken, batch⟩ : ∃ taken, ((entries.drop position).take size).length = taken + 1 :=
        Nat.exists_eq_add_one.mpr (List.length_pos_of_mem (List.mem_of_getLast? ends))
      have here : entries[position + taken]? = some last := by
        rw [List.getLast?_eq_getElem?, batch, Nat.add_sub_cancel, List.getElem?_take] at ends
        split at ends
        · rwa [List.getElem?_drop] at ends
        · exact nomatch ends
      have later := ih positive.2 (resumes _ last here)
      have rest : entries.drop (position + taken + 1) = (entries.drop position).drop size := by
        rw [List.length_take, List.length_drop] at batch
        rw [List.drop_drop]
        by_cases whole : size ≤ entries.length - position
        · congr 1
          omega
        · rw [List.drop_eq_nil_iff.mpr (by omega), List.drop_eq_nil_iff.mpr (by omega)]
      have cut : (entries.drop position).take size ++ entries.drop (position + taken + 1) = entries.drop position := by
        rw [rest, List.take_append_drop]
      simp only [later, Except.ok_bind]
      exact congrArg Except.ok cut

end Listing

/-- Behind an entry the rest is listed if and only if the entry is one of the dots or a child that is taken up
behind. A listing in batches has all entries, whatever the batches, if and only if every child is. -/
theorem listing_taken_up_iff {ε : Type*} (normalize : String → String) (form : NormalForm normalize)
    (dtToFiletime : DateTime → ℕ) (entryInfo : FsPath → Except ε EntryStat)
    (manifests : ListsManifests normalize entryInfo) (path : FsPath) (stat : EntryStat) (children : List EntryName)
    (opened : entryInfo path = .ok stat) (folder : stat.kind = .folder children) (entries : List DirectoryEntry)
    (full : readDirectory normalize dtToFiletime entryInfo path none = .ok entries) :
    (∀ position entry, entries[position]? = some entry →
      (readDirectory normalize dtToFiletime entryInfo path (some entry.fileName) = .ok (entries.drop (position + 1)) ↔
        position < leadingEntries path ∨
          ∃ name, children[position - leadingEntries path]? = some name ∧
            TakenUpBehind children (position - leadingEntries path) name)) ∧
    ((∀ sizes : List ℕ, (∀ size ∈ sizes, 0 < size) →
        listInBatches normalize dtToFiletime entryInfo path none sizes = .ok entries) ↔
      ∀ position name, children[position]? = some name → TakenUpBehind children position name) := by
  obtain ⟨leading, listed, count, rfl, each, dots⟩ := exists_of_readDirectory_none opened folder full
  have behind {position : ℕ} {name : EntryName} {entry : DirectoryEntry} (child : children[position]? = some name)
      (here : listed[position]? = some entry) :
      readDirectory normalize dtToFiletime entryInfo path (some entry.fileName) =
          .ok ((leading ++ listed).drop (leading.length + position + 1)) ↔ TakenUpBehind children position name := by
    rw [← readDirectory_child_iff form manifests opened folder each child here, Nat.add_assoc,
      List.drop_length_add_append]
  have paired {position : ℕ} (inside : position < listed.length) : ∃ name, children[position]? = some name :=
    ⟨_, List.getElem?_eq_getElem (each.length_eq ▸ inside)⟩
  have each_position : ∀ position entry, (leading ++ listed)[position]? = some entry →
      (readDirectory normalize dtToFiletime entryInfo path (some entry.fileName) =
          .ok ((leading ++ listed).drop (position + 1)) ↔
        position < leadingEntries path ∨
          ∃ name, children[position - leadingEntries path]? = some name ∧
            TakenUpBehind children (position - leadingEntries path) name) := by
    intro position entry here
    by_cases front : position < leading.length
    · rw [List.getElem?_append_left front] at here
      exact iff_of_true (dots position entry here) (.inl (count ▸ front))
    · rw [List.getElem?_append_right (Nat.le_of_not_lt front)] at here
      obtain ⟨name, child⟩ := paired (List.getElem?_eq_some_iff.mp here).1
      have split : leading.length + (position - leading.length) = position := by omega
      have step := behind child here
      rw [split] at step
      rw [step, ← count, child]
      simp [front]
  refine ⟨each_position, ?_⟩
  constructor
  · intro batches position name child
    have inside : position < listed.length := each.length_eq ▸ (List.getElem?_eq_some_iff.mp child).1
    -- One batch up to the child, and the rest behind it.
    have cut := batches [leading.length + position + 1] (by simp)
    have taken : ((leading ++ listed).take (leading.length + position + 1)).getLast? = some listed[position] := by
      rw [List.getLast?_eq_getElem?, List.length_take, List.length_append, Nat.min_eq_left (by omega),
        Nat.add_sub_cancel, List.getElem?_take_of_lt (by omega), List.getElem?_append_right (by omega),
        Nat.add_sub_cancel_left, List.getElem?_eq_getElem inside]
    simp only [listInBatches, full, Except.ok_bind, taken, Except.bind_eq_ok_iff, Except.pure_eq_ok_iff] at cut
    obtain ⟨rest, resumed, whole⟩ := cut
    conv at whole => rhs; rw [← List.take_append_drop (leading.length + position + 1) (leading ++ listed)]
    rw [List.append_cancel_left whole] at resumed
    exact (behind child (List.getElem?_eq_getElem inside)).mp resumed
  · intro all sizes positive
    have start : readDirectory normalize dtToFiletime entryInfo path none = .ok ((leading ++ listed).drop 0) := full
    refine listInBatches_eq ?_ positive start
    intro position entry here
    refine (each_position position entry here).mpr ?_
    by_cases front : position < leadingEntries path
    · exact .inl front
    · rw [List.getElem?_append_right (by omega)] at here
      obtain ⟨name, child⟩ := paired (List.getElem?_eq_some_iff.mp here).1
      rw [count] at child
      exact .inr ⟨name, child, all _ name child⟩

section Example

private def childrenManifest (names : List EntryName) : LocalEntryManifest := .folder
  { base := ⟨⟨"alice", "pc"⟩, 0, 1, some 0, 1, 0, 0, {}⟩, needSync := false, updated := 0,
    children := .ofList (names.map fun name => (name, 2)) }

private def fileManifest : LocalEntryManifest := .file (.newPlaceholder ⟨"alice", "pc"⟩ 1 2 0 defaultBlockSize)

/-- A folder `/f` with files of the given names. -/
private def folderWith (names : List EntryName) (path : FsPath) : Except Unit EntryStat :=
  match path with
  | [] => .ok (childrenManifest ["f"]).toStats
  | ["f"] => .ok (childrenManifest names).toStats
  | ["f", _] => .ok fileManifest.toStats
  | _ => .error ()

private def listedNames (names : List EntryName) (marker : Option String) : Option (List String) :=
  (readDirectory id (fun _ => 0) (folderWith names) ["f"] marker).toOption.map fun entries =>
    entries.map DirectoryEntry.fileName

/-- Behind a name that was shown with an escape nothing is listed any more. -/
theorem listing_cut_behind_colon :
    listedNames ["a:", "b"] none = some [".", "..", "a~3a", "b"] ∧ listedNames ["a:", "b"] (some "a~3a") = some [] := by
  decide +kernel

/-- The names of a manifest with two files. -/
private theorem folderWith_lists : ListsManifests id (folderWith ["a", "b:"]) := by
  have valid {names sorted : List EntryName} (order : (childrenManifest names).toStats.kind = .folder sorted)
      (each : ∀ name ∈ sorted, EntryName.new id name = .ok name) :
      ∀ children, (childrenManifest names).toStats.kind = .folder children →
        ∀ name ∈ children, EntryName.IsValid id name := by
    intro children folder name member
    cases order.symm.trans folder
    exact ⟨name, each name member⟩
  have root : (childrenManifest ["f"]).toStats.kind = .folder ["f"] := by decide +kernel
  have files : (childrenManifest ["a", "b:"]).toStats.kind = .folder ["a", "b:"] := by decide +kernel
  intro path stat found
  unfold folderWith at found
  split at found
  · cases found
    exact ⟨_, rfl, valid root (by decide)⟩
  · cases found
    exact ⟨_, rfl, valid files (by decide)⟩
  · cases found
    exact ⟨_, rfl, fun _ folder => nomatch folder⟩
  · exact nomatch found

/-- The last child may be shown with an escape. -/
theorem listing_taken_up_iff_last : ∃ entries,
    readDirectory id (fun _ => 0) (folderWith ["a", "b:"]) ["f"] none = .ok entries ∧
      ∀ sizes : List ℕ, (∀ size ∈ sizes, 0 < size) →
        listInBatches id (fun _ => 0) (folderWith ["a", "b:"]) ["f"] none sizes = .ok entries := by
  have form : NormalForm id := ⟨fun _ => rfl, fun _ clean => clean, fun _ _ => rfl⟩
  have files : (childrenManifest ["a", "b:"]).toStats.kind = .folder ["a", "b:"] := by decide +kernel
  have whole : (readDirectory id (fun _ => 0) (folderWith ["a", "b:"]) ["f"] none).toOption.isSome := by decide +kernel
  obtain ⟨entries, full⟩ := Option.isSome_iff_exists.mp whole
  rw [Except.toOption_eq_some_iff] at full
  refine ⟨entries, full, (listing_taken_up_iff id form (fun _ => 0) _ folderWith_lists ["f"] _ _ rfl files entries
    full).2.mpr ?_⟩
  intro position name here
  match position with
  | 0 =>
    obtain rfl := Option.some.inj here
    decide +kernel
  | 1 =>
    obtain rfl := Option.some.inj here
    decide +kernel
  | _ + 2 => exact nomatch here

end Example

end Guardata
