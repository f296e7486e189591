import Guardata.Machine.Run
import Guardata.Proofs.EntryTransactions

/-! # New filters and new remote versions

Both lay the confined entries of a device over children that come from elsewhere. The assertion
that no id is added twice was written for edits, and it stops a device for good once an entry that
it holds under a confined name is found under another name on the other side. Where nothing stops
it, a new filter keeps what would be uploaded, with exceptions: an entry that is not uploaded yet
and matches the filter becomes confined, and names are laid over each other.
-/

namespace Guardata

open LocalFolderishManifest ConflictingChildren Machine

namespace LocalFolderishManifest

section Condition

variable (manifest : LocalFolderishManifest) (patternFilter : Pattern)

/-- A remote name is out of the way of the entry that is confined under another one: the filter
hides it, or an entry that gets restored stands there locally. -/
def OutOfTheWay (remoteChildren : Dict EntryName EntryID) (name : EntryName) : Prop :=
  patternFilter name ∨ ∃ other, manifest.Restores remoteChildren patternFilter name other

/-- A new filter finds the base name of every entry that is both confined and filtered out of the
way. -/
def FilterFits : Prop :=
  ∀ name entryId, manifest.base.children.get? name = some entryId →
    entryId ∈ manifest.filteredEntries → entryId ∈ manifest.confinedEntries →
    entryId ∈ manifest.children.values →
    manifest.OutOfTheWay patternFilter (manifest.toRemote default 0).children name

/-- A remote version has every confined entry under a name that is out of the way, if at all. -/
def RemoteFits (remote : RemoteFolderishManifest) : Prop :=
  ∀ name entryId, remote.children.get? name = some entryId → entryId ∈ manifest.confinedEntries →
    entryId ∈ manifest.children.values →
    manifest.OutOfTheWay patternFilter remote.children name

/-- Neither a name nor the entry that is uploaded under it is also in use for something that gets
restored or hidden. -/
structure Untangled (remoteChildren : Dict EntryName EntryID) (name : EntryName) (entryId : EntryID) :
    Prop where
  entry : ∀ other, manifest.children.get? other = some entryId → ¬ patternFilter other
  localName : ∀ other, manifest.children.get? name = some other → other ≠ entryId →
    other ∉ manifest.confinedEntries ∧ ¬ Hides remoteChildren patternFilter other
  baseName : ∀ other, manifest.base.children.get? name = some other → other ≠ entryId →
    ¬ Hides remoteChildren patternFilter other

end Condition

variable {normalize : String → String} {manifest next : LocalFolderishManifest}
  {patternFilter : Pattern} {now : DateTime}

/-- A step keeps the base, or takes a remote version for it. -/
theorem injective_base_of_step {event : FolderEvent} (step : manifest.step? normalize event = some next)
    (unique : manifest.base.children.Injective) : next.base.children.Injective := by
  cases changes_of_step step with
  | unchanged => exact unique
  | created _ _ _ edited =>
    rw [(evolveChildrenAndMarkUpdated_eq_ok edited).2.1]
    exact unique
  | renamed _ _ _ edited =>
    rw [(evolveChildrenAndMarkUpdated_eq_ok edited).2.1]
    exact unique
  | deleted edited =>
    rw [(evolveChildrenAndMarkUpdated_eq_ok edited).2.1]
    exact unique
  | filtered _ applied =>
    rw [(rebuilt_of_applyFilter applied default 0).1]
    exact unique
  | adopted _ unique _ _ loaded =>
    rw [(rebuilt_of_fromRemote loaded).1]
    exact Dict.injective_iff_nodup_values.mpr unique
  | acknowledged _ unique => exact Dict.injective_iff_nodup_values.mpr unique
  | reconciled _ unique _ _ _ loaded =>
    rw [(rebuilt_of_fromRemote loaded).1]
    exact Dict.injective_iff_nodup_values.mpr unique

theorem injective_base_initial (initial : Initial manifest) : manifest.base.children.Injective := by
  cases initial with
  | newPlaceholder =>
    intro first second value found
    cases found
  | fromRemote remote _ _ _ unique loaded =>
    cases loaded
    rw [(filterRemoteEntries_kept _ _).1]
    exact Dict.injective_iff_nodup_values.mpr unique

/-- What can be restored over children that have each confined id under one name at most. -/
theorem canRestore_iff {remoteChildren : Dict EntryName EntryID}
    (unique : ∀ first second entryId, entryId ∈ manifest.confinedEntries →
      remoteChildren.get? first = some entryId → remoteChildren.get? second = some entryId →
      first = second) :
    manifest.CanRestore remoteChildren patternFilter ↔
      ∀ name entryId, remoteChildren.get? name = some entryId → entryId ∈ manifest.confinedEntries →
        entryId ∈ manifest.children.values → manifest.OutOfTheWay patternFilter remoteChildren name := by
  constructor
  · intro can name entryId found confined present
    by_cases matched : patternFilter name = true
    · exact .inl matched
    · refine .inr (can name entryId found ?_ confined present)
      rintro ⟨other, again, hidden⟩
      obtain rfl := unique other name entryId confined again found
      exact matched hidden
  · intro fits name entryId found visible confined present
    rcases fits name entryId found confined present with matched | restored
    · exact absurd ⟨name, found, matched⟩ visible
    · exact restored

/-- The confined entries that are uploaded at all are those that the base has and the filter hides. -/
theorem canRestore_toRemote_iff (unique : manifest.base.children.Injective) :
    manifest.CanRestore (manifest.toRemote default 0).children patternFilter ↔
      manifest.FilterFits patternFilter := by
  have uploaded {name : EntryName} {entryId : EntryID} (confined : entryId ∈ manifest.confinedEntries) :
      (manifest.toRemote default 0).children.get? name = some entryId ↔
        manifest.base.children.get? name = some entryId ∧ entryId ∈ manifest.filteredEntries := by
    rw [get?_toRemote_eq_some_iff]
    exact or_iff_left fun visible => visible.2.2 confined
  rw [canRestore_iff]
  · constructor
    · intro fits name entryId known filtered confined
      exact fits name entryId ((uploaded confined).mpr ⟨known, filtered⟩) confined
    · intro fits name entryId found confined
      obtain ⟨known, filtered⟩ := (uploaded confined).mp found
      exact fits name entryId known filtered confined
  · intro first second entryId confined atFirst atSecond
    exact unique first second entryId ((uploaded confined).mp atFirst).1 ((uploaded confined).mp atSecond).1

theorem fromRemote_fits_iff {remote : RemoteFolderishManifest} (unique : remote.children.values.Nodup) :
    (∃ next, fromRemote remote patternFilter (some manifest) now = .ok next) ↔
      manifest.RemoteFits patternFilter remote := by
  have injective := Dict.injective_iff_nodup_values.mpr unique
  rw [fromRemote_returns_iff, canRestore_iff fun first second entryId _ => injective first second entryId]
  rfl

/-- A merge in one order returns if the remote version can be loaded and a conflict, if there is
one, can be solved. -/
theorem mergeManifests_returns_in_order_iff {localAuthor : DeviceID} {remote : RemoteFolderishManifest}
    {ids : List EntryID} (newer : manifest.baseVersion < remote.version) :
    (∃ next, mergeManifests normalize localAuthor patternFilter manifest (some remote) false ids now =
      .ok next) ↔
      ∃ localFromRemote, fromRemote remote patternFilter (some manifest) now = .ok localFromRemote ∧
        (manifest.Diverges remote → remote.author ≠ localAuthor → ∃ children,
          mergeFolderChildren normalize (manifest.conflictWith localFromRemote remote) ids =
            .ok children) := by
  rw [mergeManifests, reapplyFilter, if_neg (by simp), Except.ok_bind]
  simp only [if_neg (Nat.not_le.mpr newer), Except.bind_eq_ok_iff]
  rw [exists_comm]
  refine exists_congr fun localFromRemote => ?_
  rw [exists_and_left]
  refine and_congr_right fun loaded => ?_
  by_cases marked : manifest.needSync = false
  · simp [marked, Diverges]
  by_cases matched : manifest.matchRemote remote = true
  · simp [marked, matched, Diverges]
  have diverges : manifest.Diverges remote := ⟨by simpa using marked, by simpa using matched⟩
  by_cases own : remote.author = localAuthor
  · simp [marked, matched, own]
  · simp only [if_neg marked, if_neg matched, if_neg own, Except.bind_eq_ok_iff,
      Except.mapError_eq_ok_iff, Except.pure_eq_ok_iff]
    constructor
    · rintro ⟨_, children, solved, -⟩ _ _
      exact ⟨children, solved⟩
    · intro solved
      obtain ⟨children, merged⟩ := solved diverges own
      exact ⟨_, children, merged, rfl⟩

/-- A merge returns, whatever the order of its walk, if the remote version can be loaded and no name
is refused that a conflict demands. -/
theorem mergeManifests_returns_iff {localAuthor : DeviceID} {remote : RemoteFolderishManifest}
    (newer : manifest.baseVersion < remote.version) :
    (∀ ids, manifest.Walks remote patternFilter now ids → ∃ next,
      mergeManifests normalize localAuthor patternFilter manifest (some remote) false ids now = .ok next) ↔
      ∃ localFromRemote, fromRemote remote patternFilter (some manifest) now = .ok localFromRemote ∧
        (manifest.Diverges remote → remote.author ≠ localAuthor →
          (manifest.conflictWith localFromRemote remote).NamesFit normalize) := by
  simp only [mergeManifests_returns_in_order_iff newer, Walks, Option.mem_def, Except.toOption_eq_some_iff]
  constructor
  · intro returns
    obtain ⟨ids, walks⟩ : ∃ ids, ∀ localFromRemote,
        fromRemote remote patternFilter (some manifest) now = .ok localFromRemote →
        (manifest.conflictWith localFromRemote remote).IsWalk ids := by
      cases loaded : fromRemote remote patternFilter (some manifest) now with
      | error _ => exact ⟨[], by simp⟩
      | ok localFromRemote =>
        obtain ⟨ids, walk⟩ := exists_walk_from (manifest.conflictWith localFromRemote remote) []
          List.nodup_nil (by simp)
        refine ⟨ids, ?_⟩
        rintro _ ⟨⟩
        exact walk
    obtain ⟨localFromRemote, loaded, -⟩ := returns ids walks
    refine ⟨localFromRemote, loaded, fun diverges foreign => ?_⟩
    refine mergeFolderChildren_returns_iff.mp fun ids walk => ?_
    obtain ⟨again, reloaded, solved⟩ := returns ids fun again reloaded => by
      cases loaded.symm.trans reloaded
      exact walk
    cases loaded.symm.trans reloaded
    exact solved diverges foreign
  · rintro ⟨localFromRemote, loaded, fit⟩ ids walks
    refine ⟨localFromRemote, loaded, fun diverges foreign => ?_⟩
    exact mergeFolderChildren_returns_iff.mpr (fit diverges foreign) ids (walks localFromRemote loaded)

section Uploads

variable {remoteChildren : Dict EntryName EntryID} {name : EntryName} {entryId : EntryID}
  {author : DeviceID} {timestamp : DateTime}

/-- An entry that gets hidden is uploaded under its base name. -/
theorem uploads_hidden (base : next.base = manifest.base)
    (rebuilt : manifest.Rebuilt remoteChildren patternFilter next)
    (hidden : Hides remoteChildren patternFilter entryId)
    (known : entryId ∈ manifest.base.children.values) :
    entryId ∈ (next.toRemote author timestamp).children.values := by
  obtain ⟨baseName, found⟩ := Dict.mem_values_iff.mp known
  refine Dict.mem_values_iff.mpr ⟨baseName, get?_toRemote_eq_some_iff.mpr (.inl ?_)⟩
  rw [base]
  exact ⟨found, (rebuilt.filtered entryId).mpr hidden⟩

/-- An entry that stays visible is uploaded under its name, unless something is laid over it. -/
theorem uploads_untangled (base : next.base = manifest.base)
    (rebuilt : manifest.Rebuilt remoteChildren patternFilter next)
    (untangled : manifest.Untangled patternFilter remoteChildren name entryId)
    (remote : remoteChildren.get? name = some entryId)
    (visible : ¬ Hides remoteChildren patternFilter entryId) :
    entryId ∈ (next.toRemote author timestamp).children.values := by
  refine Dict.mem_values_iff.mpr ⟨name, get?_toRemote_eq_some_iff.mpr (.inr ⟨?_, ?_, ?_⟩)⟩
  · intro other found filtered
    rw [base] at found
    rw [rebuilt.filtered] at filtered
    by_cases same : other = entryId
    · exact visible (same ▸ filtered)
    · exact untangled.baseName other found same filtered
  · rw [rebuilt.children]
    by_cases covered : ∃ other, manifest.Restores remoteChildren patternFilter name other
    · obtain ⟨other, stands, reason⟩ := covered
      by_cases same : other = entryId
      · exact .inl (same ▸ ⟨stands, reason⟩)
      · exact absurd reason (not_or.mpr (untangled.localName other stands same))
    · exact .inr ⟨not_exists.mp covered, remote, visible⟩
  · rw [rebuilt.confined]
    rintro ⟨other, ⟨shown, -⟩, matched⟩
    exact untangled.entry other shown matched

end Uploads

end LocalFolderishManifest

/-- In every state of a folder manifest: a new filter and a later remote version are taken without an
error exactly if no confined entry is in the way and no name grows too long. -/
theorem filter_and_merge_return_iff (normalize : String → String) (start manifest : LocalFolderishManifest)
    (initial : Initial start) (events : List FolderEvent)
    (reached : run? (step? normalize) start events = some manifest) (patternFilter : Pattern)
    (localAuthor : DeviceID) (remote : RemoteFolderishManifest) (unique : remote.children.values.Nodup)
    (newer : manifest.baseVersion < remote.version) (now : DateTime) :
    ((∃ next, manifest.applyFilter patternFilter now = .ok next) ∧
      ∀ ids, manifest.Walks remote patternFilter now ids → ∃ next,
        mergeManifests normalize localAuthor patternFilter manifest (some remote) false ids now =
          .ok next) ↔
      manifest.FilterFits patternFilter ∧ manifest.RemoteFits patternFilter remote ∧
        (manifest.Diverges remote → remote.author ≠ localAuthor → ∀ localFromRemote,
          fromRemote remote patternFilter (some manifest) now = .ok localFromRemote →
          (manifest.conflictWith localFromRemote remote).NamesFit normalize) := by
  have base : manifest.base.children.Injective := run?_preserves
    (fun state event next step => injective_base_of_step step) reached (injective_base_initial initial)
  rw [applyFilter_returns_iff default 0, canRestore_toRemote_iff base, mergeManifests_returns_iff newer,
    ← fromRemote_fits_iff unique]
  refine and_congr_right fun _ => ?_
  constructor
  · rintro ⟨localFromRemote, loaded, fit⟩
    refine ⟨⟨localFromRemote, loaded⟩, fun diverges foreign again reloaded => ?_⟩
    cases loaded.symm.trans reloaded
    exact fit diverges foreign
  · rintro ⟨⟨localFromRemote, loaded⟩, fit⟩
    exact ⟨localFromRemote, loaded, fun diverges foreign =>
      fit diverges foreign localFromRemote loaded⟩

/-- A new filter keeps an entry that is to be uploaded if it matches the name and the base has the
entry, or if it does not match and nothing is tangled up with the name or the entry. An entry that only
this device has becomes confined if the filter matches. -/
theorem apply_filter_keeps_uploads (manifest next : LocalFolderishManifest) (patternFilter : Pattern)
    (now : DateTime) (applied : manifest.applyFilter patternFilter now = .ok next) (author : DeviceID)
    (timestamp : DateTime) (name : EntryName) (entryId : EntryID)
    (uploaded : (manifest.toRemote author timestamp).children.get? name = some entryId) :
    (patternFilter name ∧ entryId ∈ manifest.base.children.values ∨
      ¬ patternFilter name ∧ manifest.Untangled patternFilter
        (manifest.toRemote author timestamp).children name entryId →
      entryId ∈ (next.toRemote author timestamp).children.values) ∧
    (patternFilter name → entryId ∉ manifest.base.children.values →
      entryId ∈ next.confinedEntries ∧ entryId ∉ (next.toRemote author timestamp).children.values) := by
  obtain ⟨base, rebuilt⟩ := rebuilt_of_applyFilter applied author timestamp
  refine ⟨?_, ?_⟩
  · rintro (⟨matched, known⟩ | ⟨unmatched, untangled⟩)
    · exact uploads_hidden base rebuilt ⟨name, uploaded, matched⟩ known
    · by_cases hidden : Hides (manifest.toRemote author timestamp).children patternFilter entryId
      · obtain ⟨other, found, matched⟩ := id hidden
        rcases of_get?_toRemote found with ⟨known, -⟩ | ⟨shown, -⟩
        · exact uploads_hidden base rebuilt hidden (Dict.mem_values_iff.mpr ⟨other, known⟩)
        · exact absurd matched (untangled.entry other shown)
      · exact uploads_untangled base rebuilt untangled uploaded hidden
  · intro matched unknown
    have shown : manifest.children.get? name = some entryId := by
      rcases of_get?_toRemote uploaded with ⟨known, -⟩ | ⟨shown, -⟩
      · exact absurd (Dict.mem_values_iff.mpr ⟨name, known⟩) unknown
      · exact shown
    have confined : entryId ∈ next.confinedEntries :=
      (rebuilt.confined entryId).mpr ⟨name, ⟨shown, .inr ⟨name, uploaded, matched⟩⟩, matched⟩
    refine ⟨confined, fun present => ?_⟩
    obtain ⟨other, found⟩ := Dict.mem_values_iff.mp present
    rcases of_get?_toRemote found with ⟨known, -⟩ | ⟨-, unconfined⟩
    · rw [base] at known
      exact unknown (Dict.mem_values_iff.mpr ⟨other, known⟩)
    · exact unconfined confined

section Example

private def dotTmp : Pattern := fun name => name = "a.tmp" ∨ name = "b.tmp"

private def unfiltered : Pattern := fun _ => false

private def versionOf (version : ℕ) (children : List (EntryName × EntryID)) : RemoteFolderishManifest :=
  ⟨⟨"bob", "desktop"⟩, version, 5, none, version, 1, version, .ofList children⟩

private def under (patternFilter : Pattern) (now : DateTime) (change : FolderChange) : FolderEvent :=
  { patternFilter := patternFilter, now := now, change := change }

/-- A temporary file beside a synchronized one is in nobody's way. -/
theorem filter_and_merge_return_beside_temporary :
    ∃ start manifest, fromRemote (versionOf 1 [("a.txt", 1)]) dotTmp none 1 = .ok start ∧
      run? (step? id) start [under dotTmp 2 (.create "a.tmp" 2)] = some manifest ∧
      (∃ next, manifest.applyFilter unfiltered 3 = .ok next) ∧
      ∀ ids, manifest.Walks (versionOf 2 [("a.txt", 1), ("b.txt", 3)]) unfiltered 3 ids → ∃ next,
        mergeManifests id ⟨"alice", "laptop"⟩ unfiltered manifest
          (some (versionOf 2 [("a.txt", 1), ("b.txt", 3)])) false ids 3 = .ok next := by
  refine ⟨_, _, rfl, rfl, (filter_and_merge_return_iff id _ _ (.fromRemote (versionOf 1 [("a.txt", 1)])
    dotTmp 1 _ (by decide) rfl) [under dotTmp 2 (.create "a.tmp" 2)] rfl unfiltered ⟨"alice", "laptop"⟩ _
      (by decide) (by decide) 3).mpr
      ⟨?_, ?_, ?_⟩⟩
  · intro name entryId _ filtered
    exact absurd filtered (Finset.notMem_empty _)
  · intro name entryId found confined
    obtain rfl := Finset.mem_singleton.mp confined
    exact absurd (Dict.mem_values_iff.mpr ⟨name, found⟩) (by decide)
  · rintro ⟨marked, -⟩
    cases marked

/-- A file is renamed to a confined name; then Bob adds another file, and his version is refused again
and again. A hidden file is renamed among the names that the filter matches; then no filter can be
applied that does not hide it. -/
theorem confined_rename_blocks_the_folder :
    (∃ start manifest, fromRemote (versionOf 1 [("a.txt", 1)]) dotTmp none 1 = .ok start ∧
      run? (step? id) start [under dotTmp 2 (.rename "a.txt" "a.tmp" true)] = some manifest ∧
      (versionOf 2 [("a.txt", 1), ("b.txt", 2)]).children.values.Nodup ∧
      manifest.baseVersion < (versionOf 2 [("a.txt", 1), ("b.txt", 2)]).version ∧
      ∀ ids, mergeManifests id ⟨"alice", "laptop"⟩ dotTmp manifest
        (some (versionOf 2 [("a.txt", 1), ("b.txt", 2)])) false ids 3 = .error .duplicatedEntryId) ∧
    ∃ start manifest, fromRemote (versionOf 1 [("a.tmp", 1)]) unfiltered none 1 = .ok start ∧
      run? (step? id) start [under dotTmp 2 .applyFilter, under dotTmp 3 (.rename "a.tmp" "b.tmp" true)] =
        some manifest ∧
      manifest.applyFilter unfiltered 4 = .error .duplicatedEntryId :=
  ⟨⟨_, _, rfl, rfl, by decide, by decide, fun _ => rfl⟩, _, _, rfl, rfl, rfl⟩

private def hiddenTmp : LocalFolderishManifest where
  base := versionOf 1 [("a.tmp", 1)]
  needSync := false
  updated := 1
  children := .ofList [("a.tmp", 1)]
  confinedEntries := {1}
  filteredEntries := {1}

/-- The filter is dropped: the file that it hid is still uploaded. -/
theorem apply_filter_keeps_uploads_unhidden :
    ∃ start next, fromRemote (versionOf 1 [("a.tmp", 1)]) unfiltered none 1 = .ok start ∧
      run? (step? id) start [under dotTmp 2 .applyFilter] = some hiddenTmp ∧
      hiddenTmp.applyFilter unfiltered 3 = .ok next ∧
      (1 : EntryID) ∈ (next.toRemote ⟨"alice", "laptop"⟩ 4).children.values := by
  refine ⟨_, _, rfl, rfl, rfl, (apply_filter_keeps_uploads hiddenTmp _ unfiltered 3 rfl
    ⟨"alice", "laptop"⟩ 4 "a.tmp" 1 rfl).1 (.inr ⟨Bool.false_ne_true, fun _ _ => Bool.false_ne_true, ?_, ?_⟩)⟩
  · intro other found different
    cases found
    exact absurd rfl different
  · intro other found different
    cases found
    exact absurd rfl different

/-- A file that was never uploaded becomes confined and is uploaded no more. And the other way
round, a hidden file of the remote side is dropped when a confined one that was created under its
name becomes visible. -/
theorem new_filter_drops_uploads :
    (∃ start manifest next, fromRemote (versionOf 1 []) unfiltered none 1 = .ok start ∧
      run? (step? id) start [under unfiltered 2 (.create "a.tmp" 5)] = some manifest ∧
      manifest.applyFilter dotTmp 3 = .ok next ∧
      (manifest.toRemote ⟨"alice", "laptop"⟩ 4).children.values = [5] ∧
      (next.toRemote ⟨"alice", "laptop"⟩ 4).children.values = []) ∧
    ∃ start manifest next, fromRemote (versionOf 1 [("a.tmp", 1)]) dotTmp none 1 = .ok start ∧
      run? (step? id) start [under dotTmp 2 (.create "a.tmp" 5)] = some manifest ∧
      manifest.applyFilter unfiltered 3 = .ok next ∧
      (manifest.toRemote ⟨"alice", "laptop"⟩ 4).children.values = [1] ∧
      (next.toRemote ⟨"alice", "laptop"⟩ 4).children.values = [5] :=
  ⟨⟨_, _, _, rfl, rfl, rfl, rfl, rfl⟩, _, _, _, rfl, rfl, rfl, rfl, rfl⟩

end Example

end Guardata
