import Guardata.Machine.Run
import Guardata.Proofs.EntryTransactions

/-! # Under how many names an entry is uploaded

`toRemote` puts the filtered entries back under the names of the base, wherever they are by now. An
entry that is filtered and not confined is therefore uploaded twice if it has another name locally.
This never happens in the life of a manifest whose steps leave every hidden entry under a name that
the filter matches too.
-/

namespace Guardata

open Machine LocalFolderishManifest

namespace LocalFolderishManifest

/-- No entry has two names, and a filtered one that is shown under another name is confined. -/
structure OneName (manifest : LocalFolderishManifest) : Prop where
  base : manifest.base.children.Injective
  children : manifest.children.Injective
  hidden : ∀ name remoteName entryId, manifest.children.get? name = some entryId →
    entryId ∈ manifest.filteredEntries → manifest.base.children.get? remoteName = some entryId →
    remoteName = name ∨ entryId ∈ manifest.confinedEntries

/-- The step leaves no entry hidden remotely, under a name of the base, while it is shown under
another name that the filter does not match. -/
def KeepsHiddenNames (manifest : LocalFolderishManifest) (event : FolderEvent) : Prop :=
  match event.change with
  | .rename source destination _ => ∀ remoteName entryId,
      manifest.children.get? source = some entryId → entryId ∈ manifest.filteredEntries →
      manifest.base.children.get? remoteName = some entryId →
      remoteName = destination ∨ event.patternFilter destination
  | .applyFilter => ∀ name remoteName entryId, manifest.children.get? name = some entryId →
      entryId ∈ manifest.filteredEntries → manifest.base.children.get? remoteName = some entryId →
      event.patternFilter remoteName → event.patternFilter name
  | .merge localAuthor remote _ => manifest.baseVersion < remote.version →
      (manifest.Diverges remote ∧ remote.author = localAuthor →
        ∀ name remoteName entryId, manifest.children.get? name = some entryId →
          entryId ∈ manifest.filteredEntries → remote.children.get? remoteName = some entryId →
          remoteName = name ∨ entryId ∈ manifest.confinedEntries) ∧
      (¬ (manifest.Diverges remote ∧ remote.author = localAuthor) →
        ∀ name remoteName entryId, manifest.children.get? name = some entryId →
          remote.children.get? remoteName = some entryId → event.patternFilter remoteName →
          event.patternFilter name)
  | .create .. | .folderDelete _ | .fileDelete _ => True

section Steps

variable {normalize : String → String} {manifest next : LocalFolderishManifest} {event : FolderEvent}

theorem OneName.injective_toRemote (one : manifest.OneName) (author : DeviceID) (timestamp : DateTime) :
    (manifest.toRemote author timestamp).children.Injective := by
  intro first second entryId atFirst atSecond
  rcases of_get?_toRemote atFirst with ⟨base, filtered⟩ | ⟨shown, visible⟩ <;>
    rcases of_get?_toRemote atSecond with ⟨base', filtered'⟩ | ⟨shown', visible'⟩
  · exact one.base first second entryId base base'
  · exact (one.hidden second first entryId shown' filtered base).resolve_right visible'
  · exact ((one.hidden first second entryId shown filtered' base').resolve_right visible).symm
  · exact one.children first second entryId shown shown'

theorem oneName_initial (initial : Initial manifest) : manifest.OneName := by
  cases initial with
  | newPlaceholder author id parent now =>
    constructor
    · intro first second value found
      cases found
    · intro first second value found
      cases found
    · intro name remoteName entryId found
      cases found
  | fromRemote remote patternFilter now manifest unique loaded =>
    cases loaded
    have injective := Dict.injective_iff_nodup_values.mpr unique
    constructor
    · rw [(filterRemoteEntries_kept _ patternFilter).1]
      exact injective
    · intro first second entryId atFirst atSecond
      exact injective first second entryId (get?_filterRemoteEntries.mp atFirst).1
        (get?_filterRemoteEntries.mp atSecond).1
    · intro name remoteName entryId shown filtered known
      rw [mem_filteredEntries_filterRemoteEntries rfl] at filtered
      exact absurd filtered (get?_filterRemoteEntries.mp shown).2

/-- Rebuilding keeps the invariant if what it hides under one name is matched under the other. -/
theorem OneName.rebuilt (one : manifest.OneName) {remoteChildren : Dict EntryName EntryID}
    {patternFilter : Pattern} (rebuilt : manifest.Rebuilt remoteChildren patternFilter next)
    (can : manifest.CanRestore remoteChildren patternFilter) (unique : remoteChildren.Injective)
    (base : next.base.children.Injective)
    (covered : ∀ name remoteName entryId, manifest.children.get? name = some entryId →
      next.base.children.get? remoteName = some entryId → Hides remoteChildren patternFilter entryId →
      remoteName = name ∨ patternFilter name) : next.OneName where
  base := base
  children := by
    intro first second entryId atFirst atSecond
    rw [rebuilt.children] at atFirst atSecond
    rcases atFirst with restored | ⟨bare, remote, visible⟩ <;>
      rcases atSecond with restored' | ⟨bare', remote', visible'⟩
    · exact one.children first second entryId restored.1 restored'.1
    · obtain ⟨other, restores⟩ := can second entryId remote' visible'
        (restored.2.resolve_right visible') (Dict.mem_values_iff.mpr ⟨first, restored.1⟩)
      exact absurd restores (bare' other)
    · obtain ⟨other, restores⟩ := can first entryId remote visible
        (restored'.2.resolve_right visible) (Dict.mem_values_iff.mpr ⟨second, restored'.1⟩)
      exact absurd restores (bare other)
    · exact unique first second entryId remote remote'
  hidden := by
    intro name remoteName entryId shown filtered known
    rw [rebuilt.filtered] at filtered
    rcases (rebuilt.children name entryId).mp shown with restored | ⟨-, -, visible⟩
    · rcases covered name remoteName entryId restored.1 known filtered with same | matched
      · exact .inl same
      · exact .inr ((rebuilt.confined entryId).mpr ⟨name, restored, matched⟩)
    · exact absurd filtered visible

/-- The edits of one or two names, by what they say about a name. -/
theorem get?_ofList_pair {first second : EntryName} {left right : Option EntryID}
    (name : EntryName) : (Dict.ofList [(first, left), (second, right)]).get? name =
      if name = second then some right else if name = first then some left else none := by
  change ((Dict.insert (Dict.insert ∅ first left) second right).get? name) = _
  rw [Dict.get?_insert, Dict.get?_insert, Dict.get?_empty]

theorem get?_ofList_single {first : EntryName} {left : Option EntryID} (name : EntryName) :
    (Dict.ofList [(first, left)]).get? name = if name = first then some left else none := by
  change ((Dict.insert ∅ first left).get? name) = _
  rw [Dict.get?_insert, Dict.get?_empty]

/-- An edit keeps the invariant if each entry it adds is new, or moved from a name that it drops,
and does not leave the shelter of the filter. -/
theorem OneName.edit (one : manifest.OneName) {data : Dict EntryName (Option EntryID)}
    (edited : manifest.evolveChildrenAndMarkUpdated data event.patternFilter event.now = .ok next)
    (once : ∀ first second entryId, data.get? first = some (some entryId) →
      data.get? second = some (some entryId) → first = second)
    (sheltered : ∀ name remoteName entryId, data.get? name = some (some entryId) →
      entryId ∈ manifest.filteredEntries → manifest.base.children.get? remoteName = some entryId →
      remoteName = name ∨ event.patternFilter name) : next.OneName := by
  obtain ⟨-, base, filtered, -⟩ := evolveChildrenAndMarkUpdated_eq_ok edited
  have returns := evolveChildren_returns_iff.mp ⟨next, edited⟩
  have after : ∀ name entryId, next.children.get? name = some entryId →
      data.get? name = some (some entryId) ∨
        (data.get? name = none ∧ manifest.children.get? name = some entryId) := by
    intro name entryId found
    rw [get?_evolveChildren edited] at found
    cases mentioned : data.get? name with
    | none => exact .inr ⟨rfl, by simpa [mentioned] using found⟩
    | some added => exact .inl (by simpa [mentioned] using found)
  constructor
  · rw [base]
    exact one.base
  · intro first second entryId atFirst atSecond
    rcases after first entryId atFirst with added | ⟨untouched, kept⟩ <;>
      rcases after second entryId atSecond with added' | ⟨untouched', kept'⟩
    · exact once first second entryId added added'
    · exact absurd (returns first second entryId added kept') (Dict.get?_eq_none_iff.mp untouched')
    · exact absurd (returns second first entryId added' kept) (Dict.get?_eq_none_iff.mp untouched)
    · exact one.children first second entryId kept kept'
  · intro name remoteName entryId shown hides known
    rw [filtered] at hides
    rw [base] at known
    rw [mem_confinedEntries_evolveChildren edited]
    rcases after name entryId shown with added | ⟨untouched, kept⟩
    · rcases sheltered name remoteName entryId added hides known with same | matched
      · exact .inl same
      · exact .inr (.inr ⟨name, added, matched⟩)
    · rcases one.hidden name remoteName entryId kept hides known with same | confined
      · exact .inl same
      · refine .inr (.inl ⟨confined, fun other mentioned found => ?_⟩)
        obtain rfl := one.children other name entryId found kept
        exact absurd mentioned (Dict.get?_eq_none_iff.mp untouched)

/-- The step lemma. -/
theorem OneName.step (one : manifest.OneName) (keeps : manifest.KeepsHiddenNames event)
    (step : manifest.step? normalize event = some next) : next.OneName := by
  cases changes_of_step step with
  | unchanged => exact one
  | @created name childId _ called fresh absent edited =>
    apply one.edit edited
    · intro first second entryId atFirst atSecond
      rw [get?_ofList_single] at atFirst atSecond
      split at atFirst <;> split at atSecond <;> simp_all
    · intro other remoteName entryId added filtered
      rw [get?_ofList_single] at added
      split at added <;> cases added
      exact absurd filtered fresh.2.2.2
  | @renamed source destination overwrite entryId _ called stands different edited =>
    rw [KeepsHiddenNames, called] at keeps
    apply one.edit edited
    · intro first second other atFirst atSecond
      rw [get?_ofList_pair] at atFirst atSecond
      split at atFirst <;> split at atSecond <;> simp_all
    · intro other remoteName moved added filtered known
      rw [get?_ofList_pair] at added
      split at added
      · cases added
      · split at added <;> cases added
        next here =>
        subst here
        exact keeps remoteName entryId stands filtered known
  | deleted edited =>
    apply one.edit edited
    · intro first second entryId atFirst
      rw [get?_ofList_single] at atFirst
      split at atFirst <;> cases atFirst
    · intro other remoteName entryId added
      rw [get?_ofList_single] at added
      split at added <;> cases added
  | filtered called applied =>
    rw [KeepsHiddenNames, called] at keeps
    obtain ⟨base, rebuilt⟩ := rebuilt_of_applyFilter applied default 0
    apply one.rebuilt rebuilt ((applyFilter_returns_iff default 0).mp ⟨next, applied⟩)
      (one.injective_toRemote default 0) (by rw [base]; exact one.base)
    rintro name remoteName entryId shown known ⟨uploaded, there, matched⟩
    rw [base] at known
    rcases of_get?_toRemote there with ⟨restored, filtered⟩ | ⟨visible, -⟩
    · obtain rfl := one.base remoteName uploaded entryId known restored
      exact .inr (keeps name remoteName entryId shown filtered known matched)
    · obtain rfl := one.children name uploaded entryId shown visible
      exact .inr matched
  | adopted called unique newer agrees loaded =>
    rw [KeepsHiddenNames, called] at keeps
    have injective := Dict.injective_iff_nodup_values.mpr unique
    obtain ⟨base, rebuilt⟩ := rebuilt_of_fromRemote loaded
    apply one.rebuilt rebuilt (fromRemote_returns_iff.mp ⟨next, loaded⟩) injective (by rwa [base])
    rintro name remoteName entryId shown known ⟨uploaded, there, matched⟩
    rw [base] at known
    obtain rfl := injective remoteName uploaded entryId known there
    exact .inr ((keeps newer).2 (fun both => agrees both.1) name remoteName entryId shown known matched)
  | acknowledged called unique newer diverges own =>
    rw [KeepsHiddenNames, called] at keeps
    exact ⟨Dict.injective_iff_nodup_values.mpr unique, one.children,
      (keeps newer).1 ⟨diverges, own⟩⟩
  | @reconciled localAuthor remote ids localFromRemote children called unique newer diverges foreign loaded
      walk merged =>
    rw [KeepsHiddenNames, called] at keeps
    have injective := Dict.injective_iff_nodup_values.mpr unique
    obtain ⟨base, rebuilt⟩ := rebuilt_of_fromRemote loaded
    have matches' : ∀ name remoteName entryId, manifest.children.get? name = some entryId →
        remote.children.get? remoteName = some entryId → event.patternFilter remoteName →
        event.patternFilter name := (keeps newer).2 fun both => foreign both.2
    have fetched : localFromRemote.OneName := by
      apply one.rebuilt rebuilt (fromRemote_returns_iff.mp ⟨_, loaded⟩) injective (by rwa [base])
      rintro name remoteName entryId shown known ⟨uploaded, there, matched⟩
      rw [base] at known
      obtain rfl := injective remoteName uploaded entryId known there
      exact .inr (matches' name remoteName entryId shown known matched)
    obtain ⟨mergedInjective, known⟩ := mergeFolderChildren_injective walk merged
    refine ⟨fetched.base, mergedInjective, ?_⟩
    intro name remoteName entryId shown filtered remoteKnown
    refine .inr ?_
    -- A hidden entry is in the merge only because it is there locally, and then it is confined.
    rw [rebuilt.filtered] at filtered
    obtain ⟨uploaded, there, matched⟩ := id filtered
    have present : ∃ original, manifest.children.get? original = some entryId := by
      rcases known entryId (Dict.mem_values_iff.mpr ⟨name, shown⟩) with locally | remotely
      · exact Dict.mem_values_iff.mp locally
      · obtain ⟨original, found⟩ := Dict.mem_values_iff.mp remotely
        rcases (rebuilt.children original entryId).mp found with restored | ⟨-, -, visible⟩
        · exact ⟨original, restored.1⟩
        · exact absurd filtered visible
    obtain ⟨original, stands⟩ := present
    exact (rebuilt.confined entryId).mpr ⟨original, ⟨stands, .inr filtered⟩,
      matches' original uploaded entryId stands there matched⟩

end Steps

end LocalFolderishManifest

/-- In every life of a folder manifest whose steps keep the names of hidden entries, no entry is
ever uploaded under two names. -/
theorem uploaded_under_one_name (normalize : String → String) (start manifest : LocalFolderishManifest)
    (initial : Initial start) (events : List FolderEvent)
    (keeps : Along (step? normalize) (fun state event _ => state.KeepsHiddenNames event) start events)
    (reached : run? (step? normalize) start events = some manifest) (author : DeviceID)
    (timestamp : DateTime) : (manifest.toRemote author timestamp).children.Injective := by
  have one : manifest.OneName := run?_invariant
    (fun state event next step keeps one => one.step keeps step) keeps reached (oneName_initial initial)
  exact one.injective_toRemote author timestamp

section Example

private def tmpFiles : Pattern := fun name => name = "a.tmp" ∨ name = "b.tmp"

private def remoteNamed (author : DeviceID) (version : ℕ) (name : EntryName) : RemoteFolderishManifest :=
  ⟨author, version, 5, none, version, 1, version, .ofList [(name, 7)]⟩

private def eventAt (now : DateTime) (change : FolderChange) : FolderEvent :=
  { patternFilter := tmpFiles, now := now, change := change }

/-- A hidden file is brought back by the filter that hides it, and renamed to a name that the filter
matches as well. -/
private def hiddenAndRenamed : List FolderEvent :=
  [eventAt 2 .applyFilter, eventAt 3 (.rename "a.tmp" "b.tmp" true)]

theorem uploaded_under_one_name_renamed :
    ∃ start manifest,
      fromRemote (remoteNamed ⟨"bob", "desktop"⟩ 1 "a.tmp") (fun _ => false) none 1 = .ok start ∧
      run? (step? id) start hiddenAndRenamed = some manifest ∧
      (manifest.toRemote ⟨"alice", "laptop"⟩ 4).children.Injective := by
  refine ⟨_, _, rfl, rfl, uploaded_under_one_name id _ _
    (.fromRemote (remoteNamed ⟨"bob", "desktop"⟩ 1 "a.tmp") (fun _ => false) 1 _ (by decide) rfl)
    hiddenAndRenamed ?_ rfl ⟨"alice", "laptop"⟩ 4⟩
  intro filtered step
  cases step
  refine ⟨?_, ?_⟩
  · intro name remoteName entryId _ hidden
    exact absurd hidden (Finset.notMem_empty _)
  · intro renamed step
    cases step
    exact ⟨fun _ _ _ _ _ => .inr rfl, trivial⟩

/-- Bob renames a file to a name that Alice's filter hides. Alice's device keeps showing it under its
old name, and is to upload it under both. -/
theorem hidden_rename_uploaded_twice :
    ∃ start manifest, fromRemote (remoteNamed ⟨"bob", "desktop"⟩ 1 "a.txt") tmpFiles none 1 = .ok start ∧
      run? (step? id) start
        [eventAt 2 (.merge ⟨"alice", "laptop"⟩ (remoteNamed ⟨"bob", "desktop"⟩ 2 "a.tmp") [7])] =
          some manifest ∧
      manifest.needSync = true ∧
      (manifest.toRemote ⟨"alice", "laptop"⟩ 3).children.items = [("a.txt", 7), ("a.tmp", 7)] ∧
      ¬ (manifest.toRemote ⟨"alice", "laptop"⟩ 3).children.Injective := by
  refine ⟨_, _, rfl, rfl, rfl, rfl, fun unique => ?_⟩
  exact absurd (unique "a.txt" "a.tmp" 7 rfl rfl) (by decide)

end Example

end Guardata
