import Guardata.Soundness.FilterChanges

/-! # Applying a filter twice

A synchronization applies the filter again and again until it has been applied everywhere. The second
application finds what the first one hid through the base alone, so an entry that the base does not know
under a matching name is hidden by the first application only: it is confined from then on, but no longer
filtered.
-/

namespace Guardata

open LocalFolderishManifest Machine

namespace LocalFolderishManifest

/-- The base has every entry that the filter is about to hide under a name that the filter matches. -/
def BaseHides (manifest : LocalFolderishManifest) (patternFilter : Pattern) : Prop :=
  ∀ name entryId, manifest.children.get? name = some entryId → entryId ∉ manifest.confinedEntries →
    patternFilter name →
    (∀ other, manifest.base.children.get? name = some other → other ∉ manifest.filteredEntries) →
    Hides manifest.base.children patternFilter entryId

section Again

variable {manifest next again : LocalFolderishManifest} {patternFilter : Pattern} {now later : DateTime}
  {name : EntryName} {entryId : EntryID} {author : DeviceID} {timestamp : DateTime}

theorem baseHides_iff (author : DeviceID) (timestamp : DateTime) : manifest.BaseHides patternFilter ↔
    ∀ entryId, Hides (manifest.toRemote author timestamp).children patternFilter entryId →
      Hides manifest.base.children patternFilter entryId := by
  constructor
  · rintro hides entryId ⟨name, found, matched⟩
    rcases get?_toRemote_eq_some_iff.mp found with ⟨known, -⟩ | ⟨bare, shown, visible⟩
    · exact ⟨name, known, matched⟩
    · exact hides name entryId shown visible matched bare
  · intro hides name entryId shown visible matched bare
    exact hides entryId ⟨name, get?_toRemote_eq_some_iff.mpr (.inr ⟨bare, shown, visible⟩), matched⟩

/-- What stands under a matching name after the filter is confined. -/
theorem confined_of_matched
    (rebuilt : manifest.Rebuilt (manifest.toRemote author timestamp).children patternFilter next)
    (shown : next.children.get? name = some entryId) (matched : patternFilter name) :
    entryId ∈ next.confinedEntries := by
  rw [rebuilt.confined]
  rcases (rebuilt.children name entryId).mp shown with restores | ⟨-, remote, visible⟩
  · exact ⟨name, restores, matched⟩
  · exact absurd ⟨name, remote, matched⟩ visible

/-- The second application hides what the first one did and the base has under a matching name. -/
theorem hides_toRemote_iff (base : next.base = manifest.base)
    (rebuilt : manifest.Rebuilt (manifest.toRemote author timestamp).children patternFilter next) :
    Hides (next.toRemote author timestamp).children patternFilter entryId ↔
      Hides (manifest.toRemote author timestamp).children patternFilter entryId ∧
        Hides manifest.base.children patternFilter entryId := by
  constructor
  · rintro ⟨name, found, matched⟩
    rcases of_get?_toRemote found with ⟨known, filtered⟩ | ⟨shown, visible⟩
    · rw [base] at known
      exact ⟨(rebuilt.filtered entryId).mp filtered, name, known, matched⟩
    · exact absurd (confined_of_matched rebuilt shown matched) visible
  · rintro ⟨hidden, name, known, matched⟩
    refine ⟨name, get?_toRemote_eq_some_iff.mpr (.inl ⟨?_, (rebuilt.filtered entryId).mpr hidden⟩), matched⟩
    rw [base]
    exact known

/-- What is hidden, or confined afterwards, is shown because it was restored. -/
theorem restores_of_shown
    (rebuilt : manifest.Rebuilt (manifest.toRemote author timestamp).children patternFilter next)
    (can : manifest.CanRestore (manifest.toRemote author timestamp).children patternFilter)
    (shown : next.children.get? name = some entryId)
    (reason : entryId ∈ next.confinedEntries ∨
      Hides (manifest.toRemote author timestamp).children patternFilter entryId) :
    manifest.Restores (manifest.toRemote author timestamp).children patternFilter name entryId := by
  rcases (rebuilt.children name entryId).mp shown with restores | ⟨bare, remote, visible⟩
  · exact restores
  · obtain ⟨other, ⟨stands, confined⟩, -⟩ := (rebuilt.confined entryId).mp (reason.resolve_right visible)
    obtain ⟨covering, restores⟩ := can name entryId remote visible (confined.resolve_right visible)
      (Dict.mem_values_iff.mpr ⟨other, stands⟩)
    exact absurd restores (bare covering)

/-- What the second application uploads beside the hidden entries is what the first one left visible. -/
theorem toRemote_of_visible
    (rebuilt : manifest.Rebuilt (manifest.toRemote author timestamp).children patternFilter next)
    (found : (next.toRemote author timestamp).children.get? name = some entryId)
    (visible : ¬ Hides (manifest.toRemote author timestamp).children patternFilter entryId) :
    next.children.get? name = some entryId ∧ entryId ∉ next.confinedEntries := by
  rcases of_get?_toRemote found with ⟨-, filtered⟩ | shown
  · exact absurd ((rebuilt.filtered entryId).mp filtered) visible
  · exact shown

/-- The base entry of a name that is left alone is not hidden. -/
theorem toRemote_of_shown (unique : manifest.base.children.Injective)
    (hides : manifest.BaseHides patternFilter) (base : next.base = manifest.base)
    (rebuilt : manifest.Rebuilt (manifest.toRemote author timestamp).children patternFilter next)
    (shown : next.children.get? name = some entryId) (unconfined : entryId ∉ next.confinedEntries) :
    (next.toRemote author timestamp).children.get? name = some entryId := by
  refine get?_toRemote_eq_some_iff.mpr (.inr ⟨fun other known filtered => ?_, shown, unconfined⟩)
  rw [base] at known
  obtain ⟨otherName, again, matched⟩ := (baseHides_iff _ _).mp hides other
    ((rebuilt.filtered other).mp filtered)
  obtain rfl := unique otherName name other again known
  exact unconfined (confined_of_matched rebuilt shown matched)

section Settled

variable (hides : manifest.BaseHides patternFilter) (base : next.base = manifest.base)
  (rebuilt : manifest.Rebuilt (manifest.toRemote author timestamp).children patternFilter next)
  (can : manifest.CanRestore (manifest.toRemote author timestamp).children patternFilter)
include hides base rebuilt

theorem hides_again_iff : Hides (next.toRemote author timestamp).children patternFilter entryId ↔
    Hides (manifest.toRemote author timestamp).children patternFilter entryId := by
  rw [hides_toRemote_iff base rebuilt]
  exact and_iff_left_of_imp ((baseHides_iff _ _).mp hides entryId)

include can

/-- The second application restores what is hidden or confined by now. -/
theorem restores_again (restores : next.Restores (next.toRemote author timestamp).children patternFilter
    name entryId) :
    manifest.Restores (manifest.toRemote author timestamp).children patternFilter name entryId := by
  obtain ⟨shown, reason⟩ := restores
  rw [hides_again_iff hides base rebuilt] at reason
  exact restores_of_shown rebuilt can shown reason

omit can in
theorem canRestore_again : next.CanRestore (next.toRemote author timestamp).children patternFilter := by
  intro name entryId found visible confined _
  rw [hides_again_iff hides base rebuilt] at visible
  exact absurd confined (toRemote_of_visible rebuilt found visible).2

variable (unique : manifest.base.children.Injective)
  (rebuiltAgain : next.Rebuilt (next.toRemote author timestamp).children patternFilter again)
include rebuiltAgain

theorem confined_again : again.confinedEntries = next.confinedEntries := by
  ext entryId
  rw [rebuiltAgain.confined]
  constructor
  · rintro ⟨name, restores, matched⟩
    exact (rebuilt.confined entryId).mpr ⟨name, restores_again hides base rebuilt can restores, matched⟩
  · intro confined
    obtain ⟨name, restores, matched⟩ := (rebuilt.confined entryId).mp confined
    exact ⟨name, ⟨(rebuilt.children name entryId).mpr (.inl restores), .inl confined⟩, matched⟩

include unique

omit can in
theorem same_again : again.children.Same next.children := by
  intro name
  apply Option.ext
  intro entryId
  rw [rebuiltAgain.children]
  constructor
  · rintro (restores | ⟨-, found, visible⟩)
    · exact restores.1
    · rw [hides_again_iff hides base rebuilt] at visible
      exact (toRemote_of_visible rebuilt found visible).1
  · intro shown
    by_cases reason : entryId ∈ next.confinedEntries ∨
        Hides (next.toRemote author timestamp).children patternFilter entryId
    · exact .inl ⟨shown, reason⟩
    · refine .inr ⟨?_, toRemote_of_shown unique hides base rebuilt shown (not_or.mp reason).1,
        (not_or.mp reason).2⟩
      rintro other ⟨stands, restored⟩
      cases shown.symm.trans stands
      exact reason restored

end Settled

end Again

/-- A second application marks nothing that the first one did not mark. -/
theorem needSync_again {manifest next again : LocalFolderishManifest} {patternFilter : Pattern}
    {now later : DateTime} (hides : manifest.BaseHides patternFilter)
    (applied : manifest.applyFilter patternFilter now = .ok next)
    (reapplied : next.applyFilter patternFilter later = .ok again) : again.needSync = next.needSync := by
  obtain ⟨base, rebuilt⟩ := rebuilt_of_applyFilter applied default 0
  have can := (applyFilter_returns_iff default 0).mp ⟨next, applied⟩
  have kept : again.needSync = false ↔ next.needSync = false := by
    rw [needSync_applyFilter_eq_false_iff reapplied default 0]
    refine and_iff_left_of_imp fun silent name entryId restores => ⟨?_, fun other found => ?_⟩
    · have first := (needSync_applyFilter_eq_false_iff applied default 0).mp silent
      exact (first.2 name entryId (restores_again hides base rebuilt can restores)).1
    · -- Only an entry that is not restored itself could be left there.
      by_contra visible
      rw [hides_again_iff hides base rebuilt] at visible
      obtain ⟨shown, unconfined⟩ := toRemote_of_visible rebuilt found visible
      obtain ⟨stands, reason⟩ := restores
      cases shown.symm.trans stands
      rw [hides_again_iff hides base rebuilt] at reason
      exact reason.elim unconfined visible
  cases first : next.needSync with
  | false => exact kept.mpr first
  | true =>
    rw [first] at kept
    simpa using kept

end LocalFolderishManifest

section Example

private def allNames : Pattern := fun _ => true

private def noNames : Pattern := fun _ => false

private def filterEvent (patternFilter : Pattern) (now : DateTime) (change : FolderChange) : FolderEvent :=
  { patternFilter := patternFilter, now := now, change := change }

private def docsFolder : RemoteFolderishManifest :=
  ⟨⟨"bob", "desktop"⟩, 1, 5, none, 1, 1, 1, .ofList [("a.tmp", 1)]⟩

private def docsPlain : LocalFolderishManifest where
  base := docsFolder
  needSync := false
  updated := 1
  children := .ofList [("a.tmp", 1)]

private def docsHidden : LocalFolderishManifest :=
  { docsPlain with confinedEntries := {1}, filteredEntries := {1} }

end Example

end Guardata
