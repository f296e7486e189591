import Guardata.Soundness.PendingChanges

/-! # A change releases what was confined because of it

An entry whose synchronization was put off because of another one is tagged as changed when the other changes, and
so are the entries that were put off because of it, and so on, in circles too.
-/

namespace Guardata.SyncContext

open PoppedWalks

variable {Time : Type} [CommRing Time] [LinearOrder Time]
variable {listed : Finset EntryID → List EntryID} {ctx : SyncContext Time} {now : Time} {entryId : EntryID}

/-- A change that is touched keeps the time at which it changed first. -/
def changedAgain (ctx : SyncContext Time) (now : Time) (entry : EntryID) : LocalChange Time :=
  ⟨((ctx.localChanges.get? entry).map LocalChange.firstChangedOn).getD now, now⟩

omit [CommRing Time] [LinearOrder Time] in
theorem changed_or_new : ((ctx.localChanges.get? entryId).map (·.changed now)).getD (.new now) =
    ctx.changedAgain now entryId := by
  rw [changedAgain]
  cases ctx.localChanges.get? entryId <;> rfl

theorem get?_touch (entry : EntryID) : (ctx.touch now entryId).2.localChanges.get? entry =
    if entry = entryId then some (ctx.changedAgain now entry) else ctx.localChanges.get? entry := by
  have inserted : (ctx.touch now entryId).2.localChanges =
      ctx.localChanges.insert entryId (ctx.changedAgain now entryId) := by
    rw [← changed_or_new]
    simp only [touch]
    split_ifs <;> rfl
  rw [inserted, Dict.get?_insert]
  by_cases same : entry = entryId
  · rw [if_pos same, if_pos same, same]
  · rw [if_neg same, if_neg same]

theorem dueTime_touch_le : (ctx.touch now entryId).2.dueTime ≤ ctx.dueTime ∧
    (ctx.touch now entryId).2.dueTime ≤ (ctx.changedAgain now entryId).dueTime := by
  simp only [touch, changed_or_new]
  split_ifs with earlier
  · exact ⟨earlier, le_rfl⟩
  · exact ⟨le_rfl, (not_le.mp earlier).le⟩

/-- What a run of touches does to every entry, and that the context is due no later than what is touched. -/
theorem touchAll_spec (now : Time) (entries : List EntryID) (wakeUp : Bool) (ctx : SyncContext Time) :
    (∀ entry, (touchAll now entries (wakeUp, ctx)).2.localChanges.get? entry =
      if entry ∈ entries then some (ctx.changedAgain now entry) else ctx.localChanges.get? entry) ∧
    (touchAll now entries (wakeUp, ctx)).2.dueTime ≤ ctx.dueTime ∧
    ∀ entry ∈ entries, (touchAll now entries (wakeUp, ctx)).2.dueTime ≤ (ctx.changedAgain now entry).dueTime := by
  induction entries generalizing wakeUp ctx with
  | nil => simp [touchAll]
  | cons first rest ih =>
    obtain ⟨changes, due, each⟩ := ih (wakeUp || (ctx.touch now first).1) (ctx.touch now first).2
    -- A second touch at the same time changes nothing.
    have again (entry : EntryID) : (ctx.touch now first).2.changedAgain now entry = ctx.changedAgain now entry := by
      rw [changedAgain, get?_touch]
      split_ifs <;> rfl
    refine ⟨fun entry => (changes entry).trans ?_, due.trans dueTime_touch_le.1, fun entry member => ?_⟩
    · rw [again, get?_touch]
      by_cases later : entry ∈ rest <;> by_cases here : entry = first <;> simp [later, here]
    · by_cases later : entry ∈ rest
      · exact again entry ▸ each entry later
      · obtain rfl := (List.mem_cons.mp member).resolve_right later
        exact due.trans dueTime_touch_le.2

/-- What was put off because of an entry, directly or not, is changed with it, the context is due no later than each
of these changes, and nothing of it is confined any more; everything else is as before. -/
theorem setLocalChange_releases (complete : ∀ members node, node ∈ listed members ↔ node ∈ members)
    (writable : ctx.readOnly = false) :
    (∀ entry, PoppedWalks.Reaches ctx.confinedEntries entryId entry →
      (ctx.setLocalChange listed now entryId).2.localChanges.get? entry = some (ctx.changedAgain now entry) ∧
      (ctx.setLocalChange listed now entryId).2.dueTime ≤ (ctx.changedAgain now entry).dueTime ∧
      (ctx.setLocalChange listed now entryId).2.confinedEntries.get? entry = none) ∧
    ∀ entry, ¬ PoppedWalks.Reaches ctx.confinedEntries entryId entry →
      (ctx.setLocalChange listed now entryId).2.localChanges.get? entry = ctx.localChanges.get? entry ∧
      (ctx.setLocalChange listed now entryId).2.confinedEntries.get? entry = ctx.confinedEntries.get? entry := by
  have visits := popWalk_visits complete (Nat.lt_succ_self ctx.confinedEntries.items.length) entryId
  rw [setLocalChange_eq writable, confinedEntries_marked]
  generalize popWalk listed (ctx.confinedEntries.items.length + 1) ctx.confinedEntries entryId = walked at visits ⊢
  have mem_iff (entry : EntryID) : entry ∈ walked.1 ↔ PoppedWalks.Reaches ctx.confinedEntries entryId entry := by
    simp [visits.mem_iff]
  obtain ⟨changes, _, each⟩ := touchAll_spec now walked.1 false { ctx with confinedEntries := walked.2 }
  refine ⟨fun entry reached => ?_, fun entry apart => ?_⟩
  · have visited := (mem_iff entry).mpr reached
    exact ⟨(changes entry).trans (if_pos visited), each entry visited, (visits.popped entry).trans (if_pos visited)⟩
  · have outside := fun visited => apart ((mem_iff entry).mp visited)
    exact ⟨(changes entry).trans (if_neg outside), (visits.popped entry).trans (if_neg outside)⟩

/-- Entries 2 and 3 wait for entry 1, which waits for entry 3. -/
def roundAbout : SyncContext ℤ :=
  { id := 0, readOnly := false, confinedEntries := .ofList [(1, {2, 3}), (3, {1}), (4, {2})] }

theorem setLocalChange_releases_roundAbout :
    (∀ entry, PoppedWalks.Reaches roundAbout.confinedEntries 1 entry →
      (roundAbout.setLocalChange SyncMonitor.ascending 10 1).2.localChanges.get? entry =
        some (roundAbout.changedAgain 10 entry) ∧
      (roundAbout.setLocalChange SyncMonitor.ascending 10 1).2.dueTime ≤ (roundAbout.changedAgain 10 entry).dueTime ∧
      (roundAbout.setLocalChange SyncMonitor.ascending 10 1).2.confinedEntries.get? entry = none) ∧
    ∀ entry, ¬ PoppedWalks.Reaches roundAbout.confinedEntries 1 entry →
      (roundAbout.setLocalChange SyncMonitor.ascending 10 1).2.localChanges.get? entry =
        roundAbout.localChanges.get? entry ∧
      (roundAbout.setLocalChange SyncMonitor.ascending 10 1).2.confinedEntries.get? entry =
        roundAbout.confinedEntries.get? entry :=
  setLocalChange_releases SyncMonitor.mem_ascending rfl

example : (roundAbout.setLocalChange SyncMonitor.ascending 10 1).2.localChanges.keys = [2, 1, 3] ∧
    (roundAbout.setLocalChange SyncMonitor.ascending 10 1).2.confinedEntries.keys = [4] := ⟨rfl, rfl⟩

end Guardata.SyncContext
