import Mathlib.Algebra.Order.Ring.Defs
import Mathlib.Tactic.Linarith
import Mathlib.Tactic.SplitIfs
import Guardata.Model.SyncMonitor

/-! # The contexts of the synchronization monitor, one change at a time

`setLocalChange` touches the entries that a walk over the confined entries visits, one after the other. What a
callback may do to a context is said once, by `Heard`; what `_compute_due_time` makes of a context is
`computeDueTime_timely`.
-/

namespace Guardata

variable {Time : Type} [CommRing Time] [LinearOrder Time]
variable {listed : Finset EntryID → List EntryID}

namespace SyncContext

open PoppedWalks

/-- Touch entries one after the other. -/
def touchAll (now : Time) (entries : List EntryID) (marked : Bool × SyncContext Time) : Bool × SyncContext Time :=
  entries.foldl
    (fun marked entry => let (wakes, ctx) := marked.2.touch now entry; (marked.1 || wakes, ctx)) marked

variable {now : Time} {ctx : SyncContext Time}

theorem touchAll_append (first second : List EntryID) (marked : Bool × SyncContext Time) :
    touchAll now (first ++ second) marked = touchAll now second (touchAll now first marked) :=
  List.foldl_append

theorem touch_confinedEntries (graph : Dict EntryID (Finset EntryID)) (entryId : EntryID) :
    { ctx with confinedEntries := graph }.touch now entryId =
      ((ctx.touch now entryId).1, { (ctx.touch now entryId).2 with confinedEntries := graph }) := by
  simp only [touch]
  split_ifs <;> rfl

theorem readOnly_touch (entryId : EntryID) : (ctx.touch now entryId).2.readOnly = ctx.readOnly := by
  simp only [touch]
  split_ifs <;> rfl

/-- The entries that are touched do not depend on what was awake before. -/
theorem touchAll_eq (entries : List EntryID) (wakeUp : Bool) (ctx : SyncContext Time) :
    touchAll now entries (wakeUp, ctx) =
      (wakeUp || (touchAll now entries (false, ctx)).1, (touchAll now entries (false, ctx)).2) := by
  induction entries generalizing wakeUp ctx with
  | nil => simp [touchAll]
  | cons entry rest ih =>
    change touchAll now rest (wakeUp || (ctx.touch now entry).1, (ctx.touch now entry).2) =
      (wakeUp || (touchAll now rest (false || (ctx.touch now entry).1, (ctx.touch now entry).2)).1,
        (touchAll now rest (false || (ctx.touch now entry).1, (ctx.touch now entry).2)).2)
    rw [ih, ih (false || (ctx.touch now entry).1), Bool.false_or, Bool.or_assoc]

theorem touchAll_confinedEntries (graph : Dict EntryID (Finset EntryID)) (entries : List EntryID) (wakeUp : Bool)
    (ctx : SyncContext Time) :
    touchAll now entries (wakeUp, { ctx with confinedEntries := graph }) =
      ((touchAll now entries (wakeUp, ctx)).1,
        { (touchAll now entries (wakeUp, ctx)).2 with confinedEntries := graph }) := by
  induction entries generalizing wakeUp ctx with
  | nil => rfl
  | cons entry rest ih =>
    change touchAll now rest (wakeUp || ({ ctx with confinedEntries := graph }.touch now entry).1,
      ({ ctx with confinedEntries := graph }.touch now entry).2) = _
    rw [touch_confinedEntries, ih]
    rfl

/-- The context after a walk: what the walk visited is touched, what it left is kept. -/
def marked (now : Time) (ctx : SyncContext Time) (walked : List EntryID × Dict EntryID (Finset EntryID)) :
    Bool × SyncContext Time :=
  touchAll now walked.1 (false, { ctx with confinedEntries := walked.2 })

theorem readOnly_touchAll (entries : List EntryID) (marked : Bool × SyncContext Time) :
    (touchAll now entries marked).2.readOnly = marked.2.readOnly := by
  induction entries generalizing marked with
  | nil => rfl
  | cons entry rest ih => exact (ih _).trans (readOnly_touch entry)

theorem confinedEntries_marked (walked : List EntryID × Dict EntryID (Finset EntryID)) :
    (marked now ctx walked).2.confinedEntries = walked.2 := by
  rw [marked, touchAll_confinedEntries]

/-- Two walks, one after the other. -/
theorem marked_append (first second : List EntryID) (between rest : Dict EntryID (Finset EntryID)) :
    marked now ctx (first ++ second, rest) =
      let before := marked now ctx (first, between)
      (before.1 || (marked now before.2 (second, rest)).1, (marked now before.2 (second, rest)).2) := by
  have same : { (marked now ctx (first, between)).2 with confinedEntries := rest } =
      (marked now ctx (first, rest)).2 := by
    rw [marked, marked, touchAll_confinedEntries, touchAll_confinedEntries rest]
  have wakes : (marked now ctx (first, between)).1 = (marked now ctx (first, rest)).1 := by
    rw [marked, marked, touchAll_confinedEntries, touchAll_confinedEntries rest]
  dsimp only
  rw [marked, touchAll_append, wakes, marked.eq_def now (marked now ctx (first, between)).2, same, ← touchAll_eq]
  rfl

/-- The recursive calls touch what a walk over the confined entries visits. -/
theorem setLocalChangeWithin_eq (writable : ctx.readOnly = false) (fuel : ℕ) (entryId : EntryID) :
    setLocalChangeWithin listed now fuel ctx entryId =
      marked now ctx (popWalk listed fuel ctx.confinedEntries entryId) := by
  induction fuel generalizing ctx entryId with
  | zero => rfl
  | succ fuel ih =>
    have inner (entries : List EntryID) (walked : List EntryID × Dict EntryID (Finset EntryID)) :
        entries.foldl
            (fun marked entry =>
              let (wakes, ctx) := setLocalChangeWithin listed now fuel marked.2 entry
              (marked.1 || wakes, ctx))
            (marked now ctx walked) =
          marked now ctx (entries.foldl
            (fun walked next => let (more, rest) := popWalk listed fuel walked.2 next; (walked.1 ++ more, rest))
            walked) := by
      induction entries generalizing walked with
      | nil => rfl
      | cons entry others ihEntries =>
        have still : (marked now ctx walked).2.readOnly = false := (readOnly_touchAll _ _).trans writable
        rw [List.foldl_cons, List.foldl_cons, ← ihEntries]
        congr 1
        dsimp only
        rw [ih still, confinedEntries_marked]
        exact (marked_append _ _ _ _).symm
    rw [setLocalChangeWithin, if_neg (by simp [writable]), popWalk]
    dsimp only
    rw [show (false, { ctx with confinedEntries := ctx.confinedEntries.erase entryId }) =
      marked now ctx ([], ctx.confinedEntries.erase entryId) from rfl, inner]
    exact (touchAll_append _ [entryId] _).symm

/-- A set of local changes is that of all entries that a walk over the confined entries visits. -/
theorem setLocalChange_eq (writable : ctx.readOnly = false) (entryId : EntryID) :
    ctx.setLocalChange listed now entryId = marked now ctx
      (popWalk listed (ctx.confinedEntries.items.length + 1) ctx.confinedEntries entryId) :=
  setLocalChangeWithin_eq writable _ entryId

theorem setLocalChange_of_readOnly (readOnly : ctx.readOnly = true) (entryId : EntryID) :
    ctx.setLocalChange listed now entryId = (false, ctx) := by
  rw [setLocalChange, setLocalChangeWithin, if_pos readOnly]

/-- Up to a bound, a context is due when there are remote changes, and when a local change is due. -/
structure DueBy (bound : Time) (ctx : SyncContext Time) : Prop where
  remote : ctx.remoteChanges.Nonempty → ctx.dueTime ≤ bound
  entries : ∀ entry change, ctx.localChanges.get? entry = some change →
    ctx.dueTime ≤ max (change.dueTime : WithTop Time) bound

/-- A context is due in time once it has loaded its changes. -/
def Timely (bound : Time) (ctx : SyncContext Time) : Prop := ctx.changesLoaded = true → ctx.DueBy bound

theorem Timely.mono {bound later : Time} (le : bound ≤ later) (timely : ctx.Timely bound) : ctx.Timely later := by
  intro loaded
  have le' : (bound : WithTop Time) ≤ later := WithTop.coe_le_coe.mpr le
  exact ⟨fun remote => ((timely loaded).remote remote).trans le',
    fun entry change found => ((timely loaded).entries entry change found).trans (max_le_max le_rfl le')⟩

/-- What a callback may do to a context, and whether it wakes the task up. -/
structure Heard (now : Time) (ctx : SyncContext Time) (heard : Bool × SyncContext Time) : Prop where
  id : heard.2.id = ctx.id
  readOnly : heard.2.readOnly = ctx.readOnly
  changesLoaded : heard.2.changesLoaded = ctx.changesLoaded
  /-- Without a wake-up the context is due as before. -/
  asleep : heard.1 = false → heard.2.dueTime = ctx.dueTime ∧ ∀ bound, ctx.Timely bound → heard.2.Timely bound
  timely : ∀ bound, now ≤ bound → ctx.Timely bound → heard.2.Timely bound
  keeps : ∀ entry, ctx.localChanges.contains entry = true → heard.2.localChanges.contains entry = true

theorem Heard.refl (ctx : SyncContext Time) : Heard now ctx (false, ctx) :=
  ⟨rfl, rfl, rfl, fun _ => ⟨rfl, fun _ timely => timely⟩, fun _ _ timely => timely, fun _ here => here⟩

theorem Heard.trans {first second : Bool × SyncContext Time} (left : Heard now ctx first)
    (right : Heard now first.2 second) : Heard now ctx (first.1 || second.1, second.2) where
  id := right.id.trans left.id
  readOnly := right.readOnly.trans left.readOnly
  changesLoaded := right.changesLoaded.trans left.changesLoaded
  asleep := by
    intro asleep
    obtain ⟨early, late⟩ := Bool.or_eq_false_iff.mp asleep
    exact ⟨(right.asleep late).1.trans (left.asleep early).1,
      fun bound timely => (right.asleep late).2 bound ((left.asleep early).2 bound timely)⟩
  timely := fun bound le timely => right.timely bound le (left.timely bound le timely)
  keeps := fun entry here => right.keeps entry (left.keeps entry here)

/-- What is due no later than before is as timely as before, but for one local change that is due. -/
theorem timely_touch (entryId : EntryID) {bound : Time} (timely : ctx.Timely bound) :
    (ctx.touch now entryId).2.Timely bound := by
  simp only [touch]
  split_ifs with earlier
  all_goals
    intro loaded
    obtain ⟨remote, entries⟩ := timely loaded
    dsimp only at earlier ⊢
  · refine ⟨fun some => earlier.trans (remote some), fun entry change found => ?_⟩
    rw [Dict.get?_insert] at found
    split_ifs at found
    · cases found
      exact le_max_left _ _
    · exact earlier.trans (entries entry change found)
  · refine ⟨remote, fun entry change found => ?_⟩
    rw [Dict.get?_insert] at found
    split_ifs at found
    · cases found
      exact (not_le.mp earlier).le.trans (le_max_left _ _)
    · exact entries entry change found

theorem contains_touch_iff (entryId entry : EntryID) :
    (ctx.touch now entryId).2.localChanges.contains entry = true ↔
      entry = entryId ∨ ctx.localChanges.contains entry = true := by
  simp only [touch]
  split_ifs <;> exact Dict.contains_insert_iff

theorem heard_touch (entryId : EntryID) : Heard now ctx (ctx.touch now entryId) where
  id := by simp only [touch]; split_ifs <;> rfl
  readOnly := readOnly_touch entryId
  changesLoaded := by simp only [touch]; split_ifs <;> rfl
  asleep := by
    intro asleep
    refine ⟨?_, fun _ => timely_touch entryId⟩
    simp only [touch] at asleep ⊢
    split_ifs at asleep ⊢
    rfl
  timely := fun _ _ => timely_touch entryId
  keeps := fun entry here => (contains_touch_iff entryId entry).mpr (.inr here)

/-- Another dictionary of confined entries changes nothing else. -/
theorem heard_confinedEntries (graph : Dict EntryID (Finset EntryID)) :
    Heard now ctx (false, { ctx with confinedEntries := graph }) := by
  have same {bound : Time} (timely : ctx.Timely bound) : { ctx with confinedEntries := graph }.Timely bound :=
    fun loaded => ⟨(timely loaded).remote, (timely loaded).entries⟩
  exact ⟨rfl, rfl, rfl, fun _ => ⟨rfl, fun _ => same⟩, fun _ _ => same, fun _ here => here⟩

theorem heard_marked (walked : List EntryID × Dict EntryID (Finset EntryID)) :
    Heard now ctx (marked now ctx walked) := by
  have start : Heard now ctx (false, { ctx with confinedEntries := walked.2 }) := heard_confinedEntries walked.2
  rw [marked]
  generalize (false, { ctx with confinedEntries := walked.2 }) = before at start ⊢
  induction walked.1 generalizing before with
  | nil => exact start
  | cons entry rest ih => exact ih _ (start.trans (heard_touch entry))

theorem contains_marked_iff (walked : List EntryID × Dict EntryID (Finset EntryID)) (entry : EntryID) :
    (marked now ctx walked).2.localChanges.contains entry = true ↔
      entry ∈ walked.1 ∨ ctx.localChanges.contains entry = true := by
  have touched (entries : List EntryID) (before : Bool × SyncContext Time) :
      (touchAll now entries before).2.localChanges.contains entry = true ↔
        entry ∈ entries ∨ before.2.localChanges.contains entry = true := by
    induction entries generalizing before with
    | nil => simp [touchAll]
    | cons first rest ih =>
      rw [List.mem_cons, or_comm (a := entry = first), or_assoc, 
        ← (contains_touch_iff first entry : (before.2.touch now first).2.localChanges.contains entry = true ↔ _)]
      exact ih (before.1 || (before.2.touch now first).1, (before.2.touch now first).2)
  exact touched _ _

theorem heard_setLocalChange (entryId : EntryID) : Heard now ctx (ctx.setLocalChange listed now entryId) := by
  cases access : ctx.readOnly with
  | true =>
    rw [setLocalChange_of_readOnly access]
    exact Heard.refl ctx
  | false =>
    rw [setLocalChange_eq access]
    exact heard_marked _

theorem dueBy_of_dueTime_le {bound : Time} (le : ctx.dueTime ≤ bound) : ctx.DueBy bound :=
  ⟨fun _ => le, fun _ _ _ => le.trans (le_max_right _ _)⟩

theorem timely_of_not_loaded {bound : Time} (unloaded : ctx.changesLoaded = false) : ctx.Timely bound :=
  fun loaded => Bool.noConfusion (unloaded.symm.trans loaded)

theorem heard_setRemoteChange (entryId : EntryID) : Heard now ctx (true, ctx.setRemoteChange now entryId) where
  id := rfl
  readOnly := rfl
  changesLoaded := rfl
  asleep := Bool.noConfusion
  timely := fun _ le _ _ => dueBy_of_dueTime_le (WithTop.coe_le_coe.mpr le)
  keeps := fun _ here => here

theorem heard_setConfinedEntry (entryId causeId : EntryID) :
    Heard now ctx (false, ctx.setConfinedEntry entryId causeId) := heard_confinedEntries _

theorem heard_dueTime : Heard now ctx (true, { ctx with dueTime := now }) where
  id := rfl
  readOnly := rfl
  changesLoaded := rfl
  asleep := Bool.noConfusion
  timely := fun _ le _ _ => dueBy_of_dueTime_le (WithTop.coe_le_coe.mpr le)
  keeps := fun _ here => here

theorem earliestDue_le {entry : EntryID} {change : LocalChange Time}
    (found : ctx.localChanges.get? entry = some change) : ctx.earliestDue ≤ change.dueTime := by
  have member : change ∈ ctx.localChanges.values := Dict.mem_values_iff.mpr ⟨entry, found⟩
  rw [earliestDue]
  generalize ctx.localChanges.values = changes at member ⊢
  induction changes with
  | nil => cases member
  | cons first rest ih =>
    rcases List.mem_cons.mp member with rfl | member
    · exact min_le_left _ _
    · exact (min_le_right _ _).trans (ih member)

/-- With no longer a wait than the bound, `_compute_due_time` gives a due time that is early enough. -/
theorem dueBy_computeDueTime {clock bound : Time} {started minDueTime : Option Time}
    (clockLe : clock ≤ bound) (startedLe : ∀ time ∈ started, time ≤ bound)
    (minLe : ∀ time ∈ minDueTime, time ≤ bound) : (ctx.computeDueTime clock started minDueTime).DueBy bound := by
  have atLeast (due : WithTop Time) :
      ((minDueTime.filter (· ≠ 0)).map fun least => max due (least : WithTop Time)).getD due ≤ max due bound := by
    cases given : minDueTime.filter (· ≠ 0) with
    | none => exact le_max_left _ _
    | some least =>
      have := minLe least (Option.filter_eq_some_iff.mp given).1
      exact max_le_max le_rfl (WithTop.coe_le_coe.mpr this)
  have nowLe : ((started.filter (· ≠ 0)).getD clock) ≤ bound := by
    cases given : started.filter (· ≠ 0) with
    | none => exact clockLe
    | some time => exact startedLe time (Option.filter_eq_some_iff.mp given).1
  by_cases remote : ctx.remoteChanges.Nonempty
  · refine dueBy_of_dueTime_le ?_
    simp only [computeDueTime, if_pos remote]
    exact (atLeast _).trans (max_le (WithTop.coe_le_coe.mpr nowLe) le_rfl)
  · refine ⟨fun nonempty => absurd nonempty remote, fun entry change found => ?_⟩
    simp only [computeDueTime, if_neg remote]
    exact (atLeast _).trans (max_le_max (earliestDue_le found) le_rfl)

/-- A context that has just loaded its changes is timely. -/
theorem timely_load {bound : Time} (nowLe : now ≤ bound) {needSyncLocal needSyncRemote : Finset EntryID} :
    (ctx.load listed now needSyncLocal needSyncRemote).Timely bound := by
  have due : (({ ctx with
      localChanges := if ctx.readOnly then ctx.localChanges
        else .ofList ((listed needSyncLocal).map fun entryId => (entryId, LocalChange.new now))
      remoteChanges := needSyncRemote } : SyncContext Time).computeDueTime now none none).DueBy bound :=
    dueBy_computeDueTime nowLe (by simp) (by simp)
  exact fun _ => ⟨due.remote, due.entries⟩

end SyncContext

end Guardata
