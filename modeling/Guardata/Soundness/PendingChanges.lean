import Mathlib.Order.Lattice.Nat
import Mathlib.Data.Finset.Lattice.Fold
import Guardata.Soundness.SyncWakeups

/-! # The synchronization monitor forgets no local change

A local change that is announced is pending from then on: its entry stands among the local changes of the context
of its workspace, or is being synchronized, or the context has still to load its changes, which the storage lists.
Crashes, changes of role and changes that come during a synchronization do not alter this; only a synchronization
that succeeds, and during which the entry has not changed again, takes the entry out.
-/

namespace Guardata

variable {Time : Type}

/-- What a context is told by the storage to synchronize. -/
def SyncMonitor.Label.needSyncLocal? : SyncMonitor.Label Time → Option (Finset EntryID)
  | .loaded (.changes needSyncLocal _) _ => some needSyncLocal
  | _ => none

/-- A context is going to synchronize an entry, unless it is read-only. -/
def SyncContext.Pending (ctx : SyncContext Time) (entry : EntryID) : Prop :=
  ctx.readOnly = true ∨ ctx.changesLoaded = false ∨ ctx.localChanges.contains entry = true

namespace SyncMonitor

open Machine SyncContext

variable {listed : Finset EntryID → List EntryID}
variable {monitor next : SyncMonitor Time} {action : SyncAction Time} {label : Label Time}
variable {id entry : EntryID} {ref : ℕ} {exempt : Option ℕ}

/-- The entry is pending in the context of the workspace, unless that is exempt. -/
def Held (monitor : SyncMonitor Time) (id entry : EntryID) (exempt : Option ℕ) : Prop :=
  ∀ ref, monitor.ctxs.get? id = some ref → exempt ≠ some ref → (monitor.object ref).Pending entry

theorem Held.weaken (held : monitor.Held id entry none) (exempt : Option ℕ) : monitor.Held id entry exempt :=
  fun ref found _ => held ref found (Option.some_ne_none ref).symm

theorem Held.settle (held : monitor.Held id entry (some ref))
    (pending : monitor.ctxs.get? id = some ref → (monitor.object ref).Pending entry) :
    monitor.Held id entry none := by
  intro other found _
  by_cases same : other = ref
  · exact same ▸ pending (same ▸ found)
  · exact held other found fun equal => same (Option.some_inj.mp equal).symm

theorem Held.of_same {after : SyncMonitor Time} (held : monitor.Held id entry exempt)
    (ctxs : after.ctxs = monitor.ctxs)
    (object : ∀ ref, exempt ≠ some ref → (monitor.object ref).Pending entry → (after.object ref).Pending entry) :
    after.Held id entry exempt := by
  intro ref found distinct
  rw [ctxs] at found
  exact object ref distinct (held ref found distinct)

/-- A context that is replaced by one in which the entry is pending if it was. -/
theorem Held.setContext (held : monitor.Held id entry exempt) {ctx : SyncContext Time}
    (pending : exempt ≠ some ref → (monitor.object ref).Pending entry → ctx.Pending entry) :
    (monitor.setContext ref ctx).Held id entry exempt := by
  refine held.of_same rfl fun other distinct before => ?_
  by_cases same : other = ref
  · subst same
    rw [object_setContext_self]
    exact pending distinct before
  · rwa [object_setContext_of_ne same]

theorem Held.get (held : monitor.Held id entry exempt)
    (stored : ∀ id ref, monitor.ctxs.get? id = some ref → ref < monitor.created) (other : EntryID) :
    (monitor.get other).1.Held id entry exempt := by
  intro ref found distinct
  obtain ⟨_, ⟨old, object⟩ | ⟨rfl, readOnly, object⟩⟩ := stored_get stored found
  · exact object ▸ held ref old distinct
  · exact object ▸ .inr (.inl rfl)

theorem Held.discard (held : monitor.Held id entry exempt) (other : EntryID) :
    (monitor.discard other).Held id entry exempt :=
  fun ref found distinct => held ref (get?_ctxs_of_discard found) distinct

variable [CommRing Time] [LinearOrder Time]

/-- The context that is synchronizing a local change of the entry. -/
def syncing (monitor : SyncMonitor Time) (entry : EntryID) : Option ℕ :=
  monitor.running.bind fun action => if action.stage = .syncingLocal entry then some action.ctx else none

/-- The entry is pending in the context of the workspace, or being synchronized. -/
def Keeps (monitor : SyncMonitor Time) (id entry : EntryID) : Prop := monitor.Held id entry (monitor.syncing entry)

/-- A step that may not take an entry out: the storage lists it, and if a synchronization of it succeeds, it has
changed since. -/
def Spares (id entry : EntryID) (monitor : SyncMonitor Time) (label : Label Time) : Prop :=
  ∀ ref ∈ monitor.ctxs.get? id, ∀ action ∈ monitor.running, action.ctx = ref →
    (∀ needSyncLocal ∈ label.needSyncLocal?, entry ∈ needSyncLocal) ∧
    (label = .synced .done → action.stage = .syncingLocal entry →
      (monitor.object ref).localChanges.contains entry = true)

instance : Decidable (Spares id entry monitor label) :=
  inferInstanceAs (Decidable (∀ ref ∈ monitor.ctxs.get? id, ∀ action ∈ monitor.running, action.ctx = ref →
    (∀ needSyncLocal ∈ label.needSyncLocal?, entry ∈ needSyncLocal) ∧
    (label = .synced .done → action.stage = .syncingLocal entry →
      (monitor.object ref).localChanges.contains entry = true)))

omit [CommRing Time] in
theorem Held.keeps (held : monitor.Held id entry none) : monitor.Keeps id entry := held.weaken _

theorem pending_of_heard {now : Time} {ctx : SyncContext Time} {heard : Bool × SyncContext Time}
    (hears : Heard now ctx heard) (pending : ctx.Pending entry) : heard.2.Pending entry :=
  pending.imp hears.readOnly.trans fun either => either.imp hears.changesLoaded.trans (hears.keeps entry)

theorem Held.notify (held : monitor.Held id entry exempt)
    (stored : ∀ id ref, monitor.ctxs.get? id = some ref → ref < monitor.created) {other : EntryID}
    {change : SyncContext Time → Bool × SyncContext Time} {now : Time}
    (hears : ∀ ctx, Heard now ctx (change ctx)) : (monitor.notify other change).Held id entry exempt := by
  rw [notify_eq]
  have got := held.get stored other
  cases (monitor.get other).2 with
  | none => exact got
  | some ref =>
    have changed : ((monitor.get other).1.setContext ref (change ((monitor.get other).1.object ref)).2).Held id
        entry exempt :=
      got.setContext fun _ => pending_of_heard (hears _)
    exact changed.of_same ctxs_answer fun found _ before => by rwa [Option.elim_some, object_answer]

theorem Held.conclude (held : monitor.Held id entry exempt) (minDueTime : Option Time) :
    (monitor.conclude action minDueTime).Held id entry exempt :=
  held.setContext fun _ pending => pending

omit [LinearOrder Time] in
/-- After a crash the context of the action is a new one, or has left the store. -/
theorem Held.crash (held : monitor.Held id entry (some action.ctx))
    (stored : ∀ id ref, monitor.ctxs.get? id = some ref → ref < monitor.created ∧ (monitor.object ref).id = id) :
    (monitor.crash action).Held id entry none := by
  have discarded : (monitor.discard (monitor.object action.ctx).id).Held id entry none := by
    refine (held.discard _).settle fun found => ?_
    have own := (stored id action.ctx (get?_ctxs_of_discard found)).2
    change (monitor.ctxs.erase (monitor.object action.ctx).id).get? id = some action.ctx at found
    rw [Dict.get?_erase, if_pos own.symm] at found
    cases found
  have got := discarded.get (fun id ref found => (stored id ref (get?_ctxs_of_discard found)).1)
    (monitor.object action.ctx).id
  have same : monitor.crash action = ((monitor.discard (monitor.object action.ctx).id).get _).2.elim
      (((monitor.discard (monitor.object action.ctx).id).get _).1.finish ⊤)
      ((monitor.discard (monitor.object action.ctx).id).get _).1.coolDown := rfl
  rw [same]
  cases ((monitor.discard (monitor.object action.ctx).id).get (monitor.object action.ctx).id).2 with
  | none => exact got
  | some ref => exact got.setContext fun _ pending => pending

omit [CommRing Time] in
theorem Held.bootstrap (held : monitor.Held id entry none) : (monitor.bootstrap ref).Keeps id entry := by
  refine Held.keeps ?_
  rw [SyncMonitor.bootstrap]
  split_ifs
  · exact held
  · exact held.setContext fun _ pending => pending

/-- What is taken out of the local changes is being synchronized. -/
theorem Held.syncNext (held : monitor.Held id entry none) {popped : EntryID}
    (taken : monitor.syncNext action popped = some next) : next.Keeps id entry := by
  simp only [SyncMonitor.syncNext] at taken
  split_ifs at taken
  · cases taken
    have popped : (monitor.setContext action.ctx { monitor.object action.ctx with
        remoteChanges := (monitor.object action.ctx).remoteChanges.erase popped }).Held id entry none :=
      held.setContext fun _ pending => pending
    exact Held.keeps popped
  · cases due : (monitor.object action.ctx).dueChange? action.startedOn with
    | none =>
      rw [due] at taken
      cases taken
      exact (held.conclude none).keeps
    | some entryId =>
      rw [due] at taken
      cases taken
      by_cases same : entryId = entry
      · subst same
        have exempt : (monitor.startSync action { monitor.object action.ctx with
            localChanges := (monitor.object action.ctx).localChanges.erase entryId } (.syncingLocal entryId)).syncing
              entryId = some action.ctx := if_pos rfl
        rw [Keeps, exempt]
        exact (held.weaken _).setContext fun distinct => absurd rfl distinct
      · have popped : (monitor.setContext action.ctx { monitor.object action.ctx with
            localChanges := (monitor.object action.ctx).localChanges.erase entryId }).Held id entry none := by
          refine held.setContext fun _ pending => ?_
          refine pending.imp_right fun either => either.imp_right fun here => ?_
          rw [Dict.contains, Dict.get?_erase, if_neg fun equal => same equal.symm]
          exact here
        exact Held.keeps popped

theorem Held.tick (held : monitor.Held id entry none) {popped : EntryID}
    (taken : monitor.tick ref popped = some next) : next.Keeps id entry := by
  rw [SyncMonitor.tick] at taken
  split_ifs at taken
  · cases taken
    exact Held.keeps held
  · exact held.syncNext taken
  · cases taken
    have started : (monitor.setContext ref { monitor.object ref with dueTime := ⊤ }).Held id entry none :=
      held.setContext fun _ pending => pending
    exact Held.keeps started

theorem Held.proceed (held : monitor.Held id entry none)
    (stored : ∀ id ref, monitor.ctxs.get? id = some ref → ref < monitor.created) {popped : EntryID}
    (taken : monitor.proceed popped = some next) : next.Keeps id entry := by
  rw [SyncMonitor.proceed] at taken
  cases phase : monitor.phase with
  | bootstrapping rest =>
    rw [phase] at taken
    cases rest with
    | none => cases taken
    | some rest =>
      cases rest with
      | nil => cases taken
      | cons other rest =>
        have moved : { monitor with phase := .bootstrapping (some rest) }.Held id entry none := held
        have got := moved.get stored other
        have step : next = ({ monitor with phase := .bootstrapping (some rest) }.get other).2.elim
            ({ monitor with phase := .bootstrapping (some rest) }.get other).1
            ({ monitor with phase := .bootstrapping (some rest) }.get other).1.bootstrap :=
          (Option.some_inj.mp taken).symm
        rw [step]
        cases ({ monitor with phase := .bootstrapping (some rest) }.get other).2 with
        | none => exact got.keeps
        | some ref => exact got.bootstrap
  | ticking rest =>
    rw [phase] at taken
    cases rest with
    | nil => cases taken
    | cons ref rest =>
      have moved : { monitor with phase := .ticking rest }.Held id entry none := held
      exact moved.tick taken
  | waiting _ =>
    rw [phase] at taken
    cases taken
  | stopped =>
    rw [phase] at taken
    cases taken

theorem contains_load {now : Time} {ctx : SyncContext Time} {needSyncLocal needSyncRemote : Finset EntryID}
    (complete : ∀ members node, node ∈ listed members ↔ node ∈ members) (needed : entry ∈ needSyncLocal) :
    (ctx.load listed now needSyncLocal needSyncRemote).Pending entry := by
  cases access : ctx.readOnly with
  | true => exact .inl access
  | false =>
    refine .inr (.inr ?_)
    simp only [load, computeDueTime, access, Bool.false_eq_true, ↓reduceIte]
    refine Dict.contains_insertMany_iff.mpr (.inl ?_)
    simpa using (complete needSyncLocal entry).mpr needed

/-- The changes that are loaded are those that the storage lists. -/
theorem Held.loaded (held : monitor.Held id entry none)
    (stored : ∀ id ref, monitor.ctxs.get? id = some ref → ref < monitor.created ∧ (monitor.object ref).id = id)
    (complete : ∀ members node, node ∈ listed members ↔ node ∈ members) {outcome : LoadOutcome} {popped : EntryID}
    (lists : monitor.ctxs.get? id = some action.ctx →
      ∀ needSyncLocal ∈ (Label.loaded outcome popped : Label Time).needSyncLocal?, entry ∈ needSyncLocal)
    (taken : monitor.loaded listed action popped outcome = some next) :
    next.phase = .stopped ∨ next.Keeps id entry := by
  cases outcome with
  | offline =>
    cases taken
    exact .inl rfl
  | crashed =>
    cases taken
    exact .inr ((held.weaken _).crash stored).keeps
  | refused =>
    cases taken
    exact .inr (Held.keeps held)
  | changes needSyncLocal needSyncRemote =>
    refine .inr ?_
    have loaded : (monitor.setContext action.ctx ((monitor.object action.ctx).load listed monitor.clock
        needSyncLocal needSyncRemote)).Held id entry none := by
      refine ((held.weaken (some action.ctx)).setContext fun distinct => absurd rfl distinct).settle fun found => ?_
      rw [object_setContext_self]
      exact contains_load complete (lists found needSyncLocal rfl)
    cases method : action.method with
    | bootstrap =>
      simp only [SyncMonitor.loaded, method, Option.some.injEq] at taken
      exact taken ▸ Held.keeps loaded
    | tick =>
      simp only [SyncMonitor.loaded, method] at taken
      exact loaded.syncNext taken

theorem Held.syncedRemote (held : monitor.Held id entry none)
    (stored : ∀ id ref, monitor.ctxs.get? id = some ref → ref < monitor.created ∧ (monitor.object ref).id = id)
    {entryId : EntryID} (outcome : SyncOutcome) :
    (monitor.syncedRemote action entryId outcome).phase = .stopped ∨
      (monitor.syncedRemote action entryId outcome).Keeps id entry := by
  have retried (wait : Time) : (syncedRemote.retry monitor action entryId wait).Keeps id entry := by
    have kept : (monitor.setContext action.ctx { monitor.object action.ctx with
        remoteChanges := insert entryId (monitor.object action.ctx).remoteChanges }).Held id entry none :=
      held.setContext fun _ pending => pending
    exact (kept.conclude _).keeps
  cases outcome with
  | done => exact .inr (held.conclude none).keeps
  | noWriteAccess => exact .inr (held.conclude none).keeps
  | offline => exact .inl rfl
  | crashed => exact .inr ((held.weaken _).crash stored).keeps
  | noReadAccess => exact .inr (retried 1)
  | inMaintenance => exact .inr (retried 30)

theorem Held.vacuum (held : monitor.Held id entry none) (minDueTime : Option Time) :
    (syncedLocal.vacuum action monitor minDueTime).Keeps id entry := by
  rw [syncedLocal.vacuum]
  split_ifs
  · have vacuums : { monitor with running := some { action with stage := .vacuuming minDueTime } }.Held id entry
        none := held
    exact vacuums.keeps
  · exact (held.conclude minDueTime).keeps

/-- A synchronization that does not succeed puts its entry back, one that succeeds finds it changed again. -/
theorem Held.syncedLocal {entryId : EntryID}
    (held : monitor.Held id entry (if entryId = entry then some action.ctx else none))
    (stored : ∀ id ref, monitor.ctxs.get? id = some ref → ref < monitor.created ∧ (monitor.object ref).id = id)
    {outcome : SyncOutcome} (again : monitor.ctxs.get? id = some action.ctx → outcome = .done → entryId = entry →
      (monitor.object action.ctx).localChanges.contains entry = true) :
    (monitor.syncedLocal action entryId outcome).phase = .stopped ∨
      (monitor.syncedLocal action entryId outcome).Keeps id entry := by
  have exempt : monitor.Held id entry (some action.ctx) := by
    split_ifs at held
    · exact held
    · exact held.weaken _
  have kept : (syncedLocal.keepTrack monitor action entryId).Held id entry none := by
    rw [syncedLocal.keepTrack]
    split_ifs at held with same
    · refine (exempt.setContext fun distinct => absurd rfl distinct).settle fun _ => ?_
      rw [object_setContext_self]
      exact .inr (.inr (Dict.contains_insert_iff.mpr (.inl same.symm)))
    · exact held.setContext fun _ pending =>
        pending.imp_right fun either => either.imp_right fun here => Dict.contains_insert_iff.mpr (.inr here)
  cases outcome with
  | done =>
    have settled : monitor.Held id entry none := by
      split_ifs at held with same
      · exact exempt.settle fun found => .inr (.inr (again found rfl same))
      · exact held
    exact .inr (settled.vacuum none)
  | offline => exact .inl rfl
  | crashed => exact .inr (exempt.crash stored).keeps
  | noReadAccess => exact .inr (kept.vacuum none)
  | noWriteAccess => exact .inr (kept.vacuum none)
  | inMaintenance => exact .inr (kept.vacuum _)

theorem Keeps.resume (keeps : monitor.Keeps id entry)
    (stored : ∀ id ref, monitor.ctxs.get? id = some ref → ref < monitor.created ∧ (monitor.object ref).id = id)
    (complete : ∀ members node, node ∈ listed members ↔ node ∈ members) (running : monitor.running = some action)
    (spares : Spares id entry monitor label) (taken : monitor.resume listed action label = some next) :
    next.phase = .stopped ∨ next.Keeps id entry := by
  have held : monitor.Held id entry (if action.stage = .syncingLocal entry then some action.ctx else none) := by
    rw [Keeps, syncing, running] at keeps
    exact keeps
  have spared (found : monitor.ctxs.get? id = some action.ctx) := spares action.ctx found action running rfl
  cases label with
  | loaded outcome popped =>
    rw [SyncMonitor.resume] at taken
    split_ifs at taken with loading
    rw [loading, if_neg (by simp)] at held
    exact held.loaded stored complete (fun found => (spared found).1) taken
  | synced outcome =>
    rw [SyncMonitor.resume] at taken
    split at taken
    · next entryId stage =>
      cases taken
      rw [stage, if_neg (by simp)] at held
      exact held.syncedRemote stored outcome
    · next entryId stage =>
      cases taken
      simp only [stage, TickStage.syncingLocal.injEq] at held
      refine held.syncedLocal stored fun found done same => (spared found).2 (by rw [done]) (by rw [stage, same])
    · cases taken
  | vacuumed crashed =>
    rw [SyncMonitor.resume] at taken
    split at taken
    · next minDueTime stage =>
      cases taken
      rw [stage, if_neg (by simp)] at held
      split_ifs
      · exact .inr ((held.weaken _).crash stored).keeps
      · exact .inr (held.conclude minDueTime).keeps
    · cases taken
  | _ => cases taken

theorem Held.goOn (held : monitor.Held id entry none)
    (stored : ∀ id ref, monitor.ctxs.get? id = some ref → ref < monitor.created)
    (taken : monitor.goOn label = some next) : next.Keeps id entry := by
  cases label with
  | listWorkspaces =>
    rw [SyncMonitor.goOn] at taken
    split_ifs at taken
    cases taken
    exact Held.keeps held
  | proceed popped => exact held.proceed stored taken
  | roundEnds =>
    obtain ⟨_, ended⟩ := Option.ite_none_right_eq_some.mp taken
    obtain ⟨_, _, rfl⟩ := Option.map_eq_some_iff.mp ended
    exact Held.keeps held
  | wake timedOut =>
    rw [SyncMonitor.goOn, SyncMonitor.wake] at taken
    split at taken
    · split_ifs at taken <;> cases taken <;> exact Held.keeps held
    · cases taken
  | _ => cases taken

omit [CommRing Time] [LinearOrder Time] in
theorem running_notify (monitor : SyncMonitor Time) (id : EntryID)
    (change : SyncContext Time → Bool × SyncContext Time) :
    (monitor.notify id change).running = monitor.running := by
  rw [notify_eq]
  have same := (sameTask_get monitor id).running
  cases (monitor.get id).2 with
  | none => exact same
  | some ref => exact running_answer.trans same

theorem Keeps.notify (keeps : monitor.Keeps id entry)
    (stored : ∀ id ref, monitor.ctxs.get? id = some ref → ref < monitor.created) {other : EntryID}
    {change : SyncContext Time → Bool × SyncContext Time} {now : Time}
    (hears : ∀ ctx, Heard now ctx (change ctx)) : (monitor.notify other change).Keeps id entry := by
  rw [Keeps, syncing, running_notify]
  exact Held.notify keeps stored hears

/-- A step that spares an entry leaves it pending. -/
theorem Keeps.step [IsStrictOrderedRing Time] (keeps : monitor.Keeps id entry) (sound : monitor.Sound)
    (complete : ∀ members node, node ∈ listed members ↔ node ∈ members) (spares : Spares id entry monitor label)
    (taken : monitor.step? listed label = some next) : next.phase = .stopped ∨ next.Keeps id entry := by
  have stored := sound.contexts.stored
  have small (id : EntryID) (ref : ℕ) (found : monitor.ctxs.get? id = some ref) := (stored id ref found).1
  rcases step?_cases taken with ⟨elapsed, _, positive, rfl⟩ | ⟨workspaces, _, rfl⟩ | ⟨other, change, hears, rfl⟩ |
    ⟨other, role, _, rfl | rfl⟩ | advanced
  · exact .inr keeps
  · exact .inr keeps
  · exact .inr (keeps.notify small hears)
  · exact .inr (Held.discard keeps other)
  · have discarded : (monitor.discard other).Keeps id entry := Held.discard keeps other
    exact .inr (discarded.notify (fun id ref found => small id ref (get?_ctxs_of_discard found)) fun _ => heard_dueTime)
  · rw [SyncMonitor.advance] at advanced
    cases running : monitor.running with
    | some action =>
      rw [running] at advanced
      exact keeps.resume stored complete running spares advanced
    | none =>
      rw [running] at advanced
      refine .inr (Held.goOn ?_ small advanced)
      rw [Keeps, syncing, running] at keeps
      exact keeps

/-- An entry whose change is announced stands among the local changes, unless they are ignored. -/
theorem pending_setLocalChange {now : Time} {ctx : SyncContext Time} :
    (ctx.setLocalChange listed now entry).2.Pending entry := by
  cases access : ctx.readOnly with
  | true => exact .inl ((heard_setLocalChange entry).readOnly.trans access)
  | false =>
    rw [setLocalChange_eq access]
    exact .inr (.inr ((contains_marked_iff _ entry).mpr (.inl (PoppedWalks.mem_popWalk_self _))))

theorem keeps_of_entryUpdated {workspaceId : Option EntryID}
    (taken : monitor.step? listed (.entryUpdated entry workspaceId) = some next) :
    next.Keeps (workspaceId.getD entry) entry := by
  unfold step? at taken
  obtain ⟨_, called⟩ := Option.ite_none_left_eq_some.mp taken
  obtain ⟨_, notified⟩ := Option.ite_none_left_eq_some.mp called
  rw [← Option.some_inj.mp notified, notify_eq]
  refine Held.keeps fun ref found _ => ?_
  have stands := get?_ctxs_get monitor (workspaceId.getD entry)
  cases got : (monitor.get (workspaceId.getD entry)).2 with
  | none =>
    rw [got, Option.elim_none, stands, got] at found
    cases found
  | some other =>
    rw [got, Option.elim_some, ctxs_answer, stands, got] at found
    cases found
    rw [Option.elim_some, object_answer, object_setContext_self]
    exact pending_setLocalChange

variable [IsStrictOrderedRing Time] {signalled last : SyncMonitor Time} {before rest : List (Label Time)}
variable {clock : Time} {userManifestId : EntryID} {workspaces : Dict EntryID (Option RealmRole)}

/-- After an entry is announced as changed, and as long as every synchronization of it that succeeds finds it changed
again and every loading of changes finds it in the storage, the context of its workspace is read-only, has its
changes still to load, has the entry among its local changes, or is synchronizing it. -/
theorem pending_until_synced (complete : ∀ members node, node ∈ listed members ↔ node ∈ members)
    {workspaceId : Option EntryID}
    (played : run? (step? listed) (start clock userManifestId workspaces) before = some monitor)
    (signal : monitor.step? listed (.entryUpdated entry workspaceId) = some signalled)
    (spares : Along (step? listed) (fun state label _ => Spares (workspaceId.getD entry) entry state label)
      signalled rest)
    (goes : run? (step? listed) signalled rest = some last) :
    last.phase = .stopped ∨ ∀ ref, last.ctxs.get? (workspaceId.getD entry) = some ref →
      (last.object ref).readOnly = true ∨ (last.object ref).changesLoaded = false ∨
      (last.object ref).localChanges.contains entry = true ∨
      ∃ action, last.running = some action ∧ action.ctx = ref ∧ action.stage = .syncingLocal entry := by
  have sound : signalled.phase = .stopped ∨ signalled.Sound := by
    rcases sound_of_run played with stopped | sound
    · cases (step?_of_stopped stopped).symm.trans signal
    · exact sound.step signal
  have kept : last.phase = .stopped ∨ last.Sound ∧ last.Keeps (workspaceId.getD entry) entry := by
    have preserved (state : SyncMonitor Time) (label : Label Time) (next : SyncMonitor Time)
        (taken : state.step? listed label = some next) (spares : Spares (workspaceId.getD entry) entry state label)
        (kept : state.phase = .stopped ∨ state.Sound ∧ state.Keeps (workspaceId.getD entry) entry) :
        next.phase = .stopped ∨ next.Sound ∧ next.Keeps (workspaceId.getD entry) entry := by
      rcases kept with stopped | ⟨sound, keeps⟩
      · cases (step?_of_stopped stopped).symm.trans taken
      · rcases sound.step taken with stopped | sound'
        · exact .inl stopped
        · exact (keeps.step sound complete spares taken).imp_right fun keeps => ⟨sound', keeps⟩
    exact run?_invariant preserved spares goes
      (sound.imp_right fun sound => ⟨sound, keeps_of_entryUpdated signal⟩)
  refine kept.imp_right fun both ref found => ?_
  by_cases syncs : last.syncing entry = some ref
  · obtain ⟨action, running, here⟩ := Option.bind_eq_some_iff.mp syncs
    split_ifs at here with stage
    exact .inr (.inr (.inr ⟨action, running, Option.some_inj.mp here, stage⟩))
  · rcases both.2 ref found syncs with readOnly | unloaded | here
    · exact .inl readOnly
    · exact .inr (.inl unloaded)
    · exact .inr (.inr (.inl here))

/-- The members of a set of numbers in ascending order. -/
def ascending (members : Finset EntryID) : List EntryID :=
  (List.range (members.sup (fun number => number) + 1)).filter (· ∈ members)

theorem mem_ascending (members : Finset EntryID) (node : EntryID) : node ∈ ascending members ↔ node ∈ members := by
  simp only [ascending, List.mem_filter, List.mem_range, decide_eq_true_eq, and_iff_right_iff_imp]
  exact fun member => Nat.lt_succ_of_le (Finset.le_sup (f := fun number => number) member)

/-- Entry 5 of workspace 1 changes again while its first change is being synchronized. -/
theorem pending_until_synced_again : ∃ monitor signalled last : SyncMonitor ℤ,
    run? (step? ascending) (start 10 0 (.ofList [(1, some .contributor)]))
      [.loaded (.changes ∅ ∅) 0, .listWorkspaces, .proceed 0, .loaded (.changes ∅ ∅) 0, .roundEnds] = some monitor ∧
    monitor.step? ascending (.entryUpdated 5 (some 1)) = some signalled ∧
    run? (step? ascending) signalled [.wake false, .proceed 0, .proceed 0, .roundEnds, .pass 1, .wake true,
      .proceed 0, .proceed 0, .entryUpdated 5 (some 1), .synced .done] = some last ∧
    (last.phase = .stopped ∨ ∀ ref, last.ctxs.get? 1 = some ref →
      (last.object ref).readOnly = true ∨ (last.object ref).changesLoaded = false ∨
      (last.object ref).localChanges.contains 5 = true ∨
      ∃ action, last.running = some action ∧ action.ctx = ref ∧ action.stage = .syncingLocal 5) :=
  ⟨_, _, _, rfl, rfl, rfl, pending_until_synced mem_ascending
    (by rfl : run? (step? ascending) (start (10 : ℤ) 0 (.ofList [(1, some .contributor)]))
      [.loaded (.changes ∅ ∅) 0, .listWorkspaces, .proceed 0, .loaded (.changes ∅ ∅) 0, .roundEnds] = some _)
    (by rfl : step? ascending _ (.entryUpdated 5 (some 1)) = some _) (by decide)
    (by rfl : run? _ _ [.wake false, .proceed 0, .proceed 0, .roundEnds, .pass 1, .wake true,
      .proceed 0, .proceed 0, .entryUpdated 5 (some 1), .synced .done] = some _)⟩

end SyncMonitor

end Guardata
