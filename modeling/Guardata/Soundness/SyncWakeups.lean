import Mathlib.Data.Int.ConditionallyCompleteOrder
import Guardata.Machine.Run
import Guardata.Proofs.SyncRounds

/-! # The synchronization monitor wakes up in time

Whatever the callbacks do between and during its steps, the monitor sleeps no longer than until the earliest due
time of a context in its store, or it is woken up. A context is due at most thirty seconds after the round with
remote changes, and otherwise when its first local change is.
-/

namespace Guardata.SyncMonitor

open Machine SyncContext

variable {Time : Type} [CommRing Time] [LinearOrder Time] [IsStrictOrderedRing Time]
variable {listed : Finset EntryID → List EntryID}
variable {monitor next slept later : SyncMonitor Time} {label : Label Time} {labels waits : List (Label Time)}
variable {clock bound : Time} {deadline : WithTop Time} {userManifestId id : EntryID}
variable {workspaces : Dict EntryID (Option RealmRole)}

omit [IsStrictOrderedRing Time] in
/-- What one step can be: time passes, the user manifest changes, a callback changes a context or replaces it, or
the task goes on. -/
theorem step?_cases (taken : monitor.step? listed label = some next) :
    (∃ elapsed, label = .pass elapsed ∧ 0 ≤ elapsed ∧ next = { monitor with clock := monitor.clock + elapsed }) ∨
    (∃ workspaces, label = .workspacesSet workspaces ∧ next = { monitor with workspaces }) ∨
    (∃ id change, (∀ ctx, Heard monitor.clock ctx (change ctx)) ∧ next = monitor.notify id change) ∨
    (∃ id role, label = .sharingUpdated id role ∧ (next = monitor.discard id ∨
      next = (monitor.discard id).notify id fun ctx => (true, { ctx with dueTime := monitor.clock }))) ∨
    monitor.advance listed label = some next := by
  unfold step? at taken
  split_ifs at taken
  cases label with
  | pass elapsed =>
    obtain ⟨positive, same⟩ := Option.ite_none_right_eq_some.mp taken
    exact .inl ⟨elapsed, rfl, positive, (Option.some_inj.mp same).symm⟩
  | workspacesSet workspaces => exact .inr (.inl ⟨workspaces, rfl, (Option.some_inj.mp taken).symm⟩)
  | entryUpdated id workspaceId =>
    obtain ⟨_, same⟩ := Option.ite_none_left_eq_some.mp taken
    exact .inr (.inr (.inl ⟨_, _, fun _ => heard_setLocalChange id, (Option.some_inj.mp same).symm⟩))
  | vlobsUpdated realmId srcId =>
    exact .inr (.inr (.inl ⟨_, _, fun _ => heard_setRemoteChange srcId, (Option.some_inj.mp taken).symm⟩))
  | sharingUpdated id role =>
    refine .inr (.inr (.inr (.inl ⟨id, role, rfl, ?_⟩)))
    rw [← Option.some_inj.mp taken, onSharingUpdated]
    split_ifs
    · exact .inl rfl
    · exact .inr rfl
  | entryConfined entryId causeId workspaceId =>
    exact .inr (.inr (.inl ⟨_, _, fun _ => heard_setConfinedEntry entryId causeId,
      (Option.some_inj.mp taken).symm⟩))
  | _ => exact .inr (.inr (.inr (.inr taken)))

/-- Time passes, and what is within a bound stays so. -/
theorem Sound.pass (sound : monitor.Sound) {elapsed : Time} (positive : 0 ≤ elapsed) :
    { monitor with clock := monitor.clock + elapsed }.Sound := by
  have later : monitor.clock ≤ monitor.clock + elapsed := le_add_of_nonneg_right positive
  have bounds : monitor.clock + 30 ≤ monitor.clock + elapsed + 30 := by linarith
  refine ⟨⟨sound.contexts.stored, fun id ref found other =>
    (sound.contexts.timely id ref found other).mono bounds, ?_⟩, fun action running => ?_⟩
  · exact sound.contexts.covered.imp_right fun covered id ref found other =>
      (covered id ref found other).of_same rfl (List.Subset.refl _) rfl
  · have proper := sound.action action running
    exact ⟨proper.startedOn.trans later, fun least same => (proper.minDueTime least same).trans bounds, proper.busy,
      proper.unloaded⟩

omit [IsStrictOrderedRing Time] in
theorem Sound.workspacesSet (sound : monitor.Sound) (workspaces : Dict EntryID (Option RealmRole)) :
    { monitor with workspaces }.Sound :=
  ⟨sound.contexts.of_same rfl rfl (fun _ => rfl) (fun _ _ => rfl) rfl rfl rfl (List.Subset.refl _),
    fun action running =>
      have proper := sound.action action running
      ⟨proper.startedOn, proper.minDueTime, proper.busy, proper.unloaded⟩⟩

theorem Sound.advance (sound : monitor.Sound) (taken : monitor.advance listed label = some next) :
    next.phase = .stopped ∨ next.Sound := by
  rw [SyncMonitor.advance] at taken
  cases running : monitor.running with
  | some action =>
    rw [running] at taken
    exact sound.resume running taken
  | none =>
    rw [running] at taken
    exact .inr (sound.goOn running taken)

/-- Every step keeps the contexts of the store timely and covered, unless it stops the monitor. -/
theorem Sound.step (sound : monitor.Sound) (taken : monitor.step? listed label = some next) :
    next.phase = .stopped ∨ next.Sound := by
  rcases step?_cases taken with ⟨elapsed, _, positive, rfl⟩ | ⟨workspaces, _, rfl⟩ | ⟨id, change, hears, rfl⟩ |
    ⟨id, role, _, rfl | rfl⟩ | advanced
  · exact .inr (sound.pass positive)
  · exact .inr (sound.workspacesSet workspaces)
  · exact .inr (sound.notify hears)
  · exact .inr (sound.discard id)
  · exact .inr ((sound.discard id).notify fun _ => heard_dueTime)
  · exact sound.advance advanced

omit [CommRing Time] [LinearOrder Time] [IsStrictOrderedRing Time] in
theorem start_eq : start clock userManifestId workspaces =
    ((blank clock userManifestId workspaces).get userManifestId).2.elim
      ((blank clock userManifestId workspaces).get userManifestId).1
      ((blank clock userManifestId workspaces).get userManifestId).1.bootstrap := rfl

omit [IsStrictOrderedRing Time] in
/-- The monitor starts with a context that is running. -/
theorem sound_start : (start clock userManifestId workspaces).Sound := by
  have empty : (blank clock userManifestId workspaces).SoundFor none :=
    ⟨fun _ _ found => by simp [blank] at found, fun _ _ found => by simp [blank] at found,
      .inr fun _ _ found => by simp [blank] at found⟩
  have got := empty.get userManifestId
  have same := sameTask_get (blank clock userManifestId workspaces) userManifestId
  rw [start_eq]
  cases ((blank clock userManifestId workspaces).get userManifestId).2 with
  | none => exact got.sound_of_idle same.running
  | some ref => exact got.bootstrap fun next waiting => by cases same.phase.symm.trans waiting

omit [IsStrictOrderedRing Time] in
theorem step?_of_stopped (stopped : monitor.phase = .stopped) : monitor.step? listed label = none := by
  unfold step?
  rw [if_pos stopped]

/-- In every run all contexts are timely and covered as long as the monitor is not stopped. -/
theorem sound_of_run (played : run? (step? listed) (start clock userManifestId workspaces) labels = some monitor) :
    monitor.phase = .stopped ∨ monitor.Sound := by
  have preserved (before : SyncMonitor Time) (label : Label Time) (after : SyncMonitor Time)
      (taken : before.step? listed label = some after) (kept : before.phase = .stopped ∨ before.Sound) :
      after.phase = .stopped ∨ after.Sound := by
    rcases kept with stopped | sound
    · cases (step?_of_stopped stopped).symm.trans taken
    · exact sound.step taken
  exact run?_preserves preserved played (.inr sound_start)

/-- While the monitor sleeps, it is woken up, or no context is due before the deadline or late for a bound. -/
structure Asleep (monitor : SyncMonitor Time) (deadline : WithTop Time) (bound : Time) : Prop where
  phase : monitor.phase = .waiting deadline
  running : monitor.running = none
  stored : ∀ id ref, monitor.ctxs.get? id = some ref → ref < monitor.created
  heeds : monitor.earlyWakeup = true ∨ ∀ id ref, monitor.ctxs.get? id = some ref →
    deadline ≤ (monitor.object ref).dueTime ∧ (monitor.object ref).Timely bound

section Asleep

omit [IsStrictOrderedRing Time]

theorem Asleep.get (asleep : monitor.Asleep deadline bound) (id : EntryID) :
    (monitor.get id).1.Asleep deadline bound := by
  have same := sameTask_get monitor id
  refine ⟨same.phase.trans asleep.phase, same.running.trans asleep.running,
    fun other ref found => (stored_get asleep.stored found).1, ?_⟩
  rw [same.earlyWakeup]
  refine asleep.heeds.imp_right fun heeds other ref found => ?_
  obtain ⟨_, ⟨old, object⟩ | ⟨rfl, readOnly, object⟩⟩ := stored_get asleep.stored found
  · exact object ▸ heeds other ref old
  · exact ⟨by rw [object]; exact le_top, timely_of_not_loaded (by rw [object])⟩

theorem Asleep.answer (asleep : monitor.Asleep deadline bound) {ref : ℕ} {heard : Bool × SyncContext Time}
    (hears : Heard monitor.clock (monitor.object ref) heard) : (monitor.answer ref heard).Asleep deadline bound where
  phase := phase_answer.trans asleep.phase
  running := running_answer.trans asleep.running
  stored := by
    rw [ctxs_answer, created_answer]
    exact asleep.stored
  heeds := by
    rw [earlyWakeup_answer, ctxs_answer, object_answer]
    cases wakes : heard.1 with
    | true => exact .inl (Bool.true_or _)
    | false =>
      rw [Bool.false_or]
      refine asleep.heeds.imp_right fun heeds other found here => ?_
      obtain ⟨before, timely⟩ := heeds other found here
      by_cases same : found = ref
      · subst same
        rw [object_setContext_self]
        exact ⟨(hears.asleep wakes).1 ▸ before, (hears.asleep wakes).2 bound timely⟩
      · rw [object_setContext_of_ne same]
        exact ⟨before, timely⟩

theorem Asleep.notify (asleep : monitor.Asleep deadline bound) {change : SyncContext Time → Bool × SyncContext Time}
    (hears : ∀ ctx, Heard monitor.clock ctx (change ctx)) : (monitor.notify id change).Asleep deadline bound := by
  rw [notify_eq]
  have got := asleep.get id
  have clock := (sameTask_get monitor id).clock
  cases (monitor.get id).2 with
  | none => exact got
  | some ref => exact got.answer (clock.symm ▸ hears _)

theorem Asleep.discard (asleep : monitor.Asleep deadline bound) (id : EntryID) :
    (monitor.discard id).Asleep deadline bound :=
  ⟨asleep.phase, asleep.running, fun other ref found => asleep.stored other ref (get?_ctxs_of_discard found),
    asleep.heeds.imp_right fun heeds other ref found => heeds other ref (get?_ctxs_of_discard found)⟩

/-- What sleeps goes on sleeping, if it does not wake up. -/
theorem Asleep.step (asleep : monitor.Asleep deadline bound) (taken : monitor.step? listed label = some next)
    (still : ∀ timedOut, label ≠ .wake timedOut) : next.Asleep deadline bound := by
  rcases step?_cases taken with ⟨elapsed, _, positive, rfl⟩ | ⟨workspaces, _, rfl⟩ | ⟨id, change, hears, rfl⟩ |
    ⟨id, role, _, rfl | rfl⟩ | advanced
  · exact ⟨asleep.phase, asleep.running, asleep.stored, asleep.heeds⟩
  · exact ⟨asleep.phase, asleep.running, asleep.stored, asleep.heeds⟩
  · exact asleep.notify hears
  · exact asleep.discard id
  · exact (asleep.discard id).notify fun _ => heard_dueTime
  · -- The task itself can do nothing but wake up.
    rw [SyncMonitor.advance, asleep.running] at advanced
    cases label with
    | wake timedOut => exact absurd rfl (still timedOut)
    | listWorkspaces => simp [goOn, asleep.phase] at advanced
    | proceed popped => simp [goOn, SyncMonitor.proceed, asleep.phase] at advanced
    | roundEnds => simp [goOn, SyncMonitor.roundEnds, asleep.phase] at advanced
    | _ => cases advanced

end Asleep

omit [IsStrictOrderedRing Time] in
/-- The end of a round is the beginning of a sleep. -/
theorem waiting_of_roundEnds (taken : monitor.step? listed .roundEnds = some slept) :
    ∃ deadline, slept.phase = .waiting deadline := by
  unfold step? at taken
  obtain ⟨_, advanced⟩ := Option.ite_none_left_eq_some.mp taken
  change monitor.advance listed .roundEnds = some slept at advanced
  rw [advance] at advanced
  cases running : monitor.running with
  | some action =>
    rw [running] at advanced
    cases advanced
  | none =>
    rw [running] at advanced
    obtain ⟨_, ended⟩ := Option.ite_none_right_eq_some.mp advanced
    obtain ⟨deadline, _, rfl⟩ := Option.map_eq_some_iff.mp ended
    exact ⟨deadline, rfl⟩

omit [IsStrictOrderedRing Time] in
theorem Sound.asleep (sound : monitor.Sound) (waiting : monitor.phase = .waiting deadline) :
    monitor.Asleep deadline (monitor.clock + 30) := by
  have idle : monitor.running = none := by
    cases running : monitor.running with
    | none => rfl
    | some action => exact absurd waiting ((sound.action action running).busy deadline)
  have contexts := sound.contexts_of_idle idle
  refine ⟨waiting, idle, fun id ref found => (contexts.stored id ref found).1, ?_⟩
  refine contexts.covered.imp_right fun covered id ref found => ?_
  have distinct := (Option.some_ne_none ref).symm
  have covers := covered id ref found distinct
  unfold Covers at covers
  rw [waiting] at covers
  exact ⟨covers, contexts.timely id ref found distinct⟩

/-- At any time of a sleep, whatever callbacks have come in between, the monitor is being woken up, or it is not
going to sleep past the due time of any context in its store. A context with its changes has remote changes dealt
with at most thirty seconds after the sleep began, and a local change when it is due if that is later. -/
theorem wakes_in_time (played : run? (step? listed) (start clock userManifestId workspaces) labels = some monitor)
    (asleep : monitor.step? listed .roundEnds = some slept) (waited : run? (step? listed) slept waits = some later)
    (still : ∀ label ∈ waits, ∀ timedOut, label ≠ .wake timedOut) :
    ∃ deadline, later.phase = .waiting deadline ∧
      (later.earlyWakeup = true ∨ ∀ id ref, later.ctxs.get? id = some ref →
        deadline ≤ (later.object ref).dueTime ∧ ((later.object ref).changesLoaded = true →
          ((later.object ref).remoteChanges.Nonempty → deadline ≤ ((slept.clock + 30 : Time) : WithTop Time)) ∧
          ∀ entry change, (later.object ref).localChanges.get? entry = some change →
            deadline ≤ ((max (min (change.lastChangedOn + 1) (change.firstChangedOn + 60)) (slept.clock + 30) : Time) :
              WithTop Time))) := by
  obtain ⟨deadline, waiting⟩ := waiting_of_roundEnds asleep
  have sound : slept.Sound := by
    rcases sound_of_run played with stopped | sound
    · cases (step?_of_stopped stopped).symm.trans asleep
    · exact (sound.step asleep).resolve_left fun stopped => by cases waiting.symm.trans stopped
  have preserved (before : SyncMonitor Time) (label : Label Time) (after : SyncMonitor Time)
      (taken : before.step? listed label = some after) (still : ∀ timedOut, label ≠ .wake timedOut)
      (asleep : before.Asleep deadline (slept.clock + 30)) : after.Asleep deadline (slept.clock + 30) :=
    asleep.step taken still
  have sleeps := run?_invariant preserved (along_of_forall_mem still) waited (sound.asleep waiting)
  refine ⟨deadline, sleeps.phase, sleeps.heeds.imp_right fun heeds id ref found => ?_⟩
  obtain ⟨before, timely⟩ := heeds id ref found
  refine ⟨before, fun loaded => ⟨fun remote => before.trans ((timely loaded).remote remote), ?_⟩⟩
  intro entry change pending
  rw [WithTop.coe_max]
  exact before.trans ((timely loaded).entries entry change pending)

/-- With a local change in workspace 1 that is due at time 11, and another one at time 11 during the sleep. -/
theorem wakes_in_time_twice : ∃ monitor slept later : SyncMonitor ℤ,
    run? (step? fun _ => [5]) (start 10 0 (.ofList [(1, some .contributor)]))
      [.loaded (.changes ∅ ∅) 0, .listWorkspaces, .proceed 0, .loaded (.changes {5} ∅) 0] = some monitor ∧
    monitor.step? (fun _ => [5]) .roundEnds = some slept ∧
    run? (step? fun _ => [5]) slept [.pass 1, .entryUpdated 6 (some 1)] = some later ∧
    later.earlyWakeup = false ∧
    ∃ deadline, later.phase = .waiting deadline ∧
      (later.earlyWakeup = true ∨ ∀ id ref, later.ctxs.get? id = some ref →
        deadline ≤ (later.object ref).dueTime ∧ ((later.object ref).changesLoaded = true →
          ((later.object ref).remoteChanges.Nonempty → deadline ≤ ((slept.clock + 30 : ℤ) : WithTop ℤ)) ∧
          ∀ entry change, (later.object ref).localChanges.get? entry = some change →
            deadline ≤ ((max (min (change.lastChangedOn + 1) (change.firstChangedOn + 60)) (slept.clock + 30) : ℤ) :
              WithTop ℤ))) :=
  ⟨_, _, _, rfl, rfl, rfl, rfl, wakes_in_time
    (by rfl : run? (step? fun _ => [5]) (start (10 : ℤ) 0 (.ofList [(1, some .contributor)]))
      [.loaded (.changes ∅ ∅) 0, .listWorkspaces, .proceed 0, .loaded (.changes {5} ∅) 0] = some _)
    (by rfl) (by rfl : run? _ _ [.pass 1, .entryUpdated 6 (some 1)] = some _) (by simp)⟩

end Guardata.SyncMonitor
