import Mathlib.Algebra.Order.Ring.Defs
import Mathlib.Data.List.MinMax
import Mathlib.Tactic.Linarith
import Guardata.Proofs.SyncMonitor

/-! # What the steps of the synchronization monitor keep

`Sound` says that every context of the store is timely, and that the monitor has noted, or is going to note, a
time at which the context is due, unless it is woken up before. The context that an action is busy with is
exempt. Each operation of the monitor keeps this, and its lemma says which context is exempt before and after.
-/

namespace Guardata.SyncMonitor

open SyncContext

variable {Time : Type} [CommRing Time] [LinearOrder Time]
variable {listed : Finset EntryID → List EntryID}
variable {monitor : SyncMonitor Time} {action : SyncAction Time} {id : EntryID} {ref : ℕ}

section Store

omit [CommRing Time] [LinearOrder Time]

@[simp] theorem object_setContext_self (ctx : SyncContext Time) : (monitor.setContext ref ctx).object ref = ctx :=
  Function.update_self _ _ _

theorem object_setContext_of_ne {other : ℕ} (distinct : other ≠ ref) (ctx : SyncContext Time) :
    (monitor.setContext ref ctx).object other = monitor.object other :=
  Function.update_of_ne distinct _ _

/-- `get` finds a context, or makes one, or there is no such workspace. -/
theorem get_cases (monitor : SyncMonitor Time) (id : EntryID) :
    (∃ ref, monitor.ctxs.get? id = some ref ∧ monitor.get id = (monitor, some ref)) ∨
    (monitor.ctxs.get? id = none ∧ monitor.get id = (monitor, none)) ∨
    ∃ readOnly, monitor.ctxs.get? id = none ∧ monitor.get id = monitor.create { id, readOnly } := by
  rw [get]
  cases known : monitor.ctxs.get? id with
  | some ref => exact .inl ⟨ref, rfl, rfl⟩
  | none =>
    dsimp only
    split_ifs
    · exact .inr (.inr ⟨_, rfl, rfl⟩)
    · cases monitor.workspaces.get? id with
      | none => exact .inr (.inl ⟨rfl, rfl⟩)
      | some role => exact .inr (.inr ⟨_, rfl, rfl⟩)

/-- What `get` leaves as it is. -/
structure SameTask (before after : SyncMonitor Time) : Prop where
  clock : after.clock = before.clock
  earlyWakeup : after.earlyWakeup = before.earlyWakeup
  dueTimes : after.dueTimes = before.dueTimes
  phase : after.phase = before.phase
  running : after.running = before.running

theorem sameTask_get (monitor : SyncMonitor Time) (id : EntryID) : SameTask monitor (monitor.get id).1 := by
  rcases get_cases monitor id with ⟨_, _, got⟩ | ⟨_, got⟩ | ⟨_, _, got⟩ <;> rw [got]
  · exact ⟨rfl, rfl, rfl, rfl, rfl⟩
  · exact ⟨rfl, rfl, rfl, rfl, rfl⟩
  · exact ⟨rfl, rfl, rfl, rfl, rfl⟩

/-- What `get` returns is what stands in the store. -/
theorem get?_ctxs_get (monitor : SyncMonitor Time) (id : EntryID) :
    (monitor.get id).1.ctxs.get? id = (monitor.get id).2 := by
  rcases get_cases monitor id with ⟨_, found, got⟩ | ⟨absent, got⟩ | ⟨_, _, got⟩ <;> rw [got]
  · exact found
  · exact absent
  · simp [create]

theorem get?_ctxs_of_discard {other : EntryID} (found : (monitor.discard id).ctxs.get? other = some ref) :
    monitor.ctxs.get? other = some ref := by
  change (monitor.ctxs.erase id).get? other = some ref at found
  rw [Dict.get?_erase] at found
  split_ifs at found
  exact found

/-- What stands in the store after a `get` stood there before, or is new. -/
theorem stored_get (stored : ∀ id ref, monitor.ctxs.get? id = some ref → ref < monitor.created) {other : EntryID}
    (found : (monitor.get id).1.ctxs.get? other = some ref) :
    ref < (monitor.get id).1.created ∧
      ((monitor.ctxs.get? other = some ref ∧ (monitor.get id).1.object ref = monitor.object ref) ∨
        (other = id ∧ ∃ readOnly, (monitor.get id).1.object ref = { id, readOnly })) := by
  rcases get_cases monitor id with ⟨_, _, got⟩ | ⟨_, got⟩ | ⟨readOnly, _, got⟩ <;> rw [got] at found ⊢
  · exact ⟨stored other ref found, .inl ⟨found, rfl⟩⟩
  · exact ⟨stored other ref found, .inl ⟨found, rfl⟩⟩
  · change (monitor.ctxs.insert id monitor.created).get? other = some ref at found
    change ref < monitor.created + 1 ∧ ((_ ∧ (monitor.setContext monitor.created _).object ref = _) ∨
      (_ ∧ ∃ _, (monitor.setContext monitor.created _).object ref = _))
    rw [Dict.get?_insert] at found
    split_ifs at found with same
    · cases found
      exact ⟨Nat.lt_succ_self _, .inr ⟨same, readOnly, object_setContext_self _⟩⟩
    · have old := stored other ref found
      exact ⟨old.trans (Nat.lt_succ_self _), .inl ⟨found, object_setContext_of_ne old.ne _⟩⟩

/-- A new context has not loaded its changes. -/
theorem unloaded_get (unloaded : (monitor.object ref).changesLoaded = false) :
    ((monitor.get id).1.object ref).changesLoaded = false := by
  rcases get_cases monitor id with ⟨_, _, got⟩ | ⟨_, got⟩ | ⟨_, _, got⟩ <;> rw [got]
  · exact unloaded
  · exact unloaded
  · change ((monitor.setContext monitor.created _).object ref).changesLoaded = false
    by_cases same : ref = monitor.created
    · rw [same, object_setContext_self]
    · rw [object_setContext_of_ne same, unloaded]

end Store

/-- A due time that the monitor knows of is no later. -/
def Noted (monitor : SyncMonitor Time) (dueTime : WithTop Time) : Prop :=
  ∃ noted ∈ monitor.dueTimes, noted ≤ dueTime

/-- The monitor does not sleep past the due time of a context. -/
def Covers (monitor : SyncMonitor Time) (ref : ℕ) : Prop :=
  match monitor.phase with
  | .waiting next => next ≤ (monitor.object ref).dueTime
  | .bootstrapping _ => (monitor.object ref).dueTime = ⊤ ∨ monitor.Noted (monitor.object ref).dueTime
  | .ticking rest =>
    (monitor.object ref).dueTime = ⊤ ∨ monitor.Noted (monitor.object ref).dueTime ∨ ref ∈ rest
  | .stopped => True

/-- The monitor does not sleep. -/
def Busy (monitor : SyncMonitor Time) : Prop := ∀ next, monitor.phase ≠ .waiting next

omit [CommRing Time] in
theorem covers_of_top (top : (monitor.object ref).dueTime = ⊤) : monitor.Covers ref := by
  unfold Covers
  rw [top]
  cases monitor.phase with
  | waiting next => exact le_top
  | bootstrapping rest => exact .inl rfl
  | ticking rest => exact .inl rfl
  | stopped => trivial

omit [CommRing Time] in
theorem covers_of_noted (busy : monitor.Busy) (noted : monitor.Noted (monitor.object ref).dueTime) :
    monitor.Covers ref := by
  unfold Covers
  cases phase : monitor.phase with
  | waiting next => exact absurd phase (busy next)
  | bootstrapping rest => exact .inr noted
  | ticking rest => exact .inr (.inl noted)
  | stopped => trivial

omit [CommRing Time] in
theorem Covers.of_same {after : SyncMonitor Time} (covers : monitor.Covers ref)
    (phase : after.phase = monitor.phase) (dueTimes : monitor.dueTimes ⊆ after.dueTimes)
    (dueTime : (after.object ref).dueTime = (monitor.object ref).dueTime) : after.Covers ref := by
  have noted : monitor.Noted (monitor.object ref).dueTime → after.Noted (monitor.object ref).dueTime :=
    fun ⟨due, member, le⟩ => ⟨due, dueTimes member, le⟩
  unfold Covers at covers ⊢
  rw [phase, dueTime]
  revert covers
  cases monitor.phase with
  | waiting next => exact id
  | bootstrapping rest => exact fun covers => covers.imp_right noted
  | ticking rest => exact fun covers => covers.imp_right fun either => either.imp_left noted
  | stopped => exact id

/-- All contexts of the store are timely and covered, but one that may be exempt. -/
structure SoundFor (monitor : SyncMonitor Time) (exempt : Option ℕ) : Prop where
  stored : ∀ id ref, monitor.ctxs.get? id = some ref →
    ref < monitor.created ∧ (monitor.object ref).id = id
  timely : ∀ id ref, monitor.ctxs.get? id = some ref → exempt ≠ some ref →
    (monitor.object ref).Timely (monitor.clock + 30)
  covered : monitor.earlyWakeup = true ∨
    ∀ id ref, monitor.ctxs.get? id = some ref → exempt ≠ some ref → monitor.Covers ref

variable {exempt : Option ℕ}

theorem SoundFor.weaken (sound : monitor.SoundFor none) (exempt : Option ℕ) : monitor.SoundFor exempt where
  stored := sound.stored
  timely := fun id ref found _ => sound.timely id ref found (Option.some_ne_none ref).symm
  covered := sound.covered.imp_right fun covers id ref found _ => covers id ref found (Option.some_ne_none ref).symm

/-- The exempt context is as it should be again. -/
theorem SoundFor.settle (sound : monitor.SoundFor (some ref))
    (timely : ∀ id, monitor.ctxs.get? id = some ref → (monitor.object ref).Timely (monitor.clock + 30))
    (covers : monitor.Covers ref) : monitor.SoundFor none where
  stored := sound.stored
  timely := by
    intro id other found _
    by_cases same : other = ref
    · exact same ▸ timely id (same ▸ found)
    · exact sound.timely id other found fun equal => same (Option.some_inj.mp equal).symm
  covered := by
    refine sound.covered.imp_right fun covered id other found _ => ?_
    by_cases same : other = ref
    · exact same ▸ covers
    · exact covered id other found fun equal => same (Option.some_inj.mp equal).symm

/-- Nothing but the exempt context, what is noted and the running action changes. -/
theorem SoundFor.of_same {after : SyncMonitor Time} (sound : monitor.SoundFor exempt)
    (ctxs : after.ctxs = monitor.ctxs) (created : after.created = monitor.created)
    (ids : ∀ ref, (after.object ref).id = (monitor.object ref).id)
    (object : ∀ ref, exempt ≠ some ref → after.object ref = monitor.object ref)
    (clock : after.clock = monitor.clock) (early : after.earlyWakeup = monitor.earlyWakeup)
    (phase : after.phase = monitor.phase) (dueTimes : monitor.dueTimes ⊆ after.dueTimes) :
    after.SoundFor exempt where
  stored := by
    intro id ref found
    rw [ids, created]
    exact sound.stored id ref (ctxs ▸ found)
  timely := by
    intro id ref found other
    rw [object ref other, clock]
    exact sound.timely id ref (ctxs ▸ found) other
  covered := by
    rw [early]
    refine sound.covered.imp_right fun covered id ref found other => ?_
    exact (covered id ref (ctxs ▸ found) other).of_same phase dueTimes (by rw [object ref other])

theorem SoundFor.setContext (sound : monitor.SoundFor (some ref)) (ctx : SyncContext Time)
    (same : ctx.id = (monitor.object ref).id) : (monitor.setContext ref ctx).SoundFor (some ref) := by
  refine sound.of_same rfl rfl (fun other => ?_) (fun other distinct => ?_) rfl rfl rfl (List.Subset.refl _)
  · by_cases equal : other = ref
    · rw [equal, object_setContext_self, same]
    · rw [object_setContext_of_ne equal]
  · exact object_setContext_of_ne (fun equal => distinct (by rw [equal])) ctx

theorem SoundFor.run (sound : monitor.SoundFor exempt) (running : Option (SyncAction Time)) :
    { monitor with running }.SoundFor exempt :=
  sound.of_same rfl rfl (fun _ => rfl) (fun _ _ => rfl) rfl rfl rfl (List.Subset.refl _)

theorem SoundFor.finish (sound : monitor.SoundFor exempt) (dueTime : WithTop Time) :
    (monitor.finish dueTime).SoundFor exempt :=
  sound.of_same rfl rfl (fun _ => rfl) (fun _ _ => rfl) rfl rfl rfl (List.subset_append_left _ _)

/-- A context whose own due time is noted is exempt no more. -/
theorem SoundFor.finish_own (sound : monitor.SoundFor (some ref)) (busy : monitor.Busy)
    (timely : ∀ id, monitor.ctxs.get? id = some ref → (monitor.object ref).Timely (monitor.clock + 30)) :
    (monitor.finish (monitor.object ref).dueTime).SoundFor none :=
  (sound.finish _).settle timely
    (covers_of_noted busy ⟨_, List.mem_append_right _ (List.mem_singleton_self _), le_rfl⟩)

theorem SoundFor.get (sound : monitor.SoundFor exempt) (id : EntryID) : (monitor.get id).1.SoundFor exempt := by
  have same := sameTask_get monitor id
  have stored (other : EntryID) (ref : ℕ) (found : (monitor.get id).1.ctxs.get? other = some ref) :=
    stored_get (fun id ref found => (sound.stored id ref found).1) found
  refine ⟨fun other ref found => ?_, fun other ref found distinct => ?_, ?_⟩
  · obtain ⟨small, ⟨old, object⟩ | ⟨rfl, readOnly, object⟩⟩ := stored other ref found
    · exact ⟨small, by rw [object, (sound.stored other ref old).2]⟩
    · exact ⟨small, by rw [object]⟩
  · obtain ⟨_, ⟨old, object⟩ | ⟨rfl, readOnly, object⟩⟩ := stored other ref found
    · rw [object, same.clock]
      exact sound.timely other ref old distinct
    · rw [object]
      exact timely_of_not_loaded rfl
  · rw [same.earlyWakeup]
    refine sound.covered.imp_right fun covered other ref found distinct => ?_
    obtain ⟨_, ⟨old, object⟩ | ⟨rfl, readOnly, object⟩⟩ := stored other ref found
    · exact (covered other ref old distinct).of_same same.phase (fun due member => by rwa [same.dueTimes])
        (by rw [object])
    · exact covers_of_top (by rw [object])

theorem SoundFor.discard (sound : monitor.SoundFor exempt) (id : EntryID) :
    (monitor.discard id).SoundFor exempt :=
  ⟨fun other ref found => sound.stored other ref (get?_ctxs_of_discard found),
    fun other ref found => sound.timely other ref (get?_ctxs_of_discard found),
    sound.covered.imp_right fun covered other ref found distinct =>
      (covered other ref (get?_ctxs_of_discard found) distinct).of_same rfl (List.Subset.refl _) rfl⟩

/-- The context of an action has left the store with its id. -/
theorem SoundFor.discard_own (sound : monitor.SoundFor (some ref)) :
    (monitor.discard (monitor.object ref).id).SoundFor none := by
  have others {other : EntryID} {found : ℕ}
      (here : (monitor.discard (monitor.object ref).id).ctxs.get? other = some found) :
      some ref ≠ some found := by
    rintro ⟨⟩
    change (monitor.ctxs.erase (monitor.object ref).id).get? other = some ref at here
    rw [Dict.get?_erase] at here
    split_ifs at here with same
    exact same (sound.stored other ref here).2.symm
  have kept := sound.discard (monitor.object ref).id
  exact ⟨kept.stored, fun other found here _ => kept.timely other found here (others here),
    kept.covered.imp_right fun covered other found here _ => covered other found here (others here)⟩

section Answer

omit [CommRing Time] [LinearOrder Time]

variable {heard : Bool × SyncContext Time}

@[simp] theorem object_answer : (monitor.answer ref heard).object = (monitor.setContext ref heard.2).object := by
  unfold answer
  split_ifs <;> rfl

@[simp] theorem ctxs_answer : (monitor.answer ref heard).ctxs = monitor.ctxs := by
  unfold answer
  split_ifs <;> rfl

@[simp] theorem created_answer : (monitor.answer ref heard).created = monitor.created := by
  unfold answer
  split_ifs <;> rfl

@[simp] theorem clock_answer : (monitor.answer ref heard).clock = monitor.clock := by
  unfold answer
  split_ifs <;> rfl

@[simp] theorem dueTimes_answer : (monitor.answer ref heard).dueTimes = monitor.dueTimes := by
  unfold answer
  split_ifs <;> rfl

@[simp] theorem phase_answer : (monitor.answer ref heard).phase = monitor.phase := by
  unfold answer
  split_ifs <;> rfl

@[simp] theorem running_answer : (monitor.answer ref heard).running = monitor.running := by
  unfold answer
  split_ifs <;> rfl

theorem earlyWakeup_answer : (monitor.answer ref heard).earlyWakeup = (heard.1 || monitor.earlyWakeup) := by
  unfold answer
  cases heard.1 <;> rfl

end Answer

/-- What one context hears of changes nothing for the others. -/
theorem SoundFor.answer (sound : monitor.SoundFor exempt) {heard : Bool × SyncContext Time}
    (hears : Heard monitor.clock (monitor.object ref) heard) (later : monitor.clock ≤ monitor.clock + 30) :
    (monitor.answer ref heard).SoundFor exempt where
  stored := by
    intro id other found
    rw [ctxs_answer] at found
    rw [created_answer, object_answer]
    obtain ⟨old, same⟩ := sound.stored id other found
    refine ⟨old, ?_⟩
    by_cases equal : other = ref
    · rw [equal, object_setContext_self, hears.id, ← equal, same]
    · rw [object_setContext_of_ne equal, same]
  timely := by
    intro id other found distinct
    rw [ctxs_answer] at found
    rw [clock_answer, object_answer]
    have timely := sound.timely id other found distinct
    by_cases equal : other = ref
    · rw [equal, object_setContext_self]
      exact hears.timely _ later (equal ▸ timely)
    · rwa [object_setContext_of_ne equal]
  covered := by
    rw [earlyWakeup_answer]
    cases wakes : heard.1 with
    | true => exact .inl (Bool.true_or _)
    | false =>
      rw [Bool.false_or]
      refine sound.covered.imp_right fun covered id other found distinct => ?_
      rw [ctxs_answer] at found
      refine (covered id other found distinct).of_same phase_answer
        (fun due member => by rwa [dueTimes_answer]) ?_
      rw [object_answer]
      by_cases equal : other = ref
      · rw [equal, object_setContext_self, (hears.asleep wakes).1]
      · rw [object_setContext_of_ne equal]

/-- What a running action may rely on. -/
structure Proper (monitor : SyncMonitor Time) (action : SyncAction Time) : Prop where
  startedOn : action.startedOn ≤ monitor.clock
  minDueTime : ∀ least, action.stage = .vacuuming (some least) → least ≤ monitor.clock + 30
  busy : monitor.Busy
  unloaded : action.stage = .loading → (monitor.object action.ctx).changesLoaded = false

/-- All contexts of the store are timely and covered, but the one of the running action. -/
structure Sound (monitor : SyncMonitor Time) : Prop where
  contexts : monitor.SoundFor (monitor.running.map (·.ctx))
  action : ∀ action, monitor.running = some action → monitor.Proper action

theorem SoundFor.sound_of_idle (sound : monitor.SoundFor none) (idle : monitor.running = none) : monitor.Sound where
  contexts := by rwa [idle]
  action := by simp [idle]

theorem sound_of_running (running : monitor.running = some action) (sound : monitor.SoundFor (some action.ctx))
    (proper : monitor.Proper action) : monitor.Sound where
  contexts := by rwa [running]
  action := by
    intro other same
    cases running.symm.trans same
    exact proper

theorem Sound.contexts_of_idle (sound : monitor.Sound) (idle : monitor.running = none) : monitor.SoundFor none := by
  simpa [idle] using sound.contexts

variable [IsStrictOrderedRing Time]

theorem clock_le_add_thirty (clock : Time) : clock ≤ clock + 30 := by linarith

theorem Sound.answer (sound : monitor.Sound) {heard : Bool × SyncContext Time}
    (hears : Heard monitor.clock (monitor.object ref) heard) : (monitor.answer ref heard).Sound where
  contexts := by
    rw [running_answer]
    exact sound.contexts.answer hears (clock_le_add_thirty _)
  action := by
    rw [running_answer]
    intro action running
    have proper := sound.action action running
    refine ⟨by rw [clock_answer]; exact proper.startedOn, by rw [clock_answer]; exact proper.minDueTime,
      by rw [Busy, phase_answer]; exact proper.busy, fun loading => ?_⟩
    rw [object_answer]
    by_cases same : action.ctx = ref
    · rw [same, object_setContext_self, hears.changesLoaded, ← same, proper.unloaded loading]
    · rw [object_setContext_of_ne same, proper.unloaded loading]

omit [IsStrictOrderedRing Time] in
theorem Sound.get (sound : monitor.Sound) (id : EntryID) : (monitor.get id).1.Sound := by
  have same := sameTask_get monitor id
  refine ⟨by rw [same.running]; exact sound.contexts.get id, ?_⟩
  rw [same.running]
  intro action running
  have proper := sound.action action running
  exact ⟨by rw [same.clock]; exact proper.startedOn, by rw [same.clock]; exact proper.minDueTime,
    by rw [Busy, same.phase]; exact proper.busy, fun loading => unloaded_get (proper.unloaded loading)⟩

omit [CommRing Time] [LinearOrder Time] [IsStrictOrderedRing Time] in
theorem notify_eq (monitor : SyncMonitor Time) (id : EntryID) (change : SyncContext Time → Bool × SyncContext Time) :
    monitor.notify id change = (monitor.get id).2.elim (monitor.get id).1 fun ref =>
      (monitor.get id).1.answer ref (change ((monitor.get id).1.object ref)) := rfl

theorem Sound.notify (sound : monitor.Sound) {change : SyncContext Time → Bool × SyncContext Time}
    (hears : ∀ ctx, Heard monitor.clock ctx (change ctx)) : (monitor.notify id change).Sound := by
  rw [notify_eq]
  have got := sound.get id
  have clock := (sameTask_get monitor id).clock
  cases (monitor.get id).2 with
  | none => exact got
  | some ref => exact got.answer (clock.symm ▸ hears _)

omit [IsStrictOrderedRing Time] in
theorem Sound.discard (sound : monitor.Sound) (id : EntryID) : (monitor.discard id).Sound :=
  ⟨sound.contexts.discard id, fun action running =>
    ⟨(sound.action action running).startedOn, (sound.action action running).minDueTime,
      (sound.action action running).busy, (sound.action action running).unloaded⟩⟩

/-- At its end a tick notes when its context is due. -/
theorem SoundFor.conclude (sound : monitor.SoundFor (some action.ctx)) (busy : monitor.Busy)
    (startedOn : action.startedOn ≤ monitor.clock) {minDueTime : Option Time}
    (minLe : ∀ least ∈ minDueTime, least ≤ monitor.clock + 30) : (monitor.conclude action minDueTime).Sound := by
  have later := clock_le_add_thirty monitor.clock
  have computed := sound.setContext ((monitor.object action.ctx).computeDueTime monitor.clock
    (some action.startedOn) minDueTime) rfl
  have finished := computed.finish_own busy (fun _ _ => by
    rw [object_setContext_self]
    refine fun _ => dueBy_computeDueTime later (fun time given => ?_) minLe
    cases given
    exact startedOn.trans later)
  rw [object_setContext_self] at finished
  exact finished.sound_of_idle rfl

omit [IsStrictOrderedRing Time] in
/-- A crash puts a new context in the place of that of the action. -/
theorem SoundFor.crash (sound : monitor.SoundFor (some action.ctx)) (busy : monitor.Busy) :
    (monitor.crash action).Sound := by
  have got := sound.discard_own.get (monitor.object action.ctx).id
  have same := sameTask_get (monitor.discard (monitor.object action.ctx).id) (monitor.object action.ctx).id
  have cases := get_cases (monitor.discard (monitor.object action.ctx).id) (monitor.object action.ctx).id
  rw [SyncMonitor.crash]
  rcases cases with ⟨ref, found, _⟩ | ⟨_, none⟩ | ⟨readOnly, _, made⟩
  · change (monitor.ctxs.erase (monitor.object action.ctx).id).get? (monitor.object action.ctx).id = some ref
      at found
    simp at found
  · rw [none] at got ⊢
    exact (got.finish ⊤).sound_of_idle rfl
  · rw [made] at got same ⊢
    have fresh : ((monitor.discard (monitor.object action.ctx).id).create
        { id := (monitor.object action.ctx).id, readOnly }).1.object monitor.created =
          { id := (monitor.object action.ctx).id, readOnly } :=
      Function.update_self _ _ _
    have dued := (got.weaken (some monitor.created)).setContext ({ (SyncMonitor.object _ monitor.created) with
      dueTime := ((monitor.clock + 5 : Time) : WithTop Time) }) rfl
    have finished := dued.finish_own (by rw [Busy]; exact same.phase.symm ▸ busy) (fun _ _ => by
      rw [object_setContext_self, fresh]
      exact timely_of_not_loaded rfl)
    rw [object_setContext_self] at finished
    exact finished.sound_of_idle rfl

omit [IsStrictOrderedRing Time] in
theorem SoundFor.startLoading (sound : monitor.SoundFor (some ref)) (busy : monitor.Busy) (method : SyncMethod)
    (unloaded : (monitor.object ref).changesLoaded = false) : (monitor.startLoading ref method).Sound := by
  have started : (monitor.startLoading ref method).SoundFor (some ref) :=
    (sound.setContext ({ monitor.object ref with dueTime := ⊤ }) rfl).run _
  refine sound_of_running rfl started
    ⟨le_rfl, fun _ other => (by cases other), busy, fun _ => ?_⟩
  change ((monitor.setContext ref { monitor.object ref with dueTime := ⊤ }).object ref).changesLoaded = false
  rw [object_setContext_self, unloaded]

omit [IsStrictOrderedRing Time] in
theorem SoundFor.bootstrap (sound : monitor.SoundFor none) (busy : monitor.Busy) : (monitor.bootstrap ref).Sound := by
  rw [SyncMonitor.bootstrap]
  split_ifs with loaded
  · exact ((sound.weaken _).finish_own busy fun id found =>
      sound.timely id ref found (Option.some_ne_none ref).symm).sound_of_idle rfl
  · exact (sound.weaken _).startLoading busy .bootstrap (Bool.eq_false_iff.mpr loaded)

omit [IsStrictOrderedRing Time] in
theorem SoundFor.startSync (sound : monitor.SoundFor (some action.ctx)) (busy : monitor.Busy)
    (startedOn : action.startedOn ≤ monitor.clock) {ctx : SyncContext Time}
    (same : ctx.id = (monitor.object action.ctx).id) {stage : TickStage Time}
    (syncs : ∀ least, stage ≠ .vacuuming least) (loads : stage ≠ .loading) :
    (monitor.startSync action ctx stage).Sound := by
  have started : (monitor.startSync action ctx stage).SoundFor (some action.ctx) := (sound.setContext ctx same).run _
  exact sound_of_running rfl started
    ⟨startedOn, fun least vacuuming => absurd vacuuming (syncs _), busy, fun loading => absurd loading loads⟩

theorem SoundFor.syncNext (sound : monitor.SoundFor (some action.ctx)) (busy : monitor.Busy)
    (startedOn : action.startedOn ≤ monitor.clock) {popped : EntryID} {next : SyncMonitor Time}
    (taken : monitor.syncNext action popped = some next) : next.Sound := by
  simp only [SyncMonitor.syncNext] at taken
  split_ifs at taken
  · cases taken
    refine sound.startSync busy startedOn ?_ (fun least other => ?_) fun other => ?_
    · rfl
    · cases other
    · cases other
  · cases due : (monitor.object action.ctx).dueChange? action.startedOn with
    | some entryId =>
      rw [due] at taken
      cases taken
      refine sound.startSync busy startedOn ?_ (fun least other => ?_) fun other => ?_
      · rfl
      · cases other
      · cases other
    | none =>
      rw [due] at taken
      cases taken
      exact sound.conclude busy startedOn fun _ given => by cases given

theorem SoundFor.tick (sound : monitor.SoundFor (some ref)) (busy : monitor.Busy)
    (timely : ∀ id, monitor.ctxs.get? id = some ref → (monitor.object ref).Timely (monitor.clock + 30))
    {popped : EntryID} {next : SyncMonitor Time} (taken : monitor.tick ref popped = some next) : next.Sound := by
  rw [SyncMonitor.tick] at taken
  split_ifs at taken with _ loaded
  · cases taken
    exact (sound.finish_own busy timely).sound_of_idle rfl
  · have begun : monitor.SoundFor (some (SyncAction.mk ref .tick monitor.clock .loading).ctx) := sound
    exact begun.syncNext busy le_rfl taken
  · cases taken
    exact sound.startLoading busy .tick (Bool.eq_false_iff.mpr loaded)

theorem Sound.proceed (sound : monitor.Sound) (idle : monitor.running = none) {popped : EntryID}
    {next : SyncMonitor Time} (taken : monitor.proceed popped = some next) : next.Sound := by
  have contexts := sound.contexts_of_idle idle
  rw [SyncMonitor.proceed] at taken
  cases phase : monitor.phase with
  | bootstrapping rest =>
    rw [phase] at taken
    cases rest with
    | none => cases taken
    | some rest =>
      cases rest with
      | nil => cases taken
      | cons id rest =>
        have moved : { monitor with phase := .bootstrapping (some rest) }.SoundFor none :=
          ⟨contexts.stored, contexts.timely, contexts.covered.imp_right fun covered id ref found distinct => by
            have covers := covered id ref found distinct
            unfold Covers at covers
            rw [phase] at covers
            exact covers⟩
        have step : next = ({ monitor with phase := .bootstrapping (some rest) }.get id).2.elim
            ({ monitor with phase := .bootstrapping (some rest) }.get id).1
            ({ monitor with phase := .bootstrapping (some rest) }.get id).1.bootstrap :=
          (Option.some_inj.mp taken).symm
        have got := moved.get id
        have same := sameTask_get { monitor with phase := .bootstrapping (some rest) } id
        rw [step]
        cases ({ monitor with phase := .bootstrapping (some rest) }.get id).2 with
        | none => exact got.sound_of_idle (same.running.trans idle)
        | some ref => exact got.bootstrap fun next waiting => by cases same.phase.symm.trans waiting
  | ticking rest =>
    rw [phase] at taken
    cases rest with
    | nil => cases taken
    | cons ref rest =>
      have moved : { monitor with phase := .ticking rest }.SoundFor (some ref) :=
        ⟨contexts.stored, fun id other found _ => contexts.timely id other found (Option.some_ne_none other).symm,
          contexts.covered.imp_right fun covered id other found distinct => by
            have covers := covered id other found (Option.some_ne_none other).symm
            unfold Covers at covers
            rw [phase] at covers
            have rest : other ∈ ref :: rest → other ∈ rest :=
              fun member => (List.mem_cons.mp member).resolve_left fun same => distinct (by rw [same])
            exact covers.imp_right fun either => either.imp_right rest⟩
      exact moved.tick (fun next waiting => by cases waiting)
        (fun id found => contexts.timely id ref found (Option.some_ne_none ref).symm) taken
  | waiting next =>
    rw [phase] at taken
    cases taken
  | stopped =>
    rw [phase] at taken
    cases taken

theorem SoundFor.loaded (sound : monitor.SoundFor (some action.ctx)) (proper : monitor.Proper action)
    (loading : action.stage = .loading) {outcome : LoadOutcome} {popped : EntryID} {next : SyncMonitor Time}
    (taken : monitor.loaded listed action popped outcome = some next) : next.phase = .stopped ∨ next.Sound := by
  cases outcome with
  | offline =>
    cases taken
    exact .inl rfl
  | crashed =>
    cases taken
    exact .inr (sound.crash proper.busy)
  | refused =>
    cases taken
    exact .inr ((sound.finish_own proper.busy fun _ _ => timely_of_not_loaded (proper.unloaded loading)).sound_of_idle
      rfl)
  | changes needSyncLocal needSyncRemote =>
    have loaded := sound.setContext ((monitor.object action.ctx).load listed monitor.clock needSyncLocal
      needSyncRemote) rfl
    cases method : action.method with
    | bootstrap =>
      simp only [SyncMonitor.loaded, method, Option.some.injEq] at taken
      have finished := loaded.finish_own proper.busy (fun _ _ => by
        rw [object_setContext_self]
        exact timely_load (clock_le_add_thirty _))
      rw [object_setContext_self] at finished
      exact .inr (taken ▸ finished.sound_of_idle rfl)
    | tick =>
      simp only [SyncMonitor.loaded, method] at taken
      exact .inr (loaded.syncNext proper.busy proper.startedOn taken)

theorem SoundFor.syncedRemote (sound : monitor.SoundFor (some action.ctx)) (proper : monitor.Proper action)
    {entryId : EntryID} (outcome : SyncOutcome) :
    (monitor.syncedRemote action entryId outcome).phase = .stopped ∨
      (monitor.syncedRemote action entryId outcome).Sound := by
  have concluded : (monitor.conclude action none).Sound :=
    sound.conclude proper.busy proper.startedOn fun _ given => by cases given
  have retried (wait : Time) (short : wait ≤ 30) :
      (syncedRemote.retry monitor action entryId wait).Sound := by
    have kept := sound.setContext ({ monitor.object action.ctx with
      remoteChanges := insert entryId (monitor.object action.ctx).remoteChanges }) rfl
    refine kept.conclude proper.busy proper.startedOn fun least given => ?_
    cases given
    exact add_le_add proper.startedOn short
  cases outcome with
  | done => exact .inr concluded
  | noWriteAccess => exact .inr concluded
  | offline => exact .inl rfl
  | crashed => exact .inr (sound.crash proper.busy)
  | noReadAccess => exact .inr (retried 1 (by norm_num))
  | inMaintenance => exact .inr (retried 30 le_rfl)

theorem SoundFor.vacuum (sound : monitor.SoundFor (some action.ctx)) (busy : monitor.Busy)
    (startedOn : action.startedOn ≤ monitor.clock) {minDueTime : Option Time}
    (minLe : ∀ least ∈ minDueTime, least ≤ monitor.clock + 30) :
    (syncedLocal.vacuum action monitor minDueTime).Sound := by
  rw [syncedLocal.vacuum]
  split_ifs
  · refine sound_of_running rfl (sound.run (some { action with stage := .vacuuming minDueTime }))
      ⟨startedOn, fun least same => ?_, busy, fun other => ?_⟩
    · cases same
      exact minLe least rfl
    · cases other
  · exact sound.conclude busy startedOn minLe

theorem SoundFor.syncedLocal (sound : monitor.SoundFor (some action.ctx)) (proper : monitor.Proper action)
    {entryId : EntryID} (outcome : SyncOutcome) :
    (monitor.syncedLocal action entryId outcome).phase = .stopped ∨
      (monitor.syncedLocal action entryId outcome).Sound := by
  have kept : (syncedLocal.keepTrack monitor action entryId).SoundFor (some action.ctx) := sound.setContext _ rfl
  have tracked : (syncedLocal.vacuum action (syncedLocal.keepTrack monitor action entryId) none).Sound :=
    kept.vacuum proper.busy proper.startedOn fun _ given => by cases given
  cases outcome with
  | done => exact .inr (sound.vacuum proper.busy proper.startedOn fun _ given => by cases given)
  | offline => exact .inl rfl
  | crashed => exact .inr (sound.crash proper.busy)
  | noReadAccess => exact .inr tracked
  | noWriteAccess => exact .inr tracked
  | inMaintenance =>
    refine .inr (kept.vacuum proper.busy proper.startedOn fun least given => ?_)
    cases given
    exact add_le_add proper.startedOn le_rfl

/-- What goes on from an answer that an action has waited for. -/
theorem Sound.resume (sound : monitor.Sound) (running : monitor.running = some action) {label : Label Time}
    {next : SyncMonitor Time} (taken : monitor.resume listed action label = some next) :
    next.phase = .stopped ∨ next.Sound := by
  have contexts : monitor.SoundFor (some action.ctx) := by simpa [running] using sound.contexts
  have proper := sound.action action running
  cases label with
  | loaded outcome popped =>
    rw [SyncMonitor.resume] at taken
    split_ifs at taken with loading
    exact contexts.loaded proper loading taken
  | synced outcome =>
    rw [SyncMonitor.resume] at taken
    split at taken
    · cases taken
      exact contexts.syncedRemote proper outcome
    · cases taken
      exact contexts.syncedLocal proper outcome
    · cases taken
  | vacuumed crashed =>
    rw [SyncMonitor.resume] at taken
    split at taken
    · next minDueTime stage =>
      cases taken
      split_ifs
      · exact .inr (contexts.crash proper.busy)
      · refine .inr (contexts.conclude proper.busy proper.startedOn fun least given => ?_)
        cases given
        exact proper.minDueTime least stage
    · cases taken
  | _ => cases taken

omit [IsStrictOrderedRing Time] in
/-- The end of a round waits for the earliest of the times that are noted. -/
theorem Sound.roundEnds (sound : monitor.Sound) (idle : monitor.running = none) {next : SyncMonitor Time}
    (taken : monitor.roundEnds = some next) : next.Sound := by
  have contexts := sound.contexts_of_idle idle
  rw [SyncMonitor.roundEnds] at taken
  split_ifs at taken with ended
  obtain ⟨deadline, least, rfl⟩ := Option.map_eq_some_iff.mp taken
  have earliest := List.min?_eq_some_iff.mp least
  refine SoundFor.sound_of_idle ⟨contexts.stored, contexts.timely, ?_⟩ idle
  refine contexts.covered.imp_right fun covered id ref found distinct => ?_
  have covers := covered id ref found distinct
  change deadline ≤ (monitor.object ref).dueTime
  have noted : (monitor.object ref).dueTime = ⊤ ∨ monitor.Noted (monitor.object ref).dueTime := by
    unfold Covers at covers
    rcases ended with phase | phase
    · rw [phase] at covers
      exact covers
    · rw [phase] at covers
      exact covers.imp_right fun either => either.resolve_right (List.not_mem_nil)
  rcases noted with top | ⟨due, member, le⟩
  · exact top ▸ le_top
  · exact (earliest.2 due member).trans le

omit [IsStrictOrderedRing Time] in
/-- Whoever wakes up goes round all contexts of the store. -/
theorem Sound.wake (sound : monitor.Sound) (idle : monitor.running = none) {timedOut : Bool}
    {next : SyncMonitor Time} (taken : monitor.wake timedOut = some next) : next.Sound := by
  have contexts := sound.contexts_of_idle idle
  have round (status : MonitorStatus) (early : Bool) :
      { monitor with dueTimes := [], phase := .ticking monitor.ctxs.values, status, earlyWakeup := early }.Sound :=
    SoundFor.sound_of_idle ⟨contexts.stored, contexts.timely, .inr fun id ref found _ =>
      .inr (.inr (Dict.mem_values_iff.mpr ⟨id, found⟩))⟩ idle
  rw [SyncMonitor.wake] at taken
  split at taken
  · split_ifs at taken
    · cases taken
      exact round _ _
    · cases taken
      exact round _ _
  · cases taken

theorem Sound.goOn (sound : monitor.Sound) (idle : monitor.running = none) {label : Label Time}
    {next : SyncMonitor Time} (taken : monitor.goOn label = some next) : next.Sound := by
  cases label with
  | listWorkspaces =>
    have contexts := sound.contexts_of_idle idle
    rw [SyncMonitor.goOn] at taken
    split_ifs at taken with phase
    cases taken
    refine SoundFor.sound_of_idle ⟨contexts.stored, contexts.timely, ?_⟩ idle
    refine contexts.covered.imp_right fun covered id ref found distinct => ?_
    have covers := covered id ref found distinct
    unfold Covers at covers
    rw [phase] at covers
    exact covers
  | proceed popped => exact sound.proceed idle taken
  | roundEnds => exact sound.roundEnds idle taken
  | wake timedOut => exact sound.wake idle taken
  | _ => cases taken

end Guardata.SyncMonitor
