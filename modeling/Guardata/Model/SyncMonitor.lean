import Mathlib.Algebra.Order.Ring.Defs
import Mathlib.Algebra.Order.Monoid.Unbundled.WithTop
import Mathlib.Order.WithBot
import Guardata.Model.UserManifest
import Guardata.ToMathlib.PoppedWalks

/-! # The monitor that synchronizes what has changed

For each workspace, and for the user manifest, a context keeps track of the local changes that are to be uploaded
and of the remote changes that are to be downloaded, and of the time at which it has something to do. One task
goes round: it makes each context take one step, and sleeps until the earliest time that it was told; the
callbacks of the event bus change the contexts at any time, also while a step waits for the backend, and wake the
task up if it sleeps for too long.

Times are those of an ordered ring whose unit is a second; the rounding of the clock is left out. The order in
which a set is walked through is an argument. A context is an object that a running step may still hold when it
is replaced in the store, so that contexts are kept by number.
-/

namespace Guardata

section Contexts

variable {Time : Type} [CommRing Time] [LinearOrder Time]

structure LocalChange (Time : Type) where
  firstChangedOn : Time
  lastChangedOn : Time
deriving DecidableEq

namespace LocalChange

def new (now : Time) : LocalChange Time := ⟨now, now⟩

/-- `due_time`, which is computed anew with each change. -/
def dueTime (change : LocalChange Time) : Time := min (change.lastChangedOn + 1) (change.firstChangedOn + 60)

def changed (change : LocalChange Time) (changedOn : Time) : LocalChange Time :=
  { change with lastChangedOn := changedOn }

end LocalChange

structure SyncContext (Time : Type) where
  id : EntryID
  readOnly : Bool
  dueTime : WithTop Time := ⊤
  changesLoaded : Bool := false
  localChanges : Dict EntryID (LocalChange Time) := ∅
  remoteChanges : Finset EntryID := ∅
  confinedEntries : Dict EntryID (Finset EntryID) := ∅

namespace SyncContext

variable (listed : Finset EntryID → List EntryID) (ctx : SyncContext Time)

/-- What `set_local_change` does for the entry itself. -/
def touch (now : Time) (entryId : EntryID) : Bool × SyncContext Time :=
  let change := ((ctx.localChanges.get? entryId).map (·.changed now)).getD (.new now)
  let ctx := { ctx with localChanges := ctx.localChanges.insert entryId change }
  if (change.dueTime : WithTop Time) ≤ ctx.dueTime then (true, { ctx with dueTime := change.dueTime })
  else (false, ctx)

/-- `set_local_change`, which calls itself on the entries that were confined because of the entry. -/
def setLocalChangeWithin (now : Time) : ℕ → SyncContext Time → EntryID → Bool × SyncContext Time
  | 0, ctx, _ => (false, ctx)
  | fuel + 1, ctx, entryId =>
    if ctx.readOnly then (false, ctx) else
      let confined := (ctx.confinedEntries.get? entryId).getD ∅
      let ctx := { ctx with confinedEntries := ctx.confinedEntries.erase entryId }
      let (wakeUp, ctx) := (listed confined).foldl
        (fun marked entry =>
          let (wakes, ctx) := setLocalChangeWithin now fuel marked.2 entry
          (marked.1 || wakes, ctx))
        (false, ctx)
      let (wakes, ctx) := ctx.touch now entryId
      (wakeUp || wakes, ctx)

/-- Each call but the last takes a key out of the dictionary of confined entries. -/
def setLocalChange (now : Time) (entryId : EntryID) : Bool × SyncContext Time :=
  setLocalChangeWithin listed now (ctx.confinedEntries.items.length + 1) ctx entryId

def setRemoteChange (now : Time) (entryId : EntryID) : SyncContext Time :=
  { ctx with remoteChanges := insert entryId ctx.remoteChanges, dueTime := now }

def setConfinedEntry (entryId causeId : EntryID) : SyncContext Time :=
  let confined := (ctx.confinedEntries.get? causeId).getD ∅
  { ctx with confinedEntries := ctx.confinedEntries.insert causeId (insert entryId confined) }

/-- The least due time of the local changes, infinite if there are none. -/
def earliestDue : WithTop Time :=
  (ctx.localChanges.values.map fun change => (change.dueTime : WithTop Time)).foldr min ⊤

/-- `_compute_due_time` at a time of the clock; a zero is taken as an argument that is not given. -/
def computeDueTime (clock : Time) (now minDueTime : Option Time) : SyncContext Time :=
  let due : WithTop Time :=
    if ctx.remoteChanges.Nonempty then ((now.filter (· ≠ 0)).getD clock : Time) else ctx.earliestDue
  { ctx with dueTime := ((minDueTime.filter (· ≠ 0)).map fun least => max due (least : WithTop Time)).getD due }

/-- The first local change that is due, in the order of the dictionary. -/
def dueChange? (now : Time) : Option EntryID :=
  (ctx.localChanges.items.find? fun entry => entry.2.dueTime ≤ now).map Prod.fst

/-- The end of `_load_changes`: what the storage lists is what is to be synchronized. -/
def load (now : Time) (needSyncLocal needSyncRemote : Finset EntryID) : SyncContext Time :=
  let localChanges := if ctx.readOnly then ctx.localChanges
    else .ofList ((listed needSyncLocal).map fun entryId => (entryId, LocalChange.new now))
  { ({ ctx with localChanges, remoteChanges := needSyncRemote }.computeDueTime now none none) with
    changesLoaded := true }

end SyncContext

end Contexts

/-- How the loading of the changes ends. -/
inductive LoadOutcome where
  | changes (needSyncLocal needSyncRemote : Finset EntryID)
  /-- The backend refuses, or gives an unexpected answer. -/
  | refused
  | offline
  | crashed
deriving DecidableEq

/-- How the synchronization of an entry ends. -/
inductive SyncOutcome where
  | done
  | offline
  | noReadAccess
  | noWriteAccess
  | inMaintenance
  | crashed
deriving DecidableEq, Repr

/-- What a step of a context waits for. -/
inductive TickStage (Time : Type) where
  | loading
  | syncingRemote (entryId : EntryID)
  | syncingLocal (entryId : EntryID)
  | vacuuming (minDueTime : Option Time)
deriving DecidableEq

inductive SyncMethod where
  | bootstrap
  | tick
deriving DecidableEq, Repr

/-- A `_ctx_action` that waits. -/
structure SyncAction (Time : Type) where
  ctx : ℕ
  method : SyncMethod
  startedOn : Time
  stage : TickStage Time
deriving DecidableEq

/-- Where `monitor_sync` stands. -/
inductive SyncPhase (Time : Type) where
  /-- The workspaces to bootstrap are not known before the user manifest is bootstrapped. -/
  | bootstrapping (rest : Option (List EntryID))
  | waiting (nextDueTime : WithTop Time)
  | ticking (rest : List ℕ)
  | stopped
deriving DecidableEq

inductive MonitorStatus where
  | stalled
  | awake
  | idle
deriving DecidableEq, Repr

structure SyncMonitor (Time : Type) where
  clock : Time
  userManifestId : EntryID
  /-- The workspaces of the user manifest with the roles in them. -/
  workspaces : Dict EntryID (Option RealmRole)
  object : ℕ → SyncContext Time := fun _ => ⟨0, false, ⊤, false, ∅, ∅, ∅⟩
  created : ℕ := 0
  ctxs : Dict EntryID ℕ := ∅
  earlyWakeup : Bool := false
  status : MonitorStatus := .stalled
  dueTimes : List (WithTop Time) := []
  phase : SyncPhase Time
  running : Option (SyncAction Time) := none

namespace SyncMonitor

variable {Time : Type} [CommRing Time] [LinearOrder Time]
variable (listed : Finset EntryID → List EntryID) (monitor : SyncMonitor Time)

def setContext (ref : ℕ) (ctx : SyncContext Time) : SyncMonitor Time :=
  { monitor with object := Function.update monitor.object ref ctx }

/-- A new context is put in the store. -/
def create (ctx : SyncContext Time) : SyncMonitor Time × Option ℕ :=
  ({ monitor.setContext monitor.created ctx with
      created := monitor.created + 1, ctxs := monitor.ctxs.insert ctx.id monitor.created },
    some monitor.created)

/-- `SyncContextStore.get`; a workspace that is not in the user manifest yet has no context. -/
def get (entryId : EntryID) : SyncMonitor Time × Option ℕ :=
  match monitor.ctxs.get? entryId with
  | some ref => (monitor, some ref)
  | none =>
    if entryId = monitor.userManifestId then monitor.create { id := entryId, readOnly := false }
    else match monitor.workspaces.get? entryId with
      | none => (monitor, none)
      | some role => monitor.create { id := entryId, readOnly := role = some .reader }

def discard (entryId : EntryID) : SyncMonitor Time := { monitor with ctxs := monitor.ctxs.erase entryId }

def triggerEarlyWakeup : SyncMonitor Time := { monitor with earlyWakeup := true, status := .awake }

/-- A context is changed, and the task is woken up if that is called for. -/
def answer (ref : ℕ) (heard : Bool × SyncContext Time) : SyncMonitor Time :=
  if heard.1 then (monitor.setContext ref heard.2).triggerEarlyWakeup else monitor.setContext ref heard.2

/-- A callback finds its context, if there is one, and changes it. -/
def notify (id : EntryID) (change : SyncContext Time → Bool × SyncContext Time) : SyncMonitor Time :=
  let (monitor, ref) := monitor.get id
  ref.elim monitor fun ref => monitor.answer ref (change (monitor.object ref))

/-- The `id` of an entry of the user manifest is its own. -/
def onEntryUpdated (id : EntryID) (workspaceId : Option EntryID) : Option (SyncMonitor Time) :=
  if workspaceId = none ∧ id ≠ monitor.userManifestId then none
  else some (monitor.notify (workspaceId.getD id) fun ctx => ctx.setLocalChange listed monitor.clock id)

def onRealmVlobsUpdated (realmId srcId : EntryID) : SyncMonitor Time :=
  monitor.notify realmId fun ctx => (true, ctx.setRemoteChange monitor.clock srcId)

/-- The context starts over; its due time is set so that it understands that the wake-up is for it. -/
def onSharingUpdated (id : EntryID) (role : Option RealmRole) : SyncMonitor Time :=
  let monitor := monitor.discard id
  if role = none then monitor
  else monitor.notify id fun ctx => (true, { ctx with dueTime := monitor.clock })

def onEntryConfined (entryId causeId workspaceId : EntryID) : SyncMonitor Time :=
  monitor.notify workspaceId fun ctx => (false, ctx.setConfinedEntry entryId causeId)

/-- A step of a context returns its due time. -/
def finish (dueTime : WithTop Time) : SyncMonitor Time :=
  { monitor with dueTimes := monitor.dueTimes ++ [dueTime], running := none }

/-- `BackendNotAvailable` ends the monitor. -/
def stop : SyncMonitor Time := { monitor with phase := .stopped, running := none }

/-- The end of a tick. -/
def conclude (action : SyncAction Time) (minDueTime : Option Time) : SyncMonitor Time :=
  let ctx := (monitor.object action.ctx).computeDueTime monitor.clock (some action.startedOn) minDueTime
  (monitor.setContext action.ctx ctx).finish ctx.dueTime

/-- The small cooldown of a new context after a crash. -/
def coolDown (ref : ℕ) : SyncMonitor Time :=
  let dueTime : Time := monitor.clock + 5
  (monitor.setContext ref { monitor.object ref with dueTime }).finish dueTime

/-- Any other exception: the context is in an undefined state, so that there is a new one. -/
def crash (action : SyncAction Time) : SyncMonitor Time :=
  let id := (monitor.object action.ctx).id
  let (monitor, ref) := (monitor.discard id).get id
  ref.elim (monitor.finish ⊤) monitor.coolDown

/-- The steps of `_load_changes` up to the answer of the backend. -/
def startLoading (ref : ℕ) (method : SyncMethod) : SyncMonitor Time :=
  { monitor.setContext ref { monitor.object ref with dueTime := ⊤ } with
    running := some { ctx := ref, method, startedOn := monitor.clock, stage := .loading } }

def bootstrap (ref : ℕ) : SyncMonitor Time :=
  if (monitor.object ref).changesLoaded then monitor.finish (monitor.object ref).dueTime
  else monitor.startLoading ref .bootstrap

/-- An entry is taken out of the changes and synchronized. -/
def startSync (action : SyncAction Time) (ctx : SyncContext Time) (stage : TickStage Time) : SyncMonitor Time :=
  { monitor.setContext action.ctx ctx with running := some { action with stage } }

/-- A tick that has its changes; `pop` takes any of the remote changes. -/
def syncNext (action : SyncAction Time) (popped : EntryID) : Option (SyncMonitor Time) :=
  let ctx := monitor.object action.ctx
  if ctx.remoteChanges.Nonempty then
    if popped ∈ ctx.remoteChanges then
      some (monitor.startSync action { ctx with remoteChanges := ctx.remoteChanges.erase popped }
        (.syncingRemote popped))
    else none
  else match ctx.dueChange? action.startedOn with
    | some entryId =>
      some (monitor.startSync action { ctx with localChanges := ctx.localChanges.erase entryId }
        (.syncingLocal entryId))
    | none => some (monitor.conclude action none)

def tick (ref : ℕ) (popped : EntryID) : Option (SyncMonitor Time) :=
  if (monitor.clock : WithTop Time) < (monitor.object ref).dueTime then
    some (monitor.finish (monitor.object ref).dueTime)
  else if (monitor.object ref).changesLoaded then
    monitor.syncNext ⟨ref, .tick, monitor.clock, .loading⟩ popped
  else some (monitor.startLoading ref .tick)

/-- The next context of a round. -/
def proceed (popped : EntryID) : Option (SyncMonitor Time) :=
  match monitor.phase with
  | .bootstrapping (some (id :: rest)) =>
    let (monitor, ref) := { monitor with phase := .bootstrapping (some rest) }.get id
    some (ref.elim monitor monitor.bootstrap)
  | .ticking (ref :: rest) => { monitor with phase := .ticking rest }.tick ref popped
  | _ => none

/-- What follows on the answer of the backend to `_load_changes`. -/
def loaded (action : SyncAction Time) (popped : EntryID) : LoadOutcome → Option (SyncMonitor Time)
  | .offline => some monitor.stop
  | .crashed => some (monitor.crash action)
  | .refused => some (monitor.finish (monitor.object action.ctx).dueTime)
  | .changes needSyncLocal needSyncRemote =>
    let ctx := (monitor.object action.ctx).load listed monitor.clock needSyncLocal needSyncRemote
    let monitor := monitor.setContext action.ctx ctx
    match action.method with
    | .bootstrap => some (monitor.finish ctx.dueTime)
    | .tick => monitor.syncNext action popped

/-- What follows on the synchronization of a remote change. -/
def syncedRemote (action : SyncAction Time) (entryId : EntryID) : SyncOutcome → SyncMonitor Time
  | .done | .noWriteAccess => monitor.conclude action none
  | .offline => monitor.stop
  | .crashed => monitor.crash action
  | .noReadAccess => retry 1
  | .inMaintenance => retry 30
where
  retry (wait : Time) : SyncMonitor Time :=
    let ctx := monitor.object action.ctx
    (monitor.setContext action.ctx { ctx with remoteChanges := insert entryId ctx.remoteChanges }).conclude action
      (some (action.startedOn + wait))

/-- What follows on the synchronization of a local change; with no local change left, the storage is vacuumed. -/
def syncedLocal (action : SyncAction Time) (entryId : EntryID) : SyncOutcome → SyncMonitor Time
  | .done => vacuum monitor none
  | .offline => monitor.stop
  | .crashed => monitor.crash action
  | .noReadAccess | .noWriteAccess => vacuum keepTrack none
  | .inMaintenance => vacuum keepTrack (some (action.startedOn + 30))
where
  keepTrack : SyncMonitor Time :=
    let ctx := monitor.object action.ctx
    monitor.setContext action.ctx
      { ctx with localChanges := ctx.localChanges.insert entryId (.new action.startedOn) }
  vacuum (monitor : SyncMonitor Time) (minDueTime : Option Time) : SyncMonitor Time :=
    if (monitor.object action.ctx).localChanges.items = [] then
      { monitor with running := some { action with stage := .vacuuming minDueTime } }
    else monitor.conclude action minDueTime

/-- After the last action of a round the monitor sleeps until the earliest due time, and is idle if there is none.
`min` has no value on an empty list. -/
def roundEnds : Option (SyncMonitor Time) :=
  if monitor.phase = .bootstrapping (some []) ∨ monitor.phase = .ticking [] then
    monitor.dueTimes.min?.map fun nextDueTime =>
      { monitor with
        phase := .waiting nextDueTime, status := if nextDueTime = ⊤ then .idle else monitor.status }
  else none

/-- A time-out leaves the event as it is; an early wake-up has set the status already. -/
def wake (timedOut : Bool) : Option (SyncMonitor Time) :=
  match monitor.phase with
  | .waiting nextDueTime =>
    let round := { monitor with dueTimes := [], phase := .ticking monitor.ctxs.values }
    if timedOut then
      if nextDueTime ≤ (monitor.clock : WithTop Time) then some { round with status := .awake } else none
    else if monitor.earlyWakeup then some { round with earlyWakeup := false } else none
  | _ => none

/-- What may happen while the monitor runs. -/
inductive Label (Time : Type) where
  | pass (elapsed : Time)
  | workspacesSet (workspaces : Dict EntryID (Option RealmRole))
  | entryUpdated (id : EntryID) (workspaceId : Option EntryID)
  | vlobsUpdated (realmId srcId : EntryID)
  | sharingUpdated (id : EntryID) (role : Option RealmRole)
  | entryConfined (entryId causeId workspaceId : EntryID)
  /-- The workspaces with a role are to be bootstrapped. -/
  | listWorkspaces
  | proceed (popped : EntryID)
  | loaded (outcome : LoadOutcome) (popped : EntryID)
  | synced (outcome : SyncOutcome)
  | vacuumed (crashed : Bool)
  | roundEnds
  | wake (timedOut : Bool)
deriving DecidableEq

/-- The steps of the task that go on from an answer it has waited for. -/
def resume (action : SyncAction Time) : Label Time → Option (SyncMonitor Time)
  | .loaded outcome popped =>
    if action.stage = .loading then monitor.loaded listed action popped outcome else none
  | .synced outcome =>
    match action.stage with
    | .syncingRemote entryId => some (monitor.syncedRemote action entryId outcome)
    | .syncingLocal entryId => some (monitor.syncedLocal action entryId outcome)
    | _ => none
  | .vacuumed crashed =>
    match action.stage with
    | .vacuuming minDueTime => some (if crashed then monitor.crash action else monitor.conclude action minDueTime)
    | _ => none
  | _ => none

/-- The steps of the task that go on by themselves. -/
def goOn : Label Time → Option (SyncMonitor Time)
  | .listWorkspaces =>
    if monitor.phase = .bootstrapping none then
      some { monitor with
        phase := .bootstrapping (some (monitor.workspaces.filter fun _ role => role.isSome).keys) }
    else none
  | .proceed popped => monitor.proceed popped
  | .roundEnds => monitor.roundEnds
  | .wake timedOut => monitor.wake timedOut
  | _ => none

def advance (label : Label Time) : Option (SyncMonitor Time) :=
  match monitor.running with
  | some action => monitor.resume listed action label
  | none => monitor.goOn label

def step? (label : Label Time) : Option (SyncMonitor Time) :=
  if monitor.phase = .stopped then none
  else match label with
    | .pass elapsed => if 0 ≤ elapsed then some { monitor with clock := monitor.clock + elapsed } else none
    | .workspacesSet workspaces => some { monitor with workspaces }
    | .entryUpdated id workspaceId => monitor.onEntryUpdated listed id workspaceId
    | .vlobsUpdated realmId srcId => some (monitor.onRealmVlobsUpdated realmId srcId)
    | .sharingUpdated id role => some (monitor.onSharingUpdated id role)
    | .entryConfined entryId causeId workspaceId => some (monitor.onEntryConfined entryId causeId workspaceId)
    | label => monitor.advance listed label

/-- With an empty store. -/
def blank (clock : Time) (userManifestId : EntryID) (workspaces : Dict EntryID (Option RealmRole)) :
    SyncMonitor Time :=
  { clock, userManifestId, workspaces, phase := .bootstrapping none }

/-- `monitor_sync` starts with the bootstrap of the context of the user manifest. -/
def start (clock : Time) (userManifestId : EntryID) (workspaces : Dict EntryID (Option RealmRole)) :
    SyncMonitor Time :=
  let (monitor, ref) := (blank clock userManifestId workspaces).get userManifestId
  ref.elim monitor monitor.bootstrap

end SyncMonitor

end Guardata
