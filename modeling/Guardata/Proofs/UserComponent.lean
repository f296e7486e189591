import Guardata.Model.UserComponent

/-! # What the operations on users do

Each operation is inverted once: what it checked, and the store that it leaves behind. Looking up users,
devices and handles in that store is then a matter of rewriting.

A trustchain is extracted by a search through the creators of devices. It visits every device once, so the
devices that were not visited yet bound its depth. What it has collected are the certificates of the visited
devices, and in the end the creators of a visited device are visited too.
-/

namespace Guardata

/-- A user once it is revoked. -/
def UserRecord.revoke (user : UserRecord) (certificate : Signed RevokedUserCertificateContent)
    (certifier : DeviceID) (revokedOn : DateTime) : UserRecord :=
  { user with
    revokedOn := some revokedOn
    revokedUserCertificate := some certificate
    revokedUserCertifier := some certifier }

namespace OrganizationStore

variable {store next : OrganizationStore} {user : UserRecord} {device : Device}

section Lookup

theorem getUser_eq_ok_iff {userId : UserID} :
    store.getUser userId = .ok user ↔ store.users.get? userId = some user :=
  Option.elim_eq_ok_iff

/-- The devices as one table. -/
def device? (store : OrganizationStore) (deviceId : DeviceID) : Option Device :=
  (store.userDevices deviceId.userId).get? deviceId.deviceName

theorem getDevice_eq_ok_iff {deviceId : DeviceID} :
    store.getDevice deviceId = .ok device ↔ store.device? deviceId = some device :=
  Option.elim_eq_ok_iff

@[simp] theorem users_setDevice : (store.setDevice device).users = store.users := rfl

@[simp] theorem humanHandleToUserId_setDevice :
    (store.setDevice device).humanHandleToUserId = store.humanHandleToUserId := rfl

@[simp] theorem users_claimHumanHandle {userId : UserID} {handle : Option HumanHandle} :
    (store.claimHumanHandle userId handle).users = store.users := by
  cases handle <;> rfl

@[simp] theorem devices_claimHumanHandle {userId : UserID} {handle : Option HumanHandle} :
    (store.claimHumanHandle userId handle).devices = store.devices := by
  cases handle <;> rfl

theorem get?_claimHumanHandle {userId : UserID} {handle : Option HumanHandle} {email : String} :
    (store.claimHumanHandle userId handle).humanHandleToUserId.get? email =
      if handle.map (·.email) = some email then handle.map (·, userId)
      else store.humanHandleToUserId.get? email := by
  cases handle with
  | none => rfl
  | some handle => simp [claimHumanHandle, eq_comm]

theorem device?_congr (same : next.devices = store.devices) (deviceId : DeviceID) :
    next.device? deviceId = store.device? deviceId := by
  simp only [device?, userDevices, same]

theorem device?_setDevice (deviceId : DeviceID) : (store.setDevice device).device? deviceId =
    if deviceId = device.deviceId then some device else store.device? deviceId := by
  have parts : deviceId = device.deviceId ↔ deviceId.userId = device.deviceId.userId ∧
      deviceId.deviceName = device.deviceId.deviceName := by
    cases deviceId
    cases device.deviceId
    simp
  by_cases owner : deviceId.userId = device.deviceId.userId
  · by_cases named : deviceId.deviceName = device.deviceId.deviceName <;>
      simp [device?, userDevices, setDevice, parts, owner, named]
  · simp [device?, userDevices, setDevice, parts, owner]

end Lookup

section Operations

theorem checkHumanHandle_eq_ok_iff {handle : Option HumanHandle} {done : Unit} :
    store.checkHumanHandle handle = .ok done ↔
      ∀ claimed, handle = some claimed → store.humanHandleToUserId.get? claimed.email = none := by
  cases handle <;> simp [checkHumanHandle]

theorem createUser_spec (created : store.createUser user device = .ok next) :
    store.users.get? user.userId = none ∧
    (∀ handle, user.humanHandle = some handle → store.humanHandleToUserId.get? handle.email = none) ∧
    next = (({ store with users := store.users.insert user.userId user }).setDevice device).claimHumanHandle
      user.userId user.humanHandle := by
  simp only [createUser, Except.bind_eq_ok_iff, Except.require_eq_ok_iff, checkHumanHandle_eq_ok_iff,
    exists_const, Except.pure_eq_ok_iff] at created
  exact ⟨created.1, created.2.1, created.2.2.symm⟩

theorem users_createUser (created : store.createUser user device = .ok next) (userId : UserID) :
    next.users.get? userId = if userId = user.userId then some user else store.users.get? userId := by
  obtain ⟨-, -, rfl⟩ := createUser_spec created
  simp

theorem device?_createUser (created : store.createUser user device = .ok next) (id : DeviceID) :
    next.device? id = if id = device.deviceId then some device else store.device? id := by
  obtain ⟨-, -, rfl⟩ := createUser_spec created
  rw [device?_congr devices_claimHumanHandle, device?_setDevice]
  rfl

theorem createDevice_spec (created : store.createDevice device = .ok next) :
    (∃ user, store.users.get? device.deviceId.userId = some user) ∧
    store.device? device.deviceId = none ∧ next = store.setDevice device := by
  simp only [createDevice, Except.bind_eq_ok_iff, Except.require_eq_ok_iff, exists_const,
    Except.pure_eq_ok_iff, Dict.contains_eq_true_iff] at created
  exact ⟨created.1, created.2.1, created.2.2.symm⟩

theorem releaseHumanHandle_spec {handle : Option HumanHandle}
    (released : store.releaseHumanHandle handle = .ok next) :
    next.users = store.users ∧ next.devices = store.devices ∧
    ∀ email, next.humanHandleToUserId.get? email =
      if handle.map (·.email) = some email then none else store.humanHandleToUserId.get? email := by
  cases handle with
  | none =>
    cases released
    exact ⟨rfl, rfl, fun email => rfl⟩
  | some handle =>
    simp only [releaseHumanHandle, Except.bind_eq_ok_iff, Except.require_eq_ok_iff, exists_const,
      Except.pure_eq_ok_iff] at released
    obtain ⟨-, rfl⟩ := released
    exact ⟨rfl, rfl, fun email => by simp [eq_comm]⟩

theorem revokeUser_spec {userId : UserID} {certificate : Signed RevokedUserCertificateContent}
    {certifier : DeviceID} {date now : DateTime}
    (done : store.revokeUser userId certificate certifier (some date) now = .ok next) :
    ∃ user, store.users.get? userId = some user ∧ user.revokedOn = none ∧
      next.users = store.users.insert userId (user.revoke certificate certifier date) ∧
      next.devices = store.devices ∧
      ∀ email, next.humanHandleToUserId.get? email =
        if user.humanHandle.map (·.email) = some email then none
        else store.humanHandleToUserId.get? email := by
  simp only [revokeUser, Except.bind_eq_ok_iff, Except.require_eq_ok_iff, exists_const, getUser_eq_ok_iff]
    at done
  obtain ⟨user, found, active, released⟩ := done
  obtain ⟨users, devices, handles⟩ := releaseHumanHandle_spec released
  exact ⟨user, found, active, users, devices, handles⟩

end Operations

section Trustchain

variable {redacted : Bool}

/-- A device and its user are registered. -/
def Known (store : OrganizationStore) (id : DeviceID) : Prop :=
  ∃ user device, store.users.get? id.userId = some user ∧ store.device? id = some device

/-- The devices that signed the certificates of a device and of its user. -/
def Creator (store : OrganizationStore) (id creator : DeviceID) : Prop :=
  ∃ user device, store.users.get? id.userId = some user ∧ store.device? id = some device ∧
    (device.deviceCertifier = some creator ∨ user.revokedUserCertifier = some creator ∨
      user.userCertifier = some creator)

/-- What was collected are the certificates of the visited devices. -/
structure Mirrors (store : OrganizationStore) (redacted : Bool) (extracted : ExtractedCreators) : Prop where
  known : ∀ id ∈ extracted.inTrustchain, store.Known id
  devices : ∀ certif, certif ∈ extracted.devices ↔ ∃ id ∈ extracted.inTrustchain, ∃ device,
    store.device? id = some device ∧ certif = device.certificate redacted
  users : ∀ certif, certif ∈ extracted.users ↔ ∃ id ∈ extracted.inTrustchain, ∃ user,
    store.users.get? id.userId = some user ∧ certif = user.certificate redacted
  revokedUsers : ∀ certif, certif ∈ extracted.revokedUsers ↔ ∃ id ∈ extracted.inTrustchain, ∃ user,
    store.users.get? id.userId = some user ∧ user.revokedUserCertificate = some certif

theorem mirrors_empty : store.Mirrors redacted {} :=
  ⟨by simp, by simp, by simp, by simp⟩

theorem Mirrors.add {extracted : ExtractedCreators} (mirrors : store.Mirrors redacted extracted)
    {id : DeviceID} (isUser : store.users.get? id.userId = some user)
    (isDevice : store.device? id = some device) :
    store.Mirrors redacted (extracted.add redacted id user device) := by
  refine ⟨?_, fun certif => ?_, fun certif => ?_, fun certif => ?_⟩
  · intro other member
    rcases List.mem_cons.mp member with rfl | member
    · exact ⟨user, device, isUser, isDevice⟩
    · exact mirrors.known other member
  · simp [ExtractedCreators.add, mirrors.devices, isDevice]
  · simp [ExtractedCreators.add, mirrors.users, isUser]
  · cases revoked : user.revokedUserCertificate with
    | none => simp [ExtractedCreators.add, mirrors.revokedUsers, isUser, revoked]
    | some revoked => simp [ExtractedCreators.add, mirrors.revokedUsers, isUser, revoked, eq_comm]

/-- The devices that are newly visited have their creators visited. -/
structure Extends (store : OrganizationStore) (before after : ExtractedCreators) : Prop where
  grows : before.inTrustchain ⊆ after.inTrustchain
  closed : ∀ id ∈ after.inTrustchain, id ∉ before.inTrustchain → ∀ creator, store.Creator id creator →
    creator ∈ after.inTrustchain

theorem Extends.refl (extracted : ExtractedCreators) : store.Extends extracted extracted :=
  ⟨List.Subset.refl _, fun _ member new => absurd member new⟩

theorem Extends.trans {first middle last : ExtractedCreators} (start : store.Extends first middle)
    (rest : store.Extends middle last) : store.Extends first last := by
  refine ⟨List.Subset.trans start.grows rest.grows, fun id member new creator creates => ?_⟩
  by_cases visited : id ∈ middle.inTrustchain
  · exact rest.grows (start.closed id visited new creator creates)
  · exact rest.closed id member visited creator creates

/-- The devices that were not visited yet. -/
def unvisited (store : OrganizationStore) (extracted : ExtractedCreators) : List DeviceID :=
  store.deviceIds.filter fun id => id ∉ extracted.inTrustchain

theorem mem_deviceIds {id : DeviceID} (found : store.device? id = some device) : id ∈ store.deviceIds := by
  unfold device? userDevices at found
  cases owned : store.devices.get? id.userId with
  | none => simp [owned] at found
  | some devices =>
    rw [owned, Option.getD_some] at found
    exact List.mem_flatMap.mpr ⟨(id.userId, devices), Dict.get?_eq_some_iff.mp owned,
      List.mem_map.mpr ⟨id.deviceName, Dict.mem_keys_iff.mpr ⟨device, found⟩, rfl⟩⟩

theorem unvisited_le (store : OrganizationStore) {before after : ExtractedCreators}
    (grows : before.inTrustchain ⊆ after.inTrustchain) :
    (store.unvisited after).length ≤ (store.unvisited before).length := by
  refine (List.monotone_filter_right _ fun id unseen => ?_).length_le
  simp only [decide_eq_true_eq] at unseen ⊢
  exact fun seen => unseen (grows seen)

theorem unvisited_add_lt (redacted : Bool) (user : UserRecord) {extracted : ExtractedCreators}
    {id : DeviceID} (found : store.device? id = some device) (unseen : id ∉ extracted.inTrustchain) :
    (store.unvisited (extracted.add redacted id user device)).length <
    (store.unvisited extracted).length := by
  have fewer : store.unvisited (extracted.add redacted id user device) =
      (store.unvisited extracted).filter fun other => decide (other ≠ id) := by
    rw [unvisited, unvisited, List.filter_filter]
    apply List.filter_congr
    intro other _
    simp [ExtractedCreators.add]
  rw [fewer, List.length_filter_lt_length_iff_exists]
  exact ⟨id, List.mem_filter.mpr ⟨mem_deviceIds found, by simpa using unseen⟩, by simp⟩

/-- Every creator is registered. -/
def Complete (store : OrganizationStore) : Prop := ∀ id creator, store.Creator id creator →
    store.Known creator

/-- With room for the devices that are left, the search visits a registered device and its creators. -/
theorem recursiveExtractCreators_spec (complete : store.Complete) {bound : ℕ} {deviceId : Option DeviceID}
    {extracted : ExtractedCreators} (mirrors : store.Mirrors redacted extracted)
    (known : ∀ id, deviceId = some id → store.Known id)
    (room : (store.unvisited extracted).length < bound) :
    ∃ result, store.recursiveExtractCreators redacted bound deviceId extracted = .ok result ∧
      store.Mirrors redacted result ∧ store.Extends extracted result ∧
      ∀ id, deviceId = some id → id ∈ result.inTrustchain := by
  induction bound generalizing deviceId extracted with
  | zero => cases room
  | succ bound ih =>
    cases deviceId with
    | none => exact ⟨extracted, rfl, mirrors, .refl _, nofun⟩
    | some id =>
      by_cases seen : id ∈ extracted.inTrustchain
      · refine ⟨extracted, if_pos seen, mirrors, .refl _, ?_⟩
        rintro _ ⟨⟩
        exact seen
      · obtain ⟨user, device, isUser, isDevice⟩ := known id rfl
        have creator {other : DeviceID} (is : device.deviceCertifier = some other ∨
            user.revokedUserCertifier = some other ∨ user.userCertifier = some other) :
            store.Known other := complete id other ⟨user, device, isUser, isDevice, is⟩
        have smaller := unvisited_add_lt redacted user isDevice seen
        obtain ⟨first, firstDone, firstMirrors, firstExtends, firstVisited⟩ :=
          ih (mirrors.add isUser isDevice) (fun other is => creator (.inl is)) (by omega)
        have shrinks := unvisited_le store firstExtends.grows
        obtain ⟨second, secondDone, secondMirrors, secondExtends, secondVisited⟩ :=
          ih firstMirrors (fun other is => creator (.inr (.inl is))) (by omega)
        have shrinks' := unvisited_le store secondExtends.grows
        obtain ⟨last, lastDone, lastMirrors, lastExtends, lastVisited⟩ :=
          ih secondMirrors (fun other is => creator (.inr (.inr is))) (by omega)
        refine ⟨last, ?_, lastMirrors, ?_, ?_⟩
        · rw [recursiveExtractCreators, if_neg seen, getUser_eq_ok_iff.mpr isUser, Except.ok_bind,
            getDevice_eq_ok_iff.mpr isDevice, Except.ok_bind]
          simp only [firstDone, Except.ok_bind, secondDone, lastDone]
        · have all := (firstExtends.trans secondExtends).trans lastExtends
          refine ⟨fun other member => all.grows (List.mem_cons_of_mem _ member), ?_⟩
          rintro other member new found ⟨itsUser, itsDevice, isItsUser, isItsDevice, creates⟩
          by_cases itself : other = id
          · subst itself
            cases isUser.symm.trans isItsUser
            cases isDevice.symm.trans isItsDevice
            rcases creates with is | is | is
            · exact lastExtends.grows (secondExtends.grows (firstVisited found is))
            · exact lastExtends.grows (secondVisited found is)
            · exact lastVisited found is
          · refine all.closed other member ?_ found ⟨itsUser, itsDevice, isItsUser, isItsDevice, creates⟩
            simp [ExtractedCreators.add, itself, new]
        · rintro _ ⟨⟩
          exact lastExtends.grows (secondExtends.grows (firstExtends.grows (List.mem_cons_self ..)))

/-- A trustchain has the certificates of the given devices, of their creators, and so on. -/
theorem getTrustchain_spec (redacted : Bool) (complete : store.Complete) {devicesIds : List (Option DeviceID)}
    (known : ∀ id, some id ∈ devicesIds → store.Known id) :
    ∃ extracted, store.getTrustchain devicesIds redacted = .ok extracted.toTrustchain ∧
      store.Mirrors redacted extracted ∧ (∀ id, some id ∈ devicesIds → id ∈ extracted.inTrustchain) ∧
      ∀ id ∈ extracted.inTrustchain, ∀ creator, store.Creator id creator →
        creator ∈ extracted.inTrustchain := by
  have fold (start : ExtractedCreators) (mirrors : store.Mirrors redacted start) : ∃ extracted,
      devicesIds.foldlM (fun extracted deviceId => store.recursiveExtractCreators redacted
        (store.deviceIds.length + 1) deviceId extracted) start = .ok extracted ∧
      store.Mirrors redacted extracted ∧ store.Extends start extracted ∧
      ∀ id, some id ∈ devicesIds → id ∈ extracted.inTrustchain := by
    induction devicesIds generalizing start with
    | nil => exact ⟨start, rfl, mirrors, .refl _, by simp⟩
    | cons deviceId rest ih =>
      have room : (store.unvisited start).length < store.deviceIds.length + 1 :=
        Nat.lt_succ_of_le (List.length_filter_le _ _)
      obtain ⟨middle, done, middleMirrors, extends_, visited⟩ :=
        recursiveExtractCreators_spec complete mirrors
        (fun id is => known id (is ▸ List.mem_cons_self ..)) room
      obtain ⟨last, restDone, lastMirrors, lastExtends, restVisited⟩ :=
        ih (fun id member => known id (List.mem_cons_of_mem _ member)) middle middleMirrors
      refine ⟨last, ?_, lastMirrors, extends_.trans lastExtends, fun id member => ?_⟩
      · rw [List.foldlM_cons, done, Except.ok_bind, restDone]
      · rcases List.mem_cons.mp member with is | member
        · exact lastExtends.grows (visited id is.symm)
        · exact restVisited id member
  obtain ⟨extracted, done, mirrors, extends_, visited⟩ := fold {} mirrors_empty
  refine ⟨extracted, ?_, mirrors, visited, fun id member => extends_.closed id member (by simp)⟩
  rw [getTrustchain, done]
  rfl

end Trustchain

end OrganizationStore

namespace MemoryUserComponent

variable {component next : MemoryUserComponent} {organizationId : OrganizationID}

theorem within_spec {change : OrganizationStore → Except UserError OrganizationStore}
    (done : component.within organizationId change = .ok next) :
    ∃ store, change (component.store organizationId) = .ok store ∧
      ∀ other, next.store other = if other = organizationId then store else component.store other := by
  simp only [within, Except.bind_eq_ok_iff, Except.pure_eq_ok_iff] at done
  obtain ⟨store, changed, rfl⟩ := done
  refine ⟨store, changed, fun other => ?_⟩
  by_cases same : other = organizationId <;> simp [MemoryUserComponent.store, same]

end MemoryUserComponent

end Guardata
