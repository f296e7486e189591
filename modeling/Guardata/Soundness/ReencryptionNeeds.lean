import Guardata.Model.ReencryptionNeed
import Guardata.Soundness.RoleHistories

/-! # The reported need of a re-encryption is exact

The pass over the certificates forgets a removal when the user is granted a role again, and keeps
one that is repeated. It reports a removal when some certificate after the last encryption removed
the role, and not only when the latest one did. Both say the same because accepted certificates
come in the order of their dates: a removal that follows one after the encryption is after it too.
-/

namespace Guardata

/-- The latest certificate about a user. -/
def latestCertificate (certifs : List RealmRoleCertificateContent) (userId : UserID) :
    Option RealmRoleCertificateContent :=
  certifs.reverse.find? fun certif => certif.userId = userId

/-- The user holds no role, and lost it after the date. -/
def RemovedSince (certifs : List RealmRoleCertificateContent) (date : DateTime) (userId : UserID) :
    Prop :=
  ∃ certif, latestCertificate certifs userId = some certif ∧ certif.role = none ∧
    date < certif.timestamp

section Scan

variable {encryptedOn : DateTime} {certif : RealmRoleCertificateContent}
  {before certifs : List RealmRoleCertificateContent} {scan : RevocationScan} {userId : UserID}

theorem mem_discardUser {users : List UserID} {other : UserID} :
    other ∈ discardUser userId users ↔ other ∈ users ∧ other ≠ userId := by
  simp [discardUser]

theorem heldRole_eq (userId : UserID) :
    heldRole certifs userId = (latestCertificate certifs userId).bind (·.role) := rfl

theorem latestCertificate_append_self :
    latestCertificate (before ++ [certif]) certif.userId = some certif := by
  simp [latestCertificate]

theorem latestCertificate_append_of_ne (other : certif.userId ≠ userId) :
    latestCertificate (before ++ [certif]) userId = latestCertificate before userId := by
  simp [latestCertificate, other]

theorem mem_of_latestCertificate (latest : latestCertificate certifs userId = some certif) :
    certif ∈ certifs ∧ certif.userId = userId := by
  refine ⟨List.mem_reverse.mp (List.mem_of_find?_eq_some latest), ?_⟩
  simpa using List.find?_some latest

/-- A user whose role was removed holds none. -/
theorem RemovedSince.heldRole_eq_none (removed : RemovedSince certifs encryptedOn userId) :
    heldRole certifs userId = none := by
  obtain ⟨certif, latest, role, -⟩ := removed
  rw [heldRole_eq, latest, Option.bind_some, role]

theorem removedSince_append_self :
    RemovedSince (before ++ [certif]) encryptedOn certif.userId ↔
      certif.role = none ∧ encryptedOn < certif.timestamp := by
  rw [RemovedSince, latestCertificate_append_self]
  simp only [Option.some.injEq, exists_eq_left']

theorem removedSince_append_of_ne (other : certif.userId ≠ userId) :
    RemovedSince (before ++ [certif]) encryptedOn userId ↔ RemovedSince before encryptedOn userId := by
  rw [RemovedSince, RemovedSince, latestCertificate_append_of_ne other]

/-- What the scan has found behind some certificates. -/
structure RevocationScan.Exact (encryptedOn : DateTime) (certifs : List RealmRoleCertificateContent)
    (scan : RevocationScan) : Prop where
  hasRole : ∀ userId, userId ∈ scan.hasRole ↔ (heldRole certifs userId).isSome
  roleRevoked : ∀ userId, userId ∈ scan.roleRevoked ↔ RemovedSince certifs encryptedOn userId
  hasRoleNodup : scan.hasRole.Nodup
  roleRevokedNodup : scan.roleRevoked.Nodup

/-- The step lemma. Only a repeated removal needs the order of the dates. -/
theorem RevocationScan.Exact.step (exact : scan.Exact encryptedOn before)
    (latest : ∀ other ∈ before, other.timestamp ≤ certif.timestamp) :
    (scan.step encryptedOn certif).Exact encryptedOn (before ++ [certif]) where
  hasRole userId := by
    by_cases same : certif.userId = userId
    · subst same
      rw [heldRole_append_self, RevocationScan.step]
      cases certif.role <;> simp [mem_discardUser]
    · have other : userId ≠ certif.userId := Ne.symm same
      rw [heldRole_append_of_ne same, ← exact.hasRole, RevocationScan.step]
      cases certif.role <;> simp [mem_discardUser, other]
  roleRevoked userId := by
    by_cases same : certif.userId = userId
    · subst same
      rw [removedSince_append_self, RevocationScan.step]
      cases role : certif.role with
      | some _ => simp [mem_discardUser]
      | none =>
        by_cases recent : encryptedOn < certif.timestamp
        · simp [recent]
        · simp only [recent, and_false, iff_false]
          intro kept
          obtain ⟨earlier, found, -, since⟩ := (exact.roleRevoked _).mp kept
          exact recent (since.trans_le (latest earlier (mem_of_latestCertificate found).1))
    · have other : userId ≠ certif.userId := Ne.symm same
      rw [removedSince_append_of_ne same, ← exact.roleRevoked, RevocationScan.step]
      cases certif.role with
      | some _ => simp [mem_discardUser, other]
      | none => by_cases recent : encryptedOn < certif.timestamp <;> simp [recent, other]
  hasRoleNodup := by
    rw [RevocationScan.step]
    cases certif.role with
    | none => exact exact.hasRoleNodup.filter _
    | some _ => exact exact.hasRoleNodup.insert
  roleRevokedNodup := by
    rw [RevocationScan.step]
    cases certif.role with
    | some _ => exact exact.roleRevokedNodup.filter _
    | none =>
      by_cases recent : encryptedOn < certif.timestamp
      · simpa only [if_pos recent] using exact.roleRevokedNodup.insert
      · simpa only [if_neg recent] using exact.roleRevokedNodup

/-- The run lemma: a scan of certificates in the order of their dates is exact. -/
theorem RevocationScan.exact_of_sorted
    (sorted : certifs.Pairwise fun earlier later => earlier.timestamp ≤ later.timestamp) :
    (certifs.foldl (RevocationScan.step encryptedOn) {}).Exact encryptedOn certifs := by
  induction certifs using List.reverseRecOn with
  | nil =>
    constructor
    · simp [heldRole]
    · simp [RemovedSince, latestCertificate]
    · exact List.nodup_nil
    · exact List.nodup_nil
  | append_singleton before certif ih =>
    obtain ⟨sortedBefore, -, between⟩ := List.pairwise_append.mp sorted
    rw [List.foldl_append, List.foldl_cons, List.foldl_nil]
    exact (ih sortedBefore).step fun other member => between other member certif (by simp)

/-- Accepted certificates come in the order of their dates. -/
theorem load_sorted {directory : DeviceDirectory} {roles : Dict UserID RealmRole}
    {reply : Except RealmRefusal (List (Signed RealmRoleCertificateContent))}
    (accepted : loadRealmRoleCertificates directory reply = .ok (certifs, roles)) :
    certifs.Pairwise fun earlier later => earlier.timestamp ≤ later.timestamp := by
  simp only [loadRealmRoleCertificates, Except.bind_eq_ok_iff, Except.pure_eq_ok_iff] at accepted
  obtain ⟨served, -, loaded, -, final, -, same⟩ := accepted
  obtain ⟨rfl, rfl⟩ := Prod.mk.inj same
  exact List.pairwise_map.mpr (List.sortedBy_pairwise _ loaded)

/-- Lookups that all succeed leave the users that were revoked after the date. -/
theorem foldlM_collectRevoked {ε : Type}
    {getUser : UserID → Except ε (Option RevokedUserCertificateContent)}
    {revocations : UserID → Option RevokedUserCertificateContent}
    (served : ∀ userId, getUser userId = .ok (revocations userId)) (users found : List UserID) :
    users.foldlM (collectRevoked getUser encryptedOn) found = .ok (found ++ users.filter fun userId =>
      ∃ revoked ∈ revocations userId, encryptedOn < revoked.timestamp) := by
  induction users generalizing found with
  | nil => simp [pure, Except.pure]
  | cons userId rest ih =>
    rw [List.foldlM_cons, collectRevoked, served userId, Except.ok_bind]
    by_cases revoked : ∃ revoked ∈ revocations userId, encryptedOn < revoked.timestamp
    · rw [if_pos revoked, List.filter_cons_of_pos (by simpa using revoked)]
      exact (ih _).trans (by rw [List.append_assoc, List.singleton_append])
    · rw [if_neg revoked, List.filter_cons_of_neg (by simpa using revoked)]
      exact ih _

end Scan

theorem ReencryptionNeed.needReencryption_iff {need : ReencryptionNeed} : need.needReencryption = true ↔
    (∃ userId, userId ∈ need.roleRevoked ∨ userId ∈ need.userRevoked) ∨
      need.reencryptionAlreadyInProgress = true := by
  have named (users : List UserID) : users ≠ [] ↔ ∃ userId, userId ∈ users :=
    ⟨List.exists_mem_of_ne_nil users, fun ⟨_, member⟩ => List.ne_nil_of_mem member⟩
  simp only [needReencryption, Bool.or_eq_true, decide_eq_true_eq, exists_or, named]

/-- For every list of certificates that the client accepts, every date of the last encryption and
every set of revocations: the need of a workspace that has been uploaded names exactly the users
without a role whose last certificate removed it since, and exactly the users with a role who were
revoked since. Nobody who was granted a role again is named for its removal. A re-encryption is needed as soon as
somebody is named, or one is already in progress. -/
theorem getReencryptionNeed_exact (directory : DeviceDirectory)
    (reply : Except RealmRefusal (List (Signed RealmRoleCertificateContent)))
    {certifs : List RealmRoleCertificateContent} {roles : Dict UserID RealmRole}
    (accepted : loadRealmRoleCertificates directory reply = .ok (certifs, roles))
    (wentry : UserWorkspaceEntry) (revocations : UserID → Option RevokedUserCertificateContent)
    (status : RealmStatus) {storedPlaceholder : Option Bool}
    (uploaded : storedPlaceholder ≠ some true) :
    ∃ need, getReencryptionNeed wentry storedPlaceholder (.ok (.ok status))
        (loadRealmRoleCertificates directory reply) (fun userId => .ok (revocations userId)) = .ok need ∧
      (∀ userId, userId ∈ need.roleRevoked ↔ heldRole certifs userId = none ∧
        ∃ certif, latestCertificate certifs userId = some certif ∧ certif.role = none ∧
          wentry.encryptedOn < certif.timestamp) ∧
      (∀ userId, userId ∈ need.userRevoked ↔ (heldRole certifs userId).isSome ∧
        ∃ revoked ∈ revocations userId, wentry.encryptedOn < revoked.timestamp) ∧
      (∀ userId, (heldRole certifs userId).isSome → userId ∉ need.roleRevoked) ∧
      need.roleRevoked.Nodup ∧ need.userRevoked.Nodup ∧
      (need.needReencryption = true ↔ (∃ userId, userId ∈ need.roleRevoked ∨ userId ∈ need.userRevoked) ∨
        status.maintenanceType = some .reencryption) := by
  have exact : (certifs.foldl (RevocationScan.step wentry.encryptedOn) {}).Exact wentry.encryptedOn
      certifs := RevocationScan.exact_of_sorted (load_sorted accepted)
  rw [accepted, getReencryptionNeed, if_neg uploaded]
  simp only [Except.mapError_ok, Except.ok_bind, foldlM_collectRevoked (fun _ => rfl), List.nil_append]
  refine ⟨_, rfl, ?_, ?_, ?_, exact.roleRevokedNodup, exact.hasRoleNodup.filter _, ?_⟩
  · intro userId
    exact (exact.roleRevoked userId).trans
      ⟨fun removed => ⟨removed.heldRole_eq_none, removed⟩, fun both => both.2⟩
  · intro userId
    simp only [List.mem_filter, exact.hasRole, decide_eq_true_eq]
  · intro userId held removed
    rw [((exact.roleRevoked userId).mp removed).heldRole_eq_none] at held
    exact absurd held (by simp)
  · rw [ReencryptionNeed.needReencryption_iff, decide_eq_true_eq]
    exact or_congr_right ⟨And.right, fun same => ⟨by rw [RealmStatus.inMaintenance, same]; rfl, same⟩⟩

section Example

private def scanDevices : DeviceDirectory := fun device => some ⟨device.userId.length⟩

/-- What Alice signs about a user. -/
private def aliceGrants (target : String) (role : Option RealmRole) (date : DateTime) :
    Signed RealmRoleCertificateContent :=
  ⟨⟨5⟩, some ⟨⟨"alice", "dev"⟩, date, 1, target, role⟩⟩

/-- Bob is removed after the last encryption, at 25, and Carol too, but she comes back. -/
private def scannedGrants : List (Signed RealmRoleCertificateContent) :=
  [aliceGrants "carol" (some .reader) 40, aliceGrants "alice" (some .owner) 10,
    aliceGrants "bob" (some .reader) 20, aliceGrants "bob" none 30, aliceGrants "carol" none 30]

private def scannedEntry : UserWorkspaceEntry := ⟨⟨⟨0⟩, 1⟩, "w", 1, 25, 25, some .owner⟩

/-- Carol's account is revoked. -/
private def carolRevoked (userId : UserID) : Option RevokedUserCertificateContent :=
  if userId = "carol" then some ⟨⟨"alice", "dev"⟩, 50, "carol"⟩ else none

theorem getReencryptionNeed_exact_regranted :
    ∃ need, getReencryptionNeed scannedEntry (some false) (.ok (.ok ⟨none, none, none, 1⟩))
        (loadRealmRoleCertificates scanDevices (.ok scannedGrants)) (fun userId => .ok (carolRevoked userId)) =
          .ok need ∧
      "bob" ∈ need.roleRevoked ∧ "carol" ∉ need.roleRevoked ∧ "carol" ∈ need.userRevoked := by
  have accepted : loadRealmRoleCertificates scanDevices (.ok scannedGrants) = .ok
      ([⟨⟨"alice", "dev"⟩, 10, 1, "alice", some .owner⟩, ⟨⟨"alice", "dev"⟩, 20, 1, "bob", some .reader⟩,
        ⟨⟨"alice", "dev"⟩, 30, 1, "bob", none⟩, ⟨⟨"alice", "dev"⟩, 30, 1, "carol", none⟩,
        ⟨⟨"alice", "dev"⟩, 40, 1, "carol", some .reader⟩],
        ⟨[("alice", .owner), ("carol", .reader)], by decide⟩) := by decide
  obtain ⟨need, found, removed, revoked, regranted, -⟩ := getReencryptionNeed_exact scanDevices
    (.ok scannedGrants) accepted scannedEntry carolRevoked ⟨none, none, none, 1⟩
    (by decide : some false ≠ some true)
  refine ⟨need, found, (removed "bob").mpr ⟨by decide, ?_⟩, regranted "carol" (by decide),
    (revoked "carol").mpr ⟨by decide, ?_⟩⟩
  · exact ⟨⟨⟨"alice", "dev"⟩, 30, 1, "bob", none⟩, by decide, rfl, by decide⟩
  · exact ⟨⟨⟨"alice", "dev"⟩, 50, "carol"⟩, by decide, by decide⟩

end Example

end Guardata
