import Mathlib.Logic.Equiv.List
import Mathlib.Tactic.DeriveEncodable
import Guardata.Model.Handshake

/-! # What a challenge makes a device sign

The handshake authenticates a device: the backend accepts its answer, and accepts under a verify key
nothing but its own challenge signed with the key that belongs to it. But a device signs a challenge as it
comes, with the key with which it signs everything else, and no `type` keeps the two apart. Its answer
loads as whatever signed data the challenge is the serialization of.
-/

namespace Guardata

section Loading

variable {serializer : DataSerializer} {cls : SignedDataClass} {content : SignedContent}

@[simp] theorem VerifyKey.verify_sign (key : VerifyKey) (message : Bytes) :
    key.verify (key.sign message) = .ok message := by
  simp [verify, sign]

theorem VerifyKey.verify_eq_ok_iff {key : VerifyKey} {signed : SignedMessage} {message : Bytes} :
    key.verify signed = .ok message ↔ signed = key.sign message := by
  obtain ⟨signer, signed⟩ := signed
  by_cases same : signer = key <;> simp [verify, sign, same]

/-- Whatever can be signed, some class reads it. -/
theorem SignedContent.exists_class (content : SignedContent) :
    ∃ cls : SignedDataClass, cls.accepts content = true := by
  cases content with
  | userCertificate => exact ⟨.userCertificateContent, rfl⟩
  | revokedUserCertificate => exact ⟨.revokedUserCertificateContent, rfl⟩
  | deviceCertificate => exact ⟨.deviceCertificateContent, rfl⟩
  | realmRoleCertificate => exact ⟨.realmRoleCertificateContent, rfl⟩
  | fileManifest => exact ⟨.fileManifest, rfl⟩
  | folderManifest => exact ⟨.folderManifest, rfl⟩
  | workspaceManifest => exact ⟨.workspaceManifest, rfl⟩
  | userManifest => exact ⟨.userManifest, rfl⟩
  | sharingGranted => exact ⟨.sharingGrantedMessageContent, rfl⟩
  | sharingReencrypted => exact ⟨.sharingReencryptedMessageContent, rfl⟩
  | sharingRevoked => exact ⟨.sharingRevokedMessageContent, rfl⟩
  | ping => exact ⟨.pingMessageContent, rfl⟩

namespace DataSerializer

theorem deserialize_eq_ok_iff {raw : Bytes} :
    serializer.deserialize cls raw = .ok content ↔
      serializer.loads raw = some content ∧ cls.accepts content = true := by
  unfold deserialize
  cases serializer.loads raw with
  | none => simp
  | some other =>
    by_cases accepted : cls.accepts other = true
    · simp only [accepted, if_true, Except.ok.injEq, Option.some.injEq]
      exact ⟨fun same => ⟨same, same ▸ accepted⟩, And.left⟩
    · simp only [accepted, if_false, reduceCtorEq, Option.some.injEq, false_iff, not_and]
      exact fun same => same ▸ accepted

/-- What is loaded is what was signed, by the author that it names. -/
theorem verifyAndLoad_eq_ok_iff {signed : SignedMessage} {key : VerifyKey} {author : Option DeviceID} :
    serializer.verifyAndLoad cls signed key author = .ok content ↔
      ∃ raw, signed = key.sign raw ∧ serializer.loads raw = some content ∧
        cls.accepts content = true ∧ content.author = author := by
  simp only [verifyAndLoad, Except.bind_eq_ok_iff, VerifyKey.verify_eq_ok_iff, deserialize_eq_ok_iff,
    Except.require_eq_ok_iff, Except.pure_eq_ok_iff, checkTimestamp, exists_const, true_and]
  constructor
  · rintro ⟨raw, signed, _, ⟨loaded, accepted⟩, same, rfl⟩
    exact ⟨raw, signed, loaded, accepted, same⟩
  · rintro ⟨raw, signed, loaded, accepted, same⟩
    exact ⟨raw, signed, content, ⟨loaded, accepted⟩, same, rfl⟩

/-- What an author dumps and signs is loaded as it was, under their key and by the classes that accept it. -/
theorem verifyAndLoad_dumpAndSign_iff {signkey key : VerifyKey} {author : Option DeviceID}
    {loaded : SignedContent} :
    serializer.verifyAndLoad cls (serializer.dumpAndSign content signkey) key author = .ok loaded ↔
      key = signkey ∧ loaded = content ∧ cls.accepts content = true ∧ content.author = author := by
  rw [verifyAndLoad_eq_ok_iff]
  simp only [dumpAndSign, VerifyKey.sign, SignedMessage.mk.injEq]
  constructor
  · rintro ⟨_, ⟨rfl, rfl⟩, read, accepted, same⟩
    obtain rfl : content = loaded := Option.some.inj ((serializer.loads_dumps content).symm.trans read)
    exact ⟨rfl, rfl, accepted, same⟩
  · rintro ⟨rfl, rfl, accepted, same⟩
    exact ⟨_, ⟨rfl, rfl⟩, serializer.loads_dumps _, accepted, same⟩

end DataSerializer

end Loading

namespace AuthenticatedClientHandshake

variable {client : AuthenticatedClientHandshake}

/-- A device signs the challenge, whatever it is. -/
theorem answer_of_processChallengeReq {challenge : HandshakeChallenge} {version : ApiVersion}
    {answer : HandshakeAuthenticatedAnswer}
    (answered : client.processChallengeReq (some challenge) =
      .ok ⟨version, some (.authenticated answer)⟩) :
    answer.answer = client.userSignkey.sign challenge.challenge := by
  simp only [processChallengeReq, loadChallengeReq, Option.elim, Except.bind_eq_ok_iff,
    Except.pure_eq_ok_iff, Except.ok.injEq] at answered
  obtain ⟨_, ⟨_, rfl, _, -, rfl⟩, same⟩ := answered
  cases same
  rfl

end AuthenticatedClientHandshake

namespace ServerHandshake

variable {handshake next : ServerHandshake} {result : HandshakeResult}

/-- Under a verify key, only the challenge signed with the key that belongs to it is accepted. -/
theorem signed_of_buildResultReq {verifyKey : Option VerifyKey} {answer : HandshakeAuthenticatedAnswer}
    (authenticated : handshake.answer = some (.authenticated answer) ∨
      handshake.answer = some (.apiv1Authenticated answer))
    (built : handshake.buildResultReq verifyKey = .ok (result, next)) :
    ∃ key challenge, verifyKey = some key ∧ handshake.challenge = some challenge ∧
      answer.answer = key.sign challenge := by
  simp only [buildResultReq, Except.bind_eq_ok_iff, Except.require_eq_ok_iff, exists_const] at built
  obtain ⟨-, _, passed, -⟩ := built
  have checked : handshake.checkSignature answer.answer verifyKey = .ok () := by
    rcases authenticated with same | same <;> simpa [same, checkAnswer] using passed
  cases verifyKey with
  | none => cases checked
  | some key =>
    unfold checkSignature at checked
    dsimp only at checked
    split at checked
    · cases checked
    · next challenge verified =>
      rw [Except.require_eq_ok_iff] at checked
      exact ⟨key, challenge, rfl, checked.symm, VerifyKey.verify_eq_ok_iff.mp verified⟩

theorem settle_supported : settleCompatibleVersions supportedApiVersions [apiV2Version] =
    .ok (apiV2Version, apiV2Version) := by
  simp [settleCompatibleVersions, supportedApiVersions, apiV2Version]

/-- A device gets through the handshake under the verify key that it is known by. -/
theorem handshake_completes (challenge : Bytes) (client : AuthenticatedClientHandshake) :
    ∃ request challenged answer answered result finished,
      ({} : ServerHandshake).buildChallengeReq challenge = .ok (request, challenged) ∧
      client.processChallengeReq (some request) = .ok answer ∧
      challenged.processAnswerReq (some answer) = .ok answered ∧
      answered.buildResultReq (some client.userSignkey) = .ok (result, finished) ∧
      processResultReq (some result) = .ok () := by
  let signed : HandshakeAnswerData := .authenticated
    ⟨client.organizationId, client.deviceId, client.rootVerifyKey, client.userSignkey.sign challenge⟩
  let answered : ServerHandshake :=
    { state := .answer, challenge := some challenge, answer := some signed,
      clientApiVersion := some apiV2Version, backendApiVersion := some apiV2Version }
  refine ⟨⟨challenge, supportedApiVersions⟩, { state := .challenge, challenge := some challenge },
    ⟨apiV2Version, some signed⟩, answered, ⟨"ok", none⟩, { answered with state := .result }, rfl, ?_, ?_,
    ?_, rfl⟩
  · simp only [AuthenticatedClientHandshake.processChallengeReq, loadChallengeReq, Option.elim,
      Except.ok_bind, settle_supported]
    rfl
  · simp only [processAnswerReq, Option.elim, Except.ok_bind, settle_supported]
    rfl
  · simp only [buildResultReq, answered, signed, checkAnswer, checkSignature, VerifyKey.verify_sign]
    rfl

end ServerHandshake

/-- The answer of a device to a challenge is refused as signed data by every class exactly if the challenge
is not the serialization of anything that names the device as its author. -/
theorem answer_refused_as_signed_data_iff (serializer : DataSerializer)
    (client : AuthenticatedClientHandshake) (challenge : HandshakeChallenge) (version : ApiVersion)
    (answer : HandshakeAuthenticatedAnswer)
    (answered : client.processChallengeReq (some challenge) =
      .ok ⟨version, some (.authenticated answer)⟩) :
    (∀ cls, ∃ error, serializer.verifyAndLoad cls answer.answer client.userSignkey
        (some client.deviceId) = .error error) ↔
      ∀ content, serializer.loads challenge.challenge = some content →
        content.author ≠ some client.deviceId := by
  rw [AuthenticatedClientHandshake.answer_of_processChallengeReq answered]
  constructor
  · intro refused content loaded named
    obtain ⟨cls, accepted⟩ := content.exists_class
    obtain ⟨error, raised⟩ := refused cls
    have accepts : serializer.verifyAndLoad cls (client.userSignkey.sign challenge.challenge)
        client.userSignkey (some client.deviceId) = .ok content :=
      DataSerializer.verifyAndLoad_eq_ok_iff.mpr ⟨challenge.challenge, rfl, loaded, accepted, named⟩
    cases raised.symm.trans accepts
  · intro unnamed cls
    cases outcome : serializer.verifyAndLoad cls (client.userSignkey.sign challenge.challenge)
        client.userSignkey (some client.deviceId) with
    | error error => exact ⟨error, rfl⟩
    | ok content =>
      obtain ⟨raw, same, loaded, -, named⟩ := DataSerializer.verifyAndLoad_eq_ok_iff.mp outcome
      cases same
      exact absurd named (unnamed content loaded)

section Example

instance encodableUInt8 : Encodable UInt8 :=
  Encodable.ofLeftInverse UInt8.toNat UInt8.ofNat fun byte => by simp

instance encodableChar : Encodable Char := Encodable.ofLeftInverse Char.toNat Char.ofNat Char.ofNat_toNat

instance encodableString : Encodable String :=
  Encodable.ofLeftInverse String.toList String.ofList fun text => by simp

instance encodableDict {κ α : Type} [DecidableEq κ] [Encodable κ] [Encodable α] : Encodable (Dict κ α) :=
  Encodable.ofLeftInjection Dict.items
    (fun items => if nodup : (items.map Prod.fst).Nodup then some ⟨items, nodup⟩ else none)
    fun dict => dif_pos dict.nodup

deriving instance Encodable for
  DeviceID, VerifyKey, SecretKey, PublicKey, HumanHandle, RealmRole, UserProfile, HashDigest, BlockAccess,
  UserCertificateContent, FullUserCertificateContent, RevokedUserCertificateContent,
  DeviceCertificateContent, FullDeviceCertificateContent, RealmRoleCertificateContent,
  RemoteFileManifest, RemoteFolderishManifest, WorkspaceEntry, UserWorkspaceEntry, UserManifest,
  SharingGrantedMessageContent, SharingRevokedMessageContent, PingMessageContent, SignedContent

/-- A one, then as many zeros as the number of the content. -/
private def unary : DataSerializer where
  dumps content := 1 :: List.replicate (Encodable.encode content) 0
  loads
    | 1 :: zeros => Encodable.decode zeros.length
    | _ => none
  loads_dumps content := by simp

private def aliceConnects : AuthenticatedClientHandshake where
  organizationId := "org"
  deviceId := ⟨"alice", "laptop"⟩
  userSignkey := ⟨1⟩
  rootVerifyKey := ⟨0⟩

theorem answer_refused_as_signed_data_random :
    ∃ answer, aliceConnects.processChallengeReq (some ⟨[0, 7], [apiV2Version]⟩) =
        .ok ⟨apiV2Version, some (.authenticated answer)⟩ ∧
      ∀ cls, ∃ error, unary.verifyAndLoad cls answer.answer aliceConnects.userSignkey
        (some aliceConnects.deviceId) = .error error := by
  have answered : aliceConnects.processChallengeReq (some ⟨[0, 7], [apiV2Version]⟩) =
      .ok ⟨apiV2Version, some (.authenticated
        ⟨"org", ⟨"alice", "laptop"⟩, ⟨0⟩, VerifyKey.sign ⟨1⟩ [0, 7]⟩)⟩ := by
    simp [AuthenticatedClientHandshake.processChallengeReq, loadChallengeReq, settleCompatibleVersions,
      Except.ok_bind, aliceConnects, pure, Except.pure]
  refine ⟨_, answered, (answer_refused_as_signed_data_iff unary _ _ _ _ answered).mpr ?_⟩
  intro content loaded
  cases loaded

/-- The revocation of a user, which no one but the backend that challenges the device has drawn up. -/
private def forged : RevokedUserCertificateContent := ⟨⟨"alice", "laptop"⟩, 100, "bob"⟩

theorem challenge_mints_revocation :
    ∃ answer, aliceConnects.processChallengeReq
        (some ⟨unary.dumps (.revokedUserCertificate forged), [apiV2Version]⟩) =
        .ok ⟨apiV2Version, some (.authenticated answer)⟩ ∧
      unary.verifyAndLoad .revokedUserCertificateContent answer.answer aliceConnects.userSignkey
        (some aliceConnects.deviceId) = .ok (.revokedUserCertificate forged) := by
  refine ⟨⟨"org", ⟨"alice", "laptop"⟩, ⟨0⟩,
    VerifyKey.sign ⟨1⟩ (unary.dumps (.revokedUserCertificate forged))⟩, ?_, ?_⟩
  · simp [AuthenticatedClientHandshake.processChallengeReq, loadChallengeReq, settleCompatibleVersions,
      Except.ok_bind, aliceConnects, pure, Except.pure]
  -- The answer is what the device would have dumped and signed.
  · exact DataSerializer.verifyAndLoad_dumpAndSign_iff.mpr ⟨rfl, rfl, rfl, rfl⟩

end Example

end Guardata
