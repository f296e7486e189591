import Guardata.Model.SignedClasses

/-! # The handshake of a connection

The backend sends a challenge to whoever connects. A device answers with the challenge under its
signature, and the backend accepts it under the verify key that it knows for the device. The two agree on
a version of the API on the way.

A message is given as what it deserializes to, none if it does not. Challenges are arguments.
-/

namespace Guardata

structure ApiVersion where
  version : ℕ
  revision : ℕ
deriving DecidableEq, Repr

/-- Versions are tuples. -/
def ApiVersion.le (first second : ApiVersion) : Bool :=
  first.version < second.version ∨
    first.version = second.version ∧ first.revision ≤ second.revision

def apiV1Version : ApiVersion := ⟨1, 2⟩
def apiV2Version : ApiVersion := ⟨2, 0⟩

inductive HandshakeError where
  | invalidState
  | invalidMessage
  | badResult (result : String) (help : Option String)
  | apiVersion (backendVersions clientVersions : List ApiVersion)
  | verifyKeyRequired
  | failedChallenge (reason : String)
  | badIdentity (help : Option String)
  | organizationExpired (help : Option String)
  | rvkMismatch (help : Option String)
  | revokedDevice (help : Option String)
  | badAdministrationToken (help : Option String)
deriving DecidableEq, Repr

/-- `_settle_compatible_versions`, the backend's version first. -/
def settleCompatibleVersions (backendVersions clientVersions : List ApiVersion) :
    Except HandshakeError (ApiVersion × ApiVersion) :=
  -- Try to use the newest version first
  let settled := (clientVersions.mergeSort ApiVersion.le).reverse.findSome? fun clientVersion =>
    (backendVersions.find? fun backendVersion => backendVersion.version = clientVersion.version).map
      fun backendVersion => (backendVersion, clientVersion)
  match settled with
  | some versions => .ok versions
  | none => .error (.apiVersion backendVersions clientVersions)

structure HandshakeChallenge where
  challenge : Bytes
  supportedApiVersions : List ApiVersion
deriving DecidableEq, Repr

structure HandshakeAuthenticatedAnswer where
  organizationId : OrganizationID
  deviceId : DeviceID
  rvk : VerifyKey
  answer : SignedMessage
deriving DecidableEq, Repr

inductive InvitationType where
  | user
  | device
deriving DecidableEq, Repr

/-- The answers of the two versions of the API, by their type. -/
inductive HandshakeAnswerData where
  | authenticated (answer : HandshakeAuthenticatedAnswer)
  | invited (organizationId : OrganizationID) (invitationType : InvitationType) (token : UUID)
  | apiv1Authenticated (answer : HandshakeAuthenticatedAnswer)
  | apiv1Anonymous (organizationId : OrganizationID) (rvk : Option VerifyKey)
  | apiv1Administration (token : String)
deriving DecidableEq, Repr

/-- The version that the schema of an answer belongs to. -/
def HandshakeAnswerData.apiVersion : HandshakeAnswerData → ℕ
  | authenticated _ | invited _ _ _ => 2
  | apiv1Authenticated _ | apiv1Anonymous _ _ | apiv1Administration _ => 1

/-- An answer of which at least the version can be read. -/
structure HandshakeAnswer where
  clientApiVersion : ApiVersion
  data : Option HandshakeAnswerData
deriving DecidableEq, Repr

structure HandshakeResult where
  result : String
  help : Option String := none
deriving DecidableEq, Repr

inductive HandshakeState where
  | stalled
  | challenge
  | answer
  | result
deriving DecidableEq, Repr

structure ServerHandshake where
  state : HandshakeState := .stalled
  challenge : Option Bytes := none
  answer : Option HandshakeAnswerData := none
  clientApiVersion : Option ApiVersion := none
  backendApiVersion : Option ApiVersion := none
deriving DecidableEq, Repr

namespace ServerHandshake

def supportedApiVersions : List ApiVersion := [apiV2Version, apiV1Version]

variable (handshake : ServerHandshake)

def buildChallengeReq (challenge : Bytes) :
    Except HandshakeError (HandshakeChallenge × ServerHandshake) := do
  .require (handshake.state = .stalled) .invalidState
  return (⟨challenge, supportedApiVersions⟩,
    { handshake with state := .challenge, challenge := some challenge })

/-- Read an answer with the schema of its version. -/
def loadAnswer (answer : HandshakeAnswer) : Except HandshakeError HandshakeAnswerData :=
  if answer.clientApiVersion.version = 2 ∨ answer.clientApiVersion.version = 1 then
    match answer.data with
    | none => .error .invalidMessage
    | some data =>
        if data.apiVersion = answer.clientApiVersion.version then .ok data else .error .invalidMessage
  else .error (.apiVersion supportedApiVersions [answer.clientApiVersion])

def processAnswerReq (req : Option HandshakeAnswer) : Except HandshakeError ServerHandshake := do
  .require (handshake.state = .challenge) .invalidState
  -- Retrieve the version used by client first
  let answer ← req.elim (.error .invalidMessage) .ok
  let data ← loadAnswer answer
  let (backendApiVersion, clientApiVersion) ←
    settleCompatibleVersions supportedApiVersions [answer.clientApiVersion]
  return { handshake with
    state := .answer, answer := some data,
    clientApiVersion := some clientApiVersion, backendApiVersion := some backendApiVersion }

/-- The results with which the backend turns a connection down. -/
def buildRefusalReq (allowed : List HandshakeState) (result : String) (help : Option String) :
    Except HandshakeError (HandshakeResult × ServerHandshake) := do
  .require (handshake.state ∈ allowed) .invalidState
  return (⟨result, help⟩, { handshake with state := .result })

def buildBadProtocolResultReq (help : Option String := some "Invalid params") :=
  handshake.buildRefusalReq [.answer, .challenge] "bad_protocol" help

def buildBadAdministrationTokenResultReq (help : Option String := some "Invalid administration token") :=
  handshake.buildRefusalReq [.answer] "bad_admin_token" help

def buildBadIdentityResultReq (help : Option String := some "Invalid handshake information") :=
  handshake.buildRefusalReq [.answer] "bad_identity" help

def buildOrganizationExpiredResultReq (help : Option String := some "Trial organization has expired") :=
  handshake.buildRefusalReq [.answer] "organization_expired" help

def buildRvkMismatchResultReq (help : Option String := none) :=
  let help := if help.getD "" = "" then
    some "Root verify key for organization differs between client and server" else help
  handshake.buildRefusalReq [.answer] "rvk_mismatch" help

def buildRevokedDeviceResultReq (help : Option String := some "Device has been revoked") :=
  handshake.buildRefusalReq [.answer] "revoked_device" help

/-- Check that an answer is our challenge, under the signature of the device. -/
def checkSignature (answer : SignedMessage) : Option VerifyKey → Except HandshakeError Unit
  | none => .error .verifyKeyRequired
  | some verifyKey =>
      match verifyKey.verify answer with
      | .error _ => .error (.failedChallenge "Invalid answer signature")
      | .ok returnedChallenge =>
          .require (some returnedChallenge = handshake.challenge)
            (.failedChallenge "Invalid returned challenge")

/-- Only devices have to prove who they are. -/
def checkAnswer (verifyKey : Option VerifyKey) : Option HandshakeAnswerData → Except HandshakeError Unit
  | some (.authenticated answer) => handshake.checkSignature answer.answer verifyKey
  | some (.apiv1Authenticated answer) => handshake.checkSignature answer.answer verifyKey
  | _ => .ok ()

def buildResultReq (verifyKey : Option VerifyKey := none) :
    Except HandshakeError (HandshakeResult × ServerHandshake) := do
  .require (handshake.state = .answer) .invalidState
  handshake.checkAnswer verifyKey handshake.answer
  return (⟨"ok", none⟩, { handshake with state := .result })

end ServerHandshake

/-- `load_challenge_req`: the challenge and the version of the API that the client is to use. -/
def loadChallengeReq (supportedApiVersions : List ApiVersion) (req : Option HandshakeChallenge) :
    Except HandshakeError (Bytes × ApiVersion) := do
  let challengeData ← req.elim (.error .invalidMessage) .ok
  let (_, clientApiVersion) ←
    settleCompatibleVersions challengeData.supportedApiVersions supportedApiVersions
  return (challengeData.challenge, clientApiVersion)

/-- `process_result_req` of every client. -/
def processResultReq : Option HandshakeResult → Except HandshakeError Unit
  | none => .error .invalidMessage
  | some ⟨result, help⟩ =>
      if result = "ok" then .ok ()
      else if result = "bad_identity" then .error (.badIdentity help)
      else if result = "organization_expired" then .error (.organizationExpired help)
      else if result = "rvk_mismatch" then .error (.rvkMismatch help)
      else if result = "revoked_device" then .error (.revokedDevice help)
      else if result = "bad_admin_token" then .error (.badAdministrationToken help)
      else .error (.badResult result help)

structure AuthenticatedClientHandshake where
  organizationId : OrganizationID
  deviceId : DeviceID
  userSignkey : VerifyKey
  rootVerifyKey : VerifyKey
deriving DecidableEq, Repr

/-- The answer of a device, the challenge under its signature. -/
def AuthenticatedClientHandshake.processChallengeReq (handshake : AuthenticatedClientHandshake)
    (req : Option HandshakeChallenge) : Except HandshakeError HandshakeAnswer := do
  let (challenge, clientApiVersion) ← loadChallengeReq [apiV2Version] req
  let answer := handshake.userSignkey.sign challenge
  return ⟨clientApiVersion, some (.authenticated
    ⟨handshake.organizationId, handshake.deviceId, handshake.rootVerifyKey, answer⟩)⟩

end Guardata
