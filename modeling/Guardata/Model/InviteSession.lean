import Mathlib.Algebra.Order.Ring.Nat
import Guardata.Model.Invite

/-! # Sessions of the greeter and the claimer

`_do_wait_peer` of either party is a series of exchanges over the conduit; both end up with two short
authentication strings and a secret key, and then go through the exchange in which the claimer
signifies trust. A session is a list of what the exchanges so far have returned, since the payloads
that a party sends do not depend on what it receives. It may be abandoned and started over at any
point; an error ends it.

Key agreement, hash and key derivation are parameters.
-/

namespace Guardata

abbrev SASCode := String

def SASCode.symbols : List Char := "123456789ABCDEFGHJKLMNPRSTUVWXYZ".toList

/-- The digits of a number to the base of the symbols, least significant first. -/
def SASCode.digits : ℕ → ℕ → List Char × ℕ
  | 0, num => ([], num)
  | length + 1, num =>
      let (rest, left) := digits length (num / symbols.length)
      (symbols.getD (num % symbols.length) '1' :: rest, left)

/-- `SASCode.from_int`, none if the provided integer is too large. -/
def SASCode.fromInt (num : ℕ) : Option SASCode :=
  let (digits, left) := digits 5 num
  if left ≠ 0 then none else some (String.ofList digits)

/-- `int.from_bytes(data, "big")`. -/
def intFromBytes (data : Bytes) : ℕ := data.foldl (fun number byte => number * 256 + byte.toNat) 0

/-- The cryptography that invitations rest on. -/
structure InviteCrypto (PrivateKey : Type) where
  publicKey : PrivateKey → Bytes
  generateSharedSecretKey : PrivateKey → Bytes → Bytes
  hashDigest : Bytes → Bytes
  derivateSecretFromKeys : Bytes → Bytes → Bytes

/-- What `_do_wait_peer` returns: the claimer's and the greeter's code, and the shared key. -/
structure WaitPeerResult where
  claimerSas : SASCode
  greeterSas : SASCode
  sharedSecretKey : Bytes
deriving DecidableEq, Repr

section Sessions

variable {PrivateKey : Type} (crypto : InviteCrypto PrivateKey)

def generateSasCodes (claimerNonce greeterNonce sharedSecretKey : Bytes) : Option (SASCode × SASCode) := do
  let combinedNonce := claimerNonce ++ greeterNonce
  let combinedKdf := crypto.derivateSecretFromKeys (combinedNonce ++ sharedSecretKey.take 16)
    (sharedSecretKey.drop 16)
  let macAsInt := intFromBytes (combinedKdf.take 8)
  let claimerSas ← SASCode.fromInt (macAsInt % 2 ^ 25)
  let greeterSas ← SASCode.fromInt (macAsInt / 2 ^ 25 % 2 ^ 25)
  return (claimerSas, greeterSas)

/-- One run of `_do_wait_peer` and what follows it, with the keys and the nonce it has generated. -/
structure InviteSession (PrivateKey : Type) where
  privateKey : PrivateKey
  nonce : Bytes
  /-- What the exchanges so far have returned. -/
  received : List Bytes := []
  listening : Option ConduitListenCtx := none

/-- The state of the conduit that the exchange with that number is about. -/
def stageState : ℕ → ConduitState
  | 0 => .state1WaitPeers
  | 1 => .state21ClaimerHashedNonce
  | 2 => .state22GreeterNonce
  | 3 => .state23ClaimerNonce
  | 4 => .state31ClaimerTrust
  | 5 => .state32GreeterTrust
  | _ + 6 => .state4Communicate

namespace InviteSession

variable (session : InviteSession PrivateKey)

/-- What a party sends in its exchanges; from the last state on, anything. -/
def payloadAt : Party → ℕ → Option Bytes
  | _, 0 => some (crypto.publicKey session.privateKey)
  | .claimer, 1 => some (crypto.hashDigest session.nonce)
  | .claimer, 3 => some session.nonce
  | .greeter, 2 => some session.nonce
  | _, 1 | _, 2 | _, 3 | _, 4 | _, 5 => some []
  | _, _ + 6 => none

/-- What the claimer's `_do_wait_peer` returns. -/
def claimerResult (greeterPublicKey greeterNonce : Bytes) : Option WaitPeerResult := do
  let sharedSecretKey := crypto.generateSharedSecretKey session.privateKey greeterPublicKey
  let (claimerSas, greeterSas) ← generateSasCodes crypto session.nonce greeterNonce sharedSecretKey
  return ⟨claimerSas, greeterSas, sharedSecretKey⟩

/-- What the greeter's `_do_wait_peer` returns, unless the nonce is not the one that was announced. -/
def greeterResult (claimerPublicKey claimerHashedNonce claimerNonce : Bytes) :
    Option WaitPeerResult := do
  let sharedSecretKey := crypto.generateSharedSecretKey session.privateKey claimerPublicKey
  guard (crypto.hashDigest claimerNonce = claimerHashedNonce)
  let (claimerSas, greeterSas) ← generateSasCodes crypto claimerNonce session.nonce sharedSecretKey
  return ⟨claimerSas, greeterSas, sharedSecretKey⟩

/-- What `_do_wait_peer` makes of the payloads that its four exchanges have returned. -/
def waitPeerResult : Party → List Bytes → Option WaitPeerResult
  | .claimer, [greeterPublicKey, _, greeterNonce, _] =>
      session.claimerResult crypto greeterPublicKey greeterNonce
  | .greeter, [claimerPublicKey, claimerHashedNonce, _, claimerNonce] =>
      session.greeterResult crypto claimerPublicKey claimerHashedNonce claimerNonce
  | _, _ => none

end InviteSession

/-- One party: its session, if there is one, and the result of its last `_do_wait_peer` that
returned. -/
structure InviteSide (PrivateKey : Type) where
  session : Option (InviteSession PrivateKey) := none
  held : Option WaitPeerResult := none

structure SessionSystem (PrivateKey : Type) where
  slot : InvitationSlot
  sides : Party → InviteSide PrivateKey := fun _ => {}

inductive SessionEvent (PrivateKey : Type) where
  /-- Start `_do_wait_peer`. -/
  | waitPeer (party : Party) (privateKey : PrivateKey) (nonce : Bytes)
  /-- The talk of the next exchange; the payload matters in the last state only. -/
  | talk (party : Party) (payload : Bytes)
  | listen (party : Party)
  | abandon (party : Party)
  | delete

namespace SessionSystem

variable (system : SessionSystem PrivateKey)

def setSide (party : Party) (side : InviteSide PrivateKey) : SessionSystem PrivateKey :=
  { system with sides := Function.update system.sides party side }

def setSession (party : Party) (session : Option (InviteSession PrivateKey)) :
    SessionSystem PrivateKey :=
  system.setSide party { system.sides party with session := session }

/-- The talk of the next exchange of a session; a refusal ends the session. -/
def talk (party : Party) (session : InviteSession PrivateKey) (payload : Bytes) :
    SessionSystem PrivateKey :=
  let stage := session.received.length
  match system.slot.conduitTalk (system.slot.greeterOf party) (stageState stage)
      ((session.payloadAt crypto party stage).getD payload) with
  | .error _ => system.setSession party none
  | .ok (ctx, slot) =>
      { system with slot := slot }.setSession party (some { session with listening := some ctx })

/-- The side after an exchange has returned. The fourth one ends `_do_wait_peer`. -/
def receive (party : Party) (session : InviteSession PrivateKey) (payload : Bytes) :
    InviteSide PrivateKey :=
  let received := session.received ++ [payload]
  let progressed := { session with received := received, listening := none }
  if received.length = 4 then
    match session.waitPeerResult crypto party received with
    | none => { system.sides party with session := none }
    | some result => { session := some progressed, held := some result }
  else { system.sides party with session := some progressed }

/-- Listen once for a session; an error ends it. -/
def listen (party : Party) (session : InviteSession PrivateKey) (ctx : ConduitListenCtx) :
    SessionSystem PrivateKey :=
  match system.slot.conduitListen ctx with
  | .error _ => system.setSession party none
  | .ok (none, slot) => { system with slot := slot }
  | .ok (some payload, slot) =>
      { system with slot := slot }.setSide party (system.receive crypto party session payload)

def step? : SessionEvent PrivateKey → Option (SessionSystem PrivateKey)
  | .waitPeer party privateKey nonce =>
      some (system.setSession party (some { privateKey, nonce }))
  | .talk party payload => do
      let session ← (system.sides party).session
      guard (session.listening = none)
      return system.talk crypto party session payload
  | .listen party => do
      let session ← (system.sides party).session
      let ctx ← session.listening
      return system.listen crypto party session ctx
  | .abandon party => some (system.setSession party none)
  | .delete => some { system with slot := { system.slot with deleted := true } }

end SessionSystem

end Sessions

end Guardata
