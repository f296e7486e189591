import Guardata.Model.SignedData

/-! # The conduit of an invitation

The greeter and the claimer of an invitation exchange payloads through a conduit that the backend
keeps. In every state of the conduit each of them provides a payload and gets the one of the other:
who talks first waits for the peer's payload, who talks second for the peer to have taken theirs. The
conduit then moves to its next state. Talking about the first state resets the conduit whenever it is
anywhere else.

The system is one invitation and its two parties, each with one exchange at a time: a talk, then any
number of listens. A party that talks again abandons what it was waiting for. The exchanges are kept
in order, as a record of what each of them came to.
-/

namespace Guardata

inductive ConduitState where
  | state1WaitPeers
  | state21ClaimerHashedNonce
  | state22GreeterNonce
  | state23ClaimerNonce
  | state31ClaimerTrust
  | state32GreeterTrust
  | state4Communicate
deriving DecidableEq, Repr

/-- `NEXT_CONDUIT_STATE`. -/
def ConduitState.next : ConduitState → ConduitState
  | .state1WaitPeers => .state21ClaimerHashedNonce
  | .state21ClaimerHashedNonce => .state22GreeterNonce
  | .state22GreeterNonce => .state23ClaimerNonce
  | .state23ClaimerNonce => .state31ClaimerTrust
  | .state31ClaimerTrust => .state32GreeterTrust
  | .state32GreeterTrust => .state4Communicate
  | .state4Communicate => .state4Communicate

inductive InvitationError where
  | notFound
  | alreadyDeleted
  | invalidState
deriving DecidableEq, Repr

inductive Party where
  | claimer
  | greeter
deriving DecidableEq, Repr

def Party.peer : Party → Party
  | .claimer => .greeter
  | .greeter => .claimer

structure Conduit where
  state : ConduitState := .state1WaitPeers
  claimerPayload : Option Bytes := none
  greeterPayload : Option Bytes := none
deriving DecidableEq, Repr

namespace Conduit

def payload (conduit : Conduit) : Party → Option Bytes
  | .claimer => conduit.claimerPayload
  | .greeter => conduit.greeterPayload

def setPayload (conduit : Conduit) (party : Party) (payload : Bytes) : Conduit :=
  match party with
  | .claimer => { conduit with claimerPayload := some payload }
  | .greeter => { conduit with greeterPayload := some payload }

/-- Start over if we are out of sync with the conduit, which only the first state allows. -/
def resync (conduit : Conduit) (party : Party) (state : ConduitState) :
    Except InvitationError Conduit :=
  if conduit.state ≠ state ∨ conduit.payload party ≠ none then
    if state = .state1WaitPeers then .ok { state := state }
    else .error .invalidState
  else .ok conduit

end Conduit

/-- `ConduitListenCtx`; the greeter is the user that the invitation comes from, a claimer has none. -/
structure ConduitListenCtx where
  greeter : Option UserID
  state : ConduitState
  payload : Bytes
  peerPayload : Option Bytes
deriving DecidableEq, Repr

/-- The side on which a request comes. -/
def partyOf (greeter : Option UserID) : Party := if greeter.isSome then .greeter else .claimer

/-- What the backend keeps about the token of an invitation. -/
structure InvitationSlot where
  greeterUserId : UserID
  deleted : Bool := false
  conduit : Conduit := {}
deriving DecidableEq, Repr

namespace InvitationSlot

/-- Who a party says it is. -/
def greeterOf (slot : InvitationSlot) : Party → Option UserID
  | .claimer => none
  | .greeter => some slot.greeterUserId

def getInvitationAndConduit (slot : InvitationSlot) (expectedGreeter : Option UserID) :
    Except InvitationError Conduit := do
  .require (∀ greeter ∈ expectedGreeter, slot.greeterUserId = greeter) .notFound
  .require (slot.deleted = false) .alreadyDeleted
  return slot.conduit

/-- `_conduit_talk`. -/
def conduitTalk (slot : InvitationSlot) (greeter : Option UserID) (state : ConduitState)
    (payload : Bytes) : Except InvitationError (ConduitListenCtx × InvitationSlot) := do
  let conduit ← slot.getInvitationAndConduit greeter
  let conduit ← conduit.resync (partyOf greeter) state
  -- Now update the conduit with our payload
  return ({ greeter, state, payload, peerPayload := conduit.payload (partyOf greeter).peer },
    { slot with conduit := conduit.setPayload (partyOf greeter) payload })

/-- `_conduit_listen`: the payload of the peer, or none if we have to wait. -/
def conduitListen (slot : InvitationSlot) (ctx : ConduitListenCtx) :
    Except InvitationError (Option Bytes × InvitationSlot) := do
  let conduit ← slot.getInvitationAndConduit ctx.greeter
  let currOurPayload := conduit.payload (partyOf ctx.greeter)
  let currPeerPayload := conduit.payload (partyOf ctx.greeter).peer
  match ctx.peerPayload with
  | none =>
      -- Only peer payload should be allowed to change
      if conduit.state ≠ ctx.state ∨ currOurPayload ≠ some ctx.payload then .error .invalidState
      else
        match currPeerPayload with
        | none => return (none, slot)
        -- Our peer has provided its payload, we can update the conduit to the next state
        | some peerPayload =>
            return (some peerPayload, { slot with conduit := { state := ctx.state.next } })
  | some peerPayload =>
      -- We were waiting for the peer to take into account the payload we provided
      if conduit.state = ctx.state.next ∧ currOurPayload = none then return (some peerPayload, slot)
      -- Something unexpected has changed in our back...
      else if conduit.state ≠ ctx.state ∨ currOurPayload ≠ some ctx.payload ∨
          currPeerPayload ≠ some peerPayload then .error .invalidState
      else return (none, slot)

end InvitationSlot

/-- What has become of an exchange. -/
inductive ExchangeOutcome where
  | waiting
  | returned (payload : Bytes)
  | failed (error : InvitationError)
  | abandoned
deriving DecidableEq, Repr

/-- One `conduit_exchange`, with what the talk found of the peer. -/
structure Exchange where
  state : ConduitState
  payload : Bytes
  peerPayload : Option Bytes := none
  outcome : ExchangeOutcome
deriving DecidableEq, Repr

/-- What a listen about the exchange is given. -/
def Exchange.listenCtx (exchange : Exchange) (greeter : Option UserID) : ConduitListenCtx :=
  ⟨greeter, exchange.state, exchange.payload, exchange.peerPayload⟩

/-- A party that goes on to its next exchange does not come back. -/
def Exchange.close (exchange : Exchange) : Exchange :=
  if exchange.outcome = .waiting then { exchange with outcome := .abandoned } else exchange

/-- The exchanges of a party, the last one apart. -/
structure Participant where
  past : List Exchange := []
  current : Option Exchange := none

namespace Participant

/-- The exchange with that number. -/
def exchange? (participant : Participant) (index : ℕ) : Option Exchange :=
  (participant.past ++ participant.current.toList)[index]?

def start (participant : Participant) (exchange : Exchange) : Participant where
  past := participant.past ++ (participant.current.map Exchange.close).toList
  current := some exchange

end Participant

structure InviteSystem where
  slot : InvitationSlot
  participants : Party → Participant := fun _ => {}

inductive InviteEvent where
  | talk (party : Party) (state : ConduitState) (payload : Bytes)
  | listen (party : Party)
  | delete

namespace InviteSystem

def setParticipant (system : InviteSystem) (party : Party) (participant : Participant) : InviteSystem :=
  { system with participants := Function.update system.participants party participant }

/-- Start an exchange with a talk, which may be refused. -/
def talk (system : InviteSystem) (party : Party) (state : ConduitState) (payload : Bytes) : InviteSystem :=
  let participant := system.participants party
  match system.slot.conduitTalk (system.slot.greeterOf party) state payload with
  | .error error => system.setParticipant party
      (participant.start { state, payload, outcome := .failed error })
  | .ok (ctx, slot) => { system with slot := slot }.setParticipant party
      (participant.start { state, payload, peerPayload := ctx.peerPayload, outcome := .waiting })

/-- Listen once about an exchange that is waiting. -/
def listen (system : InviteSystem) (party : Party) (exchange : Exchange) : InviteSystem :=
  let participant := system.participants party
  match system.slot.conduitListen (exchange.listenCtx (system.slot.greeterOf party)) with
  | .error error => system.setParticipant party
      { participant with current := some { exchange with outcome := .failed error } }
  | .ok (none, slot) => { system with slot := slot }
  | .ok (some peerPayload, slot) => { system with slot := slot }.setParticipant party
      { participant with current := some { exchange with outcome := .returned peerPayload } }

/-- One atomic step of the backend. Only a waiting exchange can be listened about. -/
def step? (system : InviteSystem) : InviteEvent → Option InviteSystem
  | .talk party state payload => some (system.talk party state payload)
  | .listen party => do
      let exchange ← (system.participants party).current
      guard (exchange.outcome = .waiting)
      return system.listen party exchange
  | .delete => some { system with slot := { system.slot with deleted := true } }

end InviteSystem

end Guardata
