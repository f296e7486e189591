import Mathlib.Logic.Function.Basic
import Guardata.Model.Invite

/-! # What a talk and a listen can do

`Talked` and `Listened` list the outcomes of the two atomic calls on the conduit, `Happens` those of a
step of the system. No proof about runs unfolds a call after this module.
-/

namespace Guardata

@[simp] theorem Party.peer_peer (party : Party) : party.peer.peer = party := by cases party <;> rfl

@[simp] theorem Party.peer_ne (party : Party) : party.peer ≠ party := by cases party <;> decide

theorem Party.eq_or_eq_peer (first second : Party) : first = second ∨ first = second.peer := by
  cases first <;> cases second <;> simp [Party.peer]

theorem ConduitState.next_ne_first (state : ConduitState) : state.next ≠ .state1WaitPeers := by
  cases state <;> decide

namespace Conduit

variable (conduit : Conduit) (party : Party) (payload : Bytes)

@[simp] theorem payload_setPayload_self : (conduit.setPayload party payload).payload party =
    some payload := by
  cases party <;> rfl

@[simp] theorem payload_setPayload_peer :
    (conduit.setPayload party payload).payload party.peer = conduit.payload party.peer := by
  cases party <;> rfl

@[simp] theorem state_setPayload : (conduit.setPayload party payload).state = conduit.state := by
  cases party <;> rfl

@[simp] theorem payload_clear (state : ConduitState) :
    ({ state := state } : Conduit).payload party = none := by
  cases party <;> rfl

end Conduit

/-- The conduit after a talk, and the payload that the talk found. -/
inductive Talked (conduit : Conduit) (party : Party) (state : ConduitState) (payload : Bytes) :
    Conduit → Option Bytes → Prop
  | joined (synced : conduit.state = state) (free : conduit.payload party = none) :
      Talked conduit party state payload (conduit.setPayload party payload) (conduit.payload party.peer)
  | reset (first : state = .state1WaitPeers) :
      Talked conduit party state payload
        (({ state := .state1WaitPeers } : Conduit).setPayload party payload) none

/-- The conduit after a listen, and the payload that it returns. -/
inductive Listened (conduit : Conduit) (party : Party) (ctx : ConduitListenCtx) :
    Conduit → Option Bytes → Prop
  | waits (ours : conduit.payload party = some ctx.payload) : Listened conduit party ctx conduit none
  | takes {payload : Bytes} (early : ctx.peerPayload = none) (synced : conduit.state = ctx.state)
      (ours : conduit.payload party = some ctx.payload)
      (theirs : conduit.payload party.peer = some payload) :
      Listened conduit party ctx { state := ctx.state.next } (some payload)
  | taken {payload : Bytes} (late : ctx.peerPayload = some payload)
      (moved : conduit.state = ctx.state.next) (ours : conduit.payload party = none) :
      Listened conduit party ctx conduit (some payload)

namespace InvitationSlot

variable {slot next : InvitationSlot} {party : Party} {ctx : ConduitListenCtx}

theorem partyOf_greeterOf (slot : InvitationSlot) (party : Party) :
    partyOf (slot.greeterOf party) = party := by
  cases party <;> rfl

theorem talked_of_conduitTalk {state : ConduitState} {payload : Bytes}
    (called : slot.conduitTalk (slot.greeterOf party) state payload = .ok (ctx, next)) :
    ∃ conduit peerPayload, ctx = ⟨slot.greeterOf party, state, payload, peerPayload⟩ ∧
      next = { slot with conduit := conduit } ∧
      Talked slot.conduit party state payload conduit peerPayload := by
  simp only [conduitTalk, getInvitationAndConduit, Except.bind_eq_ok_iff, Except.require_eq_ok_iff,
    Except.pure_eq_ok_iff, exists_const, partyOf_greeterOf] at called
  obtain ⟨_, ⟨-, -, rfl⟩, conduit, resynced, same⟩ := called
  cases same
  refine ⟨_, _, rfl, rfl, ?_⟩
  unfold Conduit.resync at resynced
  split at resynced
  · split at resynced
    · next first =>
      cases resynced
      subst first
      have nothing := Conduit.payload_clear party.peer .state1WaitPeers
      simp only [nothing]
      exact .reset rfl
    · cases resynced
  · next synced =>
    cases resynced
    obtain ⟨synced, free⟩ := not_or.mp synced
    exact .joined (not_not.mp synced) (not_not.mp free)

theorem listened_of_conduitListen {result : Option Bytes} (own : ctx.greeter = slot.greeterOf party)
    (called : slot.conduitListen ctx = .ok (result, next)) :
    ∃ conduit, next = { slot with conduit := conduit } ∧
      Listened slot.conduit party ctx conduit result := by
  simp only [conduitListen, getInvitationAndConduit, Except.bind_eq_ok_iff, Except.require_eq_ok_iff,
    Except.pure_eq_ok_iff, exists_const, own, partyOf_greeterOf] at called
  obtain ⟨_, ⟨-, -, rfl⟩, called⟩ := called
  split at called
  · next early =>
    split at called
    · cases called
    · next unchanged =>
      obtain ⟨synced, ours⟩ := not_or.mp unchanged
      split at called
      · cases called
        exact ⟨_, rfl, .waits (not_not.mp ours)⟩
      · next theirs =>
        cases called
        exact ⟨_, rfl, .takes early (not_not.mp synced) (not_not.mp ours) theirs⟩
  · next late =>
    split at called
    · next moved =>
      cases called
      exact ⟨_, rfl, .taken late moved.1 moved.2⟩
    · split at called
      · cases called
      · next unchanged =>
        cases called
        obtain ⟨-, unchanged⟩ := not_or.mp unchanged
        exact ⟨_, rfl, .waits (not_not.mp (not_or.mp unchanged).1)⟩

end InvitationSlot

namespace InviteSystem

variable {system next : InviteSystem} {party : Party}

/-- What a step comes to. -/
inductive Happens (system : InviteSystem) : InviteEvent → InviteSystem → Prop
  | refused {party : Party} {state : ConduitState} {payload : Bytes} (error : InvitationError) :
      Happens system (.talk party state payload) (system.setParticipant party
        ((system.participants party).start { state, payload, outcome := .failed error }))
  | talked {party : Party} {state : ConduitState} {payload : Bytes} {conduit : Conduit}
      {peerPayload : Option Bytes}
      (talked : Talked system.slot.conduit party state payload conduit peerPayload) :
      Happens system (.talk party state payload)
        ({ system with slot := { system.slot with conduit := conduit } }.setParticipant party
          ((system.participants party).start { state, payload, peerPayload, outcome := .waiting }))
  | failed {party : Party} {exchange : Exchange}
      (current : (system.participants party).current = some exchange)
      (waiting : exchange.outcome = .waiting) (error : InvitationError) :
      Happens system (.listen party) (system.setParticipant party
        { system.participants party with current := some { exchange with outcome := .failed error } })
  | waited {party : Party} {exchange : Exchange}
      (current : (system.participants party).current = some exchange)
      (ours : system.slot.conduit.payload party = some exchange.payload) :
      Happens system (.listen party) system
  | returned {party : Party} {exchange : Exchange} {conduit : Conduit} {payload : Bytes}
      (current : (system.participants party).current = some exchange)
      (waiting : exchange.outcome = .waiting)
      (listened : Listened system.slot.conduit party
        (exchange.listenCtx (system.slot.greeterOf party)) conduit (some payload)) :
      Happens system (.listen party)
        ({ system with slot := { system.slot with conduit := conduit } }.setParticipant party
          { system.participants party with
            current := some { exchange with outcome := .returned payload } })
  | deleted : Happens system .delete { system with slot := { system.slot with deleted := true } }

theorem happens_of_step {event : InviteEvent} (step : system.step? event = some next) :
    system.Happens event next := by
  cases event with
  | talk party state payload =>
    cases step
    unfold talk
    split
    · exact .refused _
    · next called =>
      obtain ⟨conduit, peerPayload, rfl, rfl, talked⟩ := InvitationSlot.talked_of_conduitTalk called
      exact .talked talked
  | listen party =>
    obtain ⟨exchange, current, step⟩ := Option.bind_eq_some_iff.mp step
    simp only [guard] at step
    split at step
    · next waiting =>
      cases step
      unfold listen
      split
      · exact .failed current waiting _
      · next called =>
        obtain ⟨conduit, rfl, listened⟩ := InvitationSlot.listened_of_conduitListen rfl called
        cases listened with
        | waits ours => exact .waited current ours
      · next called =>
        obtain ⟨conduit, rfl, listened⟩ := InvitationSlot.listened_of_conduitListen rfl called
        exact .returned current waiting listened
    · cases step
  | delete =>
    cases step
    exact .deleted

theorem participants_setParticipant (system : InviteSystem) (party other : Party)
    (participant : Participant) :
    (system.setParticipant party participant).participants other =
      if other = party then participant else system.participants other := by
  simp [setParticipant, Function.update_apply]

end InviteSystem

end Guardata
