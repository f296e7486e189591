import Guardata.Machine.Run
import Guardata.Proofs.Invite

/-! # Agreement through the conduit of an invitation

Payloads never get crossed: an exchange that returned a payload was met by an exchange of the peer
about the same state, and that one can end with nothing but the payload of the first. `Synced` says
how the exchanges in progress relate to the conduit; `Answers` is what an exchange that was met
guarantees from then on, whatever happens next.
-/

namespace Guardata

open Machine

namespace Participant

variable {participant : Participant} {exchange found : Exchange} {index : ℕ}

@[simp] theorem exchange?_length (participant : Participant) :
    participant.exchange? participant.past.length = participant.current := by
  unfold exchange?
  cases participant.current <;> simp

theorem exchange?_eq_some_iff :
    participant.exchange? index = some exchange ↔
      participant.past[index]? = some exchange ∨
        index = participant.past.length ∧ participant.current = some exchange := by
  unfold exchange?
  rcases Nat.lt_trichotomy index participant.past.length with earlier | rfl | later
  · rw [List.getElem?_append_left earlier]
    simp [earlier.ne]
  · cases participant.current <;> simp
  · rw [List.getElem?_append_right later.le, List.getElem?_eq_none later.le]
    cases participant.current <;> simp [later.ne', Nat.sub_ne_zero_of_lt later]

/-- The next exchange leaves those alone that have ended. -/
theorem exchange?_start (found : participant.exchange? index = some exchange)
    (ended : exchange.outcome ≠ .waiting) (next : Exchange) :
    (participant.start next).exchange? index = some exchange := by
  refine exchange?_eq_some_iff.mpr (.inl ?_)
  rcases exchange?_eq_some_iff.mp found with past | ⟨rfl, current⟩
  · rw [start, List.getElem?_append_left (List.getElem?_eq_some_iff.mp past).1, past]
  · simp [start, current, Exchange.close, ended]

/-- The next exchange takes the place of one that was waiting. -/
theorem exchange?_start_current (current : participant.current = some exchange)
    (waiting : exchange.outcome = .waiting) (next : Exchange) :
    (participant.start next).exchange? participant.past.length =
      some { exchange with outcome := .abandoned } := by
  refine exchange?_eq_some_iff.mpr (.inl ?_)
  simp [start, current, Exchange.close, waiting]

/-- What an exchange comes to leaves those alone that have ended. -/
theorem exchange?_end {last : Exchange} (current : participant.current = some last)
    (waiting : last.outcome = .waiting) (found : participant.exchange? index = some exchange)
    (closed : exchange.outcome ≠ .waiting) (ended : Exchange) :
    ({ participant with current := some ended } : Participant).exchange? index = some exchange := by
  rcases exchange?_eq_some_iff.mp found with past | ⟨rfl, here⟩
  · exact exchange?_eq_some_iff.mpr (.inl past)
  · cases current.symm.trans here
    exact absurd waiting closed

/-- An exchange was there before the current one ended, or it is what that one came to. -/
theorem of_exchange?_end {ended : Exchange}
    (found : ({ participant with current := some ended } : Participant).exchange? index = some exchange) :
    participant.exchange? index = some exchange ∨ exchange = ended := by
  rcases exchange?_eq_some_iff.mp found with past | ⟨-, last⟩
  · exact .inl (exchange?_eq_some_iff.mpr (.inl past))
  · exact .inr (Option.some.inj last).symm

/-- An exchange that has returned did so before the next one was started. -/
theorem of_exchange?_start {next : Exchange} {payload : Bytes}
    (found : (participant.start next).exchange? index = some exchange)
    (returned : exchange.outcome = .returned payload) (fresh : next.outcome ≠ .returned payload) :
    participant.exchange? index = some exchange := by
  rcases exchange?_eq_some_iff.mp found with past | ⟨-, current⟩
  · simp only [start, List.getElem?_append] at past
    split at past
    · exact exchange?_eq_some_iff.mpr (.inl past)
    · next beyond =>
      cases current : participant.current with
      | none => simp [current] at past
      | some last =>
        simp only [current, Option.map_some, Option.toList_some, List.getElem?_singleton] at past
        split at past
        · next here =>
          have index_eq : index = participant.past.length := by omega
          have closed : last.close = exchange := Option.some.inj past
          rw [Exchange.close] at closed
          split at closed
          · rw [← closed] at returned
            cases returned
          · rw [index_eq, exchange?_length, current, closed]
        · cases past
  · cases current
    exact absurd returned fresh

end Participant

namespace InviteSystem

variable {system next : InviteSystem} {event : InviteEvent}

/-- An exchange has provided a payload for a state, and ends by returning the given answer, if not by
an error or not at all. -/
def Answers (system : InviteSystem) (party : Party) (index : ℕ) (state : ConduitState)
    (payload answer : Bytes) : Prop :=
  ∃ exchange, (system.participants party).exchange? index = some exchange ∧ exchange.state = state ∧
    exchange.payload = payload ∧
    (exchange.outcome = .abandoned ∨ (∃ error, exchange.outcome = .failed error) ∨
      exchange.outcome = .returned answer ∨
      (exchange.outcome = .waiting ∧ exchange.peerPayload = some answer ∧
        (system.participants party).current = some exchange ∧
        index = (system.participants party).past.length ∧ system.slot.conduit.payload party = none))

/-- How the exchanges in progress relate to the conduit. -/
structure Synced (system : InviteSystem) : Prop where
  /-- What the conduit holds comes from an exchange about its state that did not return. -/
  owned : ∀ party payload, system.slot.conduit.payload party = some payload →
    ∃ index exchange, (system.participants party).exchange? index = some exchange ∧
      exchange.state = system.slot.conduit.state ∧ exchange.payload = payload ∧
      (exchange.outcome = .abandoned ∨ (∃ error, exchange.outcome = .failed error) ∨
        (exchange.outcome = .waiting ∧ (system.participants party).current = some exchange ∧
          index = (system.participants party).past.length))
  /-- Who talked first waits with their payload in the conduit, or was thrown out of it. -/
  early : ∀ party exchange, (system.participants party).current = some exchange →
    exchange.outcome = .waiting → exchange.peerPayload = none →
    system.slot.conduit.payload party = none ∨
      (system.slot.conduit.state = exchange.state ∧
        system.slot.conduit.payload party = some exchange.payload)
  /-- Who talked second waits with both payloads in the conduit, or the peer has returned, or the
  conduit was reset. -/
  late : ∀ party exchange peerPayload, (system.participants party).current = some exchange →
    exchange.outcome = .waiting → exchange.peerPayload = some peerPayload →
    (system.slot.conduit.state = exchange.state ∧
      system.slot.conduit.payload party = some exchange.payload ∧
      system.slot.conduit.payload party.peer = some peerPayload) ∨
    (system.slot.conduit.payload party = none ∧
      (system.slot.conduit.state = .state1WaitPeers ∨
        ∃ index answer, (system.participants party.peer).exchange? index = some answer ∧
          answer.state = exchange.state ∧ answer.payload = peerPayload ∧
          answer.outcome = .returned exchange.payload))
  /-- They do not both wait as the first. -/
  exclusive : ∀ party exchange answer, (system.participants party).current = some exchange →
    exchange.outcome = .waiting → exchange.peerPayload = none →
    (system.participants party.peer).current = some answer → answer.outcome = .waiting →
    answer.peerPayload = none →
    system.slot.conduit.payload party = none ∨ system.slot.conduit.payload party.peer = none

section Step

variable {party : Party} {participant : Participant} {conduit : Conduit}

@[simp] theorem participants_self (system : InviteSystem) (party : Party) (participant : Participant) :
    (system.setParticipant party participant).participants party = participant := by
  rw [participants_setParticipant, if_pos rfl]

@[simp] theorem participants_peer (system : InviteSystem) (party : Party) (participant : Participant) :
    (system.setParticipant party participant).participants party.peer = system.participants party.peer := by
  rw [participants_setParticipant, if_neg party.peer_ne]

@[simp] theorem slot_setParticipant (system : InviteSystem) (party : Party) (participant : Participant) :
    (system.setParticipant party participant).slot = system.slot := rfl

/-- An exchange ends, or is refused at once, and the conduit stays as it is. -/
theorem Synced.settle (synced : system.Synced)
    (ended : ∀ exchange, participant.current = some exchange → exchange.outcome ≠ .waiting)
    (kept : ∀ index exchange, (system.participants party).exchange? index = some exchange →
      exchange.outcome ≠ .waiting → participant.exchange? index = some exchange)
    (owned : ∀ payload, system.slot.conduit.payload party = some payload →
      ∃ index exchange, participant.exchange? index = some exchange ∧
        exchange.state = system.slot.conduit.state ∧ exchange.payload = payload ∧
        (exchange.outcome = .abandoned ∨ ∃ error, exchange.outcome = .failed error)) :
    (system.setParticipant party participant).Synced := by
  constructor
  · intro other payload held
    rcases other.eq_or_eq_peer party with rfl | rfl
    · obtain ⟨index, exchange, found, state, same, outcome⟩ := owned payload held
      refine ⟨index, exchange, by simpa using found, state, same, ?_⟩
      exact outcome.imp_right .inl
    · simpa using synced.owned party.peer payload held
  · intro other exchange current waiting early
    rcases other.eq_or_eq_peer party with rfl | rfl
    · exact absurd waiting (ended exchange (by simpa using current))
    · exact synced.early _ exchange (by simpa using current) waiting early
  · intro other exchange peerPayload current waiting late
    rcases other.eq_or_eq_peer party with rfl | rfl
    · exact absurd waiting (ended exchange (by simpa using current))
    · rcases synced.late _ exchange peerPayload (by simpa using current) waiting late with
        held | ⟨free, reset | ⟨index, answer, found, answers⟩⟩
      · exact .inl held
      · exact .inr ⟨free, .inl reset⟩
      · refine .inr ⟨free, .inr ⟨index, answer, ?_, answers⟩⟩
        rw [Party.peer_peer] at found
        rw [Party.peer_peer, participants_self]
        exact kept index answer found (by simp [answers.2.2])
  · intro other exchange answer current waiting early answered answerWaits
    rcases other.eq_or_eq_peer party with rfl | rfl
    · exact absurd waiting (ended exchange (by simpa using current))
    · rw [Party.peer_peer, participants_self] at answered
      exact absurd answerWaits (ended answer answered)

/-- A talk that is not refused. -/
theorem Synced.talked (synced : system.Synced) {state : ConduitState} {payload : Bytes}
    {peerPayload : Option Bytes}
    (talked : Talked system.slot.conduit party state payload conduit peerPayload) :
    ({ system with slot := { system.slot with conduit := conduit } }.setParticipant party
      ((system.participants party).start { state, payload, peerPayload, outcome := .waiting })).Synced := by
  have ours : conduit.payload party = some payload := by cases talked <;> simp
  have here : conduit.state = state := by
    cases talked with
    | joined same => simpa using same
    | reset first => simpa using first.symm
  have theirs : conduit.payload party.peer = peerPayload := by cases talked <;> simp
  constructor
  · intro other held isHeld
    rcases other.eq_or_eq_peer party with rfl | rfl
    · simp only [slot_setParticipant] at isHeld
      cases ours.symm.trans isHeld
      refine ⟨_, { state, payload, peerPayload, outcome := .waiting }, ?_, here.symm, rfl,
        .inr (.inr ⟨rfl, ?_, rfl⟩)⟩
      · rw [Participant.exchange?_length, participants_self]
        rfl
      · rw [participants_self]
        rfl
    · simp only [slot_setParticipant, participants_peer] at isHeld ⊢
      cases talked with
      | joined =>
        rw [Conduit.payload_setPayload_peer] at isHeld
        simpa using synced.owned party.peer held isHeld
      | reset => simp at isHeld
  · intro other exchange current waiting early
    rcases other.eq_or_eq_peer party with rfl | rfl
    · simp only [participants_self, Participant.start, Option.some.injEq] at current
      subst current
      exact .inr ⟨here, ours⟩
    · simp only [participants_peer, slot_setParticipant] at current ⊢
      cases talked with
      | joined => simpa using synced.early party.peer exchange current waiting early
      | reset => simp
  · intro other exchange seen current waiting late
    rcases other.eq_or_eq_peer party with rfl | rfl
    · simp only [participants_self, Participant.start, Option.some.injEq] at current
      subst current
      exact .inl ⟨here, ours, theirs.trans late⟩
    · simp only [participants_peer, slot_setParticipant, Party.peer_peer, participants_self] at current ⊢
      cases talked with
      | joined _ free =>
        rcases synced.late party.peer exchange seen current waiting late with
          ⟨-, -, held⟩ | ⟨unheld, reset | ⟨index, answer, found, answers⟩⟩
        · rw [Party.peer_peer, free] at held
          cases held
        · exact .inr ⟨by simpa using unheld, .inl (by simpa using reset)⟩
        · refine .inr ⟨by simpa using unheld, .inr ⟨index, answer, ?_, answers⟩⟩
          rw [Party.peer_peer] at found
          exact Participant.exchange?_start found (by simp [answers.2.2]) _
      | reset => exact .inr ⟨by simp, .inl (by simp)⟩
  · intro other exchange answer current _ early answered _ earlyToo
    rcases other.eq_or_eq_peer party with rfl | rfl
    · simp only [participants_self, Participant.start, Option.some.injEq] at current
      subst current
      exact .inr (theirs.trans early)
    · simp only [Party.peer_peer, participants_self, Participant.start, Option.some.injEq] at answered
      subst answered
      exact .inl (theirs.trans earlyToo)

/-- The first of two parties gets its payload, and the conduit moves on. -/
theorem Synced.takes (synced : system.Synced) {exchange : Exchange} {payload : Bytes}
    (current : (system.participants party).current = some exchange)
    (here : system.slot.conduit.state = exchange.state)
    (ours : system.slot.conduit.payload party = some exchange.payload)
    (theirs : system.slot.conduit.payload party.peer = some payload) :
    ({ system with slot := { system.slot with conduit := { state := exchange.state.next } } }.setParticipant
      party { system.participants party with
        current := some { exchange with outcome := .returned payload } }).Synced := by
  constructor
  · intro other held isHeld
    simp at isHeld
  · intro other _ _ _ _
    exact .inl (by simp)
  · intro other answer seen answering waiting late
    refine .inr ⟨by simp, .inr ?_⟩
    rcases other.eq_or_eq_peer party with rfl | rfl
    · simp only [participants_self, Option.some.injEq] at answering
      subst answering
      cases waiting
    · simp only [participants_peer] at answering
      rcases synced.late party.peer answer seen answering waiting late with
        ⟨same, held, seenHere⟩ | ⟨unheld, -⟩
      · rw [Party.peer_peer, ours] at seenHere
        cases seenHere
        cases theirs.symm.trans held
        refine ⟨(system.participants party).past.length,
          { exchange with outcome := .returned answer.payload }, ?_, here.symm.trans same, rfl, rfl⟩
        rw [Party.peer_peer, participants_self]
        exact Participant.exchange?_length _
      · rw [unheld] at theirs
        cases theirs
  · intro other _ _ _ _ _ _ _ _
    exact .inl (by simp)

/-- The step lemma for what goes on between the parties. -/
theorem Synced.step (synced : system.Synced) (step : system.step? event = some next) : next.Synced := by
  cases happens_of_step step with
  | refused error =>
    refine synced.settle ?_ ?_ ?_
    · rintro exchange ⟨⟩
      simp
    · exact fun index exchange found ended => Participant.exchange?_start found ended _
    · intro payload held
      obtain ⟨index, exchange, found, state, same, outcome⟩ := synced.owned _ payload held
      rcases outcome with abandoned | failed | ⟨waits, current, rfl⟩
      · exact ⟨index, exchange, Participant.exchange?_start found (by simp [abandoned]) _, state, same,
          .inl abandoned⟩
      · obtain ⟨error, failed⟩ := failed
        exact ⟨index, exchange, Participant.exchange?_start found (by simp [failed]) _, state, same,
          .inr ⟨error, failed⟩⟩
      · exact ⟨_, _, Participant.exchange?_start_current current waits _, state, same, .inl rfl⟩
  | talked talked => exact synced.talked talked
  | @failed party exchange current waiting error =>
    refine synced.settle ?_ ?_ ?_
    · rintro exchange ⟨⟩
      simp
    · exact fun index other found ended => Participant.exchange?_end current waiting found ended _
    · intro payload held
      obtain ⟨index, other, found, state, same, outcome⟩ := synced.owned _ payload held
      rcases outcome with abandoned | failed | ⟨waits, here, rfl⟩
      · exact ⟨index, other, Participant.exchange?_end current waiting found (by simp [abandoned]) _,
          state, same, .inl abandoned⟩
      · obtain ⟨error, failed⟩ := failed
        exact ⟨index, other, Participant.exchange?_end current waiting found (by simp [failed]) _,
          state, same, .inr ⟨error, failed⟩⟩
      · cases current.symm.trans here
        exact ⟨_, _, Participant.exchange?_length _, state, same, .inr ⟨error, rfl⟩⟩
  | waited => exact synced
  | @returned party exchange conduit payload current waiting listened =>
    cases listened with
    | takes early here ours theirs => exact synced.takes current here ours theirs
    | taken late moved ours =>
      refine synced.settle ?_ ?_ ?_
      · rintro exchange ⟨⟩
        simp
      · exact fun index other found ended => Participant.exchange?_end current waiting found ended _
      · intro payload held
        rw [ours] at held
        cases held
  | deleted => exact ⟨synced.owned, synced.early, synced.late, synced.exclusive⟩

/-- A payload that has left the conduit comes back only with a talk of its party. -/
theorem payload_stays_none {actor : Party} (free : system.slot.conduit.payload actor.peer = none)
    {state : ConduitState} {payload : Bytes} {peerPayload : Option Bytes}
    (talked : Talked system.slot.conduit actor state payload conduit peerPayload) :
    conduit.payload actor.peer = none := by
  cases talked with
  | joined => simpa using free
  | reset => simp

/-- An exchange that has ended stays as it is. -/
theorem exchange?_step {index : ℕ} {exchange : Exchange}
    (found : (system.participants party).exchange? index = some exchange)
    (ended : exchange.outcome ≠ .waiting) (step : system.step? event = some next) :
    (next.participants party).exchange? index = some exchange := by
  cases happens_of_step step with
  | @refused actor =>
    rcases party.eq_or_eq_peer actor with rfl | rfl
    · rw [participants_self]
      exact Participant.exchange?_start found ended _
    · rwa [participants_peer]
  | @talked actor =>
    rcases party.eq_or_eq_peer actor with rfl | rfl
    · rw [participants_self]
      exact Participant.exchange?_start found ended _
    · rwa [participants_peer]
  | @failed actor _ current waiting =>
    rcases party.eq_or_eq_peer actor with rfl | rfl
    · rw [participants_self]
      exact Participant.exchange?_end current waiting found ended _
    · rwa [participants_peer]
  | waited => exact found
  | @returned actor _ _ _ current waiting =>
    rcases party.eq_or_eq_peer actor with rfl | rfl
    · rw [participants_self]
      exact Participant.exchange?_end current waiting found ended _
    · rwa [participants_peer]
  | deleted => exact found

/-- What an exchange guarantees, it guarantees for good. -/
theorem Answers.step {index : ℕ} {state : ConduitState} {payload answer : Bytes}
    (answers : system.Answers party index state payload answer) (step : system.step? event = some next) :
    next.Answers party index state payload answer := by
  obtain ⟨exchange, found, here, same, outcome⟩ := answers
  rcases outcome with abandoned | ⟨error, failed⟩ | returned | ⟨waits, seen, current, rfl, free⟩
  · exact ⟨exchange, exchange?_step found (by simp [abandoned]) step, here, same, .inl abandoned⟩
  · exact ⟨exchange, exchange?_step found (by simp [failed]) step, here, same,
      .inr (.inl ⟨error, failed⟩)⟩
  · exact ⟨exchange, exchange?_step found (by simp [returned]) step, here, same,
      .inr (.inr (.inl returned))⟩
  -- The peer's steps cannot bring the payload back; the party's own ones end the exchange.
  have elsewhere {actor : Party} (other : party = actor.peer) {participant : Participant}
      {conduit : Conduit} (stays : conduit.payload actor.peer = none) :
      ({ system with slot := { system.slot with conduit := conduit } }.setParticipant actor
        participant).Answers party (system.participants party).past.length state payload answer := by
    subst other
    exact ⟨exchange, by simpa using found, here, same, .inr (.inr (.inr ⟨waits, seen,
      by simpa using current, by simp, stays⟩))⟩
  cases happens_of_step step with
  | @refused actor =>
    rcases party.eq_or_eq_peer actor with rfl | other
    · refine ⟨{ exchange with outcome := .abandoned }, ?_, here, same, .inl rfl⟩
      rw [participants_self]
      exact Participant.exchange?_start_current current waits _
    · exact elsewhere other (other ▸ free)
  | @talked actor _ _ _ _ talked =>
    rcases party.eq_or_eq_peer actor with rfl | other
    · refine ⟨{ exchange with outcome := .abandoned }, ?_, here, same, .inl rfl⟩
      rw [participants_self]
      exact Participant.exchange?_start_current current waits _
    · exact elsewhere other (payload_stays_none (other ▸ free) talked)
  | @failed actor last stands _ error =>
    rcases party.eq_or_eq_peer actor with rfl | other
    · cases current.symm.trans stands
      refine ⟨{ exchange with outcome := .failed error }, ?_, here, same, .inr (.inl ⟨error, rfl⟩)⟩
      rw [participants_self]
      exact Participant.exchange?_length _
    · exact elsewhere other (other ▸ free)
  | waited => exact ⟨exchange, found, here, same, .inr (.inr (.inr ⟨waits, seen, current, rfl, free⟩))⟩
  | @returned actor last conduit result stands _ listened =>
    rcases party.eq_or_eq_peer actor with rfl | other
    · cases current.symm.trans stands
      refine ⟨{ exchange with outcome := .returned result }, ?_, here, same, .inr (.inr (.inl ?_))⟩
      · rw [participants_self]
        exact Participant.exchange?_length _
      · cases listened with
        | takes _ _ ours =>
          rw [free] at ours
          cases ours
        | taken late =>
          cases seen.symm.trans late
          rfl
    · refine elsewhere other ?_
      subst other
      cases listened with
      | takes => simp
      | taken => exact free
  | deleted => exact ⟨exchange, found, here, same, .inr (.inr (.inr ⟨waits, seen, current, rfl, free⟩))⟩

/-- Every exchange that has returned was met by one of the peer. -/
def Agreed (system : InviteSystem) : Prop :=
  ∀ party index exchange payload, (system.participants party).exchange? index = some exchange →
    exchange.outcome = .returned payload →
    ∃ peerIndex, system.Answers party.peer peerIndex exchange.state payload exchange.payload

/-- A listen that returns is met by an exchange of the peer. -/
theorem Synced.met (synced : system.Synced) {exchange : Exchange} {payload : Bytes}
    (current : (system.participants party).current = some exchange) (waiting : exchange.outcome = .waiting)
    (listened : Listened system.slot.conduit party
      (exchange.listenCtx (system.slot.greeterOf party)) conduit (some payload)) :
    ∃ peerIndex, ({ system with slot := { system.slot with conduit := conduit } }.setParticipant party
      { system.participants party with
        current := some { exchange with outcome := .returned payload } }).Answers party.peer peerIndex
        exchange.state payload exchange.payload := by
  cases listened with
  | takes early here ours theirs =>
    obtain ⟨index, answer, found, state, same, outcome⟩ := synced.owned _ payload theirs
    refine ⟨index, answer, by simpa using found, state.trans here, same, ?_⟩
    rcases outcome with abandoned | failed | ⟨waits, answering, rfl⟩
    · exact .inl abandoned
    · exact .inr (.inl failed)
    · cases seen : answer.peerPayload with
      | none =>
        rcases synced.exclusive party exchange answer current waiting early answering waits seen with
          free | free
        · rw [free] at ours
          cases ours
        · rw [free] at theirs
          cases theirs
      | some other =>
        rcases synced.late party.peer answer other answering waits seen with ⟨-, -, held⟩ | ⟨free, -⟩
        · rw [Party.peer_peer, ours] at held
          cases held
          exact .inr (.inr (.inr ⟨waits, rfl, by simpa using answering, by simp, by simp⟩))
        · rw [free] at theirs
          cases theirs
  | taken late moved ours =>
    rcases synced.late party exchange payload current waiting late with
      ⟨-, held, -⟩ | ⟨-, reset | ⟨index, answer, found, state, same, returned⟩⟩
    · rw [ours] at held
      cases held
    · exact absurd (moved.symm.trans reset) exchange.state.next_ne_first
    · exact ⟨index, answer, by simpa using found, state, same, .inr (.inr (.inl returned))⟩

/-- The step lemma for what has been agreed on. -/
theorem Agreed.step (agreed : system.Agreed) (synced : system.Synced)
    (step : system.step? event = some next) : next.Agreed := by
  intro party index exchange payload found returned
  -- Either the exchange had returned before, or this is the listen that returns it.
  have before (old : (system.participants party).exchange? index = some exchange) :
      ∃ peerIndex, next.Answers party.peer peerIndex exchange.state payload exchange.payload := by
    obtain ⟨peerIndex, answers⟩ := agreed party index exchange payload old returned
    exact ⟨peerIndex, answers.step step⟩
  cases happens_of_step step with
  | @refused actor =>
    rcases party.eq_or_eq_peer actor with rfl | rfl
    · rw [participants_self] at found
      exact before (Participant.of_exchange?_start found returned (by simp))
    · rw [participants_peer] at found
      exact before found
  | @talked actor =>
    rcases party.eq_or_eq_peer actor with rfl | rfl
    · rw [participants_self] at found
      exact before (Participant.of_exchange?_start found returned (by simp))
    · rw [participants_peer] at found
      exact before found
  | @failed actor =>
    rcases party.eq_or_eq_peer actor with rfl | rfl
    · rw [participants_self] at found
      rcases Participant.of_exchange?_end found with old | rfl
      · exact before old
      · cases returned
    · rw [participants_peer] at found
      exact before found
  | waited => exact before found
  | @returned actor last conduit result current waiting listened =>
    rcases party.eq_or_eq_peer actor with rfl | rfl
    · rw [participants_self] at found
      rcases Participant.of_exchange?_end found with old | rfl
      · exact before old
      · cases returned
        exact synced.met current waiting listened
    · rw [participants_peer] at found
      exact before found
  | deleted => exact before found

/-- The conduit moves on only when both parties have provided a payload, and is reset only on demand. -/
theorem Synced.moves (synced : system.Synced) (step : system.step? event = some next) :
    next.slot.conduit.state = system.slot.conduit.state ∨
      ((∃ party payload, event = .talk party .state1WaitPeers payload) ∧
        next.slot.conduit.state = .state1WaitPeers) ∨
      ((∃ party, event = .listen party) ∧
        next.slot.conduit.state = system.slot.conduit.state.next ∧
        ∀ party, ∃ index exchange, (system.participants party).exchange? index = some exchange ∧
          exchange.state = system.slot.conduit.state ∧
          system.slot.conduit.payload party = some exchange.payload) := by
  cases happens_of_step step with
  | refused => exact .inl rfl
  | @talked party state payload _ _ talked =>
    cases talked with
    | joined => exact .inl (by simp)
    | reset first =>
      subst first
      exact .inr (.inl ⟨⟨party, payload, rfl⟩, by simp⟩)
  | failed => exact .inl rfl
  | waited => exact .inl rfl
  | @returned party exchange conduit payload _ _ listened =>
    cases listened with
    | takes early here ours theirs =>
      have held (other : Party) : ∃ payload, system.slot.conduit.payload other = some payload := by
        rcases other.eq_or_eq_peer party with rfl | rfl
        · exact ⟨_, ours⟩
        · exact ⟨_, theirs⟩
      refine .inr (.inr ⟨⟨party, rfl⟩, by rw [here]; rfl, fun other => ?_⟩)
      obtain ⟨payload, isHeld⟩ := held other
      obtain ⟨index, provided, found, state, same, -⟩ := synced.owned other payload isHeld
      exact ⟨index, provided, found, state, by rw [isHeld, same]⟩
    | taken => exact .inl rfl
  | deleted => exact .inl rfl

/-- The next listen about an exchange that was met ends it, with the answer or with an error. -/
theorem Answers.ends {index : ℕ} {state : ConduitState} {payload answer : Bytes} {exchange : Exchange}
    (answers : system.Answers party index state payload answer)
    (found : (system.participants party).exchange? index = some exchange)
    (waits : exchange.outcome = .waiting) (step : system.step? (.listen party) = some next) :
    ∃ ended, (next.participants party).exchange? index = some ended ∧
      (ended.outcome = .returned answer ∨ ∃ error, ended.outcome = .failed error) := by
  obtain ⟨other, same, -, -, outcome⟩ := answers
  cases found.symm.trans same
  rcases outcome with ended | ⟨_, ended⟩ | ended | ⟨-, seen, current, rfl, free⟩
  · cases waits.symm.trans ended
  · cases waits.symm.trans ended
  · cases waits.symm.trans ended
  cases happens_of_step step with
  | @failed _ last _ _ error =>
    refine ⟨{ last with outcome := .failed error }, ?_, .inr ⟨error, rfl⟩⟩
    rw [participants_self]
    exact Participant.exchange?_length _
  | waited stands ours =>
    rw [free] at ours
    cases ours
  | @returned _ last _ result stands _ listened =>
    refine ⟨{ last with outcome := .returned result }, ?_, .inl ?_⟩
    · rw [participants_self]
      exact Participant.exchange?_length _
    · cases current.symm.trans stands
      cases listened with
      | takes _ _ ours =>
        rw [free] at ours
        cases ours
      | taken late =>
        cases seen.symm.trans late
        rfl

theorem synced_initial (slot : InvitationSlot) (fresh : slot.conduit = {}) :
    ({ slot := slot } : InviteSystem).Synced := by
  constructor
  · intro party payload held
    rw [fresh] at held
    cases party <;> cases held
  · intro party exchange current
    cases current
  · intro party exchange peerPayload current
    cases current
  · intro party exchange answer current
    cases current

end Step

end InviteSystem

/-- Payloads are never crossed. In every run of the two parties, an exchange about a state that
returned a payload was met by an exchange of the peer about that state with that payload. From then
on the latter is abandoned, has failed, has returned the payload of the former, or waits, and then
the next listen ends it in one of these ways. And the conduit moves on only when both have provided
a payload for its state, and is reset only on demand. -/
theorem conduit_agreement (greeterUserId : UserID) (events : List InviteEvent) (system : InviteSystem)
    (reached : run? InviteSystem.step? { slot := { greeterUserId } } events = some system) :
    (∀ party index exchange payload, (system.participants party).exchange? index = some exchange →
      exchange.outcome = .returned payload →
      ∃ peerIndex, ∀ later final, run? InviteSystem.step? system later = some final →
        ∃ answer, (final.participants party.peer).exchange? peerIndex = some answer ∧
          answer.state = exchange.state ∧ answer.payload = payload ∧
          (answer.outcome = .abandoned ∨ (∃ error, answer.outcome = .failed error) ∨
            answer.outcome = .returned exchange.payload ∨
            (answer.outcome = .waiting ∧
              ∀ next, final.step? (.listen party.peer) = some next →
                ∃ ended, (next.participants party.peer).exchange? peerIndex = some ended ∧
                  (ended.outcome = .returned exchange.payload ∨
                    ∃ error, ended.outcome = .failed error)))) ∧
    ∀ event next, system.step? event = some next →
      next.slot.conduit.state = system.slot.conduit.state ∨
        ((∃ party payload, event = .talk party .state1WaitPeers payload) ∧
          next.slot.conduit.state = .state1WaitPeers) ∨
        ((∃ party, event = .listen party) ∧
          next.slot.conduit.state = system.slot.conduit.state.next ∧
          ∀ party, ∃ index exchange, (system.participants party).exchange? index = some exchange ∧
            exchange.state = system.slot.conduit.state ∧
            system.slot.conduit.payload party = some exchange.payload) := by
  have preserved : ∀ state event next, InviteSystem.step? state event = some next →
      state.Synced ∧ state.Agreed → next.Synced ∧ next.Agreed :=
    fun state event next step both => ⟨both.1.step step, both.2.step both.1 step⟩
  have invariant : system.Synced ∧ system.Agreed := by
    refine run?_preserves preserved reached ⟨InviteSystem.synced_initial _ rfl, ?_⟩
    intro party index exchange payload found
    simp [Participant.exchange?] at found
  refine ⟨?_, fun event next step => invariant.1.moves step⟩
  intro party index exchange payload found returned
  obtain ⟨peerIndex, answers⟩ := invariant.2 party index exchange payload found returned
  refine ⟨peerIndex, fun later final continued => ?_⟩
  have stays : ∀ state event next, InviteSystem.step? state event = some next →
      state.Answers party.peer peerIndex exchange.state payload exchange.payload →
      next.Answers party.peer peerIndex exchange.state payload exchange.payload :=
    fun state event next step answers => answers.step step
  have still := run?_preserves stays continued answers
  obtain ⟨answer, met, state, same, outcome⟩ := id still
  refine ⟨answer, met, state, same, ?_⟩
  rcases outcome with abandoned | failed | returned | ⟨waits, -⟩
  · exact .inl abandoned
  · exact .inr (.inl failed)
  · exact .inr (.inr (.inl returned))
  · exact .inr (.inr (.inr ⟨waits, fun next step => still.ends met waits step⟩))

section Example

/-- Both parties go through the first state, the claimer first; then the claimer starts over. -/
private def meeting : List InviteEvent :=
  [.talk .claimer .state1WaitPeers [1], .talk .greeter .state1WaitPeers [2], .listen .claimer,
    .listen .greeter, .talk .claimer .state1WaitPeers [3]]

theorem conduit_agreement_meeting :
    ∃ system, run? InviteSystem.step? { slot := { greeterUserId := "alice" } } meeting = some system ∧
      (system.participants .claimer).exchange? 0 = some ⟨.state1WaitPeers, [1], none, .returned [2]⟩ ∧
      ∃ peerIndex, ∀ later final, run? InviteSystem.step? system later = some final →
        ∃ answer, (final.participants .greeter).exchange? peerIndex = some answer ∧
          answer.payload = [2] := by
  refine ⟨_, rfl, rfl, ?_⟩
  obtain ⟨peerIndex, met⟩ := (conduit_agreement "alice" meeting _ rfl).1 .claimer 0 _ [2] rfl rfl
  refine ⟨peerIndex, fun later final continued => ?_⟩
  obtain ⟨answer, found, -, same, -⟩ := met later final continued
  exact ⟨answer, found, same⟩

end Example

end Guardata
