import Guardata.Machine.Run
import Guardata.Proofs.Invite
import Guardata.Model.InviteSession

/-! # Agreement of invitation sessions

What has gone through the conduit since it was last reset is a transcript: for every stage, the
payloads of the two parties. A session that still has a chance is a prefix of the transcript, seen from
its side; one that the peer has left behind by a reset gets nothing any more, since the conduit waits
for the party to start over. So when the exchange about the claimer's trust goes through, both parties
have computed their codes from one transcript.
-/

namespace Guardata

open Machine

section Stages

theorem stageState_next (stage : ℕ) : (stageState stage).next = stageState (stage + 1) := by
  match stage with
  | 0 | 1 | 2 | 3 | 4 | 5 => rfl
  | _ + 6 => rfl

theorem stageState_eq_first_iff {stage : ℕ} : stageState stage = .state1WaitPeers ↔ stage = 0 := by
  match stage with
  | 0 | 1 | 2 | 3 | 4 | 5 => simp [stageState]
  | _ + 6 => simp [stageState]

theorem stageState_eq_trust_iff {stage : ℕ} : stageState stage = .state31ClaimerTrust ↔ stage = 4 := by
  match stage with
  | 0 | 1 | 2 | 3 | 4 | 5 => simp [stageState]
  | _ + 6 => simp [stageState]

end Stages

variable {PrivateKey : Type} (crypto : InviteCrypto PrivateKey)

/-- The payloads of the two parties, stage by stage. -/
abbrev Transcript := List (Party → Bytes)

/-- What has been received so far is what the transcript says the peer sent, and what the party was to
send is what it says the party sent. -/
def InviteSession.Matches (session : InviteSession PrivateKey) (party : Party) (transcript : Transcript) :
    Prop :=
  ∀ stage, stage < session.received.length → ∃ entry, transcript[stage]? = some entry ∧
    session.received[stage]? = some (entry party.peer) ∧
    ∀ payload, session.payloadAt crypto party stage = some payload → entry party = payload

/-- What both parties compute from a transcript, given the key they share. -/
def Transcript.result (first third fourth : Party → Bytes) (party : Party) (privateKey : PrivateKey) :
    Option WaitPeerResult := do
  let sharedSecretKey := crypto.generateSharedSecretKey privateKey (first party.peer)
  let (claimerSas, greeterSas) ←
    generateSasCodes crypto (fourth .claimer) (third .greeter) sharedSecretKey
  return ⟨claimerSas, greeterSas, sharedSecretKey⟩

/-- A party holds the result of the transcript, under the private key that belongs to what it sent. -/
def Transcript.Holds (transcript : Transcript) (party : Party) (held : Option WaitPeerResult) : Prop :=
  ∃ first third fourth privateKey, transcript[0]? = some first ∧ transcript[2]? = some third ∧
    transcript[3]? = some fourth ∧ first party = crypto.publicKey privateKey ∧
    held ≠ none ∧ held = Transcript.result crypto first third fourth party privateKey

namespace Transcript

variable {crypto} {transcript : Transcript} {party : Party} {held : Option WaitPeerResult}

theorem Holds.append (holds : transcript.Holds crypto party held) (entry : Party → Bytes) :
    (transcript ++ [entry]).Holds crypto party held := by
  obtain ⟨first, third, fourth, privateKey, atFirst, atThird, atFourth, rest⟩ := holds
  have kept {stage : ℕ} {sent : Party → Bytes} (found : transcript[stage]? = some sent) :
      (transcript ++ [entry])[stage]? = some sent := by
    rw [List.getElem?_append_left (List.getElem?_eq_some_iff.mp found).1, found]
  exact ⟨first, third, fourth, privateKey, kept atFirst, kept atThird, kept atFourth, rest⟩

/-- Two parties that hold the result of one transcript hold the same. -/
theorem Holds.agree (symmetric : ∀ first second, crypto.generateSharedSecretKey first
      (crypto.publicKey second) = crypto.generateSharedSecretKey second (crypto.publicKey first))
    {other : Option WaitPeerResult} (claimer : transcript.Holds crypto .claimer held)
    (greeter : transcript.Holds crypto .greeter other) : held = other := by
  obtain ⟨first, third, fourth, claimerKey, atFirst, atThird, atFourth, sent, -, computed⟩ := claimer
  obtain ⟨first', third', fourth', greeterKey, atFirst', atThird', atFourth', sent', -, computed'⟩ := greeter
  cases atFirst.symm.trans atFirst'
  cases atThird.symm.trans atThird'
  cases atFourth.symm.trans atFourth'
  have same : crypto.generateSharedSecretKey claimerKey (first .greeter) =
      crypto.generateSharedSecretKey greeterKey (first .claimer) := by
    rw [sent, sent', symmetric]
  rw [computed, computed']
  simp only [Transcript.result, Party.peer, same]

end Transcript

namespace InviteSession

variable {crypto} {session : InviteSession PrivateKey} {party : Party} {transcript : Transcript}

/-- What a session that matches the transcript has received and sent at a stage. -/
theorem Matches.at (same : session.Matches crypto party transcript) (stage : ℕ) {payload : Bytes}
    (found : session.received[stage]? = some payload) :
    ∃ entry, transcript[stage]? = some entry ∧ entry party.peer = payload ∧
      ∀ sent, session.payloadAt crypto party stage = some sent → entry party = sent := by
  obtain ⟨entry, there, got, sent⟩ := same stage (List.getElem?_eq_some_iff.mp found).1
  exact ⟨entry, there, Option.some_inj.mp (got.symm.trans found), sent⟩

theorem Matches.append (same : session.Matches crypto party transcript) (entry : Party → Bytes) :
    session.Matches crypto party (transcript ++ [entry]) := by
  intro stage before
  obtain ⟨earlier, there, rest⟩ := same stage before
  refine ⟨earlier, ?_, rest⟩
  rw [List.getElem?_append_left (List.getElem?_eq_some_iff.mp there).1, there]

/-- One more exchange that the transcript knows of. -/
theorem Matches.receive (same : session.Matches crypto party transcript) {entry : Party → Bytes}
    {sent : Bytes} (there : transcript[session.received.length]? = some entry) (ours : entry party = sent)
    (fixed : ∀ payload, session.payloadAt crypto party session.received.length = some payload →
      sent = payload) (listening : Option ConduitListenCtx) :
    ({ session with received := session.received ++ [entry party.peer],
                    listening := listening } : InviteSession PrivateKey).Matches crypto party transcript := by
  intro stage before
  rcases Nat.lt_or_eq_of_le (Nat.le_of_lt_succ (by simpa using before)) with earlier | rfl
  · obtain ⟨old, found, got, rest⟩ := same stage earlier
    exact ⟨old, found, by rw [List.getElem?_append_left earlier, got], rest⟩
  · exact ⟨entry, there, by simp, fun payload is => ours.trans (fixed payload is)⟩

/-- `_do_wait_peer` computes the result of the transcript. -/
theorem Matches.holds {result : WaitPeerResult} (same : session.Matches crypto party transcript)
    (computed : session.waitPeerResult crypto party session.received = some result) :
    transcript.Holds crypto party (some result) := by
  unfold waitPeerResult at computed
  split at computed
  · next greeterPublicKey _ greeterNonce _ received =>
    obtain ⟨first, atFirst, rfl, sent⟩ := same.at 0 (by rw [received]; rfl)
    obtain ⟨third, atThird, rfl, -⟩ := same.at 2 (by rw [received]; rfl)
    obtain ⟨fourth, atFourth, -, nonce⟩ := same.at 3 (by rw [received]; rfl)
    refine ⟨first, third, fourth, session.privateKey, atFirst, atThird, atFourth, sent _ rfl, by simp, ?_⟩
    rw [← computed]
    simp only [claimerResult, Transcript.result, Party.peer, nonce _ rfl]
  · next claimerPublicKey _ _ claimerNonce received =>
    obtain ⟨first, atFirst, rfl, sent⟩ := same.at 0 (by rw [received]; rfl)
    obtain ⟨third, atThird, -, nonce⟩ := same.at 2 (by rw [received]; rfl)
    obtain ⟨fourth, atFourth, rfl, -⟩ := same.at 3 (by rw [received]; rfl)
    refine ⟨first, third, fourth, session.privateKey, atFirst, atThird, atFourth, sent _ rfl, by simp, ?_⟩
    obtain ⟨_, -, computed⟩ := Option.bind_eq_some_iff.mp computed
    rw [← computed]
    simp only [Transcript.result, Party.peer, nonce _ rfl]
  · cases computed

/-- The chances of a session, where so much has gone through the conduit. -/
inductive Fits (crypto : InviteCrypto PrivateKey) (conduit : Conduit) (transcript : Transcript)
    (party : Party) (held : Option WaitPeerResult) (session : InviteSession PrivateKey) : Prop
  | fresh (untouched : session.received = []) (idle : session.listening = none)
  | idle (idle : session.listening = none) (same : session.Matches crypto party transcript)
      (level : transcript.length = session.received.length) (free : conduit.payload party = none)
      (holds : session.received.length = 4 → transcript.Holds crypto party held)
  | waiting {ctx : ConduitListenCtx} (listening : session.listening = some ctx)
      (here : ctx.state = stageState session.received.length)
      (fixed : ∀ payload, session.payloadAt crypto party session.received.length = some payload →
        ctx.payload = payload)
      (same : session.Matches crypto party transcript)
      (level : transcript.length = session.received.length)
      (ours : conduit.payload party = some ctx.payload)
      (theirs : ∀ payload, ctx.peerPayload = some payload → conduit.payload party.peer = some payload)
  | met {ctx : ConduitListenCtx} {entry : Party → Bytes} (listening : session.listening = some ctx)
      (fixed : ∀ payload, session.payloadAt crypto party session.received.length = some payload →
        ctx.payload = payload)
      (same : session.Matches crypto party transcript)
      (level : transcript.length = session.received.length + 1)
      (there : transcript[session.received.length]? = some entry) (ours : entry party = ctx.payload)
      (theirs : ctx.peerPayload = some (entry party.peer)) (free : conduit.payload party = none)
  /-- The peer has reset the conduit. -/
  | stale (empty : transcript = []) (free : conduit.payload party = none)
  /-- Both parties talked first. -/
  | lost {ctx : ConduitListenCtx} (listening : session.listening = some ctx)
      (early : ctx.peerPayload = none) (free : conduit.payload party = none)

theorem matches_of_received_eq_nil (untouched : session.received = []) :
    session.Matches crypto party transcript := by
  intro stage before
  rw [untouched] at before
  cases before

/-- A session that is about to join the conduit is level with the transcript. -/
theorem Fits.level {conduit : Conduit} {held : Option WaitPeerResult}
    (fits : session.Fits crypto conduit transcript party held) (idle : session.listening = none)
    (state : conduit.state = stageState transcript.length)
    (synced : conduit.state = stageState session.received.length) :
    session.Matches crypto party transcript ∧ transcript.length = session.received.length ∧
      (session.received.length = 4 → transcript.Holds crypto party held) := by
  have started (nothing : session.received.length = 0 ∨ transcript.length = 0) :
      session.Matches crypto party transcript ∧ transcript.length = session.received.length ∧
        (session.received.length = 4 → transcript.Holds crypto party held) := by
    have first := state.symm.trans synced
    have none : session.received.length = 0 ∧ transcript.length = 0 := by
      rcases nothing with zero | zero <;> rw [zero] at first
      · exact ⟨zero, stageState_eq_first_iff.mp first⟩
      · exact ⟨stageState_eq_first_iff.mp first.symm, zero⟩
    exact ⟨matches_of_received_eq_nil (List.eq_nil_of_length_eq_zero none.1), none.2.trans none.1.symm,
      by omega⟩
  cases fits with
  | fresh untouched => exact started (.inl (by rw [untouched]; rfl))
  | idle _ same level _ holds => exact ⟨same, level, holds⟩
  | waiting listening => cases idle.symm.trans listening
  | met listening => cases idle.symm.trans listening
  | stale empty => exact started (.inr (by rw [empty]; rfl))
  | lost listening => cases idle.symm.trans listening

section Peer

variable {conduit : Conduit} {held : Option WaitPeerResult}

/-- The peer talks where it had not. -/
theorem Fits.joined (fits : session.Fits crypto conduit transcript party.peer held)
    (free : conduit.payload party = none) (payload : Bytes) :
    session.Fits crypto (conduit.setPayload party payload) transcript party.peer held := by
  cases fits with
  | fresh untouched idle => exact .fresh untouched idle
  | idle idle same level gone holds => exact .idle idle same level (by simpa using gone) holds
  | waiting listening here fixed same level ours theirs =>
    refine .waiting listening here fixed same level (by simpa using ours) fun answer is => ?_
    have present := theirs answer is
    rw [Party.peer_peer, free] at present
    cases present
  | met listening fixed same level there ours theirs gone =>
    exact .met listening fixed same level there ours theirs (by simpa using gone)
  | stale empty gone => exact .stale empty (by simpa using gone)
  | lost listening early gone => exact .lost listening early (by simpa using gone)

/-- The peer takes our payload. -/
theorem Fits.taken (fits : session.Fits crypto conduit transcript party.peer held)
    {entry : Party → Bytes} (ours : conduit.payload party = some (entry party))
    (theirs : conduit.payload party.peer = some (entry party.peer)) (state : ConduitState) :
    session.Fits crypto { state := state } (transcript ++ [entry]) party.peer held := by
  cases fits with
  | fresh untouched idle => exact .fresh untouched idle
  | idle _ _ _ gone => cases gone.symm.trans theirs
  | @waiting ctx listening here fixed same level mine answer =>
    cases seen : ctx.peerPayload with
    | none => exact .lost listening seen (by simp)
    | some payload =>
      have present := answer payload seen
      rw [Party.peer_peer, ours] at present
      cases present
      have sent := Option.some_inj.mp (theirs.symm.trans mine)
      exact .met listening fixed (same.append entry) (by simp [level]) (by simp [← level]) sent
        (by simpa using seen) (by simp)
  | met _ _ _ _ _ _ _ gone => cases gone.symm.trans theirs
  | stale _ gone => cases gone.symm.trans theirs
  | lost _ _ gone => cases gone.symm.trans theirs

end Peer

end InviteSession

namespace SessionSystem

variable {crypto} {system next : SessionSystem PrivateKey} {party : Party}

/-- Every waiting session speaks for its party. -/
def Owned (system : SessionSystem PrivateKey) : Prop :=
  ∀ party session ctx, (system.sides party).session = some session → session.listening = some ctx →
    ctx.greeter = system.slot.greeterOf party

/-- What a step comes to. -/
inductive Proceeds (crypto : InviteCrypto PrivateKey) (system : SessionSystem PrivateKey) :
    SessionEvent PrivateKey → SessionSystem PrivateKey → Prop
  | started (party : Party) (privateKey : PrivateKey) (nonce : Bytes) :
      Proceeds crypto system (.waitPeer party privateKey nonce)
        (system.setSession party (some { privateKey, nonce }))
  | ended (event : SessionEvent PrivateKey) (party : Party) :
      Proceeds crypto system event (system.setSession party none)
  | talked {party : Party} {session : InviteSession PrivateKey} {any payload : Bytes} {conduit : Conduit}
      {peerPayload : Option Bytes} (current : (system.sides party).session = some session)
      (idle : session.listening = none)
      (fixed : ∀ sent, session.payloadAt crypto party session.received.length = some sent →
        payload = sent)
      (talked : Talked system.slot.conduit party (stageState session.received.length) payload conduit
        peerPayload) :
      Proceeds crypto system (.talk party any)
        ({ system with slot := { system.slot with conduit := conduit } }.setSession party
          (some { session with
            listening := some ⟨system.slot.greeterOf party, stageState session.received.length, payload,
              peerPayload⟩ }))
  | waited (party : Party) : Proceeds crypto system (.listen party) system
  | received {party : Party} {session : InviteSession PrivateKey} {ctx : ConduitListenCtx}
      {conduit : Conduit} {payload : Bytes} (current : (system.sides party).session = some session)
      (listening : session.listening = some ctx)
      (listened : Listened system.slot.conduit party ctx conduit (some payload)) :
      Proceeds crypto system (.listen party)
        ({ system with slot := { system.slot with conduit := conduit } }.setSide party
          (system.receive crypto party session payload))
  | deleted : Proceeds crypto system .delete
      { system with slot := { system.slot with deleted := true } }

theorem proceeds_of_step {event : SessionEvent PrivateKey} (owned : system.Owned)
    (step : system.step? crypto event = some next) : system.Proceeds crypto event next := by
  cases event with
  | waitPeer party privateKey nonce =>
    cases step
    exact .started party privateKey nonce
  | talk party any =>
    obtain ⟨session, current, step⟩ := Option.bind_eq_some_iff.mp step
    simp only [guard] at step
    split at step
    · next idle =>
      cases step
      unfold talk
      dsimp only
      split
      · exact .ended _ party
      · next called =>
        obtain ⟨conduit, peerPayload, rfl, rfl, talked⟩ := InvitationSlot.talked_of_conduitTalk called
        refine .talked current idle (fun sent is => ?_) talked
        rw [is]
        rfl
    · cases step
  | listen party =>
    obtain ⟨session, current, step⟩ := Option.bind_eq_some_iff.mp step
    obtain ⟨ctx, listening, step⟩ := Option.bind_eq_some_iff.mp step
    cases step
    have own := owned party session ctx current listening
    unfold listen
    split
    · exact .ended _ party
    · next called =>
      obtain ⟨conduit, rfl, listened⟩ := InvitationSlot.listened_of_conduitListen own called
      cases listened with
      | waits => exact .waited party
    · next called =>
      obtain ⟨conduit, rfl, listened⟩ := InvitationSlot.listened_of_conduitListen own called
      exact .received current listening listened
  | abandon party =>
    cases step
    exact .ended _ party
  | delete =>
    cases step
    exact .deleted

theorem sides_setSide (system : SessionSystem PrivateKey) (party other : Party)
    (side : InviteSide PrivateKey) :
    (system.setSide party side).sides other = if other = party then side else system.sides other := by
  simp [setSide, Function.update_apply]

/-- What has gone through the conduit, and what both parties make of it. -/
structure Aligned (crypto : InviteCrypto PrivateKey) (system : SessionSystem PrivateKey)
    (transcript : Transcript) : Prop where
  owned : system.Owned
  state : system.slot.conduit.state = stageState transcript.length
  fits : ∀ party session, (system.sides party).session = some session →
    session.Fits crypto system.slot.conduit transcript party (system.sides party).held
  provided : ∀ party,
    (transcript.length = 4 ∧ system.slot.conduit.payload party ≠ none) ∨ 5 ≤ transcript.length →
      transcript.Holds crypto party (system.sides party).held

section Step

variable {transcript : Transcript}

/-- Only the conduit and the side of one party change. -/
theorem aligned_setSide (owned : system.Owned) {conduit : Conduit} {side : InviteSide PrivateKey}
    (own : ∀ session ctx, side.session = some session → session.listening = some ctx →
      ctx.greeter = system.slot.greeterOf party)
    (state : conduit.state = stageState transcript.length)
    (fits : ∀ session, side.session = some session →
      session.Fits crypto conduit transcript party side.held)
    (peerFits : ∀ session, (system.sides party.peer).session = some session →
      session.Fits crypto conduit transcript party.peer (system.sides party.peer).held)
    (provided : (transcript.length = 4 ∧ conduit.payload party ≠ none) ∨ 5 ≤ transcript.length →
      transcript.Holds crypto party side.held)
    (peerProvided : (transcript.length = 4 ∧ conduit.payload party.peer ≠ none) ∨
      5 ≤ transcript.length → transcript.Holds crypto party.peer (system.sides party.peer).held) :
    ({ system with slot := { system.slot with conduit := conduit } }.setSide party side).Aligned crypto
      transcript := by
  refine ⟨fun other => ?_, state, fun other => ?_, fun other => ?_⟩ <;>
    rcases other.eq_or_eq_peer party with rfl | rfl <;> rw [sides_setSide]
  · rw [if_pos rfl]
    exact own
  · rw [if_neg party.peer_ne]
    exact owned party.peer
  · rw [if_pos rfl]
    exact fits
  · rw [if_neg party.peer_ne]
    exact peerFits
  · rw [if_pos rfl]
    exact provided
  · rw [if_neg party.peer_ne]
    exact peerProvided

theorem receive_held (system : SessionSystem PrivateKey) (party : Party)
    {session : InviteSession PrivateKey} (payload : Bytes) (far : session.received.length ≠ 3) :
    (system.receive crypto party session payload).held = (system.sides party).held := by
  unfold receive
  rw [if_neg (by simpa using far)]

/-- An exchange that returns leaves a session that is level with the transcript. -/
theorem receive_fits {session : InviteSession PrivateKey} {payload : Bytes} {conduit : Conduit}
    (same : ({ session with received := session.received ++ [payload],
                            listening := none } : InviteSession PrivateKey).Matches crypto party transcript)
    (level : transcript.length = session.received.length + 1) (free : conduit.payload party = none)
    {progressed : InviteSession PrivateKey}
    (current : (system.receive crypto party session payload).session = some progressed) :
    progressed.listening = none ∧ progressed.received = session.received ++ [payload] ∧
      progressed.Fits crypto conduit transcript party
        (system.receive crypto party session payload).held := by
  have levelled : transcript.length = (session.received ++ [payload]).length := by simp [level]
  unfold receive at current ⊢
  dsimp only at current ⊢
  split at current
  · next fourth =>
    rw [if_pos fourth]
    split at current
    · cases current
    · next result computed =>
      cases current
      exact ⟨rfl, rfl, .idle rfl same levelled free fun _ => same.holds computed⟩
  · next other =>
    cases current
    exact ⟨rfl, rfl, .idle rfl same levelled free fun fourth => absurd fourth other⟩

/-- A talk in the state that the conduit is in. -/
theorem Aligned.joined {session : InviteSession PrivateKey} {payload : Bytes}
    (aligned : system.Aligned crypto transcript) (current : (system.sides party).session = some session)
    (idle : session.listening = none)
    (fixed : ∀ sent, session.payloadAt crypto party session.received.length = some sent →
      payload = sent)
    (synced : system.slot.conduit.state = stageState session.received.length)
    (free : system.slot.conduit.payload party = none) :
    ({ system with slot := { system.slot with
        conduit := system.slot.conduit.setPayload party payload } }.setSession party
      (some { session with
        listening := some ⟨system.slot.greeterOf party, stageState session.received.length, payload,
          system.slot.conduit.payload party.peer⟩ })).Aligned crypto transcript := by
  obtain ⟨same, level, holds⟩ := (aligned.fits party session current).level idle aligned.state synced
  refine aligned_setSide aligned.owned ?_ ?_ ?_ ?_ ?_ ?_
  · rintro _ _ ⟨⟩ ⟨⟩
    rfl
  · rw [Conduit.state_setPayload]
    exact aligned.state
  · rintro _ ⟨⟩
    refine .waiting rfl rfl fixed same level (by simp) fun answer is => ?_
    rw [Conduit.payload_setPayload_peer]
    exact is
  · exact fun other there => (aligned.fits _ other there).joined free payload
  · rintro (⟨four, -⟩ | beyond)
    · exact holds (level.symm.trans four)
    · exact aligned.provided party (.inr beyond)
  · rw [Conduit.payload_setPayload_peer]
    exact aligned.provided party.peer

/-- The talk about the first state that resets the conduit. -/
theorem Aligned.reset {session : InviteSession PrivateKey} {payload : Bytes}
    (aligned : system.Aligned crypto transcript)
    (fixed : ∀ sent, session.payloadAt crypto party session.received.length = some sent →
      payload = sent)
    (first : stageState session.received.length = .state1WaitPeers) :
    ({ system with slot := { system.slot with
        conduit := ({ state := .state1WaitPeers } : Conduit).setPayload party payload } }.setSession party
      (some { session with
        listening := some ⟨system.slot.greeterOf party, stageState session.received.length, payload,
          none⟩ })).Aligned crypto [] := by
  have zero := stageState_eq_first_iff.mp first
  refine aligned_setSide aligned.owned ?_ ?_ ?_ ?_ (by simp) (by simp)
  · rintro _ _ ⟨⟩ ⟨⟩
    rfl
  · rw [Conduit.state_setPayload]
    rfl
  · rintro _ ⟨⟩
    refine .waiting rfl rfl fixed ?_ (by simp [zero]) (by simp) (by simp)
    exact InviteSession.matches_of_received_eq_nil (List.eq_nil_of_length_eq_zero zero)
  · exact fun other there => .stale rfl (by simp)

/-- What an exchange that returns leaves behind, once the transcript knows of it. -/
theorem aligned_receive (owned : system.Owned) {session : InviteSession PrivateKey} {conduit : Conduit}
    {payload : Bytes}
    (same : ({ session with received := session.received ++ [payload],
                            listening := none } : InviteSession PrivateKey).Matches crypto party transcript)
    (level : transcript.length = session.received.length + 1) (free : conduit.payload party = none)
    (state : conduit.state = stageState transcript.length)
    (peerFits : ∀ session, (system.sides party.peer).session = some session →
      session.Fits crypto conduit transcript party.peer (system.sides party.peer).held)
    (peerPresent : transcript.length = 4 → conduit.payload party.peer ≠ none →
      transcript.Holds crypto party.peer (system.sides party.peer).held)
    (holds : 4 ≤ session.received.length → ∀ party, transcript.Holds crypto party (system.sides party).held) :
    ({ system with slot := { system.slot with conduit := conduit } }.setSide party
      (system.receive crypto party session payload)).Aligned crypto transcript := by
  refine aligned_setSide owned ?_ state ?_ peerFits ?_ ?_
  · intro progressed ctx current listening
    have idle := (receive_fits same level free current).1
    cases idle.symm.trans listening
  · exact fun progressed current => (receive_fits same level free current).2.2
  · rintro (⟨-, present⟩ | beyond)
    · exact absurd free present
    · rw [receive_held system party payload (by omega)]
      exact holds (by omega) party
  · rintro (⟨four, present⟩ | beyond)
    · exact peerPresent four present
    · exact holds (by omega) party.peer

/-- An exchange that returns, as the first or as the second of the two. -/
theorem Aligned.received {session : InviteSession PrivateKey} {ctx : ConduitListenCtx} {conduit : Conduit}
    {payload : Bytes} (aligned : system.Aligned crypto transcript)
    (current : (system.sides party).session = some session)
    (listening : session.listening = some ctx)
    (listened : Listened system.slot.conduit party ctx conduit (some payload)) :
    ∃ later, (4 ≤ session.received.length →
        ∀ party, later.Holds crypto party (system.sides party).held) ∧
      ({ system with slot := { system.slot with conduit := conduit } }.setSide party
        (system.receive crypto party session payload)).Aligned crypto later := by
  have fits := aligned.fits party session current
  cases listened with
  | takes early synced ours theirs =>
    cases fits with
    | fresh _ idle => cases idle.symm.trans listening
    | idle idle => cases idle.symm.trans listening
    | waiting listening' here fixed same level =>
      cases listening.symm.trans listening'
      let entry : Party → Bytes := fun other => if other = party then ctx.payload else payload
      have mine : entry party = ctx.payload := if_pos rfl
      have answer : entry party.peer = payload := if_neg party.peer_ne
      have holds (far : 4 ≤ session.received.length) (other : Party) :
          (transcript ++ [entry]).Holds crypto other (system.sides other).held := by
        refine (aligned.provided other ?_).append entry
        rcases Nat.eq_or_lt_of_le far with four | beyond
        · refine .inl ⟨level.trans four.symm, ?_⟩
          rcases other.eq_or_eq_peer party with rfl | rfl
          · simp [ours]
          · simp [theirs]
        · exact .inr (level ▸ beyond)
      have longer : (transcript ++ [entry]).length = session.received.length + 1 := by simp [level]
      refine ⟨transcript ++ [entry], holds, aligned_receive aligned.owned ?_ longer (by simp) ?_ ?_ ?_ holds⟩
      · have there : (transcript ++ [entry])[session.received.length]? = some entry := by simp [← level]
        have extended := (same.append entry).receive there mine fixed none
        rwa [answer] at extended
      · rw [longer, here, stageState_next]
      · exact fun other there => (aligned.fits _ other there).taken (mine ▸ ours) (answer ▸ theirs) _
      · intro _ present
        simp at present
    | met _ _ _ _ _ _ _ free => cases free.symm.trans ours
    | stale _ free => cases free.symm.trans ours
    | lost _ _ free => cases free.symm.trans ours
  | taken late moved ours =>
    cases fits with
    | fresh _ idle => cases idle.symm.trans listening
    | idle idle => cases idle.symm.trans listening
    | waiting listening' _ _ _ _ present =>
      cases listening.symm.trans listening'
      cases ours.symm.trans present
    | met listening' fixed same level there sent answer free =>
      cases listening.symm.trans listening'
      cases late.symm.trans answer
      have holds (far : 4 ≤ session.received.length) (other : Party) :
          transcript.Holds crypto other (system.sides other).held :=
        aligned.provided other (.inr (by omega))
      exact ⟨transcript, holds, aligned_receive aligned.owned (same.receive there sent fixed none) level free
        aligned.state (aligned.fits party.peer)
        (fun four present => aligned.provided party.peer (.inl ⟨four, present⟩)) holds⟩
    | stale empty =>
      have first : system.slot.conduit.state = .state1WaitPeers := by rw [aligned.state, empty]; rfl
      exact absurd (moved.symm.trans first) ctx.state.next_ne_first
    | lost listening' early =>
      cases listening.symm.trans listening'
      cases late.symm.trans early

/-- The step lemma: a reset starts another transcript, a take adds to it. -/
theorem Aligned.step {event : SessionEvent PrivateKey} (aligned : system.Aligned crypto transcript)
    (step : system.step? crypto event = some next) : ∃ later, next.Aligned crypto later := by
  cases proceeds_of_step aligned.owned step with
  | started party privateKey nonce =>
    refine ⟨transcript, aligned_setSide aligned.owned ?_ aligned.state ?_ (aligned.fits party.peer)
      (aligned.provided party) (aligned.provided party.peer)⟩
    · rintro session ctx ⟨⟩ ⟨⟩
    · rintro session ⟨⟩
      exact .fresh rfl rfl
  | ended event party =>
    refine ⟨transcript, aligned_setSide aligned.owned ?_ aligned.state ?_ (aligned.fits party.peer)
      (aligned.provided party) (aligned.provided party.peer)⟩
    · rintro session ctx ⟨⟩
    · rintro session ⟨⟩
  | talked current idle fixed talked =>
    cases talked with
    | joined synced free => exact ⟨transcript, aligned.joined current idle fixed synced free⟩
    | reset first => exact ⟨[], aligned.reset fixed first⟩
  | waited => exact ⟨transcript, aligned⟩
  | received current listening listened =>
    obtain ⟨later, -, still⟩ := aligned.received current listening listened
    exact ⟨later, still⟩
  | deleted => exact ⟨transcript, aligned.owned, aligned.state, aligned.fits, aligned.provided⟩

/-- When an exchange about the claimer's trust returns, both parties hold the result of one
transcript. -/
theorem Aligned.completed {session completed : InviteSession PrivateKey}
    (aligned : system.Aligned crypto transcript) (step : system.step? crypto (.listen party) = some next)
    (before : (system.sides party).session = some session) (trusting : session.received.length = 4)
    (after : (next.sides party).session = some completed) (trusted : completed.received.length = 5) :
    ∃ shared : Transcript, ∀ party, shared.Holds crypto party (next.sides party).held := by
  cases proceeds_of_step aligned.owned step with
  | ended event actor =>
    rw [setSession, sides_setSide] at after
    split at after
    · cases after
    · cases before.symm.trans after
      omega
  | waited =>
    cases before.symm.trans after
    omega
  | @received _ _ ctx conduit payload current listening listened =>
    cases before.symm.trans current
    obtain ⟨shared, holds, -⟩ := aligned.received current listening listened
    refine ⟨shared, fun other => ?_⟩
    rw [sides_setSide]
    split
    · next isUs =>
      subst isUs
      rw [receive_held system other payload (by omega)]
      exact holds trusting.ge other
    · exact holds trusting.ge other

end Step

theorem aligned_initial (greeterUserId : UserID) :
    ({ slot := { greeterUserId } } : SessionSystem PrivateKey).Aligned crypto [] := by
  refine ⟨?_, rfl, ?_, ?_⟩
  · intro party session ctx current
    cases current
  · intro party session current
    cases current
  · simp

end SessionSystem

/-- The two parties of an invitation agree on their codes and on their key. In every run in which either
of them starts over as it likes, whenever an exchange about the claimer's trust returns, both hold the
same result of their last `_do_wait_peer`. -/
theorem invite_sessions_agree (crypto : InviteCrypto PrivateKey)
    (symmetric : ∀ first second, crypto.generateSharedSecretKey first (crypto.publicKey second) =
      crypto.generateSharedSecretKey second (crypto.publicKey first))
    (greeterUserId : UserID) (events : List (SessionEvent PrivateKey))
    (system next : SessionSystem PrivateKey)
    (reached : run? (SessionSystem.step? crypto) { slot := { greeterUserId } } events = some system)
    (party : Party) (step : system.step? crypto (.listen party) = some next)
    (session completed : InviteSession PrivateKey)
    (before : (system.sides party).session = some session)
    (trusting : stageState session.received.length = .state31ClaimerTrust)
    (after : (next.sides party).session = some completed)
    (trusted : completed.received.length = session.received.length + 1) :
    ∃ result, (next.sides .claimer).held = some result ∧ (next.sides .greeter).held = some result := by
  have preserved : ∀ state event next, SessionSystem.step? crypto state event = some next →
      (∃ transcript, state.Aligned crypto transcript) → ∃ transcript, next.Aligned crypto transcript :=
    fun state event next step ⟨transcript, aligned⟩ => aligned.step step
  obtain ⟨transcript, aligned⟩ :=
    run?_preserves preserved reached ⟨[], SessionSystem.aligned_initial greeterUserId⟩
  have four : session.received.length = 4 := stageState_eq_trust_iff.mp trusting
  obtain ⟨shared, holds⟩ := aligned.completed step before four after (by omega)
  have agree := (holds .claimer).agree symmetric (holds .greeter)
  obtain ⟨_, _, _, _, -, -, -, -, present, -⟩ := holds .claimer
  obtain ⟨result, is⟩ := Option.ne_none_iff_exists'.mp present
  exact ⟨result, is, agree ▸ is⟩

section Example

/-- Keys that are multiplied. -/
private def commuting : InviteCrypto UInt8 where
  publicKey key := [key]
  generateSharedSecretKey key peer := peer.map (· * key)
  hashDigest data := data.map (· + 1)
  derivateSecretFromKeys key _ := key

/-- The claimer starts over after the first exchange, and so does the greeter; they then get as far as
the exchange about the claimer's trust. -/
private def startedOver : List (SessionEvent UInt8) :=
  let talks : List (SessionEvent UInt8) := [.talk .claimer [], .talk .greeter []]
  let exchange := talks ++ [.listen .claimer, .listen .greeter]
  [.waitPeer .claimer 3 [7], .waitPeer .greeter 5 [9]] ++ exchange ++
    [.waitPeer .claimer 4 [8], .waitPeer .greeter 6 [9]] ++ exchange ++ exchange ++ exchange ++ exchange ++
    talks

theorem invite_sessions_agree_started_over :
    ∃ system next result,
      run? (SessionSystem.step? commuting) { slot := { greeterUserId := "alice" } } startedOver =
        some system ∧
      system.step? commuting (.listen .claimer) = some next ∧
      (next.sides .claimer).held = some result ∧ (next.sides .greeter).held = some result := by
  have symmetric (first second : UInt8) :
      commuting.generateSharedSecretKey first (commuting.publicKey second) =
        commuting.generateSharedSecretKey second (commuting.publicKey first) := by
    simp [commuting, UInt8.mul_comm]
  obtain ⟨result, both⟩ := invite_sessions_agree commuting symmetric "alice" startedOver _ _ rfl .claimer rfl
    _ _ rfl rfl rfl rfl
  exact ⟨_, _, result, rfl, rfl, both⟩

end Example

end Guardata
