import Guardata.Machine.Run
import Guardata.Model.TransportPool
import Mathlib.Data.List.Nodup
import Mathlib.Tactic.SplitIfs

/-! # Every reply is taken by the task that asked for it

A connection is in the hands of one task, or in the pool, and what is in the pool has nothing under way. So the
reply that a task receives answers the request that the task has sent, however many tasks share the connections
and whenever they are cancelled, and the backend never drops a command for the sake of another one.
-/

namespace Guardata

namespace Wire

variable {wire wire' : Wire} {request : RawRequest}

/-- The request, or its reply, is all that is under way. -/
def Carries (wire : Wire) (request : RawRequest) : Prop :=
  wire = { requests := [request] } ∨ wire = { serving := some request } ∨
    ∃ body, wire = { replies := [⟨request.number, body⟩] }

/-- How many requests have not come to their end. -/
def load (wire : Wire) : ℕ := wire.requests.length + wire.serving.toList.length + wire.replies.length

/-- The backend goes on with what it has. -/
structure Goes (wire wire' : Wire) : Prop where
  load : wire'.load = wire.load
  busy : wire ≠ {}
  carries : ∀ request, wire.Carries request → wire'.Carries request

theorem goes_serve (served : wire.serve? = some wire') : wire.Goes wire' := by
  obtain ⟨requests, serving, replies⟩ := wire
  cases serving with
  | some request => cases served
  | none =>
    cases requests with
    | nil => cases served
    | cons first rest =>
      cases served
      refine ⟨by simp [load], by simp, fun request carries => ?_⟩
      rcases carries with same | same | ⟨_, same⟩ <;> cases same
      exact .inr (.inl rfl)

theorem goes_answer {body : Bytes} (answered : wire.answer? body = some wire') : wire.Goes wire' := by
  obtain ⟨requests, serving, replies⟩ := wire
  cases serving with
  | none => cases answered
  | some first =>
    cases answered
    refine ⟨by simp [load]; omega, by simp, fun request carries => ?_⟩
    rcases carries with same | same | ⟨_, same⟩ <;> cases same
    exact .inr (.inr ⟨body, rfl⟩)

/-- Whoever has one request at most under way supersedes none. -/
theorem supersede?_of_load (light : wire.load ≤ 1) : wire.supersede? = none := by
  obtain ⟨requests, serving, replies⟩ := wire
  cases serving with
  | none => rfl
  | some request =>
    cases requests with
    | nil => rfl
    | cons first rest =>
      simp only [load, List.length_cons, Option.toList_some, List.length_nil] at light
      omega

end Wire

/-- The connection of a task carries its request, and nothing else. -/
def PoolSession.Fits (wire : ℕ → Wire) : PoolSession → Prop
  | .connecting => True
  | .ready transport => wire transport = {}
  | .awaiting transport request => (wire transport).Carries request

namespace TransportPool

open Machine

variable {pool next : TransportPool} {label : Label}

/-- Nobody shares a connection, and what is under way on it is what its holder is waiting for. -/
structure Sound (pool : TransportPool) : Prop where
  nodup : pool.transports.Nodup
  pooled : ∀ transport ∈ pool.transports, pool.wire transport = {} ∧ transport < pool.opened
  held : ∀ session state, pool.sessions.get? session = some state → state.Fits pool.wire
  apart : ∀ session state transport, pool.sessions.get? session = some state → state.transport? = some transport →
    transport ∉ pool.transports ∧ transport < pool.opened
  exclusive : ∀ session session' state state' transport, pool.sessions.get? session = some state →
    pool.sessions.get? session' = some state' → state.transport? = some transport →
    state'.transport? = some transport → session = session'
  light : ∀ transport, (pool.wire transport).load ≤ 1
  matched : ∀ cmd ∈ pool.answered, cmd.reply.answers = cmd.request.number

theorem sound_start (maxPool : ℕ) : Sound { maxPool } where
  nodup := List.nodup_nil
  pooled := by simp
  held := by simp
  apart := by simp
  exclusive := by simp
  light := by simp [Wire.load]
  matched := by simp

/-- What a task holds fits as before on wires that its connection does not notice. -/
theorem fits_of_same {wire wire' : ℕ → Wire} {state : PoolSession} (fits : state.Fits wire)
    (same : ∀ transport, state.transport? = some transport → wire' transport = wire transport) :
    state.Fits wire' := by
  cases state with
  | connecting => trivial
  | ready transport => exact (same transport rfl).trans fits
  | awaiting transport request =>
    rw [PoolSession.Fits, same transport rfl]
    exact fits

/-- A step of the backend. -/
theorem Sound.goes (sound : pool.Sound) {transport : ℕ} {wire' : Wire} (goes : (pool.wire transport).Goes wire') :
    (pool.setWire transport wire').Sound where
  nodup := sound.nodup
  pooled := by
    intro other member
    obtain ⟨idle, small⟩ := sound.pooled other member
    refine ⟨?_, small⟩
    have distinct : other ≠ transport := fun same => goes.busy (same ▸ idle)
    exact (Function.update_of_ne distinct _ _).trans idle
  held := by
    intro session state found
    have fits := sound.held session state found
    cases state with
    | connecting => trivial
    | ready other =>
      have distinct : other ≠ transport := fun same => goes.busy (same ▸ fits)
      exact (Function.update_of_ne distinct _ _).trans fits
    | awaiting other request =>
      change (Function.update pool.wire transport wire' other).Carries request
      by_cases same : other = transport
      · rw [same, Function.update_self]
        exact goes.carries request (same ▸ fits)
      · rw [Function.update_of_ne same]
        exact fits
  apart := sound.apart
  exclusive := sound.exclusive
  light := by
    intro other
    change (Function.update pool.wire transport wire' other).load ≤ 1
    by_cases same : other = transport
    · rw [same, Function.update_self, goes.load]
      exact sound.light transport
    · rw [Function.update_of_ne same]
      exact sound.light other
  matched := sound.matched

/-- A task leaves the pool. -/
theorem Sound.erase (sound : pool.Sound) (session : ℕ) :
    { pool with sessions := pool.sessions.erase session }.Sound := by
  have old {other : ℕ} {state : PoolSession} (found : (pool.sessions.erase session).get? other = some state) :
      other ≠ session ∧ pool.sessions.get? other = some state := by
    rw [Dict.get?_erase] at found
    split_ifs at found with same
    exact ⟨same, found⟩
  exact ⟨sound.nodup, sound.pooled, fun other state found => sound.held other state (old found).2,
    fun other state transport found => sound.apart other state transport (old found).2,
    fun first second state state' transport found found' =>
      sound.exclusive first second state state' transport (old found).2 (old found').2,
    sound.light, sound.matched⟩

/-- A task that has no connection yet, or one that nobody has, or its own one. -/
theorem Sound.setSession (sound : pool.Sound) {session : ℕ} {state : PoolSession} (fits : state.Fits pool.wire)
    (apart : ∀ transport, state.transport? = some transport → transport ∉ pool.transports ∧ transport < pool.opened)
    (alone : ∀ other state' transport, other ≠ session → pool.sessions.get? other = some state' →
      state.transport? = some transport → state'.transport? ≠ some transport) :
    (pool.setSession session state).Sound := by
  have cases {other : ℕ} {state' : PoolSession}
      (found : (pool.setSession session state).sessions.get? other = some state') :
      (other = session ∧ state' = state) ∨ (other ≠ session ∧ pool.sessions.get? other = some state') := by
    change (pool.sessions.insert session state).get? other = some state' at found
    rw [Dict.get?_insert] at found
    split_ifs at found with same
    · exact .inl ⟨same, (Option.some_inj.mp found).symm⟩
    · exact .inr ⟨same, found⟩
  refine ⟨sound.nodup, sound.pooled, fun other state' found => ?_, fun other state' transport found holds => ?_,
    fun first second state' state'' transport found found' holds holds' => ?_, sound.light, sound.matched⟩
  · rcases cases found with ⟨_, rfl⟩ | ⟨_, found⟩
    · exact fits
    · exact sound.held other state' found
  · rcases cases found with ⟨_, rfl⟩ | ⟨_, found⟩
    · exact apart transport holds
    · exact sound.apart other state' transport found holds
  · rcases cases found with ⟨mine, rfl⟩ | ⟨away, here⟩ <;> rcases cases found' with ⟨yours, rfl⟩ | ⟨away', here'⟩
    · exact mine.trans yours.symm
    · exact absurd holds' (alone second state'' transport away' here' holds)
    · exact absurd holds (alone first state' transport away here holds')
    · exact sound.exclusive first second state' state'' transport here here' holds holds'

/-- No task holds a connection, and it is not in the pool. -/
structure Free (pool : TransportPool) (transport : ℕ) : Prop where
  unpooled : transport ∉ pool.transports
  unheld : ∀ session state, pool.sessions.get? session = some state → state.transport? ≠ some transport

theorem Sound.setWire (sound : pool.Sound) {transport : ℕ} (free : pool.Free transport) {wire' : Wire}
    (light : wire'.load ≤ 1) : (pool.setWire transport wire').Sound where
  nodup := sound.nodup
  pooled := fun other member =>
    have distinct : other ≠ transport := fun same => free.unpooled (same ▸ member)
    ⟨(Function.update_of_ne distinct _ _).trans (sound.pooled other member).1, (sound.pooled other member).2⟩
  held := by
    intro session state found
    refine fits_of_same (sound.held session state found) fun other holds => ?_
    have distinct : other ≠ transport := by
      rintro rfl
      exact free.unheld session state found holds
    exact Function.update_of_ne distinct _ _
  apart := sound.apart
  exclusive := sound.exclusive
  light := by
    intro other
    change (Function.update pool.wire transport wire' other).load ≤ 1
    by_cases same : other = transport
    · rwa [same, Function.update_self]
    · rw [Function.update_of_ne same]
      exact sound.light other
  matched := sound.matched

/-- The connection of a task that leaves is free. -/
theorem Sound.free_erase (sound : pool.Sound) {session transport : ℕ} {state : PoolSession}
    (found : pool.sessions.get? session = some state) (holds : state.transport? = some transport) :
    Free { pool with sessions := pool.sessions.erase session } transport where
  unpooled := (sound.apart session state transport found holds).1
  unheld := by
    intro other state' found' holds'
    rw [Dict.get?_erase] at found'
    split_ifs at found' with same
    exact same (sound.exclusive other session state' state transport found' found holds' holds)

/-- A task goes on with the connection that it holds. -/
theorem Sound.moveOn (sound : pool.Sound) {session transport : ℕ} {state state' : PoolSession}
    (found : pool.sessions.get? session = some state) (holds : state.transport? = some transport)
    (holds' : state'.transport? = some transport) {wire' : Wire} (light : wire'.load ≤ 1)
    (fits : state'.Fits (Function.update pool.wire transport wire')) :
    ((pool.setWire transport wire').setSession session state').Sound := by
  have free := sound.free_erase found holds
  have small := (sound.apart session state transport found holds).2
  have renewed : (({ pool with sessions := pool.sessions.erase session }.setWire transport wire').setSession session
      state').Sound := by
    refine ((sound.erase session).setWire free light).setSession fits (fun other same => ?_)
      fun other state'' other' _ here same => ?_
    · cases holds'.symm.trans same
      exact ⟨free.unpooled, small⟩
    · cases holds'.symm.trans same
      exact free.unheld other state'' here
  -- The same tasks, in another order.
  have same (query : ℕ) : ((pool.sessions.erase session).insert session state').get? query =
      (pool.sessions.insert session state').get? query := by
    rw [Dict.get?_insert, Dict.get?_insert, Dict.get?_erase]
    split_ifs <;> rfl
  exact ⟨renewed.nodup, renewed.pooled,
    fun query state'' here => renewed.held query state'' ((same query).trans here),
    fun query state'' transport' here => renewed.apart query state'' transport' ((same query).trans here),
    fun first second left right transport' here here' => renewed.exclusive first second left right transport'
      ((same first).trans here) ((same second).trans here'),
    renewed.light, renewed.matched⟩

theorem Sound.acquire (sound : pool.Sound) {session : ℕ} {forceFresh : Bool}
    (taken : pool.acquire session forceFresh = some next) : next.Sound := by
  rw [TransportPool.acquire] at taken
  split_ifs at taken with full fresh
  · cases taken
    exact sound.setSession trivial (by simp [PoolSession.transport?]) (by simp [PoolSession.transport?])
  · cases transports : pool.transports with
    | nil =>
      rw [transports] at taken
      cases taken
      exact sound.setSession trivial (by simp [PoolSession.transport?]) (by simp [PoolSession.transport?])
    | cons oldest rest =>
      rw [transports] at taken
      cases taken
      have nodup := sound.nodup
      rw [transports, List.nodup_cons] at nodup
      have pooled : oldest ∈ pool.transports := by simp [transports]
      have kept : { pool with transports := rest }.Sound :=
        ⟨nodup.2, fun transport member => sound.pooled transport (by simp [transports, member]), sound.held,
          fun other state transport found holds =>
            ⟨fun member => (sound.apart other state transport found holds).1 (by simp [transports, member]),
              (sound.apart other state transport found holds).2⟩,
          sound.exclusive, sound.light, sound.matched⟩
      refine kept.setSession (sound.pooled oldest pooled).1 ?_ ?_
      · rintro transport ⟨⟩
        exact ⟨nodup.1, (sound.pooled oldest pooled).2⟩
      · rintro other state transport - found ⟨⟩ holds
        exact (sound.apart other state oldest found holds).1 pooled

theorem Sound.connected (sound : pool.Sound) {session : ℕ} {success : Bool}
    (taken : pool.connected session success = some next) : next.Sound := by
  rw [TransportPool.connected] at taken
  split_ifs at taken with connecting success
  · cases taken
    have free : pool.Free pool.opened :=
      ⟨fun member => lt_irrefl _ (sound.pooled _ member).2,
        fun other state found holds => lt_irrefl _ (sound.apart other state _ found holds).2⟩
    have opened : (pool.setWire pool.opened {}).Sound := sound.setWire free (by simp [Wire.load])
    have counted : { pool.setWire pool.opened {} with opened := pool.opened + 1 }.Sound :=
      ⟨opened.nodup, fun transport member => ⟨(opened.pooled transport member).1,
          Nat.lt_succ_of_lt (opened.pooled transport member).2⟩, opened.held,
        fun other state transport found holds => ⟨(opened.apart other state transport found holds).1,
          Nat.lt_succ_of_lt (opened.apart other state transport found holds).2⟩,
        opened.exclusive, opened.light, opened.matched⟩
    refine counted.setSession (Function.update_self _ _ _) ?_ ?_
    · rintro transport ⟨⟩
      exact ⟨free.unpooled, Nat.lt_succ_self _⟩
    · rintro other state transport - found ⟨⟩
      exact free.unheld other state found
  · cases taken
    exact sound.erase session

theorem Sound.send (sound : pool.Sound) {session : ℕ} {body : Bytes}
    (taken : pool.send session body = some next) : next.Sound := by
  rw [TransportPool.send] at taken
  split at taken
  · next transport found =>
    cases taken
    have idle : pool.wire transport = {} := sound.held session _ found
    have sent : ((pool.setWire transport { pool.wire transport with
        requests := (pool.wire transport).requests ++ [⟨pool.asked, body⟩] }).setSession session
          (.awaiting transport ⟨pool.asked, body⟩)).Sound := by
      refine sound.moveOn found rfl rfl (by rw [idle]; simp [Wire.load]) ?_
      rw [PoolSession.Fits, Function.update_self, idle]
      exact .inl rfl
    exact ⟨sent.nodup, sent.pooled, sent.held, sent.apart, sent.exclusive, sent.light, sent.matched⟩
  · cases taken

theorem Sound.recv (sound : pool.Sound) {session : ℕ} (taken : pool.recv session = some next) : next.Sound := by
  rw [TransportPool.recv] at taken
  split at taken
  · next transport request found =>
    have carries : (pool.wire transport).Carries request := sound.held session _ found
    split at taken
    · next reply rest replies =>
      cases taken
      obtain ⟨body, same⟩ : ∃ body, pool.wire transport = { replies := [⟨request.number, body⟩] } := by
        rcases carries with same | same | same
        · simp [same] at replies
        · simp [same] at replies
        · exact same
      rw [same] at replies
      cases replies
      have received : ((pool.setWire transport { pool.wire transport with replies := [] }).setSession session
          (.ready transport)).Sound := by
        refine sound.moveOn found rfl rfl (by rw [same]; simp [Wire.load]) ?_
        rw [PoolSession.Fits, Function.update_self, same]
      refine ⟨received.nodup, received.pooled, received.held, received.apart, received.exclusive, received.light,
        fun cmd member => ?_⟩
      rcases List.mem_append.mp member with old | new
      · exact sound.matched cmd old
      · cases List.mem_singleton.mp new
        rfl
    · cases taken
  · cases taken

theorem Sound.leave (sound : pool.Sound) {session : ℕ} {how : PoolExit}
    (taken : pool.leave session how = some next) : next.Sound := by
  obtain ⟨state, found, rest⟩ := Option.bind_eq_some_iff.mp taken
  obtain ⟨transport, holds, left⟩ := Option.bind_eq_some_iff.mp rest
  have out := sound.erase session
  cases how with
  | returned =>
    obtain ⟨ready, same⟩ := Option.ite_none_right_eq_some.mp left
    cases same
    have free := sound.free_erase found holds
    have idle : pool.wire transport = {} := by
      have fits := sound.held session state found
      rwa [ready] at fits
    refine ⟨?_, fun other member => ?_, out.held, fun other state' other' here holds' => ?_, out.exclusive, out.light,
      out.matched⟩
    · exact List.nodup_append.mpr ⟨out.nodup, List.nodup_singleton _, fun first member second single same =>
        free.unpooled (by rwa [← List.mem_singleton.mp single, ← same])⟩
    · rcases List.mem_append.mp member with old | new
      · exact out.pooled other old
      · cases List.mem_singleton.mp new
        exact ⟨idle, (sound.apart session state transport found holds).2⟩
    · obtain ⟨unpooled, small⟩ := out.apart other state' other' here holds'
      refine ⟨fun member => ?_, small⟩
      rcases List.mem_append.mp member with old | new
      · exact unpooled old
      · cases List.mem_singleton.mp new
        exact free.unheld other state' here holds'
  | raised =>
    cases left
    exact ⟨out.nodup, out.pooled, out.held, out.apart, out.exclusive, out.light, out.matched⟩
  | closedByPeer =>
    cases left
    exact out
  | cancelled =>
    cases left
    exact out

/-- Every step keeps the connections apart. -/
theorem Sound.step (sound : pool.Sound) (taken : pool.step? label = some next) : next.Sound := by
  cases label with
  | acquire session forceFresh => exact sound.acquire taken
  | connected session success => exact sound.connected taken
  | send session body => exact sound.send taken
  | recv session => exact sound.recv taken
  | leave session how => exact sound.leave taken
  | serve transport =>
    obtain ⟨wire', served, rfl⟩ := Option.map_eq_some_iff.mp taken
    exact sound.goes (Wire.goes_serve served)
  | answer transport body =>
    obtain ⟨wire', answered, rfl⟩ := Option.map_eq_some_iff.mp taken
    exact sound.goes (Wire.goes_answer answered)
  | supersede transport =>
    obtain ⟨wire', superseded, _⟩ := Option.map_eq_some_iff.mp taken
    cases (Wire.supersede?_of_load (sound.light transport)).symm.trans superseded

/-- Whatever the tasks of a client do, and whenever they are cancelled: every reply that was received answers the
request that its receiver had sent, no request makes the backend drop another one, what is in the pool has nothing
under way, and no connection is in two hands. -/
theorem replies_match {maxPool : ℕ} {labels : List Label}
    (played : run? step? { maxPool } labels = some pool) :
    (∀ cmd ∈ pool.answered, cmd.reply.answers = cmd.request.number) ∧
    (∀ transport, pool.step? (.supersede transport) = none) ∧
    (∀ transport ∈ pool.transports, pool.wire transport = {}) ∧
    pool.transports.Nodup ∧
    ∀ session state transport, pool.sessions.get? session = some state → state.transport? = some transport →
      transport ∉ pool.transports ∧ ∀ session' state', pool.sessions.get? session' = some state' →
        state'.transport? = some transport → session' = session := by
  have sound : pool.Sound :=
    run?_preserves (fun _ _ _ taken sound => sound.step taken) played (sound_start maxPool)
  refine ⟨sound.matched, fun transport => ?_, fun transport member => (sound.pooled transport member).1, sound.nodup,
    fun session state transport found holds => ⟨(sound.apart session state transport found holds).1,
      fun session' state' found' holds' => sound.exclusive session' session state' state transport found' found holds'
        holds⟩⟩
  rw [step?, Wire.supersede?_of_load (sound.light transport), Option.map_none]

/-- Two tasks; the first is cancelled while it waits, and the third gets a connection of its own. -/
theorem replies_match_cancelled : ∃ pool : TransportPool,
    run? step? { maxPool := 2 } [.acquire 1 false, .connected 1 true, .acquire 2 false, .connected 2 true,
      .send 1 [1], .send 2 [2], .serve 0, .serve 1, .leave 1 .cancelled, .acquire 3 false, .answer 0 [10],
      .answer 1 [20], .recv 2, .leave 2 .returned, .connected 3 true, .send 3 [3], .serve 2, .answer 2 [30],
      .recv 3] = some pool ∧
    pool.answered = [⟨2, ⟨1, [2]⟩, ⟨1, [20]⟩⟩, ⟨3, ⟨2, [3]⟩, ⟨2, [30]⟩⟩] ∧
    ((∀ cmd ∈ pool.answered, cmd.reply.answers = cmd.request.number) ∧
    (∀ transport, pool.step? (.supersede transport) = none) ∧
    (∀ transport ∈ pool.transports, pool.wire transport = {}) ∧
    pool.transports.Nodup ∧
    ∀ session state transport, pool.sessions.get? session = some state → state.transport? = some transport →
      transport ∉ pool.transports ∧ ∀ session' state', pool.sessions.get? session' = some state' →
        state'.transport? = some transport → session' = session) :=
  ⟨_, rfl, rfl, replies_match (by rfl : run? step? { maxPool := 2 } [.acquire 1 false, .connected 1 true,
    .acquire 2 false, .connected 2 true, .send 1 [1], .send 2 [2], .serve 0, .serve 1, .leave 1 .cancelled,
    .acquire 3 false, .answer 0 [10], .answer 1 [20], .recv 2, .leave 2 .returned, .connected 3 true, .send 3 [3],
    .serve 2, .answer 2 [30], .recv 3] = some _)⟩

end TransportPool

end Guardata
