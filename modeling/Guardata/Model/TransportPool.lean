import Mathlib.Data.Finset.Basic
import Mathlib.Logic.Function.Basic
import Guardata.Model.SignedData
import Guardata.ToMathlib.Dict

/-! # The pool of connections to the backend

The tasks of a client share a few connections to the backend. A task acquires one, sends its commands over it, each
after the reply to the one before, and gives it back if nothing went wrong; it may be cancelled at any time. A reply
does not say which request it answers, and the backend drops what it is doing for the sake of a new request.

The number of a request, and that of the request which a reply answers, are known to nobody in the source; they are
kept here to say which reply was meant. The flag of the pool that nothing ever sets is left out.
-/

namespace Guardata

structure RawRequest where
  number : ℕ
  body : Bytes
deriving DecidableEq, Repr

structure RawReply where
  answers : ℕ
  body : Bytes
deriving DecidableEq, Repr

/-- What is under way on a connection, and what the backend is working on. -/
structure Wire where
  requests : List RawRequest := []
  serving : Option RawRequest := none
  replies : List RawReply := []
deriving DecidableEq, Repr

namespace Wire

variable (wire : Wire)

/-- `_handle_client_loop` takes the next request. -/
def serve? : Option Wire :=
  match wire.serving, wire.requests with
  | none, request :: rest => some { wire with serving := some request, requests := rest }
  | _, _ => none

def answer? (body : Bytes) : Option Wire :=
  wire.serving.map fun request =>
    { wire with serving := none, replies := wire.replies ++ [⟨request.number, body⟩] }

/-- `CancelledByNewRequest`: the command that is being handled gets no reply. -/
def supersede? : Option Wire :=
  match wire.serving, wire.requests with
  | some _, request :: rest => some { wire with serving := some request, requests := rest }
  | _, _ => none

end Wire

/-- A task inside of `acquire`. -/
inductive PoolSession where
  | connecting
  | ready (transport : ℕ)
  /-- `_send_cmd` has sent its request. -/
  | awaiting (transport : ℕ) (request : RawRequest)
deriving DecidableEq, Repr

def PoolSession.transport? : PoolSession → Option ℕ
  | .connecting => none
  | .ready transport => some transport
  | .awaiting transport _ => some transport

/-- How a task leaves the body of `acquire`. -/
inductive PoolExit where
  | returned
  | raised
  | closedByPeer
  /-- `trio.Cancelled`, which is no `Exception`. -/
  | cancelled
deriving DecidableEq, Repr

/-- A request with the reply that `_send_cmd` has taken for its own. -/
structure AnsweredCmd where
  session : ℕ
  request : RawRequest
  reply : RawReply
deriving DecidableEq, Repr

structure TransportPool where
  maxPool : ℕ
  transports : List ℕ := []
  sessions : Dict ℕ PoolSession := ∅
  wire : ℕ → Wire := fun _ => {}
  /-- The transports that the client has closed. -/
  closed : Finset ℕ := ∅
  opened : ℕ := 0
  asked : ℕ := 0
  answered : List AnsweredCmd := []

namespace TransportPool

variable (pool : TransportPool)

def setSession (session : ℕ) (state : PoolSession) : TransportPool :=
  { pool with sessions := pool.sessions.insert session state }

def setWire (transport : ℕ) (wire : Wire) : TransportPool :=
  { pool with wire := Function.update pool.wire transport wire }

/-- The semaphore lets in so many tasks; the oldest connection comes first, if it need not be fresh. -/
def acquire (session : ℕ) (forceFresh : Bool) : Option TransportPool :=
  if pool.sessions.contains session ∨ pool.maxPool ≤ pool.sessions.items.length then none
  else match if forceFresh then [] else pool.transports with
    | transport :: rest => some ({ pool with transports := rest }.setSession session (.ready transport))
    | [] => some (pool.setSession session .connecting)

/-- `_connect_cb` returns a new connection, or raises. -/
def connected (session : ℕ) (success : Bool) : Option TransportPool :=
  if pool.sessions.get? session = some .connecting then
    some (if success then
      { (pool.setWire pool.opened {}).setSession session (.ready pool.opened) with opened := pool.opened + 1 }
    else { pool with sessions := pool.sessions.erase session })
  else none

/-- `_send_cmd` up to its `recv`. -/
def send (session : ℕ) (body : Bytes) : Option TransportPool :=
  match pool.sessions.get? session with
  | some (.ready transport) =>
    let request : RawRequest := ⟨pool.asked, body⟩
    let wire := pool.wire transport
    some { (pool.setWire transport { wire with requests := wire.requests ++ [request] }).setSession session
        (.awaiting transport request) with
      asked := pool.asked + 1 }
  | _ => none

def recv (session : ℕ) : Option TransportPool :=
  match pool.sessions.get? session with
  | some (.awaiting transport request) =>
    match (pool.wire transport).replies with
    | reply :: rest =>
      some { (pool.setWire transport { pool.wire transport with replies := rest }).setSession session
          (.ready transport) with
        answered := pool.answered ++ [⟨session, request, reply⟩] }
    | [] => none
  | _ => none

/-- The end of `acquire`; only a body that has no request under way can return. -/
def leave (session : ℕ) (how : PoolExit) : Option TransportPool :=
  (pool.sessions.get? session).bind fun state => state.transport?.bind fun transport =>
    let out := { pool with sessions := pool.sessions.erase session }
    match how with
    | .returned =>
      if state = .ready transport then some { out with transports := pool.transports ++ [transport] } else none
    | .raised => some { out with closed := insert transport pool.closed }
    | .closedByPeer | .cancelled => some out

/-- What may happen: steps of the tasks, and of the backend for one of the connections. -/
inductive Label where
  | acquire (session : ℕ) (forceFresh : Bool)
  | connected (session : ℕ) (success : Bool)
  | send (session : ℕ) (body : Bytes)
  | recv (session : ℕ)
  | leave (session : ℕ) (how : PoolExit)
  | serve (transport : ℕ)
  | answer (transport : ℕ) (body : Bytes)
  | supersede (transport : ℕ)
deriving DecidableEq

def step? : Label → Option TransportPool
  | .acquire session forceFresh => pool.acquire session forceFresh
  | .connected session success => pool.connected session success
  | .send session body => pool.send session body
  | .recv session => pool.recv session
  | .leave session how => pool.leave session how
  | .serve transport => (pool.wire transport).serve?.map (pool.setWire transport)
  | .answer transport body => ((pool.wire transport).answer? body).map (pool.setWire transport)
  | .supersede transport => (pool.wire transport).supersede?.map (pool.setWire transport)

end TransportPool

end Guardata
