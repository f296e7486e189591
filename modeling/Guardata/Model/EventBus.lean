import Mathlib.Data.Nat.Notation
import Mathlib.Logic.Function.Basic

/-! # The event bus

Events are sent to the handlers that are connected to them, one call after the other. A handler may do anything
while it is called: connect and disconnect, itself or others, and send events, which calls other handlers before it
is finished itself. What it raises is logged, and the send goes on with the next handler. The list of handlers is
walked through as it is by then.

Connections have numbers, and a send keeps who was connected when it started and who has been called: nothing that
happens depends on it. The data of the events and the logs are left out.
-/

namespace Guardata

/-- The events of the components, and `MetaEvent`. -/
inductive BusEvent (κ : Type) where
  | connected
  | disconnected
  | of (event : κ)
deriving DecidableEq, Repr

/-- An entry of a list of handlers. -/
structure HandlerConnection (Handler : Type) where
  id : ℕ
  handler : Handler
deriving DecidableEq, Repr

/-- A call of `send` on its way: the index of the next handler, and whether one is being called. -/
structure EventSend (κ Handler : Type) where
  event : BusEvent κ
  index : ℕ := 0
  calling : Bool := false
  connected : List (HandlerConnection Handler)
  called : List (HandlerConnection Handler) := []
deriving DecidableEq, Repr

/-- The bus, with the sends that are under way, the innermost first. -/
structure EventBus (κ Handler : Type) where
  eventHandlers : BusEvent κ → List (HandlerConnection Handler) := fun _ => []
  sends : List (EventSend κ Handler) := []
  nextId : ℕ := 0

/-- What happens next. The code that runs, a handler or whoever uses the bus, does one of the first three. -/
inductive BusStep (κ Handler : Type) where
  | send (event : BusEvent κ)
  | connect (event : BusEvent κ) (handler : Handler)
  | disconnect (event : BusEvent κ) (handler : Handler)
  /-- The loop of the innermost send goes on, to the next handler or to its end. -/
  | advance
  /-- The handler that is called returns or raises. -/
  | finish

namespace EventBus

variable {κ Handler : Type} [DecidableEq κ] [DecidableEq Handler] (bus : EventBus κ Handler)

def send (event : BusEvent κ) : EventBus κ Handler :=
  { bus with sends := { event := event, connected := bus.eventHandlers event } :: bus.sends }

def connect (event : BusEvent κ) (handler : Handler) : EventBus κ Handler :=
  send { bus with
    eventHandlers := Function.update bus.eventHandlers event (bus.eventHandlers event ++ [⟨bus.nextId, handler⟩])
    nextId := bus.nextId + 1 } .connected

/-- Where `list.remove` finds a handler. -/
def position (event : BusEvent κ) (handler : Handler) : ℕ :=
  (bus.eventHandlers event).findIdx fun connection => connection.handler = handler

/-- A handler that is not connected makes `list.remove` raise. -/
def disconnect (event : BusEvent κ) (handler : Handler) : EventBus κ Handler :=
  if bus.position event handler < (bus.eventHandlers event).length then
    send { bus with
      eventHandlers := Function.update bus.eventHandlers event
        ((bus.eventHandlers event).eraseIdx (bus.position event handler)) } .disconnected
  else bus

/-- The loop of `send`. -/
def advance? : Option (EventBus κ Handler) :=
  match bus.sends with
  | [] => none
  | current :: outer =>
      if current.calling then none
      else match (bus.eventHandlers current.event)[current.index]? with
        | some connection => some { bus with
            sends := { current with
              index := current.index + 1
              calling := true
              called := current.called ++ [connection] } :: outer }
        | none => some { bus with sends := outer }

def finish? : Option (EventBus κ Handler) :=
  match bus.sends with
  | [] => none
  | current :: outer =>
      if current.calling then some { bus with sends := { current with calling := false } :: outer } else none

/-- Between two calls of a send no other code runs. -/
def isRunning : Bool := bus.sends.head?.all (·.calling)

def step? : BusStep κ Handler → Option (EventBus κ Handler)
  | .send event => if bus.isRunning then some (bus.send event) else none
  | .connect event handler => if bus.isRunning then some (bus.connect event handler) else none
  | .disconnect event handler => if bus.isRunning then some (bus.disconnect event handler) else none
  | .advance => bus.advance?
  | .finish => bus.finish?

end EventBus

end Guardata
