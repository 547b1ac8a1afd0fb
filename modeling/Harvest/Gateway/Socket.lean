import Harvest.Event.Bus
import Harvest.Gateway.Target

/-! Sockets that tell events as they happen, all of them or those of one execution. A ping is
answered, and a close ends the socket; what else a client sends is passed over.
-/

namespace Harvest.Gateway

/-- A frame on a socket. -/
inductive Frame where
  | text (payload : String)
  | binary (payload : String)
  | ping (payload : String)
  | pong (payload : String)
  | close
deriving DecidableEq, Repr

/-- A socket: its place on the bus, what it tells, and what it has sent. -/
structure Socket where
  subscriber : Nat
  /-- The only execution whose events are told. -/
  only : Option Uuid
  isOpen : Bool
  sent : List Frame
deriving Repr, Inhabited

namespace Socket

/-- A socket for a target, with its place on the bus; other targets open none. -/
def open? (target : String) (bus : Bus) : Option (Socket × Bus) :=
  match Route.of? "GET" target, queryExecution target with
  | some .events, .ok only =>
      let (subscriber, bus) := bus.subscribe
      some (⟨subscriber, only, true, []⟩, bus)
  | _, _ => none

/-- The socket after a frame of its client. -/
def receive (socket : Socket) (frame : Frame) : Socket :=
  if !socket.isOpen then socket
  else
    match frame with
    | .ping payload => { socket with sent := socket.sent ++ [.pong payload] }
    | .close => { socket with isOpen := false, sent := socket.sent ++ [.close] }
    | _ => socket

/-- The event is told on this socket. -/
def tells (socket : Socket) (event : Event) : Bool :=
  socket.only.all (· == event.execution)

/-- The socket after the events that wait for it were sent. -/
def deliver (socket : Socket) (bus : Bus) : Socket × Bus :=
  let (events, bus) := bus.drain socket.subscriber
  if !socket.isOpen then (socket, bus)
  else
    let frames := (events.filter socket.tells).map fun event =>
      Frame.text event.toJson.compact
    ({ socket with sent := socket.sent ++ frames }, bus)

end Socket

end Harvest.Gateway
