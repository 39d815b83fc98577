import TcpReactor.Config
import TcpReactor.ConnId
import TcpReactor.Protocol
import TcpReactor.ReactorError
import TcpReactor.Slots

namespace TcpReactor

/-! # The server

A server accepts connections on one listening socket and drives a session for each. It keeps its
connections in a slot table; an event names a connection by its key, and is of no consequence if
that connection is gone.

What the outside world decides comes in as arguments: whether an address can be bound, which events
a cycle finds and at what time, and, in the queue of the listener, who wants to connect. Sockets
that the server lets go of are left in `released`, oldest first.
-/

/-- What a server keeps with each session: the state of its protocol, its identity, and what the
poller was last told to watch for. -/
structure Link (P : Type) where
  protocol : P
  id : ConnId
  peer : Address
  interest : Interest

structure Connection (P : Type) where
  session : Session Socket
  link : Link P

/-- The handler of a connection while one of its calls is under way: what is kept with the
connection, and the state that all connections share. -/
structure Served (P W : Type) where
  link : Link P
  shared : W

namespace Served

variable {P W : Type} [Protocol P W]

/-- The handler after a callback of the protocol. -/
def resume (h : Served P W) : P × W → Served P W
  | (protocol, shared) => { link := { h.link with protocol }, shared }

instance : Handler Socket (Served P W) where
  onRecv h := (Protocol.onRecv h.link.protocol h.shared).bind fun r => .done (h.resume r)
  onSend h n := (Protocol.onSend h.link.protocol h.shared n).bind fun r => .done (h.resume r)
  onClose h s := h.resume (Protocol.onClose h.link.protocol h.shared s)
  onInterest h _ on := { h with link := { h.link with interest := .ofPending on } }

end Served

/-- What a poller reports under a key. -/
structure Event where
  key : Nat
  readiness : Readiness
  deriving DecidableEq, Repr

/-- The events of one cycle, when they are dealt with, and when the look for idle connections
follows. -/
structure Batch where
  events : List Event
  now : Nat
  sweepAt : Nat

structure Server (P W : Type) where
  config : ServerConfig
  shared : W
  connections : Slots (Connection P) := {}
  listener : Option Listener := none
  nextVersion : UInt32 := 0
  running : Bool := false
  released : List Socket := []

namespace Server

variable {P W : Type}

/-! ## Looking up -/

/-- The connection with this identity. -/
def connection? (s : Server P W) (id : ConnId) : Option (Connection P) :=
  (s.connections.get? id.slot.toNat).filter (·.link.id = id)

def connectionCount (s : Server P W) : Nat := s.connections.size

/-- The address on which the server listens. -/
def localAddress? (s : Server P W) : Option Address :=
  s.listener.bind fun l => l.localAddress.toOption

/-! ## Letting go -/

/-- Drop a socket, which closes it. -/
def release (s : Server P W) (socket : Socket) : Server P W :=
  { s with released := s.released ++ [socket.close] }

/-- Take the connection in a slot out of the table. -/
def remove (s : Server P W) (slot : Nat) : Server P W :=
  match s.connections.remove slot with
  | (some c, connections) => release { s with connections } c.session.transport
  | (none, connections) => { s with connections }

variable [Protocol P W]

/-- A connection with its handler, as its calls need it. -/
def lend (s : Server P W) (c : Connection P) (now : Nat) : Driven (Served P W) Socket :=
  { session := c.session.atTime now, handler := { link := c.link, shared := s.shared } }

/-- Put a connection back after a call. -/
def putBack (s : Server P W) (slot : Nat) (d : Driven (Served P W) Socket) : Server P W :=
  { s with
    connections := s.connections.set slot { session := d.session, link := d.handler.link }
    shared := d.handler.shared }

/-- Close the connection in a slot and take it out of the table. -/
def evict (s : Server P W) (now : Nat) (slot : Nat) : Server P W :=
  let s := match s.connections.get? slot with
    | some c => s.putBack slot (s.lend c now).close
    | none => s
  s.remove slot

/-! ## Starting and stopping -/

/-- Open the listener. The system says whether the address can be bound. -/
def start (s : Server P W) (bound : Except IoError Unit) : Except ReactorError Unit × Server P W :=
  if s.listener.isSome then (.error .alreadyStarted, s)
  else
    match Listener.openOn s.config.address bound with
    | .error e => (.error (.listener e), s)
    | .ok listener => (.ok (), { s with listener := some listener, running := true })

/-- Close every connection and the listener. -/
def stop (s : Server P W) (now : Nat) : Server P W :=
  let slots := s.connections.toList.map fun (_, c) => c.link.id.slot.toNat
  let s := slots.foldl (fun s slot => s.evict now slot) { s with running := false }
  match s.listener with
  | none => s
  | some listener =>
      -- whoever was not accepted yet is turned away
      let waiting := listener.pending.filterMap Except.toOption
      waiting.foldl release { s with listener := none }

/-! ## One cycle -/

/-- Take a socket in: give it an identity, a protocol and a session, and store it. If there is no
identity left, or the session does not open, or the poller does not take it, the socket is dropped.
-/
def addConnection (s : Server P W) (now : Nat) (socket : Socket) : Server P W :=
  match ConnId.of? s.connections.nextKey (s.nextVersion + 1) with
  | none => s.release socket
  | some id =>
      let (protocol, shared) := Protocol.accept s.shared socket.peer
      -- the version is used up even if the session does not open
      let s := { s with shared, nextVersion := id.version }
      let session := Session.new socket s.config.recvBufferSize s.config.sendBufferSize now
      let link : Link P := { protocol, id, peer := socket.peer, interest := .readable }
      match session.openUp with
      | (.error _, session) => s.release session.transport
      | (.ok (), session) =>
          let c : Connection P := { session, link }
          if socket.watchable then { s with connections := (s.connections.insert c).2 }
          else
            let d := (s.lend c now).close
            release { s with shared := d.handler.shared } d.session.transport

/-- Accept whoever waits, `fuel` connections at most. A failure to accept ends this. -/
def acceptAll (s : Server P W) (now : Nat) : (fuel : Nat) → Server P W
  | 0 => s
  | fuel + 1 =>
      match s.listener with
      | none => s
      | some listener =>
          match listener.accept with
          | (.ok (some socket), listener) =>
              acceptAll (addConnection { s with listener := some listener } now socket) now fuel
          | (.ok none, listener) => { s with listener := some listener }
          | (.error _, listener) => { s with listener := some listener }

/-- How many connections wait to be accepted. -/
def waiting (s : Server P W) : Nat :=
  match s.listener with
  | some listener => listener.pending.length
  | none => 0

/-- What a connection does about its readiness: an error closes it; a hangup closes it once what has
arrived is received; otherwise it receives and sends as it is ready to. -/
def react (fuel : Nat) (r : Readiness) (d : Driven (Served P W) Socket) :
    Option (Driven (Served P W) Socket) :=
  if r.error then some d.close
  else
    -- a hangup may have bytes before it
    let d := if r.readable || r.hangup then d.readable.2 else d
    if r.hangup then some d.close
    else if r.writable && d.isOpen then (d.writable fuel).map (·.2)
    else some d

/-- Deal with an event of a connection. If that closes it, it is taken out of the table. -/
def dispatch (s : Server P W) (fuel now : Nat) (e : Event) : Option (Server P W) :=
  let id := ConnId.ofKey e.key
  match s.connection? id with
  -- the connection is gone, and its slot may belong to another one
  | none => some s
  | some c => do
      let d ← react fuel e.readiness (s.lend c now)
      let slot := id.slot.toNat
      let s := s.putBack slot d
      return if d.isOpen then s else s.remove slot

/-- Deal with the events of a cycle in their order. -/
def dispatchAll (fuel now : Nat) : List Event → Server P W → Option (Server P W)
  | [], s => some s
  | e :: events, s =>
      if e.key = ConnId.listenerKey then
        dispatchAll fuel now events (s.acceptAll now (s.waiting + 1))
      else do dispatchAll fuel now events (← s.dispatch fuel now e)

/-- Close the connections on which nothing has moved for too long. -/
def evictIdle (s : Server P W) (now : Nat) : Server P W :=
  let idle := s.connections.toList.filter fun (_, c) =>
    (c.session.atTime now).isIdle s.config.idleTimeout
  (idle.map fun (_, c) => c.link.id.slot.toNat).foldl (fun s slot => s.evict now slot) s

/-- One cycle: deal with the events, then close idle connections. The answer is the number of
events. A server that is not running does nothing. Every writable pass may send `fuel` chunks; if
one of them does not get by with this, there is no answer. -/
def cycle (s : Server P W) (fuel : Nat) (batch : Batch) : Option (Nat × Server P W) :=
  if !s.running then some (0, s)
  else do
    let s ← dispatchAll fuel batch.now batch.events s
    return (batch.events.length, s.evictIdle batch.sweepAt)

/-! ## Calls from outside -/

/-- Carry out a program on the session of a connection. There is no result if there is no such
connection. A connection that closes stays in the table until its next event. -/
def exec (s : Server P W) (fuel now : Nat) (id : ConnId) {α : Type}
    (program : Session.Program Socket α) : Option (Option α × Server P W) :=
  match s.connection? id with
  | none => some (none, s)
  | some c => do
      let (a, d) ← (s.lend c now).exec fuel program
      return (some a, s.putBack id.slot.toNat d)

end Server
end TcpReactor
