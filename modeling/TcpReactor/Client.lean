import TcpReactor.Config
import TcpReactor.Deadline
import TcpReactor.ReactorError
import TcpReactor.Session.Driven

namespace TcpReactor

/-! # The client

A client keeps one connection to its server alive and drives an application on it. The application
outlives the connections: between two of them it is parked. A connection that is lost is followed by
another attempt after the backoff, as long as the client runs; a connect that the server rejects
stops the client.

What the outside world decides comes in as arguments: how an attempt to connect turns out, which
events a cycle finds and at what time. Sockets that the client lets go of are left in `released`,
oldest first.
-/

open Session (Program)

/-- What an application of type `A` does when its connection tells it something. -/
class ClientApp (A : Type) where
  /-- A connection is established. -/
  onConnected : A → Program Socket A := fun a => .done a
  /-- Bytes were appended to the recv buffer. -/
  onRecv : A → Program Socket A
  /-- So many bytes left the send buffer. -/
  onSend : A → Nat → Program Socket A := fun a _ => .done a
  /-- The session has closed. -/
  onClose : A → Session Socket → A := fun a _ => a

/-- The handler of a client's session: the application, whether the connect is still in progress,
and what the poller was last told to watch for. -/
structure ClientLink (A : Type) where
  app : A
  connecting : Bool
  interest : Interest

namespace ClientLink

variable {A : Type} [ClientApp A]

/-- While the connect is in progress the socket stays watched in both directions. -/
instance : Handler Socket (ClientLink A) where
  onRecv h := (ClientApp.onRecv h.app).bind fun app => .done { h with app }
  onSend h n := (ClientApp.onSend h.app n).bind fun app => .done { h with app }
  onClose h s := { h with app := ClientApp.onClose h.app s }
  onInterest h _ on := if h.connecting then h else { h with interest := .ofPending on }

end ClientLink

abbrev ClientSession (A : Type) := Driven (ClientLink A) Socket

/-- How an attempt to connect turns out. -/
inductive Attempt
  | failed (cause : SocketError)
  /-- No poller could be made, or it did not take the socket. -/
  | unwatched (cause : IoError) (socket : Socket)
  | connected (socket : Socket)
  | inProgress (socket : Socket)
  deriving DecidableEq, Repr

structure Client (A : Type) where
  config : ClientConfig
  session : Option (ClientSession A) := none
  /-- The application while there is no session. -/
  parked : Option A
  reconnect : Option Deadline := none
  running : Bool := false
  released : List Socket := []

namespace Client

variable {A : Type}

/-- A client that is not running yet. -/
def new (config : ClientConfig) (app : A) : Client A := { config, parked := some app }

/-- The application, wherever it is. -/
def app? (c : Client A) : Option A :=
  match c.session with
  | some d => some d.handler.app
  | none => c.parked

/-- Is a connection established? -/
def isConnected (c : Client A) : Bool :=
  match c.session with
  | some d => d.isOpen && !d.handler.connecting
  | none => false

/-- Drop a socket, which closes it. -/
def release (c : Client A) (socket : Socket) : Client A :=
  { c with released := c.released ++ [socket.close] }

variable [ClientApp A]

/-! ## Connecting -/

/-- The connect has completed: watch for what there is to do from now on, and tell the
application. -/
def connectCompleted (d : ClientSession A) : ClientSession A :=
  let handler := { d.handler with
    connecting := false
    interest := .ofPending d.session.hasPendingSend }
  (Driven.withHandler { d with handler } fun h =>
    (ClientApp.onConnected h.app).bind fun app => .done ((), { h with app })).2

/-- Make a session for a socket and hand it the application. -/
def attach (c : Client A) (now : Nat) (socket : Socket) (connecting : Bool) :
    Except ReactorError Unit × Client A :=
  match c.parked with
  | none => (.error (.session .internal), c)
  | some app =>
      let handler : ClientLink A := { app, connecting, interest := .ofPending connecting }
      let session := Session.new socket c.config.recvBufferSize c.config.sendBufferSize now
      match Driven.openUp { session, handler } with
      | (.error e, d) =>
          -- the session never was, so the application is parked again
          (.error (.session e),
            release { c with parked := some d.handler.app } d.session.transport)
      | (.ok (), d) =>
          let d := if connecting then d else connectCompleted d
          (.ok (), { c with session := some d, parked := none })

/-- Try to connect. -/
def connect (c : Client A) (now : Nat) (attempt : Attempt) : Except ReactorError Unit × Client A :=
  if c.parked.isNone then (.error (.session .internal), c)
  else
    match attempt with
    | .failed e => (.error (.socket e), c)
    | .unwatched e socket => (.error (.io e), c.release socket)
    | .connected socket => c.attach now socket false
    | .inProgress socket => c.attach now socket true

/-- Begin with the first attempt. If it fails at once, the client does not run. -/
def start (c : Client A) (now : Nat) (attempt : Attempt) : Except ReactorError Unit × Client A :=
  if c.running || c.session.isSome then (.error .alreadyStarted, c)
  else
    match c.connect now attempt with
    | (.error e, c) => (.error e, c)
    | (.ok (), c) => (.ok (), { c with running := true })

/-! ## Losing the connection -/

/-- Close the session, if there is one, and park the application. -/
def teardown (c : Client A) (now : Nat) : Client A :=
  match c.session with
  | none => c
  | some d =>
      let d := Driven.close { d with session := d.session.atTime now }
      release { c with session := none, parked := some d.handler.app } d.session.transport

/-- Try again after the backoff. -/
def scheduleReconnect (c : Client A) (now : Nat) : Client A :=
  { c with reconnect := some (.after now c.config.reconnectBackoff) }

/-- Close the connection and try no more. -/
def stop (c : Client A) (now : Nat) : Client A :=
  teardown { c with running := false, reconnect := none } now

/-! ## One cycle -/

/-- What a session does about its readiness, and whether the client runs on. An error and a hangup
close the session, a hangup once what has arrived on an established connection is received. While
the connect is in progress, write readiness means that it is decided: a pending error tells that it
was rejected. Otherwise the session receives and sends as it is ready to. -/
def react (fuel : Nat) (r : Readiness) (d : ClientSession A) : Option (ClientSession A × Bool) :=
  if !d.isOpen then some (d, true)
  else if r.error then some (d.close, true)
  else if r.hangup then
    let d := if r.readable && !d.handler.connecting then d.readable.2 else d
    some (d.close, true)
  -- the connect is not decided yet
  else if d.handler.connecting && !r.writable then some (d, true)
  else
    let (rejected, d) :=
      if d.handler.connecting then
        let (cause, transport) := d.session.transport.takeError
        let d := { d with session := { d.session with transport } }
        match cause with
        | some _ => (true, d)
        | none => (false, connectCompleted d)
      else (false, d)
    -- a server that refuses is not asked again
    if rejected then some (d.close, false)
    else do
      -- each step may close the session, so the next one asks
      let d := if r.readable && d.isOpen then d.readable.2 else d
      let d ← if r.writable && d.isOpen then (d.writable fuel).map (·.2) else some d
      return (d, true)

/-- Deal with an event of the session. -/
def dispatch (c : Client A) (fuel now : Nat) (r : Readiness) : Option (Client A) :=
  match c.session with
  | none => some c
  | some d => do
      let (d, runsOn) ← react fuel r { d with session := d.session.atTime now }
      return { c with session := some d, running := c.running && runsOn }

/-- Deal with the events of a cycle in their order. -/
def dispatchAll (fuel now : Nat) : List Readiness → Client A → Option (Client A)
  | [], c => some c
  | r :: events, c => do dispatchAll fuel now events (← c.dispatch fuel now r)

/-- Tear down a session that has closed, and schedule another attempt if the client runs on. -/
def checkLost (c : Client A) (now : Nat) : Client A :=
  match c.session with
  | none => c
  | some d =>
      if d.isOpen then c
      else
        let c := c.teardown now
        if c.running then c.scheduleReconnect now else c

/-- Try to connect again if it is time. If that fails, schedule another attempt. -/
def checkReconnect (c : Client A) (now : Nat) (attempt : Attempt) : Client A :=
  match c.reconnect with
  | none => c
  | some deadline =>
      if c.running && deadline.expired now then
        match connect { c with reconnect := none } now attempt with
        | (.ok (), c) => c
        | (.error _, c) => c.scheduleReconnect now
      else c

/-- One cycle: deal with the events, then with a lost connection, then with a reconnect that is due,
which turns out as `attempt` says. The answer is the number of events. Every writable pass may send
`fuel` chunks; if one of them does not get by with this, there is no answer. -/
def cycle (c : Client A) (fuel now : Nat) (events : List Readiness) (attempt : Attempt) :
    Option (Nat × Client A) :=
  if !c.running then some (0, c)
  else do
    let c ← dispatchAll fuel now events c
    return (events.length, (c.checkLost now).checkReconnect now attempt)

/-! ## Calls from outside -/

/-- Make a call on the session, if there is one. -/
def onSession (c : Client A) (now : Nat)
    (call : ClientSession A → Except SessionError Unit × ClientSession A) :
    Except SessionError Unit × Client A :=
  match c.session with
  | none => (.error .notOpen, c)
  | some d =>
      let (answer, d) := call { d with session := d.session.atTime now }
      (answer, { c with session := some d })

/-- Queue bytes, which is possible while the connect is still in progress. -/
def send (c : Client A) (now : Nat) (data : Bytes) : Except SessionError Unit × Client A :=
  c.onSession now (·.queueSend data)

/-- Queue a frame. -/
def sendFrame (c : Client A) (now : Nat) (payload : Bytes) :
    Except SessionError Unit × Client A :=
  c.onSession now (·.sendFrame payload)

end Client
end TcpReactor
