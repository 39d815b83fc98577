import TcpReactor.Client
import TcpReactor.Sim.BufferStep
import TcpReactor.Sim.Network

namespace TcpReactor.Sim

/-! # Clients on a simulated network

A run drives a client by steps: its own calls, and what its server does. The application keeps a log
of its callbacks. The server's end of the current connection becomes a peer when it is accepted; an
older peer is then forgotten. A peer can still read what was sent to it after the client's side is
closed.
-/

open Session (Program)

/-- A call that the application makes when it is connected. -/
abbrev GreetCall := Session.Call

/-- What the application does with the bytes that it gets. -/
inductive AppMode
  /-- Read chunks, and queue them again if `echo` is set. -/
  | raw (echo : Bool)
  /-- Take out frames until there is no whole one. -/
  | frames
  /-- Read nothing. -/
  | hold
  deriving DecidableEq, Repr

/-- What a callback of the application leaves in its log. -/
inductive AppEvent
  | connected (pending : Bool) (answers : List (Except SessionError Unit))
  | recv (length : Nat)
  | data (bytes : Bytes)
  | echo (answer : Except SessionError Unit)
  | pop (reply : PopReply)
  | send (amount : Nat) (pending : Bool)
  | close (phase : Phase)

/-- An application that logs its callbacks, latest first. -/
structure LoggingApp where
  mode : AppMode
  closeOnRecv : Bool := false
  closeWhenSent : Bool := false
  greet : List GreetCall := []
  connects : Nat := 0
  closes : Nat := 0
  log : List AppEvent := []

namespace LoggingApp

def note (a : LoggingApp) (e : AppEvent) : LoggingApp := { a with log := e :: a.log }

/-- How much is read at once. -/
def chunkSize : Nat := 64

/-- Make calls one after the other. -/
def callAll : List GreetCall → Program Socket (List (Except SessionError Unit))
  | [] => .done []
  | c :: calls =>
      .call c fun answer => (callAll calls).bind fun answers => .done (answer :: answers)

/-- Read chunks until the recv buffer refuses, `fuel` of them at most. -/
def readRaw (echo : Bool) : (fuel : Nat) → LoggingApp → Program Socket LoggingApp
  | 0, a => .done a
  | fuel + 1, a =>
      (Program.onRecvBuffer (·.read chunkSize)).bind fun
        | .error _ => .done a
        | .ok data =>
            let a := a.note (.data data)
            if echo then
              .call (.queueSend data) fun answer => readRaw echo fuel (a.note (.echo answer))
            else readRaw echo fuel a

/-- Take out frames until there is no whole one, `fuel` of them at most. -/
def takeFrames : (fuel : Nat) → LoggingApp → Program Socket LoggingApp
  | 0, a => .done a
  | fuel + 1, a =>
      .look fun s =>
        let (reply, recvBuffer) := popFrame s.recvBuffer
        .editRecvBuffer (fun _ => recvBuffer) <|
          let a := a.note (.pop reply)
          match reply with
          | .frame _ => takeFrames fuel a
          | _ => .done a

instance : ClientApp LoggingApp where
  onConnected a :=
    .look fun s =>
      (callAll a.greet).bind fun answers =>
        .done ({ a with connects := a.connects + 1 }.note (.connected s.hasPendingSend answers))
  onRecv a :=
    .look fun s =>
      let fuel := s.recvBuffer.length + 1
      let a := a.note (.recv s.recvBuffer.length)
      let work := match a.mode with
        | .raw echo => readRaw echo fuel a
        | .frames => takeFrames fuel a
        | .hold => .done a
      work.bind fun a => if a.closeOnRecv then .call .close fun _ => .done a else .done a
  onSend a amount :=
    .look fun s =>
      let a := a.note (.send amount s.hasPendingSend)
      if a.closeWhenSent && !s.hasPendingSend then .call .close fun _ => .done a else .done a
  onClose a s := { a with closes := a.closes + 1 }.note (.close s.phase)

end LoggingApp

/-! ## Steps and reports -/

inductive ClientStep
  | start
  | stop
  | poll
  | send (data : Bytes)
  | sendFrame (payload : Bytes)
  | listen
  | accept
  | peerSend (data : Bytes)
  | peerFinish
  | peerReset
  | peerRead
  | takeError
  | greet (calls : List GreetCall)
  | state

inductive ClientReply
  | done
  | nothing
  | count (n : Nat)
  | failed (cause : ReactorError)
  | sessionFailed (cause : SessionError)
  | error (cause : SystemError)
  /-- What has reached the peer since it was last asked, and whether the client's side is closed. -/
  | read (data : Bytes) (ended : Bool)

/-- What is shown of a client's session. -/
structure SessionView where
  phase : Phase
  interest : Bool
  recvLength : Nat
  sendLength : Nat
  connecting : Bool
  /-- How often the application was connected, as its session tells it. -/
  appHere : Nat

structure ClientReport where
  reply : ClientReply
  /-- The log of the application, if it can be found. -/
  log : Option (List AppEvent)
  running : Bool
  connected : Bool
  session : Option SessionView
  connects : Nat
  closes : Nat

/-- The server's end of a connection: what it has been sent, and whether the client's side is
closed. It is live while the client's current session is its other end. -/
structure PeerEnd where
  inbox : Bytes := []
  ended : Bool := false
  live : Bool := true

structure ClientRun where
  client : Client LoggingApp
  peer : Option PeerEnd := none
  reach : Reach
  listening : Bool := true
  now : Nat := 0

namespace ClientRun

/-- Change the application, wherever it is. -/
def updateApp (c : Client LoggingApp) (f : LoggingApp → LoggingApp) : Client LoggingApp :=
  { c with
    parked := c.parked.map f
    session := c.session.map fun d =>
      { d with handler := { d.handler with app := f d.handler.app } } }

/-- Change the socket of the session, if there is one. -/
def updateSocket (c : Client LoggingApp) (f : Socket → Socket) : Client LoggingApp :=
  { c with
    session := c.session.map fun d =>
      { d with session := { d.session with transport := f d.session.transport } } }

/-- How an attempt to connect turns out now. -/
def attempt (run : ClientRun) : Attempt :=
  match openSocket run.reach run.listening run.client.config.address with
  | .error e => .failed e
  | .ok socket => .inProgress socket

/-- The events that a cycle finds. -/
def events (c : Client LoggingApp) : List Readiness :=
  match c.session with
  | none => []
  | some d => (d.session.transport.readiness? d.handler.interest).toList

/-- Carry to the peer what was sent to it. The connection that it belongs to may have been let go of
since; it is then the first of those. What is sent before the server accepts waits on its socket. -/
def deliver (run : ClientRun) : ClientRun :=
  let released := run.client.released
  let run := { run with client := { run.client with released := [] } }
  match run.peer with
  | none => run
  | some p =>
      let hear (socket : Socket) : PeerEnd :=
        { inbox := p.inbox ++ socket.outbound
          ended := !socket.isOpen
          live := released.isEmpty }
      if !p.live then run
      else match released, run.client.session with
        | socket :: _, _ => { run with peer := some (hear socket) }
        | [], some d =>
            { run with
              peer := some (hear d.session.transport)
              client := updateSocket run.client fun s => s.takeOutbound.2 }
        | [], none => run

/-- The server does something to the connection that its peer belongs to. -/
def onPeer (run : ClientRun) (reply : ClientReply) (f : Socket → Socket) :
    Except SimError (ClientReply × ClientRun) :=
  match run.peer with
  | none => .error .noPeer
  | some p =>
      .ok (reply, if p.live then { run with client := updateSocket run.client f } else run)

/-- The answer of a call on the session. -/
def ofSession : Except SessionError Unit → ClientReply
  | .ok () => .done
  | .error e => .sessionFailed e

/-- Take a step. -/
def act (run : ClientRun) : ClientStep → Except SimError (ClientReply × ClientRun)
  | .start =>
      match run.client.start run.now run.attempt with
      | (.ok (), client) => .ok (.done, { run with client })
      | (.error e, client) => .ok (.failed e, { run with client })
  | .stop => .ok (.done, { run with client := run.client.stop run.now })
  | .poll =>
      match run.client.cycle passFuel run.now (events run.client) run.attempt with
      | none => .error .endless
      | some (n, client) => .ok (.count n, { run with client, now := run.now + 1 })
  | .send data =>
      let (answer, client) := run.client.send run.now data
      .ok (ofSession answer, { run with client })
  | .sendFrame payload =>
      let (answer, client) := run.client.sendFrame run.now payload
      .ok (ofSession answer, { run with client })
  | .listen => .ok (.done, { run with listening := true })
  | .accept =>
      match run.client.session with
      | none => .error .noSession
      | some _ => .ok (.done, { run with peer := some {} })
  | .peerSend data => run.onPeer (.count data.length) (·.arrive data)
  | .peerFinish => run.onPeer .done (·.finish)
  | .peerReset => run.onPeer .done (·.breakOff .connectionReset)
  | .peerRead =>
      match run.peer with
      | none => .ok (.nothing, run)
      | some p => .ok (.read p.inbox p.ended, { run with peer := some { p with inbox := [] } })
  | .takeError =>
      match run.client.session with
      | none => .ok (.nothing, run)
      | some d =>
          .ok (match d.session.transport.pendingError with
            | some e => .error e
            | none => .nothing,
            { run with client := updateSocket run.client fun s => s.takeError.2 })
  | .greet calls =>
      .ok (.done, { run with client := updateApp run.client fun a => { a with greet := calls } })
  | .state => .ok (.done, run)

/-- What is shown of a session. -/
def view (d : ClientSession LoggingApp) : SessionView where
  phase := d.session.phase
  interest := d.session.writeInterest
  recvLength := d.session.recvBuffer.length
  sendLength := d.session.sendBuffer.length
  connecting := d.handler.connecting
  appHere := d.handler.app.connects

/-- Take a step and report on it. -/
def step (run : ClientRun) (step : ClientStep) : Except SimError (ClientReport × ClientRun) := do
  let (reply, run) ← act
    { run with client := updateApp run.client fun a => { a with log := [] } } step
  let run := run.deliver
  let app := run.client.app?
  return ({ reply
            log := app.map (·.log.reverse)
            running := run.client.running
            connected := run.client.isConnected
            session := run.client.session.map view
            connects := (app.map (·.connects)).getD 0
            closes := (app.map (·.closes)).getD 0 }, run)

end ClientRun
end TcpReactor.Sim
