import TcpReactor.Server
import TcpReactor.Sim.Network
import TcpReactor.Sim.Probe

namespace TcpReactor.Sim

/-! # Servers on a simulated network

A run drives a server by steps: its own calls, and what its clients do. A cycle finds an event for
the listener if somebody waits there, and one for every connection that has something to report.
After each step the bytes that the server has sent are carried to the clients, and a client whose
connection was closed or dropped sees its end.
-/

/-- A client outside, by the name that the steps call it. -/
structure Remote where
  name : String
  address : Address
  /-- It has finished sending. -/
  finished : Bool := false
  /-- It has reset the connection, or has seen its end. -/
  gone : Bool := false

/-- A call on a connection from outside. -/
inductive ConnCall
  | call (c : Session.Call)
  | pop
  | takeError
  | info
  deriving DecidableEq, Repr

inductive ServerStep
  | start
  | stop
  | run
  | free
  | state
  | connect (name : String)
  | send (name : String) (data : Bytes)
  | finish (name : String)
  | reset (name : String)
  | poll
  | drain
  | lookUp (id : ConnId)
  | conn (id : ConnId) (call : ConnCall)

inductive ServerReply
  | done
  | nothing
  /-- The client is not there any more. -/
  | gone
  | count (n : Nat)
  | counts (ns : List Nat)
  | phase (phase : Phase)
  | failed (cause : ReactorError)
  | sessionFailed (cause : SessionError)
  | pop (reply : PopReply)
  | error (cause : SystemError)
  | info (value : Option Nat)

/-- What is shown of a connection. -/
structure ConnView where
  id : ConnId
  client : Option String
  phase : Phase
  recvLength : Nat
  sendLength : Nat
  interest : Bool
  info : Option Nat

/-- What is shown after a step. The items of `delivered` belong to one cycle each, except that all
steps but `drain` have one item for the whole step. -/
structure ServerReport where
  reply : ServerReply
  delivered : List (String × List Bytes)
  closed : List String
  journal : List (Nat × ProbeEvent)
  running : Bool
  listening : Bool
  count : Nat
  conns : List ConnView

/-- What a run shows of a protocol. -/
class Shown (P W : Type) where
  info : P → Option Nat := fun _ => none
  journal : W → List (Nat × ProbeEvent) := fun _ => []
  clearJournal : W → W := id

instance : Shown Echo Unit where info e := some e.echoed
instance : Shown FrameEcho Unit where info e := some e.frames
instance : Shown HttpService Http.Limits where
instance : Shown Probe ProbeShared where
  journal w := w.journal.reverse
  clearJournal w := { w with journal := [] }

/-- A server, the clients in the order in which they connected, and the network between them. -/
structure ServerRun (P W : Type) where
  server : Server P W
  remotes : List Remote := []
  reach : Reach
  /-- Another listener has the address. -/
  busy : Bool := false
  now : Nat := 0
  /-- What has reached the clients in this step, and which of them have seen their end. -/
  delivered : List (String × List Bytes) := []
  closed : List String := []

namespace ServerRun

variable {P W : Type} [Protocol P W] [Shown P W]

/-! ## Sockets of the server, by their peers -/

/-- Change the socket of a peer, wherever the server has it. -/
def updateSocket (s : Server P W) (peer : Address) (f : Socket → Socket) : Server P W :=
  let update (socket : Socket) : Socket := if socket.peer = peer then f socket else socket
  { s with
    connections := s.connections.map fun c =>
      { c with session := { c.session with transport := update c.session.transport } }
    listener := s.listener.map fun l => { l with pending := l.pending.map (·.map update) }
    released := s.released.map update }

/-- The socket of a peer, wherever the server has it. -/
def socket? (s : Server P W) (peer : Address) : Option Socket :=
  let kept := s.connections.toList.map fun (_, c) => c.session.transport
  let waiting := (s.listener.map (·.pending)).getD [] |>.filterMap Except.toOption
  (s.released ++ kept ++ waiting).find? (·.peer = peer)

/-- Carry what the server has sent to a client, and show it its end. -/
def deliverTo (run : ServerRun P W) (remote : Remote) : ServerRun P W :=
  if remote.gone then run
  else
    match socket? run.server remote.address with
    | none => run
    | some socket =>
        let delivered :=
          if socket.outbound.isEmpty then run.delivered
          else add remote.name socket.outbound run.delivered
        { run with
          server := updateSocket run.server remote.address fun s => s.takeOutbound.2
          delivered
          closed := if socket.isOpen then run.closed else run.closed ++ [remote.name] }
where
  /-- One more item for a client. -/
  add (name : String) (item : Bytes) : List (String × List Bytes) → List (String × List Bytes)
    | [] => [(name, [item])]
    | (n, got) :: rest =>
        if n = name then (n, got ++ [item]) :: rest else (n, got) :: add name item rest

/-- Carry everything to the clients. -/
def deliver (run : ServerRun P W) : ServerRun P W :=
  let run := run.remotes.foldl deliverTo run
  { run with
    remotes := run.remotes.map fun r => { r with gone := r.gone || run.closed.contains r.name }
    server := { run.server with released := [] } }

/-! ## Steps -/

/-- The events that a cycle finds. -/
def events (s : Server P W) : List Event :=
  let accepting := if s.waiting = 0 then [] else [⟨ConnId.listenerKey, { readable := true }⟩]
  accepting ++ s.connections.toList.filterMap fun (_, c) =>
    (c.session.transport.readiness? c.link.interest).map fun r => ⟨c.link.id.toKey, r⟩

/-- One cycle. Its look for idle connections comes a moment after its events. -/
def cycle (run : ServerRun P W) : Except SimError (Nat × ServerRun P W) :=
  let batch : Batch := { events := events run.server, now := run.now, sweepAt := run.now + 1 }
  match run.server.cycle passFuel batch with
  | none => .error .endless
  | some (n, server) => .ok (n, deliver { run with server, now := run.now + 2 })

/-- Cycles until one finds nothing to do, `fuel` of them at most. -/
def drain : (fuel : Nat) → ServerRun P W → Except SimError (List Nat × ServerRun P W)
  | 0, _ => .error .endless
  | fuel + 1, run => do
      let (n, run) ← run.cycle
      if n = 0 then return ([0], run)
      let (ns, run) ← drain fuel run
      return (n :: ns, run)

/-- The most cycles of a `drain`. -/
def drainFuel : Nat := 100000

/-- Start the server; the address may be taken. -/
def start (run : ServerRun P W) : ServerReply × ServerRun P W :=
  let bound := if run.busy then .error (.system .addressInUse) else .ok ()
  match run.server.start bound with
  | (.ok (), server) => (.done, { run with server })
  | (.error e, server) => (.failed e, { run with server })

/-- A client connects. -/
def connect (run : ServerRun P W) (name : String) : Except SimError (ServerRun P W) :=
  match run.reach, run.server.listener with
  | .cutOff, _ => .error (.connect .networkUnreachable)
  | .connected, none => .error (.connect .connectionRefused)
  | .connected, some listener =>
      let address := Address.loopback (40000 + run.remotes.length)
      .ok { run with
        remotes := run.remotes ++ [{ name, address }]
        server := { run.server with listener := some (listener.enqueue { peer := address }) } }

/-- A client does something to its connection, unless it is past that. -/
def onRemote (run : ServerRun P W) (name : String) (sending : Bool) (reply : ServerReply)
    (mark : Remote → Remote) (f : Socket → Socket) :
    Except SimError (ServerReply × ServerRun P W) :=
  match run.remotes.find? (·.name = name) with
  | none => .error .noPeer
  | some remote =>
      if remote.gone || (sending && remote.finished) then .ok (.gone, run)
      else .ok (reply, { run with
        remotes := run.remotes.map fun r => if r.name = name then mark r else r
        server := updateSocket run.server remote.address f })

/-- A call on a connection as a program. -/
def ConnCall.program : ConnCall → Session.Program Socket ServerReply
  | .call c => .call c fun
      | .ok () => .done .done
      | .error e => .done (.sessionFailed e)
  | .pop => Probe.takeFrame.bind fun reply => .done (.pop reply)
  | .takeError =>
      .look fun s =>
        .editTransport (fun t => t.takeError.2) <|
          .done (match s.transport.pendingError with
            | some e => .error e
            | none => .nothing)
  | .info => .done .nothing

/-- Make a call on a connection. -/
def callConn (run : ServerRun P W) (id : ConnId) (call : ConnCall) :
    Except SimError (ServerReply × ServerRun P W) :=
  match run.server.connection? id, call with
  | none, _ => .ok (.nothing, run)
  | some c, .info => .ok (.info (Shown.info W c.link.protocol), run)
  | some _, call =>
      match run.server.exec passFuel run.now id (ConnCall.program call) with
      | none => .error .endless
      | some (reply, server) => .ok (reply.getD .nothing, { run with server, now := run.now + 1 })

/-- Take a step. -/
def act (run : ServerRun P W) : ServerStep → Except SimError (ServerReply × ServerRun P W)
  | .start => .ok run.start
  | .run => .ok run.start
  | .stop => .ok (.done, { run with server := run.server.stop run.now })
  | .free => .ok (.done, { run with busy := false })
  | .state => .ok (.done, run)
  | .connect name => do return (.done, ← run.connect name)
  | .send name data => run.onRemote name true (.count data.length) id (·.arrive data)
  | .finish name => run.onRemote name true .done ({ · with finished := true }) (·.finish)
  | .reset name => run.onRemote name false .done ({ · with gone := true })
      (·.breakOff .connectionReset)
  | .poll => do
      let (n, run) ← run.cycle
      return (.count n, run)
  | .drain => do
      let (ns, run) ← drain drainFuel run
      return (.counts ns, run)
  | .lookUp id =>
      .ok (match run.server.connection? id with
        | some c => .phase c.session.phase
        | none => .nothing, run)
  | .conn id call => run.callConn id call

/-- What is shown of a connection. -/
def view (run : ServerRun P W) (c : Connection P) : ConnView where
  id := c.link.id
  client := (run.remotes.find? (·.address = c.link.peer)).map (·.name)
  phase := c.session.phase
  recvLength := c.session.recvBuffer.length
  sendLength := c.session.sendBuffer.length
  interest := c.session.writeInterest
  info := Shown.info W c.link.protocol

/-- Take a step and report on it. -/
def step (run : ServerRun P W) (step : ServerStep) :
    Except SimError (ServerReport × ServerRun P W) := do
  let server := { run.server with shared := Shown.clearJournal P run.server.shared }
  let (reply, run) ← act { run with server, delivered := [], closed := [] } step
  let run := run.deliver
  return ({ reply
            delivered := run.delivered
            closed := (run.remotes.map (·.name)).filter run.closed.contains
            journal := Shown.journal P run.server.shared
            running := run.server.running
            listening := run.server.localAddress?.isSome
            count := run.server.connectionCount
            conns := run.server.connections.toList.map fun (_, c) => run.view c }, run)

end ServerRun
end TcpReactor.Sim
