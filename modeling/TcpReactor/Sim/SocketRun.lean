import TcpReactor.Listener
import TcpReactor.Sim.Network

namespace TcpReactor.Sim

/-! # Sockets and listeners on a simulated network

Here a single socket faces a peer, and a single listener faces clients that come one after the
other.
-/

/-! ## A socket and its peer -/

inductive SocketStep
  | send (data : Bytes)
  | recv (n : Nat)
  | close
  | setBlocking (blocking : Bool)
  | takeError
  | peerAddress
  | peerSend (data : Bytes)
  | peerFinish
  | peerReset
  | peerRead
  deriving DecidableEq, Repr

inductive SocketReply
  | done
  | nothing
  | wouldBlock
  | failed (cause : SocketError)
  | count (n : Nat)
  /-- What was received into a destination of `size` bytes. -/
  | received (size : Nat) (data : Except SocketError (Transfer Bytes))
  | error (cause : SystemError)
  | flag (value : Bool)
  /-- What has reached the peer since it was last asked, and whether this side is closed. -/
  | read (data : Bytes) (ended : Bool)

/-- Take a step: its answer, and the socket then. -/
def SocketStep.apply (address : Address) (s : Socket) : SocketStep → SocketReply × Socket
  | .send data =>
      match s.send data with
      | (.ok (.moved n), s) => (.count n, s)
      | (.ok .wouldBlock, s) => (.wouldBlock, s)
      | (.error e, s) => (.failed e, s)
  | .recv n =>
      let (data, s) := s.recv n
      (.received n data, s)
  | .close => (.done, s.close)
  | .setBlocking blocking =>
      match s.setBlocking blocking with
      | .ok s => (.done, s)
      | .error e => (.failed e, s)
  | .takeError =>
      match s.takeError with
      | (some e, s) => (.error e, s)
      | (none, s) => (.nothing, s)
  | .peerAddress => (.flag (s.peer = address), s)
  | .peerSend data => (.count data.length, s.arrive data)
  | .peerFinish => (.done, s.finish)
  | .peerReset => (.done, s.breakOff .connectionReset)
  | .peerRead =>
      let (data, s) := s.takeOutbound
      (.read data (!s.isOpen), s)

/-- How a socket is connected. One that may wait is connected or refused when the call returns. -/
inductive ConnectReply
  | connected (socket : Socket)
  | inProgress (socket : Socket)
  | failed (cause : SocketError)

def connectSocket (reach : Reach) (listening nonBlocking : Bool) (address : Address) :
    ConnectReply :=
  match openSocket reach listening address with
  | .error e => .failed e
  | .ok socket =>
      if nonBlocking then .inProgress socket
      else
        match socket.pendingError with
        | some e => .failed (.connectFailed (.system e))
        | none => .connected { socket with blocking := true }

/-! ## A listener and its clients -/

inductive ListenerStep
  | connect
  | accept
  | localAddress
  | descriptor
  | close
  | openAgain
  deriving DecidableEq, Repr

inductive ListenerReply
  | done
  | nothing
  | failed (cause : ListenerError)
  /-- The client of this number was accepted; receiving from it answers so. -/
  | accepted (client : Nat) (recv : Except SocketError (Transfer Bytes))
  | sameAddress
  /-- Can the descriptor be borrowed? -/
  | descriptor (available : Bool)

structure ListenerRun where
  listener : Listener
  clients : Nat := 0
  reach : Reach

namespace ListenerRun

/-- The number of the first client; each client has the next one. -/
def firstClient : Nat := 40000

/-- Take a step. -/
def step (run : ListenerRun) : ListenerStep → Except SimError (ListenerReply × ListenerRun)
  | .connect =>
      match run.reach with
      | .cutOff => .error (.connect .networkUnreachable)
      | .connected =>
          if run.listener.isOpen then
            let socket : Socket := { peer := .loopback (firstClient + run.clients) }
            .ok (.done, { run with
              clients := run.clients + 1, listener := run.listener.enqueue socket })
          else .error (.connect .connectionRefused)
  | .accept =>
      match run.listener.accept with
      | (.error e, listener) => .ok (.failed e, { run with listener })
      | (.ok none, listener) => .ok (.nothing, { run with listener })
      | (.ok (some socket), listener) =>
          let client := match socket.peer with
            | .v4 _ number => number - firstClient
            | .v6 _ _ number => number - firstClient
          .ok (.accepted client (socket.recv 1).1, { run with listener })
  | .localAddress =>
      .ok (match run.listener.localAddress with
        | .ok _ => .sameAddress
        | .error e => .failed e, run)
  | .descriptor => .ok (.descriptor run.listener.isOpen, run)
  | .close => .ok (.done, { run with listener := run.listener.close })
  | .openAgain =>
      let bound := if run.listener.isOpen then .error (.system .addressInUse) else .ok ()
      .ok (match Listener.openOn run.listener.address bound with
        | .ok _ => .done
        | .error e => .failed e, run)

end ListenerRun
end TcpReactor.Sim
