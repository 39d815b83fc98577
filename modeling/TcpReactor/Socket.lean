import TcpReactor.Address
import TcpReactor.Transport

namespace TcpReactor

/-! # Sockets

A socket is one end of a TCP connection together with what the network has brought to it: bytes that
wait to be read, the end of the peer's stream, or a reset. Bytes that are sent wait in `outbound`
for whoever carries them to the peer. They are taken at once, unless a `window` says how many are
taken until more has been carried off.

A reset leaves an error on the socket. The first operation that has to look at it reports and clears
it; afterwards what was queued can still be read, then the stream ends, and sending fails.
-/

structure Socket where
  peer : Address
  isOpen : Bool := true
  blocking : Bool := false
  /-- Bytes that have arrived and were not read yet. -/
  inbound : Bytes := []
  /-- The peer has finished sending. -/
  ended : Bool := false
  /-- An error that nobody has seen yet. -/
  pendingError : Option SystemError := none
  /-- The connection was reset, or never came about. -/
  broken : Bool := false
  /-- Bytes that were sent and not carried off yet. -/
  outbound : Bytes := []
  /-- How many more bytes are taken before sending has to wait. -/
  window : Option Nat := none
  /-- Will a poller take the socket? -/
  watchable : Bool := true
  deriving DecidableEq, Repr

namespace Socket

/-! ## What the owner does -/

/-- Send: as much is taken as there is room for, unless the connection is broken. -/
def send (s : Socket) (data : Bytes) : Except SocketError (Transfer Nat) × Socket :=
  if !s.isOpen then (.error .invalidState, s)
  else
    match s.pendingError with
    | some e => (.error (.sendFailed (.system e)), { s with pendingError := none })
    | none =>
        if s.broken then (.error (.sendFailed (.system .brokenPipe)), s)
        else
          match s.window with
          | none => (.ok (.moved data.length), { s with outbound := s.outbound ++ data })
          | some 0 => (.ok .wouldBlock, s)
          | some (room + 1) =>
              let taken := data.take (room + 1)
              (.ok (.moved taken.length), { s with
                outbound := s.outbound ++ taken
                window := some (room + 1 - taken.length) })

/-- Receive up to `limit` bytes. -/
def recv (s : Socket) (limit : Nat) : Except SocketError (Transfer Bytes) × Socket :=
  if !s.isOpen then (.error .invalidState, s)
  -- what has arrived is read before an error is noticed
  else if !s.inbound.isEmpty then
    (.ok (.moved (s.inbound.take limit)), { s with inbound := s.inbound.drop limit })
  else
    match s.pendingError with
    | some e => (.error (.recvFailed (.system e)), { s with pendingError := none })
    | none => if s.ended || s.broken then (.ok (.moved []), s) else (.ok .wouldBlock, s)

/-- Shut the connection down. What the peer still sends is of no use any more. -/
def close (s : Socket) : Socket := { s with isOpen := false }

instance : Transport Socket where
  send := send
  recv := recv
  isOpen := (·.isOpen)
  close := close

def setBlocking (s : Socket) (blocking : Bool) : Except SocketError Socket :=
  if s.isOpen then .ok { s with blocking } else .error .invalidState

/-- The pending error, which is pending no longer. -/
def takeError (s : Socket) : Option SystemError × Socket :=
  (s.pendingError, { s with pendingError := none })

/-! ## What the network does -/

/-- Bytes arrive. -/
def arrive (s : Socket) (data : Bytes) : Socket := { s with inbound := s.inbound ++ data }

/-- The peer's stream ends. -/
def finish (s : Socket) : Socket := { s with ended := true }

/-- The connection breaks. -/
def breakOff (s : Socket) (cause : SystemError) : Socket :=
  { s with pendingError := some cause, broken := true }

/-- Carry off the bytes that were sent. -/
def takeOutbound (s : Socket) : Bytes × Socket := (s.outbound, { s with outbound := [] })

end Socket

/-! ## Readiness -/

/-- What the owner of a socket wants to hear of. Read readiness is always wanted. -/
inductive Interest
  | readable
  | both
  deriving DecidableEq, Repr

/-- The interest of an owner that has something to send, or nothing. -/
def Interest.ofPending (pending : Bool) : Interest := if pending then .both else .readable

/-- What a poller reports of one socket. -/
structure Readiness where
  readable : Bool := false
  writable : Bool := false
  /-- An error is pending on the socket. -/
  error : Bool := false
  /-- Both directions of the connection are shut. -/
  hangup : Bool := false
  deriving DecidableEq, Repr

/-- What there is to report of a socket, if anything. -/
def Socket.readiness? (s : Socket) (interest : Interest) : Option Readiness :=
  if s.pendingError.isSome then
    some { readable := true, writable := true, error := true, hangup := true }
  else if !s.isOpen || s.broken then some { readable := true, writable := true, hangup := true }
  else
    let readable := !s.inbound.isEmpty || s.ended
    let writable := interest = .both ∧ s.window ≠ some 0
    if readable || writable then some { readable, writable } else none

end TcpReactor
