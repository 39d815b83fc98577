import TcpReactor.Bytes
import TcpReactor.IoError

namespace TcpReactor

/-! # Transports

A transport carries bytes both ways without waiting: when it cannot go on now, it says so. What a
session knows of its connection is this interface, so everything that holds of a session holds over
every transport.
-/

/-- Why a socket refuses or fails an operation. -/
inductive SocketError
  /-- The socket was closed on this side. -/
  | invalidState
  | connectFailed (cause : IoError)
  | sendFailed (cause : IoError)
  | recvFailed (cause : IoError)
  | optionFailed (cause : IoError)
  deriving DecidableEq, Repr

def SocketError.message : SocketError → String
  | .invalidState => "socket is closed"
  | .connectFailed cause => s!"connect failed: {cause.message}"
  | .sendFailed cause => s!"send failed: {cause.message}"
  | .recvFailed cause => s!"recv failed: {cause.message}"
  | .optionFailed cause => s!"socket option failed: {cause.message}"

/-- What became of one send or receive: an amount moved, or it would have had to wait. -/
inductive Transfer (α : Type) where
  | moved (amount : α)
  | wouldBlock
  deriving DecidableEq, Repr

/-- A byte-stream connection. -/
class Transport (T : Type) where
  /-- Send from the front of the given bytes. The answer says how many were taken. -/
  send : T → Bytes → Except SocketError (Transfer Nat) × T
  /-- Receive up to so many bytes. No bytes at all mean that the peer has closed. -/
  recv : T → Nat → Except SocketError (Transfer Bytes) × T
  isOpen : T → Bool
  close : T → T

end TcpReactor
