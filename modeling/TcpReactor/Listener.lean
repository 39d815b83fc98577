import TcpReactor.Socket

namespace TcpReactor

/-! # Listening sockets

A listener holds the connections that have come in and were not accepted yet, in the order in which
they came. An entry of this queue may also be a failure to accept.
-/

/-- Why a listener cannot be opened or used. -/
inductive ListenerError
  | openFailed (address : Address) (cause : IoError)
  | acceptFailed (cause : IoError)
  | invalidState
  deriving DecidableEq, Repr

def ListenerError.message : ListenerError → String
  | .openFailed address cause => s!"failed to listen on {address.toString}: {cause.message}"
  | .acceptFailed cause => s!"accept failed: {cause.message}"
  | .invalidState => "listener is closed"

structure Listener where
  address : Address
  isOpen : Bool := true
  pending : List (Except IoError Socket) := []

namespace Listener

/-- Listen on an address, if the system lets us. -/
def openOn (address : Address) (bound : Except IoError Unit) : Except ListenerError Listener :=
  match bound with
  | .ok () => .ok { address }
  | .error cause => .error (.openFailed address cause)

/-- Accept the connection that has waited longest, if there is one. -/
def accept (l : Listener) : Except ListenerError (Option Socket) × Listener :=
  if !l.isOpen then (.error .invalidState, l)
  else
    match l.pending with
    | [] => (.ok none, l)
    | .ok socket :: pending => (.ok (some { socket with blocking := false }), { l with pending })
    | .error cause :: pending => (.error (.acceptFailed cause), { l with pending })

def localAddress (l : Listener) : Except ListenerError Address :=
  if l.isOpen then .ok l.address else .error .invalidState

/-- Stop listening. Whoever waits is turned away. -/
def close (l : Listener) : Listener := { l with isOpen := false, pending := [] }

/-- Another connection comes in. -/
def enqueue (l : Listener) (socket : Socket) : Listener :=
  { l with pending := l.pending ++ [.ok socket] }

end Listener
end TcpReactor
