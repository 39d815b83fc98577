import TcpReactor.Socket

namespace TcpReactor.Sim

/-! # Simulated networks

A simulated network connects sockets of this host with peers outside. It loses nothing and keeps
everything in order, and what one side does has reached the other before the next step begins. On a
host that is cut off, every attempt to connect fails at once; listening is still possible.
-/

/-- Can connections be made at all? -/
inductive Reach
  | connected
  | cutOff
  deriving DecidableEq, Repr

/-- Why a simulation cannot go on. -/
inductive SimError
  /-- A peer cannot connect. -/
  | connect (cause : SystemError)
  /-- There is no session that a peer could belong to. -/
  | noSession
  /-- There is no peer of this name. -/
  | noPeer
  /-- A writable pass would not end within its fuel. -/
  | endless
  deriving DecidableEq, Repr

def SimError.message : SimError → String
  | .connect cause => (IoError.system cause).message
  | .noSession => "no session"
  | .noPeer => "no peer"
  | .endless => "endless pass"

/-- The chunks that one writable pass of a simulation may send. -/
def passFuel : Nat := 0x1000000

/-- A socket that connects to `address`: whether there is one depends on the reach of the network,
and a peer that does not listen leaves an error on it. -/
def openSocket (reach : Reach) (listening : Bool) (address : Address) :
    Except SocketError Socket :=
  match reach with
  | .cutOff => .error (.connectFailed (.system .networkUnreachable))
  | .connected =>
      let socket : Socket := { peer := address }
      .ok (if listening then socket else socket.breakOff .connectionRefused)

end TcpReactor.Sim
