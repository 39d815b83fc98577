import TcpReactor.Listener
import TcpReactor.Session.Basic

namespace TcpReactor

/-! # Errors of the reactors

A reactor fails only when it starts or waits for events. What goes wrong on one connection is dealt
with there and never appears here.
-/

inductive ReactorError
  | alreadyStarted
  | io (cause : IoError)
  | socket (cause : SocketError)
  | listener (cause : ListenerError)
  | session (cause : SessionError)
  deriving DecidableEq, Repr

def ReactorError.message : ReactorError → String
  | .alreadyStarted => "reactor is already started"
  | .io cause => s!"I/O error: {cause.message}"
  | .socket cause => cause.message
  | .listener cause => cause.message
  | .session cause => cause.message

end TcpReactor
