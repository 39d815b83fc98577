import TcpReactor.Service.Echo
import TcpReactor.Service.FrameEcho
import TcpReactor.Service.HttpService
import TcpReactor.Socket

namespace TcpReactor

/-! # Protocols of a server

A protocol says what a server does on its connections. Each connection has a state of its own, of
type `P`, which is made when the connection is accepted; all connections share one more state, of
type `W`, which every callback may read and change.
-/

open Session (Program)

class Protocol (P W : Type) where
  /-- The state of a new connection with the given peer. -/
  accept : W → Address → P × W
  /-- Bytes were appended to the recv buffer. -/
  onRecv : P → W → Program Socket (P × W)
  /-- So many bytes left the send buffer. -/
  onSend : P → W → Nat → Program Socket (P × W) := fun p w _ => .done (p, w)
  /-- The session has closed. -/
  onClose : P → W → Session Socket → P × W := fun p w _ => (p, w)

/-- A protocol from a handler that needs no shared state but what new connections start from. -/
@[reducible] def Protocol.ofHandler {P W : Type} [Handler Socket P] (start : W → P) :
    Protocol P W where
  accept w _ := (start w, w)
  onRecv p w := (Handler.onRecv p).bind fun p => .done (p, w)
  onSend p w n := (Handler.onSend p n).bind fun p => .done (p, w)
  onClose p w s := (Handler.onClose p s, w)

instance : Protocol Echo Unit := .ofHandler fun _ => {}

instance : Protocol FrameEcho Unit := .ofHandler fun _ => {}

/-- The connections of the HTTP service share the limits of their parsers. -/
instance : Protocol HttpService Http.Limits := .ofHandler HttpService.ofLimits

end TcpReactor
