import TcpReactor.Session.Driven

namespace TcpReactor

/-! # Echo

Every received byte is sent back. What does not fit in the send buffer stays in the recv buffer and
follows as the send buffer drains.
-/

/-- The number of bytes sent back so far. -/
structure Echo where
  echoed : Nat := 0
  deriving DecidableEq, Repr

namespace Echo

open Session (Program)

variable {T : Type} [Transport T]

/-- The most that is moved at once. -/
def chunkSize : Nat := 4096

/-- Move chunks from the recv buffer to the send buffer while the session is open and both allow
it, `fuel` of them at most. -/
def pump : (fuel : Nat) → Echo → Program T Echo
  | 0, e => .done e
  | fuel + 1, e =>
      .look fun s =>
        let room := min s.sendBuffer.freeSpace chunkSize
        -- what finds no room waits in the recv buffer
        if !s.isOpen || room = 0 then .done e
        else
          match s.recvBuffer.read room with
          | .error _ => .done e
          | .ok (data, recvBuffer) =>
              .editRecvBuffer (fun _ => recvBuffer) <|
                (Program.queueOrClose data).bind fun queued =>
                  if queued then pump fuel { echoed := e.echoed + data.length } else .done e

/-- Move all that can be moved. Every chunk has at least one byte. -/
def pumpAll (e : Echo) : Program T Echo := .look fun s => pump (s.recvBuffer.length + 1) e

instance : Handler T Echo where
  onRecv e := e.pumpAll
  onSend e _ := e.pumpAll

end Echo
end TcpReactor
