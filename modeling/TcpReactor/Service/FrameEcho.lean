import TcpReactor.Session.Driven

namespace TcpReactor

/-! # Frame echo

Every frame is sent back as it came. A frame that is too long, and one for which there is no room,
ends the connection.
-/

/-- The number of frames sent back so far. -/
structure FrameEcho where
  frames : Nat := 0
  deriving DecidableEq, Repr

namespace FrameEcho

open Session (Program)

variable {T : Type} [Transport T]

/-- Send back the whole frames in the recv buffer, `fuel` of them at most. -/
def answer : (fuel : Nat) → FrameEcho → Program T FrameEcho
  | 0, e => .done e
  | fuel + 1, e =>
      .look fun s =>
        match Frame.pop s.recvBuffer with
        | .error _ => .call .close fun _ => .done e
        | .ok none => .done e
        | .ok (some (payload, recvBuffer)) =>
            .editRecvBuffer (fun _ => recvBuffer) <|
              .call (.sendFrame payload) fun
                | .error _ => .call .close fun _ => .done e
                | .ok () => answer fuel { frames := e.frames + 1 }

instance : Handler T FrameEcho where
  onRecv e := .look fun s => answer (s.recvBuffer.length + 1) e

end FrameEcho
end TcpReactor
