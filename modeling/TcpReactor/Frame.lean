import TcpReactor.StreamBuffer

namespace TcpReactor

/-! # Length-prefixed frames

A frame is a payload behind its length, which is written as four bytes, most significant first.
`encode` writes one frame and `pop` takes the first whole frame out of a stream buffer; as long as
the frame is incomplete the buffer stays as it is, so the rest may arrive in any pieces.
-/

namespace Frame

/-- How many bytes the length takes. -/
def headerSize : Nat := 4

/-- The longest payload in either direction. -/
def maxPayload : Nat := 0x100000

end Frame

/-- Why a frame cannot be written or read. -/
inductive FrameError
  /-- The payload has, or is declared to have, this many bytes, which are too many. -/
  | overflow (length : Nat)
  | buffer (cause : BufferError)
  deriving DecidableEq, Repr

def FrameError.message : FrameError → String
  | .overflow length => s!"frame payload of {length} bytes exceeds {Frame.maxPayload}"
  | .buffer cause => s!"buffer error: {cause.message}"

namespace Frame

/-- The header of a frame whose payload has `length` bytes. -/
def header (length : Nat) : Except FrameError Bytes :=
  if maxPayload < length then .error (.overflow length) else .ok (beWord length)

/-- One frame. -/
def encode (payload : Bytes) : Except FrameError Bytes := do
  return (← header payload.length) ++ payload

/-- One frame behind the bytes that are already in `out`. -/
def encodeInto (payload out : Bytes) : Except FrameError Bytes := do
  return out ++ (← encode payload)

/-- Run a buffer operation on behalf of the frame codec. -/
def onBuffer {α : Type} (result : Except BufferError α) : Except FrameError α :=
  result.mapError .buffer

/-- Take the first frame out of `b`: its payload and what the buffer is then. The answer `none`
means that more bytes are needed. A frame that declares too long a payload is an error, and stays
where it is. -/
def pop (b : StreamBuffer) : Except FrameError (Option (Bytes × StreamBuffer)) := do
  -- not even the length is there
  if b.length < headerSize then return none
  let length := ofBeWord (← onBuffer (b.peek headerSize))
  if maxPayload < length then throw (.overflow length)
  -- nothing is taken out before the payload is complete
  if b.length < headerSize + length then return none
  let body ← onBuffer (b.consume headerSize)
  if length = 0 then return some ([], body)
  let (payload, rest) ← onBuffer (body.read length)
  if payload.length ≠ length then throw (.buffer .internal)
  return some (payload, rest)

end Frame
end TcpReactor
