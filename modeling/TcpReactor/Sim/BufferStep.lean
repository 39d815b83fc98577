import TcpReactor.Frame

namespace TcpReactor.Sim

/-! # Single steps on a stream buffer

A step is one operation of a stream buffer as a value, so that buffers can be driven by lists of
steps, alone or inside a session. Steps that read bring a destination of their own, filled with
`filler`, and show all of it afterwards.
-/

inductive BufferStep
  | openUp
  | reset
  | close
  | consume (n : Nat)
  | read (n : Nat)
  | peek (n : Nat)
  | write (src : Bytes)
  | slices
  deriving DecidableEq, Repr

/-- What a step answers. -/
inductive BufferReply
  | done
  | refused (cause : BufferError)
  | written (n : Nat)
  /-- So many bytes were copied, and the destination is then this. -/
  | copied (n : Nat) (dst : Bytes)
  | slices (head tail : Bytes)
  deriving DecidableEq, Repr

/-- The byte that destinations are filled with. -/
def filler : UInt8 := 0xEE

/-- A destination of `n` bytes after `data` was copied to it. -/
def copiedTo (n : Nat) (data : Bytes) : BufferReply :=
  .copied data.length (overlay data (.replicate n filler))

/-- Take a step: its answer and the buffer then. -/
def BufferStep.apply (b : StreamBuffer) : BufferStep → BufferReply × StreamBuffer
  | .openUp => update b.openUp
  | .reset => update b.reset
  | .close => (.done, b.close)
  | .consume n => update (b.consume n)
  | .read n =>
      match b.read n with
      | .ok (data, b) => (copiedTo n data, b)
      | .error e => (.refused e, b)
  | .peek n =>
      match b.peek n with
      | .ok data => (copiedTo n data, b)
      | .error e => (.refused e, b)
  | .write src =>
      match b.write src with
      | .ok b => (.written src.length, b)
      | .error e => (.refused e, b)
  | .slices =>
      match b.slices with
      | .ok (head, tail) => (.slices head tail, b)
      | .error e => (.refused e, b)
where
  /-- The answer of an operation that gives nothing but the new buffer. -/
  update : Except BufferError StreamBuffer → BufferReply × StreamBuffer
    | .ok b => (.done, b)
    | .error e => (.refused e, b)

/-- What comes of taking a frame out of a buffer. -/
inductive PopReply
  | frame (payload : Bytes)
  | incomplete
  | failed (cause : FrameError)
  deriving DecidableEq, Repr

/-- Take a frame out of a buffer, if a whole one is there. -/
def popFrame (b : StreamBuffer) : PopReply × StreamBuffer :=
  match Frame.pop b with
  | .ok (some (payload, b)) => (.frame payload, b)
  | .ok none => (.incomplete, b)
  | .error e => (.failed e, b)

end TcpReactor.Sim
