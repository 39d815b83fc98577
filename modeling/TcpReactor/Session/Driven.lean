import TcpReactor.Session.Program

namespace TcpReactor

/-! # Sessions and their handlers

A handler is told when bytes arrive, when bytes leave, when the session closes, and when the send
buffer goes from empty to non-empty or back. While it deals with one of these its session tells it
nothing; a close and a change of the send buffer that happened meanwhile are made up for when it is
done (`settle`).

The operations below are the calls on a session from outside. Only a writable pass can go on without
end, since a handler may queue again whatever leaves. It takes the number of chunks that may be sent
and answers `none` if they do not suffice.
-/

/-- What a handler of type `H` does when its session, over a transport of type `T`, tells it
something. In the first two cases it may use the session, in the others it may only look. -/
class Handler (T H : Type) where
  /-- Bytes were appended to the recv buffer. -/
  onRecv : H → Session.Program T H := fun h => .done h
  /-- So many bytes left the send buffer. -/
  onSend : H → Nat → Session.Program T H := fun h _ => .done h
  /-- The session has closed. -/
  onClose : H → Session T → H := fun h _ => h
  /-- The send buffer went from empty to non-empty, or back. -/
  onInterest : H → Session T → Bool → H := fun h _ _ => h

/-- A session with its handler. -/
structure Driven (H T : Type) where
  session : Session T
  handler : H

namespace Driven

variable {H T : Type} [Transport T] [Handler T H]

/-! ## Notifications -/

/-- Tell the handler if the send buffer has become empty or non-empty since it was told last. -/
def syncInterest (d : Driven H T) : Driven H T :=
  let wanted := d.session.hasPendingSend
  if d.session.phase = .opened ∧ wanted ≠ d.session.writeInterest then
    let session := { d.session with writeInterest := wanted }
    { session, handler := Handler.onInterest d.handler session wanted }
  else d

/-- Make up for what happened while the handler was busy. -/
def settle (d : Driven H T) : Driven H T :=
  if d.session.closePending then
    -- the session may be open again by now, so its interest is looked at as well
    let session := { d.session with closePending := false }
    syncInterest { session, handler := Handler.onClose d.handler session }
  else d.syncInterest

/-- Let the handler run a program on its session. -/
def withHandler {α : Type} (d : Driven H T) (f : H → Session.Program T (α × H)) :
    α × Driven H T :=
  let ((a, handler), session) := (f d.handler).run d.session
  (a, settle { session, handler })

/-- Tell the handler something that it may answer by using the session. -/
def notify (d : Driven H T) (f : H → Session.Program T H) : Driven H T :=
  let (handler, session) := (f d.handler).run d.session
  settle { session, handler }

/-! ## Calls -/

def isOpen (d : Driven H T) : Bool := d.session.isOpen

/-- Open the session. Nobody is told. -/
def openUp (d : Driven H T) : Except SessionError Unit × Driven H T :=
  let (answer, session) := d.session.openUp
  (answer, { d with session })

/-- Close the session and tell the handler. A closed session is left alone. -/
def close (d : Driven H T) : Driven H T :=
  if d.session.phase = .closed then d else settle { d with session := d.session.close }

/-- A readable pass: receive what there is and tell the handler once. If the peer has closed, the
handler still gets what came before. A failure closes the session instead. -/
def readable (d : Driven H T) : Except SessionError Unit × Driven H T :=
  if d.session.isOpen then
    match d.session.receive 0 with
    | (.blocked, session) => (.ok (), notify { d with session } Handler.onRecv)
    | (.ended received, session) =>
        let d := { d with session }
        -- a handler that closes the session here leaves nothing for the close that follows
        let d := if 0 < received then d.notify Handler.onRecv else d
        (.error .peerClosed, d.close)
    | (.failed e, session) => (.error e, close { d with session })
  else (.error .notOpen, d)

/-- Send until nothing is queued or the transport would block, and tell the handler of each chunk.
The handler may close the session, which ends the pass. -/
def sendAll (fuel : Nat) (d : Driven H T) : Option (Except SessionError Unit × Driven H T) :=
  match d.session.sendOnce with
  | (.drained, session) => some (.ok (), syncInterest { d with session })
  | (.blocked, session) => some (.ok (), syncInterest { d with session })
  | (.failed e, session) => some (.error e, close { d with session })
  | (.sent n, session) =>
      match fuel with
      | 0 => none
      | fuel + 1 =>
          -- the handler may have queued more, or closed the session
          let d := notify { d with session } (Handler.onSend · n)
          if d.isOpen then sendAll fuel d else some (.ok (), d)

/-- A writable pass of at most `fuel` chunks. -/
def writable (fuel : Nat) (d : Driven H T) : Option (Except SessionError Unit × Driven H T) :=
  if d.session.isOpen then sendAll fuel d else some (.error .notOpen, d)

/-- Queue `data`, all or nothing. -/
def queueSend (d : Driven H T) (data : Bytes) : Except SessionError Unit × Driven H T :=
  match d.session.queueSend data with
  | (.ok (), session) => (.ok (), syncInterest { d with session })
  | (.error e, session) => (.error e, { d with session })

/-- Queue `payload` as one frame, all or nothing. -/
def sendFrame (d : Driven H T) (payload : Bytes) : Except SessionError Unit × Driven H T :=
  match d.session.sendFrame payload with
  | (.ok (), session) => (.ok (), syncInterest { d with session })
  | (.error e, session) => (.error e, { d with session })

/-- Make a call. -/
def perform (fuel : Nat) (d : Driven H T) :
    Session.Call → Option (Except SessionError Unit × Driven H T)
  | .openUp => some d.openUp
  | .close => some (.ok (), d.close)
  | .readable => some d.readable
  | .writable => d.writable fuel
  | .queueSend data => some (d.queueSend data)
  | .sendFrame payload => some (d.sendFrame payload)

/-- Carry out a program from outside, so that the handler is told of what each call causes. Every
writable pass may send `fuel` chunks. -/
def exec (fuel : Nat) {α : Type} : Session.Program T α → Driven H T → Option (α × Driven H T)
  | .done a, d => some (a, d)
  | .look next, d => exec fuel (next d.session) d
  | .call c next, d => do
      let (answer, d) ← d.perform fuel c
      exec fuel (next answer) d
  | .editRecvBuffer f next, d =>
      exec fuel next { d with session := { d.session with recvBuffer := f d.session.recvBuffer } }
  | .editTransport f next, d =>
      exec fuel next { d with session := { d.session with transport := f d.session.transport } }

end Driven
end TcpReactor
