import TcpReactor.Frame
import TcpReactor.Transport

namespace TcpReactor

/-! # Sessions

A session owns a transport and a stream buffer for each direction, and moves bytes between them
when it is told that the transport is ready. Sending never touches the transport: bytes are queued
and leave with the next writable pass.

The operations here are those of a session whose handler is busy, that is, calls made from inside a
callback: nobody is told of anything meanwhile, and a close is only marked as pending. What the
handler of an idle session is told, and when, is the subject of `TcpReactor.Session.Driven`.
-/

/-- How much one receive may bring. -/
def recvChunkSize : Nat := 4096

/-- Is a session in use? -/
inductive Phase
  | closed
  | opened
  deriving DecidableEq, Repr

/-- Why a session refuses or fails an operation. Errors of the socket and of the buffers that come
up during a pass, and a close by the peer, mean that the session has been closed. -/
inductive SessionError
  | notOpen
  | alreadyOpen
  | invalidArgs
  | socket (cause : SocketError)
  | recvBuffer (cause : BufferError)
  | sendBuffer (cause : BufferError)
  | frame (cause : FrameError)
  | internal
  | peerClosed
  deriving DecidableEq, Repr

def SessionError.message : SessionError → String
  | .notOpen => "session is not open"
  | .alreadyOpen => "session is already open"
  | .invalidArgs => "invalid arguments"
  | .socket cause => s!"socket error: {cause.message}"
  | .recvBuffer cause => s!"recv buffer error: {cause.message}"
  | .sendBuffer cause => s!"send buffer error: {cause.message}"
  | .frame cause => s!"frame error: {cause.message}"
  | .internal => "internal session error"
  | .peerClosed => "peer closed the connection"

/-- A connection and its buffers. Times are in milliseconds on a monotonic clock. -/
structure Session (T : Type) where
  transport : T
  recvBuffer : StreamBuffer
  sendBuffer : StreamBuffer
  phase : Phase := .closed
  /-- The time, as last told to the session. -/
  now : Nat := 0
  /-- When something was last received, sent or queued. -/
  lastActive : Nat := 0
  /-- Whether write readiness is wanted, as last reported to the handler. -/
  writeInterest : Bool := false
  /-- The session was closed while its handler was busy, and the handler does not know yet. -/
  closePending : Bool := false

namespace Session

variable {T : Type}

/-- A closed session whose buffers have the given capacities. -/
def new (transport : T) (recvCapacity sendCapacity : Nat) (now : Nat) : Session T where
  transport
  recvBuffer := .new recvCapacity
  sendBuffer := .new sendCapacity
  now
  lastActive := now

/-- Tell the session the time. -/
def atTime (s : Session T) (now : Nat) : Session T := { s with now }

/-- Note that something moved just now. -/
def touch (s : Session T) : Session T := { s with lastActive := s.now }

/-- Has nothing moved for longer than `timeout`? -/
def isIdle (s : Session T) (timeout : Nat) : Bool := timeout < s.now - s.lastActive

/-- Do queued bytes wait to be sent? -/
def hasPendingSend (s : Session T) : Bool := !s.sendBuffer.isEmpty

variable [Transport T]

/-- A session can be used while it is open and its transport is. -/
def isOpen (s : Session T) : Bool := s.phase == .opened && Transport.isOpen s.transport

/-! ## Lifecycle -/

/-- Open both buffers and the session. A failure leaves the session closed. -/
def openUp (s : Session T) : Except SessionError Unit × Session T :=
  if s.phase = .opened then (.error .alreadyOpen, s)
  else
    match s.recvBuffer.openUp with
    | .error e => (.error (.recvBuffer e), s)
    | .ok recvBuffer =>
        match s.sendBuffer.openUp with
        -- one buffer does not stay open without the other
        | .error e => (.error (.sendBuffer e), { s with recvBuffer := recvBuffer.close })
        | .ok sendBuffer =>
            if Transport.isOpen s.transport then
              (.ok (), { s with
                recvBuffer, sendBuffer, phase := .opened, writeInterest := false }.touch)
            else
              (.error (.socket .invalidState), { s with
                recvBuffer := recvBuffer.close, sendBuffer := sendBuffer.close })

/-- Close the transport and both buffers. The handler is yet to be told. -/
def close (s : Session T) : Session T :=
  if s.phase = .closed then s
  else
    { s with
      transport := Transport.close s.transport
      recvBuffer := s.recvBuffer.close
      sendBuffer := s.sendBuffer.close
      phase := .closed
      writeInterest := false
      closePending := true }

/-! ## Receiving -/

/-- How a run of receives ends. -/
inductive ReadEnd
  | blocked
  /-- The peer has closed, after `received` bytes of this run. -/
  | ended (received : Nat)
  | failed (cause : SessionError)

/-- Receive until the transport would block, the peer has closed, or something fails. Every chunk
must fit in the recv buffer, which therefore has less and less room. -/
def receive (s : Session T) (received : Nat) : ReadEnd × Session T :=
  match Transport.recv s.transport recvChunkSize with
  | (.ok .wouldBlock, transport) => (.blocked, { s with transport })
  | (.ok (.moved []), transport) => (.ended received, { s with transport })
  | (.ok (.moved (b :: data)), transport) =>
      match _h : s.recvBuffer.write (b :: data) with
      | .error e => (.failed (.recvBuffer e), { s with transport })
      | .ok recvBuffer =>
          receive { s with transport, recvBuffer }.touch (received + (b :: data).length)
  | (.error e, transport) => (.failed (.socket e), { s with transport })
termination_by s.recvBuffer.freeSpace
decreasing_by
  have := StreamBuffer.freeSpace_write _h
  simp only [touch]
  omega

/-- A readable pass: receive what there is. A close by the peer and a failure close the session. -/
def readable (s : Session T) : Except SessionError Unit × Session T :=
  if s.isOpen then
    match s.receive 0 with
    | (.blocked, s) => (.ok (), s)
    | (.ended _, s) => (.error .peerClosed, s.close)
    | (.failed e, s) => (.error e, s.close)
  else (.error .notOpen, s)

/-! ## Sending -/

/-- What one attempt to send leads to. -/
inductive SendStep
  | drained
  | blocked
  | failed (cause : SessionError)
  | sent (amount : Nat)
  deriving DecidableEq, Repr

/-- Offer the first slice of the send buffer to the transport, once, and drop what it took. -/
def sendOnce (s : Session T) : SendStep × Session T :=
  if s.sendBuffer.isEmpty then (.drained, s)
  else
    match s.sendBuffer.slices with
    | .error e => (.failed (.sendBuffer e), s)
    | .ok (head, _) =>
        match Transport.send s.transport head with
        | (.ok .wouldBlock, transport) => (.blocked, { s with transport })
        -- the transport was offered something and took nothing
        | (.ok (.moved 0), transport) =>
            (.failed (.socket (.sendFailed .writeZero)), { s with transport })
        | (.ok (.moved (n + 1)), transport) =>
            match s.sendBuffer.consume (n + 1) with
            | .error e => (.failed (.sendBuffer e), { s with transport })
            | .ok sendBuffer => (.sent (n + 1), { s with transport, sendBuffer }.touch)
        | (.error e, transport) => (.failed (.socket e), { s with transport })

/-- What was sent was queued before. -/
theorem length_sendOnce {s s' : Session T} {n : Nat} (h : s.sendOnce = (.sent n, s')) :
    s'.sendBuffer.length < s.sendBuffer.length := by
  unfold sendOnce at h
  repeat' split at h
  all_goals simp only [Prod.mk.injEq, SendStep.sent.injEq, reduceCtorEq, false_and] at h
  rename_i hconsume
  have := StreamBuffer.length_consume hconsume
  rw [← h.2]
  simp only [touch]
  omega

/-- Send until nothing is queued or the transport would block. A failure closes the session. -/
def sendAll (s : Session T) : Except SessionError Unit × Session T :=
  match _h : s.sendOnce with
  | (.drained, s) => (.ok (), s)
  | (.blocked, s) => (.ok (), s)
  | (.failed e, s) => (.error e, s.close)
  | (.sent _, s) => if s.isOpen then sendAll s else (.ok (), s)
termination_by s.sendBuffer.length
decreasing_by exact length_sendOnce _h

/-- A writable pass: send what is queued. -/
def writable (s : Session T) : Except SessionError Unit × Session T :=
  if s.isOpen then s.sendAll else (.error .notOpen, s)

/-- Queue `data`, all or nothing. -/
def queueSend (s : Session T) (data : Bytes) : Except SessionError Unit × Session T :=
  if !s.isOpen then (.error .notOpen, s)
  else if data.isEmpty then (.ok (), s)
  else
    match s.sendBuffer.write data with
    | .error e => (.error (.sendBuffer e), s)
    | .ok sendBuffer => (.ok (), { s with sendBuffer }.touch)

/-- Queue `payload` as one frame, all or nothing. -/
def sendFrame (s : Session T) (payload : Bytes) : Except SessionError Unit × Session T :=
  if !s.isOpen then (.error .notOpen, s)
  else
    match Frame.header payload.length with
    | .error e => (.error (.frame e), s)
    | .ok header =>
        -- the room for both parts is checked first, so a header is never left alone
        if s.sendBuffer.freeSpace < header.length + payload.length then
          (.error (.sendBuffer .overflow), s)
        else
          match s.sendBuffer.write header with
          | .error e => (.error (.sendBuffer e), s)
          | .ok sendBuffer =>
              if payload.isEmpty then (.ok (), { s with sendBuffer }.touch)
              else
                match sendBuffer.write payload with
                | .error e => (.error (.sendBuffer e), { s with sendBuffer })
                | .ok sendBuffer => (.ok (), { s with sendBuffer }.touch)

end Session
end TcpReactor
