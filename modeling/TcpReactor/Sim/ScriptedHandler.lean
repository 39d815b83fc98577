import TcpReactor.Session.Driven
import TcpReactor.Sim.BufferStep
import TcpReactor.Sim.ScriptedTransport

namespace TcpReactor.Sim

/-! # Scripted handlers

A scripted handler runs a list of actions at each notification, one list for each, and keeps a log
of what it was told and what its actions answered. The same actions also drive a session from
outside (`SessionRun.step`).
-/

/-- Something to do with a session over a scripted transport. -/
inductive Action
  | call (c : Session.Call)
  | pop
  | buffer (step : BufferStep)
  /-- Read chunks of so many bytes until the recv buffer refuses. -/
  | drain (chunk : Nat)
  /-- The same, and queue each chunk, until that is refused. -/
  | echo (chunk : Nat)
  | withHandler (actions : List Action)
  | feed (reads : List ReadItem)
  | accept (sends : List SendItem)
  | acceptAll (on : Bool)
  | transportOpen (on : Bool)
  | handlerCalls
  | isIdle (seconds : Nat)
  | snapshot

/-- What can be seen of a session. -/
structure Snapshot where
  phase : Phase
  isOpen : Bool
  transportOpen : Bool
  writeInterest : Bool
  pending : Bool
  recvLength : Nat
  sendLength : Nat
  sendFree : Nat
  /-- Is the handler in its place, that is, not busy? -/
  handlerFree : Bool
  deriving DecidableEq, Repr

def Snapshot.of (s : Session ScriptedTransport) (handlerFree : Bool) : Snapshot where
  phase := s.phase
  isOpen := s.isOpen
  transportOpen := s.transport.isOpen
  writeInterest := s.writeInterest
  pending := s.hasPendingSend
  recvLength := s.recvBuffer.length
  sendLength := s.sendBuffer.length
  sendFree := s.sendBuffer.freeSpace
  handlerFree

/-- How often a handler was told of each kind of event. -/
structure CallCounts where
  recv : Nat := 0
  send : Nat := 0
  close : Nat := 0
  interest : Nat := 0
  deriving DecidableEq, Repr

/-- What an action answers. -/
inductive Reply
  | done
  | refused
  | failed (cause : SessionError)
  | buffer (reply : BufferReply)
  | pop (reply : PopReply)
  /-- All bytes that were read, and why queueing one of the chunks failed, if it did. -/
  | drained (bytes : Bytes) (cause : Option SessionError)
  | all (replies : List Reply)
  | counts (counts : CallCounts)
  | flag (value : Bool)
  | snapshot (snapshot : Snapshot)

/-- One notification, as the handler found its session. -/
inductive LogEntry
  | recv (before : Snapshot) (replies : List Reply)
  | send (amount : Nat) (before : Snapshot) (replies : List Reply)
  | close (before : Snapshot)
  | interest (on : Bool) (before : Snapshot)
  /-- The end of a list of actions that was run from outside with the handler busy. -/
  | inside (after : Snapshot)

/-! ## Actions as programs -/

open Session (Program)

/-- The answer of a call. -/
def Reply.ofCall : Except SessionError Unit → Reply
  | .ok () => .done
  | .error e => .failed e

/-- Read chunks of `chunk` bytes, queueing them if `queue` is set. At most `fuel` chunks are read;
every chunk takes at least one byte. The bytes of the chunks so far are given in reverse order. -/
def readChunks (chunk : Nat) (queue : Bool) : Nat → List Bytes → Program ScriptedTransport Reply
  | 0, read => .done (.drained read.reverse.flatten none)
  | fuel + 1, read =>
      .look fun s =>
        match s.recvBuffer.read chunk with
        | .error _ => .done (.drained read.reverse.flatten none)
        | .ok (data, recvBuffer) =>
            let read := data :: read
            .editRecvBuffer (fun _ => recvBuffer)
              (if queue then
                .call (.queueSend data) fun
                  | .ok () => readChunks chunk queue fuel read
                  | .error e => .done (.drained read.reverse.flatten (some e))
              else readChunks chunk queue fuel read)

/-- An action as a program. The program says whether the handler is free or busy. A busy handler is
not handed out again, and what it counts is not known before it is done. -/
def Action.program (handlerFree : Bool) : Action → Program ScriptedTransport Reply
  | .call c => .call c fun answer => .done (.ofCall answer)
  | .pop =>
      .look fun s =>
        let (reply, recvBuffer) := popFrame s.recvBuffer
        .editRecvBuffer (fun _ => recvBuffer) (.done (.pop reply))
  | .buffer step =>
      .look fun s =>
        let (reply, recvBuffer) := step.apply s.recvBuffer
        .editRecvBuffer (fun _ => recvBuffer) (.done (.buffer reply))
  | .drain chunk => .look fun s => readChunks chunk false (s.recvBuffer.length + 1) []
  | .echo chunk => .look fun s => readChunks chunk true (s.recvBuffer.length + 1) []
  | .withHandler _ => .done .refused
  | .feed reads => .editTransport (fun t => { t with reads := t.reads ++ reads }) (.done .done)
  | .accept sends => .editTransport (fun t => { t with sends := t.sends ++ sends }) (.done .done)
  | .acceptAll on => .editTransport (fun t => { t with acceptAll := on }) (.done .done)
  | .transportOpen on => .editTransport (fun t => { t with isOpen := on }) (.done .done)
  | .handlerCalls => .done .refused
  | .isIdle seconds => .look fun s => .done (.flag (s.isIdle (seconds * 1000)))
  | .snapshot => .look fun s => .done (.snapshot (.of s handlerFree))

/-- All actions one after the other, as a callback runs them. -/
def actionsProgram : List Action → Program ScriptedTransport (List Reply)
  | [] => .done []
  | action :: actions =>
      (action.program false).bind fun reply =>
        (actionsProgram actions).bind fun replies => .done (reply :: replies)

/-! ## The handler -/

structure ScriptedHandler where
  /-- The actions of the first notifications of each kind, and those of all later ones. -/
  onRecv : List (List Action) := []
  onRecvRest : List Action := []
  onSend : List (List Action) := []
  onSendRest : List Action := []
  calls : CallCounts := {}
  /-- What happened, latest first. -/
  log : List LogEntry := []

namespace ScriptedHandler

def note (h : ScriptedHandler) (entry : LogEntry) : ScriptedHandler :=
  { h with log := entry :: h.log }

instance : Handler ScriptedTransport ScriptedHandler where
  onRecv h :=
    .look fun before =>
      (actionsProgram (h.onRecv.headD h.onRecvRest)).bind fun replies =>
        .done { h with
          onRecv := h.onRecv.tail
          calls.recv := h.calls.recv + 1
          log := .recv (.of before false) replies :: h.log }
  onSend h amount :=
    .look fun before =>
      (actionsProgram (h.onSend.headD h.onSendRest)).bind fun replies =>
        .done { h with
          onSend := h.onSend.tail
          calls.send := h.calls.send + 1
          log := .send amount (.of before false) replies :: h.log }
  onClose h s :=
    { h with calls.close := h.calls.close + 1, log := .close (.of s false) :: h.log }
  onInterest h s on :=
    { h with calls.interest := h.calls.interest + 1, log := .interest on (.of s false) :: h.log }

end ScriptedHandler

/-! ## A session driven from outside -/

/-- What one step shows: its answer, the log of the notifications it caused, the bytes that the
transport took, and the session afterwards. -/
structure StepReport where
  reply : Reply
  log : List LogEntry
  sent : Bytes
  after : Snapshot

abbrev SessionRun := Driven ScriptedHandler ScriptedTransport

namespace SessionRun

/-- Do an action from outside; a writable pass may send `fuel` chunks. -/
def act (fuel : Nat) (d : SessionRun) : Action → Option (Reply × SessionRun)
  | .withHandler actions =>
      some (d.withHandler fun h =>
        (actionsProgram actions).bind fun replies =>
          .look fun s => .done (.all replies, h.note (.inside (.of s false))))
  | .handlerCalls => some (.counts d.handler.calls, d)
  | action => d.exec fuel (action.program true)

/-- Do an action from outside and report on it. -/
def step (fuel : Nat) (d : SessionRun) (action : Action) : Option (StepReport × SessionRun) := do
  let fresh : SessionRun :=
    { session := { d.session with transport := { d.session.transport with sent := [] } }
      handler := { d.handler with log := [] } }
  let (reply, d) ← act fuel fresh action
  return ({ reply
            log := d.handler.log.reverse
            sent := d.session.transport.sent
            after := .of d.session true }, d)

end SessionRun
end TcpReactor.Sim
