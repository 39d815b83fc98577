import TcpReactor.Protocol
import TcpReactor.Sim.BufferStep

namespace TcpReactor.Sim

/-! # Probes

A probe is a protocol that shows what a server does with its protocols: every callback leaves an
entry in a journal that all probes share, under the number of the probe. What a probe does with the
bytes that it gets depends on its mode.
-/

open Session (Program)

inductive ProbeMode
  /-- Read everything. -/
  | drain
  /-- Read nothing. -/
  | hold
  /-- Take out frames until there is no whole one. -/
  | frames
  /-- Send back each frame, flush, and close. -/
  | replyClose
  deriving DecidableEq, Repr

/-- What a callback leaves in the journal. -/
inductive ProbeEvent
  | made
  | recv (length : Nat) (isOpen : Bool)
  | data (bytes : Bytes)
  | pop (reply : PopReply)
  | reply (answer : Except SessionError Unit)
  | flush (answer : Except SessionError Unit)
  | send (amount : Nat) (pending : Bool)
  | close (phase : Phase)

/-- The state that all probes share: their mode, how many there are, and the journal, latest entry
first. -/
structure ProbeShared where
  mode : ProbeMode
  made : Nat := 0
  journal : List (Nat × ProbeEvent) := []

structure Probe where
  number : Nat

namespace Probe

def note (p : Probe) (w : ProbeShared) (e : ProbeEvent) : ProbeShared :=
  { w with journal := (p.number, e) :: w.journal }

/-- How much is read at once. -/
def chunkSize : Nat := 64

/-- Read chunks until the recv buffer refuses, `fuel` of them at most. -/
def drain (p : Probe) : (fuel : Nat) → ProbeShared → Program Socket ProbeShared
  | 0, w => .done w
  | fuel + 1, w =>
      (Program.onRecvBuffer (·.read chunkSize)).bind fun
        | .error _ => .done w
        | .ok data => drain p fuel (p.note w (.data data))

/-- Take a frame out of the recv buffer. -/
def takeFrame : Program Socket PopReply :=
  .look fun s =>
    let (reply, recvBuffer) := popFrame s.recvBuffer
    .editRecvBuffer (fun _ => recvBuffer) (.done reply)

/-- Take out frames until there is no whole one, `fuel` of them at most. -/
def takeFrames (p : Probe) : (fuel : Nat) → ProbeShared → Program Socket ProbeShared
  | 0, w => .done w
  | fuel + 1, w =>
      takeFrame.bind fun reply =>
        let w := p.note w (.pop reply)
        match reply with
        | .frame _ => takeFrames p fuel w
        | _ => .done w

/-- Send back the frames that are there, `fuel` of them at most. -/
def reply (p : Probe) : (fuel : Nat) → ProbeShared → Program Socket ProbeShared
  | 0, w => .done w
  | fuel + 1, w =>
      takeFrame.bind fun
        | .frame payload =>
            .call (.sendFrame payload) fun answer => reply p fuel (p.note w (.reply answer))
        | _ => .done w

/-- If something waits to be sent, flush it and close. -/
def flushAndClose (p : Probe) (w : ProbeShared) : Program Socket ProbeShared :=
  .look fun s =>
    if s.hasPendingSend then
      .call .writable fun answer => .call .close fun _ => .done (p.note w (.flush answer))
    else .done w

instance : Protocol Probe ProbeShared where
  accept w _ :=
    let p : Probe := ⟨w.made⟩
    (p, { p.note w .made with made := w.made + 1 })
  onRecv p w :=
    .look fun s =>
      let w := p.note w (.recv s.recvBuffer.length s.isOpen)
      let fuel := s.recvBuffer.length + 1
      let work := match w.mode with
        | .drain => p.drain fuel w
        | .hold => .done w
        | .frames => p.takeFrames fuel w
        | .replyClose => (p.reply fuel w).bind p.flushAndClose
      work.bind fun w => .done (p, w)
  onSend p w amount := .look fun s => .done (p, p.note w (.send amount s.hasPendingSend))
  onClose p w s := (p, p.note w (.close s.phase))

end Probe
end TcpReactor.Sim
