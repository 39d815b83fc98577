import TcpReactor.Proofs.Http.Lines
import TcpReactor.Proofs.Service.EchoLossless
import TcpReactor.Proofs.Service.FrameEchoExact
import TcpReactor.Proofs.Service.HandsOff
import TcpReactor.Proofs.Service.HttpDraining

namespace TcpReactor

/-! # The buffers of a service keep their size

A session does not change the capacities of its buffers, and neither does a service that takes bytes
out of the recv buffer (`Handler.SizeKeeping`). So what both buffers can hold bounds the number of
chunks that a writable pass of a service sends.
-/

open Session (Program)

namespace Session

variable {T : Type} [Transport T] {recv send : Nat} {s : Session T}

/-- The buffers have these capacities. -/
structure Fits (recv send : Nat) (s : Session T) : Prop where
  recv : s.recvBuffer.capacity = recv
  send : s.sendBuffer.capacity = send

theorem capacity_receive (s : Session T) (received : Nat) :
    (s.receive received).2.recvBuffer.capacity = s.recvBuffer.capacity ∧
      (s.receive received).2.sendBuffer = s.sendBuffer := by
  induction s, received using Session.receive.induct with
  | case1 s received transport h
  | case2 s received transport h
  | case5 s received e transport h =>
      rw [receive_eq, h]
      exact ⟨rfl, rfl⟩
  | case3 s received b data transport h e hwrite =>
      rw [receive_eq, h]
      simp [hwrite]
  | case4 s received b data transport h recvBuffer hwrite ih =>
      rw [receive_eq, h]
      simp only [hwrite]
      exact ⟨ih.1.trans (StreamBuffer.capacity_write hwrite), ih.2⟩

/-- What a session does by itself keeps the capacities. -/
theorem fits_invariant (recv send : Nat) : Invariant (Fits recv send : Session T → Prop) where
  receive {s} received hs := by
    rcases s.capacity_receive received with ⟨hrecv, hsend⟩
    exact ⟨hrecv.trans hs.recv, hsend ▸ hs.send⟩
  sendOnce {s} hs := ⟨s.recvBuffer_sendOnce ▸ hs.recv, s.capacity_sendOnce.trans hs.send⟩
  -- the send capacity is a lemma already; for the recv buffer, only opening it replaces it
  openUp {s} hs := by
    refine ⟨Eq.trans ?_ hs.recv, s.capacity_openUp.trans hs.send⟩
    rw [openUp]
    split
    · rfl
    split
    · rfl
    rename_i hrecv
    have hcapacity := StreamBuffer.capacity_openUp hrecv
    split
    · exact hcapacity
    split
    · exact hcapacity
    · exact hcapacity
  close {s} hs := by
    refine ⟨Eq.trans ?_ hs.recv, s.capacity_close.trans hs.send⟩
    rw [close]
    split
    · rfl
    · rfl
  queueSend {s} data hs := by
    refine ⟨Eq.trans ?_ hs.recv, (s.capacity_queueSend data).trans hs.send⟩
    rw [s.recvBuffer_queueSend data]
  sendFrame {s} payload hs := by
    refine ⟨Eq.trans ?_ hs.recv, (s.capacity_sendFrame payload).trans hs.send⟩
    rcases s.sendFrame_changes payload with ⟨_, _, hqueued⟩
    rw [hqueued]
  atTime _ hs := ⟨hs.recv, hs.send⟩
  toldClose hs := ⟨hs.recv, hs.send⟩
  toldInterest _ hs := ⟨hs.recv, hs.send⟩

end Session

open Session (Fits)

/-- Where the callbacks take bytes out of the recv buffer, its capacity stays. -/
def Handler.SizeKeeping (T H : Type) [Transport T] [Handler T H] : Prop :=
  ∀ recv send, Handler.Respects H (Fits recv send : Session T → Prop)

variable {T : Type} {recv send : Nat}

/-- A recv buffer that is put in the place of another one of the same capacity. -/
theorem Session.Program.keeps_editRecvBuffer {α : Type} {b : StreamBuffer} {p : Program T α}
    (hb : b.capacity = recv) (hp : p.Keeps (Fits recv send)) :
    (Program.editRecvBuffer (fun _ => b) p).Keeps (Fits recv send) :=
  ⟨fun _ hs => ⟨hb, hs.send⟩, hp⟩

theorem Session.Program.keeps_queueOrClose (K : Session T → Prop) (reply : Bytes) :
    (Program.queueOrClose reply).Keeps K := by
  intro answer
  cases answer with
  | ok => trivial
  | error e => exact fun _ => trivial

namespace Echo

variable [Transport T]

theorem sizes_pump (fuel : Nat) (e : Echo) :
    (e.pump fuel : Program T Echo).Keeps (Fits recv send) := by
  -- on the rounds; a round reads one chunk and queues it
  induction fuel generalizing e with
  | zero => trivial
  | succ fuel ih =>
      intro s hs
      dsimp only
      split
      · trivial
      split
      · trivial
      · rename_i data recvBuffer hread
        -- the one buffer that the program itself puts in place is the rest of the one it read
        refine Program.keeps_editRecvBuffer ((StreamBuffer.capacity_read hread).trans hs.recv) ?_
        refine (Program.keeps_queueOrClose _ data).bind fun queued => ?_
        cases queued with
        | false => trivial
        | true => exact ih _

theorem sizeKeeping : Handler.SizeKeeping T Echo := fun _ _ =>
  { onRecv := fun e _ _ => sizes_pump _ e, onSend := fun e _ _ _ => sizes_pump _ e }

end Echo

namespace FrameEcho

theorem capacity_pop {b rest : StreamBuffer} {payload : Bytes}
    (h : Frame.pop b = .ok (some (payload, rest))) : rest.capacity = b.capacity := by
  have hplace := Frame.popInPlace_eq b
  rw [h] at hplace
  rcases Frame.frame_of_pop hplace with ⟨_, _, _, _, hcapacity⟩
  exact hcapacity

theorem sizes_answer (fuel : Nat) (e : FrameEcho) :
    (e.answer fuel : Program T FrameEcho).Keeps (Fits recv send) := by
  induction fuel generalizing e with
  | zero => trivial
  | succ fuel ih =>
      intro s hs
      dsimp only
      split
      · exact fun _ => trivial
      · trivial
      · rename_i payload recvBuffer hpop
        refine Program.keeps_editRecvBuffer ((capacity_pop hpop).trans hs.recv) fun answer => ?_
        cases answer with
        | error e => exact fun _ => trivial
        | ok => exact ih _

theorem sizeKeeping [Transport T] : Handler.SizeKeeping T FrameEcho := fun _ _ =>
  { onRecv := fun e _ _ => sizes_answer _ e, onSend := fun _ _ => trivial }

end FrameEcho

namespace HttpService

theorem sizes_flushAndClose (h : HttpService) :
    (h.flushAndClose : Program T HttpService).Keeps (Fits recv send) := by
  intro s hs
  dsimp only
  split
  · trivial
  · exact fun _ => trivial

theorem sizes_serve (fuel : Nat) (h : HttpService) :
    (h.serve fuel : Program T HttpService).Keeps (Fits recv send) := by
  induction fuel generalizing h with
  | zero => trivial
  | succ fuel ih =>
      intro s hs
      -- the same for all answers of the parser, so it is settled before they are told apart
      have hcapacity := (h.parser.capacity_nextRequest s.recvBuffer).trans hs.recv
      dsimp only
      rcases hnext : h.parser.nextRequest s.recvBuffer with
        ⟨(_ | _) | _ | request, parser, recvBuffer⟩
      all_goals
        rw [hnext] at hcapacity
        refine Program.keeps_editRecvBuffer hcapacity ?_
      · refine (Program.keeps_queueOrClose _ _).bind fun queued => ?_
        cases queued with
        | false => trivial
        | true => exact sizes_flushAndClose _
      · trivial
      · trivial
      · refine (Program.keeps_queueOrClose _ _).bind fun queued => ?_
        cases queued with
        | false => trivial
        | true =>
            cases request.wantsClose with
            | false => exact ih _
            | true => exact sizes_flushAndClose _

theorem sizeKeeping [Transport T] : Handler.SizeKeeping T HttpService := fun _ _ =>
  { onRecv := fun h => by
      show (if h.closing then _ else _ : Program T HttpService).Keeps _
      split
      · trivial
      · exact fun _ _ => sizes_serve _ h
    onSend := fun h _ s _ => by
      dsimp only
      split
      · exact fun _ => trivial
      · trivial }

end HttpService
end TcpReactor
