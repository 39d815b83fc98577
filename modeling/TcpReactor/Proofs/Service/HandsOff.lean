import TcpReactor.Proofs.Session.Invariant
import TcpReactor.Protocol

namespace TcpReactor

/-! # The services leave the socket to the session

Echo, frame echo and the HTTP service work on the buffers of their sessions only. Whatever they send
or receive goes through calls of the session.
-/

open Session (Program)

/-- The callbacks of a handler leave the transport to the session. -/
class Handler.HandsOff (T H : Type) [Transport T] [Handler T H] : Prop where
  onRecv : ∀ h : H, (Handler.onRecv h : Program T H).HandsOff
  onSend : ∀ (h : H) (n : Nat), (Handler.onSend h n : Program T H).HandsOff

variable {T : Type}

/-- Then they keep whatever there is to keep of it. -/
theorem Handler.HandsOff.spares {H : Type} [Transport T] [Handler T H] [Handler.HandsOff T H]
    (P : T → Prop) : Handler.Spares P H where
  onRecv h := (Handler.HandsOff.onRecv h).spares
  onSend h n := (Handler.HandsOff.onSend h n).spares

namespace Echo

theorem handsOff_pump [Transport T] (fuel : Nat) (e : Echo) :
    (e.pump fuel : Program T Echo).HandsOff := by
  induction fuel generalizing e with
  | zero => trivial
  | succ fuel ih =>
      intro s
      dsimp only
      split
      · trivial
      split
      · trivial
      · rename_i data _ _
        show ((Program.queueOrClose data).bind _).HandsOff
        refine (Program.HandsOff.queueOrClose data).bind fun queued => ?_
        -- a round after the first starts only if its bytes were queued
        cases queued with
        | false => trivial
        | true => exact ih _

instance [Transport T] : Handler.HandsOff T Echo where
  onRecv e _ := handsOff_pump _ e
  onSend e _ _ := handsOff_pump _ e

end Echo

namespace FrameEcho

theorem handsOff_answer (fuel : Nat) (e : FrameEcho) :
    (e.answer fuel : Program T FrameEcho).HandsOff := by
  induction fuel generalizing e with
  | zero => trivial
  | succ fuel ih =>
      intro s
      dsimp only
      split
      · exact fun _ => trivial
      · trivial
      · intro answer
        cases answer with
        | error e => exact fun _ => trivial
        | ok => exact ih _

instance [Transport T] : Handler.HandsOff T FrameEcho where
  onRecv e _ := handsOff_answer _ e
  onSend _ _ := trivial

end FrameEcho

namespace HttpService

theorem handsOff_flushAndClose (h : HttpService) :
    (h.flushAndClose : Program T HttpService).HandsOff := by
  intro s
  dsimp only
  split
  · trivial
  · exact fun _ => trivial

theorem handsOff_serve (fuel : Nat) (h : HttpService) :
    (h.serve fuel : Program T HttpService).HandsOff := by
  induction fuel generalizing h with
  | zero => trivial
  | succ fuel ih =>
      intro s
      dsimp only
      -- only the two answers queue something, and only one of them goes on
      rcases h.parser.nextRequest s.recvBuffer with ⟨(_ | _) | _ | request, parser, recvBuffer⟩
      · show ((Program.queueOrClose (badRequest.toBytes false)).bind _).HandsOff
        refine (Program.HandsOff.queueOrClose _).bind fun queued => ?_
        cases queued with
        | false => trivial
        | true => exact handsOff_flushAndClose _
      · trivial
      · trivial
      · show ((Program.queueOrClose ((route request).toBytes !request.wantsClose)).bind _).HandsOff
        refine (Program.HandsOff.queueOrClose _).bind fun queued => ?_
        cases queued with
        | false => trivial
        | true =>
            cases request.wantsClose with
            | false => exact ih _
            | true => exact handsOff_flushAndClose _

instance [Transport T] : Handler.HandsOff T HttpService where
  onRecv h := by
    show (if h.closing then _ else _ : Program T HttpService).HandsOff
    split
    · trivial
    · exact fun _ => handsOff_serve _ h
  onSend h _ s := by
    dsimp only
    split
    · exact fun _ => trivial
    · trivial

end HttpService
end TcpReactor
