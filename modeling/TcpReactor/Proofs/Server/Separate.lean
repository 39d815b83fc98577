import TcpReactor.Proofs.Server.Trace
import TcpReactor.Proofs.Service.HandsOff
import TcpReactor.Proofs.Session.HandlerMap
import TcpReactor.Proofs.Session.Attuned

namespace TcpReactor

/-! # Connections that have nothing to do with each other

With a protocol whose callbacks leave the shared state and the sockets alone (`Protocol.Separate`),
a connection deals with its readiness on its own: the shared state stays as it is, the socket keeps
its peer, and the identity of the connection plays no part (`Server.react_anonymous`). All services
here are such protocols.
-/

open Session (Program)

/-- No callback changes the shared state, and none reaches for the socket. -/
structure Protocol.Separate (P W : Type) [Protocol P W] : Prop where
  accept : ∀ (w : W) (peer : Address), (Protocol.accept (P := P) w peer).2 = w
  onRecv : ∀ (p : P) (w : W) (s : Session Socket), ((Protocol.onRecv p w).run s).1.2 = w
  onSend : ∀ (p : P) (w : W) (n : Nat) (s : Session Socket),
    ((Protocol.onSend p w n).run s).1.2 = w
  onClose : ∀ (p : P) (w : W) (s : Session Socket), (Protocol.onClose p w s).2 = w
  handsOff_onRecv : ∀ (p : P) (w : W), (Protocol.onRecv p w).HandsOff
  handsOff_onSend : ∀ (p : P) (w : W) (n : Nat), (Protocol.onSend p w n).HandsOff

/-- A protocol that is made from a handler has nothing to share. -/
theorem Protocol.separate_ofHandler {P W : Type} [Handler Socket P] [Handler.HandsOff Socket P]
    (start : W → P) : @Protocol.Separate P W (.ofHandler start) :=
  @Protocol.Separate.mk P W (.ofHandler start)
    (fun _ _ => rfl)
    (fun p w s => by
      show (((Handler.onRecv p).bind fun p => .done (p, w)).run s).1.2 = w
      rw [Program.run_bind]
      rfl)
    (fun p w n s => by
      show (((Handler.onSend p n).bind fun p => .done (p, w)).run s).1.2 = w
      rw [Program.run_bind]
      rfl)
    (fun _ _ _ => rfl)
    (fun p _ => (Handler.HandsOff.onRecv (T := Socket) p).bind fun _ => trivial)
    (fun p _ n => (Handler.HandsOff.onSend (T := Socket) p n).bind fun _ => trivial)

theorem Echo.separate : Protocol.Separate Echo Unit := Protocol.separate_ofHandler _

theorem FrameEcho.separate : Protocol.Separate FrameEcho Unit := Protocol.separate_ofHandler _

theorem HttpService.separate : Protocol.Separate HttpService Http.Limits :=
  Protocol.separate_ofHandler _

/-! ## The socket keeps its peer -/

namespace Session

/-- The session is one with this peer. -/
def IsWith (peer : Address) (s : Session Socket) : Prop := s.transport.peer = peer

/-- What a session does by itself keeps the peer. -/
theorem isWith_invariant (peer : Address) : Invariant (IsWith peer) where
  receive {s} received hs := (s.moved_receive received).peer.trans hs
  sendOnce {s} hs := s.moved_sendOnce.peer.trans hs
  openUp {s} hs := by
    rw [IsWith, transport_openUp]
    exact hs
  close {s} hs := by
    rw [close]
    split
    · exact hs
    · exact hs
  queueSend {s} data hs := by
    rcases s.queueSend_changes data with ⟨_, _, hqueued⟩
    rw [hqueued]
    exact hs
  sendFrame {s} payload hs := by
    rcases s.sendFrame_changes payload with ⟨_, _, hqueued⟩
    rw [hqueued]
    exact hs
  atTime _ hs := hs
  toldClose hs := hs
  toldInterest _ hs := hs

end Session

/-! ## What a connection does on its own -/

/-- A connection without its identity. -/
def Link.anonymous {P : Type} (l : Link P) : Link P := { l with id := ⟨0, 0⟩ }

/-- A handler without the identity of its connection. -/
def Served.anonymous {P W : Type} (h : Served P W) : Served P W :=
  { h with link := h.link.anonymous }

namespace Server

variable {P W : Type} [Protocol P W] {d d' : Driven (Served P W) Socket} {fuel : Nat}
  {r : Readiness}

/-- No callback looks at the identity of its connection. -/
theorem hom_anonymous : Handler.Hom Socket (Served.anonymous : Served P W → Served P W) where
  onRecv h := by
    -- the protocol is called without the link, and `Served.resume` keeps the identity
    show (Protocol.onRecv h.link.protocol h.shared).bind _ =
      ((Protocol.onRecv h.link.protocol h.shared).bind _).bind _
    rw [Program.bind_assoc]
    rfl
  onSend h n := by
    show (Protocol.onSend h.link.protocol h.shared n).bind _ =
      ((Protocol.onSend h.link.protocol h.shared n).bind _).bind _
    rw [Program.bind_assoc]
    rfl
  onClose _ _ := rfl
  onInterest _ _ _ := rfl

/-- So the identity plays no part in what the connection does. -/
theorem react_anonymous (fuel : Nat) (r : Readiness) (d : Driven (Served P W) Socket) :
    react fuel r (d.mapHandler Served.anonymous) =
      (react fuel r d).map (·.mapHandler Served.anonymous) := by
  have hreceived : (if r.readable || r.hangup then (d.mapHandler Served.anonymous).readable.2
      else d.mapHandler Served.anonymous) =
      (if r.readable || r.hangup then d.readable.2 else d).mapHandler Served.anonymous := by
    rw [Driven.readable_mapHandler hom_anonymous]
    split
    · rfl
    · rfl
  -- every pass commutes with forgetting the identity, so the same branch is taken in both
  rw [react, react, hreceived]
  generalize (if r.readable || r.hangup then d.readable.2 else d) = received
  dsimp only
  rw [Driven.close_mapHandler hom_anonymous, Driven.close_mapHandler hom_anonymous,
    Driven.writable_mapHandler hom_anonymous, Driven.isOpen_mapHandler]
  split
  · rfl
  split
  · rfl
  split
  · rw [Option.map_map, Option.map_map]
    rfl
  · rfl

/-- An error closes the connection. -/
theorem react_error (fuel : Nat) (d : Driven (Served P W) Socket) :
    react fuel { error := true } d = some d.close := rfl

/-- Whatever sessions keep to by themselves, a connection keeps to that whose callbacks do. -/
theorem react_invariant {K : Session Socket → Prop} (hK : Session.Invariant K)
    (hH : Handler.Respects (Served P W) K) (hd : K d.session) (h : react fuel r d = some d') :
    K d'.session := by
  rw [react_eq] at h
  have hsteps : ∀ step ∈ reactSteps r d, step.Respects K := by
    intro step hstep
    rcases calls_reactSteps r d step hstep with ⟨c, rfl⟩
    trivial
  exact (hK.keeps_trace (q := ()) fuel hH hsteps hd fun _ _ => trivial).2 d' h

variable (hP : Protocol.Separate P W)
include hP

theorem maintains_shared (w : W) :
    Handler.Maintains Socket (fun h : Served P W => h.shared = w) where
  onRecv {h s} hw := by
    show (((Protocol.onRecv h.link.protocol h.shared).bind fun r =>
      .done (h.resume r)).run s).1.shared = w
    rw [Program.run_bind, ← hw]
    exact hP.onRecv h.link.protocol h.shared s
  onSend {h n s} hw := by
    show (((Protocol.onSend h.link.protocol h.shared n).bind fun r =>
      .done (h.resume r)).run s).1.shared = w
    rw [Program.run_bind, ← hw]
    exact hP.onSend h.link.protocol h.shared n s
  onClose {h s} hw := (hP.onClose h.link.protocol h.shared s).trans hw
  onInterest hw := hw

theorem respects_isWith (peer : Address) :
    Handler.Respects (Served P W) (Session.IsWith peer) where
  onRecv h := by
    refine Program.HandsOff.keeps (fun _ _ hs => hs) ?_
    exact (hP.handsOff_onRecv h.link.protocol h.shared).bind fun _ => trivial
  onSend h n := by
    refine Program.HandsOff.keeps (fun _ _ hs => hs) ?_
    exact (hP.handsOff_onSend h.link.protocol h.shared n).bind fun _ => trivial

/-- A connection leaves alone what it shares with others, and deals with its peer only. -/
theorem react_keeps (h : react fuel r d = some d') :
    d'.handler.shared = d.handler.shared ∧
      d'.session.transport.peer = d.session.transport.peer := by
  refine ⟨?_, react_invariant (Session.isWith_invariant _) (respects_isWith hP _) rfl h⟩
  rw [react_eq] at h
  refine (maintains_shared hP d.handler.shared).run (fun step hstep => ?_) rfl h
  rcases calls_reactSteps r d step hstep with ⟨c, rfl⟩
  trivial

end Server
end TcpReactor
