import TcpReactor.Proofs.Server.Rounds
import TcpReactor.Proofs.Service.Capacity

namespace TcpReactor

/-! # No round goes on without end

With a protocol whose writable passes send no more than what both buffers of the connection hold
(`Protocol.Ends`), and enough fuel for that, every round of a server comes to its end
(`Server.exists_round`).
-/

open Session (Program Fits fits_invariant)

/-- A writable pass comes to its end, with as many chunks as both buffers hold bytes. -/
structure Protocol.Ends (P W : Type) [Protocol P W] : Prop where
  sizes : Handler.SizeKeeping Socket (Served P W)
  sendAll : ∀ (d : Driven (Served P W) Socket) (fuel : Nat),
    d.session.recvBuffer.length + d.session.sendBuffer.length ≤ fuel → ∃ r, d.sendAll fuel = some r

theorem Session.Program.bind_done {T α : Type} (p : Program T α) : p.bind .done = p := by
  induction p with
  | done a => rfl
  | look next ih => exact congrArg Program.look (funext ih)
  | call c next ih => exact congrArg (Program.call c) (funext ih)
  | editRecvBuffer h next ih => exact congrArg (Program.editRecvBuffer h) ih
  | editTransport h next ih => exact congrArg (Program.editTransport h) ih

/-- The callbacks of a protocol that is made from a handler are those of the handler. -/
theorem Protocol.hom_ofHandler {P W : Type} [Handler Socket P] (start : W → P)
    (hinterest : ∀ (h : P) (s : Session Socket) on, Handler.onInterest h s on = h) :
    let _ : Protocol P W := .ofHandler start
    Handler.Hom Socket fun h : Served P W => h.link.protocol := by
  let _ : Protocol P W := .ofHandler start
  refine ⟨fun h => ?_, fun h n => ?_, fun h s => rfl, fun h s on => hinterest _ s on⟩
  · -- the two layers around the callback only repack its answer
    show Handler.onRecv h.link.protocol =
      (((Handler.onRecv h.link.protocol).bind _).bind _).bind _
    rw [Program.bind_assoc, Program.bind_assoc]
    exact (Program.bind_done _).symm
  · show Handler.onSend h.link.protocol n =
      (((Handler.onSend h.link.protocol n).bind _).bind _).bind _
    rw [Program.bind_assoc, Program.bind_assoc]
    exact (Program.bind_done _).symm

theorem Protocol.ends_ofHandler {P W : Type} [Handler Socket P] (start : W → P)
    (hinterest : ∀ (h : P) (s : Session Socket) on, Handler.onInterest h s on = h)
    (hsizes : Handler.SizeKeeping Socket P)
    (hsend : ∀ (d : Driven P Socket) (fuel : Nat),
      d.session.recvBuffer.length + d.session.sendBuffer.length ≤ fuel →
        ∃ r, d.sendAll fuel = some r) : @Protocol.Ends P W (.ofHandler start) := by
  let _ : Protocol P W := .ofHandler start
  refine ⟨fun recv send => ⟨fun h => ?_, fun h n => ?_⟩, fun d fuel hfuel => ?_⟩
  · show (((Handler.onRecv h.link.protocol).bind _).bind _).Keeps _
    refine Program.Keeps.bind (Program.Keeps.bind ((hsizes recv send).onRecv _) ?_) ?_
    · exact fun _ => trivial
    · exact fun _ => trivial
  · show (((Handler.onSend h.link.protocol n).bind _).bind _).Keeps _
    refine Program.Keeps.bind (Program.Keeps.bind ((hsizes recv send).onSend _ n) ?_) ?_
    · exact fun _ => trivial
    · exact fun _ => trivial
  · -- a flush of the connection is one of the handler alone, which is known to end
    have hmap := Driven.sendAll_mapHandler (hom_ofHandler start hinterest) fuel d
    rcases hsend (d.mapHandler fun h => h.link.protocol) fuel hfuel with ⟨r, hr⟩
    rw [hr] at hmap
    rcases Option.map_eq_some_iff.mp hmap.symm with ⟨r', hr', _⟩
    exact ⟨r', hr'⟩

theorem Echo.ends : Protocol.Ends Echo Unit :=
  Protocol.ends_ofHandler _ (fun _ _ _ => rfl) Echo.sizeKeeping fun _ _ hfuel =>
    Echo.exists_sendAll hfuel

theorem FrameEcho.ends : Protocol.Ends FrameEcho Unit :=
  Protocol.ends_ofHandler _ (fun _ _ _ => rfl) FrameEcho.sizeKeeping fun _ _ hfuel =>
    Session.exists_sendAll FrameEcho.drains (Nat.le_trans (Nat.le_add_left _ _) hfuel)

theorem HttpService.ends : Protocol.Ends HttpService Http.Limits :=
  Protocol.ends_ofHandler _ (fun _ _ _ => rfl) HttpService.sizeKeeping fun _ _ hfuel =>
    Session.exists_sendAll HttpService.drains (Nat.le_trans (Nat.le_add_left _ _) hfuel)

/-- The protocols that come with the library. -/
inductive Protocol.BuiltIn : (P W : Type) → [Protocol P W] → Prop
  | echo : BuiltIn Echo Unit
  | frameEcho : BuiltIn FrameEcho Unit
  | http : BuiltIn HttpService Http.Limits

theorem Protocol.BuiltIn.separate {P W : Type} [Protocol P W] (h : BuiltIn P W) : Separate P W := by
  cases h with
  | echo => exact Echo.separate
  | frameEcho => exact FrameEcho.separate
  | http => exact HttpService.separate

theorem Protocol.BuiltIn.ends {P W : Type} [Protocol P W] (h : BuiltIn P W) : Ends P W := by
  cases h with
  | echo => exact Echo.ends
  | frameEcho => exact FrameEcho.ends
  | http => exact HttpService.ends

namespace Server

open Connection (initial)

variable {P W : Type} [Protocol P W] {s s' : Server P W} {fuel now recv send : Nat}
  {d d' : Driven (Served P W) Socket} {r : Readiness}

/-- A connection comes to an end with its readiness. -/
theorem exists_react (hends : Protocol.Ends P W) (hfits : Fits recv send d.session)
    (hfuel : recv + send ≤ fuel) (r : Readiness) : ∃ d', react fuel r d = some d' := by
  have hreadable : Fits recv send d.readable.2.session :=
    (((fits_invariant recv send).readableDriven (q := ()) (hends.sizes recv send) hfits)
      fun _ _ => trivial).2
  have hreceived : Fits recv send (if r.readable || r.hangup then d.readable.2 else d).session := by
    split
    · exact hreadable
    · exact hfits
  rw [react]
  split
  · exact ⟨_, rfl⟩
  dsimp only
  generalize (if r.readable || r.hangup then d.readable.2 else d) = received at hreceived
  -- of all that is done, only the writable pass could go on without end
  split
  · exact ⟨_, rfl⟩
  split
  · have hlength : received.session.recvBuffer.length + received.session.sendBuffer.length ≤ fuel :=
      Nat.le_trans (Nat.add_le_add
        (hreceived.recv ▸ received.session.recvBuffer.length_le_capacity)
        (hreceived.send ▸ received.session.sendBuffer.length_le_capacity)) hfuel
    rcases hends.sendAll received fuel hlength with ⟨answer, hsend⟩
    rw [Driven.writable, hsend]
    split
    · exact ⟨_, rfl⟩
    · exact ⟨_, rfl⟩
  · exact ⟨_, rfl⟩

end Server

/-! ## The buffers of all connections -/

namespace Pipe

variable {P : Type} {recv send : Nat}

/-- A connection has buffers of these capacities. -/
def Fits (recv send : Nat) : Pipe P → Prop
  | attached c => Session.Fits recv send c.session
  | released _ => True

theorem fits_anonymous {p : Pipe P} : p.anonymous.Fits recv send ↔ p.Fits recv send := by
  cases p <;> exact Iff.rfl

theorem fits_bind {pipes : Multiset (Pipe P)} {f : Connection P → Pipe P}
    (h : ∀ p ∈ pipes, p.Fits recv send)
    (hf : ∀ c, (attached c).Fits recv send → (f c).Fits recv send) :
    ∀ p ∈ pipes.map (·.bind f), p.Fits recv send := by
  intro p hp
  rcases Multiset.mem_map.mp hp with ⟨p', hp', rfl⟩
  cases p' with
  | attached c => exact hf c (h _ hp')
  | released socket => trivial

end Pipe

namespace Server

open Connection (initial)

variable {P W : Type} [Protocol P W] {s s' : Server P W} {fuel now recv send : Nat}
  {d d' : Driven (Served P W) Socket} {r : Readiness}

theorem fits_after (hends : Protocol.Ends P W) {c : Connection P}
    (hfits : (Pipe.attached c).Fits recv send) (w : W) (report : Option Readiness) :
    (c.after w fuel now report).Fits recv send := by
  have hdriven : Fits recv send (c.driven w now).session := ⟨hfits.recv, hfits.send⟩
  cases report with
  | none => exact hfits
  | some r =>
      -- a reaction that runs out of fuel counts as none
      cases hreact : react fuel r (c.driven w now) with
      | none =>
          rw [Connection.after, Option.bind_some, hreact]
          exact hfits
      | some d =>
          have hd :=
            react_invariant (fits_invariant recv send) (hends.sizes recv send) hdriven hreact
          rw [Connection.after_some hreact, conclude]
          split
          · exact hd
          · trivial

theorem fits_initial (config : ServerConfig) (w : W) (now : Nat) (id : ConnId) (socket : Socket) :
    ((initial P config w now id socket).enrolled w now).Fits
      config.recvBufferSize config.sendBufferSize := by
  have hnew : Fits config.recvBufferSize config.sendBufferSize
      (initial P config w now id socket).session :=
    ⟨RingBuffer.capacity_new _, RingBuffer.capacity_new _⟩
  have hopen := (fits_invariant _ _).openUp hnew
  rw [Connection.enrolled]
  rcases hcall : (initial P config w now id socket).session.openUp with ⟨e | _, session⟩
  · trivial
  · rw [hcall] at hopen
    dsimp only
    split
    · exact hopen
    · trivial

/-- Every connection has buffers of the capacities that were chosen for the server. -/
structure Sound (config : ServerConfig) (s : Server P W) : Prop where
  orderly : Orderly s
  chosen : s.config = config
  sized : ∀ p ∈ s.pipes, p.Fits config.recvBufferSize config.sendBufferSize

omit [Protocol P W] in
theorem sound_new (config : ServerConfig) (shared : W) : Sound config (.new P config shared) where
  orderly := orderly_new config shared
  chosen := rfl
  sized p hp := absurd hp (Multiset.notMem_zero p)

variable {config : ServerConfig}

/-- A connection that is told something comes to an end with it. -/
theorem Sound.answers (hends : Protocol.Ends P W) (h : Sound config s)
    (hfuel : config.recvBufferSize + config.sendBufferSize ≤ fuel) (events : List Event) :
    Answers fuel now events s := by
  intro e _ id c _ hfind
  have hid := (connection?_eq_some.mp hfind).2
  have hfits := h.sized _ (h.orderly.filed.attached_mem_pipes.mpr (hid.symm ▸ hfind))
  exact exists_react hends (d := c.driven s.shared now) ⟨hfits.recv, hfits.send⟩ hfuel _

/-- So does a round, in whatever order the events of a batch come. -/
theorem exists_round (hP : Protocol.Separate P W) (hends : Protocol.Ends P W) (h : Sound config s)
    (hspare : Spare s) (hfuel : config.recvBufferSize + config.sendBufferSize ≤ fuel) {r : Round}
    {steps : List Step} (htaken : r.Taken s steps) : ∃ s', s.run fuel steps = some s' := by
  cases r with
  | start | stop | network | sweep =>
      cases htaken
      exact ⟨_, run_singleton ..⟩
  | events poll listening now =>
      rcases htaken with ⟨events, hevents, rfl⟩
      rw [run_events]
      split
      · have htimely := timely_reports h.orderly.filed (h.orderly.room hspare) hevents
        rcases handles_dispatchAll hP htimely (h.answers hends hfuel events) with ⟨s', hs', _⟩
        exact ⟨s', hs'⟩
      · exact ⟨_, rfl⟩

theorem Handles.sized {events : List Event} (hends : Protocol.Ends P W) (h : Sound config s)
    (hhandles : Handles fuel now events s s') :
    ∀ p ∈ s'.pipes, p.Fits config.recvBufferSize config.sendBufferSize := by
  rcases hhandles.pipes with ⟨fresh, hpipes, hfresh⟩
  intro p hp
  rw [hpipes] at hp
  -- those who were there have reacted; newcomers are known up to their identity, which has no size
  rcases Multiset.mem_add.mp hp with hp | hp
  · exact Pipe.fits_bind h.sized (fun c hc => fits_after hends hc _ _) p hp
  · have hmem := Multiset.mem_map_of_mem Pipe.anonymous hp
    rw [hfresh, h.chosen] at hmem
    rcases Multiset.mem_map.mp hmem with ⟨socket, _, hsocket⟩
    rw [← Pipe.fits_anonymous, ← hsocket]
    exact fits_initial config s.shared now ⟨0, 0⟩ socket

theorem Leads.sound (hP : Protocol.Separate P W) (hends : Protocol.Ends P W) {r : Round}
    (hleads : Leads fuel s r s') (h : Sound config s) : Sound config s' := by
  have horder := hleads.orderly h.orderly
  cases hleads with
  | start bound =>
      have hconfig : (s.start bound).2.config = s.config := by
        rw [Server.start]
        split
        · rfl
        · split <;> rfl
      refine ⟨horder, hconfig.trans h.chosen, ?_⟩
      rw [pipes_start]
      exact h.sized
  | stop now =>
      -- what is released has no buffers to speak of
      rcases pipes_stop hP h.orderly.filed now with ⟨hconfig, _, hpipes⟩
      refine ⟨horder, hconfig.trans h.chosen, fun p hp => ?_⟩
      rw [hpipes] at hp
      rcases Multiset.mem_add.mp hp with hp | hp
      · refine Pipe.fits_bind h.sized (fun c _ => ?_) p hp
        trivial
      · rcases Multiset.mem_map.mp hp with ⟨socket, _, rfl⟩
        trivial
  | network f pending =>
      refine ⟨horder, h.chosen, ?_⟩
      rw [pipes_move]
      exact Pipe.fits_bind h.sized fun c hc => ⟨hc.recv, hc.send⟩
  | events _ _ _ hhandles =>
      exact ⟨horder, hhandles.config.trans h.chosen, hhandles.sized hends h⟩
  | unheard | unswept => exact h
  | sweep now =>
      rcases pipes_evictIdle hP h.orderly.filed now with ⟨hsteady, hpipes⟩
      refine ⟨horder, hsteady.config.trans h.chosen, ?_⟩
      rw [hpipes]
      refine Pipe.fits_bind h.sized fun c hc => ?_
      split
      · trivial
      · exact hc

theorem sound_passes (hP : Protocol.Separate P W) (hends : Protocol.Ends P W) (h : Sound config s)
    {rounds : List Round} {states : List (Server P W)} (hpasses : Passes fuel s rounds states)
    (hspare : ∀ s' ∈ s :: states, Spare s') : ∀ s' ∈ states, Sound config s' := by
  induction hpasses with
  | done s => exact fun _ hs' => absurd hs' List.not_mem_nil
  | round htaken hs _ ih =>
      rw [List.forall_mem_cons] at hspare
      have hnext := (leads_of_taken hP h.orderly hspare.1 htaken hs).sound hP hends h
      exact List.forall_mem_cons.mpr ⟨hnext, ih hnext hspare.2⟩

end Server
end TcpReactor
