import TcpReactor.Proofs.Session.DrivenInvariant
import TcpReactor.Proofs.Session.WriteInterest
import TcpReactor.Proofs.Transport

namespace TcpReactor

/-! # What a handler knows of the write interest

A handler keeps a record of the interest that it was told last, be it in the poller or elsewhere. It
is told of changes only, so the record is right as long as no change is missed. One could be missed
if a session was opened again, which resets its interest without a word; but a transport that was
closed stays closed (`Transport.Final`), and with it the session.

* `Handler.Follows`: each callback keeps the record, and being told renews it.
* `Session.Known`: the record of an open session is right. Inside and outside of callbacks
  everything keeps this (`Driven.known_invariant`).
* `Session.InStep`: between two calls the record of an open session agrees with its send buffer.
-/

/-- By the record that the handler keeps, `A h on` means that it was told `on` last. -/
structure Handler.Follows (T : Type) {H : Type} [Transport T] [Handler T H] (A : H → Bool → Prop) :
    Prop where
  onRecv : ∀ {h on} {s : Session T}, A h on → A ((Handler.onRecv h).run s).1 on
  onSend : ∀ {h n on} {s : Session T}, A h on → A ((Handler.onSend h n).run s).1 on
  onClose : ∀ {h on} {s : Session T}, A h on → A (Handler.onClose h s) on
  onInterest : ∀ {h before on} {s : Session T}, A h before → A (Handler.onInterest h s on) on

namespace Session

/-- The transport of a closed session is closed for good, and of an open session it is known whether
it wants to write. -/
structure Known {T : Type} (P : T → Prop) (known : Bool → Prop) (s : Session T) : Prop where
  closed : s.phase = .closed → P s.transport
  opened : s.phase = .opened → known s.writeInterest

/-- Between two calls nothing is left to be made up for, either. -/
structure InStep {T : Type} (P : T → Prop) (known : Bool → Prop) (s : Session T) : Prop where
  known : s.Known P known
  settled : s.Settled

variable {T : Type} [Transport T] {P : T → Prop} {known : Bool → Prop} {s s' : Session T}

omit [Transport T] in
theorem Known.of_opened (hphase : s.phase = .opened) (h : known s.writeInterest) :
    s.Known P known where
  closed hclosed := by
    rw [hphase] at hclosed
    cases hclosed
  opened _ := h

omit [Transport T] in
theorem Known.of_closed (hphase : s.phase = .closed) (h : P s.transport) : s.Known P known where
  closed _ := h
  opened hopened := by
    rw [hphase] at hopened
    cases hopened

theorem Known.queued {c : Call} (hc : c.queues = true) (h : s.Known P known) :
    (s.perform c).2.Known P known := by
  have hinterest := writeInterest_perform hc s
  rcases perform_queues hc s with ⟨e, hcall⟩ | ⟨s', hcall, hopen, hopen', _, _⟩
  · rw [hcall]
    exact h
  · rw [hcall] at hinterest ⊢
    have hsame : s'.writeInterest = s.writeInterest := hinterest
    refine .of_opened hopen' ?_
    rw [hsame]
    exact h.opened hopen

/-- Whatever a session does while its handler is busy, its interest stays as it is known. -/
theorem stable_known (hP : Transport.Final T P) (known : Bool → Prop) :
    Stable (Known P known : Session T → Prop) where
  receive := by
    intro s received hopen h
    have hphase := phase_of_isOpen hopen
    have hknown := h.opened hphase
    obtain ⟨_, _, _, _, hs⟩ := s.receive_quiet received
    rw [hs]
    exact .of_opened hphase hknown
  sendOnce := by
    intro s hopen h
    have hphase := phase_of_isOpen hopen
    refine .of_opened (s.sendOnce_marks.1.trans hphase) ?_
    rw [s.writeInterest_sendOnce]
    exact h.opened hphase
  openUp := by
    intro s h
    rcases hcall : s.openUp with ⟨e | _, s'⟩
    · rcases openUp_error hcall with rfl | ⟨hphase, recvBuffer, sendBuffer, rfl, _⟩
      · exact h
      · exact .of_closed (s := { s with recvBuffer, sendBuffer }) hphase (h.closed hphase)
    · -- a closed session does not open again
      obtain ⟨hphase, hopen, _⟩ := openUp_ok hcall
      rw [hP.isOpen (h.closed hphase)] at hopen
      cases hopen
  close := by
    intro s h
    by_cases hphase : s.phase = .closed
    · rw [close_closed hphase]
      exact h
    · have hopened : s.phase = .opened := by
        cases hs : s.phase with
        | opened => rfl
        | closed => exact absurd hs hphase
      -- from here on the transport is closed for good
      refine .of_closed s.phase_close ?_
      rw [transport_close hopened]
      exact hP.close _
  queueSend data h := h.queued (c := .queueSend data) rfl
  sendFrame payload h := h.queued (c := .sendFrame payload) rfl

end Session

/-! ## Between two calls -/

namespace Driven

open Session (Program Call Known InStep)

variable {T H : Type} [Transport T] [Handler T H] {P : T → Prop} {A : H → Bool → Prop}
  {d d' : Driven H T} {fuel : Nat} {answer : Except SessionError Unit}

/-- A program that a callback runs on its session. -/
theorem known_run {α : Type} {p : Program T α} {known : Bool → Prop} {s : Session T}
    (hP : Transport.Final T P) (hp : p.Spares P) (h : s.Known P known) :
    (p.run s).2.Known P known := by
  refine (Session.stable_known hP known).run (hp.keeps ?_ ?_) h
  · intro s recvBuffer hs
    exact ⟨hs.closed, hs.opened⟩
  · intro s f hf hs
    exact ⟨fun hclosed => hf _ (hs.closed hclosed), hs.opened⟩

/-- Everything keeps it that is done with a session and its handler. -/
theorem known_invariant (hP : Transport.Final T P) (hH : Handler.Spares P H)
    (hA : Handler.Follows T A) : Invariant P fun (h : H) (s : Session T) => s.Known P (A h) where
  stable h := Session.stable_known hP (A h)
  atTime _ h := ⟨h.closed, h.opened⟩
  editRecvBuffer _ h := ⟨h.closed, h.opened⟩
  editTransport hf h := ⟨fun hclosed => hf _ (h.closed hclosed), h.opened⟩
  onRecv := by
    intro h s hs
    -- the session has moved on without a word to the handler, whose record stays right
    have hrun := known_run hP (hH.onRecv h) hs
    exact ⟨hrun.closed, fun hopened => hA.onRecv (hrun.opened hopened)⟩
  onSend := by
    intro h n s hs
    have hrun := known_run hP (hH.onSend h n) hs
    exact ⟨hrun.closed, fun hopened => hA.onSend (hrun.opened hopened)⟩
  onClose := by
    intro h s hs
    exact ⟨hs.closed, fun hopened => hA.onClose (hs.opened hopened)⟩
  onInterest := by
    intro h s on hopened hs
    exact .of_opened hopened (hA.onInterest (hs.opened hopened))

end Driven

namespace Session.InStep

open Session (Program Call)

variable {T H : Type} [Transport T] {P : T → Prop} {known : Bool → Prop} {s s' : Session T}

/-- The record of a session that is open agrees with its send buffer. -/
theorem known_pending (h : s.InStep P known) (hopen : s.isOpen = true) :
    known s.hasPendingSend := by
  have hphase := phase_of_isOpen hopen
  rw [← h.settled.synced hphase]
  exact h.known.opened hphase

/-- A session that has just been opened, of which nothing was told yet. -/
theorem of_openUp (hpending : s.closePending = false) (hopen : s.openUp = (.ok (), s'))
    (h : known false) : s'.InStep P known := by
  obtain ⟨_, _, hphase, hempty, hinterest, hpending'⟩ := openUp_ok hopen
  refine ⟨.of_opened hphase (hinterest ▸ h), hpending'.trans hpending, fun _ => ?_⟩
  rw [hinterest, hasPendingSend, (StreamBuffer.isEmpty_iff _).mpr hempty]
  rfl

omit [Transport T] in
theorem atTime (h : s.InStep P known) (now : Nat) : (s.atTime now).InStep P known :=
  ⟨⟨h.known.closed, h.known.opened⟩, ⟨h.settled.told, h.settled.synced⟩⟩

omit [Transport T] in
/-- Somebody reaches for the transport. -/
theorem editTransport {f : T → T} (hf : ∀ t, P t → P (f t)) (h : s.InStep P known) :
    InStep P known { s with transport := f s.transport } :=
  ⟨⟨fun hclosed => hf _ (h.known.closed hclosed), h.known.opened⟩,
    ⟨h.settled.told, h.settled.synced⟩⟩

variable [Handler T H] {A : H → Bool → Prop} {d d' : Driven H T} {fuel : Nat}

/-- A run of calls. -/
theorem run_calls (hP : Transport.Final T P) (hH : Handler.Spares P H) (hA : Handler.Follows T A)
    {steps : List (Driven.Step H T)} (hsteps : ∀ step ∈ steps, ∃ c, step = .call c)
    (h : d.session.InStep P (A d.handler)) (hd : steps.foldlM (Driven.step fuel) d = some d') :
    d'.session.InStep P (A d'.handler) := by
  refine ⟨(Driven.known_invariant hP hH hA).run (fun step hmem => ?_) h.known hd,
    Driven.settled_run h.settled hd⟩
  obtain ⟨c, rfl⟩ := hsteps step hmem
  trivial

theorem perform (hP : Transport.Final T P) (hH : Handler.Spares P H) (hA : Handler.Follows T A)
    {c : Call} {answer : Except SessionError Unit} (h : d.session.InStep P (A d.handler))
    (hd : d.perform fuel c = some (answer, d')) : d'.session.InStep P (A d'.handler) :=
  ⟨(Driven.known_invariant hP hH hA).perform h.known hd, Driven.settled_perform h.settled hd⟩

theorem withHandler (hP : Transport.Final T P) (hH : Handler.Spares P H)
    (hA : Handler.Follows T A) {α : Type} {f : H → Program T (α × H)}
    (hf : (f d.handler).Spares P)
    (hkeep : ∀ s on, A d.handler on → A ((f d.handler).run s).1.2 on)
    (h : d.session.InStep P (A d.handler)) :
    (d.withHandler f).2.session.InStep P (A (d.withHandler f).2.handler) := by
  have hrun := Driven.known_run hP hf h.known
  refine ⟨(Driven.known_invariant hP hH hA).withHandler ⟨hrun.closed, fun hopened => ?_⟩,
    Driven.settled_settle _⟩
  exact hkeep _ _ (hrun.opened hopened)

end Session.InStep
end TcpReactor
