import TcpReactor.Proofs.Session.Invariant
import TcpReactor.Proofs.Simulation

namespace TcpReactor

/-! # Invariants of sessions with their handlers

A property may relate a session to what its handler knows of it. Inside a callback only the session
moves on, and the handler catches up when it is told: of what has arrived or left, of a close, and
of the interest in write readiness. Between two calls the property holds if each of these keeps it.

* `Driven.Invariant` lists what has to be shown. Its parameter `P` is what everybody keeps of a
  transport who reaches for it behind the session.
* `Driven.Invariant.perform`, `exec`, `run`: then everything keeps the property that is done with
  the session from outside.
-/

/-- What the session does by itself, and each callback, keeps `J`. Whoever reaches for the transport
keeps `P`, and that suffices for `J`. -/
structure Driven.Invariant {T H : Type} [Transport T] [Handler T H] (P : T → Prop)
    (J : H → Session T → Prop) : Prop where
  stable : ∀ h, Session.Stable (J h)
  atTime : ∀ {h s} now, J h s → J h (s.atTime now)
  editRecvBuffer : ∀ {h s} recvBuffer, J h s → J h { s with recvBuffer }
  editTransport : ∀ {h s} {f : T → T}, (∀ t, P t → P (f t)) → J h s →
    J h { s with transport := f s.transport }
  onRecv : ∀ {h s}, J h s → J ((Handler.onRecv h).run s).1 ((Handler.onRecv h).run s).2
  onSend : ∀ {h n s}, J h s → J ((Handler.onSend h n).run s).1 ((Handler.onSend h n).run s).2
  /-- The handler is told of a close. -/
  onClose : ∀ {h s}, J h s →
    J (Handler.onClose h { s with closePending := false }) { s with closePending := false }
  /-- The handler of an open session is told of its interest. -/
  onInterest : ∀ {h s} on, s.phase = .opened → J h s →
    J (Handler.onInterest h { s with writeInterest := on } on) { s with writeInterest := on }

namespace Driven.Invariant

open Session (Program Call)

variable {T H : Type} [Transport T] [Handler T H] {P : T → Prop} {J : H → Session T → Prop}
  {d d' : Driven H T} {fuel : Nat} {answer : Except SessionError Unit}

theorem syncInterest (hinv : Invariant P J) (h : J d.handler d.session) :
    J d.syncInterest.handler d.syncInterest.session := by
  unfold Driven.syncInterest
  by_cases hchanged : d.session.phase = .opened ∧ d.session.hasPendingSend ≠ d.session.writeInterest
  · rw [if_pos hchanged]
    exact hinv.onInterest _ hchanged.1 h
  · rw [if_neg hchanged]
    exact h

theorem settle (hinv : Invariant P J) (h : J d.handler d.session) :
    J d.settle.handler d.settle.session := by
  unfold Driven.settle
  by_cases hpending : d.session.closePending = true
  · rw [if_pos hpending]
    exact hinv.syncInterest (hinv.onClose h)
  · rw [if_neg hpending]
    exact hinv.syncInterest h

theorem notify (hinv : Invariant P J) {f : H → Program T H}
    (h : J ((f d.handler).run d.session).1 ((f d.handler).run d.session).2) :
    J (d.notify f).handler (d.notify f).session :=
  hinv.settle (d := ⟨((f d.handler).run d.session).2, ((f d.handler).run d.session).1⟩) h

theorem withHandler (hinv : Invariant P J) {α : Type} {f : H → Program T (α × H)}
    (h : J ((f d.handler).run d.session).1.2 ((f d.handler).run d.session).2) :
    J (d.withHandler f).2.handler (d.withHandler f).2.session :=
  hinv.settle (d := ⟨((f d.handler).run d.session).2, ((f d.handler).run d.session).1.2⟩) h

theorem close (hinv : Invariant P J) (h : J d.handler d.session) :
    J d.close.handler d.close.session := by
  unfold Driven.close
  by_cases hclosed : d.session.phase = .closed
  · rw [if_pos hclosed]
    exact h
  · rw [if_neg hclosed]
    exact hinv.settle ((hinv.stable _).close h)

theorem readable (hinv : Invariant P J) (h : J d.handler d.session) :
    J d.readable.2.handler d.readable.2.session := by
  unfold Driven.readable
  by_cases hopen : d.session.isOpen = true
  · rw [if_pos hopen]
    have hreceived := (hinv.stable _).receive 0 hopen h
    rcases hreceive : d.session.receive 0 with ⟨_ | received | e, s⟩
    all_goals rw [hreceive] at hreceived
    · exact hinv.notify (hinv.onRecv hreceived)
    · -- the handler gets what came before the end
      dsimp only
      split
      · exact hinv.close (hinv.notify (hinv.onRecv hreceived))
      · exact hinv.close hreceived
    · exact hinv.close hreceived
  · rw [if_neg hopen]
    exact h

theorem sendAll (hinv : Invariant P J) (hopen : d.session.isOpen = true)
    (h : J d.handler d.session) (hsend : d.sendAll fuel = some (answer, d')) :
    J d'.handler d'.session := by
  -- a round starts with one attempt to send; then the handler catches up
  have hsent (d : Driven H T) {sending : Session.SendStep} {s : Session T}
      (hopen : d.session.isOpen = true) (h : J d.handler d.session)
      (honce : d.session.sendOnce = (sending, s)) : J d.handler s := by
    have hs := (hinv.stable d.handler).sendOnce hopen h
    rwa [honce] at hs
  induction fuel, d using Driven.sendAll.induct with
  | case1 fuel d s honce | case2 fuel d s honce =>
      rw [Driven.sendAll.eq_def, honce] at hsend
      cases hsend
      exact hinv.syncInterest (hsent d hopen h honce)
  | case3 fuel d cause s honce =>
      rw [Driven.sendAll.eq_def, honce] at hsend
      cases hsend
      exact hinv.close (hsent d hopen h honce)
  | case4 d n s honce =>
      rw [Driven.sendAll.eq_def, honce] at hsend
      cases hsend
  | case5 d n s honce fuel told hopen' ih =>
      rw [Driven.sendAll.eq_def, honce] at hsend
      dsimp only at hsend
      rw [if_pos hopen'] at hsend
      exact ih hopen' (hinv.notify (hinv.onSend (hsent d hopen h honce))) hsend
  | case6 d n s honce fuel told hclosed =>
      rw [Driven.sendAll.eq_def, honce] at hsend
      dsimp only at hsend
      rw [if_neg hclosed] at hsend
      cases hsend
      exact hinv.notify (hinv.onSend (hsent d hopen h honce))

theorem writable (hinv : Invariant P J) (h : J d.handler d.session)
    (hsend : d.writable fuel = some (answer, d')) : J d'.handler d'.session := by
  unfold Driven.writable at hsend
  by_cases hopen : d.session.isOpen = true
  · rw [if_pos hopen] at hsend
    exact hinv.sendAll hopen h hsend
  · rw [if_neg hopen] at hsend
    cases hsend
    exact h

theorem queued (hinv : Invariant P J) {c : Call} (hc : c.queues = true)
    (h : J d.handler d.session) (hperform : d.perform fuel c = some (answer, d')) :
    J d'.handler d'.session := by
  have hbusy := (hinv.stable d.handler).perform c h
  rw [perform_of_queues fuel d hc] at hperform
  rcases hqueue : d.session.perform c with ⟨e | _, s⟩
  all_goals
    rw [hqueue] at hperform hbusy
    cases hperform
  · exact hbusy
  · exact hinv.syncInterest hbusy

theorem perform (hinv : Invariant P J) {c : Call} (h : J d.handler d.session)
    (hperform : d.perform fuel c = some (answer, d')) : J d'.handler d'.session := by
  cases c with
  | openUp =>
      cases hperform
      exact (hinv.stable _).openUp h
  | close =>
      cases hperform
      exact hinv.close h
  | readable =>
      have hd : d.readable.2 = d' := congrArg Prod.snd (Option.some.inj hperform)
      rw [← hd]
      exact hinv.readable h
  | writable => exact hinv.writable h hperform
  | queueSend data => exact hinv.queued rfl h hperform
  | sendFrame payload => exact hinv.queued rfl h hperform

/-- A program that is carried out from outside. -/
theorem exec (hinv : Invariant P J) {α : Type} {p : Program T α} {a : α} (hp : p.Spares P)
    (h : J d.handler d.session) (hexec : d.exec fuel p = some (a, d')) :
    J d'.handler d'.session := by
  -- the induction is on the program: each call is followed by what it causes
  induction p generalizing d with
  | done b =>
      cases hexec
      exact h
  | look next ih =>
      unfold Driven.exec at hexec
      exact ih _ (hp _) h hexec
  | call c next ih =>
      unfold Driven.exec at hexec
      obtain ⟨⟨answer, d₁⟩, hperform, hrest⟩ := Option.bind_eq_some_iff.mp hexec
      exact ih _ (hp _) (hinv.perform h hperform) hrest
  | editRecvBuffer f next ih =>
      unfold Driven.exec at hexec
      refine ih hp ?_ hexec
      exact hinv.editRecvBuffer _ h
  | editTransport f next ih =>
      unfold Driven.exec at hexec
      refine ih hp.2 ?_ hexec
      exact hinv.editTransport hp.1 h

/-! ## Runs of steps -/

end Driven.Invariant

/-- What the owner does to the handler and the transport in a step keeps `J` and `P`. -/
def Driven.Step.Sustains {H T : Type} [Transport T] (P : T → Prop) (J : H → Session T → Prop) :
    Driven.Step H T → Prop
  | .visit f => ∀ h s, J h s → J ((f h).run s).1.2 ((f h).run s).2
  | .editHandler f => ∀ h s, J h s → J (f h) s
  | .editTransport f => ∀ t, P t → P (f t)
  | _ => True

namespace Driven.Invariant

variable {T H : Type} [Transport T] [Handler T H] {P : T → Prop} {J : H → Session T → Prop}
  {d d' : Driven H T} {fuel : Nat}

theorem step (hinv : Invariant P J) {step : Driven.Step H T} (hstep : step.Sustains P J)
    (h : J d.handler d.session) (hd : d.step fuel step = some d') : J d'.handler d'.session := by
  cases step with
  | call c =>
      obtain ⟨⟨answer, d₁⟩, hperform, rfl⟩ := Option.map_eq_some_iff.mp hd
      exact hinv.perform h hperform
  | visit f =>
      cases hd
      exact hinv.withHandler (hstep d.handler d.session h)
  | editHandler f =>
      cases hd
      exact hstep d.handler d.session h
  | editRecvBuffer f =>
      cases hd
      exact hinv.editRecvBuffer _ h
  | editTransport f =>
      cases hd
      exact hinv.editTransport hstep h
  | wait now =>
      cases hd
      exact hinv.atTime now h

/-- A run of steps, each of which keeps `J` itself. -/
theorem run (hinv : Invariant P J) {steps : List (Driven.Step H T)}
    (hsteps : ∀ step ∈ steps, step.Sustains P J) (h : J d.handler d.session)
    (hd : steps.foldlM (Driven.step fuel) d = some d') : J d'.handler d'.session :=
  foldlM_keeps (I := fun d => J d.handler d.session)
    (fun hstep h hd => hinv.step hstep h hd) hsteps h hd

end Driven.Invariant
end TcpReactor
