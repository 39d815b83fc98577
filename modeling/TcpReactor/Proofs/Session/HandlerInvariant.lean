import TcpReactor.Proofs.Session.DrivenInvariant

namespace TcpReactor

/-! # Invariants of handlers

What every callback keeps of the state of its handler, everything keeps that is done with a session:
between two callbacks nobody else touches the handler. The run of a session itself does not matter,
so this is an invariant of the two that asks nothing of the session (`Handler.Maintains.invariant`).
-/

/-- Every callback keeps `J`, whatever state it finds the session in. -/
structure Handler.Maintains (T : Type) {H : Type} [Transport T] [Handler T H] (J : H → Prop) :
    Prop where
  onRecv : ∀ {h} {s : Session T}, J h → J ((Handler.onRecv h).run s).1
  onSend : ∀ {h n} {s : Session T}, J h → J ((Handler.onSend h n).run s).1
  onClose : ∀ {h} {s : Session T}, J h → J (Handler.onClose h s)
  onInterest : ∀ {h on} {s : Session T}, J h → J (Handler.onInterest h s on)

/-- What the owner does to the handler in a step keeps `J`. -/
def Driven.Step.Keeps {H T : Type} [Transport T] (J : H → Prop) : Driven.Step H T → Prop
  | .visit f => ∀ h s, J h → J ((f h).run s).1.2
  | .editHandler f => ∀ h, J h → J (f h)
  | _ => True

/-- Whatever is done to a transport, nothing is asked of it. -/
theorem Session.Program.spares_true {T α : Type} (p : Program T α) : p.Spares fun _ => True := by
  induction p with
  | done a => trivial
  | look next ih => exact ih
  | call c next ih => exact ih
  | editRecvBuffer f next ih => exact ih
  | editTransport f next ih => exact ⟨fun _ _ => trivial, ih⟩

namespace Handler.Maintains

variable {T H : Type} [Transport T] [Handler T H] {J : H → Prop} {d d' : Driven H T} {fuel : Nat}
  {answer : Except SessionError Unit}

theorem invariant (hkeep : Maintains T J) :
    Driven.Invariant (T := T) (fun _ => True) (fun h _ => J h) where
  stable _ := ⟨fun _ _ h => h, fun _ h => h, fun h => h, fun h => h, fun _ h => h, fun _ h => h⟩
  atTime _ h := h
  editRecvBuffer _ h := h
  editTransport _ h := h
  onRecv := hkeep.onRecv
  onSend := hkeep.onSend
  onClose := hkeep.onClose
  onInterest _ _ := hkeep.onInterest

theorem close (hkeep : Maintains T J) (h : J d.handler) : J d.close.handler :=
  hkeep.invariant.close h

theorem readable (hkeep : Maintains T J) (h : J d.handler) : J d.readable.2.handler :=
  hkeep.invariant.readable h

theorem writable (hkeep : Maintains T J) (h : J d.handler)
    (hsend : d.writable fuel = some (answer, d')) : J d'.handler :=
  hkeep.invariant.writable h hsend

theorem perform (hkeep : Maintains T J) {c : Session.Call} (h : J d.handler)
    (hperform : d.perform fuel c = some (answer, d')) : J d'.handler :=
  hkeep.invariant.perform h hperform

/-- A program that is carried out from outside. -/
theorem exec (hkeep : Maintains T J) {α : Type} {p : Session.Program T α} {a : α}
    (h : J d.handler) (hexec : d.exec fuel p = some (a, d')) : J d'.handler :=
  hkeep.invariant.exec p.spares_true h hexec

omit [Handler T H] in
theorem sustains {step : Driven.Step H T} (hstep : step.Keeps J) :
    step.Sustains (fun _ => True) (fun h _ => J h) := by
  cases step with
  | visit f => exact hstep
  | editHandler f => exact fun h _ => hstep h
  | editTransport f => exact fun _ _ => trivial
  | call | editRecvBuffer | wait => trivial

theorem step (hkeep : Maintains T J) {step : Driven.Step H T} (hstep : step.Keeps J)
    (h : J d.handler) (hd : d.step fuel step = some d') : J d'.handler :=
  hkeep.invariant.step (sustains hstep) h hd

/-- A run of steps, each of which keeps `J` itself. -/
theorem run (hkeep : Maintains T J) {steps : List (Driven.Step H T)}
    (hsteps : ∀ step ∈ steps, step.Keeps J) (h : J d.handler)
    (hd : steps.foldlM (Driven.step fuel) d = some d') : J d'.handler :=
  hkeep.invariant.run (fun step hmem => sustains (hsteps step hmem)) h hd

end Handler.Maintains
end TcpReactor
