import TcpReactor.Proofs.Session.Trace

namespace TcpReactor

/-! # Who reaches for the transport

A session asks its transport when it receives and sends, and closes it. Callbacks and the owner can
reach for the transport behind the session's back as well. What a session knows of its transport
then depends on what they leave alone.

* `Program.Spares P`: a program keeps `P` where it does so, and `Program.HandsOff`: it never does.
* `Handler.Spares P` and `Driven.Step.SparesTransport P`: the same of the callbacks of a handler,
  and of what the owner does in a step.
-/

namespace Session

/-- Where the program reaches for the transport itself, it keeps `P`. -/
def Program.Spares {T α : Type} (P : T → Prop) : Program T α → Prop
  | .done _ => True
  | .look next => ∀ s, (next s).Spares P
  | .call _ next => ∀ answer, (next answer).Spares P
  | .editRecvBuffer _ next => next.Spares P
  | .editTransport f next => (∀ t, P t → P (f t)) ∧ next.Spares P

namespace Program.Spares

variable {T α β : Type} {P : T → Prop} {p : Program T α}

theorem bind {f : α → Program T β} (hp : p.Spares P) (hf : ∀ a, (f a).Spares P) :
    (p.bind f).Spares P := by
  induction p with
  | done a => exact hf a
  | look next ih => exact fun s => ih s (hp s)
  | call c next ih => exact fun answer => ih answer (hp answer)
  | editRecvBuffer g next ih => exact ih hp
  | editTransport g next ih => exact ⟨hp.1, ih hp.2⟩

/-- What it keeps of several kinds, it keeps of all together. -/
theorem forall_spares {ι : Sort _} {Q : ι → T → Prop} (hp : ∀ i, p.Spares (Q i)) :
    p.Spares fun t => ∀ i, Q i t := by
  induction p with
  | done a => trivial
  | look next ih => exact fun s => ih s fun i => hp i s
  | call c next ih => exact fun answer => ih answer fun i => hp i answer
  | editRecvBuffer f next ih => exact ih hp
  | editTransport f next ih => exact ⟨fun t ht i => (hp i).1 t (ht i), ih fun i => (hp i).2⟩

end Program.Spares

/-- The program leaves the transport to the session. -/
def Program.HandsOff {T α : Type} : Program T α → Prop
  | .done _ => True
  | .look next => ∀ s, (next s).HandsOff
  | .call _ next => ∀ answer, (next answer).HandsOff
  | .editRecvBuffer _ next => next.HandsOff
  | .editTransport _ _ => False

namespace Program.HandsOff

variable {T α β : Type} {p : Program T α}

theorem bind {f : α → Program T β} (hp : p.HandsOff) (hf : ∀ a, (f a).HandsOff) :
    (p.bind f).HandsOff := by
  induction p with
  | done a => exact hf a
  | look next ih => exact fun s => ih s (hp s)
  | call c next ih => exact fun answer => ih answer (hp answer)
  | editRecvBuffer g next ih => exact ih hp
  | editTransport g next => exact hp.elim

theorem queueOrClose (reply : Bytes) : (Program.queueOrClose reply : Program T Bool).HandsOff := by
  intro answer
  cases answer with
  | ok => trivial
  | error e => exact fun _ => trivial

theorem spares {P : T → Prop} (hp : p.HandsOff) : p.Spares P := by
  induction p with
  | done a => trivial
  | look next ih => exact fun s => ih s (hp s)
  | call c next ih => exact fun answer => ih answer (hp answer)
  | editRecvBuffer f next ih => exact ih hp
  | editTransport f next => exact hp.elim

end Program.HandsOff
end Session

/-- Where its callbacks reach for the transport themselves, they keep `P`. -/
structure Handler.Spares {T : Type} [Transport T] (P : T → Prop) (H : Type) [Handler T H] :
    Prop where
  onRecv : ∀ h : H, (Handler.onRecv h : Session.Program T H).Spares P
  onSend : ∀ (h : H) (n : Nat), (Handler.onSend h n : Session.Program T H).Spares P

/-- Where the owner reaches for the transport in a step, or lets the handler do so, it keeps `P`. -/
def Driven.Step.SparesTransport {H T : Type} (P : T → Prop) : Driven.Step H T → Prop
  | .visit f => ∀ h, (f h).Spares P
  | .editTransport f => ∀ t, P t → P (f t)
  | _ => True

end TcpReactor
