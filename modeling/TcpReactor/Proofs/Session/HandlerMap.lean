import TcpReactor.Proofs.Session.Trace

namespace TcpReactor

/-! # Maps between handlers

What a session does depends on its handler only through the callbacks. So a map from the states of
one kind of handler to those of another, which commutes with each callback (`Handler.Hom`), commutes
with whatever is done to a session: what the map forgets plays no part for the session.
-/

open Session (Program)

theorem Session.Program.bind_assoc {T α β γ : Type} (p : Program T α) (f : α → Program T β)
    (g : β → Program T γ) : (p.bind f).bind g = p.bind fun a => (f a).bind g := by
  induction p with
  | done a => rfl
  | look next ih => exact congrArg Program.look (funext ih)
  | call c next ih => exact congrArg (Program.call c) (funext ih)
  | editRecvBuffer h next ih => exact congrArg (Program.editRecvBuffer h) ih
  | editTransport h next ih => exact congrArg (Program.editTransport h) ih

/-- The map commutes with the callbacks. -/
structure Handler.Hom (T : Type) {H H' : Type} [Handler T H] [Handler T H'] (φ : H → H') :
    Prop where
  onRecv : ∀ h, Handler.onRecv (φ h) = (Handler.onRecv h : Program T H).bind fun h => .done (φ h)
  onSend : ∀ h n,
    Handler.onSend (φ h) n = (Handler.onSend h n : Program T H).bind fun h => .done (φ h)
  onClose : ∀ h (s : Session T), Handler.onClose (φ h) s = φ (Handler.onClose h s)
  onInterest : ∀ h (s : Session T) on, Handler.onInterest (φ h) s on = φ (Handler.onInterest h s on)

namespace Driven

variable {T H H' : Type} {φ : H → H'}

/-- The session with the image of its handler. -/
def mapHandler (φ : H → H') (d : Driven H T) : Driven H' T :=
  { session := d.session, handler := φ d.handler }

@[simp] theorem isOpen_mapHandler [Transport T] (φ : H → H') (d : Driven H T) :
    (d.mapHandler φ).isOpen = d.isOpen := rfl

variable [Handler T H] [Handler T H']

theorem syncInterest_mapHandler (hφ : Handler.Hom T φ) (d : Driven H T) :
    (d.mapHandler φ).syncInterest = d.syncInterest.mapHandler φ := by
  rcases d with ⟨s, handler⟩
  show Driven.syncInterest ⟨s, φ handler⟩ = _
  simp only [syncInterest]
  split
  · simp only [mapHandler, hφ.onInterest]
  · rfl

theorem settle_mapHandler (hφ : Handler.Hom T φ) (d : Driven H T) :
    (d.mapHandler φ).settle = d.settle.mapHandler φ := by
  rcases d with ⟨s, handler⟩
  show Driven.settle ⟨s, φ handler⟩ = _
  simp only [settle]
  split
  · rw [← syncInterest_mapHandler hφ]
    simp only [mapHandler, hφ.onClose]
  · exact syncInterest_mapHandler hφ ⟨s, handler⟩

variable [Transport T]

theorem notify_mapHandler (hφ : Handler.Hom T φ) {f : H → Program T H} {f' : H' → Program T H'}
    (hf : ∀ h, f' (φ h) = (f h).bind fun h => .done (φ h)) (d : Driven H T) :
    (d.mapHandler φ).notify f' = (d.notify f).mapHandler φ := by
  rw [notify, mapHandler, hf, Program.run_bind]
  exact settle_mapHandler hφ { session := _, handler := _ }

theorem close_mapHandler (hφ : Handler.Hom T φ) (d : Driven H T) :
    (d.mapHandler φ).close = d.close.mapHandler φ := by
  rcases d with ⟨s, handler⟩
  show Driven.close ⟨s, φ handler⟩ = _
  simp only [close]
  split
  · rfl
  · exact settle_mapHandler hφ ⟨s.close, handler⟩

theorem readable_mapHandler (hφ : Handler.Hom T φ) (d : Driven H T) :
    (d.mapHandler φ).readable = (d.readable.1, d.readable.2.mapHandler φ) := by
  rcases d with ⟨s, handler⟩
  show Driven.readable ⟨s, φ handler⟩ = _
  -- the map is carried through what the handler is told, and through the close
  have hnotify (s : Session T) : Driven.notify ⟨s, φ handler⟩ Handler.onRecv =
      (Driven.notify ⟨s, handler⟩ Handler.onRecv).mapHandler φ :=
    notify_mapHandler hφ hφ.onRecv ⟨s, handler⟩
  have hclose (s : Session T) :
      Driven.close ⟨s, φ handler⟩ = (Driven.close ⟨s, handler⟩).mapHandler φ :=
    close_mapHandler hφ ⟨s, handler⟩
  simp only [readable]
  split
  · rcases s.receive 0 with ⟨_ | received | e, s'⟩
    · exact congrArg (Prod.mk _) (hnotify s')
    · refine congrArg (Prod.mk _) ?_
      dsimp only
      split
      · rw [hnotify, close_mapHandler hφ]
      · exact hclose s'
    · exact congrArg (Prod.mk _) (hclose s')
  · rfl

theorem sendAll_mapHandler (hφ : Handler.Hom T φ) (fuel : Nat) (d : Driven H T) :
    (d.mapHandler φ).sendAll fuel =
      (d.sendAll fuel).map fun r => (r.1, r.2.mapHandler φ) := by
  -- the recursion of `sendAll`: each chunk that was sent costs one unit of fuel
  induction fuel using Nat.strongRecOn generalizing d with
  | ind fuel ih =>
      rcases d with ⟨s, handler⟩
      show Driven.sendAll fuel ⟨s, φ handler⟩ = _
      rw [sendAll.eq_def, sendAll.eq_def]
      dsimp only
      rcases s.sendOnce with ⟨_ | _ | e | n, s'⟩
      · exact congrArg (fun d => some (_, d)) (syncInterest_mapHandler hφ ⟨s', handler⟩)
      · exact congrArg (fun d => some (_, d)) (syncInterest_mapHandler hφ ⟨s', handler⟩)
      · exact congrArg (fun d => some (_, d)) (close_mapHandler hφ ⟨s', handler⟩)
      · cases fuel with
        | zero => rfl
        | succ fuel =>
            have hnotify : Driven.notify ⟨s', φ handler⟩ (Handler.onSend · n) =
                (Driven.notify ⟨s', handler⟩ (Handler.onSend · n)).mapHandler φ :=
              notify_mapHandler hφ (fun h => hφ.onSend h n) ⟨s', handler⟩
            simp only [hnotify, isOpen_mapHandler]
            split
            · exact ih fuel (Nat.lt_succ_self fuel) _
            · rfl

theorem writable_mapHandler (hφ : Handler.Hom T φ) (fuel : Nat) (d : Driven H T) :
    (d.mapHandler φ).writable fuel =
      (d.writable fuel).map fun r => (r.1, r.2.mapHandler φ) := by
  rcases d with ⟨s, handler⟩
  show Driven.writable fuel ⟨s, φ handler⟩ = _
  simp only [writable]
  split
  · exact sendAll_mapHandler hφ fuel ⟨s, handler⟩
  · rfl

end Driven
end TcpReactor
