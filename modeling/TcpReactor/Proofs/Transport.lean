import TcpReactor.Socket

namespace TcpReactor

/-! # Honest transports

A session believes its transport: of what it offers, it drops as many bytes as the transport says it
has taken. Whether these are the bytes that were taken is the transport's business. An honest
transport takes a front part of what it is offered, and says how long that part is; it may take as
little as it likes, nothing included, and it may fail.
-/

/-- By the record `taken` of the bytes that a transport of type `T` has taken in its life, its
answers are true. -/
structure Transport.Honest (T : Type) [Transport T] (taken : T → Bytes) : Prop where
  /-- What is said to be taken is a front part of what was offered, and has been taken. -/
  moved : ∀ {t t' : T} {offered : Bytes} {n : Nat},
    Transport.send t offered = (.ok (.moved n), t') →
      n ≤ offered.length ∧ taken t' = taken t ++ offered.take n
  /-- Any other answer means that nothing was taken. -/
  refused : ∀ {t t' : T} {offered : Bytes} {answer : Except SocketError (Transfer Nat)},
    Transport.send t offered = (answer, t') → (∀ n, answer ≠ .ok (.moved n)) →
      taken t' = taken t

/-- A transport of type `T` takes bytes when it is asked to send, and its record `taken` changes by
nothing else that a session asks of it. -/
structure Transport.Recording (T : Type) [Transport T] (taken : T → Bytes) : Prop where
  recv : ∀ (t : T) (limit : Nat), taken (Transport.recv t limit).2 = taken t
  close : ∀ t : T, taken (Transport.close t) = taken t

/-- A transport that does what it is asked stays open. Who closes it is its owner, and it may close
of itself when it fails. -/
structure Transport.Lasting (T : Type) [Transport T] : Prop where
  sent : ∀ {t t' : T} {offered : Bytes} {answer : Transfer Nat},
    Transport.send t offered = (.ok answer, t') → Transport.isOpen t = true →
      Transport.isOpen t' = true
  received : ∀ {t t' : T} {limit : Nat} {answer : Transfer Bytes},
    Transport.recv t limit = (.ok answer, t') → Transport.isOpen t = true →
      Transport.isOpen t' = true

/-- A close leads to a state of the transport with `P`, in which it is not open. -/
structure Transport.Final (T : Type) [Transport T] (P : T → Prop) : Prop where
  close : ∀ t : T, P (Transport.close t)
  isOpen : ∀ {t : T}, P t → Transport.isOpen t = false

/-! ## Sockets -/

namespace Socket

def Closed (s : Socket) : Prop := s.isOpen = false

theorem final_closed : Transport.Final Socket Closed where
  close _ := rfl
  isOpen h := h

/-- A socket is honest: it takes what it has room for, or fails. -/
theorem honest : Transport.Honest Socket (·.outbound) where
  moved := by
    intro s s' offered n h
    simp only [Transport.send, send] at h
    repeat' split at h
    all_goals cases h
    · exact ⟨Nat.le_refl _, by rw [List.take_length]⟩
    · rename_i room _
      have htake : offered.take (offered.take (room + 1)).length = offered.take (room + 1) :=
        (List.prefix_iff_eq_take.mp (List.take_prefix _ _)).symm
      exact ⟨List.length_take_le' _ _, by rw [htake]⟩
  refused := by
    intro s s' offered answer h hanswer
    simp only [Transport.send, send] at h
    repeat' split at h
    all_goals cases h
    · rfl
    · rfl
    · rfl
    · exact absurd rfl (hanswer _)
    · rfl
    · exact absurd rfl (hanswer _)

theorem recording : Transport.Recording Socket (·.outbound) where
  recv := by
    intro s limit
    simp only [Transport.recv, recv]
    repeat' split
    all_goals rfl
  close _ := rfl

/-- Only traffic has moved: it is the same socket, and nobody has opened or closed it. -/
structure Moved (s s' : Socket) : Prop where
  peer : s'.peer = s.peer
  isOpen : s'.isOpen = s.isOpen

theorem Moved.refl (s : Socket) : Moved s s := ⟨rfl, rfl⟩

theorem Moved.trans {s s' s'' : Socket} (h : Moved s s') (h' : Moved s' s'') : Moved s s'' :=
  ⟨h'.peer.trans h.peer, h'.isOpen.trans h.isOpen⟩

theorem moved_send (s : Socket) (data : Bytes) : Moved s (Transport.send s data).2 := by
  simp only [Transport.send, send]
  repeat' split
  all_goals exact ⟨rfl, rfl⟩

theorem moved_recv (s : Socket) (limit : Nat) : Moved s (Transport.recv s limit).2 := by
  simp only [Transport.recv, recv]
  repeat' split
  all_goals exact ⟨rfl, rfl⟩

/-- A socket closes only when it is told to. -/
theorem lasting : Transport.Lasting Socket where
  sent := by
    intro s s' offered answer h hopen
    have hmoved := s.moved_send offered
    rw [h] at hmoved
    exact hmoved.isOpen.trans hopen
  received := by
    intro s s' limit answer h hopen
    have hmoved := s.moved_recv limit
    rw [h] at hmoved
    exact hmoved.isOpen.trans hopen

end Socket
end TcpReactor
