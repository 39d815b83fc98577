import TcpReactor.Proofs.Session.Observer

namespace TcpReactor.Session

/-! # Runs that come to their end

Only a writable pass can go on without end, and only if its handler goes on to queue what leaves. If
a handler queues nothing while bytes leave, then each round leaves less in the send buffer, and as
much fuel as the send buffer has room for is enough for every pass (`exists_run`).
-/

variable {T : Type} [Transport T] {s : Session T}

/-! ## The room of the send buffer -/

theorem capacity_openUp (s : Session T) :
    s.openUp.2.sendBuffer.capacity = s.sendBuffer.capacity := by
  rw [openUp]
  split
  · rfl
  split
  · rfl
  split
  · rfl
  rename_i hsend
  have hcapacity := StreamBuffer.capacity_openUp hsend
  split
  · exact hcapacity
  · exact hcapacity

theorem capacity_close (s : Session T) : s.close.sendBuffer.capacity = s.sendBuffer.capacity := by
  rw [close]
  split <;> rfl

theorem capacity_sendOnce (s : Session T) :
    s.sendOnce.2.sendBuffer.capacity = s.sendBuffer.capacity := by
  rcases s.sendOnce_cases with ⟨_, _, hresult⟩ | ⟨head, tail, answer, transport, _, _, _, _, hcases⟩
  · rw [hresult]
  rcases hcases with ⟨_, hresult⟩ | ⟨_, hresult⟩ | ⟨_, _, hresult⟩ | ⟨_, _, _, hresult⟩ |
    ⟨n, sendBuffer, _, hconsume, hresult⟩
  all_goals rw [hresult]
  exact StreamBuffer.capacity_consume hconsume

theorem capacity_queueSend (s : Session T) (data : Bytes) :
    (s.queueSend data).2.sendBuffer.capacity = s.sendBuffer.capacity := by
  rw [queueSend]
  split
  · rfl
  split
  · rfl
  split
  · rfl
  · exact StreamBuffer.capacity_write ‹_›

theorem capacity_sendFrame (s : Session T) (payload : Bytes) :
    (s.sendFrame payload).2.sendBuffer.capacity = s.sendBuffer.capacity := by
  rw [sendFrame]
  split
  · rfl
  split
  · rfl
  split
  · rfl
  split
  · rfl
  -- behind the checks, a write for the header and one for the payload
  rename_i hheader
  split
  · exact StreamBuffer.capacity_write hheader
  split
  · exact StreamBuffer.capacity_write hheader
  · rename_i hpayload
    exact (StreamBuffer.capacity_write hpayload).trans (StreamBuffer.capacity_write hheader)

/-- Whatever is done to a session, and by whom, the capacity of its send buffer stays. No observer
is needed for that, so this one knows nothing and demands nothing. -/
theorem capacity_preserves (capacity : Nat) :
    Observer.Preserves (⟨fun _ _ => (), fun _ _ => True, fun _ => True⟩ : Observer Unit T)
      (fun _ s => s.sendBuffer.capacity = capacity) where
  quiet := by
    intro _ s s' hquiet h
    rcases hquiet with ⟨_, _, _, _, rfl⟩
    exact h
  close := fun {_ s} h => (capacity_close s).trans h
  called := by
    intro _ s c hdone h
    refine Observer.Keeps.single fun _ => ⟨trivial, ?_⟩
    cases c with
    | readable | writable => cases hdone
    | openUp => exact (capacity_openUp s).trans h
    | close => exact (capacity_close s).trans h
    | queueSend data => exact (capacity_queueSend s data).trans h
    | sendFrame payload => exact (capacity_sendFrame s payload).trans h
  started := fun _ h => Observer.Keeps.single fun _ => ⟨trivial, h⟩
  returned := fun h => Observer.Keeps.single fun _ => ⟨trivial, h⟩
  received := fun h => Observer.Keeps.single fun _ => ⟨trivial, h⟩
  sent := by
    intro _ s _ h
    refine fun _ => ⟨?_, (capacity_sendOnce s).trans h⟩
    rcases s.sendOnce_cases with ⟨_, hevents, _⟩ | ⟨_, _, _, _, _, _, _, hevents, _⟩
    · rw [hevents]
      trivial
    · rw [hevents]
      exact ⟨trivial, trivial⟩
  told := fun _ _ _ h => Observer.Keeps.single fun _ => ⟨trivial, h⟩
  toldClose := fun _ h => Observer.Keeps.single fun _ => ⟨trivial, h⟩
  toldInterest := fun _ _ _ h => Observer.Keeps.single fun _ => ⟨trivial, h⟩
  idle := fun _ h => Observer.Keeps.single fun _ => ⟨trivial, h⟩

/-! ## Passes and runs -/

variable {H : Type} [Handler T H] {d : Driven H T}

/-- The handler queues nothing while bytes leave. -/
def Drains (T H : Type) [Transport T] [Handler T H] : Prop :=
  ∀ (h : H) (n : Nat) (s : Session T),
    ((Handler.onSend h n).run s).2.sendBuffer.length ≤ s.sendBuffer.length

/-- If no callback lets the bytes increase that are still to leave, those of the recv buffer counted
as `held` does, then each round of a writable pass leaves less of them. -/
theorem exists_sendAll_of_held (held : StreamBuffer → Nat)
    (hheld : ∀ (h : H) (n : Nat) (s : Session T),
      held ((Handler.onSend h n).run s).2.recvBuffer +
        ((Handler.onSend h n).run s).2.sendBuffer.length ≤ held s.recvBuffer + s.sendBuffer.length)
    {fuel : Nat} (hfuel : held d.session.recvBuffer + d.session.sendBuffer.length ≤ fuel) :
    ∃ r, d.sendAll fuel = some r := by
  induction fuel using Nat.strongRecOn generalizing d with
  | ind fuel ih =>
      rw [Driven.sendAll.eq_def]
      have hrecv := d.session.recvBuffer_sendOnce
      rcases hsend : d.session.sendOnce with ⟨_ | _ | e | n, s⟩
      · exact ⟨_, rfl⟩
      · exact ⟨_, rfl⟩
      · exact ⟨_, rfl⟩
      · -- the round has sent a byte at least, and the handler puts none in its place
        have hless := length_sendOnce hsend
        rw [hsend] at hrecv
        rw [← show s.recvBuffer = d.session.recvBuffer from hrecv] at hfuel
        cases fuel with
        | zero => omega
        | succ fuel =>
            have hnotify := hheld d.handler n s
            rcases Driven.session_settle
              { session := ((Handler.onSend d.handler n).run s).2
                handler := ((Handler.onSend d.handler n).run s).1 } with ⟨_, _, hsettle⟩
            dsimp only
            split
            · refine ih fuel (Nat.lt_succ_self fuel) ?_
              rw [Driven.notify, hsettle]
              dsimp only
              omega
            · exact ⟨_, rfl⟩

theorem exists_sendAll (hdrains : Drains T H) {fuel : Nat}
    (hfuel : d.session.sendBuffer.length ≤ fuel) : ∃ r, d.sendAll fuel = some r := by
  refine exists_sendAll_of_held (fun _ => 0) (fun h n s => ?_) ?_
  · rw [Nat.zero_add, Nat.zero_add]
    exact hdrains h n s
  · rwa [Nat.zero_add]

/-- Only a writable pass can go on without end. -/
theorem exists_step_of_sendAll {fuel : Nat}
    (hsend : d.session.isOpen = true → ∃ r, d.sendAll fuel = some r)
    (step : Driven.Step H T) : ∃ d', d.step fuel step = some d' := by
  cases step with
  | visit | editHandler | editRecvBuffer | editTransport | wait => exact ⟨_, rfl⟩
  | call c =>
      suffices ∃ r, d.perform fuel c = some r by
        rcases this with ⟨r, hperform⟩
        exact ⟨r.2, by rw [Driven.step, hperform]; rfl⟩
      cases c with
      | openUp | close | readable | queueSend | sendFrame => exact ⟨_, rfl⟩
      | writable =>
          rw [Driven.perform, Driven.writable]
          split
          · exact hsend ‹_›
          · exact ⟨_, rfl⟩

theorem exists_step (hdrains : Drains T H) {fuel : Nat}
    (hfuel : d.session.sendBuffer.capacity ≤ fuel) (step : Driven.Step H T) :
    ∃ d', d.step fuel step = some d' := by
  refine exists_step_of_sendAll (fun _ => exists_sendAll hdrains ?_) step
  exact Nat.le_trans d.session.sendBuffer.length_le_capacity hfuel

/-- With such a handler every run comes to its end. -/
theorem exists_run (hdrains : Drains T H) {fuel : Nat}
    (hpending : d.session.closePending = false) (hfuel : d.session.sendBuffer.capacity ≤ fuel)
    (steps : List (Driven.Step H T)) : ∃ d', steps.foldlM (Driven.step fuel) d = some d' := by
  induction steps generalizing d with
  | nil => exact ⟨d, rfl⟩
  | cons step steps ih =>
      rcases exists_step hdrains hfuel step with ⟨d₁, hstep⟩
      have hkept := (capacity_preserves d.session.sendBuffer.capacity).step fuel step (q := ())
        ⟨rfl, hpending⟩ fun _ _ => trivial
      rcases hkept.2 d₁ hstep with ⟨hcapacity, hpending'⟩
      rw [List.foldlM_cons, hstep]
      exact ih hpending' (hcapacity ▸ hfuel)

end TcpReactor.Session
