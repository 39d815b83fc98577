import TcpReactor.Proofs.Service.EchoLossless
import TcpReactor.Proofs.Session.WritePass
import TcpReactor.Sim.ScriptedTransport

namespace TcpReactor

/-! # A writable pass of an echo ends

The pass goes on until its send buffer is empty, and after every chunk that leaves, the echo fills
it again from the recv buffer. What goes down all the same is what both buffers hold (`held`):

* `held_sendOnce`, `held_onSend`: a chunk that leaves lowers it by its length, and the echo, which
  only moves bytes from one buffer to the other, does not change it;
* `exhausted_pump`: the echo stops on its own each time, since no chunk that it moves is empty;
* `flush_ends`: so a pass ends, and makes no more offers than there were bytes.
-/

namespace Driven

variable {H T : Type} [Transport T] [Handler T H] {d : Driven H T} {fuel : Nat}
  {r : Except SessionError Unit × Driven H T}

/-- A pass that ends goes on to end in the same way if it may send more chunks. -/
theorem sendAll_of_le (h : d.sendAll fuel = some r) :
    ∀ fuel', fuel ≤ fuel' → d.sendAll fuel' = some r := by
  induction fuel, d using sendAll.induct with
  -- nothing has left, and such a round uses up no fuel
  | case1 fuel d s honce
  | case2 fuel d s honce
  | case3 fuel d e s honce =>
      intro fuel' _
      rw [sendAll.eq_def, honce] at h ⊢
      exact h
  | case4 d n s honce =>
      rw [sendAll.eq_def, honce] at h
      cases h
  | case5 d n s honce fuel told hopen ih =>
      intro fuel' hfuel
      obtain ⟨fuel', rfl⟩ := Nat.exists_eq_add_of_le' (Nat.one_le_of_lt hfuel)
      rw [sendAll.eq_def, honce] at h ⊢
      dsimp only at h ⊢
      rw [if_pos hopen] at h ⊢
      exact ih h fuel' (Nat.le_of_succ_le_succ hfuel)
  | case6 d n s honce fuel told hclosed =>
      intro fuel' hfuel
      obtain ⟨fuel', rfl⟩ := Nat.exists_eq_add_of_le' (Nat.one_le_of_lt hfuel)
      rw [sendAll.eq_def, honce] at h ⊢
      dsimp only at h ⊢
      rw [if_neg hclosed] at h ⊢
      exact h

end Driven

namespace Echo

open Session Driven

variable {T : Type} [Transport T] {s s' : Session T} {d : Driven Echo T} {n : Nat}

/-! ## What both buffers hold -/

/-- The number of bytes in both buffers. -/
def held (s : Session T) : Nat := s.recvBuffer.length + s.sendBuffer.length

/-- What an attempt that sends something does to the buffers. -/
theorem sendOnce_sent (h : s.sendOnce = (.sent n, s')) :
    0 < n ∧ s'.recvBuffer = s.recvBuffer ∧ s'.sendBuffer.length + n = s.sendBuffer.length := by
  rcases s.sendOnce_cases with ⟨_, _, honce⟩ | ⟨_, _, _, _, _, _, _, _, hcases⟩
  · rw [honce] at h
    cases h
  · rcases hcases with
      ⟨_, honce⟩ | ⟨_, honce⟩ | ⟨_, _, honce⟩ | ⟨_, _, _, honce⟩ | ⟨k, _, _, hconsume, honce⟩
    all_goals
      rw [honce] at h
      cases h
    -- what the transport took was queued, so dropping it leaves the rest
    obtain ⟨hqueued, hleft⟩ := StreamBuffer.length_consume hconsume
    refine ⟨Nat.succ_pos k, rfl, ?_⟩
    dsimp only [touch]
    omega

theorem held_sendOnce (h : s.sendOnce = (.sent n, s')) : held s' + n = held s := by
  obtain ⟨_, hrecv, hsend⟩ := sendOnce_sent h
  rw [held, held, hrecv, Nat.add_assoc, hsend]

/-- What the echo does when it is told of a chunk only moves bytes. -/
theorem held_onSend (d : Driven Echo T) (n : Nat) :
    held (d.notify (Handler.onSend · n)).session = held d.session := by
  obtain ⟨_, _, hsettle⟩ := session_settle
    { session := ((Handler.onSend d.handler n).run d.session).2
      handler := ((Handler.onSend d.handler n).run d.session).1 : Driven Echo T }
  rw [Driven.notify, hsettle]
  exact length_pump (d.session.recvBuffer.length + 1) d.handler d.session

/-! ## The pump stops -/

/-- The echo can move nothing more. -/
def Exhausted (s : Session T) : Prop :=
  s.isOpen = true → s.recvBuffer.contents = [] ∨ s.sendBuffer.freeSpace = 0

/-- The pump does not stop for want of rounds. -/
theorem exhausted_pump {rounds : Nat} (hrounds : s.recvBuffer.length < rounds) (e : Echo) :
    Exhausted ((pump rounds e).run s).2 := by
  induction rounds generalizing e s with
  | zero => omega
  | succ rounds ih =>
      rcases pump_round rounds e s with ⟨hstop, _, hrun⟩ |
        ⟨_, data, recvBuffer, sendBuffer, hread, hwrite, _, _, hrun⟩
      · rw [hrun]
        exact hstop
      · rw [hrun]
        -- a chunk is never empty
        have hsome := (StreamBuffer.freeSpace_write hwrite).1
        refine ih (?_ : recvBuffer.length < rounds) _
        rw [← StreamBuffer.length_contents, StreamBuffer.contents_of_read hread,
          List.length_append, StreamBuffer.length_contents] at hrounds
        omega

/-! ## Offers -/

/-- An attempt makes one offer at most, and none if nothing is queued. -/
theorem length_offers_sendOnceEvents (s : Session T) :
    (offers s.sendOnceEvents).length ≤ min 1 s.sendBuffer.length := by
  rcases s.sendOnce_cases with ⟨_, hevents, _⟩ | ⟨_, _, _, _, hcontents, hsome, _, hevents, _⟩
  · rw [hevents]
    exact Nat.zero_le _
  · rw [hevents, ← StreamBuffer.length_contents, hcontents, List.length_append]
    exact Nat.le_min.mpr ⟨Nat.le_refl 1, Nat.le_add_right_of_le (List.length_pos_iff.mpr hsome)⟩

/-- Queueing offers nothing. -/
theorem offers_pump (rounds : Nat) (e : Echo) (s : Session T) :
    offers ((pump rounds e).events s) = [] := by
  induction rounds generalizing e s with
  | zero => rfl
  | succ rounds ih =>
      rcases pump_round rounds e s with ⟨_, hevents, _⟩ | ⟨_, _, _, _, _, _, _, hevents, _⟩
      · rw [hevents]
        rfl
      · rw [hevents, offers_append, ih, List.append_nil]
        rfl

theorem offers_onSend (d : Driven Echo T) (n : Nat) :
    offers (d.notifyEvents (.send n) (Handler.onSend · n)) = [] := by
  show offers (_ :: (_ ++ settleEvents _)) = []
  rw [← List.singleton_append, offers_append, offers_append, offers_settleEvents, List.append_nil]
  exact offers_pump _ _ _

/-- Every offer but the last of a pass is followed by a chunk that leaves. -/
theorem length_offers_sendAllEvents (fuel : Nat) (d : Driven Echo T) :
    (offers (d.sendAllEvents fuel)).length ≤ held d.session := by
  have honce (d : Driven Echo T) :
      (offers d.session.sendOnceEvents).length ≤ min 1 (held d.session) :=
    (length_offers_sendOnceEvents d.session).trans (by dsimp only [held]; omega)
  have hoffered := Nat.le_min.mp (honce d)
  induction fuel, d using Driven.sendAll.induct with
  | case1 fuel d s hsend
  | case2 fuel d s hsend =>
      rw [Driven.sendAllEvents.eq_def, hsend, offers_append, offers_syncInterestEvents,
        List.append_nil]
      exact hoffered.2
  | case3 fuel d e s hsend =>
      rw [Driven.sendAllEvents.eq_def, hsend, offers_append, offers_closeEvents, List.append_nil]
      exact hoffered.2
  | case4 d n s hsend =>
      rw [Driven.sendAllEvents.eq_def, hsend, List.append_nil]
      exact hoffered.2
  | case5 d n s hsend fuel told hopen ih =>
      rw [Driven.sendAllEvents.eq_def, hsend]
      dsimp only
      rw [if_pos hopen, offers_append, offers_append, offers_onSend, List.nil_append,
        List.length_append]
      obtain ⟨hpos, _, _⟩ := sendOnce_sent hsend
      have htold : held told.session = held s := held_onSend { d with session := s } n
      -- the bytes that left pay for this offer, and what is held after them for those to come
      calc
        _ ≤ 1 + held told.session := Nat.add_le_add hoffered.1 (ih (Nat.le_min.mp (honce told)))
        _ ≤ n + held s := by rw [htold]; exact Nat.add_le_add_right hpos _
        _ = held d.session := by rw [Nat.add_comm, held_sendOnce hsend]
  | case6 d n s hsend fuel told hclosed =>
      rw [Driven.sendAllEvents.eq_def, hsend]
      dsimp only
      rw [if_neg hclosed, List.append_nil, offers_append, offers_onSend, List.append_nil]
      exact hoffered.2

/-! ## Passes -/

/-- The attempt takes off what it is told was taken. -/
theorem sendOnce_of_moved {offered : Bytes}
    (hoffer : lastOffer? s.sendOnceEvents = some (offered, .ok (.moved n))) (hpos : 0 < n)
    (hn : n ≤ offered.length) : ∃ s', s.sendOnce = (.sent n, s') := by
  rcases s.sendOnce_cases with
    ⟨_, hevents, _⟩ | ⟨head, tail, answer, _, hcontents, _, _, hevents, hcases⟩
  · rw [hevents] at hoffer
    cases hoffer
  · rw [hevents] at hoffer
    obtain ⟨rfl, rfl⟩ : head = offered ∧ answer = .ok (.moved n) :=
      Prod.mk.inj (Option.some.inj hoffer)
    -- of the ways in which an attempt can go, one has moved a part of what was offered
    rcases hcases with ⟨hmoved, _⟩ | ⟨hmoved, _⟩ | ⟨_, hmoved, _⟩ | ⟨_, hmoved, hless, _⟩ |
      ⟨k, _, hmoved, _, honce⟩
    · cases hmoved
    · cases hmoved
      omega
    · cases hmoved
    · -- what was offered is a part of what is queued
      cases hmoved
      rw [← StreamBuffer.length_contents, hcontents, List.length_append] at hless
      omega
    · cases hmoved
      exact ⟨_, honce⟩

/-- Whatever an echo's buffers hold and wherever they stand, and whatever its transport does, a
writable pass ends, with the same result however many more chunks it may send than both buffers
have bytes. It makes no more offers than that; when the echo is done with refilling the send buffer,
there was nothing left for it to move; and a chunk of `n` bytes that is taken makes what both
buffers hold less by `n`, which the echo then leaves as it is. -/
theorem flush_ends (d : Driven Echo T) :
    (∃ r, ∀ fuel, held d.session ≤ fuel → d.perform fuel .writable = some r) ∧
    (∀ fuel, (offers (d.passEvents fuel .writable)).length ≤ held d.session) ∧
    (∀ (e : Echo) (s : Session T), Exhausted (e.pumpAll.run s).2) ∧
    ∀ fuel fuel' d' offered n, Driven.PassReaches fuel d fuel' d' →
      lastOffer? d'.session.sendOnceEvents = some (offered, .ok (.moved n)) →
      0 < n → n ≤ offered.length →
      ∃ s, d'.session.sendOnce = (.sent n, s) ∧ held s + n = held d'.session ∧
        held (Driven.notify { d' with session := s } (Handler.onSend · n)).session = held s := by
  refine ⟨?_, fun fuel => ?_, fun e s => ?_, ?_⟩
  · -- the measure is fuel enough, and more fuel changes nothing
    obtain ⟨r, hr⟩ := exists_sendAll (d := d) (Nat.le_refl (held d.session))
    refine ⟨if d.session.isOpen then r else (.error .notOpen, d), fun fuel hfuel => ?_⟩
    rw [Driven.perform, Driven.writable]
    split
    · exact sendAll_of_le hr fuel hfuel
    · rfl
  · rw [Driven.passEvents]
    split
    · exact length_offers_sendAllEvents fuel d
    · exact Nat.zero_le _
  · exact exhausted_pump (Nat.lt_succ_self _) e
  · intro _ _ d' offered n _ hoffer hpos hn
    obtain ⟨s, honce⟩ := sendOnce_of_moved hoffer hpos hn
    exact ⟨s, honce, held_sendOnce honce, held_onSend { d' with session := s } n⟩

/-- Of six bytes four have found room in the send buffer. The transport takes three; the echo moves
up the last two, behind the end of the buffer, so that the next offer is of one byte; and so on,
until all six have left. -/
theorem flush_ends_refilled :
    let sends : List Sim.SendItem := [.accept 3, .accept 9, .accept 9]
    let new : Driven Echo Sim.ScriptedTransport :=
      .new { reads := [.data [1, 2, 3, 4, 5, 6]], sends } 8 4 0 {}
    let d := new.openUp.2.readable.2
    let d₁ := Driven.notify { d with session := d.session.sendOnce.2 } (Handler.onSend · 3)
    held d.session = 6 ∧ held d₁.session = 3 ∧ d₁.session.sendBuffer.contents = [4, 5, 6] ∧
    (offers (d.passEvents 6 .writable)).map (·.1) = [[1, 2, 3, 4], [4], [5, 6]] ∧
    (∃ r, ∀ fuel, 6 ≤ fuel → d.perform fuel .writable = some r) ∧
    ∃ s, d₁.session.sendOnce = (.sent 1, s) ∧ held s = 2 := by
  intro sends new d d₁
  have hheld : held d.session = 6 := by decide +kernel
  have hheld₁ : held d₁.session = 3 := by decide +kernel
  have hopen : d.isOpen = true := by decide +kernel
  have hopen₁ : d₁.isOpen = true := by decide +kernel
  have hsent : d.session.sendOnce = (.sent 3, d.session.sendOnce.2) :=
    Prod.ext (by decide +kernel) rfl
  have hoffer : lastOffer? d₁.session.sendOnceEvents = some ([4], .ok (.moved 1)) := by
    decide +kernel
  have hreaches : Driven.PassReaches 6 d 5 d₁ := .round hopen hsent (.start hopen₁)
  obtain ⟨hends, _, _, htaken⟩ := flush_ends d
  obtain ⟨s, honce, hleft, _⟩ := htaken 6 5 d₁ [4] 1 hreaches hoffer (by decide) (by decide)
  rw [hheld] at hends
  exact ⟨hheld, hheld₁, by decide +kernel, by decide +kernel, hends, s, honce, by omega⟩

end Echo
end TcpReactor
