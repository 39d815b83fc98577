import TcpReactor.Proofs.Session.Observer
import TcpReactor.Proofs.Transport
import TcpReactor.Service.Echo

namespace TcpReactor.Session

/-! # What is queued is sent

The outbound bytes of a session are kept in a ledger, from one successful open to the next: what its
transport has taken of them, and what was queued, by calls from outside and from inside callbacks
alike. Over an honest transport nothing is lost, doubled or moved:

* as long as the session is open, what is queued is what the transport has taken followed by what
  waits in the send buffer, whenever anybody but the session itself can look;
* at all times, after a close too, the transport has taken a front part of what is queued.

That the ledger agrees with the transport which the session ends with is `record_kept`, in
`TcpReactor.Proofs.Session.Record`.
-/

/-- The outbound bytes since the last successful open. -/
structure Ledger where
  /-- What the transport has taken. -/
  accepted : Bytes := []
  /-- What was queued. -/
  queued : Bytes := []
  deriving DecidableEq, Repr

namespace Ledger

variable {T : Type} (taken : T → Bytes)

/-- Enter an event. The transport's own record says what it has taken. -/
def next (l : Ledger) : Event T → Ledger
  | .called .openUp (some (.ok ())) _ => {}
  | .called c (some (.ok ())) _ => { l with queued := l.queued ++ c.outbound }
  | .sent before _ _ after =>
      { l with accepted := l.accepted ++ (taken after).drop (taken before).length }
  | _ => l

/-- The ledger after a stretch of a trace. -/
def of (es : List (Event T)) : Ledger := es.foldl (next taken) {}

/-- The transport has taken a front part of what is queued. -/
def Sound (l : Ledger) : Prop := l.accepted <+: l.queued

/-- Everything that is queued was taken or waits in the session. -/
def Balanced (l : Ledger) (s : Session T) : Prop :=
  l.accepted ++ s.sendBuffer.contents = l.queued

end Ledger

/-- All along the trace the transport has taken a front part of what is queued, and wherever the
session is seen open, all the rest waits in its send buffer. -/
def OutboundIntact {T : Type} (taken : T → Bytes) (trace : List (Event T)) : Prop :=
  ∀ before e after, trace = before ++ e :: after →
    (Ledger.of taken (before ++ [e])).Sound ∧
    ∀ s, e.seen? = some s → s.phase = .opened → (Ledger.of taken (before ++ [e])).Balanced s

/-! ## The ledger of a run -/

variable {T : Type} [Transport T] {taken : T → Bytes} {l : Ledger} {s s' : Session T}

/-- The bookkeeper: after every event the ledger has to be sound, and balanced if the session is
seen open. -/
def bookkeeper (taken : T → Bytes) : Observer Ledger T where
  next := Ledger.next taken
  demands l e := (l.next taken e).Sound ∧
    ∀ s, e.seen? = some s → s.phase = .opened → (l.next taken e).Balanced s

/-- The invariant: the ledger is sound, and balanced while the session is open. -/
def Booked (l : Ledger) (s : Session T) : Prop :=
  l.Sound ∧ (s.phase = .opened → l.Balanced s)

omit [Transport T] in
theorem Ledger.Balanced.sound (h : l.Balanced s) : l.Sound := by
  unfold Ledger.Sound
  rw [← h]
  exact List.prefix_append _ _

omit [Transport T] in
/-- An event that enters nothing. -/
theorem Booked.skip {e : Event T} (hnext : l.next taken e = l)
    (hseen : ∀ s', e.seen? = some s' → s' = s) (h : Booked l s) :
    (bookkeeper taken).Keeps Booked l [e] s := by
  refine Observer.Keeps.single fun _ => ?_
  show ((l.next taken e).Sound ∧ _) ∧ Booked (l.next taken e) s
  rw [hnext]
  refine ⟨⟨h.1, ?_⟩, h⟩
  intro s' hs' hopen
  rw [hseen s' hs'] at hopen ⊢
  exact h.2 hopen

omit [Transport T] in
/-- An event that only the ledger sees. -/
theorem Booked.enter {e : Event T} (hseen : e.seen? = none) (h : Booked (l.next taken e) s) :
    (bookkeeper taken).Keeps Booked l [e] s := by
  refine Observer.Keeps.single fun _ => ⟨⟨h.1, ?_⟩, h⟩
  intro s' hs'
  rw [hseen] at hs'
  cases hs'

/-- A session that has closed: what the transport has not taken is lost. -/
theorem Booked.close (h : Booked l s) : Booked l s.close := by
  refine ⟨h.1, fun hopen => ?_⟩
  rw [phase_close] at hopen
  cases hopen

/-- A call that queues bytes, and enters them if it succeeds. -/
theorem Booked.queue {c : Call} (hc : c.queues = true) (h : Booked l s) :
    Booked (l.next taken (.called c (some (s.perform c).1) s)) (s.perform c).2 := by
  have hc' : c ≠ .openUp := by
    rintro rfl
    cases hc
  rcases perform_queues hc s with ⟨e, hcall⟩ | ⟨s', hcall, hopen, _, _, hcontents⟩
  · -- the call has failed, and nothing is entered
    rw [hcall]
    cases c <;> exact h
  · have hnext : l.next taken (.called c (some (.ok ())) s) =
        { l with queued := l.queued ++ c.outbound } := by
      cases c with
      | openUp => exact absurd rfl hc'
      | _ => rfl
    have hbalanced : l.Balanced s := h.2 hopen
    have hbalanced' : Ledger.Balanced { l with queued := l.queued ++ c.outbound } s' := by
      unfold Ledger.Balanced at hbalanced ⊢
      rw [hcontents, ← hbalanced, List.append_assoc]
    rw [hcall, hnext]
    exact ⟨hbalanced'.sound, fun _ => hbalanced'⟩

/-- A call that is done at once. One that fails changes nothing that the ledger is about. -/
theorem Booked.called {c : Call} (hdone : c.isPass = false) (h : Booked l s) :
    (bookkeeper taken).Keeps Booked l [.called c (some (s.perform c).1) s] (s.perform c).2 := by
  refine Booked.enter rfl ?_
  cases c with
  | readable | writable => cases hdone
  | queueSend | sendFrame => exact h.queue rfl
  | close =>
      -- a close is entered as a call that queues nothing
      show Booked { l with queued := l.queued ++ [] } s.close
      rw [List.append_nil]
      exact h.close
  | openUp =>
      unfold Session.perform
      rcases hcall : s.openUp with ⟨e | _, s'⟩
      · rcases openUp_error hcall with rfl | ⟨hphase, _, _, rfl, _⟩
        · exact h
        · refine ⟨h.1, fun hopen => ?_⟩
          rw [hphase] at hopen
          cases hopen
      · -- a new ledger, with nothing in it, and an empty send buffer
        obtain ⟨_, _, _, hcontents, _⟩ := openUp_ok hcall
        exact ⟨List.nil_prefix, fun _ => hcontents⟩

/-- An honest transport that has taken nothing. -/
theorem Booked.refused {t t' : T} {offered : Bytes} {answer} (honest : Transport.Honest T taken)
    (hsend : Transport.send t offered = (answer, t')) (hanswer : ∀ n, answer ≠ .ok (.moved n)) :
    l.next taken (.sent t offered answer t') = l := by
  simp only [Ledger.next]
  rw [honest.refused hsend hanswer, List.drop_length, List.append_nil]

/-- An honest transport that has taken a front part. -/
theorem Booked.moved {t t' : T} {offered : Bytes} {n : Nat} (honest : Transport.Honest T taken)
    (hsend : Transport.send t offered = (.ok (.moved n), t')) :
    l.next taken (.sent t offered (.ok (.moved n)) t') =
      { l with accepted := l.accepted ++ offered.take n } := by
  simp only [Ledger.next]
  rw [(honest.moved hsend).2, List.drop_left]

/-- One attempt to send, by which what is taken goes over from the send buffer to the transport. -/
theorem Booked.sent (honest : Transport.Honest T taken) (hopen : s.isOpen = true)
    (h : Booked l s) : (bookkeeper taken).Keeps Booked l s.sendOnceEvents s.sendOnce.2 := by
  rcases s.sendOnce_cases with ⟨_, hevents, hresult⟩ |
    ⟨head, tail, answer, transport, hcontents, _, hsend, hevents, hcases⟩
  · rw [hevents, hresult]
    exact Observer.Keeps.nil h
  rw [hevents]
  refine Booked.enter rfl ?_
  rcases hcases with ⟨rfl, hresult⟩ | ⟨rfl, hresult⟩ | ⟨cause, rfl, hresult⟩ |
    ⟨n, rfl, htoomuch, _⟩ | ⟨n, sendBuffer, rfl, hconsume, hresult⟩
  · rw [hresult, Booked.refused honest hsend (by simp)]
    exact h
  · -- nothing is taken, and the ledger does not change
    rw [hresult, Booked.moved honest hsend, List.take_zero, List.append_nil]
    exact h
  · rw [hresult, Booked.refused honest hsend (by simp)]
    exact h
  · -- an honest transport does not take more than there is
    have hfits := (honest.moved hsend).1
    rw [← StreamBuffer.length_contents, hcontents, List.length_append] at htoomuch
    omega
  · rw [hresult, Booked.moved honest hsend]
    have hfits := (honest.moved hsend).1
    -- what was consumed from the send buffer is what was taken, so the sum stays the same
    have hbalanced : l.accepted ++ s.sendBuffer.contents = l.queued := h.2 (phase_of_isOpen hopen)
    have hbalanced' : Ledger.Balanced { l with accepted := l.accepted ++ head.take (n + 1) }
        { s with transport, sendBuffer }.touch := by
      show l.accepted ++ head.take (n + 1) ++ sendBuffer.contents = l.queued
      rw [StreamBuffer.contents_consume hconsume, ← hbalanced, hcontents,
        List.drop_append_of_le_length hfits, List.append_assoc, ← List.append_assoc (head.take _),
        List.take_append_drop]
    exact ⟨hbalanced'.sound, fun _ => hbalanced'⟩

/-- Whatever a session does, its ledger stays right. -/
theorem Booked.preserves (honest : Transport.Honest T taken) :
    (bookkeeper taken).Preserves Booked where
  quiet := by
    intro l s s' hquiet h
    rcases hquiet with ⟨_, _, _, _, rfl⟩
    exact h
  close := fun h => h.close
  called := fun hdone h => h.called hdone
  started := by
    intro l s c answer hpass h
    refine Booked.enter rfl ?_
    cases c with
    | readable | writable =>
        rcases answer with _ | _ | _
        · exact h
        · exact h
        · -- a pass queues nothing by itself
          show Booked { l with queued := l.queued ++ [] } s
          rw [List.append_nil]
          exact h
    | _ => cases hpass
  returned := by
    intro l s c answer h
    exact h.skip rfl (by rintro s' ⟨⟩; rfl)
  received := by
    intro l s answer h
    exact h.skip rfl (by rintro s' ⟨⟩)
  sent := fun hopen h => h.sent honest hopen
  told := by
    intro l s n _ _ _ h
    exact h.skip rfl (by rintro s' ⟨⟩; rfl)
  toldClose := by
    intro l s _ h
    exact Booked.skip rfl (by rintro s' ⟨⟩; rfl) h
  toldInterest := by
    intro l s _ _ _ h
    exact Booked.skip rfl (by rintro s' ⟨⟩; rfl) h
  idle := by
    intro l s _ h
    exact h.skip rfl (by rintro s' ⟨⟩; rfl)

/-- Over an honest transport, whatever the handler and the owner of a session do: while the session
is open, what was queued is what the transport has taken followed by the contents of the send
buffer, and at all times the transport has taken a front part of what was queued. -/
theorem outbound_intact {H : Type} [Handler T H] (honest : Transport.Honest T taken)
    (fuel : Nat) (transport : T) (recvCapacity sendCapacity now : Nat) (handler : H)
    (steps : List (Driven.Step H T)) :
    OutboundIntact taken
      ((Driven.new transport recvCapacity sendCapacity now handler).trace fuel steps) := by
  intro before e after htrace
  have hstart : Observer.Preserves.Told Booked {}
      (Driven.new transport recvCapacity sendCapacity now handler).session := by
    refine ⟨⟨List.nil_prefix, ?_⟩, rfl⟩
    intro hopen
    cases hopen
  have haccepts := (Booked.preserves honest).accepts_trace fuel steps hstart (fun _ _ => trivial)
  rw [htrace] at haccepts
  have hdemands := haccepts.demands
  -- what is demanded of `e` is said of the ledger behind it
  have hledger : Ledger.of taken (before ++ [e]) =
      ((bookkeeper taken).after {} before).next taken e := by
    rw [Ledger.of, List.foldl_append]
    rfl
  rw [hledger]
  exact hdemands

/-- An echo whose send buffer is smaller than what it receives: a pass sends the first part, the
rest is queued inside `onSend`, and the same pass sends that too. The frame does not fit, the last
byte does. -/
theorem outbound_intact_echo :
    Transport.Honest Socket (·.outbound) ∧
    let steps : List (Driven.Step Echo Socket) :=
      [.call .openUp, .editTransport (·.arrive [1, 2, 3, 4, 5]), .call .readable, .call .writable,
        .editTransport (·.takeOutbound.2), .call (.sendFrame [6]), .call (.queueSend [7])]
    let trace := (Driven.new { peer := .v4 [127, 0, 0, 1] 80 } 8 4 0 ({} : Echo)).trace 9 steps
    OutboundIntact (·.outbound) trace ∧
      Ledger.of (·.outbound) trace =
        { accepted := [1, 2, 3, 4, 5], queued := [1, 2, 3, 4, 5, 7] } :=
  ⟨Socket.honest, outbound_intact Socket.honest _ _ _ _ _ _ _, by decide +kernel⟩

end TcpReactor.Session
