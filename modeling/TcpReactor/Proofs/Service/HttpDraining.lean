import TcpReactor.Proofs.Session.Progress
import TcpReactor.Proofs.Session.Traffic
import TcpReactor.Service.HttpService
import TcpReactor.Socket

namespace TcpReactor.HttpService

open Session

/-! # Closing behind the last answer

Once the service has queued its last answer it only waits for it to be sent. As long as nothing goes
wrong with the connection, it closes with the pass that sends the last byte of it, and neither
earlier nor later (`closed_iff_sent`).

What the peer sends meanwhile is not looked at, but it is not thrown away either: it stays in the
recv buffer, and the pass that finds no more room there closes the session with the answer unsent
(`unsent_at_overflow`).
-/

/-! ## The callbacks of a service that is about to close -/

/-- A property of the traffic that no more bytes in either direction can change. -/
structure Steady (P : Traffic → Prop) : Prop where
  arrive : ∀ {t data}, P t → P (t.arrive data)
  leave : ∀ {t data}, P t → P (t.leave data)

/-- The last answer is queued, and `P` holds of the traffic. -/
structure Closing (P : Traffic → Prop) (t : Traffic) (h : HttpService) (sendBuffer : StreamBuffer) :
    Prop where
  closing : h.closing = true
  balanced : t.Balanced sendBuffer
  holds : P t

/-- Some of the last answer is still to be sent. -/
def Draining (P : Traffic → Prop) (t : Traffic) (h : HttpService) (sendBuffer : StreamBuffer) :
    Prop :=
  Closing P t h sendBuffer ∧ sendBuffer.contents ≠ []

/-- All that was queued has been sent, and `P` holds of the traffic. -/
def Sent (P : Traffic → Prop) (t : Traffic) : Prop := t.accepted = t.queued ∧ P t

variable {T : Type} [Transport T] {taken : T → Bytes} {assumes : Event T → Prop}
  {c : Conduct HttpService} {P : Traffic → Prop} {t : Traffic} {h : HttpService} {s : Session T}

theorem Closing.arrive (hP : Steady P) {sendBuffer : StreamBuffer} {data : Bytes}
    (hclosing : Closing P t h sendBuffer) : Closing P (t.arrive data) h sendBuffer :=
  ⟨hclosing.closing, hclosing.balanced, hP.arrive hclosing.holds⟩

theorem Closing.leave (hP : Steady P) {sendBuffer sendBuffer' : StreamBuffer} {n : Nat}
    (hconsume : sendBuffer.consume n = .ok sendBuffer') (hclosing : Closing P t h sendBuffer) :
    Closing P (t.leave (sendBuffer.contents.take n)) h sendBuffer' :=
  ⟨hclosing.closing, hclosing.balanced.leave hconsume, hP.leave hclosing.holds⟩

/-- Bytes that come in behind the last request are left where they are. -/
theorem keeps_onRecv_closing (hclosing : h.closing = true) (hphase : s.phase = .opened)
    (hpending : s.closePending = false) (hresting : c.resting t h s.recvBuffer s.sendBuffer) :
    (c.watch taken assumes).Keeps c.Ran t ((Handler.onRecv h).events s)
      ((Handler.onRecv h).run s) := by
  have hnothing : (Handler.onRecv h : Program T HttpService) = .done h := if_pos hclosing
  rw [hnothing]
  exact Observer.Keeps.nil (.of_opened hphase hpending hresting)

/-- The session closes when the last chunk has left. -/
theorem keeps_onSend_closing {n : Nat} (hphase : s.phase = .opened)
    (hpending : s.closePending = false) (hclosing : Closing P t h s.sendBuffer)
    (hdraining : Draining P t h s.sendBuffer → c.resting t h s.recvBuffer s.sendBuffer)
    (hsent : Sent P t → c.closed t) :
    (c.watch taken assumes).Keeps c.Ran t ((Handler.onSend h n).events s)
      ((Handler.onSend h n).run s) := by
  have hlook : (Handler.onSend h n : Program T HttpService) =
      .look fun s => if !s.hasPendingSend then .call .close fun _ => .done h else .done h := by
    show (Program.look fun s : Session T => if h.closing && !s.hasPendingSend then _ else _) = _
    simp only [hclosing.closing, Bool.true_and]
  rw [hlook, Program.events, Program.run]
  cases hcontents : s.hasPendingSend with
  | true =>
      have hresting := hdraining ⟨hclosing, (hasPendingSend_iff s).mp hcontents⟩
      exact Observer.Keeps.nil (.of_opened hphase hpending hresting)
  | false =>
      -- the buffer is empty: by the balance all that was queued has left
      have hclosed : c.closed t := hsent ⟨hclosing.balanced.sent hcontents, hclosing.holds⟩
      have hran : c.Ran t (h, s.close) := .of_closed (phase_close s) hclosed
      exact (Conduct.callClose hclosed hran).append fun t' hran => Observer.Keeps.nil hran

/-! ## Runs -/

/-- The conduct of a service that has nothing left to do but to close. -/
def draining (P : Traffic → Prop) : Conduct HttpService where
  resting t h _ sendBuffer := Draining P t h sendBuffer
  arriving t h _ sendBuffer := Draining P t h sendBuffer
  leaving t h _ sendBuffer := Closing P t h sendBuffer
  closed := Sent P

theorem draining_upheld (hP : Steady P) : (draining P).Upheld taken (Event.calm (T := T)) where
  arriving := id
  arrived := fun _ hdraining => ⟨hdraining.1.arrive hP, hdraining.2⟩
  left := fun hconsume hdraining => hdraining.1.leave hP hconsume
  onRecv := fun hphase hpending hdraining =>
    keeps_onRecv_closing hdraining.1.closing hphase hpending hdraining
  onSend := fun hphase hpending hclosing => keeps_onSend_closing hphase hpending hclosing id id
  onInterest := id
  mishap := fun htolerates => absurd htolerates not_tolerates_calm

/-- The service queues nothing while bytes leave. -/
theorem drains : Drains T HttpService := by
  intro h n s
  have hlook : (Handler.onSend h n : Program T HttpService) = .look fun s =>
      if h.closing && !s.hasPendingSend then .call .close fun _ => .done h else .done h := rfl
  rw [hlook, Program.run]
  split
  · -- the only thing it can still do is to close, and a close empties the buffer
    show s.close.sendBuffer.length ≤ s.sendBuffer.length
    rw [close]
    split
    · exact Nat.le_refl _
    · exact Nat.zero_le _
  · exact Nat.le_refl _

/-- The last answer is queued, and from then on the peer does not close, the transport does not fail
and the recv buffer has room. Whatever bytes come in, and in whatever order the passes are made:
nothing more is queued, the session is never seen closed before the transport has taken all that was
queued, and behind every step it is closed if and only if that is the case. -/
theorem closed_iff_sent (honest : Transport.Honest T taken) {d : Driven HttpService T}
    (hclosing : d.handler.closing = true) (hphase : d.session.phase = .opened)
    (hpending : d.session.closePending = false) (hqueued : d.session.hasPendingSend = true)
    {fuel : Nat} (hfuel : d.session.sendBuffer.capacity ≤ fuel)
    {steps : List (Driven.Step HttpService T)} (hsteps : ∀ step ∈ steps, step.isPass = true)
    (hcalm : ∀ e ∈ d.trace fuel steps, e.mishap = false) :
    let last := d.session.sendBuffer.contents
    let traffic := Traffic.after taken { queued := last }
    (∀ before e after, d.trace fuel steps = before ++ e :: after → e.shows .closed = true →
      (traffic (before ++ [e])).accepted = last) ∧
    ∃ d', steps.foldlM (Driven.step fuel) d = some d' ∧
      (traffic (d.trace fuel steps)).queued = last ∧
      (traffic (d.trace fuel steps)).accepted <+: last ∧
      (d'.session.phase = .closed ↔ (traffic (d.trace fuel steps)).accepted = last) := by
  intro last traffic
  have hstart : (draining fun t => t.queued = last).Rests { queued := last } d := by
    refine ⟨hpending, fun _ => ⟨⟨hclosing, rfl, rfl⟩, (hasPendingSend_iff _).mp hqueued⟩, ?_⟩
    intro hclosed
    rw [hclosed] at hphase
    cases hphase
  rcases (draining_upheld ⟨id, id⟩).run honest hsteps hstart hcalm with ⟨haccepts, hreached⟩
  refine ⟨?_, ?_⟩
  · intro before e after htrace hshows
    rw [htrace] at haccepts
    rcases haccepts.demands hshows with ⟨hsent, hlast⟩
    rw [show traffic (before ++ [e]) = _ from Traffic.after_concat taken _ before e]
    exact hsent.trans hlast
  · rcases exists_run drains hpending hfuel steps with ⟨d', hrun⟩
    have hrests : (draining fun t => t.queued = last).Rests (traffic (d.trace fuel steps)) d' :=
      hreached d' hrun
    refine ⟨d', hrun, ?_⟩
    cases hphase' : d'.session.phase with
    | opened =>
        -- some of the answer waits, so the transport has not taken all of it
        rcases hrests.opened hphase' with ⟨⟨_, hbalanced, hlast⟩, hsome⟩
        rw [Traffic.Balanced, show (traffic (d.trace fuel steps)).queued = last from hlast]
          at hbalanced
        refine ⟨hlast, ⟨_, hbalanced⟩, ?_, ?_⟩
        · intro hclosed
          cases hclosed
        · intro hall
          rw [hall] at hbalanced
          exact absurd (List.append_right_eq_self.mp hbalanced) hsome
    | closed =>
        rcases hrests.closed hphase' with ⟨hsent, hlast⟩
        have hall := hsent.trans hlast
        exact ⟨hlast, hall ▸ List.prefix_refl _, fun _ => hall, fun _ => rfl⟩

/-- A session that a request has brought to its last answer. -/
def lastAnswered : Option (Driven HttpService Socket) :=
  let steps : List (Driven.Step HttpService Socket) :=
    [.call .openUp,
      .editTransport (·.arrive (utf8 "GET /health HTTP/1.1\r\nConnection: close\r\n\r\n")),
      .call .readable]
  steps.foldlM (Driven.step 112)
    (Driven.new { peer := .v4 [127, 0, 0, 1] 80 } 60 112 0 (ofLimits {}))

/-- The peer sends more behind its last request, and it fits in the recv buffer: the next writable
pass sends the answer and closes. -/
theorem closed_iff_sent_pipelined :
    let passes : List (Driven.Step HttpService Socket) :=
      [.editTransport (·.arrive (List.replicate 60 120)), .call .readable, .wait 5,
        .call .writable]
    ∃ d d', lastAnswered = some d ∧
      (d.handler.closing = true ∧ d.session.phase = .opened ∧ d.session.closePending = false ∧
        d.session.hasPendingSend = true ∧ d.session.sendBuffer.capacity ≤ 112) ∧
      (∀ step ∈ passes, step.isPass = true) ∧ (∀ e ∈ d.trace 112 passes, e.mishap = false) ∧
      passes.foldlM (Driven.step 112) d = some d' ∧ d'.session.phase = .closed ∧
      (Traffic.after (·.outbound) { queued := d.session.sendBuffer.contents }
        (d.trace 112 passes)).accepted = d.session.sendBuffer.contents := by
  intro passes
  have hsteps : ∀ step ∈ passes, step.isPass = true := by
    simp [passes, Driven.Step.isPass, Call.isPass]
  have hanswered : lastAnswered.map (fun d => (d.handler.closing, d.session.phase,
      d.session.closePending, d.session.hasPendingSend, d.session.sendBuffer.capacity)) =
      some (true, .opened, false, true, 112) := by
    decide +kernel
  have hpasses : lastAnswered.map (fun d => ((d.trace 112 passes).all (!·.mishap),
      (passes.foldlM (Driven.step 112) d).map (·.session.phase))) =
      some (true, some .closed) := by
    decide +kernel
  -- what is evaluated is decidable; the states themselves are only known to exist
  rcases Option.map_eq_some_iff.mp hanswered with ⟨d, hd, hfacts⟩
  rw [hd] at hpasses
  simp only [Prod.mk.injEq, Option.map_some, Option.some.injEq, List.all_eq_true,
    Bool.not_eq_true'] at hfacts hpasses
  rcases hfacts with ⟨hclosing, hphase, hpending, hqueued, hcapacity⟩
  rcases hpasses with ⟨hcalm, hclosed⟩
  rcases (closed_iff_sent Socket.honest hclosing hphase hpending hqueued
    (Nat.le_of_eq hcapacity) hsteps hcalm).2 with ⟨d', hrun, _, _, hiff⟩
  rw [hrun] at hclosed
  have hclosed' := Option.some.inj hclosed
  exact ⟨d, d', hd, ⟨hclosing, hphase, hpending, hqueued, Nat.le_of_eq hcapacity⟩, hsteps, hcalm,
    hrun, hclosed', hiff.mp hclosed'⟩

/-- The peer goes on sending, does not close, and nothing is wrong with the transport. Each time it
sends no more than the recv buffer has room for at first; but nobody takes the bytes out, and before
the answer can leave they fill the buffer. -/
theorem unsent_at_overflow :
    let passes : List (Driven.Step HttpService Socket) :=
      [.editTransport (·.arrive (List.replicate 31 120)), .call .readable,
        .editTransport (·.arrive (List.replicate 31 120)), .call .readable, .call .writable]
    ∃ d d', lastAnswered = some d ∧ d.handler.closing = true ∧ d.isOpen = true ∧
      d.session.hasPendingSend = true ∧ passes.foldlM (Driven.step 112) d = some d' ∧
      d'.session.phase = .closed ∧ d'.session.transport.outbound = [] ∧
      d'.session.transport.ended = false ∧ d'.session.transport.broken = false := by
  intro passes
  have hanswered : lastAnswered.map (fun d =>
      (d.handler.closing, d.isOpen, d.session.hasPendingSend)) = some (true, true, true) := by
    decide +kernel
  have hpasses : (lastAnswered.bind (passes.foldlM (Driven.step 112))).map (fun d =>
      (d.session.phase, d.session.transport.outbound, d.session.transport.ended,
        d.session.transport.broken)) = some (.closed, [], false, false) := by
    decide +kernel
  rcases Option.map_eq_some_iff.mp hanswered with ⟨d, hd, hfacts⟩
  rcases Option.map_eq_some_iff.mp hpasses with ⟨d', hrun, hend⟩
  rw [hd] at hrun
  simp only [Prod.mk.injEq] at hfacts hend
  exact ⟨d, d', hd, hfacts.1, hfacts.2.1, hfacts.2.2, hrun, hend⟩

end TcpReactor.HttpService
