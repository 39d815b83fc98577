import TcpReactor.Proofs.Service.HandsOff
import TcpReactor.Proofs.Session.Outbound

namespace TcpReactor.Session

/-! # The transport's own record

The ledger of a run is read off its trace: what the transport was offered, and what it answered. The
transport that the session ends with knows as well, unless somebody else has sent over it. Its
record is then what it was when the session opened last, followed by what the ledger has as
accepted.

* `record_kept`: so it is at every event and at the end of a run, as long as the callbacks and the
  owner keep the record where they reach for the transport.
* `queued_of_run`: so what was queued in an open session can be told from the session alone. Its
  transport has taken a part, and the rest is in its send buffer.
-/

/-- What the transport has taken before the ledger starts: at a successful open that is all that it
has taken in its life. -/
def Ledger.rebase {T : Type} (taken : T → Bytes) (base : Bytes) : Event T → Bytes
  | .called .openUp (some (.ok ())) s => taken s.transport
  | _ => base

/-- The same after a stretch of a trace in which `start` was taken before. -/
def Ledger.base {T : Type} (taken : T → Bytes) (start : Bytes) (es : List (Event T)) : Bytes :=
  es.foldl (Ledger.rebase taken) start

/-- The record that the transport should have by the trace. -/
def Ledger.record {T : Type} (taken : T → Bytes) (start : Bytes) (es : List (Event T)) : Bytes :=
  Ledger.base taken start es ++ (Ledger.of taken es).accepted

/-- Wherever the session is seen along the trace, its transport has the record that it should. -/
def RecordKept {T : Type} (taken : T → Bytes) (start : Bytes) (trace : List (Event T)) : Prop :=
  ∀ before e after, trace = before ++ e :: after → ∀ s, e.seen? = some s →
    taken s.transport = Ledger.record taken start (before ++ [e])

variable {T : Type} [Transport T] {taken : T → Bytes} {q : Bytes × Ledger} {s : Session T}

/-- The auditor of the record knows what the ledger knows, and where it starts. -/
def auditor (taken : T → Bytes) : Observer (Bytes × Ledger) T where
  next q e := (Ledger.rebase taken q.1 e, q.2.next taken e)
  demands q e := ∀ s, e.seen? = some s →
    taken s.transport = Ledger.rebase taken q.1 e ++ (q.2.next taken e).accepted

omit [Transport T] in
theorem after_auditor (start : Bytes) (es : List (Event T)) :
    (auditor taken).after (start, {}) es = (Ledger.base taken start es, Ledger.of taken es) := by
  have hafter (q : Bytes × Ledger) : (auditor taken).after q es =
      (es.foldl (Ledger.rebase taken) q.1, es.foldl (Ledger.next taken) q.2) := by
    induction es generalizing q with
    | nil => rfl
    | cons e es ih => exact ih _
  exact hafter (start, {})

/-- The invariant: the record of the transport is as it should be. -/
def Backed (taken : T → Bytes) (q : Bytes × Ledger) (s : Session T) : Prop :=
  taken s.transport = q.1 ++ q.2.accepted

omit [Transport T] in
/-- An event that enters nothing. -/
theorem Backed.skip {e : Event T} (hbase : Ledger.rebase taken q.1 e = q.1)
    (hnext : (q.2.next taken e).accepted = q.2.accepted)
    (hseen : ∀ s', e.seen? = some s' → s' = s) (h : Backed taken q s) :
    (auditor taken).Keeps (Backed taken) q [e] s := by
  have hsame : taken s.transport = Ledger.rebase taken q.1 e ++ (q.2.next taken e).accepted := by
    rw [hbase, hnext]
    exact h
  refine Observer.Keeps.single fun _ => ⟨?_, hsame⟩
  intro s' hs'
  rw [hseen s' hs']
  exact hsame

omit [Transport T] in
/-- An event at which nobody sees the session. -/
theorem Backed.enter {e : Event T} (hseen : e.seen? = none)
    (h : Backed taken ((auditor taken).next q e) s) :
    (auditor taken).Keeps (Backed taken) q [e] s := by
  refine Observer.Keeps.single fun _ => ⟨?_, h⟩
  intro s' hs'
  rw [hseen] at hs'
  cases hs'

theorem Backed.close (hrecording : Transport.Recording T taken) (h : Backed taken q s) :
    Backed taken q s.close := by
  cases hphase : s.phase with
  | closed =>
      rw [close_closed hphase]
      exact h
  | opened =>
      unfold Backed
      rw [transport_close hphase, hrecording.close]
      exact h

/-- A call that is done at once has taken nothing. If it opens the session, a new ledger starts from
here. -/
theorem Backed.called (hrecording : Transport.Recording T taken) {c : Call}
    (hdone : c.isPass = false) (h : Backed taken q s) :
    (auditor taken).Keeps (Backed taken) q [.called c (some (s.perform c).1) s]
      (s.perform c).2 := by
  refine Backed.enter rfl ?_
  cases c with
  | readable | writable => cases hdone
  | close => exact h.close hrecording
  | queueSend data =>
      rcases s.queueSend_changes data with ⟨_, _, hs⟩
      unfold Backed Session.perform
      rw [hs]
      cases (s.queueSend data).1 <;> exact h
  | sendFrame payload =>
      rcases s.sendFrame_changes payload with ⟨_, _, hs⟩
      unfold Backed Session.perform
      rw [hs]
      cases (s.sendFrame payload).1 <;> exact h
  | openUp =>
      have htransport := s.transport_openUp
      unfold Backed Session.perform
      rw [htransport]
      -- the base moves up to the record, and behind it nothing is accepted yet
      cases s.openUp.1 with
      | error e => exact h
      | ok => exact (List.append_nil _).symm

/-- One attempt to send, which adds to the record of an honest transport what it says. -/
theorem Backed.sent (honest : Transport.Honest T taken) (h : Backed taken q s) :
    (auditor taken).Keeps (Backed taken) q s.sendOnceEvents s.sendOnce.2 := by
  rcases s.sendOnce_cases with ⟨_, hevents, hresult⟩ |
    ⟨head, tail, answer, transport, _, _, hsend, hevents, hcases⟩
  · rw [hevents, hresult]
    exact Observer.Keeps.nil h
  -- whatever becomes of the attempt, the session keeps the transport as it is behind it
  have htransport : s.sendOnce.2.transport = transport := by
    rcases hcases with ⟨_, hresult⟩ | ⟨_, hresult⟩ | ⟨_, _, hresult⟩ | ⟨_, _, _, hresult⟩ |
      ⟨_, _, _, _, hresult⟩ <;> rw [hresult]
    rfl
  have hgrown : ∃ more, taken transport = taken s.transport ++ more := by
    by_cases hmoved : ∃ n, answer = .ok (.moved n)
    · rcases hmoved with ⟨n, rfl⟩
      exact ⟨_, (honest.moved hsend).2⟩
    · refine ⟨[], ?_⟩
      rw [honest.refused hsend (not_exists.mp hmoved), List.append_nil]
  rw [hevents]
  refine Backed.enter rfl ?_
  rcases hgrown with ⟨more, hmore⟩
  show taken s.sendOnce.2.transport =
    q.1 ++ (q.2.accepted ++ (taken transport).drop (taken s.transport).length)
  rw [htransport, hmore, List.drop_left, ← List.append_assoc, ← h]

/-- Whatever a session does, the record of its transport stays as it should be, if all others keep
the record who reach for the transport. -/
theorem Backed.preservesOver (honest : Transport.Honest T taken)
    (hrecording : Transport.Recording T taken) :
    (auditor taken).PreservesOver (fun record t => taken t = record) (Backed taken) where
  close h := h.close hrecording
  called hdone h := h.called hrecording hdone
  started := by
    intro q s c answer hpass h
    cases c with
    | readable | writable =>
        -- a pass that starts is entered as a call, whatever it is going to answer
        rcases answer with _ | _ | _ <;> exact h.skip rfl rfl (by rintro s' ⟨⟩)
    | _ => cases hpass
  returned h := h.skip rfl rfl (by rintro s' ⟨⟩; rfl)
  sent _ h := h.sent honest
  told _ _ _ h := h.skip rfl rfl (by rintro s' ⟨⟩; rfl)
  toldClose _ h := Backed.skip rfl rfl (by rintro s' ⟨⟩; rfl) h
  toldInterest _ _ _ h := Backed.skip rfl rfl (by rintro s' ⟨⟩; rfl) h
  idle _ h := h.skip rfl rfl (by rintro s' ⟨⟩; rfl)
  rest _ _ _ h := h
  moved hkeep h := (hkeep _ _ rfl).trans h
  received := by
    intro q s h
    refine Backed.skip rfl rfl (by rintro s' ⟨⟩) ?_
    exact (hrecording.recv _ _).trans h

/-! ## Runs -/

section Runs

variable {H : Type} [Handler T H] {d d' : Driven H T}

/-- While nobody else sends over the transport of a session, its own record is what it was when the
session opened last, followed by what the ledger has as accepted: wherever the session is seen in a
run, and at the end. -/
theorem record_kept (honest : Transport.Honest T taken)
    (hrecording : Transport.Recording T taken) (fuel : Nat)
    (hH : ∀ record, Handler.Spares (fun t : T => taken t = record) H)
    {steps : List (Driven.Step H T)}
    (hsteps : ∀ step ∈ steps, ∀ record, step.SparesTransport (fun t : T => taken t = record))
    (hpending : d.session.closePending = false) :
    let start := taken d.session.transport
    RecordKept taken start (d.trace fuel steps) ∧
      ∀ d', steps.foldlM (Driven.step fuel) d = some d' →
        taken d'.session.transport = Ledger.record taken start (d.trace fuel steps) := by
  -- before the first event the record is the base, and the ledger is empty
  have hstart : Observer.Preserves.Told (Backed taken) (taken d.session.transport, {}) d.session :=
    ⟨(List.append_nil _).symm, hpending⟩
  obtain ⟨haccepts, hreached⟩ := (Backed.preservesOver honest hrecording).keeps_trace fuel hH hsteps
    hstart fun _ _ => trivial
  refine ⟨?_, ?_⟩
  · intro before e after htrace s hs
    rw [htrace] at haccepts
    have hrecord := haccepts.demands s hs
    rw [after_auditor] at hrecord
    rw [Ledger.record, Ledger.base, Ledger.of, List.foldl_append, List.foldl_append]
    exact hrecord
  · intro d' hd'
    have hbacked := (hreached d' hd').1
    rwa [after_auditor] at hbacked

/-- An echo that leaves the socket to its session, and an owner who only lets bytes arrive. -/
theorem record_kept_echo :
    let steps : List (Driven.Step Echo Socket) :=
      [.call .openUp, .editTransport (·.arrive [1, 2, 3, 4, 5]), .call .readable, .call .writable,
        .call (.queueSend [6])]
    let d : Driven Echo Socket := Driven.new { peer := .v4 [127, 0, 0, 1] 80 } 8 4 0 ({} : Echo)
    RecordKept (·.outbound) [] (d.trace 9 steps) ∧
      Ledger.record (·.outbound) [] (d.trace 9 steps) = [1, 2, 3, 4, 5] ∧
      (steps.foldlM (Driven.step 9) d).map (·.session.transport.outbound) =
        some [1, 2, 3, 4, 5] := by
  intro steps d
  have hsteps : ∀ step ∈ steps, ∀ record,
      step.SparesTransport (fun socket : Socket => socket.outbound = record) := by
    simp [steps, Driven.Step.SparesTransport, Socket.arrive]
  have hkept := record_kept (d := d) Socket.honest Socket.recording 9
    (fun _ => Handler.HandsOff.spares _) hsteps rfl
  exact ⟨hkept.1, by decide +kernel, by decide +kernel⟩

/-- A session that is open at the end of a run has sent what was queued in it up to what is in its
send buffer. -/
theorem queued_of_run (honest : Transport.Honest T taken)
    (hrecording : Transport.Recording T taken) (fuel : Nat)
    (hH : ∀ record, Handler.Spares (fun t : T => taken t = record) H)
    {steps : List (Driven.Step H T)}
    (hsteps : ∀ step ∈ steps, ∀ record, step.SparesTransport (fun t : T => taken t = record))
    (hclosed : d.session.phase = .closed) (hpending : d.session.closePending = false)
    (hrun : steps.foldlM (Driven.step fuel) d = some d') (hopen : d'.session.phase = .opened) :
    taken d'.session.transport ++ d'.session.sendBuffer.contents =
      Ledger.base taken (taken d.session.transport) (d.trace fuel steps) ++
        (Ledger.of taken (d.trace fuel steps)).queued := by
  have hrecord := (record_kept honest hrecording fuel hH hsteps hpending).2 d' hrun
  -- the two observers read the same trace: one knows the record, the other the send buffer
  have hbooked : Booked {} d.session := by
    refine ⟨List.nil_prefix, fun hopened => ?_⟩
    rw [hclosed] at hopened
    cases hopened
  have hreached := ((Booked.preserves honest).keeps_trace fuel steps ⟨hbooked, hpending⟩
    fun _ _ => trivial).2 d' hrun
  have hbalanced : (Ledger.of taken (d.trace fuel steps)).accepted ++
      d'.session.sendBuffer.contents = (Ledger.of taken (d.trace fuel steps)).queued :=
    hreached.1.2 hopen
  rw [hrecord, Ledger.record, List.append_assoc, hbalanced]

end Runs
end TcpReactor.Session
