import TcpReactor.Proofs.FrameCodec
import TcpReactor.Proofs.Session.Trace
import TcpReactor.StreamBuffer.Contents

namespace TcpReactor.Session

/-! # What the operations of a session do

One statement for each operation: what it does to the session if it succeeds, and what it leaves
alone. The theories of runs use these and do not look into the operations.
-/

/-- From `s` to `s'` only the transport, the recv buffer and the times have changed. -/
def Quiet {T : Type} (s s' : Session T) : Prop :=
  ∃ transport recvBuffer now lastActive,
    s' = { s with transport, recvBuffer, now, lastActive }

theorem Quiet.trans {T : Type} {s s' s'' : Session T} (h : Quiet s s') (h' : Quiet s' s'') :
    Quiet s s'' := by
  rcases h with ⟨_, _, _, _, rfl⟩
  rcases h' with ⟨_, _, _, _, rfl⟩
  exact ⟨_, _, _, _, rfl⟩

variable {T : Type} [Transport T] {s s' : Session T} {e : SessionError}

theorem phase_of_isOpen (h : s.isOpen = true) : s.phase = .opened := by
  simp only [isOpen, Bool.and_eq_true, beq_iff_eq] at h
  exact h.1

omit [Transport T] in
theorem phase_of_ne_opened (h : s.phase ≠ .opened) : s.phase = .closed := by
  cases hphase : s.phase with
  | closed => rfl
  | opened => exact absurd hphase h

/-! ## Opening and closing -/

/-- A session that opens was closed, its transport is open, and nothing is queued in it. -/
theorem openUp_ok (h : s.openUp = (.ok (), s')) :
    s.phase = .closed ∧ Transport.isOpen s.transport = true ∧ s'.phase = .opened ∧
      s'.sendBuffer.contents = [] ∧ s'.writeInterest = false ∧
      s'.closePending = s.closePending := by
  rw [openUp] at h
  split at h
  · cases h
  have hclosed := phase_of_ne_opened ‹_›
  split at h
  · cases h
  split at h
  · cases h
  rename_i hsend
  split at h
  · cases h
    exact ⟨hclosed, ‹_›, rfl, StreamBuffer.contents_openUp hsend, rfl, rfl⟩
  · cases h

/-- A session that opens has opened both buffers. -/
theorem buffers_openUp_ok (h : s.openUp = (.ok (), s')) :
    s.recvBuffer.openUp = .ok s'.recvBuffer ∧ s.sendBuffer.openUp = .ok s'.sendBuffer := by
  rw [openUp] at h
  split at h
  · cases h
  split at h
  · cases h
  rename_i hrecv
  split at h
  · cases h
  rename_i hsend
  split at h
  · cases h
    exact ⟨hrecv, hsend⟩
  · cases h

/-- All that an open can change. -/
theorem openUp_changes (s : Session T) : ∃ recvBuffer sendBuffer phase writeInterest lastActive,
    s.openUp.2 = { s with recvBuffer, sendBuffer, phase, writeInterest, lastActive } := by
  rw [openUp]
  repeat' split
  all_goals exact ⟨_, _, _, _, _, rfl⟩

/-- An open does not touch the transport. -/
theorem transport_openUp (s : Session T) : s.openUp.2.transport = s.transport := by
  rcases s.openUp_changes with ⟨_, _, _, _, _, hs⟩
  rw [hs]

/-- An attempt to open that fails leaves an open session as it is, and a closed one closed. -/
theorem openUp_error (h : s.openUp = (.error e, s')) :
    s' = s ∨ (s.phase = .closed ∧ ∃ recvBuffer sendBuffer, s' = { s with recvBuffer, sendBuffer } ∧
      (sendBuffer = s.sendBuffer ∨ sendBuffer.isOpen = false)) := by
  rw [openUp] at h
  split at h
  · cases h
    exact .inl rfl
  have hclosed := phase_of_ne_opened ‹_›
  split at h
  · cases h
    exact .inl rfl
  split at h
  · cases h
    -- the send buffer does not open
    exact .inr ⟨hclosed, _, _, rfl, .inl rfl⟩
  split at h
  · cases h
  · cases h
    -- the transport is not open, and both buffers are shut again
    exact .inr ⟨hclosed, _, _, rfl, .inr rfl⟩

theorem openUp_pending (s : Session T) : s.openUp.2.closePending = s.closePending := by
  rcases s.openUp_changes with ⟨_, _, _, _, _, hs⟩
  rw [hs]

/-- Closing an open session. -/
theorem close_opened (h : s.phase = .opened) :
    s.close.phase = .closed ∧ s.close.sendBuffer.isOpen = false ∧ s.close.writeInterest = false ∧
      s.close.closePending = true := by
  rw [close, if_neg (by simp [h])]
  exact ⟨rfl, rfl, rfl, rfl⟩

theorem transport_close (h : s.phase = .opened) :
    s.close.transport = Transport.close s.transport := by
  rw [close, if_neg (by simp [h])]

theorem close_closed (h : s.phase = .closed) : s.close = s := by
  rw [close, if_pos h]

theorem phase_close (s : Session T) : s.close.phase = .closed := by
  cases hphase : s.phase with
  | closed => rw [close_closed hphase, hphase]
  | opened => exact (close_opened hphase).1

/-! ## Receiving -/

theorem receive_quiet (s : Session T) (received : Nat) : Quiet s (s.receive received).2 := by
  induction s, received using receive.induct with
  | case1 s received transport hrecv
  | case2 s received transport hrecv
  | case5 s received e transport hrecv =>
      rw [receive_eq, hrecv]
      exact ⟨_, _, _, _, rfl⟩
  | case3 s received b data transport hrecv e hwrite =>
      rw [receive_eq, hrecv]
      simp only [hwrite]
      exact ⟨_, _, _, _, rfl⟩
  | case4 s received b data transport hrecv recvBuffer hwrite ih =>
      rw [receive_eq, hrecv]
      simp only [hwrite]
      exact Quiet.trans ⟨_, _, _, _, rfl⟩ ih

/-- Receiving neither opens nor closes the session, nor tells of a close. -/
theorem receive_marks (s : Session T) (received : Nat) :
    (s.receive received).2.phase = s.phase ∧
      (s.receive received).2.closePending = s.closePending := by
  rcases s.receive_quiet received with ⟨_, _, _, _, hs⟩
  rw [hs]
  exact ⟨rfl, rfl⟩

/-! ## Sending -/

/-- All that can come of one attempt to send, with its events. -/
theorem sendOnce_cases (s : Session T) :
    (s.sendBuffer.contents = [] ∧ s.sendOnceEvents = [] ∧ s.sendOnce = (.drained, s)) ∨
    ∃ head tail answer transport,
      s.sendBuffer.contents = head ++ tail ∧ head ≠ [] ∧
      Transport.send s.transport head = (answer, transport) ∧
      s.sendOnceEvents = [.sent s.transport head answer transport] ∧
      ((answer = .ok .wouldBlock ∧ s.sendOnce = (.blocked, { s with transport })) ∨
      (answer = .ok (.moved 0) ∧
        s.sendOnce = (.failed (.socket (.sendFailed .writeZero)), { s with transport })) ∨
      (∃ cause, answer = .error cause ∧
        s.sendOnce = (.failed (.socket cause), { s with transport })) ∨
      (∃ n, answer = .ok (.moved (n + 1)) ∧ s.sendBuffer.length < n + 1 ∧
        s.sendOnce = (.failed (.sendBuffer .underflow), { s with transport })) ∨
      (∃ n sendBuffer, answer = .ok (.moved (n + 1)) ∧
        s.sendBuffer.consume (n + 1) = .ok sendBuffer ∧
        s.sendOnce = (.sent (n + 1), { s with transport, sendBuffer }.touch))) := by
  rw [sendOnce, sendOnceEvents]
  cases hempty : s.sendBuffer.isEmpty with
  | true => exact .inl ⟨(StreamBuffer.isEmpty_iff _).mp hempty, rfl, rfl⟩
  | false =>
      -- what holds bytes is open, so its slices can be had and the first is not empty
      have hsome : s.sendBuffer.contents ≠ [] := by
        intro hnil
        rw [(StreamBuffer.isEmpty_iff _).mpr hnil] at hempty
        cases hempty
      have hopen := StreamBuffer.isOpen_of_contents hsome
      have hslices : s.sendBuffer.slices = .ok s.sendBuffer.ring.slices := by
        simp [StreamBuffer.slices, hopen]
      rcases hring : s.sendBuffer.ring.slices with ⟨head, tail⟩
      rw [hring] at hslices
      rcases hsend : Transport.send s.transport head with ⟨answer, transport⟩
      refine .inr ⟨head, tail, answer, transport, StreamBuffer.contents_of_slices hslices,
        StreamBuffer.head_ne_nil_of_slices hslices hsome, hsend, ?_⟩
      simp only [hslices, hsend]
      refine ⟨rfl, ?_⟩
      rcases answer with cause | ⟨_ | n⟩ | _
      · exact .inr (.inr (.inl ⟨cause, rfl, rfl⟩))
      · exact .inr (.inl ⟨rfl, rfl⟩)
      · -- a transport may say that it took more than there was
        by_cases hn : n + 1 ≤ s.sendBuffer.length
        · rcases StreamBuffer.exists_consume hopen hn with ⟨sendBuffer, hconsume⟩
          simp only [Bool.false_eq_true, if_false, hconsume]
          exact .inr (.inr (.inr (.inr ⟨n, sendBuffer, rfl, hconsume, rfl⟩)))
        · have hconsume : s.sendBuffer.consume (n + 1) = .error .underflow := by
            have hless : s.sendBuffer.ring.length < n + 1 := by
              simpa [StreamBuffer.length, hopen] using hn
            simp [StreamBuffer.consume, hopen, hless]
          simp only [Bool.false_eq_true, if_false, hconsume]
          exact .inr (.inr (.inr (.inl ⟨n, rfl, Nat.not_le.mp hn, trivial⟩)))
      · exact .inl ⟨rfl, rfl⟩

/-- All that an attempt to send can change. -/
theorem sendOnce_changes (s : Session T) : ∃ transport sendBuffer lastActive,
    s.sendOnce.2 = { s with transport, sendBuffer, lastActive } := by
  rw [sendOnce]
  repeat' split
  all_goals exact ⟨_, _, _, rfl⟩

/-- Sending neither opens nor closes the session, nor tells of a close. -/
theorem sendOnce_marks (s : Session T) :
    s.sendOnce.2.phase = s.phase ∧ s.sendOnce.2.closePending = s.closePending := by
  rcases s.sendOnce_changes with ⟨_, _, _, hs⟩
  rw [hs]
  exact ⟨rfl, rfl⟩

/-- Sending does not touch what was received. -/
theorem recvBuffer_sendOnce (s : Session T) : s.sendOnce.2.recvBuffer = s.recvBuffer := by
  rcases s.sendOnce_changes with ⟨_, _, _, hs⟩
  rw [hs]

theorem writeInterest_sendOnce (s : Session T) :
    s.sendOnce.2.writeInterest = s.writeInterest := by
  rcases s.sendOnce_changes with ⟨_, _, _, hs⟩
  rw [hs]

/-! ## Queueing -/

theorem queueSend_ok {data : Bytes} (h : s.queueSend data = (.ok (), s')) :
    s.phase = .opened ∧ s'.phase = .opened ∧
      s'.sendBuffer.contents = s.sendBuffer.contents ++ data := by
  rw [queueSend] at h
  split at h
  · cases h
  rename_i hopen
  have hphase : s.phase = .opened := phase_of_isOpen (by simpa using hopen)
  split at h
  · rename_i hnil
    cases h
    exact ⟨hphase, hphase, by simp [List.isEmpty_iff.mp hnil]⟩
  split at h
  · cases h
  · rename_i hwrite
    cases h
    exact ⟨hphase, hphase, StreamBuffer.contents_write hwrite⟩

theorem queueSend_error {data : Bytes} (h : s.queueSend data = (.error e, s')) : s' = s := by
  rw [queueSend] at h
  repeat' split at h
  all_goals cases h
  all_goals rfl

/-- All that queueing can change. -/
theorem queueSend_changes (s : Session T) (data : Bytes) : ∃ sendBuffer lastActive,
    (s.queueSend data).2 = { s with sendBuffer, lastActive } := by
  rw [queueSend]
  repeat' split
  all_goals exact ⟨_, _, rfl⟩

theorem queueSend_pending (s : Session T) (data : Bytes) :
    (s.queueSend data).2.closePending = s.closePending := by
  rcases s.queueSend_changes data with ⟨_, _, hs⟩
  rw [hs]

/-- What there is room for is queued. -/
theorem queueSend_of_room {data : Bytes} (hopen : s.isOpen = true) (hdata : data ≠ [])
    (hroom : data.length ≤ s.sendBuffer.freeSpace) :
    ∃ sendBuffer, s.sendBuffer.write data = .ok sendBuffer ∧
      s.queueSend data = (.ok (), { s with sendBuffer }.touch) := by
  have hpos := List.length_pos_iff.mpr hdata
  rcases StreamBuffer.exists_write (StreamBuffer.isOpen_of_freeSpace (by omega)) hdata hroom with
    ⟨sendBuffer, hwrite⟩
  refine ⟨sendBuffer, hwrite, ?_⟩
  rw [queueSend, hopen, hwrite]
  simp [hdata]

/-- Queueing does not touch what was received. -/
theorem recvBuffer_queueSend (s : Session T) (data : Bytes) :
    (s.queueSend data).2.recvBuffer = s.recvBuffer := by
  rcases s.queueSend_changes data with ⟨_, _, hs⟩
  rw [hs]

theorem sendFrame_ok {payload : Bytes} (h : s.sendFrame payload = (.ok (), s')) :
    s.phase = .opened ∧ s'.phase = .opened ∧ ∃ frame, Frame.encode payload = .ok frame ∧
      s'.sendBuffer.contents = s.sendBuffer.contents ++ frame := by
  rw [sendFrame] at h
  split at h
  · cases h
  rename_i hopen
  have hphase : s.phase = .opened := phase_of_isOpen (by simpa using hopen)
  split at h
  · cases h
  rename_i header hheader
  have hencode : Frame.encode payload = .ok (header ++ payload) := by
    simp [Frame.encode, hheader, bind, Except.bind, pure, Except.pure]
  split at h
  · cases h
  split at h
  · cases h
  rename_i hwrite
  -- the header is queued; an empty payload needs no second write
  have hcontents := StreamBuffer.contents_write hwrite
  split at h
  · rename_i hnil
    cases h
    refine ⟨hphase, hphase, _, hencode, ?_⟩
    simp [List.isEmpty_iff.mp hnil, touch, hcontents]
  split at h
  · cases h
  · rename_i hwrite'
    cases h
    refine ⟨hphase, hphase, _, hencode, ?_⟩
    simp [touch, StreamBuffer.contents_write hwrite', hcontents]

/-- A frame that there is room for is queued. -/
theorem sendFrame_of_room {payload frame : Bytes} (hopen : s.isOpen = true)
    (hframe : Frame.encode payload = .ok frame) (hroom : frame.length ≤ s.sendBuffer.freeSpace) :
    ∃ sendBuffer, s.sendFrame payload = (.ok (), { s with sendBuffer }.touch) ∧
      sendBuffer.contents = s.sendBuffer.contents ++ frame := by
  suffices ∃ sendBuffer, s.sendFrame payload = (.ok (), { s with sendBuffer }.touch) by
    rcases this with ⟨sendBuffer, hsend⟩
    rcases sendFrame_ok hsend with ⟨_, _, frame', hframe', hcontents⟩
    rw [hframe, Except.ok.injEq] at hframe'
    exact ⟨sendBuffer, hsend, hframe' ▸ hcontents⟩
  rcases Frame.encode_eq_ok.mp hframe with ⟨hsize, rfl⟩
  rw [List.length_append] at hroom
  have hheader := length_beWord payload.length
  have hsome : beWord payload.length ≠ [] := List.cons_ne_nil _ _
  rcases StreamBuffer.exists_write (b := s.sendBuffer)
    (StreamBuffer.isOpen_of_freeSpace (by omega)) hsome (by omega) with ⟨sendBuffer, hwrite⟩
  have hleft := StreamBuffer.freeSpace_write hwrite
  simp only [sendFrame, Frame.header, hopen, hwrite, Bool.not_true, Bool.false_eq_true, if_false,
    Nat.not_lt.mpr hsize, Nat.not_lt.mpr hroom]
  cases payload with
  | nil => exact ⟨sendBuffer, rfl⟩
  | cons b rest =>
      -- the header takes only its own part of the room
      rcases StreamBuffer.exists_write (StreamBuffer.isOpen_write hwrite).2
        (List.cons_ne_nil b rest) (by omega) with ⟨sendBuffer', hwrite'⟩
      simp only [hwrite', List.isEmpty_cons, Bool.false_eq_true, if_false]
      exact ⟨sendBuffer', rfl⟩

/-- A frame that there is no room for is refused. -/
theorem sendFrame_of_no_room {payload frame : Bytes} (hopen : s.isOpen = true)
    (hframe : Frame.encode payload = .ok frame) (hroom : s.sendBuffer.freeSpace < frame.length) :
    s.sendFrame payload = (.error (.sendBuffer .overflow), s) := by
  rcases Frame.encode_eq_ok.mp hframe with ⟨hsize, rfl⟩
  rw [List.length_append] at hroom
  simp only [sendFrame, Frame.header, hopen, Bool.not_true, Bool.false_eq_true, if_false,
    Nat.not_lt.mpr hsize, hroom, if_true]

/-- The room for both parts is checked first, so the payload finds its place behind the header. -/
theorem sendFrame_error {payload : Bytes} (h : s.sendFrame payload = (.error e, s')) : s' = s := by
  rw [sendFrame] at h
  split at h
  · cases h
    rfl
  split at h
  · cases h
    rfl
  split at h
  · cases h
    rfl
  rename_i header _ hroom
  split at h
  · cases h
    rfl
  rename_i sendBuffer hwrite
  split at h
  · cases h
  split at h
  · rename_i hsome _ _ hfailed
    -- the header is in, and the room that is left is what was checked for the payload
    have hfree := StreamBuffer.freeSpace_write hwrite
    rcases StreamBuffer.exists_write (StreamBuffer.isOpen_write hwrite).2
      (by simpa using hsome) (by omega : payload.length ≤ sendBuffer.freeSpace) with ⟨b, hb⟩
    rw [hb] at hfailed
    cases hfailed
  · cases h

/-- All that queueing a frame can change. -/
theorem sendFrame_changes (s : Session T) (payload : Bytes) : ∃ sendBuffer lastActive,
    (s.sendFrame payload).2 = { s with sendBuffer, lastActive } := by
  rw [sendFrame]
  repeat' split
  all_goals exact ⟨_, _, rfl⟩

theorem sendFrame_pending (s : Session T) (payload : Bytes) :
    (s.sendFrame payload).2.closePending = s.closePending := by
  rcases s.sendFrame_changes payload with ⟨_, _, hs⟩
  rw [hs]

/-- What a call queues if it succeeds. -/
def Call.outbound : Call → Bytes
  | .queueSend data => data
  | .sendFrame payload => (Frame.encode payload).toOption.getD []
  | _ => []

/-- The calls that queue bytes. -/
def Call.queues : Call → Bool
  | .queueSend _ => true
  | .sendFrame _ => true
  | _ => false

/-- Such a call fails and changes nothing, or it queues its bytes in an open session. -/
theorem perform_queues {c : Call} (hc : c.queues = true) (s : Session T) :
    (∃ e, s.perform c = (.error e, s)) ∨
    ∃ s', s.perform c = (.ok (), s') ∧ s.phase = .opened ∧ s'.phase = .opened ∧
      s'.closePending = s.closePending ∧
      s'.sendBuffer.contents = s.sendBuffer.contents ++ c.outbound := by
  cases c with
  | openUp | close | readable | writable => cases hc
  | queueSend data =>
      have hpending := s.queueSend_pending data
      rcases hcall : s.queueSend data with ⟨e | _, s'⟩
      · rw [queueSend_error hcall] at hcall
        exact .inl ⟨e, hcall⟩
      · obtain ⟨hopen, hopen', hcontents⟩ := queueSend_ok hcall
        rw [hcall] at hpending
        exact .inr ⟨s', hcall, hopen, hopen', hpending, hcontents⟩
  | sendFrame payload =>
      have hpending := s.sendFrame_pending payload
      rcases hcall : s.sendFrame payload with ⟨e | _, s'⟩
      · rw [sendFrame_error hcall] at hcall
        exact .inl ⟨e, hcall⟩
      · obtain ⟨hopen, hopen', frame, hframe, hcontents⟩ := sendFrame_ok hcall
        have houtbound : (Call.sendFrame payload).outbound = frame := by
          simp [Call.outbound, hframe, Except.toOption]
        rw [hcall] at hpending
        rw [← houtbound] at hcontents
        exact .inr ⟨s', hcall, hopen, hopen', hpending, hcontents⟩

/-- All that such a call can change. -/
theorem queues_changes {c : Call} (hc : c.queues = true) (s : Session T) :
    ∃ sendBuffer lastActive, (s.perform c).2 = { s with sendBuffer, lastActive } := by
  cases c with
  | openUp | close | readable | writable => cases hc
  | queueSend data => exact s.queueSend_changes data
  | sendFrame payload => exact s.sendFrame_changes payload

theorem closePending_perform {c : Call} (hc : c.queues = true) (s : Session T) :
    (s.perform c).2.closePending = s.closePending := by
  rcases queues_changes hc s with ⟨_, _, hs⟩
  rw [hs]

/-- What is queued is told later. -/
theorem writeInterest_perform {c : Call} (hc : c.queues = true) (s : Session T) :
    (s.perform c).2.writeInterest = s.writeInterest := by
  rcases queues_changes hc s with ⟨_, _, hs⟩
  rw [hs]

end TcpReactor.Session

namespace TcpReactor.Driven

variable {H T : Type} [Transport T] [Handler T H]

/-! ## Making up for what was missed -/

omit [Transport T] in
/-- Behind a callback only the marks change by which the session knows what its handler knows. -/
theorem session_settle (d : Driven H T) : ∃ closePending writeInterest,
    d.settle.session = { d.session with closePending, writeInterest } := by
  rw [settle]
  split
  all_goals
    rw [syncInterest]
    split
    · exact ⟨_, _, rfl⟩
    · exact ⟨_, _, rfl⟩

omit [Handler T H] in
/-- An answer that can be checked by evaluation. -/
theorem openUp_eq_ok {d : Driven H T} (h : d.openUp.1.toOption = some ()) :
    d.openUp = (.ok (), d.openUp.2) := by
  rcases hopen : d.openUp with ⟨e | _, d'⟩
  · rw [hopen] at h
    cases h
  · rfl

theorem phase_close (d : Driven H T) : d.close.session.phase = .closed := by
  rw [close]
  split
  · assumption
  · rcases session_settle { d with session := d.session.close } with ⟨_, _, hsession⟩
    rw [hsession]
    exact d.session.phase_close

theorem isOpen_close (d : Driven H T) : d.close.isOpen = false := by
  rw [isOpen, Session.isOpen, phase_close]
  rfl

/-- A call that queues: what the busy session does, and if it succeeds, the handler is told. -/
theorem perform_of_queues (fuel : Nat) (d : Driven H T) {c : Session.Call} (hc : c.queues = true) :
    d.perform fuel c = some (match d.session.perform c with
      | (.ok (), session) => (.ok (), Driven.syncInterest { d with session })
      | (.error e, session) => (.error e, { d with session })) := by
  cases c with
  | openUp | close | readable | writable => cases hc
  | queueSend data => rfl
  | sendFrame payload => rfl

/-- What happens inside of such a call. -/
theorem passEvents_of_queues (fuel : Nat) (d : Driven H T) {c : Session.Call}
    (hc : c.queues = true) :
    d.passEvents fuel c = match d.session.perform c with
      | (.ok (), session) => syncInterestEvents { d with session }
      | (.error _, _) => [] := by
  cases c with
  | openUp | close | readable | writable => cases hc
  | queueSend data => rfl
  | sendFrame payload => rfl

end TcpReactor.Driven
