import TcpReactor.Proofs.FrameCodec
import TcpReactor.Proofs.Session.Traffic
import TcpReactor.Service.FrameEcho

namespace TcpReactor.FrameEcho

open Session

/-! # Frame echo sends back whole frames

What a frame echo queues are the frames at the start of what it has received, as many as it has
counted and byte for byte; the rest stays in its recv buffer until the next frame is whole.

* `answer_round`: a round of its loop waits, gives up or sends one frame back.
* `keeps_answer`: the loop ends with no frame left to be sent back, or closes for a reason.
* `exact_frames`: so it is between any two calls, and the echo closes for these reasons only.
-/

variable {T : Type} [Transport T] {taken : T → Bytes} {t : Traffic} {e : FrameEcho} {s : Session T}

/-! ## The loop -/

/-- What a frame echo can do with what is in the recv buffer, in one round of its loop: wait for
more, close because of what a header declares, or take a frame out and queue it; or close because
there is no room for it. -/
theorem answer_round (fuel : Nat) (e : FrameEcho) (hopen : s.isOpen = true) :
    (Frame.Incomplete s.recvBuffer.contents ∧
      (answer (fuel + 1) e).events s = [] ∧ (answer (fuel + 1) e).run s = (e, s)) ∨
    (∃ n, Frame.declared? s.recvBuffer.contents = some n ∧ Frame.maxPayload < n ∧
      (answer (fuel + 1) e).events s = s.performEvents .close ∧
      (answer (fuel + 1) e).run s = (e, s.close)) ∨
    ∃ payload frame recvBuffer, Frame.encode payload = .ok frame ∧
      s.recvBuffer.contents = frame ++ recvBuffer.contents ∧
      let taken := { s with recvBuffer }
      (∃ sendBuffer, sendBuffer.contents = s.sendBuffer.contents ++ frame ∧
        let next : Program T FrameEcho := answer fuel { frames := e.frames + 1 }
        let s' := { s with recvBuffer, sendBuffer }.touch
        taken.perform (.sendFrame payload) = (.ok (), s') ∧
        (answer (fuel + 1) e).events s =
          taken.performEvents (.sendFrame payload) ++ next.events s' ∧
        (answer (fuel + 1) e).run s = next.run s') ∨
      (∃ cause, s.sendBuffer.freeSpace < frame.length ∧
        taken.perform (.sendFrame payload) = (.error cause, taken) ∧
        (answer (fuel + 1) e).events s =
          taken.performEvents (.sendFrame payload) ++ taken.performEvents .close ∧
        (answer (fuel + 1) e).run s = (e, taken.close)) := by
  rw [answer, Program.events, Program.run]
  rcases Frame.pop_cases s.recvBuffer with ⟨hpop, hincomplete⟩ | ⟨n, hpop, hmax, hdeclared⟩ |
    ⟨payload, frame, recvBuffer, hpop, hframe, hcontents⟩
  all_goals rw [hpop]
  · exact .inl ⟨hincomplete, rfl, rfl⟩
  · exact .inr (.inl ⟨n, hdeclared, hmax, List.append_nil _, rfl⟩)
  · refine .inr (.inr ⟨payload, frame, recvBuffer, hframe, hcontents, ?_⟩)
    rw [Program.events, Program.run, Program.events, Program.run]
    -- the frame is out of the recv buffer already, whether there is room for the answer or not
    rcases Nat.lt_or_ge s.sendBuffer.freeSpace frame.length with hless | hroom
    · have hsend := sendFrame_of_no_room (s := { s with recvBuffer }) hopen hframe hless
      refine .inr ⟨_, hless, hsend, ?_, ?_⟩
      · rw [Session.perform, hsend]
        show _ ++ (Session.performEvents _ .close ++ []) = _
        rw [List.append_nil]
      · rw [Session.perform, hsend]
        rfl
    · rcases sendFrame_of_room (s := { s with recvBuffer }) hopen hframe hroom with
        ⟨sendBuffer, hsend, hqueued⟩
      refine .inl ⟨sendBuffer, hqueued, hsend, ?_, ?_⟩
      · rw [Session.perform, hsend]
      · rw [Session.perform, hsend]

/-! ## The conduct of a frame echo -/

/-- What has come in was queued or waits in the recv buffer, and what was queued are as many whole
frames as the echo has counted. -/
structure Exact (t : Traffic) (e : FrameEcho) (recvBuffer sendBuffer : StreamBuffer) : Prop where
  balanced : t.Balanced sendBuffer
  whole : t.queued ++ recvBuffer.contents = t.inbound
  frames : ∃ payloads, payloads.length = e.frames ∧ Frame.encodeAll payloads = .ok t.queued

variable {recvBuffer recvBuffer' sendBuffer sendBuffer' : StreamBuffer} {data payload frame : Bytes}
  {n : Nat}

theorem Exact.arrive (hwrite : recvBuffer.write data = .ok recvBuffer')
    (h : Exact t e recvBuffer sendBuffer) : Exact (t.arrive data) e recvBuffer' sendBuffer where
  balanced := h.balanced
  whole := by
    show t.queued ++ recvBuffer'.contents = t.inbound ++ data
    rw [StreamBuffer.contents_write hwrite, ← List.append_assoc, h.whole]
  frames := h.frames

theorem Exact.leave (hconsume : sendBuffer.consume n = .ok sendBuffer')
    (h : Exact t e recvBuffer sendBuffer) :
    Exact (t.leave (sendBuffer.contents.take n)) e recvBuffer sendBuffer' where
  balanced := h.balanced.leave hconsume
  whole := h.whole
  frames := h.frames

/-- The frame at the front of the recv buffer is sent back. -/
theorem Exact.reply (hframe : Frame.encode payload = .ok frame)
    (hrecv : recvBuffer.contents = frame ++ recvBuffer'.contents)
    (hsend : sendBuffer'.contents = sendBuffer.contents ++ frame)
    (h : Exact t e recvBuffer sendBuffer) :
    Exact (t.enqueue frame) { frames := e.frames + 1 } recvBuffer' sendBuffer' where
  balanced := h.balanced.enqueue hsend
  whole := by
    show t.queued ++ frame ++ recvBuffer'.contents = t.inbound
    rw [List.append_assoc, ← hrecv, h.whole]
  frames := by
    rcases h.frames with ⟨payloads, hcount, hqueued⟩
    refine ⟨payloads ++ [payload], ?_, Frame.encodeAll_concat hqueued hframe⟩
    rw [List.length_append, hcount]
    rfl

/-- At all times the transport has taken a front part of what has come in. -/
theorem Exact.front_accepted (h : Exact t e recvBuffer sendBuffer) : t.accepted <+: t.inbound := by
  refine ⟨sendBuffer.contents ++ recvBuffer.contents, ?_⟩
  rw [← List.append_assoc, h.balanced, h.whole]

/-- The conduct of a frame echo. Between two passes no whole frame waits in the recv buffer, and no
header that declares too much. -/
def echoing : Conduct FrameEcho where
  resting t e recvBuffer sendBuffer :=
    Exact t e recvBuffer sendBuffer ∧ Frame.Incomplete recvBuffer.contents
  arriving := Exact
  leaving t e recvBuffer sendBuffer :=
    Exact t e recvBuffer sendBuffer ∧ Frame.Incomplete recvBuffer.contents
  closed t := t.accepted <+: t.inbound

/-- What comes next in a stream, behind the frames that have been queued, cannot be sent back: a
header declares too much, or there is no room for a whole frame. -/
def Unanswerable (t : Traffic) (s : Session T) : Prop :=
  ∃ rest, t.inbound = t.queued ++ rest ∧
    ((∃ n, Frame.declared? rest = some n ∧ Frame.maxPayload < n) ∨
      ∃ payload frame, Frame.encode payload = .ok frame ∧ frame <+: rest ∧
        s.sendBuffer.freeSpace < frame.length)

/-- The auditor of a frame echo, who asks for a reason when it closes. -/
def auditor (taken : T → Bytes) : Observer Traffic T :=
  echoing.audit taken fun t e => ∀ answer s, e = .called .close answer s → Unanswerable t s

/-- The loop takes up a session that is in order. It leaves it with no frame to be sent back, or
closed for a reason. -/
theorem keeps_answer {rounds : Nat} (hrounds : s.recvBuffer.length < rounds)
    (hopen : s.isOpen = true) (hpending : s.closePending = false)
    (h : Exact t e s.recvBuffer s.sendBuffer) :
    (auditor taken).Keeps echoing.Ran t ((answer rounds e).events s)
      ((answer rounds e).run s) := by
  induction rounds generalizing t e s with
  | zero => omega
  | succ rounds ih =>
      have hphase := phase_of_isOpen hopen
      have haudits : echoing.Audits taken (auditor taken) := echoing.audits_audit taken _
      -- whenever it closes, what the transport has taken is a front part of what has come in
      have hclose : ∀ {s' : Session T}, Unanswerable t s' →
          (auditor taken).Keeps echoing.Ran t (s'.performEvents .close) (e, s'.close) := by
        intro s' hreason
        refine haudits.callClose ⟨fun hshows => (by cases hshows), fun _ => ?_⟩
          h.front_accepted (.of_closed (phase_close s') h.front_accepted)
        rintro answer s'' ⟨⟩
        exact hreason
      rcases answer_round rounds e hopen with ⟨hincomplete, hevents, hrun⟩ |
        ⟨n, hdeclared, hmax, hevents, hrun⟩ | ⟨payload, frame, recvBuffer, hframe, hcontents,
          ⟨sendBuffer, hqueued, hsend, hevents, hrun⟩ | ⟨cause, hless, hsend, hevents, hrun⟩⟩
      all_goals rw [hevents, hrun]
      · exact Observer.Keeps.nil (.of_opened hphase hpending ⟨h, hincomplete⟩)
      · exact hclose ⟨_, h.whole.symm, .inl ⟨n, hdeclared, hmax⟩⟩
      · have hreply := haudits.reply_open (t := t) hsend rfl hphase
          ⟨fun hshows => (by cases hshows), fun _ _ _ hcall => by cases hcall⟩
        refine hreply.append fun t' ht => ?_
        have hnext : t' = t.enqueue frame := by
          rw [show t' = t.enqueue ((Frame.encode payload).toOption.getD []) from ht, hframe]
          rfl
        -- a frame has a header at least, so the rounds suffice
        have hless : recvBuffer.length < rounds := by
          rw [← StreamBuffer.length_contents, hcontents, List.length_append,
            Frame.length_of_encode hframe, StreamBuffer.length_contents] at hrounds
          simp only [Frame.headerSize] at hrounds
          omega
        rw [hnext]
        exact ih hless hopen hpending (h.reply hframe hcontents hqueued)
      · have hrefused := haudits.reply_open (t := t) hsend rfl hphase
          ⟨fun hshows => (by cases hshows), fun _ _ _ hcall => by cases hcall⟩
        refine hrefused.append fun t' ht => ?_
        rw [show t' = t from ht]
        exact hclose ⟨_, h.whole.symm, .inr ⟨payload, frame, hframe, ⟨_, hcontents.symm⟩, hless⟩⟩

theorem kept (lasting : Transport.Lasting T) (taken : T → Bytes) :
    echoing.Kept taken (auditor taken) where
  toAudits := echoing.audits_audit taken _
  arriving h := h.1
  arrived := Exact.arrive
  left hconsume h := ⟨h.1.leave hconsume, h.2⟩
  onRecv _ hpending hlive h := keeps_answer (Nat.lt_succ_self _) (hlive lasting) hpending h
  onSend hphase hpending _ h := Observer.Keeps.nil (.of_opened hphase hpending h)
  onInterest h := h
  mishap _ _ _ _ _ _ h := h.front_accepted.trans (List.prefix_append _ _)

/-! ## Runs -/

/-- The echo queues nothing while bytes leave. -/
theorem drains : Drains T FrameEcho := fun _ _ _ => Nat.le_refl _

/-- A frame echo that has sent back all it can. -/
structure UpToDate (t : Traffic) (d : Driven FrameEcho T) : Prop where
  /-- What it has sent back are whole frames, as many as it has counted. -/
  frames : ∃ payloads, payloads.length = d.handler.frames ∧
    Frame.encodeAll payloads = .ok (t.accepted ++ d.session.sendBuffer.contents)
  /-- With what is in the recv buffer they are all that has come in. -/
  whole : t.accepted ++ d.session.sendBuffer.contents ++ d.session.recvBuffer.contents = t.inbound
  /-- Of the next frame a part is missing, and its header does not declare too much. -/
  incomplete : Frame.Incomplete d.session.recvBuffer.contents

/-- A frame echo with buffers of any size, over any honest transport that stays open as long as it
does what it is asked. Bytes arrive and passes are made in whatever order. Then the echo closes its
session only when the next frame cannot be sent back; the transport has taken a front part of what
has come in, whenever the session is seen closed; every run comes to its end; and unless the session
has closed, all whole frames have been sent back, and the rest waits in the recv buffer. -/
theorem exact_frames (honest : Transport.Honest T taken) (lasting : Transport.Lasting T)
    {transport : T} {recvCapacity sendCapacity now fuel : Nat} {d₀ : Driven FrameEcho T}
    (hopen : (Driven.new transport recvCapacity sendCapacity now ({} : FrameEcho)).openUp =
      (.ok (), d₀))
    (hfuel : sendCapacity ≤ fuel) {steps : List (Driven.Step FrameEcho T)}
    (hsteps : ∀ step ∈ steps, step.isPass = true) :
    let traffic := Traffic.after taken {}
    (∀ before e after, d₀.trace fuel steps = before ++ e :: after →
      (∀ answer s, e = .called .close answer s → Unanswerable (traffic before) s) ∧
      (e.shows .closed = true →
        (traffic (before ++ [e])).accepted <+: (traffic (before ++ [e])).inbound)) ∧
    ∃ d, steps.foldlM (Driven.step fuel) d₀ = some d ∧
      (traffic (d₀.trace fuel steps)).accepted <+: (traffic (d₀.trace fuel steps)).inbound ∧
      (d.session.isOpen = true → UpToDate (traffic (d₀.trace fuel steps)) d) := by
  intro traffic
  rcases opened_openUp hopen with ⟨hopened, hhandler⟩
  -- at the start both buffers are empty, and no frame has come in
  have hstart : echoing.Rests {} d₀ := by
    refine hopened.rests ⟨⟨hopened.sendEmpty, hopened.recvEmpty, ?_⟩, ?_⟩
    · rw [hhandler]
      exact ⟨[], rfl, rfl⟩
    · rw [hopened.recvEmpty]
      exact Frame.incomplete_nil
  rcases (kept lasting taken).run honest hsteps hstart fun _ _ => trivial with
    ⟨haccepts, hreached⟩
  refine ⟨?_, ?_⟩
  · intro before e after htrace
    rw [htrace] at haccepts
    rcases haccepts.demands with ⟨hclosed, hreply⟩
    refine ⟨?_, fun hshows => ?_⟩
    · rintro answer s rfl
      exact hreply rfl answer s rfl
    · rw [show traffic (before ++ [e]) = _ from Traffic.after_concat taken {} before e]
      exact hclosed hshows
  · -- that the run ends is shown apart from what it does
    rcases exists_run drains hopened.told (hopened.sendCapacity ▸ hfuel) steps with ⟨d, hrun⟩
    have hrests : echoing.Rests (traffic (d₀.trace fuel steps)) d := hreached d hrun
    refine ⟨d, hrun, ?_, fun hlive => ?_⟩
    · cases hphase : d.session.phase with
      | opened => exact (hrests.opened hphase).1.front_accepted
      | closed => exact hrests.closed hphase
    · rcases hrests.opened (phase_of_isOpen hlive) with ⟨hexact, hincomplete⟩
      have hqueued := hexact.balanced
      rw [Traffic.Balanced] at hqueued
      refine ⟨?_, ?_, hincomplete⟩
      · rw [hqueued]
        exact hexact.frames
      · rw [hqueued]
        exact hexact.whole

/-- Two frames, cut inside a header and inside a payload, and the start of a third one. When that is
whole, it is longer than the send buffer, and the echo closes. -/
theorem exact_frames_cut :
    Transport.Honest Socket (·.outbound) ∧ Transport.Lasting Socket ∧
    let new : Driven FrameEcho Socket := .new { peer := .v4 [127, 0, 0, 1] 80 } 16 8 0 {}
    let first : List (Driven.Step FrameEcho Socket) :=
      [.editTransport (·.arrive [0, 0, 0, 1, 9, 0, 0]), .call .readable,
        .editTransport (·.arrive [0, 2, 7]), .call .readable, .call .writable, .wait 5,
        .editTransport (·.arrive [8, 0, 0]), .call .readable]
    let second : List (Driven.Step FrameEcho Socket) :=
      [.editTransport (·.arrive [0, 5, 1, 2, 3, 4, 5]), .call .readable]
    let traffic (d₀ : Driven FrameEcho Socket) (steps) :=
      Traffic.after (·.outbound) {} (d₀.trace 8 steps)
    ∃ d₀ d d', new.openUp = (.ok (), d₀) ∧ (∀ step ∈ first ++ second, step.isPass = true) ∧
      first.foldlM (Driven.step 8) d₀ = some d ∧ d.session.isOpen = true ∧
      d.handler.frames = 2 ∧ d.session.sendBuffer.contents = [0, 0, 0, 2, 7, 8] ∧
      UpToDate (traffic d₀ first) d ∧
      (first ++ second).foldlM (Driven.step 8) d₀ = some d' ∧ d'.session.phase = .closed ∧
      (traffic d₀ (first ++ second)).accepted <+: (traffic d₀ (first ++ second)).inbound := by
  refine ⟨Socket.honest, Socket.lasting, ?_⟩
  intro new first second traffic
  have hfirst : ∀ step ∈ first, step.isPass = true := by
    simp [first, Driven.Step.isPass, Call.isPass]
  have hsecond : ∀ step ∈ second, step.isPass = true := by
    simp [second, Driven.Step.isPass, Call.isPass]
  have hsteps := List.forall_mem_append.mpr ⟨hfirst, hsecond⟩
  have hopen : new.openUp = (.ok (), new.openUp.2) := Driven.openUp_eq_ok (by decide +kernel)
  have hopened : (first.foldlM (Driven.step 8) new.openUp.2).map (fun d =>
      (d.session.isOpen, d.handler.frames, d.session.sendBuffer.contents)) =
      some (true, 2, [0, 0, 0, 2, 7, 8]) := by
    decide +kernel
  have hclosed : ((first ++ second).foldlM (Driven.step 8) new.openUp.2).map (·.session.phase) =
      some .closed := by
    decide +kernel
  rcases (exact_frames Socket.honest Socket.lasting hopen (Nat.le_refl 8) hfirst).2 with
    ⟨d, hrun, _, huptodate⟩
  rcases (exact_frames Socket.honest Socket.lasting hopen (Nat.le_refl 8) hsteps).2 with
    ⟨d', hrun', hprefix, _⟩
  rw [hrun] at hopened
  rw [hrun'] at hclosed
  simp only [Option.map_some, Option.some.injEq, Prod.mk.injEq] at hopened hclosed
  exact ⟨_, d, d', hopen, hsteps, hrun, hopened.1, hopened.2.1, hopened.2.2, huptodate hopened.1,
    hrun', hclosed, hprefix⟩

end TcpReactor.FrameEcho
