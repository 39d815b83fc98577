import TcpReactor.Proofs.Session.Observer
import TcpReactor.Sim.ScriptedHandler

namespace TcpReactor

/-! # A frame is queued as its bytes

Bytes are queued by one write, a frame by two, one for its header and one for its payload, and its
room is checked ahead of both. Whoever looks at a session cannot tell the difference.

* `StreamBuffer.write_write`: a write that follows another one leaves the buffer that a single write
  of both parts leaves, to the last cell and cursor, wherever the arena wraps around.
* `Session.sendFrame_eq_queueSend`: so a frame is queued as its bytes are, if the send buffer of a
  session that is in use is open. That it is holds in every run (`Session.ready_preserves`).
* `Session.sendFrame_as_bytes`: the calls are the same wherever they can be made, inside of
  callbacks and from outside, and nobody is told anything else.
-/

/-- The second of two writes writes both at once, in the buffer as it was. -/
theorem StreamBuffer.write_write {b b' : StreamBuffer} {src more : Bytes}
    (hwrite : b.write src = .ok b') (hmore : more ≠ [])
    (hroom : (src ++ more).length ≤ b.freeSpace) : b'.write more = b.write (src ++ more) := by
  obtain ⟨hopen, hopen'⟩ := isOpen_write hwrite
  obtain ⟨hpos, hfits, hleft⟩ := freeSpace_write hwrite
  rw [List.length_append] at hroom
  have hsrc : src ≠ [] := List.length_pos_iff.mp hpos
  have hboth : src ++ more ≠ [] := by simp [hsrc]
  have hring : b' = { b with ring := (b.ring.write src).2 } := by
    rw [write_of_room hopen hsrc hfits] at hwrite
    exact (Except.ok.inj hwrite).symm
  have hfree : b.ring.freeSpace = b.freeSpace := by simp [freeSpace, hopen]
  rw [write_of_room hopen' hmore (by omega),
    write_of_room hopen hboth (by rw [List.length_append]; omega),
    b.ring.write_append src more (by rw [List.length_append]; omega), hring]

namespace Session

variable {T : Type}

/-- The send buffer of a session that is in use is open. -/
def Ready (s : Session T) : Prop := s.phase = .opened → s.sendBuffer.isOpen = true

/-- The session as it is at an event, if the event shows it. -/
def Event.shown? : Event T → Option (Session T)
  | .called _ _ s => some s
  | e => e.seen?

variable [Transport T] {s s' : Session T} {payload frame : Bytes}

/-! ## Two writes or one -/

/-- A frame that does not find room is refused as its bytes are, and one that does leaves the send
buffer that its bytes leave. -/
theorem sendFrame_eq_queueSend (hready : s.Ready) (hframe : Frame.encode payload = .ok frame) :
    s.sendFrame payload = s.queueSend frame := by
  by_cases hopen : s.isOpen = true
  · have hsend := hready (phase_of_isOpen hopen)
    obtain ⟨hsize, hbytes⟩ := Frame.encode_eq_ok.mp hframe
    have hsome : beWord payload.length ≠ [] := List.cons_ne_nil _ _
    have hnonempty : frame ≠ [] := by simp [hbytes, hsome]
    by_cases hroom : frame.length ≤ s.sendBuffer.freeSpace
    · obtain ⟨sendBuffer, hwrite, hqueue⟩ := queueSend_of_room hopen hnonempty hroom
      rw [hqueue]
      rw [hbytes] at hwrite hroom
      rw [List.length_append] at hroom
      obtain ⟨between, hheader⟩ := StreamBuffer.exists_write hsend hsome (by omega)
      simp only [sendFrame, Frame.header, hopen, hheader, Bool.not_true, Bool.false_eq_true,
        if_false, Nat.not_lt.mpr hsize, Nat.not_lt.mpr hroom]
      cases payload with
      | nil =>
          -- an empty payload is not written, since a buffer takes no empty write
          rw [List.append_nil, hheader] at hwrite
          cases hwrite
          rfl
      | cons b rest =>
          have hpayload := StreamBuffer.write_write hheader (List.cons_ne_nil b rest)
            (by rw [List.length_append]; omega)
          simp only [hpayload, hwrite, List.isEmpty_cons, Bool.false_eq_true, if_false]
    · have hfull : s.sendBuffer.freeSpace < frame.length := by omega
      have hrefused := StreamBuffer.write_of_no_room hsend hfull
      rw [sendFrame_of_no_room hopen hframe hfull]
      simp [queueSend, hopen, hnonempty, hrefused]
  · simp only [sendFrame, queueSend, hopen, Bool.not_false, if_true]

/-- A payload that is too long is refused before anything is looked at. -/
theorem sendFrame_of_too_long (hopen : s.isOpen = true)
    (hlong : Frame.maxPayload < payload.length) :
    s.sendFrame payload = (.error (.frame (.overflow payload.length)), s) := by
  simp only [sendFrame, Frame.header, hopen, hlong, Bool.not_true, Bool.false_eq_true, if_false,
    if_true]

/-! ## The send buffer of a session that is in use -/

theorem ready_openUp (h : s.Ready) : s.openUp.2.Ready := by
  rcases hcall : s.openUp with ⟨e | _, s'⟩
  · rcases openUp_error hcall with rfl | ⟨hclosed, _, _, rfl, _⟩
    · exact h
    · intro hopened
      exact absurd (hclosed.symm.trans hopened) (by simp)
  · intro _
    exact StreamBuffer.isOpen_openUp (buffers_openUp_ok hcall).2

theorem ready_close (s : Session T) : s.close.Ready := by
  intro hopened
  rw [phase_close] at hopened
  cases hopened

theorem ready_queueSend (data : Bytes) (h : s.Ready) : (s.queueSend data).2.Ready := by
  rw [queueSend]
  split
  · exact h
  split
  · exact h
  split
  · exact h
  · intro _
    exact (StreamBuffer.isOpen_write ‹_›).2

/-- What is queued as a frame is queued as bytes, unless it is too long to be queued at all. -/
theorem ready_sendFrame (payload : Bytes) (h : s.Ready) : (s.sendFrame payload).2.Ready := by
  rcases hcall : s.sendFrame payload with ⟨e | _, s'⟩
  · rwa [sendFrame_error hcall]
  · obtain ⟨_, _, frame, hframe, _⟩ := sendFrame_ok hcall
    have hqueued := ready_queueSend frame h
    rwa [← sendFrame_eq_queueSend h hframe, hcall] at hqueued

theorem ready_sendOnce (h : s.Ready) : s.sendOnce.2.Ready := by
  rcases s.sendOnce_cases with ⟨_, _, hresult⟩ | ⟨_, _, _, transport, _, _, _, _, hcases⟩
  · rwa [hresult]
  rcases hcases with ⟨_, hresult⟩ | ⟨_, hresult⟩ | ⟨_, _, hresult⟩ | ⟨_, _, _, hresult⟩ |
    ⟨_, _, _, hconsume, hresult⟩
  all_goals rw [hresult]
  · exact h
  · exact h
  · exact h
  · exact h
  · intro _
    exact StreamBuffer.isOpen_consume hconsume

/-- The observer that demands that every session it is shown is ready. -/
def shownReady : Observer Unit T where
  next _ _ := ()
  demands _ e := ∀ s, e.shown? = some s → s.Ready

omit [Transport T] in
theorem keeps_shownReady {e : Event T} (hshown : e.shown? = some s) (h : s.Ready) (h' : s'.Ready) :
    shownReady.Keeps (fun _ s => s.Ready) () [e] s' := by
  refine Observer.Keeps.single fun _ => ⟨?_, h'⟩
  intro s₁ hshown₁
  rw [hshown, Option.some.injEq] at hshown₁
  rwa [← hshown₁]

omit [Transport T] in
theorem demands_of_hidden {e : Event T} (h : e.shown? = none) : shownReady.demands () e := by
  intro s hshown
  rw [h] at hshown
  cases hshown

/-- Whatever is done to a session, and by whom, it stays ready. -/
theorem ready_preserves :
    Observer.Preserves (shownReady : Observer Unit T) (fun _ s => s.Ready) where
  quiet := by
    rintro _ s _ ⟨_, _, _, _, rfl⟩ h
    exact h
  close := fun {_ s} _ => ready_close s
  called := by
    intro _ s c hdone h
    refine keeps_shownReady rfl h ?_
    cases c with
    | readable | writable => cases hdone
    | openUp => exact ready_openUp h
    | close => exact ready_close s
    | queueSend data => exact ready_queueSend data h
    | sendFrame payload => exact ready_sendFrame payload h
  started := fun _ h => keeps_shownReady rfl h h
  returned := fun h => keeps_shownReady rfl h h
  received := fun h => Observer.Keeps.single fun _ => ⟨demands_of_hidden rfl, h⟩
  sent := by
    intro _ s _ h
    -- an attempt to send shows the session to nobody
    refine fun _ => ⟨?_, ready_sendOnce h⟩
    rcases s.sendOnce_cases with ⟨_, hevents, _⟩ | ⟨_, _, _, _, _, _, _, hevents, _⟩
    · rw [hevents]
      trivial
    · rw [hevents]
      exact ⟨demands_of_hidden rfl, trivial⟩
  told := fun _ _ _ h => keeps_shownReady rfl h h
  toldClose := fun _ h => keeps_shownReady rfl h h
  toldInterest := fun _ _ _ h => keeps_shownReady rfl h h
  idle := fun _ h => keeps_shownReady rfl h h

/-! ## Wherever the calls can be made -/

/-- Inside a callback, queueing the payload as a frame is queueing the bytes of its frame, and the
handler is told of neither. -/
structure FrameAsBytes (s : Session T) (payload : Bytes) : Prop where
  queued : payload.length ≤ Frame.maxPayload → ∃ frame, Frame.encode payload = .ok frame ∧
    s.perform (.sendFrame payload) = s.perform (.queueSend frame) ∧
    told (s.performEvents (.sendFrame payload)) = told (s.performEvents (.queueSend frame))
  too_long : s.isOpen = true → Frame.maxPayload < payload.length →
    s.perform (.sendFrame payload) = (.error (.frame (.overflow payload.length)), s)
  unchanged : ∀ e s', s.perform (.sendFrame payload) = (.error e, s') → s' = s
  /-- Behind the header that was written there is room for the payload. -/
  completed : ∀ header sendBuffer, Frame.header payload.length = .ok header →
    header.length + payload.length ≤ s.sendBuffer.freeSpace →
    s.sendBuffer.write header = .ok sendBuffer → payload ≠ [] →
    ∃ sendBuffer', sendBuffer.write payload = .ok sendBuffer'

theorem frameAsBytes (hready : s.Ready) (payload : Bytes) : s.FrameAsBytes payload where
  queued := by
    intro hsize
    refine ⟨_, Frame.encode_eq_ok.mpr ⟨hsize, rfl⟩, ?_, ?_⟩
    · exact sendFrame_eq_queueSend hready (Frame.encode_eq_ok.mpr ⟨hsize, rfl⟩)
    · rw [told_performEvents, told_performEvents]
  too_long := sendFrame_of_too_long
  unchanged := fun _ _ => sendFrame_error
  completed := by
    intro header sendBuffer _ hroom hheader hpayload
    obtain ⟨hopen, _⟩ := StreamBuffer.isOpen_write hheader
    rw [StreamBuffer.write_write hheader hpayload (by rwa [List.length_append])]
    exact StreamBuffer.exists_write hopen (by simp [hpayload]) (by rwa [List.length_append])

end Session

namespace Driven

variable {T H : Type} [Transport T] [Handler T H]

/-- From outside the handler is told of both in the same way. -/
structure FrameAsBytes (fuel : Nat) (d : Driven H T) (payload : Bytes) : Prop where
  queued : payload.length ≤ Frame.maxPayload → ∃ frame, Frame.encode payload = .ok frame ∧
    d.perform fuel (.sendFrame payload) = d.perform fuel (.queueSend frame) ∧
    d.passEvents fuel (.sendFrame payload) = d.passEvents fuel (.queueSend frame)
  too_long : d.isOpen = true → Frame.maxPayload < payload.length →
    d.perform fuel (.sendFrame payload) = some (.error (.frame (.overflow payload.length)), d) ∧
    d.passEvents fuel (.sendFrame payload) = []
  unchanged : ∀ e d', d.perform fuel (.sendFrame payload) = some (.error e, d') →
    d' = d ∧ d.passEvents fuel (.sendFrame payload) = []

theorem frameAsBytes {d : Driven H T} (hready : d.session.Ready) (fuel : Nat) (payload : Bytes) :
    d.FrameAsBytes fuel payload where
  queued := by
    intro hsize
    have hframe := Frame.encode_eq_ok.mpr ⟨hsize, rfl⟩
    -- inside a callback the two calls are equal, and from outside the same is made up for
    have hsame := Session.sendFrame_eq_queueSend hready hframe
    refine ⟨_, hframe, ?_, ?_⟩
    · show some (d.sendFrame payload) = some (d.queueSend _)
      rw [sendFrame, queueSend, hsame]
    · rw [passEvents, passEvents, hsame]
  too_long := by
    intro hopen hlong
    have hrefused := Session.sendFrame_of_too_long hopen hlong
    constructor
    · show some (d.sendFrame payload) = _
      rw [sendFrame, hrefused]
    · rw [passEvents, hrefused]
  unchanged := by
    intro e d' hperform
    -- a frame that is refused leaves nothing to be made up for
    have hcall : d.sendFrame payload = (.error e, d') := Option.some.inj hperform
    rw [sendFrame] at hcall
    rcases hsend : d.session.sendFrame payload with ⟨e' | _, s⟩
    · rw [hsend] at hcall
      cases hcall
      rw [Session.sendFrame_error hsend]
      exact ⟨rfl, by rw [passEvents, hsend]⟩
    · rw [hsend] at hcall
      cases hcall

end Driven

/-- In every run, whatever the handler and the transport do, queueing a payload as a frame and
queueing the bytes of its frame are the same call at every event that shows the session, inside of
callbacks and from outside, and on the idle session behind the run. -/
theorem Session.sendFrame_as_bytes {T H : Type} [Transport T] [Handler T H] (transport : T)
    (recvCapacity sendCapacity now : Nat) (handler : H) (fuel : Nat)
    (steps : List (Driven.Step H T)) (payload : Bytes) :
    let start : Driven H T := .new transport recvCapacity sendCapacity now handler
    (∀ e ∈ start.trace fuel steps, ∀ s, e.shown? = some s → s.FrameAsBytes payload) ∧
    ∀ d, steps.foldlM (Driven.step fuel) start = some d → d.FrameAsBytes fuel payload := by
  intro start
  have hstart : Observer.Preserves.Told (fun _ s => s.Ready) () start.session := ⟨nofun, rfl⟩
  obtain ⟨haccepts, hdone⟩ :=
    ready_preserves.keeps_trace fuel steps hstart fun _ _ => trivial
  constructor
  · intro e he s hshown
    exact frameAsBytes (Observer.accepts_iff_forall.mp haccepts e he s hshown) payload
  · intro d hd
    exact Driven.frameAsBytes (hdone d hd).1 fuel payload

/-- The transport takes three of five bytes, and the callback that is told of them queues a frame of
seven bytes. It fills the send buffer to the last byte, around the end of the arena. Behind that
nothing finds room, not even an empty frame. -/
theorem Session.sendFrame_as_bytes_wrapped :
    let handler : Sim.ScriptedHandler := { onSend := [[.call (.sendFrame [7, 8, 9])]] }
    let transport : Sim.ScriptedTransport := { reads := [], sends := [.accept 3, .block] }
    let start : Driven Sim.ScriptedHandler Sim.ScriptedTransport := .new transport 8 9 0 handler
    let steps : List (Driven.Step Sim.ScriptedHandler Sim.ScriptedTransport) :=
      [.call .openUp, .call (.queueSend [1, 2, 3, 4, 5]), .call .writable]
    (∃ s, (∃ e ∈ start.trace 9 steps, e.shown? = some s) ∧
      s.sendBuffer.contents = [4, 5] ∧ s.sendBuffer.freeSpace = 7 ∧ s.FrameAsBytes [7, 8, 9]) ∧
    ∃ d, steps.foldlM (Driven.step 9) start = some d ∧
      d.session.sendBuffer.contents = [4, 5, 0, 0, 0, 3, 7, 8, 9] ∧
      d.session.sendBuffer.freeSpace = 0 ∧ d.FrameAsBytes 9 [] := by
  intro handler transport start steps
  constructor
  · have hfound : ∃ e ∈ start.trace 9 steps, (e.shown?.map fun s =>
        (s.sendBuffer.contents, s.sendBuffer.freeSpace)) = some ([4, 5], 7) := by
      decide +kernel
    obtain ⟨e, he, hbuffer⟩ := hfound
    obtain ⟨s, hshown, hpair⟩ := Option.map_eq_some_iff.mp hbuffer
    obtain ⟨hcontents, hfree⟩ := Prod.mk.inj hpair
    exact ⟨s, ⟨e, he, hshown⟩, hcontents, hfree,
      (sendFrame_as_bytes transport 8 9 0 handler 9 steps [7, 8, 9]).1 e he s hshown⟩
  · have hend : ((steps.foldlM (Driven.step 9) start).map fun d =>
        (d.session.sendBuffer.contents, d.session.sendBuffer.freeSpace)) =
        some ([4, 5, 0, 0, 0, 3, 7, 8, 9], 0) := by
      decide +kernel
    obtain ⟨d, hd, hpair⟩ := Option.map_eq_some_iff.mp hend
    obtain ⟨hcontents, hfree⟩ := Prod.mk.inj hpair
    exact ⟨d, hd, hcontents, hfree, (sendFrame_as_bytes transport 8 9 0 handler 9 steps []).2 d hd⟩

end TcpReactor
