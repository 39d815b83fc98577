import TcpReactor.Proofs.Service.HttpDraining
import TcpReactor.Proofs.Service.HttpRespond

namespace TcpReactor.HttpService

open Http Session

/-! # The service is a function of the byte stream

However a stream is cut into readable passes, whatever writable passes come between them and however
little each of them may send: what the service queues are the answers to the stream, and when
nothing waits to be sent, these are the bytes that its peer was sent (`queued_eq_respond`).

While the service serves, its parser has gone through a front part of the stream, and the answers to
the whole are what is queued already, followed by the answers to what the parser still has to see
(`Serving`).
-/

/-! ## Serving -/

/-- The service has answered what it has parsed. -/
structure Serving (limits : Limits) (t : Traffic) (h : HttpService)
    (recvBuffer sendBuffer : StreamBuffer) : Prop where
  closing : h.closing = false
  sameLimits : h.parser.limits = limits
  failed : h.parser.failed = none
  /-- There is no request that needs no more bytes. -/
  due : h.parser.stage.due = 0
  recv : recvBuffer.isOpen = true
  balanced : t.Balanced sendBuffer
  answered : ∀ more, respond limits (t.inbound ++ more) =
    t.queued ++ respondFrom limits h.parser.stage
      (h.parser.unread ++ (recvBuffer.contents ++ more))

/-- Nothing is left to answer. -/
def Waiting (limits : Limits) (t : Traffic) (h : HttpService)
    (recvBuffer sendBuffer : StreamBuffer) : Prop :=
  Serving limits t h recvBuffer sendBuffer ∧
    respondFrom limits h.parser.stage (h.parser.unread ++ recvBuffer.contents) = []

/-- What is queued are the answers to the stream, whatever else it brings. -/
def Final (limits : Limits) (t : Traffic) : Prop :=
  ∀ more, respond limits (t.inbound ++ more) = t.queued

theorem final_steady (limits : Limits) : Steady (Final limits) where
  arrive := by
    intro t data hfinal more
    show respond limits (t.inbound ++ data ++ more) = t.queued
    rw [List.append_assoc]
    exact hfinal (data ++ more)
  leave := id

/-- The conduct of the service. -/
def serving (limits : Limits) : Conduct HttpService where
  resting t h recvBuffer sendBuffer :=
    Waiting limits t h recvBuffer sendBuffer ∨ Draining (Final limits) t h sendBuffer
  arriving t h recvBuffer sendBuffer :=
    Serving limits t h recvBuffer sendBuffer ∨ Draining (Final limits) t h sendBuffer
  leaving t h recvBuffer sendBuffer :=
    Waiting limits t h recvBuffer sendBuffer ∨ Closing (Final limits) t h sendBuffer
  closed := Sent (Final limits)

variable {T : Type} [Transport T] {taken : T → Bytes} {limits : Limits} {t : Traffic}
  {h : HttpService} {s : Session T}

theorem Serving.arrive {recvBuffer recvBuffer' sendBuffer : StreamBuffer} {data : Bytes}
    (hwrite : recvBuffer.write data = .ok recvBuffer')
    (hserving : Serving limits t h recvBuffer sendBuffer) :
    Serving limits (t.arrive data) h recvBuffer' sendBuffer where
  closing := hserving.closing
  sameLimits := hserving.sameLimits
  failed := hserving.failed
  due := hserving.due
  recv := (StreamBuffer.isOpen_write hwrite).2
  balanced := hserving.balanced
  answered := by
    intro more
    -- what is asked for any further bytes covers these: they move to the recv buffer
    show respond limits (t.inbound ++ data ++ more) = _
    rw [List.append_assoc, hserving.answered, StreamBuffer.contents_write hwrite,
      List.append_assoc]
    rfl

theorem Waiting.leave {recvBuffer sendBuffer sendBuffer' : StreamBuffer} {n : Nat}
    (hconsume : sendBuffer.consume n = .ok sendBuffer')
    (hwaiting : Waiting limits t h recvBuffer sendBuffer) :
    Waiting limits (t.leave (sendBuffer.contents.take n)) h recvBuffer sendBuffer' :=
  ⟨{ hwaiting.1 with balanced := hwaiting.1.balanced.leave hconsume }, hwaiting.2⟩

/-- The parser of the service behind a scan of all there is. -/
def behind (h : HttpService) (limits : Limits) (recvBuffer : StreamBuffer) : HttpService :=
  let stop := scan limits h.parser.stage (h.parser.unread ++ recvBuffer.contents)
  { h with parser := { limits, unread := stop.unread, stage := stop.stage } }

section Scan

variable {recvBuffer recvBuffer' sendBuffer sendBuffer' : StreamBuffer}
  (hserving : Serving limits t h recvBuffer sendBuffer) (hopen : recvBuffer'.isOpen = true)
  (hempty : recvBuffer'.contents = [])
include hserving hopen hempty

/-- The parser needs more bytes. -/
theorem Serving.waiting
    (hresult : (scan limits h.parser.stage (h.parser.unread ++ recvBuffer.contents)).result =
      .ok none) :
    Waiting limits t (h.behind limits recvBuffer) recvBuffer' sendBuffer := by
  have hmore := respondFrom_append_of_wait hresult
  refine ⟨⟨hserving.closing, rfl, rfl, due_scan _ hserving.due, hopen, hserving.balanced, ?_⟩, ?_⟩
  · intro more
    rw [hserving.answered, ← List.append_assoc, hmore, hempty, List.nil_append]
    rfl
  · rw [hempty]
    -- nothing is due before more arrives: read again from where it stopped, it waits again
    show respondFrom limits (scan limits _ _).stage ((scan limits _ _).unread ++ []) = []
    rw [← hmore, List.append_nil]
    exact respondFrom_of_wait hresult

/-- The parser gives a request, and its answer is queued. -/
theorem Serving.answer (hmax : limits.maxLine.toNat < UInt64.size - 1) {request : Request}
    (hresult : (scan limits h.parser.stage (h.parser.unread ++ recvBuffer.contents)).result =
      .ok (some request)) (hkeep : request.wantsClose = false)
    (hcontents : sendBuffer'.contents = sendBuffer.contents ++ (route request).toBytes true) :
    Serving limits (t.enqueue ((route request).toBytes true)) (h.behind limits recvBuffer)
      recvBuffer' sendBuffer' := by
  refine ⟨hserving.closing, rfl, rfl, ?_, hopen, hserving.balanced.enqueue hcontents, ?_⟩
  · show (scan limits _ _).stage.due = 0
    rw [(scan_request hresult).1]
    rfl
  · intro more
    -- the answer moves from what is still due to what is queued, and the scan goes on behind it
    show respond limits (t.inbound ++ more) = t.queued ++ (route request).toBytes true ++ _
    rw [hserving.answered, ← List.append_assoc, respondFrom_append_of_request hmax hresult, hkeep,
      hempty, List.append_assoc]
    rfl

end Scan

/-! ## Going through the requests -/

/-- What is queued behind the last request, or behind what is none, is the last answer. -/
theorem keeps_lastAnswer {reply : Bytes} {next : Bool → Program T HttpService} (hreply : reply ≠ [])
    (hnext : next true = h.flushAndClose) (hpending : s.closePending = false)
    (hbalanced : t.Balanced s.sendBuffer)
    (hfinal : ∀ more, respond limits (t.inbound ++ more) = t.queued ++ reply) :
    ((serving limits).watch taken Event.calm).Keeps (serving limits).Ran t
      (((Program.queueOrClose reply).bind next).events s)
      (((Program.queueOrClose reply).bind next).run s) := by
  rw [Program.events_bind, Program.run_bind]
  refine (Conduct.queueOrClose reply).append fun t' hqueued => ?_
  have hsome : ((Program.queueOrClose reply).run s).2.sendBuffer.contents ≠ [] := by
    rw [hqueued.contents]
    exact List.append_ne_nil_of_right_ne_nil _ hreply
  rw [hqueued.queued, hnext, flushAndClose, Program.events, Program.run]
  simp only [(hasPendingSend_iff _).mpr hsome, if_true]
  -- there is something to send, so the close is left to the pass that sends it
  have hdraining : Draining (Final limits) t' { h with closing := true }
      ((Program.queueOrClose reply).run s).2.sendBuffer := by
    rw [hqueued.traffic]
    exact ⟨⟨rfl, hbalanced.enqueue hqueued.contents, hfinal⟩, hsome⟩
  exact Observer.Keeps.nil
    (.of_opened hqueued.phase (hqueued.pending.trans hpending) (.inr hdraining))

/-- The loop over the requests. Each of them takes a byte, so the fuel suffices. -/
theorem keeps_serve (hmax : limits.maxLine.toNat < UInt64.size - 1) {fuel : Nat}
    (hfuel : h.parser.unread.length + s.recvBuffer.length < fuel) (hphase : s.phase = .opened)
    (hpending : s.closePending = false) (hserving : Serving limits t h s.recvBuffer s.sendBuffer) :
    ((serving limits).watch taken Event.calm).Keeps (serving limits).Ran t
      ((serve fuel h).events s) ((serve fuel h).run s) := by
  induction fuel generalizing h s t with
  | zero => omega
  | succ fuel ih =>
      rw [serve, Program.events, Program.run]
      rcases hnext : h.parser.nextRequest s.recvBuffer with
        ⟨(e | _) | _ | request, parser, recvBuffer⟩
      all_goals
        rcases Parser.nextRequest_inv hserving.failed hserving.recv hnext with
          ⟨hopen, hempty, hresult, hparser⟩
        rw [hserving.sameLimits] at hresult hparser
        dsimp only
        rw [Program.events, Program.run]
      · -- a malformed request
        refine keeps_lastAnswer (toBytes_ne_nil _ _) rfl hpending hserving.balanced ?_
        intro more
        rw [hserving.answered, ← List.append_assoc, respondFrom_append_of_refusal hmax hresult]
      · -- the limit is not the largest
        exact absurd hresult (scan_ne_overflow hmax _ _)
      · -- not enough bytes for the next request
        rw [hparser ⟨none, rfl⟩]
        have hwaiting := hserving.waiting hopen hempty hresult
        exact Observer.Keeps.nil (.of_opened hphase hpending (.inl hwaiting))
      · rw [hparser ⟨some request, rfl⟩]
        cases hclose : request.wantsClose with
        | true =>
            refine keeps_lastAnswer (toBytes_ne_nil _ _) rfl hpending hserving.balanced ?_
            intro more
            rw [hserving.answered, ← List.append_assoc,
              respondFrom_append_of_request hmax hresult, hclose]
            simp
        | false =>
            rw [Program.events_bind, Program.run_bind]
            refine (Conduct.queueOrClose _).append fun t' hqueued => ?_
            simp only [hqueued.queued]
            -- what is left of the stream is answered from where the parser has stopped
            have htraffic : t' = t.enqueue ((route request).toBytes true) := hqueued.traffic
            have hserving' := hserving.answer hopen hempty hmax hresult hclose hqueued.contents
            rw [← htraffic] at hserving'
            have hless := (scan_request hresult).2
            have hnone : recvBuffer.length = 0 := by
              rw [← StreamBuffer.length_contents, hempty]
              rfl
            rw [hserving.due, List.length_append, StreamBuffer.length_contents] at hless
            refine ih ?_ hqueued.phase (hqueued.pending.trans hpending) ?_
            · rw [hqueued.recvBuffer]
              dsimp only
              omega
            · rw [hqueued.recvBuffer]
              exact hserving'

/-! ## Runs -/

theorem serving_upheld (hmax : limits.maxLine.toNat < UInt64.size - 1) :
    (serving limits).Upheld taken (Event.calm (T := T)) where
  arriving := by
    -- either all requests so far are answered, or the last one was and the rest is ignored
    rintro t h recvBuffer sendBuffer (hwaiting | hdraining)
    · exact .inl hwaiting.1
    · exact .inr hdraining
  arrived := by
    rintro t h data sendBuffer recvBuffer recvBuffer' hwrite (hserving | hdraining)
    · exact .inl (hserving.arrive hwrite)
    · exact .inr ⟨hdraining.1.arrive (final_steady limits), hdraining.2⟩
  left := by
    rintro t h recvBuffer n sendBuffer sendBuffer' hconsume (hwaiting | hdraining)
    · exact .inl (hwaiting.leave hconsume)
    · exact .inr (hdraining.1.leave (final_steady limits) hconsume)
  onRecv := by
    rintro t h s hphase hpending (hserving | hdraining)
    · -- the fuel covers one round for every byte in hand
      have hserve : (Handler.onRecv h : Program T HttpService) =
          .look fun s => serve (h.parser.buffered + s.recvBuffer.length + 1) h :=
        if_neg (by simp [hserving.closing])
      rw [hserve, Program.events, Program.run]
      exact keeps_serve hmax (Nat.lt_succ_self _) hphase hpending hserving
    · exact keeps_onRecv_closing hdraining.1.closing hphase hpending (.inr hdraining)
  onSend := by
    rintro t h n s hphase hpending (hwaiting | hclosing)
    · have hlook : (Handler.onSend h n : Program T HttpService) = .look fun _ => .done h := by
        show (Program.look fun s : Session T => if h.closing && !s.hasPendingSend then _ else _) = _
        simp only [hwaiting.1.closing, Bool.false_and, Bool.false_eq_true, if_false]
      rw [hlook, Program.events, Program.run]
      exact Observer.Keeps.nil (.of_opened hphase hpending (.inl hwaiting))
    · exact keeps_onSend_closing hphase hpending hclosing .inr id
  onInterest := id
  mishap := fun htolerates => absurd htolerates not_tolerates_calm

/-- No byte, no answer. -/
theorem respondFrom_nil (limits : Limits) : respondFrom limits .requestLine [] = [] := by
  rw [respondFrom, outcome_eq]
  dsimp only
  rw [scan_line limits (by simp), takeLine, show splitLine? [] = none from rfl]
  -- the room for a line can be counted, and then nothing is refused, or it cannot
  cases limits.lineRoom? <;> rfl

/-- A connection that was just opened. -/
theorem rests_openUp {transport : T} {recvCapacity sendCapacity now : Nat}
    {d : Driven HttpService T}
    (hopen : (Driven.new transport recvCapacity sendCapacity now (ofLimits limits)).openUp =
      (.ok (), d)) :
    (serving limits).Rests {} d ∧ d.session.sendBuffer.capacity = sendCapacity := by
  rcases opened_openUp hopen with ⟨hopened, hhandler⟩
  refine ⟨hopened.rests (.inl ?_), hopened.sendCapacity⟩
  rw [hhandler]
  refine ⟨⟨rfl, rfl, rfl, rfl, hopened.recvOpen, hopened.sendEmpty, ?_⟩, ?_⟩
  · intro more
    rw [hopened.recvEmpty]
    rfl
  · rw [hopened.recvEmpty]
    exact respondFrom_nil limits

omit [Transport T] in
/-- What the conduct says of a session that has read a stream, or has closed after a front part of
it. -/
theorem queued_of_rests {d : Driven HttpService T} (hrests : (serving limits).Rests t d)
    {stream : Bytes} (hfront : t.inbound <+: stream)
    (hread : t.inbound = stream ∨ d.session.phase = .closed) :
    t.queued = respond limits stream ∧
      (d.session.hasPendingSend = false → t.accepted = t.queued) := by
  -- an open session has read the whole stream; a closed one has answered for good, whatever
  -- would have followed
  cases hphase : d.session.phase with
  | opened =>
      have hstream : t.inbound = stream := by
        rcases hread with hall | hclosed
        · exact hall
        · rw [hphase] at hclosed
          cases hclosed
      rcases hrests.opened hphase with hwaiting | hdraining
      · have hanswered := hwaiting.1.answered []
        rw [List.append_nil, List.append_nil, hwaiting.2, List.append_nil, hstream] at hanswered
        exact ⟨hanswered.symm, hwaiting.1.balanced.sent⟩
      · have hfinal := hdraining.1.holds []
        rw [List.append_nil, hstream] at hfinal
        exact ⟨hfinal.symm, hdraining.1.balanced.sent⟩
  | closed =>
      rcases hrests.closed hphase with ⟨hall, hfinal⟩
      rcases hfront with ⟨more, rfl⟩
      exact ⟨(hfinal more).symm, fun _ => hall⟩

/-- A connection to the service, with buffers of any size and over any honest transport. Bytes
arrive and passes are made in whatever order, nobody closes the connection from outside, and no
buffer overflows. Then every run comes to its end, and if the bytes received are all of the stream,
or the service has closed behind a front part of it, what was queued are the answers to the stream;
and when nothing waits to be sent, the transport has taken just these. -/
theorem queued_eq_respond (honest : Transport.Honest T taken)
    (hmax : limits.maxLine.toNat < UInt64.size - 1) {transport : T}
    {recvCapacity sendCapacity now fuel : Nat} {d₀ : Driven HttpService T}
    (hopen : (Driven.new transport recvCapacity sendCapacity now (ofLimits limits)).openUp =
      (.ok (), d₀))
    (hfuel : sendCapacity ≤ fuel) {steps : List (Driven.Step HttpService T)}
    (hsteps : ∀ step ∈ steps, step.isPass = true)
    (hcalm : ∀ e ∈ d₀.trace fuel steps, e.mishap = false) :
    let traffic := Traffic.after taken {} (d₀.trace fuel steps)
    ∃ d, steps.foldlM (Driven.step fuel) d₀ = some d ∧
      ∀ stream, traffic.inbound <+: stream →
        (traffic.inbound = stream ∨ d.session.phase = .closed) →
        traffic.queued = respond limits stream ∧
          (d.session.hasPendingSend = false → traffic.accepted = respond limits stream) := by
  intro traffic
  rcases rests_openUp hopen with ⟨hstart, hcapacity⟩
  rcases (serving_upheld hmax).run honest hsteps hstart hcalm with ⟨_, hreached⟩
  -- a run could only fail to end in a flush, and the service queues nothing during one
  rcases exists_run drains hstart.told (hcapacity ▸ hfuel) steps with ⟨d, hrun⟩
  refine ⟨d, hrun, fun stream hfront hread => ?_⟩
  rcases queued_of_rests (hreached d hrun) hfront hread with ⟨hqueued, hsent⟩
  exact ⟨hqueued, fun hnone => (hsent hnone).trans hqueued⟩

/-- Two requests and the start of a third, cut inside a word, inside a line end and before the last
byte of a body. The second asks to close. -/
theorem queued_eq_respond_cut :
    let new : Driven HttpService Socket :=
      .new { peer := .v4 [127, 0, 0, 1] 80 } 80 112 0 (ofLimits {})
    let steps : List (Driven.Step HttpService Socket) :=
      [.editTransport (·.arrive (utf8 "GET /health HT")), .call .readable,
        .editTransport (·.arrive (utf8 "TP/1.1\r\n\r")), .call .readable,
        .editTransport (·.arrive (utf8 ("\nPOST /echo HTTP/1.1\r\nConnection: close\r\n" ++
          "Content-Length: 2\r\n\r\nh"))),
        .call .readable, .call .writable, .wait 7,
        .editTransport (·.arrive (utf8 "iGET")), .call .readable, .call .writable]
    let stream := utf8 ("GET /health HTTP/1.1\r\n\r\nPOST /echo HTTP/1.1\r\n" ++
      "Connection: close\r\nContent-Length: 2\r\n\r\nhiGET / HTTP")
    ∃ d₀ d, new.openUp = (.ok (), d₀) ∧ (∀ step ∈ steps, step.isPass = true) ∧
      (∀ e ∈ d₀.trace 112 steps, e.mishap = false) ∧
      steps.foldlM (Driven.step 112) d₀ = some d ∧ d.session.phase = .closed ∧
      (Traffic.after (·.outbound) {} (d₀.trace 112 steps)).queued = respond {} stream ∧
      (Traffic.after (·.outbound) {} (d₀.trace 112 steps)).accepted = respond {} stream := by
  intro new steps stream
  have hsteps : ∀ step ∈ steps, step.isPass = true := by
    simp [steps, Driven.Step.isPass, Call.isPass]
  have hopen : new.openUp = (.ok (), new.openUp.2) := by
    have hok : new.openUp.1.toOption = some () := by decide +kernel
    rcases hnew : new.openUp with ⟨e | _, d₀⟩
    · rw [hnew] at hok
      cases hok
    · rfl
  have htrace : ((new.openUp.2.trace 112 steps).all (!·.mishap) &&
      (Traffic.after (·.outbound) {} (new.openUp.2.trace 112 steps)).inbound.isPrefixOf stream) =
      true := by
    decide +kernel
  have hend : (steps.foldlM (Driven.step 112) new.openUp.2).map (fun d =>
      (d.session.phase, d.session.hasPendingSend)) = some (.closed, false) := by
    decide +kernel
  simp only [Bool.and_eq_true, List.all_eq_true, Bool.not_eq_true', List.isPrefixOf_iff_prefix]
    at htrace
  rcases queued_eq_respond Socket.honest (by decide) hopen (Nat.le_refl 112) hsteps htrace.1 with
    ⟨d, hrun, hanswers⟩
  rw [hrun] at hend
  simp only [Option.map_some, Option.some.injEq, Prod.mk.injEq] at hend
  rcases hanswers stream htrace.2 (.inr hend.1) with ⟨hqueued, hsent⟩
  exact ⟨_, d, hopen, hsteps, htrace.1, hrun, hend.1, hqueued, hsent hend.2⟩

end TcpReactor.HttpService
