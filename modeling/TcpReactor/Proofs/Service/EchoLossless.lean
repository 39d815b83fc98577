import TcpReactor.Proofs.Session.Traffic
import TcpReactor.Proofs.Session.WriteInterest
import TcpReactor.Service.Echo

namespace TcpReactor.Echo

open Session

/-! # Raw echo loses nothing

What an echo has received is in its recv buffer, in its send buffer, or taken by the transport, in
this order from the end of the stream to its start. Bytes go over from one buffer to the other in
chunks, when some have come in and, inside the loop of a writable pass, when some have left.

* `pump_round`: a round of the pump moves a chunk and goes on, or there is nothing to be moved.
* `keeps_pump`: the pump stops only when the recv buffer is empty or the send buffer is full.
* `lossless`: so it is between any two calls, and the echo never closes its session.
-/

variable {T : Type} [Transport T] {taken : T → Bytes} {t : Traffic} {e : Echo} {s : Session T}

/-! ## The pump -/

/-- A round of the pump: nothing can be moved, or a chunk goes over from the recv buffer to the send
buffer, and the pump goes on. -/
theorem pump_round (fuel : Nat) (e : Echo) (s : Session T) :
    ((s.isOpen = true → s.recvBuffer.contents = [] ∨ s.sendBuffer.freeSpace = 0) ∧
      (pump (fuel + 1) e).events s = [] ∧ (pump (fuel + 1) e).run s = (e, s)) ∨
    ∃ n data recvBuffer sendBuffer, s.recvBuffer.read n = .ok (data, recvBuffer) ∧
      s.sendBuffer.write data = .ok sendBuffer ∧
      let next : Program T Echo := pump fuel { echoed := e.echoed + data.length }
      let s' := { s with recvBuffer, sendBuffer }.touch
      Session.perform { s with recvBuffer } (.queueSend data) = (.ok (), s') ∧
      (pump (fuel + 1) e).events s =
        Session.performEvents { s with recvBuffer } (.queueSend data) ++ next.events s' ∧
      (pump (fuel + 1) e).run s = next.run s' := by
  rw [pump, Program.events, Program.run]
  dsimp only
  split
  · -- the session is closed, or there is no room
    rename_i hstop
    refine .inl ⟨fun hopen => .inr ?_, rfl, rfl⟩
    have hzero : min s.sendBuffer.freeSpace chunkSize = 0 := by simpa [hopen] using hstop
    rw [chunkSize] at hzero
    omega
  · rename_i hgo
    simp only [Bool.or_eq_true, Bool.not_eq_true', decide_eq_true_eq, not_or,
      Bool.not_eq_false] at hgo
    rcases hgo with ⟨hopen, hroom⟩
    cases hread : s.recvBuffer.read (min s.sendBuffer.freeSpace chunkSize) with
    | error cause =>
        -- what is there can be read, so nothing is
        refine .inl ⟨fun _ => .inl ?_, rfl, rfl⟩
        cases hcontents : s.recvBuffer.contents with
        | nil => rfl
        | cons b rest =>
            rcases StreamBuffer.exists_read hroom (by rw [hcontents]; simp) with ⟨_, _, hok⟩
            rw [hok] at hread
            cases hread
    | ok r =>
        rcases r with ⟨data, recvBuffer⟩
        rcases StreamBuffer.contents_read hread with ⟨hdata, _, hsome⟩
        have hfits : data.length ≤ s.sendBuffer.freeSpace := by
          rw [hdata, List.length_take]
          omega
        rcases queueSend_of_room (s := { s with recvBuffer }) hopen hsome hfits with
          ⟨sendBuffer, hwrite, hqueue⟩
        refine .inr ⟨_, data, recvBuffer, sendBuffer, hread, hwrite, hqueue, ?_, ?_⟩
        · rw [Program.events, Program.events_bind, Program.queueOrClose, Program.events,
            Program.run, Session.perform, hqueue]
          simp [Program.events, Program.run]
        · rw [Program.run, Program.run_bind, Program.queueOrClose, Program.run, Session.perform,
            hqueue]
          simp [Program.run]

/-- The pump only moves bytes from one buffer to the other. -/
theorem length_pump (fuel : Nat) (e : Echo) (s : Session T) :
    ((pump fuel e).run s).2.recvBuffer.length + ((pump fuel e).run s).2.sendBuffer.length =
      s.recvBuffer.length + s.sendBuffer.length := by
  induction fuel generalizing e s with
  | zero => rfl
  | succ fuel ih =>
      rcases pump_round fuel e s with ⟨_, _, hrun⟩ |
        ⟨n, data, recvBuffer, sendBuffer, hread, hwrite, _, _, hrun⟩
      · rw [hrun]
      · have hmoved := StreamBuffer.contents_of_read hread
        have hqueued := StreamBuffer.contents_write hwrite
        rw [hrun, ih]
        show recvBuffer.length + sendBuffer.length = _
        rw [← recvBuffer.length_contents, ← sendBuffer.length_contents, hqueued,
          ← s.recvBuffer.length_contents, ← s.sendBuffer.length_contents, hmoved]
        simp only [List.length_append]
        omega

/-- A writable pass has to send no more than what both buffers hold. -/
theorem exists_sendAll {d : Driven Echo T} {fuel : Nat}
    (hfuel : d.session.recvBuffer.length + d.session.sendBuffer.length ≤ fuel) :
    ∃ r, d.sendAll fuel = some r := by
  refine exists_sendAll_of_held StreamBuffer.length (fun e n s => ?_) hfuel
  exact Nat.le_of_eq (length_pump (s.recvBuffer.length + 1) e s)

/-! ## The conduct of an echo -/

/-- What has come in was queued or waits in the recv buffer, and the echo has counted what it
queued. The fuel suffices for what both buffers can hold. -/
structure Whole (fuel : Nat) (t : Traffic) (e : Echo) (recvBuffer sendBuffer : StreamBuffer) :
    Prop where
  balanced : t.Balanced sendBuffer
  whole : t.queued ++ recvBuffer.contents = t.inbound
  echoed : e.echoed = t.queued.length
  sendOpen : sendBuffer.isOpen = true
  room : 0 < sendBuffer.capacity
  fuel : recvBuffer.capacity + sendBuffer.capacity ≤ fuel

variable {fuel : Nat} {recvBuffer recvBuffer' sendBuffer sendBuffer' : StreamBuffer} {data : Bytes}
  {n : Nat}

theorem Whole.arrive (hwrite : recvBuffer.write data = .ok recvBuffer')
    (h : Whole fuel t e recvBuffer sendBuffer) :
    Whole fuel (t.arrive data) e recvBuffer' sendBuffer where
  balanced := h.balanced
  whole := by
    show t.queued ++ recvBuffer'.contents = t.inbound ++ data
    rw [StreamBuffer.contents_write hwrite, ← List.append_assoc, h.whole]
  echoed := h.echoed
  sendOpen := h.sendOpen
  room := h.room
  fuel := by rw [StreamBuffer.capacity_write hwrite]; exact h.fuel

theorem Whole.leave (hconsume : sendBuffer.consume n = .ok sendBuffer')
    (h : Whole fuel t e recvBuffer sendBuffer) :
    Whole fuel (t.leave (sendBuffer.contents.take n)) e recvBuffer sendBuffer' where
  balanced := h.balanced.leave hconsume
  whole := h.whole
  echoed := h.echoed
  sendOpen := StreamBuffer.isOpen_consume hconsume
  room := by rw [StreamBuffer.capacity_consume hconsume]; exact h.room
  fuel := by rw [StreamBuffer.capacity_consume hconsume]; exact h.fuel

/-- A chunk goes over from the recv buffer to the send buffer. -/
theorem Whole.move (hread : recvBuffer.read n = .ok (data, recvBuffer'))
    (hwrite : sendBuffer.write data = .ok sendBuffer')
    (h : Whole fuel t e recvBuffer sendBuffer) :
    Whole fuel (t.enqueue data) { echoed := e.echoed + data.length } recvBuffer' sendBuffer' where
  balanced := h.balanced.enqueue (StreamBuffer.contents_write hwrite)
  whole := by
    show t.queued ++ data ++ recvBuffer'.contents = t.inbound
    rw [List.append_assoc, ← StreamBuffer.contents_of_read hread, h.whole]
  echoed := by
    show e.echoed + data.length = (t.queued ++ data).length
    rw [h.echoed, List.length_append]
  sendOpen := (StreamBuffer.isOpen_write hwrite).2
  room := by rw [StreamBuffer.capacity_write hwrite]; exact h.room
  fuel := by
    rw [StreamBuffer.capacity_read hread, StreamBuffer.capacity_write hwrite]
    exact h.fuel

/-- At all times the transport has taken a front part of what has come in. -/
theorem Whole.front_accepted (h : Whole fuel t e recvBuffer sendBuffer) :
    t.accepted <+: t.inbound := by
  refine ⟨sendBuffer.contents ++ recvBuffer.contents, ?_⟩
  rw [← List.append_assoc, h.balanced, h.whole]

/-- The conduct of an echo. Between two passes, bytes wait in the recv buffer only for want of room
in the send buffer. -/
def echoing (fuel : Nat) : Conduct Echo where
  resting t e recvBuffer sendBuffer := Whole fuel t e recvBuffer sendBuffer ∧
    (recvBuffer.contents = [] ∨ sendBuffer.freeSpace = 0)
  arriving := Whole fuel
  leaving := Whole fuel
  closed t := t.accepted <+: t.inbound

/-- An event by which bytes are queued. -/
def Queues (e : Event T) : Prop := ∃ data s, e = .called (.queueSend data) (some (.ok ())) s

/-- The auditor of an echo: all that it may do is to queue. -/
def auditor (fuel : Nat) (taken : T → Bytes) : Observer Traffic T :=
  (echoing fuel).audit taken fun _ => Queues

/-- The pump takes up a session that is in order, and leaves it with nothing to be moved. -/
theorem keeps_pump {rounds : Nat} (hrounds : s.recvBuffer.length < rounds)
    (hopen : s.isOpen = true) (hpending : s.closePending = false)
    (h : Whole fuel t e s.recvBuffer s.sendBuffer) :
    (auditor fuel taken).Keeps (echoing fuel).Ran t ((pump rounds e).events s)
      ((pump rounds e).run s) := by
  induction rounds generalizing t e s with
  | zero => omega
  | succ rounds ih =>
      rcases pump_round rounds e s with ⟨hstop, hevents, hrun⟩ |
        ⟨n, data, recvBuffer, sendBuffer, hread, hwrite, hqueue, hevents, hrun⟩
      · rw [hevents, hrun]
        exact Observer.Keeps.nil (.of_opened (phase_of_isOpen hopen) hpending ⟨h, hstop hopen⟩)
      · rw [hevents, hrun]
        have hqueued := ((echoing fuel).audits_audit taken fun _ => Queues).reply_open (t := t)
          hqueue rfl (phase_of_isOpen hopen)
          ⟨fun hshows => (by cases hshows), fun _ => ⟨data, _, rfl⟩⟩
        refine hqueued.append fun t' ht => ?_
        -- a chunk is never empty, so the rounds suffice
        have hsome := (StreamBuffer.freeSpace_write hwrite).1
        have hless : recvBuffer.length < rounds := by
          rw [← StreamBuffer.length_contents, StreamBuffer.contents_of_read hread,
            List.length_append, StreamBuffer.length_contents] at hrounds
          omega
        rw [show t' = t.enqueue data from ht]
        exact ih hless hopen hpending (h.move hread hwrite)

theorem kept (lasting : Transport.Lasting T) (fuel : Nat) (taken : T → Bytes) :
    (echoing fuel).Kept taken (auditor fuel taken) where
  toAudits := (echoing fuel).audits_audit taken _
  arriving h := h.1
  arrived := Whole.arrive
  left hconsume h := h.1.leave hconsume
  onRecv _ hpending hlive h := keeps_pump (Nat.lt_succ_self _) (hlive lasting) hpending h
  onSend _ hpending hlive h := keeps_pump (Nat.lt_succ_self _) (hlive lasting) hpending h
  onInterest h := h
  mishap _ _ _ _ _ _ h := h.front_accepted.trans (List.prefix_append _ _)

/-! ## Runs -/

/-- An echo that was just connected. -/
theorem rests_openUp {transport : T} {recvCapacity sendCapacity now : Nat} {d : Driven Echo T}
    (hopen : (Driven.new transport recvCapacity sendCapacity now ({} : Echo)).openUp = (.ok (), d))
    (hfuel : recvCapacity + sendCapacity ≤ fuel) : (echoing fuel).Rests {} d := by
  rcases opened_openUp hopen with ⟨hopened, hhandler⟩
  refine hopened.rests ⟨?_, .inl hopened.recvEmpty⟩
  rw [hhandler]
  exact {
    balanced := hopened.sendEmpty
    whole := hopened.recvEmpty
    echoed := rfl
    sendOpen := hopened.sendOpen
    room := hopened.sendRoom
    fuel := by rw [hopened.recvCapacity, hopened.sendCapacity]; exact hfuel }

/-- An echo that has lost nothing and is not stalled. -/
structure Flows (t : Traffic) (d : Driven Echo T) : Prop where
  /-- What has come in was taken by the transport or waits in a buffer, all of it and in its
  order. -/
  whole : t.accepted ++ d.session.sendBuffer.contents ++ d.session.recvBuffer.contents = t.inbound
  echoed : d.handler.echoed = t.accepted.length + d.session.sendBuffer.length
  /-- Bytes wait in the recv buffer only if the send buffer is full. -/
  packed : d.session.recvBuffer.contents = [] ∨
    d.session.sendBuffer.length = d.session.sendBuffer.capacity
  /-- As long as the transport has not taken everything, write readiness is wanted. -/
  interest : d.session.writeInterest = true ↔ t.accepted ≠ t.inbound

omit [Transport T] in
theorem flows_of_whole {d : Driven Echo T} (hphase : d.session.phase = .opened)
    (hsettled : d.session.Settled)
    (h : (echoing fuel).resting t d.handler d.session.recvBuffer d.session.sendBuffer) :
    Flows t d := by
  rcases h with ⟨hwhole, hstop⟩
  -- the echo has taken over all that it was given, so what came in lies in three places
  have hall : t.accepted ++ d.session.sendBuffer.contents ++ d.session.recvBuffer.contents =
      t.inbound := by
    rw [hwhole.balanced, hwhole.whole]
  have hlength := StreamBuffer.length_add_freeSpace hwhole.sendOpen
  have hroom := hwhole.room
  refine ⟨hall, ?_, hstop.imp_right (by omega), ?_⟩
  · rw [hwhole.echoed, ← hwhole.balanced, List.length_append, StreamBuffer.length_contents]
  · rw [hsettled.synced hphase, hasPendingSend_iff]
    refine ⟨fun hsome htaken => ?_, fun htaken hempty => htaken ?_⟩
    · rw [← hall, List.append_assoc, List.self_eq_append_right, List.append_eq_nil_iff] at htaken
      exact hsome htaken.1
    · -- an empty send buffer has room, so the recv buffer is empty as well
      rw [← StreamBuffer.length_contents, hempty, List.length_nil] at hlength
      rw [← hall, hempty, hstop.resolve_right (by omega), List.append_nil, List.append_nil]

/-- An echo with buffers of any size, over any honest transport that stays open as long as it does
what it is asked. Bytes arrive and passes are made in whatever order. Then the only thing that the
echo ever does is to queue, with success; every run comes to its end; and unless a pass has closed
the session, the echo has lost nothing and is not stalled. -/
theorem lossless (honest : Transport.Honest T taken) (lasting : Transport.Lasting T)
    {transport : T} {recvCapacity sendCapacity now fuel : Nat} {d₀ : Driven Echo T}
    (hopen : (Driven.new transport recvCapacity sendCapacity now ({} : Echo)).openUp = (.ok (), d₀))
    (hfuel : recvCapacity + sendCapacity ≤ fuel) {steps : List (Driven.Step Echo T)}
    (hsteps : ∀ step ∈ steps, step.isPass = true) :
    let trace := d₀.trace fuel steps
    let traffic := Traffic.after taken {} trace
    (∀ e ∈ trace, e.isReply = true →
      ∃ data s, e = .called (.queueSend data) (some (.ok ())) s) ∧
    ∃ d, steps.foldlM (Driven.step fuel) d₀ = some d ∧ traffic.accepted <+: traffic.inbound ∧
      (d.session.isOpen = true → Flows traffic d) := by
  intro trace traffic
  have hstart := rests_openUp hopen hfuel
  have hkept := kept lasting fuel taken
  rcases hkept.run honest hsteps hstart fun _ _ => trivial with ⟨haccepts, hreached⟩
  refine ⟨fun e he hreply => ?_, ?_⟩
  · rcases List.append_of_mem he with ⟨before, after, htrace⟩
    rw [show d₀.trace fuel steps = _ from htrace] at haccepts
    exact haccepts.demands.2 hreply
  · -- an open echo holds no more than its two buffers do, so a pass ends within the fuel
    have hreturns : ∀ {t} {d : Driven Echo T}, (echoing fuel).Rests t d →
        d.session.isOpen = true → ∃ r, d.sendAll fuel = some r := by
      intro t d hrests hlive
      have hwhole := (hrests.opened (phase_of_isOpen hlive)).1
      refine exists_sendAll (Nat.le_trans (Nat.add_le_add ?_ ?_) hwhole.fuel)
      · exact d.session.recvBuffer.length_le_capacity
      · exact d.session.sendBuffer.length_le_capacity
    rcases hkept.exists_run honest (fun _ => trivial) hreturns hsteps hstart with ⟨d, hrun⟩
    have hrests : (echoing fuel).Rests traffic d := hreached d hrun
    refine ⟨d, hrun, ?_, fun hlive => ?_⟩
    · cases hphase : d.session.phase with
      | opened => exact (hrests.opened hphase).1.front_accepted
      | closed => exact hrests.closed hphase
    · have hphase := phase_of_isOpen hlive
      have hsettled := Driven.settled_run (Driven.settled_openUp hopen) hrun
      exact flows_of_whole hphase hsettled (hrests.opened hphase)

/-- A send buffer that is smaller than the recv buffer, and a peer that sends more than it holds:
the rest stays in the recv buffer, and a writable pass takes it along. What comes in behind it waits
in the send buffer. -/
theorem lossless_packed :
    Transport.Honest Socket (·.outbound) ∧ Transport.Lasting Socket ∧
    let new : Driven Echo Socket := .new { peer := .v4 [127, 0, 0, 1] 80 } 8 4 0 {}
    let first : List (Driven.Step Echo Socket) :=
      [.editTransport (·.arrive [1, 2, 3, 4, 5, 6]), .call .readable]
    let steps := first ++ [.wait 5, .call .writable, .editTransport (·.arrive [7, 8, 9]),
      .call .readable]
    ∃ d₀ d₁ d, new.openUp = (.ok (), d₀) ∧ (∀ step ∈ steps, step.isPass = true) ∧
      first.foldlM (Driven.step 12) d₀ = some d₁ ∧ d₁.session.recvBuffer.contents = [5, 6] ∧
      d₁.session.writeInterest = true ∧
      steps.foldlM (Driven.step 12) d₀ = some d ∧ d.session.isOpen = true ∧
      d.handler.echoed = 9 ∧ Flows (Traffic.after (·.outbound) {} (d₀.trace 12 steps)) d := by
  refine ⟨Socket.honest, Socket.lasting, ?_⟩
  intro new first steps
  have hsteps : ∀ step ∈ steps, step.isPass = true := by
    simp [first, steps, Driven.Step.isPass, Call.isPass]
  have hopen : new.openUp = (.ok (), new.openUp.2) := Driven.openUp_eq_ok (by decide +kernel)
  have hfirst : (first.foldlM (Driven.step 12) new.openUp.2).map (fun d =>
      (d.session.recvBuffer.contents, d.session.writeInterest)) = some ([5, 6], true) := by
    decide +kernel
  have hend : (steps.foldlM (Driven.step 12) new.openUp.2).map (fun d =>
      (d.session.isOpen, d.handler.echoed)) = some (true, 9) := by
    decide +kernel
  rcases Option.map_eq_some_iff.mp hfirst with ⟨d₁, hrun₁, hfacts⟩
  rcases (lossless Socket.honest Socket.lasting hopen (Nat.le_refl 12) hsteps).2 with
    ⟨d, hrun, _, hflows⟩
  rw [hrun] at hend
  simp only [Option.map_some, Option.some.injEq, Prod.mk.injEq] at hend hfacts
  exact ⟨_, d₁, d, hopen, hsteps, hrun₁, hfacts.1, hfacts.2, hrun, hend.1, hend.2, hflows hend.1⟩

end TcpReactor.Echo
