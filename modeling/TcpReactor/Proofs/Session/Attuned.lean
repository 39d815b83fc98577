import TcpReactor.Proofs.Session.CloseNotice
import TcpReactor.Proofs.Session.Invariant
import TcpReactor.Proofs.Transport

namespace TcpReactor.Session

/-! # Sessions that own their sockets

A socket closes only when it is told to. As long as nobody closes it behind its session, the session
is open exactly when its socket is: they are attuned. Then a session that has closed never opens
again, so nothing can come between its close and the notice of it.

`InOrder.keeps_trace` says so of every run: it never opens the session, and its handler is told of
the close as it should be.
-/

/-- The session is open exactly when its socket is, and a close that is yet to be told has taken
place. -/
structure Attuned (s : Session Socket) : Prop where
  isOpen : s.phase = .opened ↔ s.transport.isOpen = true
  pending : s.closePending = true → s.phase = .closed

/-- Nobody closes the socket behind the session in this program. -/
def Program.Tame {α : Type} : Program Socket α → Prop
  | .done _ => True
  | .look next => ∀ s, (next s).Tame
  | .call _ next => ∀ answer, (next answer).Tame
  | .editRecvBuffer _ next => next.Tame
  | .editTransport f next => (∀ t, (f t).isOpen = t.isOpen) ∧ next.Tame

theorem Program.Tame.bind {α β : Type} {p : Program Socket α} {f : α → Program Socket β}
    (hp : p.Tame) (hf : ∀ a, (f a).Tame) : (p.bind f).Tame := by
  induction p with
  | done a => exact hf a
  | look next ih => exact fun s => ih s (hp s)
  | call c next ih => exact fun answer => ih answer (hp answer)
  | editRecvBuffer g next ih => exact ih hp
  | editTransport g next ih => exact ⟨hp.1, ih hp.2⟩

theorem Program.HandsOff.tame {α : Type} {p : Program Socket α} (hp : p.HandsOff) : p.Tame := by
  induction p with
  | done a => trivial
  | look next ih => exact fun s => ih s (hp s)
  | call c next ih => exact fun answer => ih answer (hp answer)
  | editRecvBuffer f next ih => exact ih hp
  | editTransport f next => exact hp.elim

/-- Who leaves a socket open or closed as it is does not open one that was closed. -/
theorem Program.Tame.spares {α : Type} {p : Program Socket α} (hp : p.Tame) :
    p.Spares Socket.Closed := by
  induction p with
  | done a => trivial
  | look next ih => exact fun s => ih s (hp s)
  | call c next ih => exact fun answer => ih answer (hp answer)
  | editRecvBuffer f next ih => exact ih hp
  | editTransport f next ih => exact ⟨fun t ht => (hp.1 t).trans ht, ih hp.2⟩

/-! ## Traffic on a socket -/

theorem moved_receive (s : Session Socket) (received : Nat) :
    Socket.Moved s.transport (s.receive received).2.transport := by
  have hrecv {s : Session Socket} {answer : Except SocketError (Transfer Bytes)}
      {transport : Socket} (h : Transport.recv s.transport recvChunkSize = (answer, transport)) :
      Socket.Moved s.transport transport := by
    have hmoved := s.transport.moved_recv recvChunkSize
    rwa [h] at hmoved
  induction s, received using Session.receive.induct with
  | case1 s received transport h
  | case2 s received transport h
  | case5 s received e transport h =>
      rw [receive_eq, h]
      exact hrecv h
  | case3 s received b data transport h e hwrite =>
      rw [receive_eq, h]
      simp only [hwrite]
      exact hrecv h
  | case4 s received b data transport h recvBuffer hwrite ih =>
      rw [receive_eq, h]
      simp only [hwrite]
      exact (hrecv h).trans ih

theorem moved_sendOnce (s : Session Socket) :
    Socket.Moved s.transport s.sendOnce.2.transport := by
  rcases s.sendOnce_cases with ⟨_, _, hresult⟩ | ⟨head, _, _, transport, _, _, hsend, _, hcases⟩
  · rw [hresult]
    exact .refl _
  · have hmoved := s.transport.moved_send head
    rw [hsend] at hmoved
    rcases hcases with ⟨_, hresult⟩ | ⟨_, hresult⟩ | ⟨_, _, hresult⟩ | ⟨_, _, _, hresult⟩ |
      ⟨_, _, _, _, hresult⟩
    all_goals
      rw [hresult]
      exact hmoved

namespace Attuned

variable {s s' : Session Socket}

theorem of_eq (h : Attuned s) (hphase : s'.phase = s.phase)
    (hpending : s'.closePending = s.closePending)
    (hopen : s'.transport.isOpen = s.transport.isOpen) : Attuned s' where
  isOpen := by rw [hphase, hopen]; exact h.isOpen
  pending hp := by rw [hphase]; exact h.pending (hpending ▸ hp)

/-- A program that is tame keeps its session attuned. -/
theorem keeps_of_tame {α : Type} {p : Program Socket α} (hp : p.Tame) : p.Keeps Attuned := by
  induction p with
  | done a => trivial
  | look next ih => exact fun s _ => ih s (hp s)
  | call c next ih => exact fun answer => ih answer (hp answer)
  | editRecvBuffer f next ih => exact ⟨fun s hs => hs.of_eq rfl rfl rfl, ih hp⟩
  | editTransport f next ih => exact ⟨fun s hs => hs.of_eq rfl rfl (hp.1 _), ih hp.2⟩

/-! ## What a session does by itself -/

theorem receive (received : Nat) (h : Attuned s) : Attuned (s.receive received).2 := by
  rcases s.receive_marks received with ⟨hphase, hpending⟩
  exact h.of_eq hphase hpending (s.moved_receive received).isOpen

theorem sendOnce (h : Attuned s) : Attuned s.sendOnce.2 := by
  rcases s.sendOnce_marks with ⟨hphase, hpending⟩
  exact h.of_eq hphase hpending s.moved_sendOnce.isOpen

/-- An attuned session cannot be opened: it is open already, or its socket is closed. -/
theorem openUp_ne_ok (h : Attuned s) : s.openUp.1 ≠ .ok () := by
  intro hanswer
  rcases hcall : s.openUp with ⟨_ | _, s'⟩
  · rw [hcall] at hanswer
    cases hanswer
  · rcases openUp_ok hcall with ⟨hclosed, hopen, _⟩
    rw [h.isOpen.mpr hopen] at hclosed
    cases hclosed

theorem openUp (h : Attuned s) : Attuned s.openUp.2 := by
  rcases hcall : s.openUp with ⟨e | _, s'⟩
  · rcases openUp_error hcall with rfl | ⟨_, _, _, rfl, _⟩
    · exact h
    · exact h.of_eq rfl rfl rfl
  · exact absurd (by rw [hcall]) h.openUp_ne_ok

theorem close (h : Attuned s) : Attuned s.close := by
  rw [Session.close]
  split
  · exact h
  · refine ⟨?_, fun _ => rfl⟩
    show Phase.closed = .opened ↔ false = true
    simp

theorem invariant : Invariant Attuned where
  receive := receive
  sendOnce := sendOnce
  openUp := openUp
  close := close
  queueSend := by
    intro s data h
    rcases s.queueSend_changes data with ⟨_, _, hs⟩
    rw [hs]
    exact h.of_eq rfl rfl rfl
  sendFrame := by
    intro s payload h
    rcases s.sendFrame_changes payload with ⟨_, _, hs⟩
    rw [hs]
    exact h.of_eq rfl rfl rfl
  atTime _ h := h.of_eq rfl rfl rfl
  toldClose h := ⟨h.isOpen, fun hpending => nomatch hpending⟩
  toldInterest _ h := h.of_eq rfl rfl rfl

/-- A session that has just been opened. -/
theorem of_openUp (hpending : s.closePending = false) (h : s.openUp = (.ok (), s')) :
    Attuned s' := by
  rcases openUp_ok h with ⟨_, hopen, hphase, _, _, hpending'⟩
  refine ⟨⟨fun _ => ?_, fun _ => hphase⟩, fun htrue => ?_⟩
  · rw [← s.transport_openUp, h] at hopen
    exact hopen
  · rw [hpending', hpending] at htrue
    cases htrue

end Attuned

/-! ## The events of a run -/

namespace Event

/-- The owner lends the session to its handler. -/
def visits {T : Type} : Event T → Bool
  | .told .visit _ => true
  | _ => false

/-- An event that does not open the session, and by which nobody is lent it. -/
structure Plain (e : Event Socket) : Prop where
  opens : e.opens = false
  revives : e.revives = false
  visits : e.visits = false

/-- Where every session is attuned, every event is plain. -/
theorem Within.plain {e : Event Socket} (h : e.Within Attuned) : e.Plain where
  opens := by
    cases e with
    | called c answer s =>
        cases c with
        | openUp =>
            -- an attuned session is closed only with its socket, so it does not open again
            rcases h with ⟨hs, hanswer⟩
            rw [hanswer rfl]
            show (Event.called .openUp (some s.openUp.1) s).opens = false
            have hrefused := hs.openUp_ne_ok
            generalize s.openUp.1 = answer at hrefused
            cases answer with
            | error e => rfl
            | ok => exact absurd rfl hrefused
        | _ => rfl
    | _ => rfl
  revives := by
    cases e with
    | called c answer s =>
        cases c with
        | openUp =>
            show (s.closePending && s.transport.isOpen) = false
            cases hpending : s.closePending with
            | false => rfl
            | true =>
                -- while the close is pending the socket is closed as well
                have hclosed := h.1.pending hpending
                cases hopen : s.transport.isOpen with
                | false => rfl
                | true =>
                    rw [h.1.isOpen.mpr hopen] at hclosed
                    cases hclosed
        | _ => rfl
    | _ => rfl
  visits := by
    cases e with
    | told n s =>
        cases n with
        | visit => exact h.elim
        | _ => rfl
    | _ => rfl

end Event

/-- An attuned session between two calls, with the cycle that it is in: its handler knows of the
close, if there was one. -/
structure InOrder (c : Cycle) (s : Session Socket) : Prop where
  watched : CloseWatched c s
  told : s.closePending = false
  attuned : Attuned s

namespace InOrder

variable {c : Cycle} {s : Session Socket} {H : Type} [Handler Socket H] {d : Driven H Socket}
  {fuel : Nat} {steps : List (Driven.Step H Socket)}

/-- While the session is open its cycle runs, and behind the close it has ended. -/
theorem running_iff (h : InOrder c s) : c = .running ↔ s.phase = .opened := by
  constructor
  · rintro rfl
    cases hphase : s.phase with
    | opened => rfl
    | closed => exact nomatch (h.watched.closed hphase).1.mpr h.told
  · exact fun hphase => (h.watched.opened hphase).1

theorem ended_of_closed (h : InOrder c s) (hphase : s.phase = .closed) : c = .ended :=
  (h.watched.closed hphase).1.mpr h.told

theorem closed_of_not_isOpen (h : InOrder c s) (hclosed : s.isOpen = false) : c = .ended := by
  refine h.ended_of_closed ?_
  cases hphase : s.phase with
  | closed => rfl
  | opened => simp [Session.isOpen, Transport.isOpen, hphase, h.attuned.isOpen.mp hphase] at hclosed

/-- Time and the transport do not matter, as long as the socket is left open, or closed. -/
theorem of_eq {s' : Session Socket} (h : InOrder c s) (hphase : s'.phase = s.phase)
    (hpending : s'.closePending = s.closePending) (hsend : s'.sendBuffer = s.sendBuffer)
    (hinterest : s'.writeInterest = s.writeInterest)
    (hopen : s'.transport.isOpen = s.transport.isOpen) : InOrder c s' where
  watched := by
    refine ⟨fun hopened => ?_, fun hclosed => ?_⟩
    · rw [hpending]
      exact h.watched.opened (hphase ▸ hopened)
    · rw [hpending, hsend, hinterest]
      exact h.watched.closed (hphase ▸ hclosed)
  told := hpending.trans h.told
  attuned := h.attuned.of_eq hphase hpending hopen

/-- The call by which a session that was just made is opened. If it succeeds, the session is in
order. -/
theorem keeps_openUp (fuel : Nat) (socket : Socket) (recvCapacity sendCapacity now : Nat)
    (handler : H) :
    let d := Driven.new socket recvCapacity sendCapacity now handler
    (closeWatch Socket).Accepts .ended (d.stepEvents fuel (.call .openUp)) ∧
    (d.openUp.1 ≠ .ok () →
      (closeWatch Socket).after .ended (d.stepEvents fuel (.call .openUp)) = .ended) ∧
    (d.openUp.1 = .ok () →
      (closeWatch Socket).after .ended (d.stepEvents fuel (.call .openUp)) = .running ∧
        InOrder .running d.openUp.2.session) := by
  intro d
  have hwatched : CloseWatched .ended d.session :=
    .of_closed rfl (by simp [d, Driven.new, Session.new]) rfl rfl
  -- the three events of the call revive nobody: no close is pending yet
  have hassumed : ∀ e ∈ d.stepEvents fuel (.call .openUp), e.revives = false :=
    List.forall_mem_cons.mpr
      ⟨rfl, List.forall_mem_cons.mpr ⟨rfl, List.forall_mem_singleton.mpr rfl⟩⟩
  rcases CloseWatched.preserves.step fuel (.call .openUp) ⟨hwatched, rfl⟩ hassumed with
    ⟨haccepts, hreached⟩
  rcases hreached d.openUp.2 rfl with ⟨hwatch, htold⟩
  -- where the watch stands now can be told from the phase of the session
  refine ⟨haccepts, fun hrefused => ?_, fun hok => ?_⟩
  · refine (hwatch.closed ?_).1.mpr htold
    rcases hcall : d.session.openUp with ⟨e | _, s'⟩
    · rcases openUp_error hcall with rfl | ⟨hphase, _, _, rfl, _⟩
      · rw [Driven.openUp, hcall]
        rfl
      · rw [Driven.openUp, hcall]
        exact hphase
    · rw [Driven.openUp, hcall] at hrefused
      exact absurd rfl hrefused
  · rcases hcall : d.session.openUp with ⟨e | _, s'⟩
    · rw [Driven.openUp, hcall] at hok
      cases hok
    · rcases openUp_ok hcall with ⟨_, _, hphase, _, _, hpending⟩
      have hsession : d.openUp.2.session = s' := by rw [Driven.openUp, hcall]
      rw [hsession] at hwatch ⊢
      exact ⟨(hwatch.opened hphase).1, .of_opened hphase hpending, hpending, .of_openUp rfl hcall⟩

/-- A run in which nobody closes the socket behind the session: the watch goes on, all events are
plain, and the session is left in order. -/
theorem keeps_trace (h : InOrder c d.session) (fuel : Nat) (hH : Handler.Respects H Attuned)
    (hsteps : ∀ step ∈ steps, step.Respects Attuned) :
    (closeWatch Socket).Accepts c (d.trace fuel steps) ∧
    (∀ e ∈ d.trace fuel steps, e.Plain) ∧
    ∀ d', steps.foldlM (Driven.step fuel) d = some d' →
      InOrder ((closeWatch Socket).after c (d.trace fuel steps)) d'.session := by
  have hwithin := Attuned.invariant.keeps_trace (q := ()) fuel hH hsteps h.attuned
    fun _ _ => trivial
  have hplain : ∀ e ∈ d.trace fuel steps, e.Plain :=
    fun e he => (accepts_within.mp hwithin.1 e he).plain
  have hwatched := CloseWatched.preserves.keeps_trace fuel steps ⟨h.watched, h.told⟩
    fun e he => (hplain e he).revives
  refine ⟨hwatched.1, hplain, fun d' hd' => ?_⟩
  rcases hwatched.2 d' hd' with ⟨hwatch, htold⟩
  exact ⟨hwatch, htold, hwithin.2 d' hd'⟩

/-- The same of a visit, whose first event is the visit itself. -/
theorem keeps_visit (h : InOrder c d.session) (fuel : Nat) {f : H → Program Socket (Unit × H)}
    (hf : (f d.handler).Keeps Attuned) :
    ∃ more, d.stepEvents fuel (.visit f) = .told .visit d.session :: more ∧
      (∀ e ∈ more, e.Plain) ∧
      (closeWatch Socket).Accepts c (.told .visit d.session :: more) ∧
      InOrder ((closeWatch Socket).after c (.told .visit d.session :: more))
        (d.withHandler f).2.session := by
  have hcallback := (Attuned.invariant.callback (q := ()) hf (fun r : Unit × H => r.2) h.attuned)
    fun _ _ => trivial
  -- what the program does keeps the session attuned, so all its events are plain
  have hmore : ∀ e ∈ (f d.handler).events d.session ++ Driven.settleEvents
      { session := ((f d.handler).run d.session).2,
        handler := ((f d.handler).run d.session).1.2 } ++
        [.idle (d.withHandler f).2.session], e.Plain := by
    refine List.forall_mem_append.mpr ⟨fun e he => ?_, List.forall_mem_singleton.mpr ?_⟩
    · exact (accepts_within.mp hcallback.1 e he).plain
    · exact ⟨rfl, rfl, rfl⟩
  have hassumed : ∀ e ∈ d.stepEvents fuel (.visit f), e.revives = false :=
    List.forall_mem_cons.mpr ⟨rfl, fun e he => (hmore e he).revives⟩
  rcases CloseWatched.preserves.step fuel (.visit f) ⟨h.watched, h.told⟩ hassumed with
    ⟨haccepts, hreached⟩
  rcases hreached _ rfl with ⟨hwatch, htold⟩
  exact ⟨_, rfl, hmore, haccepts, hwatch, htold, hcallback.2⟩

end InOrder
end TcpReactor.Session
