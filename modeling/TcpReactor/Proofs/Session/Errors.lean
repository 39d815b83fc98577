import TcpReactor.Proofs.Service.HandsOff
import TcpReactor.Proofs.Session.DrivenInvariant
import TcpReactor.Sim.ScriptedHandler
import Mathlib.Control.Monad.Basic

namespace TcpReactor

/-! # What the errors of a session mean

A call that fails has done one of three things. It was refused, and nothing has happened; or it was
a pass that could not go on, and the session has closed; or it was an attempt to open, and the
session is as closed as before. The error tells which (`SessionError.Means`), inside and outside of
callbacks, and that is `Session.errors_accounted`.

The second case takes an argument, since a pass may tell the handler of bytes before it fails, and
the callback may close the session, open it again, or exchange its transport. What stays true of a
session meanwhile is `Session.Marked`.
-/

/-! ## Three kinds of errors -/

namespace SessionError

open Session (Call)

/-- With this error a call is refused. -/
def Refuses (c : Call) : SessionError → Prop
  | .notOpen | .alreadyOpen | .frame _ => True
  | .sendBuffer _ => c.queues = true
  | _ => False

/-- With this error a pass ends the session. -/
def Ends (c : Call) : SessionError → Prop
  | .socket _ | .recvBuffer _ | .sendBuffer _ | .peerClosed => c.isPass = true
  | _ => False

/-- What a call has done that fails with this error: by its kind, one of three things. -/
structure Means (c : Call) (e : SessionError) (refused ended unopened : Prop) : Prop where
  kind : e.Refuses c ∨ e.Ends c ∨ (c = .openUp ∧ e ≠ .alreadyOpen)
  refused : e.Refuses c → refused
  ended : e.Ends c → ended
  unopened : c = .openUp → e ≠ .alreadyOpen → unopened

variable {c : Call} {e : SessionError} {refused ended unopened : Prop}

theorem ne_openUp_of_isPass (h : c.isPass = true) : c ≠ .openUp := by
  rintro rfl
  cases h

theorem Ends.isPass (h : e.Ends c) : c.isPass = true := by
  cases e with
  | socket | recvBuffer | sendBuffer | peerClosed => exact h
  | _ => exact h.elim

theorem Ends.not_refuses (h : e.Ends c) : ¬ e.Refuses c := by
  intro hrefuses
  cases e with
  | sendBuffer =>
      -- no pass queues
      have hpass : c.isPass = true := h
      have hqueues : c.queues = true := hrefuses
      cases c with
      | queueSend | sendFrame => cases hpass
      | openUp | close | readable | writable => cases hqueues
  | notOpen | alreadyOpen | frame | invalidArgs | internal => exact h
  | socket | recvBuffer | peerClosed => exact hrefuses

theorem Means.of_refused (hkind : e.Refuses c) (hopenUp : c = .openUp → e = .alreadyOpen)
    (h : refused) : Means c e refused ended unopened where
  kind := .inl hkind
  refused _ := h
  ended hends := absurd hkind hends.not_refuses
  unopened hc he := absurd (hopenUp hc) he

theorem Means.of_ended (hkind : e.Ends c) (h : ended) : Means c e refused ended unopened where
  kind := .inr (.inl hkind)
  refused hrefuses := absurd hrefuses hkind.not_refuses
  ended _ := h
  unopened hc _ := absurd hc (ne_openUp_of_isPass hkind.isPass)

theorem Means.of_unopened (hc : c = .openUp) (hkind : ¬ e.Refuses c) (h : unopened) :
    Means c e refused ended unopened where
  kind := by
    refine .inr (.inr ⟨hc, ?_⟩)
    rintro rfl
    exact hkind trivial
  refused hrefuses := absurd hrefuses hkind
  ended hends := absurd hc (ne_openUp_of_isPass hends.isPass)
  unopened _ _ := h

end SessionError

namespace Session

variable {T : Type} [Transport T] {s s' : Session T} {c : Call} {e : SessionError}

/-! ## Calls that fail while the handler is busy -/

/-- An attempt to open is refused, or it leaves the session closed and each buffer as open as it
was. -/
theorem openUp_failed (h : s.openUp = (.error e, s')) :
    (e = .alreadyOpen ∧ s' = s) ∨ (¬ e.Refuses .openUp ∧ s'.phase = .closed ∧
      s'.recvBuffer.isOpen = s.recvBuffer.isOpen ∧ s'.sendBuffer.isOpen = s.sendBuffer.isOpen) := by
  unfold openUp at h
  by_cases hopened : s.phase = .opened
  · rw [if_pos hopened] at h
    cases h
    exact .inl ⟨rfl, rfl⟩
  rw [if_neg hopened] at h
  have hclosed := phase_of_ne_opened hopened
  cases hrecv : s.recvBuffer.openUp with
  | error cause =>
      rw [hrecv] at h
      cases h
      exact .inr ⟨id, hclosed, rfl, rfl⟩
  | ok recvBuffer =>
      rw [hrecv] at h
      have hrecvClosed := StreamBuffer.isOpen_of_openUp hrecv
      cases hsend : s.sendBuffer.openUp with
      | error cause =>
          rw [hsend] at h
          cases h
          -- the recv buffer had just been opened, and is closed again
          exact .inr ⟨Bool.false_ne_true, hclosed, hrecvClosed.symm, rfl⟩
      | ok sendBuffer =>
          rw [hsend] at h
          dsimp only at h
          split at h
          · cases h
          · cases h
            have hsendClosed := StreamBuffer.isOpen_of_openUp hsend
            exact .inr ⟨id, hclosed, hrecvClosed.symm, hsendClosed.symm⟩

theorem ends_of_receive {received : Nat} (h : s.receive received = (.failed e, s')) :
    e.Ends .readable := by
  -- receiving fails when the transport does, or when the recv buffer has no room
  induction s, received using receive.induct with
  | case1 s received transport hrecv | case2 s received transport hrecv =>
      rw [receive_eq, hrecv] at h
      cases h
  | case3 s received b data transport hrecv cause hwrite =>
      rw [receive_eq, hrecv] at h
      simp only [hwrite] at h
      cases h
      exact rfl
  | case4 s received b data transport hrecv recvBuffer hwrite ih =>
      rw [receive_eq, hrecv] at h
      simp only [hwrite] at h
      exact ih h
  | case5 s received cause transport hrecv =>
      rw [receive_eq, hrecv] at h
      cases h
      exact rfl

theorem ends_of_sendOnce (h : s.sendOnce = (.failed e, s')) : e.Ends .writable := by
  rcases s.sendOnce_cases with ⟨_, _, honce⟩ | ⟨_, _, _, _, _, _, _, _, hcases⟩
  · rw [honce] at h
    cases h
  · rcases hcases with
      ⟨_, honce⟩ | ⟨_, honce⟩ | ⟨_, _, honce⟩ | ⟨_, _, _, honce⟩ | ⟨_, _, _, _, honce⟩
    all_goals
      rw [honce] at h
      cases h
    all_goals exact rfl

/-- A pass that fails closes the session in the end. -/
theorem sendAll_failed (hopen : s.phase = .opened) (h : s.sendAll = (.error e, s')) :
    e.Ends .writable ∧ ∃ s₀ : Session T, s₀.phase = .opened ∧ s' = s₀.close := by
  -- the failure comes from the last attempt to send; the chunks before it have left
  induction s using sendAll.induct with
  | case1 s s₁ hsend | case2 s s₁ hsend =>
      rw [sendAll_eq, hsend] at h
      cases h
  | case3 s cause s₁ hsend =>
      have hmarks := s.sendOnce_marks
      rw [hsend] at hmarks
      rw [sendAll_eq, hsend] at h
      cases h
      exact ⟨ends_of_sendOnce hsend, s₁, hmarks.1.trans hopen, rfl⟩
  | case4 s n s₁ hsend hopen₁ ih =>
      rw [sendAll_eq, hsend] at h
      simp only [hopen₁, if_true] at h
      exact ih (phase_of_isOpen hopen₁) h
  | case5 s n s₁ hsend hclosed =>
      rw [sendAll_eq, hsend] at h
      simp only [hclosed] at h
      cases h

/-- A pass is refused, or it closes the session in the end. -/
theorem pass_failed (hc : c.isPass = true) (h : s.perform c = (.error e, s')) :
    (e.Refuses c ∧ s' = s ∧ s.isOpen = false) ∨
      (e.Ends c ∧ ∃ s₀ : Session T, s₀.phase = .opened ∧ s' = s₀.close) := by
  cases hopen : s.isOpen with
  | false =>
      cases c with
      | openUp | close | queueSend | sendFrame => cases hc
      | readable | writable =>
          simp only [perform, readable, writable, hopen] at h
          cases h
          exact .inl ⟨trivial, rfl, rfl⟩
  | true =>
      have hphase := phase_of_isOpen hopen
      right
      cases c with
      | openUp | close | queueSend | sendFrame => cases hc
      | readable =>
          have hmarks := s.receive_marks 0
          simp only [perform, readable, hopen, if_true] at h
          rcases hreceive : s.receive 0 with ⟨_ | received | cause, s₁⟩
          all_goals
            rw [hreceive] at h hmarks
            cases h
          · exact ⟨rfl, s₁, hmarks.1.trans hphase, rfl⟩
          · exact ⟨ends_of_receive hreceive, s₁, hmarks.1.trans hphase, rfl⟩
      | writable =>
          simp only [perform, writable, hopen, if_true] at h
          exact sendAll_failed hphase h

/-- A call that queues is refused. -/
theorem queues_failed (hc : c.queues = true) (h : s.perform c = (.error e, s')) :
    e.Refuses c ∧ s' = s := by
  cases c with
  | openUp | close | readable | writable => cases hc
  | queueSend data =>
      refine ⟨?_, queueSend_error h⟩
      -- not open, or no room
      simp only [perform, queueSend] at h
      repeat' split at h
      all_goals cases h
      · exact trivial
      · exact rfl
  | sendFrame payload =>
      refine ⟨?_, sendFrame_error h⟩
      -- not open, too long, or no room for the header or for the payload
      simp only [perform, sendFrame] at h
      repeat' split at h
      all_goals cases h
      · exact trivial
      · exact trivial
      all_goals exact rfl

/-- From `s` to `s'` a call on a busy session has failed with `e`:
* if it was refused, it has done nothing;
* if it was a pass that ends the session, it has closed it and its transport, and the handler is to
  be told;
* if it was an attempt to open, the session is closed, and each buffer is open if it was. -/
def FailsBusy (s : Session T) (c : Call) (e : SessionError) (s' : Session T) : Prop :=
  e.Means c
    (s' = s ∧ s.performEvents c = [.called c (some (.error e)) s, .returned c (.error e) s])
    (s'.phase = .closed ∧ s'.closePending = true ∧ ∃ t, s'.transport = Transport.close t)
    (s'.phase = .closed ∧ s'.recvBuffer.isOpen = s.recvBuffer.isOpen ∧
      s'.sendBuffer.isOpen = s.sendBuffer.isOpen ∧
      s.performEvents c = [.called c (some (.error e)) s, .returned c (.error e) s'])

theorem failsBusy (h : s.perform c = (.error e, s')) : s.FailsBusy c e s' := by
  have hevents (hpass : s.passEvents c = []) : s.performEvents c =
      [.called c (some (.error e)) s, .returned c (.error e) s'] := by
    rw [performEvents, h, hpass]
    rfl
  -- a pass is refused or ends the session, an open leaves it unopened, the rest is refused
  cases hpass : c.isPass with
  | true =>
      rcases pass_failed hpass h with ⟨hkind, rfl, hclosed⟩ | ⟨hkind, s₀, hopen, rfl⟩
      · have hne := SessionError.ne_openUp_of_isPass hpass
        refine .of_refused hkind (fun hc => absurd hc hne) ⟨rfl, hevents ?_⟩
        cases c <;> simp [passEvents, hclosed]
      · exact .of_ended hkind
          ⟨s₀.phase_close, (close_opened hopen).2.2.2, s₀.transport, transport_close hopen⟩
  | false =>
      cases c with
      | readable | writable => cases hpass
      | close => cases h
      | openUp =>
          rcases openUp_failed h with ⟨rfl, rfl⟩ | ⟨hkind, hclosed, hrecv, hsend⟩
          · exact .of_refused trivial (fun _ => rfl) ⟨rfl, hevents rfl⟩
          · exact .of_unopened rfl hkind ⟨hclosed, hrecv, hsend, hevents rfl⟩
      | queueSend | sendFrame =>
          obtain ⟨hkind, rfl⟩ := queues_failed rfl h
          exact .of_refused hkind (by simp) ⟨rfl, hevents rfl⟩

/-! ## Handlers that close their session -/

/-- If the session has closed, its handler is to be told, and the transport is as `P` says. This is
so during a callback that started with the session open. -/
def Marked {T : Type} (P : T → Prop) (s : Session T) : Prop :=
  s.phase = .closed → s.closePending = true ∧ P s.transport

omit [Transport T] in
theorem Marked.of_opened {P : T → Prop} (h : s.phase = .opened) : s.Marked P := by
  intro hclosed
  rw [h] at hclosed
  cases hclosed

theorem Marked.queued {P : T → Prop} (hc : c.queues = true) (h : s.Marked P) :
    (s.perform c).2.Marked P := by
  rcases perform_queues hc s with ⟨e, hcall⟩ | ⟨s', hcall, _, hopen, _⟩
  · rw [hcall]
    exact h
  · rw [hcall]
    exact .of_opened hopen

theorem stable_marked {P : T → Prop} (hP : ∀ t, P (Transport.close t)) :
    Stable (Marked P : Session T → Prop) where
  receive := by
    intro s received hopen _
    exact .of_opened ((s.receive_marks received).1.trans (phase_of_isOpen hopen))
  sendOnce := by
    intro s hopen _
    exact .of_opened (s.sendOnce_marks.1.trans (phase_of_isOpen hopen))
  openUp := by
    intro s h
    rcases hcall : s.openUp with ⟨e | _, s'⟩
    · rcases openUp_error hcall with rfl | ⟨_, recvBuffer, sendBuffer, rfl, _⟩
      · exact h
      · exact h
    · exact .of_opened (openUp_ok hcall).2.2.1
  close := by
    intro s h
    cases hphase : s.phase with
    | closed =>
        rw [close_closed hphase]
        exact h
    | opened =>
        -- the close leaves its mark, and the transport as a close leaves it
        intro _
        refine ⟨(close_opened hphase).2.2.2, ?_⟩
        rw [transport_close hphase]
        exact hP s.transport
  queueSend data h := h.queued (c := .queueSend data) rfl
  sendFrame payload h := h.queued (c := .sendFrame payload) rfl

end Session

/-- The transport was closed, and nobody has touched it since, except that a callback may have that
was told of bytes: it is closed in every sense that the callback respects. -/
def Handler.Shut {T : Type} (H : Type) [Transport T] [Handler T H] (t : T) : Prop :=
  ∀ P : T → Prop, (∀ t, P (Transport.close t)) →
    (∀ h : H, (Handler.onRecv h : Session.Program T H).Spares P) → P t

namespace Driven

open Session (Event Call Program Marked)

variable {H T : Type} [Transport T] [Handler T H] {d d' : Driven H T} {fuel : Nat} {c : Call}
  {e : SessionError} {es : List (Event T)}

theorem shut_close (t : T) : Handler.Shut H (Transport.close t) := fun _ hclose _ => hclose t

theorem spares_shut (h : H) : (Handler.onRecv h : Program T H).Spares (Handler.Shut H) := by
  refine .forall_spares fun P => .forall_spares fun hclose => .forall_spares fun hspares => ?_
  exact hspares h

/-- A handler that leaves the transport to the session finds it as its close has left it. -/
theorem exists_close_of_shut [Handler.HandsOff T H] {t : T} (h : Handler.Shut H t) :
    ∃ t₀, t = Transport.close t₀ :=
  h (fun t => ∃ t₀, t = Transport.close t₀) (fun t => ⟨t, rfl⟩)
    fun h => (Handler.HandsOff.onRecv h).spares

/-- The session has closed, and that was told last. -/
structure Ended (es : List (Event T)) (d : Driven H T) : Prop where
  closed : d.session.phase = .closed
  told : d.session.closePending = false
  shut : Handler.Shut H d.session.transport
  last : ∃ before, es = before ++ [.told .close d.session]

theorem Ended.append (h : Ended es d) (before : List (Event T)) : Ended (before ++ es) d where
  closed := h.closed
  told := h.told
  shut := h.shut
  last := by
    obtain ⟨before', rfl⟩ := h.last
    exact ⟨before ++ before', (List.append_assoc _ _ _).symm⟩

theorem ended_settle (hclosed : d.session.phase = .closed)
    (hmarked : d.session.Marked (Handler.Shut H)) : Ended d.settleEvents d.settle := by
  obtain ⟨hpending, hshut⟩ := hmarked hclosed
  -- of a closed session there is nothing to tell but the close
  have hsettle : d.settle = ⟨{ d.session with closePending := false },
      Handler.onClose d.handler { d.session with closePending := false }⟩ := by
    unfold settle
    rw [if_pos hpending]
    exact if_neg fun h => by cases hclosed.symm.trans h.1
  have hevents : d.settleEvents = [.told .close { d.session with closePending := false }] := by
    unfold settleEvents
    rw [if_pos hpending]
    exact congrArg (_ :: ·) (if_neg fun h => by cases hclosed.symm.trans h.1)
  rw [hsettle, hevents]
  exact ⟨hclosed, rfl, hshut, [], rfl⟩

theorem ended_close (hopen : d.session.phase = .opened) : Ended d.closeEvents d.close := by
  have hmarked : d.session.close.Marked (Handler.Shut H) :=
    (Session.stable_marked shut_close).close (.of_opened hopen)
  unfold closeEvents close
  rw [if_neg (by simp [hopen]), if_neg (by simp [hopen])]
  exact ended_settle (d := { d with session := d.session.close }) d.session.phase_close hmarked

/-- What a callback that is told of bytes leaves behind. -/
def received (d : Driven H T) : Driven H T where
  session := ((Handler.onRecv d.handler).run d.session).2
  handler := ((Handler.onRecv d.handler).run d.session).1

theorem marked_received (hopen : d.session.phase = .opened) :
    d.received.session.Marked (Handler.Shut H) := by
  refine (Session.stable_marked shut_close).run ((spares_shut d.handler).keeps ?_ ?_)
    (.of_opened hopen)
  · exact fun s recvBuffer hs => hs
  · exact fun s f hf hs hclosed => ⟨(hs hclosed).1, hf _ (hs hclosed).2⟩

/-- A callback that is told of bytes may close the session itself, and is told of that. Otherwise
the close comes behind it. -/
theorem ended_received (hopen : d.session.phase = .opened) :
    Ended (d.notifyEvents .recv Handler.onRecv ++ (d.notify Handler.onRecv).closeEvents)
      (d.notify Handler.onRecv).close := by
  have hnotify : d.notify Handler.onRecv = d.received.settle := rfl
  cases hphase : (d.notify Handler.onRecv).session.phase with
  | opened => exact (ended_close hphase).append _
  | closed =>
      -- what the callback left was closed before it was made up for
      have hclosed : d.received.session.phase = .closed := by
        obtain ⟨closePending, writeInterest, hsession⟩ := d.received.session_settle
        rw [hnotify, hsession] at hphase
        exact hphase
      have hended := (ended_settle hclosed (marked_received hopen)).append
        (.told .recv d.session :: (Handler.onRecv d.handler).events d.session)
      unfold closeEvents close
      rw [if_pos hphase, if_pos hphase, List.append_nil]
      exact hended

/-! ## Calls that fail from outside -/

theorem readable_failed (hopen : d.session.isOpen = true) (h : d.readable = (.error e, d')) :
    e.Ends .readable ∧ Ended d.readableEvents d' := by
  have hmarks := d.session.receive_marks 0
  unfold readable at h
  unfold readableEvents
  rw [if_pos hopen] at h ⊢
  rcases hreceive : d.session.receive 0 with ⟨_ | received | cause, s⟩
  all_goals
    rw [hreceive] at h hmarks
    have hphase := hmarks.1.trans (Session.phase_of_isOpen hopen)
  · cases h
  · cases h
    refine ⟨rfl, Ended.append ?_ _⟩
    dsimp only
    -- the handler gets what came before the end, if anything did
    by_cases hreceived : 0 < received
    · rw [if_pos hreceived, if_pos hreceived]
      exact ended_received hphase
    · rw [if_neg hreceived, if_neg hreceived]
      exact ended_close hphase
  · cases h
    exact ⟨Session.ends_of_receive hreceive, (ended_close hphase).append _⟩

theorem sendAll_failed (hopen : d.session.isOpen = true)
    (h : d.sendAll fuel = some (.error e, d')) :
    e.Ends .writable ∧ Ended (d.sendAllEvents fuel) d' := by
  -- the failure comes from the last attempt to send; what was told before it stays in the trace
  induction fuel, d using sendAll.induct with
  | case1 fuel d s honce | case2 fuel d s honce =>
      rw [sendAll.eq_def, honce] at h
      cases h
  | case3 fuel d cause s honce =>
      have hmarks := d.session.sendOnce_marks
      rw [honce] at hmarks
      rw [sendAll.eq_def, honce] at h
      rw [sendAllEvents.eq_def, honce]
      cases h
      have hphase := hmarks.1.trans (Session.phase_of_isOpen hopen)
      exact ⟨Session.ends_of_sendOnce honce, (ended_close hphase).append _⟩
  | case4 d n s honce =>
      rw [sendAll.eq_def, honce] at h
      cases h
  | case5 d n s honce fuel told hopen' ih =>
      rw [sendAll.eq_def, honce] at h
      rw [sendAllEvents.eq_def, honce]
      dsimp only at h ⊢
      rw [if_pos hopen'] at h ⊢
      obtain ⟨hends, hended⟩ := ih hopen' h
      exact ⟨hends, (hended.append _).append _⟩
  | case6 d n s honce fuel told hclosed =>
      rw [sendAll.eq_def, honce] at h
      dsimp only at h
      rw [if_neg hclosed] at h
      cases h

/-- From outside, too, a pass is refused or ends the session. -/
theorem pass_failed (hc : c.isPass = true) (h : d.perform fuel c = some (.error e, d')) :
    (e.Refuses c ∧ d' = d ∧ d.passEvents fuel c = []) ∨
      (e.Ends c ∧ Ended (d.passEvents fuel c) d') := by
  -- a pass that finds the session open is not refused, and one that finds it closed does nothing
  cases hopen : d.session.isOpen with
  | false =>
      cases c with
      | openUp | close | queueSend | sendFrame => cases hc
      | readable =>
          simp only [perform, readable, hopen] at h
          cases h
          exact .inl ⟨trivial, rfl, by simp [passEvents, readableEvents, hopen]⟩
      | writable =>
          simp only [perform, writable, hopen] at h
          cases h
          exact .inl ⟨trivial, rfl, by simp [passEvents, hopen]⟩
  | true =>
      right
      cases c with
      | openUp | close | queueSend | sendFrame => cases hc
      | readable => exact readable_failed hopen (Option.some.inj h)
      | writable =>
          simp only [perform, writable, hopen, if_true] at h
          simp only [passEvents, hopen, if_true]
          exact sendAll_failed hopen h

/-- From outside, too, a call that queues is refused. -/
theorem queues_failed (hc : c.queues = true) (h : d.perform fuel c = some (.error e, d')) :
    e.Refuses c ∧ d' = d ∧ d.passEvents fuel c = [] := by
  rw [perform_of_queues fuel d hc] at h
  rcases hcall : d.session.perform c with ⟨cause | _, s⟩
  all_goals
    rw [hcall] at h
    cases h
  obtain ⟨hrefuses, rfl⟩ := Session.queues_failed hc hcall
  exact ⟨hrefuses, rfl, by rw [passEvents_of_queues fuel d hc, hcall]⟩

/-- From `d` to `d'` a call from outside has failed with `e`:
* if it was refused, it has done nothing, and nobody was told of anything;
* if it was a pass that ends the session, it has closed it and its transport, and told the handler
  of that before it returned;
* if it was an attempt to open, the session is closed, each buffer is open if it was, and nobody was
  told of anything. -/
def Fails (fuel : Nat) (d : Driven H T) (c : Call) (e : SessionError) (d' : Driven H T) : Prop :=
  e.Means c
    (d' = d ∧ d.performEvents fuel c =
      [.called c (some (.error e)) d.session, .returned c (.error e) d.session])
    (d'.session.phase = .closed ∧ d'.session.closePending = false ∧
      Handler.Shut H d'.session.transport ∧ ∃ before, d.performEvents fuel c =
        before ++ [.told .close d'.session, .returned c (.error e) d'.session])
    (d'.session.phase = .closed ∧ d'.session.recvBuffer.isOpen = d.session.recvBuffer.isOpen ∧
      d'.session.sendBuffer.isOpen = d.session.sendBuffer.isOpen ∧ d'.handler = d.handler ∧
      d.performEvents fuel c =
        [.called c (some (.error e)) d.session, .returned c (.error e) d'.session])

theorem fails (h : d.perform fuel c = some (.error e, d')) : d.Fails fuel c e d' := by
  have hevents : d.performEvents fuel c =
      .called c (some (.error e)) d.session ::
        (d.passEvents fuel c ++ [.returned c (.error e) d'.session]) := by
    rw [performEvents, h]
  -- the same cases as inside a callback, with what is told added to them
  cases hpass : c.isPass with
  | true =>
      rcases pass_failed hpass h with ⟨hkind, rfl, hnone⟩ | ⟨hkind, hended⟩
      · have hne := SessionError.ne_openUp_of_isPass hpass
        rw [hnone] at hevents
        exact .of_refused hkind (fun hc => absurd hc hne) ⟨rfl, hevents⟩
      · obtain ⟨before, hlast⟩ := hended.last
        refine .of_ended hkind ⟨hended.closed, hended.told, hended.shut,
          .called c (some (.error e)) d.session :: before, ?_⟩
        rw [hevents, hlast, List.append_assoc]
        rfl
  | false =>
      cases c with
      | readable | writable => cases hpass
      | close => cases h
      | openUp =>
          have hopenUp : d.openUp = (.error e, d') := Option.some.inj h
          unfold openUp at hopenUp
          rcases hcall : d.session.openUp with ⟨answer, s⟩
          rw [hcall] at hopenUp
          cases hopenUp
          rcases Session.openUp_failed hcall with ⟨rfl, rfl⟩ | ⟨hkind, hclosed, hrecv, hsend⟩
          · exact .of_refused trivial (fun _ => rfl) ⟨rfl, hevents⟩
          · exact .of_unopened rfl hkind ⟨hclosed, hrecv, hsend, rfl, hevents⟩
      | queueSend | sendFrame =>
          obtain ⟨hkind, rfl, hnone⟩ := queues_failed rfl h
          rw [hnone] at hevents
          exact .of_refused hkind (by simp) ⟨rfl, hevents⟩

end Driven

namespace Session

/-- Whatever the handler and the transport do, the error of a call tells what the call has done,
inside of callbacks and from outside. -/
theorem errors_accounted {T H : Type} [Transport T] [Handler T H] :
    (∀ (s s' : Session T) (c : Call) (e : SessionError), s.perform c = (.error e, s') →
      s.FailsBusy c e s') ∧
    ∀ (fuel : Nat) (d d' : Driven H T) (c : Call) (e : SessionError),
      d.perform fuel c = some (.error e, d') → d.Fails fuel c e d' :=
  ⟨fun _ _ _ _ h => failsBusy h, fun _ _ _ _ _ h => Driven.fails h⟩

/-- With nine bytes and room for eight, a frame is refused. The peer finishes behind a byte, and the
callback that is told of the byte closes the session, so nothing is left of the close that follows.
A session whose recv buffer was opened directly does not open, and its recv buffer stays open. -/
theorem errors_accounted_nested :
    let handler : Sim.ScriptedHandler :=
      { onRecv := [[.call (.sendFrame [1, 2, 3, 4, 5]), .call .close]] }
    let new : Driven Sim.ScriptedHandler Sim.ScriptedTransport :=
      .new { reads := [.data [1], .ended], sends := [] } 8 8 0 handler
    let opened := new.openUp.2
    let prepared : Driven Sim.ScriptedHandler Sim.ScriptedTransport :=
      { new with session := { new.session with recvBuffer := opened.session.recvBuffer } }
    (∃ s, opened.session.perform (.sendFrame [1, 2, 3, 4, 5]) =
      (.error (.sendBuffer .overflow), s) ∧ s = opened.session) ∧
    (∃ d before, opened.perform 9 .readable = some (.error .peerClosed, d) ∧
      d.session.phase = .closed ∧ opened.performEvents 9 .readable =
        before ++ [.told .close d.session, .returned .readable (.error .peerClosed) d.session]) ∧
    ∃ d, prepared.perform 9 .openUp = some (.error (.recvBuffer .internal), d) ∧
      d.session.phase = .closed ∧ d.session.recvBuffer.isOpen = true := by
  intro handler new opened prepared
  have hsend : (opened.session.perform (.sendFrame [1, 2, 3, 4, 5])).1 =
      .error (.sendBuffer .overflow) := by
    decide +kernel
  have hreceive : (opened.perform 9 .readable).map (·.1) = some (.error .peerClosed) := by
    decide +kernel
  have hopen : (prepared.perform 9 .openUp).map (·.1) = some (.error (.recvBuffer .internal)) := by
    decide +kernel
  have hdirect : prepared.session.recvBuffer.isOpen = true := by decide +kernel
  have hbusy : opened.session.perform (.sendFrame [1, 2, 3, 4, 5]) =
      (.error (.sendBuffer .overflow), _) := Prod.ext hsend rfl
  obtain ⟨⟨_, d₁⟩, hreceive, rfl⟩ := Option.map_eq_some_iff.mp hreceive
  obtain ⟨⟨_, d₂⟩, hopen, rfl⟩ := Option.map_eq_some_iff.mp hopen
  have hrefused := (errors_accounted (H := Sim.ScriptedHandler)).1 _ _ _ _ hbusy
  have hended := errors_accounted.2 9 opened d₁ .readable .peerClosed hreceive
  have hunopened := errors_accounted.2 9 prepared d₂ .openUp (.recvBuffer .internal) hopen
  obtain ⟨hclosed, _, _, before, hlast⟩ := hended.ended rfl
  obtain ⟨hphase, hflag, _⟩ := hunopened.unopened rfl (by simp)
  exact ⟨⟨_, hbusy, (hrefused.refused rfl).1⟩, ⟨d₁, before, hreceive, hclosed, hlast⟩,
    d₂, hopen, hphase, hflag.trans hdirect⟩

end Session
end TcpReactor
