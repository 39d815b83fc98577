import TcpReactor.Proofs.Session.Calls
import TcpReactor.Proofs.Session.Spares

namespace TcpReactor.Session

/-! # Observers of traces

An observer reads a trace event by event. It demands something of every event, given what it has
seen before, and may assume something of every event as well. A property of runs is the acceptance
of their traces by an observer.

* `Observer.PreservesOver` lists what has to be shown of an invariant that relates the observer to
  the session: one item for each thing that a session does. A family of properties says what of the
  transport everybody has to keep who reaches for it behind the session.
* `Observer.PreservesOver.program`, `keeps_trace`: then every program of session calls keeps the
  invariant, and every run.
* `Observer.Preserves` is the same for an invariant that does not depend on the transport, and by
  `Observer.Preserves.accepts_trace` every run is accepted, with every handler.
-/

/-- A reader of traces. -/
structure Observer (σ T : Type) where
  /-- What is known after an event. -/
  next : σ → Event T → σ
  /-- What is demanded of an event, given what was known before it. -/
  demands : σ → Event T → Prop
  /-- What may be assumed of an event. -/
  assumes : Event T → Prop := fun _ => True

namespace Observer

variable {σ T : Type} (o : Observer σ T)

/-- What is known after a trace. -/
def after (q : σ) (es : List (Event T)) : σ := es.foldl o.next q

/-- Every event of the trace is as demanded. -/
def Accepts : σ → List (Event T) → Prop
  | _, [] => True
  | q, e :: es => o.demands q e ∧ Accepts (o.next q e) es

theorem after_append (q : σ) (es es' : List (Event T)) :
    o.after q (es ++ es') = o.after (o.after q es) es' :=
  List.foldl_append

theorem accepts_append (q : σ) (es es' : List (Event T)) :
    o.Accepts q (es ++ es') ↔ o.Accepts q es ∧ o.Accepts (o.after q es) es' := by
  induction es generalizing q with
  | nil => simp [Accepts, after]
  | cons e es ih =>
      simp only [List.cons_append, Accepts, ih, and_assoc]
      rfl

/-- An accepted trace meets the demand at each of its events. -/
theorem Accepts.demands {o : Observer σ T} {q : σ} {before after : List (Event T)} {e : Event T}
    (h : o.Accepts q (before ++ e :: after)) : o.demands (o.after q before) e :=
  ((o.accepts_append q before (e :: after)).mp h).2.1

/-- An observer that has nothing to know demands the same of every event, wherever it is. -/
theorem accepts_iff_forall {o : Observer Unit T} {es : List (Event T)} :
    o.Accepts () es ↔ ∀ e ∈ es, o.demands () e := by
  induction es with
  | nil => simp [Accepts]
  | cons e es ih =>
      rw [List.forall_mem_cons, ← ih]
      rfl

/-- If the events are as assumed, then they are as demanded, and behind them `I` holds of what is
known then. -/
def Keeps {α : Type} (I : σ → α → Prop) (q : σ) (es : List (Event T)) (a : α) : Prop :=
  (∀ e ∈ es, o.assumes e) → o.Accepts q es ∧ I (o.after q es) a

variable {o : Observer σ T} {α β : Type} {I : σ → α → Prop} {J : σ → β → Prop} {q : σ} {a : α}
  {b : β} {e : Event T} {es es' : List (Event T)}

theorem Keeps.nil (h : I q a) : o.Keeps I q [] a := by
  intro _
  exact ⟨trivial, h⟩

theorem Keeps.single (h : o.assumes e → o.demands q e ∧ I (o.next q e) a) :
    o.Keeps I q [e] a := by
  intro hassumed
  rcases h (hassumed e (by simp)) with ⟨hdemand, hI⟩
  exact ⟨⟨hdemand, trivial⟩, hI⟩

/-- Two stretches of a trace, one behind the other. -/
theorem Keeps.append (h : o.Keeps I q es a) (h' : ∀ q', I q' a → o.Keeps J q' es' b) :
    o.Keeps J q (es ++ es') b := by
  intro hassumed
  rw [List.forall_mem_append] at hassumed
  rcases h hassumed.1 with ⟨hfirst, hI⟩
  rcases h' _ hI hassumed.2 with ⟨hsecond, hJ⟩
  refine ⟨(o.accepts_append q es es').mpr ⟨hfirst, hsecond⟩, ?_⟩
  rw [o.after_append]
  exact hJ

/-- One event, and a stretch behind it. -/
theorem Keeps.cons (h : o.Keeps I q [e] a) (h' : ∀ q', I q' a → o.Keeps J q' es b) :
    o.Keeps J q (e :: es) b :=
  h.append h'

theorem Keeps.mono (h : o.Keeps I q es a) (hIJ : ∀ q', I q' a → J q' b) : o.Keeps J q es b := by
  intro hassumed
  rcases h hassumed with ⟨haccepts, hI⟩
  exact ⟨haccepts, hIJ _ hI⟩

end Observer

/-! ## What has to be shown -/

/-- The passes ask the transport again and again; the other calls are done at once. -/
def Call.isPass : Call → Bool
  | .readable => true
  | .writable => true
  | _ => false

/-- A notice that the handler may answer by using the session. -/
def Notice.lends : Notice → Bool
  | .recv => true
  | .send _ => true
  | .visit => true
  | _ => false

variable {σ T : Type} [Transport T]

/-- What has to be shown of `I`, the relation between an observer and a session, whatever else it
depends on: each event keeps it and is as demanded. -/
structure Observer.Upholds (o : Observer σ T) (I : σ → Session T → Prop) : Prop where
  close : ∀ {q s}, I q s → I q s.close
  /-- A call that is done at once. Its effect counts from where it is made. -/
  called : ∀ {q s c}, c.isPass = false → I q s →
    o.Keeps I q [.called c (some (s.perform c).1) s] (s.perform c).2
  started : ∀ {q s c answer}, c.isPass = true → I q s → o.Keeps I q [.called c answer s] s
  returned : ∀ {q s c answer}, I q s → o.Keeps I q [.returned c answer s] s
  sent : ∀ {q s}, s.isOpen = true → I q s → o.Keeps I q s.sendOnceEvents s.sendOnce.2
  /-- A callback starts. Of bytes it is told only while the session is open. -/
  told : ∀ {q s n}, n.lends = true → (n = .visit ∨ s.phase = .opened) →
    s.closePending = false → I q s → o.Keeps I q [.told n s] s
  toldClose : ∀ {q s}, s.closePending = true → I q s →
    o.Keeps I q [.told .close { s with closePending := false }] { s with closePending := false }
  toldInterest : ∀ {q s}, s.phase = .opened → s.closePending = false →
    s.hasPendingSend ≠ s.writeInterest → I q s →
    o.Keeps I q [.told (.interest s.hasPendingSend) { s with writeInterest := s.hasPendingSend }]
      { s with writeInterest := s.hasPendingSend }
  idle : ∀ {q s}, s.closePending = false → I q s → o.Keeps I q [.idle s] s

/-- `I` does not depend on the recv buffer and the times, and on the transport only as far as the
properties `P` go. -/
structure Observer.PreservesOver (o : Observer σ T) {ι : Type} (P : ι → T → Prop)
    (I : σ → Session T → Prop) : Prop extends o.Upholds I where
  rest : ∀ {q s} recvBuffer now lastActive, I q s → I q { s with recvBuffer, now, lastActive }
  /-- Somebody has reached for the transport. -/
  moved : ∀ {q s} {f : T → T}, (∀ i t, P i t → P i (f t)) → I q s →
    I q { s with transport := f s.transport }
  received : ∀ {q s}, I q s → o.Keeps I q [.received (Transport.recv s.transport recvChunkSize).1]
    { s with transport := (Transport.recv s.transport recvChunkSize).2 }

/-- `I` does not depend on the transport, the recv buffer and the times. -/
structure Observer.Preserves (o : Observer σ T) (I : σ → Session T → Prop) : Prop
    extends o.Upholds I where
  quiet : ∀ {q s s'}, Quiet s s' → I q s → I q s'
  received : ∀ {q s answer}, I q s → o.Keeps I q [.received answer] s

/-- A property without regard to the transport asks nothing of those who reach for it. -/
theorem Observer.Preserves.over {o : Observer σ T} {I : σ → Session T → Prop}
    (h : o.Preserves I) : o.PreservesOver (Empty.elim : Empty → T → Prop) I where
  toUpholds := h.toUpholds
  rest _ _ _ hI := h.quiet ⟨_, _, _, _, rfl⟩ hI
  moved _ hI := h.quiet ⟨_, _, _, _, rfl⟩ hI
  received hI := (h.received hI).mono fun _ hI' => h.quiet ⟨_, _, _, _, rfl⟩ hI'

/-! ## From steps to runs -/

section Runs

variable {H : Type} [Handler T H] {o : Observer σ T} {J : σ → Driven H T → Prop} {q : σ}

/-- What holds of a driven session, if there is one. -/
def Observer.Reached (J : σ → Driven H T → Prop) (q : σ) (d? : Option (Driven H T)) : Prop :=
  ∀ d, d? = some d → J q d

/-- What every step of some kind keeps, every run of such steps keeps. -/
theorem Observer.Keeps.trace {fuel : Nat} {allowed : Driven.Step H T → Prop}
    (hstep : ∀ {q d step}, allowed step → J q d →
      o.Keeps (Reached J) q (d.stepEvents fuel step) (d.step fuel step))
    {steps : List (Driven.Step H T)} {d : Driven H T} (hsteps : ∀ step ∈ steps, allowed step)
    (hJ : J q d) :
    o.Keeps (Reached J) q (d.trace fuel steps) (steps.foldlM (Driven.step fuel) d) := by
  -- a run that has come to a halt has no events behind it
  induction steps generalizing q d with
  | nil =>
      refine Keeps.nil ?_
      rintro d' ⟨⟩
      exact hJ
  | cons step steps ih =>
      rw [List.forall_mem_cons] at hsteps
      rw [Driven.trace, List.foldlM_cons]
      refine (hstep hsteps.1 hJ).append fun q' hJ' => ?_
      cases hnext : d.step fuel step with
      | none => exact Keeps.nil (by rintro d' ⟨⟩)
      | some d' => exact ih hsteps.2 (hJ' d' hnext)

/-- What holds of a driven session if a call has returned. -/
def Observer.Answered (J : σ → Driven H T → Prop) {α : Type} (q : σ)
    (r : Option (α × Driven H T)) : Prop :=
  ∀ a d, r = some (a, d) → J q d

omit [Transport T] [Handler T H] in
theorem Observer.Answered.some {α : Type} {a : α} {d : Driven H T} (h : J q d) :
    Answered J q (some (a, d)) := by
  rintro a' d' ⟨⟩
  exact h

/-- The loop of a writable pass keeps `J`, if one attempt to send leads to what `S` says of its
outcome, and from there what follows leads back to `J`. Its rounds are counted down by the fuel, and
between two of them the handler is told. -/
theorem Observer.Keeps.sendAll {S : SendStep → σ → Driven H T → Prop}
    (hsend : ∀ {q d}, d.session.isOpen = true → J q d →
      o.Keeps (fun q' (r : SendStep × Session T) => S r.1 q' { d with session := r.2 }) q
        d.session.sendOnceEvents d.session.sendOnce)
    (hstop : ∀ {q d step}, step = .drained ∨ step = .blocked → S step q d →
      o.Keeps J q d.syncInterestEvents d.syncInterest)
    (hfail : ∀ {q d e}, S (.failed e) q d → o.Keeps J q d.closeEvents d.close)
    (hsent : ∀ {q d n}, S (.sent n) q d →
      o.Keeps J q (d.notifyEvents (.send n) (Handler.onSend · n))
        (d.notify (Handler.onSend · n)))
    {fuel : Nat} {d : Driven H T} (hopen : d.session.isOpen = true) (hJ : J q d) :
    o.Keeps (Answered J) q (d.sendAllEvents fuel) (d.sendAll fuel) := by
  induction fuel using Nat.strongRecOn generalizing d q with
  | ind fuel ih =>
      rw [Driven.sendAllEvents.eq_def, Driven.sendAll.eq_def]
      refine (hsend hopen hJ).append fun q' hS => ?_
      rcases hstep : d.session.sendOnce with ⟨_ | _ | e | n, s⟩
      all_goals
        rw [hstep] at hS
        dsimp only at hS ⊢
      · exact (hstop (.inl rfl) hS).mono fun q'' hJ' => .some hJ'
      · exact (hstop (.inr rfl) hS).mono fun q'' hJ' => .some hJ'
      · exact (hfail hS).mono fun q'' hJ' => .some hJ'
      · cases fuel with
        | zero =>
            -- there is more to send, but no fuel for it
            exact Keeps.nil (by rintro a d' ⟨⟩)
        | succ fuel =>
            refine (hsent hS).append fun q'' hJ' => ?_
            dsimp only
            split
            · rename_i hopen'
              exact ih fuel (Nat.lt_succ_self fuel) hopen' hJ'
            · exact Keeps.nil (.some hJ')

end Runs

namespace Observer.Preserves

variable {I : σ → Session T → Prop} {q : σ} {H : Type}

/-- The invariant of a session whose handler knows of every close. -/
def Told (I : σ → Session T → Prop) (q : σ) (s : Session T) : Prop :=
  I q s ∧ s.closePending = false

/-- The same, if a call has returned. -/
def Returned (I : σ → Session T → Prop) {α : Type} :
    σ → Option (α × Driven H T) → Prop :=
  Answered fun q d => Told I q d.session

omit [Transport T] in
theorem Told.returned {α : Type} {a : α} {d : Driven H T} (hI : Told I q d.session) :
    Returned I q (some (a, d)) :=
  .some hI

/-- The same, if a step has come to its end. -/
def Done (I : σ → Session T → Prop) : σ → Option (Driven H T) → Prop :=
  Reached fun q d => Told I q d.session

/-- A call that is done at once returns, with the answer that the session gives. -/
theorem answer_of_done [Handler T H] (d : Driven H T) (fuel : Nat) {c : Call}
    (hpass : c.isPass = false) :
    ∃ d', d.perform fuel c = some ((d.session.perform c).1, d') := by
  cases c with
  | readable | writable => cases hpass
  | openUp | close => exact ⟨_, rfl⟩
  | queueSend | sendFrame =>
      rw [Driven.perform_of_queues fuel d rfl]
      rcases d.session.perform _ with ⟨_ | _, s⟩
      all_goals exact ⟨_, rfl⟩

end Observer.Preserves

namespace Observer.PreservesOver

open Observer.Preserves

variable {ι : Type} {P : ι → T → Prop} {o : Observer σ T} {I : σ → Session T → Prop} {q : σ}
  {s : Session T}

/-! ## A session whose handler is busy -/

theorem receive (h : o.PreservesOver P I) (received : Nat) (hI : I q s) :
    o.Keeps I q s.receiveEvents (s.receive received).2 := by
  induction s, received using receive.induct generalizing q with
  | case1 s received transport hrecv
  | case2 s received transport hrecv
  | case5 s received e transport hrecv =>
      have hreceived := h.received hI
      rw [receiveEvents_eq, receive_eq, hrecv]
      rwa [hrecv] at hreceived
  | case3 s received b data transport hrecv e hwrite =>
      have hreceived := h.received hI
      rw [receiveEvents_eq, receive_eq, hrecv]
      rw [hrecv] at hreceived
      simp only [hwrite]
      exact hreceived
  | case4 s received b data transport hrecv recvBuffer hwrite ih =>
      have hreceived := h.received hI
      rw [receiveEvents_eq, receive_eq, hrecv]
      rw [hrecv] at hreceived
      simp only [hwrite]
      refine hreceived.cons fun q' hI' => ?_
      -- the chunk is in the recv buffer now, and the next round starts from there
      have hrest := h.rest (s := { s with transport }) recvBuffer s.now s.now hI'
      exact ih hrest

theorem sendAll (h : o.PreservesOver P I) (hopen : s.isOpen = true) (hI : I q s) :
    o.Keeps I q s.sendAllEvents s.sendAll.2 := by
  -- every case starts with one attempt to send; they differ in what follows it
  induction s using sendAll.induct generalizing q with
  | case1 s s' hsend
  | case2 s s' hsend =>
      rw [sendAllEvents_eq, sendAll_eq]
      refine (h.sent hopen hI).append fun q' hI' => ?_
      rw [hsend] at hI' ⊢
      exact Keeps.nil hI'
  | case3 s e s' hsend =>
      rw [sendAllEvents_eq, sendAll_eq]
      refine (h.sent hopen hI).append fun q' hI' => ?_
      rw [hsend] at hI' ⊢
      exact Keeps.nil (h.close hI')
  | case4 s n s' hsend hopen' ih =>
      rw [sendAllEvents_eq, sendAll_eq]
      refine (h.sent hopen hI).append fun q' hI' => ?_
      rw [hsend] at hI' ⊢
      simp only [hopen', if_true]
      exact ih hopen' hI'
  | case5 s n s' hsend hclosed =>
      rw [sendAllEvents_eq, sendAll_eq]
      refine (h.sent hopen hI).append fun q' hI' => ?_
      rw [hsend] at hI' ⊢
      simp only [hclosed]
      exact Keeps.nil hI'

/-- The passes; the other calls cause no events of their own. -/
theorem pass (h : o.PreservesOver P I) {c : Call} (hpass : c.isPass = true) (hI : I q s) :
    o.Keeps I q (s.passEvents c) (s.perform c).2 := by
  cases c with
  | readable =>
      simp only [passEvents, perform, readable]
      split
      · have hreceive := h.receive 0 hI
        rcases hr : s.receive 0 with ⟨_ | _ | _, s'⟩ <;> rw [hr] at hreceive
        · exact hreceive
        · exact hreceive.mono fun q' hI' => h.close hI'
        · exact hreceive.mono fun q' hI' => h.close hI'
      · exact Keeps.nil hI
  | writable =>
      simp only [passEvents, perform, writable]
      split
      · exact h.sendAll ‹_› hI
      · exact Keeps.nil hI
  | _ => cases hpass

theorem perform (h : o.PreservesOver P I) (c : Call) (hI : I q s) :
    o.Keeps I q (s.performEvents c) (s.perform c).2 := by
  rw [performEvents]
  cases hpass : c.isPass with
  | true =>
      refine (h.started hpass hI).cons fun q' hI' => ?_
      exact (h.pass hpass hI').append fun q'' hI'' => h.returned hI''
  | false =>
      have hnone : s.passEvents c = [] := by
        cases c with
        | readable | writable => cases hpass
        | _ => rfl
      rw [hnone]
      refine (h.called hpass hI).cons fun q' hI' => ?_
      exact h.returned hI'

/-- A program of calls. -/
theorem program (h : o.PreservesOver P I) {α : Type} {p : Program T α}
    (hp : ∀ i, p.Spares (P i)) (hI : I q s) : o.Keeps I q (p.events s) (p.run s).2 := by
  induction p generalizing q s with
  | done a => exact Keeps.nil hI
  | look next ih => exact ih s (fun i => hp i s) hI
  | call c next ih =>
      rw [Program.events, Program.run]
      exact (h.perform c hI).append fun q' hI' => ih _ (fun i => hp i _) hI'
  | editRecvBuffer f next ih => exact ih hp (h.rest (f s.recvBuffer) s.now s.lastActive hI)
  | editTransport f next ih => exact ih (fun i => (hp i).2) (h.moved (fun i => (hp i).1) hI)

/-! ## A session that is driven from outside -/

variable {H : Type} [Handler T H] {d : Driven H T}

theorem syncInterest (h : o.PreservesOver P I) (hI : Told I q d.session) :
    o.Keeps (Told I) q d.syncInterestEvents d.syncInterest.session := by
  rw [Driven.syncInterestEvents, Driven.syncInterest]
  split
  · rename_i hchanged
    refine (h.toldInterest hchanged.1 hI.2 hchanged.2 hI.1).mono fun q' hI' => ?_
    exact ⟨hI', hI.2⟩
  · exact Keeps.nil hI

theorem settle (h : o.PreservesOver P I) (hI : I q d.session) :
    o.Keeps (Told I) q d.settleEvents d.settle.session := by
  rw [Driven.settleEvents, Driven.settle]
  split
  · rename_i hpending
    refine (h.toldClose hpending hI).cons fun q' hI' => ?_
    exact h.syncInterest ⟨hI', rfl⟩
  · rename_i hpending
    exact h.syncInterest ⟨hI, by simpa using hpending⟩

/-- A callback with whatever it does, and what is made up for behind it. -/
theorem callback (h : o.PreservesOver P I) {n : Notice} (hlends : n.lends = true)
    (hphase : n = .visit ∨ d.session.phase = .opened) {α : Type} {p : Program T α}
    (hp : ∀ i, p.Spares (P i)) (handler : α → H) (hI : Told I q d.session) :
    o.Keeps (Told I) q (d.callbackEvents n p handler)
      (Driven.settle
        { session := (p.run d.session).2, handler := handler (p.run d.session).1 }).session := by
  rw [Driven.callbackEvents]
  refine (h.told hlends hphase hI.2 hI.1).cons fun q' hI' => ?_
  refine (h.program hp hI').append fun q'' hI'' => ?_
  exact h.settle hI''

theorem notify (h : o.PreservesOver P I) {n : Notice} (hlends : n.lends = true)
    (hphase : d.session.phase = .opened) {f : H → Program T H}
    (hf : ∀ i, (f d.handler).Spares (P i)) (hI : Told I q d.session) :
    o.Keeps (Told I) q (d.notifyEvents n f) (d.notify f).session :=
  h.callback hlends (.inr hphase) hf id hI

theorem closeDriven (h : o.PreservesOver P I) (hI : Told I q d.session) :
    o.Keeps (Told I) q d.closeEvents d.close.session := by
  rw [Driven.closeEvents, Driven.close]
  split
  · exact Keeps.nil hI
  · exact h.settle (h.close hI.1)

theorem readableDriven (h : o.PreservesOver P I) (hH : ∀ i, Handler.Spares (P i) H)
    (hI : Told I q d.session) :
    o.Keeps (Told I) q d.readableEvents d.readable.2.session := by
  rw [Driven.readableEvents, Driven.readable]
  split
  · rename_i hopen
    refine (h.receive 0 hI.1).append fun q' hI' => ?_
    -- nothing is closed yet, so the handler is told while the session is open
    rcases receive_marks d.session 0 with ⟨hphase, hpending⟩
    rw [phase_of_isOpen hopen] at hphase
    rw [hI.2] at hpending
    rcases hreceive : d.session.receive 0 with ⟨_ | received | _, s⟩
    all_goals rw [hreceive] at hI' hphase hpending
    · exact h.notify rfl hphase (fun i => (hH i).onRecv _) ⟨hI', hpending⟩
    · dsimp only
      split
      · refine Keeps.append (h.notify rfl hphase (fun i => (hH i).onRecv _) ⟨hI', hpending⟩) ?_
        exact fun q'' hI'' => h.closeDriven hI''
      · exact h.closeDriven ⟨hI', hpending⟩
    · exact h.closeDriven ⟨hI', hpending⟩
  · exact Keeps.nil hI

theorem sendAllDriven (h : o.PreservesOver P I) (fuel : Nat) (hH : ∀ i, Handler.Spares (P i) H)
    (hopen : d.session.isOpen = true) (hI : Told I q d.session) :
    o.Keeps (Returned I) q (d.sendAllEvents fuel) (d.sendAll fuel) := by
  refine Keeps.sendAll (S := fun _ q d => Told I q d.session ∧ d.session.phase = .opened)
    ?_ ?_ ?_ ?_ hopen hI
  · intro q d hopen hI
    have hmarks := sendOnce_marks d.session
    rw [phase_of_isOpen hopen, hI.2] at hmarks
    exact (h.sent hopen hI.1).mono fun q' hI' => ⟨⟨hI', hmarks.2⟩, hmarks.1⟩
  · intro q d _ _ hI
    exact h.syncInterest hI.1
  · intro q d _ hI
    exact h.closeDriven hI.1
  · intro q d n hI
    exact h.notify rfl hI.2 (fun i => (hH i).onSend _ _) hI.1

/-- The events inside a pass, which may not return. -/
theorem passDriven (h : o.PreservesOver P I) (fuel : Nat) (hH : ∀ i, Handler.Spares (P i) H)
    {c : Call} (hpass : c.isPass = true) (hI : Told I q d.session) :
    o.Keeps (Returned I) q (d.passEvents fuel c) (d.perform fuel c) := by
  cases c with
  | readable => exact (h.readableDriven hH hI).mono fun q' hI' => hI'.returned
  | writable =>
      simp only [Driven.passEvents, Driven.perform, Driven.writable]
      split
      · exact h.sendAllDriven fuel hH ‹_› hI
      · exact Keeps.nil hI.returned
  | _ => cases hpass

/-- Behind a call that queues, the handler is told what it does not know yet. -/
theorem queuedDriven (h : o.PreservesOver P I) (fuel : Nat) {c : Call} (hc : c.queues = true)
    (hpending : d.session.closePending = false) (hI : I q (d.session.perform c).2) :
    o.Keeps (Returned I) q (d.passEvents fuel c) (d.perform fuel c) := by
  have htold := (closePending_perform hc d.session).trans hpending
  rw [Driven.passEvents_of_queues fuel d hc, Driven.perform_of_queues fuel d hc]
  rcases hqueue : d.session.perform c with ⟨_ | _, s⟩
  all_goals rw [hqueue] at hI htold
  · exact Keeps.nil (Told.returned ⟨hI, htold⟩)
  · exact (h.syncInterest ⟨hI, htold⟩).mono fun q' hI' => hI'.returned

/-- What is made up for behind a call that was done at once. -/
theorem doneDriven (h : o.PreservesOver P I) (fuel : Nat) {c : Call} (hpass : c.isPass = false)
    (hpending : d.session.closePending = false) (hI : I q (d.session.perform c).2) :
    o.Keeps (Returned I) q (d.passEvents fuel c) (d.perform fuel c) := by
  cases c with
  | readable | writable => cases hpass
  | openUp =>
      have htold := (openUp_pending d.session).trans hpending
      exact Keeps.nil (Told.returned ⟨hI, htold⟩)
  | close =>
      have hclose : o.Keeps (Told I) q d.closeEvents d.close.session := by
        rw [Driven.closeEvents, Driven.close]
        split
        · rename_i hphase
          simp only [Session.perform, Session.close, hphase, if_true] at hI
          exact Keeps.nil ⟨hI, hpending⟩
        · exact h.settle hI
      exact hclose.mono fun q' hI' => hI'.returned
  | queueSend | sendFrame => exact h.queuedDriven fuel rfl hpending hI

theorem performDriven (h : o.PreservesOver P I) (fuel : Nat) (hH : ∀ i, Handler.Spares (P i) H)
    (c : Call) (hI : Told I q d.session) :
    o.Keeps (Returned I) q (d.performEvents fuel c) (d.perform fuel c) := by
  -- behind the events inside, the call returns
  have hreturn : ∀ {q' answer} {d' : Driven H T}, Returned I q' (some (answer, d')) →
      o.Keeps (Returned I) q' [.returned c answer d'.session] (some (answer, d')) := by
    intro q' answer d' hI'
    have htold := hI' answer d' rfl
    exact (h.returned htold.1).mono fun q₁ hI₁ => Told.returned ⟨hI₁, htold.2⟩
  rw [Driven.performEvents]
  cases hpass : c.isPass with
  | true =>
      have hinner := fun q' hI' => h.passDriven fuel hH hpass (d := d) (q := q') ⟨hI', hI.2⟩
      cases hperform : d.perform fuel c with
      | none =>
          rw [hperform] at hinner
          exact (h.started hpass hI.1).cons hinner
      | some r =>
          rw [hperform] at hinner
          refine (h.started hpass hI.1).cons fun q' hI' => ?_
          exact (hinner q' hI').append fun q₁ hI₁ => hreturn hI₁
  | false =>
      have hinner := fun q' hI' => h.doneDriven fuel hpass (q := q') hI.2 hI'
      rcases answer_of_done d fuel hpass with ⟨d', hperform⟩
      rw [hperform] at hinner ⊢
      refine (h.called hpass hI.1).cons fun q' hI' => ?_
      exact (hinner q' hI').append fun q₁ hI₁ => hreturn hI₁

theorem work (h : o.PreservesOver P I) (fuel : Nat) (hH : ∀ i, Handler.Spares (P i) H)
    {step : Driven.Step H T} (hstep : ∀ i, step.SparesTransport (P i))
    (hI : Told I q d.session) :
    o.Keeps (Done I) q (d.workEvents fuel step) (d.step fuel step) := by
  cases step with
  | call c =>
      refine (h.performDriven fuel hH c hI).mono fun q' hI' => ?_
      intro d' hd
      rcases Option.map_eq_some_iff.mp hd with ⟨⟨answer, d₁⟩, hperform, rfl⟩
      exact hI' answer d₁ hperform
  | visit f =>
      refine (h.callback rfl (.inl rfl) (fun i => hstep i d.handler) (·.2) hI).mono fun q' hI' => ?_
      rintro d' ⟨⟩
      exact hI'
  | editHandler f =>
      refine Keeps.nil ?_
      rintro d' ⟨⟩
      exact hI
  | editRecvBuffer f =>
      refine Keeps.nil ?_
      rintro d' ⟨⟩
      exact ⟨h.rest (f d.session.recvBuffer) d.session.now d.session.lastActive hI.1, hI.2⟩
  | wait now =>
      refine Keeps.nil ?_
      rintro d' ⟨⟩
      exact ⟨h.rest d.session.recvBuffer now d.session.lastActive hI.1, hI.2⟩
  | editTransport f =>
      refine Keeps.nil ?_
      rintro d' ⟨⟩
      exact ⟨h.moved hstep hI.1, hI.2⟩

theorem step (h : o.PreservesOver P I) (fuel : Nat) (hH : ∀ i, Handler.Spares (P i) H)
    {step : Driven.Step H T} (hstep : ∀ i, step.SparesTransport (P i))
    (hI : Told I q d.session) :
    o.Keeps (Done I) q (d.stepEvents fuel step) (d.step fuel step) := by
  rw [Driven.stepEvents]
  refine (h.work fuel hH hstep hI).append fun q' hI' => ?_
  cases hnext : d.step fuel step with
  | none => exact Keeps.nil (by rintro d' ⟨⟩)
  | some d' =>
      rcases hI' d' hnext with ⟨hI₁, hpending⟩
      refine (h.idle hpending hI₁).mono fun q₁ hI₂ => ?_
      rintro d₁ ⟨⟩
      exact ⟨hI₂, hpending⟩

/-- A run in which everybody keeps `P` of the transport who reaches for it. -/
theorem keeps_trace (h : o.PreservesOver P I) (fuel : Nat) (hH : ∀ i, Handler.Spares (P i) H)
    {steps : List (Driven.Step H T)} (hsteps : ∀ step ∈ steps, ∀ i, step.SparesTransport (P i))
    (hI : Told I q d.session) :
    o.Keeps (Done I) q (d.trace fuel steps) (steps.foldlM (Driven.step fuel) d) :=
  Keeps.trace (fun hstep hI => h.step fuel hH hstep hI) hsteps hI

end Observer.PreservesOver

namespace Observer.Preserves

variable {H : Type} [Handler T H] {o : Observer σ T} {I : σ → Session T → Prop} {q : σ}
  {d : Driven H T}

/-- A step, with whatever the handler does. -/
theorem step (h : o.Preserves I) (fuel : Nat) (step : Driven.Step H T)
    (hI : Told I q d.session) :
    o.Keeps (Done I) q (d.stepEvents fuel step) (d.step fuel step) :=
  h.over.step fuel nofun nofun hI

/-- A run, with whatever the handler does. -/
theorem keeps_trace (h : o.Preserves I) (fuel : Nat) (steps : List (Driven.Step H T))
    (hI : Told I q d.session) :
    o.Keeps (Done I) q (d.trace fuel steps) (steps.foldlM (Driven.step fuel) d) :=
  h.over.keeps_trace fuel nofun (fun _ _ => nofun) hI

/-- As long as the events of a run are as assumed, they are all as demanded. -/
theorem accepts_trace (h : o.Preserves I) (fuel : Nat) (steps : List (Driven.Step H T))
    (hI : Told I q d.session) (hassumed : ∀ e ∈ d.trace fuel steps, o.assumes e) :
    o.Accepts q (d.trace fuel steps) :=
  (h.keeps_trace fuel steps hI hassumed).1

end Observer.Preserves
end TcpReactor.Session
