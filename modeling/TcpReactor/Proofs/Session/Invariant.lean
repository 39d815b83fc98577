import TcpReactor.Proofs.Session.Observer

namespace TcpReactor.Session

/-! # Invariants of sessions

What a session does by itself may keep a property of it. Then everything keeps it that is done with
the session, as long as the callbacks do not break it where they reach into the session themselves,
that is, where they change its recv buffer or its transport.

* `Invariant` lists what has to be shown of such a property, `Program.Keeps` and `Handler.Respects`
  what is asked of the callbacks. While the handler is busy, less happens to the session (`Stable`).
* `Invariant.keeps_trace`: then every run keeps the property, and every call in the run finds the
  session with it.
-/

variable {T : Type} [Transport T]

/-- What a session does by itself keeps `K`. -/
structure Invariant (K : Session T → Prop) : Prop where
  receive : ∀ {s} received, K s → K (s.receive received).2
  sendOnce : ∀ {s}, K s → K s.sendOnce.2
  openUp : ∀ {s}, K s → K s.openUp.2
  close : ∀ {s}, K s → K s.close
  queueSend : ∀ {s} data, K s → K (s.queueSend data).2
  sendFrame : ∀ {s} payload, K s → K (s.sendFrame payload).2
  atTime : ∀ {s} now, K s → K (s.atTime now)
  /-- The handler has been told of the close. -/
  toldClose : ∀ {s}, K s → K { s with closePending := false }
  /-- The handler has been told whether something is queued. -/
  toldInterest : ∀ {s} writeInterest, K s → K { s with writeInterest }

/-- What a session does while its handler is busy keeps `K`. It receives and sends only while it is
open. -/
structure Stable (K : Session T → Prop) : Prop where
  receive : ∀ {s} received, s.isOpen = true → K s → K (s.receive received).2
  sendOnce : ∀ {s}, s.isOpen = true → K s → K s.sendOnce.2
  openUp : ∀ {s}, K s → K s.openUp.2
  close : ∀ {s}, K s → K s.close
  queueSend : ∀ {s} data, K s → K (s.queueSend data).2
  sendFrame : ∀ {s} payload, K s → K (s.sendFrame payload).2

/-- Where the program reaches into the session itself, it keeps `K`. -/
def Program.Keeps {T α : Type} (K : Session T → Prop) : Program T α → Prop
  | .done _ => True
  | .look next => ∀ s, K s → (next s).Keeps K
  | .call _ next => ∀ answer, (next answer).Keeps K
  | .editRecvBuffer f next =>
      (∀ s, K s → K { s with recvBuffer := f s.recvBuffer }) ∧ next.Keeps K
  | .editTransport f next =>
      (∀ s, K s → K { s with transport := f s.transport }) ∧ next.Keeps K

omit [Transport T] in
theorem Program.Keeps.bind {α β : Type} {K : Session T → Prop} {p : Program T α}
    {f : α → Program T β} (hp : p.Keeps K) (hf : ∀ a, (f a).Keeps K) : (p.bind f).Keeps K := by
  induction p with
  | done a => exact hf a
  | look next ih => exact fun s hs => ih s (hp s hs)
  | call c next ih => exact fun answer => ih answer (hp answer)
  | editRecvBuffer g next ih | editTransport g next ih => exact ⟨hp.1, ih hp.2⟩

namespace Stable

variable {K : Session T → Prop} {s : Session T}

theorem sendAll (h : Stable K) (hopen : s.isOpen = true) (hs : K s) : K s.sendAll.2 := by
  -- each round starts with one attempt to send, whatever becomes of it
  have hsent {s s' : Session T} {step : SendStep} (hopen : s.isOpen = true) (hs : K s)
      (hsend : s.sendOnce = (step, s')) : K s' := by
    have hs' := h.sendOnce hopen hs
    rwa [hsend] at hs'
  induction s using Session.sendAll.induct with
  | case1 s s' hsend
  | case2 s s' hsend =>
      rw [sendAll_eq, hsend]
      exact hsent hopen hs hsend
  | case3 s e s' hsend =>
      rw [sendAll_eq, hsend]
      exact h.close (hsent hopen hs hsend)
  | case4 s n s' hsend hopen' ih =>
      rw [sendAll_eq, hsend]
      simp only [hopen', if_true]
      exact ih hopen' (hsent hopen hs hsend)
  | case5 s n s' hsend hclosed =>
      rw [sendAll_eq, hsend]
      simp only [hclosed]
      exact hsent hopen hs hsend

theorem perform (h : Stable K) (c : Call) (hs : K s) : K (s.perform c).2 := by
  cases c with
  | openUp => exact h.openUp hs
  | close => exact h.close hs
  | queueSend data => exact h.queueSend data hs
  | sendFrame payload => exact h.sendFrame payload hs
  | readable =>
      simp only [Session.perform, Session.readable]
      split
      · have hs' := h.receive 0 ‹_› hs
        rcases hreceive : s.receive 0 with ⟨_ | _ | _, s'⟩
        all_goals rw [hreceive] at hs'
        · exact hs'
        · exact h.close hs'
        · exact h.close hs'
      · exact hs
  | writable =>
      simp only [Session.perform, Session.writable]
      split
      · exact h.sendAll ‹_› hs
      · exact hs

/-- A program of calls. -/
theorem run (h : Stable K) {α : Type} {p : Program T α} (hp : p.Keeps K) (hs : K s) :
    K (p.run s).2 := by
  induction p generalizing s with
  | done a => exact hs
  | look next ih => exact ih s (hp s hs) hs
  | call c next ih => exact ih _ (hp _) (h.perform c hs)
  | editRecvBuffer f next ih | editTransport f next ih => exact ih hp.2 (hp.1 s hs)

end Stable

namespace Program

variable {T α : Type} {P : T → Prop} {K : Session T → Prop} {p : Program T α}

/-- It keeps what does not depend on the recv buffer, and on the transport only as far as `P`
goes. -/
theorem Spares.keeps (hrecv : ∀ s recvBuffer, K s → K { s with recvBuffer })
    (htransport : ∀ s (f : T → T), (∀ t, P t → P (f t)) → K s →
      K { s with transport := f s.transport })
    (hp : p.Spares P) : p.Keeps K := by
  induction p with
  | done a => trivial
  | look next ih => exact fun s _ => ih s (hp s)
  | call c next ih => exact fun answer => ih answer (hp answer)
  | editRecvBuffer f next ih => exact ⟨fun s hs => hrecv s _ hs, ih hp⟩
  | editTransport f next ih => exact ⟨fun s hs => htransport s f hp.1 hs, ih hp.2⟩

/-- It keeps what does not depend on the recv buffer. -/
theorem HandsOff.keeps
    (hK : ∀ s recvBuffer, K s → K { s with recvBuffer }) (hp : p.HandsOff) : p.Keeps K := by
  induction p with
  | done a => trivial
  | look next ih => exact fun s _ => ih s (hp s)
  | call c next ih => exact fun answer => ih answer (hp answer)
  | editRecvBuffer f next ih => exact ⟨fun s hs => hK s _ hs, ih hp⟩
  | editTransport f next => exact hp.elim

end Program

/-- At this event the session is as it should be: a call finds it with `K`, and gets the answer that
the session gives. Nobody is lent the session. -/
def Event.Within (K : Session T → Prop) : Event T → Prop
  | .called c answer s => K s ∧ (c.isPass = false → answer = some (s.perform c).1)
  | .told .visit _ => False
  | _ => True

/-- The observer that demands this of every event. -/
def within (K : Session T → Prop) : Observer Unit T where
  next _ _ := ()
  demands _ e := e.Within K

theorem accepts_within {K : Session T → Prop} {es : List (Event T)} :
    (within K).Accepts () es ↔ ∀ e ∈ es, e.Within K :=
  Observer.accepts_iff_forall

end TcpReactor.Session

namespace TcpReactor

variable {T H : Type} [Transport T] [Handler T H]

/-- Where its callbacks reach into the session themselves, they keep `K`. -/
structure Handler.Respects (H : Type) [Handler T H] (K : Session T → Prop) : Prop where
  onRecv : ∀ h : H, (Handler.onRecv h : Session.Program T H).Keeps K
  onSend : ∀ (h : H) (n : Nat), (Handler.onSend h n : Session.Program T H).Keeps K

/-- Where the owner reaches into the session in a step, it keeps `K`, and the session is not
lent. -/
def Driven.Step.Respects (K : Session T → Prop) : Driven.Step H T → Prop
  | .visit _ => False
  | .editRecvBuffer f => ∀ s, K s → K { s with recvBuffer := f s.recvBuffer }
  | .editTransport f => ∀ s, K s → K { s with transport := f s.transport }
  | _ => True

namespace Session.Invariant

variable {K : Session T → Prop} {q : Unit} {s : Session T}

/-- `K` holds of the session behind some events, and each of them is as demanded. -/
theorem keeps_of_forall {α : Type} {a : α} {I : α → Prop} {es : List (Event T)}
    (hes : ∀ e ∈ es, e.Within K) (hI : I a) :
    (within K).Keeps (fun _ => I) q es a := fun _ => ⟨accepts_within.mpr hes, hI⟩

/-! ## A session whose handler is busy -/

theorem stable (h : Invariant K) : Stable K where
  receive received _ hs := h.receive received hs
  sendOnce _ hs := h.sendOnce hs
  openUp := h.openUp
  close := h.close
  queueSend := h.queueSend
  sendFrame := h.sendFrame

theorem perform (h : Invariant K) (c : Call) (hs : K s) : K (s.perform c).2 :=
  h.stable.perform c hs

theorem within_of_asks {e : Event T} (h : e.asks = true) : e.Within K := by
  cases e with
  | sent | received => trivial
  | _ => cases h

theorem performEvents (hs : K s) (c : Call) : ∀ e ∈ s.performEvents c, e.Within K := by
  rw [Session.performEvents, List.forall_mem_cons, List.forall_mem_append]
  refine ⟨⟨hs, fun _ => rfl⟩, fun e he => within_of_asks (s.asks_passEvents c e he), ?_⟩
  exact List.forall_mem_singleton.mpr trivial

/-- A program of calls. -/
theorem program (h : Invariant K) {α : Type} {p : Program T α} (hp : p.Keeps K) (hs : K s) :
    (within K).Keeps (fun _ => K) q (p.events s) (p.run s).2 := by
  induction p generalizing s with
  | done a => exact Observer.Keeps.nil hs
  | look next ih => exact ih s (hp s hs) hs
  | call c next ih =>
      rw [Program.events, Program.run]
      exact (keeps_of_forall (performEvents hs c) (h.perform c hs)).append fun _ hs' =>
        ih _ (hp _) hs'
  | editRecvBuffer f next ih | editTransport f next ih => exact ih hp.2 (hp.1 s hs)

/-! ## A session that is driven from outside -/

variable {d : Driven H T} {fuel : Nat}

theorem syncInterest (h : Invariant K) (hd : K d.session) :
    (within K).Keeps (fun _ d => K d.session) q d.syncInterestEvents d.syncInterest := by
  rw [Driven.syncInterestEvents, Driven.syncInterest]
  split
  · exact Observer.Keeps.single fun _ => ⟨trivial, h.toldInterest _ hd⟩
  · exact Observer.Keeps.nil hd

theorem settle (h : Invariant K) (hd : K d.session) :
    (within K).Keeps (fun _ d => K d.session) q d.settleEvents d.settle := by
  rw [Driven.settleEvents, Driven.settle]
  split
  · have htold : (within K).Keeps (fun _ => K) q
        [.told .close { d.session with closePending := false }]
        { d.session with closePending := false } :=
      Observer.Keeps.single fun _ => ⟨trivial, h.toldClose hd⟩
    exact htold.cons fun _ hs => h.syncInterest hs
  · exact h.syncInterest hd

/-- What follows the start of a callback. -/
theorem callback (h : Invariant K) {α : Type} {p : Program T α} (hp : p.Keeps K)
    (handler : α → H) (hd : K d.session) :
    (within K).Keeps (fun _ d => K d.session) q
      (p.events d.session ++ Driven.settleEvents
        { session := (p.run d.session).2, handler := handler (p.run d.session).1 })
      (Driven.settle
        { session := (p.run d.session).2, handler := handler (p.run d.session).1 }) :=
  (h.program hp hd).append fun _ hs => h.settle hs

theorem notify (h : Invariant K) {n : Notice} (hn : n ≠ .visit) {f : H → Program T H}
    (hf : (f d.handler).Keeps K) (hd : K d.session) :
    (within K).Keeps (fun _ d => K d.session) q (d.notifyEvents n f) (d.notify f) := by
  have htold : (within K).Keeps (fun _ => K) q [.told n d.session] d.session := by
    refine Observer.Keeps.single fun _ => ⟨?_, hd⟩
    cases n with
    | visit => exact absurd rfl hn
    | _ => trivial
  exact htold.cons fun _ hs => h.callback hf id hs

theorem closeDriven (h : Invariant K) (hd : K d.session) :
    (within K).Keeps (fun _ d => K d.session) q d.closeEvents d.close := by
  rw [Driven.closeEvents, Driven.close]
  split
  · exact Observer.Keeps.nil hd
  · exact h.settle (h.close hd)

theorem readableDriven (h : Invariant K) (hH : Handler.Respects H K) (hd : K d.session) :
    (within K).Keeps (fun _ d => K d.session) q d.readableEvents d.readable.2 := by
  rw [Driven.readableEvents, Driven.readable]
  split
  · have hreceive : (within K).Keeps (fun _ => K) q d.session.receiveEvents
        (d.session.receive 0).2 :=
      keeps_of_forall (fun e he => within_of_asks (d.session.asks_receiveEvents e he))
        (h.receive 0 hd)
    refine hreceive.append fun _ hs => ?_
    -- the pass has received what there is; now the handler is told, or the session closes, or both
    rcases hresult : d.session.receive 0 with ⟨_ | received | _, s⟩
    all_goals rw [hresult] at hs
    · exact h.notify (by simp) (hH.onRecv _) hs
    · dsimp only
      split
      · exact (h.notify (by simp) (hH.onRecv _) hs).append fun _ hd' => h.closeDriven hd'
      · exact h.closeDriven hs
    · exact h.closeDriven hs
  · exact Observer.Keeps.nil hd

theorem sendAllDriven (h : Invariant K) (hH : Handler.Respects H K)
    (hopen : d.session.isOpen = true) (hd : K d.session) :
    (within K).Keeps (Observer.Answered fun _ d => K d.session) q
      (d.sendAllEvents fuel) (d.sendAll fuel) := by
  refine Observer.Keeps.sendAll (S := fun _ _ d => K d.session) ?_ ?_ ?_ ?_ hopen hd
  · intro q d _ hd
    exact keeps_of_forall (I := fun r : SendStep × Session T => K r.2)
      (fun e he => within_of_asks (d.session.asks_sendOnceEvents e he)) (h.sendOnce hd)
  · exact fun _ hd => h.syncInterest hd
  · exact fun hd => h.closeDriven hd
  · exact fun hd => h.notify (by simp) (hH.onSend _ _) hd

theorem queuedDriven (h : Invariant K) {c : Call} (hc : c.queues = true) (hd : K d.session) :
    (within K).Keeps (Observer.Answered fun _ d => K d.session) q
      (d.passEvents fuel c) (d.perform fuel c) := by
  have hs := h.perform c hd
  rw [Driven.passEvents_of_queues fuel d hc, Driven.perform_of_queues fuel d hc]
  rcases hqueue : d.session.perform c with ⟨_ | _, s⟩
  all_goals rw [hqueue] at hs
  · exact Observer.Keeps.nil (.some hs)
  · exact (h.syncInterest (d := { d with session := s }) hs).mono fun _ hd' => .some hd'

/-- The events inside a call. -/
theorem passDriven (h : Invariant K) (fuel : Nat) (hH : Handler.Respects H K) (c : Call)
    (hd : K d.session) :
    (within K).Keeps (Observer.Answered fun _ d => K d.session) q
      (d.passEvents fuel c) (d.perform fuel c) := by
  cases c with
  | openUp => exact Observer.Keeps.nil (.some (h.openUp hd))
  | close => exact (h.closeDriven hd).mono fun _ hd' => .some hd'
  | readable => exact (h.readableDriven hH hd).mono fun _ hd' => .some hd'
  | writable =>
      simp only [Driven.passEvents, Driven.perform, Driven.writable]
      split
      · exact h.sendAllDriven hH ‹_› hd
      · exact Observer.Keeps.nil (.some hd)
  | queueSend | sendFrame => exact h.queuedDriven rfl hd

theorem performDriven (h : Invariant K) (hH : Handler.Respects H K) (c : Call)
    (hd : K d.session) :
    (within K).Keeps (Observer.Answered fun _ d => K d.session) q
      (d.performEvents fuel c) (d.perform fuel c) := by
  have hinner := h.passDriven (q := ()) fuel hH c hd
  -- what is demanded of a call that is done at once is the answer that the session gives
  have hanswer : c.isPass = false → ∃ d', d.perform fuel c = some ((d.session.perform c).1, d') :=
    Observer.Preserves.answer_of_done d fuel
  rw [Driven.performEvents]
  cases hperform : d.perform fuel c with
  | none =>
      rw [hperform] at hinner hanswer
      have hcalled : (within K).Keeps (fun _ _ => True) q [.called c none d.session] () := by
        refine Observer.Keeps.single fun _ => ⟨⟨hd, fun hdone => ?_⟩, trivial⟩
        rcases hanswer hdone with ⟨d', h'⟩
        cases h'
      exact hcalled.cons fun _ _ => hinner
  | some r =>
      rw [hperform] at hinner hanswer
      have hcalled : (within K).Keeps (fun _ _ => True) q [.called c (some r.1) d.session] () := by
        refine Observer.Keeps.single fun _ => ⟨⟨hd, fun hdone => ?_⟩, trivial⟩
        rcases hanswer hdone with ⟨d', h'⟩
        cases h'
        rfl
      refine hcalled.cons fun _ _ => hinner.append fun _ hd' => ?_
      exact Observer.Keeps.single fun _ => ⟨trivial, hd'⟩

theorem step (h : Invariant K) (hH : Handler.Respects H K) {step : Driven.Step H T}
    (hstep : step.Respects K) (hd : K d.session) :
    (within K).Keeps (Observer.Reached fun _ d => K d.session) q
      (d.stepEvents fuel step) (d.step fuel step) := by
  -- the events inside the step; behind them there is only the one that shows the session idle
  have hwork : (within K).Keeps (Observer.Reached fun _ d => K d.session) q
      (d.workEvents fuel step) (d.step fuel step) := by
    cases step with
    | call c =>
        refine (h.performDriven hH c hd).mono fun q' hanswered => ?_
        intro d' hd'
        rcases Option.map_eq_some_iff.mp hd' with ⟨⟨answer, d₁⟩, hperform, rfl⟩
        exact hanswered answer d₁ hperform
    | visit f => exact hstep.elim
    | editHandler f =>
        refine Observer.Keeps.nil ?_
        rintro d' ⟨⟩
        exact hd
    | editRecvBuffer f | editTransport f =>
        refine Observer.Keeps.nil ?_
        rintro d' ⟨⟩
        exact hstep _ hd
    | wait now =>
        refine Observer.Keeps.nil ?_
        rintro d' ⟨⟩
        exact h.atTime now hd
  rw [Driven.stepEvents]
  refine hwork.append fun _ hreached => ?_
  cases hnext : d.step fuel step with
  | none => exact Observer.Keeps.nil (by rintro d' ⟨⟩)
  | some d' =>
      rw [hnext] at hreached
      exact Observer.Keeps.single fun _ => ⟨trivial, hreached⟩

/-- A run keeps the property, and every call in it finds the session with it. -/
theorem keeps_trace (h : Invariant K) (fuel : Nat) (hH : Handler.Respects H K)
    {steps : List (Driven.Step H T)} (hsteps : ∀ step ∈ steps, step.Respects K)
    (hd : K d.session) :
    (within K).Keeps (Observer.Reached fun _ d => K d.session) q
      (d.trace fuel steps) (steps.foldlM (Driven.step fuel) d) :=
  Observer.Keeps.trace (fun hstep hd => h.step hH hstep hd) hsteps hd

end Session.Invariant
end TcpReactor
