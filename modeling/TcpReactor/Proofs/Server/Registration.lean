import TcpReactor.Proofs.Server.Register
import TcpReactor.Proofs.Session.KnownInterest

namespace TcpReactor

/-! # The registrations of a server

With each connection a server keeps what its poller watches the socket for. It changes this only
when the session tells that its interest has changed. Here it is shown that this is enough: between
two steps of a server every connection in the table is watched for what it has to do
(`Server.inStep_runActs`), if nobody opens a socket again that was closed.
-/

/-- No callback of the protocol opens a socket again that was closed. -/
structure Protocol.LeavesClosed (P W : Type) [Protocol P W] : Prop where
  onRecv : ∀ (p : P) (w : W), (Protocol.onRecv p w).Spares Socket.Closed
  onSend : ∀ (p : P) (w : W) (n : Nat), (Protocol.onSend p w n).Spares Socket.Closed

theorem Protocol.Tame.leavesClosed {P W : Type} [Protocol P W] (hP : Protocol.Tame P W) :
    Protocol.LeavesClosed P W where
  onRecv p w := (hP.onRecv p w).spares
  onSend p w n := (hP.onSend p w n).spares

/-- In this registration the interest `on` is noted. -/
def Link.Notes {P : Type} (l : Link P) (on : Bool) : Prop := l.interest = .ofPending on

namespace Server

/-- Nobody opens a socket again in this step that was closed. -/
def Step.LeavesClosed : Step → Prop
  | .visit _ _ program => program.Spares Socket.Closed
  | .network f _ => ∀ id t, Socket.Closed t → Socket.Closed (f id t)
  | _ => True

variable {P W : Type} {s s' : Server P W} {fuel now slot : Nat} {id : ConnId}
  {c : Connection P} {d d' : Driven (Served P W) Socket}

/-! ## The table -/

/-- The registration of a connection is in step with its session. -/
def Attended (c : Connection P) : Prop := c.session.InStep Socket.Closed c.link.Notes

/-- The same while the connection is out of the table. -/
def Lent (d : Driven (Served P W) Socket) : Prop :=
  d.session.InStep Socket.Closed d.handler.link.Notes

theorem lent_lend (h : Attended c) (s : Server P W) (now : Nat) : Lent (s.lend c now) :=
  h.atTime now

/-- Every connection in the table is attended to. -/
def InStep (s : Server P W) : Prop :=
  ∀ key c, s.connections.get? key = some c → Attended c

theorem InStep.of_eq (h : s.InStep) (hconnections : s'.connections = s.connections) :
    s'.InStep := by
  intro key c hget
  rw [hconnections] at hget
  exact h key c hget

/-- In some slots there is what is attended to, or nothing, and the others are as they were. -/
theorem InStep.of_ite (h : s.InStep) {changed : Nat → Prop} [DecidablePred changed]
    {c? : Option (Connection P)} (hget : ∀ key, s'.connections.get? key =
      if changed key then c? else s.connections.get? key)
    (hc : ∀ c, c? = some c → Attended c) : s'.InStep := by
  intro key c hkey
  rw [hget] at hkey
  by_cases hchanged : changed key
  · rw [if_pos hchanged] at hkey
    exact hc c hkey
  · rw [if_neg hchanged] at hkey
    exact h key c hkey

theorem InStep.putBack (h : s.InStep) (hget : s.connections.get? slot = some c) (hd : Lent d) :
    (s.putBack slot d).InStep := by
  refine h.of_ite (fun key => Slots.get?_set hget) ?_
  rintro c' ⟨⟩
  exact hd

theorem InStep.remove (h : s.InStep) (slot : Nat) : (s.remove slot).InStep := by
  have hget (key : Nat) : (s.remove slot).connections.get? key =
      if key = slot then none else s.connections.get? key := by
    rw [connections_remove]
    exact Slots.get?_remove
  exact h.of_ite hget (by simp)

theorem InStep.move (h : s.InStep) {f : ConnId → Socket → Socket}
    (hf : ∀ id t, Socket.Closed t → Socket.Closed (f id t))
    (pending : List (Except IoError Socket)) : (s.move f pending).InStep := by
  intro key c hget
  rw [Server.move, Slots.get?_map] at hget
  obtain ⟨c', hget', rfl⟩ := Option.map_eq_some_iff.mp hget
  exact (h key c' hget').editTransport (hf c'.link.id)

/-! ## What a connection does -/

variable [Protocol P W]

theorem spares_served (hP : Protocol.LeavesClosed P W) :
    Handler.Spares Socket.Closed (Served P W) where
  onRecv h := (hP.onRecv h.link.protocol h.shared).bind fun _ => trivial
  onSend h n := (hP.onSend h.link.protocol h.shared n).bind fun _ => trivial

theorem follows_served : Handler.Follows Socket fun h : Served P W => h.link.Notes where
  onRecv := by
    intro h on s hnotes
    show (((Protocol.onRecv h.link.protocol h.shared).bind fun r =>
      .done (h.resume r)).run s).1.link.Notes on
    rw [Session.Program.run_bind]
    exact hnotes
  onSend := by
    intro h n on s hnotes
    show (((Protocol.onSend h.link.protocol h.shared n).bind fun r =>
      .done (h.resume r)).run s).1.link.Notes on
    rw [Session.Program.run_bind]
    exact hnotes
  onClose hnotes := hnotes
  onInterest _ := rfl

theorem lent_react (hP : Protocol.LeavesClosed P W) {r : Readiness} (h : Lent d)
    (hreact : react fuel r d = some d') : Lent d' := by
  rw [react_eq] at hreact
  exact h.run_calls Socket.final_closed (spares_served hP) follows_served (calls_reactSteps r d)
    hreact

theorem lent_exec (hP : Protocol.LeavesClosed P W) {α : Type} {p : Session.Program Socket α}
    {a : α} (hp : p.Spares Socket.Closed) (h : Lent d) (hexec : d.exec fuel p = some (a, d')) :
    Lent d' := by
  have hrun : (Driven.execSteps fuel p d).foldlM (Driven.step fuel) d = some d' := by
    rw [← Driven.exec_eq, hexec]
    rfl
  exact ⟨(Driven.known_invariant Socket.final_closed (spares_served hP) follows_served).exec hp
    h.known hexec, Driven.settled_run h.settled hrun⟩

/-! ## What the server does -/

/-- Those that are not evicted stay as they are. -/
theorem InStep.evictAll (h : s.InStep) (now : Nat) (slots : List Nat) :
    (s.evictAll now slots).InStep :=
  h.of_ite (fun key => get?_evictAll s now slots key) (by simp)

theorem InStep.stop (h : s.InStep) (now : Nat) : (s.stop now).InStep := by
  have hstopped : InStep { s with running := false } := h.of_eq rfl
  exact (hstopped.evictAll now s.usedSlots).of_eq (connections_stop s now)

theorem InStep.dispatch (hP : Protocol.LeavesClosed P W) (h : s.InStep) {e : Event}
    (hdispatch : s.dispatch fuel now e = some s') : s'.InStep := by
  unfold Server.dispatch at hdispatch
  dsimp only at hdispatch
  cases hfind : s.connection? (ConnId.ofKey e.key) with
  | none =>
      rw [hfind] at hdispatch
      cases hdispatch
      exact h
  | some c =>
      rw [hfind] at hdispatch
      obtain ⟨d, hreact, hrest⟩ := Option.bind_eq_some_iff.mp hdispatch
      have hget := (connection?_eq_some.mp hfind).1
      have hput := h.putBack hget (lent_react hP (lent_lend (h _ c hget) s now) hreact)
      cases hrest
      -- a connection that has closed leaves the table
      split
      · exact hput
      · exact hput.remove _

theorem InStep.exec (hP : Protocol.LeavesClosed P W) {α : Type}
    {program : Session.Program Socket α} {answer : Option α}
    (hprogram : program.Spares Socket.Closed) (h : s.InStep)
    (hexec : s.exec fuel now id program = some (answer, s')) : s'.InStep := by
  unfold Server.exec at hexec
  cases hfind : s.connection? id with
  | none =>
      rw [hfind] at hexec
      cases hexec
      exact h
  | some c =>
      rw [hfind] at hexec
      obtain ⟨⟨a, d⟩, hrun, hrest⟩ := Option.bind_eq_some_iff.mp hexec
      have hget := (connection?_eq_some.mp hfind).1
      cases hrest
      -- only the slot of the connection changes, and what is put there stayed in step while lent
      exact h.putBack hget (lent_exec hP hprogram (lent_lend (h _ c hget) s now) hrun)

/-! ## Newcomers -/

/-- A newcomer is watched for read readiness, and has nothing to send yet. -/
theorem InStep.enroll (hthreaded : ∃ frees, s.connections.Threaded frees) (h : s.InStep)
    (hpending : c.session.closePending = false) (hinterest : c.link.interest = .readable)
    (now : Nat) : (s.enroll now c).InStep := by
  obtain ⟨frees, hthreaded⟩ := hthreaded
  unfold Server.enroll
  rcases hopen : c.session.openUp with ⟨e | _, session⟩
  · exact h.of_eq rfl
  dsimp only
  by_cases hwatchable : c.session.transport.watchable = true
  · -- the newcomer takes the next slot, and nothing was told of it yet
    rw [if_pos hwatchable]
    refine h.of_ite (fun key => Slots.get?_insert hthreaded) ?_
    rintro c' ⟨⟩
    exact .of_openUp hpending hopen hinterest
  · rw [if_neg hwatchable]
    exact h.of_eq rfl

theorem InStep.addConnection (hthreaded : ∃ frees, s.connections.Threaded frees) (h : s.InStep)
    (now : Nat) (socket : Socket) : (s.addConnection now socket).InStep := by
  rw [addConnection_eq]
  cases s.nextId? with
  | none => exact h.of_eq rfl
  | some id =>
      exact InStep.enroll (s := (s.prepare now socket id).2) hthreaded (h.of_eq rfl) rfl rfl now

theorem InStep.acceptAll (hthreaded : ∃ frees, s.connections.Threaded frees) (h : s.InStep)
    (now fuel : Nat) : (s.acceptAll now fuel).InStep := by
  -- on the sockets accepted; a table in good order stays so, which the next insertion needs
  induction fuel generalizing s with
  | zero => exact h
  | succ fuel ih =>
      unfold Server.acceptAll
      cases s.listener with
      | none => exact h
      | some listener =>
          dsimp only
          rcases listener.accept with ⟨_ | ⟨_ | socket⟩, listener'⟩
          · exact h.of_eq rfl
          · exact h.of_eq rfl
          · have hlistening : InStep { s with listener := some listener' } := h.of_eq rfl
            obtain ⟨frees, hfrees⟩ := hthreaded
            exact ih ((evolves_addConnection _ now socket).threaded hfrees)
              (InStep.addConnection (s := { s with listener := some listener' }) ⟨frees, hfrees⟩
                hlistening now socket)

/-! ## Runs -/

theorem inStep_step (hP : Protocol.LeavesClosed P W) {step : Step} (hstep : step.LeavesClosed)
    (hthreaded : ∃ frees, s.connections.Threaded frees) (h : s.InStep)
    (hs' : s.step fuel step = some s') : s'.InStep := by
  cases step with
  | start bound =>
      cases hs'
      refine h.of_eq ?_
      unfold Server.start
      repeat' split
      all_goals rfl
  | stop now =>
      cases hs'
      exact h.stop now
  | sweep now =>
      cases hs'
      split
      · exact h.evictAll now (s.idleSlots now)
      · exact h
  | visit now id program =>
      obtain ⟨⟨answer, _⟩, hexec, rfl⟩ := Option.map_eq_some_iff.mp hs'
      exact h.exec hP hstep hexec
  | network f pending =>
      cases hs'
      exact h.move hstep pending
  | event now e =>
      rw [Server.step] at hs'
      split at hs'
      · rw [dispatchAll] at hs'
        split at hs'
        · cases hs'
          exact h.acceptAll hthreaded now _
        · obtain ⟨_, hdispatch, hrest⟩ := Option.bind_eq_some_iff.mp hs'
          cases hrest
          exact h.dispatch hP hdispatch
      · cases hs'
        exact h

/-! ## Owners that reach for handlers -/

/-- The owner lets the protocol of a connection run a program on it, as if it were a callback. -/
def lendOut (s : Server P W) (now : Nat) (id : ConnId)
    (f : P → W → Session.Program Socket (P × W)) : Server P W :=
  match s.connection? id with
  | none => s
  | some c =>
      s.putBack id.slot.toNat ((s.lend c now).withHandler fun h =>
        (f h.link.protocol h.shared).bind fun r => .done ((), h.resume r)).2

/-- All that can happen to a server. An owner may just change the protocol of a connection: then the
program makes no calls. -/
inductive Act (P W : Type) where
  | step (step : Step)
  | lendOut (now : Nat) (id : ConnId) (f : P → W → Session.Program Socket (P × W))

/-- Nobody opens a socket again meanwhile that was closed. -/
def Act.LeavesClosed : Act P W → Prop
  | .step e => e.LeavesClosed
  | .lendOut _ _ f => ∀ p w, (f p w).Spares Socket.Closed

def act (fuel : Nat) (s : Server P W) : Act P W → Option (Server P W)
  | .step step => s.step fuel step
  | .lendOut now id f => some (s.lendOut now id f)

/-- Let things happen one after the other. -/
def runActs (fuel : Nat) (s : Server P W) (acts : List (Act P W)) : Option (Server P W) :=
  acts.foldlM (act fuel) s

theorem InStep.lendOut (hP : Protocol.LeavesClosed P W)
    {f : P → W → Session.Program Socket (P × W)} (hf : ∀ p w, (f p w).Spares Socket.Closed)
    (h : s.InStep) (now : Nat) (id : ConnId) : (s.lendOut now id f).InStep := by
  unfold Server.lendOut
  cases hfind : s.connection? id with
  | none => exact h
  | some c =>
      have hget := (connection?_eq_some.mp hfind).1
      have hlent : Lent (s.lend c now) := lent_lend (h _ c hget) s now
      refine h.putBack hget (hlent.withHandler Socket.final_closed (spares_served hP) follows_served
        ((hf _ _).bind fun _ => trivial) ?_)
      intro session on hnotes
      rw [Session.Program.run_bind]
      exact hnotes

theorem threaded_act {act : Act P W} (h : ∃ frees, s.connections.Threaded frees)
    (hs' : s.act fuel act = some s') : ∃ frees, s'.connections.Threaded frees := by
  obtain ⟨frees, hfrees⟩ := h
  cases act with
  | step step => exact (evolves_step hs').threaded hfrees
  | lendOut now id f =>
      cases hs'
      unfold Server.lendOut
      cases s.connection? id with
      | none => exact ⟨frees, hfrees⟩
      | some c => exact ⟨_, Slots.threaded_set hfrees⟩

theorem inStep_act (hP : Protocol.LeavesClosed P W) {act : Act P W} (hact : act.LeavesClosed)
    (hthreaded : ∃ frees, s.connections.Threaded frees) (h : s.InStep)
    (hs' : s.act fuel act = some s') : s'.InStep := by
  cases act with
  | step step => exact inStep_step hP hact hthreaded h hs'
  | lendOut now id f =>
      cases hs'
      exact h.lendOut hP hact now id

theorem inStep_runActs (hP : Protocol.LeavesClosed P W) {acts : List (Act P W)}
    (hacts : ∀ act ∈ acts, act.LeavesClosed)
    (hthreaded : ∃ frees, s.connections.Threaded frees) (h : s.InStep)
    (hrun : s.runActs fuel acts = some s') : s'.InStep := by
  have hkeeps {s s' : Server P W} {act : Act P W} (hact : act.LeavesClosed)
      (h : (∃ frees, s.connections.Threaded frees) ∧ s.InStep) (hs' : s.act fuel act = some s') :
      (∃ frees, s'.connections.Threaded frees) ∧ s'.InStep :=
    ⟨threaded_act h.1 hs', inStep_act hP hact h.1 h.2 hs'⟩
  exact (foldlM_keeps hkeeps hacts ⟨hthreaded, h⟩ hrun).2

end Server
end TcpReactor
