import TcpReactor.Proofs.Client.Callbacks
import TcpReactor.Proofs.Session.KnownInterest

namespace TcpReactor

/-! # The registration of a client

While a connect is in progress the socket is watched in both directions, and the client ignores what
the session tells of its interest. So when the connect completes, the registration is made anew from
what the send buffer holds by then, and from there on the session's word is taken. Here it is shown
that nothing gets lost between the two: after every step of a client its session is watched for what
it has to do (`Client.inStep_runActs`), if nobody opens a socket again that was closed.
-/

/-- No callback of the application opens a socket again that was closed. -/
structure ClientApp.LeavesClosed (A : Type) [ClientApp A] : Prop where
  onConnected : ∀ a : A, (ClientApp.onConnected a).Spares Socket.Closed
  onRecv : ∀ a : A, (ClientApp.onRecv a).Spares Socket.Closed
  onSend : ∀ (a : A) (n : Nat), (ClientApp.onSend a n).Spares Socket.Closed

theorem ClientApp.Tame.leavesClosed {A : Type} [ClientApp A] (hA : ClientApp.Tame A) :
    ClientApp.LeavesClosed A where
  onConnected a := (hA.onConnected a).spares
  onRecv a := (hA.onRecv a).spares
  onSend a n := (hA.onSend a n).spares

/-- In this registration the interest `on` is noted, unless the connect is in progress. -/
def ClientLink.Notes {A : Type} (h : ClientLink A) (on : Bool) : Prop :=
  h.interest = if h.connecting then .both else .ofPending on

namespace Client

open Session (Program)

/-- Nobody opens a socket again in this step that was closed. -/
def Step.LeavesClosed : Step → Prop
  | .network f => ∀ t, Socket.Closed t → Socket.Closed (f t)
  | _ => True

variable {A : Type} {c c' : Client A} {d d' : ClientSession A} {r : Readiness} {fuel now : Nat}

/-- The registration of a session is in step with it. -/
def Attended (d : ClientSession A) : Prop := d.session.InStep Socket.Closed d.handler.Notes

/-- The session, if there is one, is attended to. -/
def InStep (c : Client A) : Prop := ∀ d, c.session = some d → Attended d

theorem InStep.of_no_session (h : c.session = none) : c.InStep := by
  intro d hd
  rw [h] at hd
  cases hd

theorem InStep.of_session (h : c.session = some d) (hd : Attended d) : c.InStep := by
  intro d' hd'
  rw [h] at hd'
  cases hd'
  exact hd

theorem InStep.of_eq (h : c.InStep) (hsession : c'.session = c.session) : c'.InStep := by
  intro d hd
  rw [hsession] at hd
  exact h d hd

/-- When the connect completes, the interest is noted of which the session would tell next. -/
theorem Attended.established (h : Attended d) : Attended (established d) where
  settled := h.settled
  known := by
    refine ⟨h.known.closed, fun hopened => ?_⟩
    show Interest.ofPending d.session.hasPendingSend = .ofPending d.session.writeInterest
    rw [h.settled.synced hopened]

/-- The question how the connect turned out leaves a closed socket closed. -/
theorem Attended.asked (h : Attended d) : Attended (asked d) := by
  refine h.editTransport (f := (·.takeError.2)) fun t ht => ?_
  exact ht

variable [ClientApp A]

/-! ## What a session does -/

theorem spares_link (hA : ClientApp.LeavesClosed A) :
    Handler.Spares Socket.Closed (ClientLink A) where
  onRecv h := (hA.onRecv h.app).bind fun _ => trivial
  onSend h n := (hA.onSend h.app n).bind fun _ => trivial

theorem follows_link : Handler.Follows Socket fun h : ClientLink A => h.Notes where
  onRecv := by
    intro h on s hnotes
    show (((ClientApp.onRecv h.app).bind fun app => .done { h with app }).run s).1.Notes on
    rw [Program.run_bind]
    exact hnotes
  onSend := by
    intro h n on s hnotes
    show (((ClientApp.onSend h.app n).bind fun app => .done { h with app }).run s).1.Notes on
    rw [Program.run_bind]
    exact hnotes
  onClose hnotes := hnotes
  onInterest := by
    intro h before on s hnotes
    show (if h.connecting then h else { h with interest := .ofPending on }).Notes on
    unfold ClientLink.Notes at hnotes ⊢
    -- what is told while the connect is in progress does not reach the poller
    by_cases hconnecting : h.connecting = true
    · rw [if_pos hconnecting] at hnotes
      rw [if_pos hconnecting, if_pos hconnecting]
      exact hnotes
    · rw [if_neg hconnecting, if_neg hconnecting]

theorem Attended.connectCompleted (hA : ClientApp.LeavesClosed A) (h : Attended d) :
    Attended (connectCompleted d) := by
  refine h.established.withHandler Socket.final_closed (spares_link hA) follows_link (f := announce)
    ((hA.onConnected _).bind fun _ => trivial) ?_
  intro s on hnotes
  unfold announce
  rw [Program.run_bind]
  exact hnotes

theorem Attended.run_calls (hA : ClientApp.LeavesClosed A)
    {steps : List (Driven.Step (ClientLink A) Socket)}
    (hsteps : ∀ step ∈ steps, ∃ c, step = .call c) (h : Attended d)
    (hd : steps.foldlM (Driven.step fuel) d = some d') : Attended d' :=
  Session.InStep.run_calls Socket.final_closed (spares_link hA) follows_link hsteps h hd

theorem calls_passSteps (r : Readiness) (d : ClientSession A) :
    ∀ step ∈ passSteps r d, ∃ c, step = .call c := by
  intro step hstep
  rcases List.mem_append.mp hstep with hmem | hmem
  all_goals
    rw [List.mem_ite_nil_right, List.mem_singleton] at hmem
    exact ⟨_, hmem.2⟩

/-- Whatever its readiness, a session ends up attended to. -/
theorem Attended.react {runsOn : Bool} (hA : ClientApp.LeavesClosed A) (h : Attended d)
    (hreact : react fuel r d = some (d', runsOn)) : Attended d' := by
  rw [react_eq] at hreact
  obtain ⟨d₁, hrun, hpair⟩ := Option.map_eq_some_iff.mp hreact
  cases hpair
  unfold reactSteps at hrun
  by_cases hopen : (!d.isOpen) = true
  · rw [if_pos hopen] at hrun
    exact h.run_calls hA (by simp) hrun
  rw [if_neg hopen] at hrun
  by_cases herror : r.error = true
  · rw [if_pos herror] at hrun
    exact h.run_calls hA (by simp) hrun
  rw [if_neg herror] at hrun
  by_cases hhangup : r.hangup = true
  · rw [if_pos hhangup] at hrun
    refine h.run_calls hA (fun step hstep => ?_) hrun
    rcases List.mem_append.mp hstep with hmem | hmem
    · rw [List.mem_ite_nil_right, List.mem_singleton] at hmem
      exact ⟨_, hmem.2⟩
    · exact ⟨_, List.mem_singleton.mp hmem⟩
  rw [if_neg hhangup] at hrun
  by_cases hconnecting : d.handler.connecting = true
  · rw [if_pos hconnecting] at hrun
    by_cases hwritable : (!r.writable) = true
    · rw [if_pos hwritable] at hrun
      exact h.run_calls hA (by simp) hrun
    rw [if_neg hwritable] at hrun
    -- now the connect is decided
    by_cases hrejected : d.session.transport.pendingError.isSome = true
    · rw [if_pos hrejected] at hrun
      have hrest : [.call .close].foldlM (Driven.step fuel) (Client.asked d) = some d' := hrun
      exact h.asked.run_calls hA (by simp) hrest
    · -- the connect completes, and the passes begin with the registration made anew
      rw [if_neg hrejected] at hrun
      have hrest : (completionSteps (Client.asked d) ++
          passSteps r (Client.connectCompleted (Client.asked d))).foldlM (Driven.step fuel)
            (Client.asked d) = some d' := hrun
      rw [List.foldlM_append, run_completionSteps] at hrest
      exact (h.asked.connectCompleted hA).run_calls hA (calls_passSteps r _) hrest
  · rw [if_neg hconnecting] at hrun
    exact h.run_calls hA (calls_passSteps r d) hrun

/-! ## Connecting -/

/-- A new session is watched in both directions if its connect is in progress, and else for read
readiness, as it has nothing to send yet. -/
theorem InStep.attach (hA : ClientApp.LeavesClosed A) (h : c.InStep) (now : Nat) (socket : Socket)
    (connecting : Bool) : (c.attach now socket connecting).2.InStep := by
  rw [attach_eq]
  cases c.parked with
  | none => exact h
  | some app =>
      dsimp only
      unfold Driven.openUp
      rcases hopen : (c.fresh now app socket connecting).session.openUp with ⟨e | _, session⟩
      · exact h.of_eq rfl
      -- a session that opens has nothing to send, so it would tell of no interest
      have hnotes : (c.fresh now app socket connecting).handler.Notes false := by
        cases connecting <;> rfl
      have hattended : Attended { c.fresh now app socket connecting with session } :=
        .of_openUp rfl hopen hnotes
      refine .of_session rfl ?_
      cases connecting with
      | true => exact hattended
      | false => exact hattended.connectCompleted hA

theorem InStep.connect (hA : ClientApp.LeavesClosed A) (h : c.InStep) (now : Nat)
    (attempt : Attempt) : (c.connect now attempt).2.InStep := by
  unfold Client.connect
  by_cases hparked : c.parked.isNone = true
  · rw [if_pos hparked]
    exact h
  rw [if_neg hparked]
  cases attempt with
  | failed e => exact h
  | unwatched e socket => exact h.of_eq rfl
  | connected socket => exact h.attach hA now socket false
  | inProgress socket => exact h.attach hA now socket true

theorem InStep.start (hA : ClientApp.LeavesClosed A) (h : c.InStep) (now : Nat)
    (attempt : Attempt) : (c.start now attempt).2.InStep := by
  have hconnect := h.connect hA now attempt
  unfold Client.start
  by_cases hstarted : (c.running || c.session.isSome) = true
  · rw [if_pos hstarted]
    exact h
  rw [if_neg hstarted]
  rcases hresult : c.connect now attempt with ⟨e | _, c₁⟩
  all_goals
    rw [hresult] at hconnect
    exact hconnect.of_eq rfl

/-! ## One cycle -/

theorem InStep.dispatch (hA : ClientApp.LeavesClosed A) (h : c.InStep)
    (hc' : c.dispatch fuel now r = some c') : c'.InStep := by
  unfold Client.dispatch at hc'
  cases hsession : c.session with
  | none =>
      rw [hsession] at hc'
      cases hc'
      exact h
  | some d =>
      rw [hsession] at hc'
      obtain ⟨⟨d', runsOn⟩, hreact, hrest⟩ := Option.bind_eq_some_iff.mp hc'
      cases hrest
      -- noting the time moves nothing, so the reaction starts in step
      have hattended : Attended { d with session := d.session.atTime now } :=
        (h d hsession).atTime now
      exact .of_session rfl (hattended.react hA hreact)

theorem InStep.dispatchAll (hA : ClientApp.LeavesClosed A) {events : List Readiness}
    (h : c.InStep) (hc' : c.dispatchAll fuel now events = some c') : c'.InStep := by
  induction events generalizing c with
  | nil =>
      cases hc'
      exact h
  | cons r events ih =>
      unfold Client.dispatchAll at hc'
      obtain ⟨c₁, hdispatch, hrest⟩ := Option.bind_eq_some_iff.mp hc'
      exact ih (h.dispatch hA hdispatch) hrest

theorem session_teardown (c : Client A) (now : Nat) : (c.teardown now).session = none := by
  unfold teardown
  cases hsession : c.session with
  | none => exact hsession
  | some d => rfl

theorem InStep.checkLost (h : c.InStep) (now : Nat) : (c.checkLost now).InStep := by
  unfold Client.checkLost
  cases hsession : c.session with
  | none => exact h
  | some d =>
      dsimp only
      by_cases hopen : d.isOpen = true
      · rw [if_pos hopen]
        exact h
      rw [if_neg hopen]
      refine .of_no_session ?_
      by_cases hrunning : (c.teardown now).running = true
      · rw [if_pos hrunning]
        exact session_teardown c now
      · rw [if_neg hrunning]
        exact session_teardown c now

theorem InStep.checkReconnect (hA : ClientApp.LeavesClosed A) (h : c.InStep) (now : Nat)
    (attempt : Attempt) : (c.checkReconnect now attempt).InStep := by
  unfold Client.checkReconnect
  cases c.reconnect with
  | none => exact h
  | some deadline =>
      dsimp only
      by_cases hdue : (c.running && deadline.expired now) = true
      · rw [if_pos hdue]
        -- the registration is that of the session alone: deadlines and dropped sockets do not count
        have hcleared : InStep { c with reconnect := none } := h.of_eq rfl
        have hconnect := hcleared.connect hA now attempt
        rcases hresult : Client.connect { c with reconnect := none } now attempt with ⟨e | _, c₁⟩
        all_goals
          rw [hresult] at hconnect
          exact hconnect.of_eq rfl
      · rw [if_neg hdue]
        exact h

theorem InStep.cycle (hA : ClientApp.LeavesClosed A) {events : List Readiness} {attempt : Attempt}
    {n : Nat} (h : c.InStep) (hc' : c.cycle fuel now events attempt = some (n, c')) :
    c'.InStep := by
  unfold Client.cycle at hc'
  by_cases hstopped : (!c.running) = true
  · rw [if_pos hstopped] at hc'
    cases hc'
    exact h
  · rw [if_neg hstopped] at hc'
    obtain ⟨c₁, hdispatch, hrest⟩ := Option.bind_eq_some_iff.mp hc'
    cases hrest
    exact ((h.dispatchAll hA hdispatch).checkLost now).checkReconnect hA now attempt

/-! ## Runs -/

/-- The request is made by `call`. -/
theorem InStep.onSession (hA : ClientApp.LeavesClosed A)
    {call : ClientSession A → Except SessionError Unit × ClientSession A} (request : Session.Call)
    (hcall : ∀ d : ClientSession A, d.perform 0 request = some (call d)) (h : c.InStep)
    (now : Nat) : (c.onSession now call).2.InStep := by
  unfold Client.onSession
  cases hsession : c.session with
  | none => exact h
  | some d =>
      have hattended : Attended { d with session := d.session.atTime now } :=
        (h d hsession).atTime now
      exact .of_session rfl (hattended.perform Socket.final_closed (spares_link hA) follows_link
        (hcall { d with session := d.session.atTime now }))

theorem inStep_step (hA : ClientApp.LeavesClosed A) {step : Step} (hstep : step.LeavesClosed)
    (h : c.InStep) (hc' : c.step fuel step = some c') : c'.InStep := by
  cases step with
  | start now attempt =>
      cases hc'
      exact h.start hA now attempt
  | stop now =>
      cases hc'
      exact .of_no_session (session_teardown _ now)
  | cycle now events attempt =>
      obtain ⟨⟨n, _⟩, hcycle, rfl⟩ := Option.map_eq_some_iff.mp hc'
      exact h.cycle hA hcycle
  | send now data =>
      cases hc'
      exact h.onSession hA (.queueSend data) (fun _ => rfl) now
  | sendFrame now payload =>
      cases hc'
      exact h.onSession hA (.sendFrame payload) (fun _ => rfl) now
  | network f =>
      cases hc'
      -- the peer can move anything but the interest that was registered
      intro d hd
      obtain ⟨d₀, hd₀, rfl⟩ := Option.map_eq_some_iff.mp hd
      exact (h d₀ hd₀).editTransport hstep

/-! ## Owners that reach for the application -/

/-- The owner changes the application, wherever it is. -/
def editApp (c : Client A) (f : A → A) : Client A :=
  { c with
    session := c.session.map fun d =>
      { d with handler := { d.handler with app := f d.handler.app } }
    parked := c.parked.map f }

/-- All that can happen to a client. -/
inductive Act (A : Type) where
  | step (step : Step)
  | editApp (f : A → A)

/-- Nobody opens a socket again meanwhile that was closed. -/
def Act.LeavesClosed : Act A → Prop
  | .step e => e.LeavesClosed
  | .editApp _ => True

def act (fuel : Nat) (c : Client A) : Act A → Option (Client A)
  | .step step => c.step fuel step
  | .editApp f => some (c.editApp f)

/-- Let things happen one after the other. -/
def runActs (fuel : Nat) (c : Client A) (acts : List (Act A)) : Option (Client A) :=
  acts.foldlM (act fuel) c

theorem inStep_act (hA : ClientApp.LeavesClosed A) {act : Act A} (hact : act.LeavesClosed)
    (h : c.InStep) (hc' : c.act fuel act = some c') : c'.InStep := by
  cases act with
  | step step => exact inStep_step hA hact h hc'
  | editApp f =>
      cases hc'
      intro d hd
      obtain ⟨d₀, hd₀, rfl⟩ := Option.map_eq_some_iff.mp hd
      exact h d₀ hd₀

theorem inStep_runActs (hA : ClientApp.LeavesClosed A) {acts : List (Act A)}
    (hacts : ∀ act ∈ acts, act.LeavesClosed) (h : c.InStep)
    (hc' : c.runActs fuel acts = some c') : c'.InStep :=
  foldlM_keeps (fun hact h hc' => inStep_act hA hact h hc') hacts h hc'

end Client
end TcpReactor
