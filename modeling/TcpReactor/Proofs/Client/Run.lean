import TcpReactor.Client
import TcpReactor.Proofs.Session.Calls
import TcpReactor.Proofs.Session.HandlerInvariant
import Mathlib.Logic.Relation

namespace TcpReactor

/-! # Runs of a client

A run takes a client through steps: it is started and stopped, it goes through cycles, its owner
queues something, and outside the network moves. How each attempt to connect turns out and which
events a cycle finds is part of the step. A wait for events that fails is no step, since it leaves
the client as it is.

* `Client.react_eq`: what a session does about its readiness is a run of its steps.
* `ClientApp.Becomes`: what its callbacks can make of an application; nothing else happens to it
  (`Client.maintains_becomes`).
-/

/-- What one callback can make of an application. -/
inductive ClientApp.Turns {A : Type} [ClientApp A] : A → A → Prop
  | connected (a : A) (s : Session Socket) : Turns a ((ClientApp.onConnected a).run s).1
  | recv (a : A) (s : Session Socket) : Turns a ((ClientApp.onRecv a).run s).1
  | send (a : A) (n : Nat) (s : Session Socket) : Turns a ((ClientApp.onSend a n).run s).1
  | close (a : A) (s : Session Socket) : Turns a (ClientApp.onClose a s)

/-- What any number of callbacks can make of an application. It is the same application all along:
no other takes its place. -/
def ClientApp.Becomes {A : Type} [ClientApp A] : A → A → Prop := Relation.ReflTransGen Turns

namespace Client

/-- What happens to a client. -/
inductive Step where
  | start (now : Nat) (attempt : Attempt)
  | stop (now : Nat)
  /-- A cycle finds these events. A reconnect that is due turns out as `attempt` says. -/
  | cycle (now : Nat) (events : List Readiness) (attempt : Attempt)
  | send (now : Nat) (data : Bytes)
  | sendFrame (now : Nat) (payload : Bytes)
  /-- The network moves the socket of the session. -/
  | network (f : Socket → Socket)

variable {A : Type}

/-- The socket of the session, if there is one, has moved. -/
def move (c : Client A) (f : Socket → Socket) : Client A :=
  { c with session := c.session.map fun d =>
      { d with session := { d.session with transport := f d.session.transport } } }

variable [ClientApp A]

/-- Take a step. Every writable pass may send `fuel` chunks. -/
def step (fuel : Nat) (c : Client A) : Step → Option (Client A)
  | .start now attempt => some (c.start now attempt).2
  | .stop now => some (c.stop now)
  | .cycle now events attempt => (c.cycle fuel now events attempt).map (·.2)
  | .send now data => some (c.send now data).2
  | .sendFrame now payload => some (c.sendFrame now payload).2
  | .network f => some (c.move f)

/-- Take steps one after the other. There is no result if one of them has none. -/
def run (fuel : Nat) (c : Client A) (steps : List Step) : Option (Client A) :=
  steps.foldlM (step fuel) c

/-! ## What a session does, step by step -/

/-- The steps of a session by which a connect completes. -/
def completionSteps (d : ClientSession A) : List (Driven.Step (ClientLink A) Socket) :=
  [.editHandler fun h => { h with
      connecting := false
      interest := .ofPending d.session.hasPendingSend },
    .visit fun h => (ClientApp.onConnected h.app).bind fun app => .done ((), { h with app })]

/-- The passes of a session that is ready for them. -/
def passSteps (r : Readiness) (d : ClientSession A) : List (Driven.Step (ClientLink A) Socket) :=
  let received := if r.readable && d.isOpen then d.readable.2 else d
  (if r.readable && d.isOpen then [.call .readable] else []) ++
    if r.writable && received.isOpen then [.call .writable] else []

/-- A session whose socket was asked how the connect turned out. -/
def asked (d : ClientSession A) : ClientSession A :=
  { d with session := { d.session with transport := d.session.transport.takeError.2 } }

/-- Does the readiness mean that the server has rejected the connect? -/
def rejected (r : Readiness) (d : ClientSession A) : Bool :=
  d.isOpen && !r.error && !r.hangup && d.handler.connecting && r.writable &&
    d.session.transport.pendingError.isSome

/-- The steps by which a session deals with its readiness. -/
def reactSteps (r : Readiness) (d : ClientSession A) : List (Driven.Step (ClientLink A) Socket) :=
  if !d.isOpen then []
  else if r.error then [.call .close]
  else if r.hangup then
    (if r.readable && !d.handler.connecting then [.call .readable] else []) ++ [.call .close]
  else if d.handler.connecting then
    if !r.writable then []
    else if d.session.transport.pendingError.isSome then
      [.editTransport (·.takeError.2), .call .close]
    else
      .editTransport (·.takeError.2) ::
        (completionSteps (asked d) ++ passSteps r (connectCompleted (asked d)))
  else passSteps r d

variable {app : A} {c c' : Client A} {d d' : ClientSession A} {r : Readiness} {now fuel : Nat}

theorem run_completionSteps (d : ClientSession A) :
    (completionSteps d).foldlM (Driven.step fuel) d = some (connectCompleted d) := rfl

theorem run_passSteps (r : Readiness) (d : ClientSession A) :
    (passSteps r d).foldlM (Driven.step fuel) d =
      let received := if r.readable && d.isOpen then d.readable.2 else d
      if r.writable && received.isOpen then (received.writable fuel).map (·.2)
      else some received := by
  -- whether the writable pass is made is asked of the session behind the readable one
  have hwritable (d : ClientSession A) : (if r.writable && d.isOpen then
      [(Driven.Step.call .writable : Driven.Step (ClientLink A) Socket)] else []).foldlM
        (Driven.step fuel) d =
      if r.writable && d.isOpen then (d.writable fuel).map (·.2) else some d := by
    split
    · exact List.foldlM_cons.trans (bind_pure _)
    · rfl
  rw [passSteps, List.foldlM_append]
  split
  · exact hwritable d.readable.2
  · exact hwritable d

/-- What a session does about its readiness is a run of steps. -/
theorem react_eq (fuel : Nat) (r : Readiness) (d : ClientSession A) :
    react fuel r d =
      ((reactSteps r d).foldlM (Driven.step fuel) d).map fun d' => (d', !rejected r d) := by
  -- how `react` ends, once it is known that the connect was not rejected
  have hpasses (d : ClientSession A) :
      (do
        let d := if r.readable && d.isOpen then d.readable.2 else d
        let d ← if r.writable && d.isOpen then (d.writable fuel).map (·.2) else some d
        return (d, true) : Option (ClientSession A × Bool)) =
      ((passSteps r d).foldlM (Driven.step fuel) d).map fun d' => (d', true) := by
    rw [run_passSteps]
    dsimp only
    generalize (if r.readable && d.isOpen then d.readable.2 else d) = received
    split
    · cases received.writable fuel <;> rfl
    · rfl
  rw [react, reactSteps, rejected]
  cases hopen : d.isOpen with
  | false => rfl
  | true =>
  cases herror : r.error with
  | true => rfl
  | false =>
  cases hhangup : r.hangup with
  | true =>
      dsimp only
      cases r.readable && !d.handler.connecting with
      | false => rfl
      | true => rfl
  | false =>
  cases hconnecting : d.handler.connecting with
  | false => exact hpasses d
  | true =>
  cases hwritable : r.writable with
  | false => rfl
  | true =>
  rw [hwritable] at hpasses
  cases hcause : d.session.transport.pendingError with
  | some cause =>
      simp only [Socket.takeError, hcause]
      rfl
  | none =>
      simp only [Socket.takeError, hcause]
      exact hpasses (connectCompleted (asked d))

/-- The steps of a reaction: calls other than an open, the question how the connect turned out, and
the completion of the connect. -/
theorem mem_reactSteps {step : Driven.Step (ClientLink A) Socket} (h : step ∈ reactSteps r d) :
    (∃ c, c ≠ .openUp ∧ step = .call c) ∨ step = .editTransport (·.takeError.2) ∨
      step ∈ completionSteps (asked d) := by
  -- each pass is there or not, by what the event reports
  have hpass {d : ClientSession A} (h : step ∈ passSteps r d) :
      ∃ c, c ≠ .openUp ∧ step = .call c := by
    rcases List.mem_append.mp h with h | h
    all_goals
      rw [List.mem_ite_nil_right, List.mem_singleton] at h
      exact ⟨_, by simp, h.2⟩
  rw [reactSteps] at h
  split at h
  · cases h
  split at h
  · exact .inl ⟨_, by simp, List.mem_singleton.mp h⟩
  split at h
  · refine .inl ?_
    rcases List.mem_append.mp h with h | h
    · rw [List.mem_ite_nil_right, List.mem_singleton] at h
      exact ⟨_, by simp, h.2⟩
    · exact ⟨_, by simp, List.mem_singleton.mp h⟩
  split at h
  · split at h
    · cases h
    split at h
    · rcases List.mem_cons.mp h with rfl | h
      · exact .inr (.inl rfl)
      · exact .inl ⟨_, by simp, List.mem_singleton.mp h⟩
    · rcases List.mem_cons.mp h with rfl | h
      · exact .inr (.inl rfl)
      rcases List.mem_append.mp h with h | h
      · exact .inr (.inr h)
      · exact .inl (hpass h)
  · exact .inl (hpass h)

/-- A session that was not open is left alone. -/
theorem react_of_closed (hopen : d.isOpen = false) : react fuel r d = some (d, true) := by
  rw [react, hopen]
  rfl

/-- A client stops only because its connect is rejected, and then its session has closed. -/
theorem isOpen_of_stopped (hreact : react fuel r d = some (d', false)) : d'.isOpen = false := by
  rw [react_eq] at hreact
  rcases Option.map_eq_some_iff.mp hreact with ⟨d₁, hrun, hpair⟩
  simp only [Prod.mk.injEq, Bool.not_eq_false', rejected, Bool.and_eq_true, Bool.not_eq_true']
    at hpair
  rcases hpair with ⟨rfl, ⟨⟨⟨⟨hopen, herror⟩, hhangup⟩, hconnecting⟩, hwritable⟩, hcause⟩
  simp only [reactSteps, hopen, herror, hhangup, hconnecting, hwritable, hcause, Bool.not_true,
    Bool.false_eq_true, if_false, if_true] at hrun
  cases hrun
  exact (asked d).isOpen_close

/-! ## The application -/

/-- Whatever is done with the session, only callbacks happen to the application. -/
theorem maintains_becomes (app : A) :
    Handler.Maintains Socket fun h : ClientLink A => ClientApp.Becomes app h.app where
  onRecv {h s} happ := by
    show ClientApp.Becomes app (((ClientApp.onRecv h.app).bind fun app =>
      .done { h with app }).run s).1.app
    rw [Session.Program.run_bind]
    exact happ.tail (.recv h.app s)
  onSend {h n s} happ := by
    show ClientApp.Becomes app (((ClientApp.onSend h.app n).bind fun app =>
      .done { h with app }).run s).1.app
    rw [Session.Program.run_bind]
    exact happ.tail (.send h.app n s)
  onClose {h s} happ := happ.tail (.close h.app s)
  onInterest {h on s} happ := by
    show ClientApp.Becomes app
      (if h.connecting then h else { h with interest := .ofPending on }).app
    split
    · exact happ
    · exact happ

theorem keeps_completionSteps (app : A) (d : ClientSession A) :
    ∀ step ∈ completionSteps d, step.Keeps fun h : ClientLink A => ClientApp.Becomes app h.app := by
  refine List.forall_mem_cons.mpr ⟨fun h happ => happ, List.forall_mem_singleton.mpr ?_⟩
  intro h s happ
  rw [Session.Program.run_bind]
  exact happ.tail (.connected h.app s)

theorem becomes_connectCompleted (h : ClientApp.Becomes app d.handler.app) :
    ClientApp.Becomes app (connectCompleted d).handler.app :=
  (maintains_becomes app).run (keeps_completionSteps app d) h
    (show (completionSteps d).foldlM (Driven.step 0) d = some _ from run_completionSteps d)

/-- What a session does about its readiness. -/
theorem becomes_react {runsOn : Bool} (h : ClientApp.Becomes app d.handler.app)
    (hreact : react fuel r d = some (d', runsOn)) : ClientApp.Becomes app d'.handler.app := by
  rw [react_eq] at hreact
  rcases Option.map_eq_some_iff.mp hreact with ⟨d₁, hrun, hpair⟩
  cases hpair
  refine (maintains_becomes app).run (fun step hstep => ?_) h hrun
  rcases mem_reactSteps hstep with ⟨c, _, rfl⟩ | rfl | hstep
  · trivial
  · trivial
  · exact keeps_completionSteps app _ step hstep

end Client
end TcpReactor
