import TcpReactor.Proofs.Client.Registration
import TcpReactor.Proofs.Server.Registration

namespace TcpReactor

/-! # What the pollers watch for

Both reactors watch a session for read readiness as long as it is open. Write readiness comes and
goes with what there is to send: a poller that watched for it all the time would never rest, and one
that did not when bytes are queued would leave them there.

* `Socket.readiness?_eq`: what a poller reports of a socket is what it watches for.
* `registrations_in_step`: whatever happens to them, each open session of a server and of a client
  is watched for what it has to do.
-/

/-- What a poller watches a socket for with this interest. -/
def Interest.watched : Interest → Readiness
  | .readable => { readable := true }
  | .both => { readable := true, writable := true }

theorem Interest.watched_ofPending (pending : Bool) :
    (Interest.ofPending pending).watched = { readable := true, writable := pending } := by
  cases pending <;> rfl

/-- Unless something is wrong with a socket, what is reported of it is what it is watched for. -/
theorem Socket.readiness?_eq {s : Socket} (herror : s.pendingError = none)
    (hopen : s.isOpen = true) (hbroken : s.broken = false) (interest : Interest) :
    s.readiness? interest =
      let r : Readiness :=
        { readable := interest.watched.readable && (!s.inbound.isEmpty || s.ended)
          writable := interest.watched.writable && decide (s.window ≠ some 0) }
      if r.readable || r.writable then some r else none := by
  unfold Socket.readiness?
  rw [herror, hopen, hbroken]
  cases interest with
  | readable => simp [Interest.watched]
  | both => simp [Interest.watched]

/-- Whatever the peers, the owners, the callbacks and the network have done, and however much of
what was queued has left by then: at the end of a step, each open session in the table of a server
is watched for read readiness, and for write readiness just if it has something to send; and the
open session of a client is watched for read readiness, and for write readiness just if its connect
is in progress or it has something to send.

A socket that somebody puts in the place of a closed one was never registered, so this is ruled
out. -/
theorem registrations_in_step {P W A : Type} [Protocol P W] [ClientApp A]
    (hP : Protocol.LeavesClosed P W) (hA : ClientApp.LeavesClosed A) (fuel : Nat) :
    (∀ {config : ServerConfig} {shared : W} {acts : List (Server.Act P W)} {s : Server P W},
      (∀ act ∈ acts, act.LeavesClosed) →
      Server.runActs fuel (.new P config shared) acts = some s →
      ∀ slot c, s.connections.get? slot = some c → c.session.isOpen = true →
        c.link.interest.watched = { readable := true, writable := c.session.hasPendingSend }) ∧
    ∀ {config : ClientConfig} {app : A} {acts : List (Client.Act A)} {c : Client A},
      (∀ act ∈ acts, act.LeavesClosed) → Client.runActs fuel (.new config app) acts = some c →
      ∀ d, c.session = some d → d.isOpen = true →
        d.handler.interest.watched =
          { readable := true, writable := d.handler.connecting || d.session.hasPendingSend } := by
  constructor
  · intro config shared acts s hacts hrun slot c hget hopen
    have hnew : (Server.new P config shared).InStep := by
      intro key c hget
      cases hget
    have hattended := Server.inStep_runActs hP hacts ⟨[], Slots.threaded_empty⟩ hnew hrun
      slot c hget
    have hnotes : c.link.interest = .ofPending c.session.hasPendingSend :=
      hattended.known_pending hopen
    rw [hnotes, Interest.watched_ofPending]
  · intro config app acts c hacts hrun d hsession hopen
    have hnew : (Client.new config app).InStep := .of_no_session rfl
    have hattended := Client.inStep_runActs hA hacts hnew hrun d hsession
    -- a connect in progress is watched for both, whatever is queued meanwhile
    have hnotes : d.handler.interest =
        if d.handler.connecting then .both else .ofPending d.session.hasPendingSend :=
      hattended.known_pending hopen
    rw [hnotes]
    cases d.handler.connecting with
    | true => rfl
    | false => exact Interest.watched_ofPending _

/-- A server echoes three bytes to a socket that takes one, and its owner queues two more through
the handler. A client greets its server while the connect completes, behind a byte that was queued
before, and its socket takes two. So both have something to send still. -/
theorem registrations_in_step_stalled :
    let socket : Socket := { peer := .v4 [127, 0, 0, 1] 80 }
    let newServer : Server Echo Unit := .new Echo { recvBufferSize := 8, sendBufferSize := 8 } ()
    let ready (r : Readiness) : Server.Step := .event 2 ⟨ConnId.toKey ⟨0, 1⟩, r⟩
    let serverActs : List (Server.Act Echo Unit) :=
      [.step (.start (.ok ())),
        .step (.network (fun _ t => t) [.ok { socket with window := some 1 }]),
        .step (.event 1 ⟨ConnId.listenerKey, { readable := true }⟩),
        .step (.network (fun _ t => t.arrive [1, 2, 3]) []), .step (ready { readable := true }),
        .step (ready { writable := true }),
        .lendOut 3 ⟨0, 1⟩ fun p w => .call (.queueSend [4, 5]) fun _ => .done (p, w)]
    let app : Sim.LoggingApp := { mode := .hold, greet := [.queueSend [1, 2], .writable] }
    let newClient : Client Sim.LoggingApp :=
      .new { reconnectBackoff := 5, recvBufferSize := 8, sendBufferSize := 8 } app
    let clientActs : List (Client.Act Sim.LoggingApp) :=
      [.step (.start 1 (.inProgress { socket with window := some 2 })), .step (.send 1 [7]),
        .step (.cycle 2 [{ writable := true }] (.failed .invalidState)),
        .editApp ({ · with closeWhenSent := true })]
    Protocol.LeavesClosed Echo Unit ∧ ClientApp.LeavesClosed Sim.LoggingApp ∧
      (∀ act ∈ serverActs, act.LeavesClosed) ∧ (∀ act ∈ clientActs, act.LeavesClosed) ∧
      (∃ s c, Server.runActs 4 newServer serverActs = some s ∧ s.connections.get? 0 = some c ∧
        c.session.isOpen = true ∧
        c.link.interest.watched = { readable := true, writable := true }) ∧
      ∃ c d, Client.runActs 4 newClient clientActs = some c ∧ c.session = some d ∧
        d.isOpen = true ∧ d.handler.connecting = false ∧
        d.handler.interest.watched = { readable := true, writable := true } := by
  intro socket newServer ready serverActs app newClient clientActs
  have hP : Protocol.LeavesClosed Echo Unit := (Server.tame_ofHandler _).leavesClosed
  have hA : ClientApp.LeavesClosed Sim.LoggingApp := Client.tame_loggingApp.leavesClosed
  have hserver : ∀ act ∈ serverActs, act.LeavesClosed := by
    simp [serverActs, ready, Server.Act.LeavesClosed, Server.Step.LeavesClosed, Socket.Closed,
      Socket.arrive, Session.Program.Spares]
  have hclient : ∀ act ∈ clientActs, act.LeavesClosed := by
    simp [clientActs, Client.Act.LeavesClosed, Client.Step.LeavesClosed]
  have hstalled : ((Server.runActs 4 newServer serverActs).bind fun s =>
      (s.connections.get? 0).map fun c => (c.session.isOpen, c.session.hasPendingSend)) =
        some (true, true) := by
    decide +kernel
  have hgreeted : ((Client.runActs 4 newClient clientActs).bind fun c => c.session.map fun d =>
      (d.isOpen, d.handler.connecting, d.session.hasPendingSend)) = some (true, false, true) := by
    decide +kernel
  obtain ⟨s, hs, hget⟩ := Option.bind_eq_some_iff.mp hstalled
  obtain ⟨conn, hconn, hfacts⟩ := Option.map_eq_some_iff.mp hget
  obtain ⟨c, hc, hsession⟩ := Option.bind_eq_some_iff.mp hgreeted
  obtain ⟨d, hd, hdfacts⟩ := Option.map_eq_some_iff.mp hsession
  simp only [Prod.mk.injEq] at hfacts hdfacts
  obtain ⟨hopen, hpending⟩ := hfacts
  obtain ⟨hdopen, hconnecting, hdpending⟩ := hdfacts
  have hboth := registrations_in_step hP hA 4
  refine ⟨hP, hA, hserver, hclient, ⟨s, conn, hs, hconn, hopen, ?_⟩,
    c, d, hc, hd, hdopen, hconnecting, ?_⟩
  · rw [hboth.1 hserver hs 0 conn hconn hopen, hpending]
  · rw [hboth.2 hclient hc d hd hdopen, hconnecting, hdpending]
    rfl

end TcpReactor
