import TcpReactor.Proofs.Server.Registry
import TcpReactor.Proofs.Session.Trace

namespace TcpReactor

/-! # Traces of server runs

What happens in a run of a server: the events of each session, under the identity of its connection,
and which connections are put in the table and taken out of it. A trace belongs to a run as long as
it goes on.

Whatever a server does with a session is a run of steps of that session (`Server.react_eq`,
`Driven.exec_eq`), so its events are those of that run, and its notices the calls that the handler
of the connection gets (`Driven.heard_trace`).
-/

namespace Driven

open Session (Program)

variable {H T : Type} [Transport T] [Handler T H]

/-- The steps by which a program is carried out from outside. -/
def execSteps (fuel : Nat) {α : Type} : Program T α → Driven H T → List (Step H T)
  | .done _, _ => []
  | .look next, d => execSteps fuel (next d.session) d
  | .call c next, d =>
      .call c :: match d.perform fuel c with
        | none => []
        | some (answer, d') => execSteps fuel (next answer) d'
  | .editRecvBuffer f next, d =>
      .editRecvBuffer f :: execSteps fuel next
        { d with session := { d.session with recvBuffer := f d.session.recvBuffer } }
  | .editTransport f next, d =>
      .editTransport f :: execSteps fuel next
        { d with session := { d.session with transport := f d.session.transport } }

/-- A program that is carried out from outside is a run of steps. -/
theorem exec_eq (fuel : Nat) {α : Type} (p : Program T α) (d : Driven H T) :
    (exec fuel p d).map (·.2) = (execSteps fuel p d).foldlM (step fuel) d := by
  induction p generalizing d with
  | done a => rfl
  | look next ih => exact ih d.session d
  | call c next ih =>
      rw [exec, execSteps, List.foldlM_cons, step]
      cases d.perform fuel c with
      | none => rfl
      | some r => exact ih r.1 r.2
  | editRecvBuffer f next ih | editTransport f next ih => exact ih _

end Driven

namespace Server

variable {P W : Type} [Protocol P W]

/-! ## Steps of a session -/

/-- The steps by which a connection deals with its readiness. -/
def reactSteps (r : Readiness) (d : Driven (Served P W) Socket) :
    List (Driven.Step (Served P W) Socket) :=
  if r.error then [.call .close]
  else
    let received := if r.readable || r.hangup then d.readable.2 else d
    (if r.readable || r.hangup then [.call .readable] else []) ++
      if r.hangup then [.call .close]
      else if r.writable && received.isOpen then [.call .writable] else []

/-- All that a connection does then is to make calls. -/
theorem calls_reactSteps (r : Readiness) (d : Driven (Served P W) Socket) :
    ∀ step ∈ reactSteps r d, ∃ c, step = .call c := by
  have hcall (c : Session.Call) : ∀ step ∈ [(.call c : Driven.Step (Served P W) Socket)],
      ∃ c, step = .call c := List.forall_mem_singleton.mpr ⟨c, rfl⟩
  rw [reactSteps]
  split
  · exact hcall .close
  · refine List.forall_mem_append.mpr ⟨?_, ?_⟩
    · split
      · exact hcall .readable
      · exact List.forall_mem_nil _
    · generalize (if r.readable || r.hangup then d.readable.2 else d) = received
      split
      · exact hcall .close
      split
      · exact hcall .writable
      · exact List.forall_mem_nil _

/-- What a connection does about its readiness is a run of steps. -/
theorem react_eq (fuel : Nat) (r : Readiness) (d : Driven (Served P W) Socket) :
    react fuel r d = (reactSteps r d).foldlM (Driven.step fuel) d := by
  -- what comes behind the readable pass depends only on the session it leaves
  have hrest (d : Driven (Served P W) Socket) :
      (if r.hangup then some d.close
        else if r.writable && d.isOpen then (d.writable fuel).map (·.2) else some d) =
      (if r.hangup then [.call .close]
        else if r.writable && d.isOpen then [Driven.Step.call .writable] else []).foldlM
          (Driven.step fuel) d := by
    split
    · rfl
    split
    · exact (bind_pure _).symm
    · rfl
  rw [react, reactSteps]
  split
  · rfl
  · rw [List.foldlM_append]
    cases r.readable || r.hangup with
    | true => exact hrest d.readable.2
    | false => exact hrest d

end Server

/-! ## Entries -/

/-- What can happen to a connection. -/
inductive Happening where
  /-- It is put in the table. -/
  | registered
  /-- It is taken out. -/
  | removed
  /-- It is its session to which this happens. -/
  | session (e : Session.Event Socket)

/-- One thing that happens in a run of a server, and to whom. -/
structure Server.Entry where
  id : ConnId
  what : Happening

namespace Happening

def isRegistered : Happening → Bool
  | .registered => true
  | _ => false

def isRemoved : Happening → Bool
  | .removed => true
  | _ => false

/-- What happens to the session. -/
def event? : Happening → Option (Session.Event Socket)
  | .session e => some e
  | _ => none

/-- What happens to the sessions. -/
def events (hs : List Happening) : List (Session.Event Socket) := hs.filterMap event?

end Happening

namespace Server

variable {P W : Type}

/-- What happens to the connections of this identity. -/
def happeningsOf (id : ConnId) (es : List Entry) : List Happening :=
  es.filterMap fun e => if e.id = id then some e.what else none

variable [Protocol P W]

/-- What happens when a connection takes some steps. -/
def runEntries (s : Server P W) (fuel now : Nat) (c : Connection P)
    (steps : List (Driven.Step (Served P W) Socket)) : List Entry :=
  ((s.lend c now).trace fuel steps).map fun e => ⟨c.link.id, .session e⟩

/-- The entries of `evict`. -/
def evictEntries (s : Server P W) (fuel now slot : Nat) : List Entry :=
  match s.connections.get? slot with
  | none => []
  | some c => s.runEntries fuel now c [.call .close] ++ [⟨c.link.id, .removed⟩]

/-- The entries of connections that are evicted one after the other. -/
def evictAllEntries (fuel now : Nat) : List Nat → Server P W → List Entry
  | [], _ => []
  | slot :: slots, s =>
      s.evictEntries fuel now slot ++ evictAllEntries fuel now slots (s.evict now slot)

/-- The entries of `enroll`. -/
def enrollEntries (s : Server P W) (fuel now : Nat) (c : Connection P) : List Entry :=
  s.runEntries fuel now c [.call .openUp] ++
    match c.session.openUp with
    | (.error _, _) => []
    | (.ok (), session) =>
        if c.session.transport.watchable then [⟨c.link.id, .registered⟩]
        else s.runEntries fuel now { c with session } [.call .close]

/-- The entries of `addConnection`. -/
def addEntries (s : Server P W) (fuel now : Nat) (socket : Socket) : List Entry :=
  match s.nextId? with
  | none => []
  | some id =>
      let (c, s) := s.prepare now socket id
      s.enrollEntries fuel now c

/-- The entries of `acceptAll`. -/
def acceptEntries (s : Server P W) (fuel now : Nat) : (limit : Nat) → List Entry
  | 0 => []
  | limit + 1 =>
      match s.listener with
      | none => []
      | some listener =>
          match listener.accept with
          | (.ok (some socket), listener) =>
              let s := { s with listener := some listener }
              s.addEntries fuel now socket ++
                acceptEntries (s.addConnection now socket) fuel now limit
          | _ => []

/-- The entries of `dispatch`. -/
def dispatchEntries (s : Server P W) (fuel now : Nat) (e : Event) : List Entry :=
  match s.connection? (ConnId.ofKey e.key) with
  | none => []
  | some c =>
      s.runEntries fuel now c (reactSteps e.readiness (s.lend c now)) ++
        match react fuel e.readiness (s.lend c now) with
        | none => []
        | some d => if d.isOpen then [] else [⟨c.link.id, .removed⟩]

/-- The entries of a step. -/
def stepEntries (fuel : Nat) (s : Server P W) : Step → List Entry
  | .start _ => []
  | .stop now => evictAllEntries fuel now s.usedSlots { s with running := false }
  | .event now e =>
      if !s.running then []
      else if e.key = ConnId.listenerKey then s.acceptEntries fuel now (s.waiting + 1)
      else s.dispatchEntries fuel now e
  | .sweep now => if s.running then evictAllEntries fuel now (s.idleSlots now) s else []
  | .visit now id program =>
      match s.connection? id with
      | none => []
      | some c => s.runEntries fuel now c (Driven.execSteps fuel program (s.lend c now))
  | .network _ _ => []

/-- The trace of a run. -/
def trace (fuel : Nat) (s : Server P W) : List Step → List Entry
  | [] => []
  | step :: steps =>
      s.stepEntries fuel step ++
        match s.step fuel step with
        | none => []
        | some s => trace fuel s steps

end Server
end TcpReactor
