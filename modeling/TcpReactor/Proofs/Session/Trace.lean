import TcpReactor.Session.Driven

namespace TcpReactor

/-! # Traces of session runs

What happens in a run of a session, event by event: the calls that are made on it, from outside or
from inside a callback, what its transport answers, and what its handler is told. The states are
those of the operations in `TcpReactor.Session` themselves; the functions here only say which events
an operation causes, and in which order.

A trace belongs to a run as long as it goes on: if a writable pass does not end within its fuel, its
events up to there are in the trace, and the trace ends with them.
-/

namespace Session

/-- What a handler is told, or asked for. -/
inductive Notice
  | recv
  | send (amount : Nat)
  | close
  | interest (on : Bool)
  /-- The owner lends the session to its handler, as if it were a callback. -/
  | visit
  deriving DecidableEq, Repr

/-- One event of a run. Every snapshot is the session as it is at that event. -/
inductive Event (T : Type) where
  /-- A call is made. The answer is the one it is going to give, if it ever returns. -/
  | called (c : Call) (answer : Option (Except SessionError Unit)) (s : Session T)
  | returned (c : Call) (answer : Except SessionError Unit) (s : Session T)
  /-- The transport was offered bytes; it is shown before and after. -/
  | sent (before : T) (offered : Bytes) (answer : Except SocketError (Transfer Nat)) (after : T)
  | received (answer : Except SocketError (Transfer Bytes))
  /-- A callback starts. -/
  | told (n : Notice) (s : Session T)
  /-- What the owner asked for is done, and everybody told. -/
  | idle (s : Session T)

/-- The session as it can be seen at an event: when a callback starts, and when a call or a step is
over. -/
def Event.seen? {T : Type} : Event T → Option (Session T)
  | .returned _ _ s => some s
  | .told _ s => some s
  | .idle s => some s
  | _ => none

/-- An event by which the transport is asked. -/
def Event.asks {T : Type} : Event T → Bool
  | .sent _ _ _ _ => true
  | .received _ => true
  | _ => false

variable {T : Type} [Transport T]

/-! ## Calls on a session whose handler is busy -/

/-- The events of `receive`. -/
def receiveEvents (s : Session T) : List (Event T) :=
  .received (Transport.recv s.transport recvChunkSize).1 ::
    match Transport.recv s.transport recvChunkSize with
    | (.ok (.moved (b :: data)), transport) =>
        match _h : s.recvBuffer.write (b :: data) with
        -- what finds no room is not asked for again
        | .error _ => []
        | .ok recvBuffer => receiveEvents { s with transport, recvBuffer }.touch
    | _ => []
termination_by s.recvBuffer.freeSpace
decreasing_by
  have := StreamBuffer.freeSpace_write _h
  simp only [touch]
  omega

/-- The events of `sendOnce`: the transport is asked only if something is queued. -/
def sendOnceEvents (s : Session T) : List (Event T) :=
  if s.sendBuffer.isEmpty then []
  else
    match s.sendBuffer.slices with
    | .error _ => []
    | .ok (head, _) =>
        let (answer, transport) := Transport.send s.transport head
        [.sent s.transport head answer transport]

/-- The events of `sendAll`. -/
def sendAllEvents (s : Session T) : List (Event T) :=
  s.sendOnceEvents ++
    match _h : s.sendOnce with
    | (.sent _, s) => if s.isOpen then sendAllEvents s else []
    | _ => []
termination_by s.sendBuffer.length
decreasing_by exact length_sendOnce _h

/-! The loops and their events, one round at a time. -/

theorem receive_eq (s : Session T) (received : Nat) : s.receive received =
    match Transport.recv s.transport recvChunkSize with
    | (.ok .wouldBlock, transport) => (.blocked, { s with transport })
    | (.ok (.moved []), transport) => (.ended received, { s with transport })
    | (.ok (.moved (b :: data)), transport) =>
        match s.recvBuffer.write (b :: data) with
        | .error e => (.failed (.recvBuffer e), { s with transport })
        | .ok recvBuffer =>
            receive { s with transport, recvBuffer }.touch (received + (b :: data).length)
    | (.error e, transport) => (.failed (.socket e), { s with transport }) := by
  rw [receive]
  generalize Transport.recv s.transport recvChunkSize = answer
  rcases answer with ⟨_ | ⟨_ | ⟨b, data⟩⟩ | _, _⟩
  · rfl
  · rfl
  · dsimp only
    generalize s.recvBuffer.write (b :: data) = written
    cases written <;> rfl
  · rfl

theorem receiveEvents_eq (s : Session T) : s.receiveEvents =
    .received (Transport.recv s.transport recvChunkSize).1 ::
      match Transport.recv s.transport recvChunkSize with
      | (.ok (.moved (b :: data)), transport) =>
          match s.recvBuffer.write (b :: data) with
          | .error _ => []
          | .ok recvBuffer => receiveEvents { s with transport, recvBuffer }.touch
      | _ => [] := by
  rw [receiveEvents]
  generalize Transport.recv s.transport recvChunkSize = answer
  rcases answer with ⟨_ | ⟨_ | ⟨b, data⟩⟩ | _, _⟩
  · rfl
  · rfl
  · dsimp only
    generalize s.recvBuffer.write (b :: data) = written
    cases written <;> rfl
  · rfl

theorem sendAll_eq (s : Session T) : s.sendAll =
    match s.sendOnce with
    | (.drained, s) => (.ok (), s)
    | (.blocked, s) => (.ok (), s)
    | (.failed e, s) => (.error e, s.close)
    | (.sent _, s) => if s.isOpen then s.sendAll else (.ok (), s) := by
  rw [sendAll]
  generalize s.sendOnce = step
  rcases step with ⟨_ | _ | _ | _, _⟩ <;> rfl

theorem sendAllEvents_eq (s : Session T) : s.sendAllEvents =
    s.sendOnceEvents ++
      match s.sendOnce with
      | (.sent _, s) => if s.isOpen then s.sendAllEvents else []
      | _ => [] := by
  rw [sendAllEvents]
  generalize s.sendOnce = step
  rcases step with ⟨_ | _ | _ | _, _⟩ <;> rfl

/-- The events inside a call. Only the passes use the transport. -/
def passEvents (s : Session T) : Call → List (Event T)
  | .readable => if s.isOpen then s.receiveEvents else []
  | .writable => if s.isOpen then s.sendAllEvents else []
  | _ => []

/-- The events of a call. -/
def performEvents (s : Session T) (c : Call) : List (Event T) :=
  let (answer, s') := s.perform c
  .called c (some answer) s :: (s.passEvents c ++ [.returned c answer s'])

/-- The events of a program. -/
def Program.events {α : Type} : Program T α → Session T → List (Event T)
  | .done _, _ => []
  | .look next, s => (next s).events s
  | .call c next, s =>
      let (answer, s') := s.perform c
      s.performEvents c ++ (next answer).events s'
  | .editRecvBuffer f next, s => next.events { s with recvBuffer := f s.recvBuffer }
  | .editTransport f next, s => next.events { s with transport := f s.transport }

/-- A program that goes on causes the events of one part after those of the other. -/
theorem Program.events_bind {α β : Type} (p : Program T α) (f : α → Program T β) (s : Session T) :
    (p.bind f).events s = p.events s ++ (f (p.run s).1).events (p.run s).2 := by
  induction p generalizing s with
  | done a => rfl
  | look next ih => exact ih s s
  | call c next ih =>
      show s.performEvents c ++ ((next (s.perform c).1).bind f).events (s.perform c).2 =
        s.performEvents c ++ (next (s.perform c).1).events (s.perform c).2 ++ _
      rw [ih, List.append_assoc]
      rfl
  | editRecvBuffer g next ih => exact ih _
  | editTransport g next ih => exact ih _

/-! ## What a busy session does -/

theorem asks_receiveEvents (s : Session T) : ∀ e ∈ s.receiveEvents, e.asks = true := by
  induction s, 0 using receive.induct with
  | case1 s received transport hrecv
  | case2 s received transport hrecv
  | case5 s received e transport hrecv =>
      rw [receiveEvents_eq, hrecv]
      exact List.forall_mem_singleton.mpr rfl
  | case3 s received b data transport hrecv e hwrite =>
      rw [receiveEvents_eq, hrecv]
      simp only [hwrite]
      exact List.forall_mem_singleton.mpr rfl
  | case4 s received b data transport hrecv recvBuffer hwrite ih =>
      rw [receiveEvents_eq, hrecv]
      simp only [hwrite]
      exact List.forall_mem_cons.mpr ⟨rfl, ih⟩

theorem asks_sendOnceEvents (s : Session T) : ∀ e ∈ s.sendOnceEvents, e.asks = true := by
  unfold sendOnceEvents
  split
  · exact List.forall_mem_nil _
  split
  · exact List.forall_mem_nil _
  · exact List.forall_mem_singleton.mpr rfl

theorem asks_sendAllEvents (s : Session T) : ∀ e ∈ s.sendAllEvents, e.asks = true := by
  induction s using sendAll.induct with
  | case1 s s' hsend
  | case2 s s' hsend
  | case3 s e s' hsend =>
      rw [sendAllEvents_eq, hsend, List.append_nil]
      exact s.asks_sendOnceEvents
  | case4 s n s' hsend hopen ih =>
      rw [sendAllEvents_eq, hsend]
      simp only [hopen, if_true]
      exact List.forall_mem_append.mpr ⟨s.asks_sendOnceEvents, ih⟩
  | case5 s n s' hsend hclosed =>
      rw [sendAllEvents_eq, hsend]
      simp only [hclosed]
      exact List.forall_mem_append.mpr ⟨s.asks_sendOnceEvents, List.forall_mem_nil _⟩

/-- Inside a call on a busy session nobody is told of anything. -/
theorem asks_passEvents (s : Session T) (c : Call) : ∀ e ∈ s.passEvents c, e.asks = true := by
  cases c with
  | readable =>
      simp only [passEvents]
      split
      · exact s.asks_receiveEvents
      · exact List.forall_mem_nil _
  | writable =>
      simp only [passEvents]
      split
      · exact s.asks_sendAllEvents
      · exact List.forall_mem_nil _
  | _ => exact List.forall_mem_nil _

/-! ## What the handler is told -/

/-- The notice that an event is, if it is one, and the session at it. -/
def Event.told? {T : Type} : Event T → Option (Notice × Session T)
  | .told n s => some (n, s)
  | _ => none

/-- The notices of a trace, each with the session as the handler finds it. -/
def told {T : Type} (es : List (Event T)) : List (Notice × Session T) := es.filterMap Event.told?

@[simp] theorem told_append {T : Type} (es es' : List (Event T)) :
    told (es ++ es') = told es ++ told es' := List.filterMap_append

theorem mem_told {T : Type} {es : List (Event T)} {n : Notice} {s : Session T} :
    (n, s) ∈ told es ↔ .told n s ∈ es := by
  rw [told, List.mem_filterMap]
  constructor
  · rintro ⟨e, he, htold⟩
    cases e with
    | told n' s' =>
        cases htold
        exact he
    | _ => cases htold
  · exact fun he => ⟨_, he, rfl⟩

/-- Whatever the transport is asked, that tells nobody. -/
theorem told_of_asks {T : Type} {es : List (Event T)} (h : ∀ e ∈ es, e.asks = true) :
    told es = [] := by
  rw [told, List.filterMap_eq_nil_iff]
  intro e he
  cases e with
  | sent | received => rfl
  | _ => cases h _ he

theorem told_performEvents (s : Session T) (c : Call) : told (s.performEvents c) = [] := by
  have hcalled : told (s.performEvents c) = told (s.passEvents c ++ [.returned c _ _]) := rfl
  rw [hcalled, told_append, told_of_asks (s.asks_passEvents c)]
  rfl

/-- A busy handler is told nothing. -/
theorem told_events {α : Type} (p : Program T α) (s : Session T) : told (p.events s) = [] := by
  induction p generalizing s with
  | done a => rfl
  | look next ih => exact ih s s
  | call c next ih =>
      rw [Program.events, told_append, told_performEvents, ih]
      rfl
  | editRecvBuffer f next ih => exact ih _
  | editTransport f next ih => exact ih _

end Session

namespace Driven

open Session (Event Notice)

variable {H T : Type} [Transport T] [Handler T H]

/-! ## Calls from outside -/

/-- The events of `syncInterest`. -/
def syncInterestEvents (d : Driven H T) : List (Event T) :=
  let wanted := d.session.hasPendingSend
  if d.session.phase = .opened ∧ wanted ≠ d.session.writeInterest then
    [.told (.interest wanted) { d.session with writeInterest := wanted }]
  else []

/-- The events of `settle`. -/
def settleEvents (d : Driven H T) : List (Event T) :=
  if d.session.closePending then
    let session := { d.session with closePending := false }
    .told .close session ::
      syncInterestEvents { session, handler := Handler.onClose d.handler session }
  else d.syncInterestEvents

/-- The events of a callback that runs `p` and leaves the handler that is read off its result, and
of what is made up for behind it. -/
def callbackEvents {α : Type} (n : Notice) (d : Driven H T) (p : Session.Program T α)
    (handler : α → H) : List (Event T) :=
  let (result, session) := p.run d.session
  .told n d.session ::
    (p.events d.session ++ settleEvents { session, handler := handler result })

/-- The events of `notify`. -/
def notifyEvents (n : Notice) (d : Driven H T) (f : H → Session.Program T H) : List (Event T) :=
  d.callbackEvents n (f d.handler) id

/-- The events of `close`. -/
def closeEvents (d : Driven H T) : List (Event T) :=
  if d.session.phase = .closed then [] else settleEvents { d with session := d.session.close }

/-- The events of `readable`. -/
def readableEvents (d : Driven H T) : List (Event T) :=
  if d.session.isOpen then
    d.session.receiveEvents ++
      match d.session.receive 0 with
      | (.blocked, session) => notifyEvents .recv { d with session } Handler.onRecv
      | (.ended received, session) =>
          let d := { d with session }
          if 0 < received then
            d.notifyEvents .recv Handler.onRecv ++ (d.notify Handler.onRecv).closeEvents
          else d.closeEvents
      | (.failed _, session) => closeEvents { d with session }
  else []

/-- The events of `sendAll`. -/
def sendAllEvents (fuel : Nat) (d : Driven H T) : List (Event T) :=
  d.session.sendOnceEvents ++
    match d.session.sendOnce with
    | (.drained, session) => syncInterestEvents { d with session }
    | (.blocked, session) => syncInterestEvents { d with session }
    | (.failed _, session) => closeEvents { d with session }
    | (.sent n, session) =>
        match fuel with
        | 0 => []
        | fuel + 1 =>
            let told := notify { d with session } (Handler.onSend · n)
            notifyEvents (.send n) { d with session } (Handler.onSend · n) ++
              if told.isOpen then sendAllEvents fuel told else []

/-- The events inside a call. -/
def passEvents (fuel : Nat) (d : Driven H T) : Session.Call → List (Event T)
  | .openUp => []
  | .close => d.closeEvents
  | .readable => d.readableEvents
  | .writable => if d.session.isOpen then d.sendAllEvents fuel else []
  | .queueSend data =>
      match d.session.queueSend data with
      | (.ok (), session) => syncInterestEvents { d with session }
      | (.error _, _) => []
  | .sendFrame payload =>
      match d.session.sendFrame payload with
      | (.ok (), session) => syncInterestEvents { d with session }
      | (.error _, _) => []

/-- The events of a call. -/
def performEvents (fuel : Nat) (d : Driven H T) (c : Session.Call) : List (Event T) :=
  match d.perform fuel c with
  | none => .called c none d.session :: d.passEvents fuel c
  | some (answer, d') =>
      .called c (some answer) d.session ::
        (d.passEvents fuel c ++ [.returned c answer d'.session])

/-! ## Runs -/

/-- What happens to an idle session from outside: its owner makes a call, lends the session to the
handler or changes the handler; bytes are taken out of the recv buffer; the transport moves; time
passes. -/
inductive Step (H T : Type) where
  | call (c : Session.Call)
  | visit (f : H → Session.Program T (Unit × H))
  | editHandler (f : H → H)
  | editRecvBuffer (f : StreamBuffer → StreamBuffer)
  | editTransport (f : T → T)
  | wait (now : Nat)

/-- Take a step. Every writable pass may send `fuel` chunks. -/
def step (fuel : Nat) (d : Driven H T) : Step H T → Option (Driven H T)
  | .call c => (d.perform fuel c).map (·.2)
  | .visit f => some (d.withHandler f).2
  | .editHandler f => some { d with handler := f d.handler }
  | .editRecvBuffer f =>
      some { d with session := { d.session with recvBuffer := f d.session.recvBuffer } }
  | .editTransport f =>
      some { d with session := { d.session with transport := f d.session.transport } }
  | .wait now => some { d with session := d.session.atTime now }

/-- The events inside a step. -/
def workEvents (fuel : Nat) (d : Driven H T) : Step H T → List (Event T)
  | .call c => d.performEvents fuel c
  | .visit f => d.callbackEvents .visit (f d.handler) (·.2)
  | _ => []

/-- The events of a step. -/
def stepEvents (fuel : Nat) (d : Driven H T) (step : Step H T) : List (Event T) :=
  d.workEvents fuel step ++
    match d.step fuel step with
    | none => []
    | some d' => [.idle d'.session]

/-- The trace of a run that takes the given steps one after the other. -/
def trace (fuel : Nat) (d : Driven H T) : List (Step H T) → List (Event T)
  | [] => []
  | step :: steps =>
      d.stepEvents fuel step ++
        match d.step fuel step with
        | none => []
        | some d' => trace fuel d' steps

theorem trace_append (fuel : Nat) (d : Driven H T) (steps steps' : List (Step H T)) :
    d.trace fuel (steps ++ steps') = d.trace fuel steps ++
      match steps.foldlM (step fuel) d with
      | none => []
      | some d' => d'.trace fuel steps' := by
  induction steps generalizing d with
  | nil => rfl
  | cons step steps ih =>
      rw [List.cons_append, trace, trace, List.foldlM_cons, List.append_assoc]
      cases d.step fuel step with
      | none => rfl
      | some d' =>
          dsimp only
          rw [ih d']
          rfl

/-- A session that was just made, with its handler. -/
def new (transport : T) (recvCapacity sendCapacity now : Nat) (handler : H) : Driven H T where
  session := .new transport recvCapacity sendCapacity now
  handler

end Driven
end TcpReactor
