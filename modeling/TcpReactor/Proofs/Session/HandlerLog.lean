import TcpReactor.Proofs.Session.Calls

namespace TcpReactor

/-! # The trace and what a handler hears

The trace of a run says what the handler is told and when, beside the operations that tell it. Here
any handler is given a log: whenever one of its callbacks is called, this is written down with the
session as the callback finds it, and everything else is left to the handler.

By `heard_trace` a run with a log is the run without one, and what is in the log at its end are the
notices of the trace, in their order and with their sessions. So whatever is proved of the notices
in a trace is proved of the calls that the callbacks of a handler get: `Session.closes_heard` and
`Session.interests_heard` say so of closes and of write interest.
-/

open Session (Notice Program told)

/-- A handler, and what it was told so far with the session at that time. -/
structure Logged (H T : Type) where
  handler : H
  log : List (Notice × Session T)

namespace Logged

variable {H T : Type}

/-- The callback `f`, which is called with the notice `n`. -/
def noting (n : Notice) (f : H → Program T H) (l : Logged H T) : Program T (Logged H T) :=
  .look fun s => (f l.handler).bind fun handler => .done { handler, log := l.log ++ [(n, s)] }

/-- What the handler does with a session that is lent to it. -/
def visiting (f : H → Program T (Unit × H)) (l : Logged H T) : Program T (Unit × Logged H T) :=
  .look fun s =>
    (f l.handler).bind fun r => .done (r.1, { handler := r.2, log := l.log ++ [(.visit, s)] })

instance [Handler T H] : Handler T (Logged H T) where
  onRecv := noting .recv Handler.onRecv
  onSend l amount := noting (.send amount) (Handler.onSend · amount) l
  onClose l s := { handler := Handler.onClose l.handler s, log := l.log ++ [(.close, s)] }
  onInterest l s on :=
    { handler := Handler.onInterest l.handler s on, log := l.log ++ [(.interest on, s)] }

variable [Transport T]

theorem run_noting (n : Notice) (f : H → Program T H) (l : Logged H T) (s : Session T) :
    (noting n f l).run s =
      ({ handler := ((f l.handler).run s).1, log := l.log ++ [(n, s)] },
        ((f l.handler).run s).2) :=
  Session.Program.run_bind _ _ s

theorem run_visiting (f : H → Program T (Unit × H)) (l : Logged H T) (s : Session T) :
    (visiting f l).run s =
      ((((f l.handler).run s).1.1,
          { handler := ((f l.handler).run s).1.2, log := l.log ++ [(.visit, s)] }),
        ((f l.handler).run s).2) :=
  Session.Program.run_bind _ _ s

end Logged

namespace Driven

variable {H T : Type}

/-- The session with its handler, whose log is `log`. -/
def logged (d : Driven H T) (log : List (Notice × Session T)) : Driven (Logged H T) T where
  session := d.session
  handler := { handler := d.handler, log }

@[simp] theorem isOpen_logged [Transport T] (d : Driven H T) (log : List (Notice × Session T)) :
    (d.logged log).isOpen = d.isOpen := rfl

theorem logged_told_nil (d : Driven H T) (log : List (Notice × Session T)) :
    d.logged (log ++ told []) = d.logged log :=
  congrArg d.logged (List.append_nil log)

/-- A step of the owner, who knows nothing of the log. -/
def Step.logged : Step H T → Step (Logged H T) T
  | .call c => .call c
  | .visit f => .visit (Logged.visiting f)
  | .editHandler f => .editHandler fun l => { l with handler := f l.handler }
  | .editRecvBuffer f => .editRecvBuffer f
  | .editTransport f => .editTransport f
  | .wait now => .wait now

variable [Handler T H] (d : Driven H T) (log : List (Notice × Session T))

/-! ## Notifications -/

theorem heard_syncInterest :
    (d.logged log).syncInterest = d.syncInterest.logged (log ++ told d.syncInterestEvents) := by
  rcases d with ⟨s, handler⟩
  show Driven.syncInterest ⟨s, Logged.mk handler log⟩ = _
  simp only [syncInterest, syncInterestEvents]
  split
  · rfl
  · exact (logged_told_nil ⟨s, handler⟩ log).symm

theorem heard_settle :
    (d.logged log).settle = d.settle.logged (log ++ told d.settleEvents) := by
  rcases d with ⟨s, handler⟩
  show Driven.settle ⟨s, Logged.mk handler log⟩ = _
  simp only [settle, settleEvents]
  split
  · -- the notice of the close comes first, and behind it that of the interest
    have hsync := heard_syncInterest
      (Driven.mk { s with closePending := false }
        (Handler.onClose handler { s with closePending := false }))
      (log ++ [(.close, { s with closePending := false })])
    rw [List.append_assoc] at hsync
    exact hsync
  · exact heard_syncInterest ⟨s, handler⟩ log

variable [Transport T]

/-- What is told around a callback: inside, the handler is busy and told nothing. -/
theorem told_callbackEvents {α : Type} (n : Notice) (p : Program T α) (handler : α → H) :
    told (d.callbackEvents n p handler) =
      (n, d.session) :: told (settleEvents
        { session := (p.run d.session).2, handler := handler (p.run d.session).1 }) := by
  have hcons : told (d.callbackEvents n p handler) =
      (n, d.session) :: told (p.events d.session ++ settleEvents
        { session := (p.run d.session).2, handler := handler (p.run d.session).1 }) := rfl
  rw [hcons, Session.told_append, Session.told_events, List.nil_append]

theorem heard_notify (n : Notice) (f : H → Program T H) :
    (d.logged log).notify (Logged.noting n f) =
      (d.notify f).logged (log ++ told (d.notifyEvents n f)) := by
  rw [notify, notify, notifyEvents, told_callbackEvents, Logged.run_noting]
  have hsettle := heard_settle
    (Driven.mk ((f d.handler).run d.session).2 ((f d.handler).run d.session).1)
    (log ++ [(n, d.session)])
  rw [List.append_assoc] at hsettle
  exact hsettle

theorem heard_withHandler (f : H → Program T (Unit × H)) :
    ((d.logged log).withHandler (Logged.visiting f)).2 =
      (d.withHandler f).2.logged
        (log ++ told (d.callbackEvents .visit (f d.handler) (·.2))) := by
  rw [withHandler, withHandler, told_callbackEvents, Logged.run_visiting]
  have hsettle := heard_settle
    (Driven.mk ((f d.handler).run d.session).2 ((f d.handler).run d.session).1.2)
    (log ++ [(.visit, d.session)])
  rw [List.append_assoc] at hsettle
  exact hsettle

/-! ## Calls -/

theorem heard_close : (d.logged log).close = d.close.logged (log ++ told d.closeEvents) := by
  rcases d with ⟨s, handler⟩
  show Driven.close ⟨s, Logged.mk handler log⟩ = _
  simp only [close, closeEvents]
  split
  · exact (logged_told_nil ⟨s, handler⟩ log).symm
  · exact heard_settle ⟨s.close, handler⟩ log

theorem heard_readable :
    (d.logged log).readable =
      (d.readable.1, d.readable.2.logged (log ++ told d.readableEvents)) := by
  rcases d with ⟨s, handler⟩
  show Driven.readable ⟨s, Logged.mk handler log⟩ = _
  have hrecv (s : Session T) := heard_notify ⟨s, handler⟩ log .recv Handler.onRecv
  have hclose (s : Session T) := heard_close (Driven.mk s handler) log
  simp only [readable, readableEvents]
  split
  · rw [Session.told_append, Session.told_of_asks s.asks_receiveEvents, List.nil_append]
    rcases s.receive 0 with ⟨_ | received | e, s'⟩
    · exact congrArg (Prod.mk _) (hrecv s')
    · refine congrArg (Prod.mk _) ?_
      dsimp only
      -- bytes that came before the end are told before the close
      split
      · rw [Session.told_append, ← List.append_assoc]
        exact Eq.trans (congrArg Driven.close (hrecv s')) (heard_close _ _)
      · exact hclose s'
    · exact congrArg (Prod.mk _) (hclose s')
  · exact congrArg (Prod.mk _) (logged_told_nil ⟨s, handler⟩ log).symm

theorem heard_sendAll (fuel : Nat) :
    (d.logged log).sendAll fuel =
      (d.sendAll fuel).map fun r => (r.1, r.2.logged (log ++ told (d.sendAllEvents fuel))) := by
  -- the recursion of `sendAll`: each chunk that was sent costs one unit of fuel
  induction fuel using Nat.strongRecOn generalizing d log with
  | ind fuel ih =>
      rcases d with ⟨s, handler⟩
      show Driven.sendAll fuel ⟨s, Logged.mk handler log⟩ = _
      rw [sendAll.eq_def, sendAll.eq_def, sendAllEvents.eq_def, Session.told_append,
        Session.told_of_asks s.asks_sendOnceEvents, List.nil_append]
      dsimp only
      rcases s.sendOnce with ⟨_ | _ | e | n, s'⟩
      · exact congrArg (fun d => some (_, d)) (heard_syncInterest ⟨s', handler⟩ log)
      · exact congrArg (fun d => some (_, d)) (heard_syncInterest ⟨s', handler⟩ log)
      · exact congrArg (fun d => some (_, d)) (heard_close ⟨s', handler⟩ log)
      · cases fuel with
        | zero => rfl
        | succ fuel =>
            have hsend : Driven.notify ⟨s', Logged.mk handler log⟩ (Handler.onSend · n) = _ :=
              heard_notify ⟨s', handler⟩ log (.send n) (Handler.onSend · n)
            simp only [hsend, Session.told_append, ← List.append_assoc, isOpen_logged]
            split
            · exact ih fuel (Nat.lt_succ_self fuel) _ _
            · exact congrArg (fun d => some (_, d)) (logged_told_nil _ _).symm

theorem told_performEvents (fuel : Nat) (c : Session.Call) :
    told (d.performEvents fuel c) = told (d.passEvents fuel c) := by
  rw [performEvents]
  cases d.perform fuel c with
  | none => rfl
  | some r =>
      have hcalled : told (.called c (some r.1) d.session ::
          (d.passEvents fuel c ++ [.returned c r.1 r.2.session])) =
        told (d.passEvents fuel c ++ [.returned c r.1 r.2.session]) := rfl
      rw [hcalled, Session.told_append]
      exact List.append_nil _

theorem heard_queued (fuel : Nat) {c : Session.Call} (hc : c.queues = true) :
    (d.logged log).perform fuel c =
      (d.perform fuel c).map fun r => (r.1, r.2.logged (log ++ told (d.passEvents fuel c))) := by
  rcases d with ⟨s, handler⟩
  rw [passEvents_of_queues fuel _ hc, perform_of_queues fuel _ hc, perform_of_queues fuel _ hc]
  simp only [logged]
  rcases s.perform c with ⟨e | ⟨⟩, s'⟩
  · exact congrArg (fun d => some (_, d)) (logged_told_nil ⟨s', handler⟩ log).symm
  · exact congrArg (fun d => some (_, d)) (heard_syncInterest ⟨s', handler⟩ log)

theorem heard_perform (fuel : Nat) (c : Session.Call) :
    (d.logged log).perform fuel c =
      (d.perform fuel c).map fun r =>
        (r.1, r.2.logged (log ++ told (d.performEvents fuel c))) := by
  rw [told_performEvents]
  rcases d with ⟨s, handler⟩
  show Driven.perform fuel ⟨s, Logged.mk handler log⟩ c = _
  -- a call that tells nobody leaves the log as it is, the others have been dealt with
  cases c with
  | openUp => exact congrArg (fun d => some (_, d)) (logged_told_nil ⟨s.openUp.2, handler⟩ log).symm
  | close => exact congrArg (fun d => some (Except.ok (), d)) (heard_close ⟨s, handler⟩ log)
  | readable => exact congrArg some (heard_readable ⟨s, handler⟩ log)
  | writable =>
      simp only [perform, writable, passEvents]
      split
      · exact heard_sendAll ⟨s, handler⟩ log fuel
      · exact congrArg (fun d => some (_, d)) (logged_told_nil ⟨s, handler⟩ log).symm
  | queueSend | sendFrame => exact heard_queued ⟨s, handler⟩ log fuel rfl

/-! ## Whole runs -/

theorem heard_step (fuel : Nat) (step : Step H T) :
    (d.logged log).step fuel step.logged =
      (d.step fuel step).map (·.logged (log ++ told (d.stepEvents fuel step))) := by
  have hevents : told (d.stepEvents fuel step) = told (d.workEvents fuel step) := by
    rw [stepEvents, Session.told_append]
    cases d.step fuel step <;> exact List.append_nil _
  rw [hevents]
  -- a step that is no call and no visit tells nobody
  have hmoved (d' : Driven H T) :
      some (d'.logged log) = some (d'.logged (log ++ told [])) := by
    rw [logged_told_nil]
  cases step with
  | call c =>
      show ((d.logged log).perform fuel c).map _ = ((d.perform fuel c).map _).map _
      rw [heard_perform, Option.map_map, Option.map_map]
      rfl
  | visit f => exact congrArg some (heard_withHandler d log f)
  | editHandler f => exact hmoved { d with handler := f d.handler }
  | editRecvBuffer f =>
      exact hmoved { d with session := { d.session with recvBuffer := f d.session.recvBuffer } }
  | editTransport f =>
      exact hmoved { d with session := { d.session with transport := f d.session.transport } }
  | wait now => exact hmoved { d with session := d.session.atTime now }

/-- In every run, of whatever handler, the callbacks are called as the trace says. -/
theorem heard_trace (fuel : Nat) (steps : List (Step H T)) :
    (steps.map Step.logged).foldlM (step fuel) (d.logged log) =
      (steps.foldlM (step fuel) d).map (·.logged (log ++ told (d.trace fuel steps))) := by
  induction steps generalizing d log with
  | nil =>
      exact congrArg some (logged_told_nil d log).symm
  | cons step steps ih =>
      rw [List.map_cons, List.foldlM_cons, List.foldlM_cons, heard_step, trace]
      cases d.step fuel step with
      | none => rfl
      | some d' =>
          rw [Session.told_append, ← List.append_assoc]
          exact ih d' _

end Driven
end TcpReactor
