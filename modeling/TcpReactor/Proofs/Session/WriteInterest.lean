import Mathlib.Data.List.Chain
import TcpReactor.Proofs.Session.CloseNotice
import TcpReactor.Proofs.Simulation

namespace TcpReactor.Session

/-! # Write interest follows the send buffer

A handler is told when the send buffer goes from empty to non-empty and back, and by the last thing
it was told its poller decides whether to watch for write readiness. Bytes are queued and sent from
outside and from inside callbacks, where nobody is told; what was missed is made up for behind the
callback, unless the session has closed meanwhile.

* `Settled`: whenever the owner has the session back, nothing is left to be made up for.
* `InterestTold`: in a cycle the handler is told `true`, `false`, `true`, … in turn, and each time
  finds the send buffer as it is told.
* `interest_told`: this is so in every run, and when the owner has the session back, the last word
  of the cycle is the state of the send buffer.
* `interests_heard`: what the trace tells are the calls that `onInterest` of the handler gets, by
  `Driven.heard_trace`.
-/

/-! ## What is made up for -/

variable {T : Type}

/-- The handler knows of every close, and in an open session also of the state of the send
buffer. -/
structure Settled (s : Session T) : Prop where
  told : s.closePending = false
  synced : s.phase = .opened → s.writeInterest = s.hasPendingSend

end Session

namespace Driven

open Session (Settled Program Call)

variable {H T : Type} [Transport T] [Handler T H]

omit [Transport T] in
theorem settled_syncInterest {d : Driven H T} (h : d.session.closePending = false) :
    d.syncInterest.session.Settled := by
  rw [syncInterest]
  split
  · exact ⟨h, fun _ => rfl⟩
  · rename_i hsame
    refine ⟨h, fun hopen => ?_⟩
    by_contra hne
    exact hsame ⟨hopen, fun heq => hne heq.symm⟩

omit [Transport T] in
/-- Behind a callback everything is made up for, whatever happened inside. -/
theorem settled_settle (d : Driven H T) : d.settle.session.Settled := by
  rw [settle]
  split
  · exact settled_syncInterest rfl
  · rename_i hpending
    exact settled_syncInterest (by simpa using hpending)

theorem settled_notify (d : Driven H T) (f : H → Program T H) :
    (d.notify f).session.Settled :=
  settled_settle _

theorem settled_close {d : Driven H T} (h : d.session.Settled) : d.close.session.Settled := by
  rw [close]
  split
  · exact h
  · exact settled_settle _

theorem settled_readable {d : Driven H T} (h : d.session.Settled) :
    d.readable.2.session.Settled := by
  rw [readable]
  split
  · rcases hreceive : d.session.receive 0 with ⟨_ | received | e, s⟩
    · exact settled_notify _ _
    all_goals
      have hquiet := d.session.receive_quiet 0
      rw [hreceive] at hquiet
      rcases hquiet with ⟨_, _, _, _, rfl⟩
    · dsimp only
      split
      · exact settled_close (settled_notify _ _)
      · exact settled_close ⟨h.told, h.synced⟩
    · exact settled_close ⟨h.told, h.synced⟩
  · exact h

/-- A pass that stops of itself makes up for what it did; a callback, for what it did inside. -/
theorem settled_sendAll {fuel : Nat} {answer : Except SessionError Unit} {d d' : Driven H T}
    (h : d.session.Settled) (hsend : d.sendAll fuel = some (answer, d')) :
    d'.session.Settled := by
  induction fuel using Nat.strongRecOn generalizing d with
  | ind fuel ih =>
      rw [sendAll.eq_def] at hsend
      have hmarks := (d.session.sendOnce_marks).2.trans h.told
      rcases honce : d.session.sendOnce with ⟨_ | _ | e | n, s⟩
      all_goals
        rw [honce] at hsend hmarks
        dsimp only at hsend hmarks
      · cases hsend
        exact settled_syncInterest hmarks
      · cases hsend
        exact settled_syncInterest hmarks
      · cases hsend
        rw [close]
        split
        · -- nobody asks for the interest of a session that is closed already
          rename_i hclosed
          refine ⟨hmarks, fun hopen => ?_⟩
          rw [hclosed] at hopen
          cases hopen
        · exact settled_settle _
      · cases fuel with
        | zero => cases hsend
        | succ fuel =>
            dsimp only at hsend
            split at hsend
            · exact ih fuel (Nat.lt_succ_self fuel) (settled_notify _ _) hsend
            · cases hsend
              exact settled_notify _ _

/-- Behind a call that queues, the handler knows of the bytes to send. -/
theorem settled_queued {fuel : Nat} {c : Call} {answer : Except SessionError Unit}
    {d d' : Driven H T} (hc : c.queues = true) (h : d.session.Settled)
    (hperform : d.perform fuel c = some (answer, d')) : d'.session.Settled := by
  have hpending := (Session.closePending_perform hc d.session).trans h.told
  rw [perform_of_queues fuel d hc] at hperform
  rcases hqueue : d.session.perform c with ⟨e | _, s⟩
  all_goals
    rw [hqueue] at hperform hpending
    cases hperform
  · rcases Session.perform_queues hc d.session with ⟨_, hrefused⟩ | ⟨_, hqueued, _⟩
    · cases hqueue.symm.trans hrefused
      exact h
    · cases hqueue.symm.trans hqueued
  · exact settled_syncInterest hpending

theorem settled_perform {fuel : Nat} {c : Call} {answer : Except SessionError Unit}
    {d d' : Driven H T} (h : d.session.Settled) (hperform : d.perform fuel c = some (answer, d')) :
    d'.session.Settled := by
  cases c with
  | openUp =>
      rw [perform, openUp] at hperform
      rcases hopen : d.session.openUp with ⟨e | _, s⟩
      all_goals
        rw [hopen] at hperform
        cases hperform
      · -- a session that has not opened has nothing to be told of
        rcases Session.openUp_error hopen with rfl | ⟨hclosed, _, _, rfl, _⟩
        · exact h
        · refine ⟨h.told, fun hopened => ?_⟩
          rw [show d.session.phase = .opened from hopened] at hclosed
          cases hclosed
      · -- a session opens with nothing to send and nothing told
        rcases Session.openUp_ok hopen with ⟨_, _, _, hempty, hinterest, hpending⟩
        refine ⟨hpending.trans h.told, fun _ => ?_⟩
        rw [hinterest, Session.hasPendingSend, (StreamBuffer.isEmpty_iff _).mpr hempty]
        rfl
  | close =>
      cases hperform
      exact settled_close h
  | readable =>
      have hd := congrArg Prod.snd (Option.some.inj hperform)
      rw [← show d.readable.2 = d' from hd]
      exact settled_readable h
  | writable =>
      rw [perform, writable] at hperform
      split at hperform
      · exact settled_sendAll h hperform
      · cases hperform
        exact h
  | queueSend | sendFrame => exact settled_queued rfl h hperform

theorem settled_step {fuel : Nat} {step : Step H T} {d d' : Driven H T}
    (h : d.session.Settled) (hstep : d.step fuel step = some d') : d'.session.Settled := by
  cases step with
  | call c =>
      rcases Option.map_eq_some_iff.mp hstep with ⟨⟨answer, d₁⟩, hperform, rfl⟩
      exact settled_perform h hperform
  | visit f =>
      cases hstep
      exact settled_settle _
  | editHandler f | editRecvBuffer f | editTransport f | wait now =>
      cases hstep
      exact ⟨h.told, h.synced⟩

theorem settled_run {fuel : Nat} {steps : List (Step H T)} {d d' : Driven H T}
    (h : d.session.Settled) (hrun : steps.foldlM (Driven.step fuel) d = some d') :
    d'.session.Settled :=
  foldlM_keeps (P := fun _ => True) (I := fun d => d.session.Settled)
    (fun _ h hstep => settled_step h hstep) (fun _ _ => trivial) h hrun

/-- A session that was just made and opened. -/
theorem settled_openUp {transport : T} {recvCapacity sendCapacity now : Nat} {handler : H}
    {d : Driven H T}
    (hopen : (Driven.new transport recvCapacity sendCapacity now handler).openUp = (.ok (), d)) :
    d.session.Settled := by
  have hnew : (Driven.new transport recvCapacity sendCapacity now handler).session.Settled :=
    ⟨rfl, fun hphase => by cases hphase⟩
  have hperform : (Driven.new transport recvCapacity sendCapacity now handler).perform 0 .openUp =
      some (.ok (), d) := by
    rw [perform, hopen]
  exact settled_perform hnew hperform

end Driven

namespace Session

variable {T : Type}

/-! ## What is told of the interest -/

/-- The value that an event tells. -/
def Event.interest? : Event T → Option Bool
  | .told (.interest on) _ => some on
  | _ => none

/-- The values that are told in a stretch of a trace. -/
def interests (es : List (Event T)) : List Bool := es.filterMap Event.interest?

/-- What a handler is told of the interest in a trace, and how it finds the session then. -/
structure InterestTold (trace : List (Event T)) : Prop where
  /-- In a cycle the values change from one to the next, and the first is `true`. -/
  alternates : ∀ start opening cycle rest, trace = start ++ opening :: (cycle ++ rest) →
    opening.opens = true → (∀ e ∈ cycle, e.opens = false) →
    (false :: interests cycle).IsChain (· ≠ ·)
  /-- Whoever is told finds an open session that wants what it has. -/
  shown : ∀ on s, .told (.interest on) s ∈ trace →
    s.phase = .opened ∧ s.writeInterest = on ∧ s.hasPendingSend = on

/-! ## Keeping track of the last word -/

/-- The last value that was told in the cycle, `false` if none was yet. Before the first open there
is no cycle. -/
def lastTold (q : Option Bool) (e : Event T) : Option Bool :=
  if e.opens then some false
  else match e.interest? with
    | some on => some on
    | none => q

/-- What is demanded of an event: a value is new, and true of the session. -/
def InterestDemand (q : Option Bool) (e : Event T) : Prop :=
  ∀ on s, e = .told (.interest on) s →
    q = some (!on) ∧ s.phase = .opened ∧ s.writeInterest = on ∧ s.hasPendingSend = on

def interestWatch (T : Type) : Observer (Option Bool) T where
  next := lastTold
  demands := InterestDemand

/-- The invariant: the interest of an open session is what its handler was told last, and a closed
one has none and cannot have any. -/
structure InterestWatched (q : Option Bool) (s : Session T) : Prop where
  opened : s.phase = .opened → q = some s.writeInterest
  closed : s.phase = .closed → s.writeInterest = false ∧ s.sendBuffer.isOpen = false

namespace InterestWatched

variable {q : Option Bool} {s s' : Session T} {e : Event T}

theorem of_closed (hphase : s.phase = .closed) (hinterest : s.writeInterest = false)
    (hsend : s.sendBuffer.isOpen = false) : InterestWatched q s where
  opened h := by rw [hphase] at h; cases h
  closed _ := ⟨hinterest, hsend⟩

theorem of_opened (hphase : s.phase = .opened) (hq : q = some s.writeInterest) :
    InterestWatched q s where
  opened _ := hq
  closed h := by rw [hphase] at h; cases h

/-- An event that neither opens nor tells. -/
theorem skip (hopens : e.opens = false) (hinterest : e.interest? = none)
    (h : InterestWatched q s) : (interestWatch T).Keeps InterestWatched q [e] s := by
  refine Observer.Keeps.single fun _ => ⟨?_, ?_⟩
  · rintro on s' rfl
    cases hinterest
  · show InterestWatched (lastTold q e) s
    rw [lastTold, hopens, hinterest]
    exact h

variable [Transport T]

theorem close (h : InterestWatched q s) : InterestWatched q s.close := by
  cases hphase : s.phase with
  | closed =>
      rw [close_closed hphase]
      exact h
  | opened =>
      rcases close_opened hphase with ⟨hclosed, hsend, hinterest, _⟩
      exact of_closed hclosed hinterest hsend

theorem openUp (h : InterestWatched q s) : (interestWatch T).Keeps InterestWatched q
    [.called .openUp (some s.openUp.1) s] s.openUp.2 := by
  rcases hcall : s.openUp with ⟨cause | _, s'⟩
  · refine skip rfl rfl ?_
    rcases openUp_error hcall with rfl | ⟨hphase, recvBuffer, sendBuffer, rfl, hsend⟩
    · exact h
    · rcases h.closed hphase with ⟨hinterest, hclosed⟩
      refine of_closed (s := { s with recvBuffer, sendBuffer }) hphase hinterest ?_
      rcases hsend with rfl | hsend
      · exact hclosed
      · exact hsend
  · rcases openUp_ok hcall with ⟨_, _, hphase, _, hinterest, _⟩
    refine Observer.Keeps.single fun _ => ⟨by rintro on s'' ⟨⟩, ?_⟩
    -- a new cycle, in which nothing was told yet
    refine of_opened hphase ?_
    rw [hinterest]
    rfl

theorem queue {call : Call} (hc : call.queues = true) (h : InterestWatched q s) :
    (interestWatch T).Keeps InterestWatched q [.called call (some (s.perform call).1) s]
      (s.perform call).2 := by
  have hinterest := writeInterest_perform hc s
  rcases perform_queues hc s with ⟨e, hcall⟩ | ⟨s', hcall, hopen, hopen', _, _⟩
  · rw [hcall]
    refine skip ?_ rfl h
    cases call with
    | openUp => cases hc
    | _ => rfl
  · rw [hcall] at hinterest ⊢
    refine skip ?_ rfl (of_opened hopen' ?_)
    · cases call with
      | openUp => cases hc
      | _ => rfl
    · rw [show s'.writeInterest = s.writeInterest from hinterest]
      exact h.opened hopen

/-- Whatever a session does, its handler is told when to watch. -/
theorem preserves : (interestWatch T).Preserves InterestWatched where
  quiet := by
    intro q s s' hquiet h
    rcases hquiet with ⟨_, _, _, _, rfl⟩
    exact ⟨h.opened, h.closed⟩
  close := fun h => h.close
  called := by
    intro q s call hdone h
    cases call with
    | readable | writable => cases hdone
    | openUp => exact h.openUp
    | close => exact skip rfl rfl h.close
    | queueSend | sendFrame => exact h.queue rfl
  started := by
    intro q s call answer hpass h
    cases call with
    | readable | writable => exact skip rfl rfl h
    | _ => cases hpass
  returned := by
    intro q s call answer h
    exact skip rfl rfl h
  received := by
    intro q s answer h
    exact skip rfl rfl h
  sent := by
    intro q s hopen h
    have hphase := s.sendOnce_marks.1.trans (phase_of_isOpen hopen)
    have h' : InterestWatched q s.sendOnce.2 := by
      refine of_opened hphase ?_
      rw [s.writeInterest_sendOnce]
      exact h.opened (phase_of_isOpen hopen)
    rcases s.sendOnce_cases with ⟨_, hevents, _⟩ | ⟨_, _, _, _, _, _, _, hevents, _⟩
    · rw [hevents]
      exact Observer.Keeps.nil h'
    · rw [hevents]
      exact skip rfl rfl h'
  told := by
    intro q s n hlends _ _ h
    cases n with
    | close | interest => cases hlends
    | _ => exact skip rfl rfl h
  toldClose := by
    intro q s _ h
    exact skip rfl rfl ⟨h.opened, h.closed⟩
  toldInterest := by
    intro q s hopen _ hchanged h
    refine Observer.Keeps.single fun _ => ⟨?_, of_opened hopen rfl⟩
    rintro on s' ⟨⟩
    refine ⟨?_, hopen, rfl, rfl⟩
    -- what was told last is not what is told now
    rw [h.opened hopen, Option.some.injEq]
    revert hchanged
    cases s.hasPendingSend <;> cases s.writeInterest <;> simp
  idle := by
    intro q s _ h
    exact skip rfl rfl h

end InterestWatched

/-! ## What an accepted trace tells -/

variable {q : Option Bool} {es : List (Event T)}

/-- Without an open every value that is told differs from the one before. -/
theorem isChain_interests {on : Bool} (h : (interestWatch T).Accepts (some on) es)
    (hopens : ∀ e ∈ es, e.opens = false) :
    (on :: interests es).IsChain (· ≠ ·) ∧
      (interestWatch T).after (some on) es = some ((interests es).getLastD on) := by
  -- the induction is on the trace, and `on` is what was told last
  induction es generalizing on with
  | nil => exact ⟨List.isChain_singleton on, rfl⟩
  | cons e es ih =>
      rcases h with ⟨hdemand, haccepts⟩
      rw [List.forall_mem_cons] at hopens
      have hnext : (interestWatch T).next (some on) e = some (e.interest?.getD on) := by
        show lastTold (some on) e = _
        rw [lastTold, hopens.1]
        cases e.interest? <;> rfl
      rw [hnext] at haccepts
      have hafter : (interestWatch T).after (some on) (e :: es) =
          (interestWatch T).after (some (e.interest?.getD on)) es := by
        rw [← hnext]
        rfl
      rcases ih haccepts hopens.2 with ⟨hchain, hlast⟩
      rw [hafter, hlast]
      -- a notice of the interest adds a link to the chain, any other event leaves it as it is
      cases hvalue : e.interest? with
      | none =>
          rw [hvalue] at hchain
          rw [interests, List.filterMap_cons_none hvalue]
          exact ⟨hchain, rfl⟩
      | some value =>
          rw [hvalue] at hchain
          rw [interests, List.filterMap_cons_some hvalue]
          refine ⟨List.isChain_cons_cons.mpr ⟨?_, hchain⟩, by rw [List.getLastD_cons]; rfl⟩
          cases e with
          | told n s =>
              cases n with
              | interest on' =>
                  cases hvalue
                  have hold := (hdemand _ _ rfl).1
                  rw [Option.some.injEq] at hold
                  rw [hold]
                  cases value <;> simp
              | _ => cases hvalue
          | _ => cases hvalue

/-- A trace has a last cycle, if anything was told in it. -/
theorem exists_lastCycle {on : Bool} (h : (interestWatch T).Accepts none es)
    (hafter : (interestWatch T).after none es = some on) :
    ∃ start opening cycle, es = start ++ opening :: cycle ∧ opening.opens = true ∧
      (∀ e ∈ cycle, e.opens = false) ∧ (interests cycle).getLastD false = on := by
  induction es using List.reverseRecOn generalizing on with
  | nil => cases hafter
  | append_singleton es e ih =>
      rw [(interestWatch T).accepts_append] at h
      have hnext : lastTold ((interestWatch T).after none es) e = some on := by
        rw [Observer.after_append] at hafter
        exact hafter
      rw [lastTold] at hnext
      cases hopens : e.opens with
      | true =>
          rw [hopens] at hnext
          cases hnext
          exact ⟨es, e, [], rfl, hopens, by simp, rfl⟩
      | false =>
          rw [hopens] at hnext
          cases hvalue : e.interest? with
          | none =>
              rw [hvalue] at hnext
              rcases ih h.1 hnext with ⟨start, opening, cycle, rfl, hopening, hcycle, hlast⟩
              refine ⟨start, opening, cycle ++ [e], by simp, hopening, ?_, ?_⟩
              · simpa [or_imp, forall_and, hopens] using hcycle
              · rw [interests, List.filterMap_append, List.filterMap_cons_none hvalue,
                  List.filterMap_nil, List.append_nil]
                exact hlast
          | some value =>
              rw [hvalue] at hnext
              cases hnext
              -- a value is told in a cycle only
              have hbefore : (interestWatch T).after none es = some (!on) := by
                cases e with
                | told n s =>
                    cases n with
                    | interest on' =>
                        cases hvalue
                        exact (h.2.1 _ _ rfl).1
                    | _ => cases hvalue
                | _ => cases hvalue
              rcases ih h.1 hbefore with ⟨start, opening, cycle, rfl, hopening, hcycle, _⟩
              refine ⟨start, opening, cycle ++ [e], by simp, hopening, ?_, ?_⟩
              · simpa [or_imp, forall_and, hopens] using hcycle
              · rw [interests, List.filterMap_append, List.filterMap_cons_some hvalue,
                  List.filterMap_nil, List.getLastD_concat]

theorem InterestTold.of_accepts {trace : List (Event T)}
    (h : (interestWatch T).Accepts none trace) : InterestTold trace where
  alternates := by
    intro start opening cycle rest htrace hopening hcycle
    rw [htrace] at h
    have haccepts := (((interestWatch T).accepts_append _ _ _).mp h).2.2
    -- an open resets what is known
    have hnext : (interestWatch T).next ((interestWatch T).after none start) opening =
        some false := by
      show lastTold _ opening = _
      rw [lastTold, if_pos hopening]
    rw [hnext] at haccepts
    exact (isChain_interests (((interestWatch T).accepts_append _ _ _).mp haccepts).1 hcycle).1
  shown := by
    intro on s hs
    rcases List.append_of_mem hs with ⟨start, rest, htrace⟩
    rw [htrace] at h
    have hdemand : InterestDemand _ (.told (.interest on) s) := h.demands
    exact (hdemand on s rfl).2

/-- A session that was just made was told nothing. -/
theorem InterestWatched.start {H : Type} (transport : T) (recvCapacity sendCapacity now : Nat)
    (handler : H) :
    Observer.Preserves.Told InterestWatched none
      (Driven.new transport recvCapacity sendCapacity now handler).session :=
  ⟨InterestWatched.of_closed rfl rfl rfl, rfl⟩

/-! ## The calls that a handler gets -/

/-- The value that a notice tells. -/
def Notice.interest? : Notice → Option Bool
  | .interest on => some on
  | _ => none

theorem interests_told (es : List (Event T)) :
    (told es).filterMap (·.1.interest?) = interests es := by
  rw [told, List.filterMap_filterMap, interests]
  congr 1
  funext e
  cases e with
  | told n s => cases n <;> rfl
  | _ => rfl

/-- In every run `onInterest` of the handler is called with the values that the trace tells, each
time with an open session that wants what it has. -/
theorem interests_heard [Transport T] {H : Type} [Handler T H] {fuel : Nat} {transport : T}
    {recvCapacity sendCapacity now : Nat} {handler : H} {steps : List (Driven.Step H T)}
    {d : Driven H T}
    (hrun : steps.foldlM (Driven.step fuel)
      (Driven.new transport recvCapacity sendCapacity now handler) = some d) :
    ∃ log, (steps.map Driven.Step.logged).foldlM (Driven.step fuel)
        ((Driven.new transport recvCapacity sendCapacity now handler).logged []) =
          some (d.logged log) ∧
      log.filterMap (·.1.interest?) =
        interests ((Driven.new transport recvCapacity sendCapacity now handler).trace fuel steps) ∧
      ∀ on s, (.interest on, s) ∈ log →
        s.phase = .opened ∧ s.writeInterest = on ∧ s.hasPendingSend = on := by
  have haccepts := InterestWatched.preserves.accepts_trace fuel steps
    (InterestWatched.start transport recvCapacity sendCapacity now handler) fun _ _ => trivial
  refine ⟨_, by rw [Driven.heard_trace, hrun]; rfl, interests_told _, fun on s hs => ?_⟩
  exact (InterestTold.of_accepts haccepts).shown on s (mem_told.mp hs)

/-- In every run, whatever the handler and the owner do and the transport answers: in each cycle the
handler is told `true` and `false` in turn, each time in accord with the send buffer; and when the
owner has the session back, its interest is on just if something is queued, and that is what the
handler of an open session was told last. -/
theorem interest_told [Transport T] {H : Type} [Handler T H] (fuel : Nat) (transport : T)
    (recvCapacity sendCapacity now : Nat) (handler : H) (steps : List (Driven.Step H T)) :
    let d₀ := Driven.new transport recvCapacity sendCapacity now handler
    InterestTold (d₀.trace fuel steps) ∧
    ∀ d, steps.foldlM (Driven.step fuel) d₀ = some d →
      d.session.writeInterest = d.session.hasPendingSend ∧
      (d.session.phase = .opened → ∃ start opening cycle,
        d₀.trace fuel steps = start ++ opening :: cycle ∧ opening.opens = true ∧
        (∀ e ∈ cycle, e.opens = false) ∧
        (interests cycle).getLastD false = d.session.hasPendingSend) := by
  intro d₀
  have hstart := InterestWatched.start transport recvCapacity sendCapacity now handler
  rcases InterestWatched.preserves.keeps_trace fuel steps hstart (fun _ _ => trivial) with
    ⟨haccepts, hdone⟩
  refine ⟨InterestTold.of_accepts haccepts, ?_⟩
  intro d hrun
  have hwatched : InterestWatched _ d.session := (hdone d hrun).1
  have hsettled : d.session.Settled :=
    Driven.settled_run (d := d₀) ⟨rfl, fun hopen => by cases hopen⟩ hrun
  cases hphase : d.session.phase with
  | closed =>
      rcases hwatched.closed hphase with ⟨hinterest, hclosed⟩
      rw [hinterest, hasPendingSend,
        (StreamBuffer.isEmpty_iff _).mpr (StreamBuffer.contents_of_closed hclosed)]
      exact ⟨rfl, fun hopen => by cases hopen⟩
  | opened =>
      have hsynced := hsettled.synced hphase
      refine ⟨hsynced, fun _ => ?_⟩
      rw [← hsynced]
      exact exists_lastCycle haccepts (hwatched.opened hphase)

/-- Inside `onRecv` the handler replies and flushes, so that nothing is left to tell; from outside a
byte is queued, and `onSend` queues another while the first one leaves. -/
theorem interest_told_nested :
    let handler : Sim.ScriptedHandler :=
      { onRecv := [[.call (.queueSend [5]), .call .writable]]
        onSend := [[.call (.queueSend [6])]] }
    let steps : List (Driven.Step Sim.ScriptedHandler Sim.ScriptedTransport) :=
      [.call .openUp, .call .readable, .call (.queueSend [7]), .call .writable,
        .call (.queueSend [8])]
    let d₀ := Driven.new { reads := [.data [1]], sends := [] } 8 8 0 handler
    InterestTold (d₀.trace 9 steps) ∧ interests (d₀.trace 9 steps) = [true, false, true] ∧
      ∃ d, steps.foldlM (Driven.step 9) d₀ = some d ∧ d.session.writeInterest = true := by
  intro handler steps d₀
  have htold := interest_told 9 { reads := [.data [1]], sends := [] } 8 8 0 handler steps
  refine ⟨htold.1, by decide +kernel, ?_⟩
  have hrun : (steps.foldlM (Driven.step 9) d₀).map (·.session.hasPendingSend) = some true := by
    decide +kernel
  rcases Option.map_eq_some_iff.mp hrun with ⟨d, hd, hpending⟩
  exact ⟨d, hd, (htold.2 d hd).1.trans hpending⟩

end TcpReactor.Session
