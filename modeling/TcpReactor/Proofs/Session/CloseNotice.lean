import TcpReactor.Proofs.Session.HandlerLog
import TcpReactor.Proofs.Session.Observer
import TcpReactor.Sim.ScriptedHandler

namespace TcpReactor.Session

/-! # Every close is told once

A session can close in many ways: its peer has finished, a buffer or the transport fails, the owner
closes it, or a callback does while it runs. The handler is told of it exactly once, before the
owner gets the session back, and of nothing more until the session opens again.

A cycle is the stretch of a trace from one successful open to the next. `CloseTold` says what the
handler is told in a cycle, and `close_told` that it is so in every run in which the transport does
not come back to life between a close and the notice of it. The notices of a trace are the calls
that the handler gets (`Driven.heard_trace`); `closes_heard` counts them.
-/

/-! ## The notices of a cycle -/

namespace Event

variable {T : Type}

/-- A call that opens the session. -/
def opens : Event T → Bool
  | .called .openUp (some (.ok ())) _ => true
  | _ => false

/-- The notice of a close. -/
def tellsClose : Event T → Bool
  | .told .close _ => true
  | _ => false

/-- A notice of any kind. A visit is none: the owner asked for it. -/
def tells : Event T → Bool
  | .told .visit _ => false
  | .told _ _ => true
  | _ => false

/-- The session is seen in a phase. -/
def shows (phase : Phase) (e : Event T) : Bool := e.seen?.any (·.phase == phase)

/-- A call to open the session while a close is yet to be told, over a transport that says it is
open. -/
def revives [Transport T] : Event T → Bool
  | .called .openUp _ s => s.closePending && Transport.isOpen s.transport
  | _ => false

end Event

/-- What a handler is told of the closes in a trace, and how it finds the session then. -/
structure CloseTold {T : Type} (trace : List (Event T)) : Prop where
  /-- Before the first open nobody is told of anything. -/
  unopened : ∀ start rest, trace = start ++ rest → (∀ e ∈ start, e.opens = false) →
    ∀ e ∈ start, e.tells = false
  /-- The notice of a close is the last of its cycle, so there is only one. -/
  last : ∀ start opening cycle notice more rest,
    trace = start ++ opening :: (cycle ++ notice :: (more ++ rest)) → opening.opens = true →
    (∀ e ∈ cycle ++ notice :: more, e.opens = false) → notice.tellsClose = true →
    ∀ e ∈ more, e.tells = false
  /-- Before the session opens again there was one. -/
  reopened : ∀ start opening cycle next rest,
    trace = start ++ opening :: (cycle ++ next :: rest) → opening.opens = true →
    (∀ e ∈ cycle, e.opens = false) → next.opens = true → cycle.countP Event.tellsClose = 1
  /-- When the owner has the session back, there was one if the session is closed, and none if it is
  open. -/
  returned : ∀ start opening cycle s rest,
    trace = start ++ opening :: (cycle ++ .idle s :: rest) → opening.opens = true →
    (∀ e ∈ cycle, e.opens = false) →
    cycle.countP Event.tellsClose = if s.phase = .closed then 1 else 0
  /-- A session that is seen closed stays so until it opens again. -/
  stays : ∀ start e more e' rest, trace = start ++ e :: (more ++ e' :: rest) →
    (∀ x ∈ more, x.opens = false) → e.shows .closed = true → e'.shows .opened = false
  /-- Who is told of a close finds the session closed, with nothing to send. -/
  closed : ∀ s, .told .close s ∈ trace → s.phase = .closed ∧ s.sendBuffer.isOpen = false ∧
    s.writeInterest = false ∧ s.hasPendingSend = false
  /-- Who is told of anything else finds it open. -/
  opened : ∀ n s, .told n s ∈ trace → n ≠ .visit → n ≠ .close → s.phase = .opened

/-! ## Keeping watch over a cycle -/

/-- How far a cycle has come. -/
inductive Cycle
  /-- The session has not closed yet, as far as anybody has seen. -/
  | running
  /-- It has closed, and its handler does not know yet. -/
  | closing
  /-- The handler knows, or there was no open so far. -/
  | ended
  deriving DecidableEq, Repr

/-- How many notices of a close are still to come. -/
def Cycle.owed : Cycle → Nat
  | .running => 1
  | .closing => 1
  | .ended => 0

variable {T : Type}

def Cycle.next (c : Cycle) (e : Event T) : Cycle :=
  if e.opens then .running
  else if e.tellsClose then .ended
  else if c = .running ∧ e.shows .closed then .closing
  else c

/-- What is demanded of an event. -/
structure CloseDemand (c : Cycle) (e : Event T) : Prop where
  opens : e.opens = true → c = .ended
  shows : e.shows .opened = true → c = .running
  tells : e.tells = true → c ≠ .ended
  close : ∀ s, e = .told .close s →
    s.phase = .closed ∧ s.sendBuffer.isOpen = false ∧ s.writeInterest = false
  other : ∀ n s, e = .told n s → n ≠ .visit → n ≠ .close → s.phase = .opened
  idle : ∀ s, e = .idle s → s.phase = .closed → c = .ended

def closeWatch (T : Type) [Transport T] : Observer Cycle T where
  next := Cycle.next
  demands := CloseDemand
  assumes e := e.revives = false

/-- The invariant: the cycle is running while the session is open, and ended when it has closed and
the handler was told. -/
structure CloseWatched (c : Cycle) (s : Session T) : Prop where
  opened : s.phase = .opened → c = .running ∧ s.closePending = false
  closed : s.phase = .closed →
    (c = .ended ↔ s.closePending = false) ∧ s.sendBuffer.isOpen = false ∧ s.writeInterest = false

/-! ## The demands on one event -/

section Demands

variable {c : Cycle} {s : Session T} {e : Event T}

/-- The notice of a close ends the cycle. -/
theorem Cycle.next_of_tellsClose (h : e.tellsClose = true) : c.next e = .ended := by
  have hopens : e.opens = false := by
    cases e with
    | called => cases h
    | _ => rfl
  rw [Cycle.next, hopens, h]
  rfl

theorem Cycle.next_of_opens (h : e.opens = true) : c.next e = .running := by
  rw [Cycle.next, if_pos h]

/-- Any other event at most shows that the session has closed. -/
theorem Cycle.next_of_quiet (hopens : e.opens = false) (hclose : e.tellsClose = false) :
    c.next e = c ∨ (c = .running ∧ e.shows .closed = true ∧ c.next e = .closing) := by
  rw [Cycle.next, if_neg (by simp [hopens]), if_neg (by simp [hclose])]
  split
  · rename_i h
    exact .inr ⟨h.1, h.2, rfl⟩
  · exact .inl rfl

theorem Event.tellsClose_of_tells (h : e.tells = false) : e.tellsClose = false := by
  cases e with
  | told n s =>
      cases n with
      | visit => rfl
      | _ => cases h
  | _ => rfl

/-- An event that shows no more than the session `s`. -/
theorem Event.shows_of_seen {phase : Phase} (hseen : ∀ s', e.seen? = some s' → s' = s)
    (h : e.shows phase = true) : s.phase = phase := by
  unfold Event.shows at h
  cases hsome : e.seen? with
  | none =>
      rw [hsome] at h
      cases h
  | some s' =>
      rw [hsome] at h
      rw [← hseen s' hsome]
      simpa using h

/-- Behind an event that shows the session closed, the cycle runs no more. -/
theorem Cycle.next_ne_running (h : e.shows .closed = true) : c.next e ≠ .running := by
  have hopens : e.opens = false := by
    cases e with
    | called => cases h
    | _ => rfl
  cases hclose : e.tellsClose with
  | true =>
      rw [Cycle.next_of_tellsClose hclose]
      simp
  | false =>
      rw [Cycle.next, hopens, hclose]
      cases c <;> simp [h]

end Demands

namespace CloseWatched

variable {c : Cycle} {s s' : Session T} {e : Event T}

theorem of_opened (hphase : s.phase = .opened) (hpending : s.closePending = false) :
    CloseWatched .running s where
  opened _ := ⟨rfl, hpending⟩
  closed h := by rw [hphase] at h; cases h

theorem of_closed (hphase : s.phase = .closed) (hcycle : c = .ended ↔ s.closePending = false)
    (hsend : s.sendBuffer.isOpen = false) (hinterest : s.writeInterest = false) :
    CloseWatched c s where
  opened h := by rw [hphase] at h; cases h
  closed _ := ⟨hcycle, hsend, hinterest⟩

/-- Nothing that matters has changed in an open session. -/
theorem of_marks (h : CloseWatched c s) (hopen : s.phase = .opened)
    (hphase : s'.phase = s.phase) (hpending : s'.closePending = s.closePending) :
    CloseWatched c s' := by
  rcases h.opened hopen with ⟨rfl, hnone⟩
  exact of_opened (hphase.trans hopen) (hpending.trans hnone)

/-- An event that neither opens nor tells keeps the invariant. -/
theorem next (h : CloseWatched c s) (hopens : e.opens = false) (hclose : e.tellsClose = false)
    (hseen : ∀ s', e.seen? = some s' → s' = s) : CloseWatched (c.next e) s := by
  rcases Cycle.next_of_quiet (c := c) hopens hclose with hnext | ⟨rfl, hshows, hnext⟩
  · rw [hnext]
    exact h
  · -- the session is closed, and its handler is yet to be told, since the cycle was running
    have hphase := Event.shows_of_seen hseen hshows
    rcases h.closed hphase with ⟨hcycle, hsend, hinterest⟩
    rw [hnext]
    refine of_closed hphase ?_ hsend hinterest
    rw [← hcycle]
    simp

variable [Transport T]

/-- An event that tells nothing. -/
theorem skip (h : CloseWatched c s) (hopens : e.opens = false) (htells : e.tells = false)
    (hseen : ∀ s', e.seen? = some s' → s' = s)
    (hidle : ∀ s', e = .idle s' → s.closePending = false) :
    (closeWatch T).Keeps CloseWatched c [e] s := by
  refine Observer.Keeps.single fun _ => ⟨?_, h.next hopens (Event.tellsClose_of_tells htells) hseen⟩
  -- of such an event only what is seen of the session can be wrong
  constructor
  case opens =>
    intro h'
    rw [hopens] at h'
    cases h'
  case shows =>
    intro hshows
    exact (h.opened (Event.shows_of_seen hseen hshows)).1
  case tells =>
    intro h'
    rw [htells] at h'
    cases h'
  case close =>
    rintro s' rfl
    cases htells
  case other =>
    rintro n s' rfl hvisit hclose
    cases n with
    | visit => exact absurd rfl hvisit
    | _ => cases htells
  case idle =>
    rintro s' rfl hphase
    rw [hseen s' rfl] at hphase
    exact (h.closed hphase).1.mpr (hidle s' rfl)

/-- A notice to an open session. -/
theorem told {n : Notice} (h : CloseWatched c s) (hopen : s.phase = .opened) (hn : n ≠ .close) :
    (closeWatch T).Keeps CloseWatched c [.told n s] s := by
  -- an open session is in a running cycle, in which everything may be told but the close
  rcases h.opened hopen with ⟨rfl, hpending⟩
  have hclose : (Event.told n s).tellsClose = false := by
    cases n with
    | close => exact absurd rfl hn
    | _ => rfl
  refine Observer.Keeps.single fun _ => ⟨?_, h.next rfl hclose (by rintro s' ⟨⟩; rfl)⟩
  constructor
  case opens => exact fun h' => absurd h' Bool.false_ne_true
  case shows => exact fun _ => rfl
  case tells => exact fun _ => by simp
  case close =>
    rintro s' ⟨⟩
    exact absurd rfl hn
  case other =>
    rintro n' s' ⟨⟩ _ _
    exact hopen
  case idle => rintro s' ⟨⟩

/-- The notice of a close, by which the cycle ends. -/
theorem toldClose (h : CloseWatched c s) (hpending : s.closePending = true) :
    (closeWatch T).Keeps CloseWatched c [.told .close { s with closePending := false }]
      { s with closePending := false } := by
  -- what is pending was closed, and has not been opened since
  have hphase : s.phase = .closed := by
    refine phase_of_ne_opened fun hopen => ?_
    rw [(h.opened hopen).2] at hpending
    cases hpending
  rcases h.closed hphase with ⟨hcycle, hsend, hinterest⟩
  refine Observer.Keeps.single fun _ => ⟨?_, ?_⟩
  · constructor
    case opens => exact fun h' => absurd h' Bool.false_ne_true
    case shows =>
      intro hshows
      have hopen : s.phase = .opened := by simpa [Event.shows, Event.seen?] using hshows
      rw [hphase] at hopen
      cases hopen
    case tells =>
      intro _ hended
      rw [hcycle.mp hended] at hpending
      cases hpending
    case close =>
      rintro s' ⟨⟩
      exact ⟨hphase, hsend, hinterest⟩
    case other =>
      rintro n s' ⟨⟩ _ hn
      exact absurd rfl hn
    case idle => rintro s' ⟨⟩
  · show CloseWatched (c.next (.told .close { s with closePending := false })) _
    rw [Cycle.next_of_tellsClose rfl]
    exact of_closed (s := { s with closePending := false }) hphase (by simp) hsend hinterest

theorem close (h : CloseWatched c s) : CloseWatched c s.close := by
  cases hphase : s.phase with
  | closed =>
      rw [close_closed hphase]
      exact h
  | opened =>
      rcases h.opened hphase with ⟨rfl, _⟩
      rcases close_opened hphase with ⟨hclosed, hsend, hinterest, hpending⟩
      refine of_closed hclosed ?_ hsend hinterest
      rw [hpending]
      simp

/-- A call that neither opens nor tells, and keeps the invariant. -/
theorem quietCall {call : Call} {answer : Except SessionError Unit} (h : CloseWatched c s')
    (hopens : (Event.called call (some answer) s).opens = false) :
    (closeWatch T).Keeps CloseWatched c [.called call (some answer) s] s' :=
  h.skip hopens rfl (by rintro s'' ⟨⟩) (by rintro s'' ⟨⟩)

/-- An attempt to open. While a close is yet to be told the transport is not open, and it fails. -/
theorem openUp (h : CloseWatched c s) :
    (closeWatch T).Keeps CloseWatched c [.called .openUp (some s.openUp.1) s] s.openUp.2 := by
  rcases hcall : s.openUp with ⟨cause | _, s'⟩
  · refine quietCall ?_ rfl
    rcases openUp_error hcall with rfl | ⟨hphase, recvBuffer, sendBuffer, rfl, hsend⟩
    · exact h
    · -- one buffer has been opened and shut again, which nobody can see
      rcases h.closed hphase with ⟨hcycle, hclosed, hinterest⟩
      refine of_closed (s := { s with recvBuffer, sendBuffer }) hphase hcycle ?_ hinterest
      rcases hsend with rfl | hsend
      · exact hclosed
      · exact hsend
  · rcases openUp_ok hcall with ⟨hphase, hopen, hphase', _, _, hpending⟩
    rcases h.closed hphase with ⟨hcycle, _⟩
    refine Observer.Keeps.single fun hassumed => ?_
    -- this is where the assumption is used that nobody revives the transport
    have hnone : s.closePending = false := by
      change (s.closePending && Transport.isOpen s.transport) = false at hassumed
      rw [hopen, Bool.and_true] at hassumed
      exact hassumed
    constructor
    · constructor
      case opens => exact fun _ => hcycle.mpr hnone
      case shows => exact fun h' => absurd h' Bool.false_ne_true
      case tells => exact fun h' => absurd h' Bool.false_ne_true
      case close => rintro s'' ⟨⟩
      case other => rintro n s'' ⟨⟩
      case idle => rintro s'' ⟨⟩
    · show CloseWatched (c.next (.called .openUp (some (.ok ())) s)) s'
      rw [Cycle.next_of_opens rfl]
      exact of_opened hphase' (hpending.trans hnone)

/-- A call that queues bytes neither opens nor closes. -/
theorem queue {call : Call} (hc : call.queues = true) (h : CloseWatched c s) :
    (closeWatch T).Keeps CloseWatched c [.called call (some (s.perform call).1) s]
      (s.perform call).2 := by
  have hopens : ∀ answer, (Event.called call (some answer) s).opens = false := by
    intro answer
    cases call with
    | openUp => cases hc
    | _ => rfl
  refine quietCall ?_ (hopens _)
  rcases perform_queues hc s with ⟨e, hcall⟩ | ⟨s', hcall, hopen, hopen', hpending, _⟩
  · rw [hcall]
    exact h
  · rw [hcall]
    exact h.of_marks hopen (hopen'.trans hopen.symm) hpending

/-- The calls that are done at once. -/
theorem called {call : Call} (hdone : call.isPass = false) (h : CloseWatched c s) :
    (closeWatch T).Keeps CloseWatched c [.called call (some (s.perform call).1) s]
      (s.perform call).2 := by
  cases call with
  | readable | writable => cases hdone
  | openUp => exact h.openUp
  | close => exact quietCall h.close rfl
  | queueSend | sendFrame => exact h.queue rfl

/-- Whatever a session does, the watch goes on. -/
theorem preserves : (closeWatch T).Preserves CloseWatched where
  quiet := by
    intro c s s' hquiet h
    rcases hquiet with ⟨_, _, _, _, rfl⟩
    exact ⟨h.opened, h.closed⟩
  close := fun h => h.close
  called := fun hdone h => h.called hdone
  started := by
    intro c s call answer hpass h
    cases call with
    | readable | writable => exact h.skip rfl rfl (by rintro s' ⟨⟩) (by rintro s' ⟨⟩)
    | _ => cases hpass
  returned := by
    intro c s call answer h
    exact h.skip rfl rfl (by rintro s' ⟨⟩; rfl) (by rintro s' ⟨⟩)
  received := by
    intro c s answer h
    exact h.skip rfl rfl (by rintro s' ⟨⟩) (by rintro s' ⟨⟩)
  sent := by
    intro c s hopen h
    -- an attempt to send neither opens nor closes the session, and tells nobody
    rcases s.sendOnce_marks with ⟨hphase, hpending⟩
    have h' := h.of_marks (phase_of_isOpen hopen) hphase hpending
    rcases s.sendOnce_cases with ⟨_, hevents, _⟩ | ⟨_, _, _, _, _, _, _, hevents, _⟩
    · rw [hevents]
      exact Observer.Keeps.nil h'
    · rw [hevents]
      exact h'.skip rfl rfl (by rintro s' ⟨⟩) (by rintro s' ⟨⟩)
  told := by
    intro c s n hlends hphase _ h
    rcases hphase with rfl | hopen
    · exact h.skip rfl rfl (by rintro s' ⟨⟩; rfl) (by rintro s' ⟨⟩)
    · refine h.told hopen ?_
      rintro rfl
      cases hlends
  toldClose := fun hpending h => h.toldClose hpending
  toldInterest := by
    intro c s hopen hpending _ h
    have h' : CloseWatched c { s with writeInterest := s.hasPendingSend } :=
      h.of_marks hopen rfl rfl
    exact h'.told hopen (by simp)
  idle := by
    intro c s hpending h
    exact h.skip rfl rfl (by rintro s' ⟨⟩; rfl) fun _ _ => hpending

end CloseWatched

/-! ## What an accepted trace tells -/

variable [Transport T] {c : Cycle} {es es' : List (Event T)}

/-- The account of a trace comes out even: what was owed before it, and what its opens make owed, is
told in it or still owed behind it. -/
theorem countP_tellsClose (h : (closeWatch T).Accepts c es) :
    es.countP Event.tellsClose + ((closeWatch T).after c es).owed =
      c.owed + es.countP Event.opens := by
  induction es generalizing c with
  | nil => exact Nat.add_comm _ _
  | cons e es ih =>
      rcases h with ⟨hdemand, haccepts⟩
      have hrest : es.countP _ + ((closeWatch T).after (c.next e) es).owed =
          (c.next e).owed + es.countP _ := ih haccepts
      show _ + ((closeWatch T).after (c.next e) es).owed = _
      rw [List.countP_cons, List.countP_cons]
      -- an open makes one notice owed, the notice pays it, and nothing else matters
      cases hopens : e.opens with
      | true =>
          have hclose : e.tellsClose = false := by
            cases e with
            | called => rfl
            | _ => cases hopens
          rw [hdemand.opens hopens, hclose]
          rw [Cycle.next_of_opens hopens] at hrest ⊢
          simp only [Cycle.owed, if_true, Bool.false_eq_true, if_false] at hrest ⊢
          omega
      | false =>
          cases hclose : e.tellsClose with
          | false =>
              have hnext : (c.next e).owed = c.owed := by
                rcases Cycle.next_of_quiet (c := c) hopens hclose with hnext | ⟨rfl, _, hnext⟩
                · rw [hnext]
                · rw [hnext]
                  rfl
              rw [← hnext]
              exact hrest
          | true =>
              have htells : e.tells = true := by
                cases htells : e.tells with
                | true => rfl
                | false => rw [Event.tellsClose_of_tells htells] at hclose; cases hclose
              have howed : c.owed = 1 := by
                cases c with
                | ended => exact absurd rfl (hdemand.tells htells)
                | running | closing => rfl
              have hnext : (c.next e).owed = 0 := by
                rw [Cycle.next_of_tellsClose hclose]
                rfl
              simp only [if_true, Bool.false_eq_true, if_false]
              omega

/-- Within a cycle nothing new is owed. -/
theorem countP_tellsClose_cycle (h : (closeWatch T).Accepts c es)
    (hopens : ∀ e ∈ es, e.opens = false) :
    es.countP Event.tellsClose + ((closeWatch T).after c es).owed = c.owed := by
  have hnone : es.countP Event.opens = 0 := by
    rw [List.countP_eq_zero]
    intro e he
    simp [hopens e he]
  rw [countP_tellsClose h, hnone, Nat.add_zero]

/-- When a cycle has ended, nothing is told. -/
theorem tells_eq_false (h : (closeWatch T).Accepts .ended es)
    (hopens : ∀ e ∈ es, e.opens = false) : ∀ e ∈ es, e.tells = false := by
  -- the cycle stays ended, since nobody opens it and a second close is not accepted
  induction es with
  | nil => simp
  | cons e es ih =>
      rcases h with ⟨hdemand, haccepts⟩
      have htells : e.tells = false := by
        cases htells : e.tells with
        | false => rfl
        | true => exact absurd rfl (hdemand.tells htells)
      have hnext : Cycle.ended.next e = .ended := by
        rcases Cycle.next_of_quiet (hopens e List.mem_cons_self)
          (Event.tellsClose_of_tells htells) with hnext | ⟨hended, _⟩
        · exact hnext
        · cases hended
      change (closeWatch T).Accepts (Cycle.ended.next e) es at haccepts
      rw [hnext] at haccepts
      have hrest := ih haccepts fun e' he' => hopens e' (List.mem_cons_of_mem _ he')
      rw [List.forall_mem_cons]
      exact ⟨htells, hrest⟩

/-- A cycle that has ended does not run again by itself. -/
theorem after_ne_running (hc : c ≠ .running) (hopens : ∀ e ∈ es, e.opens = false) :
    (closeWatch T).after c es ≠ .running := by
  induction es generalizing c with
  | nil => exact hc
  | cons e es ih =>
      refine ih (c := c.next e) ?_ fun e' he' => hopens e' (List.mem_cons_of_mem _ he')
      cases hclose : e.tellsClose with
      | true =>
          rw [Cycle.next_of_tellsClose hclose]
          simp
      | false =>
          rcases Cycle.next_of_quiet (hopens e List.mem_cons_self) hclose with
            hnext | ⟨hrunning, _⟩
          · rw [hnext]
            exact hc
          · exact absurd hrunning hc

/-- An accepted trace tells of every close once. -/
theorem CloseTold.of_accepts {trace : List (Event T)} (h : (closeWatch T).Accepts .ended trace) :
    CloseTold trace := by
  -- behind a successful open, the watch is over a running cycle
  have hcycle : ∀ {start opening rest}, trace = start ++ opening :: rest →
      opening.opens = true → (closeWatch T).Accepts .running rest := by
    intro start opening rest htrace hopening
    rw [htrace] at h
    have haccepts := (((closeWatch T).accepts_append _ _ _).mp h).2.2
    rwa [show (closeWatch T).next _ opening = .running from Cycle.next_of_opens hopening]
      at haccepts
  have hdemand : ∀ e ∈ trace, ∃ c, CloseDemand c e := by
    intro e he
    rcases List.append_of_mem he with ⟨start, rest, htrace⟩
    rw [htrace] at h
    exact ⟨_, h.demands⟩
  constructor
  case unopened =>
    intro start rest htrace hopens
    rw [htrace] at h
    exact tells_eq_false (((closeWatch T).accepts_append _ _ _).mp h).1 hopens
  case last =>
    intro start opening cycle notice more rest htrace hopening hopens hnotice
    have haccepts := (((closeWatch T).accepts_append _ _ _).mp (hcycle htrace hopening)).2.2
    rw [show (closeWatch T).next _ notice = .ended from Cycle.next_of_tellsClose hnotice]
      at haccepts
    refine tells_eq_false (((closeWatch T).accepts_append _ _ _).mp haccepts).1 ?_
    intro e he
    exact hopens e (by simp [he])
  case reopened =>
    intro start opening cycle next rest htrace hopening hopens hnext
    have haccepts := hcycle htrace hopening
    have hinside := (((closeWatch T).accepts_append _ _ _).mp haccepts).1
    have hcount := countP_tellsClose_cycle hinside hopens
    have hdemand : CloseDemand _ next := haccepts.demands
    rw [hdemand.opens hnext] at hcount
    exact hcount
  case returned =>
    intro start opening cycle s rest htrace hopening hopens
    have haccepts := hcycle htrace hopening
    have hinside := (((closeWatch T).accepts_append _ _ _).mp haccepts).1
    have hcount := countP_tellsClose_cycle hinside hopens
    have hidle : CloseDemand _ (.idle s) := haccepts.demands
    cases hphase : s.phase with
    | closed =>
        rw [hidle.idle s rfl hphase] at hcount
        exact hcount
    | opened =>
        rw [hidle.shows (by simp [Event.shows, Event.seen?, hphase])] at hcount
        exact Nat.succ.inj hcount
  case stays =>
    intro start e more e' rest htrace hopens hclosed
    rw [htrace] at h
    have haccepts := (((closeWatch T).accepts_append _ _ _).mp h).2.2
    have hdemand : CloseDemand _ e' := haccepts.demands
    cases hshows : e'.shows .opened with
    | false => rfl
    | true =>
        refine absurd (hdemand.shows hshows) ?_
        exact after_ne_running (Cycle.next_ne_running hclosed) hopens
  case closed =>
    intro s hs
    rcases hdemand _ hs with ⟨c, hc⟩
    rcases hc.close s rfl with ⟨hphase, hsend, hinterest⟩
    refine ⟨hphase, hsend, hinterest, ?_⟩
    rw [hasPendingSend, (StreamBuffer.isEmpty_iff _).mpr (StreamBuffer.contents_of_closed hsend)]
    rfl
  case opened =>
    intro n s hs hvisit hclose
    rcases hdemand _ hs with ⟨c, hc⟩
    exact hc.other n s rfl hvisit hclose

omit [Transport T] in
/-- A session that was just made has not opened yet. -/
theorem CloseWatched.start {H : Type} (transport : T) (recvCapacity sendCapacity now : Nat)
    (handler : H) :
    Observer.Preserves.Told CloseWatched .ended
      (Driven.new transport recvCapacity sendCapacity now handler).session := by
  refine ⟨CloseWatched.of_closed rfl ?_ rfl rfl, rfl⟩
  simp [Driven.new, Session.new]

/-! ## The calls that a handler gets -/

omit [Transport T] in
/-- The notices of a close in a trace are those among all its notices. -/
theorem countP_told (es : List (Event T)) :
    (told es).countP (·.1 = .close) = es.countP Event.tellsClose := by
  induction es with
  | nil => rfl
  | cons e es ih =>
      rw [List.countP_cons, ← ih]
      cases e with
      | told n s =>
          rw [show told (.told n s :: es) = (n, s) :: told es from rfl, List.countP_cons]
          cases n <;> rfl
      | _ => rfl

/-- In every run `onClose` of the handler is called as often as the session opens, but for the last
time if the session is open still. -/
theorem closes_heard {H : Type} [Handler T H] {fuel : Nat} {transport : T}
    {recvCapacity sendCapacity now : Nat} {handler : H} {steps : List (Driven.Step H T)}
    {d : Driven H T}
    (hdead : ∀ e ∈ (Driven.new transport recvCapacity sendCapacity now handler).trace fuel steps,
      e.revives = false)
    (hrun : steps.foldlM (Driven.step fuel)
      (Driven.new transport recvCapacity sendCapacity now handler) = some d) :
    ∃ log, (steps.map Driven.Step.logged).foldlM (Driven.step fuel)
        ((Driven.new transport recvCapacity sendCapacity now handler).logged []) =
          some (d.logged log) ∧
      log.countP (·.1 = .close) + (if d.session.phase = .opened then 1 else 0) =
        ((Driven.new transport recvCapacity sendCapacity now handler).trace fuel steps).countP
          Event.opens := by
  obtain ⟨haccepts, hreached⟩ := CloseWatched.preserves.keeps_trace fuel steps
    (CloseWatched.start transport recvCapacity sendCapacity now handler) hdead
  obtain ⟨hwatched, hpending⟩ := hreached d hrun
  refine ⟨_, by rw [Driven.heard_trace, hrun]; rfl, ?_⟩
  -- at the start nothing was owed, and what is owed at the end shows in the phase of the session
  have hcount := countP_tellsClose haccepts
  rw [List.nil_append, countP_told]
  cases hphase : d.session.phase with
  | opened =>
      rw [(hwatched.opened hphase).1] at hcount
      exact hcount.trans (Nat.zero_add _)
  | closed =>
      rw [(hwatched.closed hphase).1.mpr hpending] at hcount
      exact hcount.trans (Nat.zero_add _)

/-- In every run, whatever the handler and the owner do and the transport answers, the handler is
told of every close exactly once, last of its cycle, and before the owner has the session back. The
transport must not say that it is open when a callback tries to reopen a session that has closed. -/
theorem close_told {H : Type} [Handler T H] (fuel : Nat) (transport : T)
    (recvCapacity sendCapacity now : Nat) (handler : H) (steps : List (Driven.Step H T))
    (hdead : ∀ e ∈ (Driven.new transport recvCapacity sendCapacity now handler).trace fuel steps,
      e.revives = false) :
    CloseTold ((Driven.new transport recvCapacity sendCapacity now handler).trace fuel steps) := by
  refine CloseTold.of_accepts (CloseWatched.preserves.accepts_trace fuel steps ?_ hdead)
  exact CloseWatched.start transport recvCapacity sendCapacity now handler

/-- The peer finishes, and inside `onRecv`, before the session itself gets to closing, the handler
replies, closes and tries to reopen. Later the owner opens the session again and closes it. -/
theorem close_told_nested :
    let handler : Sim.ScriptedHandler :=
      { onRecv := [[.call (.queueSend [5]), .call .writable, .call .close, .call .openUp]] }
    let steps : List (Driven.Step Sim.ScriptedHandler Sim.ScriptedTransport) :=
      [.call .openUp, .call .readable, .editTransport ({ · with isOpen := true }), .call .openUp,
        .call .close]
    let trace :=
      (Driven.new { reads := [.data [1], .ended], sends := [] } 8 8 0 handler).trace 9 steps
    (∀ e ∈ trace, e.revives = false) ∧ CloseTold trace ∧
      trace.countP Event.opens = 2 ∧ trace.countP Event.tellsClose = 2 := by
  intro handler steps trace
  have hdead : ∀ e ∈ trace, e.revives = false := by decide +kernel
  exact ⟨hdead, close_told 9 _ 8 8 0 handler steps hdead, by decide +kernel, by decide +kernel⟩

end TcpReactor.Session
