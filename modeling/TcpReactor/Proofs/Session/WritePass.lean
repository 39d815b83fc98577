import TcpReactor.Proofs.Session.Errors

namespace TcpReactor

/-! # What a writable pass gets done

A writable pass offers its transport the first slice of what is queued, and goes on until nothing is
queued any more or the transport would block. Between two rounds the handler may queue more, send by
a pass of its own, or close the session. However that goes:

* `offers_trace`: no transport is ever asked to send nothing;
* `PassEnd`: the last answer of the transport says why a pass has ended, so one that succeeds and
  leaves its session open has sent all there was, or would have blocked;
* `PassReaches`: whichever round a pass has come to, a claim to have taken more bytes than are
  queued ends the session there.

`writable_thorough` says so of passes from outside and from inside of callbacks.
-/

namespace Session

/-! ## Offers -/

/-- What a transport is offered, and what it answers. -/
abbrev Offer := Bytes × Except SocketError (Transfer Nat)

variable {T : Type}

def Event.offer? : Event T → Option Offer
  | .sent _ offered answer _ => some (offered, answer)
  | _ => none

/-- The offers in a stretch of a trace. -/
def offers (es : List (Event T)) : List Offer := es.filterMap Event.offer?

/-- The last of them. -/
def lastOffer? (es : List (Event T)) : Option Offer := (offers es).getLast?

theorem offers_append (es es' : List (Event T)) : offers (es ++ es') = offers es ++ offers es' :=
  List.filterMap_append

/-- The last offer is in the last stretch that has any. -/
theorem lastOffer?_append (es es' : List (Event T)) :
    lastOffer? (es ++ es') = (lastOffer? es').or (lastOffer? es) := by
  unfold lastOffer?
  rw [offers_append, List.getLast?_append]

theorem lastOffer?_append_of_none {es es' : List (Event T)} (h : offers es' = []) :
    lastOffer? (es ++ es') = lastOffer? es := by
  unfold lastOffer?
  rw [offers_append, h, List.append_nil]

/-- The observer that demands of every offer that it is one. -/
def offering : Observer Unit T where
  next _ _ := ()
  demands _ e := ∀ o, e.offer? = some o → o.1 ≠ []

/-- An event without an offer is none of its business. -/
theorem offering_of_none {α : Type} {I : Unit → α → Prop} {a : α} {e : Event T}
    (he : e.offer? = none) (hI : I () a) : offering.Keeps I () [e] a := by
  refine Observer.Keeps.single fun _ => ⟨?_, hI⟩
  intro o ho
  rw [he] at ho
  cases ho

variable [Transport T]

theorem offering_preserves : (offering : Observer Unit T).Preserves fun _ _ => True where
  quiet := fun _ _ => trivial
  close := fun _ => trivial
  called := fun _ _ => offering_of_none rfl trivial
  started := fun _ _ => offering_of_none rfl trivial
  returned := fun _ => offering_of_none rfl trivial
  received := fun _ => offering_of_none rfl trivial
  sent := by
    intro _ s _ _
    rcases s.sendOnce_cases with ⟨_, hevents, _⟩ | ⟨head, _, _, _, _, hsome, _, hevents, _⟩
    · rw [hevents]
      exact Observer.Keeps.nil trivial
    · rw [hevents]
      refine Observer.Keeps.single fun _ => ⟨?_, trivial⟩
      -- the head of what is queued is offered, and there is one
      intro o ho
      cases ho
      exact hsome
  told := fun _ _ _ _ => offering_of_none rfl trivial
  toldClose := fun _ _ => offering_of_none rfl trivial
  toldInterest := fun _ _ _ _ => offering_of_none rfl trivial
  idle := fun _ _ => offering_of_none rfl trivial

/-- In every run, whatever the handler and the transport do, something is offered. -/
theorem offers_trace {H : Type} [Handler T H] (fuel : Nat) (d : Driven H T)
    (hpending : d.session.closePending = false) (steps : List (Driven.Step H T)) :
    ∀ o ∈ offers (d.trace fuel steps), o.1 ≠ [] := by
  intro o ho
  obtain ⟨e, he, hoffer⟩ := List.mem_filterMap.mp ho
  obtain ⟨before, after, htrace⟩ := List.append_of_mem he
  have haccepts := offering_preserves.accepts_trace fuel steps (d := d) (q := ())
    ⟨trivial, hpending⟩ fun _ _ => trivial
  rw [htrace] at haccepts
  exact haccepts.demands o hoffer

/-! ## Why a pass ends -/

/-- An offer with such an answer ends a pass with this error. -/
inductive Fatal : Offer → SessionError → Prop
  /-- Nothing was taken of what was offered. -/
  | nothing {offered : Bytes} :
      Fatal (offered, .ok (.moved 0)) (.socket (.sendFailed .writeZero))
  | failed {offered : Bytes} {cause : SocketError} : Fatal (offered, .error cause) (.socket cause)
  /-- More is said to be taken than was offered. -/
  | excess {offered : Bytes} {n : Nat} :
      offered.length < n → Fatal (offered, .ok (.moved n)) (.sendBuffer .underflow)

/-- A writable pass that leaves `s` behind ends with this answer, if the last offer in it was
`last?`. -/
inductive PassEnd (last? : Option Offer) (s : Session T) : Except SessionError Unit → Prop
  | unopened : s.isOpen = false → PassEnd last? s (.error .notOpen)
  | drained : s.sendBuffer.contents = [] → PassEnd last? s (.ok ())
  | blocked {offered : Bytes} :
      last? = some (offered, .ok .wouldBlock) → PassEnd last? s (.ok ())
  /-- It was closed before the pass was done. -/
  | interrupted : s.isOpen = false → PassEnd last? s (.ok ())
  | failed {o : Offer} {e : SessionError} :
      last? = some o → Fatal o e → s.phase = .closed → PassEnd last? s (.error e)

variable {s s' : Session T} {e : SessionError}

/-- What was offered earlier does not matter for the end of a pass. -/
theorem PassEnd.or {last? earlier? : Option Offer} {answer : Except SessionError Unit}
    (h : PassEnd last? s answer) : PassEnd (last?.or earlier?) s answer := by
  cases h with
  | unopened hclosed => exact .unopened hclosed
  | drained hnone => exact .drained hnone
  | blocked hlast => exact .blocked (by rw [hlast, Option.some_or])
  | interrupted hclosed => exact .interrupted hclosed
  | failed hlast hfatal hclosed => exact .failed (by rw [hlast, Option.some_or]) hfatal hclosed

theorem contents_of_drained (h : s.sendOnce = (.drained, s')) : s'.sendBuffer.contents = [] := by
  rcases s.sendOnce_cases with ⟨hnone, _, honce⟩ | ⟨_, _, _, _, _, _, _, _, hcases⟩
  · rw [honce] at h
    cases h
    exact hnone
  · rcases hcases with
      ⟨_, honce⟩ | ⟨_, honce⟩ | ⟨_, _, honce⟩ | ⟨_, _, _, honce⟩ | ⟨_, _, _, _, honce⟩
    all_goals
      rw [honce] at h
      cases h

theorem lastOffer?_of_blocked (h : s.sendOnce = (.blocked, s')) :
    ∃ offered, lastOffer? s.sendOnceEvents = some (offered, .ok .wouldBlock) := by
  rcases s.sendOnce_cases with ⟨_, _, honce⟩ | ⟨head, _, _, _, _, _, _, hevents, hcases⟩
  · rw [honce] at h
    cases h
  · rw [hevents]
    rcases hcases with ⟨rfl, _⟩ | ⟨_, honce⟩ | ⟨_, _, honce⟩ | ⟨_, _, _, honce⟩ |
      ⟨_, _, _, _, honce⟩
    · exact ⟨head, rfl⟩
    all_goals
      rw [honce] at h
      cases h

theorem fatal_of_failed (h : s.sendOnce = (.failed e, s')) :
    ∃ o, lastOffer? s.sendOnceEvents = some o ∧ Fatal o e := by
  rcases s.sendOnce_cases with
    ⟨_, _, honce⟩ | ⟨head, tail, _, _, hcontents, _, _, hevents, hcases⟩
  · rw [honce] at h
    cases h
  · rw [hevents]
    rcases hcases with ⟨_, honce⟩ | ⟨rfl, honce⟩ | ⟨cause, rfl, honce⟩ | ⟨n, rfl, hless, honce⟩ |
      ⟨_, _, _, _, honce⟩
    all_goals
      rw [honce] at h
      cases h
    · exact ⟨_, rfl, .nothing⟩
    · exact ⟨_, rfl, .failed⟩
    · -- the slice that was offered is no longer than what is queued
      rw [← StreamBuffer.length_contents, hcontents, List.length_append] at hless
      exact ⟨_, rfl, .excess (by omega)⟩

/-- A pass on a session whose handler is busy. -/
theorem sendAll_ends (s : Session T) :
    PassEnd (lastOffer? s.sendAllEvents) s.sendAll.2 s.sendAll.1 := by
  -- the last attempt to send decides how the pass ends
  induction s using sendAll.induct with
  | case1 s s₁ hsend =>
      rw [sendAll_eq, hsend]
      exact .drained (contents_of_drained hsend)
  | case2 s s₁ hsend =>
      obtain ⟨_, hlast⟩ := lastOffer?_of_blocked hsend
      rw [sendAll_eq, sendAllEvents_eq, hsend, List.append_nil]
      exact .blocked hlast
  | case3 s e s₁ hsend =>
      obtain ⟨_, hlast, hfatal⟩ := fatal_of_failed hsend
      rw [sendAll_eq, sendAllEvents_eq, hsend, List.append_nil]
      exact .failed hlast hfatal s₁.phase_close
  | case4 s n s₁ hsend hopen ih =>
      rw [sendAll_eq, sendAllEvents_eq, hsend]
      simp only [hopen, if_true]
      rw [lastOffer?_append]
      exact ih.or
  | case5 s n s₁ hsend hclosed =>
      rw [sendAll_eq, sendAllEvents_eq, hsend]
      simp only [hclosed]
      exact .interrupted (by simpa using hclosed)

/-! ## Rounds -/

/-- A pass on `s` comes to an attempt to send from `s'`. -/
inductive PassReaches : Session T → Session T → Prop
  | start {s : Session T} : s.isOpen = true → PassReaches s s
  | round {s s₁ s' : Session T} {n : Nat} :
      s.isOpen = true → s.sendOnce = (.sent n, s₁) → PassReaches s₁ s' → PassReaches s s'

/-- In the next attempt to send, the transport says that it has taken more than is queued. -/
def Overclaimed (s : Session T) : Prop :=
  ∃ offered n, lastOffer? s.sendOnceEvents = some (offered, .ok (.moved n)) ∧
    s.sendBuffer.length < n

theorem sendOnce_of_overclaimed (h : s.Overclaimed) :
    ∃ s', s.sendOnce = (.failed (.sendBuffer .underflow), s') := by
  obtain ⟨offered, n, hoffer, hless⟩ := h
  rcases s.sendOnce_cases with ⟨_, hevents, _⟩ | ⟨head, _, answer, _, _, _, _, hevents, hcases⟩
  · rw [hevents] at hoffer
    cases hoffer
  · rw [hevents] at hoffer
    obtain ⟨rfl, rfl⟩ : head = offered ∧ answer = .ok (.moved n) :=
      Prod.mk.inj (Option.some.inj hoffer)
    rcases hcases with ⟨hmoved, _⟩ | ⟨hmoved, _⟩ | ⟨_, hmoved, _⟩ | ⟨_, _, _, honce⟩ |
      ⟨k, _, hmoved, hconsume, _⟩
    · cases hmoved
    · cases hmoved
      omega
    · cases hmoved
    · exact ⟨_, honce⟩
    · -- what is dropped was queued
      cases hmoved
      have := (StreamBuffer.length_consume hconsume).1
      omega

theorem PassReaches.isOpen (h : s.PassReaches s') : s.isOpen = true := by
  cases h with
  | start hopen => exact hopen
  | round hopen _ _ => exact hopen

/-- A pass goes on from each of its rounds like a pass that starts there. -/
theorem PassReaches.sendAll_eq (h : s.PassReaches s') : s.sendAll = s'.sendAll := by
  induction h with
  | start => rfl
  | round _ hsend hreaches ih =>
      rw [Session.sendAll_eq, hsend]
      simp only [hreaches.isOpen, if_true]
      exact ih

theorem perform_of_overclaimed (hreaches : s.PassReaches s') (h : s'.Overclaimed) :
    ∃ s₁, s.perform .writable = (.error (.sendBuffer .underflow), s₁) ∧ s₁.phase = .closed := by
  obtain ⟨s₁, honce⟩ := sendOnce_of_overclaimed h
  refine ⟨s₁.close, ?_, s₁.phase_close⟩
  show (if s.isOpen = true then s.sendAll else _) = _
  rw [if_pos hreaches.isOpen, hreaches.sendAll_eq, sendAll_eq, honce]

/-- A pass on a session whose handler is busy. -/
theorem perform_ends (s : Session T) :
    PassEnd (lastOffer? (s.passEvents .writable)) (s.perform .writable).2
      (s.perform .writable).1 := by
  unfold perform passEvents writable
  by_cases hopen : s.isOpen = true
  · simp only [hopen, if_true]
    exact s.sendAll_ends
  · simp only [hopen]
    exact .unopened (by simpa using hopen)

end Session

namespace Driven

open Session

variable {H T : Type} [Transport T] [Handler T H] {d d' : Driven H T} {fuel : Nat}
  {answer : Except SessionError Unit}

omit [Transport T] [Handler T H] in
theorem offers_syncInterestEvents (d : Driven H T) : offers d.syncInterestEvents = [] := by
  unfold syncInterestEvents
  dsimp only
  split <;> rfl

omit [Transport T] in
theorem offers_settleEvents (d : Driven H T) : offers d.settleEvents = [] := by
  unfold settleEvents
  split
  · exact offers_syncInterestEvents _
  · exact d.offers_syncInterestEvents

theorem offers_closeEvents (d : Driven H T) : offers d.closeEvents = [] := by
  unfold closeEvents
  split
  · rfl
  · exact offers_settleEvents _

omit [Transport T] in
theorem sendBuffer_syncInterest (d : Driven H T) :
    d.syncInterest.session.sendBuffer = d.session.sendBuffer := by
  unfold syncInterest
  dsimp only
  split <;> rfl

/-- A pass with everything that the handler does between its rounds. -/
theorem sendAll_ends (h : d.sendAll fuel = some (answer, d')) :
    PassEnd (lastOffer? (d.sendAllEvents fuel)) d'.session answer := by
  -- what the handler is told behind the last attempt offers nothing, so that attempt decides
  induction fuel, d using sendAll.induct with
  | case1 fuel d s honce =>
      rw [sendAll.eq_def, honce] at h
      cases h
      refine .drained ?_
      rw [sendBuffer_syncInterest]
      exact contents_of_drained honce
  | case2 fuel d s honce =>
      obtain ⟨_, hlast⟩ := lastOffer?_of_blocked honce
      rw [sendAll.eq_def, honce] at h
      cases h
      rw [sendAllEvents.eq_def, honce, lastOffer?_append_of_none (offers_syncInterestEvents _)]
      exact .blocked hlast
  | case3 fuel d e s honce =>
      obtain ⟨_, hlast, hfatal⟩ := fatal_of_failed honce
      rw [sendAll.eq_def, honce] at h
      cases h
      rw [sendAllEvents.eq_def, honce, lastOffer?_append_of_none (offers_closeEvents _)]
      exact .failed hlast hfatal (phase_close _)
  | case4 d n s honce =>
      rw [sendAll.eq_def, honce] at h
      cases h
  | case5 d n s honce fuel told hopen ih =>
      rw [sendAll.eq_def, honce] at h
      dsimp only at h
      rw [if_pos hopen] at h
      rw [sendAllEvents.eq_def, honce]
      dsimp only
      rw [if_pos hopen, lastOffer?_append, lastOffer?_append]
      exact (ih h).or.or
  | case6 d n s honce fuel told hclosed =>
      rw [sendAll.eq_def, honce] at h
      dsimp only at h
      rw [if_neg hclosed] at h
      cases h
      exact .interrupted (by simpa [isOpen] using hclosed)

/-- A pass of at most `fuel` chunks on `d` comes to an attempt to send from `d'`, with `fuel'`
chunks left. -/
inductive PassReaches : Nat → Driven H T → Nat → Driven H T → Prop
  | start {fuel : Nat} {d : Driven H T} : d.isOpen = true → PassReaches fuel d fuel d
  | round {fuel fuel' n : Nat} {d d' : Driven H T} {s : Session T} :
      d.isOpen = true → d.session.sendOnce = (.sent n, s) →
      PassReaches fuel (notify { d with session := s } (Handler.onSend · n)) fuel' d' →
      PassReaches (fuel + 1) d fuel' d'

variable {fuel' : Nat}

theorem PassReaches.isOpen (h : PassReaches fuel d fuel' d') : d.isOpen = true := by
  cases h with
  | start hopen => exact hopen
  | round hopen _ _ => exact hopen

theorem PassReaches.sendAll_eq (h : PassReaches fuel d fuel' d') :
    d.sendAll fuel = d'.sendAll fuel' := by
  induction h with
  | start => rfl
  | round _ hsend hreaches ih =>
      rw [sendAll.eq_def, hsend]
      dsimp only
      rw [if_pos hreaches.isOpen]
      exact ih

theorem perform_of_overclaimed (hreaches : PassReaches fuel d fuel' d')
    (h : d'.session.Overclaimed) :
    ∃ d₁, d.perform fuel .writable = some (.error (.sendBuffer .underflow), d₁) ∧
      d₁.session.phase = .closed := by
  obtain ⟨s, honce⟩ := sendOnce_of_overclaimed h
  refine ⟨close { d' with session := s }, ?_, phase_close _⟩
  show (if d.isOpen = true then d.sendAll fuel else _) = _
  rw [if_pos hreaches.isOpen, hreaches.sendAll_eq, sendAll.eq_def, honce]

/-- A pass from outside. -/
theorem perform_ends (h : d.perform fuel .writable = some (answer, d')) :
    PassEnd (lastOffer? (d.passEvents fuel .writable)) d'.session answer := by
  unfold perform writable at h
  unfold passEvents
  by_cases hopen : d.session.isOpen = true
  · rw [if_pos hopen] at h
    simp only [hopen, if_true]
    exact sendAll_ends h
  · rw [if_neg hopen] at h
    cases h
    exact .unopened (by simpa using hopen)

end Driven

namespace Session

/-- A writable pass with the events `es` and this result has made all the progress it could. It
offers from the sessions that satisfy `reached`, one in each round. -/
structure Thorough {T : Type} [Transport T] (es : List (Event T)) (reached : Session T → Prop)
    (result : Option (Except SessionError Unit × Session T)) : Prop where
  /-- If it succeeds and leaves the session open, all is sent or the transport would block. -/
  ends : ∀ answer s, result = some (answer, s) → PassEnd (lastOffer? es) s answer
  /-- If the transport says that it has taken more than is queued, the session is closed. -/
  overclaimed : ∀ s, reached s → s.Overclaimed →
    ∃ s', result = some (.error (.sendBuffer .underflow), s') ∧ s'.phase = .closed

/-- Whatever the handler and the transport do: no transport is ever asked to send nothing, and every
writable pass makes all the progress it can, inside of callbacks and from outside. -/
theorem writable_thorough {T H : Type} [Transport T] [Handler T H] (fuel : Nat) :
    (∀ (transport : T) (recvCapacity sendCapacity now : Nat) (handler : H)
      (steps : List (Driven.Step H T)),
      ∀ o ∈ offers ((Driven.new transport recvCapacity sendCapacity now handler).trace fuel steps),
        o.1 ≠ []) ∧
    (∀ s : Session T,
      Thorough (s.passEvents .writable) s.PassReaches (some (s.perform .writable))) ∧
    ∀ d : Driven H T,
      Thorough (d.passEvents fuel .writable)
        (fun s => ∃ fuel' d', Driven.PassReaches fuel d fuel' d' ∧ d'.session = s)
        ((d.perform fuel .writable).map fun r => (r.1, r.2.session)) := by
  -- what is offered; then how a pass ends, inside of callbacks and from outside
  refine ⟨?_, fun s => ⟨?_, ?_⟩, fun d => ⟨?_, ?_⟩⟩
  · intro transport recvCapacity sendCapacity now handler steps
    exact offers_trace fuel _ rfl steps
  · intro answer s' hresult
    have hends := s.perform_ends
    rw [Option.some.inj hresult] at hends
    exact hends
  · intro s₁ hreaches h
    obtain ⟨s', hresult, hclosed⟩ := perform_of_overclaimed hreaches h
    exact ⟨s', congrArg some hresult, hclosed⟩
  · intro answer s' hresult
    obtain ⟨⟨_, d'⟩, hperform, hpair⟩ := Option.map_eq_some_iff.mp hresult
    cases hpair
    exact Driven.perform_ends hperform
  · rintro s ⟨fuel', d', hreaches, rfl⟩ h
    obtain ⟨d₁, hresult, hclosed⟩ := Driven.perform_of_overclaimed hreaches h
    exact ⟨d₁.session, by rw [hresult]; rfl, hclosed⟩

/-- The transport takes two of four bytes. The callback that is told of them queues two more and
flushes, which sends one byte before the transport would block. The transport then says that it has
taken nine of the three bytes that are left. -/
theorem writable_thorough_refilled :
    let handler : Sim.ScriptedHandler :=
      { onSend := [[.call (.queueSend [5, 6]), .call .writable]] }
    let sends : List Sim.SendItem := [.accept 2, .accept 1, .block, .claim 9]
    let new : Driven Sim.ScriptedHandler Sim.ScriptedTransport :=
      .new { reads := [], sends } 8 4 0 handler
    let d := (new.openUp.2.queueSend [1, 2, 3, 4]).2
    (∃ d', d.perform 9 .writable = some (.error (.sendBuffer .underflow), d') ∧
      d'.session.phase = .closed) ∧
    (offers (d.passEvents 9 .writable)).map (·.1) = [[1, 2, 3, 4], [3, 4], [4], [4]] := by
  intro handler sends new d
  have hopen : d.isOpen = true := by decide +kernel
  have hsent : d.session.sendOnce = (.sent 2, d.session.sendOnce.2) := by
    exact Prod.ext (by decide +kernel) rfl
  let d₁ : Driven Sim.ScriptedHandler Sim.ScriptedTransport :=
    .notify { d with session := d.session.sendOnce.2 } (Handler.onSend · 2)
  have hopen₁ : d₁.isOpen = true := by decide +kernel
  have hclaim : d₁.session.Overclaimed :=
    ⟨[4], 9, by decide +kernel, by decide +kernel⟩
  have hreaches : Driven.PassReaches 9 d 8 d₁ := .round hopen hsent (.start hopen₁)
  obtain ⟨s, hresult, hclosed⟩ :=
    ((writable_thorough 9).2.2 d).overclaimed d₁.session ⟨8, d₁, hreaches, rfl⟩ hclaim
  obtain ⟨⟨_, d'⟩, hperform, hpair⟩ := Option.map_eq_some_iff.mp hresult
  cases hpair
  exact ⟨⟨d', hperform, hclosed⟩, by decide +kernel⟩

end Session
end TcpReactor
