import TcpReactor.Proofs.Session.Observer
import TcpReactor.Sim.ScriptedHandler

namespace TcpReactor.Session

/-! # What the handler hears of the traffic

A pass that is made from outside tells the handler of every chunk that leaves and of the bytes that
come in. A callback can make passes too, but its handler is busy meanwhile. A close and a change of
the write interest are made up for behind the callback; the traffic is not.

* `TrafficTold`: the handler is told at once of the traffic that no callback has asked for, and of
  no other, so that the sizes it is told are those of the chunks.
* `traffic_told`: this is so in every run.
* `untold_flush`: so a chunk that leaves when a callback flushes is never told.

Told is who gets a call: by `Driven.heard_trace` the notices of a trace are the calls of the
handler's callbacks.
-/

/-! ## Who asks the transport -/

variable {T : Type}

/-- How deep a trace is in calls and callbacks. -/
structure Nesting where
  /-- The owner has lent the session to the handler. -/
  visiting : Bool := false
  /-- The calls that have not returned. -/
  calls : Nat := 0
  deriving DecidableEq, Repr

namespace Nesting

/-- The nesting behind an event. -/
def next (k : Nesting) : Event T → Nesting
  | .called _ _ _ => { k with calls := k.calls + 1 }
  | .returned _ _ _ => { k with calls := k.calls - 1 }
  -- a visit is no call: what the handler calls meanwhile would look like calls of the owner
  | .told .visit _ => { k with visiting := true }
  | .idle _ => { k with visiting := false }
  | _ => k

/-- The nesting behind a trace. -/
def of (es : List (Event T)) : Nesting := es.foldl next {}

/-- Whatever the transport is asked now, a callback asks it: the owner has one call running at a
time. -/
def Inside (k : Nesting) : Prop := k.visiting = true ∨ 1 < k.calls

instance (k : Nesting) : Decidable k.Inside := inferInstanceAs (Decidable (_ ∨ _))

/-- Whatever is called now, a callback calls it. -/
def Busy (k : Nesting) : Prop := k.visiting = true ∨ 0 < k.calls

/-- The nesting while the owner makes a call. -/
def outer : Nesting := { calls := 1 }

theorem outer_not_inside : ¬ outer.Inside := by decide

theorem Busy.inside {k : Nesting} (h : k.Busy) : Inside { k with calls := k.calls + 1 } :=
  h.imp id Nat.succ_lt_succ

end Nesting

/-! ## What is told -/

/-- The size of a chunk that the transport has accepted, out of what it was offered. -/
def Event.chunk? : Event T → Option Nat
  | .sent _ offered (.ok (.moved n)) _ => if 0 < n ∧ n ≤ offered.length then some n else none
  | _ => none

/-- The transport does not claim more than it was offered. -/
def Event.modest : Event T → Bool
  | .sent _ offered (.ok (.moved n)) _ => n ≤ offered.length
  | _ => true

/-- The sizes of the chunks in a stretch of a trace, without those that callbacks have asked for. -/
def chunks : Nesting → List (Event T) → List Nat
  | _, [] => []
  | k, e :: es => (if k.Inside then none else e.chunk?).toList ++ chunks (k.next e) es

/-- The size that an event tells. -/
def Event.toldSize? : Event T → Option Nat
  | .told (.send n) _ => some n
  | _ => none

/-- What a handler is told of the traffic in a trace. -/
structure TrafficTold (trace : List (Event T)) : Prop where
  /-- A chunk is told next, with its size, unless a callback has asked for it. -/
  sent : ∀ before e e' after n, trace = before ++ e :: e' :: after → e.chunk? = some n →
    ¬ (Nesting.of before).Inside → ∃ s, e' = .told (.send n) s
  /-- Of no other chunk the handler is told. -/
  toldSend : ∀ before n s after, trace = before ++ .told (.send n) s :: after →
    0 < n ∧ ∃ start b offered b', before = start ++ [.sent b offered (.ok (.moved n)) b'] ∧
      ¬ (Nesting.of start).Inside
  /-- So whenever the owner has the session back, the sizes told are those of the chunks, one for
  one. -/
  sizes : ∀ before s after, trace = before ++ .idle s :: after →
    (∀ e ∈ before, e.modest = true) → before.filterMap Event.toldSize? = chunks {} before
  /-- Bytes that come in are told before the owner has the session back, unless a callback has asked
  for them or the session is closed by then. -/
  received : ∀ before b data during s after,
    trace = before ++ .received (.ok (.moved (b :: data))) :: (during ++ .idle s :: after) →
    ¬ (Nesting.of before).Inside → (∀ s', .idle s' ∉ during) → s.phase = .opened →
    ∃ s', .told .recv s' ∈ during
  /-- Of no other bytes the handler is told. -/
  toldRecv : ∀ before s after, trace = before ++ .told .recv s :: after →
    ∃ start answer, before = start ++ [.received answer] ∧ ¬ (Nesting.of start).Inside

/-! ## Listening -/

/-- What a listener knows of a trace. -/
structure Hearing (T : Type) where
  nesting : Nesting := {}
  /-- The last event, unless a callback has asked for it. -/
  last : Option (Event T) := none
  /-- Bytes have come in of which the handler was not told. -/
  unheard : Bool := false

namespace Hearing

def next (q : Hearing T) (e : Event T) : Hearing T where
  nesting := q.nesting.next e
  last := if q.nesting.Inside then none else some e
  unheard :=
    match e with
    -- bytes that a callback receives are its own affair
    | .received (.ok (.moved (_ :: _))) => q.unheard || !decide q.nesting.Inside
    | .told .recv _ => false
    | .idle _ => false
    | _ => q.unheard

/-- The chunk that has to be told next. -/
def owed (q : Hearing T) : Option Nat := q.last.bind Event.chunk?

/-- What is demanded of an event. -/
structure Demand (q : Hearing T) (e : Event T) : Prop where
  sent : ∀ n, q.owed = some n → ∃ s, e = .told (.send n) s
  toldSend : ∀ n s, e = .told (.send n) s →
    0 < n ∧ ∃ b offered b', q.last = some (.sent b offered (.ok (.moved n)) b')
  toldRecv : ∀ s, e = .told .recv s → ∃ answer, q.last = some (.received answer)
  idle : ∀ s, e = .idle s → s.phase = .opened → q.unheard = false

theorem owed_next {q : Hearing T} {e : Event T} (h : q.nesting.Inside ∨ e.chunk? = none) :
    (q.next e).owed = none := by
  show (if q.nesting.Inside then none else some e).bind Event.chunk? = none
  split
  · rfl
  · rename_i houtside
    exact h.resolve_left houtside

end Hearing

def listener (T : Type) : Observer (Hearing T) T where
  next := Hearing.next
  demands := Hearing.Demand

/-- Behind this stretch of a trace, `P` holds of what is known then. -/
abbrev Hears (P : Hearing T → Prop) (q : Hearing T) (es : List (Event T)) : Prop :=
  (listener T).Keeps (fun q' (_ : Unit) => P q') q es ()

/-- Between two events no chunk has to be told. -/
structure Calm (k : Nesting) (unheard : Bool) (q : Hearing T) : Prop where
  nesting : q.nesting = k
  unheard : q.unheard = unheard
  owed : q.owed = none

/-- An event that is neither traffic nor a notice of it. -/
def Event.plain : Event T → Bool
  | .sent _ _ _ _ => false
  | .received _ => false
  | .told .recv _ => false
  | .told (.send _) _ => false
  | .idle _ => false
  | _ => true

variable {k : Nesting} {u : Bool} {q : Hearing T} {e : Event T} {es : List (Event T)}

/-- Where no chunk has to be told, anything else may happen as well. -/
theorem Calm.demand (he : e.plain = true ∨ e.asks = true) (h : Calm k u q) : q.Demand e where
  sent := by
    intro n howed
    rw [h.owed] at howed
    cases howed
  toldSend := by
    rintro n s rfl
    rcases he with ⟨⟨⟩⟩ | ⟨⟨⟩⟩
  toldRecv := by
    rintro s rfl
    rcases he with ⟨⟨⟩⟩ | ⟨⟨⟩⟩
  idle := by
    rintro s rfl
    rcases he with ⟨⟨⟩⟩ | ⟨⟨⟩⟩

theorem Calm.plain (hplain : e.plain = true) (h : Calm k u q) :
    Hears (Calm (k.next e) u) q [e] := by
  have hchunk : e.chunk? = none := by
    cases e with
    | sent => cases hplain
    | _ => rfl
  have hunheard : (q.next e).unheard = q.unheard := by
    cases e with
    | sent | received | idle => cases hplain
    | told n s =>
        cases n with
        | recv | send => cases hplain
        | _ => rfl
    | _ => rfl
  apply Observer.Keeps.single
  intro _
  constructor
  · exact h.demand (.inl hplain)
  · constructor
    · show q.nesting.next e = k.next e
      rw [h.nesting]
    · rw [← h.unheard]
      exact hunheard
    · exact Hearing.owed_next (.inr hchunk)

/-- What a callback asks the transport is not told. -/
theorem Calm.asks (hinside : k.Inside) (hasks : e.asks = true) (h : Calm k u q) :
    Hears (Calm k u) q [e] := by
  -- inside a callback nothing is owed and nothing is unheard, whatever the transport answers
  rw [← h.nesting] at hinside
  have hnesting : k.next e = k := by
    cases e with
    | sent | received => rfl
    | _ => cases hasks
  have hunheard : (q.next e).unheard = q.unheard := by
    cases e with
    | sent => rfl
    | received answer =>
        rcases answer with _ | ⟨_ | ⟨b, data⟩⟩ | _
        · rfl
        · rfl
        · simp [Hearing.next, hinside]
        · rfl
    | _ => cases hasks
  apply Observer.Keeps.single
  intro _
  constructor
  · exact h.demand (.inr hasks)
  · constructor
    · show q.nesting.next e = k
      rw [h.nesting, hnesting]
    · rw [← h.unheard]
      exact hunheard
    · exact Hearing.owed_next (.inl hinside)

theorem Calm.asksAll (hinside : k.Inside) (hasks : ∀ e ∈ es, e.asks = true) (h : Calm k u q) :
    Hears (Calm k u) q es := by
  induction es generalizing q with
  | nil => exact Observer.Keeps.nil h
  | cons e es ih =>
      rw [List.forall_mem_cons] at hasks
      apply (h.asks hinside hasks.1).cons
      intro q' h'
      exact ih hasks.2 h'

/-! ## Callbacks -/

section Callbacks

variable [Transport T] {s : Session T}

theorem Calm.perform (hbusy : k.Busy) (c : Call) (h : Calm k u q) :
    Hears (Calm k u) q (s.performEvents c) := by
  apply (h.plain (e := .called c (some (s.perform c).1) s) rfl).cons
  intro q₁ h₁
  apply (h₁.asksAll hbusy.inside (s.asks_passEvents c)).append
  intro q₂ h₂
  exact h₂.plain rfl

/-- Whatever a callback does, the handler is told nothing meanwhile. -/
theorem Calm.program (hbusy : k.Busy) {β : Type} (p : Program T β) (h : Calm k u q) :
    Hears (Calm k u) q (p.events s) := by
  -- the induction is on the program; only its calls cause events
  induction p generalizing q s with
  | done b => exact Observer.Keeps.nil h
  | look next ih => exact ih s h
  | call c next ih =>
      rw [Program.events]
      apply (h.perform hbusy c).append
      intro q' h'
      exact ih _ h'
  | editRecvBuffer f next ih => exact ih h
  | editTransport f next ih => exact ih h

variable {H : Type} [Handler T H] {d : Driven H T}

omit [Transport T] [Handler T H] in
theorem Calm.syncInterest (h : Calm k u q) : Hears (Calm k u) q d.syncInterestEvents := by
  rw [Driven.syncInterestEvents]
  split
  · exact h.plain rfl
  · exact Observer.Keeps.nil h

omit [Transport T] in
theorem Calm.settle (h : Calm k u q) : Hears (Calm k u) q d.settleEvents := by
  rw [Driven.settleEvents]
  split
  · apply (h.plain rfl).cons
    intro q' h'
    exact h'.syncInterest
  · exact h.syncInterest

/-- A callback, once it was told what it is for. -/
theorem Calm.callback (hbusy : k.Busy) {n : Notice} {β : Type} {p : Program T β} {handler : β → H}
    (htold : Hears (Calm k u) q [.told n d.session]) :
    Hears (Calm k u) q (d.callbackEvents n p handler) := by
  rw [Driven.callbackEvents]
  apply htold.cons
  intro q₁ h₁
  apply (h₁.program hbusy p).append
  intro q₂ h₂
  exact h₂.settle

theorem Calm.close (h : Calm k u q) : Hears (Calm k u) q d.closeEvents := by
  rw [Driven.closeEvents]
  split
  · exact Observer.Keeps.nil h
  · exact h.settle

end Callbacks

/-! ## Passes from outside -/

/-- Where a trace stands right behind an event that the owner's call has caused. -/
structure Behind (e : Event T) (unheard : Bool) (q : Hearing T) : Prop where
  nesting : q.nesting = .outer
  unheard : q.unheard = unheard
  last : q.last = some e

/-- Bytes come in. -/
def Event.brings : Event T → Bool
  | .received (.ok (.moved (_ :: _))) => true
  | _ => false

theorem Behind.calm (hchunk : e.chunk? = none) (h : Behind e u q) : Calm .outer u q where
  nesting := h.nesting
  unheard := h.unheard
  owed := by rw [Hearing.owed, h.last, Option.bind_some, hchunk]

theorem Calm.behind (hasks : e.asks = true) (h : Calm .outer u q) :
    Hears (Behind e (u || e.brings)) q [e] := by
  have hunheard : (q.next e).unheard = (q.unheard || e.brings) := by
    cases e with
    | sent => exact (Bool.or_false _).symm
    | received answer =>
        rcases answer with _ | ⟨_ | ⟨b, data⟩⟩ | _
        · exact (Bool.or_false _).symm
        · exact (Bool.or_false _).symm
        · simp [Hearing.next, Event.brings, h.nesting, Nesting.outer_not_inside]
        · exact (Bool.or_false _).symm
    | _ => cases hasks
  -- outside a callback the answer is remembered, because the next event may have to tell it
  apply Observer.Keeps.single
  intro _
  constructor
  · exact h.demand (.inr hasks)
  · constructor
    · show q.nesting.next e = .outer
      rw [h.nesting]
      cases e with
      | sent | received => rfl
      | _ => cases hasks
    · rw [← h.unheard]
      exact hunheard
    · show (if q.nesting.Inside then none else some e) = some e
      rw [h.nesting, if_neg Nesting.outer_not_inside]

theorem Behind.toldSend {b b' : T} {offered : Bytes} {n : Nat} {s : Session T} (hn : 0 < n)
    (h : Behind (.sent b offered (.ok (.moved n)) b') u q) :
    Hears (Calm .outer u) q [.told (.send n) s] := by
  apply Observer.Keeps.single
  intro _
  constructor
  · constructor
    · -- the size that is told is the one that the event before has reported
      intro n' howed
      rw [Hearing.owed, h.last] at howed
      rcases Option.ite_none_right_eq_some.mp howed with ⟨_, hsize⟩
      cases hsize
      exact ⟨s, rfl⟩
    · rintro n' s' ⟨⟩
      exact ⟨hn, b, offered, b', h.last⟩
    · rintro s' ⟨⟩
    · rintro s' ⟨⟩
  · exact ⟨h.nesting, h.unheard, Hearing.owed_next (.inr rfl)⟩

theorem Behind.toldRecv {answer : Except SocketError (Transfer Bytes)} {s : Session T}
    (h : Behind (.received answer) u q) :
    Hears (Calm .outer false) q [.told .recv s] := by
  apply Observer.Keeps.single
  intro _
  constructor
  · constructor
    · intro n howed
      rw [(h.calm rfl).owed] at howed
      cases howed
    · rintro n s' ⟨⟩
    · rintro s' ⟨⟩
      exact ⟨answer, h.last⟩
    · rintro s' ⟨⟩
  · exact ⟨h.nesting, rfl, Hearing.owed_next (.inr rfl)⟩

section Runs

variable [Transport T] {s : Session T} {H : Type} [Handler T H] {d : Driven H T}

/-- What is known when a run of receives has ended. -/
def Received (q : Hearing T) (r : ReadEnd × Session T) : Prop :=
  ∃ answer unheard, Behind (.received answer) unheard q ∧
    ∀ n, r.1 = .ended n → unheard = true → 0 < n

theorem Calm.receive {received : Nat} (hsome : u = true → 0 < received) (h : Calm .outer u q) :
    (listener T).Keeps Received q s.receiveEvents (s.receive received) := by
  induction s, received using receive.induct generalizing q u with
  | case1 s received transport hrecv =>
      rw [receiveEvents_eq, receive_eq, hrecv]
      apply (h.behind rfl).mono
      intro q' h'
      exact ⟨_, _, h', by rintro n ⟨⟩⟩
  | case2 s received transport hrecv =>
      rw [receiveEvents_eq, receive_eq, hrecv]
      apply (h.behind rfl).mono
      intro q' h'
      -- the end brings no bytes: what is unheard came before, and was counted
      refine ⟨_, _, h', ?_⟩
      rintro n ⟨⟩ hunheard
      exact hsome (by simpa [Event.brings] using hunheard)
  | case3 s received b data transport hrecv e hwrite =>
      rw [receiveEvents_eq, receive_eq, hrecv]
      simp only [hwrite]
      apply (h.behind rfl).mono
      intro q' h'
      exact ⟨_, _, h', by rintro n ⟨⟩⟩
  | case4 s received b data transport hrecv recvBuffer hwrite ih =>
      rw [receiveEvents_eq, receive_eq, hrecv]
      simp only [hwrite]
      apply (h.behind rfl).cons
      intro q' h'
      exact ih (fun _ => Nat.add_pos_right received data.length.succ_pos) (h'.calm rfl)
  | case5 s received e transport hrecv =>
      rw [receiveEvents_eq, receive_eq, hrecv]
      apply (h.behind rfl).mono
      intro q' h'
      exact ⟨_, _, h', by rintro n ⟨⟩⟩

/-- The handler of an open session has heard of all that came in. -/
def Heard (k : Nesting) (q : Hearing T) (d : Driven H T) : Prop :=
  ∃ unheard, Calm k unheard q ∧ (d.session.phase = .opened → unheard = false)

omit [Transport T] [Handler T H] in
theorem Calm.heard (h : Calm k false q) : Heard k q d := ⟨false, h, fun _ => rfl⟩

/-- A session that closes need not hear of what came in. -/
theorem Calm.closed (h : Calm .outer u q) :
    (listener T).Keeps (Heard .outer) q d.closeEvents d.close := by
  apply h.close.mono
  intro q' h'
  refine ⟨u, h', fun hopen => ?_⟩
  rw [Driven.phase_close] at hopen
  cases hopen

theorem Calm.readable (h : Calm .outer false q) :
    (listener T).Keeps (Heard .outer) q d.readableEvents d.readable.2 := by
  have hbusy : Nesting.outer.Busy := .inr Nat.zero_lt_one
  rw [Driven.readableEvents, Driven.readable]
  split
  · -- behind the last answer of the transport, what has come in is unheard, or there was nothing
    apply (h.receive (by rintro ⟨⟩)).append
    rintro q' ⟨answer, unheard, hbehind, hended⟩
    rcases hreceive : d.session.receive 0 with ⟨_ | received | e, s⟩
    all_goals
      rw [hreceive] at hended
      dsimp only at hended ⊢
    · apply (Calm.callback hbusy hbehind.toldRecv).mono
      intro q'' h''
      exact h''.heard
    · -- the peer has closed: the handler hears of what came before
      split
      · apply (Calm.callback hbusy hbehind.toldRecv).append
        intro q'' h''
        exact h''.closed
      · exact (hbehind.calm rfl).closed
    · -- a failure: what this pass has brought is lost with the session
      exact (hbehind.calm rfl).closed
  · exact Observer.Keeps.nil h.heard

/-- What is known when an attempt to send has been made. -/
def Attempted (step : SendStep) (q : Hearing T) : Prop :=
  match step with
  | .sent n => 0 < n ∧ ∃ b offered b', Behind (.sent b offered (.ok (.moved n)) b') false q
  | _ => Calm .outer false q

omit [Handler T H] in
theorem Calm.sendOnce (h : Calm .outer false q) :
    (listener T).Keeps (fun q' (r : SendStep × Session T) => Attempted r.1 q') q
      s.sendOnceEvents s.sendOnce := by
  rcases s.sendOnce_cases with ⟨_, hevents, hresult⟩ |
    ⟨head, tail, answer, transport, hcontents, _, _, hevents, hcases⟩
  · rw [hevents, hresult]
    exact Observer.Keeps.nil h
  rw [hevents]
  -- only a chunk that has left the send buffer is owed to the handler
  apply (h.behind rfl).mono
  intro q' h'
  rcases hcases with ⟨rfl, hresult⟩ | ⟨rfl, hresult⟩ | ⟨cause, rfl, hresult⟩ |
    ⟨n, rfl, htoomuch, hresult⟩ | ⟨n, sendBuffer, rfl, _, hresult⟩
  all_goals rw [hresult]
  · exact h'.calm rfl
  · exact h'.calm rfl
  · exact h'.calm rfl
  · -- more than was queued is more than was offered
    apply h'.calm
    rw [← StreamBuffer.length_contents, hcontents, List.length_append] at htoomuch
    exact if_neg (by omega)
  · exact ⟨n.succ_pos, _, _, _, h'⟩

theorem Calm.sendAll {fuel : Nat} (hopen : d.session.isOpen = true) (h : Calm .outer false q) :
    (listener T).Keeps (Observer.Answered fun q' _ => Calm .outer false q') q
      (d.sendAllEvents fuel) (d.sendAll fuel) := by
  apply Observer.Keeps.sendAll (S := fun step q' _ => Attempted step q') ?_ ?_ ?_ ?_ hopen h
  · intro q d _ h
    exact h.sendOnce
  · rintro q d step (rfl | rfl) h
    · exact h.syncInterest
    · exact h.syncInterest
  · intro q d e h
    exact h.close
  · -- the chunk is told next, and only then its callback runs
    rintro q d n ⟨hn, b, offered, b', h⟩
    exact Calm.callback (.inr Nat.zero_lt_one) (h.toldSend hn)

/-! ## Runs -/

/-- The events inside a call of the owner. -/
theorem Calm.pass (fuel : Nat) (c : Call) (h : Calm .outer false q) :
    (listener T).Keeps (Observer.Answered (Heard .outer)) q (d.passEvents fuel c)
      (d.perform fuel c) := by
  -- nothing is received by these calls, so what they leave is calm again
  have hcalm : ∀ {answer : Except SessionError Unit} {d' : Driven H T} {es : List (Event T)},
      Hears (Calm .outer false) q es →
      (listener T).Keeps (Observer.Answered (Heard .outer)) q es (some (answer, d')) := by
    intro answer d' es hes
    apply hes.mono
    intro q' h'
    exact .some h'.heard
  cases c with
  | openUp => exact hcalm (Observer.Keeps.nil h)
  | close => exact hcalm h.close
  | readable =>
      apply h.readable.mono
      intro q' h'
      exact .some h'
  | writable =>
      rw [Driven.passEvents, Driven.perform, Driven.writable]
      split
      · rename_i hopen
        apply (h.sendAll hopen).mono
        intro q' h' answer d' hd
        exact (h' answer d' hd).heard
      · exact hcalm (Observer.Keeps.nil h)
  | queueSend | sendFrame =>
      rw [Driven.passEvents_of_queues fuel d rfl, Driven.perform_of_queues fuel d rfl]
      rcases d.session.perform _ with ⟨_ | _, s⟩
      · exact hcalm (Observer.Keeps.nil h)
      · exact hcalm h.syncInterest

theorem Calm.call (fuel : Nat) (c : Call) (h : Calm {} false q) :
    (listener T).Keeps (Observer.Answered (Heard {})) q (d.performEvents fuel c)
      (d.perform fuel c) := by
  have hcalled := fun answer => h.plain (e := .called c answer d.session) rfl
  rw [Driven.performEvents]
  cases hperform : d.perform fuel c with
  | none =>
      -- the pass goes on without end, and nobody asks what was told
      apply (hcalled none).cons
      intro q₁ h₁
      apply (h₁.pass (d := d) fuel c).mono
      rintro q₂ _ answer d' ⟨⟩
  | some r =>
      apply (hcalled (some r.1)).cons
      intro q₁ h₁
      have hpass := h₁.pass (d := d) fuel c
      rw [hperform] at hpass
      apply hpass.append
      intro q₂ h₂
      rcases h₂ r.1 r.2 rfl with ⟨unheard, hcalm, hheard⟩
      apply (hcalm.plain rfl).mono
      intro q₃ h₃
      exact .some ⟨unheard, h₃, hheard⟩

omit [Transport T] [Handler T H] in
/-- The owner has the session back. -/
theorem Heard.idle {k : Nesting} (hcalls : k.calls = 0) (h : Heard k q d) :
    Hears (Calm {} false) q [.idle d.session] := by
  rcases h with ⟨unheard, hcalm, hheard⟩
  apply Observer.Keeps.single
  intro _
  constructor
  · constructor
    · -- of the demands only the one on idle sessions is about this event
      intro n howed
      rw [hcalm.owed] at howed
      cases howed
    · rintro n s ⟨⟩
    · rintro s ⟨⟩
    · rintro s ⟨⟩ hopen
      exact hcalm.unheard.trans (hheard hopen)
  · constructor
    · show Nesting.next q.nesting (.idle d.session) = {}
      rw [hcalm.nesting, Nesting.next, hcalls]
    · rfl
    · exact Hearing.owed_next (.inr rfl)

theorem Calm.step (fuel : Nat) (step : Driven.Step H T) (h : Calm {} false q) :
    (listener T).Keeps (Observer.Reached fun q' _ => Calm {} false q') q (d.stepEvents fuel step)
      (d.step fuel step) := by
  rw [Driven.stepEvents]
  cases step with
  | call c =>
      apply (h.call (d := d) fuel c).append
      intro q' h'
      rw [Driven.step]
      cases hperform : d.perform fuel c with
      | none => exact Observer.Keeps.nil (by rintro d' ⟨⟩)
      | some r =>
          apply ((h' r.1 r.2 hperform).idle rfl).mono
          rintro q'' h'' d' ⟨⟩
          exact h''
  | visit f =>
      -- a visit is a callback inside which there is nothing to be told
      apply (Calm.callback (k := { visiting := true }) (.inl rfl) (h.plain rfl)).append
      intro q' h'
      apply ((h'.heard (d := (d.withHandler f).2)).idle rfl).mono
      rintro q'' h'' d' ⟨⟩
      exact h''
  | editHandler f | editRecvBuffer f | editTransport f | wait now =>
      apply (h.heard.idle rfl).mono
      rintro q' h' d' ⟨⟩
      exact h'

theorem Calm.run (fuel : Nat) (steps : List (Driven.Step H T)) (h : Calm {} false q) :
    (listener T).Keeps (Observer.Reached fun q' _ => Calm {} false q') q (d.trace fuel steps)
      (steps.foldlM (Driven.step fuel) d) := by
  have hstep : ∀ {q : Hearing T} {d : Driven H T} {step : Driven.Step H T}, True →
      Calm {} false q → (listener T).Keeps (Observer.Reached fun q' _ => Calm {} false q') q
        (d.stepEvents fuel step) (d.step fuel step) := by
    intro q d step _ h
    exact h.step fuel step
  exact Observer.Keeps.trace hstep (fun _ _ => trivial) h

end Runs

/-! ## What an accepted trace tells -/

theorem nesting_after (es : List (Event T)) : ((listener T).after {} es).nesting = .of es :=
  (List.foldl_hom Hearing.nesting fun _ _ => rfl).symm

theorem last_after (es : List (Event T)) (e : Event T) :
    ((listener T).after {} (es ++ [e])).last = if (Nesting.of es).Inside then none else some e := by
  rw [Observer.after_append]
  show (if ((listener T).after {} es).nesting.Inside then none else some e) = _
  rw [nesting_after]

theorem exists_last (h : ((listener T).after {} es).last = some e) :
    ∃ start, es = start ++ [e] ∧ ¬ (Nesting.of start).Inside := by
  rcases List.eq_nil_or_concat es with rfl | ⟨start, e', rfl⟩
  · cases h
  · rw [List.concat_eq_append, last_after] at h
    split at h
    · cases h
    · rename_i houtside
      cases h
      exact ⟨start, List.concat_eq_append, houtside⟩

/-- Bytes stay unheard as long as neither the handler nor the owner hears of anything. -/
theorem unheard_after (hunheard : q.unheard = true) (hrecv : ∀ s, .told .recv s ∉ es)
    (hidle : ∀ s, .idle s ∉ es) : ((listener T).after q es).unheard = true := by
  -- a receive can only add to it
  induction es generalizing q with
  | nil => exact hunheard
  | cons e es ih =>
      apply ih
      · cases e with
        | received answer =>
            rcases answer with _ | ⟨_ | ⟨b, data⟩⟩ | _
            · exact hunheard
            · exact hunheard
            · show (q.unheard || !decide q.nesting.Inside) = true
              rw [hunheard, Bool.true_or]
            · exact hunheard
        | told n s =>
            cases n with
            | recv => exact absurd List.mem_cons_self (hrecv s)
            | _ => exact hunheard
        | idle s => exact absurd List.mem_cons_self (hidle s)
        | _ => exact hunheard
      · intro s hs
        exact hrecv s (List.mem_cons_of_mem e hs)
      · intro s hs
        exact hidle s (List.mem_cons_of_mem e hs)

/-- If the transport has not claimed too much, the size that is told is the one that is owed. -/
theorem toldSize_of_demand (hmodest : ∀ e', q.last = some e' → e'.modest = true)
    (h : q.Demand e) : e.toldSize? = q.owed := by
  cases hsize : e.toldSize? with
  | some n =>
      have he : ∃ s, e = .told (.send n) s := by
        cases e with
        | told notice s =>
            cases notice with
            | send =>
                cases hsize
                exact ⟨s, rfl⟩
            | _ => cases hsize
        | _ => cases hsize
      obtain ⟨s, rfl⟩ := he
      obtain ⟨hn, b, offered, b', hlast⟩ := h.toldSend n s rfl
      -- a transport that claims too much has a chunk that nobody is told of
      have hfits : n ≤ offered.length := by simpa [Event.modest] using hmodest _ hlast
      rw [Hearing.owed, hlast, Option.bind_some, Event.chunk?, if_pos ⟨hn, hfits⟩]
  | none =>
      cases howed : q.owed with
      | none => rfl
      | some n =>
          obtain ⟨s, rfl⟩ := h.sent n howed
          cases hsize

theorem sizes_of_accepts (h : (listener T).Accepts q es)
    (hlast : ∀ e, q.last = some e → e.modest = true) (hmodest : ∀ e ∈ es, e.modest = true) :
    q.owed.toList ++ chunks q.nesting es =
      es.filterMap Event.toldSize? ++ ((listener T).after q es).owed.toList := by
  -- along the trace one side runs ahead of the other by what is owed
  induction es generalizing q with
  | nil => exact List.append_nil _
  | cons e es ih =>
      obtain ⟨hdemand, haccepts⟩ := h
      rw [List.forall_mem_cons] at hmodest
      have hlast' : ∀ e', (q.next e).last = some e' → e'.modest = true := by
        intro e' he'
        have hsame := (Option.ite_none_left_eq_some.mp he').2
        cases hsame
        exact hmodest.1
      have howed : (q.next e).owed = if q.nesting.Inside then none else e.chunk? := by
        show (if q.nesting.Inside then none else some e).bind Event.chunk? = _
        split <;> rfl
      have hrest : (q.next e).owed.toList ++ chunks (q.nesting.next e) es =
          es.filterMap Event.toldSize? ++ ((listener T).after (q.next e) es).owed.toList :=
        ih haccepts hlast' hmodest.2
      have hafter : (listener T).after q (e :: es) = (listener T).after (q.next e) es := rfl
      have hsplit : (e :: es).filterMap Event.toldSize? =
          e.toldSize?.toList ++ es.filterMap Event.toldSize? := by
        rw [List.filterMap_cons]
        cases e.toldSize? <;> rfl
      rw [chunks, ← howed, hafter, hsplit, toldSize_of_demand hlast hdemand, List.append_assoc,
        ← hrest]

theorem TrafficTold.of_accepts {trace : List (Event T)} (h : (listener T).Accepts {} trace) :
    TrafficTold trace where
  sent := by
    intro before e e' after n htrace hchunk houtside
    rw [htrace, List.append_cons] at h
    have hdemand : Hearing.Demand _ e' := h.demands
    apply hdemand.sent
    rw [Hearing.owed, last_after, if_neg houtside]
    exact hchunk
  toldSend := by
    intro before n s after htrace
    rw [htrace] at h
    have hdemand : Hearing.Demand _ (.told (.send n) s) := h.demands
    obtain ⟨hn, b, offered, b', hlast⟩ := hdemand.toldSend n s rfl
    obtain ⟨start, hbefore, houtside⟩ := exists_last hlast
    exact ⟨hn, start, b, offered, b', hbefore, houtside⟩
  sizes := by
    intro before s after htrace hmodest
    rw [htrace, Observer.accepts_append] at h
    obtain ⟨hbefore, hdemand, _⟩ := h
    have howed : ((listener T).after {} before).owed = none := by
      cases hsize : ((listener T).after {} before).owed with
      | none => rfl
      | some n =>
          obtain ⟨s', hs'⟩ := Hearing.Demand.sent hdemand n hsize
          cases hs'
    have hsizes := sizes_of_accepts hbefore (by rintro e ⟨⟩) hmodest
    rw [howed, Option.toList_none, List.append_nil] at hsizes
    exact hsizes.symm
  received := by
    intro before b data during s after htrace houtside hidle hopen
    rw [htrace, List.append_cons, ← List.append_assoc] at h
    have hdemand : Hearing.Demand _ (.idle s) := h.demands
    have hheard := hdemand.idle s rfl hopen
    -- if it were not told, the session would be idle with something unheard
    by_cases htold : ∃ s', .told .recv s' ∈ during
    · exact htold
    rw [not_exists] at htold
    have hunheard : ((listener T).after {}
        (before ++ [.received (.ok (.moved (b :: data)))])).unheard = true := by
      rw [Observer.after_append]
      show (((listener T).after {} before).unheard ||
        !decide ((listener T).after {} before).nesting.Inside) = true
      rw [nesting_after, decide_eq_false houtside, Bool.not_false, Bool.or_true]
    rw [Observer.after_append] at hheard
    rw [unheard_after hunheard htold hidle] at hheard
    cases hheard
  toldRecv := by
    intro before s after htrace
    rw [htrace] at h
    have hdemand : Hearing.Demand _ (.told .recv s) := h.demands
    obtain ⟨answer, hlast⟩ := hdemand.toldRecv s rfl
    obtain ⟨start, hbefore, houtside⟩ := exists_last hlast
    exact ⟨start, answer, hbefore, houtside⟩

/-- In every run, whatever the handler and the owner do and the transport answers: of each chunk
that leaves and of all bytes that come in the handler is told, unless a callback has asked for them,
and then it never is. -/
theorem traffic_told [Transport T] {H : Type} [Handler T H] (fuel : Nat) (transport : T)
    (recvCapacity sendCapacity now : Nat) (handler : H) (steps : List (Driven.Step H T)) :
    TrafficTold
      ((Driven.new transport recvCapacity sendCapacity now handler).trace fuel steps) := by
  have hstart : Calm {} false ({} : Hearing T) := ⟨rfl, rfl, rfl⟩
  exact .of_accepts (hstart.run fuel steps fun _ _ => trivial).1

/-- A handler replies and flushes when bytes arrive. The reply leaves, and nobody is told. -/
theorem untold_flush :
    let handler : Sim.ScriptedHandler :=
      { onRecv := [[.call (.queueSend (utf8 "x")), .call .writable]] }
    let steps : List (Driven.Step Sim.ScriptedHandler Sim.ScriptedTransport) :=
      [.call .openUp, .call .readable]
    let d₀ := Driven.new { reads := [.data (utf8 "hi")], sends := [] } 64 64 0 handler
    (steps.foldlM (Driven.step 9) d₀).map (fun d => (d.session.transport.sent, d.handler.calls)) =
        some (utf8 "x", { recv := 1, send := 0 }) ∧
      (d₀.trace 9 steps).filterMap Event.chunk? = [1] := by
  decide +kernel

end TcpReactor.Session
