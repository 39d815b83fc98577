import TcpReactor.Proofs.Client.Run
import TcpReactor.Sim.ClientRun

namespace TcpReactor

/-! # How a client stands

Between two calls a client is in one of three situations. It is idle; or it runs and has a session,
which owns the application; or it runs, its application is parked, and another attempt to connect is
scheduled. Only in the middle of a cycle there is one more: a client that the server has rejected
runs no more, but still has to tear its session down.

* `Client.connect_cases`: what an attempt to connect comes to. Nothing is missing for it, as long as
  the application is parked.
* `Client.standing_step`, `Client.standing_run`: every step leads from one of the three situations
  to one of them.
* `Client.standing_always`: so the application is never lost, and a client that runs is never stuck.
-/

namespace Client

variable {A : Type} [ClientApp A] {app a : A} {c c' : Client A} {d d' : ClientSession A}
  {now fuel : Nat}

/-- The situations of a client whose application was `app` when it was made. -/
inductive Standing (app : A) (c : Client A) : Prop
  | idle {a : A} (running : c.running = false) (session : c.session = none)
      (parked : c.parked = some a) (reconnect : c.reconnect = none)
      (becomes : ClientApp.Becomes app a)
  | engaged {d : ClientSession A} (running : c.running = true) (session : c.session = some d)
      (parked : c.parked = none) (reconnect : c.reconnect = none)
      (becomes : ClientApp.Becomes app d.handler.app)
  | waiting {a : A} {deadline : Deadline} (running : c.running = true) (session : c.session = none)
      (parked : c.parked = some a) (reconnect : c.reconnect = some deadline)
      (becomes : ClientApp.Becomes app a)

/-- A client with a session. It may have been rejected, but then the session has closed. -/
structure Engaged (app : A) (c : Client A) (d : ClientSession A) : Prop where
  session : c.session = some d
  parked : c.parked = none
  reconnect : c.reconnect = none
  becomes : ClientApp.Becomes app d.handler.app
  running : c.running = true ∨ d.isOpen = false

/-! ## Connecting -/

/-- An open fails for a reason of its own. -/
theorem openUp_error_ne_internal {s s' : Session Socket} {e : SessionError}
    (h : s.openUp = (.error e, s')) : e ≠ .internal := by
  rw [Session.openUp] at h
  repeat' split at h
  all_goals
    cases h
  all_goals simp

/-- The application goes to the session, if that opens, and otherwise stays where it is. -/
theorem attach_cases (hparked : c.parked = some a) (now : Nat) (socket : Socket)
    (connecting : Bool) :
    (∃ e dropped, e ≠ .internal ∧ c.attach now socket connecting =
      (.error (.session e), { c with released := c.released ++ dropped })) ∨
    ∃ d, ClientApp.Becomes a d.handler.app ∧
      c.attach now socket connecting = (.ok (), { c with session := some d, parked := none }) := by
  rw [attach, hparked]
  dsimp only
  rw [Driven.openUp]
  rcases hopen :
    (Session.new socket c.config.recvBufferSize c.config.sendBufferSize now).openUp with ⟨e | _, s⟩
  · -- the application was not taken yet, and of the session only the socket is left to drop
    refine .inl ⟨e, [s.transport.close], openUp_error_ne_internal hopen, ?_⟩
    dsimp only
    rw [release, ← hparked]
  · refine .inr ⟨_, ?_, rfl⟩
    split
    · exact .refl
    · exact becomes_connectCompleted .refl

/-- With the application parked, an attempt to connect fails for a reason of its own and only drops
its socket, or it leads to a session. -/
theorem connect_cases (hparked : c.parked = some a) (now : Nat) (attempt : Attempt) :
    (∃ e dropped, e ≠ .session .internal ∧ e ≠ .alreadyStarted ∧
      c.connect now attempt = (.error e, { c with released := c.released ++ dropped })) ∨
    ∃ d, ClientApp.Becomes a d.handler.app ∧
      c.connect now attempt = (.ok (), { c with session := some d, parked := none }) := by
  have hattach (socket : Socket) (connecting : Bool) :
      (∃ e dropped, e ≠ .session .internal ∧ e ≠ .alreadyStarted ∧
        c.attach now socket connecting = (.error e, { c with released := c.released ++ dropped })) ∨
      ∃ d, ClientApp.Becomes a d.handler.app ∧
        c.attach now socket connecting =
          (.ok (), { c with session := some d, parked := none }) := by
    rcases attach_cases hparked now socket connecting with ⟨e, dropped, he, h⟩ | h
    · exact .inl ⟨_, dropped, by simpa using he, by simp, h⟩
    · exact .inr h
  -- a parked application rules out the internal error in front of all attempts
  rw [connect.eq_def, if_neg (by simp [hparked])]
  cases attempt with
  | failed e => exact .inl ⟨.socket e, [], by simp, by simp, by rw [List.append_nil]⟩
  | unwatched e socket => exact .inl ⟨.io e, [socket.close], by simp, by simp, rfl⟩
  | connected socket => exact hattach socket false
  | inProgress socket => exact hattach socket true

/-! ## One cycle -/

theorem Engaged.dispatch {r : Readiness} (h : Engaged app c d)
    (hc' : c.dispatch fuel now r = some c') : ∃ d', Engaged app c' d' := by
  rw [Client.dispatch, h.session] at hc'
  rcases Option.bind_eq_some_iff.mp hc' with ⟨⟨d₁, runsOn⟩, hreact, hrest⟩
  cases hrest
  have hbecomes : ClientApp.Becomes app d₁.handler.app := becomes_react (by exact h.becomes) hreact
  refine ⟨d₁, rfl, h.parked, h.reconnect, hbecomes, ?_⟩
  dsimp only
  -- a session that was closed before the event no longer reacts; one that stops the reactor closes
  rcases h.running with hrunning | hclosed
  · rw [hrunning]
    cases runsOn with
    | true => exact .inl rfl
    | false => exact .inr (isOpen_of_stopped hreact)
  · rw [react_of_closed (by exact hclosed)] at hreact
    cases hreact
    exact .inr hclosed

theorem Engaged.dispatchAll {events : List Readiness} (h : Engaged app c d)
    (hc' : c.dispatchAll fuel now events = some c') : ∃ d', Engaged app c' d' := by
  induction events generalizing c d with
  | nil =>
      cases hc'
      exact ⟨d, h⟩
  | cons r events ih =>
      rw [Client.dispatchAll] at hc'
      rcases Option.bind_eq_some_iff.mp hc' with ⟨c₁, hdispatch, hrest⟩
      rcases h.dispatch hdispatch with ⟨d₁, h₁⟩
      exact ih h₁ hrest

theorem dispatchAll_of_no_session {events : List Readiness} (h : c.session = none) :
    c.dispatchAll fuel now events = some c := by
  induction events with
  | nil => rfl
  | cons r events ih =>
      rw [Client.dispatchAll, Client.dispatch, h]
      exact ih

/-- Without its session a client is idle. -/
theorem Engaged.teardown (h : Engaged app c d) (hrunning : c.running = false) (now : Nat) :
    Standing app (c.teardown now) := by
  rw [Client.teardown, h.session]
  exact .idle hrunning rfl rfl h.reconnect ((maintains_becomes app).close h.becomes)

/-- Behind the events, a session that has closed is torn down. -/
theorem Engaged.checkLost (h : Engaged app c d) (now : Nat) : Standing app (c.checkLost now) := by
  rw [Client.checkLost, h.session]
  dsimp only
  cases hopen : d.isOpen with
  | true =>
      have hrunning : c.running = true := h.running.resolve_right (by simp [hopen])
      exact .engaged hrunning h.session h.parked h.reconnect h.becomes
  | false =>
      have hrunning : (c.teardown now).running = c.running := by
        rw [Client.teardown, h.session]
        rfl
      rw [if_neg Bool.false_ne_true, hrunning]
      cases hruns : c.running with
      | false => exact h.teardown hruns now
      | true =>
          -- the client runs on, so there will be another attempt
          rw [if_pos rfl, Client.teardown, h.session]
          exact .waiting hruns rfl rfl rfl ((maintains_becomes app).close h.becomes)

theorem checkLost_of_no_session (h : c.session = none) (now : Nat) : c.checkLost now = c := by
  rw [Client.checkLost, h]

theorem Standing.checkReconnect (h : Standing app c) (now : Nat) (attempt : Attempt) :
    Standing app (c.checkReconnect now attempt) := by
  rw [Client.checkReconnect]
  split
  · exact h
  rename_i deadline hdue
  split
  · -- only a client that waits has a deadline
    cases h with
    | idle _ _ _ hreconnect =>
        rw [hreconnect] at hdue
        cases hdue
    | engaged _ _ _ hreconnect =>
        rw [hreconnect] at hdue
        cases hdue
    | waiting hrunning hsession hparked _ hbecomes =>
        rcases connect_cases (c := { c with reconnect := none }) hparked now attempt with
          ⟨e, dropped, _, _, hconnect⟩ | ⟨d, hd, hconnect⟩
        · rw [hconnect]
          exact .waiting hrunning hsession hparked rfl hbecomes
        · rw [hconnect]
          exact .engaged hrunning rfl rfl rfl (hbecomes.trans hd)
  · exact h

theorem Standing.dispatchAll {events : List Readiness} (h : Standing app c)
    (hc' : c.dispatchAll fuel now events = some c') : Standing app (c'.checkLost now) := by
  cases h with
  | idle hrunning hsession hparked hreconnect hbecomes =>
      rw [dispatchAll_of_no_session hsession] at hc'
      cases hc'
      rw [checkLost_of_no_session hsession]
      exact .idle hrunning hsession hparked hreconnect hbecomes
  | waiting hrunning hsession hparked hreconnect hbecomes =>
      rw [dispatchAll_of_no_session hsession] at hc'
      cases hc'
      rw [checkLost_of_no_session hsession]
      exact .waiting hrunning hsession hparked hreconnect hbecomes
  | engaged hrunning hsession hparked hreconnect hbecomes =>
      have hengaged : Engaged app c _ := ⟨hsession, hparked, hreconnect, hbecomes, .inl hrunning⟩
      -- in between the client may be stopped with its session closed, which the check puts in order
      rcases hengaged.dispatchAll hc' with ⟨d, hd⟩
      exact hd.checkLost now

theorem Standing.cycle {events : List Readiness} {attempt : Attempt} {n : Nat}
    (h : Standing app c) (hc' : c.cycle fuel now events attempt = some (n, c')) :
    Standing app c' := by
  rw [Client.cycle] at hc'
  split at hc'
  · cases hc'
    exact h
  · rcases Option.bind_eq_some_iff.mp hc' with ⟨c₁, hdispatch, hrest⟩
    cases hrest
    exact (h.dispatchAll hdispatch).checkReconnect now attempt

/-! ## Calls from outside -/

/-- A client that runs has been started. One that does not run can be: if that fails, its socket is
dropped and nothing else has changed. -/
theorem Standing.start_cases (h : Standing app c) (now : Nat) (attempt : Attempt) :
    (c.running = true ∧ c.start now attempt = (.error .alreadyStarted, c)) ∨
    (∃ e dropped, c.running = false ∧ e ≠ .session .internal ∧ e ≠ .alreadyStarted ∧
      c.start now attempt = (.error e, { c with released := c.released ++ dropped })) ∨
    ∃ d, c.running = false ∧ c.reconnect = none ∧ ClientApp.Becomes app d.handler.app ∧
      c.start now attempt =
        (.ok (), { c with session := some d, parked := none, running := true }) := by
  have hrunning (hruns : c.running = true) : c.start now attempt = (.error .alreadyStarted, c) := by
    rw [start, hruns]
    rfl
  cases h with
  | engaged hruns | waiting hruns => exact .inl ⟨hruns, hrunning hruns⟩
  | idle hstopped hsession hparked hreconnect hbecomes =>
      right
      -- with no session either, a start comes down to its connect
      rw [start, if_neg (by simp [hstopped, hsession])]
      rcases connect_cases hparked now attempt with
        ⟨e, dropped, hinternal, hstarted, hconnect⟩ | ⟨d, hd, hconnect⟩
      · rw [hconnect]
        exact .inl ⟨e, dropped, hstopped, hinternal, hstarted, rfl⟩
      · rw [hconnect]
        exact .inr ⟨d, hstopped, hreconnect, hbecomes.trans hd, rfl⟩

theorem Standing.release (h : Standing app c) (dropped : List Socket) :
    Standing app { c with released := c.released ++ dropped } := by
  cases h with
  | idle hrunning hsession hparked hreconnect hbecomes =>
      exact .idle hrunning hsession hparked hreconnect hbecomes
  | engaged hrunning hsession hparked hreconnect hbecomes =>
      exact .engaged hrunning hsession hparked hreconnect hbecomes
  | waiting hrunning hsession hparked hreconnect hbecomes =>
      exact .waiting hrunning hsession hparked hreconnect hbecomes

theorem Standing.start (h : Standing app c) (now : Nat) (attempt : Attempt) :
    Standing app (c.start now attempt).2 := by
  rcases h.start_cases now attempt with
    ⟨_, hstart⟩ | ⟨e, dropped, _, _, _, hstart⟩ | ⟨d, _, hreconnect, hd, hstart⟩
  · rw [hstart]
    exact h
  · rw [hstart]
    exact h.release dropped
  · rw [hstart]
    exact .engaged rfl rfl rfl hreconnect hd

theorem Standing.stop (h : Standing app c) (now : Nat) : Standing app (c.stop now) := by
  cases h with
  | idle hrunning hsession hparked hreconnect hbecomes
  | waiting hrunning hsession hparked hreconnect hbecomes =>
      rw [Client.stop, teardown]
      simp only [hsession]
      exact .idle rfl rfl hparked rfl hbecomes
  | engaged hrunning hsession hparked hreconnect hbecomes =>
      rw [Client.stop, teardown]
      simp only [hsession]
      exact .idle rfl rfl rfl rfl ((maintains_becomes app).close hbecomes)

/-- A call on the session. -/
theorem Standing.onSession (h : Standing app c)
    {call : ClientSession A → Except SessionError Unit × ClientSession A}
    (hcall : ∀ d, ClientApp.Becomes app d.handler.app →
      ClientApp.Becomes app (call d).2.handler.app) (now : Nat) :
    Standing app (c.onSession now call).2 := by
  cases h with
  | idle hrunning hsession hparked hreconnect hbecomes =>
      rw [Client.onSession, hsession]
      exact .idle hrunning hsession hparked hreconnect hbecomes
  | waiting hrunning hsession hparked hreconnect hbecomes =>
      rw [Client.onSession, hsession]
      exact .waiting hrunning hsession hparked hreconnect hbecomes
  | engaged hrunning hsession hparked hreconnect hbecomes =>
      rw [Client.onSession, hsession]
      exact .engaged hrunning rfl hparked hreconnect (hcall _ hbecomes)

/-! ## Runs -/

/-- Every step leads from one of the three situations to one of them. -/
theorem standing_step {step : Step} (h : Standing app c) (hc' : c.step fuel step = some c') :
    Standing app c' := by
  have hcalls (call : Session.Call) (d : ClientSession A)
      (hd : ClientApp.Becomes app d.handler.app) (r : Except SessionError Unit × ClientSession A)
      (hr : d.perform fuel call = some r) : ClientApp.Becomes app r.2.handler.app :=
    (maintains_becomes app).perform hd hr
  cases step with
  | start now attempt =>
      cases hc'
      exact h.start now attempt
  | stop now =>
      cases hc'
      exact h.stop now
  | cycle now events attempt =>
      rcases Option.map_eq_some_iff.mp hc' with ⟨⟨n, _⟩, hcycle, rfl⟩
      exact h.cycle hcycle
  | send now data =>
      cases hc'
      exact h.onSession (fun d hd => hcalls (.queueSend data) d hd _ rfl) now
  | sendFrame now payload =>
      cases hc'
      exact h.onSession (fun d hd => hcalls (.sendFrame payload) d hd _ rfl) now
  | network f =>
      cases hc'
      cases h with
      | idle hrunning hsession hparked hreconnect hbecomes =>
          exact .idle hrunning (congrArg (Option.map _) hsession) hparked hreconnect hbecomes
      | engaged hrunning hsession hparked hreconnect hbecomes =>
          exact .engaged hrunning (congrArg (Option.map _) hsession) hparked hreconnect hbecomes
      | waiting hrunning hsession hparked hreconnect hbecomes =>
          exact .waiting hrunning (congrArg (Option.map _) hsession) hparked hreconnect hbecomes

theorem standing_run {steps : List Step} (h : Standing app c)
    (hc' : c.run fuel steps = some c') : Standing app c' :=
  foldlM_keeps (P := fun _ => True) (fun _ h hstep => standing_step h hstep)
    (fun _ _ => trivial) h hc'

/-- A reconnect finds the application parked. -/
theorem Standing.connect_ne_internal (h : Standing app c) (hdue : c.reconnect.isSome = true)
    (now : Nat) (attempt : Attempt) :
    (connect { c with reconnect := none } now attempt).1 ≠ .error (.session .internal) := by
  cases h with
  | idle _ _ _ hreconnect =>
      rw [hreconnect] at hdue
      cases hdue
  | engaged _ _ _ hreconnect =>
      rw [hreconnect] at hdue
      cases hdue
  | waiting _ _ hparked _ _ =>
      rcases connect_cases (c := { c with reconnect := none }) hparked now attempt with
        ⟨e, dropped, hinternal, _, hconnect⟩ | ⟨d, _, hconnect⟩
      · rw [hconnect]
        simpa using hinternal
      · rw [hconnect]
        simp

/-! ## What always holds -/

theorem Standing.exists_app? (h : Standing app c) :
    ∃ a, c.app? = some a ∧ ClientApp.Becomes app a := by
  cases h with
  | idle _ hsession hparked _ hbecomes =>
      rw [app?, hsession]
      exact ⟨_, hparked, hbecomes⟩
  | engaged _ hsession _ _ hbecomes =>
      rw [app?, hsession]
      exact ⟨_, rfl, hbecomes⟩
  | waiting _ hsession hparked _ hbecomes =>
      rw [app?, hsession]
      exact ⟨_, hparked, hbecomes⟩

theorem Standing.isSome_parked (h : Standing app c) : c.parked.isSome = !c.session.isSome := by
  cases h with
  | idle _ hsession hparked | engaged _ hsession hparked | waiting _ hsession hparked =>
      rw [hsession, hparked]
      rfl

theorem Standing.isSome_reconnect (h : Standing app c) (hruns : c.running = true) :
    c.reconnect.isSome = !c.session.isSome := by
  cases h with
  | idle hstopped =>
      rw [hstopped] at hruns
      cases hruns
  | engaged _ hsession _ hreconnect | waiting _ hsession _ hreconnect =>
      rw [hsession, hreconnect]
      rfl

theorem Standing.of_stopped (h : Standing app c) (hstopped : c.running = false) :
    c.session = none ∧ c.reconnect = none := by
  cases h with
  | idle _ hsession _ hreconnect => exact ⟨hsession, hreconnect⟩
  | engaged hruns | waiting hruns =>
      rw [hruns] at hstopped
      cases hstopped

/-- What a start can fail for, and what is left of it. -/
theorem Standing.start_error {attempt : Attempt} {e : ReactorError} (h : Standing app c)
    (hfailed : (c.start now attempt).1 = .error e) :
    (e = .alreadyStarted ↔ c.running = true) ∧ e ≠ .session .internal ∧
      ∃ dropped, (c.start now attempt).2 = { c with released := c.released ++ dropped } := by
  rcases h.start_cases now attempt with
    ⟨hruns, hstart⟩ | ⟨e', dropped, hstopped, hinternal, hstarted, hstart⟩ | ⟨d, _, _, _, hstart⟩
  · rw [hstart] at hfailed ⊢
    cases hfailed
    exact ⟨by simp [hruns], by simp, [], by rw [List.append_nil]⟩
  · rw [hstart] at hfailed ⊢
    cases hfailed
    exact ⟨by simp [hstopped, hstarted], hinternal, dropped, rfl⟩
  · rw [hstart] at hfailed
    cases hfailed

/-- Whatever its owner, its server, its application and the network have done, of a client between
two calls this holds:
* Its application can be found, it is the one that the client was made with, and it is either parked
  or with the session.
* A client that runs either has a session or has another attempt scheduled.
* One that does not run has neither, so it can be started.
* A start that fails changes nothing but that a socket may have been dropped.
* No attempt to connect finds the application missing: not one by which the client is started, and
  not one that is due at the end of the next cycle. -/
theorem standing_always {config : ClientConfig} {steps : List Step}
    (h : run fuel (.new config app) steps = some c) :
    (∃ a, c.app? = some a ∧ ClientApp.Becomes app a) ∧
    c.parked.isSome = !c.session.isSome ∧
    (c.running = true → c.reconnect.isSome = !c.session.isSome) ∧
    (c.running = false → c.session = none ∧ c.reconnect = none ∧
      ∀ now attempt, (c.start now attempt).1 ≠ .error .alreadyStarted) ∧
    (∀ now attempt e, (c.start now attempt).1 = .error e → e ≠ .session .internal ∧
      ∃ dropped, (c.start now attempt).2 = { c with released := c.released ++ dropped }) ∧
    ∀ fuel now events c', c.dispatchAll fuel now events = some c' →
      (c'.checkLost now).reconnect.isSome = true → ∀ attempt,
        (connect { c'.checkLost now with reconnect := none } now attempt).1 ≠
          .error (.session .internal) := by
  have hnew : Standing app (.new config app) := .idle rfl rfl rfl rfl .refl
  have hstanding := standing_run hnew h
  refine ⟨hstanding.exists_app?, hstanding.isSome_parked, hstanding.isSome_reconnect,
    fun hstopped => ?_, fun now attempt e hfailed => (hstanding.start_error hfailed).2,
    fun fuel now events c' hc' hdue => (hstanding.dispatchAll hc').connect_ne_internal hdue now⟩
  rcases hstanding.of_stopped hstopped with ⟨hsession, hreconnect⟩
  -- it would be refused as already started only if it ran
  refine ⟨hsession, hreconnect, fun now attempt hfailed => ?_⟩
  rw [(hstanding.start_error hfailed).1.mp rfl] at hstopped
  cases hstopped

/-- An application greets and loses its connection; the next attempt fails at once, and the one
after it is rejected by the server. The client then does not run, and its application, which has
been told of one connection and of two closes, waits for another start. -/
theorem standing_always_rejected :
    let app : Sim.LoggingApp := { mode := .raw false, greet := [.queueSend [1, 2], .writable] }
    let socket : Socket := { peer := .v4 [127, 0, 0, 1] 80 }
    let config : ClientConfig := { reconnectBackoff := 5, recvBufferSize := 8, sendBufferSize := 8 }
    let steps : List Step :=
      [.start 1 (.inProgress socket), .cycle 2 [{ writable := true }] (.failed .invalidState),
        .network Socket.finish, .cycle 3 [{ readable := true }] (.failed .invalidState),
        .cycle 9 [] (.failed .invalidState),
        .cycle 15 [] (.inProgress (socket.breakOff .connectionRefused)),
        .cycle 16 [{ writable := true }] (.failed .invalidState)]
    ∃ c a, run 4 (.new config app) steps = some c ∧ c.app? = some a ∧
      ClientApp.Becomes app a ∧ a.connects = 1 ∧ a.closes = 2 ∧ c.running = false ∧
      c.parked.isSome = true ∧ c.reconnect = none ∧
      ∀ now attempt, (c.start now attempt).1 ≠ .error .alreadyStarted := by
  intro app socket config steps
  have hfacts : ((run 4 (.new config app) steps).map fun c =>
      (c.running, c.app?.map fun a => (a.connects, a.closes))) = some (false, some (1, 2)) := by
    decide +kernel
  rcases Option.map_eq_some_iff.mp hfacts with ⟨c, hrun, hfacts⟩
  simp only [Prod.mk.injEq] at hfacts
  rcases hfacts with ⟨hstopped, hcounts⟩
  rcases standing_always hrun with ⟨⟨a, ha, hbecomes⟩, hparked, _, hidle, _, _⟩
  rcases hidle hstopped with ⟨hsession, hreconnect, hstart⟩
  simp only [ha, Option.map_some, Option.some.injEq, Prod.mk.injEq] at hcounts
  rw [hsession] at hparked
  exact ⟨c, a, hrun, ha, hbecomes, hcounts.1, hcounts.2, hstopped, hparked, hreconnect, hstart⟩

end Client
end TcpReactor
