import TcpReactor.Proofs.Client.Standing
import TcpReactor.Proofs.Session.Brackets

namespace TcpReactor

/-! # What the application of a client is told

The trace of a client joins the traces of its sessions, one after the other, each beginning with the
call by which the session is opened. It belongs to a run as long as it goes on.

* `Living` relates the observer of brackets to a session of a client, `living_react` shows that the
  session does not break it whatever its readiness.
* `Client.callbacks_in_brackets`: over the whole run, through any number of connections, the
  application is told in brackets.

What is done with a session between two connections is a run of its steps (`Client.react_eq`), so
`Driven.heard_trace` speaks of it: the notices in its part of the trace are the calls it makes.
-/

open Session (Event Program Observer Stage StageDemand brackets)

/-- No callback of the application closes the socket behind the session. -/
structure ClientApp.Tame (A : Type) [ClientApp A] : Prop where
  onConnected : ∀ a : A, (ClientApp.onConnected a).Tame
  onRecv : ∀ a : A, (ClientApp.onRecv a).Tame
  onSend : ∀ (a : A) (n : Nat), (ClientApp.onSend a n).Tame

namespace Client

variable {A : Type} [ClientApp A]

/-! ## Traces -/

/-- A session that was just made for a socket. -/
def fresh (c : Client A) (now : Nat) (app : A) (socket : Socket) (connecting : Bool) :
    ClientSession A where
  session := .new socket c.config.recvBufferSize c.config.sendBufferSize now
  handler := { app, connecting, interest := .ofPending connecting }

theorem attach_eq (c : Client A) (now : Nat) (socket : Socket) (connecting : Bool) :
    c.attach now socket connecting =
      match c.parked with
      | none => (.error (.session .internal), c)
      | some app =>
          match (c.fresh now app socket connecting).openUp with
          | (.error e, d) => (.error (.session e),
              release { c with parked := some d.handler.app } d.session.transport)
          | (.ok (), d) => (.ok (), { c with
              session := some (if connecting then d else connectCompleted d), parked := none }) :=
  rfl

/-- The events of `attach`. -/
def attachEvents (c : Client A) (fuel now : Nat) (socket : Socket) (connecting : Bool) :
    List (Session.Event Socket) :=
  match c.parked with
  | none => []
  | some app =>
      let d := c.fresh now app socket connecting
      d.stepEvents fuel (.call .openUp) ++
        match d.openUp with
        | (.error _, _) => []
        | (.ok (), d) => if connecting then [] else d.trace fuel (completionSteps d)

/-- The events of `connect`. -/
def connectEvents (c : Client A) (fuel now : Nat) : Attempt → List (Session.Event Socket)
  | .connected socket => c.attachEvents fuel now socket false
  | .inProgress socket => c.attachEvents fuel now socket true
  | _ => []

/-- The events of some steps of the session, if there is one. -/
def sessionEvents (c : Client A) (fuel : Nat)
    (steps : ClientSession A → List (Driven.Step (ClientLink A) Socket)) :
    List (Session.Event Socket) :=
  match c.session with
  | none => []
  | some d => d.trace fuel (steps d)

/-- The steps by which a session is torn down. -/
def teardownSteps (A : Type) (now : Nat) : List (Driven.Step (ClientLink A) Socket) :=
  [.wait now, .call .close]

/-- The steps by which a session deals with an event. -/
def dispatchSteps (now : Nat) (r : Readiness) (d : ClientSession A) :
    List (Driven.Step (ClientLink A) Socket) :=
  .wait now :: reactSteps r { d with session := d.session.atTime now }

/-- The events of `dispatchAll`. -/
def dispatchAllEvents (fuel now : Nat) : List Readiness → Client A → List (Session.Event Socket)
  | [], _ => []
  | r :: events, c =>
      c.sessionEvents fuel (dispatchSteps now r) ++
        match c.dispatch fuel now r with
        | none => []
        | some c => dispatchAllEvents fuel now events c

/-- The events of `checkLost`. -/
def checkLostEvents (c : Client A) (fuel now : Nat) : List (Session.Event Socket) :=
  c.sessionEvents fuel fun d => if d.isOpen then [] else teardownSteps A now

/-- The events of `checkReconnect`. -/
def checkReconnectEvents (c : Client A) (fuel now : Nat) (attempt : Attempt) :
    List (Session.Event Socket) :=
  match c.reconnect with
  | none => []
  | some deadline =>
      if c.running && deadline.expired now then
        connectEvents { c with reconnect := none } fuel now attempt
      else []

/-- The events of a step. -/
def stepEvents (fuel : Nat) (c : Client A) : Step → List (Session.Event Socket)
  | .start now attempt =>
      if c.running || c.session.isSome then [] else c.connectEvents fuel now attempt
  | .stop now => c.sessionEvents fuel fun _ => teardownSteps A now
  | .cycle now events attempt =>
      if !c.running then []
      else
        dispatchAllEvents fuel now events c ++
          match c.dispatchAll fuel now events with
          | none => []
          | some c =>
              c.checkLostEvents fuel now ++ (c.checkLost now).checkReconnectEvents fuel now attempt
  | .send now data => c.sessionEvents fuel fun _ => [.wait now, .call (.queueSend data)]
  | .sendFrame now payload => c.sessionEvents fuel fun _ => [.wait now, .call (.sendFrame payload)]
  | .network f => c.sessionEvents fuel fun _ => [.editTransport f]

/-- The trace of a run. -/
def trace (fuel : Nat) (c : Client A) : List Step → List (Session.Event Socket)
  | [] => []
  | step :: steps =>
      c.stepEvents fuel step ++
        match c.step fuel step with
        | none => []
        | some c => trace fuel c steps

/-- The network moves the bytes of a socket, but only its owner closes it. -/
def Step.Tame : Step → Prop
  | .network f => ∀ t, (f t).isOpen = t.isOpen
  | _ => True

/-! ## A session -/

variable {app : A} {c c' : Client A} {d d' : ClientSession A} {q : Stage} {r : Readiness}
  {now fuel : Nat}

/-- The session is in order, and the observer knows whether it is connected. -/
structure Living (q : Stage) (d : ClientSession A) : Prop where
  inOrder : Session.InOrder q.cycle d.session
  connected : q.connected = !d.handler.connecting

theorem respects_attuned (hA : ClientApp.Tame A) :
    Handler.Respects (ClientLink A) Session.Attuned where
  onRecv h := .bind (Session.Attuned.keeps_of_tame (hA.onRecv h.app)) fun _ => trivial
  onSend h n := .bind (Session.Attuned.keeps_of_tame (hA.onSend h.app n)) fun _ => trivial

/-- No callback changes whether the connect is still in progress. -/
theorem maintains_connecting (connecting : Bool) :
    Handler.Maintains Socket fun h : ClientLink A => h.connecting = connecting where
  onRecv {h s} hh := by
    show (((ClientApp.onRecv h.app).bind fun app => .done { h with app }).run s).1.connecting = _
    rw [Program.run_bind]
    exact hh
  onSend {h n s} hh := by
    show (((ClientApp.onSend h.app n).bind fun app => .done { h with app }).run s).1.connecting = _
    rw [Program.run_bind]
    exact hh
  onClose hh := hh
  onInterest {h on s} hh := by
    show (if h.connecting then h else { h with interest := .ofPending on }).connecting = _
    split
    · exact hh
    · exact hh

omit [ClientApp A] in
/-- An open session whose connect is in progress is at the beginning of its bracket. -/
theorem Living.eq_unconnected (h : Living q d) (hopen : d.session.phase = .opened)
    (hconnecting : d.handler.connecting = true) : q = ⟨false, .running⟩ := by
  have hconnected := h.connected
  have hcycle := h.inOrder.running_iff.mpr hopen
  rw [hconnecting] at hconnected
  rcases q with ⟨connected, cycle⟩
  rw [show connected = false from hconnected, show cycle = .running from hcycle]

/-- A step that leaves alone whether the connect is in progress, and moves no bytes while it is. -/
structure Fits (d : ClientSession A) (step : Driven.Step (ClientLink A) Socket) : Prop where
  respects : step.Respects Session.Attuned
  keeps : step.Keeps fun h : ClientLink A => h.connecting = d.handler.connecting
  calm : d.handler.connecting = true → step.Calm

theorem Living.trace (h : Living q d) (hA : ClientApp.Tame A)
    {steps : List (Driven.Step (ClientLink A) Socket)} (hsteps : ∀ step ∈ steps, Fits d step) :
    (brackets Socket).Keeps (Observer.Reached Living) q (d.trace fuel steps)
      (steps.foldlM (Driven.step fuel) d) := by
  rcases h.inOrder.keeps_trace fuel (respects_attuned hA)
    fun step hstep => (hsteps step hstep).respects with ⟨haccepts, hplain, hreached⟩
  -- while the connect is in progress the steps make no pass, so nothing has been moved that the
  -- application would have to hear of
  have hbrackets := Session.accepts_brackets q.connected haccepts
    (fun e he => ⟨(hplain e he).opens, (hplain e he).visits⟩) fun hfalse => by
      refine Driven.moves_trace (fun step hstep => (hsteps step hstep).calm ?_) fuel d
      simpa [hfalse] using h.connected
  refine fun _ => ⟨hbrackets.1, fun d' hd' => ?_⟩
  rw [show (brackets Socket).after q _ = _ from hbrackets.2]
  refine ⟨hreached d' hd', ?_⟩
  -- whether the application knows of the connection is read off the handler, which keeps it
  rw [(maintains_connecting d.handler.connecting).run (fun step hstep => (hsteps step hstep).keeps)
    rfl hd']
  exact h.connected

/-- Steps in two stretches. -/
theorem Living.append (steps : List (Driven.Step (ClientLink A) Socket))
    {steps' : List (Driven.Step (ClientLink A) Socket)}
    (h : (brackets Socket).Keeps (Observer.Reached Living) q (d.trace fuel steps)
      (steps.foldlM (Driven.step fuel) d))
    (h' : ∀ q' d', Living q' d' → steps.foldlM (Driven.step fuel) d = some d' →
      (brackets Socket).Keeps (Observer.Reached Living) q' (d'.trace fuel steps')
        (steps'.foldlM (Driven.step fuel) d')) :
    (brackets Socket).Keeps (Observer.Reached Living) q (d.trace fuel (steps ++ steps'))
      ((steps ++ steps').foldlM (Driven.step fuel) d) := by
  rw [Driven.trace_append, List.foldlM_append]
  refine h.append fun q' hreached => ?_
  cases hd' : steps.foldlM (Driven.step fuel) d with
  | none => exact Observer.Keeps.nil (by rintro d' ⟨⟩)
  | some d' => exact h' q' d' (hreached d' hd') hd'

/-- A session whose connect has completed, before its application knows. -/
def established (d : ClientSession A) : ClientSession A :=
  { d with handler := { d.handler with
    connecting := false
    interest := .ofPending d.session.hasPendingSend } }

/-- The callback by which the application is told that it is connected. -/
def announce (h : ClientLink A) : Program Socket (Unit × ClientLink A) :=
  (ClientApp.onConnected h.app).bind fun app => .done ((), { h with app })

theorem keeps_announce (connecting : Bool) :
    (Driven.Step.visit announce : Driven.Step (ClientLink A) Socket).Keeps
      fun h => h.connecting = connecting := by
  intro h s hh
  show (((ClientApp.onConnected h.app).bind fun app =>
    .done ((), { h with app })).run s).1.2.connecting = connecting
  rw [Program.run_bind]
  exact hh

theorem connecting_connectCompleted (d : ClientSession A) :
    (connectCompleted d).handler.connecting = false :=
  (maintains_connecting false).step (d := established d) (keeps_announce false) rfl
    (show (established d).step 0 (.visit announce) = some (connectCompleted d) from rfl)

/-- The application is told that it is connected. -/
theorem Living.announced (hA : ClientApp.Tame A) (fuel : Nat)
    (h : Session.InOrder .running (established d).session) :
    (brackets Socket).Keeps Living ⟨false, .running⟩
      ((established d).stepEvents fuel (.visit announce)) (connectCompleted d) := by
  have hannounce : Program.Keeps Session.Attuned (announce (established d).handler) :=
    .bind (Session.Attuned.keeps_of_tame (hA.onConnected _)) fun _ => trivial
  rcases h.keeps_visit fuel hannounce with
    ⟨more, hevents, hplain, haccepts, horder⟩
  rcases Session.accepts_brackets true haccepts.2
    (fun e he => ⟨(hplain e he).opens, (hplain e he).visits⟩) (fun h => nomatch h) with
    ⟨hmore, hafter⟩
  -- the visit itself is the first thing the application hears
  have hvisited : StageDemand ⟨false, .running⟩ (.told .visit (established d).session) :=
    ⟨haccepts.1, fun _ => ⟨rfl, by simp⟩, fun h => nomatch h⟩
  rw [hevents]
  refine fun _ => ⟨⟨hvisited, hmore⟩, ?_⟩
  rw [show (brackets Socket).after ⟨false, .running⟩ (.told .visit _ :: more) = _ from hafter]
  exact ⟨horder, by rw [connecting_connectCompleted]; rfl⟩

/-- The connect completes: before anything else the application is told so. -/
theorem Living.complete (hA : ClientApp.Tame A) (h : Session.InOrder .running d.session) :
    (brackets Socket).Keeps (Observer.Reached Living) ⟨false, .running⟩
      (d.trace fuel (completionSteps d)) ((completionSteps d).foldlM (Driven.step fuel) d) := by
  have hrespects : ∀ step ∈ (completionSteps d).take 1, step.Respects Session.Attuned :=
    List.forall_mem_singleton.mpr trivial
  have hcalm : ∀ step ∈ (completionSteps d).take 1, step.Calm :=
    List.forall_mem_singleton.mpr trivial
  rcases h.keeps_trace fuel (respects_attuned hA) hrespects with ⟨haccepts, hplain, hreached⟩
  have horder : Session.InOrder _ (established d).session := hreached (established d) rfl
  -- setting the marks of the connect closes nothing, so the announcement finds a session that runs
  have hrunning := horder.running_iff.mpr (h.running_iff.mp rfl)
  rcases Session.accepts_brackets false haccepts
    (fun e he => ⟨(hplain e he).opens, (hplain e he).visits⟩)
    (fun _ => Driven.moves_trace hcalm fuel d) with ⟨hfirst, hafter⟩
  have hedited : (brackets Socket).Keeps (fun q _ => q = ⟨false, .running⟩) ⟨false, .running⟩
      (d.trace fuel ((completionSteps d).take 1)) () :=
    fun _ => ⟨hfirst, by rw [hafter, hrunning]⟩
  have htold := Living.announced hA fuel (hrunning ▸ horder)
  -- the marks are set first and tell nothing; all that is told is in the visit behind them
  have hsplit : d.trace fuel (completionSteps d) = d.trace fuel ((completionSteps d).take 1) ++
      ((established d).stepEvents fuel (.visit announce) ++ []) := rfl
  rw [hsplit, List.append_nil]
  refine hedited.append fun q hq => ?_
  subst hq
  refine htold.mono fun q' hliving => ?_
  rintro d' ⟨⟩
  exact hliving

/-- What a session does about its readiness. -/
theorem living_react (hA : ClientApp.Tame A) (h : Living q d) (r : Readiness) :
    (brackets Socket).Keeps (Observer.Reached Living) q (d.trace fuel (reactSteps r d))
      ((reactSteps r d).foldlM (Driven.step fuel) d) := by
  have hnone : (brackets Socket).Keeps (Observer.Reached Living) q (d.trace fuel [])
      (([] : List (Driven.Step _ _)).foldlM (Driven.step fuel) d) := by
    refine Observer.Keeps.nil ?_
    rintro d' ⟨⟩
    exact h
  have hclose : Fits d (.call .close) := ⟨trivial, trivial, fun _ => rfl⟩
  -- no pass is made while the connect is in progress
  have hpass {d : ClientSession A} (hconnecting : d.handler.connecting = false) :
      ∀ step ∈ passSteps r d, Fits d step := by
    have hcall (c : Session.Call) : Fits d (.call c) :=
      ⟨trivial, trivial, fun h => by rw [hconnecting] at h; cases h⟩
    refine List.forall_mem_append.mpr ⟨fun step hstep => ?_, fun step hstep => ?_⟩
    all_goals
      rw [List.mem_ite_nil_right, List.mem_singleton] at hstep
      exact hstep.2 ▸ hcall _
  have htake : Fits d (.editTransport (·.takeError.2)) :=
    ⟨fun s hs => hs.of_eq rfl rfl rfl, trivial, fun _ => trivial⟩
  rw [reactSteps]
  split
  · exact hnone
  rename_i hopen
  split
  · exact h.trace hA (List.forall_mem_singleton.mpr hclose)
  split
  · refine h.trace hA (List.forall_mem_append.mpr ⟨fun step hstep => ?_,
      List.forall_mem_singleton.mpr hclose⟩)
    rw [List.mem_ite_nil_right, List.mem_singleton, Bool.and_eq_true, Bool.not_eq_true'] at hstep
    rcases hstep with ⟨⟨_, hconnecting⟩, rfl⟩
    exact ⟨trivial, trivial, fun h => by rw [hconnecting] at h; cases h⟩
  split
  · rename_i hconnecting
    split
    · exact hnone
    split
    · exact h.trace hA (List.forall_mem_cons.mpr ⟨htake, List.forall_mem_singleton.mpr hclose⟩)
    -- the socket is asked, the application is told, and then the session goes on as any other
    · refine Living.append [.editTransport (·.takeError.2)]
        (h.trace hA (List.forall_mem_singleton.mpr htake)) fun q₁ d₁ h₁ hd₁ => ?_
      cases hd₁
      have hphase : (asked d).session.phase = .opened :=
        Session.phase_of_isOpen (s := d.session) (by simpa [Driven.isOpen] using hopen)
      have horder := h₁.inOrder
      obtain rfl := h₁.eq_unconnected hphase hconnecting
      refine Living.append _ (Living.complete hA horder) fun q₂ d₂ h₂ hd₂ => ?_
      cases hd₂
      exact h₂.trace hA (hpass (connecting_connectCompleted _))
  · rename_i hconnecting
    exact h.trace hA (hpass (by simpa using hconnecting))

/-! ## A client -/

/-- The observer knows the session of the client, and without one its last cycle has ended. -/
structure Situated (q : Stage) (c : Client A) : Prop where
  absent : c.session = none → q.cycle = .ended
  living : ∀ d, c.session = some d → Living q d

/-- The same of a client, if a step has come to its end. -/
def Arrived (q : Stage) (c? : Option (Client A)) : Prop := ∀ c, c? = some c → Situated q c

omit [ClientApp A] in
theorem Situated.of_session (h : Situated q c) (hsession : c'.session = c.session) :
    Situated q c' where
  absent hnone := h.absent (hsession ▸ hnone)
  living d hd := h.living d (hsession ▸ hd)

omit [ClientApp A] in
theorem Living.situated (h : Living q d) (hsession : c.session = some d) : Situated q c where
  absent hnone := by rw [hsession] at hnone; cases hnone
  living d' hd' := by rw [hsession] at hd'; cases hd'; exact h

omit [ClientApp A] in
theorem fits_wait (now : Nat) (d : ClientSession A) : Fits d (.wait now) :=
  ⟨trivial, trivial, fun _ => trivial⟩

/-- The session of a client takes some steps. -/
theorem situated_session {steps : ClientSession A → List (Driven.Step (ClientLink A) Socket)}
    {c? : Option (Client A)} (h : Situated q c)
    (habsent : c.session = none → ∀ c', c? = some c' → c'.session = none)
    (hsteps : ∀ d, c.session = some d → Living q d →
      (brackets Socket).Keeps (Observer.Reached Living) q (d.trace fuel (steps d))
        ((steps d).foldlM (Driven.step fuel) d))
    (hresult : ∀ d q', c.session = some d →
      Observer.Reached Living q' ((steps d).foldlM (Driven.step fuel) d) → Arrived q' c?) :
    (brackets Socket).Keeps Arrived q (c.sessionEvents fuel steps) c? := by
  rw [sessionEvents]
  cases hsession : c.session with
  | none =>
      refine Observer.Keeps.nil fun c' hc' => ⟨fun _ => h.absent hsession, fun d hd => ?_⟩
      rw [habsent hsession c' hc'] at hd
      cases hd
  | some d =>
      exact (hsteps d hsession (h.living d hsession)).mono fun q' => hresult d q' hsession

theorem situated_dispatch (hA : ClientApp.Tame A) (h : Situated q c) (now : Nat) (r : Readiness) :
    (brackets Socket).Keeps Arrived q (c.sessionEvents fuel (dispatchSteps now r))
      (c.dispatch fuel now r) := by
  refine situated_session h (fun hnone c' hc' => ?_) (fun d _ hliving => ?_)
    fun d q' hsession hreached c' hc' => ?_
  · rw [dispatch, hnone] at hc'
    cases hc'
    exact hnone
  · refine Living.append [.wait now]
      (hliving.trace hA (List.forall_mem_singleton.mpr (fits_wait now d))) fun q₁ d₁ h₁ hd₁ => ?_
    cases hd₁
    exact living_react hA h₁ r
  · rw [dispatch, hsession] at hc'
    rcases Option.bind_eq_some_iff.mp hc' with ⟨⟨d', runsOn⟩, hreact, hrest⟩
    rw [react_eq] at hreact
    rcases Option.map_eq_some_iff.mp hreact with ⟨d₁, hrun, hpair⟩
    cases hpair
    cases hrest
    exact (hreached d' hrun).situated rfl

theorem situated_dispatchAll (hA : ClientApp.Tame A) (h : Situated q c) (now : Nat)
    (events : List Readiness) :
    (brackets Socket).Keeps Arrived q (dispatchAllEvents fuel now events c)
      (c.dispatchAll fuel now events) := by
  -- on the events: what a dispatch leaves is situated again, with or without a session
  induction events generalizing q c with
  | nil =>
      refine Observer.Keeps.nil ?_
      rintro c' ⟨⟩
      exact h
  | cons r events ih =>
      rw [dispatchAllEvents, dispatchAll]
      refine (situated_dispatch hA h now r).append fun q' harrived => ?_
      cases hdispatch : c.dispatch fuel now r with
      | none => exact Observer.Keeps.nil (by rintro c' ⟨⟩)
      | some c' => exact ih (harrived c' hdispatch)

/-- A session that is torn down has told of its close. -/
theorem situated_teardown (hA : ClientApp.Tame A) (fuel : Nat) (h : Situated q c) (now : Nat) :
    (brackets Socket).Keeps Arrived q (c.sessionEvents fuel fun _ => teardownSteps A now)
      (some (c.teardown now)) := by
  refine situated_session h (fun hnone c' hc' => ?_) (fun d _ hliving => hliving.trace hA ?_)
    fun d q' hsession hreached c' hc' => ?_
  · cases hc'
    rw [teardown, hnone]
    exact hnone
  · refine List.forall_mem_cons.mpr ⟨fits_wait now d, List.forall_mem_singleton.mpr ?_⟩
    exact ⟨trivial, trivial, fun _ => rfl⟩
  · have hliving : Living q' _ := hreached _ rfl
    cases hc'
    have hnone : (c.teardown now).session = none := by
      rw [teardown, hsession]
      rfl
    -- the session is dropped only closed, and one that is closed with its marks in order has told
    refine ⟨fun _ => hliving.inOrder.ended_of_closed (Driven.phase_close _), fun d' hd' => ?_⟩
    rw [hnone] at hd'
    cases hd'

theorem situated_checkLost (hA : ClientApp.Tame A) (h : Situated q c) (now : Nat) :
    (brackets Socket).Keeps Arrived q (c.checkLostEvents fuel now) (some (c.checkLost now)) := by
  have hsame (c' : Client A) (hsession : c'.session = c.session) : Arrived q (some c') := by
    rintro _ ⟨⟩
    exact h.of_session hsession
  rw [checkLostEvents, checkLost]
  cases hsession : c.session with
  | none =>
      rw [sessionEvents, hsession]
      exact Observer.Keeps.nil (hsame c rfl)
  | some d =>
      have hteardown := situated_teardown hA fuel h now
      rw [sessionEvents, hsession] at hteardown ⊢
      dsimp only
      cases hopen : d.isOpen with
      | true => exact Observer.Keeps.nil (hsame c rfl)
      | false =>
          simp only [Bool.false_eq_true, if_false]
          refine hteardown.mono fun q' harrived c' hc' => ?_
          cases hc'
          -- scheduling another attempt does not touch the session
          refine (harrived _ rfl).of_session ?_
          split
          · rfl
          · rfl

/-- A call on the session that makes no pass. -/
theorem situated_call (hA : ClientApp.Tame A) (h : Situated q c) (now : Nat) {call : Session.Call}
    (hcall : call.isPass = false) {c? : Option (Client A)}
    (habsent : c.session = none → ∀ c', c? = some c' → c'.session = none)
    (hresult : ∀ d c', c.session = some d → c? = some c' →
      ∃ r, Driven.perform fuel { d with session := d.session.atTime now } call = some r ∧
        c'.session = some r.2) :
    (brackets Socket).Keeps Arrived q (c.sessionEvents fuel fun _ => [.wait now, .call call])
      c? := by
  refine situated_session h habsent (fun d _ hliving => hliving.trace hA ?_)
    fun d q' hsession hreached c' hc' => ?_
  · refine List.forall_mem_cons.mpr ⟨fits_wait now d, List.forall_mem_singleton.mpr ?_⟩
    exact ⟨trivial, trivial, fun _ => hcall⟩
  · rcases hresult d c' hsession hc' with ⟨r, hperform, hsession'⟩
    refine (hreached r.2 ?_).situated hsession'
    show [Driven.Step.call call].foldlM (Driven.step fuel)
      { d with session := d.session.atTime now } = _
    rw [List.foldlM_cons, Driven.step, hperform]
    rfl

/-- A session is opened. Its application is told that it is connected, unless the connect is still
in progress. -/
theorem situated_attach (hA : ClientApp.Tame A) (h : Situated q c) (hnone : c.session = none)
    (now : Nat) (socket : Socket) (connecting : Bool) :
    (brackets Socket).Keeps Situated q (c.attachEvents fuel now socket connecting)
      (c.attach now socket connecting).2 := by
  rw [attachEvents, attach_eq]
  cases c.parked with
  | none => exact Observer.Keeps.nil h
  | some app =>
      have hopened := Session.brackets_openUp (h.absent hnone) fuel socket c.config.recvBufferSize
        c.config.sendBufferSize now (c.fresh now app socket connecting).handler
      have hhandler : (c.fresh now app socket connecting).openUp.2.handler =
        (c.fresh now app socket connecting).handler := rfl
      refine hopened.append fun q' hq' => ?_
      rcases hq' with ⟨hrefused, hok⟩
      dsimp only
      rw [show Driven.new socket c.config.recvBufferSize c.config.sendBufferSize now
        (c.fresh now app socket connecting).handler = c.fresh now app socket connecting from rfl]
        at hrefused hok
      -- from here on only what is known of the open counts, not how it is computed
      generalize (c.fresh now app socket connecting).openUp = r at hhandler hrefused hok
      rcases r with ⟨e | _, d⟩
      · have hended := hrefused (by simp)
        refine Observer.Keeps.nil ⟨fun _ => hended, fun d' hd' => ?_⟩
        rw [show c.session = some d' from hd'] at hnone
        cases hnone
      · rcases hok rfl with ⟨rfl, horder⟩
        dsimp only at hhandler ⊢
        cases connecting with
        | true =>
            -- the application is told later, when the connect completes
            have hliving : Living ⟨false, .running⟩ d := ⟨horder, by rw [hhandler]; rfl⟩
            exact Observer.Keeps.nil (hliving.situated rfl)
        | false =>
            refine (Living.complete hA horder).mono fun q' hreached => ?_
            exact (hreached (connectCompleted d) rfl).situated rfl

theorem situated_connect (hA : ClientApp.Tame A) (fuel : Nat) (h : Situated q c)
    (hnone : c.session = none) (now : Nat) (attempt : Attempt) :
    (brackets Socket).Keeps Situated q (c.connectEvents fuel now attempt)
      (c.connect now attempt).2 := by
  rw [connect.eq_def]
  cases hparked : c.parked with
  | none =>
      have hevents : c.connectEvents fuel now attempt = [] := by
        cases attempt with
        | failed | unwatched => rfl
        | connected | inProgress => rw [connectEvents, attachEvents, hparked]
      rw [hevents]
      exact Observer.Keeps.nil h
  | some app =>
      rw [if_neg (by simp)]
      cases attempt with
      | failed e => exact Observer.Keeps.nil h
      | unwatched e socket => exact Observer.Keeps.nil (h.of_session rfl)
      | connected socket => exact situated_attach hA h hnone now socket false
      | inProgress socket => exact situated_attach hA h hnone now socket true

theorem situated_checkReconnect (hA : ClientApp.Tame A) (h : Situated q c)
    (hnone : c.reconnect.isSome = true → c.session = none) (now : Nat) (attempt : Attempt) :
    (brackets Socket).Keeps Situated q (c.checkReconnectEvents fuel now attempt)
      (c.checkReconnect now attempt) := by
  rw [checkReconnectEvents, checkReconnect]
  cases hdue : c.reconnect with
  | none => exact Observer.Keeps.nil h
  | some deadline =>
    dsimp only
    split
    · -- an attempt is only due without a session, so the last life has come to its end
      have hconnect := situated_connect (c := { c with reconnect := none }) hA fuel
        (h.of_session rfl) (hnone (by rw [hdue]; rfl)) now attempt
      generalize connect { c with reconnect := none } now attempt = r at hconnect ⊢
      rcases r with ⟨_ | _, c'⟩
      · exact hconnect.mono fun q' h' => h'.of_session rfl
      · exact hconnect
    · exact Observer.Keeps.nil h

/-! ## Runs -/

omit [ClientApp A] in
/-- The result of a step that always comes to its end. -/
theorem arrived_some (h : Situated q c) : Arrived q (some c) := by
  rintro _ ⟨⟩
  exact h

theorem situated_start (hA : ClientApp.Tame A) (h : Situated q c) (now : Nat) (attempt : Attempt) :
    (brackets Socket).Keeps Situated q (c.stepEvents fuel (.start now attempt))
      (c.start now attempt).2 := by
  rw [stepEvents, start]
  split
  · exact Observer.Keeps.nil h
  · rename_i hidle
    have hconnect := situated_connect hA fuel h (by simp at hidle; exact hidle.2) now
      attempt
    generalize c.connect now attempt = r at hconnect ⊢
    rcases r with ⟨_ | _, c'⟩
    · exact hconnect
    · exact hconnect.mono fun q' h' => h'.of_session rfl

theorem situated_cycle (hA : ClientApp.Tame A) (hs : Standing app c) (h : Situated q c) (now : Nat)
    (events : List Readiness) (attempt : Attempt) :
    (brackets Socket).Keeps Arrived q (c.stepEvents fuel (.cycle now events attempt))
      (c.step fuel (.cycle now events attempt)) := by
  rw [stepEvents, step, cycle]
  split
  · exact Observer.Keeps.nil (arrived_some h)
  · refine (situated_dispatchAll hA h now events).append fun q₁ h₁ => ?_
    cases hdispatch : c.dispatchAll fuel now events with
    | none => exact Observer.Keeps.nil (by rintro c' ⟨⟩)
    | some c₁ =>
        have hstanding := hs.dispatchAll hdispatch
        refine (situated_checkLost hA (h₁ c₁ hdispatch) now).append fun q₂ h₂ => ?_
        refine (situated_checkReconnect hA (h₂ _ rfl) (fun hdue => ?_) now attempt).mono
          fun q₃ => arrived_some
        -- a reconnect that is due rules out a session, by the reactor's situation, not by the trace
        cases hstanding with
        | idle _ _ _ hreconnect => rw [hreconnect] at hdue; cases hdue
        | engaged _ _ _ hreconnect => rw [hreconnect] at hdue; cases hdue
        | waiting _ hsession => exact hsession

/-- What a client does in a step. -/
theorem situated_step (hA : ClientApp.Tame A) (hs : Standing app c) (h : Situated q c)
    {step : Step} (hstep : step.Tame) :
    (brackets Socket).Keeps Arrived q (c.stepEvents fuel step) (c.step fuel step) := by
  -- both ways of sending are a call on the session that makes no pass
  have hcall (now : Nat) (call : Session.Call) (hpass : call.isPass = false)
      (make : ClientSession A → Except SessionError Unit × ClientSession A)
      (hmake : ∀ d, Driven.perform fuel d call = some (make d)) :
      (brackets Socket).Keeps Arrived q (c.sessionEvents fuel fun _ => [.wait now, .call call])
        (some (c.onSession now make).2) := by
    refine situated_call hA h now hpass (fun hnone c' hc' => ?_) fun d c' hsession hc' => ?_
    · cases hc'
      rw [onSession, hnone]
      exact hnone
    · cases hc'
      rw [onSession, hsession]
      exact ⟨_, hmake _, rfl⟩
  cases step with
  | start now attempt => exact (situated_start hA h now attempt).mono fun q' => arrived_some
  | stop now =>
      exact situated_teardown (c := { c with running := false, reconnect := none }) hA fuel
        (h.of_session rfl) now
  | cycle now events attempt => exact situated_cycle hA hs h now events attempt
  | send now data => exact hcall now (.queueSend data) rfl _ fun _ => rfl
  | sendFrame now payload => exact hcall now (.sendFrame payload) rfl _ fun _ => rfl
  | network f =>
      refine situated_session h (fun hnone c' hc' => ?_) (fun d _ hliving => hliving.trace hA ?_)
        fun d q' hsession hreached c' hc' => ?_
      · cases hc'
        rw [move, hnone]
        rfl
      · refine List.forall_mem_singleton.mpr ⟨fun s hs => ?_, trivial, fun _ => trivial⟩
        exact hs.of_eq rfl rfl (hstep _)
      · cases hc'
        exact (hreached _ rfl).situated (by rw [move, hsession]; rfl)

theorem situated_trace (hA : ClientApp.Tame A) (fuel : Nat) {steps : List Step}
    (hsteps : ∀ step ∈ steps, step.Tame) (hs : Standing app c) (h : Situated q c) :
    (brackets Socket).Keeps Arrived q (c.trace fuel steps) (c.run fuel steps) := by
  induction steps generalizing q c with
  | nil => exact Observer.Keeps.nil (arrived_some h)
  | cons step steps ih =>
      rw [List.forall_mem_cons] at hsteps
      rw [trace, run, List.foldlM_cons]
      refine (situated_step hA hs h hsteps.1).append fun q' harrived => ?_
      cases hstep : c.step fuel step with
      | none => exact Observer.Keeps.nil (by rintro c' ⟨⟩)
      | some c' => exact ih hsteps.2 (standing_step hs hstep) (harrived c' hstep)

/-- However a run of a client goes, through any number of connections, the callbacks of its
application come in brackets, one for each session that was opened: it is told at most once that the
session is connected, before it is told of any byte and before any byte is offered to the socket,
and the close of the session is the last it is told of it. When a client is left without a session,
all brackets are complete: a session that is torn down has told of its close, even if it was never
connected. -/
theorem callbacks_in_brackets (hA : ClientApp.Tame A) {config : ClientConfig} {steps : List Step}
    (hsteps : ∀ step ∈ steps, step.Tame) :
    Session.InBrackets (trace fuel (.new config app) steps) ∧
    ∀ c, run fuel (.new config app) steps = some c → c.session = none →
      ∀ life ∈ Session.lives (trace fuel (.new config app) steps),
        Session.callbacks life ∈ Session.bracket := by
  have hnew : Situated .start (.new config app) := ⟨fun _ => rfl, by rintro d ⟨⟩⟩
  have htrace := situated_trace hA fuel hsteps
    (.idle rfl rfl rfl rfl (.refl : ClientApp.Becomes app app)) hnew
  rcases htrace fun _ _ => trivial with ⟨haccepts, harrived⟩
  rcases Session.InBrackets.of_accepts haccepts with ⟨hbrackets, hcomplete⟩
  exact ⟨hbrackets, fun c hrun hnone => hcomplete ((harrived c hrun).absent hnone)⟩

/-- The application of the simulated clients only makes calls and takes bytes out. -/
theorem tame_loggingApp : ClientApp.Tame Sim.LoggingApp where
  onConnected a := by
    have hcalls (calls : List Sim.GreetCall) : (Sim.LoggingApp.callAll calls).Tame := by
      induction calls with
      | nil => trivial
      | cons c calls ih => exact fun answer => ih.bind fun answers => trivial
    exact fun s => (hcalls a.greet).bind fun answers => trivial
  onRecv a := by
    have hread (echo : Bool) (fuel : Nat) (a : Sim.LoggingApp) :
        (Sim.LoggingApp.readRaw echo fuel a).Tame := by
      induction fuel generalizing a with
      | zero => trivial
      | succ fuel ih =>
          refine .bind (fun s => ?_) fun answer => ?_
          · dsimp only
            split <;> trivial
          · cases answer with
            | error e => trivial
            | ok data =>
                dsimp only
                split
                · exact fun answer => ih _
                · exact ih _
    have hframes (fuel : Nat) (a : Sim.LoggingApp) : (Sim.LoggingApp.takeFrames fuel a).Tame := by
      induction fuel generalizing a with
      | zero => trivial
      | succ fuel ih =>
          intro s
          dsimp only
          cases (Sim.popFrame s.recvBuffer).1 with
          | frame payload => exact ih _
          | _ => trivial
    refine fun s => .bind ?_ fun a => ?_
    · split
      · exact hread _ _ _
      · exact hframes _ _
      · trivial
    · split
      · exact fun _ => trivial
      · trivial
  onSend a amount s := by
    dsimp only
    split
    · exact fun _ => trivial
    · trivial

/-- The peer ends the first connection, right behind bytes that are echoed. The second connect is
rejected by the server, so its session is closed without having been connected. -/
theorem callbacks_in_brackets_rejected :
    let app : Sim.LoggingApp := { mode := .raw true, greet := [.queueSend [1, 2], .writable] }
    let socket : Socket := { peer := .v4 [127, 0, 0, 1] 80 }
    let config : ClientConfig := { reconnectBackoff := 5, recvBufferSize := 8, sendBufferSize := 8 }
    let steps : List Step :=
      [.start 1 (.inProgress socket), .send 1 [7],
        .cycle 2 [{ writable := true }] (.failed .invalidState),
        .network fun t => t.arrive [3, 4],
        .cycle 3 [{ readable := true, writable := true }] (.failed .invalidState),
        .network Socket.finish, .cycle 4 [{ readable := true }] (.failed .invalidState),
        .cycle 9 [] (.inProgress (socket.breakOff .connectionRefused)),
        .cycle 10 [{ writable := true }] (.failed .invalidState)]
    let trace := trace 4 (.new config app) steps
    ClientApp.Tame Sim.LoggingApp ∧ (∀ step ∈ steps, step.Tame) ∧ Session.InBrackets trace ∧
      (Session.lives trace).map Session.callbacks =
        [[.connected, .recv, .send, .close], [.close]] ∧
      ∀ life ∈ Session.lives trace, Session.callbacks life ∈ Session.bracket := by
  intro app socket config steps trace
  have hsteps : ∀ step ∈ steps, step.Tame := by
    simp only [steps, List.forall_mem_cons]
    exact ⟨trivial, trivial, trivial, fun _ => rfl, trivial, fun _ => rfl, trivial, trivial,
      trivial, List.forall_mem_nil _⟩
  have hgone : ((run 4 (.new config app) steps).map fun c => c.session.isNone) = some true := by
    decide +kernel
  rcases Option.map_eq_some_iff.mp hgone with ⟨c, hrun, hnone⟩
  have htold : Session.InBrackets (Client.trace 4 (.new config app) steps) ∧ _ :=
    callbacks_in_brackets tame_loggingApp hsteps
  rcases htold with ⟨hbrackets, hcomplete⟩
  -- the lives of this run are evaluated; that each is a whole bracket is the theorem's
  exact ⟨tame_loggingApp, hsteps, hbrackets, by decide +kernel,
    hcomplete c hrun (Option.isNone_iff_eq_none.mp hnone)⟩

end Client
end TcpReactor
