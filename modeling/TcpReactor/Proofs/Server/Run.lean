import TcpReactor.Proofs.Session.HandlerInvariant
import TcpReactor.Proofs.Slots
import TcpReactor.Server

namespace TcpReactor

/-! # Runs of a server

A run takes a server through steps: it is started and stopped, it deals with one event after the
other and then looks for idle connections, its owner uses a connection, and outside the network
moves. A cycle is the steps of its batch (`Server.cycle_eq`), so a run also shows the server between
two events of one batch.

Apart from those by which a connection is accepted, all steps leave the table of connections as it
is, except that sessions move on and connections are taken out (`Server.Retains`). For the state of
a connection that means that its identity stays (`Server.maintains_id`).
-/

namespace Server

/-- What happens to a server. -/
inductive Step where
  | start (bound : Except IoError Unit)
  | stop (now : Nat)
  /-- It deals with one event of a batch. -/
  | event (now : Nat) (e : Event)
  /-- It looks for idle connections, at the end of a batch. -/
  | sweep (now : Nat)
  /-- The owner makes calls on a connection. -/
  | visit (now : Nat) (id : ConnId) (program : Session.Program Socket Unit)
  /-- The network moves the sockets of the connections, and others wait to be accepted. -/
  | network (f : ConnId → Socket → Socket) (pending : List (Except IoError Socket))

variable {P W : Type}

/-- A server that was never started. -/
def new (P : Type) {W : Type} (config : ServerConfig) (shared : W) : Server P W :=
  { config, shared }

/-- The sockets of the connections have moved, and others wait to be accepted. -/
def move (s : Server P W) (f : ConnId → Socket → Socket)
    (pending : List (Except IoError Socket)) : Server P W :=
  { s with
    connections := s.connections.map fun c =>
      { c with session := { c.session with transport := f c.link.id c.session.transport } }
    listener := s.listener.map fun l => { l with pending } }

variable [Protocol P W]

/-- Take a step. A server that is not running has no events to deal with. Every writable pass may
send `fuel` chunks. -/
def step (fuel : Nat) (s : Server P W) : Step → Option (Server P W)
  | .start bound => some (s.start bound).2
  | .stop now => some (s.stop now)
  | .event now e => if s.running then dispatchAll fuel now [e] s else some s
  | .sweep now => some (if s.running then s.evictIdle now else s)
  | .visit now id program => (s.exec fuel now id program).map (·.2)
  | .network f pending => some (s.move f pending)

/-- Take steps one after the other. There is no result if one of them has none. -/
def run (fuel : Nat) (s : Server P W) (steps : List Step) : Option (Server P W) :=
  steps.foldlM (step fuel) s

end Server

/-- The steps of a cycle. -/
def Batch.steps (b : Batch) : List Server.Step :=
  b.events.map (.event b.now) ++ [.sweep b.sweepAt]

namespace Server

variable {P W : Type} {s s' s'' : Server P W} {fuel now slot : Nat} {id : ConnId}
  {c : Connection P} {d : Driven (Served P W) Socket}

/-! ## Steps that accept nobody -/

theorem connection?_eq_some {id : ConnId} : s.connection? id = some c ↔
    s.connections.get? id.slot.toNat = some c ∧ c.link.id = id := by
  rw [connection?, Option.filter_eq_some_iff, decide_eq_true_iff]

/-- From `s` to `s'` connections may have moved on or gone, but none is new. -/
structure Retains (s s' : Server P W) : Prop where
  version : s'.nextVersion = s.nextVersion
  cells : s'.connections.cells.size = s.connections.cells.size
  threaded : ∀ {frees}, s.connections.Threaded frees → ∃ frees', s'.connections.Threaded frees'
  ids : ∀ key c', s'.connections.get? key = some c' →
    ∃ c, s.connections.get? key = some c ∧ c'.link.id = c.link.id

theorem Retains.of_eq (hconnections : s'.connections = s.connections)
    (hversion : s'.nextVersion = s.nextVersion) : Retains s s' where
  version := hversion
  cells := by rw [hconnections]
  threaded h := ⟨_, hconnections ▸ h⟩
  ids key c hget := ⟨c, hconnections ▸ hget, rfl⟩

theorem Retains.trans (h : Retains s s') (h' : Retains s' s'') : Retains s s'' where
  version := h'.version.trans h.version
  cells := h'.cells.trans h.cells
  threaded hthreaded := by
    rcases h.threaded hthreaded with ⟨_, hthreaded'⟩
    exact h'.threaded hthreaded'
  ids key c'' hget := by
    rcases h'.ids key c'' hget with ⟨c', hget', hid'⟩
    rcases h.ids key c' hget' with ⟨c, hget'', hid⟩
    exact ⟨c, hget'', hid'.trans hid⟩

/-- What each of the things in a list keeps to, doing them all does. -/
theorem Retains.foldl {α : Type} {f : Server P W → α → Server P W}
    (hf : ∀ s a, Retains s (f s a)) (s : Server P W) (as : List α) :
    Retains s (as.foldl f s) := by
  induction as generalizing s with
  | nil => exact .of_eq rfl rfl
  | cons a as ih => exact (hf s a).trans (ih _)

theorem retains_release (s : Server P W) (socket : Socket) : Retains s (s.release socket) :=
  .of_eq rfl rfl

theorem connections_remove (s : Server P W) (slot : Nat) :
    (s.remove slot).connections = (s.connections.remove slot).2 := by
  rw [remove]
  split <;> rename_i heq <;> rw [heq]
  rfl

theorem running_remove (s : Server P W) (slot : Nat) : (s.remove slot).running = s.running := by
  rw [remove]
  split <;> rfl

theorem retains_remove (s : Server P W) (slot : Nat) : Retains s (s.remove slot) where
  version := by
    rw [remove]
    split <;> rfl
  cells := by rw [connections_remove, Slots.size_cells_remove]
  threaded h := by
    rw [connections_remove]
    exact Slots.threaded_remove h
  ids key c hget := by
    rw [connections_remove, Slots.get?_remove] at hget
    split at hget
    · cases hget
    · exact ⟨c, hget, rfl⟩

theorem retains_putBack (hget : s.connections.get? slot = some c)
    (hid : d.handler.link.id = c.link.id) : Retains s (s.putBack slot d) where
  version := rfl
  cells := Slots.size_cells_set
  threaded h := ⟨_, Slots.threaded_set h⟩
  ids key c' hget' := by
    rw [putBack, Slots.get?_set hget] at hget'
    split at hget'
    · cases hget'
      exact ⟨c, ‹key = slot› ▸ hget, hid⟩
    · exact ⟨c', hget', rfl⟩

theorem retains_start (s : Server P W) (bound : Except IoError Unit) :
    Retains s (s.start bound).2 := by
  rw [start]
  split
  · exact .of_eq rfl rfl
  · split <;> exact .of_eq rfl rfl

theorem retains_move (s : Server P W) (f : ConnId → Socket → Socket)
    (pending : List (Except IoError Socket)) : Retains s (s.move f pending) where
  version := rfl
  cells := Array.size_map
  threaded h := ⟨_, Slots.threaded_map _ h⟩
  ids key c' hget := by
    rw [move, Slots.get?_map] at hget
    rcases Option.map_eq_some_iff.mp hget with ⟨c, hc, rfl⟩
    exact ⟨c, hc, rfl⟩

variable [Protocol P W]

/-! ## Handlers keep the identity of their connection -/

theorem maintains_id (id : ConnId) :
    Handler.Maintains Socket (fun h : Served P W => h.link.id = id) where
  onRecv {h s} hid := by
    show (((Protocol.onRecv h.link.protocol h.shared).bind fun r =>
      .done (h.resume r)).run s).1.link.id = id
    rw [Session.Program.run_bind]
    exact hid
  onSend {h n s} hid := by
    show (((Protocol.onSend h.link.protocol h.shared n).bind fun r =>
      .done (h.resume r)).run s).1.link.id = id
    rw [Session.Program.run_bind]
    exact hid
  onClose hid := hid
  onInterest hid := hid

/-- What a connection does about an event. -/
theorem id_react {r : Readiness} {d' : Driven (Served P W) Socket}
    (h : react fuel r d = some d') : d'.handler.link.id = d.handler.link.id := by
  have hkeep := maintains_id (P := P) (W := W) d.handler.link.id
  have hreceived : (if r.readable || r.hangup then d.readable.2 else d).handler.link.id =
      d.handler.link.id := by
    split
    · exact hkeep.readable rfl
    · rfl
  rw [react] at h
  split at h
  · cases h
    exact hkeep.close rfl
  dsimp only at h
  -- of the readable pass only the identity matters from here on
  generalize (if r.readable || r.hangup then d.readable.2 else d) = d₁ at h hreceived
  split at h
  · cases h
    exact hkeep.close hreceived
  split at h
  · rcases Option.map_eq_some_iff.mp h with ⟨⟨answer, d₂⟩, hsend, rfl⟩
    exact hkeep.writable hreceived hsend
  · cases h
    exact hreceived

/-! ## Steps that make calls -/

theorem retains_evict (s : Server P W) (now slot : Nat) : Retains s (s.evict now slot) := by
  rw [evict]
  cases hget : s.connections.get? slot with
  | none => exact retains_remove s slot
  | some c =>
      have hid : (s.lend c now).close.handler.link.id = c.link.id := (maintains_id _).close rfl
      exact (retains_putBack hget hid).trans (retains_remove _ slot)

theorem retains_evictIdle (s : Server P W) (now : Nat) : Retains s (s.evictIdle now) :=
  .foldl (retains_evict · now) _ _

theorem retains_stop (s : Server P W) (now : Nat) : Retains s (s.stop now) := by
  have hstopped : Retains s { s with running := false } := .of_eq rfl rfl
  have hevicted := hstopped.trans (.foldl (retains_evict · now) _
    (s.connections.toList.map (·.2.link.id.slot.toNat)))
  rw [stop]
  dsimp only
  split
  · exact hevicted
  · refine hevicted.trans (.trans ?_ (.foldl retains_release _ _))
    exact .of_eq rfl rfl

theorem retains_dispatch {e : Event} (h : s.dispatch fuel now e = some s') : Retains s s' := by
  rw [dispatch] at h
  dsimp only at h
  cases hfind : s.connection? (ConnId.ofKey e.key) with
  | none =>
      rw [hfind] at h
      cases h
      exact .of_eq rfl rfl
  | some c =>
      rw [hfind] at h
      rcases Option.bind_eq_some_iff.mp h with ⟨d, hreact, hrest⟩
      have hput := retains_putBack (connection?_eq_some.mp hfind).1 (id_react hreact)
      cases hrest
      -- put back, and taken out again if the event has closed it
      split
      · exact hput
      · exact hput.trans (retains_remove _ _)

theorem retains_exec {program : Session.Program Socket Unit} {answer : Option Unit}
    (h : s.exec fuel now id program = some (answer, s')) : Retains s s' := by
  rw [exec] at h
  cases hfind : s.connection? id with
  | none =>
      rw [hfind] at h
      cases h
      exact .of_eq rfl rfl
  | some c =>
      rw [hfind] at h
      rcases Option.bind_eq_some_iff.mp h with ⟨⟨a, d⟩, hexec, hrest⟩
      have hid : d.handler.link.id = c.link.id :=
        (maintains_id _).exec (d := s.lend c now) rfl hexec
      cases hrest
      exact retains_putBack (connection?_eq_some.mp hfind).1 hid

/-! ## Cycles -/

theorem running_addConnection (s : Server P W) (now : Nat) (socket : Socket) :
    (s.addConnection now socket).running = s.running := by
  rw [addConnection]
  split
  · rfl
  dsimp only
  split
  · rfl
  · split <;> rfl

theorem running_acceptAll (s : Server P W) (now fuel : Nat) :
    (s.acceptAll now fuel).running = s.running := by
  induction fuel generalizing s with
  | zero => rfl
  | succ fuel ih =>
      rw [acceptAll]
      split
      · rfl
      split
      · rw [ih, running_addConnection]
      · rfl
      · rfl

theorem running_dispatch {e : Event} (h : s.dispatch fuel now e = some s') :
    s'.running = s.running := by
  rw [dispatch] at h
  dsimp only at h
  split at h
  · cases h
    rfl
  · rcases Option.bind_eq_some_iff.mp h with ⟨d, _, hrest⟩
    cases hrest
    split
    · rfl
    · exact running_remove _ _

theorem dispatchAll_cons (e : Event) (events : List Event) :
    dispatchAll fuel now (e :: events) s =
      (dispatchAll fuel now [e] s).bind (dispatchAll fuel now events) := by
  rw [dispatchAll, dispatchAll]
  split
  · rfl
  · cases s.dispatch fuel now e <;> rfl

theorem running_dispatchAll {events : List Event}
    (h : dispatchAll fuel now events s = some s') : s'.running = s.running := by
  induction events generalizing s with
  | nil =>
      cases h
      rfl
  | cons e events ih =>
      rw [dispatchAll] at h
      split at h
      · rw [ih h, running_acceptAll]
      · rcases Option.bind_eq_some_iff.mp h with ⟨s₁, hdispatch, hrest⟩
        rw [ih hrest, running_dispatch hdispatch]

/-- A server that is running deals with events as they come. -/
theorem run_events (fuel now : Nat) (events : List Event) (s : Server P W) :
    run fuel s (events.map (.event now)) =
      if s.running then dispatchAll fuel now events s else some s := by
  induction events generalizing s with
  | nil => split <;> rfl
  | cons e events ih =>
      rw [List.map_cons, run, List.foldlM_cons, step]
      split
      · rw [dispatchAll_cons e events]
        refine Option.bind_congr fun s₁ hs₁ => (ih s₁).trans (if_pos ?_)
        rw [running_dispatchAll hs₁, ‹s.running = true›]
      · exact (ih s).trans (if_neg ‹_›)

/-- A cycle is the steps of its batch. -/
theorem cycle_eq (s : Server P W) (fuel : Nat) (b : Batch) :
    (s.cycle fuel b).map (·.2) = s.run fuel b.steps := by
  rw [run, Batch.steps, List.foldlM_append, ← run, run_events, cycle]
  cases hrunning : s.running with
  | false => simp [step, hrunning]
  | true =>
      cases hdispatch : dispatchAll fuel b.now b.events s with
      | none => simp
      | some s₁ => simp [step, running_dispatchAll hdispatch, hrunning]

end Server
end TcpReactor
