import TcpReactor.Proofs.Server.Pipes

namespace TcpReactor

/-! # Newcomers

When a server accepts, whoever waits comes in, up to the first failure to accept, and everybody who
is there already is left alone (`Server.welcomes_acceptAll`). What a newcomer starts with depends on
its socket and on what all connections share; only in which slot it is put, and so its identity,
depends on who is there. This needs room in the table (`Server.Room`).
-/

/-! ## Who comes in -/

namespace Listener

/-- The connections in front of the first failure to accept. -/
def front : List (Except IoError Socket) → List Socket
  | .ok socket :: pending => { socket with blocking := false } :: front pending
  | _ => []

/-- What is behind the first failure to accept. -/
def back : List (Except IoError Socket) → List (Except IoError Socket)
  | .ok _ :: pending => back pending
  | .error _ :: pending => pending
  | [] => []

/-- Who comes in when the listener is ready. -/
def admitted (l : Listener) : List Socket := if l.isOpen then front l.pending else []

/-- The listener behind them. -/
def rest (l : Listener) : Listener := if l.isOpen then { l with pending := back l.pending } else l

end Listener

namespace Connection

variable {P W : Type} [Protocol P W]

/-- A connection at its start. -/
def initial (P : Type) {W : Type} [Protocol P W] (config : ServerConfig) (w : W) (now : Nat)
    (id : ConnId) (socket : Socket) : Connection P where
  session := .new socket config.recvBufferSize config.sendBufferSize now
  link :=
    { protocol := (Protocol.accept w socket.peer).1, id, peer := socket.peer,
      interest := .readable }

/-- What comes of a connection when its session is opened. -/
def enrolled (w : W) (now : Nat) (c : Connection P) : Pipe P :=
  match c.session.openUp with
  | (.error _, session) => .released session.transport.close
  | (.ok (), session) =>
      if c.session.transport.watchable then .attached { c with session }
      else shut w now { c with session }

theorem enrolled_anonymous (w : W) (now : Nat) (c : Connection P) :
    c.anonymous.enrolled w now = (c.enrolled w now).anonymous := by
  rcases hopen : c.session.openUp with ⟨e | _, session⟩
  · rw [enrolled, enrolled, show c.anonymous.session.openUp = _ from hopen, hopen]
    rfl
  · rw [enrolled, enrolled, show c.anonymous.session.openUp = _ from hopen, hopen]
    dsimp only
    by_cases hwatch : c.session.transport.watchable = true
    · rw [if_pos hwatch, if_pos (show c.anonymous.session.transport.watchable = true from hwatch)]
      rfl
    · rw [if_neg hwatch, if_neg (show ¬c.anonymous.session.transport.watchable = true from hwatch)]
      exact shut_anonymous w now { c with session }

/-- A connection that is there keeps its identity. -/
theorem id_enrolled {w : W} {now : Nat} {c c' : Connection P}
    (h : c.enrolled w now = .attached c') : c'.link.id = c.link.id := by
  rw [enrolled] at h
  split at h
  · cases h
  · split at h
    · cases h
      rfl
    · cases h

theorem peer_enrolled (hP : Protocol.Separate P W) (w : W) (now : Nat) (c : Connection P) :
    (c.enrolled w now).peer = (Pipe.attached c).peer := by
  have htransport := Session.transport_openUp c.session
  rw [enrolled]
  rcases hopen : c.session.openUp with ⟨e | _, session⟩
  all_goals rw [hopen] at htransport
  · show session.transport.peer = _
    exact congrArg Socket.peer htransport
  · dsimp only
    split
    · exact congrArg Socket.peer htransport
    · exact (peer_shut hP w now _).trans (congrArg Socket.peer htransport)

end Connection

namespace Server

open Connection (initial)

variable {P W : Type} {s s' s'' : Server P W} {fuel now n : Nat} {i id : ConnId}
  {c : Connection P}

/-! ## Room in the table -/

/-- There is room for so many more, in slots that are not too high for an identity. -/
structure Room (n : Nat) (s : Server P W) : Prop where
  cells : s.connections.cells.size ≤ UInt32.size - 2
  count : s.connectionCount + n ≤ UInt32.size - 2

theorem Room.exists_nextId (hroom : Room (n + 1) s) (h : Filed s) : ∃ i, s.nextId? = some i := by
  rcases h.threaded with ⟨frees, hthreaded⟩
  have hcells := hroom.cells
  have hcount := hroom.count
  have hnext : s.connections.nextKey < UInt32.size := by
    rw [hthreaded.nextKey_eq]
    -- without a free slot every slot is in use, and there are fewer in use than numbers
    cases frees with
    | nil =>
        have hfull : s.connectionCount = s.connections.cells.size := hthreaded.size_of_full
        simp only [List.headD_nil, UInt32.size] at *
        omega
    | cons k frees =>
        have hlt := hthreaded.lt_size (List.mem_cons_self (a := k))
        simp only [List.headD_cons, UInt32.size] at *
        omega
  rw [nextId?, ConnId.of?, if_pos hnext]
  exact ⟨_, rfl⟩

variable [Protocol P W]

theorem Room.addConnection (hroom : Room (n + 1) s) (h : Filed s) (now : Nat) (socket : Socket) :
    Room n (s.addConnection now socket) := by
  rcases h.threaded with ⟨frees, hthreaded⟩
  have hcells := hroom.cells
  have hcount := hroom.count
  have hgrows := (grows_addConnection s hthreaded now socket).cells
  have hsize : (s.addConnection now socket).connections.size ≤ s.connections.size + 1 := by
    rcases addConnection_cases s now socket with ⟨_, _, hsame⟩ | ⟨_, _, _, hsame | ⟨c, _, hinsert⟩⟩
    · rw [hsame]
      exact Nat.le_succ _
    · rw [hsame]
      exact Nat.le_succ _
    · rw [hinsert, Slots.size_insert]
  rw [connectionCount] at hcount
  refine ⟨?_, ?_⟩
  · omega
  · rw [connectionCount]
    omega

/-! ## One newcomer -/

theorem steady_enroll (hP : Protocol.Separate P W) (s : Server P W) (now : Nat)
    (c : Connection P) : Steady s (s.enroll now c) := by
  rw [enroll]
  rcases c.session.openUp with ⟨e | _, session⟩
  · exact ⟨rfl, rfl, rfl, rfl⟩
  · dsimp only
    split
    · exact ⟨rfl, rfl, rfl, rfl⟩
    · exact ⟨rfl, (react_keeps hP (react_error 0 (s.lend { c with session } now))).1, rfl, rfl⟩

theorem pipes_enroll (h : Filed s) (now : Nat) (c : Connection P) :
    (s.enroll now c).pipes = c.enrolled s.shared now ::ₘ s.pipes := by
  have hrelease (w : W) (socket : Socket) :
      (release { s with shared := w } socket).pipes = .released socket.close ::ₘ s.pipes := by
    rw [release, pipes, ← Multiset.coe_add, Multiset.map_add, ← Multiset.add_assoc,
      Multiset.add_comm]
    rfl
  rcases h.threaded with ⟨_, hthreaded⟩
  -- the session does not open, or the socket cannot be watched, or it is stored
  rw [enroll, Connection.enrolled]
  rcases c.session.openUp with ⟨e | _, session⟩
  · exact hrelease s.shared _
  · dsimp only
    split
    · rw [pipes, Slots.values_insert hthreaded, Multiset.map_cons, Multiset.cons_add]
      rfl
    · exact hrelease _ _

/-- From `s` to `s'` these have come in, in some slots, and nothing else has changed but the
listener. -/
structure Welcomes (now : Nat) (sockets : List Socket) (s s' : Server P W) : Prop where
  config : s'.config = s.config
  shared : s'.shared = s.shared
  running : s'.running = s.running
  found : ∀ id c, s.connection? id = some c → s'.connection? id = some c
  pipes : ∃ fresh, s'.pipes = s.pipes + fresh ∧
    fresh.map Pipe.anonymous = (sockets : Multiset Socket).map
      (fun socket => (initial P s.config s.shared now ⟨0, 0⟩ socket).enrolled s.shared now) ∧
    ∀ c, .attached c ∈ fresh → s.connection? c.link.id = none

theorem welcomes_addConnection (hP : Protocol.Separate P W) (h : Filed s)
    (hnext : s.nextId? = some i) (now : Nat) (socket : Socket) :
    Welcomes now [socket] s (s.addConnection now socket) ∧
      (s.addConnection now socket).listener = s.listener := by
  let prepared := (s.prepare now socket i).2
  have hshared : prepared.shared = s.shared := hP.accept s.shared socket.peer
  have hadd : s.addConnection now socket =
      prepared.enroll now (initial P s.config s.shared now i socket) := by
    rw [addConnection_eq, hnext]
    rfl
  have hsteady := steady_enroll hP prepared now (initial P s.config s.shared now i socket)
  have hpipes := pipes_enroll (s := prepared) ⟨h.threaded, h.slot⟩ now
    (initial P s.config s.shared now i socket)
  rw [← hadd] at hsteady hpipes
  rw [hshared] at hpipes
  refine ⟨⟨hsteady.config, hsteady.shared.trans hshared, hsteady.running, ?_, ?_⟩,
    hsteady.listener⟩
  · intro id c hfind
    rcases addConnection_cases s now socket with
      ⟨_, _, hsame⟩ | ⟨_, hid, _, hsame | ⟨c', rfl, hinsert⟩⟩
    · rw [connection?_congr hsame, hfind]
    · rw [connection?_congr hsame, hfind]
    · -- nobody had the identity of the newcomer
      rw [connection?_insert h (ConnId.of?_eq_some hid).2.1 hinsert, if_neg, hfind]
      rintro rfl
      rw [connection?_nextId h hid] at hfind
      cases hfind
  · refine ⟨{_}, hpipes.trans ((Multiset.singleton_add _ _).symm.trans (Multiset.add_comm _ _)), ?_,
      fun c hc => ?_⟩
    · rw [Multiset.map_singleton, ← Connection.enrolled_anonymous]
      rfl
    · have hid := Connection.id_enrolled (Multiset.mem_singleton.mp hc).symm
      rw [hid]
      exact connection?_nextId h hnext

theorem Welcomes.trans {sockets sockets' : List Socket} (h : Welcomes now sockets s s')
    (h' : Welcomes now sockets' s' s'') : Welcomes now (sockets ++ sockets') s s'' where
  config := h'.config.trans h.config
  shared := h'.shared.trans h.shared
  running := h'.running.trans h.running
  found id c hfind := h'.found id c (h.found id c hfind)
  pipes := by
    rcases h.pipes with ⟨fresh, hpipes, hfresh, hnew⟩
    rcases h'.pipes with ⟨fresh', hpipes', hfresh', hnew'⟩
    refine ⟨fresh + fresh', ?_, ?_, fun c hc => ?_⟩
    · rw [hpipes', hpipes, Multiset.add_assoc]
    · rw [Multiset.map_add, hfresh, hfresh', h.config, h.shared, ← Multiset.coe_add,
        Multiset.map_add]
    · rcases Multiset.mem_add.mp hc with hc | hc
      · exact hnew c hc
      · -- nobody in the middle has the identity, and who was there before is there in the middle
        cases hfind : s.connection? c.link.id with
        | none => rfl
        | some c' => exact (h.found _ c' hfind).symm.trans (hnew' c hc)

/-- If nobody comes in, only the listener changes. -/
theorem welcomes_nobody (s : Server P W) (now : Nat) (listener : Option Listener) :
    Welcomes now [] s { s with listener } where
  config := rfl
  shared := rfl
  running := rfl
  found _ _ h := h
  pipes := ⟨0, (Multiset.add_zero _).symm, rfl, fun _ hc => absurd hc (Multiset.notMem_zero _)⟩

/-- Those in front of the first failure come in. -/
theorem welcomes_acceptAll (hP : Protocol.Separate P W) {listener : Listener} (h : Filed s)
    (hlistener : s.listener = some listener) (hroom : Room listener.pending.length s)
    (hfuel : listener.pending.length < fuel) :
    Welcomes now listener.admitted s (s.acceptAll now fuel) ∧
      (s.acceptAll now fuel).listener = some listener.rest ∧
      Room listener.rest.pending.length (s.acceptAll now fuel) := by
  -- the fuel counts the callers, and `Room` keeps a slot for each of them
  induction fuel generalizing s listener with
  | zero => omega
  | succ fuel ih =>
      rcases listener with ⟨address, isOpen, pending⟩
      rw [acceptAll, hlistener]
      cases isOpen with
      | false => exact ⟨welcomes_nobody s now _, rfl, hroom.cells, hroom.count⟩
      | true =>
          cases pending with
          | nil => exact ⟨welcomes_nobody s now _, rfl, hroom.cells, hroom.count⟩
          | cons caller pending =>
              have hless : s.connectionCount + pending.length ≤ UInt32.size - 2 :=
                Nat.le_trans (Nat.add_le_add_left (Nat.le_succ _) _) hroom.count
              cases caller with
              | error e => exact ⟨welcomes_nobody s now _, rfl, hroom.cells, hless⟩
              | ok socket =>
                  let s₁ : Server P W := { s with listener := some { address, pending } }
                  let accepted := { socket with blocking := false }
                  have hfiled : Filed s₁ := ⟨h.threaded, h.slot⟩
                  have hroom₁ : Room (pending.length + 1) s₁ := ⟨hroom.cells, hroom.count⟩
                  rcases hroom₁.exists_nextId hfiled with ⟨i, hnext⟩
                  rcases welcomes_addConnection hP hfiled hnext now accepted with
                    ⟨hwelcome, hsame⟩
                  have hrest := @ih (s₁.addConnection now accepted) { address, pending }
                    (hfiled.evolves (evolves_addConnection s₁ now accepted)) hsame
                    (hroom₁.addConnection hfiled now accepted) (Nat.lt_of_succ_lt_succ hfuel)
                  refine ⟨?_, hrest.2⟩
                  exact (welcomes_nobody s now _).trans (hwelcome.trans hrest.1)

end Server
end TcpReactor
