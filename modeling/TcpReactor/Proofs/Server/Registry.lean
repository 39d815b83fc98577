import TcpReactor.Proofs.Server.Identity

namespace TcpReactor

/-! # The table of connections

A server finds a connection by its identity. As long as every connection is stored under the slot of
its identity (`Server.Filed`), what a server does to its table is done to a map from identities to
connections: for each operation a `connection?_…` lemma says what it does to this map, and a
`count_…` lemma what becomes of the number of connections.
-/

namespace Server

variable {P W : Type} {s s' : Server P W} {fuel now key slot : Nat} {i id : ConnId}
  {ids : List ConnId} {c : Connection P} {d : Driven (Served P W) Socket}

/-- Every connection is stored under the slot of its identity. -/
structure Filed (s : Server P W) : Prop where
  threaded : ∃ frees, s.connections.Threaded frees
  slot : ∀ key c, s.connections.get? key = some c → c.link.id.slot.toNat = key

theorem filed_new (config : ServerConfig) (shared : W) : Filed (.new P config shared) where
  threaded := ⟨_, Slots.threaded_empty⟩
  slot key c hget := by cases hget

namespace Filed

theorem evolves (h : Filed s) (hevolves : Evolves s ids s') : Filed s' where
  threaded := by
    rcases h.threaded with ⟨_, hthreaded⟩
    exact hevolves.threaded hthreaded
  slot key c' hget := by
    rcases h.threaded with ⟨_, hthreaded⟩
    rcases hevolves.origin hthreaded key c' hget with ⟨c, hold, hid⟩ | ⟨_, hslot⟩
    · rw [hid]
      exact h.slot key c hold
    · exact hslot

theorem retains (h : Filed s) (hretains : Retains s s') : Filed s' := h.evolves hretains.evolves

/-- Who is stored is found by identity. -/
theorem connection?_of_get? (h : Filed s) (hget : s.connections.get? key = some c) :
    s.connection? c.link.id = some c :=
  connection?_eq_some.mpr ⟨by rw [h.slot key c hget]; exact hget, rfl⟩

end Filed

/-! ## What is found -/

theorem connection?_congr (h : s'.connections = s.connections) (id : ConnId) :
    s'.connection? id = s.connection? id := by
  rw [connection?, connection?, h]

/-- Two tables that differ at most in the slot of `i`, where only `i` was and is to be found. -/
theorem connection?_eq_ite {c' : Option (Connection P)} (hfind : s.connection? i = some c)
    (hget : ∀ key, s'.connections.get? key =
      if key = i.slot.toNat then c' else s.connections.get? key)
    (hid : ∀ c₁ ∈ c', c₁.link.id = i) (id : ConnId) :
    s'.connection? id = if id = i then c' else s.connection? id := by
  rcases connection?_eq_some.mp hfind with ⟨hold, hi⟩
  split
  · subst id
    rw [connection?, hget, if_pos rfl]
    cases c' with
    | none => rfl
    | some c₁ => rw [Option.filter_some, if_pos (decide_eq_true (hid c₁ rfl))]
  · rename_i hne
    rw [connection?, connection?, hget]
    split
    · -- the identity has the slot of `i`, but is not to be found there
      rename_i hslot
      rw [hslot, hold, Option.filter_some, if_neg (by simp [hi, Ne.symm hne]),
        Option.filter_eq_none_iff]
      exact fun c₁ hc₁ => by simp [hid c₁ hc₁, Ne.symm hne]
    · rfl

theorem connection?_remove (hfind : s.connection? i = some c) (id : ConnId) :
    (s.remove i.slot.toNat).connection? id = if id = i then none else s.connection? id := by
  refine connection?_eq_ite hfind (fun key => ?_) (by simp) id
  rw [connections_remove, Slots.get?_remove]

theorem connection?_putBack (hfind : s.connection? i = some c) (hid : d.handler.link.id = i)
    (id : ConnId) : (s.putBack i.slot.toNat d).connection? id =
      if id = i then some { session := d.session, link := d.handler.link } else s.connection? id :=
  connection?_eq_ite hfind (fun _ => Slots.get?_set (connection?_eq_some.mp hfind).1)
    (by simpa using hid) id

/-- A connection that comes in under the slot that is used next. -/
theorem connection?_insert (h : Filed s) (hslot : c.link.id.slot.toNat = s.connections.nextKey)
    (hconnections : s'.connections = (s.connections.insert c).2) (id : ConnId) :
    s'.connection? id = if id = c.link.id then some c else s.connection? id := by
  rcases h.threaded with ⟨_, hthreaded⟩
  rw [connection?, connection?, hconnections, Slots.get?_insert hthreaded]
  -- the slot was free, so before this nobody was found under any identity with it
  split
  · rename_i hkey
    rw [hkey, hthreaded.get?_nextKey, Option.filter_some]
    by_cases hid : id = c.link.id
    · simp [hid]
    · simp [hid, Ne.symm hid]
  · rename_i hkey
    rw [if_neg (fun hid => hkey (by rw [hid, hslot]))]

/-- The next connection has an identity that nobody has. -/
theorem connection?_nextId (h : Filed s) (hnext : s.nextId? = some i) : s.connection? i = none := by
  rcases h.threaded with ⟨_, hthreaded⟩
  rw [connection?, (ConnId.of?_eq_some hnext).2.1, hthreaded.get?_nextKey]
  rfl

theorem connection?_move (s : Server P W) (f : ConnId → Socket → Socket)
    (pending : List (Except IoError Socket)) (id : ConnId) :
    (s.move f pending).connection? id = (s.connection? id).map fun c =>
      { c with session := { c.session with transport := f id c.session.transport } } := by
  rw [connection?, connection?, move, Slots.get?_map]
  cases s.connections.get? id.slot.toNat with
  | none => rfl
  | some c =>
      by_cases hid : c.link.id = id
      · simp [Option.filter_some, hid]
      · simp [Option.filter_some, hid]

/-! ## How many there are -/

theorem count_putBack (s : Server P W) (slot : Nat) (d : Driven (Served P W) Socket) :
    (s.putBack slot d).connectionCount = s.connectionCount := Slots.size_set

theorem count_remove (h : Filed s) (hfind : s.connection? i = some c) :
    (s.remove i.slot.toNat).connectionCount + 1 = s.connectionCount := by
  rcases h.threaded with ⟨_, hthreaded⟩
  rw [connectionCount, connections_remove]
  exact Slots.size_remove hthreaded (connection?_eq_some.mp hfind).1

/-! ## Newcomers -/

section

variable [Protocol P W]

/-- A connection before its session is opened, and the server that it is made for. -/
def prepare (s : Server P W) (now : Nat) (socket : Socket) (id : ConnId) :
    Connection P × Server P W :=
  let (protocol, shared) := Protocol.accept s.shared socket.peer
  ({ session := .new socket s.config.recvBufferSize s.config.sendBufferSize now
     link := { protocol, id, peer := socket.peer, interest := .readable } },
    { s with shared, nextVersion := id.version })

/-- Open the session of a connection and put it in the table. If it does not open, or the poller
does not take it, its socket is dropped. -/
def enroll (s : Server P W) (now : Nat) (c : Connection P) : Server P W :=
  match c.session.openUp with
  | (.error _, session) => s.release session.transport
  | (.ok (), session) =>
      if c.session.transport.watchable then
        { s with connections := (s.connections.insert { c with session }).2 }
      else
        let d := (s.lend { c with session } now).close
        release { s with shared := d.handler.shared } d.session.transport

theorem addConnection_eq (s : Server P W) (now : Nat) (socket : Socket) :
    s.addConnection now socket =
      match s.nextId? with
      | none => s.release socket
      | some id =>
          let (c, s) := s.prepare now socket id
          s.enroll now c :=
  rfl

end

/-! ## Evictions -/

/-- The slots of the connections on which nothing has moved for too long. -/
def idleSlots (s : Server P W) (now : Nat) : List Nat :=
  (s.connections.toList.filter fun (_, c) =>
    (c.session.atTime now).isIdle s.config.idleTimeout).map fun (_, c) => c.link.id.slot.toNat

/-- The slots of all connections. -/
def usedSlots (s : Server P W) : List Nat :=
  s.connections.toList.map fun (_, c) => c.link.id.slot.toNat

variable [Protocol P W]

/-- Evict the connections in some slots one after the other. -/
def evictAll (s : Server P W) (now : Nat) (slots : List Nat) : Server P W :=
  slots.foldl (fun s slot => s.evict now slot) s

theorem stop_eq (s : Server P W) (now : Nat) : s.stop now =
    let s' := evictAll { s with running := false } now s.usedSlots
    match s'.listener with
    | none => s'
    | some listener =>
        (listener.pending.filterMap Except.toOption).foldl release { s' with listener := none } :=
  rfl

/-- Nobody is in the slot, or the connection in it is closed and taken out. -/
theorem Filed.evict_cases (h : Filed s) (now slot : Nat) :
    (s.connections.get? slot = none ∧ s.evict now slot = s) ∨
    ∃ c, s.connections.get? slot = some c ∧ s.connection? c.link.id = some c ∧
      s.evict now slot =
        (s.putBack c.link.id.slot.toNat (s.lend c now).close).remove c.link.id.slot.toNat := by
  cases hget : s.connections.get? slot with
  | none =>
      refine .inl ⟨rfl, ?_⟩
      rw [evict, hget]
      dsimp only
      rw [remove, Slots.remove_of_get?_none hget]
  | some c =>
      refine .inr ⟨c, rfl, h.connection?_of_get? hget, ?_⟩
      rw [evict, hget, h.slot slot c hget]

theorem get?_evict (s : Server P W) (now slot key : Nat) : (s.evict now slot).connections.get? key =
    if key = slot then none else s.connections.get? key := by
  rw [evict, connections_remove, Slots.get?_remove]
  split
  · rfl
  · rename_i hkey
    cases hget : s.connections.get? slot with
    | none => rfl
    | some c =>
        dsimp only
        rw [putBack, Slots.get?_set hget, if_neg hkey]

theorem get?_evictAll (s : Server P W) (now : Nat) (slots : List Nat) (key : Nat) :
    (s.evictAll now slots).connections.get? key =
      if key ∈ slots then none else s.connections.get? key := by
  induction slots generalizing s with
  | nil => rfl
  | cons slot slots ih =>
      rw [evictAll, List.foldl_cons, ← evictAll, ih, get?_evict]
      by_cases hslots : key ∈ slots
      · simp [hslots]
      · simp [hslots]

/-- An eviction does not concern the listener. -/
theorem listener_evict (s : Server P W) (now slot : Nat) :
    (s.evict now slot).listener = s.listener ∧ (s.evict now slot).running = s.running := by
  have hremove (s : Server P W) :
      (s.remove slot).listener = s.listener ∧ (s.remove slot).running = s.running := by
    rw [remove]
    split <;> exact ⟨rfl, rfl⟩
  rw [evict]
  cases s.connections.get? slot with
  | none => exact hremove s
  | some c => exact hremove _

theorem listener_evictAll (s : Server P W) (now : Nat) (slots : List Nat) :
    (s.evictAll now slots).listener = s.listener ∧
      (s.evictAll now slots).running = s.running := by
  induction slots generalizing s with
  | nil => exact ⟨rfl, rfl⟩
  | cons slot slots ih =>
      rcases listener_evict s now slot with ⟨hlistener, hrunning⟩
      rcases ih (s.evict now slot) with ⟨hlistener', hrunning'⟩
      exact ⟨hlistener'.trans hlistener, hrunning'.trans hrunning⟩

omit [Protocol P W] in
theorem releaseAll_eq (s : Server P W) (sockets : List Socket) :
    sockets.foldl release s = { s with released := s.released ++ sockets.map Socket.close } := by
  induction sockets generalizing s with
  | nil => rw [List.foldl_nil, List.map_nil, List.append_nil]
  | cons socket sockets ih =>
      rw [List.foldl_cons, ih, release, List.map_cons, List.append_assoc]
      rfl

theorem connections_stop (s : Server P W) (now : Nat) :
    (s.stop now).connections =
      (evictAll { s with running := false } now s.usedSlots).connections := by
  rw [stop_eq]
  dsimp only
  split
  · rfl
  · rw [releaseAll_eq]

/-- A server that has been stopped has no connections and no listener, and does not run. -/
theorem stop_spec (h : Filed s) (now : Nat) :
    (∀ key, (s.stop now).connections.get? key = none) ∧ (s.stop now).listener = none ∧
      (s.stop now).running = false := by
  have hempty (key : Nat) :
      (evictAll { s with running := false } now s.usedSlots).connections.get? key = none := by
    rw [get?_evictAll]
    split
    · rfl
    · rename_i hkey
      cases hget : s.connections.get? key with
      | none => rfl
      | some c =>
          -- a slot in use is listed among those to be evicted
          refine absurd (List.mem_map.mpr ⟨(key, c), Slots.mem_toList.mpr hget, ?_⟩) hkey
          exact h.slot key c hget
  have hrunning := (listener_evictAll { s with running := false } now s.usedSlots).2
  rw [stop_eq]
  dsimp only
  generalize evictAll { s with running := false } now s.usedSlots = s₁ at hempty hrunning
  cases hlistener : s₁.listener with
  | none => exact ⟨hempty, hlistener, hrunning⟩
  | some listener =>
      dsimp only
      rw [releaseAll_eq]
      exact ⟨hempty, rfl, hrunning⟩

end Server
end TcpReactor
