import Mathlib.Data.Multiset.Filter
import TcpReactor.Proofs.Server.Registry
import TcpReactor.Proofs.Server.Separate
import TcpReactor.Proofs.Slots.Values

namespace TcpReactor

/-! # The connections of a server as a whole

A server keeps a connection in its table, and lets go of its socket when the connection is closed.
Taken together, the connections that are there and the sockets of those that were are the pipes of
the server (`Server.pipes`). In which slot a connection is stored, and in which order sockets were
let go of, does not show.

Here it is said what each thing a server does is for its pipes: every one of them takes a step of
its own, which depends on nothing but the pipe itself (`Pipe.bind`).
-/

namespace Connection

variable {P W : Type}

/-- A connection without its identity. -/
def anonymous (c : Connection P) : Connection P := { c with link := c.link.anonymous }

/-- The network moves the socket. -/
def move (f : Socket → Socket) (c : Connection P) : Connection P :=
  { c with session := { c.session with transport := f c.session.transport } }

/-- A connection with its handler, as its calls need it. -/
def driven (w : W) (now : Nat) (c : Connection P) : Driven (Served P W) Socket :=
  { session := c.session.atTime now, handler := { link := c.link, shared := w } }

end Connection

/-- A connection in the table of a server, or the socket that is left of one. -/
inductive Pipe (P : Type) where
  | attached (c : Connection P)
  | released (socket : Socket)

namespace Pipe

variable {P : Type}

def socket : Pipe P → Socket
  | attached c => c.session.transport
  | released socket => socket

def peer (p : Pipe P) : Address := p.socket.peer

/-- A pipe without the identity of its connection. -/
def anonymous : Pipe P → Pipe P
  | attached c => attached c.anonymous
  | released socket => released socket

/-- What becomes of a pipe if something becomes of its connection. -/
def bind : Pipe P → (Connection P → Pipe P) → Pipe P
  | attached c, f => f c
  | released socket, _ => released socket

theorem bind_bind (p : Pipe P) (f g : Connection P → Pipe P) :
    (p.bind f).bind g = p.bind fun c => (f c).bind g := by
  cases p <;> rfl

@[simp] theorem bind_attached (p : Pipe P) : p.bind attached = p := by cases p <;> rfl

@[simp] theorem map_bind_attached (m : Multiset (Pipe P)) : m.map (·.bind attached) = m := by
  simp

@[simp] theorem peer_anonymous (p : Pipe P) : p.anonymous.peer = p.peer := by cases p <;> rfl

end Pipe

namespace Server

variable {P W : Type} {s s' s'' : Server P W} {fuel now slot : Nat} {i id : ConnId}
  {c c' : Connection P} {d : Driven (Served P W) Socket}

/-- The connections of a server, and what is left of those that are gone. -/
def pipes (s : Server P W) : Multiset (Pipe P) :=
  s.connections.values.map .attached + (s.released : Multiset Socket).map .released

/-- The connections that are there are those that are found. -/
theorem Filed.attached_mem_pipes (h : Filed s) :
    .attached c ∈ s.pipes ↔ s.connection? c.link.id = some c := by
  have hattached : .attached c ∈ s.pipes ↔ c ∈ s.connections.values := by
    simp [pipes]
  rw [hattached, Slots.mem_values]
  constructor
  · rintro ⟨key, hget⟩
    exact h.connection?_of_get? hget
  · exact fun hfind => ⟨_, (connection?_eq_some.mp hfind).1⟩

/-- Only the connections that are there matter. -/
theorem Filed.map_bind_congr (h : Filed s) {f g : Connection P → Pipe P}
    (hfg : ∀ c, s.connection? c.link.id = some c → f c = g c) :
    s.pipes.map (·.bind f) = s.pipes.map (·.bind g) := by
  refine Multiset.map_congr rfl fun p hp => ?_
  cases p with
  | attached c => exact hfg c (h.attached_mem_pipes.mp hp)
  | released socket => rfl

/-- Nothing has changed but the connections. -/
structure Steady (s s' : Server P W) : Prop where
  config : s'.config = s.config
  shared : s'.shared = s.shared
  listener : s'.listener = s.listener
  running : s'.running = s.running

theorem Steady.refl (s : Server P W) : Steady s s := ⟨rfl, rfl, rfl, rfl⟩

theorem Steady.trans (h : Steady s s') (h' : Steady s' s'') : Steady s s'' where
  config := h'.config.trans h.config
  shared := h'.shared.trans h.shared
  listener := h'.listener.trans h.listener
  running := h'.running.trans h.running

theorem steady_remove (s : Server P W) (slot : Nat) : Steady s (s.remove slot) := by
  rw [remove]
  split
  · exact ⟨rfl, rfl, rfl, rfl⟩
  · exact ⟨rfl, rfl, rfl, rfl⟩

/-- What is taken out of the table is let go of. -/
theorem pipes_remove (hget : s.connections.get? slot = some c) : (s.remove slot).pipes =
    .released c.session.transport.close ::ₘ ((s.connections.remove slot).2.values.map .attached +
      (s.released : Multiset Socket).map .released) := by
  rw [remove, Slots.remove_of_get? hget]
  dsimp only
  rw [release, pipes, ← Multiset.coe_add, Multiset.map_add, ← Multiset.add_assoc,
    Multiset.add_comm]
  rfl

/-! ## One connection -/

/-- What is left of a connection after its calls: if they have closed it, its socket. -/
def conclude (d : Driven (Served P W) Socket) : Pipe P :=
  if d.isOpen then .attached { session := d.session, link := d.handler.link }
  else .released d.session.transport.close

/-- Put a connection back after its calls, or take it out of the table if they have closed it. -/
def finish (s : Server P W) (id : ConnId) (d : Driven (Served P W) Socket) : Server P W :=
  let s := s.putBack id.slot.toNat d
  if d.isOpen then s else s.remove id.slot.toNat

theorem steady_finish (i : ConnId) (hshared : d.handler.shared = s.shared) :
    Steady s (s.finish i d) := by
  have hput : Steady s (s.putBack i.slot.toNat d) := ⟨rfl, hshared, rfl, rfl⟩
  rw [finish]
  split
  · exact hput
  · exact hput.trans (steady_remove _ _)

/-- The other connections are left alone. -/
theorem connection?_finish (hfind : s.connection? i = some c) (hid : d.handler.link.id = i)
    (hne : id ≠ i) : (s.finish i d).connection? id = s.connection? id := by
  have hput := connection?_putBack hfind hid
  rw [finish]
  split
  · rw [hput, if_neg hne]
  · rw [connection?_remove (hput i |>.trans (if_pos rfl)), if_neg hne, hput, if_neg hne]

theorem count_finish (h : Filed s) (hfind : s.connection? i = some c)
    (hid : d.handler.link.id = i) : (s.finish i d).connectionCount ≤ s.connectionCount := by
  have hput := count_putBack s i.slot.toNat d
  rw [finish]
  split
  · exact Nat.le_of_eq hput
  · have hfiled : Filed (s.putBack i.slot.toNat d) :=
      h.retains (retains_putBack (connection?_eq_some.mp hfind).1
        (hid.trans (connection?_eq_some.mp hfind).2.symm))
    have hremove := count_remove hfiled ((connection?_putBack hfind hid i).trans (if_pos rfl))
    omega

/-- The pipe of the connection becomes what is left of it, and the others are left alone. -/
theorem pipes_finish (h : Filed s) (hfind : s.connection? i = some c) :
    (s.finish i d).pipes =
      s.pipes.map (·.bind fun c => if c.link.id = i then conclude d else .attached c) := by
  rcases connection?_eq_some.mp hfind with ⟨hget, hi⟩
  rcases Slots.exists_values_eq_cons hget with ⟨rest, hvalues, hset, hremove⟩
  let others : Multiset (Pipe P) :=
    rest.map .attached + (s.released : Multiset Socket).map .released
  have hpipes : s.pipes = .attached c ::ₘ others := by
    rw [pipes, hvalues, Multiset.map_cons, Multiset.cons_add]
  -- two connections of one identity would be in one slot
  have hother : ∀ c' ∈ rest, c'.link.id ≠ i := by
    intro c' hc' hid
    rw [← hremove, Slots.mem_values] at hc'
    rcases hc' with ⟨key, hget'⟩
    rw [Slots.get?_remove] at hget'
    split at hget'
    · cases hget'
    · rename_i hkey
      exact hkey (by rw [← h.slot key c' hget', hid])
  have hothers : others.map (·.bind fun c => if c.link.id = i then conclude d else .attached c) =
      others := by
    rw [Multiset.map_add, Multiset.map_map, Multiset.map_map]
    refine congrArg (· + _) (Multiset.map_congr rfl fun c' hc' => ?_)
    exact if_neg (hother c' hc')
  have hleft : (s.finish i d).pipes = conclude d ::ₘ others := by
    rw [finish, conclude]
    split
    · rw [pipes, putBack, hset, Multiset.map_cons, Multiset.cons_add]
    · have hput : (s.putBack i.slot.toNat d).connections.get? i.slot.toNat =
          some { session := d.session, link := d.handler.link } := by
        rw [putBack, Slots.get?_set hget, if_pos rfl]
      rcases Slots.exists_values_eq_cons hput with ⟨rest', hvalues', _, hremove'⟩
      rw [pipes_remove hput, hremove',
        (Multiset.cons_inj_right _).mp (hvalues'.symm.trans (hset _))]
      rfl
  rw [hleft, hpipes, Multiset.map_cons, hothers]
  exact congrArg (· ::ₘ _) (if_pos hi).symm

theorem peer_conclude (d : Driven (Served P W) Socket) :
    (conclude d).peer = d.session.transport.peer := by
  rw [conclude]
  split
  · rfl
  · rfl

theorem conclude_anonymous (d : Driven (Served P W) Socket) :
    conclude (d.mapHandler Served.anonymous) = (conclude d).anonymous := by
  rw [conclude, conclude, Driven.isOpen_mapHandler]
  split
  · rfl
  · rfl

end Server

/-! ## What a connection comes to -/

namespace Connection

open Server

variable {P W : Type} [Protocol P W] {w : W} {fuel now : Nat} {report : Option Readiness}

/-- What a connection comes to when it is told of its readiness, if it is. -/
def after (w : W) (fuel now : Nat) (report : Option Readiness) (c : Connection P) : Pipe P :=
  ((report.bind fun r => react fuel r (c.driven w now)).map conclude).getD (.attached c)

theorem after_some {c : Connection P} {r : Readiness} {d : Driven (Served P W) Socket}
    (h : react fuel r (c.driven w now) = some d) : c.after w fuel now (some r) = conclude d := by
  rw [after, Option.bind_some, h]
  rfl

/-- What a connection comes to when it is closed. -/
def shut (w : W) (now : Nat) (c : Connection P) : Pipe P :=
  .released (c.driven w now).close.session.transport.close

theorem conclude_close (d : Driven (Served P W) Socket) :
    conclude d.close = .released d.close.session.transport.close := by
  rw [conclude, Driven.isOpen_close]
  rfl

/-- An error closes a connection. -/
theorem after_error (w : W) (fuel now : Nat) (c : Connection P) :
    c.after w fuel now (some { error := true }) = c.shut w now :=
  (after_some (react_error fuel _)).trans (conclude_close _)

theorem after_anonymous (w : W) (fuel now : Nat) (report : Option Readiness) (c : Connection P) :
    c.anonymous.after w fuel now report = (c.after w fuel now report).anonymous := by
  cases report with
  | none => rfl
  | some r =>
      have hreact := react_anonymous fuel r (c.driven w now)
      have hdriven : c.anonymous.driven w now = (c.driven w now).mapHandler Served.anonymous := rfl
      rw [after, after, Option.bind_some, Option.bind_some, hdriven, hreact]
      cases react fuel r (c.driven w now) with
      | none => rfl
      | some d => exact conclude_anonymous d

theorem peer_after (hP : Protocol.Separate P W) (c : Connection P) :
    (c.after w fuel now report).peer = (Pipe.attached c).peer := by
  cases report with
  | none => rfl
  | some r =>
      cases hreact : react fuel r (c.driven w now) with
      | none =>
          rw [after, Option.bind_some, hreact]
          rfl
      | some d =>
          rw [after_some hreact, peer_conclude]
          exact (react_keeps hP hreact).2

/-- A connection that goes on keeps its identity. -/
theorem id_after {c c' : Connection P} (h : c.after w fuel now report = .attached c') :
    c'.link.id = c.link.id := by
  cases report with
  | none =>
      cases h
      rfl
  | some r =>
      cases hreact : react fuel r (c.driven w now) with
      | none =>
          rw [after, Option.bind_some, hreact] at h
          cases h
          rfl
      | some d =>
          rw [after_some hreact, conclude] at h
          split at h
          · cases h
            exact id_react hreact
          · cases h

theorem shut_anonymous (w : W) (now : Nat) (c : Connection P) :
    c.anonymous.shut w now = c.shut w now := by
  rw [← after_error w 0, after_anonymous, after_error]
  rfl

theorem peer_shut (hP : Protocol.Separate P W) (w : W) (now : Nat) (c : Connection P) :
    (c.shut w now).peer = (Pipe.attached c).peer := by
  rw [← after_error w 0, peer_after hP]

end Connection

/-! ## Steps of a server -/

namespace Server

variable {P W : Type} {s s' s'' : Server P W} {fuel now slot : Nat} {i id : ConnId}
  {c c' : Connection P} {d : Driven (Served P W) Socket}

theorem pipes_start (s : Server P W) (bound : Except IoError Unit) :
    (s.start bound).2.pipes = s.pipes := by
  rw [start]
  split
  · rfl
  · split <;> rfl

theorem pipes_move (s : Server P W) (f : ConnId → Socket → Socket)
    (pending : List (Except IoError Socket)) : (s.move f pending).pipes =
      s.pipes.map (·.bind fun c => .attached (c.move (f c.link.id))) := by
  rw [pipes, pipes, move, Slots.values_map, Multiset.map_add, Multiset.map_map, Multiset.map_map,
    Multiset.map_map]
  rfl

variable [Protocol P W]

/-- An event for a connection that is there. -/
theorem dispatch_eq {e : Event} (hfind : s.connection? (ConnId.ofKey e.key) = some c) :
    s.dispatch fuel now e =
      (react fuel e.readiness (c.driven s.shared now)).map (s.finish (ConnId.ofKey e.key)) := by
  rw [dispatch]
  dsimp only
  rw [hfind]
  show Option.bind _ _ = _
  cases hreact : react fuel e.readiness (s.lend c now) with
  | none => rw [show react fuel e.readiness (c.driven s.shared now) = none from hreact]; rfl
  | some d => rw [show react fuel e.readiness (c.driven s.shared now) = some d from hreact]; rfl

/-- Nobody is in the slot, or the connection in it is closed. -/
theorem Filed.evict_eq (h : Filed s) (now slot : Nat) :
    (s.connections.get? slot = none ∧ s.evict now slot = s) ∨
    ∃ c, s.connections.get? slot = some c ∧ s.connection? c.link.id = some c ∧
      s.evict now slot = s.finish c.link.id (c.driven s.shared now).close := by
  rcases h.evict_cases now slot with hnone | ⟨c, hget, hfind, hevict⟩
  · exact .inl hnone
  · refine .inr ⟨c, hget, hfind, hevict.trans ?_⟩
    rw [finish, Driven.isOpen_close]
    rfl

section

variable (hP : Protocol.Separate P W)
include hP

/-- An eviction closes the connection in the slot. -/
theorem pipes_evict (h : Filed s) (now slot : Nat) : Steady s (s.evict now slot) ∧
    (s.evict now slot).pipes = s.pipes.map (·.bind fun c =>
      if c.link.id.slot.toNat = slot then c.shut s.shared now else .attached c) := by
  rcases h.evict_eq now slot with ⟨hnone, hevict⟩ | ⟨c, hget, hfind, hevict⟩
  · rw [hevict]
    refine ⟨.refl s, ?_⟩
    rw [h.map_bind_congr (g := Pipe.attached) fun c hc => if_neg fun hslot => ?_,
      Pipe.map_bind_attached]
    rw [← hslot, (connection?_eq_some.mp hc).1] at hnone
    cases hnone
  · have hkeep := react_keeps hP (react_error 0 (c.driven s.shared now))
    rw [hevict, pipes_finish h hfind]
    refine ⟨steady_finish _ hkeep.1, h.map_bind_congr fun c' hc' => ?_⟩
    have hslot := h.slot slot c hget
    split
    · rename_i hid
      rw [hid, hfind] at hc'
      cases hc'
      rw [if_pos hslot]
      exact Connection.conclude_close _
    · rename_i hid
      -- a slot holds one connection, so another identity means another slot
      refine (if_neg fun hslot' => hid ?_).symm
      have hget' := (connection?_eq_some.mp hc').1
      rw [hslot', hget] at hget'
      cases hget'
      rfl

/-- Evictions close the connections in the slots and leave everybody else alone. -/
theorem pipes_evictAll (h : Filed s) (now : Nat) (slots : List Nat) :
    Steady s (s.evictAll now slots) ∧ (s.evictAll now slots).pipes = s.pipes.map (·.bind fun c =>
      if c.link.id.slot.toNat ∈ slots then c.shut s.shared now else .attached c) := by
  -- on the slots: who was closed in the first eviction is released and has no slot any more
  induction slots generalizing s with
  | nil =>
      refine ⟨.refl s, ?_⟩
      simp only [List.not_mem_nil, if_false, Pipe.map_bind_attached]
      rfl
  | cons slot slots ih =>
      rcases pipes_evict hP h now slot with ⟨hsteady, hpipes⟩
      rcases ih (h.retains (retains_evict s now slot)) with ⟨hsteady', hpipes'⟩
      refine ⟨hsteady.trans hsteady', ?_⟩
      rw [evictAll, List.foldl_cons, ← evictAll, hpipes', hpipes, Multiset.map_map, hsteady.shared]
      refine Multiset.map_congr rfl fun p _ => ?_
      rw [Function.comp, Pipe.bind_bind]
      congr 1
      funext c
      by_cases hslot : c.link.id.slot.toNat = slot
      · rw [if_pos hslot, if_pos (List.mem_cons.mpr (.inl hslot))]
        rfl
      · simp only [List.mem_cons, hslot, false_or]
        rfl

/-- The look for idle connections closes those that are idle. -/
theorem pipes_evictIdle (h : Filed s) (now : Nat) :
    Steady s (s.evictIdle now) ∧ (s.evictIdle now).pipes = s.pipes.map (·.bind fun c =>
      if (c.session.atTime now).isIdle s.config.idleTimeout then c.shut s.shared now
      else .attached c) := by
  rcases pipes_evictAll hP h now (s.idleSlots now) with ⟨hsteady, hpipes⟩
  refine ⟨hsteady, hpipes.trans (h.map_bind_congr fun c hc => ?_)⟩
  have hget := (connection?_eq_some.mp hc).1
  -- a slot holds one connection, so it is listed just if that one is idle
  have hidle : c.link.id.slot.toNat ∈ s.idleSlots now ↔
      (c.session.atTime now).isIdle s.config.idleTimeout = true := by
    rw [idleSlots, List.mem_map]
    constructor
    · rintro ⟨⟨key, c'⟩, hmem, hslot⟩
      rcases List.mem_filter.mp hmem with ⟨hlist, hidle⟩
      have hget' := Slots.mem_toList.mp hlist
      rw [← h.slot key c' hget', show c'.link.id.slot.toNat = _ from hslot, hget] at hget'
      cases hget'
      exact hidle
    · exact fun hidle => ⟨_, List.mem_filter.mpr ⟨Slots.mem_toList.mpr hget, hidle⟩, rfl⟩
  simp only [hidle]

/-- Who waits to be accepted. -/
def callers (s : Server P W) : List Socket :=
  match s.listener with
  | none => []
  | some listener => listener.pending.filterMap Except.toOption

/-- A stop closes every connection, and whoever waits is turned away. -/
theorem pipes_stop (h : Filed s) (now : Nat) :
    (s.stop now).config = s.config ∧ (s.stop now).shared = s.shared ∧
      (s.stop now).pipes = s.pipes.map (·.bind fun c => c.shut s.shared now) +
        (s.callers : Multiset Socket).map fun socket => .released socket.close := by
  have hstopped : Filed { s with running := false } := ⟨h.threaded, h.slot⟩
  rcases pipes_evictAll hP hstopped now s.usedSlots with ⟨hsteady, hpipes⟩
  have hall : (evictAll { s with running := false } now s.usedSlots).pipes =
      s.pipes.map (·.bind fun c => c.shut s.shared now) := by
    refine hpipes.trans (h.map_bind_congr fun c hc => if_pos ?_)
    exact List.mem_map.mpr ⟨(_, c), Slots.mem_toList.mpr (connection?_eq_some.mp hc).1, rfl⟩
  rw [stop_eq, callers, ← hall]
  dsimp only
  -- only the listener is left, with those who wait at it
  generalize evictAll { s with running := false } now s.usedSlots = s₁ at hsteady
  rw [← show s₁.listener = s.listener from hsteady.listener]
  cases s₁.listener with
  | none => exact ⟨hsteady.config, hsteady.shared, (Multiset.add_zero _).symm⟩
  | some listener =>
      dsimp only
      rw [releaseAll_eq]
      refine ⟨hsteady.config, hsteady.shared, ?_⟩
      rw [pipes, pipes, ← Multiset.coe_add, Multiset.map_add, Multiset.add_assoc,
        ← Multiset.map_coe, Multiset.map_map]
      rfl

end

end Server
end TcpReactor
