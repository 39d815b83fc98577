import TcpReactor.Proofs.Server.Run

namespace TcpReactor

/-! # The identities of connections

* `Server.evolves_run`: what a run does to the table of connections, with the identities that it
  gives out (`Server.history`).
* `Server.cells_run`: the table of connections never has more slots than there were connections at
  the same time.
* `Server.connection_identity`: every connection is stored under the slot of its identity, an
  identity names nobody any more once its connection is gone, and different connections have
  different keys, none of which is the key of the listener.

Identities are numbered by their versions. The numbers wrap, so an identity comes back at the
earliest with the `2 ^ 32`-th connection after it.
-/

namespace ConnId

variable {id : ConnId} {ids ids' : List ConnId} {slot : Nat} {version : UInt32}

theorem of?_eq_some (h : of? slot version = some id) :
    slot < UInt32.size ∧ id.slot.toNat = slot ∧ id.version = version := by
  rw [of?] at h
  split at h
  · cases h
    exact ⟨‹_›, UInt32.toNat_ofNat_of_lt' ‹_›, rfl⟩
  · cases h

theorem toKey_inj {id id' : ConnId} : id.toKey = id'.toKey ↔ id = id' :=
  ⟨fun h => by rw [← ofKey_toKey id, h, ofKey_toKey], fun h => by rw [h]⟩

/-- Only the last slot but one has the key of the listener among its keys. -/
theorem slot_of_listenerKey (h : id.toKey = listenerKey) : id.slot.toNat = UInt32.size - 2 := by
  have hslot := id.slot.toNat_lt
  simp only [toKey, listenerKey, UInt32.size, UInt64.size] at h ⊢
  omega

/-- The versions of these identities follow each other, from the one after `version` on. -/
def Numbered (version : UInt32) : List ConnId → Prop
  | [] => True
  | id :: ids => id.version = version + 1 ∧ Numbered (version + 1) ids

theorem numbered_append : Numbered version (ids ++ ids') ↔
    Numbered version ids ∧ Numbered (version + .ofNat ids.length) ids' := by
  induction ids generalizing version with
  | nil => simp [Numbered]
  | cons id ids ih =>
      have hadd : version + 1 + .ofNat ids.length = version + .ofNat (id :: ids).length := by
        rw [List.length_cons, UInt32.ofNat_add, UInt32.add_comm (.ofNat _), UInt32.add_assoc]
        rfl
      rw [List.cons_append, Numbered, Numbered, ih, hadd, and_assoc]

theorem Numbered.version_of_mem (h : Numbered version ids) (hmem : id ∈ ids) :
    ∃ i < ids.length, id.version = version + 1 + .ofNat i := by
  rcases List.append_of_mem hmem with ⟨before, after, rfl⟩
  refine ⟨before.length, by simp, ?_⟩
  rw [(numbered_append.mp h).2.1, UInt32.add_assoc, UInt32.add_comm (.ofNat _), UInt32.add_assoc]

/-- Fewer than `2 ^ 32` identities after it, none is the same again. -/
theorem Numbered.not_mem (h : Numbered version (id :: ids)) (hlength : ids.length < UInt32.size) :
    id ∉ ids := by
  intro hmem
  rcases h.2.version_of_mem hmem with ⟨i, hi, hversion⟩
  have hagain : (version + 1).toNat = (version + 1 + 1 + .ofNat i).toNat := by
    rw [← hversion, h.1]
  simp only [UInt32.toNat_add, UInt32.toNat_ofNat', UInt32.reduceToNat] at hagain
  have := version.toNat_lt
  simp only [UInt32.size] at hlength
  omega

end ConnId

namespace Server

open ConnId (Numbered)

variable {P W : Type} {s s' s'' : Server P W} {fuel now : Nat} {id : ConnId}
  {ids ids' : List ConnId} {frees : List Nat}

/-! ## What becomes of the table -/

/-- From `s` to `s'` connections may have moved on or gone, and each new one has one of the
identities that were given out. -/
structure Evolves (s : Server P W) (ids : List ConnId) (s' : Server P W) : Prop where
  numbered : Numbered s.nextVersion ids
  version : s'.nextVersion = s.nextVersion + .ofNat ids.length
  threaded : ∀ {frees}, s.connections.Threaded frees → ∃ frees', s'.connections.Threaded frees'
  origin : ∀ {frees}, s.connections.Threaded frees →
    ∀ key c', s'.connections.get? key = some c' →
      (∃ c, s.connections.get? key = some c ∧ c'.link.id = c.link.id) ∨
      (c'.link.id ∈ ids ∧ c'.link.id.slot.toNat = key)

theorem Retains.evolves (h : Retains s s') : Evolves s [] s' where
  numbered := trivial
  version := by
    rw [h.version]
    exact (UInt32.add_zero _).symm
  threaded := h.threaded
  origin _ key c' hget := .inl (h.ids key c' hget)

theorem Evolves.trans (h : Evolves s ids s') (h' : Evolves s' ids' s'') :
    Evolves s (ids ++ ids') s'' where
  numbered := ConnId.numbered_append.mpr ⟨h.numbered, h.version ▸ h'.numbered⟩
  version := by
    rw [h'.version, h.version, List.length_append, UInt32.ofNat_add, UInt32.add_assoc]
  threaded hthreaded := by
    rcases h.threaded hthreaded with ⟨_, hthreaded'⟩
    exact h'.threaded hthreaded'
  origin hthreaded key c'' hget := by
    rcases h.threaded hthreaded with ⟨_, hthreaded'⟩
    -- who is in the table at the end came in the second stretch, or was there in the middle
    rcases h'.origin hthreaded' key c'' hget with ⟨c', hget', hid'⟩ | ⟨hmem, hslot⟩
    · rw [hid']
      rcases h.origin hthreaded key c' hget' with hold | ⟨hmem, hslot⟩
      · exact .inl hold
      · exact .inr ⟨List.mem_append_left _ hmem, hslot⟩
    · exact .inr ⟨List.mem_append_right _ hmem, hslot⟩

/-- Each connection is stored under the slot of an identity that was given out. -/
theorem Evolves.issued_of_get? {config : ServerConfig} {shared : W} {key : Nat} {c : Connection P}
    (h : Evolves (.new P config shared) ids s) (hget : s.connections.get? key = some c) :
    c.link.id.slot.toNat = key ∧ c.link.id ∈ ids := by
  rcases h.origin Slots.threaded_empty key c hget with ⟨_, hold, _⟩ | ⟨hmem, hslot⟩
  · cases hold
  · exact ⟨hslot, hmem⟩

/-! ## The identities that are given out -/

/-- The identity of the next connection, if there is one left for it. -/
def nextId? (s : Server P W) : Option ConnId :=
  ConnId.of? s.connections.nextKey (s.nextVersion + 1)

variable [Protocol P W]

/-- The identities that are given out while whoever waits is accepted. That a session does not open
makes no difference here. -/
def acceptedIds (s : Server P W) (now : Nat) : (fuel : Nat) → List ConnId
  | 0 => []
  | fuel + 1 =>
      match s.listener with
      | none => []
      | some listener =>
          match listener.accept with
          | (.ok (some socket), listener) =>
              let s := { s with listener := some listener }
              s.nextId?.toList ++ acceptedIds (s.addConnection now socket) now fuel
          | _ => []

/-- The identities that are given out in a step. -/
def issued (s : Server P W) : Step → List ConnId
  | .event now e =>
      if s.running && e.key = ConnId.listenerKey then s.acceptedIds now (s.waiting + 1) else []
  | _ => []

/-- The identities that are given out in a run, in their order. -/
def history (fuel : Nat) (s : Server P W) : List Step → List ConnId
  | [] => []
  | e :: steps => s.issued e ++ (s.step fuel e).elim [] fun s => history fuel s steps

/-! ## Accepting -/

/-- If there is an identity left for a connection, its version is used up, whether the connection is
stored then or its session does not open. -/
theorem addConnection_cases (s : Server P W) (now : Nat) (socket : Socket) :
    (s.nextId? = none ∧ (s.addConnection now socket).nextVersion = s.nextVersion ∧
      (s.addConnection now socket).connections = s.connections) ∨
    ∃ id, s.nextId? = some id ∧ (s.addConnection now socket).nextVersion = id.version ∧
      ((s.addConnection now socket).connections = s.connections ∨
        ∃ c, c.link.id = id ∧
          (s.addConnection now socket).connections = (s.connections.insert c).2) := by
  rw [addConnection, nextId?]
  -- no number is left for the slot; the session does not open, it is stored, or the socket cannot
  -- be watched
  cases hnext : ConnId.of? s.connections.nextKey (s.nextVersion + 1) with
  | none => exact .inl ⟨rfl, rfl, rfl⟩
  | some id =>
      refine .inr ⟨id, rfl, ?_⟩
      dsimp only
      split
      · exact ⟨rfl, .inl rfl⟩
      · split
        · exact ⟨rfl, .inr ⟨_, rfl, rfl⟩⟩
        · exact ⟨rfl, .inl rfl⟩

theorem evolves_addConnection (s : Server P W) (now : Nat) (socket : Socket) :
    Evolves s s.nextId?.toList (s.addConnection now socket) := by
  rcases addConnection_cases s now socket with
    ⟨hnext, hversion, hsame⟩ | ⟨id, hnext, hversion, htable⟩
  · rw [hnext]
    exact (Retains.of_eq hsame hversion).evolves
  rcases ConnId.of?_eq_some hnext with ⟨hroom, hslot, hid⟩
  rw [hnext]
  refine ⟨⟨hid, trivial⟩, hversion.trans hid, fun hthreaded => ?_, fun hthreaded key c hget => ?_⟩
  · rcases htable with hsame | ⟨c, _, hinsert⟩
    · exact ⟨_, hsame ▸ hthreaded⟩
    · rw [hinsert]
      have hsmall : UInt32.size ≤ noSlot := by decide
      exact ⟨_, Slots.threaded_insert hthreaded (Nat.lt_of_lt_of_le hroom hsmall)⟩
  · rcases htable with hsame | ⟨c', hc', hinsert⟩
    · exact .inl ⟨c, hsame ▸ hget, rfl⟩
    · -- the slot that is filled is the one the identity was made for
      rw [hinsert, Slots.get?_insert hthreaded] at hget
      split at hget
      · cases hget
        exact .inr ⟨by simp [hc'], by rw [hc', hslot, ‹key = _›]⟩
      · exact .inl ⟨c, hget, rfl⟩

theorem evolves_acceptAll (s : Server P W) (now fuel : Nat) :
    Evolves s (s.acceptedIds now fuel) (s.acceptAll now fuel) := by
  induction fuel generalizing s with
  | zero => exact (Retains.of_eq rfl rfl).evolves
  | succ fuel ih =>
      rw [acceptedIds, acceptAll]
      cases s.listener with
      | none => exact (Retains.of_eq rfl rfl).evolves
      | some listener =>
          have hlistener (l : Listener) : Retains s { s with listener := some l } := .of_eq rfl rfl
          dsimp only
          rcases listener.accept with ⟨_ | ⟨_ | socket⟩, listener'⟩
          · exact (hlistener listener').evolves
          · exact (hlistener listener').evolves
          · exact (hlistener listener').evolves.trans
              ((evolves_addConnection _ now socket).trans (ih _))

/-- Either connections are accepted in a step, or the table gets no new one. -/
theorem step_cases {e : Step} (h : s.step fuel e = some s') :
    (s.issued e = [] ∧ Retains s s') ∨
    ∃ now, s.issued e = s.acceptedIds now (s.waiting + 1) ∧
      s' = s.acceptAll now (s.waiting + 1) := by
  cases e with
  | start bound =>
      cases h
      exact .inl ⟨rfl, retains_start s bound⟩
  | stop now =>
      cases h
      exact .inl ⟨rfl, retains_stop s now⟩
  | sweep now =>
      cases h
      split
      · exact .inl ⟨rfl, retains_evictIdle s now⟩
      · exact .inl ⟨rfl, .of_eq rfl rfl⟩
  | visit now id program =>
      rcases Option.map_eq_some_iff.mp h with ⟨⟨answer, _⟩, hexec, rfl⟩
      exact .inl ⟨rfl, retains_exec hexec⟩
  | network f pending =>
      cases h
      exact .inl ⟨rfl, retains_move s f pending⟩
  | event now e =>
      rw [issued]
      rw [step] at h
      split at h
      · -- one event is the listener's or a connection's
        rw [dispatchAll] at h
        split at h
        · cases h
          exact .inr ⟨now, if_pos (by simp [*]), rfl⟩
        · rcases Option.bind_eq_some_iff.mp h with ⟨_, hdispatch, hrest⟩
          cases hrest
          exact .inl ⟨if_neg (by simp [*]), retains_dispatch hdispatch⟩
      · cases h
        exact .inl ⟨if_neg (by simp [*]), .of_eq rfl rfl⟩

theorem evolves_step {e : Step} (h : s.step fuel e = some s') : Evolves s (s.issued e) s' := by
  rcases step_cases h with ⟨hissued, hretains⟩ | ⟨now, hissued, rfl⟩
  · rw [hissued]
    exact hretains.evolves
  · rw [hissued]
    exact evolves_acceptAll s now _

theorem evolves_run {steps : List Step} (h : s.run fuel steps = some s') :
    Evolves s (s.history fuel steps) s' := by
  induction steps generalizing s with
  | nil =>
      cases h
      exact (Retains.of_eq rfl rfl).evolves
  | cons e steps ih =>
      rw [run, List.foldlM_cons] at h
      rcases Option.bind_eq_some_iff.mp h with ⟨s₁, hstep, hrest⟩
      rw [history, hstep]
      exact (evolves_step hstep).trans (ih hrest)

/-! ## The table is dense -/

theorem grows_addConnection (s : Server P W) (hthreaded : s.connections.Threaded frees)
    (now : Nat) (socket : Socket) :
    s.connections.Grows (s.addConnection now socket).connections := by
  rcases addConnection_cases s now socket with ⟨_, _, hsame⟩ | ⟨_, _, _, hsame | ⟨c, _, hinsert⟩⟩
  · rw [hsame]
    exact .refl _
  · rw [hsame]
    exact .refl _
  · rw [hinsert]
    exact Slots.grows_insert hthreaded

theorem grows_acceptAll (hthreaded : s.connections.Threaded frees) (now fuel : Nat) :
    s.connections.Grows (s.acceptAll now fuel).connections := by
  induction fuel generalizing s frees with
  | zero => exact .refl _
  | succ fuel ih =>
      rw [acceptAll]
      split
      · exact .refl _
      split
      · rename_i listener hlistener socket listener' haccept
        rcases (evolves_addConnection { s with listener := some listener' } now socket).threaded
          hthreaded with ⟨_, hthreaded'⟩
        exact (grows_addConnection { s with listener := some listener' } hthreaded now socket).trans
          (ih hthreaded')
      · exact .refl _
      · exact .refl _

/-- A step leaves no more slots than there were or are connections. -/
theorem cells_step {e : Step} (hthreaded : s.connections.Threaded frees)
    (h : s.step fuel e = some s') :
    s'.connections.cells.size ≤ max s.connections.cells.size s'.connectionCount := by
  rcases step_cases h with ⟨_, hretains⟩ | ⟨now, _, rfl⟩
  · rw [hretains.cells]
    exact Nat.le_max_left _ _
  · exact (grows_acceptAll hthreaded now _).cells

/-- The number of slots is bounded by how many connections there were at the same time. -/
theorem cells_run {steps : List Step} {bound : Nat} (hthreaded : s.connections.Threaded frees)
    (hcells : s.connections.cells.size ≤ bound)
    (hbound : ∀ front s', front <+: steps → s.run fuel front = some s' →
      s'.connectionCount ≤ bound)
    (h : s.run fuel steps = some s') : s'.connections.cells.size ≤ bound := by
  induction steps generalizing s frees with
  | nil =>
      cases h
      exact hcells
  | cons e steps ih =>
      rw [run, List.foldlM_cons] at h
      rcases Option.bind_eq_some_iff.mp h with ⟨s₁, hstep, hrest⟩
      rcases (evolves_step hstep).threaded hthreaded with ⟨_, hthreaded₁⟩
      -- the bound is on all front parts of the run, so it is one on those of the rest
      have hfront (front : List Step) : s.run fuel (e :: front) = s₁.run fuel front := by
        rw [run, List.foldlM_cons, hstep]
        rfl
      have hcount : s₁.connectionCount ≤ bound :=
        hbound [e] s₁ (List.prefix_append [e] steps) (hfront [])
      refine ih hthreaded₁ ?_ (fun front s' hprefix hrun => ?_) hrest
      · exact Nat.le_trans (cells_step hthreaded hstep) (Nat.max_le.mpr ⟨hcells, hcount⟩)
      · exact hbound (e :: front) s' (List.cons_prefix_cons.mpr ⟨rfl, hprefix⟩)
          ((hfront front).trans hrun)

/-! ## Identities over a whole run -/

variable {config : ServerConfig} {shared : W} {steps earlier later : List Step}
  {s₁ : Server P W} {c : Connection P} {key : Nat}

/-- An identity whose connection is gone names nobody as long as fewer than `2 ^ 32` others have
been given out after it. -/
theorem gone_of_run {before after : List ConnId}
    (hearlier : run fuel (.new P config shared) earlier = some s₁)
    (hlater : run fuel s₁ later = some s)
    (hissued : history fuel (.new P config shared) earlier = before ++ id :: after)
    (hgone : s₁.connection? id = none)
    (hfew : after.length + (history fuel s₁ later).length < UInt32.size) :
    s.connection? id = none := by
  have hevolves := (evolves_run hearlier).trans (evolves_run hlater)
  rw [hissued, List.append_assoc, List.cons_append] at hevolves
  -- versions repeat only after all of them have been used
  have hnew : id ∉ after ++ history fuel s₁ later :=
    (ConnId.numbered_append.mp hevolves.numbered).2.not_mem (by rw [List.length_append]; exact hfew)
  rcases (evolves_run hearlier).threaded Slots.threaded_empty with ⟨_, hthreaded⟩
  cases hfind : s.connection? id with
  | none => rfl
  | some c =>
      exfalso
      rcases connection?_eq_some.mp hfind with ⟨hget, hid⟩
      rcases (evolves_run hlater).origin hthreaded _ c hget with ⟨c₁, hold, hsame⟩ | ⟨hmem, _⟩
      · -- it would have been there already when it was gone
        rw [connection?_eq_some.mpr ⟨hold, hsame.symm.trans hid⟩] at hgone
        cases hgone
      · exact hnew (List.mem_append_right _ (hid ▸ hmem))

/-- An event for nobody changes nothing. -/
theorem dispatch_of_none {e : Event} (hnone : s.connection? (ConnId.ofKey e.key) = none) :
    s.dispatch fuel now e = some s := by
  rw [dispatch]
  dsimp only
  rw [hnone]

/-- An event for a connection that is gone changes nothing. -/
theorem dispatch_of_gone {e : Event} (hkey : e.key = id.toKey) (hgone : s.connection? id = none) :
    s.dispatch fuel now e = some s :=
  dispatch_of_none (by rw [hkey, ConnId.ofKey_toKey, hgone])

/-- With at most `2 ^ 32 - 2` connections at the same time, no slot is so high that one of its keys
is the key of the listener. -/
theorem toKey_ne_listenerKey (h : run fuel (.new P config shared) steps = some s)
    (hbound : ∀ front s', front <+: steps → run fuel (.new P config shared) front = some s' →
      s'.connectionCount ≤ UInt32.size - 2)
    (hget : s.connections.get? key = some c) : c.link.id.toKey ≠ ConnId.listenerKey := by
  intro hlistener
  have hcells := cells_run Slots.threaded_empty (Nat.zero_le _) hbound h
  have hlt := Slots.lt_size_of_get? hget
  have hslot := ((evolves_run h).issued_of_get? hget).1
  have hhigh := ConnId.slot_of_listenerKey hlistener
  omega

/-- In every state that a server comes to:
* A connection is stored under the slot of its identity, which was given out to it. When a
  connection is accepted, the slot that its identity was made for is the one where it is stored, and
  that slot was free.
* An identity whose connection is gone names nobody as long as fewer than `2 ^ 32` others have been
  given out after it, and events with its key change nothing.
* Keys lead back to identities, so different connections have different keys.
* None of them is the key of the listener if there were never more than `2 ^ 32 - 2` connections at
  the same time. -/
theorem connection_identity (hearlier : run fuel (.new P config shared) earlier = some s₁)
    (hlater : run fuel s₁ later = some s) :
    (∀ key c, s.connections.get? key = some c → c.link.id.slot.toNat = key ∧
      c.link.id ∈ history fuel (.new P config shared) earlier ++ history fuel s₁ later) ∧
    (∀ now socket, (s.addConnection now socket).connections = s.connections ∨
      ∃ c, (s.addConnection now socket).connections = (s.connections.insert c).2 ∧
        s.nextId? = some c.link.id ∧ (s.connections.insert c).1 = c.link.id.slot.toNat ∧
        s.connections.get? c.link.id.slot.toNat = none) ∧
    (∀ before id after, history fuel (.new P config shared) earlier = before ++ id :: after →
      s₁.connection? id = none →
      after.length + (history fuel s₁ later).length < UInt32.size →
      (∀ key c, s.connections.get? key = some c → c.link.id ≠ id) ∧
      ∀ fuel now e, e.key = id.toKey → s.dispatch fuel now e = some s) ∧
    (∀ key c, s.connections.get? key = some c → ConnId.ofKey c.link.id.toKey = c.link.id ∧
      ∀ key' c', s.connections.get? key' = some c' → c'.link.id.toKey = c.link.id.toKey →
        key' = key) ∧
    ((∀ front s', front <+: earlier ++ later → run fuel (.new P config shared) front = some s' →
        s'.connectionCount ≤ UInt32.size - 2) →
      ∀ key c, s.connections.get? key = some c → c.link.id.toKey ≠ ConnId.listenerKey) := by
  have hrun : run fuel (.new P config shared) (earlier ++ later) = some s := by
    rw [run, List.foldlM_append]
    exact Option.bind_eq_some_iff.mpr ⟨s₁, hearlier, hlater⟩
  have hevolves := (evolves_run hearlier).trans (evolves_run hlater)
  have hissued {key : Nat} {c : Connection P} (hget : s.connections.get? key = some c) :=
    hevolves.issued_of_get? hget
  rcases hevolves.threaded Slots.threaded_empty with ⟨_, hthreaded⟩
  refine ⟨fun key c => hissued, fun now socket => ?_, fun before id after hids hgone hfew => ?_,
    fun key c hget => ⟨ConnId.ofKey_toKey _, fun key' c' hget' hkeys => ?_⟩,
    fun hbound key c hget => toKey_ne_listenerKey hrun hbound hget⟩
  · rcases addConnection_cases s now socket with
      ⟨_, _, hsame⟩ | ⟨id, hnext, _, hsame | ⟨c, rfl, hinsert⟩⟩
    · exact .inl hsame
    · exact .inl hsame
    · have hkey := (ConnId.of?_eq_some hnext).2.1
      refine .inr ⟨c, hinsert, hnext, ?_, ?_⟩
      · rw [Slots.insert_fst, hkey]
      · rw [hkey]
        exact hthreaded.get?_nextKey
  · have hgone' := gone_of_run hearlier hlater hids hgone hfew
    refine ⟨fun key c hget hid => ?_, fun fuel now e hkey => dispatch_of_gone hkey hgone'⟩
    -- a connection with the old identity would be found under it
    have hslot : id.slot.toNat = key := hid ▸ (hissued hget).1
    rw [connection?_eq_some.mpr ⟨hslot ▸ hget, hid⟩] at hgone'
    cases hgone'
  · have hids : c'.link.id = c.link.id := by
      rw [← ConnId.ofKey_toKey c'.link.id, hkeys, ConnId.ofKey_toKey]
    rw [← (hissued hget).1, ← (hissued hget').1, hids]

/-- A connection breaks and its slot is used again, though not for the next socket, whose session
does not open. An event for the first connection does not touch the one that has its slot. -/
theorem connection_identity_reused_slot :
    let new : Server Echo Unit := .new Echo { recvBufferSize := 4, sendBufferSize := 4 } ()
    let socket : Socket := { peer := .v4 [127, 0, 0, 1] 80 }
    let accepting (now : Nat) : Step := .event now ⟨ConnId.listenerKey, { readable := true }⟩
    let earlier : List Step := [.start (.ok ()), .network (fun _ s => s) [.ok socket],
      accepting 1, .event 2 ⟨ConnId.toKey ⟨0, 1⟩, { error := true }⟩]
    let later : List Step := [.network (fun _ s => s) [.ok socket.close, .ok socket], accepting 3]
    ∃ s₁ s c, run 4 new earlier = some s₁ ∧ run 4 s₁ later = some s ∧
      history 4 new earlier = [⟨0, 1⟩] ∧ s₁.connection? ⟨0, 1⟩ = none ∧
      history 4 s₁ later = [⟨0, 2⟩, ⟨0, 3⟩] ∧
      s.connections.get? 0 = some c ∧ c.link.id = ⟨0, 3⟩ ∧ c.link.id.toKey ≠ ConnId.listenerKey ∧
      ∀ fuel now e, e.key = ConnId.toKey ⟨0, 1⟩ → s.dispatch fuel now e = some s := by
  intro new socket accepting earlier later
  have hcounts : ∀ n ≤ 6, (run 4 new ((earlier ++ later).take n)).all (·.connectionCount ≤ 1) := by
    decide +kernel
  have hissued : history 4 new earlier = [⟨0, 1⟩] := by decide +kernel
  have hfacts : ((run 4 new earlier).map fun s₁ =>
      ((s₁.connection? ⟨0, 1⟩).isNone, history 4 s₁ later,
        (run 4 s₁ later).bind fun s => (s.connections.get? 0).map (·.link.id))) =
      some (true, [⟨0, 2⟩, ⟨0, 3⟩], some ⟨0, 3⟩) := by
    decide +kernel
  rcases Option.map_eq_some_iff.mp hfacts with ⟨s₁, hearlier, hfacts⟩
  simp only [Prod.mk.injEq, Option.isNone_iff_eq_none] at hfacts
  rcases hfacts with ⟨hgone, hmore, hfind⟩
  rcases Option.bind_eq_some_iff.mp hfind with ⟨s, hlater, hid⟩
  rcases Option.map_eq_some_iff.mp hid with ⟨c, hget, hid⟩
  rcases connection_identity hearlier hlater with ⟨_, _, hstale, _, hlistener⟩
  refine ⟨s₁, s, c, hearlier, hlater, hissued, hgone, hmore, hget, hid,
    hlistener (fun front s' hfront hrun => ?_) 0 c hget,
    (hstale [] ⟨0, 1⟩ [] hissued hgone ?_).2⟩
  · have hcount := hcounts front.length hfront.length_le
    rw [← List.prefix_iff_eq_take.mp hfront, hrun, Option.all_some, decide_eq_true_iff] at hcount
    exact Nat.le_trans hcount (by decide)
  · rw [hmore]
    decide

end Server
end TcpReactor
