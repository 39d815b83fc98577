import TcpReactor.Proofs.Server.Newcomers

namespace TcpReactor

/-! # The events of one batch

* `Server.dispatch_others`: an event for one connection leaves all others alone.
* `Server.Timely`: of a batch no event comes twice, and none too late for its connection.
* `Server.handles_dispatchAll`: after such a batch every connection that was there has dealt with
  its own event, and those who waited have come in. Whether the batch comes to an end depends on the
  same (`Server.answers_of_dispatchAll`).
* `Server.reorder_dispatchAll`: so the order of the events does not matter.
-/

namespace Server

open Connection (initial)

variable {P W : Type} {s s' s₁ : Server P W} {fuel now n : Nat} {i id : ConnId}
  {c : Connection P} {e : Event} {events events' : List Event}

/-! ## The event of a connection -/

/-- What a connection is told by these events. -/
def due (events : List Event) (id : ConnId) : Option Readiness :=
  (events.find? (·.key = id.toKey)).map (·.readiness)

theorem due_cons (e : Event) (events : List Event) (id : ConnId) :
    due (e :: events) id = if e.key = id.toKey then some e.readiness else due events id := by
  rw [due, List.find?_cons]
  by_cases h : e.key = id.toKey
  · simp [h]
  · simp [h, due]

/-- It is an event among them that tells it. -/
theorem mem_of_due {r : Readiness} (h : due events id = some r) : ⟨id.toKey, r⟩ ∈ events := by
  induction events with
  | nil => cases h
  | cons e events ih =>
      rw [due_cons] at h
      split at h
      · cases h
        rw [← ‹e.key = id.toKey›]
        exact List.mem_cons_self
      · exact List.mem_cons_of_mem _ (ih h)

/-- If no key comes twice, then every event is heard. -/
theorem due_eq_some (hnodup : (events.map (·.key)).Nodup) {r : Readiness} :
    due events id = some r ↔ ⟨id.toKey, r⟩ ∈ events := by
  refine ⟨mem_of_due, fun hmem => ?_⟩
  induction events with
  | nil => cases hmem
  | cons e events ih =>
      rw [List.map_cons, List.nodup_cons] at hnodup
      rw [due_cons]
      rcases List.mem_cons.mp hmem with rfl | hmem
      · exact if_pos rfl
      · -- an earlier event with this key would be the same key twice
        rw [if_neg, ih hnodup.2 hmem]
        intro hkey
        exact hnodup.1 (List.mem_map.mpr ⟨_, hmem, hkey.symm⟩)

theorem due_perm (hnodup : (events.map (·.key)).Nodup) (h : events.Perm events') (id : ConnId) :
    due events id = due events' id := by
  have hnodup' : (events'.map (·.key)).Nodup := (h.map _).nodup_iff.mp hnodup
  refine Option.ext fun r => ?_
  rw [due_eq_some hnodup, due_eq_some hnodup', h.mem_iff]

/-! ## One event -/

section

variable [Protocol P W]

/-- An event for one connection leaves all others alone, and what is left of those that are gone. -/
theorem dispatch_others (hP : Protocol.Separate P W) (h : Filed s)
    (hs : s.dispatch fuel now e = some s') :
    Filed s' ∧ Retains s s' ∧ Steady s s' ∧ s'.connectionCount ≤ s.connectionCount ∧
    (∀ id ≠ ConnId.ofKey e.key, s'.connection? id = s.connection? id) ∧
    s'.pipes = s.pipes.map (·.bind fun c => if c.link.id = ConnId.ofKey e.key
      then c.after s.shared fuel now (some e.readiness) else .attached c) := by
  have hretains := retains_dispatch hs
  refine ⟨h.retains hretains, hretains, ?_⟩
  -- nobody has the identity and nobody changes, or the one who has it is put back or dropped
  cases hfind : s.connection? (ConnId.ofKey e.key) with
  | none =>
      rw [dispatch_of_none hfind] at hs
      cases hs
      refine ⟨.refl s, Nat.le_refl _, fun _ _ => rfl, ?_⟩
      rw [h.map_bind_congr (g := Pipe.attached), Pipe.map_bind_attached]
      intro c hc
      refine if_neg fun hid => ?_
      rw [hid, hfind] at hc
      cases hc
  | some c =>
      rw [dispatch_eq hfind] at hs
      rcases Option.map_eq_some_iff.mp hs with ⟨d, hreact, rfl⟩
      have hid : d.handler.link.id = ConnId.ofKey e.key :=
        (id_react hreact).trans (connection?_eq_some.mp hfind).2
      refine ⟨steady_finish _ (react_keeps hP hreact).1, count_finish h hfind hid,
        fun id hne => connection?_finish hfind hid hne, ?_⟩
      rw [pipes_finish h hfind]
      refine h.map_bind_congr fun c' hc' => ?_
      split
      · rename_i hsame
        rw [hsame, hfind] at hc'
        cases hc'
        exact (Connection.after_some hreact).symm
      · rfl

end

/-! ## Events in time -/

/-- No event comes twice, and those that are not for the listener are for connections that are
there. There is room for whoever waits. -/
structure Timely (events : List Event) (s : Server P W) : Prop where
  filed : Filed s
  room : Room s.waiting s
  nodup : (events.map (·.key)).Nodup
  present : ∀ e ∈ events, e.key ≠ ConnId.listenerKey →
    ∃ id c, e.key = id.toKey ∧ s.connection? id = some c

/-- No connection that is there has the key of the listener. -/
theorem Room.toKey_ne (hroom : Room n s) (hfind : s.connection? id = some c) :
    id.toKey ≠ ConnId.listenerKey := by
  intro hkey
  have hlt := Slots.lt_size_of_get? (connection?_eq_some.mp hfind).1
  have hhigh := ConnId.slot_of_listenerKey hkey
  have hcells := hroom.cells
  omega

namespace Timely

theorem perm (h : Timely events s) (hperm : events.Perm events') : Timely events' s where
  filed := h.filed
  room := h.room
  nodup := (hperm.map _).nodup_iff.mp h.nodup
  present e he := h.present e (hperm.mem_iff.mpr he)

theorem key_ne (h : Timely (e :: events) s) {e' : Event} (he' : e' ∈ events) :
    e.key ≠ e'.key := fun hsame =>
  (List.nodup_cons.mp h.nodup).1 (List.mem_map.mpr ⟨e', he', hsame.symm⟩)

/-- The state may change as long as those are there whom later events are for. -/
theorem later (h : Timely (e :: events) s) (hfiled : Filed s₁) (hroom : Room s₁.waiting s₁)
    (hfound : ∀ id c, s.connection? id = some c → e.key ≠ id.toKey →
      s₁.connection? id = some c) : Timely events s₁ where
  filed := hfiled
  room := hroom
  nodup := (List.nodup_cons.mp h.nodup).2
  present e' he' hkey := by
    rcases h.present e' (List.mem_cons_of_mem _ he') hkey with ⟨id, c, hid, hfind⟩
    exact ⟨id, c, hid, hfound id c hfind (hid ▸ h.key_ne he')⟩

/-- Behind the event of a connection there is no other for it. -/
theorem due_of_key (h : Timely (e :: events) s) (hkey : e.key = id.toKey) :
    due events id = none := by
  cases hdue : due events id with
  | none => rfl
  | some r => exact absurd hkey (h.key_ne (mem_of_due hdue))

/-- Behind the event of the listener, who is not there is told nothing. -/
theorem due_of_none (h : Timely (e :: events) s) (hkey : e.key = ConnId.listenerKey)
    (hnone : s.connection? id = none) : due events id = none := by
  cases hdue : due events id with
  | none => rfl
  | some r =>
      have hmem := mem_of_due hdue
      rcases h.present _ (List.mem_cons_of_mem _ hmem) (hkey ▸ (h.key_ne hmem).symm) with
        ⟨id', c, hid, hfind⟩
      rw [← ConnId.toKey_inj.mp hid, hnone] at hfind
      cases hfind

end Timely

variable [Protocol P W]

/-- Every connection that is told something comes to an end with it. -/
def Answers (fuel now : Nat) (events : List Event) (s : Server P W) : Prop :=
  ∀ e ∈ events, ∀ id c, e.key = id.toKey → s.connection? id = some c →
    ∃ d, react fuel e.readiness (c.driven s.shared now) = some d

/-- Who comes in with these events. -/
def admittedBy (events : List Event) (s : Server P W) : List Socket :=
  if ConnId.listenerKey ∈ events.map (·.key) then s.listener.elim [] Listener.admitted else []

/-- Every connection has dealt with its own event, and who has waited for the listener is there. -/
structure Handles (fuel now : Nat) (events : List Event) (s s' : Server P W) : Prop where
  filed : Filed s'
  cells : s'.connections.cells.size ≤ UInt32.size - 2
  config : s'.config = s.config
  shared : s'.shared = s.shared
  running : s'.running = s.running
  listener : s'.listener =
    if ConnId.listenerKey ∈ events.map (·.key) then s.listener.map Listener.rest else s.listener
  pipes : ∃ fresh, s'.pipes = s.pipes.map (·.bind fun c =>
      c.after s.shared fuel now (due events c.link.id)) + fresh ∧
    fresh.map Pipe.anonymous = (s.admittedBy events : Multiset Socket).map fun socket =>
      (initial P s.config s.shared now ⟨0, 0⟩ socket).enrolled s.shared now

/-! ### The two kinds of events -/

/-- An event of the listener. -/
theorem Timely.accept (hP : Protocol.Separate P W) (h : Timely (e :: events) s) (now : Nat) :
    Timely events (s.acceptAll now (s.waiting + 1)) ∧
      Welcomes now (s.listener.elim [] Listener.admitted) s (s.acceptAll now (s.waiting + 1)) ∧
      (s.acceptAll now (s.waiting + 1)).listener = s.listener.map Listener.rest := by
  cases hlistener : s.listener with
  | none =>
      have hsame : s.acceptAll now (s.waiting + 1) = s := by rw [acceptAll, hlistener]
      have hnobody := welcomes_nobody s now s.listener
      rw [hsame]
      exact ⟨h.later h.filed h.room fun _ _ hfind _ => hfind, hnobody, hlistener⟩
  | some listener =>
      have hwaiting : s.waiting = listener.pending.length := by rw [waiting, hlistener]
      have hroom := h.room
      rw [hwaiting] at hroom ⊢
      rcases welcomes_acceptAll hP h.filed hlistener hroom (Nat.lt_succ_self _) with
        ⟨hwelcomes, hrest, hroom'⟩
      -- room was kept for all who wait, so there is still room when they have come in
      refine ⟨h.later (h.filed.evolves (evolves_acceptAll s now _)) ?_ fun id c hfind _ =>
        hwelcomes.found id c hfind, hwelcomes, hrest⟩
      rw [waiting, hrest]
      exact hroom'

/-- An event of a connection is none of another. -/
theorem connection?_dispatch {id' : ConnId} (hP : Protocol.Separate P W) (h : Filed s)
    (hs : s.dispatch fuel now e = some s₁) (hkey : e.key = id.toKey) (hne : e.key ≠ id'.toKey) :
    s₁.connection? id' = s.connection? id' := by
  rcases dispatch_others hP h hs with ⟨_, _, _, _, hothers, _⟩
  refine hothers id' ?_
  rintro rfl
  exact hne (by rw [hkey, ConnId.ofKey_toKey])

/-- An event of a connection. -/
theorem Timely.dispatch (hP : Protocol.Separate P W) (h : Timely (e :: events) s)
    (hkey : e.key = id.toKey) (hs : s.dispatch fuel now e = some s₁) : Timely events s₁ := by
  rcases dispatch_others hP h.filed hs with ⟨hfiled, hretains, hsteady, hcount, _, _⟩
  refine h.later hfiled ⟨?_, ?_⟩ fun id' c hfind hne =>
    (connection?_dispatch hP h.filed hs hkey hne).trans hfind
  · rw [hretains.cells]
    exact h.room.cells
  · rw [waiting, hsteady.listener]
    exact Nat.le_trans (Nat.add_le_add_right hcount _) h.room.count

/-- The later events find those they are for as they were before. -/
theorem Timely.answers_iff (h : Timely (e :: events) s) (h₁ : Timely events s₁)
    (hshared : s₁.shared = s.shared)
    (hfound : ∀ id c, s.connection? id = some c → e.key ≠ id.toKey →
      s₁.connection? id = some c) :
    Answers fuel now events s₁ ↔ Answers fuel now events s := by
  rw [Answers, Answers, hshared]
  constructor
  · intro hanswers e' he' id c hkey hfind
    exact hanswers e' he' id c hkey (hfound id c hfind (hkey ▸ h.key_ne he'))
  · intro hanswers e' he' id c hkey hfind
    -- whom a later event is for was there before the batch, and this event was not for it
    rcases h.present e' (List.mem_cons_of_mem _ he') (hkey ▸ h₁.room.toKey_ne hfind) with
      ⟨id₀, c₀, hkey₀, hfind₀⟩
    obtain rfl := ConnId.toKey_inj.mp (hkey₀.symm.trans hkey)
    have hfound₀ := hfound id₀ c₀ hfind₀ (hkey ▸ h.key_ne he')
    rw [hfind] at hfound₀
    cases hfound₀
    exact hanswers e' he' id₀ c hkey hfind₀

/-- Who comes in has no event in this batch. -/
theorem Handles.accept (hP : Protocol.Separate P W) (h : Timely (e :: events) s)
    (hkey : e.key = ConnId.listenerKey)
    (h' : Handles fuel now events (s.acceptAll now (s.waiting + 1)) s') :
    Handles fuel now (e :: events) s s' := by
  rcases h.accept hP now with ⟨_, hwelcomes, hlistener⟩
  have hlast : ConnId.listenerKey ∉ events.map (·.key) := hkey ▸ (List.nodup_cons.mp h.nodup).1
  have hfirst : ConnId.listenerKey ∈ (e :: events).map (·.key) := hkey ▸ List.mem_cons_self
  refine ⟨h'.filed, h'.cells, h'.config.trans hwelcomes.config,
    h'.shared.trans hwelcomes.shared, h'.running.trans hwelcomes.running, ?_, ?_⟩
  · rw [h'.listener, if_neg hlast, if_pos hfirst, hlistener]
  · -- the listener's key comes once, so no later event lets anybody in
    rcases hwelcomes.pipes with ⟨fresh, hpipes, hfresh, hnew⟩
    rcases h'.pipes with ⟨fresh', hpipes', hfresh'⟩
    rw [admittedBy, if_neg hlast] at hfresh'
    rw [Multiset.map_eq_zero.mp hfresh', Multiset.add_zero, hpipes, Multiset.map_add,
      hwelcomes.shared] at hpipes'
    refine ⟨fresh, ?_, by rw [admittedBy, if_pos hfirst, hfresh]⟩
    rw [hpipes']
    congr 1
    · refine h.filed.map_bind_congr fun c hfind => ?_
      rw [due_cons, if_neg fun hsame => h.room.toKey_ne hfind (hsame.symm.trans hkey)]
    · -- a newcomer has an identity that nobody had, so the other events are not for it
      conv_rhs => rw [← Multiset.map_id fresh]
      refine Multiset.map_congr rfl fun p hp => ?_
      cases p with
      | released socket => rfl
      | attached c =>
          show c.after s.shared fuel now (due events c.link.id) = _
          rw [h.due_of_none hkey (hnew c hp)]
          rfl

/-- A connection has dealt with its event, and there is no other for it. -/
theorem Handles.dispatch (hP : Protocol.Separate P W) (h : Timely (e :: events) s)
    (hkey : e.key = id.toKey) (hne : e.key ≠ ConnId.listenerKey)
    (hs : s.dispatch fuel now e = some s₁) (h' : Handles fuel now events s₁ s') :
    Handles fuel now (e :: events) s s' := by
  rcases dispatch_others hP h.filed hs with ⟨_, _, hsteady, _, _, hpipes⟩
  have hmem : ConnId.listenerKey ∈ (e :: events).map (·.key) ↔
      ConnId.listenerKey ∈ events.map (·.key) := by
    simp [Ne.symm hne]
  refine ⟨h'.filed, h'.cells, h'.config.trans hsteady.config, h'.shared.trans hsteady.shared,
    h'.running.trans hsteady.running, ?_, ?_⟩
  · simp only [h'.listener, hsteady.listener, hmem]
  · rcases h'.pipes with ⟨fresh, hpipes', hfresh⟩
    refine ⟨fresh, ?_, ?_⟩
    · -- two passes over the connections in one: this event first, then the later ones
      rw [hpipes', hpipes, Multiset.map_map, hsteady.shared]
      refine congrArg (· + fresh) (Multiset.map_congr rfl fun p _ => ?_)
      rw [Function.comp, Pipe.bind_bind]
      congr 1
      funext c
      have hid : c.link.id = ConnId.ofKey e.key ↔ e.key = c.link.id.toKey := by
        rw [hkey, ConnId.ofKey_toKey, ConnId.toKey_inj, eq_comm]
      simp only [due_cons, hid]
      split
      · rename_i hown
        cases hafter : c.after s.shared fuel now (some e.readiness) with
        | released socket => rfl
        | attached c' =>
            show c'.after s.shared fuel now (due events c'.link.id) = _
            -- it goes on under its identity, for which there is no other event
            rw [Connection.id_after hafter, h.due_of_key hown]
            rfl
      · rfl
    · rw [hfresh, hsteady.config, hsteady.shared]
      simp only [admittedBy, hsteady.listener, hmem]

/-! ### All events -/

theorem Answers.of_cons (h : Answers fuel now (e :: events) s) : Answers fuel now events s :=
  fun e' he' => h e' (List.mem_cons_of_mem _ he')

theorem handles_dispatchAll (hP : Protocol.Separate P W) (h : Timely events s)
    (hanswers : Answers fuel now events s) :
    ∃ s', dispatchAll fuel now events s = some s' ∧ Handles fuel now events s s' := by
  induction events generalizing s with
  | nil =>
      refine ⟨s, rfl, h.filed, h.room.cells, rfl, rfl, rfl, rfl, 0, ?_, rfl⟩
      rw [Multiset.add_zero]
      exact (Pipe.map_bind_attached s.pipes).symm
  | cons e events ih =>
      -- behind the first event the others are still in time, and find whom they are for unchanged
      rw [dispatchAll]
      by_cases hkey : e.key = ConnId.listenerKey
      · rw [if_pos hkey]
        rcases h.accept hP now with ⟨htimely, hwelcomes, _⟩
        have hrest := (h.answers_iff htimely hwelcomes.shared fun id c hfind _ =>
          hwelcomes.found id c hfind).mpr hanswers.of_cons
        rcases ih htimely hrest with ⟨s', hs', hhandles⟩
        exact ⟨s', hs', hhandles.accept hP h hkey⟩
      · rw [if_neg hkey]
        rcases h.present e List.mem_cons_self hkey with ⟨id, c, hid, hfind⟩
        rcases hanswers e List.mem_cons_self id c hid hfind with ⟨d, hreact⟩
        have hs : s.dispatch fuel now e = some (s.finish (ConnId.ofKey e.key) d) := by
          rw [dispatch_eq (by rw [hid, ConnId.ofKey_toKey, hfind]), hreact]
          rfl
        have htimely := h.dispatch hP hid hs
        have hrest := (h.answers_iff htimely (dispatch_others hP h.filed hs).2.2.1.shared
          fun id' c hfind hne => (connection?_dispatch hP h.filed hs hid hne).trans hfind).mpr
          hanswers.of_cons
        rcases ih htimely hrest with ⟨s', hs', hhandles⟩
        rw [hs]
        exact ⟨s', hs', hhandles.dispatch hP h hid hkey hs⟩

/-- A batch comes to an end only if every connection does. -/
theorem answers_of_dispatchAll (hP : Protocol.Separate P W) (h : Timely events s)
    (hs : dispatchAll fuel now events s = some s') : Answers fuel now events s := by
  -- on the events; that the later ones are answered is carried back over the first
  induction events generalizing s with
  | nil => exact fun e he => absurd he (List.not_mem_nil)
  | cons e events ih =>
      rw [dispatchAll] at hs
      by_cases hkey : e.key = ConnId.listenerKey
      · rw [if_pos hkey] at hs
        rcases h.accept hP now with ⟨htimely, hwelcomes, _⟩
        have hrest := (h.answers_iff htimely hwelcomes.shared fun id c hfind _ =>
          hwelcomes.found id c hfind).mp (ih htimely hs)
        refine List.forall_mem_cons.mpr ⟨fun id c hid hfind => ?_, hrest⟩
        exact absurd (hid.symm.trans hkey) (h.room.toKey_ne hfind)
      · rw [if_neg hkey] at hs
        rcases Option.bind_eq_some_iff.mp hs with ⟨s₁, hs₁, hs⟩
        rcases h.present e List.mem_cons_self hkey with ⟨id, _, hid, _⟩
        have htimely := h.dispatch hP hid hs₁
        have hrest := (h.answers_iff htimely (dispatch_others hP h.filed hs₁).2.2.1.shared
          fun id' c hfind hne => (connection?_dispatch hP h.filed hs₁ hid hne).trans hfind).mp
          (ih htimely hs)
        refine List.forall_mem_cons.mpr ⟨fun id c hid hfind => ?_, hrest⟩
        rw [dispatch_eq (by rw [hid, ConnId.ofKey_toKey, hfind])] at hs₁
        rcases Option.map_eq_some_iff.mp hs₁ with ⟨d, hreact, _⟩
        exact ⟨d, hreact⟩

/-- Two outcomes differ only in which slots, and so which identities, newcomers have got. -/
structure Like (s s' : Server P W) (kept : Multiset (Pipe P)) : Prop where
  config : s'.config = s.config
  shared : s'.shared = s.shared
  running : s'.running = s.running
  listener : s'.listener = s.listener
  pipes : ∃ fresh fresh', s.pipes = kept + fresh ∧ s'.pipes = kept + fresh' ∧
    fresh.map Pipe.anonymous = fresh'.map Pipe.anonymous

/-- In whichever order the events come, every connection does the same about its own. -/
theorem reorder_dispatchAll (hP : Protocol.Separate P W) (h : Timely events s)
    (hperm : events.Perm events') (hs : dispatchAll fuel now events s = some s₁) :
    ∃ s₂, dispatchAll fuel now events' s = some s₂ ∧ Like s₁ s₂ (s.pipes.map (·.bind fun c =>
      c.after s.shared fuel now (due events c.link.id))) := by
  have hanswers := answers_of_dispatchAll hP h hs
  rcases handles_dispatchAll hP h hanswers with ⟨s₁', hs₁, hhandles⟩
  have hanswers' : Answers fuel now events' s := fun e he => hanswers e (hperm.mem_iff.mpr he)
  rcases handles_dispatchAll hP (h.perm hperm) hanswers' with ⟨s₂, hs₂, hhandles'⟩
  rw [hs] at hs₁
  cases hs₁
  -- what a batch comes to is said by `due` and `admittedBy`, which do not look at the order
  have hmem : ConnId.listenerKey ∈ events.map (·.key) ↔
      ConnId.listenerKey ∈ events'.map (·.key) := (hperm.map _).mem_iff
  refine ⟨s₂, hs₂, hhandles'.config.trans hhandles.config.symm,
    hhandles'.shared.trans hhandles.shared.symm, hhandles'.running.trans hhandles.running.symm,
    ?_, ?_⟩
  · simp only [hhandles.listener, hhandles'.listener, hmem]
  · rcases hhandles.pipes with ⟨fresh, hpipes, hfresh⟩
    rcases hhandles'.pipes with ⟨fresh', hpipes', hfresh'⟩
    refine ⟨fresh, fresh', hpipes, ?_, ?_⟩
    · rw [hpipes']
      simp only [due_perm h.nodup hperm]
    · rw [hfresh, hfresh']
      simp only [admittedBy, hmem]

end Server
end TcpReactor
