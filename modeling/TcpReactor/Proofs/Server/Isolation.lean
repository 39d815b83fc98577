import TcpReactor.Proofs.Server.Endings

namespace TcpReactor

/-! # Connections are isolated from each other

What a client sees of a server is its own pipes (`Pipe.viewOf`). Two runs are compared that differ
only in what the sockets of other clients are like (`Server.Round.Same`): then the client sees the
same in both (`Server.alike_passes`). Together with what an event leaves alone, and with the order
of events that does not matter, this is `Server.connections_isolated`.
-/

/-! ## What one client sees -/

namespace Pipe

variable {P : Type} {peer : Address}

/-- The pipes of one peer, without the identities of their connections. -/
def viewOf (peer : Address) (pipes : Multiset (Pipe P)) : Multiset (Pipe P) :=
  (pipes.map anonymous).filter (·.peer = peer)

theorem viewOf_add (pipes pipes' : Multiset (Pipe P)) :
    viewOf peer (pipes + pipes') = viewOf peer pipes + viewOf peer pipes' := by
  rw [viewOf, Multiset.map_add, Multiset.filter_add, viewOf, viewOf]

/-- What becomes of each connection by itself becomes of those of the peer. -/
theorem viewOf_bind {f g : Connection P → Pipe P} (pipes : Multiset (Pipe P))
    (hpeer : ∀ c, (f c).peer = (attached c).peer)
    (hf : ∀ c, (attached c).peer = peer → (f c).anonymous = g c.anonymous) :
    viewOf peer (pipes.map (·.bind f)) = (viewOf peer pipes).map (·.bind g) := by
  have hbind (p : Pipe P) : (p.bind f).peer = p.peer := by
    cases p with
    | attached c => exact hpeer c
    | released socket => rfl
  rw [viewOf, viewOf, Multiset.map_map, Multiset.filter_map, Multiset.filter_map, Multiset.map_map]
  -- whose pipes they are does not change
  have hfilter : pipes.filter ((fun p : Pipe P => p.peer = peer) ∘ (anonymous ∘ (·.bind f))) =
      pipes.filter ((fun p : Pipe P => p.peer = peer) ∘ anonymous) := by
    refine Multiset.filter_congr fun p _ => ?_
    rw [Function.comp, Function.comp, Function.comp, peer_anonymous, hbind, peer_anonymous]
  rw [hfilter]
  refine Multiset.map_congr rfl fun p hp => ?_
  have hp' : p.anonymous.peer = peer := (Multiset.mem_filter.mp hp).2
  rw [peer_anonymous] at hp'
  cases p with
  | attached c => exact hf c hp'
  | released socket => rfl

end Pipe

namespace Server

open Connection (initial)

variable {P W : Type} {s s' s₁ s₂ s₁' s₂' : Server P W} {fuel now : Nat} {peer : Address}
  {c : Connection P}

/-! ## Runs that one client cannot tell apart -/

/-- Whoever waits is the same, or somebody else who comes from the same place in both runs. -/
inductive SameCaller (peer : Address) : Except IoError Socket → Except IoError Socket → Prop
  | failed (e : IoError) : SameCaller peer (.error e) (.error e)
  | socket {x y : Socket} (hpeer : x.peer = y.peer) (hsame : x.peer = peer → x = y) :
      SameCaller peer (.ok x) (.ok y)

theorem SameCaller.refl (peer : Address) (x : Except IoError Socket) : SameCaller peer x x := by
  cases x with
  | error e => exact .failed e
  | ok socket => exact .socket rfl fun _ => rfl

/-- The sockets are the same, or those of somebody else. -/
def SameSocket (peer : Address) (x y : Socket) : Prop :=
  x.peer = y.peer ∧ (x.peer = peer → x = y)

theorem forall₂_front {pending pending' : List (Except IoError Socket)}
    (h : List.Forall₂ (SameCaller peer) pending pending') :
    List.Forall₂ (SameSocket peer) (Listener.front pending) (Listener.front pending') := by
  induction h with
  | nil => exact .nil
  | cons hcaller _ ih =>
      cases hcaller with
      | failed e => exact .nil
      | socket hpeer hsame =>
          refine .cons ⟨hpeer, fun hp => ?_⟩ ih
          rw [hsame hp]

theorem forall₂_back {pending pending' : List (Except IoError Socket)}
    (h : List.Forall₂ (SameCaller peer) pending pending') :
    List.Forall₂ (SameCaller peer) (Listener.back pending) (Listener.back pending') := by
  induction h with
  | nil => exact .nil
  | cons hcaller hrest ih =>
      cases hcaller with
      | failed e => exact hrest
      | socket _ _ => exact ih

theorem forall₂_toOption {pending pending' : List (Except IoError Socket)}
    (h : List.Forall₂ (SameCaller peer) pending pending') :
    List.Forall₂ (SameSocket peer) (pending.filterMap Except.toOption)
      (pending'.filterMap Except.toOption) := by
  induction h with
  | nil => exact .nil
  | cons hcaller _ ih =>
      cases hcaller with
      | failed e => exact ih
      | socket hpeer hsame => exact .cons ⟨hpeer, hsame⟩ ih

/-- Only one's own sockets are seen. -/
theorem filter_map_sockets {xs ys : List Socket} (h : List.Forall₂ (SameSocket peer) xs ys)
    {f : Socket → Pipe P} (hf : ∀ x, (f x).peer = x.peer) :
    ((xs : Multiset Socket).map f).filter (·.peer = peer) =
      ((ys : Multiset Socket).map f).filter (·.peer = peer) := by
  rw [Multiset.map_coe, Multiset.map_coe, Multiset.filter_coe, Multiset.filter_coe]
  refine congrArg _ ?_
  induction h with
  | nil => rfl
  | @cons x y xs ys hsocket _ ih =>
      -- two sockets of somebody else may differ, but neither is seen
      rw [List.map_cons, List.map_cons, List.filter_cons, List.filter_cons, ih, hf, hf,
        ← hsocket.1]
      split
      · rename_i hpeer
        rw [hsocket.2 (decide_eq_true_iff.mp hpeer)]
      · rfl

/-- The rounds differ only in what the sockets of others are like. -/
inductive Round.Same (peer : Address) : Round → Round → Prop
  | start (bound : Except IoError Unit) : Same peer (.start bound) (.start bound)
  | stop (now : Nat) : Same peer (.stop now) (.stop now)
  | network {f f' : ConnId → Socket → Socket} {pending pending' : List (Except IoError Socket)}
      (hpeer : ∀ id socket, (f id socket).peer = socket.peer)
      (hpeer' : ∀ id socket, (f' id socket).peer = socket.peer)
      (hsame : ∀ id id' socket, socket.peer = peer → f id socket = f' id' socket)
      (hpending : List.Forall₂ (SameCaller peer) pending pending') :
      Same peer (.network f pending) (.network f' pending')
  | events {poll poll' : Socket → Interest → Option Readiness} (listening : Option Readiness)
      (now : Nat)
      (hsame : ∀ socket interest, socket.peer = peer →
        poll socket interest = poll' socket interest) :
      Same peer (.events poll listening now) (.events poll' listening now)
  | sweep (now : Nat) : Same peer (.sweep now) (.sweep now)

/-- The listeners are the same but for what the sockets of others are like. -/
structure SameListener (peer : Address) (l l' : Listener) : Prop where
  isOpen : l.isOpen = l'.isOpen
  pending : List.Forall₂ (SameCaller peer) l.pending l'.pending

theorem SameListener.rest {l l' : Listener} (h : SameListener peer l l') :
    SameListener peer l.rest l'.rest := by
  rw [Listener.rest, Listener.rest, ← h.isOpen]
  split
  · exact ⟨rfl, forall₂_back h.pending⟩
  · exact h

theorem SameListener.admitted {l l' : Listener} (h : SameListener peer l l') :
    List.Forall₂ (SameSocket peer) l.admitted l'.admitted := by
  rw [Listener.admitted, Listener.admitted, ← h.isOpen]
  split
  · exact forall₂_front h.pending
  · exact .nil

/-- The peer sees the same of both servers, and so it will be. -/
structure Alike (peer : Address) (s s' : Server P W) : Prop where
  config : s.config = s'.config
  shared : s.shared = s'.shared
  running : s.running = s'.running
  listener : Option.Rel (SameListener peer) s.listener s'.listener
  view : Pipe.viewOf peer s.pipes = Pipe.viewOf peer s'.pipes

/-- Both servers listen, or neither does. -/
theorem Alike.listener_cases (h : Alike peer s₁ s₂) :
    (s₁.listener = none ∧ s₂.listener = none) ∨
    ∃ l₁ l₂, s₁.listener = some l₁ ∧ s₂.listener = some l₂ ∧ SameListener peer l₁ l₂ := by
  have hlistener := h.listener
  rcases hl₁ : s₁.listener with _ | l₁
  all_goals
    rcases hl₂ : s₂.listener with _ | l₂
    all_goals
      rw [hl₁, hl₂] at hlistener
      cases hlistener
  · exact .inl ⟨rfl, rfl⟩
  · exact .inr ⟨l₁, l₂, rfl, rfl, ‹_›⟩

/-! ## Round by round -/

theorem alike_start (h : Alike peer s₁ s₂) (bound : Except IoError Unit) :
    Alike peer (s₁.start bound).2 (s₂.start bound).2 := by
  rw [start, start]
  rcases h.listener_cases with ⟨hl₁, hl₂⟩ | ⟨l₁, l₂, hl₁, hl₂, _⟩
  · rw [hl₁, hl₂]
    cases bound with
    | error e => exact h
    | ok _ => exact ⟨h.config, h.shared, rfl, .some ⟨rfl, .nil⟩, h.view⟩
  · rw [hl₁, hl₂]
    exact h

/-- The network moves the sockets of the peer in the same way, whoever they belong to. -/
theorem viewOf_move {f g : ConnId → Socket → Socket} (s : Server P W)
    (pending : List (Except IoError Socket))
    (hpeer : ∀ id socket, (g id socket).peer = socket.peer)
    (hsame : ∀ id socket, socket.peer = peer → g id socket = f ⟨0, 0⟩ socket) :
    Pipe.viewOf peer (s.move g pending).pipes =
      (Pipe.viewOf peer s.pipes).map (·.bind fun c => .attached (c.move (f ⟨0, 0⟩))) := by
  rw [pipes_move]
  refine Pipe.viewOf_bind _ (fun c => hpeer _ _) fun c hc => ?_
  show Pipe.attached (Connection.anonymous (c.move (g c.link.id))) = _
  rw [Connection.move, hsame c.link.id c.session.transport hc]
  rfl

theorem alike_network (h : Alike peer s₁ s₂) {f f' : ConnId → Socket → Socket}
    {pending pending' : List (Except IoError Socket)}
    (hsame : Round.Same peer (.network f pending) (.network f' pending')) :
    Alike peer (s₁.move f pending) (s₂.move f' pending') := by
  rcases hsame with _ | _ | ⟨hpeer, hpeer', hsocket, hpending⟩
  refine ⟨h.config, h.shared, h.running, ?_, ?_⟩
  · show Option.Rel _ (s₁.listener.map _) (s₂.listener.map _)
    rcases h.listener_cases with ⟨hl₁, hl₂⟩ | ⟨l₁, l₂, hl₁, hl₂, hl⟩
    · rw [hl₁, hl₂]
      exact .none
    · rw [hl₁, hl₂]
      exact .some ⟨hl.isOpen, hpending⟩
  · -- what the network does to the peer's sockets does not depend on their identity
    have hown (id : ConnId) (socket : Socket) (hs : socket.peer = peer) :
        f id socket = f ⟨0, 0⟩ socket :=
      (hsocket id ⟨0, 0⟩ socket hs).trans (hsocket ⟨0, 0⟩ ⟨0, 0⟩ socket hs).symm
    have hown' (id : ConnId) (socket : Socket) (hs : socket.peer = peer) :
        f' id socket = f ⟨0, 0⟩ socket := (hsocket ⟨0, 0⟩ id socket hs).symm
    rw [viewOf_move s₁ pending hpeer hown, viewOf_move s₂ pending' hpeer' hown', h.view]

theorem Alike.callers (h : Alike peer s₁ s₂) :
    List.Forall₂ (SameSocket peer) s₁.callers s₂.callers := by
  rw [Server.callers, Server.callers]
  rcases h.listener_cases with ⟨hl₁, hl₂⟩ | ⟨l₁, l₂, hl₁, hl₂, hl⟩
  · rw [hl₁, hl₂]
    exact .nil
  · rw [hl₁, hl₂]
    exact forall₂_toOption hl.pending

section

variable [Protocol P W] (hP : Protocol.Separate P W)
include hP

theorem alike_stop (h : Alike peer s₁ s₂) (hs₁ : Filed s₁) (hs₂ : Filed s₂) (now : Nat) :
    Alike peer (s₁.stop now) (s₂.stop now) := by
  rcases pipes_stop hP hs₁ now with ⟨hconfig, hshared, hpipes⟩
  rcases pipes_stop hP hs₂ now with ⟨hconfig', hshared', hpipes'⟩
  rcases stop_spec hs₁ now with ⟨_, hlistener, hrunning⟩
  rcases stop_spec hs₂ now with ⟨_, hlistener', hrunning'⟩
  refine ⟨?_, ?_, ?_, ?_, ?_⟩
  · rw [hconfig, hconfig', h.config]
  · rw [hshared, hshared', h.shared]
  · rw [hrunning, hrunning']
  · rw [hlistener, hlistener']
    exact .none
  · -- closing a connection commutes with looking only at the peer's
    have hshut (pipes : Multiset (Pipe P)) :
        Pipe.viewOf peer (pipes.map (·.bind (Connection.shut s₁.shared now))) =
          (Pipe.viewOf peer pipes).map (·.bind (Connection.shut s₁.shared now)) :=
      Pipe.viewOf_bind pipes (Connection.peer_shut hP s₁.shared now)
        fun c _ => (Connection.shut_anonymous _ _ c).symm
    let turned (x : Socket) : Pipe P := .released x.close
    have hturned : Pipe.viewOf peer ((s₁.callers : Multiset Socket).map turned) =
        Pipe.viewOf peer ((s₂.callers : Multiset Socket).map turned) := by
      rw [Pipe.viewOf, Pipe.viewOf, Multiset.map_map, Multiset.map_map]
      exact filter_map_sockets h.callers fun _ => rfl
    rw [hpipes, hpipes', Pipe.viewOf_add, Pipe.viewOf_add, ← h.shared, hshut, hshut, h.view,
      hturned]

theorem alike_sweep (h : Alike peer s₁ s₂) (hs₁ : Filed s₁) (hs₂ : Filed s₂) (now : Nat) :
    Alike peer (s₁.evictIdle now) (s₂.evictIdle now) := by
  rcases pipes_evictIdle hP hs₁ now with ⟨hsteady, hpipes⟩
  rcases pipes_evictIdle hP hs₂ now with ⟨hsteady', hpipes'⟩
  refine ⟨?_, ?_, ?_, ?_, ?_⟩
  · rw [hsteady.config, hsteady'.config, h.config]
  · rw [hsteady.shared, hsteady'.shared, h.shared]
  · rw [hsteady.running, hsteady'.running, h.running]
  · rw [hsteady.listener, hsteady'.listener]
    exact h.listener
  · let close (c : Connection P) : Pipe P :=
      if (c.session.atTime now).isIdle s₁.config.idleTimeout then c.shut s₁.shared now
      else .attached c
    have hclose (pipes : Multiset (Pipe P)) :
        Pipe.viewOf peer (pipes.map (·.bind close)) =
          (Pipe.viewOf peer pipes).map (·.bind close) := by
      refine Pipe.viewOf_bind pipes (fun c => ?_) fun c _ => ?_
      · dsimp only [close]
        split
        · exact Connection.peer_shut hP _ _ c
        · rfl
      · dsimp only [close]
        rw [Connection.shut_anonymous]
        -- whether it is idle is read off the session, which has no identity
        by_cases hidle : (c.session.atTime now).isIdle s₁.config.idleTimeout = true
        · rw [if_pos hidle]
          exact (if_pos hidle).symm
        · rw [if_neg hidle]
          exact (if_neg hidle).symm
    rw [hpipes, hpipes', ← h.config, ← h.shared]
    exact (hclose _).trans ((congrArg _ h.view).trans (hclose _).symm)

/-- What the peer sees of a batch: its connections have dealt with what their own sockets are ready
for, and those it has opened have come in. -/
theorem Handles.viewOf {poll poll' : Socket → Interest → Option Readiness} {events : List Event}
    {listening : Option Readiness} (h : Handles fuel now events s s') (htimely : Timely events s)
    (hevents : events.Perm (s.reports poll listening))
    (hsame : ∀ socket interest, socket.peer = peer →
      poll socket interest = poll' socket interest) :
    Pipe.viewOf peer s'.pipes = (Pipe.viewOf peer s.pipes).map (·.bind fun c =>
        c.after s.shared fuel now (poll' c.session.transport c.link.interest)) +
      ((s.admittedBy events : Multiset Socket).map fun socket =>
        (initial P s.config s.shared now ⟨0, 0⟩ socket).enrolled s.shared now).filter
          (·.peer = peer) := by
  rcases h.pipes with ⟨fresh, hpipes, hfresh⟩
  rw [hpipes, Pipe.viewOf_add, ← hfresh]
  refine congrArg (· + _) ?_
  -- the batch is a permutation of the reports, so the event of each connection is its own report
  rw [htimely.filed.map_bind_congr fun c hfind => by rw [htimely.due_reports hevents hfind]]
  refine Pipe.viewOf_bind _ (fun c => Connection.peer_after hP c) fun c hc => ?_
  rw [hsame c.session.transport c.link.interest hc, ← Connection.after_anonymous]
  rfl

theorem alike_events {poll poll' : Socket → Interest → Option Readiness}
    {events events' : List Event} {listening : Option Readiness}
    (h : Alike peer s₁ s₂) (htimely : Timely events s₁) (htimely' : Timely events' s₂)
    (hevents : events.Perm (s₁.reports poll listening))
    (hevents' : events'.Perm (s₂.reports poll' listening))
    (hsame : ∀ socket interest, socket.peer = peer →
      poll socket interest = poll' socket interest)
    (hs₁ : Handles fuel now events s₁ s₁') (hs₂ : Handles fuel now events' s₂ s₂') :
    Alike peer s₁' s₂' := by
  -- the listener has an event in both batches or in neither
  have hfirst := htimely.listens_reports hevents
  have hsecond := htimely'.listens_reports hevents'
  refine ⟨?_, ?_, ?_, ?_, ?_⟩
  · rw [hs₁.config, hs₂.config, h.config]
  · rw [hs₁.shared, hs₂.shared, h.shared]
  · rw [hs₁.running, hs₂.running, h.running]
  · rw [hs₁.listener, hs₂.listener]
    simp only [hfirst, hsecond]
    split
    · rcases h.listener_cases with ⟨hl₁, hl₂⟩ | ⟨l₁, l₂, hl₁, hl₂, hl⟩
      · rw [hl₁, hl₂]
        exact .none
      · rw [hl₁, hl₂]
        exact .some hl.rest
    · exact h.listener
  · have hadmitted : List.Forall₂ (SameSocket peer) (s₁.admittedBy events)
        (s₂.admittedBy events') := by
      rw [admittedBy, admittedBy]
      simp only [hfirst, hsecond]
      split
      · rcases h.listener_cases with ⟨hl₁, hl₂⟩ | ⟨l₁, l₂, hl₁, hl₂, hl⟩
        · rw [hl₁, hl₂]
          exact .nil
        · rw [hl₁, hl₂]
          exact hl.admitted
      · exact .nil
    rw [hs₁.viewOf hP htimely hevents hsame, hs₂.viewOf hP htimely' hevents' fun _ _ _ => rfl,
      h.view, h.config, h.shared]
    refine congrArg (_ + ·) (filter_map_sockets hadmitted fun x => ?_)
    exact Connection.peer_enrolled hP _ _ _

theorem alike_round (h : Alike peer s₁ s₂) (horder₁ : Orderly s₁) (horder₂ : Orderly s₂)
    {r₁ r₂ : Round} (hsame : Round.Same peer r₁ r₂) (hleads₁ : Leads fuel s₁ r₁ s₁')
    (hleads₂ : Leads fuel s₂ r₂ s₂') : Alike peer s₁' s₂' := by
  -- one server running and the other not would not look alike
  have hrunning := h.running
  cases hsame with
  | start bound =>
      cases hleads₁
      cases hleads₂
      exact alike_start h bound
  | stop now =>
      cases hleads₁
      cases hleads₂
      exact alike_stop hP h horder₁.filed horder₂.filed now
  | network hpeer hpeer' hsocket hpending =>
      cases hleads₁
      cases hleads₂
      exact alike_network h (.network hpeer hpeer' hsocket hpending)
  | events listening now hpoll =>
      cases hleads₁ with
      | unheard _ _ _ hrunning₁ =>
          cases hleads₂ with
          | unheard => exact h
          | events hrunning₂ => simp [hrunning₁, hrunning₂] at hrunning
      | events hrunning₁ hevents₁ htimely₁ hhandles₁ =>
          cases hleads₂ with
          | unheard _ _ _ hrunning₂ => simp [hrunning₁, hrunning₂] at hrunning
          | events _ hevents₂ htimely₂ hhandles₂ =>
              exact alike_events hP h htimely₁ htimely₂ hevents₁ hevents₂ hpoll hhandles₁ hhandles₂
  | sweep now =>
      cases hleads₁ with
      | unswept _ hrunning₁ =>
          cases hleads₂ with
          | unswept => exact h
          | sweep _ hrunning₂ => simp [hrunning₁, hrunning₂] at hrunning
      | sweep _ hrunning₁ =>
          cases hleads₂ with
          | unswept _ hrunning₂ => simp [hrunning₁, hrunning₂] at hrunning
          | sweep => exact alike_sweep hP h horder₁.filed horder₂.filed now

/-- Over a whole schedule the peer sees the same. -/
theorem alike_passes {rounds₁ rounds₂ : List Round} {states₁ states₂ : List (Server P W)}
    (h : Alike peer s₁ s₂) (horder₁ : Orderly s₁) (horder₂ : Orderly s₂)
    (hspare₁ : ∀ s ∈ s₁ :: states₁, Spare s) (hspare₂ : ∀ s ∈ s₂ :: states₂, Spare s)
    (hsame : List.Forall₂ (Round.Same peer) rounds₁ rounds₂)
    (hpasses₁ : Passes fuel s₁ rounds₁ states₁) (hpasses₂ : Passes fuel s₂ rounds₂ states₂) :
    List.Forall₂ (Alike peer) states₁ states₂ := by
  -- on the rounds, which the two schedules have in pairs
  induction hsame generalizing s₁ s₂ states₁ states₂ with
  | nil =>
      cases hpasses₁
      cases hpasses₂
      exact .nil
  | cons hround _ ih =>
      cases hpasses₁ with
      | round htaken₁ hs₁ hrest₁ =>
          cases hpasses₂ with
          | round htaken₂ hs₂ hrest₂ =>
              rw [List.forall_mem_cons] at hspare₁ hspare₂
              have hleads₁ := leads_of_taken hP horder₁ hspare₁.1 htaken₁ hs₁
              have hleads₂ := leads_of_taken hP horder₂ hspare₂.1 htaken₂ hs₂
              have hnext := alike_round hP h horder₁ horder₂ hround hleads₁ hleads₂
              exact .cons hnext (ih hnext (hleads₁.orderly horder₁) (hleads₂.orderly horder₂)
                hspare₁.2 hspare₂.2 hrest₁ hrest₂)

end

theorem alike_refl (s : Server P W) (hlistener : s.listener = none) : Alike peer s s where
  config := rfl
  shared := rfl
  running := rfl
  listener := by
    rw [hlistener]
    exact .none
  view := rfl

theorem spare_new (config : ServerConfig) (shared : W) : Spare (.new P config shared) :=
  Nat.zero_le _

/-- The connections of a server are isolated from each other, in every state behind a round of a
schedule, as long as the table does not get full:
* An event for one connection leaves all others alone, their sessions, protocols and sockets, and
  what all connections share.
* Every further round comes to its end.
* In whichever order the events of a batch come, every connection deals with what its own socket is
  ready for, and the same come in, though perhaps in other slots.
* If a schedule differs only in what the sockets of others are like, then a client sees the same
  behind each of its rounds, though perhaps under other identities. -/
theorem connections_isolated [Protocol P W] (hbuiltIn : Protocol.BuiltIn P W)
    {config : ServerConfig} {shared : W} {rounds : List Round} {states : List (Server P W)}
    (hfuel : config.recvBufferSize + config.sendBufferSize ≤ fuel)
    (hpasses : Passes fuel (.new P config shared) rounds states)
    (hspare : ∀ s ∈ states, Spare s) :
    (∀ s ∈ states,
      (∀ now e s', s.dispatch fuel now e = some s' →
        Steady s s' ∧ (∀ id ≠ ConnId.ofKey e.key, s'.connection? id = s.connection? id) ∧
        s'.pipes = s.pipes.map (·.bind fun c => if c.link.id = ConnId.ofKey e.key
          then c.after s.shared fuel now (some e.readiness) else .attached c)) ∧
      (∀ (r : Round) steps, r.Taken s steps → ∃ s', s.run fuel steps = some s') ∧
      ∀ poll listening now events events', events.Perm (s.reports poll listening) →
        events'.Perm (s.reports poll listening) →
        ∃ s₁ s₂, dispatchAll fuel now events s = some s₁ ∧
          dispatchAll fuel now events' s = some s₂ ∧
          Like s₁ s₂ (s.pipes.map (·.bind fun c =>
            c.after s.shared fuel now (poll c.session.transport c.link.interest)))) ∧
    ∀ peer rounds' states', List.Forall₂ (Round.Same peer) rounds rounds' →
      Passes fuel (.new P config shared) rounds' states' → (∀ s ∈ states', Spare s) →
      List.Forall₂ (fun s s' => Pipe.viewOf peer s.pipes = Pipe.viewOf peer s'.pipes)
        states states' := by
  have hP := hbuiltIn.separate
  have hends := hbuiltIn.ends
  -- a new server is sound, and a round keeps that as long as the table does not get full
  have hnew := sound_new (P := P) config shared
  have hspare' {states : List (Server P W)} (h : ∀ s ∈ states, Spare s) :
      ∀ s ∈ (.new P config shared) :: states, Spare s :=
    List.forall_mem_cons.mpr ⟨spare_new config shared, h⟩
  refine ⟨fun s hs => ?_, fun peer rounds' states' hsame hpasses' hothers => ?_⟩
  · have hsound := sound_passes hP hends hnew hpasses (hspare' hspare) s hs
    refine ⟨fun now e s' hdispatch => ?_, fun r steps htaken => ?_,
      fun poll listening now events events' hevents hevents' => ?_⟩
    · rcases dispatch_others hP hsound.orderly.filed hdispatch with
        ⟨_, _, hsteady, _, hfound, hpipes⟩
      exact ⟨hsteady, hfound, hpipes⟩
    · exact exists_round hP hends hsound (hspare s hs) hfuel htaken
    · have htimely :=
        timely_reports hsound.orderly.filed (hsound.orderly.room (hspare s hs)) hevents
      rcases handles_dispatchAll hP htimely (hsound.answers hends hfuel events) with ⟨s₁, hs₁, _⟩
      rcases reorder_dispatchAll hP htimely (hevents.trans hevents'.symm) hs₁ with
        ⟨s₂, hs₂, hlike⟩
      refine ⟨s₁, s₂, hs₁, hs₂, ?_⟩
      rw [htimely.filed.map_bind_congr fun c hfind => by rw [← htimely.due_reports hevents hfind]]
      exact hlike
  · have halike := alike_passes hP (alike_refl (.new P config shared) rfl) hnew.orderly hnew.orderly
      (hspare' hspare) (hspare' hothers) hsame hpasses hpasses'
    exact halike.imp fun _ _ h => h.view

/-- Whether its neighbour sends something or resets its connection, a client gets its echo. -/
theorem connections_isolated_reset :
    let new : Server Echo Unit := .new Echo { recvBufferSize := 4, sendBufferSize := 4 } ()
    let a : Socket := { peer := .v4 [10, 0, 0, 1] 1000 }
    let b : Socket := { peer := .v4 [10, 0, 0, 2] 2000 }
    let rounds (f : Socket → Socket) : List Round := [
      .start (.ok ()), .network (fun _ socket => socket) [.ok a, .ok b],
      .events Socket.readiness? (some { readable := true }) 1,
      .network (fun _ socket => if socket.peer = b.peer then socket.arrive [7] else f socket) [],
      .events Socket.readiness? none 2, .events Socket.readiness? none 3, .sweep 4]
    ∃ states states', Passes 8 new (rounds (·.arrive [1, 2])) states ∧
      Passes 8 new (rounds (·.breakOff .connectionReset)) states' ∧
      states.map connectionCount = [0, 0, 2, 2, 2, 2, 2] ∧
      states'.map connectionCount = [0, 0, 2, 2, 1, 1, 1] ∧
      (states'.getLast?.bind (·.connection? ⟨1, 2⟩)).map (·.session.transport.outbound) =
        some [7] ∧
      List.Forall₂ (fun s s' => Pipe.viewOf b.peer s.pipes = Pipe.viewOf b.peer s'.pipes)
        states states' := by
  intro new a b rounds
  have hpass : (pass 8 new (rounds (·.arrive [1, 2]))).map (fun states =>
      (states.map connectionCount, states.map waiting)) =
      some ([0, 0, 2, 2, 2, 2, 2], [0, 2, 0, 0, 0, 0, 0]) := by decide +kernel
  have hpass' : (pass 8 new (rounds (·.breakOff .connectionReset))).map (fun states =>
      (states.map connectionCount, states.map waiting,
        (states.getLast?.bind (·.connection? ⟨1, 2⟩)).map (·.session.transport.outbound))) =
      some ([0, 0, 2, 2, 1, 1, 1], [0, 2, 0, 0, 0, 0, 0], some [7]) := by decide +kernel
  rcases Option.map_eq_some_iff.mp hpass with ⟨states, hstates, hfacts⟩
  rcases Option.map_eq_some_iff.mp hpass' with ⟨states', hstates', hfacts'⟩
  simp only [Prod.mk.injEq] at hfacts hfacts'
  rcases hfacts with ⟨hcounts, hwaiting⟩
  rcases hfacts' with ⟨hcounts', hwaiting', hsent⟩
  -- never more than two connections and two waiting, far below the number of slots
  have hspare {states : List (Server Echo Unit)}
      (hcounts : ∀ n ∈ states.map connectionCount, n ≤ 2)
      (hwaiting : ∀ n ∈ states.map waiting, n ≤ 2) : ∀ s ∈ states, Spare s := by
    intro s hs
    have hcount := hcounts _ (List.mem_map_of_mem hs)
    have hwait := hwaiting _ (List.mem_map_of_mem hs)
    exact Nat.le_trans (Nat.add_le_add hcount hwait) (by decide)
  have hmoved {f : Socket → Socket} (hf : ∀ socket, (f socket).peer = socket.peer)
      (socket : Socket) :
      (if socket.peer = b.peer then socket.arrive [7] else f socket).peer = socket.peer := by
    split
    · rfl
    · exact hf socket
  have hsame : List.Forall₂ (Round.Same b.peer) (rounds (·.arrive [1, 2]))
      (rounds (·.breakOff .connectionReset)) := by
    refine .cons (.start _) <| .cons ?_ <| .cons (.events _ _ fun _ _ _ => rfl) <| .cons ?_ <|
      .cons (.events _ _ fun _ _ _ => rfl) <| .cons (.events _ _ fun _ _ _ => rfl) <|
      .cons (.sweep _) .nil
    · exact .network (fun _ _ => rfl) (fun _ _ => rfl) (fun _ _ _ _ => rfl)
        (List.forall₂_same.mpr fun x _ => .refl b.peer x)
    refine .network (fun _ => hmoved fun _ => rfl) (fun _ => hmoved fun _ => rfl) ?_ .nil
    intro _ _ socket hpeer
    rw [if_pos hpeer, if_pos hpeer]
  have hpasses := passes_of_pass hstates
  have hpasses' := passes_of_pass hstates'
  refine ⟨states, states', hpasses, hpasses', hcounts, hcounts', hsent, ?_⟩
  refine (connections_isolated .echo (by decide) hpasses (hspare ?_ ?_)).2 b.peer _ states' hsame
    hpasses' (hspare ?_ ?_)
  · rw [hcounts]
    decide
  · rw [hwaiting]
    decide
  · rw [hcounts']
    decide
  · rw [hwaiting']
    decide

end Server
end TcpReactor
