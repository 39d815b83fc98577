import TcpReactor.Proofs.Server.Lifetime
import TcpReactor.Proofs.Service.HandsOff
import TcpReactor.Proofs.Session.Attuned

namespace TcpReactor

/-! # Every connection is closed once and then gone

* `Server.Recorded` says what the entries of a trace have to do with the table of connections: the
  watch over each identity goes on, and connections are counted.
* `Server.recorded_run`: a run records what becomes of the table.
* `Server.closed_once`: each connection that is put in the table is told of its close exactly once
  before it is taken out, and of nothing more; who has closed while an event was dealt with is gone
  then; and stopping leaves nobody.

Nobody may close a socket behind its session.
-/

open Session (Cycle InOrder Attuned closeWatch)
open Happening (Watch InTable ClosedOnce)

/-- The callbacks of a protocol do not close the socket behind the session. -/
structure Protocol.Tame (P W : Type) [Protocol P W] : Prop where
  onRecv : ∀ (p : P) (w : W), (Protocol.onRecv p w).Tame
  onSend : ∀ (p : P) (w : W) (n : Nat), (Protocol.onSend p w n).Tame

namespace Server

/-- Nobody closes a socket behind its session in this step. -/
def Step.Tame : Step → Prop
  | .visit _ _ program => program.Tame
  | .network f _ => ∀ id socket, (f id socket).isOpen = socket.isOpen
  | _ => True

variable {P W : Type} {s s₁ s' : Server P W} {fuel now slot : Nat} {i id : ConnId} {w : Watch}
  {c : Connection P} {es es' : List Entry} {s? : Option (Server P W)}

/-! ## What entries record -/

/-- The watch over an identity agrees with the table. -/
def Minds (id : ConnId) (w : Watch) (s : Server P W) : Prop :=
  match s.connection? id with
  | none => w = {}
  | some c => w.registered = true ∧ InOrder w.cycle c.session

theorem minds_none (h : s.connection? id = none) : Minds id w s ↔ w = {} := by rw [Minds, h]

theorem minds_some (h : s.connection? id = some c) :
    Minds id w s ↔ w.registered = true ∧ InOrder w.cycle c.session := by rw [Minds, h]

theorem Minds.congr (h : Minds id w s) (hsame : s'.connection? id = s.connection? id) :
    Minds id w s' := by
  rw [Minds, hsame]
  exact h

/-- Connections that are put in the table, and taken out. -/
def registrations (es : List Entry) : Nat := es.countP (·.what.isRegistered)

def removals (es : List Entry) : Nat := es.countP (·.what.isRemoved)

/-- The entries record what leads from one state to the next, if there is one. -/
structure Recorded (s : Server P W) (es : List Entry) (s? : Option (Server P W)) : Prop where
  watched : ∀ id w, Minds id w s → w.Accepts (happeningsOf id es) ∧
    ∀ s', s? = some s' → Minds id (w.after (happeningsOf id es)) s'
  counted : ∀ s', s? = some s' →
    s'.connectionCount + removals es = s.connectionCount + registrations es
  filed : ∀ s', s? = some s' → Filed s'

theorem happeningsOf_append : happeningsOf id (es ++ es') =
    happeningsOf id es ++ happeningsOf id es' := List.filterMap_append

/-- Entries of one identity. -/
theorem happeningsOf_map (i id : ConnId) (hs : List Happening) :
    happeningsOf id (hs.map (Entry.mk i)) = if i = id then hs else [] := by
  induction hs with
  | nil => split <;> rfl
  | cons h hs ih =>
      rw [List.map_cons, happeningsOf, List.filterMap_cons, ← happeningsOf, ih]
      by_cases hid : i = id
      · simp [hid]
      · simp [hid]

/-- What happens to sessions changes no count. -/
theorem countP_session (events : List (Session.Event Socket)) :
    (events.map .session).countP Happening.isRegistered = 0 ∧
      (events.map .session).countP Happening.isRemoved = 0 :=
  ⟨by simp [Happening.isRegistered], by simp [Happening.isRemoved]⟩

theorem Recorded.append (h : Recorded s es (some s₁)) (h' : Recorded s₁ es' s?) :
    Recorded s (es ++ es') s? where
  watched id w hw := by
    rcases h.watched id w hw with ⟨haccepts, hminds⟩
    rcases h'.watched id _ (hminds s₁ rfl) with ⟨haccepts', hminds'⟩
    rw [happeningsOf_append, Watch.after_append, Watch.accepts_append]
    exact ⟨⟨haccepts, haccepts'⟩, hminds'⟩
  counted s' hs' := by
    have hfirst := h.counted s₁ rfl
    have hsecond := h'.counted s' hs'
    simp only [removals, registrations, List.countP_append] at hfirst hsecond ⊢
    omega
  filed := h'.filed

/-- Nothing is recorded if the table stays as it is. -/
theorem Recorded.nil (h : Filed s) (hsame : s'.connections = s.connections) :
    Recorded s [] (some s') where
  watched id w hw := ⟨trivial, by
    rintro s' ⟨⟩
    exact hw.congr (connection?_congr hsame id)⟩
  counted := by
    rintro s' ⟨⟩
    rw [connectionCount, hsame]
    rfl
  filed := by
    rintro s' ⟨⟩
    exact ⟨by rw [hsame]; exact h.threaded, by rw [hsame]; exact h.slot⟩

/-- What happens to one identity, while the others are left alone. -/
theorem Recorded.of_id (hs : List Happening)
    (hwatched : ∀ w, Minds i w s → w.Accepts hs ∧ ∀ s', s? = some s' → Minds i (w.after hs) s')
    (hother : ∀ s', s? = some s' → ∀ id ≠ i, s'.connection? id = s.connection? id)
    (hcounted : ∀ s', s? = some s' → s'.connectionCount + hs.countP Happening.isRemoved =
      s.connectionCount + hs.countP Happening.isRegistered)
    (hfiled : ∀ s', s? = some s' → Filed s') : Recorded s (hs.map (Entry.mk i)) s? where
  watched id w hw := by
    -- under another identity nothing happens
    rw [happeningsOf_map]
    split
    · subst id
      exact hwatched w hw
    · exact ⟨trivial, fun s' hs' => hw.congr (hother s' hs' id (Ne.symm ‹_›))⟩
  counted s' hs' := by
    rw [removals, registrations, List.countP_map, List.countP_map]
    exact hcounted s' hs'
  filed := hfiled

/-- A newcomer that is dropped again leaves no mark. -/
theorem Recorded.dropped (h : Filed s) (hnew : s.connection? i = .none)
    {events : List (Session.Event Socket)} (haccepts : ({} : Watch).Accepts (events.map .session))
    (hafter : ({} : Watch).after (events.map .session) = {})
    (hsame : s'.connections = s.connections) :
    Recorded s ((events.map .session).map (Entry.mk i)) (some s') := by
  have hnil := Recorded.nil h hsame
  refine .of_id _ (fun w hw => ?_) ?_ ?_ hnil.filed
  · cases (minds_none hnew).mp hw
    rw [hafter]
    exact ⟨haccepts, (hnil.watched i {} hw).2⟩
  · rintro s' ⟨⟩ id _
    exact connection?_congr hsame id
  · rintro s' ⟨⟩
    rw [(countP_session events).1, (countP_session events).2]
    exact hnil.counted s' rfl

/-- A newcomer is put in the table while its session is open. -/
theorem Recorded.registered (h : Filed s) (hnew : s.connection? c.link.id = .none)
    (hslot : c.link.id.slot.toNat = s.connections.nextKey) {events : List (Session.Event Socket)}
    (haccepts : ({} : Watch).Accepts (events.map .session))
    (hafter : ({} : Watch).after (events.map .session) = { cycle := .running })
    (horder : InOrder .running c.session)
    (hfiled : Filed { s with connections := (s.connections.insert c).2 }) :
    Recorded s ((events.map .session).map (Entry.mk c.link.id) ++ [⟨c.link.id, .registered⟩])
      (some { s with connections := (s.connections.insert c).2 }) := by
  let inserted : Server P W := { s with connections := (s.connections.insert c).2 }
  have hfind : ∀ id, inserted.connection? id = if id = c.link.id then some c else _ :=
    connection?_insert h hslot rfl
  -- all of it happens under one identity
  have hentries : (events.map .session).map (Entry.mk c.link.id) ++ [⟨c.link.id, .registered⟩] =
      (events.map .session ++ [.registered] : List Happening).map (Entry.mk c.link.id) := by
    rw [List.map_append]
    rfl
  rw [hentries]
  refine .of_id _ (fun w hw => ?_) ?_ ?_ (by rintro s' ⟨⟩; exact hfiled)
  · cases (minds_none hnew).mp hw
    rw [Watch.accepts_append, Watch.after_append, hafter]
    refine ⟨⟨haccepts, ⟨rfl, rfl⟩, trivial⟩, ?_⟩
    rintro s' ⟨⟩
    rw [minds_some ((hfind _).trans (if_pos rfl))]
    exact ⟨rfl, horder⟩
  · rintro s' ⟨⟩ id hne
    exact (hfind id).trans (if_neg hne)
  · rintro s' ⟨⟩
    rw [List.countP_append, List.countP_append, (countP_session _).1, (countP_session _).2]
    exact Slots.size_insert s.connections _

/-! ## A connection at a time -/

section

variable [Protocol P W] {d : Driven (Served P W) Socket}
  {steps : List (Driven.Step (Served P W) Socket)}

theorem respects_attuned (hP : Protocol.Tame P W) :
    Handler.Respects (Served P W) (Attuned : Session Socket → Prop) where
  onRecv h := (Attuned.keeps_of_tame (hP.onRecv h.link.protocol h.shared)).bind fun _ => trivial
  onSend h n := (Attuned.keeps_of_tame (hP.onSend h.link.protocol h.shared n)).bind fun _ => trivial

theorem runEntries_eq (s : Server P W) (fuel now : Nat) (c : Connection P)
    (steps : List (Driven.Step (Served P W) Socket)) : s.runEntries fuel now c steps =
      (((s.lend c now).trace fuel steps).map .session).map (Entry.mk c.link.id) := by
  rw [List.map_map]
  rfl

theorem respects_reactSteps (r : Readiness) (d : Driven (Served P W) Socket) :
    ∀ step ∈ reactSteps r d, step.Respects Attuned := by
  intro step hstep
  rcases calls_reactSteps r d step hstep with ⟨c, rfl⟩
  trivial

/-- Steps of a connection, after which it is put back, if they come to an end. -/
theorem recorded_steps (hP : Protocol.Tame P W) (fuel now : Nat) (h : Filed s)
    (hfind : s.connection? i = some c) {steps : List (Driven.Step (Served P W) Socket)}
    (hsteps : ∀ step ∈ steps, step.Respects Attuned)
    (hid : ∀ d, steps.foldlM (Driven.step fuel) (s.lend c now) = some d → d.handler.link.id = i) :
    Recorded s (s.runEntries fuel now c steps)
      ((steps.foldlM (Driven.step fuel) (s.lend c now)).map (s.putBack i.slot.toNat)) := by
  rw [runEntries_eq, (connection?_eq_some.mp hfind).2]
  refine .of_id _ (fun w hw => ?_) (fun s' hs' id hne => ?_) (fun s' hs' => ?_) fun s' hs' => ?_
  · rcases (minds_some hfind).mp hw with ⟨hregistered, horder⟩
    -- the watch stands where the session's marks say, and lending a session out leaves these alone
    have hlent : InOrder w.cycle (s.lend c now).session := horder.of_eq rfl rfl rfl rfl rfl
    rcases hlent.keeps_trace fuel (respects_attuned hP) hsteps with
      ⟨haccepts, hplain, hafter⟩
    refine ⟨Watch.accepts_session.mpr ⟨haccepts, fun e he hopens => ?_⟩, fun s' hs' => ?_⟩
    · rw [(hplain e he).opens] at hopens
      cases hopens
    · rcases Option.map_eq_some_iff.mp hs' with ⟨d, hd, rfl⟩
      rw [Watch.after_session,
        minds_some ((connection?_putBack hfind (hid d hd) i).trans (if_pos rfl))]
      exact ⟨hregistered, hafter d hd⟩
  · rcases Option.map_eq_some_iff.mp hs' with ⟨d, hd, rfl⟩
    exact (connection?_putBack hfind (hid d hd) id).trans (if_neg hne)
  · rcases Option.map_eq_some_iff.mp hs' with ⟨d, hd, rfl⟩
    rcases countP_session ((s.lend c now).trace fuel steps) with ⟨hnone, hnone'⟩
    rw [count_putBack, hnone, hnone']
  · rcases Option.map_eq_some_iff.mp hs' with ⟨d, hd, rfl⟩
    rcases connection?_eq_some.mp hfind with ⟨hget, hi⟩
    exact h.retains (retains_putBack hget ((hid d hd).trans hi.symm))

omit [Protocol P W] in
/-- A connection that is not open is taken out. -/
theorem recorded_remove (h : Filed s) (hfind : s.connection? i = some c)
    (hclosed : c.session.isOpen = false) :
    Recorded s [⟨i, .removed⟩] (some (s.remove i.slot.toNat)) := by
  refine Recorded.of_id [.removed] (fun w hw => ?_) ?_ ?_ ?_
  · rcases (minds_some hfind).mp hw with ⟨hregistered, horder⟩
    have hended := horder.closed_of_not_isOpen hclosed
    refine ⟨⟨⟨hregistered, hended⟩, trivial⟩, ?_⟩
    rintro s' ⟨⟩
    rw [minds_none ((connection?_remove hfind i).trans (if_pos rfl))]
    -- the session is over, so removing it leaves a watch as if nothing had ever been there
    show { w with registered := false } = ({} : Watch)
    rw [hended]
  · rintro s' ⟨⟩ id hne
    exact (connection?_remove hfind id).trans (if_neg hne)
  · rintro s' ⟨⟩
    exact count_remove h hfind
  · rintro s' ⟨⟩
    exact h.retains (retains_remove s _)

theorem recorded_evict (hP : Protocol.Tame P W) (fuel : Nat) (h : Filed s) (now slot : Nat) :
    Recorded s (s.evictEntries fuel now slot) (some (s.evict now slot)) := by
  rw [evictEntries]
  rcases h.evict_cases now slot with ⟨hget, hsame⟩ | ⟨c, hget, hfind, hevict⟩
  · rw [hget, hsame]
    exact .nil h rfl
  · rw [hget, hevict]
    have hid : (s.lend c now).close.handler.link.id = c.link.id := (maintains_id _).close rfl
    have hrespects : ∀ step ∈ [Driven.Step.call (H := Served P W) .close], step.Respects Attuned :=
      List.forall_mem_singleton.mpr trivial
    -- closed first, with its notice, and only then taken out
    have hclose := recorded_steps hP fuel now h hfind hrespects (by rintro d ⟨⟩; exact hid)
    exact hclose.append (recorded_remove (hclose.filed _ rfl)
      ((connection?_putBack hfind hid _).trans (if_pos rfl)) (Driven.isOpen_close _))

theorem recorded_evictAll (hP : Protocol.Tame P W) (fuel : Nat) (h : Filed s) (now : Nat)
    (slots : List Nat) :
    Recorded s (evictAllEntries fuel now slots s) (some (s.evictAll now slots)) := by
  induction slots generalizing s with
  | nil => exact .nil h rfl
  | cons slot slots ih =>
      have hevict := recorded_evict hP fuel h now slot
      exact hevict.append (ih (hevict.filed _ rfl))

theorem recorded_dispatch (hP : Protocol.Tame P W) (fuel : Nat) (h : Filed s) (now : Nat)
    (e : Event) :
    Recorded s (s.dispatchEntries fuel now e) (s.dispatch fuel now e) := by
  rw [dispatchEntries, dispatch]
  dsimp only
  cases hfind : s.connection? (ConnId.ofKey e.key) with
  | none => exact .nil h rfl
  | some c =>
      have hid := (connection?_eq_some.mp hfind).2
      have hreact := recorded_steps hP fuel now h hfind
        (respects_reactSteps e.readiness (s.lend c now))
        fun d hd => (id_react ((react_eq ..).trans hd)).trans hid
      rw [← react_eq] at hreact
      dsimp only
      cases hd : react fuel e.readiness (s.lend c now) with
      | none =>
          rw [hd] at hreact
          rw [List.append_nil]
          exact hreact
      | some d =>
          rw [hd] at hreact
          have hfind' : (s.putBack (ConnId.ofKey e.key).slot.toNat d).connection? _ = some
              { session := d.session, link := d.handler.link } :=
            (connection?_putBack hfind ((id_react hd).trans hid) _).trans (if_pos rfl)
          refine hreact.append ?_
          rw [hid]
          show Recorded _ (if d.isOpen then [] else _) (some (if d.isOpen then _ else _))
          -- only a connection that its event has closed is taken out
          cases hopen : d.isOpen with
          | true => exact .nil (hreact.filed _ rfl) rfl
          | false => exact recorded_remove (hreact.filed _ rfl) hfind' hopen

/-! ## Newcomers -/

/-- The call by which the session of a newcomer is opened. -/
theorem watch_openUp (fuel : Nat) (socket : Socket) (recvCapacity sendCapacity now : Nat)
    (handler : Served P W) :
    let d := Driven.new socket recvCapacity sendCapacity now handler
    let hs := (d.stepEvents fuel (.call .openUp)).map Happening.session
    ({} : Watch).Accepts hs ∧ (d.openUp.1 ≠ .ok () → ({} : Watch).after hs = {}) ∧
    (d.openUp.1 = .ok () →
      ({} : Watch).after hs = { cycle := .running } ∧ InOrder .running d.openUp.2.session) := by
  intro d hs
  rcases InOrder.keeps_openUp fuel socket recvCapacity sendCapacity now handler with
    ⟨haccepts, hrefused, hopened⟩
  refine ⟨Watch.accepts_session.mpr ⟨haccepts, fun _ _ _ => rfl⟩, fun hanswer => ?_,
    fun hanswer => ⟨?_, (hopened hanswer).2⟩⟩
  · rw [Watch.after_session, hrefused hanswer]
  · rw [Watch.after_session, (hopened hanswer).1]

/-- The session of a newcomer is opened, and it is put in the table or dropped. -/
theorem recorded_enroll (hP : Protocol.Tame P W) (h : Filed s)
    (hnew : s.connection? c.link.id = none) (hslot : c.link.id.slot.toNat = s.connections.nextKey)
    {socket : Socket} {recvCapacity sendCapacity : Nat}
    (hsession : c.session = .new socket recvCapacity sendCapacity now)
    (hfiled : Filed (s.enroll now c)) :
    Recorded s (s.enrollEntries fuel now c) (some (s.enroll now c)) := by
  have hlend : s.lend c now =
      .new socket recvCapacity sendCapacity now { link := c.link, shared := s.shared } := by
    rw [lend, hsession]
    rfl
  have hopened : (s.lend c now).openUp.1 = c.session.openUp.1 ∧
      (s.lend c now).openUp.2.session = c.session.openUp.2 := by
    rw [hlend, hsession]
    exact ⟨rfl, rfl⟩
  have htrace : (s.lend c now).trace fuel [.call .openUp] =
      (s.lend c now).stepEvents fuel (.call .openUp) := List.append_nil _
  -- opening does not look at the handler, so it is that of a session that was just made
  have hwatch := watch_openUp (P := P) (W := W) fuel socket recvCapacity sendCapacity now
    { link := c.link, shared := s.shared }
  dsimp only at hwatch
  rw [← hlend, ← htrace, hopened.1, hopened.2] at hwatch
  rcases hwatch with ⟨haccepts, hrefused, hrunning⟩
  rw [enrollEntries, runEntries_eq]
  rw [enroll] at hfiled ⊢
  rcases hopen : c.session.openUp with ⟨e | _, session⟩
  all_goals
    rw [hopen] at hfiled hrefused hrunning
    dsimp only at hfiled ⊢
  · rw [List.append_nil]
    exact .dropped h hnew haccepts (hrefused (by simp)) rfl
  rcases hrunning rfl with ⟨hafter, horder⟩
  cases hwatchable : c.session.transport.watchable with
  | true =>
      rw [hwatchable] at hfiled
      exact .registered (c := { c with session }) h hnew hslot haccepts hafter horder hfiled
  | false =>
      -- the poller does not take the socket: the session is closed before anybody gets to see it
      have hlent : InOrder .running (s.lend { c with session } now).session :=
        horder.of_eq rfl rfl rfl rfl rfl
      have hrespects :
          ∀ step ∈ [Driven.Step.call (H := Served P W) .close], step.Respects Attuned :=
        List.forall_mem_singleton.mpr trivial
      rcases hlent.keeps_trace fuel (respects_attuned hP) hrespects with ⟨haccepts', _, hclosed⟩
      have hended := (hclosed _ rfl).closed_of_not_isOpen (Driven.isOpen_close _)
      rw [if_neg Bool.false_ne_true, if_neg Bool.false_ne_true, runEntries_eq, ← List.map_append,
        ← List.map_append]
      refine .dropped h hnew ?_ ?_ rfl
      · rw [List.map_append, Watch.accepts_append, hafter]
        exact ⟨haccepts, Watch.accepts_session.mpr ⟨haccepts', fun _ _ _ => rfl⟩⟩
      · rw [List.map_append, Watch.after_append, hafter, Watch.after_session, hended]

/-- A connection that was accepted. -/
theorem recorded_add (hP : Protocol.Tame P W) (fuel : Nat) (h : Filed s) (now : Nat)
    (socket : Socket) :
    Recorded s (s.addEntries fuel now socket) (some (s.addConnection now socket)) := by
  have hfiled : Filed (s.addConnection now socket) := h.evolves (evolves_addConnection s now socket)
  rw [addConnection_eq] at hfiled ⊢
  rw [addEntries]
  cases hnext : s.nextId? with
  | none => exact .nil h rfl
  | some i =>
      rw [hnext] at hfiled
      have hprepared : Recorded s [] (some (s.prepare now socket i).2) := .nil h rfl
      -- its slot is free, so the identity starts with nothing recorded since its last removal
      have hnew : s.connection? i = none := connection?_nextId h hnext
      exact hprepared.append (recorded_enroll (c := (s.prepare now socket i).1) hP
        (hprepared.filed _ rfl) hnew (ConnId.of?_eq_some hnext).2.1 rfl hfiled)

theorem recorded_acceptAll (hP : Protocol.Tame P W) (h : Filed s) (now limit : Nat) :
    Recorded s (s.acceptEntries fuel now limit) (some (s.acceptAll now limit)) := by
  -- on the limit; taking a socket from the listener is no happening
  induction limit generalizing s with
  | zero => exact .nil h rfl
  | succ limit ih =>
      rw [acceptEntries, acceptAll]
      cases s.listener with
      | none => exact .nil h rfl
      | some listener =>
          have hlistener (l : Listener) : Recorded s [] (some { s with listener := some l }) :=
            .nil h rfl
          dsimp only
          rcases listener.accept with ⟨_ | ⟨_ | socket⟩, listener'⟩
          · exact hlistener listener'
          · exact hlistener listener'
          · have hadd := recorded_add hP fuel ((hlistener listener').filed _ rfl) now socket
            exact (hlistener listener').append (hadd.append (ih (hadd.filed _ rfl)))

/-! ## Runs -/

theorem respects_execSteps (fuel : Nat) {α : Type} {p : Session.Program Socket α} (hp : p.Tame)
    (d : Driven (Served P W) Socket) : ∀ step ∈ d.execSteps fuel p, step.Respects Attuned := by
  -- on the program, which decides with each answer how it goes on
  induction p generalizing d with
  | done a => exact List.forall_mem_nil _
  | look next ih => exact ih d.session (hp d.session) d
  | call c next ih =>
      rw [Driven.execSteps, List.forall_mem_cons]
      refine ⟨trivial, ?_⟩
      cases d.perform fuel c with
      | none => exact List.forall_mem_nil _
      | some r => exact ih r.1 (hp r.1) r.2
  | editRecvBuffer f next ih =>
      rw [Driven.execSteps, List.forall_mem_cons]
      exact ⟨fun s hs => hs.of_eq rfl rfl rfl, ih hp _⟩
  | editTransport f next ih =>
      rw [Driven.execSteps, List.forall_mem_cons]
      exact ⟨fun s hs => hs.of_eq rfl rfl (hp.1 _), ih hp.2 _⟩

/-- Calls of the owner. -/
theorem recorded_exec (hP : Protocol.Tame P W) (h : Filed s) (hfind : s.connection? i = some c)
    {p : Session.Program Socket Unit} (hp : p.Tame) :
    Recorded s (s.runEntries fuel now c (Driven.execSteps fuel p (s.lend c now)))
      ((s.exec fuel now i p).map (·.2)) := by
  have hsteps := recorded_steps hP fuel now h hfind (respects_execSteps fuel hp (s.lend c now))
    fun d hd => ?_
  · rw [← Driven.exec_eq] at hsteps
    rw [exec, hfind]
    dsimp only
    cases hexec : (s.lend c now).exec fuel p with
    | none =>
        rw [hexec] at hsteps
        exact hsteps
    | some r =>
        rw [hexec] at hsteps
        exact hsteps
  · rw [← Driven.exec_eq] at hd
    rcases Option.map_eq_some_iff.mp hd with ⟨⟨a, d'⟩, hexec, rfl⟩
    rw [← (connection?_eq_some.mp hfind).2]
    exact (maintains_id _).exec rfl hexec

omit [Protocol P W] in
/-- The network moves, and closes nothing. -/
theorem recorded_move (h : Filed s) {f : ConnId → Socket → Socket}
    (hf : ∀ id socket, (f id socket).isOpen = socket.isOpen)
    (pending : List (Except IoError Socket)) : Recorded s [] (some (s.move f pending)) where
  watched id w hw := by
    refine ⟨trivial, ?_⟩
    rintro s' ⟨⟩
    have hmove := connection?_move s f pending id
    cases hfind : s.connection? id with
    | none =>
        rw [hfind] at hmove
        exact hw.congr (hmove.trans hfind.symm)
    | some c =>
        rw [hfind] at hmove
        -- a session is in order by its marks and by whether its socket is open
        rcases (minds_some hfind).mp hw with ⟨hregistered, horder⟩
        exact (minds_some hmove).mpr ⟨hregistered, horder.of_eq rfl rfl rfl rfl (hf id _)⟩
  counted := by
    rintro s' ⟨⟩
    rfl
  filed := by
    rintro s' ⟨⟩
    exact h.retains (retains_move s f pending)

theorem recorded_step (hP : Protocol.Tame P W) (fuel : Nat) (h : Filed s) {step : Step}
    (hstep : step.Tame) :
    Recorded s (s.stepEntries fuel step) (s.step fuel step) := by
  cases step with
  | start bound =>
      refine .nil h ?_
      rw [start]
      repeat' split
      all_goals rfl
  | stop now =>
      -- all connections are evicted; dropping the listener touches no table
      have hstopped : Recorded s [] (some { s with running := false }) := .nil h rfl
      have hevicted := hstopped.append
        (recorded_evictAll hP fuel (hstopped.filed _ rfl) now s.usedSlots)
      have hclosed := hevicted.append (.nil (hevicted.filed _ rfl) (connections_stop s now))
      rwa [List.append_nil] at hclosed
  | event now e =>
      rw [stepEntries, Server.step]
      cases s.running with
      | false => exact .nil h rfl
      | true =>
          show Recorded s (if e.key = ConnId.listenerKey then _ else _) (dispatchAll fuel now [e] s)
          rw [dispatchAll]
          by_cases hkey : e.key = ConnId.listenerKey
          · rw [if_pos hkey, if_pos hkey]
            exact recorded_acceptAll hP h now _
          · rw [if_neg hkey, if_neg hkey]
            have hdispatch := recorded_dispatch hP fuel h now e
            cases hnext : s.dispatch fuel now e with
            | none =>
                rw [hnext] at hdispatch
                exact hdispatch
            | some s' =>
                rw [hnext] at hdispatch
                exact hdispatch
  | sweep now =>
      rw [stepEntries, Server.step]
      cases s.running with
      | false => exact .nil h rfl
      | true => exact recorded_evictAll hP fuel h now _
  | visit now id program =>
      rw [stepEntries, Server.step]
      cases hfind : s.connection? id with
      | none =>
          rw [exec, hfind]
          exact .nil h rfl
      | some c => exact recorded_exec hP h hfind hstep
  | network f pending => exact recorded_move h hstep pending

/-- A run records what becomes of the table. -/
theorem recorded_run (hP : Protocol.Tame P W) (fuel : Nat) (h : Filed s) {steps : List Step}
    (hsteps : ∀ step ∈ steps, step.Tame) :
    Recorded s (s.trace fuel steps) (s.run fuel steps) := by
  -- on the steps: what a step records is what the next one starts from
  induction steps generalizing s with
  | nil => exact .nil h rfl
  | cons step steps ih =>
      rw [List.forall_mem_cons] at hsteps
      have hfirst := recorded_step hP fuel h hsteps.1
      rw [trace, run, List.foldlM_cons]
      cases hnext : s.step fuel step with
      | none =>
          rw [hnext] at hfirst
          rw [List.append_nil]
          exact hfirst
      | some s₁ =>
          rw [hnext] at hfirst
          exact hfirst.append (ih (hfirst.filed s₁ rfl) hsteps.2)

/-! ## What a run tells -/

omit [Protocol P W] in
theorem Minds.registered_iff (h : Minds id w s) :
    w.registered = true ↔ (s.connection? id).isSome = true := by
  cases hfind : s.connection? id with
  | none =>
      rw [(minds_none hfind).mp h]
      simp
  | some c => simp [((minds_some hfind).mp h).1]

/-- Who is still in the table after an event was dealt with has an open session. -/
theorem isOpen_of_dispatch {e : Event} (h : s.dispatch fuel now e = some s')
    (hfind : s'.connection? (ConnId.ofKey e.key) = some c) : c.session.isOpen = true := by
  cases hold : s.connection? (ConnId.ofKey e.key) with
  | none =>
      rw [dispatch_of_none hold] at h
      cases h
      rw [hold] at hfind
      cases hfind
  | some c₀ =>
      rw [dispatch] at h
      dsimp only at h
      rw [hold] at h
      rcases Option.bind_eq_some_iff.mp h with ⟨d, hd, hrest⟩
      have hput := (connection?_putBack hold
        ((id_react hd).trans (connection?_eq_some.mp hold).2) _).trans (if_pos rfl)
      -- a session that is not open would have been taken out
      cases hrest
      split at hfind
      · rw [hput] at hfind
        cases hfind
        assumption
      · rw [connection?_remove hput, if_pos rfl] at hfind
        cases hfind

/-- What a run does to an identity can be read off its trace. -/
theorem inTable_run (hP : Protocol.Tame P W) (h : Filed s) {steps : List Step}
    (hsteps : ∀ step ∈ steps, step.Tame) (hrun : s.run fuel steps = some s')
    (hnone : s.connection? id = none) :
    (s'.connection? id).isSome = true ↔ InTable (happeningsOf id (s.trace fuel steps)) := by
  rcases (recorded_run hP fuel h hsteps).watched id {} ((minds_none hnone).mpr rfl) with
    ⟨_, hminds⟩
  rw [← (hminds s' hrun).registered_iff, Watch.registered_after]
  simp

variable {config : ServerConfig} {shared : W} {steps : List Step}

/-- In every run in which nobody closes a socket behind its session:
* Under every identity, each connection that is put in the table is told of its close exactly once
  before it is taken out, its session is not opened again meanwhile, and after the notice its
  protocol is told nothing more.
* In the table are those that were put there and not taken out, and as many of them.
* Who is still there after one of its events was dealt with has an open session.
* Until a connection is put in the table under its identity again, an event for one that is gone
  changes nothing, later in the same batch as at any time.
* Stopping leaves no connections, no listener, and a server that does not run. Whoever was ever put
  in the table has been told of its close by then. -/
theorem closed_once (hP : Protocol.Tame P W) (hsteps : ∀ step ∈ steps, step.Tame) :
    (∀ id, ClosedOnce (happeningsOf id (trace fuel (.new P config shared) steps))) ∧
    ∀ s, run fuel (.new P config shared) steps = some s →
      (∀ id, (s.connection? id).isSome = true ↔
        InTable (happeningsOf id (trace fuel (.new P config shared) steps))) ∧
      s.connectionCount + removals (trace fuel (.new P config shared) steps) =
        registrations (trace fuel (.new P config shared) steps) ∧
      (∀ now e s', s.dispatch fuel now e = some s' →
        ∀ c, s'.connection? (.ofKey e.key) = some c → c.session.isOpen = true) ∧
      (∀ id later s', s.connection? id = none → (∀ step ∈ later, step.Tame) →
        run fuel s later = some s' → .registered ∉ happeningsOf id (trace fuel s later) →
        ∀ fuel now e, .ofKey e.key = id → s'.dispatch fuel now e = some s') ∧
      ∀ now, (s.stop now).connections.toList = [] ∧ (s.stop now).connectionCount = 0 ∧
        (s.stop now).listener = none ∧ (s.stop now).running = false ∧
        ∀ id before after, happeningsOf id (trace fuel (.new P config shared)
            (steps ++ [.stop now])) = before ++ .registered :: after →
          ∃ time rest, after = time ++ .removed :: rest ∧ .removed ∉ time ∧
            (Happening.events time).countP Session.Event.tellsClose = 1 := by
  have hnew := filed_new (P := P) config shared
  have hnone : ∀ id, (Server.new P config shared).connection? id = none := fun _ => rfl
  have hclosed {steps : List Step} (hsteps : ∀ step ∈ steps, step.Tame) (id : ConnId) :
      ClosedOnce (happeningsOf id (trace fuel (.new P config shared) steps)) :=
    .of_accepts
      ((recorded_run hP fuel hnew hsteps).watched id {} ((minds_none (hnone id)).mpr rfl)).1
  refine ⟨hclosed hsteps, fun s hrun => ?_⟩
  -- under every identity the run starts with nothing recorded and accepts all that happens
  have hrecorded := recorded_run hP fuel hnew hsteps
  have hfiled := hrecorded.filed s hrun
  refine ⟨fun id => inTable_run hP hnew hsteps hrun (hnone id), ?_,
    fun now e s' hdispatch c hfind => isOpen_of_dispatch hdispatch hfind,
    fun id later s' hgone hlater hrun' hstays fuel now e hkey => dispatch_of_none ?_,
    fun now => ?_⟩
  · exact (hrecorded.counted s hrun).trans (Nat.zero_add _)
  · rw [hkey, ← Option.not_isSome_iff_eq_none, inTable_run hP hfiled hlater hrun' hgone]
    rintro ⟨before, time, heq, _⟩
    exact hstays (by simp [heq])
  · rcases stop_spec hfiled now with ⟨hempty, hlistener, hrunning⟩
    have hsteps' : ∀ step ∈ steps ++ [.stop now], step.Tame :=
      List.forall_mem_append.mpr ⟨hsteps, List.forall_mem_singleton.mpr trivial⟩
    have hrun' : run fuel (.new P config shared) (steps ++ [.stop now]) = some (s.stop now) := by
      rw [run, List.foldlM_append]
      exact Option.bind_eq_some_iff.mpr ⟨s, hrun, rfl⟩
    rcases (recorded_run hP fuel hnew hsteps').filed _ hrun' with ⟨⟨_, hthreaded⟩, _⟩
    refine ⟨?_, hthreaded.size_eq_zero hempty, hlistener, hrunning, fun id before after heq => ?_⟩
    · refine List.eq_nil_iff_forall_not_mem.mpr ?_
      rintro ⟨key, c⟩ hmem
      rw [Slots.mem_toList, hempty key] at hmem
      cases hmem
    · -- nobody is in the table after a stop, so whoever was registered has been removed since
      have hout : ¬InTable (happeningsOf id (trace fuel (.new P config shared)
          (steps ++ [.stop now]))) := by
        rw [← inTable_run hP hnew hsteps' hrun' (hnone id), connection?, hempty]
        exact Bool.false_ne_true
      have hremoved : .removed ∈ after :=
        Classical.not_not.mp fun hstays => hout ⟨before, after, heq, hstays⟩
      rcases List.eq_append_cons_of_mem hremoved with ⟨time, rest, rfl, htime⟩
      exact ⟨time, rest, rfl, htime, (hclosed hsteps' id).told before time rest heq htime⟩

end

/-- The callbacks of a handler are those of a protocol made from it. -/
theorem tame_ofHandler {P W : Type} [Handler Socket P] [Handler.HandsOff Socket P] (start : W → P) :
    @Protocol.Tame P W (.ofHandler start) :=
  @Protocol.Tame.mk P W (.ofHandler start)
    (fun p _ => (Handler.HandsOff.onRecv (T := Socket) p).tame.bind fun _ => trivial)
    (fun p _ n => (Handler.HandsOff.onSend (T := Socket) p n).tame.bind fun _ => trivial)

/-- Of three connections one breaks, with two more events for it in the same batch, one is closed by
the owner and found idle later, and one is still there when the server is stopped. Then it is
started again, and somebody gets a slot that was used before. -/
theorem closed_once_restarted :
    let new : Server Echo Unit :=
      .new Echo { recvBufferSize := 4, sendBufferSize := 4, idleTimeout := 5 } ()
    let socket : Socket := { peer := .v4 [127, 0, 0, 1] 80 }
    let accepting (now : Nat) : Step := .event now ⟨ConnId.listenerKey, { readable := true }⟩
    let hup (id : ConnId) : Step := .event 2 ⟨id.toKey, { readable := true, hangup := true }⟩
    let steps : List Step := [.start (.ok ()), .network (fun _ s => s) [.ok socket, .ok socket],
      accepting 1, hup ⟨0, 1⟩, hup ⟨0, 1⟩, .visit 3 ⟨1, 2⟩ (.call .close fun _ => .done ()),
      .network (fun _ s => s.arrive [7]) [.ok socket], accepting 4, hup ⟨0, 1⟩, .sweep 8, .stop 9,
      .start (.ok ()), .network (fun _ s => s) [.ok socket], accepting 10]
    Protocol.Tame Echo Unit ∧ (∀ step ∈ steps, step.Tame) ∧
    (∀ id, ClosedOnce (happeningsOf id (trace 4 new steps))) ∧
    ∃ s, run 4 new steps = some s ∧ s.connectionCount = 1 ∧
      s.connectionCount + removals (trace 4 new steps) = registrations (trace 4 new steps) ∧
      registrations (trace 4 new steps) = 4 ∧ (s.stop 11).connections.toList = [] := by
  intro new socket accepting hup steps
  have hP : Protocol.Tame Echo Unit := tame_ofHandler _
  have hsteps : ∀ step ∈ steps, step.Tame := by
    simp [steps, accepting, hup, Step.Tame, Session.Program.Tame, Socket.arrive]
  have hcounts : ((run 4 new steps).map (·.connectionCount), registrations (trace 4 new steps)) =
      (some 1, 4) := by
    decide +kernel
  simp only [Prod.mk.injEq] at hcounts
  rcases Option.map_eq_some_iff.mp hcounts.1 with ⟨s, hrun, hcount⟩
  have hboth : (∀ id, ClosedOnce (happeningsOf id (trace 4 new steps))) ∧ _ :=
    closed_once hP hsteps
  rcases hboth with ⟨hclosed, hafter⟩
  rcases hafter s hrun with ⟨_, hcounted, _, _, hstop⟩
  exact ⟨hP, hsteps, hclosed, s, hrun, hcount, hcounted, hcounts.2, (hstop 11).1⟩

end Server
end TcpReactor
