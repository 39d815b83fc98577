import TcpReactor.Proofs.Server.Batch

namespace TcpReactor

/-! # Rounds

A poller reports, for each connection, what its own socket is ready for, and for the listener that
somebody waits (`Server.reports`). So no connection has more than one event in a batch, and it is
there (`Server.timely_reports`). In what order the events come is up to the poller.

A round is one thing that happens to a server from the outside, such as the events of a batch. In a
schedule of rounds the state behind each round is looked at (`Server.Passes`).
-/

namespace Server

variable {P W : Type} {s s' : Server P W} {fuel now : Nat} {c : Connection P}
  {events : List Event} {poll : Socket → Interest → Option Readiness}
  {listening : Option Readiness}

/-- What a poller has to say about a connection, as an event. -/
def report (poll : Socket → Interest → Option Readiness) (c : Connection P) : Option Event :=
  (poll c.session.transport c.link.interest).map (.mk c.link.id.toKey)

/-- What a poller has to say about the connections, and the listener. -/
def reports (s : Server P W) (poll : Socket → Interest → Option Readiness)
    (listening : Option Readiness) : List Event :=
  s.connections.toList.filterMap (fun entry => report poll entry.2) ++
    (listening.map (.mk ConnId.listenerKey)).toList

theorem report_eq_some {e : Event} : report poll c = some e ↔
    e.key = c.link.id.toKey ∧ poll c.session.transport c.link.interest = some e.readiness := by
  rw [report, Option.map_eq_some_iff]
  constructor
  · rintro ⟨r, hr, rfl⟩
    exact ⟨rfl, hr⟩
  · exact fun h => ⟨e.readiness, h.2, by rw [← h.1]⟩

theorem Filed.mem_reports (h : Filed s) {e : Event} : e ∈ s.reports poll listening ↔
    (∃ c, s.connection? c.link.id = some c ∧ report poll c = some e) ∨
      (e.key = ConnId.listenerKey ∧ listening = some e.readiness) := by
  have hlisten : e ∈ (listening.map (Event.mk ConnId.listenerKey)).toList ↔
      e.key = ConnId.listenerKey ∧ listening = some e.readiness := by
    rw [Option.mem_toList, Option.map_eq_some_iff]
    constructor
    · rintro ⟨r, hr, rfl⟩
      exact ⟨rfl, hr⟩
    · exact fun h => ⟨e.readiness, h.2, by rw [← h.1]⟩
  rw [reports, List.mem_append, hlisten, List.mem_filterMap]
  refine or_congr ⟨?_, ?_⟩ Iff.rfl
  · rintro ⟨⟨key, c⟩, hmem, hreport⟩
    exact ⟨c, h.connection?_of_get? (Slots.mem_toList.mp hmem), hreport⟩
  · rintro ⟨c, hfind, hreport⟩
    exact ⟨(_, c), Slots.mem_toList.mpr (connection?_eq_some.mp hfind).1, hreport⟩

/-- In whatever order they come, these events are in time. -/
theorem timely_reports (h : Filed s) (hroom : Room s.waiting s)
    (hevents : events.Perm (s.reports poll listening)) : Timely events s := by
  have htimely : Timely (s.reports poll listening) s := by
    refine ⟨h, hroom, ?_, fun e he hne => ?_⟩
    · -- two connections with one key have one identity, and so one slot
      have hkeys : (s.connections.toList.filterMap fun entry => report poll entry.2).Pairwise
          fun e e' => e.key ≠ e'.key := by
        refine List.Pairwise.filterMap _ (fun a a' hne e he e' he' hkey => ?_)
          (List.Pairwise.and_mem.mp s.connections.pairwise_toList)
        rcases hne with ⟨hmem, hmem', hne⟩
        have hid : a.2.link.id = a'.2.link.id := ConnId.toKey_inj.mp <|
          (report_eq_some.mp he).1.symm.trans (hkey.trans (report_eq_some.mp he').1)
        refine hne ?_
        rw [← h.slot a.1 a.2 (Slots.mem_toList.mp hmem), hid,
          h.slot a'.1 a'.2 (Slots.mem_toList.mp hmem')]
      rw [List.Nodup, List.pairwise_map, reports, List.pairwise_append]
      refine ⟨hkeys, by cases listening <;> simp, fun e he e' he' hkey => ?_⟩
      rcases List.mem_filterMap.mp he with ⟨⟨key, c⟩, hmem, hreport⟩
      rcases Option.map_eq_some_iff.mp (Option.mem_toList.mp he') with ⟨r, _, rfl⟩
      have hfind := h.connection?_of_get? (Slots.mem_toList.mp hmem)
      exact hroom.toKey_ne hfind ((report_eq_some.mp hreport).1.symm.trans hkey)
    · rcases h.mem_reports.mp he with ⟨c, hfind, hreport⟩ | ⟨hkey, _⟩
      · exact ⟨c.link.id, c, (report_eq_some.mp hreport).1, hfind⟩
      · exact absurd hkey hne
  exact htimely.perm hevents.symm

/-- Every connection is told of its own socket. -/
theorem Timely.due_reports (h : Timely events s)
    (hevents : events.Perm (s.reports poll listening)) (hfind : s.connection? c.link.id = some c) :
    due events c.link.id = poll c.session.transport c.link.interest := by
  refine Option.ext fun r => ?_
  rw [due_eq_some h.nodup, hevents.mem_iff, h.filed.mem_reports]
  constructor
  · -- an event with its key is its own report: the key is nobody else's, nor the listener's
    rintro (⟨c', hfind', hreport⟩ | ⟨hkey, _⟩)
    · rcases report_eq_some.mp hreport with ⟨hkey, hpoll⟩
      rw [ConnId.toKey_inj.mp hkey, hfind'] at hfind
      cases hfind
      exact hpoll
    · exact absurd hkey (h.room.toKey_ne hfind)
  · exact fun hpoll => .inl ⟨c, hfind, report_eq_some.mpr ⟨rfl, hpoll⟩⟩

/-- The listener has an event if somebody waits. -/
theorem Timely.listens_reports (h : Timely events s)
    (hevents : events.Perm (s.reports poll listening)) :
    ConnId.listenerKey ∈ events.map (·.key) ↔ listening.isSome = true := by
  rw [List.mem_map, Option.isSome_iff_exists]
  constructor
  · rintro ⟨e, he, hkey⟩
    rcases h.filed.mem_reports.mp (hevents.mem_iff.mp he) with ⟨c, hfind, hreport⟩ | ⟨_, hlisten⟩
    · exact absurd ((report_eq_some.mp hreport).1.symm.trans hkey) (h.room.toKey_ne hfind)
    · exact ⟨_, hlisten⟩
  · rintro ⟨r, hr⟩
    exact ⟨⟨_, r⟩, hevents.mem_iff.mpr (h.filed.mem_reports.mpr (.inr ⟨rfl, hr⟩)), rfl⟩

/-! ## Schedules -/

/-- What happens to a server from the outside. -/
inductive Round where
  | start (bound : Except IoError Unit)
  | stop (now : Nat)
  | network (f : ConnId → Socket → Socket) (pending : List (Except IoError Socket))
  /-- The events of one batch, in some order. -/
  | events (poll : Socket → Interest → Option Readiness) (listening : Option Readiness) (now : Nat)
  | sweep (now : Nat)

/-- The steps of a round, if events come as they are reported. -/
def Round.steps (s : Server P W) : Round → List Step
  | .start bound => [.start bound]
  | .stop now => [.stop now]
  | .network f pending => [.network f pending]
  | .events poll listening now => (s.reports poll listening).map (.event now)
  | .sweep now => [.sweep now]

/-- The steps that a round may be taken by: the events of a batch come in any order. -/
def Round.Taken (s : Server P W) : Round → List Step → Prop
  | .events poll listening now, steps =>
      ∃ events : List Event, events.Perm (s.reports poll listening) ∧
        steps = events.map (.event now)
  | r, steps => steps = r.steps s

theorem Round.taken_steps (s : Server P W) (r : Round) : r.Taken s (r.steps s) := by
  cases r with
  | events poll listening now => exact ⟨_, .refl _, rfl⟩
  | _ => rfl

/-- Connections can be told apart by their slots, none of which is too high for an identity. -/
structure Orderly (s : Server P W) : Prop where
  filed : Filed s
  cells : s.connections.cells.size ≤ UInt32.size - 2

theorem Orderly.retains (h : Orderly s) (hretains : Retains s s') : Orderly s' where
  filed := h.filed.retains hretains
  cells := hretains.cells ▸ h.cells

theorem orderly_new (config : ServerConfig) (shared : W) : Orderly (.new P config shared) where
  filed := filed_new config shared
  cells := Nat.zero_le _

/-- The table does not get full if all who wait come in. -/
def Spare (s : Server P W) : Prop := s.connectionCount + s.waiting ≤ UInt32.size - 2

theorem Orderly.room (h : Orderly s) (hspare : Spare s) : Room s.waiting s := ⟨h.cells, hspare⟩

variable [Protocol P W]

/-- The states behind the rounds of a schedule. -/
inductive Passes (fuel : Nat) : Server P W → List Round → List (Server P W) → Prop
  | done (s : Server P W) : Passes fuel s [] []
  | round {s s' : Server P W} {r : Round} {steps : List Step} {rounds : List Round}
      {states : List (Server P W)} (htaken : r.Taken s steps) (hs : s.run fuel steps = some s')
      (hrest : Passes fuel s' rounds states) : Passes fuel s (r :: rounds) (s' :: states)

/-- The states behind the rounds if events come as they are reported. -/
def pass (fuel : Nat) (s : Server P W) : List Round → Option (List (Server P W))
  | [] => some []
  | r :: rounds => do
      let s' ← s.run fuel (r.steps s)
      return s' :: (← pass fuel s' rounds)

theorem passes_of_pass {rounds : List Round} {states : List (Server P W)}
    (h : s.pass fuel rounds = some states) : Passes fuel s rounds states := by
  induction rounds generalizing s states with
  | nil =>
      cases h
      exact .done s
  | cons r rounds ih =>
      rcases Option.bind_eq_some_iff.mp h with ⟨s', hs, hrest⟩
      rcases Option.bind_eq_some_iff.mp hrest with ⟨states', hstates, hcons⟩
      cases hcons
      exact .round (r.taken_steps s) hs (ih hstates)

theorem run_singleton (fuel : Nat) (s : Server P W) (e : Step) :
    s.run fuel [e] = s.step fuel e := by
  rw [run, List.foldlM_cons]
  exact bind_pure _

/-- What a round can make of a server. -/
inductive Leads (fuel : Nat) (s : Server P W) : Round → Server P W → Prop
  | start (bound : Except IoError Unit) : Leads fuel s (.start bound) (s.start bound).2
  | stop (now : Nat) : Leads fuel s (.stop now) (s.stop now)
  | network (f : ConnId → Socket → Socket) (pending : List (Except IoError Socket)) :
      Leads fuel s (.network f pending) (s.move f pending)
  /-- Every connection deals with its own event. -/
  | events {poll : Socket → Interest → Option Readiness} {listening : Option Readiness} {now : Nat}
      {events : List Event} {s' : Server P W} (hrunning : s.running = true)
      (hevents : events.Perm (s.reports poll listening)) (htimely : Timely events s)
      (hhandles : Handles fuel now events s s') : Leads fuel s (.events poll listening now) s'
  /-- A server that does not run leaves the events alone. -/
  | unheard (poll : Socket → Interest → Option Readiness) (listening : Option Readiness) (now : Nat)
      (hrunning : s.running = false) : Leads fuel s (.events poll listening now) s
  | sweep (now : Nat) (hrunning : s.running = true) : Leads fuel s (.sweep now) (s.evictIdle now)
  | unswept (now : Nat) (hrunning : s.running = false) : Leads fuel s (.sweep now) s

theorem leads_of_taken (hP : Protocol.Separate P W) (h : Orderly s) (hspare : Spare s) {r : Round}
    {steps : List Step} (htaken : r.Taken s steps) (hs : s.run fuel steps = some s') :
    Leads fuel s r s' := by
  cases r with
  | start bound =>
      cases htaken
      cases (run_singleton ..).symm.trans hs
      exact .start bound
  | stop now =>
      cases htaken
      cases (run_singleton ..).symm.trans hs
      exact .stop now
  | network f pending =>
      cases htaken
      cases (run_singleton ..).symm.trans hs
      exact .network f pending
  | sweep now =>
      cases htaken
      cases (run_singleton ..).symm.trans hs
      cases hrunning : s.running with
      | false => exact .unswept now hrunning
      | true => exact .sweep now hrunning
  | events poll listening now =>
      rcases htaken with ⟨events, hevents, rfl⟩
      rw [run_events] at hs
      cases hrunning : s.running with
      | false =>
          rw [hrunning] at hs
          cases hs
          exact .unheard poll listening now hrunning
      | true =>
          rw [if_pos hrunning] at hs
          have htimely := timely_reports h.filed (h.room hspare) hevents
          -- the batch ends, so each connection in it does, and then its outcome is known
          rcases handles_dispatchAll hP htimely (answers_of_dispatchAll hP htimely hs) with
            ⟨s₁, hs₁, hhandles⟩
          rw [hs] at hs₁
          cases hs₁
          exact .events hrunning hevents htimely hhandles

theorem Leads.orderly {r : Round} (hleads : Leads fuel s r s') (h : Orderly s) : Orderly s' := by
  cases hleads with
  | start bound => exact h.retains (retains_start s bound)
  | stop now => exact h.retains (retains_stop s now)
  | network f pending => exact h.retains (retains_move s f pending)
  | events _ _ _ hhandles => exact ⟨hhandles.filed, hhandles.cells⟩
  | unheard | unswept => exact h
  | sweep now => exact h.retains (retains_evictIdle s now)

end Server
end TcpReactor
