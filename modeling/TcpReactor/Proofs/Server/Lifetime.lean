import TcpReactor.Proofs.Server.Trace
import TcpReactor.Proofs.Session.CloseNotice

namespace TcpReactor

/-! # The lifetimes of connections

A connection is put in the table with its session open, is told of its close once, and is taken out
then. `Happening.ClosedOnce` says so of what happens under one identity. A watch reads this one by
one, and whatever it accepts is such (`Happening.ClosedOnce.of_accepts`).

An identity may be given out again, long after its connection is gone. Its lifetimes follow each
other then.

The notices that are counted here stand in the traces of the sessions, and so they are calls of
`onClose`, one for one (`Session.closes_heard`).
-/

open Session (Cycle CloseDemand closeWatch)

namespace Happening

/-- A connection was put in the table and not taken out since. -/
def InTable (hs : List Happening) : Prop :=
  ∃ before time, hs = before ++ .registered :: time ∧ .removed ∉ time

/-- What happens under one identity, as it should be. -/
structure ClosedOnce (hs : List Happening) : Prop where
  /-- In the time from when it is put in the table to when it is taken out, a connection is told of
  its close exactly once. -/
  told : ∀ before time after, hs = before ++ .registered :: (time ++ .removed :: after) →
    .removed ∉ time → (events time).countP Session.Event.tellsClose = 1
  /-- Its session is not opened again meanwhile. -/
  opened : ∀ before time after, hs = before ++ .registered :: (time ++ after) → .removed ∉ time →
    ∀ e ∈ events time, e.opens = false
  /-- After the notice of a close, nothing is told to anybody until a session is opened. -/
  last : ∀ before notice more after, hs = before ++ .session notice :: (more ++ after) →
    notice.tellsClose = true → (∀ e ∈ events more, e.opens = false) →
    ∀ e ∈ events more, e.tells = false
  /-- Nobody is put in the table a second time without having been taken out. -/
  again : ∀ before time after, hs = before ++ .registered :: (time ++ .registered :: after) →
    .removed ∈ time
  /-- Who is taken out was in the table. -/
  removed : ∀ before after, hs = before ++ .removed :: after → InTable before

/-! ## Keeping watch -/

/-- What is known of an identity: whether its connection is in the table, and how far the cycle of
its session has come. -/
structure Watch where
  registered : Bool := false
  cycle : Cycle := .ended

namespace Watch

def next (w : Watch) : Happening → Watch
  | .registered => { w with registered := true }
  | .removed => { w with registered := false }
  | .session e => { w with cycle := w.cycle.next e }

/-- What is demanded of a happening. -/
def Demand (w : Watch) : Happening → Prop
  | .registered => w.registered = false ∧ w.cycle = .running
  | .removed => w.registered = true ∧ w.cycle = .ended
  | .session e => CloseDemand w.cycle e ∧ (e.opens = true → w.registered = false)

/-- What is known behind some happenings. -/
def after (w : Watch) (hs : List Happening) : Watch := hs.foldl next w

/-- All happenings are as demanded. -/
def Accepts : Watch → List Happening → Prop
  | _, [] => True
  | w, h :: hs => w.Demand h ∧ Accepts (w.next h) hs

variable {w : Watch} {h : Happening} {hs hs' : List Happening}

theorem after_append : w.after (hs ++ hs') = (w.after hs).after hs' := List.foldl_append

theorem accepts_append : w.Accepts (hs ++ hs') ↔ w.Accepts hs ∧ (w.after hs).Accepts hs' := by
  induction hs generalizing w with
  | nil => simp [Accepts, after]
  | cons h hs ih =>
      simp only [List.cons_append, Accepts, ih, and_assoc]
      rfl

/-- Of the events of a session, their own watch is kept. -/
theorem after_session (w : Watch) (es : List (Session.Event Socket)) :
    w.after (es.map .session) = { w with cycle := (closeWatch Socket).after w.cycle es } := by
  induction es generalizing w with
  | nil => rfl
  | cons e es ih => exact ih (w.next (.session e))

theorem accepts_session {es : List (Session.Event Socket)} : w.Accepts (es.map .session) ↔
    (closeWatch Socket).Accepts w.cycle es ∧ ∀ e ∈ es, e.opens = true → w.registered = false := by
  induction es generalizing w with
  | nil => simp [Accepts, Session.Observer.Accepts]
  | cons e es ih =>
      rw [List.map_cons, Accepts, ih, List.forall_mem_cons]
      exact and_and_and_comm

/-- And so among other things that happen. -/
theorem Accepts.events (h : w.Accepts hs) :
    (closeWatch Socket).Accepts w.cycle (events hs) ∧
      (w.after hs).cycle = (closeWatch Socket).after w.cycle (Happening.events hs) := by
  induction hs generalizing w with
  | nil => exact ⟨trivial, rfl⟩
  | cons h' hs ih =>
      rcases h with ⟨hdemand, haccepts⟩
      cases h' with
      | registered | removed => exact ih haccepts
      | session e => exact ⟨⟨hdemand.1, (ih haccepts).1⟩, (ih haccepts).2⟩

theorem Accepts.demand (h' : w.Accepts (hs ++ h :: hs')) : (w.after hs).Demand h :=
  (accepts_append.mp h').2.1

/-! ## In the table -/

theorem inTable_cons : InTable (h :: hs) ↔ InTable hs ∨ (h = .registered ∧ .removed ∉ hs) := by
  constructor
  · rintro ⟨before, time, heq, htime⟩
    -- the registration that counts is this happening or a later one
    cases before with
    | nil =>
        cases heq
        exact .inr ⟨rfl, htime⟩
    | cons h' before =>
        cases heq
        exact .inl ⟨before, time, rfl, htime⟩
  · rintro (⟨before, time, rfl, htime⟩ | ⟨rfl, htime⟩)
    · exact ⟨h :: before, time, rfl, htime⟩
    · exact ⟨[], hs, rfl, htime⟩

theorem registered_after : (w.after hs).registered = true ↔
    InTable hs ∨ (w.registered = true ∧ .removed ∉ hs) := by
  induction hs generalizing w with
  | nil => simp [after, InTable]
  | cons h hs ih =>
      rw [show w.after (h :: hs) = (w.next h).after hs from rfl, ih, inTable_cons]
      cases h with
      | registered => simpa [next] using fun _ => Or.inr
      | removed => simp [next]
      | session e => simp [next]

/-- While a connection is in the table, its session is not opened. -/
theorem Accepts.opens (h : w.Accepts hs) (hregistered : w.registered = true)
    (hstays : .removed ∉ hs) : ∀ e ∈ Happening.events hs, e.opens = false := by
  -- on the happenings; the mark of a registered connection stays as long as it is not removed
  induction hs generalizing w with
  | nil => simp [Happening.events]
  | cons h' hs ih =>
      rcases h with ⟨hdemand, haccepts⟩
      rw [List.mem_cons, not_or] at hstays
      cases h' with
      | registered => exact ih haccepts rfl hstays.2
      | removed => exact absurd rfl hstays.1
      | session e =>
          refine List.forall_mem_cons.mpr ⟨?_, ih haccepts hregistered hstays.2⟩
          cases hopens : e.opens with
          | false => rfl
          | true => rw [hdemand.2 hopens] at hregistered; cases hregistered

end Watch

/-- What a watch accepts is as it should be. -/
theorem ClosedOnce.of_accepts {hs : List Happening} (h : ({} : Watch).Accepts hs) :
    ClosedOnce hs := by
  -- from where a connection is put in the table, the watch goes on over a running cycle
  have hregistered : ∀ {before rest}, hs = before ++ .registered :: rest →
      ∃ w : Watch, w.registered = true ∧ w.cycle = .running ∧ w.Accepts rest := by
    intro before rest heq
    rw [heq] at h
    rcases (Watch.accepts_append.mp h).2 with ⟨⟨_, hcycle⟩, haccepts⟩
    exact ⟨_, rfl, by exact hcycle, haccepts⟩
  constructor
  case told =>
    intro before time after heq htime
    rcases hregistered heq with ⟨w, hreg, hcycle, haccepts⟩
    rcases Watch.accepts_append.mp haccepts with ⟨hopen, ⟨_, hended⟩, _⟩
    rcases hopen.events with ⟨hevents, hafter⟩
    have hcount := Session.countP_tellsClose_cycle hevents (hopen.opens hreg htime)
    rw [← hafter, hended, hcycle] at hcount
    exact hcount
  case opened =>
    intro before time after heq htime
    rcases hregistered heq with ⟨w, hreg, _, haccepts⟩
    exact (Watch.accepts_append.mp haccepts).1.opens hreg htime
  case last =>
    intro before notice more after heq hnotice hopens
    rw [heq] at h
    have hmore := (Watch.accepts_append.mp (Watch.accepts_append.mp h).2.2).1.events.1
    rw [show (Watch.next _ (.session notice)).cycle = .ended from
      Cycle.next_of_tellsClose hnotice] at hmore
    exact Session.tells_eq_false hmore hopens
  case again =>
    intro before time after heq
    rcases hregistered heq with ⟨w, hreg, _, haccepts⟩
    refine Classical.not_not.mp fun hstays => ?_
    have hfree := haccepts.demand.1
    rw [Watch.registered_after.mpr (.inr ⟨hreg, hstays⟩)] at hfree
    cases hfree
  case removed =>
    intro before after heq
    rw [heq] at h
    rcases Watch.registered_after.mp h.demand.1 with htable | ⟨hreg, _⟩
    · exact htable
    · cases hreg

end Happening
end TcpReactor
