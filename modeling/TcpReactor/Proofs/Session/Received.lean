import Mathlib.Algebra.GroupWithZero.Nat
import TcpReactor.Proofs.Session.Observer

namespace TcpReactor

/-! # What has been received

A session gets its bytes from the transport and from nowhere else. What a handler and the recv
buffer hold together is then no more than what was received, as long as nobody but the handler
reaches for either of them.

* `Session.received` counts the bytes in a trace, and `Session.tally` is the observer that does so;
* `Driven.Budget` lists what has to be shown of a bound on what is held, and by
  `Driven.Budget.run` it holds along every run.
-/

namespace Session

variable {T : Type}

/-- The number of bytes that come in with an event. -/
def Event.brought : Event T → Nat
  | .received (.ok (.moved data)) => data.length
  | _ => 0

/-- The number of bytes that come in during a stretch of a trace. -/
def received (es : List (Event T)) : Nat := (es.map Event.brought).sum

theorem received_cons (e : Event T) (es : List (Event T)) :
    received (e :: es) = e.brought + received es := rfl

theorem received_append (es es' : List (Event T)) :
    received (es ++ es') = received es + received es' := by
  rw [received, List.map_append, List.sum_append]
  rfl

/-- The observer that counts them, and demands nothing. -/
def tally : Observer Nat T where
  next n e := n + e.brought
  demands _ _ := True

theorem after_tally (n : Nat) (es : List (Event T)) : tally.after n es = n + received es := by
  induction es generalizing n with
  | nil => rfl
  | cons e es ih =>
      rw [received_cons, ← Nat.add_assoc]
      exact ih (n + e.brought)

theorem keeps_tally {α : Type} {I : Nat → α → Prop} {n : Nat} {es : List (Event T)} {a : α} :
    tally.Keeps I n es a ↔ I (n + received es) a := by
  have haccepts : tally.Accepts n es := by
    induction es generalizing n with
    | nil => trivial
    | cons e es ih => exact ⟨trivial, ih⟩
  rw [← after_tally]
  exact ⟨fun h => (h fun _ _ => trivial).2, fun h _ => ⟨haccepts, h⟩⟩

/-! ## The recv buffer -/

variable [Transport T] {s : Session T}

/-- A recv buffer holds what it held, and what was received. -/
theorem length_receive (s : Session T) (n : Nat) :
    (s.receive n).2.recvBuffer.length ≤ s.recvBuffer.length + received s.receiveEvents := by
  induction s, n using receive.induct with
  | case1 s n transport hrecv
  | case2 s n transport hrecv
  | case5 s n e transport hrecv =>
      rw [receive_eq, hrecv]
      exact Nat.le_add_right _ _
  | case3 s n b data transport hrecv e hwrite =>
      rw [receive_eq, hrecv]
      simp only [hwrite]
      exact Nat.le_add_right _ _
  | case4 s n b data transport hrecv recvBuffer hwrite ih =>
      rw [receive_eq, receiveEvents_eq, hrecv]
      simp only [hwrite]
      -- the chunk is counted on both sides
      refine Nat.le_trans ih (Nat.le_of_eq ?_)
      rw [received_cons, ← Nat.add_assoc]
      show recvBuffer.length + _ = s.recvBuffer.length + (b :: data).length + _
      rw [← recvBuffer.length_contents, StreamBuffer.contents_write hwrite, List.length_append,
        StreamBuffer.length_contents]

theorem length_close (s : Session T) : s.close.recvBuffer.length ≤ s.recvBuffer.length := by
  rw [close]
  split
  · exact Nat.le_refl _
  · exact Nat.zero_le _

theorem length_openUp (s : Session T) : s.openUp.2.recvBuffer.length ≤ s.recvBuffer.length := by
  rw [openUp]
  split
  · exact Nat.le_refl _
  split
  · exact Nat.le_refl _
  rename_i recvBuffer hrecv
  split
  · exact Nat.zero_le _
  split
  · show recvBuffer.length ≤ _
    rw [← recvBuffer.length_contents, StreamBuffer.contents_openUp hrecv]
    exact Nat.zero_le _
  · exact Nat.zero_le _

/-- Queueing puts nothing into it. -/
theorem length_queues {c : Call} (hc : c.queues = true) (s : Session T) :
    (s.perform c).2.recvBuffer.length ≤ s.recvBuffer.length := by
  rcases queues_changes hc s with ⟨_, _, hs⟩
  exact Nat.le_of_eq (by rw [hs])

end Session

/-! ## What is held -/

/-- `J n h l` says that a handler `h` and a recv buffer with `l` bytes hold no more than `n`. What
comes into the recv buffer is charged to `n`, and a callback leaves no more than there was. -/
structure Driven.Budget (T : Type) {H : Type} [Transport T] [Handler T H]
    (J : Nat → H → Nat → Prop) : Prop where
  charge : ∀ {n k h l l'}, l' ≤ l + k → J n h l → J (n + k) h l'
  onRecv : ∀ {n h} {s : Session T}, J n h s.recvBuffer.length →
    J n ((Handler.onRecv h).run s).1 ((Handler.onRecv h).run s).2.recvBuffer.length
  onSend : ∀ {n h k} {s : Session T}, J n h s.recvBuffer.length →
    J n ((Handler.onSend h k).run s).1 ((Handler.onSend h k).run s).2.recvBuffer.length
  onClose : ∀ {n h l} (s : Session T), J n h l → J n (Handler.onClose h s) l
  onInterest : ∀ {n h l on} (s : Session T), J n h l → J n (Handler.onInterest h s on) l

/-- A step in which the owner does not reach for the handler or the recv buffer. -/
def Driven.Step.spares {H T : Type} : Driven.Step H T → Bool
  | .visit _ => false
  | .editHandler _ => false
  | .editRecvBuffer _ => false
  | _ => true

namespace Driven.Budget

open Session

variable {T H : Type} [Transport T] [Handler T H] {J : Nat → H → Nat → Prop} {h : H}
  {s : Session T} {d d' : Driven H T} {n m fuel : Nat} {answer : Except SessionError Unit}

/-- The same of a session with its handler. -/
def Holds (J : Nat → H → Nat → Prop) (n : Nat) (d : Driven H T) : Prop :=
  J n d.handler d.session.recvBuffer.length

/-- What brings nothing into the recv buffer is free. -/
theorem free (hJ : Budget T J) (hlength : s.recvBuffer.length ≤ d.session.recvBuffer.length)
    (hn : n ≤ m) (hhold : Holds J n d) : Holds J m { d with session := s } := by
  obtain ⟨k, rfl⟩ := Nat.exists_eq_add_of_le hn
  exact hJ.charge (Nat.le_add_right_of_le hlength) hhold

theorem mono (hJ : Budget T J) (hn : n ≤ m) (hhold : Holds J n d) : Holds J m d :=
  hJ.free (Nat.le_refl _) hn hhold

theorem syncInterest (hJ : Budget T J) (hhold : Holds J n d) : Holds J n d.syncInterest := by
  unfold Driven.syncInterest
  dsimp only
  split
  · exact hJ.onInterest _ hhold
  · exact hhold

theorem settle (hJ : Budget T J) (hhold : Holds J n d) : Holds J n d.settle := by
  unfold Driven.settle
  split
  · exact hJ.syncInterest (hJ.onClose _ hhold)
  · exact hJ.syncInterest hhold

theorem close (hJ : Budget T J) (hhold : Holds J n d) : Holds J n d.close := by
  unfold Driven.close
  split
  · exact hhold
  · exact hJ.settle (hJ.free (length_close d.session) (Nat.le_refl n) hhold)

theorem told (hJ : Budget T J) (hhold : Holds J n d) : Holds J n (d.notify Handler.onRecv) :=
  hJ.settle (d := ⟨_, _⟩) (hJ.onRecv hhold)

theorem toldSent (hJ : Budget T J) (k : Nat) (hhold : Holds J n d) :
    Holds J n (d.notify (Handler.onSend · k)) :=
  hJ.settle (d := ⟨_, _⟩) (hJ.onSend hhold)

/-- A readable pass is charged with what it receives. -/
theorem readable (hJ : Budget T J) (hhold : Holds J n d) :
    Holds J (n + received d.readableEvents) d.readable.2 := by
  have hreceived := hJ.charge (length_receive d.session 0) hhold
  unfold Driven.readable Driven.readableEvents
  split
  · rw [received_append, ← Nat.add_assoc]
    refine hJ.mono (Nat.le_add_right _ _) ?_
    rcases hreceive : d.session.receive 0 with ⟨_ | k | e, s⟩
    all_goals rw [hreceive] at hreceived
    · exact hJ.told (d := { d with session := s }) hreceived
    · dsimp only
      split
      · exact hJ.close (hJ.told (d := { d with session := s }) hreceived)
      · exact hJ.close (d := { d with session := s }) hreceived
    · exact hJ.close (d := { d with session := s }) hreceived
  · exact hhold

/-- A writable pass. -/
theorem sendAll (hJ : Budget T J) (hopen : d.session.isOpen = true) (hhold : Holds J n d)
    (hsend : d.sendAll fuel = some (answer, d')) :
    Holds J (n + received (d.sendAllEvents fuel)) d' := by
  -- whatever comes in meanwhile is allowed
  have hfree {n : Nat} {es : List (Event T)} {d : Driven H T} (hhold : Holds J n d) :
      tally.Keeps (Holds J) n es d :=
    keeps_tally.mpr (hJ.mono (Nat.le_add_right _ _) hhold)
  have hkeeps : tally.Keeps (Observer.Answered (Holds J)) n (d.sendAllEvents fuel)
      (d.sendAll fuel) := by
    refine Observer.Keeps.sendAll (S := fun _ => Holds J) ?_ ?_ ?_ ?_ hopen hhold
    · intro n d _ hhold
      refine keeps_tally.mpr (hJ.free ?_ (Nat.le_add_right _ _) hhold)
      exact Nat.le_of_eq (congrArg _ d.session.recvBuffer_sendOnce)
    · exact fun _ hhold => hfree (hJ.syncInterest hhold)
    · exact fun hhold => hfree (hJ.close hhold)
    · exact fun hhold => hfree (hJ.toldSent _ hhold)
  exact keeps_tally.mp hkeeps answer d' hsend

theorem queued (hJ : Budget T J) {c : Call} (hc : c.queues = true) (hhold : Holds J n d)
    (hperform : d.perform fuel c = some (answer, d')) : Holds J n d' := by
  have hqueued := hJ.free (length_queues hc d.session) (Nat.le_refl n) hhold
  rw [perform_of_queues fuel d hc] at hperform
  rcases hqueue : d.session.perform c with ⟨e | _, s⟩
  all_goals
    rw [hqueue] at hperform hqueued
    cases hperform
  · exact hqueued
  · exact hJ.syncInterest hqueued

/-- A call is charged with what comes in meanwhile. -/
theorem perform (hJ : Budget T J) {c : Call} (hhold : Holds J n d)
    (hperform : d.perform fuel c = some (answer, d')) :
    Holds J (n + received (d.passEvents fuel c)) d' := by
  -- bytes come in by a pass only, be it this call or one that a callback makes meanwhile
  cases c with
  | openUp =>
      cases hperform
      exact hJ.free d.session.length_openUp (Nat.le_add_right _ _) hhold
  | close =>
      cases hperform
      exact hJ.mono (Nat.le_add_right _ _) (hJ.close hhold)
  | readable =>
      have hd : d.readable.2 = d' := congrArg Prod.snd (Option.some.inj hperform)
      rw [← hd]
      exact hJ.readable hhold
  | writable =>
      by_cases hopen : d.session.isOpen = true
      · simp only [Driven.perform, Driven.writable, hopen, if_true] at hperform
        simp only [Driven.passEvents, hopen, if_true]
        exact hJ.sendAll hopen hhold hperform
      · simp only [Driven.perform, Driven.writable, hopen] at hperform
        cases hperform
        exact hJ.mono (Nat.le_add_right _ _) hhold
  | queueSend data => exact hJ.mono (Nat.le_add_right _ _) (hJ.queued rfl hhold hperform)
  | sendFrame payload => exact hJ.mono (Nat.le_add_right _ _) (hJ.queued rfl hhold hperform)

theorem step (hJ : Budget T J) {step : Driven.Step H T} (hspares : step.spares = true)
    (hhold : Holds J n d) (hstep : d.step fuel step = some d') :
    Holds J (n + received (d.stepEvents fuel step)) d' := by
  cases step with
  | visit | editHandler | editRecvBuffer => cases hspares
  | editTransport | wait =>
      cases hstep
      exact hJ.mono (d := { d with session := _ }) (Nat.le_add_right _ _) hhold
  | call c =>
      obtain ⟨⟨answer, d₁⟩, hperform, rfl⟩ := Option.map_eq_some_iff.mp hstep
      refine hJ.mono (Nat.add_le_add_left ?_ n) (hJ.perform hhold hperform)
      -- the events inside the call are among those of the step
      simp only [Driven.stepEvents, Driven.workEvents, Driven.performEvents, hperform]
      rw [received_append, received_cons, received_append]
      omega

/-- A run is charged with what is received in it. -/
theorem run (hJ : Budget T J) {steps : List (Driven.Step H T)}
    (hsteps : ∀ step ∈ steps, step.spares = true) (hhold : Holds J n d)
    (hrun : steps.foldlM (Driven.step fuel) d = some d') :
    Holds J (n + received (d.trace fuel steps)) d' := by
  have hkeeps : tally.Keeps (Observer.Reached (Holds J)) n (d.trace fuel steps)
      (steps.foldlM (Driven.step fuel) d) := by
    refine Observer.Keeps.trace ?_ hsteps hhold
    intro n d step hspares hhold
    exact keeps_tally.mpr fun d' hstep => hJ.step hspares hhold hstep
  exact keeps_tally.mp hkeeps d' hrun

end Driven.Budget
end TcpReactor
