import TcpReactor.Proofs.Session.CloseNotice
import TcpReactor.Proofs.Session.Outbound
import TcpReactor.Proofs.Session.Progress

namespace TcpReactor

/-! # The traffic of a service

A service has its session to itself: the owner makes readable and writable passes, and all else is
done by the callbacks. A `Conduct` says how the state of such a handler and the two buffers of its
session go together with the bytes that have come in, that were queued and that have gone out.

* `Conduct.Upheld` lists what has to be shown of a conduct: an item for the bytes that come in, one
  for the bytes that go out, and one for each callback;
* `Conduct.Upheld.run`: then every run of passes, over every honest transport, keeps to it.
-/

/-- A step by which the owner leaves the session to its service: a pass, or only the transport moves
or time passes. -/
def Driven.Step.isPass {H T : Type} : Driven.Step H T → Bool
  | .call c => c.isPass
  | .editTransport _ => true
  | .wait _ => true
  | _ => false

namespace Session

/-- Something waits to be sent as long as the send buffer holds something. -/
theorem hasPendingSend_iff {T : Type} (s : Session T) :
    s.hasPendingSend = true ↔ s.sendBuffer.contents ≠ [] := by
  rw [hasPendingSend, Bool.not_eq_true', ← Bool.not_eq_true, StreamBuffer.isEmpty_iff]

/-- The bytes of both directions since the last successful open. -/
structure Traffic extends Ledger where
  /-- What the transport has delivered. -/
  inbound : Bytes := []
  deriving DecidableEq, Repr

namespace Traffic

/-- Bytes come in. -/
def arrive (t : Traffic) (data : Bytes) : Traffic := { t with inbound := t.inbound ++ data }

/-- Bytes go out. -/
def leave (t : Traffic) (data : Bytes) : Traffic := { t with accepted := t.accepted ++ data }

/-- Bytes are queued. -/
def enqueue (t : Traffic) (data : Bytes) : Traffic := { t with queued := t.queued ++ data }

@[simp] theorem arrive_nil (t : Traffic) : t.arrive [] = t := by
  rw [arrive, List.append_nil]

@[simp] theorem leave_nil (t : Traffic) : t.leave [] = t := by
  rw [leave, List.append_nil]

@[simp] theorem enqueue_nil (t : Traffic) : t.enqueue [] = t := by
  rw [enqueue, List.append_nil]

/-- Everything that is queued was taken or waits in the buffer. -/
def Balanced (t : Traffic) (sendBuffer : StreamBuffer) : Prop :=
  t.accepted ++ sendBuffer.contents = t.queued

/-- What leaves goes over from the buffer to the transport. -/
theorem Balanced.leave {t : Traffic} {sendBuffer sendBuffer' : StreamBuffer} {n : Nat}
    (h : t.Balanced sendBuffer) (hconsume : sendBuffer.consume n = .ok sendBuffer') :
    (t.leave (sendBuffer.contents.take n)).Balanced sendBuffer' := by
  show t.accepted ++ sendBuffer.contents.take n ++ sendBuffer'.contents = t.queued
  rw [StreamBuffer.contents_consume hconsume, List.append_assoc, List.take_append_drop]
  exact h

theorem Balanced.enqueue {t : Traffic} {sendBuffer sendBuffer' : StreamBuffer} {data : Bytes}
    (h : t.Balanced sendBuffer) (hcontents : sendBuffer'.contents = sendBuffer.contents ++ data) :
    (t.enqueue data).Balanced sendBuffer' := by
  show t.accepted ++ sendBuffer'.contents = t.queued ++ data
  rw [hcontents, ← List.append_assoc, h]

/-- If nothing waits to be sent, all that was queued was taken. -/
theorem Balanced.sent {T : Type} {t : Traffic} {s : Session T} (h : t.Balanced s.sendBuffer)
    (hnone : s.hasPendingSend = false) : t.accepted = t.queued := by
  have hempty : s.sendBuffer.contents = [] := by
    rw [← StreamBuffer.isEmpty_iff]
    simpa [hasPendingSend] using hnone
  rwa [Balanced, hempty, List.append_nil] at h

/-- Enter an event. -/
def next {T : Type} (taken : T → Bytes) (t : Traffic) : Event T → Traffic
  | .called .openUp (some (.ok ())) _ => {}
  | .received (.ok (.moved data)) => t.arrive data
  | e => { t with toLedger := t.toLedger.next taken e }

/-- The traffic after a stretch of a trace. -/
def after {T : Type} (taken : T → Bytes) (t : Traffic) (es : List (Event T)) : Traffic :=
  es.foldl (next taken) t

theorem after_concat {T : Type} (taken : T → Bytes) (t : Traffic) (es : List (Event T))
    (e : Event T) : t.after taken (es ++ [e]) = (t.after taken es).next taken e :=
  List.foldl_append

end Traffic

/-- What ends a connection although no callback asks for it: the peer closes, the transport fails,
or a buffer has no room. -/
def Event.mishap {T : Type} : Event T → Bool
  | .received (.ok (.moved [])) => true
  | .received (.error _) => true
  | .sent _ _ (.ok (.moved 0)) _ => true
  | .sent _ _ (.error _) _ => true
  | .called .readable (some (.error (.recvBuffer _))) _ => true
  | .called c (some (.error _)) _ => c.queues
  | _ => false

/-- No mishap. -/
def Event.calm {T : Type} (e : Event T) : Prop := e.mishap = false

/-- How the state of a handler and the two buffers of its session go together with their traffic. -/
structure Conduct (H : Type) where
  /-- Between two passes. -/
  resting : Traffic → H → StreamBuffer → StreamBuffer → Prop
  /-- While a pass receives. -/
  arriving : Traffic → H → StreamBuffer → StreamBuffer → Prop
  /-- When a chunk has left, and the handler does not know yet. -/
  leaving : Traffic → H → StreamBuffer → StreamBuffer → Prop
  /-- When the session has closed. -/
  closed : Traffic → Prop

variable {H T : Type} [Transport T] {taken : T → Bytes} {assumes : Event T → Prop}
  {c : Conduct H} {t : Traffic} {d : Driven H T} {s : Session T}

/-- The conduct of a session between two calls. -/
structure Conduct.Rests (c : Conduct H) (t : Traffic) (d : Driven H T) : Prop where
  told : d.session.closePending = false
  opened : d.session.phase = .opened →
    c.resting t d.handler d.session.recvBuffer d.session.sendBuffer
  closed : d.session.phase = .closed → c.closed t

/-- The conduct of a session behind a callback, before anything is made up for. -/
structure Conduct.Ran (c : Conduct H) (t : Traffic) (r : H × Session T) : Prop where
  opened : r.2.phase = .opened →
    r.2.closePending = false ∧ c.resting t r.1 r.2.recvBuffer r.2.sendBuffer
  closed : r.2.phase = .closed → c.closed t

omit [Transport T] in
theorem Conduct.Ran.of_opened {r : H × Session T} (hphase : r.2.phase = .opened)
    (hpending : r.2.closePending = false) (h : c.resting t r.1 r.2.recvBuffer r.2.sendBuffer) :
    c.Ran t r where
  opened _ := ⟨hpending, h⟩
  closed hclosed := by rw [hphase] at hclosed; cases hclosed

omit [Transport T] in
theorem Conduct.Ran.of_closed {r : H × Session T} (hphase : r.2.phase = .closed)
    (h : c.closed t) : c.Ran t r where
  opened hopen := by rw [hphase] at hopen; cases hopen
  closed _ := h

/-- Who watches the traffic of a service demands that whatever the conduct says of a session that
has closed is so from the moment when it is first seen closed. -/
def Conduct.watch (c : Conduct H) (taken : T → Bytes) (assumes : Event T → Prop) :
    Observer Traffic T where
  next := Traffic.next taken
  demands t e := e.shows .closed = true → c.closed (t.next taken e)
  assumes

/-- Mishaps have to be reckoned with. -/
def Tolerates (assumes : Event T → Prop) : Prop := ∃ e, e.mishap = true ∧ assumes e

theorem not_tolerates_calm {T : Type} : ¬ Tolerates (Event.calm (T := T)) := by
  rintro ⟨e, hmishap, hcalm⟩
  rw [Event.calm, hmishap] at hcalm
  cases hcalm

/-- What has to be shown of a conduct. -/
structure Conduct.Upheld [Handler T H] (c : Conduct H) (taken : T → Bytes)
    (assumes : Event T → Prop) : Prop where
  arriving : ∀ {t h recv send}, c.resting t h recv send → c.arriving t h recv send
  arrived : ∀ {t h data send} {recv recv' : StreamBuffer}, recv.write data = .ok recv' →
    c.arriving t h recv send → c.arriving (t.arrive data) h recv' send
  left : ∀ {t h recv n} {send send' : StreamBuffer}, send.consume n = .ok send' →
    c.resting t h recv send → c.leaving (t.leave (send.contents.take n)) h recv send'
  onRecv : ∀ {t h} {s : Session T}, s.phase = .opened → s.closePending = false →
    c.arriving t h s.recvBuffer s.sendBuffer →
    (c.watch taken assumes).Keeps c.Ran t ((Handler.onRecv h).events s) ((Handler.onRecv h).run s)
  onSend : ∀ {t h n} {s : Session T}, s.phase = .opened → s.closePending = false →
    c.leaving t h s.recvBuffer s.sendBuffer →
    (c.watch taken assumes).Keeps c.Ran t ((Handler.onSend h n).events s)
      ((Handler.onSend h n).run s)
  onInterest : ∀ {t h recv send on} {s : Session T}, c.resting t h recv send →
    c.resting t (Handler.onInterest h s on) recv send
  /-- If the session closes by a mishap. What the recv buffer had no room for is lost. -/
  mishap : Tolerates assumes → ∀ {t h recv send lost}, c.arriving t h recv send →
    c.closed (t.arrive lost)

/-- A call that is no pass. The owner of a service makes passes only, so such calls are made by its
callbacks. -/
def Event.isReply {T : Type} : Event T → Bool
  | .called call _ _ => !call.isPass
  | _ => false

/-- An observer that keeps account of the traffic of a service. What it demands of the calls of
callbacks is its own affair; otherwise it demands no more than that a session which has closed is as
the conduct says. -/
structure Conduct.Audits (c : Conduct H) (taken : T → Bytes) (o : Observer Traffic T) : Prop where
  next : ∀ t e, o.next t e = t.next taken e
  demands : ∀ {t e}, e.isReply = false → (e.shows .closed = true → c.closed (t.next taken e)) →
    o.demands t e

omit [Transport T] in
theorem Conduct.audits_watch (c : Conduct H) (taken : T → Bytes) (assumes : Event T → Prop) :
    c.Audits taken (c.watch taken assumes) where
  next _ _ := rfl
  demands _ h := h

/-- The auditor who demands `P` of the calls that callbacks make. -/
def Conduct.audit (c : Conduct H) (taken : T → Bytes) (P : Traffic → Event T → Prop) :
    Observer Traffic T where
  next := Traffic.next taken
  demands t e :=
    (e.shows .closed = true → c.closed (t.next taken e)) ∧ (e.isReply = true → P t e)

omit [Transport T] in
theorem Conduct.audits_audit (c : Conduct H) (taken : T → Bytes) (P : Traffic → Event T → Prop) :
    c.Audits taken (c.audit taken P) where
  next _ _ := rfl
  demands hreply h := ⟨h, fun hcall => by rw [hreply] at hcall; cases hcall⟩

/-- What has to be shown of a conduct for such an observer. A callback finds a lasting transport
open. -/
structure Conduct.Kept [Handler T H] (c : Conduct H) (taken : T → Bytes)
    (o : Observer Traffic T) : Prop extends c.Audits taken o where
  arriving : ∀ {t h recv send}, c.resting t h recv send → c.arriving t h recv send
  arrived : ∀ {t h data send} {recv recv' : StreamBuffer}, recv.write data = .ok recv' →
    c.arriving t h recv send → c.arriving (t.arrive data) h recv' send
  left : ∀ {t h recv n} {send send' : StreamBuffer}, send.consume n = .ok send' →
    c.resting t h recv send → c.leaving (t.leave (send.contents.take n)) h recv send'
  onRecv : ∀ {t h} {s : Session T}, s.phase = .opened → s.closePending = false →
    (Transport.Lasting T → s.isOpen = true) → c.arriving t h s.recvBuffer s.sendBuffer →
    o.Keeps c.Ran t ((Handler.onRecv h).events s) ((Handler.onRecv h).run s)
  onSend : ∀ {t h n} {s : Session T}, s.phase = .opened → s.closePending = false →
    (Transport.Lasting T → s.isOpen = true) → c.leaving t h s.recvBuffer s.sendBuffer →
    o.Keeps c.Ran t ((Handler.onSend h n).events s) ((Handler.onSend h n).run s)
  onInterest : ∀ {t h recv send on} {s : Session T}, c.resting t h recv send →
    c.resting t (Handler.onInterest h s on) recv send
  mishap : Tolerates o.assumes → ∀ {t h recv send lost}, c.arriving t h recv send →
    c.closed (t.arrive lost)

theorem Conduct.Upheld.kept [Handler T H] (hc : c.Upheld taken assumes) :
    c.Kept taken (c.watch taken assumes) where
  toAudits := c.audits_watch taken assumes
  arriving := hc.arriving
  arrived := hc.arrived
  left := hc.left
  onRecv hphase hpending _ := hc.onRecv hphase hpending
  onSend hphase hpending _ := hc.onSend hphase hpending
  onInterest := hc.onInterest
  mishap := hc.mishap

/-! ## Open transports -/

/-- What is received leaves a lasting transport open. -/
theorem isOpen_receive (lasting : Transport.Lasting T) {received : Nat} {r : ReadEnd}
    {s' : Session T} (hopen : s.isOpen = true) (hreceive : s.receive received = (r, s'))
    (hr : ∀ e, r ≠ .failed e) : s'.isOpen = true := by
  have hmoved : ∀ {answer transport}, Transport.recv s.transport recvChunkSize =
      (.ok answer, transport) → s.phase = .opened ∧ Transport.isOpen transport = true := by
    intro answer transport hrecv
    simp only [isOpen, Bool.and_eq_true, beq_iff_eq] at hopen
    exact ⟨hopen.1, lasting.received hrecv hopen.2⟩
  induction s, received using receive.induct with
  | case1 s received transport hrecv
  | case2 s received transport hrecv =>
      rw [receive_eq, hrecv] at hreceive
      cases hreceive
      simpa [isOpen] using hmoved hrecv
  | case3 s received b data transport hrecv e hwrite =>
      rw [receive_eq, hrecv] at hreceive
      simp only [hwrite] at hreceive
      cases hreceive
      exact absurd rfl (hr _)
  | case4 s received b data transport hrecv recvBuffer hwrite ih =>
      rw [receive_eq, hrecv] at hreceive
      simp only [hwrite] at hreceive
      have hopen' : Session.isOpen { s with transport, recvBuffer }.touch = true := by
        simpa [isOpen, touch] using hmoved hrecv
      -- the next round asks a transport that is still open
      refine ih hopen' hreceive fun hrecv' => ?_
      simp only [isOpen, Bool.and_eq_true, beq_iff_eq] at hopen'
      exact ⟨hopen'.1, lasting.received hrecv' hopen'.2⟩
  | case5 s received e transport hrecv =>
      rw [receive_eq, hrecv] at hreceive
      cases hreceive
      exact absurd rfl (hr _)

/-- What is sent leaves a lasting transport open. -/
theorem isOpen_sendOnce (lasting : Transport.Lasting T) {n : Nat} {s' : Session T}
    (hopen : s.isOpen = true) (hsend : s.sendOnce = (.sent n, s')) : s'.isOpen = true := by
  simp only [isOpen, Bool.and_eq_true, beq_iff_eq] at hopen
  rcases s.sendOnce_cases with ⟨_, _, hresult⟩ |
    ⟨head, tail, answer, transport, _, _, hanswer, _, hcases⟩
  · rw [hresult] at hsend
    cases hsend
  rcases hcases with ⟨_, hresult⟩ | ⟨_, hresult⟩ | ⟨_, _, hresult⟩ | ⟨_, _, _, hresult⟩ |
    ⟨m, sendBuffer, rfl, _, hresult⟩
  all_goals
    rw [hresult] at hsend
    cases hsend
  simpa [isOpen, touch] using ⟨hopen.1, lasting.sent hanswer hopen.2⟩

/-! ## The traffic of an event -/

omit [Transport T] in
/-- A call of a pass brings no traffic by itself. -/
theorem Traffic.next_pass {call : Call} {answer : Option (Except SessionError Unit)}
    (hpass : call.isPass = true) : t.next taken (.called call answer s) = t := by
  cases call with
  | readable | writable =>
      rcases answer with _ | _ | _
      · rfl
      · rfl
      · exact t.enqueue_nil
  | _ => cases hpass

theorem Traffic.next_refused {b b' : T} {offered : Bytes}
    {answer : Except SocketError (Transfer Nat)} (honest : Transport.Honest T taken)
    (hsend : Transport.send b offered = (answer, b')) (hanswer : ∀ n, answer ≠ .ok (.moved n)) :
    t.next taken (.sent b offered answer b') = t := by
  show { t with toLedger := t.toLedger.next taken (.sent b offered answer b') } = t
  rw [Booked.refused honest hsend hanswer]

theorem Traffic.next_moved {b b' : T} {offered : Bytes} {n : Nat}
    (honest : Transport.Honest T taken)
    (hsend : Transport.send b offered = (.ok (.moved n), b')) :
    t.next taken (.sent b offered (.ok (.moved n)) b') = t.leave (offered.take n) := by
  show { t with toLedger := t.toLedger.next taken _ } = t.leave (offered.take n)
  rw [Booked.moved honest hsend]
  rfl

namespace Conduct

namespace Audits

variable {o : Observer Traffic T} (ho : c.Audits taken o)
include ho

omit [Transport T] in
/-- An event that brings no traffic and shows no other session. -/
theorem skip {e : Event T} (hreply : e.isReply = false) (hnext : t.next taken e = t)
    (hseen : ∀ s', e.seen? = some s' → s' = d.session) (h : c.Rests t d) :
    o.Keeps (fun t' d' => c.Rests t' d' ∧ o.assumes e) t [e] d := by
  refine Observer.Keeps.single fun hassumed => ?_
  rw [ho.next, hnext]
  refine ⟨ho.demands hreply fun hshows => ?_, h, hassumed⟩
  rw [hnext]
  exact h.closed (Event.shows_of_seen hseen hshows)

omit [Transport T] in
/-- An event at which nobody sees the session. -/
theorem unseen {α : Type} {I : Traffic → α → Prop} {a : α} {e : Event T}
    (hreply : e.isReply = false) (hseen : e.seen? = none)
    (h : o.assumes e → I (t.next taken e) a) : o.Keeps I t [e] a := by
  refine Observer.Keeps.single fun hassumed => ?_
  rw [ho.next]
  refine ⟨ho.demands hreply fun hshows => ?_, h hassumed⟩
  rw [Event.shows, hseen] at hshows
  cases hshows

omit [Transport T] in
theorem told {α : Type} {I : Traffic → α → Prop} {a : α} {n : Notice}
    (hclosed : s.phase = .closed → c.closed t) (h : I t a) : o.Keeps I t [.told n s] a := by
  refine Observer.Keeps.single fun _ => ?_
  rw [ho.next]
  refine ⟨ho.demands rfl fun hshows => ?_, h⟩
  exact hclosed (Event.shows_of_seen (by rintro s' ⟨⟩; rfl) hshows)

/-- A call that a callback makes, and that is done at once. -/
theorem reply {α : Type} {I : Traffic → α → Prop} {a : α} (s : Session T) (call : Call)
    (hpass : call.isPass = false)
    (hdemand : o.assumes (.called call (some (s.perform call).1) s) →
      o.demands t (.called call (some (s.perform call).1) s))
    (hclosed : (s.perform call).2.phase = .closed →
      c.closed (t.next taken (.called call (some (s.perform call).1) s)))
    (h : o.assumes (.called call (some (s.perform call).1) s) →
      I (t.next taken (.called call (some (s.perform call).1) s)) a) :
    o.Keeps I t (s.performEvents call) a := by
  have hnone : s.passEvents call = [] := by
    cases call with
    | readable | writable => cases hpass
    | _ => rfl
  rw [performEvents, hnone]
  let e : Event T := .called call (some (s.perform call).1) s
  -- behind the call the traffic is known exactly, and nothing changes until it returns
  refine Observer.Keeps.cons (e := e) (I := fun t' _ => t' = t.next taken e ∧ o.assumes e) (a := ())
    (Observer.Keeps.single fun hassumed => ?_) ?_
  · exact ⟨hdemand hassumed, ho.next _ _, hassumed⟩
  · rintro t' ⟨rfl, hassumed⟩
    refine Observer.Keeps.single fun _ => ?_
    rw [ho.next]
    refine ⟨ho.demands rfl fun hshows => ?_, h hassumed⟩
    exact hclosed (Event.shows_of_seen (by rintro s' ⟨⟩; rfl) hshows)

/-- The same of a call that leaves the session open. -/
theorem reply_open {call : Call} {answer : Except SessionError Unit} {s s' : Session T}
    (hperform : s.perform call = (answer, s')) (hpass : call.isPass = false)
    (hopen : s'.phase = .opened) (hdemand : o.demands t (.called call (some answer) s)) :
    o.Keeps (fun t' (_ : Unit) => t' = t.next taken (.called call (some answer) s)) t
      (s.performEvents call) () := by
  have hreply := ho.reply (t := t)
    (I := fun t' (_ : Unit) => t' = t.next taken (.called call (some answer) s)) (a := ()) s call
    hpass
  rw [hperform] at hreply
  refine hreply (fun _ => hdemand) (fun hclosed => ?_) (fun _ => rfl)
  rw [show s'.phase = .closed from hclosed] at hopen
  cases hopen

end Audits

/-! ## Calls that callbacks make -/

/-- A callback closes the session. -/
theorem Audits.callClose {o : Observer Traffic T} (ho : c.Audits taken o) {α : Type}
    {I : Traffic → α → Prop} {a : α} (hdemand : o.demands t (.called .close (some (.ok ())) s))
    (hclosed : c.closed t) (h : I t a) : o.Keeps I t (s.performEvents .close) a := by
  have hnext : t.next taken (.called .close (some (s.perform .close).1) s) = t := t.enqueue_nil
  refine ho.reply s .close rfl (fun _ => hdemand) ?_ ?_
  · rintro -
    rwa [hnext]
  · rintro -
    rwa [hnext]

theorem callClose {α : Type} {I : Traffic → α → Prop} {a : α} (hclosed : c.closed t) (h : I t a) :
    (c.watch taken assumes).Keeps I t (s.performEvents .close) a :=
  (c.audits_watch taken assumes).callClose (fun hshows => by cases hshows) hclosed h

/-- What is known when a reply has been queued. -/
structure Queued (t : Traffic) (s : Session T) (reply : Bytes) (t' : Traffic)
    (r : Bool × Session T) : Prop where
  queued : r.1 = true
  traffic : t' = t.enqueue reply
  phase : r.2.phase = .opened
  pending : r.2.closePending = s.closePending
  recvBuffer : r.2.recvBuffer = s.recvBuffer
  contents : r.2.sendBuffer.contents = s.sendBuffer.contents ++ reply

/-- A reply that finds no room is a mishap. -/
theorem queueOrClose (reply : Bytes) :
    (c.watch taken Event.calm).Keeps (Queued t s reply) t
      ((Program.queueOrClose reply).events s) ((Program.queueOrClose reply).run s) := by
  have hbuffer := recvBuffer_queueSend s reply
  rw [Program.queueOrClose, Program.events, Program.run]
  rcases perform_queues (c := .queueSend reply) rfl s with ⟨e, hcall⟩ |
    ⟨s', hcall, _, hphase, hpending, hcontents⟩
  · rw [hcall]
    -- the queue has refused: that is an event which a calm run does not have
    intro hassumed
    have hcalm := hassumed (.called (.queueSend reply) (some (.error e)) s) (by
      rw [performEvents, hcall]
      simp)
    cases hcalm
  · have hqueue := (c.audits_watch taken Event.calm).reply_open (t := t) hcall rfl hphase
      fun hshows => by cases hshows
    rw [hcall]
    rw [show s.queueSend reply = (.ok (), s') from hcall] at hbuffer
    exact hqueue.append fun t' ht =>
      Observer.Keeps.nil ⟨rfl, ht, hphase, hpending, hbuffer, hcontents⟩

namespace Kept

variable [Handler T H] {o : Observer Traffic T} (hc : c.Kept taken o)
include hc

/-! ## Callbacks -/

theorem syncInterest (h : c.Rests t d) :
    o.Keeps c.Rests t d.syncInterestEvents d.syncInterest := by
  rw [Driven.syncInterestEvents, Driven.syncInterest]
  split
  · rename_i hchanged
    -- the handler may change its state, but it has the session to look at only
    refine hc.told h.closed ⟨h.told, fun hphase => ?_, h.closed⟩
    exact hc.onInterest (h.opened hphase)
  · exact Observer.Keeps.nil h

/-- What is made up for behind a callback. -/
theorem settle (h : c.Ran t (d.handler, d.session)) :
    o.Keeps c.Rests t d.settleEvents d.settle := by
  rw [Driven.settleEvents, Driven.settle]
  cases hpending : d.session.closePending with
  | true =>
      -- a callback of the conduct leaves no open session with a close to be told
      have hphase : d.session.phase = .closed := by
        refine phase_of_ne_opened fun hopen => ?_
        rw [(h.opened hopen).1] at hpending
        cases hpending
      have hrests : c.Rests t { session := { d.session with closePending := false }
                                handler := Handler.onClose d.handler
                                  { d.session with closePending := false } } := by
        refine ⟨rfl, fun hopen => ?_, fun _ => h.closed hphase⟩
        rw [hphase] at hopen
        cases hopen
      refine Observer.Keeps.cons (hc.told (fun _ => h.closed hphase) hrests) fun t' hrests' => ?_
      exact hc.syncInterest hrests'
  | false => exact hc.syncInterest ⟨hpending, fun hopen => (h.opened hopen).2, h.closed⟩

/-- A callback of an open session. -/
theorem notify {n : Notice} {f : H → Program T H} (hphase : d.session.phase = .opened)
    (hrun : o.Keeps c.Ran t ((f d.handler).events d.session)
      ((f d.handler).run d.session)) :
    o.Keeps c.Rests t (d.notifyEvents n f) (d.notify f) := by
  rw [Driven.notifyEvents, Driven.callbackEvents]
  have htold : o.Keeps (fun t' _ => t' = t) t [.told n d.session] () :=
    hc.told (fun hclosed => by rw [hphase] at hclosed; cases hclosed) rfl
  refine Observer.Keeps.cons htold fun t' ht => ?_
  rw [ht]
  exact hrun.append fun t'' hran => hc.settle hran

/-! ## Closing by a mishap -/

/-- A session that closes while bytes arrive. -/
theorem shut {lost : Bytes} (hmishap : Tolerates o.assumes) (hphase : d.session.phase = .opened)
    (h : c.arriving t d.handler d.session.recvBuffer d.session.sendBuffer) :
    o.Keeps c.Rests (t.arrive lost) d.closeEvents d.close := by
  rw [Driven.closeEvents, Driven.close, if_neg (by simp [hphase]), if_neg (by simp [hphase])]
  exact hc.settle (.of_closed (phase_close d.session) (hc.mishap hmishap h))

theorem close (hmishap : Tolerates o.assumes) (h : c.Rests t d) :
    o.Keeps c.Rests t d.closeEvents d.close := by
  cases hphase : d.session.phase with
  | closed =>
      rw [Driven.closeEvents, Driven.close, if_pos hphase, if_pos hphase]
      exact Observer.Keeps.nil h
  | opened =>
      rw [← t.arrive_nil]
      exact hc.shut hmishap hphase (hc.arriving (h.opened hphase))

/-! ## Readable passes -/

omit hc in
/-- What is known when a run of receives has ended. -/
def Received (c : Conduct H) (assumes : Event T → Prop) (h : H) (t : Traffic)
    (r : ReadEnd × Session T) : Prop :=
  match r.1 with
  | .blocked => c.arriving t h r.2.recvBuffer r.2.sendBuffer
  | .ended _ => Tolerates assumes ∧ c.arriving t h r.2.recvBuffer r.2.sendBuffer
  | .failed e => (Tolerates assumes ∨ ∃ cause, e = .recvBuffer cause) ∧
      ∃ before lost, t = before.arrive lost ∧
        c.arriving before h r.2.recvBuffer r.2.sendBuffer

theorem receive {h : H} (received : Nat) (harriving : c.arriving t h s.recvBuffer s.sendBuffer) :
    o.Keeps (Received c o.assumes h) t s.receiveEvents
      (s.receive received) := by
  induction s, received using receive.induct generalizing t with
  | case1 s received transport hrecv =>
      rw [receiveEvents_eq, receive_eq, hrecv]
      exact hc.unseen rfl rfl fun _ => harriving
  | case2 s received transport hrecv =>
      rw [receiveEvents_eq, receive_eq, hrecv]
      refine hc.unseen rfl rfl fun hassumed => ⟨⟨_, rfl, hassumed⟩, ?_⟩
      -- the end of the stream counts as no bytes
      show c.arriving (t.arrive []) h s.recvBuffer s.sendBuffer
      rw [Traffic.arrive_nil]
      exact harriving
  | case3 s received b data transport hrecv e hwrite =>
      rw [receiveEvents_eq, receive_eq, hrecv]
      simp only [hwrite]
      exact hc.unseen rfl rfl fun _ => ⟨.inr ⟨e, rfl⟩, t, b :: data, rfl, harriving⟩
  | case4 s received b data transport hrecv recvBuffer hwrite ih =>
      rw [receiveEvents_eq, receive_eq, hrecv]
      simp only [hwrite]
      refine Observer.Keeps.cons (I := fun t' _ => t' = t.arrive (b :: data)) (a := ())
        (hc.unseen rfl rfl fun _ => rfl) fun t' ht => ?_
      rw [ht]
      exact ih (hc.arrived hwrite harriving)
  | case5 s received e transport hrecv =>
      rw [receiveEvents_eq, receive_eq, hrecv]
      exact hc.unseen rfl rfl fun hassumed =>
        ⟨.inl ⟨_, rfl, hassumed⟩, t, [], t.arrive_nil.symm, harriving⟩

/-- The answer of a pass is known when it is called, and with it whether the recv buffer is going to
fail. -/
theorem readable
    (hanswer : o.assumes (.called .readable (some d.readable.1) d.session)) (h : c.Rests t d) :
    o.Keeps c.Rests t d.readableEvents d.readable.2 := by
  rw [Driven.readableEvents]
  rw [Driven.readable] at hanswer ⊢
  split at hanswer
  · rename_i hopen
    rw [if_pos hopen, if_pos hopen]
    have hphase := phase_of_isOpen hopen
    rcases receive_marks d.session 0 with ⟨hphase', hpending⟩
    rw [hphase] at hphase'
    rw [h.told] at hpending
    refine (hc.receive 0 (hc.arriving (h.opened hphase))).append fun t' hreceived => ?_
    rcases hreceive : d.session.receive 0 with ⟨_ | received | e, s⟩
    all_goals
      rw [hreceive] at hreceived hphase' hpending hanswer
      dsimp only at hanswer ⊢
    · have hlive (lasting : Transport.Lasting T) :=
        isOpen_receive lasting hopen hreceive (by simp)
      exact hc.notify hphase' (hc.onRecv hphase' hpending hlive hreceived)
    · rcases hreceived with ⟨hmishap, harriving⟩
      have hlive (lasting : Transport.Lasting T) :=
        isOpen_receive lasting hopen hreceive (by simp)
      split
      · have hrecv := hc.onRecv hphase' hpending hlive harriving
        refine (hc.notify hphase' hrecv).append fun _ hrests => ?_
        exact hc.close hmishap hrests
      · rw [← t'.arrive_nil]
        exact hc.shut hmishap hphase' harriving
    · rcases hreceived with ⟨hcause, before, lost, rfl, harriving⟩
      -- if the recv buffer has no room, then the answer of the pass is the mishap
      have hmishap : Tolerates o.assumes := by
        rcases hcause with hmishap | ⟨cause, rfl⟩
        · exact hmishap
        · exact ⟨_, rfl, hanswer⟩
      exact hc.shut hmishap hphase' harriving
  · rename_i hclosed
    rw [if_neg hclosed, if_neg hclosed]
    exact Observer.Keeps.nil h

/-! ## Writable passes -/

omit hc in
/-- What is known when an attempt to send has been made. -/
def Attempted (c : Conduct H) (assumes : Event T → Prop) (step : SendStep) (t : Traffic)
    (d : Driven H T) : Prop :=
  match step with
  | .drained => c.Rests t d
  | .blocked => c.Rests t d
  | .failed _ => Tolerates assumes ∧ c.Rests t d
  | .sent _ => d.session.phase = .opened ∧ d.session.closePending = false ∧
      (Transport.Lasting T → d.session.isOpen = true) ∧
      c.leaving t d.handler d.session.recvBuffer d.session.sendBuffer

theorem sendOnce (honest : Transport.Honest T taken) (hopen : d.session.isOpen = true)
    (h : c.Rests t d) :
    o.Keeps
      (fun t' r => Attempted c o.assumes r.1 t' { d with session := r.2 }) t
      d.session.sendOnceEvents d.session.sendOnce := by
  have hphase := phase_of_isOpen hopen
  rcases d.session.sendOnce_cases with ⟨_, hevents, hresult⟩ |
    ⟨head, tail, answer, transport, hcontents, _, hsend, hevents, hcases⟩
  · rw [hevents, hresult]
    exact Observer.Keeps.nil h
  rw [hevents]
  refine hc.unseen rfl rfl fun hassumed => ?_
  -- as long as nothing is taken, only the transport is another one
  have hkept : ∀ {t'}, t' = t → c.Rests t' { d with session := { d.session with transport } } := by
    rintro t' rfl
    exact ⟨h.told, h.opened, h.closed⟩
  rcases hcases with ⟨rfl, hresult⟩ | ⟨rfl, hresult⟩ | ⟨cause, rfl, hresult⟩ |
    ⟨n, rfl, htoomuch, _⟩ | ⟨n, sendBuffer, rfl, hconsume, hresult⟩
  · rw [hresult]
    exact hkept (Traffic.next_refused honest hsend (by simp))
  · rw [hresult]
    have hnext := Traffic.next_moved (t := t) honest hsend
    rw [List.take_zero, Traffic.leave_nil] at hnext
    exact ⟨⟨_, rfl, hassumed⟩, hkept hnext⟩
  · rw [hresult]
    exact ⟨⟨_, rfl, hassumed⟩, hkept (Traffic.next_refused honest hsend (by simp))⟩
  · -- an honest transport does not take more than there is
    have hfits := (honest.moved hsend).1
    rw [← StreamBuffer.length_contents, hcontents, List.length_append] at htoomuch
    omega
  · rw [hresult]
    -- what has left the send buffer is the same front part that the transport has taken
    have hleft := hc.left hconsume (h.opened hphase)
    rw [hcontents, List.take_append_of_le_length (honest.moved hsend).1,
      ← Traffic.next_moved (t := t) honest hsend] at hleft
    exact ⟨hphase, h.told, fun lasting => isOpen_sendOnce lasting hopen hresult, hleft⟩

theorem writable (honest : Transport.Honest T taken) {fuel : Nat} (h : c.Rests t d) :
    o.Keeps (Observer.Answered c.Rests) t (d.passEvents fuel .writable)
      (d.writable fuel) := by
  rw [Driven.passEvents, Driven.writable]
  split
  · rename_i hopen
    -- `Attempted` says how the session stands between an attempt to send and what is told of it
    refine Observer.Keeps.sendAll (S := Attempted c o.assumes) ?_ ?_ ?_ ?_ hopen h
    · intro t d hopen h
      exact hc.sendOnce honest hopen h
    · rintro t d step (rfl | rfl) h
      · exact hc.syncInterest h
      · exact hc.syncInterest h
    · rintro t d e ⟨hmishap, h⟩
      exact hc.close hmishap h
    · rintro t d n ⟨hphase, hpending, hlive, hleaving⟩
      exact hc.notify hphase (hc.onSend hphase hpending hlive hleaving)
  · exact Observer.Keeps.nil (.some h)

/-! ## Runs -/

/-- The events inside a pass, if all that is known of its call is as assumed. -/
theorem pass (honest : Transport.Honest T taken) {fuel : Nat} {call : Call}
    (hpass : call.isPass = true)
    (hassumed : o.assumes (.called call ((d.perform fuel call).map (·.1)) d.session))
    (h : c.Rests t d) :
    o.Keeps (Observer.Answered c.Rests) t (d.passEvents fuel call)
      (d.perform fuel call) := by
  cases call with
  | readable => exact (hc.readable hassumed h).mono fun t' hrests => .some hrests
  | writable => exact hc.writable honest h
  | _ => cases hpass

theorem perform (honest : Transport.Honest T taken) {fuel : Nat} {call : Call}
    (hpass : call.isPass = true) (h : c.Rests t d) :
    o.Keeps (Observer.Answered c.Rests) t (d.performEvents fuel call)
      (d.perform fuel call) := by
  -- the start of a pass may rule it out by what is assumed, so the events inside come behind it
  have hinner : o.assumes (.called call ((d.perform fuel call).map (·.1)) d.session) →
      ∀ t', c.Rests t' d → o.Keeps (Observer.Answered c.Rests) t'
        (d.passEvents fuel call) (d.perform fuel call) :=
    fun hassumed _ => hc.pass honest hpass hassumed
  have hcalled (answer) : o.Keeps
      (fun t' d' => c.Rests t' d' ∧ o.assumes (.called call answer d.session)) t
      [.called call answer d.session] d :=
    hc.skip (by simp [Event.isReply, hpass]) (Traffic.next_pass hpass) (by rintro s' ⟨⟩) h
  rw [Driven.performEvents]
  cases hperform : d.perform fuel call with
  | none =>
      rw [hperform] at hinner
      refine (hcalled _).cons fun t' h' => ?_
      exact hinner h'.2 t' h'.1
  | some r =>
      rw [hperform] at hinner
      refine (hcalled _).cons fun t' h' => ?_
      refine (hinner h'.2 t' h'.1).append fun t'' hanswered => ?_
      have hrests := hanswered r.1 r.2 rfl
      exact (hc.skip rfl rfl (by rintro s' ⟨⟩; rfl) hrests).mono fun _ h'' => .some h''.1

theorem step (honest : Transport.Honest T taken) {fuel : Nat} {step : Driven.Step H T}
    (hpass : step.isPass = true) (h : c.Rests t d) :
    o.Keeps (Observer.Reached c.Rests) t (d.stepEvents fuel step)
      (d.step fuel step) := by
  have hidle : ∀ {t'} {d' : Driven H T}, c.Rests t' d' →
      o.Keeps (Observer.Reached c.Rests) t' [.idle d'.session] (some d') := by
    intro t' d' hrests
    refine (hc.skip rfl rfl (by rintro s' ⟨⟩; rfl) hrests).mono fun _ h' => ?_
    rintro d'' ⟨⟩
    exact h'.1
  rw [Driven.stepEvents]
  cases step with
  | visit | editHandler | editRecvBuffer => cases hpass
  | editTransport f | wait now => exact hidle ⟨h.told, h.opened, h.closed⟩
  | call call =>
      refine (hc.perform honest hpass h).append fun t' hanswered => ?_
      cases hperform : d.perform fuel call with
      | none =>
          rw [Driven.step, hperform]
          exact Observer.Keeps.nil (by rintro d' ⟨⟩)
      | some r =>
          rw [Driven.step, hperform]
          exact hidle (hanswered r.1 r.2 hperform)

/-- Over an honest transport, a service whose session is left to it keeps to its conduct. -/
theorem run (honest : Transport.Honest T taken) {fuel : Nat} {steps : List (Driven.Step H T)}
    (hsteps : ∀ step ∈ steps, step.isPass = true) (h : c.Rests t d) :
    o.Keeps (Observer.Reached c.Rests) t (d.trace fuel steps)
      (steps.foldlM (Driven.step fuel) d) := by
  refine Observer.Keeps.trace ?_ hsteps h
  intro t d step hpass h
  exact hc.step honest hpass h

/-- If the writable passes of a service return, its runs come to their end. -/
theorem exists_run (honest : Transport.Honest T taken) (hassumes : ∀ e, o.assumes e) {fuel : Nat}
    (hsend : ∀ {t} {d : Driven H T}, c.Rests t d → d.session.isOpen = true →
      ∃ r, d.sendAll fuel = some r)
    {steps : List (Driven.Step H T)} (hsteps : ∀ step ∈ steps, step.isPass = true)
    (h : c.Rests t d) : ∃ d', steps.foldlM (Driven.step fuel) d = some d' := by
  induction steps generalizing t d with
  | nil => exact ⟨d, rfl⟩
  | cons step steps ih =>
      rw [List.forall_mem_cons] at hsteps
      rcases exists_step_of_sendAll (hsend h) step with ⟨d₁, hstep⟩
      have hkept : o.Accepts t (d.stepEvents fuel step) ∧
          Observer.Reached c.Rests (o.after t (d.stepEvents fuel step)) (d.step fuel step) :=
        hc.step honest hsteps.1 h fun e _ => hassumes e
      rw [List.foldlM_cons, hstep]
      exact ih hsteps.2 (hkept.2 d₁ hstep)

end Kept

/-- Over an honest transport, a service whose session is left to it keeps to its conduct. -/
theorem Upheld.run [Handler T H] (hc : c.Upheld taken assumes)
    (honest : Transport.Honest T taken) {fuel : Nat} {steps : List (Driven.Step H T)}
    (hsteps : ∀ step ∈ steps, step.isPass = true) (h : c.Rests t d) :
    (c.watch taken assumes).Keeps (Observer.Reached c.Rests) t (d.trace fuel steps)
      (steps.foldlM (Driven.step fuel) d) :=
  hc.kept.run honest hsteps h

end Conduct

/-! ## A connection that was just opened -/

/-- A session with buffers of the given capacities that was just opened. -/
structure Opened (recvCapacity sendCapacity : Nat) (s : Session T) : Prop where
  phase : s.phase = .opened
  told : s.closePending = false
  interest : s.writeInterest = false
  sendRoom : 0 < s.sendBuffer.capacity
  recvOpen : s.recvBuffer.isOpen = true
  recvEmpty : s.recvBuffer.contents = []
  recvCapacity : s.recvBuffer.capacity = recvCapacity
  sendOpen : s.sendBuffer.isOpen = true
  sendEmpty : s.sendBuffer.contents = []
  sendCapacity : s.sendBuffer.capacity = sendCapacity

/-- Opening a session that was just made. -/
theorem opened_openUp {transport : T} {recvCapacity sendCapacity now : Nat} {handler : H}
    (hopen : (Driven.new transport recvCapacity sendCapacity now handler).openUp = (.ok (), d)) :
    Opened recvCapacity sendCapacity d.session ∧ d.handler = handler := by
  rcases hsession : (Session.new transport recvCapacity sendCapacity now).openUp with ⟨answer, s⟩
  rw [Driven.openUp, Driven.new, hsession] at hopen
  cases hopen
  rcases openUp_ok hsession with ⟨_, _, hphase, _, hinterest, hpending⟩
  rcases buffers_openUp_ok hsession with ⟨hrecv, hsend⟩
  have hcapacity (n : Nat) : (StreamBuffer.new n).capacity = n := RingBuffer.capacity_new n
  have hrecvCapacity := StreamBuffer.capacity_openUp hrecv
  have hsendCapacity := StreamBuffer.capacity_openUp hsend
  -- both buffers are as they were made, but open
  refine ⟨{ phase := hphase
            told := hpending
            interest := hinterest
            sendRoom := hsendCapacity ▸ StreamBuffer.capacity_pos_of_openUp hsend
            recvOpen := StreamBuffer.isOpen_openUp hrecv
            recvEmpty := StreamBuffer.contents_openUp hrecv
            recvCapacity := hrecvCapacity.trans (hcapacity recvCapacity)
            sendOpen := StreamBuffer.isOpen_openUp hsend
            sendEmpty := StreamBuffer.contents_openUp hsend
            sendCapacity := hsendCapacity.trans (hcapacity sendCapacity) }, rfl⟩

omit [Transport T] in
/-- A conduct that holds of such a session. -/
theorem Opened.rests {recvCapacity sendCapacity : Nat}
    (h : Opened recvCapacity sendCapacity d.session)
    (hresting : c.resting t d.handler d.session.recvBuffer d.session.sendBuffer) : c.Rests t d where
  told := h.told
  opened _ := hresting
  closed hclosed := by rw [h.phase] at hclosed; cases hclosed

end Session
end TcpReactor
