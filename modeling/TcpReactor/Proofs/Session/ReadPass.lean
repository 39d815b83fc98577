import TcpReactor.Proofs.Session.Invariant
import TcpReactor.Service.Echo
import TcpReactor.Sim.ScriptedTransport

namespace TcpReactor

/-! # What a readable pass depends on

A transport cuts the bytes that it delivers into chunks, and a readable pass takes one chunk after
the other. Nobody can tell where the cuts were:

* `receive_of_delivers`: if the bytes fit in the recv buffer, then the session is the same as if
  they had come at once, and receives on from there;
* `receive_of_overflow`: if they do not, then some chunk overflows the recv buffer.

`readable_of_cuts` says what this means for a handler, whatever it does in its callback.
-/

/-! ## Chunks -/

/-- The transport delivers the chunks, one with each receive, and is `t'` then. -/
inductive Delivers {T : Type} [Transport T] : T → List Bytes → T → Prop
  | nil (t : T) : Delivers t [] t
  | cons {t next t' : T} {chunk : Bytes} {chunks : List Bytes} :
      Transport.recv t recvChunkSize = (.ok (.moved chunk), next) → chunk ≠ [] →
      chunk.length ≤ recvChunkSize → Delivers next chunks t' → Delivers t (chunk :: chunks) t'

namespace Session

variable {T : Type}

/-- The session when it has received these bytes, and the transport has moved on. -/
def fed (s : Session T) (data : Bytes) (transport : T) : Session T :=
  { s with
    transport
    recvBuffer := { s.recvBuffer with ring := (s.recvBuffer.ring.write data).2 }
    lastActive := if data = [] then s.lastActive else s.now }

theorem fed_nil (s : Session T) (transport : T) : s.fed [] transport = { s with transport } := by
  rw [fed, RingBuffer.write_nil, if_pos rfl]

theorem freeSpace_fed (s : Session T) {data : Bytes} (transport : T) (hsome : data ≠ [])
    (hopen : s.recvBuffer.isOpen = true) (hfit : data.length ≤ s.recvBuffer.freeSpace) :
    (s.fed data transport).recvBuffer.freeSpace = s.recvBuffer.freeSpace - data.length :=
  (StreamBuffer.freeSpace_write (StreamBuffer.write_of_room hopen hsome hfit)).2.2

/-- What comes in two parts might have come at once. -/
theorem fed_fed (s : Session T) {data more : Bytes} (transport transport' : T)
    (hopen : s.recvBuffer.isOpen = true)
    (hfit : (data ++ more).length ≤ s.recvBuffer.freeSpace) :
    (s.fed data transport).fed more transport' = s.fed (data ++ more) transport' := by
  have hroom : (data ++ more).length ≤ s.recvBuffer.ring.freeSpace := by
    simpa [StreamBuffer.freeSpace, hopen] using hfit
  have hactive : (if more = [] then if data = [] then s.lastActive else s.now else s.now) =
      if data ++ more = [] then s.lastActive else s.now := by
    by_cases hmore : more = []
    · simp [hmore]
    · simp [hmore]
  simp only [fed, RingBuffer.write_append _ _ _ hroom, hactive]

theorem contents_fed (s : Session T) {data : Bytes} (transport : T)
    (hopen : s.recvBuffer.isOpen = true) (hfit : data.length ≤ s.recvBuffer.freeSpace) :
    (s.fed data transport).recvBuffer.contents = s.recvBuffer.contents ++ data := by
  have hroom : data.length ≤ s.recvBuffer.ring.freeSpace := by
    simpa [StreamBuffer.freeSpace, hopen] using hfit
  simp only [fed, StreamBuffer.contents, hopen, if_true]
  rw [RingBuffer.contents_write, List.take_of_length_le hroom]

variable [Transport T] {t t' : T} {chunks : List Bytes} {s : Session T}

/-- One chunk that fits. -/
theorem receive_of_chunk {next : T} {chunk : Bytes}
    (hrecv : Transport.recv s.transport recvChunkSize = (.ok (.moved chunk), next))
    (hsome : chunk ≠ []) (hopen : s.recvBuffer.isOpen = true)
    (hfit : chunk.length ≤ s.recvBuffer.freeSpace) (received : Nat) :
    s.receive received = (s.fed chunk next).receive (received + chunk.length) := by
  cases chunk with
  | nil => exact absurd rfl hsome
  | cons b data =>
      rw [receive_eq, hrecv]
      simp only [StreamBuffer.write_of_room hopen hsome hfit]
      rfl

/-- What fits is received, however it is cut. -/
theorem receive_of_delivers (h : Delivers t chunks t') (htransport : s.transport = t)
    (hopen : s.recvBuffer.isOpen = true)
    (hfit : chunks.flatten.length ≤ s.recvBuffer.freeSpace) (received : Nat) :
    s.receive received = (s.fed chunks.flatten t').receive (received + chunks.flatten.length) := by
  induction h generalizing s received with
  | nil t =>
      rw [List.flatten_nil, fed_nil, ← htransport]
      rfl
  | @cons t next t' chunk chunks hrecv hsome _ _ ih =>
      rw [List.flatten_cons] at hfit ⊢
      have hlength : (chunk ++ chunks.flatten).length = chunk.length + chunks.flatten.length :=
        List.length_append
      rw [← htransport] at hrecv
      -- what is left of the room is enough for the other chunks
      have hroom := freeSpace_fed s next hsome hopen (by omega)
      have hrest := @ih (s.fed chunk next) rfl hopen (by omega) (received + chunk.length)
      rw [receive_of_chunk hrecv hsome hopen (by omega), hrest, fed_fed s next t' hopen hfit,
        hlength, Nat.add_assoc]

/-- What does not fit overflows the recv buffer, however it is cut. -/
theorem receive_of_overflow (h : Delivers t chunks t') (htransport : s.transport = t)
    (hopen : s.recvBuffer.isOpen = true)
    (hfull : s.recvBuffer.freeSpace < chunks.flatten.length) (received : Nat) :
    ∃ s', s.receive received = (.failed (.recvBuffer .overflow), s') := by
  -- the induction is on the chunks: those that fit are taken in, and leave so much less room
  induction h generalizing s received with
  | nil t => exact absurd hfull (Nat.not_lt_zero _)
  | @cons t next t' chunk chunks hrecv hsome _ _ ih =>
      rw [List.flatten_cons, List.length_append] at hfull
      rw [← htransport] at hrecv
      by_cases hfit : chunk.length ≤ s.recvBuffer.freeSpace
      · rw [receive_of_chunk hrecv hsome hopen hfit]
        have hroom := freeSpace_fed s next hsome hopen hfit
        exact @ih (s.fed chunk next) rfl hopen (by omega) (received + chunk.length)
      · -- this is the chunk that finds no room
        refine ⟨{ s with transport := next }, ?_⟩
        cases chunk with
        | nil => exact absurd rfl hsome
        | cons b data =>
            rw [receive_eq, hrecv]
            simp only [StreamBuffer.write_of_no_room hopen (Nat.lt_of_not_le hfit)]

/-! ## A close that is yet to be told -/

omit [Transport T] in
/-- A property in which neither the recv buffer nor the transport matters. -/
theorem Program.keeps_of_marks {α : Type} {K : Session T → Prop}
    (hrecv : ∀ s recvBuffer, K s → K { s with recvBuffer })
    (htransport : ∀ s transport, K s → K { s with transport }) (p : Program T α) : p.Keeps K := by
  induction p with
  | done a => trivial
  | look next ih => exact fun s _ => ih s
  | call c next ih => exact ih
  | editRecvBuffer f next ih => exact ⟨fun s => hrecv s _, ih⟩
  | editTransport f next ih => exact ⟨fun s => htransport s _, ih⟩

/-- If the session is closed, then the handler is yet to be told. -/
def TellsClose (s : Session T) : Prop := s.phase = .closed → s.closePending = true

omit [Transport T] in
theorem TellsClose.of_marks {s s' : Session T} (h : TellsClose s) (hphase : s'.phase = s.phase)
    (hpending : s'.closePending = s.closePending) : TellsClose s' := by
  intro hclosed
  rw [hpending]
  exact h (hphase.symm.trans hclosed)

/-- Nothing that a callback does with its session hides a close. -/
theorem stable_tellsClose : Stable (T := T) TellsClose where
  receive {s} received _ hs :=
    hs.of_marks (s.receive_marks received).1 (s.receive_marks received).2
  sendOnce {s} _ hs := hs.of_marks s.sendOnce_marks.1 s.sendOnce_marks.2
  openUp {s} hs := by
    rcases hcall : s.openUp with ⟨e | _, s'⟩
    · rcases openUp_error hcall with rfl | ⟨_, recvBuffer, sendBuffer, rfl, _⟩
      · exact hs
      · exact hs.of_marks rfl rfl
    · intro hclosed
      -- an open session hides nothing
      rw [(openUp_ok hcall).2.2.1] at hclosed
      cases hclosed
  close {s} hs := by
    cases hphase : s.phase with
    | closed =>
        rw [close_closed hphase]
        exact hs
    | opened => exact fun _ => (close_opened hphase).2.2.2
  queueSend {s} data hs := by
    rcases hcall : s.queueSend data with ⟨e | _, s'⟩
    · rw [queueSend_error hcall]
      exact hs
    · have hphase := queueSend_ok hcall
      have hpending := s.queueSend_pending data
      rw [hcall] at hpending
      exact hs.of_marks (hphase.2.1.trans hphase.1.symm) hpending
  sendFrame {s} payload hs := by
    rcases hcall : s.sendFrame payload with ⟨e | _, s'⟩
    · rw [sendFrame_error hcall]
      exact hs
    · have hphase := sendFrame_ok hcall
      have hpending := s.sendFrame_pending payload
      rw [hcall] at hpending
      exact hs.of_marks (hphase.2.1.trans hphase.1.symm) hpending

end Session

namespace Driven

open Session (Notice told TellsClose)

variable {H T : Type} [Handler T H] {d : Driven H T}

/-! ## What is told behind a pass -/

/-- Making up for what was missed is not telling of bytes. -/
theorem ne_recv_of_settle (d : Driven H T) : ∀ x ∈ told d.settleEvents, x.1 ≠ .recv := by
  have hsync : ∀ d : Driven H T, ∀ x ∈ told d.syncInterestEvents, x.1 ≠ .recv := by
    intro d x hx
    rw [syncInterestEvents] at hx
    dsimp only at hx
    split at hx
    · cases List.mem_singleton.mp hx
      simp
    · cases hx
  intro x hx
  rw [settleEvents] at hx
  split at hx
  · rcases List.mem_cons.mp hx with rfl | hx
    · simp
    · exact hsync _ x hx
  · exact hsync d x hx

/-- A close that is yet to be told is told first. -/
theorem close_mem_of_settle (h : d.session.closePending = true) :
    ∃ x ∈ told d.settleEvents, x.1 = .close := by
  rw [settleEvents, if_pos h]
  exact ⟨_, List.mem_cons_self, rfl⟩

variable [Transport T]

omit [Handler T H] in
/-- What a callback leaves behind, before anything is made up for. -/
def ran (d : Driven H T) (f : H → Session.Program T H) : Driven H T where
  session := ((f d.handler).run d.session).2
  handler := ((f d.handler).run d.session).1

/-- A callback is told first, and then what happened meanwhile. -/
theorem told_notifyEvents (n : Notice) (d : Driven H T) (f : H → Session.Program T H) :
    told (d.notifyEvents n f) = (n, d.session) :: told (d.ran f).settleEvents := by
  have hcons : told (d.notifyEvents n f) = (n, d.session) ::
      told ((f d.handler).events d.session ++ (d.ran f).settleEvents) := rfl
  rw [hcons, Session.told_append, Session.told_events, List.nil_append]

/-- Closing an open session tells this and nothing else. -/
theorem told_closeEvents (h : d.session.phase = .opened) :
    told d.closeEvents = [(.close, { d.session.close with closePending := false })] := by
  rcases Session.close_opened h with ⟨hclosed, _, _, hpending⟩
  rw [closeEvents, if_neg (by simp [h]), settleEvents, if_pos hpending]
  dsimp only
  -- nobody asks a closed session whether something is queued
  rw [syncInterestEvents, if_neg (by simp [hclosed])]
  rfl

theorem ne_recv_of_close (d : Driven H T) : ∀ x ∈ told d.closeEvents, x.1 ≠ .recv := by
  rw [closeEvents]
  split
  · exact List.forall_mem_nil _
  · exact ne_recv_of_settle _

/-- If a callback on an open session is followed by a close, then its handler is told of a close: of
this one, or of one that the callback itself has made. -/
theorem close_mem_of_notify {f : H → Session.Program T H} (h : d.session.phase = .opened) :
    ∃ x ∈ told (d.ran f).settleEvents ++ told (d.notify f).closeEvents, x.1 = .close := by
  cases hphase : (d.ran f).session.phase with
  | closed =>
      -- the callback itself has closed its session, and nothing it did then can hide this
      have htells : TellsClose d.session := by
        intro hclosed
        rw [h] at hclosed
        cases hclosed
      have hkeeps : (f d.handler).Keeps TellsClose :=
        Session.Program.keeps_of_marks (fun _ _ hs => hs) (fun _ _ hs => hs) _
      have hpending := Session.stable_tellsClose.run hkeeps htells hphase
      rcases close_mem_of_settle (d := d.ran f) hpending with ⟨x, hx, hclose⟩
      exact ⟨x, List.mem_append_left _ hx, hclose⟩
  | opened =>
      -- what a settled session has caught up with are marks, so it is the later close that is told
      have hopened : (d.notify f).session.phase = .opened := by
        rcases (d.ran f).session_settle with ⟨_, _, hsettle⟩
        have hnotify : d.notify f = (d.ran f).settle := rfl
        rw [hnotify, hsettle]
        exact hphase
      rw [told_closeEvents hopened]
      exact ⟨_, List.mem_append_right _ List.mem_cons_self, rfl⟩

/-! ## The ends of a pass -/

/-- Nobody is told of the receiving itself: how it ended decides about what a pass tells. -/
theorem told_readableEvents (hopen : d.session.isOpen = true) :
    told d.readableEvents =
      match d.session.receive 0 with
      | (.blocked, session) => told (notifyEvents .recv { d with session } Handler.onRecv)
      | (.ended received, session) =>
          if 0 < received then
            told (notifyEvents .recv { d with session } Handler.onRecv) ++
              told (notify { d with session } Handler.onRecv).closeEvents
          else told (closeEvents { d with session })
      | (.failed _, session) => told (closeEvents { d with session }) := by
  rw [readableEvents, if_pos hopen, Session.told_append,
    Session.told_of_asks d.session.asks_receiveEvents, List.nil_append]
  rcases d.session.receive 0 with ⟨_ | received | e, s⟩
  · rfl
  · dsimp only
    split
    · rw [Session.told_append]
    · rfl
  · rfl

/-- A pass is a matter of what was received, of how that ended, and of the handler. -/
theorem readable_congr (d d' : Driven H T) (hhandler : d.handler = d'.handler)
    (hopen : d.session.isOpen = true) (hopen' : d'.session.isOpen = true)
    (hreceive : d.session.receive 0 = d'.session.receive 0) :
    d.readable = d'.readable ∧ told d.readableEvents = told d'.readableEvents := by
  rcases d with ⟨s, h⟩
  rcases d' with ⟨s', h'⟩
  cases hhandler
  dsimp only at hopen hopen' hreceive
  constructor
  · rw [readable, readable, if_pos hopen, if_pos hopen', hreceive]
  · rw [told_readableEvents hopen, told_readableEvents hopen', hreceive]

/-- The handler is told of received bytes once, before anything else, in this session. -/
def HearsOnce (s : Session T) (notices : List (Notice × Session T)) : Prop :=
  ∃ later, notices = (.recv, s) :: later ∧ ∀ x ∈ later, x.1 ≠ .recv

/-- The call ends with this error and a closed session, and nobody is told of anything else. -/
def ClosesWith (e : SessionError) (out : Except SessionError Unit × Driven H T)
    (notices : List (Notice × Session T)) : Prop :=
  out.1 = .error e ∧ out.2.session.phase = .closed ∧
    ∃ s, notices = [(.close, s)] ∧ s.phase = .closed

omit [Handler T H] in
/-- Receiving leaves the session open. -/
theorem phase_of_receive {s : Session T} {r : Session.ReadEnd} (hopen : d.session.isOpen = true)
    (h : d.session.receive 0 = (r, s)) : s.phase = .opened := by
  have hmarks := (d.session.receive_marks 0).1
  rw [h] at hmarks
  exact hmarks.trans (Session.phase_of_isOpen hopen)

/-- The transport would block: the handler is told once. -/
theorem readable_of_blocked {s : Session T} (hopen : d.session.isOpen = true)
    (h : d.session.receive 0 = (.blocked, s)) :
    d.readable.1 = .ok () ∧ HearsOnce s (told d.readableEvents) := by
  rw [readable, if_pos hopen, told_readableEvents hopen, h]
  exact ⟨rfl, _, told_notifyEvents .recv { d with session := s } _, ne_recv_of_settle _⟩

/-- Something failed: the session is closed. -/
theorem readable_of_failed {s : Session T} {e : SessionError} (hopen : d.session.isOpen = true)
    (h : d.session.receive 0 = (.failed e, s)) :
    ClosesWith e d.readable (told d.readableEvents) := by
  have hphase := phase_of_receive hopen h
  rw [readable, if_pos hopen, told_readableEvents hopen, h]
  exact ⟨rfl, phase_close _, _, told_closeEvents hphase, s.phase_close⟩

/-- The peer closed at once. -/
theorem readable_of_ended_zero {s : Session T} (hopen : d.session.isOpen = true)
    (h : d.session.receive 0 = (.ended 0, s)) :
    ClosesWith .peerClosed d.readable (told d.readableEvents) := by
  have hphase := phase_of_receive hopen h
  rw [readable, if_pos hopen, told_readableEvents hopen, h]
  exact ⟨rfl, phase_close _, _, told_closeEvents hphase, s.phase_close⟩

/-- The peer closed behind some bytes: the handler is told of these first. -/
theorem readable_of_ended {s : Session T} {received : Nat} (hopen : d.session.isOpen = true)
    (h : d.session.receive 0 = (.ended received, s)) (hsome : 0 < received) :
    d.readable.1 = .error .peerClosed ∧ d.readable.2.session.phase = .closed ∧
      HearsOnce s (told d.readableEvents) ∧ ∃ x ∈ told d.readableEvents, x.1 = .close := by
  have hphase := phase_of_receive hopen h
  rw [readable, if_pos hopen, told_readableEvents hopen, h]
  refine ⟨rfl, phase_close _, ?_⟩
  simp only [if_pos hsome, told_notifyEvents, List.cons_append]
  refine ⟨⟨_, rfl, ?_⟩, ?_⟩
  · exact List.forall_mem_append.mpr ⟨ne_recv_of_settle _, ne_recv_of_close _⟩
  · rcases close_mem_of_notify (d := { d with session := s }) hphase with ⟨x, hx, hclose⟩
    exact ⟨x, List.mem_cons_of_mem _ hx, hclose⟩

/-! ## The cuts do not matter -/

omit [Transport T] [Handler T H] in
/-- The same session over another transport. -/
def withTransport (d : Driven H T) (transport : T) : Driven H T :=
  { d with session := { d.session with transport } }

/-- What a readable pass comes to that receives `data` and gets the answer `behind` then. -/
structure PassOutcome (s : Session T) (data : Bytes)
    (behind : Except SocketError (Transfer Bytes) × T)
    (out : Except SessionError Unit × Driven H T) (notices : List (Notice × Session T)) :
    Prop where
  blocked : ∀ t, behind = (.ok .wouldBlock, t) →
    out.1 = .ok () ∧ HearsOnce (s.fed data t) notices
  ended : ∀ t, behind = (.ok (.moved []), t) → data ≠ [] →
    out.1 = .error .peerClosed ∧ out.2.session.phase = .closed ∧
      HearsOnce (s.fed data t) notices ∧ ∃ x ∈ notices, x.1 = .close
  endedAtOnce : ∀ t, behind = (.ok (.moved []), t) → data = [] →
    ClosesWith .peerClosed out notices
  failed : ∀ e t, behind = (.error e, t) → ClosesWith (.socket e) out notices

section Cuts

variable {t t' : T} {chunks : List Bytes}

omit [Handler T H] in
theorem receive_withTransport (h : Delivers t chunks t')
    (hrecv : d.session.recvBuffer.isOpen = true)
    (hfit : chunks.flatten.length ≤ d.session.recvBuffer.freeSpace) :
    (d.withTransport t).session.receive 0 =
      (d.session.fed chunks.flatten t').receive chunks.flatten.length := by
  have hreceive := Session.receive_of_delivers (s := (d.withTransport t).session) h rfl hrecv hfit 0
  rw [Nat.zero_add] at hreceive
  exact hreceive

/-- What fits is received, and then the answer behind it counts. -/
theorem readable_of_delivers (h : Delivers t chunks t')
    (hopen : (d.withTransport t).isOpen = true) (hrecv : d.session.recvBuffer.isOpen = true)
    (hfit : chunks.flatten.length ≤ d.session.recvBuffer.freeSpace) :
    PassOutcome d.session chunks.flatten (Transport.recv t' recvChunkSize)
      (d.withTransport t).readable (told (d.withTransport t).readableEvents) := by
  have hreceive := receive_withTransport h hrecv hfit
  have htransport : (d.session.fed chunks.flatten t').transport = t' := rfl
  -- the chunks are in the recv buffer, and one answer is left to be read
  rw [(d.session.fed chunks.flatten t').receive_eq, htransport] at hreceive
  constructor
  case blocked =>
    intro t'' hbehind
    rw [hbehind] at hreceive
    exact readable_of_blocked hopen hreceive
  case ended =>
    intro t'' hbehind hsome
    rw [hbehind] at hreceive
    exact readable_of_ended hopen hreceive (List.length_pos_iff.mpr hsome)
  case endedAtOnce =>
    intro t'' hbehind hnone
    rw [hbehind, hnone] at hreceive
    exact readable_of_ended_zero hopen hreceive
  case failed =>
    intro e t'' hbehind
    rw [hbehind] at hreceive
    exact readable_of_failed hopen hreceive

/-- What does not fit overflows the session. -/
theorem readable_of_overflow (h : Delivers t chunks t')
    (hopen : (d.withTransport t).isOpen = true) (hrecv : d.session.recvBuffer.isOpen = true)
    (hfull : d.session.recvBuffer.freeSpace < chunks.flatten.length) :
    ClosesWith (.recvBuffer .overflow) (d.withTransport t).readable
      (told (d.withTransport t).readableEvents) := by
  rcases Session.receive_of_overflow (s := (d.withTransport t).session) h rfl hrecv hfull 0 with
    ⟨s, hreceive⟩
  exact readable_of_failed hopen hreceive

/-- A readable pass depends on the bytes that the transport delivers, and not on where it cuts
them. If they fit in the recv buffer, then the pass gives the same answer, leaves the same session
and handler, and tells the handler the same things of the same sessions: of the bytes once, all of
them behind the previous contents, unless the transport fails or there were none before the peer
closed; and of the close, if the peer has closed or the transport fails. If they do not fit, then
the session overflows and is closed, and this is all that the handler is told. -/
theorem readable_of_cuts {t₁ t₂ : T} {chunks₁ chunks₂ : List Bytes}
    (h₁ : Delivers t₁ chunks₁ t') (h₂ : Delivers t₂ chunks₂ t')
    (hsame : chunks₁.flatten = chunks₂.flatten) (hopen₁ : (d.withTransport t₁).isOpen = true)
    (hopen₂ : (d.withTransport t₂).isOpen = true) (hrecv : d.session.recvBuffer.isOpen = true) :
    (chunks₁.flatten.length ≤ d.session.recvBuffer.freeSpace →
      (d.withTransport t₁).readable = (d.withTransport t₂).readable ∧
      told (d.withTransport t₁).readableEvents = told (d.withTransport t₂).readableEvents ∧
      PassOutcome d.session chunks₁.flatten (Transport.recv t' recvChunkSize)
        (d.withTransport t₁).readable (told (d.withTransport t₁).readableEvents) ∧
      ∀ t, (d.session.fed chunks₁.flatten t).recvBuffer.contents =
        d.session.recvBuffer.contents ++ chunks₁.flatten) ∧
    (d.session.recvBuffer.freeSpace < chunks₁.flatten.length → ∀ t, t = t₁ ∨ t = t₂ →
      ClosesWith (.recvBuffer .overflow) (d.withTransport t).readable
        (told (d.withTransport t).readableEvents)) := by
  constructor
  · intro hfit
    -- receiving ends alike, and there is nothing else in which the two passes could differ
    have hreceive : (d.withTransport t₁).session.receive 0 =
        (d.withTransport t₂).session.receive 0 := by
      rw [receive_withTransport h₁ hrecv hfit, receive_withTransport h₂ hrecv (hsame ▸ hfit),
        hsame]
    rcases readable_congr (d.withTransport t₁) (d.withTransport t₂) rfl hopen₁ hopen₂ hreceive
      with ⟨hpass, htold⟩
    refine ⟨hpass, htold, readable_of_delivers h₁ hopen₁ hrecv hfit, fun t => ?_⟩
    exact d.session.contents_fed t hrecv hfit
  · rintro hfull t (rfl | rfl)
    · exact readable_of_overflow h₁ hopen₁ hrecv hfull
    · exact readable_of_overflow h₂ hopen₂ hrecv (hsame ▸ hfull)

/-- An echo receives three bytes behind one that it still had, in two chunks and in one. -/
theorem readable_of_cuts_echo :
    let session : Session Sim.ScriptedTransport := {
      transport := { reads := [], sends := [] }
      recvBuffer := { ring := ((RingBuffer.new 4).write [1]).2, isOpen := true }
      sendBuffer := { ring := .new 8, isOpen := true }
      phase := .opened }
    let d : Driven Echo Sim.ScriptedTransport := { session, handler := {} }
    let last : Sim.ScriptedTransport := { reads := [.block], sends := [] }
    let pieces : Sim.ScriptedTransport := { last with reads := [.data [2], .data [3, 4], .block] }
    let whole : Sim.ScriptedTransport := { last with reads := [.data [2, 3, 4], .block] }
    Delivers pieces [[2], [3, 4]] last ∧ Delivers whole [[2, 3, 4]] last ∧
      (d.withTransport pieces).readable = (d.withTransport whole).readable ∧
      (d.withTransport pieces).readable.1 = .ok () ∧
      ∃ s, HearsOnce s (told (d.withTransport pieces).readableEvents) ∧
        s.recvBuffer.contents = [1, 2, 3, 4] := by
  intro session d last pieces whole
  have hpieces : Delivers pieces [[2], [3, 4]] last :=
    .cons rfl (by decide) (by decide) (.cons rfl (by decide) (by decide) (.nil _))
  have hwhole : Delivers whole [[2, 3, 4]] last := .cons rfl (by decide) (by decide) (.nil _)
  rcases (readable_of_cuts (d := d) hpieces hwhole rfl rfl rfl rfl).1 (by decide) with
    ⟨hpass, _, houtcome, hcontents⟩
  rcases houtcome.blocked _ rfl with ⟨hanswer, hhears⟩
  exact ⟨hpieces, hwhole, hpass, hanswer, _, hhears, hcontents _⟩

end Cuts

end Driven
end TcpReactor
