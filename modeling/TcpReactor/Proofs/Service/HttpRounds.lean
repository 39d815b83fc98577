import TcpReactor.Proofs.Http.RequestBytes
import TcpReactor.Proofs.Session.Received
import TcpReactor.Service.HttpService
import TcpReactor.Socket

namespace TcpReactor

/-! # How often the HTTP service goes round its loop

When bytes have come in, the service looks for requests and answers them until there is none left,
whatever its peer sends. Each round but the last uses up a request, which has bytes of its own
(`TcpReactor.Proofs.Http.RequestBytes`), so the bytes received so far say how many rounds there can
be.

* `Rounds` counts the rounds of a loop, and by `Rounds.serve` the loop that runs is this one;
* `InHand` bounds what the parser and the recv buffer hold, and `InHand.round` says what a round
  leaves of it;
* `parsing_progresses`: parsing always makes progress, in a call, over a run of calls, and over a
  run of the service.
-/

namespace HttpService

open Http Session

variable {T : Type} [Transport T] {limits : Limits} {h h' : HttpService} {s s' : Session T}
  {r : HttpService × Session T} {n : Nat}

/-! ## Rounds -/

/-- One round of the loop: look for a request and answer it. Does the loop go on behind it? -/
def round (h : HttpService) : Program T (Bool × HttpService) :=
  .look fun s =>
    let (result, parser, recvBuffer) := h.parser.nextRequest s.recvBuffer
    let h := { h with parser }
    .editRecvBuffer (fun _ => recvBuffer) <|
      match result with
      | .ok none | .error .overflow => .done (false, h)
      | .error (.refused _) =>
          (Program.queueOrClose (badRequest.toBytes false)).bind fun queued =>
            if queued then h.flushAndClose.bind fun h => .done (false, h) else .done (false, h)
      | .ok (some request) =>
          let keepAlive := !request.wantsClose
          (Program.queueOrClose ((route request).toBytes keepAlive)).bind fun queued =>
            if !queued then .done (false, h)
            else if keepAlive then .done (true, h)
            else h.flushAndClose.bind fun h => .done (false, h)

/-- The loop goes from round to round. -/
theorem run_serve (fuel : Nat) (h : HttpService) (s : Session T) :
    (serve (fuel + 1) h).run s =
      match h.round.run s with
      | ((true, h'), s') => (serve fuel h').run s'
      | ((false, h'), s') => (h', s') := by
  rw [serve, round, Program.run, Program.run]
  dsimp only
  -- a refusal, an overflow of the parser, no request yet, a request
  rcases h.parser.nextRequest s.recvBuffer with ⟨(e | _) | _ | request, parser, recvBuffer⟩
  · dsimp only
    rw [Program.run, Program.run, Program.run_bind, Program.run_bind]
    cases ((Program.queueOrClose (badRequest.toBytes false)).run { s with recvBuffer }).1 with
    | false => rfl
    | true =>
        simp only [if_true]
        rw [Program.run_bind]
        rfl
  · rfl
  · rfl
  · dsimp only
    rw [Program.run, Program.run, Program.run_bind, Program.run_bind]
    cases ((Program.queueOrClose ((route request).toBytes !request.wantsClose)).run
        { s with recvBuffer }).1 with
    | false => rfl
    | true =>
        cases request.wantsClose with
        | false => rfl
        | true =>
            simp only [Bool.not_true, Bool.false_eq_true, if_false]
            rw [Program.run_bind]
            rfl

/-- From `h` and `s` the loop ends with its `n`-th round. -/
inductive Rounds : Nat → HttpService → Session T → HttpService × Session T → Prop
  | last {h h' : HttpService} {s s' : Session T} :
      h.round.run s = ((false, h'), s') → Rounds 1 h s (h', s')
  | next {n : Nat} {h h' : HttpService} {s s' : Session T} {r : HttpService × Session T} :
      h.round.run s = ((true, h'), s') → Rounds n h' s' r → Rounds (n + 1) h s r

/-- A loop that ends is not cut short if it may have as many rounds as it needs. -/
theorem Rounds.serve (hrounds : Rounds n h s r) :
    ∀ fuel, n ≤ fuel → (serve fuel h).run s = r := by
  -- on the rounds, not on the fuel: each round needs one unit, and there may be more
  induction hrounds with
  | last hround =>
      intro fuel hfuel
      obtain ⟨fuel, rfl⟩ := Nat.exists_eq_add_of_le' hfuel
      rw [run_serve, hround]
  | next hround _ ih =>
      intro fuel hfuel
      obtain ⟨fuel, rfl⟩ := Nat.exists_eq_add_of_le' (Nat.one_le_of_lt hfuel)
      rw [run_serve, hround]
      exact ih fuel (Nat.le_of_succ_le_succ hfuel)

/-! ## What a round leaves -/

theorem length_queueOrClose (reply : Bytes) (s : Session T) :
    ((Program.queueOrClose reply).run s).2.recvBuffer.length ≤ s.recvBuffer.length := by
  have hqueue := s.recvBuffer_queueSend reply
  rw [Program.queueOrClose, Program.run, Session.perform]
  rcases hanswer : s.queueSend reply with ⟨e | _, s'⟩
  all_goals rw [hanswer] at hqueue
  · show s'.close.recvBuffer.length ≤ _
    rw [← show s'.recvBuffer = s.recvBuffer from hqueue]
    exact length_close s'
  · exact Nat.le_of_eq (congrArg StreamBuffer.length hqueue)

theorem run_flushAndClose (h : HttpService) (s : Session T) :
    (h.flushAndClose.run s).1.parser = h.parser ∧
      (h.flushAndClose.run s).2.recvBuffer.length ≤ s.recvBuffer.length := by
  rw [flushAndClose, Program.run]
  dsimp only
  split
  · exact ⟨rfl, Nat.le_refl _⟩
  · exact ⟨rfl, length_close s⟩

/-- The parser is asked once. The loop goes on only behind a request, and what is done about an
answer puts nothing into the recv buffer. -/
theorem run_round {result : Except Failure (Option Request)} {parser : Parser}
    {recvBuffer : StreamBuffer} {again : Bool}
    (hnext : h.parser.nextRequest s.recvBuffer = (result, parser, recvBuffer))
    (hround : h.round.run s = ((again, h'), s')) :
    h'.parser = parser ∧ s'.recvBuffer.length ≤ recvBuffer.length ∧
      (again = true → ∃ request, result = .ok (some request)) := by
  have hflush (s₁ : Session T) := run_flushAndClose (T := T) { h with parser } s₁
  have hreply (reply : Bytes) :=
    length_queueOrClose (T := T) reply { s with recvBuffer := recvBuffer }
  rw [round, Program.run] at hround
  simp only [hnext] at hround
  -- a reply, and a flush behind it, take nothing from the transport, so what the parser left is
  -- the most there can be
  rcases result with (e | _) | _ | request
  · dsimp only at hround
    rw [Program.run, Program.run_bind] at hround
    split at hround
    · rw [Program.run_bind] at hround
      cases hround
      exact ⟨(hflush _).1, (hflush _).2.trans (hreply _), (absurd · Bool.false_ne_true)⟩
    · cases hround
      exact ⟨rfl, hreply _, (absurd · Bool.false_ne_true)⟩
  · cases hround
    exact ⟨rfl, Nat.le_refl _, (absurd · Bool.false_ne_true)⟩
  · cases hround
    exact ⟨rfl, Nat.le_refl _, (absurd · Bool.false_ne_true)⟩
  · dsimp only at hround
    rw [Program.run, Program.run_bind] at hround
    split at hround
    · cases hround
      exact ⟨rfl, hreply _, (absurd · Bool.false_ne_true)⟩
    split at hround
    · cases hround
      exact ⟨rfl, hreply _, fun _ => ⟨request, rfl⟩⟩
    · rw [Program.run_bind] at hround
      cases hround
      exact ⟨(hflush _).1, (hflush _).2.trans (hreply _), (absurd · Bool.false_ne_true)⟩

/-- The parser has no more than `n` bytes in hand, together with `l` bytes in the recv buffer. -/
def InHand (limits : Limits) (n : Nat) (h : HttpService) (l : Nat) : Prop :=
  ∃ w, h.parser.Reads limits w ∧ w.length + l ≤ n

/-- Bytes get in hand only by being received. -/
theorem InHand.charge {n k l l' : Nat} (hparser : h'.parser = h.parser) (hlength : l' ≤ l + k)
    (hhand : InHand limits n h l) : InHand limits (n + k) h' l' := by
  obtain ⟨w, hreads, hfew⟩ := hhand
  exact ⟨w, hparser ▸ hreads, by omega⟩

theorem InHand.mono {n n' l : Nat} (hn : n ≤ n') (hhand : InHand limits n h l) :
    InHand limits n' h l := by
  obtain ⟨w, hreads, hfew⟩ := hhand
  exact ⟨w, hreads, hfew.trans hn⟩

/-- What a parser has not used and what it has not even taken over. -/
def unused (h : HttpService) (s : Session T) : Nat := h.parser.buffered + s.recvBuffer.length

/-- Each round but the last uses up a request. -/
theorem InHand.round {again : Bool} (hhand : InHand limits n h s.recvBuffer.length)
    (hround : h.round.run s = ((again, h'), s')) :
    InHand limits n h' s'.recvBuffer.length ∧
      (again = true → h'.unused s' < h.unused s ∧
        ∃ m, m + shortest ≤ n ∧ InHand limits m h' s'.recvBuffer.length) := by
  obtain ⟨w, hreads, hfew⟩ := hhand
  have hyields := hreads.yields s.recvBuffer
  rcases hnext : h.parser.nextRequest s.recvBuffer with ⟨result, parser, recvBuffer⟩
  obtain ⟨hparser, hlength, hagain⟩ := run_round hnext hround
  rw [hnext] at hyields
  unfold InHand unused
  rw [hparser]
  cases hyields with
  -- without a request the loop does not go on
  | stuck hfailed =>
      refine ⟨⟨w, hreads, by omega⟩, fun h => ?_⟩
      obtain ⟨_, hrequest⟩ := hagain h
      cases hrequest
  | nothing hok hanswer hempty hreads' =>
      rw [← recvBuffer.length_contents, hempty, List.length_nil] at hlength
      refine ⟨⟨_, hreads', ?_⟩, fun h => ?_⟩
      · rw [List.length_append, StreamBuffer.length_contents]
        omega
      · obtain ⟨request, hrequest⟩ := hagain h
        exact absurd hrequest (hanswer request)
  -- the bytes of a request are in hand no more
  | request hok hempty hbytes hmessage hreads' hless =>
      rw [← recvBuffer.length_contents, hempty, List.length_nil] at hlength
      have hlong := le_length_of_message hmessage
      have hbytes := congrArg List.length hbytes
      rw [List.length_append, List.length_append, StreamBuffer.length_contents] at hbytes
      refine ⟨⟨_, hreads', by omega⟩, fun _ => ⟨by omega, n - shortest, by omega, _, hreads', ?_⟩⟩
      omega

/-- The loop ends, since every request takes its bytes with it. -/
theorem InHand.exists_rounds (hhand : InHand limits n h s.recvBuffer.length) :
    ∃ k ≤ n / shortest + 1, k ≤ h.unused s + 1 ∧
      ∃ r, Rounds k h s r ∧ InHand limits n r.1 r.2.recvBuffer.length := by
  induction n using Nat.strongRecOn generalizing h s with
  | ind n ih =>
      -- no induction on rounds, as their number is what is sought: each charges its request to `n`
      rcases hround : h.round.run s with ⟨⟨again, h'⟩, s'⟩
      obtain ⟨hleft, hagain⟩ := hhand.round hround
      cases again with
      | false => exact ⟨1, Nat.le_add_left _ _, Nat.le_add_left _ _, _, .last hround, hleft⟩
      | true =>
          obtain ⟨hless, m, hm, hleft⟩ := hagain rfl
          obtain ⟨k, hk, hk', r, hrounds, hend⟩ := ih m (by rw [shortest] at hm; omega) hleft
          refine ⟨k + 1, ?_, by omega, r, .next hround hrounds, hend.mono (by omega)⟩
          have hdiv : (m + shortest) / shortest ≤ n / shortest := Nat.div_le_div_right hm
          rw [Nat.add_div_right m (by decide)] at hdiv
          omega

/-! ## Callbacks -/

/-- A service that is about to close looks at nothing; any other goes round its loop. -/
theorem InHand.onRecv (hhand : InHand limits n h s.recvBuffer.length) :
    let r := (Handler.onRecv h : Program T HttpService).run s
    (h.closing = true ∧ r = (h, s) ∨ ∃ k ≤ n / shortest + 1, Rounds k h s r) ∧
      InHand limits n r.1 r.2.recvBuffer.length := by
  intro r
  cases hclosing : h.closing with
  | true =>
      have hnothing : (Handler.onRecv h : Program T HttpService) = .done h := if_pos hclosing
      have hr : r = (h, s) := by
        show (Handler.onRecv h : Program T HttpService).run s = _
        rw [hnothing]
        rfl
      rw [hr]
      exact ⟨.inl ⟨rfl, rfl⟩, hhand⟩
  | false =>
      -- the fuel is one more than the bytes in hand, and no round but the last is without a byte
      have hserve : (Handler.onRecv h : Program T HttpService) =
          .look fun s => serve (h.unused s + 1) h := if_neg (by simp [hclosing])
      obtain ⟨k, hk, hfuel, r', hrounds, hleft⟩ := hhand.exists_rounds
      have hr : r = r' := by
        show (Handler.onRecv h : Program T HttpService).run s = _
        rw [hserve, Program.run]
        exact hrounds.serve _ hfuel
      rw [hr]
      exact ⟨.inr ⟨k, hk, hrounds⟩, hleft⟩

theorem run_onSend (h : HttpService) (k : Nat) (s : Session T) :
    ((Handler.onSend h k : Program T HttpService).run s).1 = h ∧
      ((Handler.onSend h k : Program T HttpService).run s).2.recvBuffer.length ≤
        s.recvBuffer.length := by
  have hlook : (Handler.onSend h k : Program T HttpService) = .look fun s =>
      if h.closing && !s.hasPendingSend then .call .close fun _ => .done h else .done h := rfl
  rw [hlook, Program.run]
  split
  · exact ⟨rfl, length_close s⟩
  · exact ⟨rfl, Nat.le_refl _⟩

theorem inHand_budget (limits : Limits) : Driven.Budget T (InHand limits) where
  charge hlength hhand := hhand.charge rfl hlength
  onRecv hhand := hhand.onRecv.2
  onSend {n h k s} hhand := by
    obtain ⟨hhandler, hlength⟩ := run_onSend h k s
    exact hhand.charge (k := 0) (congrArg _ hhandler) hlength
  onClose _ hhand := hhand
  onInterest _ hhand := hhand

/-! ## Runs -/

/-- Parsing always makes progress, whatever the limits and the input.

The loop inside a call ends, from any parser and with any buffer, open or closed; and that loop is
where a parser that has not failed has its answer from. However a parser is asked and reset, its
input falls into pieces, and each request is spelled by a piece of its own, of sixteen bytes at
least. And wherever a connection to the service has come to, when the service is told of the bytes
that come in next, it is about to close and does nothing, or it ends its loop after no more rounds
than one for every sixteen bytes received so far, and one more. -/
theorem parsing_progresses (limits : Limits) :
    (∀ (p : Parser) (b : StreamBuffer),
      (∃ n ≤ p.left b + 1, ∃ stop b', p.Loops n b stop b') ∧
      (p.failed = none → ∃ n ≤ p.unread.length + b.length + 1, ∃ stop b',
        (p.pull b).1.Loops n (p.pull b).2 stop b' ∧
        p.nextRequest b = (stop.result, p.stopped stop, b'))) ∧
    (∀ moves : List Parser.Move, ∃ pieces : List (Option Request × Bytes),
      (pieces.map (·.2)).flatten = Parser.input { limits } moves ∧
      pieces.filterMap (·.1) = Parser.requests { limits } moves ∧
      ∀ r v, (some r, v) ∈ pieces → Message limits v r ∧ 16 ≤ v.length) ∧
    ∀ (transport : T) (recvCapacity sendCapacity now fuel : Nat)
      (steps : List (Driven.Step HttpService T)) (d : Driven HttpService T),
      let new := Driven.new transport recvCapacity sendCapacity now (ofLimits limits)
      (∀ step ∈ steps, step.spares = true) → steps.foldlM (Driven.step fuel) new = some d →
      let bytes := received (new.trace fuel steps ++ d.session.receiveEvents)
      let s := (d.session.receive 0).2
      let r := (Handler.onRecv d.handler : Program T HttpService).run s
      d.handler.closing = true ∧ r = (d.handler, s) ∨
        ∃ n ≤ bytes / 16 + 1, Rounds n d.handler s r := by
  refine ⟨fun p b => ⟨p.exists_loops b, fun hok => p.loops_nextRequest hok b⟩, fun moves => ?_, ?_⟩
  · obtain ⟨pieces, hinput, hrequests, hmessages⟩ :=
      (Parser.Reads.start limits).exists_pieces moves
    refine ⟨pieces, hinput, hrequests, fun r v hmem => ?_⟩
    have hmessage := hmessages r v hmem
    exact ⟨hmessage, le_length_of_message hmessage⟩
  · intro transport recvCapacity sendCapacity now fuel steps d new hsteps hrun bytes s r
    have hnew : Driven.Budget.Holds (InHand limits) 0 new :=
      ⟨[], .start limits, Nat.le_refl 0⟩
    -- what the parser holds and the buffer together are charged to the bytes received
    have hbudget : Driven.Budget T (InHand limits) := inHand_budget limits
    have hheld := hbudget.run hsteps hnew hrun
    have hreceived := hbudget.charge (length_receive d.session 0) hheld
    rw [Nat.zero_add, ← received_append] at hreceived
    exact (InHand.onRecv hreceived).1

/-- A parser is asked twice for what is in a buffer with two requests of the shortest kind: each has
its sixteen bytes. When both arrive at the service at once, with the start of a third behind them,
three rounds are enough. -/
theorem parsing_progresses_pipelined :
    let message := utf8 "G / HTTP/1.1\r\n\r\n"
    let empty : StreamBuffer := { StreamBuffer.new 64 with isOpen := true }
    let filled := (empty.write (message ++ message)).toOption.getD empty
    let new : Driven HttpService Socket :=
      .new { peer := .v4 [127, 0, 0, 1] 80 } 64 512 0 (ofLimits {})
    let steps : List (Driven.Step HttpService Socket) :=
      [.call .openUp, .editTransport (·.arrive (message ++ message ++ utf8 "GET"))]
    (∀ step ∈ steps, step.spares = true) ∧
    (∃ d, steps.foldlM (Driven.step 9) new = some d ∧ d.handler.closing = false ∧
      received (new.trace 9 steps ++ d.session.receiveEvents) = 35 ∧
      ∃ n ≤ 3, Rounds n d.handler (d.session.receive 0).2
        ((Handler.onRecv d.handler : Program Socket HttpService).run (d.session.receive 0).2)) ∧
    (∃ n ≤ 1, ∃ stop b', Parser.Loops n { limits := {} } (.new 8) stop b' ∧
      stop.result.toOption = some none) ∧
    ∃ (pieces : List (Option Request × Bytes)) (r : Request) (v : Bytes),
      (pieces.map (·.2)).flatten = filled.contents ∧ (pieces.filterMap (·.1)).length = 2 ∧
      (some r, v) ∈ pieces ∧ Message {} v r ∧ 16 ≤ v.length := by
  intro message empty filled new steps
  have hsteps : ∀ step ∈ steps, step.spares = true := by simp [steps, Driven.Step.spares]
  have hend : (steps.foldlM (Driven.step 9) new).map (fun d =>
      (d.handler.closing, received (new.trace 9 steps ++ d.session.receiveEvents))) =
      some (false, 35) := by
    decide +kernel
  obtain ⟨d, hrun, hpair⟩ := Option.map_eq_some_iff.mp hend
  obtain ⟨hclosing, hbytes⟩ := Prod.mk.inj hpair
  obtain ⟨hloop, hpieces, hrounds⟩ := parsing_progresses (T := Socket) {}
  refine ⟨hsteps, ⟨d, hrun, hclosing, hbytes, ?_⟩, ?_, ?_⟩
  · rcases hrounds _ 64 512 0 9 steps d hsteps hrun with ⟨hclose, _⟩ | ⟨n, hn, hrounds⟩
    · rw [hclosing] at hclose
      cases hclose
    · rw [hbytes] at hn
      exact ⟨n, hn, hrounds⟩
  · obtain ⟨n, hn, stop, b', hloops, hnext⟩ := (hloop { limits := {} } (.new 8)).2 rfl
    refine ⟨n, hn, stop, b', hloops, ?_⟩
    have hanswer : (({ limits := {} } : Parser).nextRequest (.new 8)).1.toOption = some none := by
      decide +kernel
    rw [hnext] at hanswer
    exact hanswer
  · obtain ⟨pieces, hinput, hrequests, hmessages⟩ := hpieces [.ask filled, .ask empty]
    have hread : Parser.input { limits := {} } [.ask filled, .ask empty] = filled.contents := by
      decide +kernel
    have htwo : (Parser.requests { limits := {} } [.ask filled, .ask empty]).length = 2 := by
      decide +kernel
    rw [← hrequests] at htwo
    obtain ⟨r, hr⟩ := List.exists_mem_of_length_pos (htwo ▸ Nat.two_pos)
    obtain ⟨⟨_, v⟩, hmem, rfl⟩ := List.mem_filterMap.mp hr
    -- some piece was a request, as two were read
    obtain ⟨hmessage, hlong⟩ := hmessages r v hmem
    exact ⟨pieces, r, v, hinput.trans hread, htwo, hmem, hmessage, hlong⟩

end HttpService
end TcpReactor
