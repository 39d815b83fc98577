import TcpReactor.Proofs.Http.LineLimit
import TcpReactor.Proofs.Http.Outcome
import TcpReactor.Proofs.Simulation

namespace TcpReactor.Http

/-! # How much a parser keeps

A peer that sends slowly, or never finishes a line or a body, makes its parser keep what has come so
far. How much that can be is a matter of the limits alone, `Limits.backlog`, and while a piece is
dealt with also of the capacity of the stream buffer.

* `scan_waits`: a scan that wants more bytes has stopped for a line without its end, or for a body
  that is not whole yet.
* A `Caller` writes pieces to the stream buffer and asks behind each of them until there is no
  further request, or an error. `Caller.Bounded` is what every turn keeps (`Caller.Bounded.turn`).
* `backlog_bounded` says what this means for every run of a caller.
-/

/-! ## What a parser waits for -/

variable {limits : Limits} {p p' : Parser} {b b' : StreamBuffer}

/-- The most bytes that a waiting parser has: a line of the greatest length with the first half of
its end, or all but the last byte of a body. -/
def Limits.backlog (limits : Limits) : Nat :=
  max (limits.maxLine.toNat + 1) (limits.maxBody.toNat - 1)

/-- The parser waits for more bytes. -/
inductive Parser.Waits (p : Parser) : Prop
  | line : p.stage.WantsLine → ¬ crlf <:+: p.unread →
      p.buffered ≤ p.limits.maxLine.toNat + 1 → Waits p
  | body {first : RequestLine} {fields : Fields} {length : Nat} :
      p.stage = .body first fields length → declaredLength p.limits fields = .ok length →
      0 < length → length ≤ p.limits.maxBody.toNat → p.buffered < length → Waits p

theorem Parser.Waits.buffered_le (h : p.Waits) : p.buffered ≤ p.limits.backlog := by
  unfold Limits.backlog
  cases h with
  | line _ _ hfew => omega
  | body _ _ hpos hmax hfew => omega

/-- A parser that has nothing waits for a request line. -/
theorem Parser.Waits.fresh (hstage : p.stage = .requestLine) (hnone : p.unread = []) : p.Waits := by
  apply Parser.Waits.line
  · rw [hstage]
    exact nofun
  · rw [hnone]
    simp [crlf]
  · unfold Parser.buffered
    rw [hnone]
    exact Nat.zero_le _

theorem le_maxBody_of_declaredLength {fields : Fields} {length : Nat}
    (h : declaredLength limits fields = .ok length) : length ≤ limits.maxBody.toNat := by
  unfold declaredLength at h
  split at h
  · cases h
    exact Nat.zero_le _
  split at h
  · cases h
  split at h
  · cases h
  · cases h
    omega

/-- Why a scan wants more bytes. -/
theorem scan_waits {stage : Stage} {bytes : Bytes}
    (h : (scan limits stage bytes).result = .ok none) :
    ((scan limits stage bytes).stage.WantsLine ∧
      takeLine limits (scan limits stage bytes).unread = .ok none) ∨
    ∃ first fields length, (scan limits stage bytes).stage = .body first fields length ∧
      (scan limits stage bytes).unread.length < length := by
  -- a scan waits in the body or before a line end; where it ends in any other way there is a result
  induction stage, bytes using scan.induct limits with
  | case1 bytes first fields length hshort =>
      rw [scan_body, if_pos hshort]
      exact .inr ⟨first, fields, length, rfl, hshort⟩
  | case2 bytes first fields length hlong =>
      rw [scan_body, if_neg hlong] at h
      cases h
  | case3 bytes stage hstage e htaken =>
      rw [scan_line limits hstage, htaken] at h
      cases h
  | case4 bytes stage hstage htaken =>
      rw [scan_line limits hstage, htaken]
      exact .inl ⟨hstage, htaken⟩
  | case5 bytes stage hstage line rest htaken hutf8 =>
      rw [scan_line limits hstage, htaken] at h
      simp only [hutf8] at h
      cases h
  | case6 bytes stage hstage line rest htaken text hutf8 e haccept =>
      rw [scan_line limits hstage, htaken] at h
      simp only [hutf8, haccept] at h
      cases h
  | case7 bytes stage hstage line rest htaken text hutf8 request haccept =>
      rw [scan_of_request hstage htaken hutf8 haccept] at h
      cases h
  | case8 bytes stage hstage line rest htaken text hutf8 next haccept ih =>
      rw [scan_of_stage hstage htaken hutf8 haccept] at h ⊢
      exact ih h

/-- Without its end a line is waited for as long as there is room for it and the first half. -/
theorem takeLine_eq_none (hmax : limits.maxLine.toNat < UInt64.size - 1) {bytes : Bytes}
    (h : takeLine limits bytes = .ok none) :
    ¬ crlf <:+: bytes ∧ bytes.length ≤ limits.maxLine.toNat + 1 := by
  cases hsplit : splitLine? bytes with
  | none =>
      rw [takeLine_of_none hmax hsplit] at h
      split at h
      · cases h
      · rename_i hfew
        exact ⟨splitLine?_eq_none.mp hsplit, Nat.le_of_not_lt hfew⟩
  | some split =>
      rw [takeLine, hsplit] at h
      dsimp only at h
      split at h <;> cases h

/-! ## One call -/

/-- What a parser that has not failed is behind a call. -/
structure Parser.Asked (p : Parser) (b : StreamBuffer) (answer : Except Failure (Option Request))
    (p' : Parser) (b' : StreamBuffer) : Prop where
  limits_eq : p'.limits = p.limits
  isOpen : b'.isOpen = true
  empty : b'.contents = []
  declared : p'.stage.Declared p.limits
  failed_eq : p'.failed = match answer with
    | .error (.refused e) => some e
    | .error .overflow | .ok _ => none
  /-- Nothing comes back. -/
  buffered_le : p'.buffered ≤ p.buffered + b.length
  waits : answer = .ok none → p'.Waits
  /-- A request takes a byte at least. -/
  buffered_lt : (∃ request, answer = .ok (some request)) → p'.buffered < p.buffered + b.length
  ne_overflow : answer ≠ .error .overflow

theorem Parser.length_pulled (p : Parser) (b : StreamBuffer) :
    (p.unread ++ b.contents).length = p.buffered + b.length := by
  rw [List.length_append, b.length_contents]
  rfl

theorem Parser.asked (hmax : p.limits.maxLine.toNat < UInt64.size - 1) (hok : p.failed = none)
    (hopen : b.isOpen = true) (hstage : p.stage.Declared p.limits) :
    p.Asked b (p.nextRequest b).1 (p.nextRequest b).2.1 (p.nextRequest b).2.2 := by
  -- everything that is said of the call is said of the one scan that it makes
  obtain ⟨b', hopen', hempty, hnext⟩ := Parser.nextRequest_eq_scan hok hopen
  rw [hnext]
  have hdeclared := declared_scan (p.unread ++ b.contents) hstage
  have hless := length_unread_scan p.limits p.stage (p.unread ++ b.contents)
  have hall := p.length_pulled b
  have hcounted := scan_ne_overflow hmax p.stage (p.unread ++ b.contents)
  refine ⟨rfl, hopen', hempty, hdeclared, rfl, hall ▸ hless, ?_, ?_, hcounted⟩
  · intro hnone
    rcases scan_waits hnone with ⟨hwants, htaken⟩ | ⟨first, fields, length, hbody, hshort⟩
    · obtain ⟨hline, hfew⟩ := takeLine_eq_none hmax htaken
      exact .line hwants hline hfew
    · rw [hbody] at hdeclared
      exact .body hbody hdeclared.1 hdeclared.2 (le_maxBody_of_declaredLength hdeclared.1) hshort
  · rintro ⟨request, hrequest⟩
    have htaken := (scan_request hrequest).2
    rw [hstage.due, Nat.add_zero, hall] at htaken
    exact htaken

theorem Parser.Asked.length_eq {answer : Except Failure (Option Request)}
    (h : p.Asked b answer p' b') : b'.length = 0 := by
  rw [← b'.length_contents, h.empty]
  rfl

/-- A parser that has failed does nothing but say so. -/
theorem Parser.nextRequest_of_failed {e : ParseError} (h : p.failed = some e) :
    p.nextRequest b = (.error (.refused e), p, b) := by
  rw [Parser.nextRequest, h]

/-! ## Runs of a caller -/

/-- How far a caller has come. -/
inductive Progress
  /-- The last piece is dealt with, and there was no error. -/
  | between
  /-- The last piece may hold another request. -/
  | within
  /-- There was an error. -/
  | stuck
  deriving DecidableEq, Repr

/-- Whoever feeds a parser: writes a piece to the stream buffer and asks until there is no further
request, or an error. -/
structure Caller where
  parser : Parser
  buffer : StreamBuffer
  progress : Progress := .between

inductive Turn
  | write (piece : Bytes)
  | ask
  | reset
  deriving DecidableEq, Repr

/-- Take a turn. No piece is written before the last one has been dealt with. The buffer may refuse
a piece, and then it stays as it is. -/
def Caller.turn (c : Caller) : Turn → Option Caller
  | .write piece =>
      let buffer := (c.buffer.write piece).toOption.getD c.buffer
      match c.progress with
      | .between => some { c with buffer, progress := .within }
      | .within => none
      | .stuck => some { c with buffer }
  | .ask =>
      let (answer, parser, buffer) := c.parser.nextRequest c.buffer
      let progress := match answer with
        | .ok none => .between
        | .ok (some _) => .within
        | .error _ => .stuck
      some { parser, buffer, progress }
  | .reset =>
      let progress := if c.progress = .stuck then .between else c.progress
      some { c with parser := c.parser.reset, progress }

/-- What the turns of a caller keep. -/
structure Caller.Bounded (limits : Limits) (capacity : Nat) (c : Caller) : Prop where
  limits_eq : c.parser.limits = limits
  isOpen : c.buffer.isOpen = true
  capacity_eq : c.buffer.capacity = capacity
  declared : c.parser.stage.Declared limits
  failed_iff : c.parser.failed = none ↔ c.progress ≠ .stuck
  waits : c.progress = .between → c.parser.Waits
  /-- The next call takes over what is in the buffer. -/
  pulled : c.progress ≠ .stuck → c.parser.buffered + c.buffer.length ≤ limits.backlog + capacity
  kept : c.parser.buffered ≤ limits.backlog + capacity

namespace Caller.Bounded

variable {capacity : Nat} {c c' : Caller}

/-- A caller who has done nothing yet. -/
theorem start (limits : Limits) (hopen : b.isOpen = true) :
    Bounded limits b.capacity { parser := { limits }, buffer := b } where
  limits_eq := rfl
  isOpen := hopen
  capacity_eq := rfl
  declared := trivial
  failed_iff := by simp
  waits := fun _ => .fresh rfl rfl
  pulled := by
    intro _
    have hlength := b.length_le_capacity
    show 0 + b.length ≤ _
    omega
  kept := Nat.zero_le _

/-- What the next call makes of a parser that has not failed. -/
theorem asked (hmax : limits.maxLine.toNat < UInt64.size - 1) (h : c.Bounded limits capacity)
    (hok : c.parser.failed = none) : c.parser.Asked c.buffer (c.parser.nextRequest c.buffer).1
      (c.parser.nextRequest c.buffer).2.1 (c.parser.nextRequest c.buffer).2.2 :=
  Parser.asked (h.limits_eq ▸ hmax) hok h.isOpen (h.limits_eq ▸ h.declared)

/-- Behind a write the buffer is as it was, or has the piece. -/
theorem exists_buffer (h : c.Bounded limits capacity) (piece : Bytes) : ∃ buffer,
    (c.buffer.write piece).toOption.getD c.buffer = buffer ∧ buffer.isOpen = true ∧
      buffer.capacity = capacity := by
  cases hwrite : c.buffer.write piece with
  | error e => exact ⟨c.buffer, rfl, h.isOpen, h.capacity_eq⟩
  | ok buffer =>
      have hopen := (StreamBuffer.isOpen_write hwrite).2
      have hcapacity := StreamBuffer.capacity_write hwrite
      exact ⟨buffer, rfl, hopen, hcapacity.trans h.capacity_eq⟩

theorem write {piece : Bytes} (h : c.Bounded limits capacity)
    (hturn : c.turn (.write piece) = some c') : c'.Bounded limits capacity := by
  obtain ⟨buffer, hbuffer, hopen, hcapacity⟩ := h.exists_buffer piece
  simp only [Caller.turn, hbuffer] at hturn
  cases hprogress : c.progress with
  | between =>
      rw [hprogress, Option.some.injEq] at hturn
      rw [← hturn]
      -- the parser waits, so it has no more than that, and the buffer no more than its capacity
      have hwaits := (h.waits hprogress).buffered_le
      have hlength := buffer.length_le_capacity
      rw [h.limits_eq] at hwaits
      rw [hcapacity] at hlength
      exact
        { h with
          isOpen := hopen
          capacity_eq := hcapacity
          failed_iff := iff_of_true (h.failed_iff.mpr (by simp [hprogress])) (by simp)
          waits := nofun
          pulled := fun _ => Nat.add_le_add hwaits hlength }
  | within =>
      rw [hprogress] at hturn
      cases hturn
  | stuck =>
      rw [hprogress, Option.some.injEq] at hturn
      rw [← hturn]
      exact
        { h with
          isOpen := hopen
          capacity_eq := hcapacity
          failed_iff := hprogress ▸ h.failed_iff
          waits := nofun
          pulled := fun hnot => absurd rfl hnot }

theorem ask (hmax : limits.maxLine.toNat < UInt64.size - 1) (h : c.Bounded limits capacity)
    (hturn : c.turn .ask = some c') : c'.Bounded limits capacity := by
  simp only [Caller.turn, Option.some.injEq] at hturn
  have hcapacity := c.parser.capacity_nextRequest c.buffer
  cases hfailed : c.parser.failed with
  | some e =>
      -- nothing has changed
      have hstuck : c.progress = .stuck := by
        have := h.failed_iff
        simp_all
      rw [Parser.nextRequest_of_failed hfailed] at hturn
      rw [← hturn, ← hstuck]
      exact h
  | none =>
      have hasked := h.asked hmax hfailed
      have hfew := Nat.le_trans hasked.buffered_le (h.pulled (h.failed_iff.mp hfailed))
      rcases hnext : c.parser.nextRequest c.buffer with ⟨answer, parser, buffer⟩
      rw [hnext] at hturn hcapacity hasked hfew
      rw [← hturn]
      exact
        { limits_eq := hasked.limits_eq.trans h.limits_eq
          isOpen := hasked.isOpen
          capacity_eq := hcapacity.trans h.capacity_eq
          declared := h.limits_eq ▸ hasked.declared
          failed_iff := by
            dsimp only
            rw [hasked.failed_eq]
            rcases answer with (e | _) | _ | request
            · simp
            · exact absurd rfl hasked.ne_overflow
            · simp
            · simp
          waits := by
            intro hbetween
            rcases answer with e | _ | request
            · cases hbetween
            · exact hasked.waits rfl
            · cases hbetween
          pulled := by
            intro _
            show parser.buffered + buffer.length ≤ _
            rw [hasked.length_eq]
            exact hfew
          kept := hfew }

theorem reset (h : c.Bounded limits capacity) (hturn : c.turn .reset = some c') :
    c'.Bounded limits capacity := by
  simp only [Caller.turn, Option.some.injEq] at hturn
  rw [← hturn]
  exact
    { limits_eq := h.limits_eq
      isOpen := h.isOpen
      capacity_eq := h.capacity_eq
      declared := trivial
      failed_iff := by
        refine iff_of_true rfl ?_
        dsimp only
        split <;> simp_all
      waits := fun _ => .fresh rfl rfl
      pulled := by
        -- what is unread is thrown away, and the buffer alone is within its capacity
        intro _
        have hlength := c.buffer.length_le_capacity
        rw [h.capacity_eq] at hlength
        show 0 + c.buffer.length ≤ _
        omega
      kept := Nat.zero_le _ }

theorem turn (hmax : limits.maxLine.toNat < UInt64.size - 1) {t : Turn}
    (h : c.Bounded limits capacity) (hturn : c.turn t = some c') : c'.Bounded limits capacity := by
  cases t with
  | write piece => exact h.write hturn
  | ask => exact h.ask hmax hturn
  | reset => exact h.reset hturn

/-- A call that gives a request leaves fewer bytes, wherever they are. -/
theorem less_of_within (hmax : limits.maxLine.toNat < UInt64.size - 1)
    (h : c.Bounded limits capacity) (hturn : c.turn .ask = some c')
    (hwithin : c'.progress = .within) :
    c'.parser.buffered + c'.buffer.length < c.parser.buffered + c.buffer.length := by
  simp only [Caller.turn, Option.some.injEq] at hturn
  -- a parser that has failed gives no request any more
  cases hfailed : c.parser.failed with
  | some e =>
      rw [Parser.nextRequest_of_failed hfailed] at hturn
      rw [← hturn] at hwithin
      cases hwithin
  | none =>
      have hasked := h.asked hmax hfailed
      rcases hnext : c.parser.nextRequest c.buffer with ⟨e | _ | request, parser, buffer⟩
      all_goals
        rw [hnext] at hturn hasked
        rw [← hturn] at hwithin ⊢
      · cases hwithin
      · cases hwithin
      · show parser.buffered + buffer.length < _
        rw [hasked.length_eq]
        exact hasked.buffered_lt ⟨request, rfl⟩

/-- A piece is dealt with sooner or later, since each request takes a byte. -/
theorem exists_dealt (hmax : limits.maxLine.toNat < UInt64.size - 1)
    (h : c.Bounded limits capacity) :
    ∃ n ≤ c.parser.buffered + c.buffer.length + 1, ∃ c',
      (List.replicate n Turn.ask).foldlM Caller.turn c = some c' ∧ c'.progress ≠ .within := by
  induction hm : c.parser.buffered + c.buffer.length using Nat.strongRecOn generalizing c with
  | ind m ih =>
      obtain ⟨c₁, hturn⟩ : ∃ c₁, c.turn .ask = some c₁ := ⟨_, rfl⟩
      have hnext := h.ask hmax hturn
      by_cases hwithin : c₁.progress = .within
      · -- there was a request, so fewer bytes are left
        have hless := h.less_of_within hmax hturn hwithin
        obtain ⟨n, hn, c₂, hrun, hdone⟩ := ih _ (by omega) hnext rfl
        refine ⟨n + 1, by omega, c₂, ?_, hdone⟩
        rw [List.replicate_succ, List.foldlM_cons, hturn]
        exact hrun
      · refine ⟨1, by omega, c₁, ?_, hwithin⟩
        rw [List.replicate_one, List.foldlM_cons, hturn]
        rfl

end Caller.Bounded

/-! ## The bound -/

/-- How much is kept at a moment of a run. -/
structure Caller.Contained (limits : Limits) (capacity : Nat) (c : Caller) : Prop where
  limits_eq : c.parser.limits = limits
  between : c.progress = .between → c.parser.Waits ∧ c.parser.buffered ≤ limits.backlog
  /-- When a call has taken over what is in the buffer. From there on it uses bytes up. -/
  pulled : c.progress ≠ .stuck → (c.parser.pull c.buffer).1.buffered ≤ limits.backlog + capacity
  /-- At any time. A parser that is stuck keeps what it had. -/
  kept : c.parser.buffered ≤ limits.backlog + capacity
  /-- Behind a call that finds no request. -/
  drained : ∀ p b, c.parser.nextRequest c.buffer = (.ok none, p, b) →
    b.isOpen = true ∧ b.contents = [] ∧ p.limits = limits ∧ p.Waits
  /-- Behind an error every call gives it again, and touches nothing. -/
  stuck : (c.progress = .stuck ↔ ∃ e, c.parser.failed = some e) ∧
    ∀ e p b, c.parser.nextRequest c.buffer = (.error e, p, b) →
      ∀ b', p.nextRequest b' = (.error e, p, b')
  ends : ∃ n ≤ c.parser.buffered + c.buffer.length + 1, ∃ c',
    (List.replicate n Turn.ask).foldlM Caller.turn c = some c' ∧ c'.progress ≠ .within

theorem Caller.Bounded.contained {capacity : Nat} {c : Caller}
    (hmax : limits.maxLine.toNat < UInt64.size - 1) (h : c.Bounded limits capacity) :
    c.Contained limits capacity where
  limits_eq := h.limits_eq
  between := by
    intro hbetween
    have hwaits := h.waits hbetween
    exact ⟨hwaits, h.limits_eq ▸ hwaits.buffered_le⟩
  pulled := by
    intro hnot
    obtain ⟨b', _, _, hpull⟩ := c.parser.pull_eq h.isOpen
    rw [hpull]
    exact Nat.le_trans (Nat.le_of_eq (c.parser.length_pulled c.buffer)) (h.pulled hnot)
  kept := h.kept
  drained := by
    intro p b hnext
    cases hfailed : c.parser.failed with
    | some e =>
        rw [Parser.nextRequest_of_failed hfailed] at hnext
        cases hnext
    | none =>
        have hasked := h.asked hmax hfailed
        rw [hnext] at hasked
        exact ⟨hasked.isOpen, hasked.empty, hasked.limits_eq.trans h.limits_eq, hasked.waits rfl⟩
  stuck := by
    constructor
    · rw [← not_iff_not, ← ne_eq, ← h.failed_iff, not_exists]
      exact Option.eq_none_iff_forall_ne_some
    · intro e p b hnext b'
      cases hfailed : c.parser.failed with
      | some e' =>
          rw [Parser.nextRequest_of_failed hfailed] at hnext
          cases hnext
          exact Parser.nextRequest_of_failed hfailed
      | none =>
          have hasked := h.asked hmax hfailed
          rw [hnext] at hasked
          -- a refusal is kept, and the other failure does not occur
          cases e with
          | refused e => exact Parser.nextRequest_of_failed hasked.failed_eq
          | overflow => exact absurd rfl hasked.ne_overflow
  ends := h.exists_dealt hmax

/-- Whatever pieces a parser is fed, as long as it is asked behind each of them until it gives no
further request, what it keeps is bounded by its limits, and the stream buffer is empty whenever it
waits. -/
theorem backlog_bounded (hmax : limits.maxLine.toNat < UInt64.size - 1) (hopen : b.isOpen = true)
    {turns : List Turn} {c : Caller}
    (hrun : turns.foldlM Caller.turn { parser := { limits }, buffer := b } = some c) :
    c.Contained limits b.capacity :=
  (foldlM_keeps (P := fun _ => True) (I := Caller.Bounded limits b.capacity)
    (fun _ h hturn => h.turn hmax hturn) (fun _ _ => trivial) (.start limits hopen)
    hrun).contained hmax

/-- A request whose body is not whole yet, in pieces of a buffer for sixteen bytes; and nineteen
bytes without a line end, which are refused. -/
theorem backlog_bounded_slow :
    let limits : Limits := { maxLine := 17, maxBody := 3 }
    let b : StreamBuffer := { StreamBuffer.new 16 with isOpen := true }
    let start : Caller := { parser := { limits }, buffer := b }
    let slow : List Turn := [.write (utf8 "POST / HTTP/1.1\r"), .ask,
      .write (utf8 "\nContent-Length"), .ask, .write (utf8 ": 3\r\n\r\nab"), .ask]
    let endless : List Turn := [.write (utf8 "POST / HTTP/1.1 "), .ask, .write (utf8 "PUT"), .ask]
    (∃ c, slow.foldlM Caller.turn start = some c ∧ c.progress = .between ∧
      c.parser.buffered = 2 ∧ c.Contained limits 16) ∧
    ∃ c, endless.foldlM Caller.turn start = some c ∧ c.progress = .stuck ∧
      c.parser.buffered = 19 ∧ c.Contained limits 16 := by
  intro limits b start slow endless
  have hmax : limits.maxLine.toNat < UInt64.size - 1 := by decide
  have hslow : (slow.foldlM Caller.turn start).map (fun c => (c.progress, c.parser.buffered)) =
      some (.between, 2) := by
    decide +kernel
  have hendless : (endless.foldlM Caller.turn start).map
      (fun c => (c.progress, c.parser.buffered)) = some (.stuck, 19) := by
    decide +kernel
  obtain ⟨c, hrun, hpair⟩ := Option.map_eq_some_iff.mp hslow
  obtain ⟨c', hrun', hpair'⟩ := Option.map_eq_some_iff.mp hendless
  obtain ⟨hbetween, hfew⟩ := Prod.mk.inj hpair
  obtain ⟨hstuck, hfew'⟩ := Prod.mk.inj hpair'
  exact ⟨⟨c, hrun, hbetween, hfew, backlog_bounded hmax rfl hrun⟩,
    c', hrun', hstuck, hfew', backlog_bounded hmax rfl hrun'⟩

end TcpReactor.Http
