import TcpReactor.Proofs.Http.Lines

namespace TcpReactor.Http

/-! # The loop of a parser

A call for a request takes over what the stream buffer holds, and then goes round a loop. A turn
takes one line, or sees whether the body is whole. If it is not, what the buffer holds by then is
taken over, and the loop goes round again without having used a byte.

* `Turned`, `Parser.turn`: one turn, and `Parser.Loops`: so many of them, up to the answer;
* `turn_again`, `left_turn`: a turn that does not stop uses a line up or takes something over, and
  so leaves less, where a byte in the buffer counts twice;
* `loops_nextRequest`: the answer of a call is that of its loop, which has so many turns at most.
-/

/-- What a turn leads to: the answer of the call, or another turn. -/
inductive Turned
  | stop (stop : Stop)
  | again (p : Parser) (b : StreamBuffer)

namespace Parser

variable {p p₁ : Parser} {b b' b₁ : StreamBuffer} {stop : Stop} {n : Nat}

/-- One turn of the loop. -/
def turn (p : Parser) (b : StreamBuffer) : Turned :=
  match p.stage with
  | .body first fields length =>
      if p.unread.length < length then
        if b.isEmpty then .stop ⟨.ok none, p.stage, p.unread⟩
        else .again (p.pull b).1 (p.pull b).2
      else .stop ⟨.ok (some { first with fields, body := p.unread.take length }), .requestLine,
        p.unread.drop length⟩
  | stage =>
      match takeLine p.limits p.unread with
      | .error e => .stop ⟨.error e, stage, p.unread⟩
      | .ok none => .stop ⟨.ok none, stage, p.unread⟩
      | .ok (some (line, rest)) =>
          match utf8Decode? line with
          | none => .stop ⟨.error (.refused .invalidEncoding), stage, rest⟩
          | some line =>
              match stage.accept p.limits line with
              | .error e => .stop ⟨.error (.refused e), stage, rest⟩
              | .ok (.request request) => .stop ⟨.ok (some request), .requestLine, rest⟩
              | .ok (.stage next) => .again { p with unread := rest, stage := next } b

/-- From `p` and `b` the loop stops in its `n`-th turn, with the buffer `b'`. -/
inductive Loops : Nat → Parser → StreamBuffer → Stop → StreamBuffer → Prop
  | stop {p : Parser} {b : StreamBuffer} {stop : Stop} : p.turn b = .stop stop → Loops 1 p b stop b
  | again {n : Nat} {p p₁ : Parser} {b b₁ b' : StreamBuffer} {stop : Stop} :
      p.turn b = .again p₁ b₁ → Loops n p₁ b₁ stop b' → Loops (n + 1) p b stop b'

/-! ## Every loop ends -/

/-- What is left to be done. A byte in the buffer has to be taken over first. -/
def left (p : Parser) (b : StreamBuffer) : Nat := p.unread.length + 2 * b.length

/-- A turn that is not the last uses a line up, or takes over what there is for the body. -/
theorem turn_again (h : p.turn b = .again p₁ b₁) :
    (∃ line rest next, takeLine p.limits p.unread = .ok (some (line, rest)) ∧
      p₁ = { p with unread := rest, stage := next } ∧ b₁ = b) ∨
    b.contents ≠ [] ∧ (p₁, b₁) = p.pull b := by
  unfold turn at h
  split at h
  · split at h
    · split at h
      · cases h
      · rename_i hsome
        cases h
        -- the body is not whole, and there is more to take over
        exact .inr ⟨fun hnone => hsome ((StreamBuffer.isEmpty_iff b).mpr hnone), rfl⟩
    · cases h
  · split at h
    · cases h
    · cases h
    · rename_i line rest htaken
      split at h
      · cases h
      · split at h
        · cases h
        · cases h
        · cases h
          -- a line that was accepted, and that does not complete a request
          exact .inl ⟨line, rest, _, htaken, rfl, rfl⟩

/-- A turn that is not the last leaves less. -/
theorem left_turn (h : p.turn b = .again p₁ b₁) : p₁.left b₁ < p.left b := by
  rcases turn_again h with ⟨_, _, _, htaken, rfl, rfl⟩ | ⟨hsome, hpulled⟩
  · exact Nat.add_lt_add_right (length_of_takeLine htaken) _
  · -- each byte that is taken over counts once instead of twice, and there is one at least
    obtain ⟨b', hempty, hpull⟩ := p.exists_pull b
    rw [hpull] at hpulled
    obtain ⟨rfl, rfl⟩ := Prod.mk.inj hpulled
    have hpos : 0 < b.length := by
      rw [← StreamBuffer.length_contents]
      exact List.length_pos_iff.mpr hsome
    have hzero : b₁.length = 0 := by
      rw [← StreamBuffer.length_contents, hempty, List.length_nil]
    rw [left, left, hzero, List.length_append, StreamBuffer.length_contents]
    omega

theorem exists_loops (p : Parser) (b : StreamBuffer) :
    ∃ n ≤ p.left b + 1, ∃ stop b', p.Loops n b stop b' := by
  induction hleft : p.left b using Nat.strongRecOn generalizing p b with
  | ind left ih =>
      cases hturn : p.turn b with
      | stop stop => exact ⟨1, by omega, stop, b, .stop hturn⟩
      | again p₁ b₁ =>
          have hless := left_turn hturn
          obtain ⟨n, hn, stop, b', hloops⟩ := ih _ (hleft ▸ hless) p₁ b₁ rfl
          exact ⟨n + 1, by omega, stop, b', .again hturn hloops⟩

/-! ## The loop and its answer -/

/-- A turn before the body. -/
theorem turn_line (hstage : ∀ first fields length, p.stage ≠ .body first fields length)
    (b : StreamBuffer) :
    p.turn b =
      match takeLine p.limits p.unread with
      | .error e => .stop ⟨.error e, p.stage, p.unread⟩
      | .ok none => .stop ⟨.ok none, p.stage, p.unread⟩
      | .ok (some (line, rest)) =>
          match utf8Decode? line with
          | none => .stop ⟨.error (.refused .invalidEncoding), p.stage, rest⟩
          | some line =>
              match p.stage.accept p.limits line with
              | .error e => .stop ⟨.error (.refused e), p.stage, rest⟩
              | .ok (.request request) => .stop ⟨.ok (some request), .requestLine, rest⟩
              | .ok (.stage next) => .again { p with unread := rest, stage := next } b := by
  unfold turn
  split
  · rename_i hbody
    exact absurd hbody (hstage _ _ _)
  · rfl

/-- A turn that finds nothing to take over has done its part of the scan. -/
theorem scan_turn (hempty : b.contents = []) (p : Parser) :
    scan p.limits p.stage p.unread =
      match p.turn b with
      | .stop stop => stop
      | .again p₁ _ => scan p₁.limits p₁.stage p₁.unread := by
  -- in the body a turn waits as the scan does, since nothing can be taken over; before it, both
  -- take one line, and what they do with it is the same
  by_cases hbody : ∃ first fields length, p.stage = .body first fields length
  · obtain ⟨first, fields, length, hstage⟩ := hbody
    rw [turn, hstage, scan_body]
    dsimp only
    rw [if_pos ((StreamBuffer.isEmpty_iff b).mpr hempty)]
    split <;> rfl
  · have hstage : ∀ first fields length, p.stage ≠ .body first fields length :=
      fun first fields length h => hbody ⟨first, fields, length, h⟩
    rw [turn_line hstage, scan_line p.limits hstage]
    rcases takeLine p.limits p.unread with e | _ | ⟨line, rest⟩
    · rfl
    · rfl
    dsimp only
    cases utf8Decode? line with
    | none => rfl
    | some text =>
        dsimp only
        rcases p.stage.accept p.limits text with e | next | request <;> rfl

theorem buffer_turn (hempty : b.contents = []) (h : p.turn b = .again p₁ b₁) : b₁ = b := by
  rcases turn_again h with ⟨_, _, _, _, _, hb⟩ | ⟨hsome, _⟩
  · exact hb
  · exact absurd hempty hsome

/-- With nothing to take over, the loop stops where a scan does. -/
theorem Loops.eq_scan (h : p.Loops n b stop b') (hempty : b.contents = []) :
    stop = scan p.limits p.stage p.unread ∧ b' = b := by
  induction h with
  | stop hturn =>
      rw [scan_turn hempty, hturn]
      exact ⟨rfl, rfl⟩
  | again hturn _ ih =>
      have hbuffer := buffer_turn hempty hturn
      rw [scan_turn hempty, hturn]
      rw [hbuffer] at ih
      exact ih hempty

/-- The answer of a parser that has not failed is the one that its loop stops with. -/
theorem loops_nextRequest (hok : p.failed = none) (b : StreamBuffer) :
    ∃ n ≤ p.unread.length + b.length + 1, ∃ stop b', (p.pull b).1.Loops n (p.pull b).2 stop b' ∧
      p.nextRequest b = (stop.result, p.stopped stop, b') := by
  obtain ⟨b₁, hempty, hpull⟩ := p.exists_pull b
  obtain ⟨n, hn, stop, b', hloops⟩ := exists_loops (p.pull b).1 (p.pull b).2
  rw [hpull] at hn hloops ⊢
  refine ⟨n, ?_, stop, b', hloops, ?_⟩
  · rw [left, ← b₁.length_contents, hempty, List.length_nil, List.length_append,
      StreamBuffer.length_contents] at hn
    exact hn
  · obtain ⟨rfl, rfl⟩ := hloops.eq_scan hempty
    rw [nextRequest, hok]
    simp only [hpull]
    rfl

end Parser
end TcpReactor.Http
