import TcpReactor.Proofs.Http.Backlog
import TcpReactor.Proofs.Http.Grammar
import TcpReactor.Proofs.Http.ParseLoop
import TcpReactor.Proofs.Http.WireForm

namespace TcpReactor.Http

/-! # The bytes of each request

A parser is asked again and again, each time with the stream buffer as it is then, and reset now and
then. However its input comes to it, each request that it gives is spelled by bytes of its own:

* `le_length_of_message`: no message is shorter than `shortest`;
* `Parser.Reads` says which bytes the parser has in hand, and `Parser.Yields` what becomes of them
  in a call (`Parser.Reads.yields`);
* `Parser.Reads.exists_pieces`: so the input of every run falls into pieces, one for each request.
-/

/-! ## The shortest message -/

/-- The length of the shortest message: one letter for the method and one for the target, a version,
two spaces, and the ends of two lines. -/
def shortest : Nat := 16

theorem length_text {first : RequestLine} (h : first.Valid) :
    shortest ≤ (utf8 first.text).length + 2 * crlf.length := by
  have hmethod := List.length_pos_iff.mpr (HttpService.utf8_ne_nil h.method.1)
  have htarget := List.length_pos_iff.mpr (HttpService.utf8_ne_nil h.target.1)
  have hversion : (utf8 first.version).length = 8 := by
    rcases h.version with hone | hzero
    · rw [hone]
      rfl
    · rw [hzero]
      rfl
  have hspace : (utf8 " ").length = 1 := rfl
  simp only [RequestLine.text, utf8_append, List.length_append, hspace, hversion, shortest, crlf,
    List.length_cons, List.length_nil]
  omega

variable {limits : Limits} {w : Bytes} {r : Request}

theorem le_length_of_message (h : Message limits w r) : shortest ≤ w.length := by
  obtain ⟨blanks, lines, hspells⟩ := h
  have hfirst := length_text hspells.first.1
  rw [hspells.bytes, endLine]
  simp only [List.length_append]
  omega

/-! ## What a parser has in hand -/

/-- The parser has the bytes `w` in hand: those of the request in progress, used or not. Unless it
has failed, it goes on as if it had read nothing of them yet. -/
structure Parser.Reads (limits : Limits) (p : Parser) (w : Bytes) : Prop where
  limits_eq : p.limits = limits
  /-- The request in progress needs more bytes. -/
  due : p.stage.due = 0
  scan_eq : p.failed = none → ∀ more,
    scan limits p.stage (p.unread ++ more) = scan limits .requestLine (w ++ more)

/-- What a call makes of the bytes `w` in hand and those in the buffer `b`. -/
inductive Parser.Yields (limits : Limits) (p : Parser) (w : Bytes) (b : StreamBuffer) :
    Except Failure (Option Request) × Parser × StreamBuffer → Prop
  /-- A parser that has failed touches nothing. -/
  | stuck {e : ParseError} : p.failed = some e → Yields limits p w b (.error (.refused e), p, b)
  /-- There is no request, and all bytes are in hand now. -/
  | nothing {answer : Except Failure (Option Request)} {p' : Parser} {b' : StreamBuffer} :
      p.failed = none → (∀ r, answer ≠ .ok (some r)) → b'.contents = [] →
      p'.Reads limits (w ++ b.contents) → Yields limits p w b (answer, p', b')
  /-- The front of the bytes spells a request, and only the rest is in hand. -/
  | request {r : Request} {v : Bytes} {p' : Parser} {b' : StreamBuffer} :
      p.failed = none → b'.contents = [] → w ++ b.contents = v ++ p'.unread →
      Message limits v r → p'.Reads limits p'.unread → p'.buffered < p.buffered + b.length →
      Yields limits p w b (.ok (some r), p', b')

namespace Parser

variable {p : Parser} {b : StreamBuffer}

theorem Reads.start (limits : Limits) : Reads limits { limits } [] where
  limits_eq := rfl
  due := rfl
  scan_eq _ _ := rfl

/-- Resetting a parser leaves nothing in hand. -/
theorem Reads.reset (h : p.Reads limits w) : p.reset.Reads limits [] := by
  rw [Parser.reset, h.limits_eq]
  exact .start limits

theorem Reads.yields (h : p.Reads limits w) (b : StreamBuffer) :
    p.Yields limits w b (p.nextRequest b) := by
  cases hfailed : p.failed with
  | some e =>
      rw [nextRequest_of_failed hfailed]
      exact .stuck hfailed
  | none =>
      obtain ⟨b', hempty, hpull⟩ := p.exists_pull b
      have hscan := h.scan_eq hfailed
      have hnext : p.nextRequest b = ((scan limits p.stage (p.unread ++ b.contents)).result,
          p.stopped (scan limits p.stage (p.unread ++ b.contents)), b') := by
        rw [nextRequest, hfailed, ← h.limits_eq]
        simp only [hpull]
        rfl
      rw [hnext]
      have hdue : (scan limits p.stage (p.unread ++ b.contents)).stage.due = 0 :=
        due_scan _ h.due
      -- nothing is decided about the bytes that are left, so more of them may come
      have hundecided (hstop : (scan limits p.stage (p.unread ++ b.contents)).Undecided) :
          (p.stopped (scan limits p.stage (p.unread ++ b.contents))).Reads limits
            (w ++ b.contents) := by
        refine ⟨h.limits_eq, hdue, fun _ more => ?_⟩
        show scan limits (scan limits _ _).stage ((scan limits _ _).unread ++ more) = _
        rw [← scan_append_of_undecided p.stage _ more hstop, List.append_assoc, hscan,
          List.append_assoc]
      rcases hresult : (scan limits p.stage (p.unread ++ b.contents)).result with
        (e | _) | _ | r
      · -- from now on it is stuck with all it has got
        refine .nothing hfailed (by simp) hempty ⟨h.limits_eq, hdue, fun hok => ?_⟩
        rw [stopped, hresult] at hok
        cases hok
      · exact .nothing hfailed (by simp) hempty (hundecided (.inr hresult))
      · exact .nothing hfailed (by simp) hempty (hundecided (.inl hresult))
      · obtain ⟨hstage, hless⟩ := scan_request hresult
        rw [h.due, List.length_append, StreamBuffer.length_contents] at hless
        have hfront := hresult
        rw [hscan] at hfront
        obtain ⟨_, v, hv, hcompletes⟩ := completes_of_scan hfront
        rw [← hscan] at hv
        refine .request hfailed hempty hv (message_iff.mpr hcompletes) ?_ hless
        exact ⟨h.limits_eq, hdue, fun _ more => by rw [stopped, hstage]⟩

/-! ## Runs -/

/-- What is done with a parser: it is asked for a request, with the stream buffer as it is then, or
it is reset. -/
inductive Move
  | ask (b : StreamBuffer)
  | reset

def move (p : Parser) : Move → Parser
  | .ask b => (p.nextRequest b).2.1
  | .reset => p.reset

/-- The request that a move gives. -/
def given (p : Parser) : Move → Option Request
  | .ask b => (p.nextRequest b).1.toOption.join
  | .reset => none

/-- The bytes that a move takes out of the stream buffer. -/
def taken (p : Parser) : Move → Bytes
  | .ask b => b.contents.take (b.length - (p.nextRequest b).2.2.length)
  | .reset => []

/-- All that a run gives. -/
def requests (p : Parser) : List Move → List Request
  | [] => []
  | m :: moves => (p.given m).toList ++ requests (p.move m) moves

/-- All that a run takes. -/
def input (p : Parser) : List Move → Bytes
  | [] => []
  | m :: moves => p.taken m ++ input (p.move m) moves

/-- A call, as a move. -/
theorem move_ask {answer : Except Failure (Option Request)} {p' : Parser} {b' : StreamBuffer}
    (h : p.nextRequest b = (answer, p', b')) :
    p.move (.ask b) = p' ∧ p.given (.ask b) = answer.toOption.join ∧
      p.taken (.ask b) = b.contents.take (b.length - b'.length) := by
  rw [move, given, taken, h]
  exact ⟨rfl, rfl, rfl⟩

theorem take_contents {b' : StreamBuffer} (hempty : b'.contents = []) :
    b.contents.take (b.length - b'.length) = b.contents := by
  rw [← b'.length_contents, hempty, List.length_nil, Nat.sub_zero, ← b.length_contents,
    List.take_length]

/-- Whatever is done with a parser, what it has in hand and all that it is going to take fall into
pieces, one behind the other. Each request is spelled by a piece of its own. -/
theorem Reads.exists_pieces (h : p.Reads limits w) (moves : List Move) :
    ∃ pieces : List (Option Request × Bytes),
      (pieces.map (·.2)).flatten = w ++ p.input moves ∧
      pieces.filterMap (·.1) = p.requests moves ∧
      ∀ r v, (some r, v) ∈ pieces → Message limits v r := by
  induction moves generalizing p w with
  | nil => exact ⟨[(none, w)], by simp [input], rfl, by simp⟩
  | cons m moves ih =>
      cases m with
      | reset =>
          -- what was in hand is dropped: a piece that spells no request
          obtain ⟨pieces, hinput, hrequests, hmessages⟩ := ih h.reset
          refine ⟨(none, w) :: pieces, ?_, hrequests, fun r v hmem => ?_⟩
          · rw [List.map_cons, List.flatten_cons, hinput]
            rfl
          · exact hmessages r v ((List.mem_cons.mp hmem).resolve_left (by simp))
      | ask b =>
          rw [input, requests]
          have hyields := h.yields b
          generalize hnext : p.nextRequest b = next at hyields
          cases hyields with
          | stuck hfailed =>
              obtain ⟨hmove, hgiven, htaken⟩ := move_ask hnext
              rw [hmove, hgiven, htaken, Nat.sub_self, List.take_zero]
              exact ih h
          | @nothing answer p' b' _ hanswer hempty hreads =>
              -- no piece is cut off yet: what was taken stays in hand
              obtain ⟨hmove, hgiven, htaken⟩ := move_ask hnext
              have hnone : answer.toOption.join = none := by
                rcases answer with e | _ | r
                · rfl
                · rfl
                · exact absurd rfl (hanswer r)
              rw [hmove, hgiven, hnone, htaken, take_contents hempty, ← List.append_assoc]
              exact ih hreads
          | @request r v p' b' _ hempty hbytes hmessage hreads _ =>
              obtain ⟨hmove, hgiven, htaken⟩ := move_ask hnext
              obtain ⟨pieces, hinput, hrequests, hmessages⟩ := ih hreads
              rw [hmove, hgiven, htaken, take_contents hempty, ← List.append_assoc, hbytes,
                List.append_assoc, ← hinput, ← hrequests]
              refine ⟨(some r, v) :: pieces, rfl, rfl, fun r' v' hmem => ?_⟩
              rcases List.mem_cons.mp hmem with hfirst | hlater
              · cases hfirst
                exact hmessage
              · exact hmessages r' v' hlater

end Parser
end TcpReactor.Http
