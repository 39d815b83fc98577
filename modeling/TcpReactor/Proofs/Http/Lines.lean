import TcpReactor.Http.Parser
import TcpReactor.StreamBuffer.Contents

namespace TcpReactor.Http

/-! # Lines, and what more bytes do to them

Where a line ends, said without the loop that finds it, and the steps of `scan` from one line to the
next. What has been decided about the front of a stream is not changed by the bytes that follow:

* `takeLine_append_of_some` and `takeLine_append_of_error` for one line;
* `scan_append_of_done` and `scan_append_of_undecided` for a whole request.

This is so for every limit on lines but the largest there is, with which the bytes that wait for a
line end cannot be counted: a call that comes to that point overflows. With any smaller one none
does (`Parser.nextRequest_ne_overflow`).
-/

/-- The end of a line. -/
def crlf : Bytes := [13, 10]

/-! ## The first line -/

theorem splitLine?_go (seen bytes : Bytes) :
    splitLine?.go seen bytes =
      (splitLine?.go [] bytes).map fun split => (seen.reverse ++ split.1, split.2) := by
  induction bytes generalizing seen with
  | nil => rfl
  | cons b bytes ih =>
      rw [splitLine?.go, splitLine?.go]
      split
      · simp
      · rw [ih (b :: seen), ih [b]]
        cases splitLine?.go [] bytes <;> simp

/-- A line end at the front of the bytes, or further back. -/
theorem splitLine?_cons (b : UInt8) (bytes : Bytes) :
    splitLine? (b :: bytes) =
      if b = 13 ∧ bytes.head? = some 10 then some ([], bytes.tail)
      else (splitLine? bytes).map fun split => (b :: split.1, split.2) := by
  rw [splitLine?, splitLine?.go]
  split
  · rfl
  · rw [splitLine?_go, splitLine?]
    rfl

theorem crlf_infix_cons (b : UInt8) (line : Bytes) :
    crlf <:+: b :: line ↔ (b = 13 ∧ line.head? = some 10) ∨ crlf <:+: line := by
  rw [List.infix_cons_iff]
  refine or_congr ?_ Iff.rfl
  cases line with
  | nil => simp [crlf, List.cons_prefix_cons]
  | cons c line => simp [crlf, List.cons_prefix_cons, eq_comm]

/-- The first line is what stands before the first line end. -/
theorem splitLine?_eq_some {bytes line rest : Bytes} :
    splitLine? bytes = some (line, rest) ↔ bytes = line ++ (crlf ++ rest) ∧ ¬ crlf <:+: line := by
  induction bytes generalizing line with
  | nil =>
      constructor
      · intro h
        cases h
      · rintro ⟨h, _⟩
        cases line <;> cases h
  | cons b bytes ih =>
      rw [splitLine?_cons]
      constructor
      · intro h
        split at h
        · rename_i hend
          cases h
          rcases List.head?_eq_some_iff.mp hend.2 with ⟨rest, rfl⟩
          rw [hend.1]
          exact ⟨rfl, by simp [crlf]⟩
        · rename_i hend
          rcases Option.map_eq_some_iff.mp h with ⟨⟨line', rest'⟩, hsplit, hline⟩
          cases hline
          rcases ih.mp hsplit with ⟨rfl, hnone⟩
          refine ⟨rfl, ?_⟩
          rw [crlf_infix_cons]
          rintro (⟨hb, hhead⟩ | hinfix)
          · exact hend ⟨hb, by simp [List.head?_append, hhead]⟩
          · exact hnone hinfix
      · rintro ⟨hbytes, hnone⟩
        cases line with
        | nil =>
            cases hbytes
            rfl
        | cons c line =>
            cases hbytes
            rw [crlf_infix_cons] at hnone
            -- a line end right here would be one inside the line
            rw [if_neg, ih.mpr ⟨rfl, fun h => hnone (.inr h)⟩]
            · rfl
            · rintro ⟨hb, hhead⟩
              cases line with
              | nil => simp [crlf] at hhead
              | cons d line => exact hnone (.inl ⟨hb, hhead⟩)

/-- Without a line end in them, bytes are not split. -/
theorem splitLine?_eq_none {bytes : Bytes} : splitLine? bytes = none ↔ ¬ crlf <:+: bytes := by
  induction bytes with
  | nil => simp [splitLine?, splitLine?.go, crlf]
  | cons b bytes ih =>
      rw [splitLine?_cons, crlf_infix_cons]
      by_cases hend : b = 13 ∧ bytes.head? = some 10
      · simp [hend]
      · rw [if_neg hend, Option.map_eq_none_iff, ih]
        simp [hend]

theorem splitLine?_append {bytes line rest : Bytes} (more : Bytes)
    (h : splitLine? bytes = some (line, rest)) :
    splitLine? (bytes ++ more) = some (line, rest ++ more) := by
  rcases splitLine?_eq_some.mp h with ⟨rfl, hnone⟩
  exact splitLine?_eq_some.mpr ⟨by simp, hnone⟩

/-- If more bytes make the first line whole, then at most its end was missing before, or the second
half of that. -/
theorem length_of_unfinished {bytes more line rest : Bytes} (hnone : splitLine? bytes = none)
    (h : splitLine? (bytes ++ more) = some (line, rest)) : bytes.length ≤ line.length + 1 := by
  rcases splitLine?_eq_some.mp h with ⟨hbytes, hline⟩
  refine Nat.le_of_not_lt fun hlong => ?_
  have hwhole : line ++ crlf <+: bytes := by
    have hline' : line ++ crlf <+: bytes ++ more := ⟨rest, by rw [hbytes, List.append_assoc]⟩
    refine List.prefix_of_prefix_length_le hline' (List.prefix_append bytes more) ?_
    simp only [List.length_append, crlf, List.length_cons, List.length_nil]
    omega
  rcases hwhole with ⟨tail, htail⟩
  have hsplit : splitLine? bytes = some (line, tail) :=
    splitLine?_eq_some.mpr ⟨by rw [← htail, List.append_assoc], hline⟩
  rw [hnone] at hsplit
  cases hsplit

/-! ## Taking a line -/

variable {limits : Limits}

theorem takeLine_eq_some {bytes line rest : Bytes} :
    takeLine limits bytes = .ok (some (line, rest)) ↔
      splitLine? bytes = some (line, rest) ∧ line.length ≤ limits.maxLine.toNat := by
  rw [takeLine]
  constructor
  · intro h
    split at h
    · split at h
      · cases h
      · split at h <;> cases h
    · -- a line with its end is there, and only its length matters
      rename_i hsplit
      split at h
      · cases h
      · rename_i hshort
        cases h
        exact ⟨hsplit, Nat.le_of_not_lt hshort⟩
  · rintro ⟨hsplit, hshort⟩
    rw [hsplit]
    simp [Nat.not_lt.mpr hshort]

theorem takeLine_append_of_some {bytes line rest : Bytes} (more : Bytes)
    (h : takeLine limits bytes = .ok (some (line, rest))) :
    takeLine limits (bytes ++ more) = .ok (some (line, rest ++ more)) := by
  rcases takeLine_eq_some.mp h with ⟨hsplit, hshort⟩
  exact takeLine_eq_some.mpr ⟨splitLine?_append more hsplit, hshort⟩

/-- Below the largest limit the room for a line and the first half of its end can be counted. -/
theorem lineRoom?_eq (hmax : limits.maxLine.toNat < UInt64.size - 1) :
    limits.lineRoom? = some (limits.maxLine.toNat + 1) :=
  if_pos (Nat.add_lt_of_lt_sub hmax)

/-- Bytes without a line end. -/
theorem takeLine_of_none (hmax : limits.maxLine.toNat < UInt64.size - 1) {bytes : Bytes}
    (hnone : splitLine? bytes = none) :
    takeLine limits bytes =
      if limits.maxLine.toNat + 1 < bytes.length then
        .error (.refused (.lineTooLong limits.maxLine.toNat))
      else .ok none := by
  rw [takeLine, hnone, lineRoom?_eq hmax]

theorem takeLine_ne_overflow (hmax : limits.maxLine.toNat < UInt64.size - 1) (bytes : Bytes) :
    takeLine limits bytes ≠ .error .overflow := by
  cases hsplit : splitLine? bytes with
  | none =>
      rw [takeLine_of_none hmax hsplit]
      split <;> simp
  | some split =>
      rw [takeLine, hsplit]
      dsimp only
      split <;> simp

/-- A line that is refused before its end has come would be refused with its end as well: it can
only get longer. -/
theorem takeLine_append_of_error {bytes : Bytes} {e : Failure} (more : Bytes)
    (hmax : limits.maxLine.toNat < UInt64.size - 1) (h : takeLine limits bytes = .error e) :
    takeLine limits (bytes ++ more) = .error e := by
  cases hnone : splitLine? bytes with
  | none =>
      rw [takeLine_of_none hmax hnone] at h
      split at h
      · rename_i hlong
        cases h
        cases hsplit : splitLine? (bytes ++ more) with
        | none =>
            rw [takeLine_of_none hmax hsplit, if_pos]
            rw [List.length_append]
            omega
        | some split =>
            -- the end came too late: the line has all the bytes but the last, or more
            have hless := length_of_unfinished hnone hsplit
            rw [takeLine, hsplit]
            dsimp only
            rw [if_pos]
            omega
      · cases h
  | some split =>
      rw [takeLine, hnone] at h
      dsimp only at h
      split at h
      · rename_i hlong
        cases h
        rw [takeLine, splitLine?_append more hnone]
        dsimp only
        rw [if_pos hlong]
      · cases h

/-! ## From line to line -/

/-- A body is read whole. -/
theorem scan_body (limits : Limits) (first : RequestLine) (fields : Fields) (length : Nat)
    (bytes : Bytes) :
    scan limits (.body first fields length) bytes =
      if bytes.length < length then ⟨.ok none, .body first fields length, bytes⟩
      else ⟨.ok (some { first with fields, body := bytes.take length }), .requestLine,
        bytes.drop length⟩ := by
  rw [scan]

/-- Before the body one line is taken, and decides how to go on. -/
theorem scan_line (limits : Limits) {stage : Stage}
    (hstage : ∀ first fields length, stage ≠ .body first fields length) (bytes : Bytes) :
    scan limits stage bytes =
      match takeLine limits bytes with
      | .error e => ⟨.error e, stage, bytes⟩
      | .ok none => ⟨.ok none, stage, bytes⟩
      | .ok (some (line, rest)) =>
          match utf8Decode? line with
          | none => ⟨.error (.refused .invalidEncoding), stage, rest⟩
          | some line =>
              match stage.accept limits line with
              | .error e => ⟨.error (.refused e), stage, rest⟩
              | .ok (.request request) => ⟨.ok (some request), .requestLine, rest⟩
              | .ok (.stage next) => scan limits next rest := by
  cases stage with
  | body first fields length => exact absurd rfl (hstage first fields length)
  | requestLine | headers =>
      rw [scan]
      · generalize takeLine limits bytes = taken
        rcases taken with _ | _ | ⟨_, _⟩ <;> rfl
      · exact hstage

/-- A line that leads on. -/
theorem scan_of_stage {stage next : Stage} {bytes line rest : Bytes} {text : String}
    (hstage : ∀ first fields length, stage ≠ .body first fields length)
    (htaken : takeLine limits bytes = .ok (some (line, rest)))
    (hutf8 : utf8Decode? line = some text)
    (haccept : stage.accept limits text = .ok (.stage next)) :
    scan limits stage bytes = scan limits next rest := by
  rw [scan_line limits hstage, htaken]
  simp only [hutf8, haccept]

/-- A line that completes a request. -/
theorem scan_of_request {stage : Stage} {bytes line rest : Bytes} {text : String}
    {request : Request} (hstage : ∀ first fields length, stage ≠ .body first fields length)
    (htaken : takeLine limits bytes = .ok (some (line, rest)))
    (hutf8 : utf8Decode? line = some text)
    (haccept : stage.accept limits text = .ok (.request request)) :
    scan limits stage bytes = ⟨.ok (some request), .requestLine, rest⟩ := by
  rw [scan_line limits hstage, htaken]
  simp only [hutf8, haccept]

/-- What holds of the start of a request and of whatever a line leads to holds where a scan stops,
if it holds where the scan starts. -/
theorem stage_scan {P : Stage → Prop} (hfirst : P .requestLine)
    (hnext : ∀ {stage next : Stage} {text : String},
      (∀ first fields length, stage ≠ .body first fields length) →
      stage.accept limits text = .ok (.stage next) → P next)
    {stage : Stage} (bytes : Bytes) (h : P stage) : P (scan limits stage bytes).stage := by
  -- the cases are the ends of a scan; in the last one a line leads on, and the scan with it
  induction stage, bytes using scan.induct limits with
  | case1 bytes first fields length hshort =>
      rw [scan_body, if_pos hshort]
      exact h
  | case2 bytes first fields length hlong =>
      rw [scan_body, if_neg hlong]
      exact hfirst
  | case3 bytes stage hstage e htaken
  | case4 bytes stage hstage htaken =>
      rw [scan_line limits hstage, htaken]
      exact h
  | case5 bytes stage hstage line rest htaken hutf8 =>
      rw [scan_line limits hstage, htaken]
      simp only [hutf8]
      exact h
  | case6 bytes stage hstage line rest htaken text hutf8 e haccept =>
      rw [scan_line limits hstage, htaken]
      simp only [hutf8, haccept]
      exact h
  | case7 bytes stage hstage line rest htaken text hutf8 request haccept =>
      rw [scan_of_request hstage htaken hutf8 haccept]
      exact hfirst
  | case8 bytes stage hstage line rest htaken text hutf8 next haccept ih =>
      rw [scan_of_stage hstage htaken hutf8 haccept]
      exact ih (hnext hstage haccept)

/-- What is decided stays decided, and the bytes that follow are left over. -/
theorem scan_append_of_done (hmax : limits.maxLine.toNat < UInt64.size - 1) (stage : Stage)
    (bytes more : Bytes) (h : (scan limits stage bytes).result ≠ .ok none) :
    scan limits stage (bytes ++ more) =
      { scan limits stage bytes with unread := (scan limits stage bytes).unread ++ more } := by
  -- as long as every line is taken as before, the two scans go on side by side
  induction stage, bytes using scan.induct limits with
  | case1 bytes first fields length hshort =>
      rw [scan_body, if_pos hshort] at h
      exact absurd rfl h
  | case2 bytes first fields length hlong =>
      -- the body was whole, so `more` comes behind it
      have hfits : length ≤ bytes.length := Nat.le_of_not_lt hlong
      rw [scan_body, scan_body, if_neg hlong, if_neg (by rw [List.length_append]; omega),
        List.take_append_of_le_length hfits, List.drop_append_of_le_length hfits]
  | case3 bytes stage hstage e htaken =>
      rw [scan_line limits hstage, scan_line limits hstage, htaken,
        takeLine_append_of_error more hmax htaken]
  | case4 bytes stage hstage htaken =>
      rw [scan_line limits hstage, htaken] at h
      exact absurd rfl h
  | case5 bytes stage hstage line rest htaken hutf8 =>
      rw [scan_line limits hstage, scan_line limits hstage, htaken,
        takeLine_append_of_some more htaken]
      simp only [hutf8]
  | case6 bytes stage hstage line rest htaken text hutf8 e haccept =>
      rw [scan_line limits hstage, scan_line limits hstage, htaken,
        takeLine_append_of_some more htaken]
      simp only [hutf8, haccept]
  | case7 bytes stage hstage line rest htaken text hutf8 request haccept =>
      rw [scan_of_request hstage htaken hutf8 haccept,
        scan_of_request hstage (takeLine_append_of_some more htaken) hutf8 haccept]
  | case8 bytes stage hstage line rest htaken text hutf8 next haccept ih =>
      have hfirst := scan_of_stage hstage htaken hutf8 haccept
      have hboth := scan_of_stage hstage (takeLine_append_of_some more htaken) hutf8 haccept
      rw [hfirst] at h ⊢
      rw [hboth]
      exact ih h

/-- A scan has come to no decision about the bytes it leaves: there are too few of them, or they
cannot be counted. -/
def Stop.Undecided (stop : Stop) : Prop :=
  stop.result = .ok none ∨ stop.result = .error .overflow

/-- What is undecided is taken up where it was left. -/
theorem scan_append_of_undecided (stage : Stage) (bytes more : Bytes)
    (h : (scan limits stage bytes).Undecided) :
    scan limits stage (bytes ++ more) =
      scan limits (scan limits stage bytes).stage ((scan limits stage bytes).unread ++ more) := by
  -- the scan stops where it waits or overflows, with the stage and the bytes as they are there
  induction stage, bytes using scan.induct limits with
  | case1 bytes first fields length hshort => rw [scan_body limits _ _ _ bytes, if_pos hshort]
  | case2 bytes first fields length hlong =>
      rw [scan_body, if_neg hlong] at h
      rcases h with h | h <;> cases h
  | case3 bytes stage hstage e htaken => rw [scan_line limits hstage bytes, htaken]
  | case4 bytes stage hstage htaken => rw [scan_line limits hstage bytes, htaken]
  | case5 bytes stage hstage line rest htaken hutf8 =>
      rw [scan_line limits hstage, htaken] at h
      simp only [hutf8] at h
      rcases h with h | h <;> cases h
  | case6 bytes stage hstage line rest htaken text hutf8 e haccept =>
      rw [scan_line limits hstage, htaken] at h
      simp only [hutf8, haccept] at h
      rcases h with h | h <;> cases h
  | case7 bytes stage hstage line rest htaken text hutf8 request haccept =>
      rw [scan_of_request hstage htaken hutf8 haccept] at h
      rcases h with h | h <;> cases h
  | case8 bytes stage hstage line rest htaken text hutf8 next haccept ih =>
      have hfirst := scan_of_stage hstage htaken hutf8 haccept
      have hboth := scan_of_stage hstage (takeLine_append_of_some more htaken) hutf8 haccept
      rw [hfirst] at h ⊢
      rw [hboth]
      exact ih h

theorem scan_ne_overflow (hmax : limits.maxLine.toNat < UInt64.size - 1) (stage : Stage)
    (bytes : Bytes) : (scan limits stage bytes).result ≠ .error .overflow := by
  induction stage, bytes using scan.induct limits with
  | case1 bytes first fields length hshort =>
      rw [scan_body, if_pos hshort]
      simp
  | case2 bytes first fields length hlong =>
      rw [scan_body, if_neg hlong]
      simp
  | case3 bytes stage hstage e htaken =>
      -- the only place where something is counted
      rw [scan_line limits hstage, htaken]
      intro h
      cases h
      exact takeLine_ne_overflow hmax bytes htaken
  | case4 bytes stage hstage htaken =>
      rw [scan_line limits hstage, htaken]
      simp
  | case5 bytes stage hstage line rest htaken hutf8 =>
      rw [scan_line limits hstage, htaken]
      simp [hutf8]
  | case6 bytes stage hstage line rest htaken text hutf8 e haccept =>
      rw [scan_line limits hstage, htaken]
      simp [hutf8, haccept]
  | case7 bytes stage hstage line rest htaken text hutf8 request haccept =>
      rw [scan_of_request hstage htaken hutf8 haccept]
      simp
  | case8 bytes stage hstage line rest htaken text hutf8 next haccept ih =>
      rw [scan_of_stage hstage htaken hutf8 haccept]
      exact ih

/-! ## Asking for a request -/

/-- The parser takes over all that is there. -/
theorem Parser.pull_eq (p : Parser) {b : StreamBuffer} (hopen : b.isOpen = true) :
    ∃ b', b'.isOpen = true ∧ b'.contents = [] ∧
      p.pull b = ({ p with unread := p.unread ++ b.contents }, b') := by
  rcases hring : b.ring.slices with ⟨head, tail⟩
  have hslices : b.slices = .ok (head, tail) := by simp [StreamBuffer.slices, hopen, hring]
  have hcontents := StreamBuffer.contents_of_slices hslices
  -- the two slices are all that there is, so consuming them empties the buffer
  have hlength : head.length + tail.length = b.length := by
    rw [← StreamBuffer.length_contents, hcontents, List.length_append]
  rw [Parser.pull, hslices]
  dsimp only
  split
  · rename_i hnone
    have hnil : b.contents = [] := by
      rw [← List.length_eq_zero_iff, StreamBuffer.length_contents]
      omega
    exact ⟨b, hopen, hnil, by rw [hnil, List.append_nil]⟩
  · rcases StreamBuffer.exists_consume hopen (Nat.le_of_eq hlength) with ⟨b', hconsume⟩
    rw [hconsume]
    refine ⟨b', StreamBuffer.isOpen_consume hconsume, ?_, by rw [hcontents]⟩
    rw [StreamBuffer.contents_consume hconsume, hlength, ← StreamBuffer.length_contents,
      List.drop_length]

/-- Of a closed buffer that is nothing. -/
theorem Parser.exists_pull (p : Parser) (b : StreamBuffer) : ∃ b', b'.contents = [] ∧
    p.pull b = ({ p with unread := p.unread ++ b.contents }, b') := by
  cases hopen : b.isOpen with
  | true =>
      obtain ⟨b', _, hempty, hpull⟩ := p.pull_eq hopen
      exact ⟨b', hempty, hpull⟩
  | false =>
      have hnone := StreamBuffer.contents_of_closed hopen
      have hslices : b.slices = .error .notOpen := by simp [StreamBuffer.slices, hopen]
      refine ⟨b, hnone, ?_⟩
      rw [pull, hslices, hnone, List.append_nil]

/-- A parser after a scan. -/
def Parser.stopped (p : Parser) (stop : Stop) : Parser :=
  { p with
    unread := stop.unread
    stage := stop.stage
    failed := match stop.result with
      | .error (.refused e) => some e
      | .error .overflow | .ok _ => none }

/-- One call of a parser that has not failed: a scan of all the bytes there are. -/
theorem Parser.nextRequest_eq_scan {p : Parser} {b : StreamBuffer} (hok : p.failed = none)
    (hopen : b.isOpen = true) :
    ∃ b', b'.isOpen = true ∧ b'.contents = [] ∧
      p.nextRequest b = ((scan p.limits p.stage (p.unread ++ b.contents)).result,
        p.stopped (scan p.limits p.stage (p.unread ++ b.contents)), b') := by
  rcases p.pull_eq hopen with ⟨b', hopen', hempty, hpull⟩
  refine ⟨b', hopen', hempty, ?_⟩
  rw [Parser.nextRequest, hok]
  simp only [hpull]
  rfl

theorem Parser.nextRequest_ne_overflow {p : Parser} (b : StreamBuffer)
    (hmax : p.limits.maxLine.toNat < UInt64.size - 1) :
    (p.nextRequest b).1 ≠ .error .overflow := by
  cases hfailed : p.failed with
  | some e =>
      rw [Parser.nextRequest, hfailed]
      simp
  | none =>
      obtain ⟨b', _, hpull⟩ := p.exists_pull b
      rw [Parser.nextRequest, hfailed]
      simp only [hpull]
      exact scan_ne_overflow hmax p.stage _

/-- No call changes how much the stream buffer has room for. -/
theorem Parser.capacity_nextRequest (p : Parser) (b : StreamBuffer) :
    (p.nextRequest b).2.2.capacity = b.capacity := by
  have hpull : (p.pull b).2.capacity = b.capacity := by
    rw [Parser.pull]
    split
    · rfl
    dsimp only
    split
    · rfl
    split
    · rfl
    · exact StreamBuffer.capacity_consume ‹_›
  rw [Parser.nextRequest]
  split
  · rfl
  · exact hpull

/-- The parser after a call that found no error. -/
theorem Parser.exists_nextRequest {p : Parser} {b : StreamBuffer} (hok : p.failed = none)
    (hopen : b.isOpen = true) :
    ∃ p' b', b'.isOpen = true ∧ b'.contents = [] ∧
      p.nextRequest b = ((scan p.limits p.stage (p.unread ++ b.contents)).result, p', b') ∧
      ((∃ request, (scan p.limits p.stage (p.unread ++ b.contents)).result = .ok request) → p' = {
        limits := p.limits
        unread := (scan p.limits p.stage (p.unread ++ b.contents)).unread
        stage := (scan p.limits p.stage (p.unread ++ b.contents)).stage }) := by
  rcases Parser.nextRequest_eq_scan hok hopen with ⟨b', hopen', hempty, hnext⟩
  refine ⟨_, b', hopen', hempty, hnext, ?_⟩
  rintro ⟨request, hrequest⟩
  rw [Parser.stopped, hrequest]

/-- The same, told by the answer. -/
theorem Parser.nextRequest_inv {p p' : Parser} {b b' : StreamBuffer}
    {answer : Except Failure (Option Request)} (hok : p.failed = none) (hopen : b.isOpen = true)
    (h : p.nextRequest b = (answer, p', b')) :
    b'.isOpen = true ∧ b'.contents = [] ∧
      (scan p.limits p.stage (p.unread ++ b.contents)).result = answer ∧
      ((∃ request, answer = .ok request) → p' = {
        limits := p.limits
        unread := (scan p.limits p.stage (p.unread ++ b.contents)).unread
        stage := (scan p.limits p.stage (p.unread ++ b.contents)).stage }) := by
  rcases Parser.exists_nextRequest hok hopen with ⟨p₁, b₁, hopen', hempty, hnext, hparser⟩
  rw [h] at hnext
  cases hnext
  exact ⟨hopen', hempty, rfl, hparser⟩

end TcpReactor.Http
