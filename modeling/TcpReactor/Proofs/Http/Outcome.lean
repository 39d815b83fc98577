import TcpReactor.Proofs.Http.Fragments

namespace TcpReactor.Http

/-! # What a whole stream gives

`Parses` says what a stage and a stream of bytes give; here it becomes a function. Every request
takes at least one byte, so there are finitely many of them (`scan_request`). `outcome` is what a
parser gives that is fed the stream in one piece (`read_whole`), and so what it gives in any pieces
(`eq_outcome_of_read`).
-/

/-! ## Every request takes a byte -/

/-- How many requests a stage completes without a byte. There would be one if a body of no bytes
were awaited, but a header that declares none completes its request itself. -/
def Stage.due : Stage → Nat
  | .body _ _ 0 => 1
  | _ => 0

variable {limits : Limits}

/-- A body that is waited for is the one that the header declares, and not empty. -/
def Stage.Declared (limits : Limits) : Stage → Prop
  | .body _ fields length => declaredLength limits fields = .ok length ∧ 0 < length
  | _ => True

theorem Stage.Declared.due {stage : Stage} (h : stage.Declared limits) : stage.due = 0 := by
  cases stage with
  | requestLine | headers => rfl
  | body first fields length =>
      cases length with
      | zero => exact absurd h.2 (Nat.lt_irrefl 0)
      | succ n => rfl

theorem declared_of_accept {stage next : Stage} {text : String}
    (hstage : ∀ first fields length, stage ≠ .body first fields length)
    (h : stage.accept limits text = .ok (.stage next)) : next.Declared limits := by
  cases stage with
  | body first fields length => exact absurd rfl (hstage first fields length)
  | requestLine =>
      rw [Stage.accept] at h
      split at h
      · cases h
        trivial
      · cases hline : parseRequestLine text.toList with
        | error e => rw [hline] at h; cases h
        | ok line => rw [hline] at h; cases h; trivial
  | headers first fields =>
      rw [Stage.accept] at h
      split at h
      · -- the empty line behind the header: a body of no bytes is not awaited
        cases hlength : declaredLength limits fields with
        | error e => rw [hlength] at h; cases h
        | ok length =>
            rw [hlength] at h
            cases length with
            | zero => cases h
            | succ n =>
                cases h
                exact ⟨hlength, Nat.succ_pos n⟩
      · cases hline : parseHeaderLine text.toList with
        | error e => rw [hline] at h; cases h
        | ok field => rw [hline] at h; cases h; trivial

theorem declared_scan {stage : Stage} (bytes : Bytes) (h : stage.Declared limits) :
    (scan limits stage bytes).stage.Declared limits :=
  stage_scan (P := Stage.Declared limits) trivial declared_of_accept bytes h

theorem due_scan {stage : Stage} (bytes : Bytes) (h : stage.due = 0) :
    (scan limits stage bytes).stage.due = 0 :=
  stage_scan (P := fun stage => stage.due = 0) rfl
    (fun hstage haccept => (declared_of_accept hstage haccept).due) bytes h

/-- Behind a request the parser is at the start of the next one, and some bytes are gone. -/
theorem scan_request {stage : Stage} {bytes : Bytes} {request : Request}
    (h : (scan limits stage bytes).result = .ok (some request)) :
    (scan limits stage bytes).stage = .requestLine ∧
      (scan limits stage bytes).unread.length < bytes.length + stage.due := by
  induction stage, bytes using scan.induct limits with
  | case1 bytes first fields length hshort =>
      rw [scan_body, if_pos hshort] at h
      cases h
  | case2 bytes first fields length hlong =>
      rw [scan_body, if_neg hlong]
      refine ⟨rfl, ?_⟩
      cases length with
      | zero => exact Nat.lt_succ_self _
      | succ n =>
          simp only [List.length_drop, Stage.due]
          omega
  | case3 bytes stage hstage e htaken
  | case4 bytes stage hstage htaken =>
      rw [scan_line limits hstage, htaken] at h
      cases h
  | case5 bytes stage hstage line rest htaken hutf8 =>
      rw [scan_line limits hstage, htaken] at h
      simp only [hutf8] at h
      cases h
  | case6 bytes stage hstage line rest htaken text hutf8 e haccept =>
      rw [scan_line limits hstage, htaken] at h
      simp only [hutf8, haccept] at h
      cases h
  | case7 bytes stage hstage line rest htaken text hutf8 request' haccept =>
      rw [scan_of_request hstage htaken hutf8 haccept]
      exact ⟨rfl, Nat.lt_add_right _ (length_of_takeLine htaken)⟩
  | case8 bytes stage hstage line rest htaken text hutf8 next haccept ih =>
      rw [scan_of_stage hstage htaken hutf8 haccept] at h ⊢
      rcases ih h with ⟨hfirst, hrest⟩
      have hless := length_of_takeLine htaken
      -- the line is gone, and what it leads to waits for a byte at least
      have hdue := (declared_of_accept hstage haccept).due
      exact ⟨hfirst, by omega⟩

/-! ## The outcome -/

/-- The requests in a stream, from a stage on, and how reading it ends. -/
def outcome (limits : Limits) (stage : Stage) (bytes : Bytes) : List Request × Reading :=
  let stop := scan limits stage bytes
  match _h : stop.result with
  | .error e => ([], .failed e)
  | .ok none => ([], .waiting { limits, unread := stop.unread, stage := stop.stage })
  | .ok (some request) =>
      let rest := outcome limits stop.stage stop.unread
      (request :: rest.1, rest.2)
termination_by bytes.length + stage.due
decreasing_by
  rcases scan_request _h with ⟨hstage, hless⟩
  rw [hstage, show Stage.requestLine.due = 0 from rfl]
  exact hless

variable {stage stage' : Stage} {bytes bytes' : Bytes}

theorem outcome_eq (limits : Limits) (stage : Stage) (bytes : Bytes) :
    outcome limits stage bytes =
      let stop := scan limits stage bytes
      match stop.result with
      | .error e => ([], .failed e)
      | .ok none => ([], .waiting { limits, unread := stop.unread, stage := stop.stage })
      | .ok (some request) =>
          let rest := outcome limits stop.stage stop.unread
          (request :: rest.1, rest.2) := by
  rw [outcome]
  dsimp only
  generalize (scan limits stage bytes).result = result
  rcases result with e | _ | request <;> rfl

theorem outcome_of_request {request : Request}
    (h : (scan limits stage bytes).result = .ok (some request)) :
    outcome limits stage bytes =
      (request :: (outcome limits (scan limits stage bytes).stage
          (scan limits stage bytes).unread).1,
        (outcome limits (scan limits stage bytes).stage (scan limits stage bytes).unread).2) := by
  rw [outcome_eq]
  dsimp only
  rw [h]

theorem outcome_of_wait (h : (scan limits stage bytes).result = .ok none) :
    outcome limits stage bytes = ([], .waiting {
      limits
      unread := (scan limits stage bytes).unread
      stage := (scan limits stage bytes).stage }) := by
  rw [outcome_eq]
  dsimp only
  rw [h]

theorem outcome_of_fail {e : Failure} (h : (scan limits stage bytes).result = .error e) :
    outcome limits stage bytes = ([], .failed e) := by
  rw [outcome_eq]
  dsimp only
  rw [h]

theorem parses_outcome (limits : Limits) (stage : Stage) (bytes : Bytes) :
    Parses limits stage bytes (outcome limits stage bytes) := by
  induction stage, bytes using outcome.induct limits with
  | case1 stage bytes stop e hresult =>
      rw [outcome_of_fail hresult]
      exact .fail hresult
  | case2 stage bytes stop hresult =>
      rw [outcome_of_wait hresult]
      exact .wait hresult
  | case3 stage bytes stop request hresult ih =>
      rw [outcome_of_request hresult]
      exact .request hresult ih

/-- A parser that is asked as often as the bytes hold requests, and once more, gives all of them. -/
theorem read_asks {stage : Stage} {bytes : Bytes} {out : List Request × Reading}
    (h : Parses limits stage bytes out) {p : Parser} {b : StreamBuffer}
    (hlimits : p.limits = limits) (hstage : p.stage = stage) (hok : p.failed = none)
    (hopen : b.isOpen = true) (hbytes : p.unread ++ b.contents = bytes) :
    read p b (List.replicate out.1.length .ask) = some out := by
  -- every call but the last answers with a request, and takes its bytes off
  induction h generalizing p b with
  | fail hresult =>
      rcases Parser.exists_nextRequest hok hopen with ⟨p', b', _, _, hnext, _⟩
      rw [hlimits, hstage, hbytes, hresult] at hnext
      rw [List.length_nil, List.replicate_zero, read, hnext]
  | wait hresult =>
      rcases Parser.exists_nextRequest hok hopen with ⟨p', b', _, _, hnext, hparser⟩
      rw [hlimits, hstage, hbytes] at hnext hparser
      rw [hresult] at hnext
      rw [List.length_nil, List.replicate_zero, read, hnext, hparser ⟨none, hresult⟩]
  | request hresult _ ih =>
      rcases Parser.exists_nextRequest hok hopen with ⟨p', b', hopen', hempty, hnext, hparser⟩
      rw [hlimits, hstage, hbytes] at hnext hparser
      rw [hresult] at hnext
      have hp := hparser ⟨_, hresult⟩
      rw [List.length_cons, List.replicate_succ, read, hnext]
      dsimp only
      rw [ih (by rw [hp]) (by rw [hp]) (by rw [hp]) hopen' (by rw [hp, hempty, List.append_nil])]
      rfl

/-- The outcome of a stream is what a fresh parser gives that is fed the stream in one piece. -/
theorem read_whole {b b' : StreamBuffer} {whole : Bytes} (hempty : b.contents = [])
    (hwrite : b.write whole = .ok b') :
    read { limits } b (.write whole ::
        List.replicate (outcome limits .requestLine whole).1.length .ask) =
      some (outcome limits .requestLine whole) := by
  rw [read, hwrite]
  refine read_asks (parses_outcome limits .requestLine whole) rfl rfl rfl
    (StreamBuffer.isOpen_write hwrite).2 ?_
  rw [StreamBuffer.contents_write hwrite, hempty]
  rfl

/-- In whatever pieces a stream is read, what comes of it is its outcome. -/
theorem eq_outcome_of_read (hmax : limits.maxLine.toNat < UInt64.size - 1) {b : StreamBuffer}
    (hopen : b.isOpen = true) (hempty : b.contents = []) {feeds : List Feed}
    {out : List Request × Reading} (h : read { limits } b feeds = some out) :
    out = outcome limits .requestLine (stream feeds) := by
  have hparses := parses_of_read hmax rfl hopen h
  rw [hempty] at hparses
  exact hparses.unique (parses_outcome limits .requestLine (stream feeds))

/-- What a stream gives is a matter of its first scan. -/
theorem outcome_congr (h : scan limits stage bytes = scan limits stage' bytes') :
    outcome limits stage bytes = outcome limits stage' bytes' :=
  ((parses_outcome limits stage' bytes').congr h).unique (parses_outcome limits stage bytes) |>.symm

end TcpReactor.Http
