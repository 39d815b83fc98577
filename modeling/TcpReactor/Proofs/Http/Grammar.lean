import TcpReactor.Proofs.Http.Header
import TcpReactor.Proofs.Http.Lines

namespace TcpReactor.Http

/-! # The messages that the parser accepts

`Message limits w r` says, without the parser, that the bytes `w` spell the request `r`: line ends,
a first line, header lines, an empty line and a body. The parser accepts exactly this
(`nextRequest_iff`), whatever it has read before and whatever follows: it answers `r` and keeps the
bytes `rest` if and only if `w` is a message that spells `r`, where `w ++ rest` is all it has got
since the last request.
-/

/-! ## Messages -/

/-- A line with its end. -/
def endLine (text : String) : Bytes := utf8 text ++ crlf

/-- The text stands on one line that is not empty and not too long. -/
structure Fits (limits : Limits) (text : String) : Prop where
  nonempty : text ≠ ""
  short : (utf8 text).length ≤ limits.maxLine.toNat
  single : ¬ crlf <:+: utf8 text

/-- The lines ask for a body of `n` bytes. -/
def Declares (limits : Limits) (lines : List HeaderLine) (n : Nat) : Prop :=
  match HeaderLine.last? lines "content-length" with
  | none => n = 0
  | some value => SpellsLength (Text.trim value.toList) n ∧ n ≤ limits.maxBody.toNat

/-- The bytes `w` spell the request `r`: they are empty lines, its first line, the given header
lines, an empty line and its body. -/
structure Spells (limits : Limits) (blanks : Nat) (lines : List HeaderLine) (w : Bytes)
    (r : Request) : Prop where
  bytes : w = (List.replicate blanks crlf).flatten ++ (endLine r.toRequestLine.text ++
    ((lines.map (endLine ·.text)).flatten ++ (crlf ++ r.body)))
  first : r.toRequestLine.Valid ∧ Fits limits r.toRequestLine.text
  headers : ∀ l ∈ lines, l.Valid ∧ Fits limits l.text
  /-- Every name has one field, in the order of the first lines with these names. -/
  names : r.fields.map Prod.fst = (lines.map HeaderLine.name).eraseDups
  /-- Of several lines with one name the last one counts. The case of a name does not matter. -/
  header? : ∀ name, r.header? name = HeaderLine.last? lines name.toLower
  length : Declares limits lines r.body.length

/-- The bytes `w` are a message that spells the request `r`. -/
def Message (limits : Limits) (w : Bytes) (r : Request) : Prop :=
  ∃ blanks lines, Spells limits blanks lines w r

/-! ## What completes a request -/

variable {limits : Limits}

/-- The header lines, the empty line and the body that complete a request with the first line
`first` and the fields `fields` so far. -/
def Tail (limits : Limits) (first : RequestLine) (fields : Fields) (w : Bytes) (r : Request) :
    Prop :=
  ∃ (lines : List HeaderLine) (body : Bytes),
    (∀ l ∈ lines, l.Valid ∧ Fits limits l.text) ∧
    w = (lines.map (endLine ·.text)).flatten ++ (crlf ++ body) ∧
    r.toRequestLine = first ∧
    r.fields = lines.foldl (fun fields l => fields.insert l.name l.content) fields ∧
    r.body = body ∧ declaredLength limits r.fields = .ok body.length

/-- The bytes that complete a request from a stage. -/
def Stage.Completes (limits : Limits) : Stage → Bytes → Request → Prop
  | .requestLine, w, r => ∃ blanks tail, r.toRequestLine.Valid ∧ Fits limits r.toRequestLine.text ∧
      w = (List.replicate blanks crlf).flatten ++ (endLine r.toRequestLine.text ++ tail) ∧
      Tail limits r.toRequestLine [] tail r
  | .headers first fields, w, r => Tail limits first fields w r
  | .body first fields length, w, r => w.length = length ∧ r = { first with fields, body := w }

/-! ## Lines of a message -/

/-- A line that was taken and decoded is there, with its end. -/
theorem eq_endLine {bytes line rest : Bytes} {text : String}
    (htaken : takeLine limits bytes = .ok (some (line, rest)))
    (hutf8 : utf8Decode? line = some text) :
    bytes = endLine text ++ rest ∧ (text ≠ "" → Fits limits text) := by
  rcases takeLine_eq_some.mp htaken with ⟨hsplit, hshort⟩
  rcases splitLine?_eq_some.mp hsplit with ⟨hbytes, hsingle⟩
  rw [← utf8Decode?_eq_some.mp hutf8] at hbytes hshort hsingle
  constructor
  · rw [hbytes, endLine, List.append_assoc]
  · intro hsome
    exact ⟨hsome, hshort, hsingle⟩

/-- A line that fits is taken. -/
theorem takeLine_endLine {text : String} (h : text = "" ∨ Fits limits text) (rest : Bytes) :
    takeLine limits (endLine text ++ rest) = .ok (some (utf8 text, rest)) := by
  refine takeLine_eq_some.mpr ⟨splitLine?_eq_some.mpr ⟨List.append_assoc _ _ _, ?_⟩, ?_⟩
  · rcases h with rfl | h
    · rw [show utf8 "" = [] from rfl]
      simp [crlf]
    · exact h.single
  · rcases h with rfl | h
    · exact Nat.zero_le _
    · exact h.short

theorem utf8Decode?_utf8 (text : String) : utf8Decode? (utf8 text) = some text :=
  utf8Decode?_eq_some.mpr rfl

theorem endLine_empty : endLine "" = crlf := rfl

/-! ## Soundness -/

/-- A line that leads on, in front of what completes a request from there. -/
theorem completes_of_accept {stage next : Stage} {text : String} {w : Bytes} {r : Request}
    (hstage : ∀ first fields length, stage ≠ .body first fields length)
    (hfits : text ≠ "" → Fits limits text) (haccept : stage.accept limits text = .ok (.stage next))
    (h : next.Completes limits w r) : stage.Completes limits (endLine text ++ w) r := by
  cases stage with
  | body first fields length => exact absurd rfl (hstage first fields length)
  | requestLine =>
      -- the lines that lead on are told apart by what comes behind them
      rcases accept_requestLine.mp haccept with ⟨rfl, hnext⟩ | ⟨hsome, first, hvalid, rfl, hnext⟩
      · -- one more empty line in front
        cases hnext
        obtain ⟨blanks, tail, hvalid, hfirst, rfl, htail⟩ := h
        refine ⟨blanks + 1, tail, hvalid, hfirst, ?_, htail⟩
        rw [List.replicate_succ, List.flatten_cons, List.append_assoc, endLine_empty]
      · cases hnext
        obtain ⟨lines, body, hlines, hw, rfl, hrest⟩ := h
        exact ⟨0, w, hvalid, hfits hsome, rfl, lines, body, hlines, hw, rfl, hrest⟩
  | headers first fields =>
      rcases accept_headers.mp haccept with ⟨_, _, hnext⟩ | ⟨rfl, length, hlength, _, hnext⟩ |
        ⟨hsome, l, hvalid, rfl, hnext⟩
      · cases hnext
      · -- the empty line behind the header, with a body to come
        cases hnext
        obtain ⟨rfl, rfl⟩ := h
        exact ⟨[], w, by simp, rfl, rfl, rfl, rfl, hlength⟩
      · cases hnext
        obtain ⟨lines, body, hlines, rfl, hrest⟩ := h
        refine ⟨l :: lines, body, ?_, ?_, hrest⟩
        · exact List.forall_mem_cons.mpr ⟨⟨hvalid, hfits hsome⟩, hlines⟩
        · rw [List.map_cons, List.flatten_cons, List.append_assoc]

/-- The line that completes a request is the empty one behind a header that asks for no body. -/
theorem completes_of_accept_request {stage : Stage} {text : String} {r : Request}
    (haccept : stage.accept limits text = .ok (.request r)) :
    stage.Completes limits (endLine text) r := by
  cases stage with
  | body first fields length => cases haccept
  | requestLine =>
      rcases accept_requestLine.mp haccept with ⟨_, hnext⟩ | ⟨_, _, _, _, hnext⟩
      · cases hnext
      · cases hnext
  | headers first fields =>
      rcases accept_headers.mp haccept with ⟨rfl, hlength, hnext⟩ | ⟨_, _, _, _, hnext⟩ |
        ⟨_, _, _, _, hnext⟩
      · cases hnext
        exact ⟨[], [], by simp, rfl, rfl, rfl, rfl, hlength⟩
      · cases hnext
      · cases hnext

/-- If a scan gives a request, then a front part of the bytes completes it. -/
theorem completes_of_scan {stage : Stage} {bytes : Bytes} {r : Request}
    (h : (scan limits stage bytes).result = .ok (some r)) :
    (scan limits stage bytes).stage = .requestLine ∧
      ∃ w, bytes = w ++ (scan limits stage bytes).unread ∧ stage.Completes limits w r := by
  -- a scan gives a request where a body is whole, where a line completes it, or behind a line
  induction stage, bytes using scan.induct limits with
  | case1 bytes first fields length hshort =>
      rw [scan_body, if_pos hshort] at h
      cases h
  | case2 bytes first fields length hlong =>
      rw [scan_body, if_neg hlong] at h ⊢
      cases h
      refine ⟨rfl, bytes.take length, (List.take_append_drop _ _).symm, ?_, rfl⟩
      exact List.length_take_of_le (Nat.le_of_not_lt hlong)
  | case3 bytes stage hstage e htaken =>
      rw [scan_line limits hstage, htaken] at h
      cases h
  | case4 bytes stage hstage htaken =>
      rw [scan_line limits hstage, htaken] at h
      cases h
  | case5 bytes stage hstage line rest htaken hutf8 =>
      rw [scan_line limits hstage, htaken] at h
      simp only [hutf8] at h
      cases h
  | case6 bytes stage hstage line rest htaken text hutf8 e haccept =>
      rw [scan_line limits hstage, htaken] at h
      simp only [hutf8, haccept] at h
      cases h
  | case7 bytes stage hstage line rest htaken text hutf8 request haccept =>
      rw [scan_of_request hstage htaken hutf8 haccept] at h ⊢
      cases h
      exact ⟨rfl, endLine text, (eq_endLine htaken hutf8).1, completes_of_accept_request haccept⟩
  | case8 bytes stage hstage line rest htaken text hutf8 next haccept ih =>
      rw [scan_of_stage hstage htaken hutf8 haccept] at h ⊢
      -- the line stands in front of what completes the request from there
      rcases ih h with ⟨hlast, w, hrest, hcompletes⟩
      rcases eq_endLine htaken hutf8 with ⟨hbytes, hfits⟩
      refine ⟨hlast, endLine text ++ w, ?_, completes_of_accept hstage hfits haccept hcompletes⟩
      rw [hbytes, List.append_assoc, ← hrest]

/-! ## Completeness -/

theorem requestLine_ne_body (first : RequestLine) (fields : Fields) (length : Nat) :
    Stage.requestLine ≠ .body first fields length := by
  intro h
  cases h

theorem headers_ne_body (first : RequestLine) (fields : Fields) (first' : RequestLine)
    (fields' : Fields) (length : Nat) :
    Stage.headers first fields ≠ .body first' fields' length := by
  intro h
  cases h

/-- Empty lines before a request are skipped. -/
theorem scan_blanks (blanks : Nat) (bytes : Bytes) :
    scan limits .requestLine ((List.replicate blanks crlf).flatten ++ bytes) =
      scan limits .requestLine bytes := by
  induction blanks with
  | zero => rfl
  | succ blanks ih =>
      have haccept : Stage.requestLine.accept limits "" = .ok (.stage _) :=
        accept_requestLine.mpr (.inl ⟨rfl, rfl⟩)
      rw [List.replicate_succ, List.flatten_cons, List.append_assoc, ← endLine_empty]
      rw [scan_of_stage requestLine_ne_body (takeLine_endLine (.inl rfl) _) (utf8Decode?_utf8 "")
        haccept]
      exact ih

/-- The first line leads to the header. -/
theorem scan_first {first : RequestLine} (h : first.Valid ∧ Fits limits first.text)
    (bytes : Bytes) :
    scan limits .requestLine (endLine first.text ++ bytes) =
      scan limits (.headers first []) bytes := by
  have haccept : Stage.requestLine.accept limits first.text = .ok (.stage _) :=
    accept_requestLine.mpr (.inr ⟨h.2.nonempty, first, h.1, rfl, rfl⟩)
  rw [scan_of_stage requestLine_ne_body (takeLine_endLine (.inr h.2) _) (utf8Decode?_utf8 _)
    haccept]

/-- Header lines set their fields, one after the other. -/
theorem scan_lines {first : RequestLine} {fields : Fields} {lines : List HeaderLine}
    (h : ∀ l ∈ lines, l.Valid ∧ Fits limits l.text) (bytes : Bytes) :
    scan limits (.headers first fields) ((lines.map (endLine ·.text)).flatten ++ bytes) =
      scan limits
        (.headers first (lines.foldl (fun fields l => fields.insert l.name l.content) fields))
        bytes := by
  induction lines generalizing fields with
  | nil => rfl
  | cons l lines ih =>
      rcases List.forall_mem_cons.mp h with ⟨⟨hvalid, hfits⟩, hlines⟩
      have haccept : (Stage.headers first fields).accept limits l.text = .ok (.stage _) :=
        accept_headers.mpr (.inr (.inr ⟨hfits.nonempty, l, hvalid, rfl, rfl⟩))
      rw [List.map_cons, List.flatten_cons, List.append_assoc]
      rw [scan_of_stage (headers_ne_body first fields) (takeLine_endLine (.inr hfits) _)
        (utf8Decode?_utf8 l.text) haccept]
      exact ih hlines

/-- Behind the header comes a body of the length that the header declares. -/
theorem scan_headerEnd (first : RequestLine) (fields : Fields) (bytes : Bytes) :
    scan limits (.headers first fields) (crlf ++ bytes) =
      match declaredLength limits fields with
      | .error e => ⟨.error (.refused e), .headers first fields, bytes⟩
      | .ok length => scan limits (.body first fields length) bytes := by
  have hempty : takeLine limits (crlf ++ bytes) = .ok (some (utf8 "", bytes)) :=
    takeLine_endLine (.inl rfl) bytes
  have hstage := headers_ne_body first fields
  -- a length of zero is no stage of its own: the line that ends the header completes the request
  cases hlength : declaredLength limits fields with
  | error e =>
      rw [scan_line limits hstage, hempty]
      simp [utf8Decode?_utf8, Stage.accept, hlength, bind, Except.bind]
  | ok length =>
      by_cases hzero : length = 0
      · have haccept : (Stage.headers first fields).accept limits "" = .ok (.request _) :=
          accept_headers.mpr (.inl ⟨rfl, by rw [hlength, hzero], rfl⟩)
        rw [scan_of_request hstage hempty (utf8Decode?_utf8 "") haccept, hzero]
        dsimp only
        rw [scan_body, if_neg (Nat.not_lt_zero _), List.take_zero, List.drop_zero]
      · have haccept : (Stage.headers first fields).accept limits "" = .ok (.stage _) :=
          accept_headers.mpr (.inr (.inl ⟨rfl, length, hlength, hzero, rfl⟩))
        rw [scan_of_stage hstage hempty (utf8Decode?_utf8 "") haccept]

/-- What completes the header and the body is read to its end. -/
theorem scan_of_tail {first : RequestLine} {fields : Fields} {w : Bytes} {r : Request}
    (h : Tail limits first fields w r) (rest : Bytes) :
    scan limits (.headers first fields) (w ++ rest) = ⟨.ok (some r), .requestLine, rest⟩ := by
  rcases r with ⟨first', fields', body'⟩
  rcases h with ⟨lines, body, hlines, rfl, hfirst, hfields, hbody, hlength⟩
  dsimp only at hfirst hfields hbody hlength
  subst hfirst hbody
  rw [List.append_assoc, scan_lines hlines, ← hfields, List.append_assoc, scan_headerEnd, hlength]
  dsimp only
  rw [scan_body, if_neg (by rw [List.length_append]; omega), List.take_left, List.drop_left]

/-- What completes a request is read to its end. -/
theorem scan_of_completes {w : Bytes} {r : Request}
    (h : Stage.requestLine.Completes limits w r) (rest : Bytes) :
    scan limits .requestLine (w ++ rest) = ⟨.ok (some r), .requestLine, rest⟩ := by
  rcases h with ⟨blanks, tail, hvalid, hfits, rfl, htail⟩
  rw [List.append_assoc, scan_blanks, List.append_assoc, scan_first ⟨hvalid, hfits⟩]
  exact scan_of_tail htail rest

/-! ## Messages and stages -/

/-- A message is what completes a request from the start. -/
theorem message_iff {w : Bytes} {r : Request} :
    Message limits w r ↔ Stage.requestLine.Completes limits w r := by
  constructor
  · rintro ⟨blanks, lines, h⟩
    rcases r with ⟨first, fields, body⟩
    have hfields : fields = HeaderLine.fields lines := by
      refine fields_ext ?_ ?_ ?_
      · rw [names_fields]
        exact h.names
      · rw [show fields.map Prod.fst = _ from h.names, ← names_fields]
        exact nodup_names lines
      · intro name hname
        -- a name of a field is the name of a line, so a lookup does not change it
        rw [show fields.map Prod.fst = _ from h.names, List.mem_eraseDups] at hname
        rcases List.mem_map.mp hname with ⟨l, _, rfl⟩
        have hvalue := h.header? l.name
        rw [Request.header?, HeaderLine.toLower_name] at hvalue
        rw [get?_fields]
        exact hvalue
    refine ⟨blanks, _, h.first.1, h.first.2, h.bytes, lines, body, h.headers, rfl, rfl, hfields,
      rfl, ?_⟩
    rw [declaredLength_eq_ok, hfields, get?_fields]
    exact h.length
  · rintro ⟨blanks, tail, hvalid, hfits, rfl, lines, body, hlines, rfl, _, hfields, rfl, hlength⟩
    have hfields' : r.fields = HeaderLine.fields lines := hfields
    refine ⟨blanks, lines, rfl, ⟨hvalid, hfits⟩, hlines, ?_, ?_, ?_⟩
    · rw [hfields', names_fields]
    · intro name
      rw [Request.header?, hfields', get?_fields]
    · rw [declaredLength_eq_ok, hfields', get?_fields] at hlength
      exact hlength

/-! ## What the parser accepts -/

/-- The parser has read `u` since the last request, and waits for the rest of the next one. -/
inductive Parser.Awaits : Parser → Bytes → Prop
  | fresh (limits : Limits) : Awaits { limits } []
  /-- It was asked, and there was not enough. -/
  | wait {p p' : Parser} {b b' : StreamBuffer} {u : Bytes} : Awaits p u → b.isOpen = true →
      p.nextRequest b = (.ok none, p', b') → Awaits p' (u ++ b.contents)
  /-- It has just given a request. -/
  | next {p p' : Parser} {b b' : StreamBuffer} {u : Bytes} {r : Request} : Awaits p u →
      b.isOpen = true → p.nextRequest b = (.ok (some r), p', b') → Awaits p' p'.unread

/-- What a parser waits with does not show: it goes on as if it had read nothing of `u` yet. -/
theorem Parser.Awaits.scan_eq {p : Parser} {u : Bytes} (h : p.Awaits u) :
    p.failed = none ∧ ∀ more,
      scan p.limits p.stage (p.unread ++ more) = scan p.limits .requestLine (u ++ more) := by
  -- the induction is on how the parser came to wait; each answer leaves it where the scan stopped
  induction h with
  | fresh limits => exact ⟨rfl, fun _ => rfl⟩
  | @wait p p' b b' u _ hopen hnext ih =>
      rcases ih with ⟨hok, hscan⟩
      rcases Parser.nextRequest_inv hok hopen hnext with ⟨_, _, hresult, hparser⟩
      rw [hparser ⟨none, rfl⟩]
      refine ⟨rfl, fun more => ?_⟩
      dsimp only
      rw [← scan_append_of_undecided p.stage (p.unread ++ b.contents) more (.inl hresult),
        List.append_assoc, hscan, List.append_assoc]
  | @next p p' b b' u r _ hopen hnext ih =>
      rcases ih with ⟨hok, _⟩
      rcases Parser.nextRequest_inv hok hopen hnext with ⟨_, _, hresult, hparser⟩
      have hstage := (completes_of_scan hresult).1
      have hp := hparser ⟨some r, rfl⟩
      rw [hstage] at hp
      rw [hp]
      exact ⟨rfl, fun _ => rfl⟩

/-- The parser accepts exactly the messages. It has read `u` since the last request, and the rest of
`w ++ rest` waits in the stream buffer: it gives the request `r` and keeps `rest`, back at the start
and with nothing left in the stream buffer, if and only if `w` is a message that spells `r`. -/
theorem nextRequest_iff {p : Parser} {b : StreamBuffer} {u w rest : Bytes} {r : Request}
    (hawaits : p.Awaits u) (hopen : b.isOpen = true) (hfed : u ++ b.contents = w ++ rest) :
    (∃ b', b'.isOpen = true ∧ b'.contents = [] ∧
      p.nextRequest b = (.ok (some r), { limits := p.limits, unread := rest }, b')) ↔
      Message p.limits w r := by
  rcases hawaits.scan_eq with ⟨hok, hscan⟩
  rw [message_iff]
  -- one scan of all that was read decides: it gives a request just as a front part completes one
  constructor
  · rintro ⟨b', _, _, hnext⟩
    rcases Parser.nextRequest_inv hok hopen hnext with ⟨_, _, hresult, hparser⟩
    have hrest := congrArg Parser.unread (hparser ⟨some r, rfl⟩)
    rw [hscan, hfed] at hresult hrest
    rcases completes_of_scan hresult with ⟨_, w', hw', hcompletes⟩
    dsimp only at hrest
    rw [← hrest] at hw'
    rw [List.append_cancel_right hw']
    exact hcompletes
  · intro hcompletes
    rcases Parser.exists_nextRequest hok hopen with ⟨p', b', hopen', hempty, hnext, hparser⟩
    rw [hscan, hfed, scan_of_completes hcompletes] at hnext hparser
    rw [hparser ⟨some r, rfl⟩] at hnext
    exact ⟨b', hopen', hempty, hnext⟩

/-- A message with a name that comes twice and a body, of which a part was read before, and the
front of another one behind it. -/
theorem nextRequest_iff_host :
    let limits : Limits := {}
    let w : Bytes := utf8 "\r\nPUT / HTTP/1.1\r\nHost: a\r\ncontent-length:2\r\nHOST :b \r\n\r\nxy"
    let r : Request :=
      { method := "PUT", target := "/", version := "HTTP/1.1"
        fields := [("host", "b"), ("content-length", "2")], body := utf8 "xy" }
    let holding (bytes : Bytes) : StreamBuffer :=
      { ring := ((RingBuffer.new 128).write bytes).2, isOpen := true }
    let p := (({ limits } : Parser).nextRequest (holding (w.take 8))).2.1
    p.Awaits (w.take 8) ∧ Message limits w r ∧
      ∃ b', b'.isOpen = true ∧ b'.contents = [] ∧
        p.nextRequest (holding (w.drop 8 ++ utf8 "GET")) =
          (.ok (some r), { limits, unread := utf8 "GET" }, b') := by
  intro limits w r holding p
  let lines : List HeaderLine := [⟨"Host", " a"⟩, ⟨"content-length", "2"⟩, ⟨"HOST ", "b "⟩]
  -- the parser has been asked once, and has got no request
  have hawaits : p.Awaits (w.take 8) := by
    have hread : [] ++ (holding (w.take 8)).contents = w.take 8 := by decide +kernel
    have hanswer : (({ limits } : Parser).nextRequest (holding (w.take 8))).1 = .ok none := by
      decide +kernel
    have hfirst : ∀ x : Except Failure (Option Request) × Parser × StreamBuffer,
        x.1 = .ok none → x = (.ok none, x.2.1, x.2.2) := by
      rintro ⟨_, _, _⟩ rfl
      rfl
    have hwait := Parser.Awaits.wait (.fresh limits) rfl (hfirst _ hanswer)
    rwa [hread] at hwait
  -- the message is spelled out line by line
  have hlimits : p.limits = limits := by decide +kernel
  have hmessage : Message p.limits w r := by
    rw [hlimits]
    have hfirst : r.toRequestLine.Valid := ⟨by decide, by decide, by decide⟩
    refine ⟨1, lines, by decide +kernel, ⟨hfirst, ?_⟩, ?_, by decide, ?_, ?_⟩
    · exact ⟨by decide, by decide +kernel, by decide +kernel⟩
    · intro l hl
      simp only [lines, List.mem_cons, List.not_mem_nil, or_false] at hl
      rcases hl with rfl | rfl | rfl
      · exact ⟨⟨by decide, by decide +kernel⟩, by decide, by decide +kernel, by decide +kernel⟩
      · exact ⟨⟨by decide, by decide +kernel⟩, by decide, by decide +kernel, by decide +kernel⟩
      · exact ⟨⟨by decide, by decide +kernel⟩, by decide, by decide +kernel, by decide +kernel⟩
    · intro name
      have hfields : r.fields = HeaderLine.fields lines := by decide +kernel
      rw [Request.header?, hfields, get?_fields]
    · have hdeclared : declaredLength limits r.fields = .ok r.body.length := by decide +kernel
      have hfields : r.fields = HeaderLine.fields lines := by decide +kernel
      rw [declaredLength_eq_ok, hfields, get?_fields] at hdeclared
      exact hdeclared
  have hfed : w.take 8 ++ (holding (w.drop 8 ++ utf8 "GET")).contents = w ++ utf8 "GET" := by
    decide +kernel
  have haccepted := (nextRequest_iff hawaits rfl hfed).mpr hmessage
  rw [hlimits] at hmessage haccepted
  exact ⟨hawaits, hmessage, haccepted⟩

end TcpReactor.Http
