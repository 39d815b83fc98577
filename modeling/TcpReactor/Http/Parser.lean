import TcpReactor.StreamBuffer
import TcpReactor.Http.Request
import TcpReactor.Text.Quoted

namespace TcpReactor.Http

/-! # Reading requests from a stream

The parser belongs to one connection. Whenever it is asked for a request it first takes over all
that waits in the stream buffer, so the buffer never backs up behind a slow request, and then goes
on from the stage it had reached: a request line, header lines, a body. It gives one request at a
time and keeps what follows. A refusal stays until the parser is reset.
-/

/-- What the parser puts up with. -/
structure Limits where
  /-- The longest line, without its line end. -/
  maxLine : UInt64 := 8192
  maxBody : UInt64 := 1048576
  deriving DecidableEq, Repr

/-- Why a request is refused. -/
inductive ParseError
  | badRequestLine
  | unsupportedVersion (version : String)
  | badHeaderLine
  | badHeaderKey
  | invalidContentLength (value : String)
  | lineTooLong (limit : Nat)
  | bodyTooLarge (length : Nat)
  | invalidEncoding
  deriving DecidableEq, Repr

def ParseError.message : ParseError → String
  | .badRequestLine => "bad request line"
  | .unsupportedVersion version => s!"unsupported HTTP version {Text.quoted version}"
  | .badHeaderLine => "bad header line"
  | .badHeaderKey => "bad header key"
  | .invalidContentLength value => s!"invalid Content-Length {Text.quoted value}"
  | .lineTooLong limit => s!"line longer than {limit} bytes"
  | .bodyTooLarge length => s!"body of {length} bytes is too large"
  | .invalidEncoding => "request line or header is not valid UTF-8"

/-- Why a call fails. -/
inductive Failure
  /-- What has come is no request. -/
  | refused (cause : ParseError)
  /-- A sum does not fit in a machine word. Nobody handles this: the program stops. -/
  | overflow
  deriving DecidableEq, Repr

/-! ## Lines -/

/-- Split at the first line end: the bytes before it and those after it. -/
def splitLine? (bytes : Bytes) : Option (Bytes × Bytes) := go [] bytes
where
  /-- Go on with the bytes of the line so far in reverse order. -/
  go (seen : Bytes) : Bytes → Option (Bytes × Bytes)
    | [] => none
    | b :: bytes =>
        if b = 13 ∧ bytes.head? = some 10 then some (seen.reverse, bytes.tail)
        else go (b :: seen) bytes

/-- What follows a line and its end is shorter than the whole. -/
theorem length_of_splitLine? {bytes line rest : Bytes} (h : splitLine? bytes = some (line, rest)) :
    rest.length < bytes.length := by
  suffices ∀ seen, splitLine?.go seen bytes = some (line, rest) → rest.length < bytes.length from
    this [] h
  clear h
  induction bytes with
  | nil => simp [splitLine?.go]
  | cons b bytes ih =>
      intro seen h
      rw [splitLine?.go] at h
      split at h
      · cases h
        simp only [List.length_cons, List.length_tail]
        omega
      · have := ih _ h
        simp only [List.length_cons]
        omega

/-- The most bytes that may wait for a line end: a line of the greatest length, and a last byte that
may be the first half of its end. There is no such number if it takes more than 64 bits. -/
def Limits.lineRoom? (limits : Limits) : Option Nat :=
  if limits.maxLine.toNat + 1 < UInt64.size then some (limits.maxLine.toNat + 1) else none

/-- Take a line off the front, if a whole one is there. A line that is, or is bound to become,
longer than the limit is refused. -/
def takeLine (limits : Limits) (bytes : Bytes) : Except Failure (Option (Bytes × Bytes)) :=
  match splitLine? bytes with
  | none =>
      match limits.lineRoom? with
      | none => .error .overflow
      | some room =>
          if room < bytes.length then .error (.refused (.lineTooLong limits.maxLine.toNat))
          else .ok none
  | some (line, rest) =>
      if limits.maxLine.toNat < line.length then
        .error (.refused (.lineTooLong limits.maxLine.toNat))
      else .ok (some (line, rest))

/-- A line that was taken leaves less behind. -/
theorem length_of_takeLine {limits : Limits} {bytes line rest : Bytes}
    (h : takeLine limits bytes = .ok (some (line, rest))) : rest.length < bytes.length := by
  rw [takeLine] at h
  split at h
  · split at h
    · simp at h
    · split at h <;> simp at h
  · rename_i hs
    split at h
    · simp at h
    · simp only [Except.ok.injEq, Option.some.injEq, Prod.mk.injEq] at h
      rw [h.1, h.2] at hs
      exact length_of_splitLine? hs

/-- Method, target and version, with one space between them. The version goes to the end of the
line and may be one of two. -/
def parseRequestLine (line : List Char) : Except ParseError RequestLine :=
  let method := line.takeWhile (· ≠ ' ')
  let afterMethod := line.dropWhile (· ≠ ' ')
  let target := afterMethod.tail.takeWhile (· ≠ ' ')
  let afterTarget := afterMethod.tail.dropWhile (· ≠ ' ')
  let version := afterTarget.tail
  if method.isEmpty || target.isEmpty || version.isEmpty then .error .badRequestLine
  else
    let version := String.ofList version
    if version ≠ "HTTP/1.1" ∧ version ≠ "HTTP/1.0" then .error (.unsupportedVersion version)
    else .ok { method := .ofList method, target := .ofList target, version }

/-- Name and value around the first colon, both trimmed, the name in lower case. -/
def parseHeaderLine (line : List Char) : Except ParseError (String × String) :=
  match line.dropWhile (· ≠ ':') with
  | [] => .error .badHeaderLine
  | _ :: value =>
      let name := (Text.trim (line.takeWhile (· ≠ ':'))).map Char.toLower
      if name.isEmpty then .error .badHeaderKey
      else .ok (.ofList name, .ofList (Text.trim value))

/-- The value of a digit. -/
def digit? (c : Char) : Option Nat := if c.isDigit then some (c.toNat - '0'.toNat) else none

/-- The number of at most 64 bits that digits spell, perhaps behind a plus sign. -/
def parseLength? (text : List Char) : Option Nat := do
  let digits := match text with
    | '+' :: digits => digits
    | digits => digits
  if digits.isEmpty then none
  let digits ← digits.mapM digit?
  let n := digits.foldl (fun n d => n * 10 + d) 0
  if n < UInt64.size then some n else none

/-- How long the body is according to the header fields. -/
def declaredLength (limits : Limits) (fields : Fields) : Except ParseError Nat :=
  match fields.get? "content-length" with
  | none => .ok 0
  | some value =>
      match parseLength? (Text.trim value.toList) with
      | none => .error (.invalidContentLength value)
      | some n => if limits.maxBody.toNat < n then .error (.bodyTooLarge n) else .ok n

/-! ## Stages -/

/-- How far the current request has been read. -/
inductive Stage
  | requestLine
  | headers (line : RequestLine) (fields : Fields)
  /-- The header is complete and declares a body of `length` bytes. -/
  | body (line : RequestLine) (fields : Fields) (length : Nat)
  deriving DecidableEq, Repr

/-- What a line leads to: another stage, or a request that is complete. -/
inductive Advance
  | stage (next : Stage)
  | request (request : Request)
  deriving DecidableEq, Repr

/-- Take one line of the header. Empty lines before a request are skipped. -/
def Stage.accept (limits : Limits) (line : String) : Stage → Except ParseError Advance
  | .requestLine =>
      if line.isEmpty then .ok (.stage .requestLine)
      else do return .stage (.headers (← parseRequestLine line.toList) [])
  | .headers first fields =>
      if line.isEmpty then do
        let length ← declaredLength limits fields
        -- without a body the request ends here
        if length = 0 then return .request { first with fields, body := [] }
        else return .stage (.body first fields length)
      else do
        let (name, value) ← parseHeaderLine line.toList
        return .stage (.headers first (fields.insert name value))
  | .body first fields length => .ok (.stage (.body first fields length))

/-- What the parser knows when it stops: a request, a need for more bytes, or a failure; the stage
it is in; and the bytes it has not used. -/
structure Stop where
  result : Except Failure (Option Request)
  stage : Stage
  unread : Bytes

/-- Read on from a stage until a request is complete, the bytes run out, or something fails. -/
def scan (limits : Limits) (stage : Stage) (bytes : Bytes) : Stop :=
  match stage with
  | .body first fields length =>
      if bytes.length < length then ⟨.ok none, stage, bytes⟩
      else ⟨.ok (some { first with fields, body := bytes.take length }), .requestLine,
        bytes.drop length⟩
  | stage =>
      match _h : takeLine limits bytes with
      | .error e => ⟨.error e, stage, bytes⟩
      | .ok none => ⟨.ok none, stage, bytes⟩
      | .ok (some (line, rest)) =>
          match utf8Decode? line with
          | none => ⟨.error (.refused .invalidEncoding), stage, rest⟩
          | some line =>
              match stage.accept limits line with
              | .error e => ⟨.error (.refused e), stage, rest⟩
              | .ok (.request request) => ⟨.ok (some request), .requestLine, rest⟩
              | .ok (.stage next) => scan limits next rest
termination_by bytes.length
decreasing_by exact length_of_takeLine _h

/-! ## The parser -/

/-- The parser of one connection. -/
structure Parser where
  limits : Limits
  /-- Bytes that were taken over and not used yet. -/
  unread : Bytes := []
  stage : Stage := .requestLine
  /-- Why the parser refuses to go on. -/
  failed : Option ParseError := none

namespace Parser

/-- How many bytes were taken over and not used yet. -/
def buffered (p : Parser) : Nat := p.unread.length

/-- Forget the unused bytes, the request in progress and any error. -/
def reset (p : Parser) : Parser := { limits := p.limits }

/-- Take over everything readable. -/
def pull (p : Parser) (b : StreamBuffer) : Parser × StreamBuffer :=
  match b.slices with
  | .error _ => (p, b)
  | .ok (head, tail) =>
      let n := head.length + tail.length
      if n = 0 then (p, b)
      else
        let p := { p with unread := p.unread ++ (head ++ tail) }
        match b.consume n with
        | .error _ => (p, b)
        | .ok b => (p, b)

/-- The next request, if it is complete, with the parser and the stream buffer afterwards. -/
def nextRequest (p : Parser) (b : StreamBuffer) :
    Except Failure (Option Request) × Parser × StreamBuffer :=
  match p.failed with
  | some e => (.error (.refused e), p, b)
  | none =>
      let (p, b) := p.pull b
      let stop := scan p.limits p.stage p.unread
      let failed := match stop.result with
        | .error (.refused e) => some e
        | .error .overflow | .ok _ => none
      (stop.result, { p with unread := stop.unread, stage := stop.stage, failed }, b)

end Parser
end TcpReactor.Http
