import TcpReactor.Proofs.Http.Lines

namespace TcpReactor.Http

/-! # A stream may come in any pieces

Bytes are written to the stream buffer in pieces, the parser is asked for requests in between, and
at last until it has no more to give. What comes of this is a matter of the bytes alone, and not of
where they were cut and when the parser was asked:

* `Parses` says what a stage and a stream of bytes give, with nothing but `scan`;
* `parses_of_read`: every way to read the stream gives that;
* `read_unique`: so any two of them give the same.
-/

/-! ## Reading a stream -/

/-- Something that is done to a parser and its stream buffer. -/
inductive Feed
  | write (piece : Bytes)
  | ask
  deriving DecidableEq, Repr

/-- The bytes that are written. -/
def Feed.bytes : Feed → Bytes
  | .write piece => piece
  | .ask => []

/-- The stream that is written piece by piece. -/
def stream (feeds : List Feed) : Bytes := (feeds.map Feed.bytes).flatten

/-- How reading ends: with a failure, or with a parser that waits for more bytes. -/
inductive Reading
  | failed (cause : Failure)
  | waiting (p : Parser)

/-- Go through the feeds and ask once more behind them. The answer lists the requests up to the
first error. There is none if a piece does not fit in the stream buffer, or if the parser would have
had more to give at the end. -/
def read (p : Parser) (b : StreamBuffer) : List Feed → Option (List Request × Reading)
  | [] =>
      match p.nextRequest b with
      | (.ok none, p, _) => some ([], .waiting p)
      | (.ok (some _), _, _) => none
      | (.error e, _, _) => some ([], .failed e)
  | .write piece :: feeds =>
      match b.write piece with
      | .ok b => read p b feeds
      | .error _ => none
  | .ask :: feeds =>
      match p.nextRequest b with
      | (.ok none, p, b) => read p b feeds
      | (.ok (some request), p, b) =>
          (read p b feeds).map fun out => (request :: out.1, out.2)
      -- a parser that has failed is not asked again
      | (.error e, _, _) => some ([], .failed e)

/-! ## What a stream gives -/

/-- From a stage, the bytes give these requests, and then that end. -/
inductive Parses (limits : Limits) : Stage → Bytes → List Request × Reading → Prop
  | request {stage bytes request out} :
      (scan limits stage bytes).result = .ok (some request) →
      Parses limits (scan limits stage bytes).stage (scan limits stage bytes).unread out →
      Parses limits stage bytes (request :: out.1, out.2)
  | wait {stage bytes} :
      (scan limits stage bytes).result = .ok none →
      Parses limits stage bytes ([], .waiting {
        limits
        unread := (scan limits stage bytes).unread
        stage := (scan limits stage bytes).stage })
  | fail {stage bytes e} :
      (scan limits stage bytes).result = .error e →
      Parses limits stage bytes ([], .failed e)

namespace Parses

variable {limits : Limits} {stage stage' : Stage} {bytes bytes' : Bytes}
  {out out' : List Request × Reading}

theorem unique (h : Parses limits stage bytes out) (h' : Parses limits stage bytes out') :
    out = out' := by
  -- each rule needs another result of the scan, so both derivations end with the same one
  induction h generalizing out' with
  | request hresult _ ih =>
      cases h' with
      | request hresult' hrest' =>
          rw [hresult] at hresult'
          cases hresult'
          rw [ih hrest']
      | wait hresult' => rw [hresult] at hresult'; cases hresult'
      | fail hresult' => rw [hresult] at hresult'; cases hresult'
  | wait hresult =>
      cases h' with
      | request hresult' _ => rw [hresult] at hresult'; cases hresult'
      | wait hresult' => rfl
      | fail hresult' => rw [hresult] at hresult'; cases hresult'
  | fail hresult =>
      cases h' with
      | request hresult' _ => rw [hresult] at hresult'; cases hresult'
      | wait hresult' => rw [hresult] at hresult'; cases hresult'
      | fail hresult' => rw [hresult] at hresult'; cases hresult'; rfl

/-- What a stream gives is a matter of its first scan. -/
theorem congr (h : Parses limits stage bytes out)
    (hscan : scan limits stage' bytes' = scan limits stage bytes) :
    Parses limits stage' bytes' out := by
  cases h with
  | request hresult hrest =>
      rw [← hscan] at hresult hrest
      exact .request hresult hrest
  | wait hresult =>
      rw [← hscan] at hresult ⊢
      exact .wait hresult
  | fail hresult =>
      rw [← hscan] at hresult
      exact .fail hresult

end Parses

/-! ## Every way to read a stream -/

/-- Every way to read a stream gives what the stream gives. A scan of its front either decides
something, which the rest does not change, or it is taken up again with the rest. -/
theorem parses_of_read {p : Parser} {b : StreamBuffer} {feeds : List Feed}
    {out : List Request × Reading} (hmax : p.limits.maxLine.toNat < UInt64.size - 1)
    (hok : p.failed = none) (hopen : b.isOpen = true) (h : read p b feeds = some out) :
    Parses p.limits p.stage (p.unread ++ (b.contents ++ stream feeds)) out := by
  -- the induction is on the feeds: written bytes wait in the buffer, and asking scans them
  induction feeds generalizing p b out with
  | nil =>
      have hstream : stream [] = [] := rfl
      rw [hstream, List.append_nil]
      rw [read] at h
      rcases hnext : p.nextRequest b with ⟨e | _ | request, p', b'⟩
      all_goals
        rcases Parser.nextRequest_inv hok hopen hnext with ⟨_, _, hresult, hparser⟩
        rw [hnext] at h
        cases h
      · exact .fail hresult
      · rw [hparser ⟨none, rfl⟩]
        exact .wait hresult
  | cons feed feeds ih =>
      cases feed with
      | write piece =>
          have hstream : stream (.write piece :: feeds) = piece ++ stream feeds := rfl
          rw [hstream, ← List.append_assoc b.contents]
          rw [read] at h
          cases hwrite : b.write piece with
          | error e =>
              rw [hwrite] at h
              cases h
          | ok b' =>
              rw [hwrite] at h
              have hrest := ih hmax hok (StreamBuffer.isOpen_write hwrite).2 h
              rwa [StreamBuffer.contents_write hwrite] at hrest
      | ask =>
          have hstream : stream (.ask :: feeds) = stream feeds := rfl
          rw [hstream, ← List.append_assoc]
          rw [read] at h
          rcases hnext : p.nextRequest b with ⟨e | _ | request, p', b'⟩
          all_goals
            rcases Parser.nextRequest_inv hok hopen hnext with ⟨hopen', hempty, hresult, hparser⟩
            rw [hnext] at h
            dsimp only at h
          · -- an error
            cases h
            have hdone := scan_append_of_done hmax p.stage (p.unread ++ b.contents)
              (stream feeds) (by rw [hresult]; simp)
            exact .fail (by rw [hdone]; exact hresult)
          · -- not enough bytes yet
            have hwaiting := scan_append_of_undecided p.stage (p.unread ++ b.contents)
              (stream feeds) (.inl hresult)
            have hp := hparser ⟨none, rfl⟩
            have hrest := ih (by rw [hp]; exact hmax) (by rw [hp]) hopen' h
            rw [hp, hempty, List.nil_append] at hrest
            exact hrest.congr hwaiting
          · -- a request
            have hdone := scan_append_of_done hmax p.stage (p.unread ++ b.contents)
              (stream feeds) (by rw [hresult]; simp)
            rcases Option.map_eq_some_iff.mp h with ⟨out', hread, rfl⟩
            have hp := hparser ⟨some request, rfl⟩
            have hrest := ih (by rw [hp]; exact hmax) (by rw [hp]) hopen' hread
            rw [hp, hempty, List.nil_append] at hrest
            refine .request (by rw [hdone]; exact hresult) ?_
            rw [hdone]
            exact hrest

/-- However a stream is cut and whenever the parser is asked: the requests, the first error if there
is one, and otherwise the parser at the end are the same. The stream buffers may be of any size. -/
theorem read_unique {limits : Limits} (hmax : limits.maxLine.toNat < UInt64.size - 1)
    {b b' : StreamBuffer} (hopen : b.isOpen = true) (hopen' : b'.isOpen = true)
    (hempty : b.contents = []) (hempty' : b'.contents = []) {feeds feeds' : List Feed}
    (hstream : stream feeds = stream feeds') {out out' : List Request × Reading}
    (h : read { limits } b feeds = some out) (h' : read { limits } b' feeds' = some out') :
    out = out' := by
  have hparses := parses_of_read hmax rfl hopen h
  have hparses' := parses_of_read hmax rfl hopen' h'
  rw [hempty, hstream] at hparses
  rw [hempty'] at hparses'
  exact hparses.unique hparses'

/-- A request and the start of another, in one piece, and cut inside a line end and inside a letter
of two bytes and read through a buffer that cannot hold it all. -/
theorem read_unique_cut :
    let whole : List Feed := [.write (utf8 "GET /ä HTTP/1.1\r\nHost: a\r\n\r\nPUT "), .ask]
    let pieces : List Feed := [.write (utf8 "GET /" ++ [195]), .ask, .write [164], .ask,
      .write (utf8 " HTTP/1.1\r"), .ask, .write (utf8 "\nHost: a\r\n\r"), .ask,
      .write (utf8 "\nPUT "), .ask]
    let roomy : StreamBuffer := { StreamBuffer.new 64 with isOpen := true }
    let tight : StreamBuffer := { StreamBuffer.new 16 with isOpen := true }
    ({} : Limits).maxLine.toNat < UInt64.size - 1 ∧ stream whole = stream pieces ∧
      ∃ out, read { limits := {} } roomy whole = some out ∧
        read { limits := {} } tight pieces = some out ∧ out.1.length = 1 := by
  intro whole pieces roomy tight
  have hmax : ({} : Limits).maxLine.toNat < UInt64.size - 1 := by decide
  have hstream : stream whole = stream pieces := by decide +kernel
  have hroomy : (read { limits := {} } roomy whole).map (·.1.length) = some 1 := by decide +kernel
  have htight : (read { limits := {} } tight pieces).isSome = true := by decide +kernel
  rcases Option.map_eq_some_iff.mp hroomy with ⟨out, hout, hlength⟩
  rcases Option.isSome_iff_exists.mp htight with ⟨out', hout'⟩
  -- the outcome that was computed for the whole stream is that of the pieces
  have hsame : out = out' :=
    read_unique hmax rfl rfl (by decide +kernel) (by decide +kernel) hstream hout hout'
  rw [← hsame] at hout'
  exact ⟨hmax, hstream, out, hout, hout', hlength⟩

end TcpReactor.Http
