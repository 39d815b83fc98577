import TcpReactor.Frame
import TcpReactor.StreamBuffer.Contents

namespace TcpReactor.Frame

/-! # Frames come out as they went in

A stream of frames is written to a stream buffer in any pieces, and frames are taken out in between.

* `popInPlace_cases`, `pop_cases`: what `pop` does is a matter of the contents of the buffer alone,
  and it never fails because of the buffer.
* `pop_eq_none`: it waits just as long as neither a whole frame nor a header that declares too much
  is at the front.
* `codec_exact`: so the frames come out one by one as they were encoded, wherever the stream was
  cut; and whatever a buffer holds, what comes out of it is the encoding of what was handed out.
-/

/-! ## Frames as bytes -/

theorem encode_eq_ok {payload frame : Bytes} :
    encode payload = .ok frame ↔
      payload.length ≤ maxPayload ∧ frame = beWord payload.length ++ payload := by
  unfold encode header
  split
  · simp only [bind, Except.bind, reduceCtorEq, false_iff]
    omega
  · simp only [bind, Except.bind, pure, Except.pure, Except.ok.injEq, eq_comm (a := frame)]
    exact ⟨fun h => ⟨by omega, h⟩, fun h => h.2⟩

theorem length_of_encode {payload frame : Bytes} (h : encode payload = .ok frame) :
    frame.length = headerSize + payload.length := by
  rw [(encode_eq_ok.mp h).2, List.length_append, length_beWord]
  rfl

/-- The frames of the payloads, one behind the other. -/
def encodeAll : List Bytes → Except FrameError Bytes
  | [] => .ok []
  | payload :: payloads => do return (← encode payload) ++ (← encodeAll payloads)

theorem encodeAll_cons {payload : Bytes} {payloads : List Bytes} {stream : Bytes} :
    encodeAll (payload :: payloads) = .ok stream ↔
      ∃ frame rest, encode payload = .ok frame ∧ encodeAll payloads = .ok rest ∧
        stream = frame ++ rest := by
  rw [encodeAll]
  cases encode payload with
  | error e => simp [bind, Except.bind]
  | ok frame =>
      cases encodeAll payloads with
      | error e => simp [bind, Except.bind]
      | ok rest =>
          simp only [bind, Except.bind, pure, Except.pure, Except.ok.injEq, exists_eq_left',
            exists_and_left]
          exact eq_comm

/-- One more frame behind the others. -/
theorem encodeAll_concat {payloads : List Bytes} {payload stream frame : Bytes}
    (h : encodeAll payloads = .ok stream) (hframe : encode payload = .ok frame) :
    encodeAll (payloads ++ [payload]) = .ok (stream ++ frame) := by
  induction payloads generalizing stream with
  | nil =>
      cases h
      exact encodeAll_cons.mpr ⟨frame, [], hframe, rfl, by simp⟩
  | cons first payloads ih =>
      rcases encodeAll_cons.mp h with ⟨head, rest, hhead, hrest, rfl⟩
      exact encodeAll_cons.mpr ⟨head, rest ++ frame, hhead, ih hrest, by simp⟩

theorem exists_encodeAll {payloads : List Bytes} (h : ∀ p ∈ payloads, p.length ≤ maxPayload) :
    ∃ stream, encodeAll payloads = .ok stream := by
  induction payloads with
  | nil => exact ⟨[], rfl⟩
  | cons payload payloads ih =>
      rw [List.forall_mem_cons] at h
      rcases ih h.2 with ⟨rest, hrest⟩
      exact ⟨_, encodeAll_cons.mpr ⟨_, rest, encode_eq_ok.mpr ⟨h.1, rfl⟩, hrest, rfl⟩⟩

/-- The length that the header at the front of `bytes` declares, if it is there. -/
def declared? (bytes : Bytes) : Option Nat :=
  if headerSize ≤ bytes.length then some (ofBeWord (bytes.take headerSize)) else none

theorem declared?_eq_none {bytes : Bytes} : declared? bytes = none ↔ bytes.length < headerSize := by
  rw [declared?]
  split
  · simp only [reduceCtorEq, false_iff]
    omega
  · simp only [true_iff]
    omega

/-- What a header declares is the length of the payload behind it. -/
theorem declared?_of_encode {payload frame : Bytes} (h : encode payload = .ok frame)
    (rest : Bytes) : declared? (frame ++ rest) = some payload.length := by
  rcases encode_eq_ok.mp h with ⟨hsize, rfl⟩
  have htake : (beWord payload.length ++ payload ++ rest).take headerSize =
      beWord payload.length := by
    rw [List.append_assoc]
    exact List.take_left' rfl
  have hlong : headerSize ≤ (beWord payload.length ++ payload ++ rest).length := by
    simp [headerSize]
  have hword : payload.length < UInt32.size := by
    simp only [maxPayload] at hsize
    simp only [UInt32.size]
    omega
  rw [declared?, if_pos hlong, htake, ofBeWord_beWord hword]

/-- The other way round: what is declared, and as many bytes behind it, are a frame. -/
theorem encode_of_declared? {bytes : Bytes} {n : Nat} (h : declared? bytes = some n)
    (hn : n ≤ maxPayload) (hlong : headerSize + n ≤ bytes.length) :
    encode ((bytes.drop headerSize).take n) = .ok (bytes.take (headerSize + n)) := by
  rw [declared?] at h
  split at h
  · rename_i hheader
    have hword : beWord n = bytes.take headerSize := by
      rw [← Option.some.inj h]
      exact beWord_ofBeWord (by rw [List.length_take, Nat.min_eq_left hheader]; rfl)
    have hlength : ((bytes.drop headerSize).take n).length = n := by
      rw [List.length_take, List.length_drop]
      omega
    refine encode_eq_ok.mpr ⟨hlength.symm ▸ hn, ?_⟩
    rw [hlength, hword, List.take_add]
  · cases h

/-! ## Taking a frame out -/

theorem onBuffer_ok {α : Type} (a : α) : onBuffer (.ok a) = .ok a := rfl

/-- `pop` as it happens on the one buffer, step by step: what has been taken out before something
fails is gone. -/
def popInPlace (b : StreamBuffer) : Except FrameError (Option Bytes) × StreamBuffer :=
  if b.length < headerSize then (.ok none, b)
  else
    match onBuffer (b.peek headerSize) with
    | .error e => (.error e, b)
    | .ok header =>
        let length := ofBeWord header
        if maxPayload < length then (.error (.overflow length), b)
        else if b.length < headerSize + length then (.ok none, b)
        else
          match onBuffer (b.consume headerSize) with
          | .error e => (.error e, b)
          | .ok body =>
              if length = 0 then (.ok (some []), body)
              else
                match onBuffer (body.read length) with
                -- the header is out by now
                | .error e => (.error e, body)
                | .ok (payload, rest) =>
                    if payload.length ≠ length then (.error (.buffer .internal), rest)
                    else (.ok (some payload), rest)

/-- `pop` gives what comes out of the buffer, and the buffer then if a frame came out. -/
theorem pop_eq (b : StreamBuffer) :
    pop b = match popInPlace b with
      | (.ok none, _) => .ok none
      | (.ok (some payload), rest) => .ok (some (payload, rest))
      | (.error e, _) => .error e := by
  -- step by step: where one of the two fails, so does the other
  simp only [pop, popInPlace, bind, Except.bind, pure, Except.pure, throw, throwThe,
    MonadExceptOf.throw]
  by_cases hheader : b.length < headerSize
  · simp only [hheader, if_true]
  simp only [hheader, if_false]
  cases onBuffer (b.peek headerSize) with
  | error e => rfl
  | ok header =>
      dsimp only
      by_cases hmax : maxPayload < ofBeWord header
      · simp only [hmax, if_true]
      by_cases hwhole : b.length < headerSize + ofBeWord header
      · simp only [hmax, hwhole, if_true, if_false]
      simp only [hmax, hwhole, if_false]
      cases onBuffer (b.consume headerSize) with
      | error e => rfl
      | ok body =>
          dsimp only
          by_cases hzero : ofBeWord header = 0
          · simp only [hzero, if_true]
          simp only [hzero, if_false]
          cases onBuffer (body.read (ofBeWord header)) with
          | error e => rfl
          | ok out =>
              dsimp only
              by_cases hshort : out.1.length = ofBeWord header
              · simp only [hshort, ne_eq, not_true, if_false]
              · simp only [hshort, ne_eq, not_false_eq_true, if_true]

/-- All that can come of `pop`. -/
theorem popInPlace_cases (b : StreamBuffer) :
    (declared? b.contents = none ∧ popInPlace b = (.ok none, b)) ∨
    ∃ n, declared? b.contents = some n ∧
      ((maxPayload < n ∧ popInPlace b = (.error (.overflow n), b)) ∨
      (n ≤ maxPayload ∧ b.length < headerSize + n ∧ popInPlace b = (.ok none, b)) ∨
      (n ≤ maxPayload ∧ headerSize + n ≤ b.length ∧ ∃ rest,
        popInPlace b = (.ok (some ((b.contents.drop headerSize).take n)), rest) ∧
        rest.contents = b.contents.drop (headerSize + n) ∧ rest.isOpen = true ∧
        rest.capacity = b.capacity)) := by
  rw [popInPlace]
  by_cases hheader : b.length < headerSize
  · exact .inl ⟨declared?_eq_none.mpr (by rwa [b.length_contents]), if_pos hheader⟩
  have hsome : b.contents ≠ [] := by
    intro hnil
    rw [← b.length_contents, hnil] at hheader
    exact hheader (by decide)
  have hdeclared : declared? b.contents = some (ofBeWord (b.contents.take headerSize)) :=
    if_pos (by rw [b.length_contents]; omega)
  have hpeek : onBuffer (b.peek headerSize) = .ok (b.contents.take headerSize) := by
    rw [StreamBuffer.peek_of_contents (by decide) hsome]
    rfl
  refine .inr ⟨_, hdeclared, ?_⟩
  simp only [if_neg hheader, hpeek]
  generalize ofBeWord (b.contents.take headerSize) = n
  by_cases hmax : maxPayload < n
  · exact .inl ⟨hmax, if_pos hmax⟩
  by_cases hwhole : b.length < headerSize + n
  · exact .inr (.inl ⟨by omega, hwhole, by rw [if_neg hmax, if_pos hwhole]⟩)
  refine .inr (.inr ⟨by omega, by omega, ?_⟩)
  rw [if_neg hmax, if_neg hwhole]
  -- the whole frame is there, so neither operation finds too little
  rcases StreamBuffer.exists_consume (StreamBuffer.isOpen_of_contents hsome)
    (Nat.not_lt.mp hheader) with ⟨body, hbody⟩
  have hrest := StreamBuffer.contents_consume hbody
  have hcapacity := StreamBuffer.capacity_consume hbody
  simp only [hbody, onBuffer_ok]
  by_cases hzero : n = 0
  · rw [if_pos hzero, hzero]
    exact ⟨body, by simp, hrest, StreamBuffer.isOpen_consume hbody, hcapacity⟩
  rw [if_neg hzero]
  have hlength : (b.contents.drop headerSize).length = b.length - headerSize := by
    rw [List.length_drop, b.length_contents]
  have hmore : body.contents ≠ [] := by
    rw [hrest, ← List.length_pos_iff, hlength]
    omega
  rcases StreamBuffer.exists_read hzero hmore with ⟨payload, rest, hread⟩
  rcases StreamBuffer.contents_read hread with ⟨hpayload, hleft, _⟩
  rw [hrest] at hpayload hleft
  have hall : payload.length = n := by
    rw [hpayload, List.length_take, hlength]
    omega
  simp only [hread, onBuffer_ok, hall, ne_eq, not_true, if_false]
  refine ⟨rest, by rw [hpayload], ?_, StreamBuffer.isOpen_read hread,
    (StreamBuffer.capacity_read hread).trans hcapacity⟩
  rw [hleft, List.drop_drop]

variable {b rest : StreamBuffer} {payload frame : Bytes}

/-- What comes out is the payload of the frame that was at the front. -/
theorem frame_of_pop (h : popInPlace b = (.ok (some payload), rest)) :
    ∃ frame, encode payload = .ok frame ∧ b.contents = frame ++ rest.contents ∧
      rest.isOpen = true ∧ rest.capacity = b.capacity := by
  rcases popInPlace_cases b with ⟨_, hcase⟩ | ⟨n, hdeclared, ⟨_, hcase⟩ | ⟨_, _, hcase⟩ |
    ⟨hn, hwhole, rest', hcase, hcontents, hopen, hcapacity⟩⟩
  all_goals
    rw [hcase] at h
    cases h
  rw [← b.length_contents] at hwhole
  refine ⟨_, encode_of_declared? hdeclared hn hwhole, ?_, hopen, hcapacity⟩
  rw [hcontents, List.take_append_drop]

/-- A whole frame at the front comes out. -/
theorem pop_of_frame (hframe : encode payload = .ok frame) (hfront : frame <+: b.contents) :
    ∃ rest, popInPlace b = (.ok (some payload), rest) := by
  rcases hfront with ⟨more, hcontents⟩
  have hlength := length_of_encode hframe
  have hpayload := (encode_eq_ok.mp hframe).1
  have hwhole : headerSize + payload.length ≤ b.length := by
    rw [← b.length_contents, ← hcontents, List.length_append]
    omega
  have hdeclared' := declared?_of_encode hframe more
  rw [hcontents] at hdeclared'
  -- the frame is whole and its length is within bounds, so only one way is left
  rcases popInPlace_cases b with ⟨hnone, _⟩ | ⟨n, hdeclared, ⟨hmax, _⟩ | ⟨_, hless, _⟩ |
    ⟨hn, _, rest, hcase, _⟩⟩
  · rw [hnone] at hdeclared'
    cases hdeclared'
  all_goals
    rw [hdeclared'] at hdeclared
    cases hdeclared
  · omega
  · omega
  · -- the bytes behind the header are the payload
    have hbody : b.contents.drop headerSize = payload ++ more := by
      rw [← hcontents, (encode_eq_ok.mp hframe).2, List.append_assoc]
      exact List.drop_left' rfl
    refine ⟨rest, hcase.trans ?_⟩
    rw [hbody, List.take_left' rfl]

/-- The only failure is a header that declares too much. -/
theorem overflow_of_pop {e : FrameError} (h : popInPlace b = (.error e, rest)) :
    ∃ n, e = .overflow n ∧ maxPayload < n ∧ declared? b.contents = some n := by
  rcases popInPlace_cases b with ⟨_, hcase⟩ | ⟨n, hdeclared, ⟨hmax, hcase⟩ | ⟨_, _, hcase⟩ |
    ⟨_, _, _, hcase, _⟩⟩
  all_goals
    rw [hcase] at h
    cases h
  exact ⟨n, rfl, hmax, hdeclared⟩

/-- Only a frame that comes out changes the buffer. -/
theorem popInPlace_unchanged {answer : Except FrameError (Option Bytes)}
    (h : popInPlace b = (answer, rest)) (hnone : ∀ payload, answer ≠ .ok (some payload)) :
    rest = b := by
  rcases popInPlace_cases b with ⟨_, hcase⟩ | ⟨n, _, ⟨_, hcase⟩ | ⟨_, _, hcase⟩ |
    ⟨_, _, _, hcase, _⟩⟩
  all_goals
    rw [hcase] at h
    cases h
  · rfl
  · rfl
  · rfl
  · exact absurd rfl (hnone _)

/-- Bytes that start neither with a whole frame nor with a header that declares too much. -/
structure Incomplete (bytes : Bytes) : Prop where
  cut : ∀ payload frame, encode payload = .ok frame → ¬ frame <+: bytes
  fits : ∀ n, declared? bytes = some n → n ≤ maxPayload

theorem incomplete_nil : Incomplete [] where
  cut payload frame hframe hfront := by
    have hlength := length_of_encode hframe
    rw [List.prefix_nil.mp hfront, List.length_nil, headerSize] at hlength
    omega
  fits n hdeclared := by cases hdeclared

/-- Nothing comes out just as long as nothing can be told of the first frame but its length. -/
theorem popInPlace_eq_none : popInPlace b = (.ok none, b) ↔ Incomplete b.contents := by
  constructor
  · intro h
    refine ⟨fun payload frame hframe hfront => ?_, fun n hdeclared => ?_⟩
    · rcases pop_of_frame hframe hfront with ⟨rest, hpop⟩
      rw [h] at hpop
      cases hpop
    · rcases popInPlace_cases b with ⟨hnone, _⟩ | ⟨n', hdeclared', ⟨_, hcase⟩ | ⟨hn, _⟩ |
        ⟨hn, _⟩⟩
      · rw [hnone] at hdeclared
        cases hdeclared
      · rw [h] at hcase
        cases hcase
      all_goals
        rw [hdeclared] at hdeclared'
        cases hdeclared'
        exact hn
  · intro hincomplete
    -- an error would need a length out of bounds, and a frame one that is whole
    rcases hpop : popInPlace b with ⟨e | _ | payload, rest⟩
    · rcases overflow_of_pop hpop with ⟨n, _, hn, hdeclared⟩
      have := hincomplete.fits n hdeclared
      omega
    · rw [popInPlace_unchanged hpop (by simp)]
    · rcases frame_of_pop hpop with ⟨frame, hframe, hcontents, _⟩
      exact absurd ⟨_, hcontents.symm⟩ (hincomplete.cut payload frame hframe)

theorem popInPlace_eq (b : StreamBuffer) :
    popInPlace b = match pop b with
      | .ok none => (.ok none, b)
      | .ok (some (payload, rest)) => (.ok (some payload), rest)
      | .error e => (.error e, b) := by
  rw [pop_eq]
  rcases hpop : popInPlace b with ⟨e | _ | payload, rest⟩
  · rw [popInPlace_unchanged hpop (by simp)]
  · rw [popInPlace_unchanged hpop (by simp)]
  · rfl

theorem pop_eq_none : pop b = .ok none ↔ Incomplete b.contents := by
  rw [← popInPlace_eq_none, popInPlace_eq]
  rcases pop b with e | _ | ⟨payload, rest⟩ <;> simp

/-- All that can come of `pop`: it waits, or the header declares too much, or the frame at the front
comes out. -/
theorem pop_cases (b : StreamBuffer) :
    (pop b = .ok none ∧ Incomplete b.contents) ∨
    (∃ n, pop b = .error (.overflow n) ∧ maxPayload < n ∧ declared? b.contents = some n) ∨
    ∃ payload frame rest, pop b = .ok (some (payload, rest)) ∧ encode payload = .ok frame ∧
      b.contents = frame ++ rest.contents := by
  have hplace := popInPlace_eq b
  cases hpop : pop b with
  | error e =>
      rw [hpop] at hplace
      rcases overflow_of_pop hplace with ⟨n, rfl, hmax, hdeclared⟩
      exact .inr (.inl ⟨n, rfl, hmax, hdeclared⟩)
  | ok out =>
      rcases out with _ | ⟨payload, rest⟩
      · exact .inl ⟨rfl, pop_eq_none.mp hpop⟩
      · rw [hpop] at hplace
        rcases frame_of_pop hplace with ⟨frame, hframe, hcontents, _⟩
        exact .inr (.inr ⟨payload, frame, rest, rfl, hframe, hcontents⟩)

/-! ## A stream in pieces -/

/-- More bytes do not change what a header declares. -/
theorem declared?_of_prefix {bytes bytes' : Bytes} {n : Nat} (hfront : bytes <+: bytes')
    (h : declared? bytes = some n) : declared? bytes' = some n := by
  rcases hfront with ⟨more, rfl⟩
  rw [declared?] at h ⊢
  split at h
  · rename_i hheader
    rw [if_pos (by rw [List.length_append]; omega), List.take_append_of_le_length hheader]
    exact h
  · cases h

/-- The frame at the front of a stream of frames is its first one. -/
theorem head_of_encodeAll {payloads : List Bytes} {stream : Bytes}
    (hstream : encodeAll payloads = .ok stream) (hframe : encode payload = .ok frame)
    (hfront : frame <+: stream) :
    ∃ payloads' stream', payloads = payload :: payloads' ∧ encodeAll payloads' = .ok stream' ∧
      stream = frame ++ stream' := by
  rcases hfront with ⟨more, rfl⟩
  have hdeclared := declared?_of_encode hframe more
  cases payloads with
  | nil =>
      rw [encodeAll, Except.ok.injEq] at hstream
      rw [← hstream] at hdeclared
      cases hdeclared
  | cons first payloads' =>
      rcases encodeAll_cons.mp hstream with ⟨frame', stream', hframe', hrest, hsplit⟩
      have hdeclared' := declared?_of_encode hframe' stream'
      rw [← hsplit, hdeclared] at hdeclared'
      -- the two headers declare the same, so the frames have the same length
      have hlength : frame.length = frame'.length := by
        rw [length_of_encode hframe, length_of_encode hframe', Option.some.inj hdeclared']
      rcases List.append_inj hsplit hlength with ⟨rfl, rfl⟩
      have hpayload : payload = first := by
        have hbytes := (encode_eq_ok.mp hframe).2.symm.trans (encode_eq_ok.mp hframe').2
        exact (List.append_inj hbytes rfl).2
      exact ⟨payloads', _, by rw [hpayload], hrest, rfl⟩

/-- No header in a stream of frames declares too much. -/
theorem declared?_le_of_encodeAll {payloads : List Bytes} {stream bytes : Bytes} {n : Nat}
    (hstream : encodeAll payloads = .ok stream) (hfront : bytes <+: stream)
    (h : declared? bytes = some n) : n ≤ maxPayload := by
  have hdeclared := declared?_of_prefix hfront h
  cases payloads with
  | nil =>
      cases hstream
      cases hdeclared
  | cons first payloads =>
      rcases encodeAll_cons.mp hstream with ⟨frame, rest, hframe, _, rfl⟩
      rw [declared?_of_encode hframe] at hdeclared
      rw [← Option.some.inj hdeclared]
      exact (encode_eq_ok.mp hframe).1

/-- What `pop` does at the front of a stream of frames: it waits, or the first frame comes out. -/
theorem popInPlace_of_encodeAll {payloads : List Bytes} {stream : Bytes}
    (hstream : encodeAll payloads = .ok stream) (hfront : b.contents <+: stream) :
    popInPlace b = (.ok none, b) ∨
    ∃ payload payloads' frame stream' b₁, popInPlace b = (.ok (some payload), b₁) ∧
      payloads = payload :: payloads' ∧ encode payload = .ok frame ∧
      encodeAll payloads' = .ok stream' ∧ stream = frame ++ stream' ∧
      b.contents = frame ++ b₁.contents ∧ b₁.isOpen = true ∧ b₁.capacity = b.capacity := by
  rcases hpop : popInPlace b with ⟨e | _ | payload, b₁⟩
  · rcases overflow_of_pop hpop with ⟨n, _, hmax, hdeclared⟩
    have := declared?_le_of_encodeAll hstream hfront hdeclared
    omega
  · cases popInPlace_unchanged hpop (by simp)
    exact .inl rfl
  · rcases frame_of_pop hpop with ⟨frame, hframe, hcontents, hopen₁, hcapacity₁⟩
    -- a frame that stands at the front of the stream is the first of its frames
    have hwhole : frame <+: stream := by
      rw [hcontents] at hfront
      exact (List.prefix_append _ _).trans hfront
    rcases head_of_encodeAll hstream hframe hwhole with ⟨payloads', stream', hhead, hrest, hsplit⟩
    exact .inr ⟨payload, payloads', frame, stream', b₁, rfl, hhead, hframe, hrest, hsplit,
      hcontents, hopen₁, hcapacity₁⟩

/-- Something that is done with a buffer. -/
inductive Use
  | write (piece : Bytes)
  | pop
  deriving DecidableEq, Repr

/-- The bytes that are written. -/
def Use.bytes : Use → Bytes
  | .write piece => piece
  | .pop => []

/-- The bytes that are written piece by piece. -/
def written (uses : List Use) : Bytes := (uses.map Use.bytes).flatten

/-- Do one thing after the other: what `pop` answers each time, and the buffer in the end. There is
no result if a piece does not fit. -/
def run : List Use → StreamBuffer →
    Option (List (Except FrameError (Option Bytes)) × StreamBuffer)
  | [], b => some ([], b)
  | .write piece :: uses, b =>
      match b.write piece with
      | .ok b => run uses b
      | .error _ => none
  | .pop :: uses, b =>
      let (answer, b) := popInPlace b
      (run uses b).map fun out => (answer :: out.1, out.2)

/-- The payloads among the answers of `pop`. -/
def payloadsOf (answers : List (Except FrameError (Option Bytes))) : List Bytes :=
  answers.filterMap fun
    | .ok payload? => payload?
    | .error _ => none

/-- What is left when a part of a stream of frames has been written and some of it taken out. -/
structure Remaining (payloads : List Bytes) (fed : Bytes)
    (answers : List (Except FrameError (Option Bytes))) (b : StreamBuffer) (rest : List Bytes) :
    Prop where
  answered : ∀ e, .error e ∉ answers
  payloads : payloads = payloadsOf answers ++ rest
  bytes : ∃ front, encodeAll (payloadsOf answers) = .ok front ∧ fed = front ++ b.contents

theorem Remaining.of_none {payloads rest : List Bytes} {fed : Bytes}
    {answers : List (Except FrameError (Option Bytes))}
    (h : Remaining payloads fed answers b rest) :
    Remaining payloads fed (.ok none :: answers) b rest where
  answered e he := h.answered e (by simpa using he)
  payloads := h.payloads
  bytes := h.bytes

theorem Remaining.of_some {payload frame fed : Bytes} {payloads rest : List Bytes}
    {answers : List (Except FrameError (Option Bytes))}
    (h : Remaining payloads fed answers b rest) (hframe : encode payload = .ok frame) :
    Remaining (payload :: payloads) (frame ++ fed) (.ok (some payload) :: answers) b rest where
  answered e he := h.answered e (by simpa using he)
  payloads := by
    rw [h.payloads]
    rfl
  bytes := by
    rcases h.bytes with ⟨front, hfront, hbytes⟩
    refine ⟨frame ++ front, encodeAll_cons.mpr ⟨frame, front, hframe, hfront, rfl⟩, ?_⟩
    rw [hbytes, List.append_assoc]

/-- Frames come out in the order of the stream, and only such bytes are gone as came out. -/
theorem remaining_of_run {payloads : List Bytes} {stream : Bytes} {uses : List Use}
    {answers : List (Except FrameError (Option Bytes))} {b' : StreamBuffer}
    (hstream : encodeAll payloads = .ok stream) (hopen : b.isOpen = true)
    (hrun : run uses b = some (answers, b')) (hfed : b.contents ++ written uses <+: stream) :
    b'.isOpen = true ∧ b'.capacity = b.capacity ∧
      ∃ rest, Remaining payloads (b.contents ++ written uses) answers b' rest ∧
        ∃ more, encodeAll rest = .ok more ∧ b'.contents <+: more := by
  -- the stream is fixed from the start, and each frame that comes out is taken off its front
  induction uses generalizing b payloads stream answers with
  | nil =>
      cases hrun
      have hnone : written [] = [] := rfl
      rw [hnone, List.append_nil] at hfed ⊢
      exact ⟨hopen, rfl, payloads, ⟨by simp, rfl, [], rfl, rfl⟩, stream, hstream, hfed⟩
  | cons use uses ih =>
      cases use with
      | write piece =>
          rw [run] at hrun
          have hsplit : b.contents ++ written (.write piece :: uses) =
              b.contents ++ piece ++ written uses := by
            simp [written, Use.bytes]
          cases hwrite : b.write piece with
          | error e =>
              rw [hwrite] at hrun
              cases hrun
          | ok b₁ =>
              rw [hwrite] at hrun
              rw [hsplit, ← StreamBuffer.contents_write hwrite] at hfed ⊢
              rw [← StreamBuffer.capacity_write hwrite]
              exact ih hstream (StreamBuffer.isOpen_write hwrite).2 hrun hfed
      | pop =>
          have hsame : written (.pop :: uses) = written uses := rfl
          rw [hsame] at hfed ⊢
          rw [run] at hrun
          rcases popInPlace_of_encodeAll hstream ((List.prefix_append _ _).trans hfed) with
            hpop | ⟨payload, payloads', frame, stream', b₁, hpop, rfl, hframe, hrest, rfl,
              hcontents, hopen₁, hcapacity₁⟩
          all_goals
            rw [hpop] at hrun
            rcases Option.map_eq_some_iff.mp hrun with ⟨⟨answers', b''⟩, hrun', hout⟩
            cases hout
          · rcases ih hstream hopen hrun' hfed with ⟨hopen', hcapacity, rest, hremaining, hmore⟩
            exact ⟨hopen', hcapacity, rest, hremaining.of_none, hmore⟩
          · rw [hcontents, List.append_assoc] at hfed ⊢
            rcases ih hrest hopen₁ hrun' ((List.prefix_append_right_inj frame).mp hfed) with
              ⟨hopen', hcapacity, rest, hremaining, hmore⟩
            exact ⟨hopen', hcapacity.trans hcapacity₁, rest, hremaining.of_some hframe, hmore⟩

/-! ## Both directions -/

/-- `pop` waits for the next frame of a stream until it is there. -/
theorem pop_eq_none_of_encodeAll {payloads : List Bytes} {stream : Bytes}
    (hstream : encodeAll payloads = .ok stream) (hfront : b.contents <+: stream) :
    pop b = .ok none ↔ ∀ next frame, payloads.head? = some next → encode next = .ok frame →
      ¬ frame <+: b.contents := by
  rw [pop_eq_none]
  constructor
  · intro h next frame _ hframe
    exact h.cut next frame hframe
  · intro h
    refine ⟨fun payload frame hframe hwhole => ?_, fun n hdeclared => ?_⟩
    · rcases head_of_encodeAll hstream hframe (hwhole.trans hfront) with ⟨_, _, rfl, _⟩
      exact h payload frame rfl hframe hwhole
    · exact declared?_le_of_encodeAll hstream hfront hdeclared

/-- A buffer that could hold the next frame and does not has room for more of it. -/
theorem freeSpace_of_pop {payloads : List Bytes} {stream : Bytes}
    (hstream : encodeAll payloads = .ok stream) (hfront : b.contents <+: stream)
    (hopen : b.isOpen = true) (hroom : ∀ p ∈ payloads, headerSize + p.length ≤ b.capacity)
    (hsome : payloads ≠ []) (hpop : pop b = .ok none) : 0 < b.freeSpace := by
  cases payloads with
  | nil => exact absurd rfl hsome
  | cons next payloads =>
      rcases encodeAll_cons.mp hstream with ⟨frame, rest, hframe, _, rfl⟩
      have hpart := (pop_eq_none_of_encodeAll hstream hfront).mp hpop next frame rfl hframe
      have hshort : b.contents.length < frame.length := by
        refine Nat.lt_of_not_le fun hlong => hpart ?_
        exact List.prefix_of_prefix_length_le (List.prefix_append _ _) hfront hlong
      have hfits := hroom next (by simp)
      have hsum := StreamBuffer.length_add_freeSpace hopen
      rw [length_of_encode hframe, b.length_contents] at hshort
      omega

/-- Into an empty buffer with room for every frame, the stream of the encoded payloads is written
piece by piece, and `pop` is called in between: there is never an error, the payloads come out in
their order, the buffer holds the rest of what was written, and `pop` waits exactly as long as the
next frame is not there, for which there is then room. And of any buffer: what comes out is the
payload of the bytes that are gone, the only error is a header that declares too much, and only a
frame that comes out changes the buffer. -/
theorem codec_exact :
    (∀ {payloads : List Bytes}, (∀ p ∈ payloads, p.length ≤ maxPayload) →
      ∃ stream, encodeAll payloads = .ok stream ∧
        ∀ {b b' : StreamBuffer} {uses answers}, b.isOpen = true → b.contents = [] →
          (∀ p ∈ payloads, headerSize + p.length ≤ b.capacity) →
          run uses b = some (answers, b') → written uses <+: stream →
          ∃ rest, Remaining payloads (written uses) answers b' rest ∧
            (pop b' = .ok none ↔ ∀ next frame, rest.head? = some next →
              encode next = .ok frame → ¬ frame <+: b'.contents) ∧
            (pop b' = .ok none → rest ≠ [] → 0 < b'.freeSpace)) ∧
    ∀ b : StreamBuffer,
      (∀ payload rest, pop b = .ok (some (payload, rest)) →
        ∃ frame, encode payload = .ok frame ∧ b.contents = frame ++ rest.contents) ∧
      (∀ e, pop b = .error e →
        ∃ n, e = .overflow n ∧ maxPayload < n ∧ declared? b.contents = some n) ∧
      popInPlace b = match pop b with
        | .ok none => (.ok none, b)
        | .ok (some (payload, rest)) => (.ok (some payload), rest)
        | .error e => (.error e, b) := by
  refine ⟨?_, fun b => ⟨?_, ?_, popInPlace_eq b⟩⟩
  · intro payloads hsizes
    rcases exists_encodeAll hsizes with ⟨stream, hstream⟩
    refine ⟨stream, hstream, ?_⟩
    intro b b' uses answers hopen hempty hroom hrun hfed
    -- what is left of the stream tells what `pop` does next, and that the buffer has room for it
    have hremains := remaining_of_run hstream hopen hrun (by rwa [hempty])
    rw [hempty, List.nil_append] at hremains
    rcases hremains with ⟨hopen', hcapacity, rest, hremaining, more, hmore, hfront⟩
    refine ⟨rest, hremaining, pop_eq_none_of_encodeAll hmore hfront, fun hpop hsome => ?_⟩
    refine freeSpace_of_pop hmore hfront hopen' (fun p hp => ?_) hsome hpop
    rw [hcapacity]
    refine hroom p ?_
    rw [hremaining.payloads]
    exact List.mem_append_right _ hp
  · intro payload rest hpop
    rcases pop_cases b with ⟨hcase, _⟩ | ⟨n, hcase, _⟩ | ⟨_, frame, _, hcase, hframe, hcontents⟩
    all_goals
      rw [hpop] at hcase
      cases hcase
    exact ⟨frame, hframe, hcontents⟩
  · intro e hpop
    rcases pop_cases b with ⟨hcase, _⟩ | ⟨n, hcase, hmax, hdeclared⟩ | ⟨_, _, _, hcase, _⟩
    all_goals
      rw [hpop] at hcase
      cases hcase
    exact ⟨n, rfl, hmax, hdeclared⟩

/-- Three frames and the start of a fourth, through a buffer for six bytes whose cursors stand
before the end of its arena. -/
theorem codec_exact_wrapped :
    let b : StreamBuffer :=
      { isOpen := true
        ring := { arena := #[1, 2, 3, 4, 5, 6], readPos := 5, writePos := 5, full := false
                  readPos_inside := by decide, writePos_inside := by decide
                  full_coincide := by decide } }
    let uses : List Use :=
      [.write [0, 0, 0], .pop, .write [2, 7], .pop, .write [8], .pop, .write [0, 0, 0, 0, 0],
        .pop, .pop, .write [0, 0, 1, 9], .pop, .write [0, 0, 0, 2, 6]]
    ∃ answers b' rest, run uses b = some (answers, b') ∧
      Remaining [[7, 8], [], [9], [6, 5]] (written uses) answers b' rest ∧
      payloadsOf answers = [[7, 8], [], [9]] ∧ pop b' = .ok none ∧ 0 < b'.freeSpace := by
  intro b uses
  have hrun : (run uses b).map (fun out => (payloadsOf out.1, out.2.contents)) =
      some ([[7, 8], [], [9]], [0, 0, 0, 2, 6]) := by
    decide +kernel
  rcases Option.map_eq_some_iff.mp hrun with ⟨⟨answers, b'⟩, hout, hfacts⟩
  simp only [Prod.mk.injEq] at hfacts
  have hsizes : ∀ p ∈ ([[7, 8], [], [9], [6, 5]] : List Bytes), p.length ≤ maxPayload := by decide
  rcases codec_exact.1 hsizes with ⟨stream, hstream, hexact⟩
  have hwritten : written uses <+: stream := by
    cases hstream
    decide
  rcases hexact (b := b) rfl (by decide) (by decide) hout hwritten with
    ⟨rest, hremaining, hwaits, hroom⟩
  have hrest : rest = [[6, 5]] := by
    have hpayloads := hremaining.payloads
    rw [hfacts.1] at hpayloads
    simpa using hpayloads.symm
  have hpop : pop b' = .ok none := by
    refine hwaits.mpr ?_
    rw [hrest, hfacts.2]
    rintro next frame ⟨⟩ ⟨⟩
    decide
  exact ⟨answers, b', rest, hout, hremaining, hfacts.1, hpop, hroom hpop (by simp [hrest])⟩

end TcpReactor.Frame
