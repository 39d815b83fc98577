import Mathlib.Data.Nat.Find
import TcpReactor.Proofs.Http.Lines

namespace TcpReactor.Http

/-! # How long a line may be

Where the first line end starts decides about a line, and without one the number of bytes does:

* `takeLine_of_endsAt`: a line whose end starts within the limit is taken;
* `takeLine_of_not_endsBy`: otherwise it is refused if there are two bytes more than the limit, and
  waited for if not.

`line_limit` says this of every moment at which a parser waits for a line, and of a line that comes
in pieces. With the largest limit there is, the parser fails at every line whose end is not there
yet, since the bound on its bytes does not fit in a word: `overflows_at_largest_limit` is one that
has got the first letter of a line.
-/

/-! ## Where a line ends -/

/-- The first line end starts at the offset `i`. -/
def EndsAt (bytes : Bytes) (i : Nat) : Prop :=
  crlf <+: bytes.drop i ∧ ∀ j < i, ¬ crlf <+: bytes.drop j

/-- A line end starts at an offset of at most `m`. -/
def EndsBy (m : Nat) (bytes : Bytes) : Prop := ∃ i ≤ m, crlf <+: bytes.drop i

theorem EndsAt.unique {bytes : Bytes} {i j : Nat} (hi : EndsAt bytes i) (hj : EndsAt bytes j) :
    i = j := by
  rcases Nat.lt_trichotomy i j with hlt | heq | hlt
  · exact absurd hi.1 (hj.2 i hlt)
  · exact heq
  · exact absurd hj.1 (hi.2 j hlt)

/-- There is a line end by `m` if the first one starts by `m`. -/
theorem endsBy_iff {m : Nat} {bytes : Bytes} : EndsBy m bytes ↔ ∃ i ≤ m, EndsAt bytes i := by
  constructor
  · rintro ⟨i, hi, hend⟩
    have hsome : ∃ i, crlf <+: bytes.drop i := ⟨i, hend⟩
    refine ⟨Nat.find hsome, ?_, Nat.find_spec hsome, fun j hj => Nat.find_min hsome hj⟩
    exact Nat.le_trans (Nat.find_min' hsome hend) hi
  · rintro ⟨i, hi, hend⟩
    exact ⟨i, hi, hend.1⟩

/-- A line end takes two bytes. -/
theorem add_two_le_of_crlf {bytes : Bytes} {i : Nat} (h : crlf <+: bytes.drop i) :
    i + 2 ≤ bytes.length := by
  have hlength := h.length_le
  rw [List.length_drop, crlf] at hlength
  simp only [List.length_cons, List.length_nil] at hlength
  omega

/-- Bytes that come later do not matter for a line end that is there as a whole. -/
theorem crlf_prefix_drop_append {bytes : Bytes} {i : Nat} (more : Bytes)
    (hi : i + 2 ≤ bytes.length) : crlf <+: (bytes ++ more).drop i ↔ crlf <+: bytes.drop i := by
  rw [List.drop_append_of_le_length (by omega)]
  constructor
  · intro h
    refine List.prefix_of_prefix_length_le h (List.prefix_append _ _) ?_
    rw [List.length_drop, crlf]
    simp only [List.length_cons, List.length_nil]
    omega
  · intro h
    exact h.trans (List.prefix_append _ _)

/-- The first line end of a front part that has it as a whole. -/
theorem EndsAt.of_append {bytes more : Bytes} {i : Nat} (h : EndsAt (bytes ++ more) i)
    (hi : i + 2 ≤ bytes.length) : EndsAt bytes i := by
  refine ⟨(crlf_prefix_drop_append more hi).mp h.1, fun j hj hend => h.2 j hj ?_⟩
  exact (crlf_prefix_drop_append more (by omega)).mpr hend

/-- Bytes with a line end in them. -/
theorem EndsAt.eq_append {bytes : Bytes} {i : Nat} (h : EndsAt bytes i) :
    bytes = bytes.take i ++ (crlf ++ bytes.drop (i + 2)) := by
  rcases h.1 with ⟨rest, hrest⟩
  have htail : bytes.drop (i + 2) = rest := by
    rw [← List.drop_drop, ← hrest]
    rfl
  rw [htail, hrest, List.take_append_drop]

theorem EndsBy.infix {m : Nat} {bytes : Bytes} (h : EndsBy m bytes) : crlf <:+: bytes := by
  rcases h with ⟨i, _, hend⟩
  exact hend.isInfix.trans (List.drop_suffix i bytes).isInfix

theorem EndsBy.append {m : Nat} {bytes : Bytes} (h : EndsBy m bytes) (more : Bytes) :
    EndsBy m (bytes ++ more) := by
  rcases h with ⟨i, hi, hend⟩
  exact ⟨i, hi, (crlf_prefix_drop_append more (add_two_le_of_crlf hend)).mpr hend⟩

theorem endsAt_cons_zero {b : UInt8} {bytes : Bytes} :
    EndsAt (b :: bytes) 0 ↔ b = 13 ∧ bytes.head? = some 10 := by
  cases bytes with
  | nil => simp [EndsAt, crlf, List.cons_prefix_cons]
  | cons c bytes => simp [EndsAt, crlf, List.cons_prefix_cons, eq_comm]

theorem endsAt_cons_succ {b : UInt8} {bytes : Bytes} {i : Nat} :
    EndsAt (b :: bytes) (i + 1) ↔ ¬ EndsAt (b :: bytes) 0 ∧ EndsAt bytes i := by
  constructor
  · rintro ⟨hend, hnone⟩
    refine ⟨fun h => hnone 0 (by omega) h.1, hend, fun j hj h => hnone (j + 1) (by omega) h⟩
  · rintro ⟨hzero, hend, hnone⟩
    refine ⟨hend, fun j hj h => ?_⟩
    cases j with
    | zero => exact hzero ⟨h, by simp⟩
    | succ j => exact hnone j (by omega) h

/-- The first line stands before the first line end, and the rest behind it. -/
theorem splitLine?_eq_some_iff {bytes line rest : Bytes} :
    splitLine? bytes = some (line, rest) ↔
      ∃ i, EndsAt bytes i ∧ line = bytes.take i ∧ rest = bytes.drop (i + 2) := by
  -- the line ends here, or where the line that starts one byte later ends
  induction bytes generalizing line with
  | nil =>
      constructor
      · intro h
        cases h
      · rintro ⟨i, hend, _⟩
        have := add_two_le_of_crlf hend.1
        simp at this
  | cons b bytes ih =>
      rw [splitLine?_cons]
      by_cases hend : EndsAt (b :: bytes) 0
      · rw [if_pos (endsAt_cons_zero.mp hend)]
        constructor
        · intro h
          cases h
          exact ⟨0, hend, rfl, by simp⟩
        · rintro ⟨i, hi, rfl, rfl⟩
          rw [hi.unique hend]
          simp
      · rw [if_neg (fun h => hend (endsAt_cons_zero.mpr h)), Option.map_eq_some_iff]
        constructor
        · rintro ⟨⟨line', rest'⟩, hsplit, heq⟩
          cases heq
          rcases ih.mp hsplit with ⟨i, hi, rfl, rfl⟩
          exact ⟨i + 1, endsAt_cons_succ.mpr ⟨hend, hi⟩, rfl, rfl⟩
        · rintro ⟨i, hi, rfl, rfl⟩
          cases i with
          | zero => exact absurd hi hend
          | succ i =>
              refine ⟨(bytes.take i, bytes.drop (i + 2)), ih.mpr ⟨i, ?_, rfl, rfl⟩, rfl⟩
              exact (endsAt_cons_succ.mp hi).2

/-! ## Taken, refused or neither -/

/-- To judge bytes without a line end, the parser needs a bound that does not fit in a word. -/
def Limits.Overflows (limits : Limits) (bytes : Bytes) : Prop :=
  UInt64.size ≤ limits.maxLine.toNat + 1 ∧ ¬ crlf <:+: bytes

instance (limits : Limits) (bytes : Bytes) : Decidable (limits.Overflows bytes) :=
  inferInstanceAs (Decidable (_ ∧ _))

/-- What a parser says of bytes that do not end within the limit: they are refused from two more on,
as the last one may be the first half of a line end. -/
def Limits.unended {α : Type} (limits : Limits) (bytes : Bytes) : Except Failure (Option α) :=
  if limits.Overflows bytes then .error .overflow
  else if limits.maxLine.toNat + 2 ≤ bytes.length then
    .error (.refused (.lineTooLong limits.maxLine.toNat))
  else .ok none

variable {limits : Limits}

/-- The bound cannot be counted, or there are enough bytes, or not. -/
theorem Limits.unended_cases {α : Type} (limits : Limits) (bytes : Bytes) :
    limits.Overflows bytes ∧
        (limits.unended bytes : Except Failure (Option α)) = .error .overflow ∨
      ¬ limits.Overflows bytes ∧ limits.maxLine.toNat + 2 ≤ bytes.length ∧
        (limits.unended bytes : Except Failure (Option α)) =
          .error (.refused (.lineTooLong limits.maxLine.toNat)) ∨
      ¬ limits.Overflows bytes ∧ ¬ limits.maxLine.toNat + 2 ≤ bytes.length ∧
        (limits.unended bytes : Except Failure (Option α)) = .ok none := by
  unfold Limits.unended
  split
  · exact .inl ⟨‹_›, rfl⟩
  · split
    · exact .inr (.inl ⟨‹_›, ‹_›, rfl⟩)
    · exact .inr (.inr ⟨‹_›, ‹_›, rfl⟩)

theorem Limits.unended_eq_overflow {α : Type} {bytes : Bytes} :
    (limits.unended bytes : Except Failure (Option α)) = .error .overflow ↔
      limits.Overflows bytes := by
  rcases limits.unended_cases (α := α) bytes with
    ⟨hoverflows, h⟩ | ⟨hcounts, _, h⟩ | ⟨hcounts, _, h⟩
  · simp [h, hoverflows]
  · simp [h, hcounts]
  · simp [h, hcounts]

theorem Limits.unended_eq_refused {α : Type} {bytes : Bytes} :
    (limits.unended bytes : Except Failure (Option α)) =
        .error (.refused (.lineTooLong limits.maxLine.toNat)) ↔
      limits.maxLine.toNat + 2 ≤ bytes.length ∧ ¬ limits.Overflows bytes := by
  rcases limits.unended_cases (α := α) bytes with
    ⟨hoverflows, h⟩ | ⟨hcounts, hmany, h⟩ | ⟨_, hfew, h⟩
  · simp [h, hoverflows]
  · simp [h, hcounts, hmany]
  · exact iff_of_false (by simp [h]) fun hboth => hfew hboth.1

theorem Limits.unended_eq_none {α : Type} {bytes : Bytes} :
    (limits.unended bytes : Except Failure (Option α)) = .ok none ↔
      bytes.length < limits.maxLine.toNat + 2 ∧ ¬ limits.Overflows bytes := by
  rcases limits.unended_cases (α := α) bytes with
    ⟨hoverflows, h⟩ | ⟨_, hmany, h⟩ | ⟨hcounts, hfew, h⟩
  · simp [h, hoverflows]
  · exact iff_of_false (by simp [h]) fun hboth => Nat.not_lt.mpr hmany hboth.1
  · exact iff_of_true h ⟨Nat.lt_of_not_le hfew, hcounts⟩

/-- Below the largest limit the bound can always be counted. -/
theorem Limits.unended_eq {α : Type} (hmax : limits.maxLine.toNat + 1 < UInt64.size)
    (bytes : Bytes) :
    (limits.unended bytes : Except Failure (Option α)) =
      if limits.maxLine.toNat + 2 ≤ bytes.length then
        .error (.refused (.lineTooLong limits.maxLine.toNat))
      else .ok none :=
  if_neg fun hoverflows => Nat.not_lt.mpr hoverflows.1 hmax

theorem takeLine_of_endsAt {bytes : Bytes} {i : Nat} (hi : i ≤ limits.maxLine.toNat)
    (h : EndsAt bytes i) :
    takeLine limits bytes = .ok (some (bytes.take i, bytes.drop (i + 2))) := by
  refine takeLine_eq_some.mpr ⟨splitLine?_eq_some_iff.mpr ⟨i, h, rfl, rfl⟩, ?_⟩
  exact Nat.le_trans (List.length_take_le i bytes) hi

theorem takeLine_of_not_endsBy {bytes : Bytes} (h : ¬ EndsBy limits.maxLine.toNat bytes) :
    takeLine limits bytes = limits.unended bytes := by
  rw [takeLine, Limits.unended]
  split
  · -- no line end at all, so the bytes are counted
    rename_i hnone
    have hnever := splitLine?_eq_none.mp hnone
    by_cases hmax : limits.maxLine.toNat + 1 < UInt64.size
    · rw [Limits.lineRoom?, if_pos hmax,
        if_neg (fun hoverflows => Nat.not_lt.mpr hoverflows.1 hmax)]
      rfl
    · rw [Limits.lineRoom?, if_neg hmax, if_pos ⟨Nat.le_of_not_lt hmax, hnever⟩]
  · -- a line that is there with its end is not counted, and has enough bytes to be refused
    rename_i line rest hsplit
    have hsome : ¬ limits.Overflows bytes := by
      intro hoverflows
      rw [splitLine?_eq_none.mpr hoverflows.2] at hsplit
      cases hsplit
    rcases splitLine?_eq_some_iff.mp hsplit with ⟨i, hi, rfl, rfl⟩
    have hlong : limits.maxLine.toNat < i := by
      refine Nat.lt_of_not_le fun hle => h (endsBy_iff.mpr ⟨i, hle, hi⟩)
    have hlength := add_two_le_of_crlf hi.1
    rw [if_neg hsome, if_pos, if_pos]
    · omega
    · rw [List.length_take]
      omega

/-! ## Moments of a call -/

/-- The parser waits for a request line or a header line. -/
def Stage.WantsLine (stage : Stage) : Prop :=
  ∀ first fields length, stage ≠ .body first fields length

/-- What becomes of a scan that has taken a line. -/
def Stage.follow (limits : Limits) (stage : Stage) (line rest : Bytes) : Stop :=
  match utf8Decode? line with
  | none => ⟨.error (.refused .invalidEncoding), stage, rest⟩
  | some line =>
      match stage.accept limits line with
      | .error e => ⟨.error (.refused e), stage, rest⟩
      | .ok (.request request) => ⟨.ok (some request), .requestLine, rest⟩
      | .ok (.stage next) => scan limits next rest

/-- A scan of `bytes` in a stage comes to the stage `next` with the bytes `rest` left, by taking
lines. -/
inductive Stage.Reaches (limits : Limits) (stage : Stage) (bytes : Bytes) : Stage → Bytes → Prop
  | start : Reaches limits stage bytes stage bytes
  | line {at' next : Stage} {bytes' line rest : Bytes} {text : String} :
      Reaches limits stage bytes at' bytes' → at'.WantsLine →
      takeLine limits bytes' = .ok (some (line, rest)) → utf8Decode? line = some text →
      at'.accept limits text = .ok (.stage next) → Reaches limits stage bytes next rest

variable {stage next : Stage} {bytes rest : Bytes}

theorem Stage.Reaches.scan_eq (h : stage.Reaches limits bytes next rest) :
    scan limits next rest = scan limits stage bytes := by
  induction h with
  | start => rfl
  | line _ hwants htaken hutf8 haccept ih => rw [← ih, scan_of_stage hwants htaken hutf8 haccept]

theorem scan_of_endsAt (hwants : stage.WantsLine) {i : Nat} (hi : i ≤ limits.maxLine.toNat)
    (h : EndsAt bytes i) :
    scan limits stage bytes = stage.follow limits (bytes.take i) (bytes.drop (i + 2)) := by
  rw [scan_line limits hwants, takeLine_of_endsAt hi h]
  rfl

theorem scan_of_not_endsBy (hwants : stage.WantsLine)
    (h : ¬ EndsBy limits.maxLine.toNat bytes) :
    scan limits stage bytes = ⟨limits.unended bytes, stage, bytes⟩ := by
  rw [scan_line limits hwants, takeLine_of_not_endsBy h]
  -- the answer is the same of a line as of a request
  rcases limits.unended_cases (α := Bytes × Bytes) bytes with
    ⟨hoverflows, hline⟩ | ⟨hcounts, hmany, hline⟩ | ⟨hcounts, hfew, hline⟩
  · rw [hline, Limits.unended_eq_overflow.mpr hoverflows]
  · rw [hline, Limits.unended_eq_refused.mpr ⟨hmany, hcounts⟩]
  · rw [hline, Limits.unended_eq_none.mpr ⟨Nat.lt_of_not_le hfew, hcounts⟩]

/-- A scan uses bytes up. -/
theorem length_unread_scan (limits : Limits) (stage : Stage) (bytes : Bytes) :
    (scan limits stage bytes).unread.length ≤ bytes.length := by
  -- a line or a body that is taken leaves less, and everything else leaves the bytes alone
  induction stage, bytes using scan.induct limits with
  | case1 bytes first fields length hshort =>
      rw [scan_body, if_pos hshort]
  | case2 bytes first fields length hlong =>
      rw [scan_body, if_neg hlong, List.length_drop]
      exact Nat.sub_le _ _
  | case3 bytes stage hstage e htaken =>
      rw [scan_line limits hstage, htaken]
  | case4 bytes stage hstage htaken =>
      rw [scan_line limits hstage, htaken]
  | case5 bytes stage hstage line rest htaken hutf8 =>
      rw [scan_line limits hstage, htaken]
      simp only [hutf8]
      exact Nat.le_of_lt (length_of_takeLine htaken)
  | case6 bytes stage hstage line rest htaken text hutf8 e haccept =>
      rw [scan_line limits hstage, htaken]
      simp only [hutf8, haccept]
      exact Nat.le_of_lt (length_of_takeLine htaken)
  | case7 bytes stage hstage line rest htaken text hutf8 request haccept =>
      rw [scan_of_request hstage htaken hutf8 haccept]
      exact Nat.le_of_lt (length_of_takeLine htaken)
  | case8 bytes stage hstage line rest htaken text hutf8 next haccept ih =>
      rw [scan_of_stage hstage htaken hutf8 haccept]
      exact Nat.le_trans ih (Nat.le_of_lt (length_of_takeLine htaken))

theorem length_unread_follow (limits : Limits) (stage : Stage) (line rest : Bytes) :
    (stage.follow limits line rest).unread.length ≤ rest.length := by
  rw [Stage.follow]
  split
  · exact Nat.le_refl _
  · split
    · exact Nat.le_refl _
    · exact Nat.le_refl _
    · exact length_unread_scan limits _ rest

/-- A scan that waits for a line takes one if and only if a line end starts within the limit. -/
theorem length_unread_scan_lt_iff (hwants : stage.WantsLine) :
    (scan limits stage bytes).unread.length < bytes.length ↔
      EndsBy limits.maxLine.toNat bytes := by
  constructor
  · intro hless
    refine Classical.byContradiction fun hnone => ?_
    rw [scan_of_not_endsBy hwants hnone] at hless
    exact Nat.lt_irrefl _ hless
  · intro hends
    rcases endsBy_iff.mp hends with ⟨i, hi, hend⟩
    rw [scan_of_endsAt hwants hi hend]
    have hfollow := length_unread_follow limits stage (bytes.take i) (bytes.drop (i + 2))
    have hlength := add_two_le_of_crlf hend.1
    rw [List.length_drop] at hfollow
    omega

/-- What a scan that waits for a line says about it without taking it. -/
theorem scan_eq_iff (hwants : stage.WantsLine) {result : Except Failure (Option Request)} :
    (scan limits stage bytes).result = result ∧ (scan limits stage bytes).unread = bytes ↔
      limits.unended bytes = result ∧ ¬ EndsBy limits.maxLine.toNat bytes := by
  constructor
  · rintro ⟨hresult, hunread⟩
    have hnone : ¬ EndsBy limits.maxLine.toNat bytes := by
      intro hends
      have hless := (length_unread_scan_lt_iff hwants).mpr hends
      rw [hunread] at hless
      exact Nat.lt_irrefl _ hless
    rw [scan_of_not_endsBy hwants hnone] at hresult
    exact ⟨hresult, hnone⟩
  · rintro ⟨hresult, hnone⟩
    rw [scan_of_not_endsBy hwants hnone]
    exact ⟨hresult, rfl⟩

/-! ## Calls -/

namespace Parser

/-- Ask once with each of the buffers, as long as the parser waits. -/
def askEach (p : Parser) : List StreamBuffer → Except Failure (Option Request) × Parser
  | [] => (.ok none, p)
  | b :: buffers =>
      match p.nextRequest b with
      | (.ok none, p, _) => p.askEach buffers
      | (answer, p, _) => (answer, p)

end Parser

/-- What the buffers hold, one after the other. -/
def joined (buffers : List StreamBuffer) : Bytes := (buffers.map StreamBuffer.contents).flatten

theorem append_joined_cons (bytes : Bytes) (b : StreamBuffer) (buffers : List StreamBuffer) :
    bytes ++ joined (b :: buffers) = bytes ++ b.contents ++ joined buffers := by
  rw [joined, List.map_cons, List.flatten_cons, ← List.append_assoc]
  rfl

namespace Parser

variable {p : Parser} {b : StreamBuffer} {buffers : List StreamBuffer}

/-- Without a line end in reach, a parser that waits for a line keeps all bytes. -/
theorem nextRequest_of_not_endsBy (hok : p.failed = none) (hwants : p.stage.WantsLine)
    (hopen : b.isOpen = true) (h : ¬ EndsBy p.limits.maxLine.toNat (p.unread ++ b.contents)) :
    ∃ b', p.nextRequest b = (p.limits.unended (p.unread ++ b.contents),
      p.stopped ⟨p.limits.unended (p.unread ++ b.contents), p.stage, p.unread ++ b.contents⟩,
      b') := by
  rcases nextRequest_eq_scan hok hopen with ⟨b', _, _, hnext⟩
  refine ⟨b', ?_⟩
  rw [hnext, scan_of_not_endsBy hwants h]

/-- A parser that waits for a line is asked with the next buffer if it still waits. -/
theorem askEach_cons_of_not_endsBy (hok : p.failed = none) (hwants : p.stage.WantsLine)
    (hopen : b.isOpen = true) (h : ¬ EndsBy p.limits.maxLine.toNat (p.unread ++ b.contents))
    (buffers : List StreamBuffer) :
    p.askEach (b :: buffers) =
      if (p.limits.unended (p.unread ++ b.contents) : Except Failure (Option Request)) = .ok none
      then askEach { p with unread := p.unread ++ b.contents } buffers
      else (p.limits.unended (p.unread ++ b.contents), p.stopped
        ⟨p.limits.unended (p.unread ++ b.contents), p.stage, p.unread ++ b.contents⟩) := by
  rcases nextRequest_of_not_endsBy hok hwants hopen h with ⟨b', hnext⟩
  rw [askEach, hnext]
  by_cases hwaits :
      (p.limits.unended (p.unread ++ b.contents) : Except Failure (Option Request)) = .ok none
  · rw [if_pos hwaits, hwaits]
    -- an answer that is no error leaves the parser as it was, but for the bytes
    simp only [stopped]
    rw [← hok]
  · rw [if_neg hwaits]
    split
    · rename_i hanswer
      exact absurd (congrArg Prod.fst hanswer) hwaits
    · rename_i hanswer
      rw [← (Prod.mk.inj hanswer).1, ← (Prod.mk.inj (Prod.mk.inj hanswer).2).1]

/-- A line that does not end within the limit is never taken, however it comes. -/
theorem askEach_of_not_endsBy (hok : p.failed = none) (hwants : p.stage.WantsLine)
    (hopen : ∀ b ∈ buffers, b.isOpen = true)
    (h : ¬ EndsBy p.limits.maxLine.toNat (p.unread ++ joined buffers)) :
    (p.askEach buffers).2.stage = p.stage ∧
      (p.askEach buffers).2.unread <+: p.unread ++ joined buffers := by
  induction buffers generalizing p with
  | nil => exact ⟨rfl, List.prefix_append _ _⟩
  | cons b buffers ih =>
      rcases List.forall_mem_cons.mp hopen with ⟨hfirst, hrest⟩
      rw [append_joined_cons] at h ⊢
      have hnone : ¬ EndsBy p.limits.maxLine.toNat (p.unread ++ b.contents) :=
        fun hends => h (hends.append _)
      rw [askEach_cons_of_not_endsBy hok hwants hfirst hnone]
      split
      · exact ih hok hwants hrest h
      · exact ⟨rfl, List.prefix_append _ _⟩

/-- It is refused as soon as there are bytes enough. -/
theorem askEach_eq_of_not_endsBy (hmax : p.limits.maxLine.toNat + 1 < UInt64.size)
    (hok : p.failed = none) (hwants : p.stage.WantsLine) (hopen : ∀ b ∈ buffers, b.isOpen = true)
    (hfew : p.unread.length < p.limits.maxLine.toNat + 2)
    (h : ¬ EndsBy p.limits.maxLine.toNat (p.unread ++ joined buffers)) :
    (p.askEach buffers).1 =
      if p.limits.maxLine.toNat + 2 ≤ (p.unread ++ joined buffers).length then
        .error (.refused (.lineTooLong p.limits.maxLine.toNat))
      else .ok none := by
  -- the parser has not got enough bytes yet; it goes on until the first buffer that brings them
  induction buffers generalizing p with
  | nil =>
      simp only [joined, List.map_nil, List.flatten_nil, List.append_nil]
      rw [if_neg (Nat.not_le.mpr hfew)]
      rfl
  | cons b buffers ih =>
      rcases List.forall_mem_cons.mp hopen with ⟨hfirst, hrest⟩
      rw [append_joined_cons] at h ⊢
      have hnone : ¬ EndsBy p.limits.maxLine.toNat (p.unread ++ b.contents) :=
        fun hends => h (hends.append _)
      rw [askEach_cons_of_not_endsBy hok hwants hfirst hnone, Limits.unended_eq hmax]
      by_cases hmany : p.limits.maxLine.toNat + 2 ≤ (p.unread ++ b.contents).length
      · rw [if_pos hmany, if_neg (by simp), if_pos]
        rw [List.length_append]
        omega
      · rw [if_neg hmany, if_pos rfl]
        exact ih hmax hok hwants hrest (Nat.lt_of_not_le hmany) h

/-- A line that ends within the limit is taken by the call that completes its end, however it
comes. -/
theorem askEach_of_endsAt {i : Nat} (hmax : p.limits.maxLine.toNat + 1 < UInt64.size)
    (hok : p.failed = none) (hwants : p.stage.WantsLine) (hopen : ∀ b ∈ buffers, b.isOpen = true)
    (hi : i ≤ p.limits.maxLine.toNat) (hnew : p.unread.length < i + 2)
    (h : EndsAt (p.unread ++ joined buffers) i) :
    ∃ before b after, buffers = before ++ b :: after ∧
      p.askEach before = (.ok none, { p with unread := p.unread ++ joined before }) ∧
      EndsAt (p.unread ++ joined before ++ b.contents) i := by
  -- the buffers are gone through up to the one that makes the end of the line whole
  induction buffers generalizing p with
  | nil =>
      have hlength := add_two_le_of_crlf h.1
      simp only [joined, List.map_nil, List.flatten_nil, List.append_nil] at hlength
      omega
  | cons b buffers ih =>
      rcases List.forall_mem_cons.mp hopen with ⟨hfirst, hrest⟩
      rw [append_joined_cons] at h
      by_cases hwhole : i + 2 ≤ (p.unread ++ b.contents).length
      · refine ⟨[], b, buffers, rfl, ?_, ?_⟩
        · simp only [joined, List.map_nil, List.flatten_nil, List.append_nil]
          rfl
        · simp only [joined, List.map_nil, List.flatten_nil, List.append_nil]
          exact h.of_append hwhole
      · -- the end is not there yet, and there are not enough bytes to refuse the line
        have hnone : ¬ EndsBy p.limits.maxLine.toNat (p.unread ++ b.contents) := by
          intro hends
          rcases endsBy_iff.mp hends with ⟨j, _, hj⟩
          have hlength := add_two_le_of_crlf hj.1
          refine h.2 j (by omega) ((crlf_prefix_drop_append _ hlength).mpr hj.1)
        have hwaits : (p.limits.unended (p.unread ++ b.contents) :
            Except Failure (Option Request)) = .ok none := by
          rw [Limits.unended_eq hmax, if_neg (by omega)]
        rcases @ih { p with unread := p.unread ++ b.contents } hmax hok hwants hrest hi
          (Nat.lt_of_not_le hwhole) h with ⟨before, c, after, rfl, hasked, hends⟩
        refine ⟨b :: before, c, after, rfl, ?_, ?_⟩
        · rw [askEach_cons_of_not_endsBy hok hwants hfirst hnone, if_pos hwaits, hasked,
            append_joined_cons]
        · rw [append_joined_cons]
          exact hends

end Parser

/-! ## The limit -/

/-- What a call with this answer, after which the parser is in the stage `last` with `unread` left,
made of a line for which the parser waited in `stage` with `bytes` left. -/
structure Judged (limits : Limits) (stage : Stage) (bytes : Bytes)
    (answer : Except Failure (Option Request)) (last : Stage) (unread : Bytes) : Prop where
  /-- The bound could not be counted. -/
  overflowed : answer = .error .overflow ∧ unread = bytes ↔ limits.Overflows bytes
  /-- It was refused. -/
  refused : answer = .error (.refused (.lineTooLong limits.maxLine.toNat)) ∧ unread = bytes ↔
    limits.maxLine.toNat + 2 ≤ bytes.length ∧ ¬ EndsBy limits.maxLine.toNat bytes ∧
      ¬ limits.Overflows bytes
  /-- It was taken. -/
  taken : unread.length < bytes.length ↔ EndsBy limits.maxLine.toNat bytes
  /-- It was this one, and the call went on with what stands behind its end. -/
  line : ∀ i ≤ limits.maxLine.toNat, EndsAt bytes i →
    ⟨answer, last, unread⟩ = stage.follow limits (bytes.take i) (bytes.drop (i + 2))
  /-- It was waited for. -/
  awaited : answer = .ok none ∧ unread = bytes ↔
    bytes.length < limits.maxLine.toNat + 2 ∧ ¬ EndsBy limits.maxLine.toNat bytes ∧
      ¬ limits.Overflows bytes

theorem judged_of_scan {limits : Limits} {stage : Stage} {bytes : Bytes}
    (hwants : stage.WantsLine) :
    Judged limits stage bytes (scan limits stage bytes).result (scan limits stage bytes).stage
      (scan limits stage bytes).unread where
  overflowed := by
    rw [scan_eq_iff hwants, Limits.unended_eq_overflow, and_iff_left_iff_imp]
    exact fun hoverflows hends => hoverflows.2 hends.infix
  refused := by
    rw [scan_eq_iff hwants, Limits.unended_eq_refused, and_assoc, and_comm (a := ¬ _)]
  taken := length_unread_scan_lt_iff hwants
  line i hi hend := scan_of_endsAt hwants hi hend
  awaited := by
    rw [scan_eq_iff hwants, Limits.unended_eq_none, and_assoc, and_comm (a := ¬ _)]

/-- At every moment of a call at which a parser waits for a line, the line is taken if its end
starts within the limit; otherwise it is refused or waited for, and the number of bytes decides. Of
a line that comes in pieces, with one call for each, this means: it is never taken if it is longer
than the limit, and if it is not, then it is taken as soon as its end is whole. No call overflows
unless the limit is the largest there is, where every call does that finds no line end. -/
theorem line_limit {p : Parser} (hok : p.failed = none) :
    (p.limits.maxLine.toNat + 1 < UInt64.size →
      ∀ b : StreamBuffer, (p.nextRequest b).1 ≠ .error .overflow) ∧
    (∀ b : StreamBuffer, b.isOpen = true → ∀ stage bytes,
      p.stage.Reaches p.limits (p.unread ++ b.contents) stage bytes → stage.WantsLine →
      Judged p.limits stage bytes (p.nextRequest b).1 (p.nextRequest b).2.1.stage
        (p.nextRequest b).2.1.unread) ∧
    ∀ buffers : List StreamBuffer, (∀ b ∈ buffers, b.isOpen = true) → p.stage.WantsLine →
      (¬ EndsBy p.limits.maxLine.toNat (p.unread ++ joined buffers) →
        (p.askEach buffers).2.stage = p.stage ∧
          (p.askEach buffers).2.unread <+: p.unread ++ joined buffers ∧
          (p.limits.maxLine.toNat + 1 < UInt64.size →
            p.unread.length < p.limits.maxLine.toNat + 2 →
            (p.askEach buffers).1 =
              if p.limits.maxLine.toNat + 2 ≤ (p.unread ++ joined buffers).length then
                .error (.refused (.lineTooLong p.limits.maxLine.toNat))
              else .ok none)) ∧
      (p.limits.maxLine.toNat + 1 < UInt64.size →
        ∀ i ≤ p.limits.maxLine.toNat, EndsAt (p.unread ++ joined buffers) i →
        p.unread.length < i + 2 →
        ∃ before b after p' rest, buffers = before ++ b :: after ∧
          p' = { p with unread := p.unread ++ joined before } ∧
          p.askEach before = (.ok none, p') ∧
          p'.unread ++ b.contents =
            (p.unread ++ joined buffers).take i ++ (crlf ++ rest) ∧
          ⟨(p'.nextRequest b).1, (p'.nextRequest b).2.1.stage, (p'.nextRequest b).2.1.unread⟩ =
            p.stage.follow p.limits ((p.unread ++ joined buffers).take i) rest) := by
  -- a single call is judged by the scan it makes, and a line in pieces by the calls one by one
  refine ⟨fun hmax b => ?_, fun b hopen stage bytes hreaches hwants => ?_,
    fun buffers hopen hwants => ⟨fun hnone => ?_, fun hmax i hi hend hnew => ?_⟩⟩
  · exact Parser.nextRequest_ne_overflow b (Nat.lt_sub_of_add_lt hmax)
  · rcases Parser.nextRequest_eq_scan hok hopen with ⟨b', _, _, hnext⟩
    rw [hnext, ← hreaches.scan_eq]
    exact judged_of_scan hwants
  · obtain ⟨hstage, hunread⟩ := Parser.askEach_of_not_endsBy hok hwants hopen hnone
    exact ⟨hstage, hunread, fun hmax hfew =>
      Parser.askEach_eq_of_not_endsBy hmax hok hwants hopen hfew hnone⟩
  · rcases Parser.askEach_of_endsAt hmax hok hwants hopen hi hnew hend with
      ⟨before, b, after, rfl, hasked, hends⟩
    -- what comes behind `b` does not belong to the line
    have hall : p.unread ++ joined (before ++ b :: after) =
        p.unread ++ joined before ++ b.contents ++ joined after := by
      simp [joined]
    have hline : (p.unread ++ joined (before ++ b :: after)).take i =
        (p.unread ++ joined before ++ b.contents).take i := by
      have hlength := add_two_le_of_crlf hends.1
      rw [hall, List.take_append_of_le_length (by omega)]
    refine ⟨before, b, after, _, (p.unread ++ joined before ++ b.contents).drop (i + 2), rfl, rfl,
      hasked, ?_, ?_⟩
    · rw [hline]
      exact hends.eq_append
    · rcases @Parser.nextRequest_eq_scan { p with unread := p.unread ++ joined before } b hok
        (hopen b (by simp)) with ⟨b', _, _, hnext⟩
      rw [hnext, hline]
      exact scan_of_endsAt hwants hi hends

/-- A request line as long as the limit, with its end cut in two, and a header line that is longer
by one byte. -/
theorem line_limit_tight :
    let limits : Limits := { maxLine := 14 }
    let holding (text : String) : StreamBuffer :=
      { ring := ((RingBuffer.new 64).write (utf8 text)).2, isOpen := true }
    let p : Parser := { limits }
    (∃ before b after, [holding "GET / HTTP", holding "/1.1\r", holding "\nHost"] =
        before ++ b :: after ∧
      ∃ p' rest, p.askEach before = (.ok none, p') ∧
        p'.unread ++ b.contents = utf8 "GET / HTTP/1.1" ++ (crlf ++ rest) ∧
        ⟨(p'.nextRequest b).1, (p'.nextRequest b).2.1.stage, (p'.nextRequest b).2.1.unread⟩ =
          Stage.requestLine.follow limits (utf8 "GET / HTTP/1.1") rest) ∧
    let b := holding "GET / HTTP/1.1\r\nHost: 127.0.0.1\r\n"
    (p.nextRequest b).1 = .error (.refused (.lineTooLong 14)) ∧
      (p.nextRequest b).2.1.unread = utf8 "Host: 127.0.0.1\r\n" := by
  intro limits holding p
  obtain ⟨_, hmoments, hpieces⟩ := @line_limit p rfl
  have hwants : p.stage.WantsLine := by
    intro _ _ _ h
    cases h
  constructor
  · have hends : EndsAt (p.unread ++ joined [holding "GET / HTTP", holding "/1.1\r",
        holding "\nHost"]) 14 := ⟨by decide +kernel, by decide +kernel⟩
    rcases (hpieces _ (by simp [holding]) hwants).2 (by decide) 14 (by decide) hends (by decide)
      with ⟨before, b, after, p', rest, hbuffers, _, hasked, hbytes, hfollow⟩
    have hline : (p.unread ++ joined [holding "GET / HTTP", holding "/1.1\r",
        holding "\nHost"]).take 14 = utf8 "GET / HTTP/1.1" := by decide +kernel
    rw [hline] at hbytes hfollow
    exact ⟨before, b, after, hbuffers, p', rest, hasked, hbytes, hfollow⟩
  · intro b
    let first : RequestLine := { method := "GET", target := "/", version := "HTTP/1.1" }
    have htaken : takeLine limits (p.unread ++ b.contents) =
        .ok (some (utf8 "GET / HTTP/1.1", utf8 "Host: 127.0.0.1\r\n")) := by decide +kernel
    have hutf8 : utf8Decode? (utf8 "GET / HTTP/1.1") = some "GET / HTTP/1.1" := by decide +kernel
    have haccept : p.stage.accept limits "GET / HTTP/1.1" = .ok (.stage (.headers first [])) := by
      decide +kernel
    -- the header line is waited for within the same call that has taken the request line
    have hreaches := Stage.Reaches.line .start hwants htaken hutf8 haccept
    have hheader : (Stage.headers first []).WantsLine := by
      intro _ _ _ h
      cases h
    refine (hmoments b rfl _ _ hreaches hheader).refused.mpr ⟨by decide +kernel, ?_, ?_⟩
    · rintro ⟨i, hi, hend⟩
      have hnone : ∀ i ≤ 14, ¬ crlf <+: (utf8 "Host: 127.0.0.1\r\n").drop i := by decide +kernel
      exact hnone i hi hend
    · exact fun hoverflows => absurd hoverflows.1 (by decide)

/-- The first letter of a line of at most 2 ^ 64 - 1 bytes makes the parser overflow, although it is
fewer bytes than two more than that and no line end is among them. -/
theorem overflows_at_largest_limit :
    let limits : Limits := { maxLine := 18446744073709551615 }
    let b : StreamBuffer := { ring := ((RingBuffer.new 64).write (utf8 "G")).2, isOpen := true }
    b.contents = utf8 "G" ∧ b.contents.length < limits.maxLine.toNat + 2 ∧
      (({ limits } : Parser).nextRequest b).1 = .error .overflow := by
  intro limits b
  exact ⟨by decide +kernel, by decide +kernel, by decide +kernel⟩

end TcpReactor.Http
