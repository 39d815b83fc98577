import TcpReactor.Proofs.Http.Grammar
import TcpReactor.Proofs.Service.HttpRespond

namespace TcpReactor.Http

/-! # Responses can be read back

Many responses go over one connection, one behind the other, and their bodies are any bytes at all:
they may look like the end of a head, or like a whole response. A reader that knows nothing but the
form of a response still finds them all (`readResponses?_toBytes`): a head ends at its first empty
line, its lines are cut at the line ends and at their first `": "`, and its one `Content-Length`
says where the next response begins.

For this the texts of a response have to be plain (`Response.Plain`). Those of the HTTP service are,
whatever it was asked, so a request has no way to put a line or a response into the stream
(`plain_route`).
-/

/-! ## Cutting -/

section Cut

variable {α : Type} [DecidableEq α] {mark front text back : List α}

/-- Cut a text where `mark` first stands in it; the mark goes to neither part. -/
def cut? (mark : List α) : List α → Option (List α × List α)
  | [] => none
  | a :: text =>
      if mark <+: a :: text then some ([], (a :: text).drop mark.length)
      else (cut? mark text).map fun parts => (a :: parts.1, parts.2)

theorem cut?_cons {a : α} (h : ¬ mark <+: a :: text) :
    cut? mark (a :: text) = (cut? mark text).map fun parts => (a :: parts.1, parts.2) := by
  rw [cut?, if_neg h]

/-- A mark at the very front. -/
theorem cut?_mark {a : α} (mark back : List α) :
    cut? (a :: mark) (a :: mark ++ back) = some ([], back) := by
  rw [List.cons_append, cut?, if_pos ⟨back, List.cons_append⟩]
  simp

/-- No mark begins where its first element does not stand. -/
theorem cut?_append {a : α} (h : a ∉ front) (text : List α) :
    cut? (a :: mark) (front ++ text) =
      (cut? (a :: mark) text).map fun parts => (front ++ parts.1, parts.2) := by
  induction front with
  | nil => simp
  | cons b front ih =>
      rw [List.mem_cons, not_or] at h
      have hother : ¬ a :: mark <+: b :: (front ++ text) := by
        rw [List.cons_prefix_cons]
        exact fun hfirst => h.1 hfirst.1
      rw [List.cons_append, cut?_cons hother, ih h.2, Option.map_map]
      rfl

/-- A text is cut at the first mark behind a part that does not touch it. -/
theorem cut?_eq {a : α} (h : a ∉ front) (mark back : List α) :
    cut? (a :: mark) (front ++ (a :: mark ++ back)) = some (front, back) := by
  rw [cut?_append h, cut?_mark, Option.map_some, List.append_nil]

theorem cut?_eq_none {a : α} (h : a ∉ front) (mark : List α) : cut? (a :: mark) front = none := by
  rw [← List.append_nil front, cut?_append h]
  rfl

/-- A cut takes something away. -/
theorem length_of_cut? (hmark : mark ≠ []) (h : cut? mark text = some (front, back)) :
    back.length < text.length := by
  induction text generalizing front with
  | nil => cases h
  | cons a text ih =>
      rw [cut?] at h
      split at h
      · cases h
        have := List.length_pos_iff.mpr hmark
        rw [List.length_drop, List.length_cons]
        omega
      · rcases Option.map_eq_some_iff.mp h with ⟨parts, hparts, hboth⟩
        cases hboth
        exact Nat.lt_succ_of_lt (ih hparts)

end Cut

/-! ## Reading responses -/

/-- The lines of a head, without their ends. -/
def linesOf (head : Bytes) : List Bytes :=
  match _h : cut? crlf head with
  | none => [head]
  | some (line, rest) => line :: linesOf rest
termination_by head.length
decreasing_by exact length_of_cut? (by decide) _h

/-- Status and reason, behind the version. -/
def readStatusLine? (line : Bytes) : Option (UInt16 × String) := do
  let text ← utf8Decode? line
  let rest ← "HTTP/1.1 ".toList.isPrefixOf? text.toList
  let (status, reason) ← cut? [' '] rest
  let status ← number? status
  if status < UInt16.size then some (.ofNat status, .ofList reason) else none

/-- Name and value of a header line, around its first `": "`. -/
def readField? (line : Bytes) : Option (String × String) := do
  let text ← utf8Decode? line
  let (name, value) ← cut? [':', ' '] text.toList
  return (.ofList name, .ofList value)

/-- What the head of a response says. -/
structure Head where
  status : UInt16
  reason : String
  /-- All header lines, in order. -/
  fields : List (String × String)

/-- Read the lines of a head. -/
def readHead? (lines : List Bytes) : Option Head := do
  let (status, reason) ← readStatusLine? (← lines.head?)
  let fields ← lines.tail.mapM readField?
  return { status, reason, fields }

namespace Head

/-- The fields of this name; its case does not matter. -/
def named (head : Head) (name : String) : List (String × String) :=
  head.fields.filter (Text.sameIgnoringCase ·.1 name)

/-- The length that the one `Content-Length` line gives. -/
def length? (head : Head) : Option Nat :=
  match head.named "content-length" with
  | [field] => number? field.2.toList
  | _ => none

/-- Does the one `Connection` line keep the connection open? -/
def keepAlive? (head : Head) : Option Bool :=
  match head.named "connection" with
  | [(_, "keep-alive")] => some true
  | [(_, "close")] => some false
  | _ => none

end Head

/-- Read the first response of a stream: the response without the lines that are made for every
response, whether the connection stays open, and what follows. -/
def readResponse? (bytes : Bytes) : Option ((Response × Bool) × Bytes) := do
  let (head, rest) ← cut? (crlf ++ crlf) bytes
  let head ← readHead? (linesOf head)
  let length ← head.length?
  let keepAlive ← head.keepAlive?
  if rest.length < length then none
  else
    let response : Response :=
      { status := head.status, reason := head.reason
        fields := head.fields.filter fun f => !Response.isGenerated f.1
        body := rest.take length }
    some ((response, keepAlive), rest.drop length)

theorem length_of_readResponse? {bytes rest : Bytes} {response : Response × Bool}
    (h : readResponse? bytes = some (response, rest)) : rest.length < bytes.length := by
  rw [readResponse?] at h
  simp only [Option.bind_eq_bind, Option.bind_eq_some_iff] at h
  rcases h with ⟨⟨head, back⟩, hcut, _, _, length, _, keepAlive, _, h⟩
  -- the empty line alone takes four bytes, even if the body is empty
  have hless := length_of_cut? (by decide) hcut
  dsimp only at h
  split at h
  · cases h
  · cases h
    rw [List.length_drop]
    omega

/-- Read responses until the stream ends. There is no answer if it ends anywhere else than behind a
response. -/
def readResponses? (bytes : Bytes) : Option (List (Response × Bool)) :=
  if bytes.isEmpty then some []
  else
    match _h : readResponse? bytes with
    | none => none
    | some (response, rest) => (readResponses? rest).map (response :: ·)
termination_by bytes.length
decreasing_by exact length_of_readResponse? _h

theorem readResponses?_of_first {bytes rest : Bytes} {response : Response × Bool}
    (h : readResponse? bytes = some (response, rest)) :
    readResponses? bytes = (readResponses? rest).map (response :: ·) := by
  have hsome : ¬ bytes.isEmpty = true := by
    rw [List.isEmpty_iff]
    rintro rfl
    have := length_of_readResponse? h
    simp at this
  rw [readResponses?, if_neg hsome]
  split
  · rename_i hnone
    rw [h] at hnone
    cases hnone
  · rename_i hfirst
    rw [h] at hfirst
    cases hfirst
    rfl

/-! ## Plain texts -/

/-- The text stays on its line. -/
def OneLine (text : String) : Prop := '\r' ∉ text.toList ∧ '\n' ∉ text.toList

instance (text : String) : Decidable (OneLine text) := inferInstanceAs (Decidable (_ ∧ _))

namespace Response

/-- The texts of a response do not interfere with its form. -/
structure Plain (r : Response) : Prop where
  reason : OneLine r.reason
  names : ∀ f ∈ r.fields, f.1 ≠ "" ∧ OneLine f.1 ∧ ':' ∉ f.1.toList ∧
    f.1.toList.any Text.isBlank = false
  values : ∀ f ∈ r.fields, OneLine f.2

/-- The response without the fields that are made for every response anyway. -/
def bare (r : Response) : Response :=
  { r with fields := r.fields.filter fun f => !isGenerated f.1 }

/-! ## The lines of a response -/

def statusLine (r : Response) : String := "HTTP/1.1 " ++ r.status.toNat.repr ++ " " ++ r.reason

/-- The header fields as they are sent. -/
def wireFields (r : Response) (keepAlive : Bool) : List (String × String) :=
  r.bare.fields ++
    [("Content-Length", r.body.length.repr),
      ("Connection", if keepAlive then "keep-alive" else "close")]

/-- The lines of the head. -/
def lines (r : Response) (keepAlive : Bool) : List String :=
  r.statusLine :: (r.wireFields keepAlive).map fun f => f.1 ++ ": " ++ f.2

end Response

theorem utf8_eq_flatMap (text : String) :
    utf8 text = text.toList.flatMap String.utf8EncodeChar := by
  rw [utf8, String.toUTF8, ← String.utf8Encode_toList, List.utf8Encode]
  simp

theorem utf8_append (s t : String) : utf8 (s ++ t) = utf8 s ++ utf8 t := by
  simp [utf8_eq_flatMap]

theorem utf8_join (texts : List String) : utf8 (String.join texts) = (texts.map utf8).flatten := by
  induction texts with
  | nil => rfl
  | cons text texts ih => rw [String.join_cons, utf8_append, ih, List.map_cons, List.flatten_cons]

/-- The head is its lines, each with its end, and an empty line. -/
theorem head_eq (r : Response) (keepAlive : Bool) :
    r.head keepAlive = String.join ((r.lines keepAlive).map (· ++ "\r\n")) ++ "\r\n" := by
  unfold Response.head
  simp only [Response.lines, Response.wireFields, Response.bare,
    Response.statusLine, Response.fieldLine, toString, List.map_cons, List.map_append,
    List.map_map, List.map_nil, Function.comp_def, String.join_cons, String.join_append,
    String.join_nil, String.append_assoc, String.empty_append]

/-- The bytes of a response are its lines, an empty line and the body. -/
theorem toBytes_eq (r : Response) (keepAlive : Bool) :
    r.toBytes keepAlive =
      ((r.lines keepAlive).map endLine).flatten ++ (crlf ++ r.body) := by
  have hline : utf8 ∘ (· ++ "\r\n") = endLine := by
    funext line
    exact utf8_append line "\r\n"
  rw [Response.toBytes, head_eq, utf8_append, utf8_join, List.map_map, hline, List.append_assoc]
  rfl

/-- A carriage return in UTF-8 is nothing else. -/
theorem eq_of_mem_utf8EncodeChar {c : Char} (h : 13 ∈ String.utf8EncodeChar c) : c = '\r' := by
  have hcr : (13 : UInt8).toNat = 13 := rfl
  have hcode : c.val.toNat = 13 := by
    -- the bytes of a longer encoding have their highest bit set
    simp only [String.utf8EncodeChar] at h
    repeat' split at h
    all_goals
      simp only [List.mem_cons, List.not_mem_nil, or_false, ← UInt8.toNat_inj, hcr,
        UInt8.toNat_ofNat'] at h
      omega
  exact Char.ext (UInt32.toNat_inj.mp hcode)

theorem cr_notMem_utf8 {text : String} (h : '\r' ∉ text.toList) : 13 ∉ utf8 text := by
  rw [utf8_eq_flatMap, List.mem_flatMap]
  rintro ⟨c, hc, hbyte⟩
  rw [eq_of_mem_utf8EncodeChar hbyte] at hc
  exact h hc

/-! ## Reading one response -/

/-- A head ends at its first empty line. -/
theorem cut?_lines {lines : List Bytes} (hsome : lines ≠ [])
    (hlines : ∀ line ∈ lines, line ≠ [] ∧ 13 ∉ line) (body : Bytes) :
    cut? (crlf ++ crlf) ((lines.map (· ++ crlf)).flatten ++ (crlf ++ body)) =
      some (crlf.intercalate lines, body) := by
  induction lines with
  | nil => exact absurd rfl hsome
  | cons line lines ih =>
      obtain ⟨⟨_, hcr⟩, hlines⟩ := List.forall_mem_cons.mp hlines
      cases lines with
      | nil =>
          have hcut := cut?_eq hcr [10, 13, 10] body
          simpa [crlf] using hcut
      | cons next lines =>
          have hrest := ih (by simp) hlines
          obtain ⟨⟨hnext, hnextcr⟩, _⟩ := List.forall_mem_cons.mp hlines
          generalize htail : ((next :: lines).map (· ++ crlf)).flatten ++ (crlf ++ body) = tail
            at hrest
          -- the next line has a byte, so the end of this one is not followed by another end
          have hend : ¬ 13 :: [10, 13, 10] <+: 13 :: ([10] ++ tail) := by
            rw [← htail]
            cases next with
            | nil => exact absurd rfl hnext
            | cons b next =>
                simp only [List.map_cons, List.flatten_cons, List.cons_append, List.nil_append,
                  List.cons_prefix_cons, true_and]
                rintro ⟨hb, _⟩
                exact hnextcr (hb ▸ List.mem_cons_self)
          have hlf : (13 : UInt8) ∉ ([10] : Bytes) := by decide
          rw [List.map_cons, List.flatten_cons, List.append_assoc, List.append_assoc, htail]
          show cut? (13 :: [10, 13, 10]) (line ++ (13 :: ([10] ++ tail))) = _
          rw [cut?_append hcr, cut?_cons hend, cut?_append hlf]
          simp only [show 13 :: [10, 13, 10] = crlf ++ crlf from rfl, hrest, Option.map_some]
          rw [List.intercalate_cons_cons, List.append_assoc]
          rfl

theorem linesOf_of_cut {head line rest : Bytes} (h : cut? crlf head = some (line, rest)) :
    linesOf head = line :: linesOf rest := by
  rw [linesOf]
  split
  · rename_i hnone
    rw [h] at hnone
    cases hnone
  · rename_i hcut
    rw [h] at hcut
    cases hcut
    rfl

/-- The lines of a head are found again. -/
theorem linesOf_intercalate {line : Bytes} {lines : List Bytes}
    (hlines : ∀ l ∈ line :: lines, 13 ∉ l) :
    linesOf (crlf.intercalate (line :: lines)) = line :: lines := by
  induction lines generalizing line with
  | nil =>
      obtain ⟨hcr, _⟩ := List.forall_mem_cons.mp hlines
      rw [List.intercalate_singleton, linesOf]
      split
      · rfl
      · rename_i hcut
        rw [crlf, cut?_eq_none hcr] at hcut
        cases hcut
  | cons next lines ih =>
      obtain ⟨hcr, hlines⟩ := List.forall_mem_cons.mp hlines
      have hcut : cut? crlf (line ++ (crlf ++ crlf.intercalate (next :: lines))) =
          some (line, crlf.intercalate (next :: lines)) := cut?_eq hcr [10] _
      rw [List.intercalate_cons_cons, List.append_assoc, linesOf_of_cut hcut, ih hlines]

/-! ## The texts of the lines -/

theorem number?_repr (n : Nat) : number? n.repr.toList = some n := by
  have hdigits : ∀ c ∈ Nat.toDigits 10 n, c.isDigit = true := by
    intro c hc
    exact Nat.isDigit_of_mem_toDigits (by decide) (by decide) hc
  rw [number?, Nat.toList_repr, if_pos ⟨Nat.toDigits_ne_nil, List.all_eq_true.mpr hdigits⟩,
    Nat.ofDigitChars_ten_toDigits]

/-- No number has a character that is no digit. -/
theorem notMem_repr {c : Char} (hc : c.isDigit = false) (n : Nat) : c ∉ n.repr.toList := by
  rw [Nat.toList_repr]
  intro hmem
  rw [Nat.isDigit_of_mem_toDigits (by decide) (by decide) hmem] at hc
  cases hc

theorem isPrefixOf?_append (front rest : List Char) :
    front.isPrefixOf? (front ++ rest) = some rest := by
  induction front with
  | nil => rfl
  | cons c front ih =>
      have hstep : (c :: front).isPrefixOf? (c :: front ++ rest) =
          if c == c then front.isPrefixOf? (front ++ rest) else none := rfl
      rw [hstep, if_pos (beq_self_eq_true c), ih]

theorem readStatusLine?_statusLine (r : Response) :
    readStatusLine? (utf8 r.statusLine) = some (r.status, r.reason) := by
  have htext : r.statusLine.toList = "HTTP/1.1 ".toList ++
      (r.status.toNat.repr.toList ++ ([' '] ++ r.reason.toList)) := by
    simp [Response.statusLine, String.toList_append]
  have hcut := cut?_eq (notMem_repr (c := ' ') rfl r.status.toNat) [] r.reason.toList
  have hprefix : "HTTP/1.1 ".toList.isPrefixOf? r.statusLine.toList =
      some (r.status.toNat.repr.toList ++ ([' '] ++ r.reason.toList)) := by
    rw [htext]
    exact isPrefixOf?_append _ _
  rw [readStatusLine?, utf8Decode?_utf8]
  simp only [Option.bind_eq_bind, Option.bind_some, hprefix, hcut, number?_repr,
    String.ofList_toList]
  rw [if_pos r.status.toNat_lt]
  simp

theorem readField?_line {name value : String} (hname : ':' ∉ name.toList) :
    readField? (utf8 (name ++ ": " ++ value)) = some (name, value) := by
  have htext : (name ++ ": " ++ value).toList = name.toList ++ ([':', ' '] ++ value.toList) := by
    simp [String.toList_append]
  rw [readField?, utf8Decode?_utf8]
  simp only [Option.bind_eq_bind, Option.bind_some, htext, cut?_eq hname [' '] value.toList,
    String.ofList_toList]
  rfl

theorem oneLine_append {s t : String} : OneLine (s ++ t) ↔ OneLine s ∧ OneLine t := by
  simp only [OneLine, String.toList_append, List.mem_append, not_or]
  exact and_and_and_comm

theorem oneLine_repr (n : Nat) : OneLine n.repr := ⟨notMem_repr rfl n, notMem_repr rfl n⟩

section Plain

variable {r : Response} (keepAlive : Bool)

/-- The fields that every response has are plain as well. -/
theorem plain_wireFields (h : r.Plain) :
    ∀ f ∈ r.wireFields keepAlive, OneLine f.1 ∧ OneLine f.2 ∧ ':' ∉ f.1.toList := by
  intro f hf
  rcases List.mem_append.mp hf with hf | hf
  · have hmem := (List.mem_filter.mp hf).1
    obtain ⟨_, hline, hcolon, _⟩ := h.names f hmem
    exact ⟨hline, h.values f hmem, hcolon⟩
  · simp only [List.mem_cons, List.not_mem_nil, or_false] at hf
    rcases hf with rfl | rfl
    · exact ⟨(by decide : OneLine "Content-Length"), oneLine_repr _,
        (by decide : ':' ∉ "Content-Length".toList)⟩
    · refine ⟨(by decide : OneLine "Connection"), ?_, (by decide : ':' ∉ "Connection".toList)⟩
      cases keepAlive
      · exact (by decide : OneLine "close")
      · exact (by decide : OneLine "keep-alive")

/-- No line of a plain response is empty, and all of them end where they should. -/
theorem plain_lines (h : r.Plain) :
    ∀ line ∈ (r.lines keepAlive).map utf8, line ≠ [] ∧ 13 ∉ line := by
  suffices ∀ text ∈ r.lines keepAlive, text ≠ "" ∧ OneLine text by
    intro line hline
    rcases List.mem_map.mp hline with ⟨text, htext, rfl⟩
    exact ⟨HttpService.utf8_ne_nil (this text htext).1, cr_notMem_utf8 (this text htext).2.1⟩
  intro text htext
  rcases List.mem_cons.mp htext with rfl | htext
  · refine ⟨by simp [Response.statusLine], ?_⟩
    simp only [Response.statusLine, oneLine_append]
    exact ⟨⟨⟨by decide, oneLine_repr _⟩, by decide⟩, h.reason⟩
  · rcases List.mem_map.mp htext with ⟨f, hf, rfl⟩
    obtain ⟨hname, hvalue, _⟩ := plain_wireFields keepAlive h f hf
    refine ⟨by simp, ?_⟩
    simp only [oneLine_append]
    exact ⟨⟨hname, by decide⟩, hvalue⟩

/-- What a reader finds in the head of a plain response. -/
def Response.wireHead (r : Response) (keepAlive : Bool) : Head :=
  { status := r.status, reason := r.reason, fields := r.wireFields keepAlive }

/-- The lines of a plain response are read back, and nothing else is taken for one of them. -/
theorem readHead?_lines (h : r.Plain) :
    readHead? ((r.lines keepAlive).map utf8) = some (r.wireHead keepAlive) := by
  -- induction on the fields, each of which is one line
  have hfields : ∀ fields : List (String × String), (∀ f ∈ fields, ':' ∉ f.1.toList) →
      (fields.map fun f => utf8 (f.1 ++ ": " ++ f.2)).mapM readField? = some fields := by
    intro fields hnames
    induction fields with
    | nil => rfl
    | cons f fields ih =>
        obtain ⟨hname, hnames⟩ := List.forall_mem_cons.mp hnames
        rw [List.map_cons, List.mapM_cons, readField?_line hname, ih hnames]
        rfl
  have hall := hfields (r.wireFields keepAlive) fun f hf => (plain_wireFields keepAlive h f hf).2.2
  rw [Response.lines, List.map_cons, List.map_map, readHead?]
  simp only [List.head?_cons, List.tail_cons, Option.bind_eq_bind, Option.bind_some,
    readStatusLine?_statusLine]
  simp only [Function.comp_def, hall, Option.bind_some]
  rfl

/-- The head of a response ends where the body begins. -/
theorem cut?_toBytes (h : r.Plain) (rest : Bytes) :
    cut? (crlf ++ crlf) (r.toBytes keepAlive ++ rest) =
      some (crlf.intercalate ((r.lines keepAlive).map utf8), r.body ++ rest) := by
  have hcut := cut?_lines (by simp [Response.lines]) (plain_lines keepAlive h) (r.body ++ rest)
  rw [List.map_map] at hcut
  rw [toBytes_eq, List.append_assoc, List.append_assoc]
  exact hcut

theorem linesOf_toBytes (h : r.Plain) :
    linesOf (crlf.intercalate ((r.lines keepAlive).map utf8)) = (r.lines keepAlive).map utf8 :=
  linesOf_intercalate fun line hline => (plain_lines keepAlive h line hline).2

end Plain

theorem isGenerated_iff {name : String} : Response.isGenerated name = true ↔
    name.toList.map Char.toLower = "content-length".toList ∨
      name.toList.map Char.toLower = "connection".toList := by
  have hlower : "content-length".toList.map Char.toLower = "content-length".toList ∧
      "connection".toList.map Char.toLower = "connection".toList := by decide
  rw [Response.isGenerated, Bool.or_eq_true, Text.sameIgnoringCase_iff, Text.sameIgnoringCase_iff,
    hlower.1, hlower.2]

/-- Fields of the generated names do not get as far as the wire if they were set by hand. -/
theorem named_bare (r : Response) {name : String}
    (hname : name = "content-length" ∨ name = "connection") :
    r.bare.fields.filter (Text.sameIgnoringCase ·.1 name) = [] := by
  rw [List.filter_eq_nil_iff]
  intro f hf hsame
  have hgenerated : Response.isGenerated f.1 = true := by
    rcases hname with rfl | rfl
    · simp [Response.isGenerated, hsame]
    · simp [Response.isGenerated, hsame]
  simpa [hgenerated] using (List.mem_filter.mp hf).2

/-- The names of the two generated fields are told apart. -/
theorem same_generated :
    (Text.sameIgnoringCase "Content-Length" "content-length" = true ∧
      Text.sameIgnoringCase "Connection" "content-length" = false) ∧
    (Text.sameIgnoringCase "Content-Length" "connection" = false ∧
      Text.sameIgnoringCase "Connection" "connection" = true) := by
  simp only [← Bool.not_eq_true, Text.sameIgnoringCase_iff]
  decide

theorem named_contentLength (r : Response) (keepAlive : Bool) :
    (r.wireHead keepAlive).named "content-length" = [("Content-Length", r.body.length.repr)] := by
  obtain ⟨⟨hlength, hconnection⟩, _⟩ := same_generated
  rw [Head.named, Response.wireHead, Response.wireFields, List.filter_append,
    named_bare r (.inl rfl)]
  simp [hlength, hconnection]

theorem named_connection (r : Response) (keepAlive : Bool) :
    (r.wireHead keepAlive).named "connection" =
      [("Connection", if keepAlive then "keep-alive" else "close")] := by
  obtain ⟨_, hlength, hconnection⟩ := same_generated
  rw [Head.named, Response.wireHead, Response.wireFields, List.filter_append,
    named_bare r (.inr rfl)]
  simp [hlength, hconnection]

theorem length?_wireHead (r : Response) (keepAlive : Bool) :
    (r.wireHead keepAlive).length? = some r.body.length := by
  rw [Head.length?, named_contentLength]
  exact number?_repr r.body.length

theorem keepAlive?_wireHead (r : Response) (keepAlive : Bool) :
    (r.wireHead keepAlive).keepAlive? = some keepAlive := by
  rw [Head.keepAlive?, named_connection]
  cases keepAlive
  · rfl
  · rfl

/-- The fields of the head that are not made for every response. -/
theorem filter_wireFields (r : Response) (keepAlive : Bool) :
    (r.wireFields keepAlive).filter (fun f => !Response.isGenerated f.1) = r.bare.fields := by
  have hbare : r.bare.fields.filter (fun f => !Response.isGenerated f.1) = r.bare.fields := by
    simp [Response.bare]
  obtain ⟨⟨hlength, _⟩, _, hconnection⟩ := same_generated
  have hnone : [("Content-Length", r.body.length.repr),
      ("Connection", if keepAlive then "keep-alive" else "close")].filter
        (fun f => !Response.isGenerated f.1) = [] := by
    simp [Response.isGenerated, hlength, hconnection]
  rw [Response.wireFields, List.filter_append, hbare, hnone, List.append_nil]

/-- A plain response is read back, and the reader stands exactly behind it. -/
theorem readResponse?_toBytes {r : Response} (h : r.Plain) (keepAlive : Bool) (rest : Bytes) :
    readResponse? (r.toBytes keepAlive ++ rest) = some ((r.bare, keepAlive), rest) := by
  rw [readResponse?, cut?_toBytes keepAlive h]
  simp only [Option.bind_eq_bind, Option.bind_some, linesOf_toBytes keepAlive h,
    readHead?_lines keepAlive h, length?_wireHead, keepAlive?_wireHead]
  rw [if_neg (by rw [List.length_append]; omega), List.take_left, List.drop_left]
  simp only [Response.wireHead, filter_wireFields]
  rfl

/-- So are many, whatever their bodies look like. -/
theorem readResponses?_toBytes {responses : List (Response × Bool)}
    (hplain : ∀ r ∈ responses, r.1.Plain) :
    readResponses? (responses.map fun r => r.1.toBytes r.2).flatten =
      some (responses.map fun r => (r.1.bare, r.2)) := by
  induction responses with
  | nil =>
      rw [List.map_nil, List.flatten_nil, readResponses?]
      rfl
  | cons r responses ih =>
      obtain ⟨hfirst, hplain⟩ := List.forall_mem_cons.mp hplain
      -- the reader stands behind the first response, where the others begin
      rw [List.map_cons, List.flatten_cons,
        readResponses?_of_first (readResponse?_toBytes hfirst r.2 _), ih hplain, Option.map_some,
        List.map_cons]

/-! ## What the service answers -/

theorem oneLine_reasonPhrase (status : UInt16) : OneLine (reasonPhrase status) := by
  unfold reasonPhrase
  split
  all_goals decide

/-- Every answer of the service has one field and a reason that goes with its status. -/
theorem route_texts (request : Request) :
    (∃ status, (HttpService.route request).reason = reasonPhrase status) ∧
      ∃ value, OneLine value ∧
        (HttpService.route request).fields = [("Content-Type", value)] := by
  have htext : OneLine "text/plain; charset=utf-8" := by decide
  unfold HttpService.route
  split
  · exact ⟨⟨200, rfl⟩, _, htext, rfl⟩
  split
  · exact ⟨⟨200, rfl⟩, "application/octet-stream", by decide, rfl⟩
  split
  · split
    · exact ⟨⟨200, rfl⟩, _, htext, rfl⟩
    · exact ⟨⟨404, rfl⟩, _, htext, rfl⟩
  · exact ⟨⟨404, rfl⟩, _, htext, rfl⟩

/-- No request can make the texts of its answer anything but plain. -/
theorem plain_route (request : Request) : (HttpService.route request).Plain := by
  obtain ⟨⟨status, hreason⟩, value, hvalue, hfields⟩ := route_texts request
  have hname : "Content-Type" ≠ "" ∧ OneLine "Content-Type" ∧ ':' ∉ "Content-Type".toList ∧
      "Content-Type".toList.any Text.isBlank = false := by decide
  constructor
  · rw [hreason]
    exact oneLine_reasonPhrase status
  · rw [hfields]
    exact List.forall_mem_singleton.mpr hname
  · rw [hfields]
    exact List.forall_mem_singleton.mpr hvalue

theorem bare_route (request : Request) :
    (HttpService.route request).bare = HttpService.route request := by
  obtain ⟨_, value, _, hfields⟩ := route_texts request
  have hkept : Response.isGenerated "Content-Type" = false := by
    rw [← Bool.not_eq_true, isGenerated_iff]
    decide
  rw [Response.bare, hfields, List.filter_cons_of_pos (by simp [hkept]), List.filter_nil, ← hfields]

/-! ## The stream of responses -/

/-- Plain responses can be told apart on the wire. The concatenation of their bytes gives all of
them back, with nothing left over: status, reason, the fields that are not made for every response,
whether the connection stays open, and the body, which may be any bytes. Each head has one
`Content-Length` line, with the length of the body, and one `Connection` line, whatever fields were
set. The answers of the service are plain for every request, so there is one response in the stream
for each request, and it is the answer to that request. -/
theorem responses_read_back {responses : List (Response × Bool)}
    (hplain : ∀ r ∈ responses, r.1.Plain) :
    readResponses? (responses.map fun r => r.1.toBytes r.2).flatten =
        some (responses.map fun r => (r.1.bare, r.2)) ∧
      (∀ r ∈ responses, ∃ head lines,
        cut? (crlf ++ crlf) (r.1.toBytes r.2) = some (lines, r.1.body) ∧
        readHead? (linesOf lines) = some head ∧
        head.named "content-length" = [("Content-Length", r.1.body.length.repr)] ∧
        head.named "connection" = [("Connection", if r.2 then "keep-alive" else "close")]) ∧
      ∀ requests : List Request, (∀ q ∈ requests, (HttpService.route q).Plain) ∧
        readResponses?
            (requests.map fun q => (HttpService.route q).toBytes (!q.wantsClose)).flatten =
          some (requests.map fun q => (HttpService.route q, !q.wantsClose)) := by
  refine ⟨readResponses?_toBytes hplain, ?_, ?_⟩
  · intro r hr
    have hcut := cut?_toBytes r.2 (hplain r hr) []
    rw [List.append_nil, List.append_nil] at hcut
    refine ⟨r.1.wireHead r.2, _, hcut, ?_, named_contentLength _ _, named_connection _ _⟩
    -- what stands before the first empty line are the lines that were put together
    rw [linesOf_toBytes r.2 (hplain r hr), readHead?_lines r.2 (hplain r hr)]
  · intro requests
    refine ⟨fun q _ => plain_route q, ?_⟩
    have hread := @readResponses?_toBytes
      (requests.map fun q => (HttpService.route q, !q.wantsClose)) (by simp [plain_route])
    rw [List.map_map, List.map_map] at hread
    simpa only [Function.comp_def, bare_route] using hread

/-- Two responses, the first with a whole response as its body and with fields of the generated
names that lie about it. -/
theorem responses_read_back_nested :
    let fake : Bytes := utf8 "\r\n\r\nHTTP/1.1 200 OK\r\nContent-Length: 0\r\n\r\n"
    let first : Response :=
      { status := 404, reason := "Not: Found", body := fake
        fields := [("X-A", "b: c"), ("content-LENGTH", "0"), ("CONNECTION", "close"), ("y", "")] }
    let second : Response := { status := 200, reason := "", body := [] }
    let responses := [(first, true), (second, false)]
    (∀ r ∈ responses, r.1.Plain) ∧
      readResponses? (first.toBytes true ++ second.toBytes false) =
        some [({ first with fields := [("X-A", "b: c"), ("y", "")] }, true), (second, false)] := by
  intro fake first second responses
  have hplain : ∀ r ∈ responses, r.1.Plain := by
    refine List.forall_mem_cons.mpr ⟨?_, List.forall_mem_singleton.mpr ?_⟩
    · exact ⟨by decide, by decide, by decide⟩
    · exact ⟨by decide, by decide, by decide⟩
  have hread := (responses_read_back hplain).1
  have hkept : Response.isGenerated "X-A" = false ∧ Response.isGenerated "y" = false := by
    simp only [← Bool.not_eq_true, isGenerated_iff]
    decide
  have hdropped : Response.isGenerated "content-LENGTH" = true ∧
      Response.isGenerated "CONNECTION" = true := by
    simp only [isGenerated_iff]
    decide
  refine ⟨hplain, ?_⟩
  simpa [responses, first, second, Response.bare, hkept, hdropped] using hread

end TcpReactor.Http
