import TcpReactor.Proofs.Http.Grammar

namespace TcpReactor.Http

/-! # Which lengths are accepted

A header may declare a length in any text. `declaredLength_eq` says what becomes of it: the text has
to be a decimal number, which is compared with 2 ^ 64 and with the limit. `contentLength` says it of
whole requests, where the last line with this name counts and the bytes of the body are the next
ones behind the header. A plus sign in front of the number is passed over (`plus_sign_accepted`).
-/

/-- The text without a plus sign in front. -/
def unsigned : List Char → List Char
  | '+' :: digits => digits
  | text => text

theorem unsigned_of_ne {text : List Char} (h : ∀ digits, text ≠ '+' :: digits) :
    unsigned text = text := by
  unfold unsigned
  split
  · rename_i digits
    exact absurd rfl (h digits)
  · rfl

/-! ## The number -/

theorem mapM_digit?_eq (digits : List Char) :
    digits.mapM digit? =
      if digits.all Char.isDigit then some (digits.map digitValue) else none := by
  split
  · rename_i hall
    exact mapM_digit?.mpr ⟨List.all_eq_true.mp hall, rfl⟩
  · rename_i hother
    rw [Option.eq_none_iff_forall_ne_some]
    intro values hvalues
    exact hother (List.all_eq_true.mpr (mapM_digit?.mp hvalues).1)

/-- Digit by digit from the left. -/
theorem foldl_digitValue (digits : List Char) :
    (digits.map digitValue).foldl (fun n d => n * 10 + d) 0 = Nat.ofDigitChars 10 digits 0 := by
  rw [List.foldl_map, Nat.ofDigitChars]
  congr 1
  funext n c
  rw [Nat.mul_comm]
  rfl

theorem parseLength?_eq (text : List Char) :
    parseLength? text =
      match number? (unsigned text) with
      | none => none
      | some n => if n < UInt64.size then some n else none := by
  -- what is done behind the sign, if there is one
  have hdigits : ∀ digits : List Char,
      (if digits.isEmpty then none
        else (digits.mapM digit?).bind fun values =>
          if values.foldl (fun n d => n * 10 + d) 0 < UInt64.size
          then some (values.foldl (fun n d => n * 10 + d) 0) else none) =
        match number? digits with
        | none => none
        | some n => if n < UInt64.size then some n else none := by
    intro digits
    rw [number?, mapM_digit?_eq]
    cases digits with
    | nil => rfl
    | cons c digits =>
        by_cases hall : (c :: digits).all Char.isDigit = true
        · rw [if_neg (by simp), if_pos hall, if_pos ⟨by simp, hall⟩, Option.bind_some,
            foldl_digitValue]
        · rw [if_neg (by simp), if_neg hall, if_neg (fun h => hall h.2), Option.bind_none]
  unfold parseLength?
  dsimp only
  split
  · exact hdigits _
  · rename_i hplus
    rw [unsigned_of_ne hplus]
    exact hdigits text

/-! ## The declared length -/

variable {limits : Limits} {value : String}

/-- The value of a field is trimmed already. -/
theorem trim_last? {lines : List HeaderLine} {name : String}
    (h : HeaderLine.last? lines name = some value) : Text.trim value.toList = value.toList := by
  rcases Option.map_eq_some_iff.mp h with ⟨l, _, rfl⟩
  rw [HeaderLine.content, String.toList_ofList, Text.trim_trim]

/-- What a header with this length declares. -/
theorem declaredLength_eq {lines : List HeaderLine}
    (h : HeaderLine.last? lines "content-length" = some value) :
    declaredLength limits (HeaderLine.fields lines) =
      match number? (unsigned value.toList) with
      | none => .error (.invalidContentLength value)
      | some n =>
          if UInt64.size ≤ n then .error (.invalidContentLength value)
          else if limits.maxBody.toNat < n then .error (.bodyTooLarge n)
          else .ok n := by
  rw [declaredLength, get?_fields, h]
  dsimp only
  rw [trim_last? h, parseLength?_eq]
  cases number? (unsigned value.toList) with
  | none => rfl
  | some n =>
      -- the parser does not get as far as the limit if the number does not fit a word
      by_cases hsize : n < UInt64.size
      · simp only [if_pos hsize, if_neg (Nat.not_le.mpr hsize)]
      · simp only [if_neg hsize, if_pos (Nat.le_of_not_lt hsize)]

/-! ## The request -/

/-- The bytes of a header, the empty line behind it included. -/
def headerBytes (blanks : Nat) (first : RequestLine) (lines : List HeaderLine) : Bytes :=
  (List.replicate blanks crlf).flatten ++
    (endLine first.text ++ ((lines.map (endLine ·.text)).flatten ++ crlf))

/-- Behind a header comes the body. -/
theorem scan_header {blanks : Nat} {first : RequestLine} {lines : List HeaderLine}
    (hfirst : first.Valid ∧ Fits limits first.text)
    (hlines : ∀ l ∈ lines, l.Valid ∧ Fits limits l.text) (rest : Bytes) :
    scan limits .requestLine (headerBytes blanks first lines ++ rest) =
      match declaredLength limits (HeaderLine.fields lines) with
      | .error e => ⟨.error (.refused e), .headers first (HeaderLine.fields lines), rest⟩
      | .ok length => scan limits (.body first (HeaderLine.fields lines) length) rest := by
  rw [headerBytes, List.append_assoc, scan_blanks, List.append_assoc, scan_first hfirst,
    List.append_assoc, scan_lines hlines]
  exact scan_headerEnd first (HeaderLine.fields lines) rest

namespace Parser

/-- There is no request, now or later, but this error. -/
def Refuses (p : Parser) (b : StreamBuffer) (e : ParseError) : Prop :=
  (p.nextRequest b).1 = .error (.refused e) ∧
    ∀ b', ((p.nextRequest b).2.1.nextRequest b').1 = .error (.refused e)

/-- A refusal stays. -/
theorem refuses_of_scan {p : Parser} {b : StreamBuffer} {e : ParseError} (hok : p.failed = none)
    (hopen : b.isOpen = true)
    (h : (scan p.limits p.stage (p.unread ++ b.contents)).result = .error (.refused e)) :
    p.Refuses b e := by
  rcases nextRequest_eq_scan hok hopen with ⟨b', _, _, hnext⟩
  rw [Refuses, hnext]
  refine ⟨h, fun later => ?_⟩
  have hfailed : (p.stopped (scan p.limits p.stage (p.unread ++ b.contents))).failed = some e := by
    rw [stopped, h]
  rw [nextRequest, hfailed]

end Parser

/-- A parser comes to the end of a header whose last line of the name `content-length` has the value
`value`. If this is a decimal number within the limit, then the request is complete with just so
many of the bytes behind the header, and waits until they are there. A larger number is too large,
or no length at all from 2 ^ 64 on. Any other text is refused; only one plus sign is passed over. -/
theorem contentLength {p : Parser} {b : StreamBuffer} {u rest : Bytes} {blanks : Nat}
    {first : RequestLine} {lines : List HeaderLine} {value : String} (hawaits : p.Awaits u)
    (hopen : b.isOpen = true) (hfed : u ++ b.contents = headerBytes blanks first lines ++ rest)
    (hfirst : first.Valid ∧ Fits p.limits first.text)
    (hlines : ∀ l ∈ lines, l.Valid ∧ Fits p.limits l.text)
    (hvalue : HeaderLine.last? lines "content-length" = some value) :
    (∀ n, number? (unsigned value.toList) = some n → n ≤ p.limits.maxBody.toNat →
      (n ≤ rest.length → ∃ b', b'.isOpen = true ∧ b'.contents = [] ∧
        p.nextRequest b =
          (.ok (some { first with fields := HeaderLine.fields lines, body := rest.take n }),
            { limits := p.limits, unread := rest.drop n }, b')) ∧
      (rest.length < n → (p.nextRequest b).1 = .ok none ∧
        (p.nextRequest b).2.1.Awaits (u ++ b.contents))) ∧
    (∀ n, number? (unsigned value.toList) = some n → p.limits.maxBody.toNat < n →
      n < UInt64.size → p.Refuses b (.bodyTooLarge n)) ∧
    (∀ n, number? (unsigned value.toList) = some n → UInt64.size ≤ n →
      p.Refuses b (.invalidContentLength value)) ∧
    (number? (unsigned value.toList) = none → p.Refuses b (.invalidContentLength value)) := by
  rcases hawaits.scan_eq with ⟨hok, hscan⟩
  have hresult := hscan b.contents
  rw [hfed, scan_header hfirst hlines, declaredLength_eq hvalue] at hresult
  have hword : p.limits.maxBody.toNat < UInt64.size := p.limits.maxBody.toNat_lt
  -- if the number is within the limit, then the scan goes on in the body
  have hbody : ∀ n, number? (unsigned value.toList) = some n → n ≤ p.limits.maxBody.toNat →
      scan p.limits p.stage (p.unread ++ b.contents) =
        scan p.limits (.body first (HeaderLine.fields lines) n) rest := by
    intro n hn hfits
    rw [hresult, hn]
    dsimp only
    rw [if_neg (by omega), if_neg (by omega)]
  refine ⟨fun n hn hfits => ⟨fun hthere => ?_, fun hmissing => ?_⟩, fun n hn hlarge hsize => ?_,
    fun n hn hsize => ?_, fun hn => ?_⟩
  · -- the whole body is there
    have hscanned := hbody n hn hfits
    rw [scan_body, if_neg (Nat.not_lt.mpr hthere)] at hscanned
    rcases Parser.nextRequest_eq_scan hok hopen with ⟨b', hopen', hempty, hnext⟩
    refine ⟨b', hopen', hempty, ?_⟩
    rw [hnext, hscanned, Parser.stopped]
  · -- a part of the body is missing
    have hscanned := hbody n hn hfits
    rw [scan_body, if_pos hmissing] at hscanned
    rcases Parser.nextRequest_eq_scan hok hopen with ⟨b', _, _, hnext⟩
    rw [hscanned] at hnext
    have hwait := Parser.Awaits.wait hawaits hopen hnext
    rw [hnext]
    exact ⟨rfl, hwait⟩
  · refine Parser.refuses_of_scan hok hopen ?_
    rw [hresult, hn]
    dsimp only
    rw [if_neg (Nat.not_le.mpr hsize), if_pos hlarge]
  · refine Parser.refuses_of_scan hok hopen ?_
    rw [hresult, hn]
    dsimp only
    rw [if_pos hsize]
  · refine Parser.refuses_of_scan hok hopen ?_
    rw [hresult, hn]

/-- Of two lines the second counts, leading zeros and blanks around the number do not matter, and
behind the body the next request begins. A number of 65 bits is no length. -/
theorem contentLength_leading_zeros :
    let limits : Limits := { maxBody := 8 }
    let holding (text : String) : StreamBuffer :=
      { ring := ((RingBuffer.new 128).write (utf8 text)).2, isOpen := true }
    let first : RequestLine := { method := "PUT", target := "/", version := "HTTP/1.1" }
    (∃ b', b'.isOpen = true ∧ b'.contents = [] ∧
      ({ limits } : Parser).nextRequest
          (holding "PUT / HTTP/1.1\r\ncontent-length:9\r\nContent-Length :\t002 \r\n\r\nxyGET") =
        (.ok (some { first with fields := [("content-length", "002")], body := utf8 "xy" }),
          { limits, unread := utf8 "GET" }, b')) ∧
    ({ limits } : Parser).Refuses
      (holding "PUT / HTTP/1.1\r\nContent-Length: 18446744073709551616\r\n\r\nxy")
      (.invalidContentLength "18446744073709551616") := by
  intro limits holding first
  have hfirst : first.Valid ∧ Fits limits first.text := by
    refine ⟨⟨by decide, by decide, by decide⟩, ?_⟩
    exact ⟨by decide, by decide +kernel, by decide +kernel⟩
  constructor
  · let lines : List HeaderLine := [⟨"content-length", "9"⟩, ⟨"Content-Length ", "\t002 "⟩]
    have hlines : ∀ l ∈ lines, l.Valid ∧ Fits limits l.text := by
      refine List.forall_mem_cons.mpr ⟨?_, List.forall_mem_singleton.mpr ?_⟩
      · exact ⟨⟨by decide, by decide +kernel⟩, by decide, by decide +kernel, by decide +kernel⟩
      · exact ⟨⟨by decide, by decide +kernel⟩, by decide, by decide +kernel, by decide +kernel⟩
    have hfed : [] ++ (holding
        "PUT / HTTP/1.1\r\ncontent-length:9\r\nContent-Length :\t002 \r\n\r\nxyGET").contents =
          headerBytes 0 first lines ++ utf8 "xyGET" := by decide +kernel
    have hvalue : HeaderLine.last? lines "content-length" = some "002" := by decide +kernel
    have hnumber : number? (unsigned "002".toList) = some 2 := by decide +kernel
    exact ((contentLength (.fresh limits) rfl hfed hfirst hlines hvalue).1 2 hnumber (by decide)).1
      (by decide)
  · let lines : List HeaderLine := [⟨"Content-Length", " 18446744073709551616"⟩]
    have hlines : ∀ l ∈ lines, l.Valid ∧ Fits limits l.text := by
      refine List.forall_mem_singleton.mpr ?_
      exact ⟨⟨by decide, by decide +kernel⟩, by decide, by decide +kernel, by decide +kernel⟩
    have hfed : [] ++ (holding
        "PUT / HTTP/1.1\r\nContent-Length: 18446744073709551616\r\n\r\nxy").contents =
          headerBytes 0 first lines ++ utf8 "xy" := by decide +kernel
    have hvalue : HeaderLine.last? lines "content-length" = some "18446744073709551616" := by
      decide +kernel
    have hnumber : number? (unsigned "18446744073709551616".toList) = some UInt64.size := by
      decide +kernel
    exact (contentLength (.fresh limits) rfl hfed hfirst hlines hvalue).2.2.1 _ hnumber
      (Nat.le_refl _)

/-- A value that is not decimal digits and nothing else, and yet gives a request. -/
theorem plus_sign_accepted :
    let b : StreamBuffer :=
      { ring := ((RingBuffer.new 64).write
          (utf8 "POST / HTTP/1.1\r\nContent-Length: +1\r\n\r\na")).2
        isOpen := true }
    number? "+1".toList = none ∧
      (({ limits := {} } : Parser).nextRequest b).1 = .ok (some {
        method := "POST", target := "/", version := "HTTP/1.1"
        fields := [("content-length", "+1")], body := utf8 "a" }) := by
  intro b
  exact ⟨by decide +kernel, by decide +kernel⟩

end TcpReactor.Http
