import Mathlib.Data.List.Induction
import Mathlib.Data.List.TakeWhile
import Mathlib.Data.Nat.Digits.Defs
import TcpReactor.Http.Parser

namespace TcpReactor.Http

/-! # What the lines of a header say

A line is parsed if and only if it is spelled the right way:

* `parseRequestLine_eq_ok` for the first line, whose parts have one space between them;
* `parseHeaderLine_eq_ok` for the other lines, which are cut at their first colon;
* `parseLength?_eq_some` for the length of the body.

Where such a line leads is said by `accept_requestLine` and `accept_headers`. Of all lines with one
name the last one counts (`get?_fields`).
-/

/-! ## At the first occurrence of a character -/

section Cut

variable {c : Char} {text front back : List Char}

/-- A text is cut at the first `c`. -/
theorem cut_at : text.takeWhile (· ≠ c) = front ∧ text.dropWhile (· ≠ c) = c :: back ↔
    text = front ++ c :: back ∧ c ∉ front := by
  constructor
  · rintro ⟨hfront, hback⟩
    constructor
    · rw [← hfront, ← hback, List.takeWhile_append_dropWhile]
    · intro hmem
      rw [← hfront] at hmem
      simpa using List.mem_takeWhile_imp hmem
  · rintro ⟨rfl, hnone⟩
    have hpass : ∀ a ∈ front, decide (a ≠ c) = true := by
      intro a ha
      rw [decide_eq_true_eq]
      rintro rfl
      exact hnone ha
    rw [List.takeWhile_append_of_pos hpass, List.dropWhile_append_of_pos hpass]
    simp

/-- What is left is nothing, or starts with `c`. -/
theorem dropWhile_ne (c : Char) (text : List Char) :
    text.dropWhile (· ≠ c) = [] ∨ ∃ back, text.dropWhile (· ≠ c) = c :: back := by
  induction text with
  | nil => exact .inl rfl
  | cons a text ih =>
      by_cases ha : a = c
      · exact .inr ⟨text, by simp [ha]⟩
      · rw [List.dropWhile_cons_of_pos (by simpa using ha)]
        exact ih

end Cut

/-! ## The first line -/

namespace RequestLine

/-- The line that says it. -/
def text (first : RequestLine) : String :=
  first.method ++ " " ++ first.target ++ " " ++ first.version

structure Valid (first : RequestLine) : Prop where
  method : first.method ≠ "" ∧ ' ' ∉ first.method.toList
  target : first.target ≠ "" ∧ ' ' ∉ first.target.toList
  version : first.version = "HTTP/1.1" ∨ first.version = "HTTP/1.0"

theorem toList_text (first : RequestLine) : first.text.toList =
    first.method.toList ++ ' ' :: (first.target.toList ++ ' ' :: first.version.toList) := by
  simp [text, String.toList_append]

end RequestLine

/-- What follows the second space belongs to the version, whatever it is. -/
theorem parseRequestLine_eq_ok {line : List Char} {first : RequestLine} :
    parseRequestLine line = .ok first ↔ first.Valid ∧ first.text.toList = line := by
  unfold parseRequestLine
  constructor
  · intro h
    dsimp only at h
    split at h
    · cases h
    rename_i hparts
    simp only [Bool.or_eq_true, List.isEmpty_iff, not_or] at hparts
    rcases hparts with ⟨⟨hmethod, htarget⟩, hversion⟩
    split at h
    · cases h
    rename_i hknown
    cases h
    -- there is a target, so there is a first space, and a version, so there is a second one
    rcases dropWhile_ne ' ' line with hnone | ⟨rest, hrest⟩
    · rw [hnone] at htarget
      exact absurd rfl htarget
    rw [hrest, List.tail_cons] at htarget hversion hknown ⊢
    rcases dropWhile_ne ' ' rest with hnone | ⟨version, hrest'⟩
    · rw [hnone] at hversion
      exact absurd rfl hversion
    rw [hrest', List.tail_cons] at hversion hknown ⊢
    rcases cut_at.mp ⟨rfl, hrest⟩ with ⟨hline, hspace⟩
    rcases cut_at.mp ⟨rfl, hrest'⟩ with ⟨hline', hspace'⟩
    constructor
    · constructor
      case method =>
        rw [String.toList_ofList]
        exact ⟨fun h => hmethod (by simpa using congrArg String.toList h), hspace⟩
      case target =>
        rw [String.toList_ofList]
        exact ⟨fun h => htarget (by simpa using congrArg String.toList h), hspace'⟩
      case version =>
        rw [not_and_or, not_not, not_not] at hknown
        exact hknown
    · rw [RequestLine.toList_text]
      simp only [String.toList_ofList]
      rw [← hline', ← hline]
  · rintro ⟨⟨hmethod, htarget, hversion⟩, rfl⟩
    rcases first with ⟨method, target, version⟩
    dsimp only at hmethod htarget hversion
    rw [RequestLine.toList_text]
    dsimp only
    rcases cut_at.mpr ⟨rfl, hmethod.2⟩ with ⟨htake, hdrop⟩
    rw [htake, hdrop, List.tail_cons]
    rcases cut_at.mpr ⟨rfl, htarget.2⟩ with ⟨htake', hdrop'⟩
    rw [htake', hdrop', List.tail_cons, String.ofList_toList, String.ofList_toList,
      String.ofList_toList]
    have hparts : ¬ (method.toList.isEmpty || target.toList.isEmpty || version.toList.isEmpty)
        = true := by
      have hversion' : version ≠ "" := by
        rintro rfl
        rcases hversion with h | h
        · exact absurd h (by decide)
        · exact absurd h (by decide)
      simp [hmethod.1, htarget.1, hversion']
    have hknown : ¬ (version ≠ "HTTP/1.1" ∧ version ≠ "HTTP/1.0") := by
      rintro ⟨h, h'⟩
      rcases hversion with h'' | h''
      · exact h h''
      · exact h' h''
    rw [if_neg hparts, if_neg hknown]

/-! ## The other lines -/

/-- A header line, cut at its first colon. -/
structure HeaderLine where
  key : String
  value : String
  deriving DecidableEq, Repr

namespace HeaderLine

def text (l : HeaderLine) : String := l.key ++ ":" ++ l.value

/-- The name of the field: the key, trimmed and in lower case. -/
def name (l : HeaderLine) : String := .ofList ((Text.trim l.key.toList).map Char.toLower)

/-- The value of the field, trimmed. -/
def content (l : HeaderLine) : String := .ofList (Text.trim l.value.toList)

structure Valid (l : HeaderLine) : Prop where
  colon : ':' ∉ l.key.toList
  /-- The key is not blank. -/
  key : Text.trim l.key.toList ≠ []

theorem toLower_toLower (c : Char) : c.toLower.toLower = c.toLower := by
  unfold Char.toLower
  split
  · rename_i hupper
    rw [dif_neg]
    -- a letter that was put into lower case is behind all the upper case letters
    rintro ⟨_, hle⟩
    simp only [UInt32.le_iff_toNat_le, UInt32.toNat_add] at hupper hle
    have : ('A'.val.toNat = 65) ∧ ('Z'.val.toNat = 90) := ⟨rfl, rfl⟩
    have : ('a'.val - 'A'.val).toNat = 32 := rfl
    omega
  · rename_i hupper
    rfl

/-- The names are in lower case, and stay as they are if they are put into it again. -/
theorem toLower_name (l : HeaderLine) : l.name.toLower = l.name := by
  unfold name String.toLower
  rw [← String.toList_inj, String.toList_map, String.toList_ofList, List.map_map]
  refine List.map_congr_left fun c _ => ?_
  exact toLower_toLower c

theorem toList_text (l : HeaderLine) : l.text.toList = l.key.toList ++ ':' :: l.value.toList := by
  simp [text, String.toList_append]

end HeaderLine

theorem parseHeaderLine_eq_ok {line : List Char} {name content : String} :
    parseHeaderLine line = .ok (name, content) ↔
      ∃ l : HeaderLine, l.Valid ∧ l.text.toList = line ∧ l.name = name ∧ l.content = content := by
  unfold parseHeaderLine
  constructor
  · intro h
    rcases dropWhile_ne ':' line with hnone | ⟨value, hvalue⟩
    · rw [hnone] at h
      cases h
    -- the first colon cuts the line in two, and the name has none
    rcases cut_at.mp ⟨rfl, hvalue⟩ with ⟨hline, hcolon⟩
    rw [hvalue] at h
    dsimp only at h
    split at h
    · cases h
    rename_i hname
    cases h
    refine ⟨⟨.ofList (line.takeWhile (· ≠ ':')), .ofList value⟩, ⟨?_, ?_⟩, ?_, ?_, ?_⟩
    · rw [String.toList_ofList]
      exact hcolon
    · rw [String.toList_ofList]
      intro hblank
      exact hname (by rw [hblank]; rfl)
    · rw [HeaderLine.toList_text, String.toList_ofList, String.toList_ofList]
      exact hline.symm
    · rw [HeaderLine.name, String.toList_ofList]
    · rw [HeaderLine.content, String.toList_ofList]
  · rintro ⟨l, ⟨hcolon, hkey⟩, rfl, rfl, rfl⟩
    rw [HeaderLine.toList_text]
    rcases cut_at.mpr ⟨rfl, hcolon⟩ with ⟨htake, hdrop⟩
    rw [htake, hdrop]
    dsimp only
    rw [if_neg (by simpa using hkey)]
    rfl

/-! ## The length of the body -/

/-- The number that decimal digits spell. -/
def number? (text : List Char) : Option Nat :=
  if text ≠ [] ∧ text.all Char.isDigit then some (Nat.ofDigitChars 10 text 0) else none

/-- The value of a decimal digit. -/
def digitValue (c : Char) : Nat := c.toNat - '0'.toNat

/-- The text is a number of 64 bits in decimal digits, perhaps with a plus sign. -/
def SpellsLength (text : List Char) (n : Nat) : Prop :=
  ∃ digits, (text = digits ∨ text = '+' :: digits) ∧ digits ≠ [] ∧
    (∀ c ∈ digits, c.isDigit = true) ∧
    Nat.ofDigits 10 (digits.reverse.map digitValue) = n ∧ n < UInt64.size

theorem mapM_digit? {digits : List Char} {values : List Nat} :
    digits.mapM digit? = some values ↔
      (∀ c ∈ digits, c.isDigit = true) ∧ values = digits.map digitValue := by
  induction digits generalizing values with
  | nil =>
      constructor
      · intro h
        cases h
        exact ⟨by simp, rfl⟩
      · rintro ⟨_, rfl⟩
        rfl
  | cons c digits ih =>
      rw [List.mapM_cons]
      by_cases hc : c.isDigit = true
      · have hdigit : digit? c = some (digitValue c) := by rw [digit?, if_pos hc]; rfl
        rw [hdigit]
        -- the first is a digit, so all depends on the rest
        cases hrest : digits.mapM digit? with
        | none =>
            constructor
            · intro h
              cases h
            · rintro ⟨hall, _⟩
              have hsome := ih.mpr ⟨fun c' hc' => hall c' (List.mem_cons_of_mem _ hc'), rfl⟩
              rw [hrest] at hsome
              cases hsome
        | some values' =>
            rcases ih.mp hrest with ⟨hall, rfl⟩
            constructor
            · intro h
              cases h
              exact ⟨List.forall_mem_cons.mpr ⟨hc, hall⟩, rfl⟩
            · rintro ⟨_, rfl⟩
              rfl
      · have hdigit : digit? c = none := by rw [digit?, if_neg hc]
        rw [hdigit]
        constructor
        · intro h
          cases h
        · rintro ⟨hall, _⟩
          exact absurd (hall c List.mem_cons_self) hc

/-- Digits are read from the left, and count from the right. -/
theorem foldl_digits (values : List Nat) :
    values.foldl (fun n d => n * 10 + d) 0 = Nat.ofDigits 10 values.reverse := by
  induction values using List.reverseRecOn with
  | nil => rfl
  | append_singleton values d ih =>
      rw [List.foldl_append, List.foldl_cons, List.foldl_nil, ih, List.reverse_append,
        List.reverse_singleton, List.singleton_append, Nat.ofDigits_cons]
      omega

/-- The number that digits spell, without a sign. -/
theorem unsigned_eq_some (digits : List Char) {n : Nat} :
    (if digits.isEmpty then none
      else (digits.mapM digit?).bind fun values =>
        if values.foldl (fun n d => n * 10 + d) 0 < UInt64.size
        then some (values.foldl (fun n d => n * 10 + d) 0) else none) = some n ↔
      digits ≠ [] ∧ (∀ c ∈ digits, c.isDigit = true) ∧
        Nat.ofDigits 10 (digits.reverse.map digitValue) = n ∧ n < UInt64.size := by
  constructor
  · intro h
    split at h
    · cases h
    rename_i hsome
    rcases Option.bind_eq_some_iff.mp h with ⟨values, hvalues, hn⟩
    rcases mapM_digit?.mp hvalues with ⟨hall, rfl⟩
    split at hn
    · rename_i hsize
      cases hn
      refine ⟨by simpa using hsome, hall, ?_, hsize⟩
      -- the parser reads from the front, `Nat.ofDigits` from the back
      rw [foldl_digits, List.map_reverse]
    · cases hn
  · rintro ⟨hsome, hall, rfl, hsize⟩
    rw [List.map_reverse, ← foldl_digits] at hsize ⊢
    rw [if_neg (by simpa using hsome), mapM_digit?.mpr ⟨hall, rfl⟩, Option.bind_some, if_pos hsize]

theorem parseLength?_eq_some {text : List Char} {n : Nat} :
    parseLength? text = some n ↔ SpellsLength text n := by
  unfold parseLength?
  dsimp only
  split
  · rename_i digits
    refine Iff.trans (unsigned_eq_some digits) ?_
    constructor
    · rintro ⟨hsome, hall, hn⟩
      exact ⟨digits, .inr rfl, hsome, hall, hn⟩
    · rintro ⟨digits', hsign | hsign, hsome, hall, hn⟩
      · -- a plus sign is no digit
        subst hsign
        exact absurd (hall '+' List.mem_cons_self) (by decide)
      · cases hsign
        exact ⟨hsome, hall, hn⟩
  · rename_i hplus
    refine Iff.trans (unsigned_eq_some text) ?_
    constructor
    · rintro ⟨hsome, hall, hn⟩
      exact ⟨text, .inl rfl, hsome, hall, hn⟩
    · rintro ⟨digits, hsign | hsign, hsome, hall, hn⟩
      · subst hsign
        exact ⟨hsome, hall, hn⟩
      · exact absurd hsign (hplus digits)

variable {limits : Limits}

theorem declaredLength_eq_ok {fields : Fields} {n : Nat} :
    declaredLength limits fields = .ok n ↔
      match Fields.get? "content-length" fields with
      | none => n = 0
      | some value => SpellsLength (Text.trim value.toList) n ∧ n ≤ limits.maxBody.toNat := by
  unfold declaredLength
  cases Fields.get? "content-length" fields with
  | none =>
      dsimp only
      rw [Except.ok.injEq]
      exact eq_comm
  | some value =>
      dsimp only
      -- a spelling has at most one value, so the limit can be checked behind the parse
      rw [← parseLength?_eq_some]
      cases parseLength? (Text.trim value.toList) with
      | none => simp
      | some m =>
          dsimp only
          split
          · rename_i hlarge
            constructor
            · intro h
              cases h
            · rintro ⟨hm, hsmall⟩
              cases hm
              omega
          · rename_i hsmall
            rw [Except.ok.injEq, Option.some.injEq]
            constructor
            · rintro rfl
              exact ⟨rfl, Nat.le_of_not_lt hsmall⟩
            · exact And.left

/-! ## Where a line leads -/

theorem accept_requestLine {text : String} {next : Advance} :
    Stage.requestLine.accept limits text = .ok next ↔
      (text = "" ∧ next = .stage .requestLine) ∨
      (text ≠ "" ∧ ∃ first : RequestLine, first.Valid ∧ first.text = text ∧
        next = .stage (.headers first [])) := by
  rw [Stage.accept]
  by_cases htext : text = ""
  · rw [if_pos (by simpa using htext), Except.ok.injEq]
    constructor
    · rintro rfl
      exact .inl ⟨htext, rfl⟩
    · rintro (⟨_, rfl⟩ | ⟨hsome, _⟩)
      · rfl
      · exact absurd htext hsome
  · rw [if_neg (by simpa using htext)]
    constructor
    · intro h
      cases hparse : parseRequestLine text.toList with
      | error e =>
          rw [hparse] at h
          cases h
      | ok first =>
          rw [hparse] at h
          cases h
          obtain ⟨hvalid, hline⟩ := parseRequestLine_eq_ok.mp hparse
          exact .inr ⟨htext, first, hvalid, String.toList_inj.mp hline, rfl⟩
    · rintro (⟨hnone, _⟩ | ⟨_, first, hvalid, rfl, rfl⟩)
      · exact absurd hnone htext
      · rw [parseRequestLine_eq_ok.mpr ⟨hvalid, rfl⟩]
        rfl

/-- The empty line ends the header, and without a body the request as well. -/
theorem accept_headers {first : RequestLine} {fields : Fields} {text : String} {next : Advance} :
    (Stage.headers first fields).accept limits text = .ok next ↔
      (text = "" ∧ declaredLength limits fields = .ok 0 ∧
        next = .request { first with fields, body := [] }) ∨
      (text = "" ∧ ∃ length, declaredLength limits fields = .ok length ∧ length ≠ 0 ∧
        next = .stage (.body first fields length)) ∨
      (text ≠ "" ∧ ∃ l : HeaderLine, l.Valid ∧ l.text = text ∧
        next = .stage (.headers first (fields.insert l.name l.content))) := by
  rw [Stage.accept]
  -- the empty line asks what the header declares, any other line is a field
  by_cases htext : text = ""
  · rw [if_pos (by simpa using htext)]
    constructor
    · intro h
      cases hlength : declaredLength limits fields with
      | error e =>
          rw [hlength] at h
          cases h
      | ok length =>
          rw [hlength] at h
          simp only [bind, Except.bind] at h
          split at h
          · rename_i hzero
            cases h
            exact .inl ⟨htext, by rw [hzero], rfl⟩
          · rename_i hsome
            cases h
            exact .inr (.inl ⟨htext, length, rfl, hsome, rfl⟩)
    · rintro (⟨_, hlength, rfl⟩ | ⟨_, length, hlength, hsome, rfl⟩ | ⟨hsome, _⟩)
      · rw [hlength]
        rfl
      · rw [hlength]
        simp only [bind, Except.bind]
        rw [if_neg hsome]
        rfl
      · exact absurd htext hsome
  · rw [if_neg (by simpa using htext)]
    constructor
    · intro h
      cases hparse : parseHeaderLine text.toList with
      | error e =>
          rw [hparse] at h
          cases h
      | ok field =>
          rw [hparse] at h
          cases h
          obtain ⟨l, hvalid, hline, hname, hcontent⟩ := parseHeaderLine_eq_ok.mp hparse
          refine .inr (.inr ⟨htext, l, hvalid, String.toList_inj.mp hline, ?_⟩)
          rw [hname, hcontent]
    · rintro (⟨hnone, _⟩ | ⟨hnone, _⟩ | ⟨_, l, hvalid, rfl, rfl⟩)
      · exact absurd hnone htext
      · exact absurd hnone htext
      · rw [parseHeaderLine_eq_ok.mpr ⟨l, hvalid, rfl, rfl, rfl⟩]
        rfl

/-! ## The field map -/

/-- The map that the lines build up. -/
def HeaderLine.fields (lines : List HeaderLine) : Fields :=
  lines.foldl (fun fields l => fields.insert l.name l.content) []

/-- What the last line with a name says. -/
def HeaderLine.last? (lines : List HeaderLine) (name : String) : Option String :=
  ((lines.filter (·.name == name)).getLast?).map HeaderLine.content

theorem HeaderLine.fields_append (lines : List HeaderLine) (l : HeaderLine) :
    fields (lines ++ [l]) = (fields lines).insert l.name l.content := by
  rw [fields, List.foldl_append]
  rfl

theorem get?_fields (lines : List HeaderLine) (name : String) :
    (HeaderLine.fields lines).get? name = HeaderLine.last? lines name := by
  induction lines using List.reverseRecOn with
  | nil => rfl
  | append_singleton lines l ih =>
      rw [HeaderLine.fields_append, Fields.get?_insert, ih, HeaderLine.last?, HeaderLine.last?,
        List.filter_append]
      by_cases hname : l.name = name
      · rw [if_pos hname, List.filter_cons_of_pos (by simpa using hname)]
        simp
      · rw [if_neg hname, List.filter_cons_of_neg (by simpa using hname)]
        simp

/-- A new name comes last, an old one keeps its place. -/
theorem names_insert (name value : String) (fields : Fields) :
    (fields.insert name value).map Prod.fst =
      fields.map Prod.fst ++ if name ∈ fields.map Prod.fst then [] else [name] := by
  induction fields with
  | nil => simp [Fields.insert]
  | cons field fields ih =>
      rcases field with ⟨key, old⟩
      rw [Fields.insert]
      by_cases hkey : key = name
      · rw [if_pos hkey]
        simp [hkey]
      · rw [if_neg hkey, List.map_cons, List.map_cons, ih]
        by_cases hname : name ∈ fields.map Prod.fst
        · rw [if_pos hname, if_pos (List.mem_cons_of_mem key hname)]
          simp
        · have hnone : name ∉ key :: fields.map Prod.fst := by
            rw [List.mem_cons, not_or]
            exact ⟨Ne.symm hkey, hname⟩
          rw [if_neg hname, if_neg hnone]
          simp

/-- The names of the map are those of the lines, in the order of their first lines. -/
theorem names_fields (lines : List HeaderLine) :
    (HeaderLine.fields lines).map Prod.fst = (lines.map HeaderLine.name).eraseDups := by
  induction lines using List.reverseRecOn with
  | nil => rfl
  | append_singleton lines l ih =>
      rw [HeaderLine.fields_append, names_insert, ih, List.map_append, List.eraseDups_append]
      congr 1
      by_cases hname : l.name ∈ lines.map HeaderLine.name
      · rw [if_pos (List.mem_eraseDups.mpr hname), List.map_singleton, List.removeAll,
          List.filter_cons_of_neg (by simpa using hname)]
        rfl
      · rw [if_neg (fun h => hname (List.mem_eraseDups.mp h)), List.map_singleton, List.removeAll,
          List.filter_cons_of_pos (by simpa using hname)]
        rfl

theorem nodup_names (lines : List HeaderLine) :
    ((HeaderLine.fields lines).map Prod.fst).Nodup := by
  induction lines using List.reverseRecOn with
  | nil => exact List.nodup_nil
  | append_singleton lines l ih =>
      rw [HeaderLine.fields_append, names_insert]
      by_cases hname : l.name ∈ (HeaderLine.fields lines).map Prod.fst
      · rw [if_pos hname, List.append_nil]
        exact ih
      · rw [if_neg hname, List.nodup_append]
        refine ⟨ih, List.pairwise_singleton _ _, ?_⟩
        intro name hold name' hnew heq
        rw [List.mem_singleton] at hnew
        rw [heq, hnew] at hold
        exact hname hold

/-- Two maps with the same names in the same order and the same values are the same. -/
theorem fields_ext {fields fields' : Fields}
    (hnames : fields.map Prod.fst = fields'.map Prod.fst) (hnodup : (fields.map Prod.fst).Nodup)
    (hvalues : ∀ name ∈ fields.map Prod.fst, Fields.get? name fields = Fields.get? name fields') :
    fields = fields' := by
  induction fields generalizing fields' with
  | nil =>
      cases fields' with
      | nil => rfl
      | cons field fields' => cases hnames
  | cons field fields ih =>
      cases fields' with
      | nil => cases hnames
      | cons field' fields' =>
          rcases field with ⟨name, value⟩
          rcases field' with ⟨name', value'⟩
          rw [List.map_cons, List.map_cons, List.cons.injEq] at hnames
          rcases hnames with ⟨rfl, hnames⟩
          rw [List.map_cons, List.nodup_cons] at hnodup
          have hvalue : value = value' := by
            simpa [Fields.get?] using hvalues name List.mem_cons_self
          -- the first name does not come again, so it does not hide the others
          have hrest : ∀ other ∈ fields.map Prod.fst,
              Fields.get? other fields = Fields.get? other fields' := by
            intro other hother
            have hne : name ≠ other := by
              rintro rfl
              exact hnodup.1 hother
            have hboth := hvalues other (List.mem_cons_of_mem _ hother)
            simpa [Fields.get?, hne] using hboth
          rw [hvalue, ih hnames hnodup.2 hrest]

end TcpReactor.Http
