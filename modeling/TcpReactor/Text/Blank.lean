namespace TcpReactor.Text

/-! # Blanks and letter case

Header fields are trimmed of every blank of the Unicode character database (White_Space) and
compared without regard to the case of ASCII letters.
-/

/-- Is `c` a blank? -/
def isBlank (c : Char) : Bool :=
  let n := c.toNat
  (0x09 ≤ n && n ≤ 0x0D) || n == 0x20 || n == 0x85 || n == 0xA0 || n == 0x1680 ||
  (0x2000 ≤ n && n ≤ 0x200A) || n == 0x2028 || n == 0x2029 || n == 0x202F || n == 0x205F ||
  n == 0x3000

/-- The text without the blanks at its ends. -/
def trim (text : List Char) : List Char :=
  ((text.dropWhile isBlank).reverse.dropWhile isBlank).reverse

theorem dropWhile_dropWhile (text : List Char) :
    (text.dropWhile isBlank).dropWhile isBlank = text.dropWhile isBlank := by
  induction text with
  | nil => rfl
  | cons c text ih =>
      by_cases hc : isBlank c = true
      · rw [List.dropWhile_cons_of_pos hc]
        exact ih
      · rw [List.dropWhile_cons_of_neg hc, List.dropWhile_cons_of_neg hc]

/-- Trimming once is enough. -/
theorem trim_trim (text : List Char) : trim (trim text) = trim text := by
  have hfront : (trim text).dropWhile isBlank = trim text := by
    have hwhole : text.dropWhile isBlank =
        trim text ++ ((text.dropWhile isBlank).reverse.takeWhile isBlank).reverse := by
      rw [trim, ← List.reverse_append, List.takeWhile_append_dropWhile, List.reverse_reverse]
    have hfirst := List.head?_dropWhile_not isBlank text
    rw [hwhole] at hfirst
    cases htrim : trim text with
    | nil => rfl
    | cons c front =>
        rw [htrim] at hfirst
        exact List.dropWhile_cons_of_neg (by simpa using hfirst)
  rw [trim, hfront, trim, List.reverse_reverse, dropWhile_dropWhile]

/-- Are two texts equal but for the case of ASCII letters? -/
def sameIgnoringCase (a b : String) : Bool := a.toLower == b.toLower

theorem sameIgnoringCase_iff {a b : String} :
    sameIgnoringCase a b = true ↔ a.toList.map Char.toLower = b.toList.map Char.toLower := by
  have htoList (s : String) : s.toLower.toList = s.toList.map Char.toLower := String.toList_map
  rw [sameIgnoringCase, beq_iff_eq, ← String.toList_inj, htoList, htoList]

end TcpReactor.Text
