namespace TcpReactor

/-! # Byte strings

Everything that crosses a connection is a list of bytes. This module holds the few operations
that more than one layer needs: laying received bytes over a destination, the bytes of a text,
and the four-byte big-endian form of a number, with the fact that it reads back.
-/

/-- A byte string. -/
abbrev Bytes := List UInt8

/-- Lay `data` over the front of `dst`: the destination keeps its own bytes behind it. -/
def overlay (data dst : Bytes) : Bytes :=
  data ++ dst.drop data.length

/-- The UTF-8 bytes of a text. -/
def utf8 (text : String) : Bytes :=
  text.toUTF8.data.toList

/-- The text that `bytes` encode, if they are valid UTF-8. Overlong forms and surrogates are not. -/
def utf8Decode? (bytes : Bytes) : Option String :=
  String.fromUTF8? ⟨bytes.toArray⟩

/-- What decodes is what encodes. -/
theorem utf8Decode?_eq_some {bytes : Bytes} {text : String} :
    utf8Decode? bytes = some text ↔ utf8 text = bytes := by
  unfold utf8Decode? utf8 String.fromUTF8?
  constructor
  · intro h
    split at h
    · cases h
      rfl
    · cases h
  · rintro rfl
    have hvalid : ByteArray.IsValidUTF8 ⟨text.toUTF8.data.toList.toArray⟩ := text.isValidUTF8
    rw [dif_pos hvalid]
    rfl

/-- Does `part` occur in `text`, at any place? -/
def occursIn (part : List Char) : List Char → Bool
  | [] => part.isEmpty
  | c :: text => part.isPrefixOf (c :: text) || occursIn part text

/-! ## Big-endian words -/

/-- The low 32 bits of `n`, most significant byte first. -/
def beWord (n : Nat) : Bytes :=
  [.ofNat (n / 0x1000000), .ofNat (n / 0x10000), .ofNat (n / 0x100), .ofNat n]

/-- The number that `bytes` spell, most significant byte first. -/
def ofBeWord (bytes : Bytes) : Nat :=
  bytes.foldl (fun n b => n * 256 + b.toNat) 0

@[simp] theorem length_beWord (n : Nat) : (beWord n).length = 4 := rfl

/-- A number of 32 bits reads back from its big-endian form. -/
theorem ofBeWord_beWord {n : Nat} (h : n < UInt32.size) : ofBeWord (beWord n) = n := by
  simp only [UInt32.size] at h
  simp only [ofBeWord, beWord, List.foldl, UInt8.toNat_ofNat']
  omega

/-- Four bytes are the big-endian form of the number that they spell. -/
theorem beWord_ofBeWord {bytes : Bytes} (h : bytes.length = 4) :
    beWord (ofBeWord bytes) = bytes := by
  match bytes, h with
  | [a, b, c, d], _ =>
      have ha := a.toNat_lt
      have hb := b.toNat_lt
      have hc := c.toNat_lt
      have hd := d.toNat_lt
      simp only [ofBeWord, beWord, List.foldl, List.cons.injEq, and_true, ← UInt8.toNat_inj,
        UInt8.toNat_ofNat']
      omega

end TcpReactor
