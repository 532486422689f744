/-!
# Bytes — runs of bytes and little-endian words

A frame, an image chunk and a stored blob are all lists of bytes, first byte first.  A word of two
or four bytes is written lowest byte first; `word16_bytes16` and `word32_bytes32` say that reading
undoes writing, `bytes16_word16` and `bytes32_word32` that writing undoes reading.
-/

namespace OverTheAir

/-- A run of bytes, first one first. -/
abbrev Bytes := List UInt8

namespace Bytes

/-- What holds of the 256 bytes, counted up, holds of every byte. -/
theorem forall_byte {p : UInt8 → Prop} (counted : ∀ n : Fin 256, p (UInt8.ofNat n.val))
    (b : UInt8) : p b := by
  simpa using counted ⟨b.toNat, b.toNat_lt⟩

/-! ## Words -/

/-- The two bytes of a 16-bit word, lowest first. -/
def ofWord16 (n : UInt16) : Bytes :=
  [UInt8.ofNat n.toNat, UInt8.ofNat (n.toNat / 256)]

/-- The four bytes of a 32-bit word, lowest first. -/
def ofWord32 (n : UInt32) : Bytes :=
  [UInt8.ofNat n.toNat, UInt8.ofNat (n.toNat / 256), UInt8.ofNat (n.toNat / 65536),
    UInt8.ofNat (n.toNat / 16777216)]

/-- The 16-bit word with the given bytes, lowest first. -/
def word16 (a b : UInt8) : UInt16 :=
  UInt16.ofNat (a.toNat + 256 * b.toNat)

/-- The 32-bit word with the given bytes, lowest first. -/
def word32 (a b c d : UInt8) : UInt32 :=
  UInt32.ofNat (a.toNat + 256 * b.toNat + 65536 * c.toNat + 16777216 * d.toNat)

@[simp] theorem length_ofWord16 (n : UInt16) : (ofWord16 n).length = 2 := rfl

@[simp] theorem length_ofWord32 (n : UInt32) : (ofWord32 n).length = 4 := rfl

theorem word16_bytes16 (n : UInt16) :
    word16 (UInt8.ofNat n.toNat) (UInt8.ofNat (n.toNat / 256)) = n := by
  have := n.toNat_lt
  apply UInt16.toNat_inj.mp
  simp only [word16, UInt16.toNat_ofNat', UInt8.toNat_ofNat']
  omega

theorem bytes16_word16 (a b : UInt8) : ofWord16 (word16 a b) = [a, b] := by
  have := a.toNat_lt
  have := b.toNat_lt
  simp only [ofWord16, word16, UInt16.toNat_ofNat', List.cons.injEq, and_true]
  constructor <;> apply UInt8.toNat_inj.mp <;> simp only [UInt8.toNat_ofNat'] <;> omega

theorem word32_bytes32 (n : UInt32) :
    word32 (UInt8.ofNat n.toNat) (UInt8.ofNat (n.toNat / 256)) (UInt8.ofNat (n.toNat / 65536))
      (UInt8.ofNat (n.toNat / 16777216)) = n := by
  have := n.toNat_lt
  apply UInt32.toNat_inj.mp
  simp only [word32, UInt32.toNat_ofNat', UInt8.toNat_ofNat']
  omega

theorem bytes32_word32 (a b c d : UInt8) : ofWord32 (word32 a b c d) = [a, b, c, d] := by
  have := a.toNat_lt
  have := b.toNat_lt
  have := c.toNat_lt
  have := d.toNat_lt
  simp only [ofWord32, word32, UInt32.toNat_ofNat', List.cons.injEq, and_true]
  refine ⟨?_, ?_, ?_, ?_⟩ <;> apply UInt8.toNat_inj.mp <;> simp only [UInt8.toNat_ofNat'] <;> omega

/-- A length that fits into an announced size, behind what is there, is a 32-bit word, and the sum
is one too. -/
theorem toNat_add_ofNat {n total : UInt32} {len : Nat} (h : n.toNat + len ≤ total.toNat) :
    (UInt32.ofNat len).toNat = len ∧ (n + UInt32.ofNat len).toNat = n.toNat + len := by
  have hlt := total.toNat_lt
  have hlen : (UInt32.ofNat len).toNat = len := by
    rw [UInt32.toNat_ofNat']
    omega
  refine ⟨hlen, ?_⟩
  rw [UInt32.toNat_add, hlen]
  omega

/-! ## Text -/

/-- The UTF-8 bytes of a text. -/
def ofText (s : String) : Bytes := s.toUTF8.data.toList

/-- The text that some bytes spell in UTF-8; `none` when they spell none. -/
def text? (b : Bytes) : Option String := String.fromUTF8? ⟨b.toArray⟩

/-- The bytes before the first zero byte, all of them when there is none. -/
def beforeZero (b : Bytes) : Bytes := b.takeWhile (· ≠ 0)

/-- Lower-case hexadecimal digits of a number, without leading zeros. -/
def hexDigits (n : Nat) : String := String.ofList (Nat.toDigits 16 n)

/-- A byte as two lower-case hexadecimal digits. -/
def hexByte (b : UInt8) : String :=
  if b.toNat < 16 then "0" ++ hexDigits b.toNat else hexDigits b.toNat

theorem text?_ofText (s : String) : text? (ofText s) = some s := by
  have h : (⟨s.toUTF8.data.toList.toArray⟩ : ByteArray) = s.toByteArray := rfl
  rw [text?, ofText, h, String.fromUTF8?, dif_pos s.isValidUTF8]
  rfl

theorem ofText_of_text? {b : Bytes} {s : String} (h : text? b = some s) : ofText s = b := by
  rw [text?, String.fromUTF8?] at h
  split at h
  · obtain rfl := Option.some.inj h
    show b.toArray.toList = b
    simp
  · cases h

/-- **Exact spelling**: bytes spell a text iff they are its UTF-8 bytes. -/
theorem text?_eq_some_iff {b : Bytes} {s : String} : text? b = some s ↔ b = ofText s :=
  ⟨fun h => (ofText_of_text? h).symm, fun h => h ▸ text?_ofText s⟩

end Bytes

end OverTheAir
