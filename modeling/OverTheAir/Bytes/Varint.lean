import OverTheAir.Bytes

/-!
# Bytes/Varint — numbers in groups of seven bits

A number is written as groups of seven bits, lowest first; every byte but the last has its top bit
set.  A reader allows a fixed count of bytes and bounds the last of them, so that the number fits a
word; `read_write` says that reading undoes writing, whatever follows.  A number may also be padded
with empty groups, as long as the count of bytes is kept.
-/

namespace OverTheAir.Bytes

/-- The groups of a number; `more` bytes may follow the first one. -/
def writeVarint : (more : Nat) → Nat → Bytes
  | 0, n => [UInt8.ofNat n]
  | more + 1, n =>
    if n < 128 then [UInt8.ofNat n] else UInt8.ofNat (128 + n % 128) :: writeVarint more (n / 128)

/-- Read a number of at most `more + 1` bytes, of which the last allowed one is at most `top`.
Answers with the bytes that follow. -/
def readVarint (top : Nat) : (more : Nat) → Bytes → Option (Nat × Bytes)
  | _, [] => none
  | 0, b :: rest => if b.toNat ≤ top then some (b.toNat, rest) else none
  | more + 1, b :: rest =>
    if b.toNat < 128 then some (b.toNat, rest)
    else (readVarint top more rest).map fun (n, rest) => (b.toNat - 128 + 128 * n, rest)

/-- Numbers below the limit fit `more + 1` bytes of which the last is at most `top`. -/
def varintLimit (top : Nat) : (more : Nat) → Nat
  | 0 => top + 1
  | more + 1 => 128 * varintLimit top more

theorem read_write {top more n : Nat} (htop : top < 128) (hn : n < varintLimit top more)
    (rest : Bytes) : readVarint top more (writeVarint more n ++ rest) = some (n, rest) := by
  induction more generalizing n with
  | zero =>
    rw [varintLimit] at hn
    have h : (UInt8.ofNat n).toNat = n := by rw [UInt8.toNat_ofNat']; omega
    rw [writeVarint, List.singleton_append, readVarint, h, if_pos (by omega)]
  | succ more ih =>
    rw [writeVarint]
    split
    · next h =>
      have hb : (UInt8.ofNat n).toNat = n := by rw [UInt8.toNat_ofNat']; omega
      rw [List.singleton_append, readVarint, hb, if_pos h]
    · next h =>
      have hb : (UInt8.ofNat (128 + n % 128)).toNat = 128 + n % 128 := by
        rw [UInt8.toNat_ofNat']; omega
      have hlt : n / 128 < varintLimit top more := by
        rw [varintLimit] at hn
        omega
      rw [List.cons_append, readVarint, hb, if_neg (by omega), ih hlt, Option.map_some]
      have hsum : 128 + n % 128 - 128 + 128 * (n / 128) = n := by omega
      exact congrArg (fun k => some (k, rest)) hsum

end OverTheAir.Bytes
