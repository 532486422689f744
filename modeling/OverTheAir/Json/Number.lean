import OverTheAir.Json.Scanner

/-!
# Json/Number — numbers of a JSON text

A number without fraction and exponent that fits 64 bits is read as it stands; any other is a
floating-point number, of which only one thing matters here: whether it is too large to be one.
Its value is the double nearest to its leading digits times the double nearest to a power of ten.
-/

namespace OverTheAir.Json

def isDigit (b : UInt8) : Bool := 0x30 ≤ b.toNat && b.toNat ≤ 0x39

/-- The leading digits, and what follows them. -/
def digits (b : Bytes) : Bytes × Bytes := (b.takeWhile isDigit, b.dropWhile isDigit)

def digitValue (b : UInt8) : Nat := b.toNat - 0x30

/-! ## Size -/

/-- The nearest number of 53 significant bits; a tie goes to the even one. -/
def nearestDouble (n : Nat) : Nat :=
  let e := n.log2 - 52
  let unit := 1 <<< e
  let q := n / unit
  let r := n % unit
  if unit < 2 * r || (unit == 2 * r && q % 2 == 1) then (q + 1) * unit else q * unit

/-- Numbers from here on round to infinity: half a unit above the largest double. -/
def doubleLimit : Nat := (1 <<< 1024) - (1 <<< 970)

/-- Whether `significand · 10 ^ exponent` is too large for a double. -/
def exceedsDouble (significand : Nat) (exponent : Int) : Bool :=
  significand != 0 && 0 ≤ exponent &&
    (308 < exponent ||
      doubleLimit ≤ nearestDouble significand * nearestDouble (Nat.pow 10 exponent.toNat))

/-- Append digits to a number for as long as it stays below `2 ^ 64`.  Answers with the number and
how many digits it took. -/
def appendDigits (n : Nat) : Bytes → Nat × Nat
  | [] => (n, 0)
  | d :: ds =>
    let m := n * 10 + digitValue d
    if m < UInt64.size then
      let (m, k) := appendDigits m ds
      (m, k + 1)
    else (n, 0)

/-- The number that some digits spell. -/
def digitsValue (ds : Bytes) : Nat := ds.foldl (fun n d => n * 10 + digitValue d) 0

/-! ## Reading -/

/-- The digits before a fraction: no digit follows a leading zero. -/
def integerPart : Scanner Bytes := fun b =>
  match digits b with
  | ([], rest) => .error (problemAt rest)
  | (d :: ds, rest) => if d == 0x30 && !ds.isEmpty then .error .malformed else .ok (d :: ds, rest)

/-- At least one digit. -/
def someDigits : Scanner Bytes := fun b =>
  match digits b with
  | ([], rest) => .error (problemAt rest)
  | (d :: ds, rest) => .ok (d :: ds, rest)

/-- The digits after a point, when there is one. -/
def fraction : Scanner Bytes
  | 0x2E :: rest => someDigits rest
  | b => .ok ([], b)

/-- Whether a letter `e` follows. -/
def hasExponent : Bytes → Bool
  | b :: _ => b == 0x65 || b == 0x45
  | [] => false

/-- The exponent after its letter. -/
def exponent : Scanner Int := fun b => do
  let (negative, b) := match b with
    | 0x2B :: b => (false, b)
    | 0x2D :: b => (true, b)
    | b => (false, b)
  let (ds, b) ← someDigits b
  let n : Int := digitsValue ds
  return (if negative then -n else n, b)

/-- A number after its sign.  Answers with its value when it is a plain number below `2 ^ 64`, and
with nothing when it is another one; a number too large for a double is malformed. -/
def unsignedNumber : Scanner (Option Nat) := fun b => do
  let (ds, b) ← integerPart b
  let (n, k) := appendDigits 0 ds
  let dropped : Int := ds.length - k
  let (fs, b) ← fraction b
  let (n, k) := appendDigits n fs
  let shift := dropped - k
  if hasExponent b then
    let (e, b) ← exponent b.tail
    if exceedsDouble n (shift + e) then throw .malformed else return (none, b)
  else if fs.isEmpty && dropped = 0 then return (some n, b)
  else if exceedsDouble n shift then throw .malformed
  else return (none, b)

/-- A number.  One with a sign has no value to answer with. -/
def number : Scanner (Option Nat)
  | 0x2D :: rest => do
    let (_, rest) ← unsignedNumber rest
    return (none, rest)
  | b => unsignedNumber b

/-- Pass over a number after its sign.  What is cut short here counts as malformed. -/
def skipNumber : Scanner Unit := fun b =>
  let scan : Except Problem (Unit × Bytes) := do
    let (_, b) ← integerPart b
    let (_, b) ← fraction b
    if hasExponent b then
      let (_, b) ← exponent b.tail
      return ((), b)
    else return ((), b)
  scan.mapError fun _ => .malformed

end OverTheAir.Json
