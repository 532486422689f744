import OverTheAir.Bytes

/-!
# Json/Scanner — reading a JSON text from left to right

A scanner takes something off the front of the text's bytes and answers with what follows.  The text
is read once, and **the first problem met decides** how it is refused: it is cut short, it is
malformed, or it is well formed so far and does not fit what is asked for.

`skipValue` passes over a value nobody asked for, of any depth; `string` reads a text and
`skipString` passes over one.  A passed-over text may hold half of a surrogate pair.
-/

namespace OverTheAir.Json

/-- How a text is refused. -/
inductive Problem where
  /-- The text ends where more has to come. -/
  | cutShort
  /-- No JSON text goes on like this. -/
  | malformed
  /-- A value of the wrong kind or out of range, a member that is missing or there twice. -/
  | unfit
  deriving DecidableEq, Repr

/-- Takes something off the front of the bytes. -/
abbrev Scanner (α : Type) := Bytes → Except Problem (α × Bytes)

/-- Cut short at the end of the text, malformed before it. -/
def problemAt : Bytes → Problem
  | [] => .cutShort
  | _ :: _ => .malformed

/-! ## Blanks and words -/

/-- Blank, line feed, carriage return and tab. -/
def isBlank (b : UInt8) : Bool := b == 0x20 || b == 0x0A || b == 0x0D || b == 0x09

def dropBlanks (b : Bytes) : Bytes := b.dropWhile isBlank

/-- A fixed word, byte by byte. -/
def word : Bytes → Scanner Unit
  | [], b => .ok ((), b)
  | _ :: _, [] => .error .cutShort
  | w :: ws, b :: bs => if b == w then word ws bs else .error .malformed

/-! ## Texts -/

/-- The value of a hexadecimal digit. -/
def hexValue? (b : UInt8) : Option Nat :=
  let n := b.toNat
  if 0x30 ≤ n ∧ n ≤ 0x39 then some (n - 0x30)
  else if 0x41 ≤ n ∧ n ≤ 0x46 then some (n - 0x41 + 10)
  else if 0x61 ≤ n ∧ n ≤ 0x66 then some (n - 0x61 + 10)
  else none

/-- Four hexadecimal digits; the four bytes are looked at together. -/
def hexWord : Scanner Nat
  | a :: b :: c :: d :: rest =>
    match hexValue? a, hexValue? b, hexValue? c, hexValue? d with
    | some a, some b, some c, some d => .ok (((a * 16 + b) * 16 + c) * 16 + d, rest)
    | _, _, _, _ => .error .malformed
  | _ => .error .cutShort

/-- The second half of a surrogate pair, after its first half. -/
def lowSurrogate : Scanner Nat
  | 0x5C :: 0x75 :: rest => do
    let (n, rest) ← hexWord rest
    if 0xDC00 ≤ n ∧ n ≤ 0xDFFF then return (n, rest) else throw .malformed
  | 0x5C :: rest => .error (problemAt rest)
  | rest => .error (problemAt rest)

/-- The character of a `\u` escape: a surrogate has to be the first half of a pair. -/
def unicodeEscape : Scanner Char := fun b => do
  let (n, b) ← hexWord b
  if 0xDC00 ≤ n ∧ n ≤ 0xDFFF then throw .malformed
  else if 0xD800 ≤ n ∧ n ≤ 0xDBFF then
    let (low, b) ← lowSurrogate b
    return (Char.ofNat (0x10000 + (n - 0xD800) * 0x400 + (low - 0xDC00)), b)
  else return (Char.ofNat n, b)

/-- The character of an escape of one letter. -/
def letterEscape? (b : UInt8) : Option UInt8 :=
  if b == 0x22 || b == 0x5C || b == 0x2F then some b
  else if b == 0x62 then some 0x08
  else if b == 0x66 then some 0x0C
  else if b == 0x6E then some 0x0A
  else if b == 0x72 then some 0x0D
  else if b == 0x74 then some 0x09
  else none

/-- What stands after a backslash, as UTF-8. -/
def escape : Scanner Bytes
  | [] => .error .cutShort
  | b :: rest =>
    if b == 0x75 then do
      let (c, rest) ← unicodeEscape rest
      return (Bytes.ofText (String.singleton c), rest)
    else
      match letterEscape? b with
      | some e => .ok ([e], rest)
      | none => .error .malformed

/-- Pass over what stands after a backslash. -/
def skipEscape : Scanner Unit
  | [] => .error .cutShort
  | b :: rest =>
    if b == 0x75 then do
      let (_, rest) ← hexWord rest
      return ((), rest)
    else if (letterEscape? b).isSome then .ok ((), rest)
    else .error .malformed

/-- A text after its opening quote, read with `unescape`; `done` holds the bytes so far, last
first. -/
def stringWith (unescape : Scanner Bytes) : (fuel : Nat) → (done : Bytes) → Scanner Bytes
  | 0, _, _ => .error .cutShort
  | _ + 1, _, [] => .error .cutShort
  | fuel + 1, done, b :: rest =>
    if b == 0x22 then .ok (done.reverse, rest)
    else if b == 0x5C then do
      let (e, rest) ← unescape rest
      stringWith unescape fuel (e.reverse ++ done) rest
    else if b < 0x20 then .error .malformed
    else stringWith unescape fuel (b :: done) rest

/-- The bytes of a text after its opening quote. -/
def string : Scanner Bytes := fun b => stringWith escape (b.length + 1) [] b

/-- Pass over a text after its opening quote. -/
def skipString : Scanner Unit := fun b => do
  let (_, rest) ← stringWith (fun b => do
    let ((), rest) ← skipEscape b
    return ([], rest)) (b.length + 1) [] b
  return ((), rest)

end OverTheAir.Json
