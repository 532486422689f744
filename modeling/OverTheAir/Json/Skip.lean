import OverTheAir.Json.Number

/-!
# Json/Skip — passing over a value

A value nobody asked for is passed over with a stack of the brackets that are open.  Nothing of it
is kept, so a value may be nested as deep as it likes.
-/

namespace OverTheAir.Json

/-- An open bracket. -/
inductive Bracket where
  | list
  | object
  deriving DecidableEq, Repr

def Bracket.closing : Bracket → UInt8
  | list => 0x5D
  | object => 0x7D

/-- What has to come next. -/
inductive Place where
  /-- A value. -/
  | value
  /-- The first item or member of the innermost bracket, or its end. -/
  | opened
  /-- A member. -/
  | member
  /-- A comma, or the end of the innermost bracket. -/
  | after
  deriving DecidableEq, Repr

/-- A key and its colon, after the opening quote. -/
def skipKey : Scanner Unit := fun b => do
  let ((), b) ← skipString b
  match dropBlanks b with
  | 0x3A :: b => return ((), b)
  | b => throw (problemAt b)

/-- A value that is no list and no object, given its first byte. -/
def skipScalar (first : UInt8) (rest : Bytes) : Except Problem (Unit × Bytes) :=
  if first == 0x6E then word (Bytes.ofText "ull") rest
  else if first == 0x74 then word (Bytes.ofText "rue") rest
  else if first == 0x66 then word (Bytes.ofText "alse") rest
  else if first == 0x2D then skipNumber rest
  else if isDigit first then skipNumber (first :: rest)
  else if first == 0x22 then skipString rest
  else .error .malformed

/-- Go on from a place under some open brackets. -/
def skipFrom : (fuel : Nat) → Place → List Bracket → Scanner Unit
  | 0, _, _, _ => .error .malformed
  | fuel + 1, place, stack, b =>
    match place, stack, dropBlanks b with
    | .after, [], _ => .ok ((), b)
    | _, _, [] => .error .cutShort
    | .value, stack, c :: rest =>
      if c == 0x5B then skipFrom fuel .opened (.list :: stack) rest
      else if c == 0x7B then skipFrom fuel .opened (.object :: stack) rest
      else do
        let ((), rest) ← skipScalar c rest
        skipFrom fuel .after stack rest
    | .opened, top :: stack, c :: rest =>
      if c == top.closing then skipFrom fuel .after stack rest
      else
        let place := match top with | .list => .value | .object => .member
        skipFrom fuel place (top :: stack) (c :: rest)
    | .member, stack, c :: rest =>
      if c == 0x22 then do
        let ((), rest) ← skipKey rest
        skipFrom fuel .value stack rest
      else .error .malformed
    | .after, top :: stack, c :: rest =>
      if c == 0x2C then
        let place := match top with | .list => .value | .object => .member
        skipFrom fuel place (top :: stack) rest
      else if c == top.closing then skipFrom fuel .after stack rest
      else .error .malformed
    | .opened, [], _ :: _ => .error .malformed

/-- Pass over one value.  Every byte is met at most three times. -/
def skipValue : Scanner Unit := fun b => skipFrom (3 * b.length + 3) .value [] b

end OverTheAir.Json
