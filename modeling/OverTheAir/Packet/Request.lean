import OverTheAir.Bytes
import OverTheAir.Packet.DecodeError
import OverTheAir.Packet.Flags

/-!
# Packet/Request — frames from a client

```text
start    [1][total size, 4][idle timeout, 2][flags]     8 bytes
state    [2][flags][image chunk]                        2 bytes and the chunk
abort    [3]                                            1 byte
action   [4][action]                                    2 bytes
```

`decode` reads by the shape of the list, so it never looks past the end of a frame.  The main
statement is `decode_encode`; the first error that applies is the one reported.
-/

namespace OverTheAir

inductive Request where
  /-- Open a session for an image of `totalSize` bytes; an idle time of 0 asks for the default. -/
  | start (totalSize : UInt32) (timeoutMs : UInt16) (flags : SessionFlags)
  /-- The next chunk of the image, possibly empty; `isEnd` ends the image. -/
  | state (isEnd : Bool) (payload : Bytes)
  | abort
  | action (action : Action)
  deriving DecidableEq, Repr

namespace Request

/-- Bytes of a `state` frame before the chunk. -/
def stateHeaderLength : Nat := 2

def encode : Request → Bytes
  | start totalSize timeoutMs flags =>
    Command.start.number :: Bytes.ofWord32 totalSize ++ Bytes.ofWord16 timeoutMs ++ [flags.pack]
  | state isEnd payload => Command.state.number :: (if isEnd then 1 else 0) :: payload
  | abort => [Command.abort.number]
  | action a => [Command.action.number, a.number]

/-- The body of a frame whose command is known. -/
def decodeBody (command : Command) (body : Bytes) : Except DecodeError Request :=
  match command, body with
  | .start, [a, b, c, d, e, f, g] =>
    .ok (start (Bytes.word32 a b c d) (Bytes.word16 e f) (SessionFlags.unpack g))
  | .start, body => .error (.length .start 8 (body.length + 1))
  | .state, bits :: payload => .ok (state (bits.toNat.testBit 0) payload)
  | .state, [] => .error (.length .state stateHeaderLength 1)
  | .abort, [] => .ok abort
  | .abort, body => .error (.length .abort 1 (body.length + 1))
  | .action, [a] =>
    match Action.ofNumber? a with
    | some a => .ok (action a)
    | none => .error (.unknownAction a)
  | .action, body => .error (.length .action 2 (body.length + 1))
  | .error, _ => .error (.unknownCommand Command.error.number)

/-- The request that a frame carries. -/
def decode : Bytes → Except DecodeError Request
  | [] => .error .empty
  | raw :: body =>
    match Command.ofNumber? raw with
    | some command => decodeBody command body
    | none => .error (.unknownCommand raw)

/-- **Reading undoes writing**, whatever the sizes, the policy and the length of the chunk. -/
theorem decode_encode (r : Request) : decode r.encode = .ok r := by
  cases r with
  | start totalSize timeoutMs flags =>
    simp only [encode, Bytes.ofWord32, Bytes.ofWord16, List.cons_append, List.nil_append, decode,
      Command.ofNumber?_number, decodeBody, Bytes.word32_bytes32, Bytes.word16_bytes16,
      SessionFlags.unpack_pack]
  | state isEnd payload => cases isEnd <;> rfl
  | abort => rfl
  | action a => cases a <;> rfl

end Request

end OverTheAir
