import OverTheAir.Bytes
import OverTheAir.Packet.DecodeError

/-!
# Packet/Response — frames from the device

```text
state    [2][bytes received, 4][bytes requested, 4]     9 bytes
abort    [3][reason]                                    2 bytes
action   [4][action][result, 4]                         6 bytes
error    [10][code]                                     2 bytes
```

**Reading and writing are inverse**: `decode_encode` one way, `encode_of_decode` the other, so
each response has one frame and each frame that can be read is the frame of its response.
-/

namespace OverTheAir

inductive Response where
  /-- Bytes taken over so far, and how many the next chunk should hold. -/
  | state (received requested : UInt32)
  | abort (reason : AbortReason)
  /-- The outcome of an action: 0, or the native code of what went wrong. -/
  | action (action : Action) (result : Int32)
  | error (code : Refusal)
  deriving DecidableEq, Repr

namespace Response

/-- Bytes of the largest frame. -/
def maxLength : Nat := 9

def encode : Response → Bytes
  | state received requested =>
    Command.state.number :: Bytes.ofWord32 received ++ Bytes.ofWord32 requested
  | abort reason => [Command.abort.number, reason.number]
  | action a result => Command.action.number :: a.number :: Bytes.ofWord32 result.toUInt32
  | error code => [Command.error.number, code.number]

/-- The body of a frame whose command is known. -/
def decodeBody (command : Command) (body : Bytes) : Except DecodeError Response :=
  match command, body with
  | .start, _ => .error (.unknownCommand Command.start.number)
  | .state, [a, b, c, d, e, f, g, h] => .ok (state (Bytes.word32 a b c d) (Bytes.word32 e f g h))
  | .state, body => .error (.length .state 9 (body.length + 1))
  | .abort, [raw] =>
    match AbortReason.ofNumber? raw with
    | some reason => .ok (abort reason)
    | none => .error (.unknownValue raw)
  | .abort, body => .error (.length .abort 2 (body.length + 1))
  | .action, [raw, a, b, c, d] =>
    match Action.ofNumber? raw with
    | some act => .ok (action act (Bytes.word32 a b c d).toInt32)
    | none => .error (.unknownAction raw)
  | .action, body => .error (.length .action 6 (body.length + 1))
  | .error, [raw] =>
    match Refusal.ofNumber? raw with
    | some code => .ok (error code)
    | none => .error (.unknownValue raw)
  | .error, body => .error (.length .error 2 (body.length + 1))

/-- The response that a frame carries. -/
def decode : Bytes → Except DecodeError Response
  | [] => .error .empty
  | raw :: body =>
    match Command.ofNumber? raw with
    | some command => decodeBody command body
    | none => .error (.unknownCommand raw)

/-- The frame as a line of a protocol dump: its bytes in hexadecimal. -/
def dump (r : Response) : String :=
  "ResponseFrame([" ++ ", ".intercalate (r.encode.map Bytes.hexByte) ++ "])"

theorem length_encode_le (r : Response) : r.encode.length ≤ maxLength := by
  cases r <;> simp [encode, maxLength, Bytes.ofWord32]

theorem decode_encode (r : Response) : decode r.encode = .ok r := by
  cases r with
  | state received requested =>
    simp only [encode, Bytes.ofWord32, List.cons_append, List.nil_append, decode,
      Command.ofNumber?_number, decodeBody, Bytes.word32_bytes32]
  | abort reason => simp [encode, decode, decodeBody]
  | action a result =>
    simp only [encode, Bytes.ofWord32, decode, Command.ofNumber?_number, decodeBody,
      Action.ofNumber?_number, Bytes.word32_bytes32, UInt32.toInt32]
  | error code => simp [encode, decode, decodeBody]

theorem encode_of_decodeBody {command : Command} {body : Bytes} {r : Response}
    (h : decodeBody command body = .ok r) : r.encode = command.number :: body := by
  unfold decodeBody at h
  split at h
  case h_2 => cases h; simp [encode, Bytes.bytes32_word32]
  case h_4 =>
    split at h
    · next hr => cases h; rw [encode, AbortReason.eq_of_ofNumber? hr]
    · cases h
  case h_6 =>
    split at h
    · next hr => cases h; simp [encode, Bytes.bytes32_word32, Action.eq_of_ofNumber? hr]
    · cases h
  case h_8 =>
    split at h
    · next hr => cases h; rw [encode, Refusal.eq_of_ofNumber? hr]
    · cases h
  all_goals cases h

/-- **Writing undoes reading**: a frame that can be read is the frame of what it carries. -/
theorem encode_of_decode {f : Bytes} {r : Response} (h : decode f = .ok r) : r.encode = f := by
  unfold decode at h
  split at h
  · cases h
  · split at h
    · next hc => rw [encode_of_decodeBody h, Command.eq_of_ofNumber? hc]
    · cases h

end Response

end OverTheAir
