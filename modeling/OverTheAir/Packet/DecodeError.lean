import OverTheAir.Packet.Code

/-!
# Packet/DecodeError — why a frame cannot be read

The causes are listed in the order in which they are looked for, and `refusal` is the code that the
sender of the frame is told.
-/

namespace OverTheAir

inductive DecodeError where
  /-- No byte at all. -/
  | empty
  /-- The leading byte is no command of this direction. -/
  | unknownCommand (raw : UInt8)
  /-- The frame does not have the length its command calls for. -/
  | length (command : Command) (expected actual : Nat)
  /-- The action field names no action. -/
  | unknownAction (raw : UInt8)
  /-- Another one-byte field names nothing. -/
  | unknownValue (raw : UInt8)
  deriving DecidableEq, Repr

namespace DecodeError

def refusal : DecodeError → Refusal
  | empty => .packetSize
  | unknownCommand _ => .noCommand
  | length _ _ _ => .packetSize
  | unknownAction _ => .noAction
  | unknownValue _ => .packetSize

def message : DecodeError → String
  | empty => "empty frame"
  | unknownCommand raw => s!"unknown command {raw.toNat}"
  | length command expected actual =>
    s!"{command.name} frame is {actual} bytes, expected {expected}"
  | unknownAction raw => s!"unknown action {raw.toNat}"
  | unknownValue raw => s!"unknown field value {raw.toNat}"

end DecodeError

end OverTheAir
