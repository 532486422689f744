import OverTheAir.Bytes

/-!
# Packet/Code — the one-byte codes of a frame

A frame opens with a **command** byte; one-byte fields name an **action**, the **refusal** of a
request or the **reason** a session was aborted.  Each code has its number, and `ofNumber?` finds
the code back: `ofNumber?_number` and `eq_of_ofNumber?` say that a number names at most one code,
and `isSome_ofNumber?` that the codes of a field are numbered from 0 without a gap.
-/

namespace OverTheAir

/-- The leading byte of a frame. -/
inductive Command where
  | start
  | state
  | abort
  | action
  | error
  deriving DecidableEq, Repr

/-- Why a request was turned down. -/
inductive Refusal where
  | success
  | alreadyRunning
  | notRunning
  | wrongUser
  | packetSize
  | noCommand
  | noAction
  | wrongTime
  deriving DecidableEq, Repr

/-- Why a session ended without completing. -/
inductive AbortReason where
  | noAbort
  | userRequest
  | userDisconnect
  | noPartition
  | invalidVersion
  | sameVersion
  | timeout
  | beginFailed
  | writeFailed
  | endFailed
  | bootSelection
  deriving DecidableEq, Repr

/-- What a client may ask of a device outside a session. -/
inductive Action where
  | reset
  | validateImage
  | invalidateImage
  deriving DecidableEq, Repr

namespace Command

def number : Command → UInt8
  | start => 1
  | state => 2
  | abort => 3
  | action => 4
  | error => 10

def ofNumber? : UInt8 → Option Command
  | 1 => some start
  | 2 => some state
  | 3 => some abort
  | 4 => some action
  | 10 => some error
  | _ => none

/-- The name used in messages about frames of the wrong length. -/
def name : Command → String
  | start => "Start"
  | state => "State"
  | abort => "Abort"
  | action => "Action"
  | error => "Error"

@[simp] theorem ofNumber?_number (c : Command) : ofNumber? c.number = some c := by
  cases c <;> rfl

theorem eq_of_ofNumber? {b : UInt8} {c : Command} (h : ofNumber? b = some c) : b = c.number := by
  unfold ofNumber? at h
  split at h <;> first | (obtain rfl := Option.some.inj h; rfl) | cases h

end Command

namespace Refusal

def number : Refusal → UInt8
  | success => 0
  | alreadyRunning => 1
  | notRunning => 2
  | wrongUser => 3
  | packetSize => 4
  | noCommand => 5
  | noAction => 6
  | wrongTime => 7

def ofNumber? : UInt8 → Option Refusal
  | 0 => some success
  | 1 => some alreadyRunning
  | 2 => some notRunning
  | 3 => some wrongUser
  | 4 => some packetSize
  | 5 => some noCommand
  | 6 => some noAction
  | 7 => some wrongTime
  | _ => none

def text : Refusal → String
  | success => "success"
  | alreadyRunning => "already running"
  | notRunning => "not running"
  | wrongUser => "wrong user"
  | packetSize => "packet size error"
  | noCommand => "no command found"
  | noAction => "no action found"
  | wrongTime => "action at wrong time"

@[simp] theorem ofNumber?_number (r : Refusal) : ofNumber? r.number = some r := by
  cases r <;> rfl

theorem eq_of_ofNumber? {b : UInt8} {r : Refusal} (h : ofNumber? b = some r) : b = r.number := by
  unfold ofNumber? at h
  split at h <;> first | (obtain rfl := Option.some.inj h; rfl) | cases h

theorem isSome_ofNumber? : ∀ b : UInt8, (ofNumber? b).isSome = decide (b ≤ 7) :=
  Bytes.forall_byte (by decide +kernel)

end Refusal

namespace AbortReason

def number : AbortReason → UInt8
  | noAbort => 0
  | userRequest => 1
  | userDisconnect => 2
  | noPartition => 3
  | invalidVersion => 4
  | sameVersion => 5
  | timeout => 6
  | beginFailed => 7
  | writeFailed => 8
  | endFailed => 9
  | bootSelection => 10

def ofNumber? : UInt8 → Option AbortReason
  | 0 => some noAbort
  | 1 => some userRequest
  | 2 => some userDisconnect
  | 3 => some noPartition
  | 4 => some invalidVersion
  | 5 => some sameVersion
  | 6 => some timeout
  | 7 => some beginFailed
  | 8 => some writeFailed
  | 9 => some endFailed
  | 10 => some bootSelection
  | _ => none

def text : AbortReason → String
  | noAbort => "no abort"
  | userRequest => "user request"
  | userDisconnect => "user disconnect"
  | noPartition => "get partition error"
  | invalidVersion => "invalid version"
  | sameVersion => "same version"
  | timeout => "timeout"
  | beginFailed => "OTA begin error"
  | writeFailed => "OTA write error"
  | endFailed => "OTA end error"
  | bootSelection => "set partition error"

@[simp] theorem ofNumber?_number (r : AbortReason) : ofNumber? r.number = some r := by
  cases r <;> rfl

theorem eq_of_ofNumber? {b : UInt8} {r : AbortReason} (h : ofNumber? b = some r) :
    b = r.number := by
  unfold ofNumber? at h
  split at h <;> first | (obtain rfl := Option.some.inj h; rfl) | cases h

theorem isSome_ofNumber? : ∀ b : UInt8, (ofNumber? b).isSome = decide (b ≤ 10) :=
  Bytes.forall_byte (by decide +kernel)

end AbortReason

namespace Action

def number : Action → UInt8
  | reset => 0
  | validateImage => 1
  | invalidateImage => 2

def ofNumber? : UInt8 → Option Action
  | 0 => some reset
  | 1 => some validateImage
  | 2 => some invalidateImage
  | _ => none

/-- The name used in log lines. -/
def name : Action → String
  | reset => "Reset"
  | validateImage => "ValidateImage"
  | invalidateImage => "InvalidateImage"

@[simp] theorem ofNumber?_number (a : Action) : ofNumber? a.number = some a := by
  cases a <;> rfl

theorem eq_of_ofNumber? {b : UInt8} {a : Action} (h : ofNumber? b = some a) : b = a.number := by
  unfold ofNumber? at h
  split at h <;> first | (obtain rfl := Option.some.inj h; rfl) | cases h

theorem isSome_ofNumber? : ∀ b : UInt8, (ofNumber? b).isSome = decide (b ≤ 2) :=
  Bytes.forall_byte (by decide +kernel)

end Action

end OverTheAir
