import OverTheAir.Event
import OverTheAir.Firmware
import OverTheAir.Packet.Response

/-!
# Device/Journal — who did what

The journal of a device lists what its parts did, oldest first: frames, events, calls to flash and
firmware, restarts, and the messages that the inbox took.  An entry names the actor, so that the
doings of one session can be told from those of another.
-/

namespace OverTheAir

/-- Where a call leaves the device's own code. -/
inductive Point where
  | begin
  | write
  | finish
  | select
  | abort
  | send
  | broadcast
  | markValid
  | rollBack
  | revert
  deriving DecidableEq, Repr

def FlashCall.point : FlashCall → Point
  | begin _ => .begin
  | write _ => .write
  | finish => .finish
  | select => .select
  | abort => .abort

def FirmwareCall.point : FirmwareCall → Point
  | markValid => .markValid
  | rollBack => .rollBack
  | revert => .revert

/-- A part of the device that acts on its own. -/
inductive Actor where
  /-- The handler of requests; it answers one request after another. -/
  | handler
  /-- The task of a session; tasks are numbered from 1 as they are created. -/
  | task (session : Nat)
  /-- The thread that restarts the device after its reply to a reset is out. -/
  | restarter
  deriving DecidableEq, Repr

inductive Effect where
  /-- A frame to one client, and whether the client could be reached. -/
  | sent (client : Client) (frame : Response) (reached : Bool)
  /-- A frame to every client but one. -/
  | broadcast (except : Option Client) (frame : Response)
  | event (event : Event)
  | flash (call : FlashCall) (result : FlashResult)
  | firmware (call : FirmwareCall) (result : FlashResult)
  | restarted
  /-- The inbox took a chunk. -/
  | queued (chunk : Bytes) (isEnd : Bool)
  /-- The actor died inside a call. -/
  | died (point : Point)
  /-- The actor died of a byte count out of range. -/
  | miscounted
  deriving DecidableEq

structure Entry where
  actor : Actor
  effect : Effect
  deriving DecidableEq

/-- What happened, oldest first. -/
abbrev Journal := List Entry

end OverTheAir
