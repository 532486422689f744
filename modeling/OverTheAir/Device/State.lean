import OverTheAir.Config.Basic
import OverTheAir.Device.Journal
import OverTheAir.Session

/-!
# Device/State — everything a device is made of

The request handler and the session task share the registry, the session record, the inbox and the
parked flash writer.  The task of the current session stands at a `Stage`; a task that is past its
last critical section has only errands left.  Around them are the flash partition, the firmware and
the faults that are in store for calls.

A step of a task is one critical section, one call, or the end of a wait, so between two of them any
other actor may act.  What nobody else can change meanwhile is read by the step that needs it: the
size, the timeout and the flags of a session, its owner, and the versions of the installed images.
The handler takes one request after another, each in one step.
-/

namespace OverTheAir

/-- What the handler passes to the session task. -/
inductive Message where
  | data (chunk : Bytes) (isEnd : Bool)
  /-- Look at the session again: an abort was recorded. -/
  | wake
  deriving DecidableEq, Repr

/-- How a session ends. -/
inductive Outcome where
  | completed
  | aborted (reason : AbortReason)
  deriving DecidableEq, Repr

/-- What the session task does next. -/
inductive Stage where
  /-- Take the flash writer. -/
  | launched
  /-- Open the partition. -/
  | beginning
  /-- Look for an abort, then ask for the first chunk. -/
  | begun
  /-- Send a frame to the owner; then go on to the end of the image or to the next message. -/
  | reporting (frame : Response) (isEnd : Bool)
  /-- Wait for a message; it has come to so many milliseconds. -/
  | awaiting (waited : Nat)
  /-- The wait was in vain: record that time is up. -/
  | expired
  /-- Look for an abort, then at the message. -/
  | holding (message : Message)
  /-- See whether the chunk fits. -/
  | measuring (chunk : Bytes) (isEnd : Bool)
  /-- Ask for the versions of the installed images, and apply the version policy. -/
  | vetting (chunk : Bytes) (isEnd : Bool)
  | writing (chunk : Bytes) (isEnd : Bool)
  /-- Look for an abort, then account for the chunk. -/
  | written (chunk : Bytes) (isEnd : Bool)
  /-- Tell of the progress: bytes received, bytes to ask for. -/
  | counted (received requested : UInt32) (isEnd : Bool)
  /-- The image has ended: look for an abort and for missing bytes. -/
  | ending
  /-- Close the partition. -/
  | closing
  /-- Select the partition for the next boot. -/
  | selecting
  /-- Drop what was written. -/
  | aborting (reason : AbortReason)
  /-- Leave: release the owner, clear the session, park the writer. -/
  | leaving (outcome : Outcome)
  deriving DecidableEq

/-- The task of the current session. -/
structure SessionTask where
  stage : Stage
  holdsWriter : Bool
  /-- The version policy has been applied, or there is none. -/
  versionChecked : Bool
  deriving DecidableEq

/-- What is left to do when a session is over. -/
inductive Duty where
  | tell (client : Client) (frame : Response)
  | broadcast (except : Option Client) (frame : Response)
  | restart
  deriving DecidableEq

/-- An actor that has only duties left. -/
structure Errand where
  actor : Actor
  duties : List Duty
  deriving DecidableEq

/-- What a call meets instead of its port. -/
inductive Mishap where
  /-- The call fails. -/
  | failure (error : FlashError)
  /-- The caller dies inside the call. -/
  | death
  deriving DecidableEq, Repr

/-- A mishap in store: it strikes at its point after so many more calls, once. -/
structure Fault where
  point : Point
  skip : Nat
  mishap : Mishap
  deriving DecidableEq, Repr

structure Device where
  config : Config
  registry : Registry
  session : Session
  /-- The flash writer is parked: no session task has it. -/
  writerParked : Bool
  /-- Messages that the session task has not taken yet; `none` without a session. -/
  inbox : Option (List Message)
  /-- An update was completed during this boot and has not been booted. -/
  pendingReboot : Bool
  task : Option SessionTask
  errands : List Errand
  /-- Session tasks created so far. -/
  sessions : Nat
  flash : Flash
  firmware : Firmware
  faults : List Fault
  /-- The next thread cannot be created. -/
  spawnFails : Bool
  unreachable : List Client
  journal : Journal

namespace Device

/-- A device that has done nothing yet. -/
def fresh (config : Config) (firmware : Firmware) : Device where
  config := config
  registry := Registry.empty
  session := Session.idle
  writerParked := true
  inbox := none
  pendingReboot := false
  task := none
  errands := []
  sessions := 0
  flash := Flash.blank
  firmware := firmware
  faults := []
  spawnFails := false
  unreachable := []
  journal := []

/-- Write an entry into the journal. -/
def note (d : Device) (actor : Actor) (effect : Effect) : Device :=
  { d with journal := d.journal ++ [⟨actor, effect⟩] }

def emit (d : Device) (actor : Actor) (event : Event) : Device := d.note actor (.event event)

/-- The actor that the current session's task is. -/
def taskActor (d : Device) : Actor := .task d.sessions

end Device

end OverTheAir
