import OverTheAir.Device.Requests
import OverTheAir.Device.Task

/-!
# Device/Run — what can happen to a device, and in which order

A **move** is anything that happens to a device: a request, a step of one of its actors, time going
by, a fault being laid in store.  A run is a list of moves in any order, so it covers every way the
session task can be paused and resumed between its calls.
-/

namespace OverTheAir

inductive Move where
  | frame (client : Client) (frame : Bytes)
  | disconnect (client : Client)
  /-- An actor takes its next step, if it has one. -/
  | step (actor : Actor)
  /-- So many milliseconds go by. -/
  | pass (ms : Nat)
  | fault (fault : Fault)
  /-- The next thread cannot be created. -/
  | failSpawn
  /-- A client can no longer be reached. -/
  | lose (client : Client)
  /-- Say whether the running image is pending verification. -/
  | setPendingVerify (pending : Bool)
  deriving DecidableEq

namespace Device

/-- Time goes by; only a task that waits for a message counts it. -/
def pass (d : Device) (ms : Nat) : Device :=
  match d.task with
  | some t =>
    match t.stage with
    | .awaiting waited => d.goto t (.awaiting (waited + ms))
    | _ => d
  | none => d

/-- What a move makes of a device. -/
def move (d : Device) : Move → Device
  | .frame c frame => d.receive c frame
  | .disconnect c => d.disconnect c
  | .step a => (d.step a).getD d
  | .pass ms => d.pass ms
  | .fault f => { d with faults := d.faults ++ [f] }
  | .failSpawn => { d with spawnFails := true }
  | .lose c => { d with unreachable := c :: d.unreachable }
  | .setPendingVerify pending =>
    { d with firmware := { d.firmware with pendingVerify := pending } }

/-- What a run makes of a device. -/
def run (d : Device) (moves : List Move) : Device := moves.foldl move d

@[simp] theorem run_nil (d : Device) : d.run [] = d := rfl

@[simp] theorem run_cons (d : Device) (m : Move) (ms : List Move) :
    d.run (m :: ms) = (d.move m).run ms := rfl

theorem run_append (d : Device) (ms ns : List Move) : d.run (ms ++ ns) = (d.run ms).run ns :=
  List.foldl_append

theorem run_concat (d : Device) (ms : List Move) (m : Move) :
    d.run (ms ++ [m]) = (d.run ms).move m := run_append d ms [m]

end Device

end OverTheAir
