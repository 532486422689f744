import OverTheAir.Device.Run
import OverTheAir.Device.Work

/-!
# Device/Bench — a device whose actors can be held at their calls

A bench arms **gates** at points.  The next call of the session task at such a point is held before
it does anything, and the gate is used up; a release lets the actor that has been held longest go
on.  After every stimulus the device settles: every actor goes on until it is held, waits for a
message, or is done.

* `advance_settle` — once a bench has settled, no actor goes on.
-/

namespace OverTheAir

/-- The call that a duty is done by. -/
def Duty.point? : Duty → Option Point
  | .tell _ _ => some .send
  | .broadcast _ _ => some .broadcast
  | .restart => none

namespace Device

/-! ## Who can go on, and to which call -/

/-- The call that the task's next step makes. -/
def taskPoint? (d : Device) (t : SessionTask) : Option Point :=
  match t.stage with
  | .beginning => some .begin
  | .reporting _ _ => d.registry.owner.map fun _ => .send
  | .writing _ _ => some .write
  | .closing => some .finish
  | .selecting => some .select
  | .aborting _ => some .abort
  | _ => none

def errandPoint? (d : Device) (a : Actor) : Option Point :=
  (takeDuty a d.errands).bind fun (duty, _) => duty.point?

/-- The call that an actor's next step makes. -/
def point? (d : Device) (a : Actor) : Option Point :=
  match d.task with
  | some t => if a = d.taskActor then d.taskPoint? t else d.errandPoint? a
  | none => d.errandPoint? a

/-- Every actor that may have something to do, those with errands first. -/
def actors (d : Device) : List Actor :=
  d.errands.map (·.actor) ++ (if d.task.isSome then [d.taskActor] else [])

theorem takeDuty_eq_none {a : Actor} {es : List Errand} (h : a ∉ es.map (·.actor)) :
    takeDuty a es = none := by
  induction es with
  | nil => rfl
  | cons e es ih =>
    simp only [List.map_cons, List.mem_cons, not_or] at h
    simp [takeDuty, Ne.symm h.1, ih h.2]

/-- An actor that is not among them has no step, so it makes no call. -/
theorem step_eq_none_of_not_mem_actors {d : Device} {a : Actor} (h : a ∉ d.actors) :
    d.step a = none ∧ d.point? a = none := by
  simp only [actors, List.mem_append, not_or] at h
  have hduty := takeDuty_eq_none h.1
  cases ht : d.task with
  | none => simp [step, point?, errandStep, errandPoint?, ht, hduty]
  | some t =>
    have hne : a ≠ d.taskActor := by simpa [ht] using h.2
    simp [step, point?, errandStep, errandPoint?, ht, hduty, hne]

end Device

/-- A device with gates armed and actors held. -/
structure Bench where
  device : Device
  gates : List Point
  /-- The actors held at their calls, longest first. -/
  held : List Actor

/-- What is done to a bench. -/
inductive Stimulus where
  | move (move : Move)
  | gate (point : Point)
  | release

namespace Bench

/-- A bench around a device, with no gate armed. -/
def of (d : Device) : Bench := ⟨d, [], []⟩

/-- One actor goes on, or is held at a gate. -/
def advance (b : Bench) (a : Actor) : Option Bench :=
  if b.held.contains a then none
  else
    match (b.device.point? a).filter b.gates.contains with
    | some p => some { b with gates := b.gates.erase p, held := b.held ++ [a] }
    | none => (b.device.step a).map fun device => { b with device }

/-- Go on for at most so many steps. -/
def settleFor : Nat → Bench → Bench
  | 0, b => b
  | n + 1, b =>
    match b.device.actors.findSome? b.advance with
    | some b => settleFor n b
    | none => b

/-- The work before a bench: an actor that is held uses a gate up. -/
def work (b : Bench) : Nat := b.device.work + b.gates.length

/-- Every actor goes on for as long as it can. -/
def settle (b : Bench) : Bench := settleFor b.work b

theorem advance_work_lt {b b' : Bench} {a : Actor} (h : b.advance a = some b') :
    b'.work < b.work := by
  unfold advance at h
  split at h
  · cases h
  · split at h
    · rename_i p heq
      have hmem : p ∈ b.gates := by simpa using (Option.filter_eq_some_iff.1 heq).2
      have hlen := List.length_erase_of_mem hmem
      have hpos := List.length_pos_of_mem hmem
      cases h
      simp only [work]
      omega
    · obtain ⟨d, hstep, heq⟩ := Option.map_eq_some_iff.1 h
      subst heq
      exact Nat.add_lt_add_right (Device.step_work_lt hstep) _

theorem advance_settleFor {n : Nat} {b : Bench} (hn : b.work ≤ n) :
    ∀ a ∈ (settleFor n b).device.actors, (settleFor n b).advance a = none := by
  induction n generalizing b with
  | zero =>
    intro a _
    cases h : b.advance a with
    | none => exact h
    | some b' =>
      have := advance_work_lt h
      omega
  | succ n ih =>
    unfold settleFor
    split
    · rename_i b' heq
      obtain ⟨_, a, _, _, h, _⟩ := List.findSome?_eq_some_iff.1 heq
      exact ih (Nat.le_of_lt_succ (Nat.lt_of_lt_of_le (advance_work_lt h) hn))
    · rename_i heq
      exact List.findSome?_eq_none_iff.1 heq

/-- **Once a bench has settled, no actor goes on.** -/
theorem advance_settle (b : Bench) (a : Actor) : b.settle.advance a = none := by
  by_cases h : a ∈ b.settle.device.actors
  · exact advance_settleFor (Nat.le_refl _) a h
  · have ⟨hstep, hpoint⟩ := Device.step_eq_none_of_not_mem_actors h
    simp [advance, hstep, hpoint]

/-- Let the actor that has been held longest make its call. -/
def release (b : Bench) : Bench :=
  match b.held with
  | [] => b
  | a :: held => { b with held, device := (b.device.step a).getD b.device }

/-- The points at which actors are held, longest first. -/
def heldAt (b : Bench) : List Point := b.held.filterMap b.device.point?

/-- Do something to a bench and let it settle. -/
def apply (b : Bench) : Stimulus → Bench
  | .move m => settle { b with device := b.device.move m }
  | .gate p => settle { b with gates := b.gates ++ [p] }
  | .release => settle b.release

end Bench

end OverTheAir
