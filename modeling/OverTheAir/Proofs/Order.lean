import OverTheAir.Proofs.Reason
import OverTheAir.Proofs.Window

/-!
# Proofs/Order — what a session still says when the next one is on

A task leaves its session before it tells the owner how the session ended, so another session may
be on by then.  What a session that is past has still to do stands among the errands, and doing it
takes it off (`IsPast.duties_run`): so at most the last frame to the owner is late, and every other
frame was sent before the next session was accepted (`only_farewell_late`).

* `farewell_may_be_late` — a run where it is late, and comes after a frame of the next session.
-/

namespace OverTheAir

/-! ## Frames and duties -/

/-- The frames that tell an owner how its session ended.  One that is gone is told nothing. -/
def Outcome.lastFrames (total : UInt32) : Outcome → List Response
  | .completed => [.state total 0]
  | .aborted .userDisconnect => []
  | .aborted reason => [.abort reason]

variable {owner c : Client} {total : UInt32} {outcome : Outcome}

theorem Outcome.length_lastFrames_le (total : UInt32) :
    ∀ outcome : Outcome, (outcome.lastFrames total).length ≤ 1
  | .completed => Nat.le_refl 1
  | .aborted reason => by cases reason <;> simp [lastFrames]

theorem frames_of_farewell (owner : Client) (total : UInt32) (flags : SessionFlags)
    (outcome : Outcome) :
    (Device.farewell (some owner) total flags outcome).filterMap (Duty.frameTo? owner)
      = outcome.lastFrames total := by
  rw [Device.frames_farewell]
  rcases outcome with _ | reason
  · rfl
  · cases reason <;> rfl

/-- A frame is sent by doing a duty. -/
theorem Effect.frameTo?_eq (e : Effect) (c : Client) :
    e.frameTo? c = e.duty?.bind (Duty.frameTo? c) := by
  cases e <;> rfl

theorem framesTo_eq (c : Client) (es : List Effect) :
    framesTo c es = (es.filterMap Effect.duty?).filterMap (Duty.frameTo? c) := by
  rw [List.filterMap_filterMap, framesTo]
  exact congrArg (List.filterMap · es) (funext fun e => e.frameTo?_eq c)

@[simp] theorem framesTo_append (c : Client) (es es' : List Effect) :
    framesTo c (es ++ es') = framesTo c es ++ framesTo c es' := List.filterMap_append

theorem Effect.eq_of_verdict? {e : Effect} {verdict : Event} (h : e.verdict? = some verdict) :
    e = .event verdict := by
  cases e with
  | event event => cases event <;> simp_all [Effect.verdict?]
  | _ => cases h

theorem Outcome.verdict?_verdict (total received : UInt32) : ∀ outcome : Outcome,
    Effect.verdict? (.event (outcome.verdict total received)) = some (outcome.verdict total received)
  | .completed => rfl
  | .aborted _ => rfl

/-- While a task works on a transfer, no frame to its owner concludes it. -/
theorem not_concludes_of_work {es : List Effect} (work : ∀ e ∈ es, e.IsWork owner total) :
    ∀ frame ∈ framesTo owner es, frame.concludes total = false := by
  intro frame hframe
  rw [framesTo_eq, List.mem_filterMap] at hframe
  obtain ⟨duty, hduty, speaks⟩ := hframe
  have silent := List.filter_eq_nil_iff.mp (partings_work work) duty hduty
  cases duty with
  | tell c' frame' =>
    obtain ⟨-, rfl⟩ : c' = owner ∧ frame' = frame := by simpa [Duty.frameTo?] using speaks
    exact Bool.eq_false_iff.mpr silent
  | _ => cases speaks

namespace Device

open Journal

variable {d d' : Device} {t : SessionTask} {a : Actor} {k : Nat} {es : List Effect}
  {left : List Duty}

/-! ## What is left to say -/

/-- The frames that the task of a session that is past has still to send to a client. -/
def unsent (d : Device) (k : Nat) (c : Client) : List Response :=
  (dutiesOf (.task k) d.errands).filterMap (Duty.frameTo? c)

/-- The task of the session leaves the duties of others as they are. -/
theorem Advanced.duties (hm : Advanced d t d') (other : a ≠ d.taskActor) :
    dutiesOf a d'.errands = dutiesOf a d.errands := by
  cases hm with
  | left => rw [dutiesOf_leave, if_neg other.symm, List.append_nil]
  | _ => rfl

/-- **A step takes a duty off by doing it**, and leaves the duties of others alone: so it is for
every actor but a task whose session is on. -/
theorem duties_step (free : ∀ t, d.task = some t → a ≠ d.taskActor) (b : Actor) :
    (d.doings a [.step b]).filterMap Effect.duty? ++ dutiesOf a (d.move (.step b)).errands
      = dutiesOf a d.errands := by
  have others : b ≠ a → dutiesOf a (d.move (.step b)).errands = dutiesOf a d.errands →
      (d.doings a [.step b]).filterMap Effect.duty? ++ dutiesOf a (d.move (.step b)).errands
        = dutiesOf a d.errands := by
    intro hb same
    rw [doings_singleton, same]
    exact congrArg (List.filterMap _ · ++ _) (if_neg hb)
  have hm := d.moved (.step b)
  generalize hd' : d.move (.step b) = d' at hm others
  cases hm with
  | handled hm => cases hm.isRequest
  | advanced live hm => exact others (free _ live).symm (hm.duties (free _ live))
  | performed _ hm =>
    obtain ⟨effect, takes, does⟩ := hm
    obtain ⟨hself, hother⟩ := dutiesOf_takeDuty takes
    by_cases hb : b = a
    · subst hb
      have hdoes : d.does (.step b) = [effect] := does_eq (congrArg Device.journal hd')
      have hdoings : d.doings b [.step b] = [effect] :=
        (doings_singleton ..).trans ((if_pos rfl).trans hdoes)
      rw [hdoings, hself, List.filterMap_cons, does]
      rfl
    · exact others hb (hother _ fun h => hb h.symm)
  | stuck =>
    rw [doings_singleton, does_eq_nil (congrArg Device.journal hd'), ite_self]
    rfl
  | around _ _ _ _ _ still => exact absurd rfl (still _)

/-- **A task that is past takes a duty off by doing it**, and what others do leaves its duties
alone. -/
theorem IsPast.duties_move (h : d.IsPast k) (sound : d.Sound) (m : Move) :
    (d.doings (.task k) [m]).filterMap Effect.duty? ++ dutiesOf (.task k) (d.move m).errands
      = dutiesOf (.task k) d.errands := by
  by_cases step : ∃ b, m = .step b
  · obtain ⟨b, rfl⟩ := step
    exact duties_step
      (fun t live hk => not_isPast (sound.ne_idle live) (Actor.task.inj hk ▸ h)) b
  -- what is no step is no deed of the task
  have others : m.actor ≠ .task k →
      dutiesOf (.task k) (d.move m).errands = dutiesOf (.task k) d.errands →
      (d.doings (.task k) [m]).filterMap Effect.duty? ++ dutiesOf (.task k) (d.move m).errands
        = dutiesOf (.task k) d.errands := by
    intro hne hduties
    rw [doings_singleton, if_neg hne, hduties]
    rfl
  have hm := d.moved m
  generalize d.move m = d' at hm others
  cases hm with
  | handled hm =>
    refine others (hm.journal.1 ▸ nofun) ?_
    cases hm with
    | acted es decodes unbound effects pending duties =>
      rcases duties with rfl | rfl
      · rfl
      · rw [dutiesOf_append]
        exact List.append_nil _
    | _ => rfl
  | advanced | performed | stuck => exact absurd ⟨_, rfl⟩ step
  | waited => exact others nofun rfl
  | passed => exact others nofun rfl
  | around _ _ _ _ outside still => exact others (Move.actor_of_not_step still ▸ nofun) rfl

theorem IsPast.duties_run (h : d.IsPast k) (sound : d.Sound) (ms : List Move) :
    (d.doings (.task k) ms).filterMap Effect.duty? ++ dutiesOf (.task k) (d.run ms).errands
      = dutiesOf (.task k) d.errands := by
  induction ms generalizing d with
  | nil => rfl
  | cons m ms ih =>
    have hm := d.moved m
    have hrest := ih (h.moved sound hm) (sound.moved hm)
    rw [← List.singleton_append, doings_append, List.filterMap_append, List.append_assoc, run_append]
    exact (congrArg (_ ++ ·) hrest).trans (h.duties_move sound m)

/-- **What is said is no longer left to say.** -/
theorem IsPast.unsent_run (h : d.IsPast k) (sound : d.Sound) (c : Client) (ms : List Move) :
    framesTo c (d.doings (.task k) ms) ++ (d.run ms).unsent k c = d.unsent k c := by
  rw [framesTo_eq, unsent, unsent, ← h.duties_run sound ms, List.filterMap_append]

/-- What is done and what is left make up the farewell. -/
theorem farewell_eq {done : List Effect} {outcome : Outcome} {flags : SessionFlags}
    (duties : done.map Effect.duty? ++ left.map some
      = (farewell (some owner) total flags outcome).map some) :
    done.filterMap Effect.duty? ++ left = farewell (some owner) total flags outcome := by
  have hid := congrArg (List.filterMap id) duties
  rw [List.filterMap_append, List.filterMap_map, List.filterMap_map, List.filterMap_map] at hid
  simpa using hid

/-- **A session that is past has told its owner all but its end**, and how it ended is said or left
to say. -/
theorem Past.frames (h : Past owner total es left) : ∃ outcome received working said,
    es.filterMap Effect.verdict? = [Outcome.verdict total received outcome] ∧
    framesTo owner es = working ++ said ∧
    (∀ frame ∈ working, frame.concludes total = false) ∧
    said ++ left.filterMap (Duty.frameTo? owner) = outcome.lastFrames total := by
  obtain ⟨body, done, outcome, received, flags, rfl, work, closes, duties⟩ := h
  refine ⟨outcome, received, framesTo owner body, framesTo owner done, verdicts_eq work duties, ?_,
    not_concludes_of_work work, ?_⟩
  · have hverdict : (Effect.event (outcome.verdict total received)).frameTo? owner = none := rfl
    rw [framesTo_append, framesTo, framesTo, framesTo, List.filterMap_cons, hverdict]
  · rw [framesTo_eq, ← List.filterMap_append, farewell_eq duties, frames_of_farewell]

/-- A task says nothing to anyone but its owner. -/
theorem Chronicle.framesTo_stranger (h : d.Chronicle)
    (opened : opening? k d.journal = some (owner, total)) (ne : c ≠ owner) :
    framesTo c (deeds (.task k) d.journal) = [] := by
  refine List.filterMap_eq_nil_iff.mpr fun e he => ?_
  rw [e.frameTo?_eq]
  rcases hduty : e.duty? with _ | duty
  · rfl
  · have hfor := (h.isFor opened he hduty).1
    cases duty with
    | tell c' frame =>
      obtain rfl : c' = owner := hfor
      exact if_neg ne.symm
    | _ => rfl

theorem Chronicle.framesTo_doings_stranger (h : d.Chronicle) (sound : d.Sound)
    (opened : opening? k d.journal = some (owner, total)) (ne : c ≠ owner) (ms : List Move) :
    framesTo c (d.doings (.task k) ms) = [] := by
  have hrun := (h.run sound ms).framesTo_stranger (opening?_run opened ms) ne
  rw [deeds_run, framesTo_append] at hrun
  exact (List.append_eq_nil_iff.mp hrun).2

/-! ## Two sessions -/

/-- **Only its last frame can come late to an owner.**  A task does nothing before its session is
accepted.  Once a later session is accepted, every earlier one is over, and its owner was told all
but how it ended: what was said of its end, what is still said and what is left to say make up the
frames of its outcome, which is one at most.  A session that was completed is followed by another
only once its update is reverted.  Nobody but the owner is told anything. -/
theorem only_farewell_late (config : Config) (firmware : Firmware) (ms : List Move) :
    let d := (fresh config firmware).run ms
    (∀ l, ∀ e ∈ deeds (.task l) d.journal, l ≤ d.sessions) ∧
    ∀ k owner total, opening? k d.journal = some (owner, total) → k < d.sessions →
      ∃ outcome received working said,
        (deeds (.task k) d.journal).filterMap Effect.verdict?
          = [Outcome.verdict total received outcome] ∧
        framesTo owner (deeds (.task k) d.journal) = working ++ said ∧
        (∀ frame ∈ working, frame.concludes total = false) ∧
        (outcome = .completed → (fresh config firmware).Reverts ms k) ∧
        ∀ back, said ++ framesTo owner (d.doings (.task k) back) ++ (d.run back).unsent k owner
            = outcome.lastFrames total ∧
          ∀ c, c ≠ owner → framesTo c (d.doings (.task k) back) = [] := by
  intro d
  obtain ⟨sound, chronicle⟩ : d.Sound ∧ d.Chronicle := chronicle_run config firmware ms
  refine ⟨fun l e he => ?_, fun k owner total opened later => ?_⟩
  · refine Nat.le_of_not_lt fun hlt => ?_
    rw [chronicle.future l hlt] at he
    cases he
  have isPast : d.IsPast k := .inl later
  obtain ⟨outcome, received, working, said, verdict, frames, works, hlast⟩ :=
    (chronicle.past k owner total opened isPast).frames
  refine ⟨outcome, received, working, said, verdict, frames, works, ?_, fun back => ⟨?_, ?_⟩⟩
  · rintro rfl
    have hmem : Event.completed total ∈
        (deeds (.task k) d.journal).filterMap Effect.verdict? := by
      rw [verdict]
      exact List.mem_singleton_self _
    obtain ⟨e, he, hverdict⟩ := List.mem_filterMap.mp hmem
    exact reverts_of_completed config firmware (Effect.eq_of_verdict? hverdict ▸ he) later
  · rw [List.append_assoc, isPast.unsent_run sound owner back]
    exact hlast
  · exact fun c ne => chronicle.framesTo_doings_stranger sound opened ne back

/-- A client gives its upload up and asks for another one.  The new task takes four steps and has
sent a frame, while the old one has still to say how the first session ended. -/
def startOver : List Move :=
  giveUp ++ List.replicate 4 (.step (.task 1)) ++
    .frame ⟨1, 1⟩ (Request.start 2 0 .none).encode :: List.replicate 4 (.step (.task 2))

theorem only_farewell_late_startOver :
    let d := (fresh .default .unknown).run startOver
    let back := [Move.step (.task 1)]
    opening? 1 d.journal = some (⟨1, 1⟩, 2) ∧ 1 < d.sessions ∧ ∃ outcome received,
      (deeds (.task 1) d.journal).filterMap Effect.verdict?
        = [Outcome.verdict 2 received outcome] ∧
      framesTo ⟨1, 1⟩ (d.doings (.task 1) back) <:+ outcome.lastFrames 2 := by
  intro d back
  have opened : opening? 1 d.journal = some (⟨1, 1⟩, 2) := by decide
  have later : 1 < d.sessions := by decide
  obtain ⟨outcome, received, working, said, verdict, -, -, -, hlast⟩ :=
    (only_farewell_late .default .unknown startOver).2 1 ⟨1, 1⟩ 2 opened later
  have unsent : (d.run back).unsent 1 ⟨1, 1⟩ = [] := by decide
  have hall := (hlast back).1
  rw [unsent, List.append_nil] at hall
  exact ⟨opened, later, outcome, received, verdict, hall ▸ List.suffix_append said _⟩

/-- **The last frame can come late**, behind a frame of the next session to the same client. -/
theorem farewell_may_be_late : ¬∀ (config : Config) (firmware : Firmware) (ms back : List Move)
    (k l : Nat) (c c' : Client) (frame : Response) (reached : Bool),
    let d := (fresh config firmware).run ms
    k < l → .sent c frame reached ∈ deeds (.task l) d.journal →
      framesTo c' (d.doings (.task k) back) = [] := by
  intro inOrder
  have nothing := inOrder .default .unknown startOver [.step (.task 1)] 1 2 ⟨1, 1⟩ ⟨1, 1⟩
    (.state 0 2) true (by decide) (by decide)
  have late : framesTo ⟨1, 1⟩ (((fresh .default .unknown).run startOver).doings (.task 1)
      [.step (.task 1)]) = [.abort .userRequest] := by decide
  cases late.symm.trans nothing

end Device

end OverTheAir
