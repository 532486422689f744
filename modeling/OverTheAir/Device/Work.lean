import OverTheAir.Device.Task

/-!
# Device/Work — how long a device goes on by itself

The **work** before a device bounds how many steps its actors can take while nothing happens to it
from outside.  A message in the inbox weighs as much as the way from taking it to waiting for the
next one, a stage as much as the way that is left from it, and a duty weighs one.

* `step_work_lt` — every step of an actor lowers the work, so a device left alone comes to rest.
-/

namespace OverTheAir

/-- The steps from a stage to the next message or to the end are no more than its rank. -/
def Stage.rank : Stage → Nat
  | .launched => 14
  | .beginning => 13
  | .begun => 12
  | .reporting _ _ => 11
  | .awaiting _ => 10
  | .expired => 9
  | .holding _ => 17
  | .measuring _ _ => 16
  | .vetting _ _ => 15
  | .writing _ _ => 14
  | .written _ _ => 13
  | .counted _ _ _ => 12
  | .ending => 9
  | .closing => 8
  | .selecting => 7
  | .aborting _ => 6
  | .leaving _ => 5

/-- How many duties there are on a list of errands. -/
def Errand.count : List Errand → Nat
  | [] => 0
  | e :: es => e.duties.length + count es

theorem Errand.count_append (es es' : List Errand) :
    Errand.count (es ++ es') = Errand.count es + Errand.count es' := by
  induction es with
  | nil => simp [Errand.count]
  | cons e es ih => simp [Errand.count, ih, Nat.add_assoc]

namespace Device

/-- The work that waits beside the session task: messages and duties. -/
def backlog (d : Device) : Nat := 8 * (d.inbox.getD []).length + Errand.count d.errands

/-- The work before a device. -/
def work (d : Device) : Nat := d.backlog + (d.task.map fun t => t.stage.rank).getD 0

theorem work_of_task {d : Device} {t : SessionTask} (h : d.task = some t) :
    d.work = d.backlog + t.stage.rank := by
  simp [work, h]

/-! ## Steps of the session task -/

theorem work_goto (d : Device) (t : SessionTask) (s : Stage) :
    (d.goto t s).work = d.backlog + s.rank := rfl

theorem work_die (d : Device) : d.die.work = d.backlog := rfl

theorem work_unlessAborted_le {d : Device} {t : SessionTask} {go : Device → Device} {n : Nat}
    (hn : 6 ≤ n) (hgo : (go d).work ≤ d.backlog + n) :
    (d.unlessAborted t go).work ≤ d.backlog + n := by
  unfold unlessAborted
  split
  · exact Nat.add_le_add_left hn _
  · exact hgo

theorem backlog_callFlash (d : Device) (a : Actor) (c : FlashCall) :
    (d.callFlash a c).2.backlog = d.backlog := by
  simp only [callFlash]
  split <;> rfl

theorem work_flashStep_le {d : Device} {t : SessionTask} {c : FlashCall} {onOk : Stage}
    {onError : FlashError → Stage} {n : Nat} (hok : onOk.rank ≤ n)
    (herror : ∀ e, (onError e).rank ≤ n) :
    (d.flashStep t c onOk onError).work ≤ d.backlog + n := by
  have hcall := d.backlog_callFlash d.taskActor c
  unfold flashStep
  split <;> rename_i heq <;> rw [heq] at hcall
  · rw [work_die, hcall]; omega
  · rw [work_goto, hcall]; omega
  · rename_i e _
    have := herror e
    rw [work_goto, hcall]; omega

theorem work_takeWriter_le (d : Device) (t : SessionTask) :
    (d.takeWriter t).work ≤ d.backlog + 13 := by
  unfold takeWriter
  split <;> simp [work_goto, backlog, Stage.rank]

theorem work_goOn_le (d : Device) (t : SessionTask) (isEnd : Bool) :
    (d.goOn t isEnd).work ≤ d.backlog + 10 := by
  cases isEnd <;> simp [goOn, work_goto, Stage.rank]

theorem backlog_tellOwner (d : Device) (frame : Response) :
    (d.tellOwner frame).backlog = d.backlog := by
  unfold tellOwner
  split <;> rfl

theorem work_expire (d : Device) (t : SessionTask) : (d.expire t).work = d.backlog + 6 := rfl

theorem work_consider_le (d : Device) (t : SessionTask) (m : Message) :
    (d.consider t m).work ≤ d.backlog + 16 := by
  unfold consider
  split
  · simp [work_goto, Stage.rank]
  · rename_i chunk isEnd
    split
    · have := d.work_goOn_le t isEnd
      omega
    · exact Nat.le_refl _

theorem work_measure_le (d : Device) (t : SessionTask) (chunk : Bytes) (isEnd : Bool) :
    (d.measure t chunk isEnd).work ≤ d.backlog + 15 := by
  unfold measure
  split
  · simp [work_die, backlog, note]
  · simp [work_goto, Stage.rank]
  · split <;> simp [work_goto, Stage.rank]

theorem work_vet_le (d : Device) (t : SessionTask) (chunk : Bytes) (isEnd : Bool) :
    (d.vet t chunk isEnd).work ≤ d.backlog + 14 := by
  unfold vet
  split <;> simp [work_goto, Stage.rank]

theorem work_account_le (d : Device) (t : SessionTask) (chunk : Bytes) (isEnd : Bool) :
    (d.account t chunk isEnd).work ≤ d.backlog + 12 := by
  unfold account
  split
  · simp [work_die, backlog, note]
  · split
    · simp [work_die, backlog, note]
    · simp [work_goto, Stage.rank, backlog]

theorem work_tellProgress_le (d : Device) (t : SessionTask) (received requested : UInt32)
    (isEnd : Bool) : (d.tellProgress t received requested isEnd).work ≤ d.backlog + 11 := by
  have h := (d.emit d.taskActor (.progress received d.session.total)).work_goOn_le t isEnd
  have hb : (d.emit d.taskActor (.progress received d.session.total)).backlog = d.backlog := rfl
  simp only [tellProgress]
  split
  · exact Nat.le_refl _
  · omega

theorem work_finalize_le (d : Device) (t : SessionTask) :
    (d.finalize t).work ≤ d.backlog + 8 := by
  unfold finalize
  split <;> simp [work_goto, Stage.rank, backlog]

theorem length_farewell_le (owner : Option Client) (total : UInt32) (flags : SessionFlags)
    (outcome : Outcome) : (farewell owner total flags outcome).length ≤ 3 := by
  unfold farewell
  split
  · cases owner <;> cases flags.resetAfterSuccess <;> simp
  · simp
  · cases owner <;> simp

theorem work_leave_le (d : Device) (t : SessionTask) (outcome : Outcome) :
    (d.leave t outcome).work ≤ d.backlog + 3 := by
  have h := length_farewell_le d.registry.release.1 d.session.total d.session.flags outcome
  simp only [leave, work, backlog, emit, note]
  split <;> simp [Errand.count_append, Errand.count] <;> omega

theorem await_work_lt {d d' : Device} {t : SessionTask} {waited : Nat} (ht : d.task = some t)
    (hstage : t.stage = .awaiting waited) (h : d.await t waited = some d') :
    d'.work < d.work := by
  rw [work_of_task ht, hstage]
  unfold await at h
  split at h
  · cases h
    simp [work_goto, Stage.rank]
  · rename_i heq
    cases h
    simp [work_goto, backlog, heq, Stage.rank]
    omega
  · split at h
    · cases h
    · cases h
      simp [work_goto, backlog, Stage.rank]

/-- Every step of the session task lowers the work. -/
theorem taskStep_work_lt {d d' : Device} {t : SessionTask} (ht : d.task = some t)
    (h : d.taskStep t = some d') : d'.work < d.work := by
  have lower : ∀ {s : Stage} {n : Nat}, t.stage = s → d'.work ≤ d.backlog + n → n < s.rank →
      d'.work < d.work := by
    intro s n hs hle hlt
    rw [work_of_task ht, hs]
    omega
  cases hs : t.stage <;> simp only [taskStep, hs, Option.some.injEq] at h
  case awaiting => exact await_work_lt ht hs h
  all_goals subst h
  case launched => exact lower hs (d.work_takeWriter_le t) (Nat.le_refl 14)
  case beginning =>
    exact lower hs (work_flashStep_le (Nat.le_refl 12) fun _ => by simp [Stage.rank])
      (Nat.le_refl 13)
  case begun =>
    exact lower hs (work_unlessAborted_le (n := 11) (by decide) (Nat.le_refl _)) (Nat.le_refl 12)
  case reporting frame isEnd =>
    have hle := (d.tellOwner frame).work_goOn_le t isEnd
    rw [backlog_tellOwner] at hle
    exact lower hs hle (Nat.le_refl 11)
  case expired => exact lower hs (Nat.le_of_eq (d.work_expire t)) (by decide)
  case holding m =>
    exact lower hs (work_unlessAborted_le (by decide) (d.work_consider_le t m)) (Nat.le_refl 17)
  case measuring chunk isEnd =>
    exact lower hs (d.work_measure_le t chunk isEnd) (Nat.le_refl 16)
  case vetting chunk isEnd => exact lower hs (d.work_vet_le t chunk isEnd) (Nat.le_refl 15)
  case writing =>
    exact lower hs (work_flashStep_le (Nat.le_refl 13) fun _ => by decide) (Nat.le_refl 14)
  case written chunk isEnd =>
    exact lower hs (work_unlessAborted_le (by decide) (d.work_account_le t chunk isEnd))
      (Nat.le_refl 13)
  case counted received requested isEnd =>
    exact lower hs (d.work_tellProgress_le t received requested isEnd) (Nat.le_refl 12)
  case ending =>
    exact lower hs (work_unlessAborted_le (by decide) (d.work_finalize_le t)) (Nat.le_refl 9)
  case closing =>
    exact lower hs (work_flashStep_le (Nat.le_refl 7) fun _ => by decide) (Nat.le_refl 8)
  case selecting =>
    exact lower hs (work_flashStep_le (n := 6) (by decide) fun _ => Nat.le_refl 6) (Nat.le_refl 7)
  case aborting =>
    exact lower hs (work_flashStep_le (Nat.le_refl 5) fun _ => Nat.le_refl 5) (Nat.le_refl 6)
  case leaving outcome => exact lower hs (d.work_leave_le t outcome) (by simp [Stage.rank])

/-! ## Steps of an actor with duties -/

theorem count_takeDuty_lt {a : Actor} {es es' : List Errand} {duty : Duty}
    (h : takeDuty a es = some (duty, es')) : Errand.count es' < Errand.count es := by
  fun_induction takeDuty a es generalizing es' with
  | case1 => cases h
  | case2 e es _ hduties ih =>
    have := ih h
    rw [Errand.count]
    omega
  | case3 e es _ duty hduties =>
    cases h
    simp [Errand.count, hduties]
  | case4 e es _ duty next duties hduties =>
    cases h
    simp [Errand.count, hduties]
  | case5 e es _ ih =>
    obtain ⟨⟨duty', rest⟩, hrest, heq⟩ := Option.map_eq_some_iff.1 h
    cases heq
    have := ih hrest
    rw [Errand.count, Errand.count]
    omega

theorem work_perform (d : Device) (a : Actor) (duty : Duty) : (d.perform a duty).work = d.work := by
  cases duty <;> rfl

theorem errandStep_work_lt {d d' : Device} {a : Actor} (h : d.errandStep a = some d') :
    d'.work < d.work := by
  obtain ⟨⟨duty, es⟩, htake, heq⟩ := Option.map_eq_some_iff.1 h
  subst heq
  have hlt := count_takeDuty_lt htake
  rw [work_perform]
  simp only [work, backlog]
  omega

/-- **Every step of an actor lowers the work.** -/
theorem step_work_lt {d d' : Device} {a : Actor} (h : d.step a = some d') : d'.work < d.work := by
  unfold step at h
  split at h
  · rename_i ht
    split at h
    · exact taskStep_work_lt ht h
    · exact errandStep_work_lt h
  · exact errandStep_work_lt h

end Device

end OverTheAir
