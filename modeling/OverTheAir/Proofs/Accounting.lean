import Mathlib.Data.List.Nodup
import OverTheAir.Proofs.Reset
import OverTheAir.Proofs.Rest
import OverTheAir.Proofs.Tenure

/-!
# Proofs/Accounting — every restart is asked for, and told before

A restart is asked for by a reset, or by the request for a session, which may want one behind its
completion.  What the request wanted is gone with the session, so it is read off the run (`askers`).
The restarts that were made and those that are left make up those that were asked for
(`restarts_conserved`); once everything has run as far as it can, only those sessions are left that
are held up at the last things they say.

* `restart_accounting` — the numbers at rest, and what comes before each restart.
-/

namespace OverTheAir

/-! ## Readings -/

/-- The request for a session that is to be followed by a restart. -/
def Move.asksRestart : Move → Bool
  | .frame _ f =>
    match Request.decode f with
    | .ok (.start _ _ flags) => flags.resetAfterSuccess
    | _ => false
  | _ => false

/-- A session is said to be completed. -/
def Effect.completes : Effect → Bool
  | .event (.completed _) => true
  | _ => false

theorem Effect.eq_sent_of_duty? {e : Effect} {c : Client} {frame : Response}
    (h : e.duty? = some (.tell c frame)) : ∃ reached, e = .sent c frame reached := by
  cases e <;> cases h
  exact ⟨_, rfl⟩

theorem Effect.eq_broadcast_of_duty? {e : Effect} {except : Option Client} {frame : Response}
    (h : e.duty? = some (.broadcast except frame)) : e = .broadcast except frame := by
  cases e <;> cases h
  rfl

/-- The device restarts. -/
def Entry.restarts (e : Entry) : Bool := e.effect == .restarted

/-- The session whose task restarts the device. -/
def Entry.restarter? : Entry → Option Nat
  | ⟨.task k, .restarted⟩ => some k
  | _ => none

theorem Entry.restarter?_eq_some_iff {e : Entry} {k : Nat} :
    e.restarter? = some k ↔ e = ⟨.task k, .restarted⟩ := by
  obtain ⟨_ | l | _, effect⟩ := e <;> cases effect <;> simp [restarter?]

/-- Every restart is one of a session task or one of a reset. -/
theorem Entry.restarts_cases (e : Entry) : (if e.restarts then 1 else 0)
    = (if e.resets then 1 else 0) + if e.restarter?.isSome then 1 else 0 := by
  obtain ⟨_ | l | _, effect⟩ := e <;> cases effect <;> rfl

/-- The sessions whose tasks have restarted the device. -/
def Journal.restarters (j : Journal) : List Nat := j.filterMap Entry.restarter?

namespace Journal

variable {j : Journal} {k : Nat}

theorem mem_restarters : k ∈ j.restarters ↔ .restarted ∈ deeds (.task k) j := by
  simp [restarters, mem_deeds, Entry.restarter?_eq_some_iff]

theorem count_restarters (k : Nat) (j : Journal) :
    j.restarters.count k = j.count ⟨.task k, .restarted⟩ := by
  rw [restarters, List.count, List.countP_filterMap, List.count]
  refine List.countP_congr fun e _ => ?_
  rw [beq_iff_eq, ← Entry.restarter?_eq_some_iff]
  cases e.restarter? <;> simp

theorem countP_restarts (j : Journal) :
    j.countP Entry.restarts = j.countP Entry.resets + j.restarters.length := by
  rw [restarters, List.length_filterMap_eq_countP]
  induction j with
  | nil => rfl
  | cons e j ih =>
    rw [List.countP_cons, List.countP_cons, List.countP_cons, ih, e.restarts_cases]
    omega

end Journal

namespace Device

open Journal

variable {d d' : Device} {t : SessionTask} {k : Nat} {m : Move} {ms : List Move} {owner : Client}
  {total : UInt32} {es : List Effect} {left : List Duty} {config : Config} {firmware : Firmware}

/-! ## The sessions that want a restart -/

/-- The session that a move opens, if it wants a restart. -/
def asks (d : Device) (m : Move) : List Nat :=
  if m.asksRestart ∧ (d.move m).sessions ≠ d.sessions then [(d.move m).sessions] else []

/-- The sessions of a run that want a restart behind their completion, as they are opened. -/
def askers : Device → List Move → List Nat
  | _, [] => []
  | d, m :: ms => d.asks m ++ askers (d.move m) ms

theorem askers_append (d : Device) (ms ns : List Move) :
    d.askers (ms ++ ns) = d.askers ms ++ (d.run ms).askers ns := by
  induction ms generalizing d with
  | nil => rfl
  | cons m ms ih => rw [List.cons_append, askers, askers, ih, List.append_assoc, run_cons]

theorem askers_singleton (d : Device) (m : Move) : d.askers [m] = d.asks m := List.append_nil _

theorem mem_asks (h : k ∈ d.asks m) : k = (d.move m).sessions ∧ d.sessions < k := by
  rw [asks] at h
  split at h
  · next grown =>
    obtain rfl := List.mem_singleton.mp h
    exact ⟨rfl, Nat.lt_of_le_of_ne (d.moved m).sessions_le grown.2.symm⟩
  · cases h

/-- Sessions are numbered as they are opened. -/
theorem askers_range (h : k ∈ d.askers ms) : d.sessions < k ∧ k ≤ (d.run ms).sessions := by
  induction ms generalizing d with
  | nil => cases h
  | cons m ms ih =>
    rcases List.mem_append.mp h with h | h
    · obtain ⟨rfl, later⟩ := mem_asks h
      exact ⟨later, run_induction (motive := fun d' => (d.move m).sessions ≤ d'.sessions)
        (Nat.le_refl _) (fun le hm => Nat.le_trans le hm.sessions_le) ms⟩
    · exact ⟨Nat.lt_of_le_of_lt (d.moved m).sessions_le (ih h).1, (ih h).2⟩

theorem askers_ordered (d : Device) (ms : List Move) : (d.askers ms).Pairwise (· < ·) := by
  induction ms generalizing d with
  | nil => exact .nil
  | cons m ms ih =>
    refine List.pairwise_append.mpr ⟨?_, ih _, fun k hk l hl => ?_⟩
    · rw [asks]
      split
      · exact List.pairwise_singleton ..
      · exact .nil
    · obtain ⟨rfl, -⟩ := mem_asks hk
      exact (askers_range hl).1

/-- A session is opened with what its request wants. -/
theorem Moved.asked (hm : Moved d m d') (grown : d'.sessions ≠ d.sessions) :
    d'.session.flags.resetAfterSuccess = m.asksRestart := by
  obtain ⟨c, f, total, timeoutMs, flags, rfl, decodes, rfl⟩ := hm.opens grown
  simp only [Move.asksRestart, decodes]
  rfl

/-- **A task goes by what its session was asked for.** -/
theorem resetAfterSuccess_iff (config : Config) (firmware : Firmware) (ms : List Move)
    (live : ((fresh config firmware).run ms).task = some t) :
    ((fresh config firmware).run ms).session.flags.resetAfterSuccess = true ↔
      ((fresh config firmware).run ms).sessions ∈ (fresh config firmware).askers ms := by
  induction ms using List.reverseRecOn generalizing t with
  | nil => cases live
  | append_singleton ms m ih =>
    have sound := sound_run config firmware ms
    have range {k} (h : k ∈ (fresh config firmware).askers ms) := (askers_range h).2
    rw [run_concat] at live ⊢
    rw [askers_append, askers_singleton, List.mem_append]
    generalize (fresh config firmware).run ms = d at live ih sound range ⊢
    by_cases same : (d.move m).sessions = d.sessions
    · have hasTask : (d.move m).HasTask d.sessions t := ⟨same, live⟩
      obtain ⟨t', before, came⟩ := hasTask.came sound (Nat.le_refl _) (d.moved m)
      have flags : (d.move m).session.flags = d.session.flags := by
        obtain ⟨-, hm⟩ | alone := came
        · exact hm.flags sound before.live live
        · exact alone.flags
      rw [flags, same, ih before.live, asks, if_neg fun h => h.2 same]
      simp
    · have older : (d.move m).sessions ∉ (fresh config firmware).askers ms := fun h =>
        same (Nat.le_antisymm (range h) (d.moved m).sessions_le)
      rw [(d.moved m).asked same, asks]
      simp [older, same]

/-! ## The sessions that are completed -/

/-- A session is completed. -/
def IsCompleted (d : Device) (k : Nat) : Prop :=
  ∃ e ∈ deeds (.task k) d.journal, e.completes = true

instance (d : Device) (k : Nat) : Decidable (d.IsCompleted k) :=
  inferInstanceAs (Decidable (∃ e ∈ deeds (.task k) d.journal, e.completes = true))

theorem isCompleted_iff :
    d.IsCompleted k ↔ ∃ n, .event (.completed n) ∈ deeds (.task k) d.journal := by
  refine ⟨?_, fun ⟨n, h⟩ => ⟨_, h, rfl⟩⟩
  rintro ⟨e, he, completes⟩
  cases e with
  | event event => cases event <;> first | exact ⟨_, he⟩ | cases completes
  | _ => cases completes

/-- **A session that is completed is past.** -/
theorem IsCompleted.isPast (h : d.IsCompleted k) (chronicle : d.Chronicle) (proper : d.Proper) :
    d.IsPast k := by
  obtain ⟨n, he⟩ := isCompleted_iff.mp h
  obtain ⟨owner, total, opened⟩ := chronicle.opened_of_deed proper he
  refine Decidable.byContradiction fun hpast => ?_
  obtain work | ⟨point, died⟩ := chronicle.working opened hpast _ he
  · exact work
  · cases died

/-- So its task is not that of the session that is on. -/
theorem IsCompleted.free (h : d.IsCompleted k) (sound : d.Sound) (chronicle : d.Chronicle)
    (proper : d.Proper) : ∀ t, d.task = some t → .task k ≠ d.taskActor := fun _ live own =>
  not_isPast (sound.ne_idle live) (Actor.task.inj own ▸ h.isPast chronicle proper)

/-- A task restarts only when it has told of its session's completion, and it is the last that it
does. -/
theorem Past.restarts {front back : List Effect} (h : Past owner total es left)
    (split : es = front ++ .restarted :: back) : left = [] ∧ back = [] ∧ ∃ body reached,
      (∀ e ∈ body, e.IsWork owner total) ∧ front = body ++ [.event (.completed total),
        .sent owner (.state total 0) reached, .broadcast (some owner) (.state total 0)] := by
  obtain ⟨body, done, outcome, received, flags, deeds, work, -, duties⟩ := h
  have notWork : .restarted ∉ body ++ [.event (outcome.verdict total received)] := fun h => by
    rcases List.mem_append.mp h with h | h
    · exact work _ h
    · cases List.mem_singleton.mp h
  rw [deeds, ← List.singleton_append, ← List.append_assoc] at split
  obtain ⟨⟨said, rfl⟩, -⟩ := prefix_of_split split notWork
  rw [List.append_assoc _ said] at split
  obtain rfl := List.append_cancel_left split
  obtain ⟨duty, hduty, heq⟩ := duty_of_done duties (List.mem_append_right _ List.mem_cons_self)
  obtain rfl := Option.some.inj heq
  obtain ⟨rfl, wants⟩ := farewell_of_restart hduty
  -- a completed session leaves three duties, of which the restart is the last
  rcases said with _ | ⟨e₁, _ | ⟨e₂, said⟩⟩
  · simp [farewell, heq] at duties
  · simp [farewell, heq] at duties
  · simp only [farewell, wants, List.map_append, List.map_cons, heq] at duties
    obtain ⟨tells, duties⟩ := List.cons.inj duties
    obtain ⟨broadcasts, duties⟩ := List.cons.inj duties
    obtain ⟨rfl, rfl, rfl⟩ : said = [] ∧ back = [] ∧ left = [] := by
      simpa [List.append_eq_singleton_iff] using duties
    obtain ⟨reached, rfl⟩ := Effect.eq_sent_of_duty? tells
    obtain rfl := Effect.eq_broadcast_of_duty? broadcasts
    exact ⟨rfl, rfl, body, reached, work, List.append_assoc ..⟩

/-- A task restarts at most once. -/
theorem Past.count_restarted_le (h : Past owner total es left) : es.count .restarted ≤ 1 := by
  by_cases restarts : .restarted ∈ es
  · obtain ⟨front, back, split⟩ := List.append_of_mem restarts
    obtain ⟨-, rfl, body, reached, work, hfront⟩ := h.restarts split
    have none : body.count .restarted = 0 := List.count_eq_zero.mpr fun h => work _ h
    rw [split, hfront, List.count_append, List.count_append, none]
    exact Nat.le_refl 1
  · rw [List.count_eq_zero.mpr restarts]
    exact Nat.zero_le 1

theorem restarted_mem_iff : .restarted ∈ es ↔ .restart ∈ es.filterMap Effect.duty? := by
  rw [List.mem_filterMap]
  refine ⟨fun h => ⟨_, h, rfl⟩, ?_⟩
  rintro ⟨e, he, isRestart⟩
  cases e <;> cases isRestart
  exact he

/-- A task that leaves its session completed restarts the device, or is still to, if the session
wants it. -/
theorem Chronicle.owes_of_leave (h : d.Chronicle) (sound : d.Sound) (live : d.task = some t)
    (atStage : t.stage = .leaving .completed) (back : List Move) :
    let d' := (d.leave t .completed).run back
    (.restarted ∈ deeds d.taskActor d'.journal ∨ .restart ∈ dutiesOf d.taskActor d'.errands) ↔
      d.session.flags.resetAfterSuccess = true := by
  intro d'
  have busy := sound.ne_idle live
  obtain ⟨owner, bound, -⟩ := h.current busy
  have unrestarted : .restarted ∉ deeds d.taskActor d.journal := fun he =>
    h.works t owner live bound _ he
  have hdeeds : deeds d.taskActor d'.journal = deeds d.taskActor d.journal ++
      .event (.completed d.session.total) :: (d.leave t .completed).doings d.taskActor back := by
    rw [deeds_run, journal_leave, deeds_append_self, List.append_assoc]
    rfl
  have duties : dutiesOf d.taskActor (d.leave t .completed).errands
      = farewell d.registry.owner d.session.total d.session.flags .completed := by
    have none : dutiesOf d.taskActor d.errands = [] := h.undue _ (not_isPast busy)
    rw [dutiesOf_leave, none, if_pos rfl, List.nil_append]
  have isPast : (d.leave t .completed).IsPast d.sessions := .inr ⟨rfl, rfl⟩
  have left := isPast.duties_run (sound.moved (.advanced live (.left atStage))) back
  calc (.restarted ∈ deeds d.taskActor d'.journal ∨ .restart ∈ dutiesOf d.taskActor d'.errands)
      ↔ .restart ∈ ((d.leave t .completed).doings d.taskActor back).filterMap Effect.duty? ++
          dutiesOf d.taskActor d'.errands := by
        rw [hdeeds, List.mem_append, List.mem_append, ← restarted_mem_iff]
        simp [unrestarted]
    _ ↔ .restart ∈ farewell d.registry.owner d.session.total d.session.flags .completed := by
        rw [← duties]
        exact iff_of_eq (congrArg (_ ∈ ·) left)
    _ ↔ d.session.flags.resetAfterSuccess = true := by
        simp [farewell]

/-- **A completed session has restarted the device, or is still to, if it was asked to.** -/
theorem owes_iff (config : Config) (firmware : Firmware) (ms : List Move)
    (completed : ((fresh config firmware).run ms).IsCompleted k) :
    let d := (fresh config firmware).run ms
    (.restarted ∈ deeds (.task k) d.journal ∨ .restart ∈ dutiesOf (.task k) d.errands) ↔
      k ∈ (fresh config firmware).askers ms := by
  intro d
  obtain ⟨n, said⟩ := isCompleted_iff.mp completed
  rw [deeds_run] at said
  -- split the run where the session is completed
  obtain ⟨front, m, back, rfl, byTask, completes⟩ := mem_doings.mp said
  obtain ⟨sound, chronicle⟩ := chronicle_run config firmware front
  have wants {t} := resetAfterSuccess_iff (t := t) config firmware front
  have hd : d = (((fresh config firmware).run front).move m).run back := run_append ..
  rw [hd, askers_append, List.mem_append]
  clear_value d
  generalize (fresh config firmware).run front = d₀ at *
  have completes := completes_of_does completes
  obtain ⟨rfl, counted, -⟩ := completes.left_eq
  obtain rfl : d₀.sessions = k := Actor.task.inj byTask
  have later : d₀.sessions ∉ d₀.askers (.step d₀.taskActor :: back) := fun h =>
    Nat.lt_irrefl _ (askers_range h).1
  generalize d₀.move (.step d₀.taskActor) = d₁ at *
  obtain ⟨live, atStage⟩ := completes
  rw [or_iff_left later, ← wants live]
  exact chronicle.owes_of_leave sound live atStage back

/-! ## The sessions whose tasks have restarted the device -/

/-- A session whose task has restarted the device is completed and past. -/
theorem Chronicle.past_of_restarted (h : d.Chronicle) (proper : d.Proper)
    (restarted : .restarted ∈ deeds (.task k) d.journal) : d.IsCompleted k ∧ ∃ owner total,
      opening? k d.journal = some (owner, total) ∧
        Past owner total (deeds (.task k) d.journal) (dutiesOf (.task k) d.errands) := by
  obtain ⟨owner, total, opened⟩ := h.opened_of_deed proper restarted
  have completed : d.IsCompleted k :=
    isCompleted_iff.mpr ⟨total, h.completed_of_restarted opened restarted⟩
  exact ⟨completed, owner, total, opened, h.past k owner total opened (completed.isPast h proper)⟩

/-- The task of a session that is over has something left to do. -/
def Owes (d : Device) (k : Nat) : Prop := dutiesOf (.task k) d.errands ≠ []

instance (d : Device) (k : Nat) : Decidable (d.Owes k) := inferInstanceAs (Decidable (_ ≠ _))

/-- **The task of a completed session restarts the device if it was asked to**, and has nothing left
to do then. -/
theorem restarted_iff (config : Config) (firmware : Firmware) (ms : List Move) :
    let d := (fresh config firmware).run ms
    .restarted ∈ deeds (.task k) d.journal ↔ d.IsCompleted k ∧
      k ∈ (fresh config firmware).askers ms ∧ ¬d.Owes k := by
  intro d
  have chronicle : d.Chronicle := (chronicle_run config firmware ms).2
  have proper : d.Proper := proper_run config firmware ms
  refine ⟨fun restarted => ?_, fun ⟨completed, asked, nothing⟩ => ?_⟩
  · obtain ⟨completed, owner, total, -, past⟩ := chronicle.past_of_restarted proper restarted
    obtain ⟨front, back, split⟩ := List.append_of_mem restarted
    exact ⟨completed, (owes_iff config firmware ms completed).mp (.inl restarted),
      fun owes => owes (past.restarts split).1⟩
  · refine ((owes_iff config firmware ms completed).mpr asked).resolve_right fun due => ?_
    exact nothing (List.ne_nil_of_mem due)

/-- **What comes before a restart by a task**: its session's completion, with the frame to the owner
and the broadcast. -/
theorem Chronicle.told_of_restarts {front back : Journal} (h : d.Chronicle) (proper : d.Proper)
    (split : d.journal = front ++ ⟨.task k, .restarted⟩ :: back) : ∃ owner total body reached,
      opening? k d.journal = some (owner, total) ∧
        deeds (.task k) front = body ++ [.event (.completed total),
          .sent owner (.state total 0) reached, .broadcast (some owner) (.state total 0)] := by
  have hdeeds : deeds (.task k) d.journal
      = deeds (.task k) front ++ .restarted :: deeds (.task k) back := by
    rw [split, deeds_append, deeds_cons, if_pos rfl]
  have restarted : .restarted ∈ deeds (.task k) d.journal := by
    rw [hdeeds]
    exact List.mem_append_right _ List.mem_cons_self
  obtain ⟨-, owner, total, opened, past⟩ := h.past_of_restarted proper restarted
  obtain ⟨-, -, body, reached, -, told⟩ := past.restarts hdeeds
  exact ⟨owner, total, body, reached, opened, told⟩

theorem nodup_restarters (config : Config) (firmware : Firmware) (ms : List Move) :
    ((fresh config firmware).run ms).journal.restarters.Nodup := by
  have chronicle := (chronicle_run config firmware ms).2
  have proper := proper_run config firmware ms
  refine List.nodup_iff_count_le_one.mpr fun k => ?_
  rw [count_restarters, ← count_deeds]
  by_cases restarted : .restarted ∈ deeds (.task k) ((fresh config firmware).run ms).journal
  · obtain ⟨-, owner, total, -, past⟩ := chronicle.past_of_restarted proper restarted
    exact past.count_restarted_le
  · rw [List.count_eq_zero.mpr restarted]
    exact Nat.zero_le 1

/-- **Restarts that were made and restarts that are left make up those that were asked for.** -/
theorem restarts_conserved (config : Config) (firmware : Firmware) (ms : List Move) :
    let d := (fresh config firmware).run ms
    let asked := ((fresh config firmware).askers ms).filter (d.IsCompleted ·)
    d.journal.countP Entry.restarts + (dutiesOf .restarter d.errands).length
        + (asked.filter (d.Owes ·)).length
      = d.journal.countP Entry.performsReset + asked.length := by
  intro d asked
  have owed : d.journal.countP Entry.resets + (dutiesOf .restarter d.errands).length
      = d.journal.countP Entry.performsReset := (reckons_run config firmware ms).owed
  have nodup : asked.Nodup :=
    (((fresh config firmware).askers_ordered ms).imp Nat.ne_of_lt).filter _
  have made : d.journal.restarters.Perm (asked.filter (¬d.Owes ·)) := by
    refine (List.perm_ext_iff_of_nodup (nodup_restarters config firmware ms)
      (nodup.filter _)).mpr fun k => ?_
    refine (mem_restarters.trans (restarted_iff config firmware ms)).trans ?_
    simp [asked, d, and_comm, and_left_comm]
  have split := asked.length_eq_length_filter_add (d.Owes ·)
  rw [countP_restarts, made.length_eq, ← owed]
  simp only [decide_not] at split ⊢
  omega

/-! ## At rest -/

/-- The task of a session has still to say something, and its port may hold it up. -/
def IsBlocked (d : Device) (k : Nat) : Prop :=
  d.point? (.task k) = some .send ∨ d.point? (.task k) = some .broadcast

instance (d : Device) (k : Nat) : Decidable (d.IsBlocked k) :=
  inferInstanceAs (Decidable (_ ∨ _))

section Rest

variable {held : Actor → Prop} {a : Actor} {p : Point}

/-- An actor that is not the task of the session is held up at one of its duties. -/
theorem mem_duties_of_point? (free : ∀ t, d.task = some t → a ≠ d.taskActor)
    (hp : d.point? a = some p) : ∃ duty ∈ dutiesOf a d.errands, duty.point? = some p := by
  have errand : d.errandPoint? a = some p := by
    rw [← hp, point?]
    split
    · next t live => exact (if_neg (free t live)).symm
    · rfl
  obtain ⟨⟨duty, errands⟩, takes, hduty⟩ := Option.bind_eq_some_iff.mp errand
  rw [(dutiesOf_takeDuty takes).1]
  exact ⟨duty, List.mem_cons_self, hduty⟩

/-- What is left at rest is held up. -/
theorem AtRest.held_iff (rest : d.AtRest held) (free : ∀ t, d.task = some t → a ≠ d.taskActor) :
    held a ↔ dutiesOf a d.errands ≠ [] := by
  refine ⟨fun isHeld => ?_, fun owes => Classical.byContradiction fun notHeld => ?_⟩
  · obtain ⟨p, hp⟩ := rest.blocked a isHeld
    obtain ⟨duty, hduty, -⟩ := mem_duties_of_point? free hp
    exact List.ne_nil_of_mem hduty
  · have still := rest.still a notHeld
    rw [step_of_free free] at still
    exact owes (dutiesOf_eq_nil_iff.mpr (Option.map_eq_none_iff.mp still))

/-- A task that is held up behind its session is held up at a frame. -/
theorem AtRest.isBlocked_iff (rest : d.AtRest held)
    (free : ∀ t, d.task = some t → .task k ≠ d.taskActor) : d.IsBlocked k ↔ held (.task k) := by
  refine ⟨fun blocked => (rest.held_iff free).mpr ?_, fun isHeld => ?_⟩
  · obtain ⟨p, hp⟩ : ∃ p, d.point? (.task k) = some p := blocked.elim (⟨_, ·⟩) (⟨_, ·⟩)
    obtain ⟨duty, hduty, -⟩ := mem_duties_of_point? free hp
    exact List.ne_nil_of_mem hduty
  · obtain ⟨p, hp⟩ := rest.blocked _ isHeld
    obtain ⟨duty, -, hduty⟩ := mem_duties_of_point? free hp
    rw [IsBlocked, hp]
    cases duty <;> cases hduty
    · exact .inl rfl
    · exact .inr rfl

/-- No restart is left to do at rest but by a task. -/
theorem AtRest.restarter (rest : d.AtRest held) (proper : d.Proper) :
    dutiesOf .restarter d.errands = [] := by
  have free : ∀ t, d.task = some t → .restarter ≠ d.taskActor := fun _ _ h => by cases h
  refine Classical.byContradiction fun owes => ?_
  obtain ⟨p, hp⟩ := rest.blocked _ ((rest.held_iff free).mpr owes)
  obtain ⟨duty, hduty, hpoint⟩ := mem_duties_of_point? free hp
  obtain ⟨e, he, hduty⟩ := List.mem_flatMap.mp hduty
  have hproper := proper.errands e he
  split at hduty
  · next isRestarter =>
    rw [Errand.Proper, isRestarter] at hproper
    obtain rfl := hproper duty hduty
    cases hpoint
  · cases hduty

end Rest

/-- **Restarts are accounted for.**  Whenever everything has run as far as it can, the restarts that
were made, and the completed sessions that want one and are held up, make up the resets that were
performed and the completed sessions that want one; a completed session is held up at the last
things that it says.  A restart by the task of a session comes right behind the frame to the owner
and the broadcast that the session is completed.  Any other restart comes behind the reply to a
reset: there are more replies before it than restarts, and one by the handler comes right behind its
reply. -/
theorem restart_accounting (config : Config) (firmware : Firmware) (ms : List Move) :
    let d := (fresh config firmware).run ms
    let asked := ((fresh config firmware).askers ms).filter (d.IsCompleted ·)
    (∀ held, d.AtRest held →
      d.journal.countP Entry.restarts + (asked.filter (d.IsBlocked ·)).length
          = d.journal.countP Entry.performsReset + asked.length ∧
        ∀ k, d.IsCompleted k → (d.IsBlocked k ↔ held (.task k))) ∧
    ∀ front e back, d.journal = front ++ e :: back →
      (∀ k, e = ⟨.task k, .restarted⟩ → ∃ owner total body reached,
        opening? k d.journal = some (owner, total) ∧
          deeds (.task k) front = body ++ [.event (.completed total),
            .sent owner (.state total 0) reached, .broadcast (some owner) (.state total 0)]) ∧
      (e.resets = true → front.countP Entry.resets < front.countP Entry.repliesReset ∧
        (e.actor = .handler →
          ∃ c reached, [⟨.handler, .sent c (.action .reset 0) reached⟩] <:+ front)) := by
  intro d asked
  have chronicle : d.Chronicle := (chronicle_run config firmware ms).2
  have sound : d.Sound := sound_run config firmware ms
  have proper : d.Proper := proper_run config firmware ms
  refine ⟨fun held rest => ?_, fun front e back split => ⟨?_, fun resets => ?_⟩⟩
  · have blocked : asked.filter (d.Owes ·) = asked.filter (d.IsBlocked ·) := by
      refine List.filter_congr fun k hk => decide_eq_decide.mpr ?_
      have completed : d.IsCompleted k := by simpa using (List.mem_filter.mp hk).2
      have free := completed.free sound chronicle proper
      exact (rest.held_iff free).symm.trans (rest.isBlocked_iff free).symm
    have conserved : d.journal.countP Entry.restarts + (dutiesOf .restarter d.errands).length
        + (asked.filter (d.Owes ·)).length
          = d.journal.countP Entry.performsReset + asked.length :=
      restarts_conserved config firmware ms
    rw [rest.restarter proper, blocked] at conserved
    exact ⟨conserved, fun k completed =>
      rest.isBlocked_iff (completed.free sound chronicle proper)⟩
  · rintro k rfl
    exact chronicle.told_of_restarts proper split
  · exact replies_of_resets config firmware resets split

/-- The task of a session that wants a restart is held up before the last frame, and a reset finds
no thread to be had. -/
example :
    let ms := takeOver.take 16 ++ [.failSpawn, .frame ⟨2, 2⟩ (Request.action .reset).encode]
    let d := (fresh .default .unknown).run ms
    (fresh .default .unknown).askers ms = [1] ∧ d.IsCompleted 1 ∧ d.IsBlocked 1 ∧
      d.journal.countP Entry.restarts = 1 ∧ d.journal.countP Entry.performsReset = 1 := by
  decide +kernel

end Device

end OverTheAir
