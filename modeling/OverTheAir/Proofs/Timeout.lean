import OverTheAir.Proofs.Order
import OverTheAir.Proofs.Policy
import OverTheAir.Proofs.Rest
import OverTheAir.Proofs.Waiting

/-!
# Proofs/Timeout — a session whose task waits too long is aborted

A task that has waited for as long as its session may be idle waits no longer (`Idles.expires`), and
records with its next step that time is up.  Nothing else says so: no request records it, no answer
of the flash leads to it, and a recorded abort is heeded before the task waits.  Between the end of
the wait and the record anybody may act (`Lapse`): a message that is taken in there comes too late,
and an abort that is recorded there keeps its reason.

* `lapse_run` — behind a wait in vain there is one that was too long.
* `Punctual.run` — without one, nothing says that time is up.
* `Expiring.run` — behind the record, every step of the task brings the session closer to its end.
* `idle_timeout` — all of it, for every session of a run that the session tasks survive.
-/

namespace OverTheAir

/-- The reason that a task is about to end its session for. -/
def Stage.reason? : Stage → Option AbortReason
  | .aborting reason => some reason
  | .leaving (.aborted reason) => some reason
  | _ => none

theorem Stage.reason?_next (isEnd : Bool) : (next isEnd).reason? = none := by
  cases isEnd <;> rfl

/-- No answer of the flash says that time is up. -/
theorem Stage.reason?_after {s : Stage} {total : UInt32} {call : FlashCall}
    (calls : s.call? total = some call) (r : FlashResult)
    (late : (s.after r).reason? = some .timeout) : s.reason? = some .timeout := by
  obtain ⟨rfl, -⟩ | ⟨chunk, isEnd, rfl, -⟩ | ⟨rfl, -⟩ | ⟨rfl, -⟩ | ⟨reason, rfl, -⟩ :=
    call?_cases calls
  · rcases r with (_ | _ | _ | _ | _ | _) | ⟨⟩ <;> cases late
  · rcases r with e | ⟨⟩ <;> cases late
  · rcases r with e | ⟨⟩ <;> cases late
  · rcases r with e | ⟨⟩ <;> cases late
  · exact late

namespace Device

open Journal

variable {d d' : Device} {t t' : SessionTask} {k waited limit : Nat} {m : Move}
  {front mid gap : List Move}

/-! ## Time is up -/

/-- The task of the session has waited in vain, and has not recorded yet that time is up. -/
def Lapsed (d : Device) (k : Nat) : Prop := ∃ t, d.HasTask k t ∧ t.stage = .expired

/-- **A task that has waited too long waits no longer.** -/
theorem Idles.expires (h : d.Idles k waited) (late : d.session.timeout ≤ waited) :
    ∃ t, d.HasTask k t ∧ d.step (.task k) = some (d.goto t .expired) := by
  obtain ⟨⟨t, hasTask, hs⟩, empty, -⟩ := h
  refine ⟨t, hasTask, ?_⟩
  rw [← hasTask.actor]
  simp [step, hasTask.live, taskStep, hs, await, empty, Nat.not_lt_of_le late]

/-- Session or task have it that time is up. -/
def BlamesTime (d : Device) : Prop :=
  d.session.state = .aborted .timeout ∨ ∃ t, d.task = some t ∧ t.stage.reason? = some .timeout

/-- The task records that time is up: its wait was in vain, and no abort is on record. -/
def Overdue (d : Device) (m : Move) : Prop :=
  m = .step d.taskActor ∧ d.Lapsed d.sessions ∧ d.session.state = .receiving

/-- No answer to a frame puts it on record that time is up, -/
theorem Answered.state_of_timeout {c : Client} {a : Answer} {es : List Effect}
    (h : d.Answered c a es d') (late : d'.session.state = .aborted .timeout) :
    d.session.state = .aborted .timeout := by
  have kept : d'.session = d.session → d.session.state = .aborted .timeout :=
    fun session => session ▸ late
  cases h with
  | refused _ _ unchanged =>
    have session := congrArg Device.session unchanged
    exact kept session
  | opened _ _ session => cases session ▸ late
  | unopened _ _ _ session => cases session ▸ late
  | queued _ _ _ _ put =>
    have session := congrArg Device.session put
    exact kept session
  | overflowed | abandoned => cases late
  | acted _ _ _ _ _ _ session => exact kept session
  | died _ _ _ session => exact kept session

/-- and no client that leaves. -/
theorem Roomy.state_of_request (roomy : d.Roomy) (sound : d.Sound) (alive : d.Alive)
    (request : m.isRequest = true) (late : (d.move m).session.state = .aborted .timeout) :
    d.session.state = .aborted .timeout := by
  cases m with
  | frame c f => exact (roomy.answered sound alive c f).state_of_timeout late
  | disconnect c =>
    rcases d.disconnect_eq c with same | records
    · exact same ▸ late
    · rw [records] at late
      cases late
  | _ => cases request

/-- **An abort on record is heeded before the task waits**, so it does not wait in vain. -/
theorem Heeds.receiving (heeds : d.Heeds) (sound : d.Sound) (live : d.task = some t)
    (hs : t.stage = .awaiting waited) (empty : d.inbox = some []) :
    d.session.state = .receiving := by
  rcases (sound.stands live hs).inTransfer with receiving | ⟨reason, aborted⟩
  · exact receiving
  · rcases heeds t reason live aborted with looks | nonempty
    · rw [hs] at looks
      cases looks
    · exact absurd empty nonempty

/-- A task that has waited in vain is overdue, unless an abort is on record. -/
theorem Sound.overdue (sound : d.Sound) (live : d.task = some t) (hs : t.stage = .expired) :
    d.Overdue (.step d.taskActor) ∨ ∃ reason, d.session.state = .aborted reason :=
  (sound.stands live hs).inTransfer.imp (fun receiving => ⟨rfl, ⟨t, ⟨rfl, live⟩, hs⟩, receiving⟩) id

/-- **Time is up for a task that is overdue only**, as far as the record of its session goes, -/
theorem state_came (sound : d.Sound) (roomy : d.Roomy) (alive : d.Alive)
    (late : (d.move m).session.state = .aborted .timeout) : d.BlamesTime ∨ d.Overdue m := by
  cases request : m.isRequest with
  | true => exact .inl (.inl (roomy.state_of_request sound alive request late))
  | false =>
    have hm := d.moved m
    generalize d.move m = d' at hm late
    cases hm with
    | handled hm => cases hm.isRequest.symm.trans request
    | advanced live hm =>
      cases hm with
      | timedOut hs =>
        refine (sound.overdue live hs).symm.imp (fun ⟨reason, aborted⟩ => .inl ?_) id
        have same := congrArg Session.state (Session.markAborted_of_aborted aborted .timeout)
        exact same.symm.trans late
      | miscounted miscounts => exact absurd miscounts (sound.not_miscounts live)
      | accounted hs _ advances =>
        obtain ⟨received, rfl, -⟩ := sound.advances live hs advances
        exact .inl (.inl late)
      | finalizing | left => cases late
      | _ => exact .inl (.inl late)
    | performed _ hm =>
      obtain ⟨effect, takes, does⟩ := hm
      exact .inl (.inl late)
    | _ => exact .inl (.inl late)

/-- as far as the next step of its task goes, -/
theorem Advanced.stage_came (hm : Advanced d t d') (sound : d.Sound) (live : d.task = some t)
    (live' : d'.task = some t') (late : t'.stage.reason? = some .timeout) :
    d.BlamesTime ∨ d.Overdue (.step d.taskActor) := by
  cases hm with
  | called calls =>
    rw [stage_of_goto live'] at late
    exact .inl (.inr ⟨t, live, Stage.reason?_after calls _ late⟩)
  | bailed _ aborted =>
    rw [stage_of_goto live'] at late
    exact .inl (.inl (aborted.trans (congrArg _ (Option.some.inj late))))
  | orphaned _ _ lost =>
    obtain ⟨queue, inbox⟩ := (sound.busy (sound.ne_idle live)).inbox
    cases inbox.symm.trans lost
  | timedOut hs =>
    refine (sound.overdue live hs).symm.imp (fun ⟨reason, aborted⟩ => .inl ?_) id
    rw [stage_of_goto live', Session.markAborted_of_aborted aborted,
      Session.pendingAbort_eq_some_iff.mpr aborted] at late
    exact aborted.trans (congrArg _ (Option.some.inj late))
  | barred _ bars =>
    rw [stage_of_goto live'] at late
    rcases Image.checkVersion_error bars with rfl | rfl <;> cases late
  | told | untold | skipped | filled =>
    rw [stage_of_goto live', Stage.reason?_next] at late
    cases late
  | died | miscounted | left => cases live'
  | _ =>
    rw [stage_of_goto live'] at late
    cases late

/-- and as far as its task goes, whoever moves. -/
theorem stage_came (sound : d.Sound) (live' : (d.move m).task = some t')
    (late : t'.stage.reason? = some .timeout) : d.BlamesTime ∨ d.Overdue m := by
  have hm := d.moved m
  generalize d.move m = d' at hm live'
  cases hm with
  | handled hm =>
    cases hm with
    | opened =>
      cases live'
      cases late
    | _ => exact .inl (.inr ⟨t', live', late⟩)
  | advanced live hm => exact hm.stage_came sound live live' late
  | performed _ hm =>
    obtain ⟨effect, takes, does⟩ := hm
    exact .inl (.inr ⟨t', live', late⟩)
  | waited =>
    rw [stage_of_goto live'] at late
    cases late
  | _ => exact .inl (.inr ⟨t', live', late⟩)

/-- A task says that its session has timed out when it leaves for that reason. -/
theorem Advanced.blames_of_does {n : UInt32} (hm : Advanced d t (d.move (.step d.taskActor)))
    (said : .event (.aborted .timeout n) ∈ d.does (.step d.taskActor)) :
    t.stage.reason? = some .timeout := by
  generalize hd' : d.move (.step d.taskActor) = d' at hm
  -- a step does what it adds to the journal
  have among : ∀ es : List Effect, d'.journal = d.journal ++ es.map (Entry.mk d.taskActor) →
      .event (.aborted .timeout n) ∈ es := by
    intro es hjournal
    rwa [does_eq (hd' ▸ hjournal)] at said
  cases hm with
  | @left outcome hs =>
    have event := among _ (journal_leave d t outcome)
    rcases outcome with _ | reason
    · simp [Outcome.verdict] at event
    · obtain ⟨rfl, -⟩ : reason = .timeout ∧ _ := by
        simpa [Outcome.verdict, eq_comm] using event
      rw [hs]
      rfl
  | died => simpa using among [.died _] rfl
  | called => simpa using among [.flash _ _] rfl
  | told => simpa using among [.sent _ _ _] rfl
  | miscounted => simpa using among [.miscounted] rfl
  | progressed | filled => simpa using among [.event (.progress _ _)] rfl
  | _ => simpa using among [] (List.append_nil _).symm

/-- Who says that a session has timed out is its task, with time up before. -/
theorem blames_of_does {n : UInt32} (byTask : m.actor = .task k)
    (said : .event (.aborted .timeout n) ∈ d.does m) : d.sessions = k ∧ d.BlamesTime := by
  cases d.done m with
  | handled hm => cases hm.journal.1.symm.trans byTask
  | @advanced t live own hm =>
    subst own
    exact ⟨Actor.task.inj byTask, .inr ⟨t, live, hm.blames_of_does said⟩⟩
  | performed does isDuty =>
    rw [does] at said
    cases List.mem_singleton.mp said
    cases isDuty
  | nothing does =>
    rw [does] at said
    cases said

/-! ## A run that every task survives -/

/-- What is known of a session with a timeout, in a run that every session task survives. -/
structure Clocked (d : Device) (k limit : Nat) : Prop where
  sound : d.Sound
  chronicle : d.Chronicle
  roomy : d.Roomy
  heeds : d.Heeds
  deep : 0 < d.config.queueDepth.toNat
  counted : k ≤ d.sessions
  timeout : ∀ t, d.HasTask k t → d.session.timeout = limit

theorem Clocked.move (h : d.Clocked k limit) (survived : d.Survived) (m : Move) :
    (d.move m).Clocked k limit := by
  have hm := d.moved m
  have alive := h.chronicle.alive survived
  refine ⟨h.sound.moved hm, h.chronicle.moved h.sound hm, h.roomy.move h.sound alive m,
    h.heeds.move h.roomy h.sound alive h.deep m, hm.config ▸ h.deep,
    Nat.le_trans h.counted hm.sessions_le, fun t' h' => ?_⟩
  obtain ⟨t, before⟩ := h'.before h.counted hm
  exact (h'.timeout h.sound h.counted hm).trans (h.timeout t before)

theorem Clocked.run (h : d.Clocked k limit) (ms : List Move) (survived : (d.run ms).Survived) :
    (d.run ms).Clocked k limit := by
  induction ms generalizing d with
  | nil => exact h
  | cons m ms ih =>
    have survived₁ : (d.move m).Survived := Survived.of_run survived
    exact ih (h.move survived₁.of_move m) survived

/-- A task that waits does so under the timeout of its session. -/
theorem Clocked.timeout_of_idles (h : d.Clocked k limit) (idles : d.Idles k waited) :
    d.session.timeout = limit := by
  obtain ⟨t, hasTask, -⟩ := idles.waits
  exact h.timeout t hasTask

/-! ## A wait in vain -/

/-- A run in which the task waits all through `mid`, finds that the wait was in vain, and does
nothing all through `gap`. -/
def lapse (k : Nat) (front mid gap : List Move) : List Move :=
  front ++ mid ++ .step (.task k) :: gap

/-- A wait of the task that was too long, as long as the task has not recorded that time is up. -/
structure Lapse (d : Device) (k limit : Nat) (front mid gap : List Move) : Prop where
  wait : d.Wait k front mid
  long : limit ≤ elapsed mid
  held : .step (.task k) ∉ gap

/-- A task has waited in vain as long as it takes no step. -/
theorem Lapsed.run (h : d.Lapsed k) (sound : d.Sound) (gap : List Move)
    (held : .step (.task k) ∉ gap) : (d.run gap).Lapsed k := by
  induction gap generalizing d with
  | nil => exact h
  | cons m gap ih =>
    obtain ⟨other, held⟩ := not_or.mp (mt List.mem_cons.mpr held)
    obtain ⟨t, hasTask, hs⟩ := h
    obtain ⟨t', alone⟩ := hasTask.leftAlone sound (Ne.symm other)
    exact ih ⟨t', alone.hasTask, alone.stage_eq hs nofun⟩ (sound.moved (d.moved m)) held

/-- **Behind a wait that was too long the task has waited in vain.** -/
theorem Lapse.lapsed (h : d.Lapse k limit front mid gap) (clocked : d.Clocked k limit)
    (survived : (d.run (lapse k front mid gap)).Survived) :
    (d.run (lapse k front mid gap)).Lapsed k := by
  rw [lapse] at survived
  have before := clocked.run (front ++ mid) survived.of_append
  have idles := h.wait.lasts mid List.prefix_rfl
  obtain ⟨t, hasTask, hstep⟩ := idles.expires (before.timeout_of_idles idles ▸ h.long)
  have hmove : (d.run (front ++ mid)).move (.step (.task k)) = _ :=
    congrArg (Option.getD · (d.run (front ++ mid))) hstep
  rw [lapse, run_append, run_cons]
  refine Lapsed.run ?_ (before.sound.moved ((d.run (front ++ mid)).moved _)) gap h.held
  rw [hmove]
  exact ⟨{ t with stage := .expired }, ⟨hasTask.session, rfl⟩, rfl⟩

/-- A step that ends a wait in vain finds no message, and no time left. -/
theorem Advanced.gives_up (hm : Advanced d t d') (live' : d'.task = some t')
    (hs' : t'.stage = .expired) :
    ∃ waited, t.stage = .awaiting waited ∧ d.inbox = some [] ∧ d.session.timeout ≤ waited := by
  cases hm with
  | waitedOut hs empty late => exact ⟨_, hs, empty, late⟩
  | @told _ isEnd | @untold _ isEnd | @skipped isEnd | @filled _ _ isEnd =>
    have next := (stage_of_goto live').symm.trans hs'
    cases isEnd <;> cases next
  | @called call r _ _ calls =>
    have after := (stage_of_goto live').symm.trans hs'
    obtain ⟨hs, -⟩ | ⟨_, _, hs, -⟩ | ⟨hs, -⟩ | ⟨hs, -⟩ | ⟨_, hs, -⟩ := Stage.call?_cases calls <;>
      rw [hs] at after <;> rcases r with e | ⟨⟩ <;> cases after
  | died | miscounted | left => cases live'
  | _ => cases (stage_of_goto live').symm.trans hs'

/-- **Whence a task comes that has waited in vain**: from a wait that was too long, or it has been
there before and did nothing. -/
theorem Lapsed.came (h : (d.move m).Lapsed k) (clocked : d.Clocked k limit) :
    (m = .step (.task k) ∧ ∃ waited, d.Idles k waited ∧ limit ≤ waited) ∨
      m ≠ .step (.task k) ∧ d.Lapsed k := by
  obtain ⟨t', h', hs'⟩ := h
  have sound := clocked.sound
  obtain ⟨t, hasTask, ⟨rfl, hm⟩ | alone⟩ := h'.came sound clocked.counted (d.moved m)
  · obtain ⟨waited, hs, empty, late⟩ := hm.gives_up h'.live hs'
    have receiving := clocked.heeds.receiving sound hasTask.live hs empty
    have idles : d.Idles k waited := ⟨⟨t, hasTask, hs⟩, empty, receiving⟩
    exact .inl ⟨rfl, waited, idles, clocked.timeout_of_idles idles ▸ late⟩
  · have hs : t.stage = .expired := by
      rcases alone.stage with same | ⟨_, _, -, waits⟩
      · exact same.symm.trans hs'
      · cases hs'.symm.trans waits
    refine .inr ⟨?_, t, hasTask, hs⟩
    -- a step of its own would lead it elsewhere
    rintro rfl
    obtain ⟨waited, waits, -⟩ := (hasTask.steps (by simp [hs])).gives_up h'.live hs'
    cases hs.symm.trans waits

/-- **Behind a wait in vain there is one that was too long.** -/
theorem lapse_run (clocked : d.Clocked k limit) (awake : ∀ waited, ¬d.Idles k waited)
    (unlapsed : ¬d.Lapsed k) (ms : List Move) (survived : (d.run ms).Survived)
    (lapsed : (d.run ms).Lapsed k) :
    ∃ front mid gap, ms = lapse k front mid gap ∧ d.Lapse k limit front mid gap := by
  -- from the end of the run back to the step with which the wait ended
  induction ms using List.reverseRecOn with
  | nil => exact absurd lapsed unlapsed
  | append_singleton ms m ih =>
    rw [run_concat] at survived lapsed
    obtain ⟨rfl, waited, idles, late⟩ | ⟨other, before⟩ :=
      lapsed.came (clocked.run ms survived.of_move)
    · obtain ⟨front, mid, rfl, wait, rfl⟩ := wait_run clocked.counted awake ms idles
      exact ⟨front, mid, [], rfl, wait, late, List.not_mem_nil⟩
    · obtain ⟨front, mid, gap, rfl, lapse⟩ := ih survived.of_move before
      refine ⟨front, mid, gap ++ [m], List.append_assoc .., lapse.wait, lapse.long, ?_⟩
      rw [List.mem_append, List.mem_singleton]
      exact not_or.mpr ⟨lapse.held, other.symm⟩

/-! ## Nothing says that time is up -/

/-- Nothing has it that the session has timed out. -/
structure Punctual (d : Device) (k : Nat) : Prop where
  unsaid : ∀ n, .event (.aborted .timeout n) ∉ deeds (.task k) d.journal
  inTime : d.sessions = k → ¬d.BlamesTime

/-- **A session that has not timed out does not do so**, unless its task is overdue. -/
theorem Punctual.move (h : d.Punctual k) (clocked : d.Clocked k limit) (survived : d.Survived)
    (m : Move) : (d.move m).Punctual k ∨
      m = .step (.task k) ∧ d.Lapsed k ∧ d.session.state = .receiving := by
  -- whatever else happens, time was up before or is not up behind it
  by_cases overdue : d.sessions = k ∧ d.Overdue m
  · obtain ⟨rfl, overdue⟩ := overdue
    exact .inr overdue
  refine .inl ⟨fun n said => ?_, fun session blames => ?_⟩
  · rcases mem_deeds_move.mp said with before | ⟨byTask, now⟩
    · exact h.unsaid n before
    · obtain ⟨session, blames⟩ := blames_of_does byTask now
      exact h.inTime session blames
  · have session' : d.sessions = k :=
      Nat.le_antisymm (session ▸ (d.moved m).sessions_le) clocked.counted
    have came : d.BlamesTime ∨ d.Overdue m := by
      rcases blames with late | ⟨t', live', late⟩
      · exact state_came clocked.sound clocked.roomy (clocked.chronicle.alive survived)
          late
      · exact stage_came clocked.sound live' late
    exact came.elim (h.inTime session') fun due => overdue ⟨session', due⟩

/-- The session has timed out in a run: its task has waited too long, and has recorded so with no
abort on record before. -/
def TimesOut (d : Device) (k limit : Nat) (ms : List Move) : Prop :=
  ∃ front mid gap back, ms = lapse k front mid gap ++ .step (.task k) :: back ∧
    d.Lapse k limit front mid gap ∧ (d.run (lapse k front mid gap)).session.state = .receiving

/-- **A session that has not timed out in a run** has nothing that says so. -/
theorem Punctual.run (h : d.Punctual k) (clocked : d.Clocked k limit)
    (awake : ∀ waited, ¬d.Idles k waited) (unlapsed : ¬d.Lapsed k) (ms : List Move)
    (survived : (d.run ms).Survived) : (d.run ms).Punctual k ∨ d.TimesOut k limit ms := by
  induction ms using List.reverseRecOn with
  | nil => exact .inl h
  | append_singleton ms m ih =>
    rw [run_concat] at survived ⊢
    obtain punctual | ⟨front, mid, gap, back, rfl, lapsed⟩ := ih survived.of_move
    · refine (punctual.move (clocked.run ms survived.of_move) survived.of_move m).imp id ?_
      rintro ⟨rfl, lapsed, receiving⟩
      obtain ⟨front, mid, gap, rfl, lapse⟩ :=
        lapse_run clocked awake unlapsed ms survived.of_move lapsed
      exact ⟨front, mid, gap, [], rfl, lapse, receiving⟩
    · exact .inr ⟨front, mid, gap, back ++ [m], by simp, lapsed⟩

/-! ## What comes of a session that has timed out -/

variable {owner : Client} {total n : UInt32} {es : List Effect}

/-- A session that has timed out, by what its task has done since then: it has to clean up, to
leave, to tell its owner, or nothing more. -/
inductive Expiring (d : Device) (k : Nat) (owner : Client) (n : UInt32) : List Effect → Prop where
  | cleaning {t : SessionTask} (hasTask : d.HasTask k t) (stage : t.stage = .aborting .timeout)
      (aborted : d.session.state = .aborted .timeout) (received : d.session.received = n) :
      Expiring d k owner n []
  | leaving {t : SessionTask} (r) (hasTask : d.HasTask k t)
      (stage : t.stage = .leaving (.aborted .timeout))
      (aborted : d.session.state = .aborted .timeout) (received : d.session.received = n) :
      Expiring d k owner n [.flash .abort r]
  | parting (r) (isPast : d.IsPast k)
      (duties : dutiesOf (.task k) d.errands = [.tell owner (.abort .timeout)]) :
      Expiring d k owner n [.flash .abort r, .event (.aborted .timeout n)]
  | gone (r reached) (isPast : d.IsPast k) (duties : dutiesOf (.task k) d.errands = []) :
      Expiring d k owner n
        [.flash .abort r, .event (.aborted .timeout n), .sent owner (.abort .timeout) reached]

theorem Expiring.length_le (h : d.Expiring k owner n es) : es.length ≤ 3 := by
  cases h <;> simp

/-- An aborted session whose task lives stays aborted, whatever the others do. -/
theorem LeavesAlone.aborted {reason : AbortReason} (alone : d.LeavesAlone k t (d.move m) t')
    (sound : d.Sound) (aborted : d.session.state = .aborted reason) :
    (d.move m).session.state = .aborted reason := by
  have hm := d.moved m
  obtain ⟨-, same | idle⟩ := Settled.moved (.inr ⟨reason, aborted⟩) sound hm
  · rw [same]
    exact aborted
  · exact absurd idle ((sound.moved hm).ne_idle alone.hasTask.live)

/-- A task that has timed out cleans up, -/
theorem Expiring.cleans (hasTask : d.HasTask k t) (stage : t.stage = .aborting .timeout)
    (aborted : d.session.state = .aborted .timeout) (received : d.session.received = n)
    (survived : (d.move (.step (.task k))).Survived)
    (hm : Advanced d t (d.move (.step (.task k)))) :
    ∃ r, d.doings (.task k) [.step (.task k)] = [.flash .abort r] ∧
      (d.move (.step (.task k))).Expiring k owner n [.flash .abort r] := by
  have calls : t.stage.call? d.session.total = some .abort := by
    rw [stage]
    rfl
  obtain ⟨faults, hmove⟩ | ⟨r, faults, flash, -, hmove⟩ := hm.calls calls
  -- the task does not die in the cleanup
  · have died : ⟨.task k, .died .abort⟩ ∈ (d.move (.step (.task k))).journal := by
      rw [hmove]
      exact List.mem_append_right _ (List.mem_singleton.mpr (by rw [hasTask.actor]; rfl))
    cases survived _ died
  · refine ⟨r, doings_of_own ?_, ?_⟩
    · rw [hmove, ← hasTask.actor]
      rfl
    · rw [hmove]
      refine .leaving r ⟨hasTask.session, rfl⟩ ?_ aborted received
      change t.stage.after r = _
      rw [stage]
      rfl

/-- leaves with the verdict, -/
theorem Expiring.leaves (hasTask : d.HasTask k t) (stage : t.stage = .leaving (.aborted .timeout))
    (received : d.session.received = n) (sound : d.Sound) (chronicle : d.Chronicle)
    (opened : opening? k d.journal = some (owner, total)) (r : FlashResult)
    (hm : Advanced d t (d.move (.step (.task k)))) :
    d.doings (.task k) [.step (.task k)] = [.event (.aborted .timeout n)] ∧
      (d.move (.step (.task k))).Expiring k owner n
        [.flash .abort r, .event (.aborted .timeout n)] := by
  have hmove := hm.leaves stage
  have busy := sound.ne_idle hasTask.live
  -- the owner is still the one that the session was opened for
  obtain ⟨owner', bound, opened'⟩ := chronicle.current busy
  rw [hasTask.session] at opened'
  obtain ⟨rfl, -⟩ := Prod.mk.inj (Option.some.inj (opened.symm.trans opened'))
  have nothing : dutiesOf (.task k) d.errands = [] :=
    chronicle.undue k (hasTask.session ▸ not_isPast busy)
  refine ⟨doings_of_own ?_, ?_⟩
  · rw [hmove, journal_leave, hasTask.actor, ← received]
    rfl
  · rw [hmove]
    refine .parting r (.inr ⟨hasTask.session.symm, rfl⟩) ?_
    rw [dutiesOf_leave, nothing, hasTask.actor, if_pos rfl, bound]
    rfl

/-- The task of a session that is past does its next duty when it is its turn. -/
theorem IsPast.tells {frame : Response} {left : List Duty} (isPast : d.IsPast k) (sound : d.Sound)
    (duties : dutiesOf (.task k) d.errands = .tell owner frame :: left) :
    ∃ reached, d.doings (.task k) [.step (.task k)] = [.sent owner frame reached] ∧
      dutiesOf (.task k) (d.move (.step (.task k))).errands = left := by
  have free : ∀ t, d.task = some t → .task k ≠ d.taskActor := fun t live own =>
    not_isPast (sound.ne_idle live) (Actor.task.inj own ▸ isPast)
  rcases takes : takeDuty (.task k) d.errands with _ | ⟨duty, errands⟩
  · cases duties.symm.trans (dutiesOf_eq_nil_iff.mpr takes)
  · obtain ⟨first, -⟩ := dutiesOf_takeDuty takes
    obtain ⟨rfl, rfl⟩ := List.cons.inj (duties.symm.trans first)
    have hmove : d.move (.step (.task k))
        = { d with errands }.perform (.task k) (.tell owner frame) := by
      change (d.step (.task k)).getD d = _
      rw [step_of_free free, errandStep, takes]
      rfl
    refine ⟨!d.unreachable.contains owner, doings_of_own ?_, ?_⟩ <;> rw [hmove] <;> rfl

/-- The task of a session that is past and has no duty left does nothing more. -/
theorem IsPast.silent (isPast : d.IsPast k) (sound : d.Sound)
    (duties : dutiesOf (.task k) d.errands = []) (m : Move) : d.doings (.task k) [m] = [] := by
  rw [doings_singleton]
  split
  · next byTask =>
    cases d.done m with
    | handled hm => cases hm.journal.1.symm.trans byTask
    | advanced live own =>
      subst own
      exact absurd (Actor.task.inj byTask ▸ isPast) (not_isPast (sound.ne_idle live))
    | performed _ _ takes =>
      rw [byTask] at takes
      cases duties.symm.trans (dutiesOf_takeDuty takes).1
    | nothing does => exact does
  · rfl

/-- Whatever is not a step of its task leaves a session that has timed out where it is. -/
theorem Expiring.leftAlone (h : d.Expiring k owner n es) (sound : d.Sound)
    (other : m ≠ .step (.task k)) : (d.move m).Expiring k owner n es := by
  have hm := d.moved m
  have kept : d.IsPast k → dutiesOf (.task k) d.errands = dutiesOf (.task k) (d.move m).errands :=
    fun isPast => by
      have kept := isPast.duties_move sound m
      rwa [doings_of_others other, eq_comm] at kept
  cases h with
  | cleaning hasTask stage aborted received =>
    obtain ⟨t', alone⟩ := hasTask.leftAlone sound other
    exact .cleaning alone.hasTask (alone.stage_eq stage nofun) (alone.aborted sound aborted)
      (alone.received.trans received)
  | leaving r hasTask stage aborted received =>
    obtain ⟨t', alone⟩ := hasTask.leftAlone sound other
    exact .leaving r alone.hasTask (alone.stage_eq stage nofun) (alone.aborted sound aborted)
      (alone.received.trans received)
  | parting r isPast duties =>
    exact .parting r (isPast.moved sound hm) ((kept isPast).symm.trans duties)
  | gone r reached isPast duties =>
    exact .gone r reached (isPast.moved sound hm) ((kept isPast).symm.trans duties)

/-- **Every step of the task brings a session that has timed out closer to its end**: the cleanup,
the verdict, the last frame. -/
theorem Expiring.advances (h : d.Expiring k owner n es) (sound : d.Sound) (chronicle : d.Chronicle)
    (opened : opening? k d.journal = some (owner, total))
    (survived : (d.move (.step (.task k))).Survived) :
    (d.move (.step (.task k))).Expiring k owner n (es ++ d.doings (.task k) [.step (.task k)]) ∧
      (es ++ d.doings (.task k) [.step (.task k)]).length = min (es.length + 1) 3 := by
  cases h with
  | cleaning hasTask stage aborted received =>
    have hm := hasTask.steps (by simp [stage])
    obtain ⟨r, does, leaving⟩ := Expiring.cleans hasTask stage aborted received survived hm
    rw [does]
    exact ⟨leaving, rfl⟩
  | leaving r hasTask stage aborted received =>
    have hm := hasTask.steps (by simp [stage])
    obtain ⟨does, parting⟩ := Expiring.leaves hasTask stage received sound chronicle opened r hm
    rw [does]
    exact ⟨parting, rfl⟩
  | parting r isPast duties =>
    obtain ⟨reached, does, nothing⟩ := isPast.tells sound duties
    rw [does]
    exact ⟨.gone r reached (isPast.moved sound (d.moved _)) nothing, rfl⟩
  | gone r reached isPast duties =>
    have kept := isPast.duties_move sound (.step (.task k))
    have silent := isPast.silent sound duties (.step (.task k))
    rw [silent] at kept ⊢
    exact ⟨.gone r reached (isPast.moved sound (d.moved _)) (kept.trans duties), rfl⟩

/-- A move does what it does for a session that has timed out: the next thing, if it is a step of
its task. -/
theorem Expiring.move (h : d.Expiring k owner n es) (sound : d.Sound) (chronicle : d.Chronicle)
    (opened : opening? k d.journal = some (owner, total)) (m : Move)
    (survived : (d.move m).Survived) :
    (d.move m).Expiring k owner n (es ++ d.doings (.task k) [m]) ∧
      (es ++ d.doings (.task k) [m]).length = min (es.length + [m].count (.step (.task k))) 3 := by
  by_cases own : m = .step (.task k)
  · subst own
    rw [List.count_singleton_self]
    exact h.advances sound chronicle opened survived
  · rw [doings_of_others own, count_of_others own, List.append_nil]
    exact ⟨h.leftAlone sound own, (Nat.min_eq_left h.length_le).symm⟩

/-- **A session that has timed out comes to its end** with the steps of its task. -/
theorem Expiring.run (h : d.Expiring k owner n es) (sound : d.Sound) (chronicle : d.Chronicle)
    (opened : opening? k d.journal = some (owner, total)) (ms : List Move)
    (survived : (d.run ms).Survived) :
    (d.run ms).Expiring k owner n (es ++ d.doings (.task k) ms) ∧
      (es ++ d.doings (.task k) ms).length = min (es.length + ms.count (.step (.task k))) 3 := by
  induction ms generalizing d es with
  | nil =>
    rw [doings, List.append_nil, List.count_nil]
    exact ⟨h, (Nat.min_eq_left h.length_le).symm⟩
  | cons m ms ih =>
    have hm := d.moved m
    have survived₁ : (d.move m).Survived := Survived.of_run survived
    obtain ⟨h₁, length₁⟩ := h.move sound chronicle opened m survived₁
    have opened₁ := opening?_run opened [m]
    obtain ⟨h₂, length₂⟩ := ih h₁ (sound.moved hm) (chronicle.moved sound hm) opened₁ survived
    have grows : es ++ d.doings (.task k) (m :: ms)
        = es ++ d.doings (.task k) [m] ++ (d.move m).doings (.task k) ms := by
      rw [← List.singleton_append, doings_append, List.append_assoc]
      rfl
    have counts : (m :: ms).count (.step (.task k))
        = [m].count (.step (.task k)) + ms.count (.step (.task k)) := by
      rw [← List.count_append, List.singleton_append]
    rw [grows]
    exact ⟨h₂, by omega⟩

/-- What comes of a session when its task has recorded that time is up. -/
structure Expires (d : Device) (k : Nat) (owner : Client) (back : List Move) : Prop where
  /-- The abort is on record, -/
  aborted : d.session.state = .aborted .timeout
  /-- the task drops what was written, gives the verdict and tells the owner, one after another, -/
  concludes : ∃ r reached, d.doings (.task k) back =
    [.flash .abort r, .event (.aborted .timeout d.session.received),
      .sent owner (.abort .timeout) reached].take (back.count (.step (.task k)))
  /-- the abort stays on record until the call has returned, -/
  stays : back.count (.step (.task k)) < 2 →
    (d.run back).sessions = k ∧ (d.run back).session.state = .aborted .timeout
  /-- and then the session is over. -/
  isPast : 2 ≤ back.count (.step (.task k)) → (d.run back).IsPast k

/-- What a session says that has timed out is what there is to say, as far as it has come. -/
theorem Expiring.eq_take {c : Nat} (h : d.Expiring k owner n es) (length : es.length = min c 3) :
    ∃ r reached, es = [.flash .abort r, .event (.aborted .timeout n),
      .sent owner (.abort .timeout) reached].take c := by
  cases h with
  | cleaning =>
    obtain rfl : c = 0 := by simp at length; omega
    exact ⟨.ok (), true, rfl⟩
  | leaving r =>
    obtain rfl : c = 1 := by simp at length; omega
    exact ⟨r, true, rfl⟩
  | parting r =>
    obtain rfl : c = 2 := by simp at length; omega
    exact ⟨r, true, rfl⟩
  | gone r reached =>
    refine ⟨r, reached, (List.take_of_length_le ?_).symm⟩
    simp at length ⊢
    omega

/-- The abort stays on record until the task leaves, -/
theorem Expiring.stays (h : d.Expiring k owner n es) (early : es.length < 2) :
    d.sessions = k ∧ d.session.state = .aborted .timeout := by
  cases h with
  | cleaning hasTask _ aborted => exact ⟨hasTask.session, aborted⟩
  | leaving _ hasTask _ aborted => exact ⟨hasTask.session, aborted⟩
  | parting => exact absurd early (Nat.lt_irrefl 2)
  | gone => simp at early

/-- and then the session is over. -/
theorem Expiring.isPast (h : d.Expiring k owner n es) (late : 2 ≤ es.length) : d.IsPast k := by
  cases h with
  | cleaning => cases late
  | leaving => simp at late
  | parting _ isPast => exact isPast
  | gone _ _ isPast => exact isPast

/-- An abort that is on record keeps its reason. -/
theorem Lapsed.keeps {reason : AbortReason} (h : d.Lapsed k)
    (aborted : d.session.state = .aborted reason) :
    (d.move (.step (.task k))).session.state = .aborted reason ∧
      ∃ t, (d.move (.step (.task k))).HasTask k t ∧ t.stage = .aborting reason := by
  obtain ⟨t, hasTask, hs⟩ := h
  have hmove := move_of_expired hasTask.live hs
  rw [hasTask.actor, expire, Session.markAborted_of_aborted aborted,
    Session.pendingAbort_eq_some_iff.mpr aborted] at hmove
  rw [hmove]
  exact ⟨aborted, { t with stage := .aborting reason }, ⟨hasTask.session, rfl⟩, rfl⟩

/-- **A task that has waited in vain brings its session to its end** with its next steps. -/
theorem Lapsed.expires (lapsed : d.Lapsed k) (h : d.Clocked k limit)
    (opened : opening? k d.journal = some (owner, total)) (receiving : d.session.state = .receiving)
    (back : List Move) (survived : ((d.move (.step (.task k))).run back).Survived) :
    (d.move (.step (.task k))).Expires k owner back := by
  obtain ⟨t, hasTask, hs⟩ := lapsed
  have hmove := move_of_expired hasTask.live hs
  rw [hasTask.actor, expire, Session.markAborted_of_receiving receiving] at hmove
  have start : (d.move (.step (.task k))).Expiring k owner d.session.received [] := by
    rw [hmove]
    exact .cleaning ⟨hasTask.session, rfl⟩ rfl rfl rfl
  have hm := d.moved (.step (.task k))
  have opened' := opening?_run opened [.step (.task k)]
  obtain ⟨expiring, length⟩ := start.run (h.sound.moved hm) (h.chronicle.moved h.sound hm) opened'
    back survived
  rw [List.nil_append] at expiring length
  rw [List.length_nil, Nat.zero_add] at length
  refine ⟨?_, ?_, fun early => expiring.stays (by omega), fun left => expiring.isPast (by omega)⟩
  · rw [hmove]
    rfl
  · rw [show (d.move (.step (.task k))).session.received = d.session.received by rw [hmove]; rfl]
    exact expiring.eq_take length

/-! ## The timeout of a session -/

/-- A task comes to wait, the default timeout goes by, and the task finds so; it is held up then,
and takes four more steps. -/
def silence (gap : List Move) : List Move :=
  List.replicate 4 (.step (.task 1)) ++ .pass 5000 :: .step (.task 1) :: gap ++
    List.replicate 4 (.step (.task 1))

/-- A chunk that comes when the wait is over comes too late, -/
example : .event (.aborted .timeout 0) ∈ deeds (.task 1)
    (((fresh .default .unknown).move (.frame ⟨1, 1⟩ (Request.start 2 0 .none).encode)).run
      (silence [.frame ⟨1, 1⟩ (Request.state true [7, 8]).encode])).journal := by decide

/-- and an abort that comes then keeps its reason. -/
example : .event (.aborted .userRequest 0) ∈ deeds (.task 1)
    (((fresh .default .unknown).move (.frame ⟨1, 1⟩ (Request.start 2 0 .none).encode)).run
      (silence [.frame ⟨1, 1⟩ Request.abort.encode])).journal := by decide

end Device

end OverTheAir
