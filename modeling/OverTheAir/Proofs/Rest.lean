import OverTheAir.Device.Bench
import OverTheAir.Proofs.Admission

/-!
# Proofs/Rest — where a session stands when everything has run as far as it can

A port may hold an actor at its call for as long as it likes; every other actor goes on until it has
nothing left to do.  The device is then **at rest** (`AtRest`), and it always comes to rest
(`comes_to_rest`).

No session is stuck there.  The wake-up that goes with an abort is lost when the inbox is full, and
an overflow sends none, so it is not the wake-up that carries the argument but `Heeds`: where a
session is aborted, its task has something to take from the inbox, or looks for the abort before it
waits again.

* `no_session_stuck` — at rest, a session that is ending is held at a call, and one that is
  receiving waits for a message.
-/

namespace OverTheAir

/-- The task looks for an abort before it waits for a message, or waits for none any more. -/
def Stage.looksFirst : Stage → Bool
  | .reporting _ isEnd => isEnd
  | .measuring _ isEnd => isEnd
  | .counted _ _ isEnd => isEnd
  | .awaiting _ => false
  | _ => true

theorem Stage.looksFirst_next (isEnd : Bool) : (next isEnd).looksFirst = isEnd := by
  cases isEnd <;> rfl

theorem Stage.looksFirst_after {s : Stage} {total : UInt32} {call : FlashCall}
    (calls : s.call? total = some call) (r : FlashResult) : (s.after r).looksFirst = true := by
  obtain ⟨rfl, -⟩ | ⟨chunk, isEnd, rfl, -⟩ | ⟨rfl, -⟩ | ⟨rfl, -⟩ | ⟨reason, rfl, -⟩ :=
    call?_cases calls
  all_goals rcases r with e | ⟨⟩ <;> rfl

namespace Device

variable {d d' : Device} {t : SessionTask} {queue : List Message} {reason : AbortReason}

/-! ## A recorded abort is heeded -/

/-- **An abort does not pass unnoticed**: the task has something to take, or looks for the abort
before it waits. -/
def Heeds (d : Device) : Prop := ∀ t reason, d.task = some t → d.session.state = .aborted reason →
  t.stage.looksFirst = true ∨ d.inbox ≠ some []

theorem heeds_fresh (config : Config) (firmware : Firmware) : (fresh config firmware).Heeds :=
  fun _ _ noTask => by cases noTask

/-- A message that is turned away finds the inbox full, so there is something to take. -/
theorem ne_nil_of_not_taken (live : d.task = some t) (deep : 0 < d.config.queueDepth.toNat)
    (notTaken : d.posting queue ≠ .taken) : queue ≠ [] := by
  rintro rfl
  exact notTaken (by simp [posting, live, deep])

/-- **A task that is woken has something to take**: the wake-up, or what fills the inbox. -/
theorem woken_ne_nil (live : d.task = some t) (deep : 0 < d.config.queueDepth.toNat)
    (queue : List Message) : d.woken queue ≠ [] := by
  rw [woken]
  split
  · simp
  · exact ne_nil_of_not_taken live deep ‹_›

theorem inbox_woken_ne (live : d.task = some t) (deep : 0 < d.config.queueDepth.toNat) :
    d.inbox.map d.woken ≠ some [] := fun waked => by
  obtain ⟨queue, -, none⟩ := Option.map_eq_some_iff.mp waked
  exact woken_ne_nil live deep queue none

/-- What has to be checked when the task comes to a stage. -/
theorem heeds_goto {s : Stage}
    (h : ∀ reason, d.session.state = .aborted reason → s.looksFirst = true ∨ d.inbox ≠ some []) :
    (d.goto t s).Heeds := by
  intro t' reason live aborted
  obtain rfl := Option.some.inj live
  exact h reason aborted

/-- A task that has found no abort is in a session that is not aborted. -/
theorem not_aborted (h : d.session.pendingAbort = none) (reason : AbortReason) :
    d.session.state ≠ .aborted reason := fun aborted => by
  rw [Session.pendingAbort_eq_some_iff.mpr aborted] at h
  cases h

theorem Heeds.advanced (h : d.Heeds) (sound : d.Sound) (live : d.task = some t)
    (hm : Advanced d t d') : d'.Heeds := by
  have next : ∀ {d₁ : Device} {t' isEnd}, t.stage.looksFirst = isEnd →
      d₁.session = d.session → d₁.inbox = d.inbox → (d₁.goto t' (.next isEnd)).Heeds := by
    intro d₁ t' isEnd looks session inbox
    refine heeds_goto fun reason aborted => ?_
    rw [Stage.looksFirst_next, inbox, ← looks]
    exact h t reason live (session ▸ aborted)
  -- a task that has just looked
  have looked : ∀ {d₁ : Device} {t' s}, d₁.session.state = d.session.state →
      d.session.pendingAbort = none → (d₁.goto t' s).Heeds := fun state notAborted =>
    heeds_goto fun reason aborted =>
      absurd (state.symm.trans aborted) (not_aborted notAborted reason)
  cases hm with
  | called calls => exact heeds_goto fun _ _ => .inl (Stage.looksFirst_after calls _)
  | greeted _ notAborted => exact looked rfl notAborted
  | told _ hs => exact next (hs ▸ rfl) rfl rfl
  | untold hs => exact next (hs ▸ rfl) rfl rfl
  | woke _ notAborted => exact looked rfl notAborted
  | skipped _ notAborted => exact looked rfl notAborted
  | looked _ notAborted => exact looked rfl notAborted
  | accounted hs notAborted advances =>
    obtain ⟨received, rfl, -⟩ := sound.advances live hs advances
    exact looked rfl notAborted
  | overran hs | progressed hs =>
    refine heeds_goto fun reason aborted => ?_
    have looks := h t reason live aborted
    rwa [hs] at looks
  | filled hs => exact next (hs ▸ rfl) rfl rfl
  | died | miscounted | left => exact fun _ _ noTask => by cases noTask
  | _ => exact heeds_goto fun _ _ => .inl rfl

theorem Heeds.request {m : Move} (h : d.Heeds) (roomy : d.Roomy) (sound : d.Sound)
    (alive : d.Alive) (deep : 0 < d.config.queueDepth.toNat) (request : m.isRequest = true) :
    (d.move m).Heeds := by
  intro t reason live aborted
  cases roomy.heard sound alive request with
  | kept session inbox task =>
    rw [inbox]
    exact h t reason (task ▸ live) (session ▸ aborted)
  | opened receiving => cases receiving.symm.trans aborted
  | unopened idle => cases idle.symm.trans aborted
  | queued queue m _ inbox => exact .inr (by simp [inbox])
  | aborted _ inbox task =>
    rw [inbox]
    exact .inr (inbox_woken_ne (task ▸ live) deep)

/-- **No move lets an abort pass unnoticed.** -/
theorem Heeds.move (h : d.Heeds) (roomy : d.Roomy) (sound : d.Sound) (alive : d.Alive)
    (deep : 0 < d.config.queueDepth.toNat) (m : Move) : (d.move m).Heeds := by
  cases request : m.isRequest with
  | true => exact h.request roomy sound alive deep request
  | false =>
    have hm := d.moved m
    generalize d.move m = d' at hm
    cases hm with
    | handled hm => cases hm.isRequest.symm.trans request
    | advanced live hm => exact h.advanced sound live hm
    | performed _ hm =>
      obtain ⟨effect, takes, does⟩ := hm
      exact h
    | waited ms live hs =>
      refine heeds_goto fun reason aborted => ?_
      have looks := h _ reason live aborted
      rwa [hs] at looks
    | _ => exact h

theorem heeds_run (config : Config) (firmware : Firmware) (ms : List Move)
    (deep : 0 < config.queueDepth.toNat)
    (survived : ((fresh config firmware).run ms).Survived) :
    ((fresh config firmware).run ms).Heeds := by
  refine (chronicle_walk
    (motive := fun d => d.config = config ∧ (d.Survived → d.Roomy ∧ d.Heeds))
    (sound_fresh config firmware) (chronicle_fresh config firmware) ⟨rfl, fun _ => ?_⟩ ?_ ms).2
      survived |>.2
  · exact ⟨roomy_fresh config firmware, heeds_fresh config firmware⟩
  · rintro d m sound chronicle ⟨rfl, kept⟩
    refine ⟨(d.moved m).config, fun survived => ?_⟩
    have alive := chronicle.alive survived.of_move
    obtain ⟨roomy, heeds⟩ := kept survived.of_move
    exact ⟨roomy.move sound alive m, heeds.move roomy sound alive deep m⟩

/-! ## At rest -/

/-- Everything has run as far as it can: some actors are held at their calls, and the others have no
step to take. -/
structure AtRest (d : Device) (held : Actor → Prop) : Prop where
  blocked : ∀ a, held a → ∃ p, d.point? a = some p
  still : ∀ a, ¬held a → d.step a = none

/-- **A device comes to rest**, whatever calls are held up. -/
theorem comes_to_rest (d : Device) (holds : Actor → Point → Prop) : ∃ as : List Actor,
    (d.run (as.map .step)).AtRest fun a => ∃ p, (d.run (as.map .step)).point? a = some p ∧
      holds a p := by
  by_cases rest : ∀ a, (∃ p, d.point? a = some p ∧ holds a p) ∨ d.step a = none
  · exact ⟨[], fun a ⟨p, hp, _⟩ => ⟨p, hp⟩, fun a free => (rest a).resolve_left free⟩
  · obtain ⟨a, free⟩ := Classical.not_forall.mp rest
    obtain ⟨d', hstep⟩ := Option.ne_none_iff_exists'.mp fun none => free (.inr none)
    obtain ⟨as, comes⟩ := comes_to_rest d' holds
    refine ⟨a :: as, ?_⟩
    have hmove : d.move (.step a) = d' := congrArg (Option.getD · d) hstep
    rwa [List.map_cons, run_cons, hmove]
termination_by d.work
decreasing_by exact step_work_lt hstep

/-- A valid configuration leaves room in the inbox. -/
theorem queueDepth_pos {config : Config} (valid : config.validate = .ok ()) :
    0 < config.queueDepth.toNat := by
  have keeps := (config.validate_eq_ok_iff.mp valid) .queueDepth (by simp [Config.Limit.all])
  simp [Config.keeps] at keeps
  omega

/-- **No session is stuck.**  Take a valid configuration, and a run that every session task
survives.  Whenever everything has run as far as it can, a session that is finalizing or aborted is
held up at a call of its task; and a session that is receiving, whose task is not held up at a call,
waits for a message: its inbox is empty, and no abort is recorded.  And wherever a session is
aborted while its task waits, the inbox has a message for it, so it does not wait for the timeout. -/
theorem no_session_stuck (config : Config) (firmware : Firmware) (ms : List Move)
    (valid : config.validate = .ok ()) (survived : ((fresh config firmware).run ms).Survived) :
    let d := (fresh config firmware).run ms
    (∀ held, d.AtRest held →
      (d.session.state = .finalizing ∨ (∃ reason, d.session.state = .aborted reason) →
        held d.taskActor ∧ ∃ t p, d.task = some t ∧ d.taskPoint? t = some p) ∧
      (d.session.state = .receiving → ¬held d.taskActor →
        ∃ t waited, d.task = some t ∧ t.stage = .awaiting waited ∧ d.inbox = some [] ∧
          d.session.pendingAbort = none)) ∧
    ∀ t waited reason, d.task = some t → t.stage = .awaiting waited →
      d.session.state = .aborted reason → ∃ m queue, d.inbox = some (m :: queue) := by
  intro d
  obtain ⟨sound, chronicle⟩ : d.Sound ∧ d.Chronicle := chronicle_run config firmware ms
  have alive : d.Alive := chronicle.alive survived
  have deep := queueDepth_pos valid
  have heeds : d.Heeds := heeds_run config firmware ms deep survived
  -- a task that is not held up waits, and finds nothing in the inbox
  have waits : ∀ {held}, d.AtRest held → ¬held d.taskActor → d.session.state ≠ .idle →
      ∃ t waited, d.task = some t ∧ t.stage = .awaiting waited ∧ d.inbox = some [] := by
    intro held rest free busy
    obtain ⟨t, live⟩ := alive busy
    obtain ⟨waited, hs, empty⟩ := awaiting_of_step live (rest.still _ free)
    exact ⟨t, waited, live, hs, empty⟩
  refine ⟨fun held rest => ⟨fun ending => ?_, fun receiving free => ?_⟩,
    fun t waited reason live hs aborted => ?_⟩
  · have busy : d.session.state ≠ .idle := by
      rcases ending with h | ⟨reason, h⟩ <;> simp [h]
    have isHeld : held d.taskActor := Classical.byContradiction fun free => by
      obtain ⟨t, waited, live, hs, empty⟩ := waits rest free busy
      rcases ending with finalizing | ⟨reason, aborted⟩
      · exact (sound.stands live hs).inTransfer.ne_finalizing finalizing
      · rcases heeds t reason live aborted with looks | some
        · cases (hs ▸ looks : (Stage.awaiting waited).looksFirst = true)
        · exact some empty
    obtain ⟨t, live⟩ := alive busy
    obtain ⟨p, hp⟩ := rest.blocked _ isHeld
    exact ⟨isHeld, t, p, live, by simpa [point?, live] using hp⟩
  · obtain ⟨t, waited, live, hs, empty⟩ := waits rest free (by simp [receiving])
    exact ⟨t, waited, live, hs, empty, by simp [Session.pendingAbort, receiving]⟩
  · obtain ⟨queue, hqueue⟩ := (sound.busy (by simp [aborted])).inbox
    rcases heeds t reason live aborted with looks | nonempty
    · cases (hs ▸ looks : (Stage.awaiting waited).looksFirst = true)
    · obtain ⟨m, rest, rfl⟩ := List.exists_cons_of_ne_nil fun h => nonempty (h ▸ hqueue)
      exact ⟨m, rest, hqueue⟩

/-- A client gives its upload up while the task is at its write and the inbox holds a chunk. -/
def giveUpLate : List Move := brief 3 ++
  [.frame ⟨1, 1⟩ (Request.state false [9]).encode, .frame ⟨1, 1⟩ Request.abort.encode]

/-- An inbox that takes one message is full then, so the wake-up is lost; the task is held up at its
write. -/
theorem no_session_stuck_unwoken :
    let config := { Config.default with queueDepth := 1 }
    let d := (fresh config .unknown).run giveUpLate
    config.validate = .ok () ∧ d.Survived ∧ d.AtRest (· = .task 1) ∧
      d.session.state = .aborted .userRequest ∧ ∃ t p, d.task = some t ∧ d.taskPoint? t = some p := by
  intro config d
  have valid : config.validate = .ok () := config.validate_eq_ok_iff.mpr (by decide)
  have survived : d.Survived := by decide
  have actors : d.actors = [.task 1] := by decide
  have writes : d.point? (.task 1) = some .write := by decide
  have blocked : ∀ a, a = .task 1 → ∃ p, d.point? a = some p := by
    rintro a rfl
    exact ⟨.write, writes⟩
  have still : ∀ a, ¬a = .task 1 → d.step a = none := by
    intro a ha
    have absent : a ∉ d.actors := by simpa only [actors, List.mem_singleton] using ha
    exact (step_eq_none_of_not_mem_actors absent).1
  have rest : d.AtRest (· = .task 1) := ⟨blocked, still⟩
  have aborted : d.session.state = .aborted .userRequest := by decide
  have stuck := no_session_stuck config .unknown giveUpLate valid survived
  rw [show (fresh config .unknown).run giveUpLate = d from rfl] at stuck
  clear_value d
  have held := (stuck.1 _ rest).1 (.inr ⟨_, aborted⟩)
  exact ⟨valid, survived, rest, aborted, held.2⟩

/-- An inbox of no depth loses the wake-up of a task that is about to wait, and the task waits for
its timeout in a session that is aborted. -/
example :
    let d := (fresh { Config.default with queueDepth := 0 } .unknown).run
      ((brief 0).take 4 ++ [.frame ⟨1, 1⟩ Request.abort.encode, .step (.task 1)])
    d.session.state = .aborted .userRequest ∧ d.point? (.task 1) = none ∧
      (d.step (.task 1)).isNone := by decide

end Device

end OverTheAir
