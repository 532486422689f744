import OverTheAir.Proofs.Sound

/-!
# Proofs/Tenure — the task of a session, as long as it lives

A session has one task (`HasTask`).  Whatever happens to the device, the task takes its own step, or
what it goes by stays as it is (`HasTask.moved`): what the others do, and what happens around the
device, touches neither the partition nor what was received nor how far the task is.  A task that
died stays dead, and its session stays on.
-/

namespace OverTheAir.Device

open Journal

variable {d d' : Device} {t t' : SessionTask} {k : Nat} {m : Move}

/-! ## Whose move it is -/

/-- The task of a session, as long as it lives. -/
structure HasTask (d : Device) (k : Nat) (t : SessionTask) : Prop where
  session : d.sessions = k
  live : d.task = some t

/-- What a move leaves alone when the task of the session does nothing. -/
structure LeavesAlone (d : Device) (k : Nat) (t : SessionTask) (d' : Device) (t' : SessionTask) :
    Prop where
  hasTask : d'.HasTask k t'
  flash : d'.flash = d.flash
  received : d'.session.received = d.session.received
  flags : d'.session.flags = d.session.flags
  checked : t'.versionChecked = t.versionChecked
  stage : t'.stage = t.stage ∨
    ∃ waited waited', t.stage = .awaiting waited ∧ t'.stage = .awaiting waited'
  deeds : deeds (.task k) d'.journal = deeds (.task k) d.journal

theorem HasTask.actor (h : d.HasTask k t) : d.taskActor = .task k := congrArg Actor.task h.session

theorem HasTask.unique (h : d.HasTask k t) (h' : d.HasTask k t') : t = t' :=
  Option.some.inj (h.live.symm.trans h'.live)

/-- **A move is a step of the task, or leaves it alone.** -/
theorem HasTask.moved (h : d.HasTask k t) (sound : d.Sound) (hm : Moved d m d') :
    m = .step (.task k) ∧ Advanced d t d' ∨ ∃ t', d.LeavesAlone k t d' t' := by
  have busy := sound.ne_idle h.live
  cases hm with
  | @handled m d' hm =>
    have others : deeds (.task k) d'.journal = deeds (.task k) d.journal := by
      obtain ⟨-, es, journal, -⟩ := hm.journal
      rw [journal]
      exact deeds_append_of_ne (a := .task k) (b := .handler) nofun ..
    cases hm with
    | opened _ _ idle => exact absurd idle busy
    | unopened _ _ _ idle => exact absurd idle busy
    | _ => exact .inr ⟨t, ⟨h.session, h.live⟩, rfl, rfl, rfl, rfl, .inl rfl, others⟩
  | advanced live hm =>
    obtain rfl := Option.some.inj (h.live.symm.trans live)
    exact .inl ⟨congrArg Move.step h.actor, hm⟩
  | @performed a d' other hm =>
    obtain ⟨effect, takes, does⟩ := hm
    have elsewhere : a ≠ .task k := h.actor ▸ other (by simp [h.live])
    exact .inr ⟨t, ⟨h.session, h.live⟩, rfl, rfl, rfl, rfl, .inl rfl,
      deeds_append_of_ne elsewhere d.journal [effect]⟩
  | waited ms live hs =>
    obtain rfl := Option.some.inj (h.live.symm.trans live)
    exact .inr ⟨_, ⟨h.session, rfl⟩, rfl, rfl, rfl, rfl, .inr ⟨_, _, hs, rfl⟩, rfl⟩
  | _ => exact .inr ⟨t, ⟨h.session, h.live⟩, rfl, rfl, rfl, rfl, .inl rfl, rfl⟩

/-- The task of a session that was counted before has lived before. -/
theorem HasTask.before (h' : d'.HasTask k t') (counted : k ≤ d.sessions) (hm : Moved d m d') :
    ∃ t, d.HasTask k t := by
  have session : d.sessions = k := by
    have := h'.session
    rcases hm.sessions with same | ⟨more, -⟩ <;> omega
  cases hm with
  | handled hm =>
    cases hm with
    | opened =>
      have more : d.sessions + 1 = k := h'.session
      omega
    | _ => exact ⟨t', session, h'.live⟩
  | advanced live hm => exact ⟨_, session, live⟩
  | performed _ hm =>
    obtain ⟨effect, takes, does⟩ := hm
    exact ⟨t', session, h'.live⟩
  | waited ms live hs => exact ⟨_, session, live⟩
  | _ => exact ⟨t', session, h'.live⟩

/-- **Whence a task comes**: from its own step, or from a move that left it alone. -/
theorem HasTask.came (h' : d'.HasTask k t') (sound : d.Sound) (counted : k ≤ d.sessions)
    (hm : Moved d m d') : ∃ t, d.HasTask k t ∧
      (m = .step (.task k) ∧ Advanced d t d' ∨ d.LeavesAlone k t d' t') := by
  obtain ⟨t, h⟩ := h'.before counted hm
  refine ⟨t, h, (h.moved sound hm).imp id ?_⟩
  rintro ⟨t'', alone⟩
  obtain rfl := alone.hasTask.unique h'
  exact alone

/-- A task that does not wait for a message takes the next step of its session. -/
theorem HasTask.steps (h : d.HasTask k t) (awake : ∀ waited, t.stage ≠ .awaiting waited) :
    Advanced d t (d.move (.step (.task k))) := by
  rw [← h.actor]
  change Advanced d t ((d.step d.taskActor).getD d)
  rcases hstep : d.step d.taskActor with _ | d'
  · obtain ⟨waited, hs, -⟩ := awaiting_of_step h.live hstep
    exact absurd hs (awake waited)
  · refine advanced_taskStep ?_
    simpa [step, h.live] using hstep

/-- Whatever is not its own step leaves it alone. -/
theorem HasTask.leftAlone (h : d.HasTask k t) (sound : d.Sound) (other : m ≠ .step (.task k)) :
    ∃ t', d.LeavesAlone k t (d.move m) t' :=
  (h.moved sound (d.moved m)).resolve_left fun ⟨own, _⟩ => other own

/-- So it takes its step when it is its turn, and is left alone otherwise. -/
theorem HasTask.moves (h : d.HasTask k t) (sound : d.Sound)
    (awake : ∀ waited, t.stage ≠ .awaiting waited) (m : Move) :
    m = .step (.task k) ∧ Advanced d t (d.move m) ∨
      m ≠ .step (.task k) ∧ ∃ t', d.LeavesAlone k t (d.move m) t' := by
  by_cases own : m = .step (.task k)
  · exact .inl ⟨own, own ▸ h.steps awake⟩
  · exact .inr ⟨own, h.leftAlone sound own⟩

/-- It stays where it is then. -/
theorem LeavesAlone.stage_eq {s : Stage} (h : d.LeavesAlone k t d' t') (hs : t.stage = s)
    (awake : ∀ waited, s ≠ .awaiting waited) : t'.stage = s := by
  rcases h.stage with same | ⟨waited, waited', waits, -⟩
  · exact same.trans hs
  · exact absurd (hs.symm.trans waits) (awake waited)

/-- A task that died stays dead, and its session stays on. -/
theorem lost_moved (busy : d.session.state ≠ .idle) (dead : d.task = none) (hm : Moved d m d') :
    d'.sessions = d.sessions ∧ d'.session.state ≠ .idle ∧ d'.task = none := by
  cases hm with
  | handled hm =>
    cases hm with
    | opened _ _ idle => exact absurd idle busy
    | unopened _ _ _ idle => exact absurd idle busy
    | recorded => exact ⟨rfl, nofun, dead⟩
    | _ => exact ⟨rfl, busy, dead⟩
  | advanced live => cases dead.symm.trans live
  | performed _ hm =>
    obtain ⟨effect, takes, does⟩ := hm
    exact ⟨rfl, busy, dead⟩
  | waited _ live => cases dead.symm.trans live
  | _ => exact ⟨rfl, busy, dead⟩

/-! ## Steps of the task -/

/-- **A task changes no more of its session** than the state and the count of bytes. -/
theorem Advanced.record (sound : d.Sound) (live : d.task = some t) (hm : Advanced d t d')
    (live' : d'.task = some t') :
    ∃ state received, d'.session = { d.session with state, received } := by
  cases hm with
  | timedOut =>
    obtain ⟨state, hmark⟩ := d.session.markAborted_eq .timeout
    exact ⟨state, d.session.received, hmark⟩
  | miscounted miscounts => exact absurd miscounts (sound.not_miscounts live)
  | accounted hs _ advances =>
    obtain ⟨received, rfl, -⟩ := sound.advances live hs advances
    exact ⟨d.session.state, received, rfl⟩
  | finalizing => exact ⟨.finalizing, d.session.received, rfl⟩
  | left => cases live'
  | _ => exact ⟨d.session.state, d.session.received, rfl⟩

/-- **A task does not change the flags of its session.** -/
theorem Advanced.flags (sound : d.Sound) (live : d.task = some t) (hm : Advanced d t d')
    (live' : d'.task = some t') : d'.session.flags = d.session.flags := by
  obtain ⟨state, received, session⟩ := hm.record sound live live'
  rw [session]

/-- **A session keeps its timeout** as long as its task lives. -/
theorem HasTask.timeout (h' : d'.HasTask k t') (sound : d.Sound) (counted : k ≤ d.sessions)
    (hm : Moved d m d') : d'.session.timeout = d.session.timeout := by
  obtain ⟨t, h⟩ := h'.before counted hm
  have busy := sound.ne_idle h.live
  cases hm with
  | handled hm =>
    cases hm with
    | opened _ _ idle => exact absurd idle busy
    | unopened _ _ _ idle => exact absurd idle busy
    | _ => rfl
  | advanced live hm =>
    obtain ⟨state, received, session⟩ := hm.record sound live h'.live
    rw [session]
  | performed _ hm =>
    obtain ⟨effect, takes, does⟩ := hm
    rfl
  | _ => rfl

/-- A task that stands at a call makes it: it dies inside, or goes on from the answer. -/
theorem Advanced.calls {call : FlashCall} (hm : Advanced d t d')
    (calls : t.stage.call? d.session.total = some call) :
    (∃ faults, d' = ({ d with faults }.note d.taskActor (.died call.point)).die) ∨
    ∃ r faults flash, (d.flash.call call = (r, flash) ∨ flash = d.flash ∧ ∃ e, r = .error e) ∧
      d' = ({ d with faults, flash }.note d.taskActor (.flash call r)).goto t (t.stage.after r) := by
  have elsewhere : ∀ {s : Stage}, t.stage = s → s.call? d.session.total = none → False :=
    fun hs none => by
      rw [hs, none] at calls
      cases calls
  cases hm with
  | died calls' =>
    obtain rfl := Option.some.inj (calls.symm.trans calls')
    exact .inl ⟨_, rfl⟩
  | called calls' answer =>
    obtain rfl := Option.some.inj (calls.symm.trans calls')
    exact .inr ⟨_, _, _, answer, rfl⟩
  | bailed looks =>
    obtain ⟨hs, -⟩ | ⟨_, _, hs, -⟩ | ⟨hs, -⟩ | ⟨hs, -⟩ | ⟨_, hs, -⟩ := Stage.call?_cases calls <;>
      rw [hs] at looks <;> cases looks
  | miscounted miscounts =>
    obtain ⟨_, _, hs, -⟩ | ⟨_, _, hs, -⟩ := miscounts <;> exact (elsewhere hs rfl).elim
  | equipped hs | unequipped hs | greeted hs | told _ hs | untold hs | took hs | orphaned _ hs
  | waitedOut hs | timedOut hs | woke hs | skipped hs | looked hs | overran hs | unvetted hs
  | fitted hs | barred hs | admitted hs | accounted hs | progressed hs | filled hs | finalizing hs
  | cutShort hs | left hs =>
    exact (elsewhere hs rfl).elim

/-- A task that is about to leave leaves. -/
theorem Advanced.leaves {outcome : Outcome} (hm : Advanced d t d')
    (hs : t.stage = .leaving outcome) : d' = d.leave t outcome := by
  cases hm with
  | left hs' =>
    obtain rfl := Stage.leaving.inj (hs.symm.trans hs')
    rfl
  | died calls | called calls =>
    rw [hs] at calls
    cases calls
  | bailed looks =>
    rw [hs] at looks
    cases looks
  | miscounted miscounts =>
    obtain ⟨_, _, hs', -⟩ | ⟨_, _, hs', -⟩ := miscounts <;> cases hs.symm.trans hs'
  | equipped hs' | unequipped hs' | greeted hs' | told _ hs' | untold hs' | took hs'
  | orphaned _ hs' | waitedOut hs' | timedOut hs' | woke hs' | skipped hs' | looked hs'
  | overran hs' | unvetted hs' | fitted hs' | barred hs' | admitted hs' | accounted hs'
  | progressed hs' | filled hs' | finalizing hs' | cutShort hs' =>
    cases hs.symm.trans hs'

end OverTheAir.Device
