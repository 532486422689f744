import Mathlib.Data.List.Induction
import OverTheAir.Proofs.Exclusion
import OverTheAir.Proofs.Farewell
import OverTheAir.Proofs.Tenure

/-!
# Proofs/Policy — no chunk is written before the version policy lets it pass

A session may be asked to refuse the version that runs or the one that was invalidated last.  Its
task then inspects the first chunk that it would write (`Inspects`), and no order of messages leads
around that: until a chunk has passed, the task stands at no stage behind a write (`Stage.IsShut`),
and from then on the partition opens with that chunk (`Stage.Keeps`).

* `gate_run` — shut, about to write the chunk that passed, or behind the first write.
* `Refused.run` — a chunk that does not pass ends the session for the reason that was found.
* `version_gate` — all of it, for every session that has a policy.
-/

namespace OverTheAir

/-- A stage of a task that has nothing to do with a write, nor with an image that is complete. -/
def Stage.IsShut : Stage → Prop
  | .writing _ _ => False
  | .written _ _ => False
  | .counted _ _ _ => False
  | .closing => False
  | .selecting => False
  | .leaving .completed => False
  | _ => True

/-- A chunk opens the image in the partition, at every stage at which there has to be one. -/
def Stage.Keeps (chunk image : Bytes) : Stage → Prop
  | .launched => False
  | .beginning => False
  | .aborting _ => True
  | .leaving (.aborted _) => True
  | _ => chunk <+: image

theorem Stage.isShut_next (isEnd : Bool) : (next isEnd).IsShut := by
  cases isEnd <;> trivial

theorem Stage.keeps_next {chunk image : Bytes} (h : chunk <+: image) (isEnd : Bool) :
    (next isEnd).Keeps chunk image := by
  cases isEnd <;> exact h

/-- A call that is answered leads a task that is shut to a stage that is. -/
theorem Stage.IsShut.after {s : Stage} {total : UInt32} {call : FlashCall} (h : s.IsShut)
    (calls : s.call? total = some call) (r : FlashResult) : (s.after r).IsShut := by
  obtain ⟨rfl, -⟩ | ⟨chunk, isEnd, rfl, -⟩ | ⟨rfl, -⟩ | ⟨rfl, -⟩ | ⟨reason, rfl, -⟩ :=
    call?_cases calls <;> rcases r with e | ⟨⟩ <;> trivial

/-- **A flash call behind the first write leaves the head of the image as it is**, or clears the
partition. -/
theorem Stage.Keeps.after {s : Stage} {total : UInt32} {chunk : Bytes} {f f' : Flash}
    {call : FlashCall} {r : FlashResult} (h : s.Keeps chunk f.image.toList)
    (calls : s.call? total = some call)
    (answer : f.call call = (r, f') ∨ f' = f ∧ ∃ e, r = .error e) :
    (s.after r).Keeps chunk f'.image.toList := by
  obtain ⟨rfl, -⟩ | ⟨more, isEnd, rfl, rfl⟩ | ⟨rfl, rfl⟩ | ⟨rfl, rfl⟩ | ⟨reason, rfl, -⟩ :=
    call?_cases calls
  · cases h
  · rcases r with e | ⟨⟩
    · trivial
    · have hcall := Flash.call_of_ok answer
      change chunk <+: f'.image.toList
      rw [Flash.image_write hcall]
      exact h.trans (List.prefix_append _ more)
  · rcases r with e | ⟨⟩
    · trivial
    · have hcall := Flash.call_of_ok answer
      change chunk <+: f'.image.toList
      rw [Flash.image_finish hcall]
      exact h
  · rcases r with e | ⟨⟩
    · trivial
    · have hcall := Flash.call_of_ok answer
      change chunk <+: f'.image.toList
      rw [Flash.image_select hcall]
      exact h
  · trivial

namespace Device

open Journal

variable {d d' : Device} {t t' : SessionTask} {k : Nat} {policy : SessionFlags} {m : Move}

/-! ## The policy of a session -/

/-- The session of that number has been opened, and has these flags as long as its task lives. -/
structure Subject (d : Device) (k : Nat) (policy : SessionFlags) : Prop where
  counted : k ≤ d.sessions
  flags : ∀ t, d.HasTask k t → d.session.flags = policy

theorem Subject.moved (h : d.Subject k policy) (sound : d.Sound) (hm : Moved d m d') :
    d'.Subject k policy := by
  refine ⟨Nat.le_trans h.counted hm.sessions_le, fun t' h' => ?_⟩
  obtain ⟨t, hasTask, ⟨-, hm⟩ | alone⟩ := h'.came sound h.counted hm
  · exact (hm.flags sound hasTask.live h'.live).trans (h.flags t hasTask)
  · exact alone.flags.trans (h.flags t hasTask)

theorem Subject.run (h : d.Subject k policy) (sound : d.Sound) (ms : List Move) :
    (d.run ms).Subject k policy := by
  have hrun := run_induction (motive := fun d => d.Sound ∧ d.Subject k policy) ⟨sound, h⟩
    (fun ⟨sound, h⟩ hm => ⟨sound.moved hm, h.moved sound hm⟩) ms
  exact hrun.2

/-- The task vets a chunk that it would write, before it has written any, and the version policy
answers. -/
structure Inspects (d : Device) (k : Nat) (policy : SessionFlags) (chunk : Bytes)
    (answer : Except AbortReason Version) : Prop where
  vets : ∃ t isEnd, d.HasTask k t ∧ t.stage = .vetting chunk isEnd ∧ t.versionChecked = false
  flags : d.session.flags = policy
  nonempty : chunk ≠ []
  fits : d.session.fits? chunk.length = some true
  answers : Image.checkVersion chunk policy (d.firmware.running.map (·.text))
    (d.firmware.lastInvalid.map (·.text)) = answer

/-- It applies the policy to the chunk next. -/
theorem Inspects.move {chunk : Bytes} {answer : Except AbortReason Version}
    (h : d.Inspects k policy chunk answer) : ∃ t isEnd, d.HasTask k t ∧
      d.move (.step (.task k)) = d.vet t chunk isEnd ∧ d.policyCheck chunk = answer := by
  obtain ⟨t, isEnd, hasTask, hs, -⟩ := h.vets
  refine ⟨t, isEnd, hasTask, ?_, ?_⟩
  · rw [← hasTask.actor, move_of_vetting hasTask.live hs]
  · rw [policyCheck, h.flags, h.answers]

/-- A chunk that passes is written next. -/
theorem Inspects.passes {chunk : Bytes} {v : Version} (h : d.Inspects k policy chunk (.ok v)) :
    ∃ t isEnd, d.HasTask k t ∧ d.move (.step (.task k))
      = d.goto { t with versionChecked := true } (.writing chunk isEnd) := by
  obtain ⟨t, isEnd, hasTask, hmove, hanswer⟩ := h.move
  exact ⟨t, isEnd, hasTask, by rw [hmove, vet, hanswer]⟩

/-- A chunk that does not pass ends the session. -/
theorem Inspects.fails {chunk : Bytes} {reason : AbortReason}
    (h : d.Inspects k policy chunk (.error reason)) :
    ∃ t, d.HasTask k t ∧ d.move (.step (.task k)) = d.goto t (.aborting reason) := by
  obtain ⟨t, isEnd, hasTask, hmove, hanswer⟩ := h.move
  exact ⟨t, hasTask, by rw [hmove, vet, hanswer]⟩

/-- A task that inspects a chunk does not write yet. -/
theorem Inspects.not_writing {chunk : Bytes} {answer : Except AbortReason Version}
    (h : d.Inspects k policy chunk answer) (t : SessionTask) (more : Bytes) (isEnd : Bool)
    (hasTask : d.HasTask k t) : t.stage ≠ .writing more isEnd := by
  obtain ⟨t', isEnd', hasTask', hs, -⟩ := h.vets
  obtain rfl := hasTask.unique hasTask'
  simp [hs]

/-! ## Nothing is written -/

/-- The session has not tried to write. -/
def Unwritten (d : Device) (k : Nat) : Prop :=
  ∀ e ∈ deeds (.task k) d.journal, e.triesWrite = false

theorem LeavesAlone.unwritten (h : d.LeavesAlone k t d' t') (unwritten : d.Unwritten k) :
    d'.Unwritten k := by
  rw [Unwritten, h.deeds]
  exact unwritten

/-- Only a task that is about to write writes. -/
theorem Unwritten.move (h : d.Unwritten k) (m : Move)
    (notWriting : ∀ t chunk isEnd, d.HasTask k t → t.stage ≠ .writing chunk isEnd) :
    (d.move m).Unwritten k := by
  intro e he
  rcases mem_deeds_move.mp he with before | ⟨byTask, now⟩
  · exact h e before
  · refine Bool.eq_false_iff.mpr fun writes => ?_
    obtain ⟨rfl, t, chunk, isEnd, live, hs, -⟩ := writing_of_does now writes
    exact notWriting t chunk isEnd ⟨Actor.task.inj byTask, live⟩ hs

/-! ## Before a chunk has passed -/

/-- The task has inspected no chunk yet, or none that passed. -/
structure Shut (d : Device) (t : SessionTask) : Prop where
  unchecked : t.versionChecked = false
  stage : t.stage.IsShut
  nothing : d.session.received = 0

theorem Shut.leftAlone (h : d.Shut t) (alone : d.LeavesAlone k t d' t') : d'.Shut t' := by
  refine ⟨alone.checked.trans h.unchecked, ?_, alone.received.trans h.nothing⟩
  rcases alone.stage with same | ⟨waited, waited', -, hs⟩
  · rw [same]
    exact h.stage
  · rw [hs]
    trivial

/-- **A task that is shut stays so**, unless a chunk passes. -/
theorem Shut.advanced (h : d.Shut t) (sound : d.Sound) (hasTask : d.HasTask k t)
    (subject : d.Subject k policy) (hm : Advanced d t d')
    (unpassed : ∀ chunk v, ¬d.Inspects k policy chunk (.ok v)) (live' : d'.task = some t') :
    d'.Shut t' := by
  have moveOn : ∀ {d₁ : Device} {t₁ : SessionTask} {s : Stage},
      t₁.versionChecked = t.versionChecked → d₁.session.received = d.session.received → s.IsShut →
      (d₁.goto t₁ s).task = some t' → (d₁.goto t₁ s).Shut t' := by
    intro d₁ t₁ s checked received shut live'
    obtain rfl := Option.some.inj live'
    exact ⟨checked.trans h.unchecked, shut, received.trans h.nothing⟩
  have stage := h.stage
  cases hm with
  | equipped | unequipped | bailed | greeted | took | orphaned | waitedOut | woke | looked | overran
  | unvetted | barred | cutShort =>
    exact moveOn rfl rfl trivial live'
  | told | untold | skipped => exact moveOn rfl rfl (Stage.isShut_next _) live'
  | called calls => exact moveOn rfl rfl (stage.after calls _) live'
  | timedOut =>
    obtain ⟨state, hmark⟩ := d.session.markAborted_eq .timeout
    exact moveOn rfl (by rw [hmark]) trivial live'
  | fitted _ _ checked => cases h.unchecked.symm.trans checked
  | @admitted chunk isEnd v hs admitted =>
    obtain ⟨-, nonempty, within⟩ := sound.stands hasTask.live hs
    have flags := subject.flags t hasTask
    refine absurd ⟨⟨t, isEnd, hasTask, hs, h.unchecked⟩, flags, nonempty, ?_, ?_⟩ (unpassed chunk v)
    · rw [Session.fits?_eq_some sound.counts, decide_eq_true within]
    · rw [← flags]
      exact admitted
  | accounted hs | progressed hs | filled hs =>
    rw [hs] at stage
    cases stage
  | finalizing hs notAborted complete =>
    have pos := (sound.busy (sound.ne_idle hasTask.live)).pos
    rw [← complete, h.nothing] at pos
    cases pos
  | died | miscounted | left => cases live'

/-! ## Behind the first write -/

/-- The task has written, or tried to, and the partition opens with the chunk as long as there is
something in it to be kept. -/
structure Headed (d : Device) (chunk : Bytes) (t : SessionTask) : Prop where
  checked : t.versionChecked = true
  stage : t.stage.Keeps chunk d.flash.image.toList

theorem Headed.leftAlone {chunk : Bytes} (h : d.Headed chunk t)
    (alone : d.LeavesAlone k t d' t') : d'.Headed chunk t' := by
  refine ⟨alone.checked.trans h.checked, ?_⟩
  have stage := h.stage
  rw [alone.flash]
  rcases alone.stage with same | ⟨waited, waited', hs, hs'⟩
  · rw [same]
    exact stage
  · rw [hs] at stage
    rw [hs']
    exact stage

/-- **The partition keeps its head** to the end of the session. -/
theorem Headed.advanced {chunk : Bytes} (h : d.Headed chunk t) (hm : Advanced d t d')
    (live' : d'.task = some t') : d'.Headed chunk t' := by
  have moveOn : ∀ {d₁ : Device} {t₁ : SessionTask} {s s' : Stage},
      t₁.versionChecked = true → t.stage = s →
      (s.Keeps chunk d.flash.image.toList → s'.Keeps chunk d₁.flash.image.toList) →
      (d₁.goto t₁ s').task = some t' → (d₁.goto t₁ s').Headed chunk t' := by
    intro d₁ t₁ s s' checked hs keeps live'
    obtain rfl := Option.some.inj live'
    exact ⟨checked, keeps (hs ▸ h.stage)⟩
  cases hm with
  | equipped hs => exact moveOn h.checked hs False.elim live'
  | unequipped | bailed | orphaned | timedOut | barred | cutShort =>
    exact moveOn h.checked rfl (fun _ => trivial) live'
  | greeted hs | took hs | waitedOut hs | woke hs | looked hs | overran hs | unvetted hs | fitted hs
  | accounted hs | progressed hs | finalizing hs =>
    exact moveOn h.checked hs id live'
  | admitted hs => exact moveOn rfl hs id live'
  | told _ hs | untold hs | skipped hs | filled hs =>
    exact moveOn h.checked hs (fun keeps => Stage.keeps_next keeps _) live'
  | called calls answer => exact moveOn h.checked rfl (fun keeps => keeps.after calls answer) live'
  | died | miscounted | left => cases live'

/-! ## Three phases -/

/-- Behind the moves of `front` the task is about to make the first write of its session, and it is
of the chunk that it has inspected. -/
structure Admits (d : Device) (k : Nat) (policy : SessionFlags) (front : List Move)
    (chunk : Bytes) (v : Version) : Prop where
  inspected : ∃ pre mid, front = pre ++ .step (.task k) :: mid ∧
    (d.run pre).Inspects k policy chunk (.ok v)
  unwritten : (d.run front).Unwritten k
  writing : ∃ t isEnd, (d.run front).HasTask k t ∧ t.stage = .writing chunk isEnd ∧
    t.versionChecked = true

/-- The task of the session writes a chunk next, and may die of it. -/
def Writes (d : Device) (k : Nat) (chunk : Bytes) : Prop :=
  d.does (.step (.task k)) = [.died .write] ∨
    ∃ r, d.does (.step (.task k)) = [.flash (.write chunk) r]

/-- How far a session under a policy has come in a run. -/
inductive Gate (d : Device) (k : Nat) (policy : SessionFlags) (ms : List Move) : Prop where
  /-- Nothing is written. -/
  | shut (unwritten : (d.run ms).Unwritten k)
      (shut : ∀ t, (d.run ms).HasTask k t → (d.run ms).Shut t)
  /-- A chunk has passed. -/
  | admitted {chunk v} (admits : d.Admits k policy ms chunk v)
      (nothing : (d.run ms).session.received = 0)
  /-- The chunk that passed was the first to be written. -/
  | written {front back chunk v} (split : ms = front ++ .step (.task k) :: back)
      (admits : d.Admits k policy front chunk v) (writes : (d.run front).Writes k chunk)
      (headed : ∀ t, (d.run ms).HasTask k t → (d.run ms).Headed chunk t)

/-- **What comes of a session in which nothing is written.** -/
theorem Gate.shut_next {ms : List Move} (sound : (d.run ms).Sound)
    (subject : (d.run ms).Subject k policy) (unwritten : (d.run ms).Unwritten k)
    (shut : ∀ t, (d.run ms).HasTask k t → (d.run ms).Shut t) (m : Move) :
    d.Gate k policy (ms ++ [m]) := by
  have unwritten' : (d.run (ms ++ [m])).Unwritten k := by
    rw [run_concat]
    refine unwritten.move m fun t chunk isEnd hasTask hs => ?_
    have stage := (shut t hasTask).stage
    rw [hs] at stage
    exact stage
  by_cases passes : ∃ chunk v, m = .step (.task k) ∧ (d.run ms).Inspects k policy chunk (.ok v)
  · obtain ⟨chunk, v, rfl, inspects⟩ := passes
    obtain ⟨t, isEnd, hasTask, hmove⟩ := inspects.passes
    refine .admitted ⟨⟨ms, [], rfl, inspects⟩, unwritten', ?_⟩ ?_ <;> rw [run_concat, hmove]
    · exact ⟨_, isEnd, ⟨hasTask.session, rfl⟩, rfl, rfl⟩
    · exact (shut t hasTask).nothing
  · refine .shut unwritten' ?_
    rw [run_concat]
    intro t' h'
    have hm := (d.run ms).moved m
    obtain ⟨t, hasTask, ⟨rfl, hm⟩ | alone⟩ := h'.came sound subject.counted hm
    · exact (shut t hasTask).advanced sound hasTask subject hm
        (fun chunk v inspects => passes ⟨chunk, v, rfl, inspects⟩) h'.live
    · exact (shut t hasTask).leftAlone alone

/-- The first write tries to put its chunk at the head of the partition. -/
theorem Advanced.writes_first {chunk : Bytes} {isEnd : Bool} (sound : d.Sound)
    (hasTask : d.HasTask k t) (hs : t.stage = .writing chunk isEnd)
    (checked : t.versionChecked = true) (nothing : d.session.received = 0)
    (hm : Advanced d t (d.move (.step (.task k)))) :
    d.Writes k chunk ∧ ∀ t', (d.move (.step (.task k))).HasTask k t' →
      (d.move (.step (.task k))).Headed chunk t' := by
  have calls : t.stage.call? d.session.total = some (.write chunk) := by
    rw [hs]
    rfl
  obtain ⟨faults, hmove⟩ | ⟨r, faults, flash, answer, hmove⟩ := hm.calls calls
  · refine ⟨.inl (does_eq (congrArg Device.journal hmove)), fun t' h' => ?_⟩
    rw [hmove] at h'
    cases h'.live
  · refine ⟨.inr ⟨r, does_eq (congrArg Device.journal hmove)⟩, fun t' h' => ?_⟩
    rw [hmove] at h' ⊢
    obtain rfl := Option.some.inj h'.live
    refine ⟨checked, ?_⟩
    change (t.stage.after r).Keeps chunk flash.image.toList
    rw [hs]
    rcases r with e | ⟨⟩
    · trivial
    · have hcall := Flash.call_of_ok answer
      obtain ⟨takes, -⟩ := sound.stands hasTask.live hs
      have blank : d.flash.image.toList = [] := by
        refine List.length_eq_zero_iff.mp ?_
        rw [Array.length_toList, takes.holds.size, nothing]
        rfl
      change chunk <+: flash.image.toList
      rw [Flash.image_write hcall, blank]
      exact List.prefix_rfl

/-- **What comes of a session in which a chunk has passed**: it is written next. -/
theorem Gate.admitted_next {ms : List Move} {chunk : Bytes} {v : Version}
    (sound : (d.run ms).Sound) (admits : d.Admits k policy ms chunk v)
    (nothing : (d.run ms).session.received = 0) (m : Move) : d.Gate k policy (ms ++ [m]) := by
  obtain ⟨t, isEnd, hasTask, hs, checked⟩ := admits.writing
  obtain ⟨rfl, hm⟩ | ⟨t', alone⟩ := hasTask.moved sound ((d.run ms).moved m)
  · obtain ⟨writes, headed⟩ := hm.writes_first sound hasTask hs checked nothing
    have split : ms ++ [.step (.task k)] = ms ++ .step (.task k) :: [] := rfl
    refine .written split admits writes ?_
    rw [run_concat]
    exact headed
  · obtain ⟨pre, mid, split, inspects⟩ := admits.inspected
    refine .admitted ⟨⟨pre, mid ++ [m], by simp [split], inspects⟩, ?_, ?_⟩ ?_ <;> rw [run_concat]
    · exact alone.unwritten admits.unwritten
    · exact ⟨t', isEnd, alone.hasTask, alone.stage_eq hs nofun, alone.checked.trans checked⟩
    · exact alone.received.trans nothing

/-- **What comes of a session that has written**: its partition keeps its head. -/
theorem Gate.written_next {ms : List Move} {chunk : Bytes} (sound : (d.run ms).Sound)
    (subject : (d.run ms).Subject k policy)
    (headed : ∀ t, (d.run ms).HasTask k t → (d.run ms).Headed chunk t) (m : Move) :
    ∀ t, (d.run (ms ++ [m])).HasTask k t → (d.run (ms ++ [m])).Headed chunk t := by
  rw [run_concat]
  intro t' h'
  have hm := (d.run ms).moved m
  obtain ⟨t, hasTask, ⟨rfl, hm⟩ | alone⟩ := h'.came sound subject.counted hm
  · exact (headed t hasTask).advanced hm h'.live
  · exact (headed t hasTask).leftAlone alone

theorem Gate.next {ms : List Move} (h : d.Gate k policy ms) (sound : (d.run ms).Sound)
    (subject : (d.run ms).Subject k policy) (m : Move) : d.Gate k policy (ms ++ [m]) := by
  cases h with
  | shut unwritten shut => exact .shut_next sound subject unwritten shut m
  | admitted admits nothing => exact .admitted_next sound admits nothing m
  | @written front back chunk v split admits writes headed =>
    have longer : ms ++ [m] = front ++ .step (.task k) :: (back ++ [m]) := by simp [split]
    exact .written longer admits writes (Gate.written_next sound subject headed m)

/-- **A session under a policy is in one of three phases**, whatever happens to the device. -/
theorem gate_run (sound : d.Sound) (subject : d.Subject k policy) (unwritten : d.Unwritten k)
    (shut : ∀ t, d.HasTask k t → d.Shut t) (ms : List Move) : d.Gate k policy ms := by
  induction ms using List.reverseRecOn with
  | nil => exact .shut unwritten shut
  | append_singleton ms m h => exact h.next (sound.run ms) (subject.run sound ms) m

/-! ## A chunk that does not pass -/

variable {reason : AbortReason} {owner : Client} {total : UInt32} {n : Nat}

/-- The session is ended for a reason, with nothing received: so many more steps of its task at most
clean up and leave, or the task has died in the cleanup, or the session is past. -/
inductive Refused (d : Device) (k : Nat) (reason : AbortReason) : Nat → Prop where
  | cleaning {t : SessionTask} (hasTask : d.HasTask k t) (stage : t.stage = .aborting reason)
      (nothing : d.session.received = 0) : Refused d k reason 2
  | leaving {t : SessionTask} (hasTask : d.HasTask k t)
      (stage : t.stage = .leaving (.aborted reason)) (nothing : d.session.received = 0) :
      Refused d k reason 1
  | lost (session : d.sessions = k) (busy : d.session.state ≠ .idle) (dead : d.task = none)
      (died : .died .abort ∈ deeds (.task k) d.journal) : Refused d k reason 0
  | past (isPast : d.IsPast k) (verdict : .event (.aborted reason 0) ∈ deeds (.task k) d.journal) :
      Refused d k reason 0

/-- A session that is refused writes nothing. -/
theorem Refused.not_writing (h : d.Refused k reason n) (sound : d.Sound) (hasTask : d.HasTask k t)
    (chunk : Bytes) (isEnd : Bool) : t.stage ≠ .writing chunk isEnd := by
  intro hs
  cases h with
  | cleaning hasTask' hs' | leaving hasTask' hs' =>
    obtain rfl := hasTask.unique hasTask'
    cases hs.symm.trans hs'
  | lost _ _ dead => cases dead.symm.trans hasTask.live
  | past isPast =>
    rw [← hasTask.session] at isPast
    exact not_isPast (sound.ne_idle hasTask.live) isPast

/-- What the task of a session does goes into the record of the session. -/
theorem HasTask.records (hasTask : d.HasTask k t) {es : List Effect} {e : Effect} (he : e ∈ es) :
    e ∈ deeds (.task k) (d.journal ++ es.map (Entry.mk d.taskActor)) := by
  rw [hasTask.actor, deeds_append_self]
  exact List.mem_append_right _ he

/-- The cleanup comes to the end of the session, or the task dies in it. -/
theorem Refused.cleaned (sound : d.Sound) (hasTask : d.HasTask k t)
    (hs : t.stage = .aborting reason) (nothing : d.session.received = 0) (hm : Advanced d t d') :
    ∃ n ≤ 1, d'.Refused k reason n := by
  have calls : t.stage.call? d.session.total = some .abort := by
    rw [hs]
    rfl
  obtain ⟨faults, rfl⟩ | ⟨r, faults, flash, -, rfl⟩ := hm.calls calls
  · have died := hasTask.records (List.mem_singleton_self (Effect.died .abort))
    exact ⟨0, Nat.zero_le 1, .lost hasTask.session (sound.ne_idle hasTask.live) rfl died⟩
  · have hs' : t.stage.after r = .leaving (.aborted reason) := by
      rw [hs]
      rfl
    exact ⟨1, Nat.le_refl 1, .leaving ⟨hasTask.session, rfl⟩ hs' nothing⟩

/-- The end of the session says why. -/
theorem Refused.left (hasTask : d.HasTask k t) (hs : t.stage = .leaving (.aborted reason))
    (nothing : d.session.received = 0) (hm : Advanced d t d') : d'.Refused k reason 0 := by
  obtain rfl := hm.leaves hs
  refine .past (.inr ⟨hasTask.session.symm, rfl⟩) ?_
  rw [journal_leave, nothing]
  exact hasTask.records (List.mem_singleton_self _)

theorem count_of_others (h : m ≠ .step (.task k)) : [m].count (.step (.task k)) = 0 :=
  List.count_eq_zero.mpr fun own => h (List.mem_singleton.mp own).symm

/-- A session that is refused stays so, and every step of its task brings it closer to its end. -/
theorem Refused.moved (h : d.Refused k reason n) (sound : d.Sound) (m : Move) :
    ∃ n' ≤ n - [m].count (.step (.task k)), (d.move m).Refused k reason n' := by
  have hm := d.moved m
  have idles : m ≠ .step (.task k) → n ≤ n - [m].count (.step (.task k)) := fun other => by
    rw [count_of_others other]
    exact Nat.le_refl n
  cases h with
  | @cleaning t hasTask hs nothing =>
    obtain ⟨rfl, hm⟩ | ⟨other, t', alone⟩ := hasTask.moves sound (by simp [hs]) m
    · rw [List.count_singleton_self]
      exact Refused.cleaned sound hasTask hs nothing hm
    · exact ⟨2, idles other, .cleaning alone.hasTask (alone.stage_eq hs nofun)
        (alone.received.trans nothing)⟩
  | @leaving t hasTask hs nothing =>
    obtain ⟨rfl, hm⟩ | ⟨other, t', alone⟩ := hasTask.moves sound (by simp [hs]) m
    · exact ⟨0, Nat.zero_le _, .left hasTask hs nothing hm⟩
    · exact ⟨1, idles other, .leaving alone.hasTask (alone.stage_eq hs nofun)
        (alone.received.trans nothing)⟩
  | lost session busy dead died =>
    obtain ⟨same, busy', dead'⟩ := lost_moved busy dead hm
    have died' : .died .abort ∈ deeds (.task k) (d.move m).journal := mem_deeds_run died [m]
    exact ⟨0, Nat.zero_le _, .lost (same.trans session) busy' dead' died'⟩
  | past isPast verdict =>
    have verdict' : .event (.aborted reason 0) ∈ deeds (.task k) (d.move m).journal :=
      mem_deeds_run verdict [m]
    exact ⟨0, Nat.zero_le _, .past (isPast.moved sound hm) verdict'⟩

/-- **A session that is refused stays so**, writes nothing, and comes to its end with the steps of
its task. -/
theorem Refused.run (h : d.Refused k reason n) (sound : d.Sound) (unwritten : d.Unwritten k)
    (ms : List Move) : (d.run ms).Unwritten k ∧
      ∃ n' ≤ n - ms.count (.step (.task k)), (d.run ms).Refused k reason n' := by
  induction ms generalizing d n with
  | nil => exact ⟨unwritten, n, Nat.le_refl n, h⟩
  | cons m ms ih =>
    have unwritten' := unwritten.move m fun t chunk isEnd hasTask =>
      h.not_writing sound hasTask chunk isEnd
    obtain ⟨n₁, closer, h₁⟩ := h.moved sound m
    obtain ⟨unwritten₂, n₂, closer₂, h₂⟩ := ih h₁ (sound.moved (d.moved m)) unwritten'
    have counts : ([m] ++ ms).count (.step (.task k))
        = [m].count (.step (.task k)) + ms.count (.step (.task k)) := List.count_append
    rw [List.singleton_append] at counts
    exact ⟨unwritten₂, n₂, by omega, h₂⟩

/-! ## What a session that is refused says -/

/-- Before its end, a session has no verdict. -/
theorem Chronicle.verdicts_eq_nil (h : d.Chronicle)
    (opened : opening? k d.journal = some (owner, total)) (on : ¬d.IsPast k) :
    (deeds (.task k) d.journal).filterMap Effect.verdict? = [] := by
  refine List.filterMap_eq_nil_iff.mpr fun e he => ?_
  rcases h.working opened on e he with work | ⟨point, rfl⟩
  · exact work.verdict?
  · rfl

/-- Whoever has said that a session is aborted has said so in the one verdict on it. -/
theorem Past.verdict_of_mem {es : List Effect} {left : List Duty} {received : UInt32}
    (h : Past owner total es left) (said : .event (.aborted reason received) ∈ es) :
    es.filterMap Effect.verdict? = [.aborted reason received] := by
  have mem : Event.aborted reason received ∈ es.filterMap Effect.verdict? :=
    List.mem_filterMap.mpr ⟨_, said, rfl⟩
  obtain ⟨body, done, outcome, received', flags, rfl, work, closes, duties⟩ := h
  rw [verdicts_eq work duties] at mem ⊢
  rw [List.mem_singleton.mp mem]

/-- **What a session that is refused has said of itself**: nothing as long as it is on, and then the
reason that was found. -/
theorem Refused.verdict (h : d.Refused k reason n) (sound : d.Sound) (chronicle : d.Chronicle)
    (opened : opening? k d.journal = some (owner, total)) :
    (deeds (.task k) d.journal).filterMap Effect.verdict? = [] ∧
        (n = 0 → .died .abort ∈ deeds (.task k) d.journal) ∨
      (deeds (.task k) d.journal).filterMap Effect.verdict? = [.aborted reason 0] := by
  have on : d.sessions = k → d.session.state ≠ .idle → ¬d.IsPast k := by
    rintro rfl busy
    exact not_isPast busy
  cases h with
  | cleaning hasTask | leaving hasTask =>
    have still := on hasTask.session (sound.ne_idle hasTask.live)
    exact .inl ⟨chronicle.verdicts_eq_nil opened still, nofun⟩
  | lost session busy _ died =>
    exact .inl ⟨chronicle.verdicts_eq_nil opened (on session busy), fun _ => died⟩
  | past isPast verdict =>
    exact .inr ((chronicle.past k owner total opened isPast).verdict_of_mem verdict)

/-- A session that has ended with a refusal has told its owner so. -/
theorem Refused.parting (h : d.Refused k reason n) (chronicle : d.Chronicle)
    (opened : opening? k d.journal = some (owner, total)) (ended : d.HasEnded k) :
    .died .abort ∈ deeds (.task k) d.journal ∨
      (deeds (.task k) d.journal).filterMap Effect.verdict? = [.aborted reason 0] ∧
        partings total (deeds (.task k) d.journal)
          = (Outcome.aborted reason).parting owner total := by
  have live : ∀ {t}, ¬d.HasTask k t := fun hasTask => by
    refine ended.1 ?_ hasTask.session.symm
    rw [hasTask.live]
    rfl
  cases h with
  | cleaning hasTask | leaving hasTask => exact absurd hasTask live
  | lost _ _ _ died => exact .inl died
  | past isPast verdict =>
    have past := chronicle.past k owner total opened isPast
    have verdicts := past.verdict_of_mem verdict
    rw [ended.2] at past
    obtain ⟨outcome, received, verdicts', parts⟩ := past.parts
    have same := List.singleton_inj.mp (verdicts'.symm.trans verdicts)
    rcases outcome with _ | reason'
    · cases same
    · obtain ⟨rfl, -⟩ := Event.aborted.inj same
      exact .inr ⟨verdicts, parts⟩

/-! ## The gate -/

/-- What becomes of a session whose chunk does not pass, when its task has taken so many steps since
then. -/
structure TurnedAway (d : Device) (k : Nat) (owner : Client) (total : UInt32) (reason : AbortReason)
    (steps : Nat) : Prop where
  /-- Nothing is written, -/
  unwritten : d.Unwritten k
  /-- no verdict is given but for the reason that was found, -/
  verdict : ∀ v ∈ (deeds (.task k) d.journal).filterMap Effect.verdict?, v = .aborted reason 0
  /-- two steps lead to that one, unless the task dies in the cleanup, -/
  concluded : 2 ≤ steps → .died .abort ∈ deeds (.task k) d.journal ∨
    (deeds (.task k) d.journal).filterMap Effect.verdict? = [.aborted reason 0]
  /-- and the owner is told it. -/
  told : d.HasEnded k → .died .abort ∈ deeds (.task k) d.journal ∨
    (deeds (.task k) d.journal).filterMap Effect.verdict? = [.aborted reason 0] ∧
      partings total (deeds (.task k) d.journal) = (Outcome.aborted reason).parting owner total

/-- Behind the moves of `front`, the whole image in the partition has a version, and the policy of
the session has let it pass, given the versions that there were when its task inspected a chunk. -/
def Vouches (d : Device) (k : Nat) (policy : SessionFlags) (front : List Move) : Prop :=
  ∃ pre mid chunk v, front = pre ++ .step (.task k) :: mid ∧
    (d.run pre).Inspects k policy chunk (.ok v) ∧
    Image.version? (d.run front).flash.image.toList = some v ∧
    (policy.refuseRunning = true → (d.run pre).firmware.running.map (·.text) ≠ some v.text) ∧
    (policy.refuseLastInvalid = true →
      (d.run pre).firmware.lastInvalid.map (·.text) ≠ some v.text)

/-- **What the policy of a session comes to** in a run. -/
structure Guarded (d : Device) (k : Nat) (policy : SessionFlags) (owner : Client) (total : UInt32)
    (ms : List Move) : Prop where
  /-- Whenever the session writes, its first write was of a chunk that had passed, -/
  admits : ∀ e ∈ deeds (.task k) (d.run ms).journal, e.triesWrite = true →
    ∃ front back chunk v, ms = front ++ .step (.task k) :: back ∧ d.Admits k policy front chunk v ∧
      (d.run front).Writes k chunk
  /-- a chunk that does not pass ends it, -/
  refuses : ∀ front back chunk reason, ms = front ++ .step (.task k) :: back →
    (d.run front).Inspects k policy chunk (.error reason) →
    (d.run ms).TurnedAway k owner total reason (back.count (.step (.task k)))
  /-- and if it is completed, then with a version that had passed. -/
  completes : ∀ n, .event (.completed n) ∈ deeds (.task k) (d.run ms).journal →
    ∃ front back, ms = front ++ .step (.task k) :: back ∧
      .event (.completed n) ∈ (d.run front).does (.step (.task k)) ∧ d.Vouches k policy front

theorem Refused.turnedAway {steps : Nat} (h : d.Refused k reason n) (sound : d.Sound)
    (chronicle : d.Chronicle) (opened : opening? k d.journal = some (owner, total))
    (unwritten : d.Unwritten k) (closer : n ≤ 2 - steps) :
    d.TurnedAway k owner total reason steps := by
  have verdict := h.verdict sound chronicle opened
  refine ⟨unwritten, fun v hv => ?_, fun enough => ?_, fun ended => h.parting chronicle opened ended⟩
  · rcases verdict with ⟨none, -⟩ | one
    · rw [none] at hv
      cases hv
    · rw [one] at hv
      exact List.mem_singleton.mp hv
  · exact verdict.imp (fun ⟨_, died⟩ => died (by omega)) id

/-- Nothing that is written gets around the policy. -/
theorem Gate.admits {ms : List Move} (h : d.Gate k policy ms) {e : Effect}
    (he : e ∈ deeds (.task k) (d.run ms).journal) (writes : e.triesWrite = true) :
    ∃ front back chunk v, ms = front ++ .step (.task k) :: back ∧ d.Admits k policy front chunk v ∧
      (d.run front).Writes k chunk := by
  cases h with
  | shut unwritten => cases (unwritten e he).symm.trans writes
  | admitted admits => cases (admits.unwritten e he).symm.trans writes
  | written split admits first => exact ⟨_, _, _, _, split, admits, first⟩

/-- A task that inspects a chunk has written nothing, so a chunk that does not pass ends the session
with nothing received. -/
theorem Gate.refuses {front : List Move} {chunk : Bytes} (h : d.Gate k policy front)
    (inspects : (d.run front).Inspects k policy chunk (.error reason)) :
    (d.run front).Unwritten k ∧
      ((d.run front).move (.step (.task k))).Refused k reason 2 := by
  obtain ⟨t, isEnd, hasTask, hs, unchecked⟩ := inspects.vets
  cases h with
  | shut unwritten shut =>
    obtain ⟨t₁, hasTask₁, hmove⟩ := inspects.fails
    refine ⟨unwritten, ?_⟩
    rw [hmove]
    exact .cleaning ⟨hasTask.session, rfl⟩ rfl (shut t hasTask).nothing
  | admitted admits =>
    obtain ⟨t', _, hasTask', -, checked⟩ := admits.writing
    obtain rfl := hasTask.unique hasTask'
    cases unchecked.symm.trans checked
  | written _ _ _ headed => cases unchecked.symm.trans (headed t hasTask).checked

/-- A session that is about to be completed has a version that was let pass. -/
theorem Gate.vouches {front : List Move} (h : d.Gate k policy front)
    (hasTask : (d.run front).HasTask k t) (hs : t.stage = .leaving .completed) :
    d.Vouches k policy front := by
  cases h with
  | shut _ shut =>
    have stage := (shut t hasTask).stage
    rw [hs] at stage
    exact stage.elim
  | admitted admits =>
    obtain ⟨t', _, hasTask', hs', -⟩ := admits.writing
    obtain rfl := hasTask.unique hasTask'
    cases hs.symm.trans hs'
  | @written front' back chunk v split admits _ headed =>
    obtain ⟨pre, mid, split', inspects⟩ := admits.inspected
    have stage := (headed t hasTask).stage
    rw [hs] at stage
    obtain ⟨rest, image⟩ : chunk <+: (d.run front).flash.image.toList := stage
    obtain ⟨readable, notInvalid, notRunning⟩ := Image.checkVersion_eq_ok_iff.mp inspects.answers
    refine ⟨pre, mid ++ .step (.task k) :: back, chunk, v, ?_, inspects, ?_, notRunning, notInvalid⟩
    · rw [split, split', List.append_assoc, List.cons_append]
    · rw [← image]
      exact Image.version?_append readable rest

/-- **The policy of a session is kept** from its start on. -/
theorem Chronicle.guarded (chronicle : d.Chronicle) (sound : d.Sound)
    (opened : opening? k d.journal = some (owner, total)) (subject : d.Subject k policy)
    (idle : deeds (.task k) d.journal = []) (shut : ∀ t, d.HasTask k t → d.Shut t)
    (ms : List Move) : d.Guarded k policy owner total ms := by
  have unwritten : d.Unwritten k := by
    rw [Unwritten, idle]
    exact List.forall_mem_nil _
  have gate := gate_run sound subject unwritten shut
  refine ⟨fun e he => (gate ms).admits he, ?_, fun n completed => ?_⟩
  · rintro front back chunk reason rfl inspects
    obtain ⟨unwritten₁, refused⟩ := (gate front).refuses inspects
    have sound₁ := sound.run front
    have unwritten₂ := unwritten₁.move (.step (.task k)) inspects.not_writing
    obtain ⟨unwritten₃, steps, closer, refused'⟩ :=
      refused.run (sound₁.moved ((d.run front).moved (.step (.task k)))) unwritten₂ back
    rw [run_append]
    have sound' := sound₁.run (.step (.task k) :: back)
    have chronicle' := (chronicle.run sound front).run sound₁ (.step (.task k) :: back)
    have opened' := opening?_run (opening?_run opened front) (.step (.task k) :: back)
    exact refused'.turnedAway sound' chronicle' opened' unwritten₃ closer
  · rw [deeds_run, idle, List.nil_append] at completed
    obtain ⟨front, m, back, rfl, byTask, does⟩ := mem_doings.mp completed
    have completes := completes_of_does does
    generalize (d.run front).move m = d' at completes
    rcases completes with ⟨live, hs⟩
    have hasTask : (d.run front).HasTask k _ := ⟨Actor.task.inj byTask, live⟩
    rw [hasTask.actor] at does ⊢
    exact ⟨front, back, rfl, does, (gate front).vouches hasTask hs⟩

/-- **A request that opens a session** opens the one that it asks for. -/
theorem move_of_counted {c : Client} {f : Bytes} {total : UInt32} {timeoutMs : UInt16}
    (decodes : Request.decode f = .ok (.start total timeoutMs policy))
    (counted : (d.move (.frame c f)).sessions = d.sessions + 1) :
    d.move (.frame c f) = { d with
      registry := ⟨some c⟩
      session := Session.opened total (d.config.timeoutFor timeoutMs) policy
      inbox := some []
      sessions := d.sessions + 1
      task := some ⟨.launched, false, !policy.needsVersionCheck⟩
      journal := d.journal ++ [⟨.handler, .event (.sessionStarted c total)⟩] } := by
  have grown : (d.move (.frame c f)).sessions ≠ d.sessions :=
    counted ▸ Nat.ne_of_gt (Nat.lt_succ_self _)
  obtain ⟨_, _, _, _, _, frame, decodes', opens⟩ := (d.moved (.frame c f)).opens grown
  obtain ⟨rfl, rfl⟩ := Move.frame.inj frame
  obtain ⟨rfl, rfl, rfl⟩ := Request.start.inj (Except.ok.inj (decodes.symm.trans decodes'))
  exact opens

/-- It puts the task to the start, and the session under its flags. -/
theorem opens_of_counted {c : Client} {f : Bytes} {total : UInt32} {timeoutMs : UInt16}
    (decodes : Request.decode f = .ok (.start total timeoutMs policy))
    (counted : (d.move (.frame c f)).sessions = d.sessions + 1) :
    (d.move (.frame c f)).task = some ⟨.launched, false, !policy.needsVersionCheck⟩ ∧
      (d.move (.frame c f)).session.flags = policy ∧
      (d.move (.frame c f)).session.received = 0 ∧
      (d.move (.frame c f)).journal
        = d.journal ++ [⟨.handler, .event (.sessionStarted c total)⟩] := by
  rw [move_of_counted decodes counted]
  exact ⟨rfl, rfl, rfl, rfl⟩

/-- A task that is still to be created has done nothing. -/
theorem Chronicle.deeds_of_counted {e : Effect} (chronicle : d.Chronicle)
    (journal : (d.move m).journal = d.journal ++ [⟨.handler, e⟩]) :
    deeds (.task (d.sessions + 1)) (d.move m).journal = [] := by
  rw [journal]
  exact (deeds_append_of_ne (a := .task _) (b := .handler) nofun d.journal [e]).trans
    (chronicle.future _ (Nat.lt_succ_self _))

/-- **The version policy cannot be bypassed.**  Take any session that is asked to refuse a version,
and whatever happens behind the request that opens it.  If its task writes at all, the first chunk
that it writes is one that it has inspected before, in a session of these flags and with the
versions that the firmware reported then, and that passed; nothing was written before.  If a chunk
does not pass, nothing is ever written, and the session ends for the reason that was found, unless
its task dies in the cleanup.  If the session is completed, the whole image in the partition has a
version, which is none of those that were to be refused. -/
theorem version_gate (config : Config) (firmware : Firmware) (before : List Move) (c : Client)
    (f : Bytes) {timeoutMs : UInt16}
    (decodes : Request.decode f = .ok (.start total timeoutMs policy))
    (asks : policy.refuseLastInvalid = true ∨ policy.refuseRunning = true) :
    let d := (fresh config firmware).run before
    (d.move (.frame c f)).sessions = d.sessions + 1 →
      ∀ ms, (d.move (.frame c f)).Guarded (d.sessions + 1) policy c total ms := by
  intro d counted
  obtain ⟨sound, chronicle⟩ : d.Sound ∧ d.Chronicle := chronicle_run config firmware before
  have hm := d.moved (.frame c f)
  obtain ⟨live, flags, nothing, journal⟩ := opens_of_counted decodes counted
  have opened := chronicle.opening_of_does counted (does_eq (a := .handler) journal)
  rw [counted] at opened
  have idle := chronicle.deeds_of_counted journal
  have needs := SessionFlags.needsVersionCheck_iff.mpr asks
  have shut : ∀ t, (d.move (.frame c f)).HasTask (d.sessions + 1) t →
      (d.move (.frame c f)).Shut t := fun t hasTask => by
    obtain rfl := Option.some.inj (live.symm.trans hasTask.live)
    exact ⟨by simp [needs], trivial, nothing⟩
  exact (chronicle.moved sound hm).guarded (sound.moved hm) opened
    ⟨Nat.le_of_eq counted.symm, fun _ _ => flags⟩ idle shut

/-- An image of the least length whose version can be read. -/
def labelled (version : String) : Bytes :=
  let label := Bytes.ofText version
  Image.magic :: List.replicate 31 0 ++ Bytes.ofWord32 Image.descriptorMagic ++
    List.replicate 12 0 ++ label ++ List.replicate (240 - label.length) 0

/-- A client sends an image of one chunk, and its task takes `n` steps then. -/
def offering (chunk : Bytes) (n : Nat) : List Move :=
  List.replicate 4 (.step (.task 1)) ++
    .frame ⟨1, 1⟩ (Request.state true chunk).encode :: List.replicate n (.step (.task 1))

/-- A device that runs version 0.1.0 takes an image of another version, and turns down one of its
own. -/
theorem version_gate_factory :
    let d := fresh .default .factory
    let policy : SessionFlags := ⟨false, false, true⟩
    let m := Move.frame ⟨1, 1⟩ (Request.start 288 0 policy).encode
    (d.move m).sessions = d.sessions + 1 ∧
      (∃ front back, offering (labelled "0.2.0") 14 = front ++ .step (.task 1) :: back ∧
        (d.move m).Vouches 1 policy front) ∧
      ((d.move m).run (offering (labelled "0.1.0") 6)).TurnedAway 1 ⟨1, 1⟩ 288 .sameVersion 2 := by
  intro d policy m
  have counted : (d.move m).sessions = d.sessions + 1 := by decide
  have gate := version_gate .default .factory [] ⟨1, 1⟩ _ (Request.decode_encode _) (.inr rfl)
    counted
  refine ⟨counted, ?_, ?_⟩
  · obtain ⟨front, back, split, -, vouches⟩ :=
      (gate (offering (labelled "0.2.0") 14)).completes 288 (by decide +kernel)
    exact ⟨front, back, split, vouches⟩
  · refine (gate (offering (labelled "0.1.0") 6)).refuses (offering (labelled "0.1.0") 3)
      [.step (.task 1), .step (.task 1)] (labelled "0.1.0") .sameVersion rfl ?_
    have vets : ((d.move m).run (offering (labelled "0.1.0") 3)).task
        = some ⟨.vetting (labelled "0.1.0") true, true, false⟩ := by decide +kernel
    exact ⟨⟨_, true, ⟨by decide +kernel, vets⟩, rfl, rfl⟩, by decide +kernel, by decide +kernel,
      by decide +kernel, by decide +kernel⟩

end Device

end OverTheAir
