import OverTheAir.Proofs.Exclusion
import OverTheAir.Proofs.Farewell

/-!
# Proofs/Reason — which reason an aborted session reports

The record of a session keeps the first reason for its abort, but the task need not report that one.
It looks for an abort in some places only, and what goes wrong before it looks again brings a reason
of its own: a `begin` or a `write` that fails, and a chunk that the version policy bars.  So does a
cleanup that was under way before the abort was recorded.

* `reason_of_aborted` — the reason that is reported, for every place where the task can be when the
  abort is recorded (`Device.reported`).
* `reason_overridden` — a run that reports another reason than the recorded one.
-/

namespace OverTheAir

/-- What the flash answers. -/
def Effect.answer? : Effect → Option FlashResult
  | .flash _ r => some r
  | _ => none

/-- The first answer of the flash among some deeds. -/
def firstAnswer? (es : List Effect) : Option FlashResult := es.findSome? Effect.answer?

theorem firstAnswer?_append (es es' : List Effect) :
    firstAnswer? (es ++ es') = (firstAnswer? es).or (firstAnswer? es') := List.findSome?_append

namespace Device

open Journal

variable {d d' : Device} {t : SessionTask} {recorded : AbortReason} {answer : Option FlashResult}

/-- The reason that comes of opening the partition. -/
def openReason (recorded : AbortReason) : Option FlashResult → AbortReason
  | some (.error e) => beginReason e
  | _ => recorded

/-- The reason that comes of a write. -/
def writeReason (recorded : AbortReason) : Option FlashResult → AbortReason
  | some (.error _) => .writeFailed
  | _ => recorded

/-- The reason that comes of a chunk to which the version policy is applied. -/
def vetReason (d : Device) (chunk : Bytes) (recorded : AbortReason) (answer : Option FlashResult) :
    AbortReason :=
  match d.policyCheck chunk with
  | .ok _ => writeReason recorded answer
  | .error reason => reason

/-- The reason that a task reports when `recorded` is on record, and what the flash answers next. -/
def reported (d : Device) (t : SessionTask) (recorded : AbortReason)
    (answer : Option FlashResult) : AbortReason :=
  match t.stage with
  | .launched | .beginning => openReason recorded answer
  | .measuring chunk _ =>
    if d.session.fits? chunk.length = some true then
      if t.versionChecked then writeReason recorded answer else d.vetReason chunk recorded answer
    else recorded
  | .vetting chunk _ => d.vetReason chunk recorded answer
  | .writing _ _ => writeReason recorded answer
  | .aborting reason => reason
  | .leaving (.aborted reason) => reason
  | _ => recorded

/-- What is reported depends on the record of the session and the images that are installed. -/
theorem reported_congr (session : d'.session = d.session)
    (versions : d'.firmware.running = d.firmware.running ∧
      d'.firmware.lastInvalid = d.firmware.lastInvalid) :
    d'.reported t recorded answer = d.reported t recorded answer := by
  have policy : d'.policyCheck = d.policyCheck := by
    funext chunk
    rw [policyCheck, policyCheck, session, versions.1, versions.2]
  rw [reported, reported, session]
  simp only [vetReason, policy]

theorem reported_next (d : Device) (t : SessionTask) (recorded : AbortReason)
    (answer : Option FlashResult) :
    ∀ isEnd, d.reported { t with stage := .next isEnd } recorded answer = recorded
  | false => rfl
  | true => rfl

theorem reported_of_looks (looks : t.stage.looksForAbort = true) :
    d.reported t recorded answer = recorded := by
  rw [reported]
  match t.stage, looks with
  | .begun, _ => rfl
  | .holding _, _ => rfl
  | .written _ _, _ => rfl
  | .ending, _ => rfl

/-- **The answer to the call at hand settles the reason**, while a transfer goes on. -/
theorem reported_after {total maxChunk : UInt32} {f : Flash} {call : FlashCall}
    (stands : t.stage.Stands d.session f maxChunk) (inTransfer : d.session.InTransfer)
    (calls : t.stage.call? total = some call) (r : FlashResult) :
    d.reported { t with stage := t.stage.after r } recorded answer
      = d.reported t recorded (some r) := by
  obtain ⟨hs, -⟩ | ⟨chunk, isEnd, hs, -⟩ | ⟨hs, -⟩ | ⟨hs, -⟩ | ⟨reason, hs, -⟩ :=
    Stage.call?_cases calls <;> rw [hs] at stands <;> rw [reported, reported, hs]
  · rcases r with e | ⟨⟩ <;> rfl
  · rcases r with e | ⟨⟩ <;> rfl
  · exact absurd stands.1.state inTransfer.ne_finalizing
  · exact absurd stands.1.state inTransfer.ne_finalizing
  · rfl

/-- How the task of an aborted session goes on, doing `es`: it dies, it leaves with the reason that
its stage reports, or it comes to a stage that reports the same. -/
inductive Follows (d : Device) (t : SessionTask) (recorded : AbortReason) (es : List Effect)
    (d' : Device) : Prop where
  | died {point} (h : .died point ∈ es)
  | left (h : ∀ answer,
      .event (.aborted (d.reported t recorded answer) d.session.received) ∈ es)
  | on {t' : SessionTask} (live' : d'.task = some t') (session : d'.session = d.session)
      (sessions : d'.sessions = d.sessions)
      (reports : ∀ answer, d'.reported t' recorded answer
        = d.reported t recorded ((firstAnswer? es).or answer))

/-- A task that does nothing but go on follows its stage, if the next one reports the same. -/
theorem follows_goto {d₁ : Device} {t' : SessionTask} {s s' : Stage} (hs : t.stage = s)
    (journal : d₁.journal = d.journal) (session : d₁.session = d.session)
    (sessions : d₁.sessions = d.sessions) (firmware : d₁.firmware = d.firmware)
    (reports : ∀ answer, d.reported { t' with stage := s' } recorded answer
      = d.reported { t with stage := s } recorded answer) : ∃ es : List Effect,
    (d₁.goto t' s').journal = d.journal ++ es.map (Entry.mk d.taskActor) ∧
      d.Follows t recorded es (d₁.goto t' s') := by
  subst hs
  refine ⟨[], journal.trans (List.append_nil _).symm, .on rfl session sessions fun answer => ?_⟩
  have same : (d₁.goto t' s').firmware = d.firmware := firmware
  exact (reported_congr session ⟨congrArg _ same, congrArg _ same⟩).trans (reports answer)

/-- So does one that tells somebody something on its way. -/
theorem follows_note {t' : SessionTask} {s s' : Stage} (e : Effect) (hs : t.stage = s)
    (silent : e.answer? = none)
    (reports : ∀ answer, d.reported { t' with stage := s' } recorded answer
      = d.reported { t with stage := s } recorded answer) : ∃ es : List Effect,
    ((d.note d.taskActor e).goto t' s').journal = d.journal ++ es.map (Entry.mk d.taskActor) ∧
      d.Follows t recorded es ((d.note d.taskActor e).goto t' s') := by
  subst hs
  refine ⟨[e], rfl, .on rfl rfl rfl fun answer => ?_⟩
  rw [firstAnswer?, List.findSome?_cons, silent]
  exact reports answer

/-- A step of the task follows its stage. -/
theorem Advanced.follows (sound : d.Sound) (live : d.task = some t)
    (aborted : d.session.state = .aborted recorded) (hm : Advanced d t d') : ∃ es : List Effect,
    d'.journal = d.journal ++ es.map (Entry.mk d.taskActor) ∧ d.Follows t recorded es d' := by
  have inTransfer : d.session.InTransfer := .inr ⟨recorded, aborted⟩
  have pending : d.session.pendingAbort = some recorded :=
    Session.pendingAbort_eq_some_iff.mpr aborted
  have notFinal : ¬d.session.Finalizes := fun h => inTransfer.ne_finalizing h.state
  -- the guards that find no abort are not passed
  have looks : d.session.pendingAbort ≠ none := by simp [pending]
  cases hm with
  | equipped hs => exact follows_goto hs rfl rfl rfl rfl fun _ => rfl
  | unequipped hs parked =>
    simp [(sound.standing t live).launched.mpr hs] at parked
  | @died call _ calls => exact ⟨[.died call.point], rfl, .died List.mem_cons_self⟩
  | @called call r flash faults calls answer =>
    refine ⟨[.flash call r], rfl, .on rfl rfl rfl fun answer => ?_⟩
    exact reported_after (d := d) (sound.standing t live).stands inTransfer calls r
  | bailed looks' aborted' =>
    obtain rfl := SessionState.aborted.inj (aborted.symm.trans aborted')
    exact follows_goto rfl rfl rfl rfl rfl fun answer => (reported_of_looks looks').symm
  | greeted hs notAborted => exact absurd notAborted looks
  | told reached hs => exact follows_note _ hs rfl fun answer => d.reported_next t recorded answer _
  | untold hs =>
    exact follows_goto hs rfl rfl rfl rfl fun answer => d.reported_next t recorded answer _
  | took hs => exact follows_goto hs rfl rfl rfl rfl fun _ => rfl
  | orphaned reason hs inbox =>
    obtain ⟨queue, hqueue⟩ := (sound.busy (sound.ne_idle live)).inbox
    cases hqueue.symm.trans inbox
  | waitedOut hs => exact follows_goto hs rfl rfl rfl rfl fun _ => rfl
  | timedOut hs =>
    rw [Session.markAborted_of_aborted aborted, pending]
    exact follows_goto hs rfl rfl rfl rfl fun _ => rfl
  | woke hs notAborted => exact absurd notAborted looks
  | skipped hs notAborted => exact absurd notAborted looks
  | looked hs notAborted => exact absurd notAborted looks
  | overran hs overruns =>
    refine follows_goto hs rfl rfl rfl rfl fun _ => ?_
    simp [reported, overruns]
  | unvetted hs fits unchecked =>
    refine follows_goto hs rfl rfl rfl rfl fun _ => ?_
    simp [reported, fits, unchecked]
  | fitted hs fits checked =>
    refine follows_goto hs rfl rfl rfl rfl fun _ => ?_
    simp [reported, fits, checked]
  | barred hs barred =>
    refine follows_goto hs rfl rfl rfl rfl fun _ => ?_
    simp [reported, vetReason, barred]
  | admitted hs admitted =>
    refine follows_goto hs rfl rfl rfl rfl fun _ => ?_
    simp [reported, vetReason, admitted]
  | miscounted miscounts => exact absurd miscounts (sound.not_miscounts live)
  | accounted hs notAborted => exact absurd notAborted looks
  | progressed hs => exact follows_note _ hs rfl fun _ => rfl
  | filled hs => exact follows_note _ hs rfl fun answer => d.reported_next t recorded answer _
  | finalizing hs notAborted => exact absurd notAborted looks
  | cutShort hs notAborted => exact absurd notAborted looks
  | @left outcome hs =>
    rcases outcome with _ | reason
    · exact absurd (sound.stands live hs).1 notFinal
    · refine ⟨[.event (.aborted reason d.session.received)], rfl, .left fun answer => ?_⟩
      rw [reported, hs]
      exact List.mem_singleton_self _

/-- What the task of the session does at a move. -/
def taskDoes (d : Device) (m : Move) : List Effect :=
  if m.actor = d.taskActor then d.does m else []

/-- **Whatever happens, the task of an aborted session follows its stage.** -/
theorem follows_move (sound : d.Sound) (live : d.task = some t)
    (aborted : d.session.state = .aborted recorded) (m : Move) :
    d.Follows t recorded (d.taskDoes m) (d.move m) := by
  obtain ⟨owner, bound⟩ := (sound.busy (sound.ne_idle live)).bound
  have versions := (d.moved m).versions (by simp [bound])
  -- a move of others that leaves the session and the task as they are
  have apart : d.taskDoes m = [] → (d.move m).task = some t → (d.move m).session = d.session →
      (d.move m).sessions = d.sessions → d.Follows t recorded (d.taskDoes m) (d.move m) := by
    intro silent live' session sessions
    rw [silent]
    exact .on live' session sessions fun answer => reported_congr session versions
  have handler : m.actor = .handler → d.taskDoes m = [] := by
    intro hm
    rw [taskDoes, hm]
    exact if_neg nofun
  have hm := d.moved m
  generalize hd' : d.move m = d' at hm apart
  cases hm with
  | handled hm =>
    have silent := handler hm.journal.1
    cases hm with
    | opened decodes unbound idle => cases idle.symm.trans aborted
    | unopened reached decodes unbound idle => cases idle.symm.trans aborted
    | recorded reason byOwner owner receiving => cases receiving.symm.trans aborted
    | _ => exact apart silent live rfl rfl
  | @advanced t' _ live' hm =>
    obtain rfl := Option.some.inj (live.symm.trans live')
    obtain ⟨es, hjournal, follows⟩ := hm.follows sound live aborted
    have hes : d.taskDoes (.step d.taskActor) = es := by
      rw [taskDoes, does_eq (hd' ▸ hjournal)]
      exact if_pos rfl
    rw [hes]
    exact follows
  | performed other hm =>
    have silent : d.taskDoes (.step _) = [] := if_neg (other (live ▸ rfl))
    obtain ⟨effect, takes, does⟩ := hm
    exact apart silent live rfl rfl
  | stuck =>
    refine apart ?_ live rfl rfl
    rw [taskDoes, does_eq_nil (congrArg Device.journal hd'), ite_self]
  | @waited t' waited ms live' hs =>
    obtain rfl := Option.some.inj (live.symm.trans live')
    rw [handler rfl]
    refine .on rfl rfl rfl fun answer => ?_
    rw [reported, reported, hs]
  | passed => exact apart (handler rfl) live rfl rfl
  | @around m faults spawnFails unreachable pendingVerify outside still =>
    exact apart (handler (Move.actor_of_not_step still)) live rfl rfl

theorem doings_cons {m : Move} (same : (d.move m).sessions = d.sessions) (ms : List Move) :
    d.doings d.taskActor (m :: ms)
      = d.taskDoes m ++ (d.move m).doings (d.move m).taskActor ms := by
  have hactor : (d.move m).taskActor = d.taskActor := congrArg Actor.task same
  rw [hactor]
  rfl

/-- **The task of an aborted session reports the reason that its stage leads to**, unless it dies
or is still on its way. -/
theorem reports_run (sound : d.Sound) (live : d.task = some t)
    (aborted : d.session.state = .aborted recorded) (ms : List Move) :
    (∃ point, .died point ∈ d.doings d.taskActor ms) ∨
    ((d.run ms).sessions = d.sessions ∧ (d.run ms).task.isSome) ∨
    .event (.aborted (d.reported t recorded (firstAnswer? (d.doings d.taskActor ms)))
      d.session.received) ∈ d.doings d.taskActor ms := by
  induction ms generalizing d t with
  | nil => exact .inr (.inl ⟨rfl, live ▸ rfl⟩)
  | cons m ms ih =>
    obtain ⟨same, -⟩ := Settled.moved (.inr ⟨recorded, aborted⟩) sound (d.moved m)
    rw [doings_cons same]
    obtain h | h | ⟨live', session, sessions, reports⟩ := follows_move sound live aborted m
    · exact .inl ⟨_, List.mem_append_left _ h⟩
    · exact .inr (.inr (List.mem_append_left _ (h _)))
    · have hrest := ih (sound.moved (d.moved m)) live' (session ▸ aborted)
      rw [run_cons, firstAnswer?_append, ← reports, ← session, ← sessions]
      refine hrest.imp ?_ (Or.imp id fun h => List.mem_append_right _ h)
      rintro ⟨point, h⟩
      exact ⟨point, List.mem_append_right _ h⟩

/-- **The reason that an aborted session reports.**  When an abort is on record, and the session
comes to its end without its task dying, the event and the frame to the owner carry the reason that
the stage of the task leads to: the recorded one, unless the `begin` or the `write` at hand fails,
the version policy that is about to be applied bars the chunk, or the task was cleaning up for
another reason.  The byte count is the one of the record. -/
theorem reason_of_aborted (config : Config) (firmware : Firmware) (front back : List Move)
    {recorded : AbortReason}
    (aborted : ((fresh config firmware).run front).session.state = .aborted recorded)
    (ended : (((fresh config firmware).run front).run back).HasEnded
      ((fresh config firmware).run front).sessions)
    (survived : ∀ point, .died point ∉ deeds ((fresh config firmware).run front).taskActor
      (((fresh config firmware).run front).run back).journal) :
    let d := (fresh config firmware).run front
    let es := deeds d.taskActor (d.run back).journal
    ∃ t owner, d.task = some t ∧ d.registry.owner = some owner ∧
      let reason := d.reported t recorded (firstAnswer? (d.doings d.taskActor back))
      es.filterMap Effect.verdict? = [.aborted reason d.session.received] ∧
      partings d.session.total es = (Outcome.aborted reason).parting owner d.session.total := by
  intro d es
  obtain ⟨sound, chronicle⟩ : d.Sound ∧ d.Chronicle := chronicle_run config firmware front
  have busy : d.session.state ≠ .idle := Settled.ne_idle (.inr ⟨recorded, aborted⟩)
  have grown : es = deeds d.taskActor d.journal ++ d.doings d.taskActor back :=
    deeds_run d.taskActor d back
  have before : ∀ {e}, e ∈ deeds d.taskActor d.journal → e ∈ es := fun h => by
    rw [grown]
    exact List.mem_append_left _ h
  have after : ∀ {e}, e ∈ d.doings d.taskActor back → e ∈ es := fun h => by
    rw [grown]
    exact List.mem_append_right _ h
  obtain ⟨owner, howner, opened⟩ := chronicle.current busy
  -- a task that is dead has its death on record
  obtain ⟨t, live⟩ : ∃ t, d.task = some t := by
    refine Option.ne_none_iff_exists'.mp fun lost => ?_
    obtain ⟨body, point, hdeeds, -⟩ := chronicle.dead owner busy lost howner
    refine survived point (before ?_)
    rw [hdeeds]
    exact List.mem_append_right _ (List.mem_singleton_self _)
  refine ⟨t, owner, live, howner, ?_⟩
  intro reason
  have hevent : .event (.aborted reason d.session.received) ∈ es := by
    obtain ⟨point, h⟩ | ⟨same, alive⟩ | h := reports_run sound live aborted back
    · exact absurd (after h) (survived point)
    · exact absurd same.symm (ended.1 alive)
    · exact after h
  have past : Past owner d.session.total es [] :=
    (chronicle.run sound back).past_of_hasEnded (opening?_run opened back) ended survived
  obtain ⟨outcome, received, hverdict, hparts⟩ := past.parts
  have hmem : .aborted reason d.session.received ∈ es.filterMap Effect.verdict? :=
    List.mem_filterMap.mpr ⟨_, hevent, rfl⟩
  rw [hverdict, List.mem_singleton] at hmem
  match outcome, hmem with
  | .aborted reason', hmem =>
    obtain ⟨hreason, hreceived⟩ := Event.aborted.inj hmem
    rw [hreason, hreceived]
    exact ⟨hverdict, hparts⟩

/-- A client that gives its upload up while the chunk is being written. -/
def giveUp : List Move := brief 3 ++ [.frame ⟨1, 1⟩ Request.abort.encode]

/-- The write at hand fails, and the task goes on to its end. -/
def failWrite : List Move :=
  .fault ⟨.write, 0, .failure (.write 5)⟩ :: List.replicate 4 (.step (.task 1))

theorem reason_of_aborted_late :
    let d := (fresh .default .unknown).run giveUp
    let es := deeds (.task 1) (d.run failWrite).journal
    d.session.state = .aborted .userRequest ∧
      es.filterMap Effect.verdict? = [.aborted .writeFailed 0] ∧
      partings 2 es = [.tell ⟨1, 1⟩ (.abort .writeFailed)] := by
  intro d es
  have aborted : d.session.state = .aborted .userRequest := by decide
  have writing : d.task = some ⟨.writing [7, 8] true, true, true⟩ := by decide
  have bound : d.registry.owner = some ⟨1, 1⟩ := by decide
  have answer : firstAnswer? (d.doings d.taskActor failWrite) = some (.error (.write 5)) := by
    decide
  obtain ⟨t, owner, live, howner, hverdict, hparts⟩ := reason_of_aborted .default .unknown
    giveUp failWrite aborted (by decide) (by rintro ⟨⟩ <;> decide)
  obtain rfl := Option.some.inj (writing.symm.trans live)
  obtain rfl := Option.some.inj (bound.symm.trans howner)
  rw [answer] at hverdict hparts
  exact ⟨aborted, hverdict, hparts⟩

/-- **The recorded reason does not always win.** -/
theorem reason_overridden : ¬∀ (config : Config) (firmware : Firmware) (front back : List Move)
    (recorded : AbortReason), let d := (fresh config firmware).run front
    d.session.state = .aborted recorded → (d.run back).HasEnded d.sessions →
      (∀ point, .died point ∉ deeds d.taskActor (d.run back).journal) → ∃ received,
      (deeds d.taskActor (d.run back).journal).filterMap Effect.verdict?
        = [.aborted recorded received] := by
  intro wins
  obtain ⟨received, hverdict⟩ := wins .default .unknown giveUp failWrite .userRequest (by decide)
    (by decide) (by rintro ⟨⟩ <;> decide)
  have overridden : (deeds (.task 1) (((fresh .default .unknown).run giveUp).run failWrite).journal
      ).filterMap Effect.verdict? = [.aborted .writeFailed 0] := by decide
  cases overridden.symm.trans hverdict

/-- An abort that is recorded when a chunk is about to be vetted gives way to the version policy. -/
example :
    let start := (Request.start 2 0 ⟨false, false, true⟩).encode
    let d := (fresh .default .unknown).run (.frame ⟨1, 1⟩ start ::
      List.replicate 4 (.step (.task 1)) ++ .frame ⟨1, 1⟩ (Request.state true [7, 8]).encode ::
      List.replicate 3 (.step (.task 1)) ++ [.frame ⟨1, 1⟩ Request.abort.encode])
    d.task = some ⟨.vetting [7, 8] true, true, false⟩ ∧
      d.session.state = .aborted .userRequest ∧
      (deeds (.task 1) (d.run (List.replicate 3 (.step (.task 1)))).journal).filterMap
        Effect.verdict? = [.aborted .invalidVersion 0] := by decide

end Device

end OverTheAir
