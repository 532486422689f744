import OverTheAir.Proofs.Order

/-!
# Proofs/Departure — what an owner is still sent when it has gone

When the owner of a session goes, a transfer is aborted without a word; a session that is being
finalized, or is aborted already, takes no notice.  In each case the record is settled, and from
then on the task sends its owner no more than the frame it has at hand (`Device.atHand`) and the
last frame of the session (`Settled.frames_run`).  An earlier session of the same client may have
its last frame left to send, and no later one is the client's unless it asks for it.

* `departed_owner` — that is all, until the client sends something.
* `departed_owner_told` — a run where the client is sent something.
-/

namespace OverTheAir

/-- The frame that a task at a stage is about to send, whether or not an abort is recorded. -/
def Stage.atHand (s : Session) : Stage → List Response
  | .measuring chunk _ => if s.fits? chunk.length = some false then [.error .packetSize] else []
  | .reporting frame _ => [frame]
  | .counted received requested _ => if received < s.total then [.state received requested] else []
  | _ => []

theorem Stage.atHand_next (s : Session) : ∀ isEnd, (next isEnd).atHand s = []
  | false => rfl
  | true => rfl

/-- What is at hand depends on the counts of the session. -/
theorem Stage.atHand_state (s : Session) (state : SessionState) (stage : Stage) :
    stage.atHand { s with state } = stage.atHand s := by
  cases stage <;> rfl

/-- Neither before a call nor after it is there a frame at hand. -/
theorem Stage.atHand_of_call? {s : Stage} {total : UInt32} {call : FlashCall} (session : Session)
    (calls : s.call? total = some call) (r : FlashResult) :
    s.atHand session = [] ∧ (s.after r).atHand session = [] := by
  cases s <;> simp only [call?, reduceCtorEq] at calls <;> rcases r with e | ⟨⟩ <;>
    exact ⟨rfl, rfl⟩

theorem Stage.atHand_of_looks {s : Stage} (looks : s.looksForAbort = true) (session : Session) :
    s.atHand session = [] := by
  match s, looks with
  | .begun, _ => rfl
  | .holding _, _ => rfl
  | .written _ _, _ => rfl
  | .ending, _ => rfl

namespace Device

open Journal

variable {d d' : Device} {t : SessionTask} {k : Nat} {c owner : Client} {total : UInt32}

/-- The frame that the task of the session has at hand, if there is one. -/
def atHand (d : Device) : List Response :=
  (d.task.map fun t => t.stage.atHand d.session).getD []

theorem atHand_of_task (live : d.task = some t) : d.atHand = t.stage.atHand d.session := by
  rw [atHand, live]
  rfl

/-! ## The session at hand -/

/-- A step of the task of a settled session sends what is at hand, or keeps it at hand. -/
theorem Advanced.atHand (settled : d.Settled) (sound : d.Sound) (live : d.task = some t)
    (bound : d.registry.owner = some c) (hm : Advanced d t d') : ∃ es : List Effect,
    d'.journal = d.journal ++ es.map (Entry.mk d.taskActor) ∧
      framesTo c es ++ d'.atHand = d.atHand := by
  have hnow : d.atHand = t.stage.atHand d.session := atHand_of_task live
  -- the guards that find no abort are not passed
  have transferring : ∀ {n}, d.session.Takes d.flash n → d.session.pendingAbort ≠ none :=
    fun htakes => settled.not_transferring htakes.inTransfer
  -- a task with nothing at hand that comes to a stage without
  have nothing : ∀ {s}, t.stage = s → s.atHand d.session = [] → d'.atHand = [] →
      ∀ es : List Effect, d'.journal = d.journal ++ es.map (Entry.mk d.taskActor) →
      framesTo c es = [] → ∃ es : List Effect,
      d'.journal = d.journal ++ es.map (Entry.mk d.taskActor) ∧
        framesTo c es ++ d'.atHand = d.atHand := by
    intro s hs hbefore hafter es journal silent
    refine ⟨es, journal, ?_⟩
    rw [hnow, hs, hbefore, hafter, silent]
    rfl
  have quiet : d.journal = d.journal ++ [].map (Entry.mk d.taskActor) := (List.append_nil _).symm
  cases hm with
  | equipped hs => exact nothing hs rfl rfl [] quiet rfl
  | unequipped hs => exact nothing hs rfl rfl [] quiet rfl
  | died calls => exact nothing rfl (Stage.atHand_of_call? _ calls (.ok ())).1 rfl [_] rfl rfl
  | @called call r flash faults calls answer =>
    have hcall := Stage.atHand_of_call? d.session calls r
    exact nothing rfl hcall.1 hcall.2 [_] rfl rfl
  | bailed looks => exact nothing rfl (Stage.atHand_of_looks looks _) rfl [] quiet rfl
  | greeted hs notAborted => exact absurd notAborted (transferring (sound.stands live hs).1)
  | @told frame isEnd owner reached hs bound' =>
    obtain rfl := Option.some.inj (bound'.symm.trans bound)
    refine ⟨[_], rfl, ?_⟩
    have hsent : framesTo owner [.sent owner frame reached] = [frame] := by
      simp [framesTo, Effect.frameTo?]
    rw [hnow, hs, hsent]
    exact congrArg (frame :: ·) (Stage.atHand_next _ isEnd)
  | untold hs unbound => cases unbound.symm.trans bound
  | took hs => exact nothing hs rfl rfl [] quiet rfl
  | orphaned _ hs => exact nothing hs rfl rfl [] quiet rfl
  | waitedOut hs => exact nothing hs rfl rfl [] quiet rfl
  | timedOut hs => exact nothing hs rfl rfl [] quiet rfl
  | woke hs notAborted => exact absurd notAborted (transferring (sound.stands live hs))
  | skipped hs notAborted => exact absurd notAborted (transferring (sound.stands live hs))
  | looked hs notAborted => exact absurd notAborted (transferring (sound.stands live hs))
  | overran hs overruns =>
    refine ⟨[], quiet, ?_⟩
    rw [hnow, hs]
    exact (if_pos overruns).symm
  | unvetted hs fits | fitted hs fits =>
    exact nothing hs (if_neg (by simp [fits])) rfl [] quiet rfl
  | barred hs | admitted hs => exact nothing hs rfl rfl [] quiet rfl
  | miscounted miscounts => exact absurd miscounts (sound.not_miscounts live)
  | accounted hs notAborted => exact absurd notAborted (transferring (sound.stands live hs).1)
  | @progressed received requested isEnd hs short =>
    refine ⟨[_], rfl, ?_⟩
    rw [hnow, hs]
    exact (if_pos short).symm
  | @filled received requested isEnd hs full =>
    exact nothing hs (if_neg full) (Stage.atHand_next _ isEnd) [_] rfl rfl
  | finalizing hs notAborted => exact absurd notAborted (transferring (sound.stands live hs))
  | cutShort hs notAborted => exact absurd notAborted (transferring (sound.stands live hs))
  | left hs => exact nothing hs rfl rfl _ (journal_leave ..) rfl

/-- **Of a settled session only what is at hand is sent**, until the task leaves. -/
theorem Settled.atHand_move (settled : d.Settled) (sound : d.Sound) (chronicle : d.Chronicle)
    (bound : d.registry.owner = some c) (m : Move) :
    framesTo c (d.taskDoes m) ++ (d.move m).atHand = d.atHand := by
  -- what others do leaves the task and the size of the session as they are
  have others : m.actor ≠ d.taskActor → (d.move m).atHand = d.atHand →
      framesTo c (d.taskDoes m) ++ (d.move m).atHand = d.atHand := by
    intro hne hsame
    rw [taskDoes, if_neg hne, hsame]
    rfl
  have hm := d.moved m
  generalize hd' : d.move m = d' at hm others
  cases hm with
  | handled hm =>
    have apart : m.actor ≠ d.taskActor := by
      rw [hm.journal.1]
      exact fun h => by cases h
    refine others apart ?_
    cases hm with
    | opened decodes unbound idle => exact absurd idle settled.ne_idle
    | unopened reached decodes unbound idle => exact absurd idle settled.ne_idle
    | recorded reason byOwner owner receiving => exact absurd receiving settled.ne_receiving
    | _ => rfl
  | advanced live hm =>
    obtain ⟨es, hjournal, hframes⟩ := hm.atHand settled sound live bound
    have hdoes : d.taskDoes (.step d.taskActor) = es :=
      (if_pos rfl).trans (does_eq (hd' ▸ hjournal))
    rwa [hdoes]
  | performed other hm =>
    obtain ⟨effect, takes, does⟩ := hm
    refine others ?_ rfl
    rintro rfl
    have hself := (dutiesOf_takeDuty takes).1
    cases (chronicle.undue d.sessions (not_isPast settled.ne_idle)).symm.trans hself
  | stuck =>
    rw [taskDoes, does_eq_nil (congrArg Device.journal hd'), ite_self]
    rfl
  | waited ms live hs =>
    refine others (fun h => by cases h) ?_
    rw [atHand_of_task live, hs]
    rfl
  | passed => exact others (fun h => by cases h) rfl
  | around _ _ _ _ outside still =>
    refine others ?_ rfl
    rw [Move.actor_of_not_step still]
    exact fun h => by cases h

/-- **A session ends when its task leaves it**, and not otherwise. -/
theorem Moved.leaves {m : Move} (hm : Moved d m d') (sound : d.Sound)
    (busy : d.session.state ≠ .idle) (idle : d'.session.state = .idle) : ∃ t outcome,
    d.task = some t ∧ t.stage = .leaving outcome ∧ m = .step d.taskActor ∧
      d' = d.leave t outcome := by
  have sound' := sound.moved hm
  cases hm with
  | handled hm =>
    cases hm with
    | opened | recorded => cases idle
    | unopened reached decodes unbound wasIdle => exact absurd wasIdle busy
    | _ => exact absurd idle busy
  | @advanced t _ live hm =>
    cases hm with
    | @left outcome hs => exact ⟨t, outcome, live, hs, rfl, rfl⟩
    | died => exact absurd idle busy
    | miscounted miscounts => exact absurd miscounts (sound.not_miscounts live)
    | _ => exact absurd idle (sound'.ne_idle rfl)
  | performed other hm =>
    obtain ⟨_, _, _⟩ := hm
    exact absurd idle busy
  | _ => exact absurd idle busy

/-- What a task that leaves has left to say is how its session ended. -/
theorem Chronicle.unsent_leave (h : d.Chronicle) (busy : d.session.state ≠ .idle)
    (bound : d.registry.owner = some c) (outcome : Outcome) :
    (d.leave t outcome).unsent d.sessions c = outcome.lastFrames d.session.total := by
  have none : dutiesOf (.task d.sessions) d.errands = [] := h.undue _ (not_isPast busy)
  rw [unsent, dutiesOf_leave, none, bound, taskActor, if_pos rfl]
  exact frames_of_farewell ..

/-- As long as a session is on, it has the owner that it was opened for. -/
theorem Chronicle.bound_move (h : d.Chronicle) (sound : d.Sound) (busy : d.session.state ≠ .idle)
    (bound : d.registry.owner = some c) {m : Move} (counted : (d.move m).sessions = d.sessions)
    (busy' : (d.move m).session.state ≠ .idle) : (d.move m).registry.owner = some c := by
  obtain ⟨owner, howner, opened⟩ := h.current busy
  obtain ⟨owner', howner', opened'⟩ := (h.moved sound (d.moved m)).current busy'
  obtain rfl : owner = c := Option.some.inj (howner.symm.trans bound)
  rw [counted] at opened'
  have same := Option.some.inj ((opening?_run opened [m]).symm.trans opened')
  rw [howner', ← (Prod.mk.inj same).1]

/-- **A task that leaves has its last frame left to send.** -/
theorem Chronicle.frames_of_leaving {m : Move} (h : d.Chronicle) (sound : d.Sound)
    (busy : d.session.state ≠ .idle) (bound : d.registry.owner = some c)
    (idle : (d.move m).session.state = .idle) (ms : List Move) : ∃ outcome : Outcome,
    ((d.move m).run ms).IsPast d.sessions ∧
    .event (outcome.verdict d.session.total d.session.received) ∈ d.doings d.taskActor (m :: ms) ∧
    framesTo c (d.doings d.taskActor (m :: ms)) ++ ((d.move m).run ms).unsent d.sessions c
      = d.atHand ++ outcome.lastFrames d.session.total := by
  obtain ⟨t, outcome, live, hs, rfl, hleave⟩ := (d.moved m).leaves sound busy idle
  have sound' := sound.moved (d.moved (.step d.taskActor))
  have counted : (d.move (.step d.taskActor)).sessions = d.sessions := by
    rw [hleave]
    rfl
  have hpast : (d.move (.step d.taskActor)).IsPast d.sessions := .inr ⟨counted.symm, idle⟩
  have hverdict : d.taskDoes (.step d.taskActor)
      = [.event (outcome.verdict d.session.total d.session.received)] :=
    (if_pos rfl).trans (does_eq (hleave ▸ journal_leave d t outcome))
  have hunsent : (d.move (.step d.taskActor)).unsent d.sessions c
      = outcome.lastFrames d.session.total := by
    rw [hleave]
    exact h.unsent_leave busy bound outcome
  have hnothing : d.atHand = [] := by
    rw [atHand_of_task live, hs]
    rfl
  have hactor : (d.move (.step d.taskActor)).taskActor = .task d.sessions :=
    congrArg Actor.task counted
  refine ⟨outcome, hpast.run sound' ms, ?_, ?_⟩
  · rw [doings_cons counted, hverdict]
    exact List.mem_cons_self
  · rw [doings_cons counted, hverdict, hnothing, hactor]
    exact (hpast.unsent_run sound' c ms).trans hunsent

/-- **Of a settled session the owner is sent what is at hand and how it ended.**  As long as the
session is on, something may be at hand still; once it is past, something may be left to send. -/
theorem Settled.frames_run (settled : d.Settled) (sound : d.Sound) (chronicle : d.Chronicle)
    (bound : d.registry.owner = some c) (ms : List Move) :
    framesTo c (d.doings d.taskActor ms) ++ (d.run ms).atHand = d.atHand ∨
    ∃ outcome : Outcome, (d.run ms).IsPast d.sessions ∧
      .event (outcome.verdict d.session.total d.session.received) ∈ d.doings d.taskActor ms ∧
      framesTo c (d.doings d.taskActor ms) ++ (d.run ms).unsent d.sessions c
        = d.atHand ++ outcome.lastFrames d.session.total := by
  induction ms generalizing d with
  | nil => exact .inl rfl
  | cons m ms ih =>
    have hm := d.moved m
    obtain ⟨counted, hsame | hidle⟩ := settled.moved sound hm
    · have settled' : (d.move m).Settled := by
        rw [Settled, hsame]
        exact settled
      have bound' := chronicle.bound_move sound settled.ne_idle bound counted settled'.ne_idle
      have hlater := ih settled' (sound.moved hm) (chronicle.moved sound hm) bound'
      rw [counted, hsame] at hlater
      have hnow := settled.atHand_move sound chronicle bound m
      rw [doings_cons counted, framesTo_append, List.append_assoc, ← hnow, List.append_assoc]
      refine hlater.imp (congrArg (_ ++ ·)) ?_
      rintro ⟨outcome, hpast, hverdict, hframes⟩
      refine ⟨outcome, hpast, List.mem_append_right _ hverdict, ?_⟩
      rw [List.append_assoc, ← hframes]
      rfl
    · exact .inr (chronicle.frames_of_leaving sound settled.ne_idle bound hidle ms)

/-- A session that is past has one verdict, and its task did not die. -/
theorem Past.verdict_eq {es : List Effect} {left : List Duty} (h : Past owner total es left)
    {e e' : Effect} {verdict verdict' : Event} (he : e ∈ es) (hv : e.verdict? = some verdict)
    (he' : e' ∈ es) (hv' : e'.verdict? = some verdict') : verdict = verdict' := by
  obtain ⟨outcome, received, working, said, hone, -⟩ := h.frames
  have hmem : verdict ∈ es.filterMap Effect.verdict? := List.mem_filterMap.mpr ⟨e, he, hv⟩
  have hmem' : verdict' ∈ es.filterMap Effect.verdict? := List.mem_filterMap.mpr ⟨e', he', hv'⟩
  rw [hone, List.mem_singleton] at hmem hmem'
  rw [hmem, hmem']

theorem Past.survived {es : List Effect} {left : List Duty} (h : Past owner total es left)
    (point : Point) : .died point ∉ es := by
  obtain ⟨body, done, outcome, received, flags, rfl, work, closes, duties⟩ := h
  intro he
  rcases List.mem_append.mp he with he | he
  · exact work _ he
  rcases List.mem_cons.mp he with he | he
  · cases he
  · obtain ⟨duty, -, heq⟩ := duty_of_done duties he
    cases heq

/-- **A session that is past was aborted for the reason that its task was led to report.** -/
theorem outcome_of_aborted {recorded : AbortReason} {outcome : Outcome} {received : UInt32}
    {ms : List Move} (sound : d.Sound) (chronicle : d.Chronicle)
    (aborted : d.session.state = .aborted recorded) (hpast : (d.run ms).IsPast d.sessions)
    (hverdict : .event (outcome.verdict total received) ∈ d.doings d.taskActor ms) :
    ∃ t, d.task = some t ∧
      outcome = .aborted (d.reported t recorded (firstAnswer? (d.doings d.taskActor ms))) := by
  have busy : d.session.state ≠ .idle := Settled.ne_idle (.inr ⟨recorded, aborted⟩)
  obtain ⟨owner, howner, opened⟩ := chronicle.current busy
  have past := (chronicle.run sound ms).past d.sessions owner _ (opening?_run opened ms) hpast
  have grown : deeds (.task d.sessions) (d.run ms).journal
      = deeds d.taskActor d.journal ++ d.doings d.taskActor ms := deeds_run d.taskActor d ms
  rw [grown] at past
  obtain ⟨t, live⟩ : ∃ t, d.task = some t := by
    refine Option.ne_none_iff_exists'.mp fun lost => ?_
    obtain ⟨body, point, hdeeds, -⟩ := chronicle.dead owner busy lost howner
    refine past.survived point (List.mem_append_left _ ?_)
    rw [hdeeds]
    exact List.mem_append_right _ (List.mem_singleton_self _)
  refine ⟨t, live, ?_⟩
  obtain ⟨point, hdied⟩ | ⟨same, alive⟩ | hreports := reports_run sound live aborted ms
  · exact absurd (List.mem_append_right _ hdied) (past.survived point)
  · obtain ⟨t', live'⟩ := Option.isSome_iff_exists.mp alive
    exact absurd (same ▸ hpast) (not_isPast ((sound.run ms).ne_idle live'))
  · have hsame := past.verdict_eq (List.mem_append_right _ hverdict) (outcome.verdict?_verdict ..)
      (List.mem_append_right _ hreports) rfl
    rcases outcome with _ | reason
    · cases hsame
    · rw [(Event.aborted.inj hsame).1]

/-- **Of a settled session the owner is sent no more than what is at hand and one last frame**, and
no last frame if it is gone and the task is led to report that. -/
theorem Settled.frames_prefix (settled : d.Settled) (sound : d.Sound) (chronicle : d.Chronicle)
    (bound : d.registry.owner = some c) (ms : List Move) : ∃ outcome : Outcome,
    framesTo c (d.doings d.taskActor ms) <+: d.atHand ++ outcome.lastFrames d.session.total ∧
    ∀ r, d.session.state = .aborted r →
      (∀ t, d.task = some t → d.reported t r (firstAnswer? (d.doings d.taskActor ms)) = r) →
      outcome = .aborted r := by
  obtain hframes | ⟨outcome, hpast, hverdict, hframes⟩ :=
    settled.frames_run sound chronicle bound ms
  · obtain ⟨outcome, houtcome⟩ : ∃ outcome : Outcome, ∀ r, d.session.state = .aborted r →
        outcome = .aborted r := by
      rcases d.session.state with _ | _ | _ | r
      case aborted => exact ⟨.aborted r, fun _ h => congrArg _ (SessionState.aborted.inj h)⟩
      all_goals exact ⟨.completed, fun r h => by cases h⟩
    refine ⟨outcome, ?_, fun r aborted _ => houtcome r aborted⟩
    exact List.IsPrefix.trans ⟨_, hframes⟩ (List.prefix_append ..)
  · refine ⟨outcome, ⟨_, hframes⟩, fun r aborted reported => ?_⟩
    obtain ⟨t, live, rfl⟩ := outcome_of_aborted sound chronicle aborted hpast hverdict
    rw [reported t live]

/-! ## Sessions before and behind it -/

/-- The task of a session that is past has nothing left to send, or its owner's last frame. -/
theorem Past.unsent {es : List Effect} {left : List Duty} (h : Past owner total es left)
    (c : Client) : left.filterMap (Duty.frameTo? c) = [] ∨ c = owner ∧
      ∃ outcome : Outcome, left.filterMap (Duty.frameTo? c) = outcome.lastFrames total := by
  by_cases hc : c = owner
  · subst hc
    obtain ⟨outcome, received, working, said, -, -, -, hlast⟩ := h.frames
    rcases said with _ | ⟨frame, said⟩
    · exact .inr ⟨rfl, outcome, hlast⟩
    · have hlen := outcome.length_lastFrames_le total
      rw [← hlast, List.cons_append, List.length_cons, List.length_append] at hlen
      exact .inl (List.eq_nil_of_length_eq_zero (by omega))
  · obtain ⟨body, done, outcome, received, flags, -, -, -, duties⟩ := h
    refine .inl (List.filterMap_eq_nil_iff.mpr fun duty hduty => ?_)
    have hfor : duty.IsFor owner total :=
      (isFor_of_farewell (farewell_eq duties ▸ List.mem_append_right _ hduty)).1
    cases duty with
    | tell c' frame => exact if_neg fun h => hc (h.symm.trans hfor)
    | _ => rfl

/-- A session that is opened later is opened for a client that asks for it. -/
theorem Chronicle.asked_of_later {ms : List Move} (h : d.Chronicle) (sound : d.Sound)
    (later : d.sessions < k) (opened : opening? k (d.run ms).journal = some (owner, total)) :
    ∃ f, .frame owner f ∈ ms := by
  induction ms generalizing d with
  | nil =>
    have hrange := (opening?_range opened).2
    rw [run_nil, h.opened] at hrange
    exact absurd later (Nat.not_lt_of_le hrange)
  | cons m ms ih =>
    have chronicle' := h.moved sound (d.moved m)
    by_cases still : (d.move m).sessions < k
    · obtain ⟨f, hf⟩ := ih chronicle' (sound.moved (d.moved m)) still opened
      exact ⟨f, List.mem_cons_of_mem _ hf⟩
    · obtain ⟨c, f, total', _, _, rfl, -, opens⟩ := (d.moved m).opens (by omega)
      have counted : (d.move (.frame c f)).sessions = d.sessions + 1 := congrArg sessions opens
      have does : d.does (.frame c f) = [.event (.sessionStarted c total')] :=
        does_eq (a := .handler) (congrArg journal opens)
      obtain rfl : k = (d.move (.frame c f)).sessions := by omega
      have opened' := opening?_run (h.opening_of_does counted does) ms
      obtain ⟨rfl, -⟩ := Prod.mk.inj (Option.some.inj (opened'.symm.trans opened))
      exact ⟨f, List.mem_cons_self⟩

/-- The task of a later session sends nothing to a client that does not ask for one. -/
theorem Chronicle.framesTo_later {ms : List Move} (h : d.Chronicle) (sound : d.Sound)
    (later : d.sessions < k) (silent : ∀ f, .frame c f ∉ ms) :
    framesTo c (d.doings (.task k) ms) = [] := by
  have chronicle' : (d.run ms).Chronicle := h.run sound ms
  have grown := deeds_run (.task k) d ms
  rw [h.future k later, List.nil_append] at grown
  rw [← grown]
  by_cases counted : k ≤ (d.run ms).sessions
  · obtain ⟨owner, total, opened⟩ := chronicle'.opened_of_le (Nat.zero_lt_of_lt later) counted
    refine chronicle'.framesTo_stranger opened ?_
    rintro rfl
    obtain ⟨f, hf⟩ := h.asked_of_later sound later opened
    exact silent f hf
  · rw [chronicle'.future k (Nat.lt_of_not_le counted)]
    rfl

/-- What the task of an earlier session has left to send to a client is the last frame of a session
of that client. -/
theorem Chronicle.unsent_earlier (h : d.Chronicle) (proper : d.Proper) (earlier : k < d.sessions)
    (c : Client) : d.unsent k c = [] ∨ ∃ (total : UInt32) (outcome : Outcome),
      opening? k d.journal = some (c, total) ∧ d.unsent k c = outcome.lastFrames total := by
  rcases Nat.eq_zero_or_pos k with rfl | numbered
  · have none : dutiesOf (.task 0) d.errands = [] := by
      refine List.flatMap_eq_nil_iff.mpr fun e he => if_neg fun hactor => ?_
      have hproper := proper.errands e he
      rw [Errand.Proper, hactor] at hproper
      exact Nat.lt_irrefl 0 hproper
    rw [unsent, none]
    exact .inl rfl
  · obtain ⟨owner, total, opened⟩ := h.opened_of_le numbered (Nat.le_of_lt earlier)
    refine ((h.past k owner total opened (.inl earlier)).unsent c).imp id ?_
    rintro ⟨rfl, outcome, hlast⟩
    exact ⟨total, outcome, opened, hlast⟩

/-! ## A client that has gone -/

/-- When its owner goes, a transfer is aborted; any other session stays as it is. -/
theorem move_disconnect (bound : d.registry.owner = some c) : ∃ inbox,
    d.move (.disconnect c) = { d with
      session := { d.session with
        state := if d.session.state = .receiving then .aborted .userDisconnect
          else d.session.state }
      inbox } := by
  change ∃ inbox, d.disconnect c = _
  have owns : d.registry.verify c = true := by simp [Registry.verify, bound]
  rw [disconnect, owns, Bool.true_and, Session.isReceiving]
  by_cases receiving : d.session.state = .receiving
  · have hmark : d.session.markAborted .userDisconnect
        = { d.session with state := .aborted .userDisconnect } :=
      if_pos (by simp [Session.isReceiving, receiving])
    rw [if_pos (by simp [receiving]), if_pos receiving, hmark, wake]
    split
    · exact ⟨_, rfl⟩
    · split <;> exact ⟨_, rfl⟩
  · rw [if_neg (by simp [receiving]), if_neg receiving]
    exact ⟨_, rfl⟩

theorem settled_disconnect (sound : d.Sound) (bound : d.registry.owner = some c) :
    (d.move (.disconnect c)).Settled := by
  obtain ⟨inbox, hmove⟩ := move_disconnect bound
  rw [hmove, Settled]
  rcases hnow : d.session.state with _ | _ | _ | reason
  · cases (sound.resting hnow).unbound.symm.trans bound
  · exact .inr ⟨_, rfl⟩
  · exact .inl rfl
  · exact .inr ⟨_, rfl⟩

/-- **What an owner is still sent when it has gone.**  The transfer that it owns is aborted; a
session that is being finalized, or is aborted already, goes on as it did.  Until the client sends
something,

* the task of its session sends it no more than the frame it has at hand and the last one, and none
  to say that its owner has gone, if that is the reason the task is led to report;
* the task of an earlier session sends it no more than what was left to send, which is one last
  frame of a session that was its own;
* no later session sends it anything. -/
theorem departed_owner (config : Config) (firmware : Firmware) (ms back : List Move)
    (bound : ((fresh config firmware).run ms).registry.owner = some c)
    (silent : ∀ f, .frame c f ∉ back) :
    let d := (fresh config firmware).run ms
    let d' := d.move (.disconnect c)
    (d'.session = { d.session with
      state := if d.session.state = .receiving then .aborted .userDisconnect
        else d.session.state }) ∧
    (∃ outcome : Outcome,
      framesTo c (d'.doings d.taskActor back) <+: d.atHand ++ outcome.lastFrames d.session.total ∧
      ∀ r, d'.session.state = .aborted r →
        (∀ t, d.task = some t →
          d'.reported t r (firstAnswer? (d'.doings d.taskActor back)) = r) →
        outcome = .aborted r) ∧
    (∀ k, k < d.sessions → framesTo c (d'.doings (.task k) back) <+: d.unsent k c ∧
      (d.unsent k c = [] ∨ ∃ (total : UInt32) (outcome : Outcome),
        opening? k d.journal = some (c, total) ∧ d.unsent k c = outcome.lastFrames total)) ∧
    ∀ k, d.sessions < k → framesTo c (d'.doings (.task k) back) = [] := by
  intro d d'
  obtain ⟨sound, chronicle⟩ : d.Sound ∧ d.Chronicle := chronicle_run config firmware ms
  have proper : d.Proper := proper_run config firmware ms
  have sound' : d'.Sound := sound.moved (d.moved _)
  have chronicle' : d'.Chronicle := chronicle.moved sound (d.moved _)
  have settled' : d'.Settled := settled_disconnect sound bound
  obtain ⟨inbox, hd'⟩ : ∃ inbox, d' = _ := move_disconnect bound
  have htask : d'.task = d.task := by rw [hd']
  have hsessions : d'.sessions = d.sessions := by rw [hd']
  have hactor : d'.taskActor = d.taskActor := congrArg Actor.task hsessions
  have htotal : d'.session.total = d.session.total := by rw [hd']
  have hatHand : d'.atHand = d.atHand := by
    rw [atHand, atHand, hd']
    simp only [Stage.atHand_state]
  have hunsent : ∀ k, d'.unsent k c = d.unsent k c := fun k => by
    rw [hd']
    rfl
  refine ⟨by rw [hd'], ?_, fun k hk => ⟨?_, chronicle.unsent_earlier proper hk c⟩, fun k hk => ?_⟩
  · have bound' : d'.registry.owner = some c := by
      rw [hd']
      exact bound
    have hframes := settled'.frames_prefix sound' chronicle' bound' back
    rwa [hactor, hatHand, htotal, htask] at hframes
  · have isPast : d'.IsPast k := .inl (hsessions ▸ hk)
    exact ⟨_, (isPast.unsent_run sound' c back).trans (hunsent k)⟩
  · exact chronicle'.framesTo_later sound' (hsessions ▸ hk) silent

/-- The owner goes while its chunk is written, and is told nothing more. -/
theorem departed_owner_silent :
    let d := (fresh .default .unknown).run (brief 3)
    let back := List.replicate 4 (Move.step (.task 1))
    d.registry.owner = some ⟨1, 1⟩ ∧
      framesTo ⟨1, 1⟩ ((d.move (.disconnect ⟨1, 1⟩)).doings (.task 1) back) = [] := by
  intro d back
  have bound : d.registry.owner = some ⟨1, 1⟩ := by decide
  have silent : ∀ f, .frame ⟨1, 1⟩ f ∉ back := by simp [back]
  obtain ⟨-, ⟨outcome, hframes, houtcome⟩, -⟩ :=
    departed_owner .default .unknown (brief 3) back bound silent
  have reports : ∀ t, d.task = some t → (d.move (.disconnect ⟨1, 1⟩)).reported t .userDisconnect
      (firstAnswer? ((d.move (.disconnect ⟨1, 1⟩)).doings d.taskActor back)) = .userDisconnect := by
    intro t live
    have writing : d.task = some ⟨.writing [7, 8] true, true, true⟩ := by decide
    obtain rfl := Option.some.inj (writing.symm.trans live)
    decide
  rw [houtcome .userDisconnect (by decide) reports] at hframes
  exact ⟨bound, List.prefix_nil.mp hframes⟩

/-- **An owner that has gone can be sent something**: the last frame of a session that is completed
after all. -/
theorem departed_owner_told : ¬∀ (config : Config) (firmware : Firmware) (ms back : List Move)
    (c : Client) (k : Nat), let d := (fresh config firmware).run ms
    d.registry.owner = some c → (∀ f, .frame c f ∉ back) →
      framesTo c ((d.move (.disconnect c)).doings (.task k) back) = [] := by
  intro silence
  have nothing := silence .default .unknown (brief 7) (List.replicate 4 (.step (.task 1))) ⟨1, 1⟩ 1
    (by decide) (by simp)
  have told : framesTo ⟨1, 1⟩ ((((fresh .default .unknown).run (brief 7)).move
      (.disconnect ⟨1, 1⟩)).doings (.task 1) (List.replicate 4 (.step (.task 1))))
      = [.state 2 0] := by decide
  cases told.symm.trans nothing

end Device

end OverTheAir
