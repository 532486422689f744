import OverTheAir.Proofs.Farewell

/-!
# Proofs/Rejections — which error frames are told as rejections

The handler answers a frame that it turns down with an error frame, and tells of the rejection.  A
session task answers with one too, when a chunk overruns the image, but it tells nobody.  What is
said at a move is read once (`utters_move`); along a run the rejections are then the error frames of
the handler, and those of the others are counted by the chunks that overran (`Told`).

* `errors_told` — all error frames of a run, and when they are the rejections.
* `errors_untold` — a run with an error frame that is no rejection.
-/

namespace OverTheAir

/-! ## Error frames and rejections -/

/-- The client that an error frame goes to, and its code. -/
def Effect.error? : Effect → Option (Client × Refusal)
  | .sent c (.error code) _ => some (c, code)
  | _ => none

/-- The client whose frame is said to be rejected, and the code. -/
def Effect.rejection? : Effect → Option (Client × Refusal)
  | .event (.rejected c code) => some (c, code)
  | _ => none

/-- The code of the error frame that a stage is about to send. -/
def Stage.error? : Stage → Option Refusal
  | .reporting (.error code) _ => some code
  | _ => none

/-- The duty is to send an error frame. -/
def Duty.isError : Duty → Bool
  | .tell _ (.error _) => true
  | _ => false

/-- A chunk that is measured. -/
def Stage.measured? : Stage → Option Bytes
  | .measuring chunk _ => some chunk
  | _ => none

/-- A duty that is done is no rejection, and an error frame only if it is one to send. -/
theorem Effect.error?_of_duty? {e : Effect} {duty : Duty} (h : e.duty? = some duty)
    (polite : duty.isError = false) : e.rejection? = none ∧ e.error? = none := by
  cases e with
  | sent c frame reached =>
    obtain rfl := Option.some.inj h
    cases frame with
    | error => cases polite
    | _ => exact ⟨rfl, rfl⟩
  | broadcast | restarted => exact ⟨rfl, rfl⟩
  | _ => cases h

/-- Nothing that the handler does for an action is an error frame or a rejection. -/
theorem Effect.error?_of_isOfAction {e : Effect} (h : e.isOfAction = true) :
    e.rejection? = none ∧ e.error? = none := by
  cases e with
  | sent c frame reached =>
    cases frame with
    | action => exact ⟨rfl, rfl⟩
    | _ => cases h
  | event event =>
    cases event with
    | actionPerformed => exact ⟨rfl, rfl⟩
    | _ => cases h
  | firmware | restarted | died => exact ⟨rfl, rfl⟩
  | _ => cases h

namespace Stage

theorem eq_measuring_of_measured? {s : Stage} {chunk : Bytes} (h : s.measured? = some chunk) :
    ∃ isEnd, s = .measuring chunk isEnd := by
  match s, h with
  | .measuring _ isEnd, rfl => exact ⟨isEnd, rfl⟩

theorem error?_next : ∀ isEnd, (next isEnd).error? = none
  | false => rfl
  | true => rfl

theorem error?_of_looks {s : Stage} (looks : s.looksForAbort = true) : s.error? = none := by
  match s, looks with
  | .begun, _ | .holding _, _ | .written _ _, _ | .ending, _ => rfl

/-- No error frame is due at a flash call, nor behind it. -/
theorem error?_of_call? {s : Stage} {total : UInt32} {call : FlashCall}
    (calls : s.call? total = some call) (r : FlashResult) :
    s.error? = none ∧ (s.after r).error? = none := by
  obtain ⟨rfl, -⟩ | ⟨chunk, isEnd, rfl, -⟩ | ⟨rfl, -⟩ | ⟨rfl, -⟩ | ⟨reason, rfl, -⟩ :=
    call?_cases calls <;> rcases r with e | ⟨⟩ <;> exact ⟨rfl, rfl⟩

end Stage

namespace Journal

/-- The error frames of a journal, whether the clients could be reached or not, oldest first. -/
def errors (j : Journal) : List (Client × Refusal) := j.filterMap fun e => e.effect.error?

/-- The rejections that a journal tells of, oldest first. -/
def rejections (j : Journal) : List (Client × Refusal) := j.filterMap fun e => e.effect.rejection?

def byHandler (j : Journal) : Journal := j.filter fun e => e.actor = .handler

def byOthers (j : Journal) : Journal := j.filter fun e => e.actor ≠ .handler

theorem errors_append (j j' : Journal) : errors (j ++ j') = errors j ++ errors j' :=
  List.filterMap_append

theorem rejections_append (j j' : Journal) :
    rejections (j ++ j') = rejections j ++ rejections j' := List.filterMap_append

theorem byHandler_append (j j' : Journal) : byHandler (j ++ j') = byHandler j ++ byHandler j' :=
  List.filter_append ..

theorem byOthers_append (j j' : Journal) : byOthers (j ++ j') = byOthers j ++ byOthers j' :=
  List.filter_append ..

theorem errors_map (a : Actor) (es : List Effect) :
    errors (es.map (Entry.mk a)) = es.filterMap Effect.error? := by
  rw [errors, List.filterMap_map]
  rfl

theorem rejections_map (a : Actor) (es : List Effect) :
    rejections (es.map (Entry.mk a)) = es.filterMap Effect.rejection? := by
  rw [rejections, List.filterMap_map]
  rfl

theorem byHandler_map (a : Actor) (es : List Effect) :
    byHandler (es.map (Entry.mk a)) = if a = .handler then es.map (Entry.mk a) else [] := by
  split <;> simp_all [byHandler]

theorem byOthers_map (a : Actor) (es : List Effect) :
    byOthers (es.map (Entry.mk a)) = if a = .handler then [] else es.map (Entry.mk a) := by
  split <;> simp_all [byOthers]

/-- **The error frames are those of the handler** iff nobody else sends any. -/
theorem errors_eq_byHandler_iff (j : Journal) :
    errors j = errors (byHandler j) ↔ errors (byOthers j) = [] := by
  have sub : (errors (byHandler j)).Sublist (errors j) := List.filter_sublist.filterMap _
  have total :
      (errors (byHandler j)).length + (errors (byOthers j)).length = (errors j).length := by
    have all := ((List.filter_append_perm (fun e : Entry => e.actor = .handler) j).filterMap
      fun e => e.effect.error?).length_eq
    simpa [errors, byHandler, byOthers] using all
  rw [eq_comm, ← sub.length_eq, ← List.length_eq_zero_iff]
  omega

end Journal

namespace Device

open Journal

variable {d d' : Device} {t : SessionTask} {m : Move}

/-! ## Error frames that are due -/

/-- The error frame that the task is about to send. -/
def due (d : Device) : List (Client × Refusal) :=
  match d.task with
  | some t => t.stage.error?.toList.flatMap fun code => d.registry.owner.toList.map (·, code)
  | none => []

/-- The task measures a chunk, and it overruns the image. -/
def Overruns (d : Device) : Prop :=
  ∃ t ∈ d.task, ∃ chunk ∈ t.stage.measured?,
    d.session.total.toNat < d.session.received.toNat + chunk.length

instance (d : Device) : Decidable d.Overruns :=
  inferInstanceAs (Decidable (∃ t ∈ d.task, ∃ chunk ∈ t.stage.measured?, _))

/-- The answer that a move calls for, if it is the one at which the task measures such a chunk. -/
def answers (d : Device) (m : Move) : List (Client × Refusal) :=
  if m = .step d.taskActor ∧ d.Overruns then d.registry.owner.toList.map (·, .packetSize) else []

/-- The answers that the chunks of a run call for which overrun their images, one after another. -/
def overruns : Device → List Move → List (Client × Refusal)
  | _, [] => []
  | d, m :: ms => d.answers m ++ overruns (d.move m) ms

theorem due_of_stage (live : d.task = some t) (h : t.stage.error? = none) : d.due = [] := by
  rw [due, live]
  dsimp only
  rw [h]
  rfl

theorem due_goto {s : Stage} (h : s.error? = none) : (d.goto t s).due = [] := due_of_stage rfl h

theorem due_of_unbound (unbound : d.registry.owner = none) : d.due = [] := by
  rw [due, unbound]
  split
  · exact List.flatMap_eq_nil_iff.mpr fun _ _ => rfl
  · rfl

/-! ## What is said at a move -/

/-- What an actor says at a move.  The handler tells of each error frame, and nobody else of any;
the error frames of the others make up, with those that are due then, those that were due before
and those that the move calls for. -/
structure Utters (d : Device) (a : Actor) (d' : Device) (es : List Effect)
    (called : List (Client × Refusal)) : Prop where
  journal : d'.journal = d.journal ++ es.map (Entry.mk a)
  rejections : es.filterMap Effect.rejection?
    = if a = .handler then es.filterMap Effect.error? else []
  errors : (if a = .handler then [] else es.filterMap Effect.error?) ++ d'.due = d.due ++ called

/-- Nothing is said of an error, and what was due stays due. -/
theorem Utters.quiet {a : Actor} {es : List Effect}
    (journal : d'.journal = d.journal ++ es.map (Entry.mk a))
    (silent : ∀ e ∈ es, e.rejection? = none ∧ e.error? = none) (due : d'.due = d.due) :
    d.Utters a d' es [] where
  journal := journal
  rejections := by
    rw [List.filterMap_eq_nil_iff.mpr fun e he => (silent e he).1,
      List.filterMap_eq_nil_iff.mpr fun e he => (silent e he).2, ite_self]
  errors := by
    rw [List.filterMap_eq_nil_iff.mpr fun e he => (silent e he).2, ite_self, List.append_nil]
    exact due

/-- Nothing is said at all. -/
theorem Utters.nothing {a : Actor} (journal : d'.journal = d.journal) (due : d'.due = d.due) :
    d.Utters a d' [] [] :=
  .quiet (by rw [journal, List.map_nil, List.append_nil]) (List.forall_mem_nil _) due

/-- **The handler tells of each error frame**, and of nothing else as a rejection. -/
theorem Handled.utters (h : Handled d m d') : ∃ es, d.Utters .handler d' es [] := by
  cases h with
  | ignored | recorded => exact ⟨[], .nothing rfl rfl⟩
  | @refused c _ code reached =>
    exact ⟨refusal c code reached, rfl, rfl, (List.append_nil _).symm⟩
  | @opened c _ total _ _ decodes unbound =>
    exact ⟨[.event (.sessionStarted c total)], .quiet rfl
      (List.forall_mem_singleton.mpr ⟨rfl, rfl⟩)
      ((due_of_stage rfl rfl).trans (due_of_unbound unbound).symm)⟩
  | @unopened c _ _ _ _ reached decodes unbound =>
    exact ⟨[.event (.aborted .beginFailed 0), .sent c (.abort .beginFailed) reached], .quiet rfl
      (List.forall_mem_cons.mpr ⟨⟨rfl, rfl⟩, List.forall_mem_singleton.mpr ⟨rfl, rfl⟩⟩)
      ((due_of_unbound rfl).trans (due_of_unbound unbound).symm)⟩
  | @queued _ _ chunk isEnd =>
    exact ⟨[.queued chunk isEnd], .quiet rfl (List.forall_mem_singleton.mpr ⟨rfl, rfl⟩) rfl⟩
  | acted es _ _ effects =>
    exact ⟨es, .quiet rfl (fun e he => e.error?_of_isOfAction (effects e he)) rfl⟩

/-- A chunk that overruns the image is answered: an error frame is due. -/
theorem Overruns.move (h : d.Overruns)
    (counts : d.session.received.toNat ≤ d.session.total.toNat) :
    ∃ t isEnd, d.task = some t ∧ t.stage.error? = none ∧
      d.move (.step d.taskActor) = d.goto t (.reporting (.error .packetSize) isEnd) := by
  obtain ⟨t, live, chunk, hchunk, overruns⟩ := h
  obtain ⟨isEnd, atStage⟩ := Stage.eq_measuring_of_measured? hchunk
  have fits : d.session.fits? chunk.length = some false := by
    rw [Session.fits?_eq_some counts, decide_eq_false (Nat.not_le_of_lt overruns)]
  refine ⟨t, isEnd, live, by rw [atStage]; rfl, ?_⟩
  rw [move_of_measuring live atStage, measure, fits]

/-- **The task says nothing of an error but what is due**, unless a chunk overruns the image. -/
theorem Advanced.utters (hm : Advanced d t d') (live : d.task = some t)
    (counts : d.session.received.toNat ≤ d.session.total.toNat) (within : ¬d.Overruns) :
    ∃ es, d.Utters d.taskActor d' es [] := by
  have still : d'.journal = d.journal → t.stage.error? = none → d'.due = [] →
      ∃ es, d.Utters d.taskActor d' es [] := fun journal before after =>
    ⟨[], .nothing journal (after.trans (due_of_stage live before).symm)⟩
  have tells : ∀ e, d'.journal = d.journal ++ [⟨d.taskActor, e⟩] →
      e.rejection? = none ∧ e.error? = none → t.stage.error? = none → d'.due = [] →
      ∃ es, d.Utters d.taskActor d' es [] := fun e journal silent before after =>
    ⟨[e], .quiet journal (List.forall_mem_singleton.mpr silent)
      (after.trans (due_of_stage live before).symm)⟩
  cases hm with
  | equipped atStage | unequipped atStage | greeted atStage | took atStage | orphaned _ atStage
  | waitedOut atStage | timedOut atStage | woke atStage | looked atStage | unvetted atStage
  | fitted atStage | barred atStage | admitted atStage | accounted atStage | finalizing atStage
  | cutShort atStage =>
    exact still rfl (by rw [atStage]; rfl) (due_goto rfl)
  | died calls => exact tells _ rfl ⟨rfl, rfl⟩ (Stage.error?_of_call? calls (.ok ())).1 rfl
  | @called call r flash faults calls answer =>
    obtain ⟨before, after⟩ := Stage.error?_of_call? calls r
    exact tells _ rfl ⟨rfl, rfl⟩ before (due_goto after)
  | bailed looks => exact still rfl (Stage.error?_of_looks looks) (due_goto rfl)
  | @told frame isEnd owner reached atStage bound =>
    -- the error frame that was due is sent
    refine ⟨[.sent owner frame reached], rfl, rfl, ?_⟩
    rw [due_goto (Stage.error?_next isEnd), List.append_nil, List.append_nil, due, live]
    dsimp only
    rw [atStage, bound]
    cases frame <;> rfl
  | @untold frame isEnd atStage unbound =>
    refine ⟨[], .nothing rfl ?_⟩
    rw [due_goto (Stage.error?_next isEnd), due_of_unbound unbound]
  | @skipped isEnd atStage =>
    exact still rfl (by rw [atStage]; rfl) (due_goto (Stage.error?_next isEnd))
  | @overran chunk isEnd atStage overruns =>
    rw [Session.fits?_eq_some counts, Option.some.injEq, decide_eq_false_iff_not] at overruns
    refine absurd ⟨t, live, chunk, ?_, Nat.lt_of_not_le overruns⟩ within
    rw [atStage]
    rfl
  | miscounted miscounts =>
    refine tells _ rfl ⟨rfl, rfl⟩ ?_ rfl
    obtain ⟨chunk, isEnd, atStage, -⟩ | ⟨chunk, isEnd, atStage, -⟩ := miscounts <;> rw [atStage] <;>
      rfl
  | progressed atStage => exact tells _ rfl ⟨rfl, rfl⟩ (by rw [atStage]; rfl) (due_goto rfl)
  | @filled received requested isEnd atStage =>
    exact tells _ rfl ⟨rfl, rfl⟩ (by rw [atStage]; rfl) (due_goto (Stage.error?_next isEnd))
  | @left outcome atStage =>
    refine tells _ (d.journal_leave t outcome) ?_ (by rw [atStage]; rfl) ?_
    · cases outcome <;> exact ⟨rfl, rfl⟩
    · cases outcome <;> rfl

/-! ## Errands -/

/-- No error frame is left to an actor that has only duties left. -/
def Polite (d : Device) : Prop := ∀ e ∈ d.errands, ∀ duty ∈ e.duties, duty.isError = false

theorem isError_of_farewell (owner : Option Client) (total : UInt32) (flags : SessionFlags)
    (outcome : Outcome) : ∀ duty ∈ farewell owner total flags outcome, duty.isError = false := by
  rcases outcome with _ | reason
  · cases owner <;> cases hreset : flags.resetAfterSuccess <;>
      simp [farewell, Duty.isError, hreset]
  · cases owner <;> cases reason <;> simp [farewell, Duty.isError]

theorem Polite.moved (h : d.Polite) (hm : Moved d m d') : d'.Polite := by
  cases hm with
  | handled hm =>
    cases hm with
    | acted es decodes unbound effects pending duties =>
      rcases duties with rfl | rfl
      · exact h
      · refine List.forall_mem_append.mpr ⟨h, List.forall_mem_singleton.mpr ?_⟩
        exact List.forall_mem_singleton.mpr rfl
    | _ => exact h
  | advanced live hm =>
    cases hm with
    | @left outcome atStage =>
      change ∀ e ∈ (if List.isEmpty _ then d.errands else d.errands ++ [_]), _
      split
      · exact h
      · exact List.forall_mem_append.mpr ⟨h,
          List.forall_mem_singleton.mpr (isError_of_farewell _ _ _ outcome)⟩
    | _ => exact h
  | performed other hm =>
    obtain ⟨effect, takes, does⟩ := hm
    intro e he duty hduty
    obtain ⟨e', he', -, hsub⟩ := (mem_of_takeDuty takes).2 e he
    exact h e' he' duty (hsub duty hduty)
  | _ => exact h

/-- An actor that has only duties left says nothing of an error. -/
theorem Performed.utters {a : Actor} (hm : Performed d a d') (polite : d.Polite) :
    ∃ es, d.Utters a d' es [] := by
  obtain ⟨effect, takes, does⟩ := hm
  obtain ⟨⟨e, he, -, hduty⟩, -⟩ := mem_of_takeDuty takes
  exact ⟨[effect], .quiet rfl
    (List.forall_mem_singleton.mpr (effect.error?_of_duty? does (polite e he _ hduty))) rfl⟩

/-! ## Along a run -/

/-- **What is said at a move**: the answers to chunks that overrun the image are the only error
frames that the handler does not tell of. -/
theorem utters_move (sound : d.Sound) (polite : d.Polite) (m : Move) :
    ∃ a es, d.Utters a (d.move m) es (d.answers m) := by
  by_cases call : m = .step d.taskActor ∧ d.Overruns
  · rw [answers, if_pos call]
    obtain ⟨rfl, overruns⟩ := call
    obtain ⟨t, isEnd, live, silent, hmove⟩ := overruns.move sound.counts
    refine ⟨d.taskActor, [], ?_, rfl, ?_⟩
    · rw [hmove]
      exact (List.append_nil _).symm
    · rw [hmove, due_of_stage live silent]
      exact List.append_nil _
  · rw [answers, if_neg call]
    have hm := d.moved m
    generalize d.move m = d' at hm ⊢
    cases hm with
    | handled hm => exact ⟨_, hm.utters⟩
    | advanced live hm => exact ⟨_, hm.utters live sound.counts fun h => call ⟨rfl, h⟩⟩
    | performed _ hm => exact ⟨_, hm.utters polite⟩
    | @waited t waited ms live atStage =>
      exact ⟨.handler, [], .nothing rfl
        ((due_goto rfl).trans (due_of_stage live (by rw [atStage]; rfl)).symm)⟩
    | stuck | passed | around => exact ⟨.handler, [], .nothing rfl rfl⟩

/-- The rejections are the error frames of the handler; those of the others, sent or due, are what
was called for. -/
structure Told (d : Device) (called : List (Client × Refusal)) : Prop where
  handler : rejections d.journal = errors (byHandler d.journal)
  others : errors (byOthers d.journal) ++ d.due = called

theorem told_fresh (config : Config) (firmware : Firmware) : (fresh config firmware).Told [] :=
  ⟨rfl, rfl⟩

theorem Told.utters {a : Actor} {es : List Effect} {called more : List (Client × Refusal)}
    (h : d.Told called) (hm : d.Utters a d' es more) : d'.Told (called ++ more) where
  handler := by
    rw [hm.journal, rejections_append, byHandler_append, errors_append, h.handler,
      rejections_map, hm.rejections, byHandler_map]
    split
    · rw [errors_map]
    · rfl
  others := by
    have told : errors (byOthers (es.map (Entry.mk a))) ++ d'.due = d.due ++ more := by
      rw [← hm.errors, byOthers_map]
      split
      · rfl
      · rw [errors_map]
    rw [hm.journal, byOthers_append, errors_append, List.append_assoc, told, ← List.append_assoc,
      h.others]

theorem Told.run {called : List (Client × Refusal)} (sound : d.Sound) (polite : d.Polite)
    (h : d.Told called) (ms : List Move) : (d.run ms).Told (called ++ d.overruns ms) := by
  induction ms generalizing d called with
  | nil =>
    rw [overruns, List.append_nil]
    exact h
  | cons m ms ih =>
    obtain ⟨a, es, hm⟩ := utters_move sound polite m
    rw [overruns, ← List.append_assoc]
    exact ih (sound.moved (d.moved m)) (polite.moved (d.moved m)) (h.utters hm)

/-- **The rejections are the error frames of the handler, one by one.**  An error frame that is none
of the handler's answers a chunk that overran the image, and no rejection is told of it: these are,
with the one that is about to be sent, one for each such chunk.  So all error frames are told of
as long as none of these has been sent. -/
theorem errors_told (config : Config) (firmware : Firmware) (ms : List Move) :
    let d := (fresh config firmware).run ms
    rejections d.journal = errors (byHandler d.journal) ∧
    errors (byOthers d.journal) ++ d.due = (fresh config firmware).overruns ms ∧
    (errors d.journal = rejections d.journal ↔ errors (byOthers d.journal) = []) := by
  intro d
  obtain ⟨told, complaints⟩ : d.Told ([] ++ (fresh config firmware).overruns ms) :=
    (told_fresh config firmware).run (sound_fresh config firmware) (List.forall_mem_nil _) ms
  refine ⟨told, complaints, ?_⟩
  rw [told]
  exact errors_eq_byHandler_iff d.journal

/-- A chunk of three bytes for an image of two is answered with an error frame, and no rejection is
told. -/
theorem errors_untold : ¬∀ config firmware ms,
    errors ((fresh config firmware).run ms).journal
      = rejections ((fresh config firmware).run ms).journal := by
  intro h
  have run := h .default .unknown (.frame ⟨1, 1⟩ (Request.start 2 0 .none).encode ::
    List.replicate 4 (.step (.task 1)) ++ .frame ⟨1, 1⟩ (Request.state false [7, 8, 9]).encode ::
    List.replicate 4 (.step (.task 1)))
  revert run
  decide

end Device

end OverTheAir
