import OverTheAir.Proofs.Unread
import OverTheAir.Proofs.Verdict

/-!
# Proofs/Exclusion — an abort and a finalization exclude each other

Once an abort is recorded, or the image is being finalized, the record of the session is settled:
it stays as it is until the task leaves (`Settled`).  So neither can come to be the other, and all
that is left open is what the flash answers.

* An aborted session makes no closing call, and writes at most the chunk that the task works on: it
  looks for an abort before it measures, vets and writes a chunk, and not in between.
* A finalizing session takes no notice of requests: without them the run is the same but for what
  the handler wrote into the journal.
-/

namespace OverTheAir

namespace Stage

/-- The chunk that the task works on: it has looked at it, and not written it. -/
def inWork? : Stage → Option Bytes
  | .measuring chunk _ => some chunk
  | .vetting chunk _ => some chunk
  | .writing chunk _ => some chunk
  | _ => none

/-- After a call the task works on no chunk, -/
theorem inWork?_after {s : Stage} {total : UInt32} {call : FlashCall}
    (calls : s.call? total = some call) (r : FlashResult) : (s.after r).inWork? = none := by
  obtain ⟨rfl, -⟩ | ⟨_, _, rfl, -⟩ | ⟨rfl, -⟩ | ⟨rfl, -⟩ | ⟨_, rfl, -⟩ := call?_cases calls <;>
    rcases r with e | ⟨⟩ <;> rfl

/-- nor when it is done with one. -/
theorem inWork?_next (isEnd : Bool) : (next isEnd).inWork? = none := by
  rcases isEnd with _ | _ <;> rfl

end Stage

namespace Device

open Journal

variable {d d' : Device} {t : SessionTask} {k : Nat}

/-! ## A settled record -/

/-- The outcome of the session depends on its task and the flash only. -/
def Settled (d : Device) : Prop := d.session.state = .finalizing ∨ ∃ r, d.session.state = .aborted r

theorem Settled.ne_idle (h : d.Settled) : d.session.state ≠ .idle := by
  rcases h with h | ⟨r, h⟩ <;> simp [h]

theorem Settled.ne_receiving (h : d.Settled) : d.session.state ≠ .receiving := by
  rcases h with h | ⟨r, h⟩ <;> simp [h]

/-- Without a receiving session there is no transfer that is not aborted. -/
theorem Settled.not_transferring (h : d.Settled) (inTransfer : d.session.InTransfer) :
    d.session.pendingAbort ≠ none :=
  fun hp => h.ne_receiving (inTransfer.receiving hp)

/-- **A settled record stays** until the task leaves. -/
theorem Settled.moved {m : Move} (h : d.Settled) (sound : d.Sound) (hm : Moved d m d') :
    d'.sessions = d.sessions ∧ (d'.session = d.session ∨ d'.session.state = .idle) := by
  cases hm with
  | handled hm =>
    cases hm with
    | opened decodes unbound idle => exact absurd idle h.ne_idle
    | unopened reached decodes unbound idle => exact absurd idle h.ne_idle
    | recorded reason byOwner owner receiving => exact absurd receiving h.ne_receiving
    | _ => exact ⟨rfl, .inl rfl⟩
  | advanced live hm =>
    cases hm with
    | timedOut atStage =>
      refine ⟨rfl, .inl (if_neg ?_)⟩
      simpa [Session.isReceiving] using h.ne_receiving
    | miscounted miscounts => exact absurd miscounts (sound.not_miscounts live)
    | accounted atStage notAborted advances requests =>
      exact absurd notAborted (h.not_transferring (sound.stands live atStage).1.inTransfer)
    | finalizing atStage notAborted complete =>
      have htakes : d.session.Takes d.flash d.session.received.toNat := sound.stands live atStage
      exact absurd notAborted (h.not_transferring htakes.inTransfer)
    | left => exact ⟨rfl, .inr rfl⟩
    | _ => exact ⟨rfl, .inl rfl⟩
  | performed other hm =>
    obtain ⟨_, _, _⟩ := hm
    exact ⟨rfl, .inl rfl⟩
  | _ => exact ⟨rfl, .inl rfl⟩

/-- A session that is past stays past. -/
theorem IsPast.moved {m : Move} (h : d.IsPast k) (sound : d.Sound) (hm : Moved d m d') :
    d'.IsPast k := by
  rcases h with hlt | ⟨rfl, idle⟩
  · exact .inl (Nat.lt_of_lt_of_le hlt hm.sessions_le)
  cases hm with
  | handled hm =>
    cases hm with
    | opened => exact .inl (Nat.lt_succ_self _)
    | unopened => exact .inr ⟨rfl, rfl⟩
    | recorded reason byOwner owner receiving => cases receiving.symm.trans idle
    | _ => exact .inr ⟨rfl, idle⟩
  | advanced live hm => exact absurd idle (sound.ne_idle live)
  | performed other hm =>
    obtain ⟨_, _, _⟩ := hm
    exact .inr ⟨rfl, idle⟩
  | _ => exact .inr ⟨rfl, idle⟩

theorem IsPast.run (h : d.IsPast k) (sound : d.Sound) (ms : List Move) : (d.run ms).IsPast k := by
  induction ms generalizing d with
  | nil => exact h
  | cons m ms ih => exact ih (h.moved sound (d.moved m)) (sound.moved (d.moved m))

/-- **A settled record stays** as long as the session is not past. -/
theorem Settled.run (h : d.Settled) (sound : d.Sound) (ms : List Move) :
    (d.run ms).IsPast d.sessions ∨
      (d.run ms).sessions = d.sessions ∧ (d.run ms).session = d.session := by
  induction ms generalizing d with
  | nil => exact .inr ⟨rfl, rfl⟩
  | cons m ms ih =>
    obtain ⟨hsessions, hsame | hidle⟩ := h.moved sound (d.moved m)
    · have hsettled : (d.move m).Settled := by
        rw [Settled, hsame]
        exact h
      have hrun := ih hsettled (sound.moved (d.moved m))
      rw [hsessions, hsame] at hrun
      exact hrun
    · have hpast : (d.move m).IsPast d.sessions := .inr ⟨hsessions.symm, hidle⟩
      exact .inl (hpast.run (sound.moved (d.moved m)) ms)

/-- The record is the same at every point of a run, up to where the session is still on. -/
def Stays (d : Device) (ms : List Move) : Prop :=
  ∀ front back, ms = front ++ back → (d.run ms).sessions = d.sessions →
    (d.run ms).session.state ≠ .idle → (d.run front).session = d.session

theorem Settled.stays (h : d.Settled) (sound : d.Sound) (ms : List Move) : d.Stays ms := by
  rintro front back rfl hsessions hbusy
  rcases h.run sound front with hpast | ⟨-, hsame⟩
  · have hpast' := hpast.run (sound.run front) back
    rw [← run_append, ← hsessions] at hpast'
    exact absurd hpast' (not_isPast hbusy)
  · exact hsame

/-! ## What is done for a session that is past -/

/-- The task of a session that is past makes no flash call and completes nothing. -/
theorem IsPast.does (h : d.IsPast k) (sound : d.Sound) {m : Move} (hm : m.actor = .task k)
    {e : Effect} (he : e ∈ d.does m) :
    e.triesFlash = false ∧ ∀ n, e ≠ .event (.completed n) := by
  have dead : ∀ t, d.task = some t → m ≠ .step d.taskActor := by
    rintro t live rfl
    obtain rfl := Actor.task.inj hm
    exact not_isPast (sound.ne_idle live) h
  refine ⟨Bool.eq_false_iff.mpr fun htries => ?_, ?_⟩
  · obtain ⟨hstep, t, call, live, -⟩ := (accounted_of_does he).tries htries
    exact dead t live hstep
  · rintro n rfl
    have hcompletes := completes_of_does he
    generalize d.move m = d' at hcompletes
    rcases hcompletes with ⟨live, -⟩
    exact dead _ live rfl

theorem IsPast.doings (h : d.IsPast k) (sound : d.Sound) (ms : List Move) {e : Effect}
    (he : e ∈ d.doings (.task k) ms) : e.triesFlash = false ∧ ∀ n, e ≠ .event (.completed n) := by
  obtain ⟨front, m, back, rfl, hm, he⟩ := mem_doings.mp he
  exact (h.run sound front).does (sound.run front) hm he

/-! ## An abort -/

/-- The write of the chunk that the task works on. -/
def WritesNext (d : Device) (e : Effect) : Prop :=
  ∃ t chunk, d.task = some t ∧ t.stage.inWork? = some chunk ∧
    (e = .died .write ∨ ∃ r, e = .flash (.write chunk) r)

/-- Only the task writes, and only when it stands at a write. -/
theorem writing_of_does {m : Move} {e : Effect} (he : e ∈ d.does m)
    (writes : e.triesWrite = true) : m = .step d.taskActor ∧ ∃ t chunk isEnd, d.task = some t ∧
      t.stage = .writing chunk isEnd ∧ (e = .died .write ∨ ∃ r, e = .flash (.write chunk) r) := by
  obtain ⟨hstep, t, call, live, calls, hcall⟩ :=
    (accounted_of_does he).tries (Effect.triesFlash_of_triesWrite writes)
  obtain ⟨chunk, rfl⟩ : ∃ chunk, call = .write chunk := by
    rcases hcall with rfl | ⟨r, rfl⟩ <;> rcases call with _ | chunk | _ | _ | _ <;>
      first | exact ⟨chunk, rfl⟩ | cases writes
  obtain ⟨isEnd, hs⟩ := Stage.eq_writing_of_call? calls
  exact ⟨hstep, t, chunk, isEnd, live, hs, hcall⟩

/-- **A session whose abort is recorded makes no closing call and does not complete.** -/
theorem does_of_aborted {r : AbortReason} (sound : d.Sound) (aborted : d.session.state = .aborted r)
    {m : Move} {e : Effect} (he : e ∈ d.does m) :
    e.triesClosing = false ∧ ∀ n, e ≠ .event (.completed n) := by
  have inTransfer : d.session.InTransfer := .inr ⟨r, aborted⟩
  refine ⟨Bool.eq_false_iff.mpr fun hcloses => ?_, ?_⟩
  · obtain ⟨-, t, call, live, calls, rfl | ⟨r, rfl⟩⟩ :=
      (accounted_of_does he).tries (Effect.triesFlash_of_triesClosing hcloses)
    · rw [((sound.standing t live).stands.not_closing inTransfer calls (.ok ())).2] at hcloses
      cases hcloses
    · rw [((sound.standing t live).stands.not_closing inTransfer calls r).1] at hcloses
      cases hcloses
  · rintro n rfl
    have hcompletes := completes_of_does he
    generalize d.move m = d' at hcompletes
    rcases hcompletes with ⟨live, atStage⟩
    exact inTransfer.ne_finalizing (sound.stands live atStage).1.state

/-- **While an abort is recorded, the task takes up no chunk**, and is done with one when it has
written it. -/
theorem inWork_of_moved {m : Move} {r : AbortReason} (hm : Moved d m d')
    (aborted : d.session.state = .aborted r) {t' : SessionTask} (live' : d'.task = some t')
    {chunk : Bytes} (works : t'.stage.inWork? = some chunk) :
    ∃ t, d.task = some t ∧ t.stage.inWork? = some chunk ∧ (m = .step d.taskActor →
      ∀ chunk' isEnd, t.stage = .writing chunk' isEnd → d' = d) := by
  cases hm with
  | handled hm =>
    have notStep : m ≠ .step d.taskActor := by
      rintro rfl
      cases hm.journal.1
    cases hm with
    | opened decodes unbound idle => cases idle.symm.trans aborted
    | _ => exact ⟨t', live', works, fun h => absurd h notStep⟩
  | @advanced t _ live hm =>
    refine ⟨t, live, ?_⟩
    -- a task that goes on to a stage works there on what it works on now
    have there : ∀ {d₁ : Device} {t₁ s}, (d₁.goto t₁ s).task = some t' → s.inWork? = some chunk :=
      fun live' => stage_of_goto live' ▸ works
    cases hm with
    | unvetted hs | fitted hs | admitted hs =>
      have works' := there live'
      rw [hs]
      exact ⟨works', fun _ _ _ hs' => by cases hs'⟩
    | looked hs notAborted => simp [Session.pendingAbort, aborted] at notAborted
    | called calls answer => cases (Stage.inWork?_after calls _).symm.trans (there live')
    | told | untold | skipped | filled => cases (Stage.inWork?_next _).symm.trans (there live')
    | died | miscounted | left => cases live'
    | _ => cases there live'
  | performed other hm =>
    obtain ⟨_, _, _⟩ := hm
    have live : d.task = some t' := live'
    exact ⟨t', live, works, fun h => absurd (Move.step.inj h) (other (live ▸ rfl))⟩
  | stuck => exact ⟨t', live', works, fun _ _ _ _ => rfl⟩
  | waited => cases stage_of_goto live' ▸ works
  | passed => exact ⟨t', live', works, fun h => by cases h⟩
  | around _ _ _ _ outside still => exact ⟨t', live', works, fun h => absurd h (still _)⟩

/-- The writes of the session from here on. -/
def writes (d : Device) (ms : List Move) : List Effect :=
  (d.doings d.taskActor ms).filter Effect.triesWrite

/-- A session that is past writes nothing more. -/
theorem IsPast.writes (h : d.IsPast d.sessions) (sound : d.Sound) (ms : List Move) :
    d.writes ms = [] := by
  refine List.filter_eq_nil_iff.mpr fun e he hwrite => ?_
  have hnot := (h.doings sound ms he).1
  simp [Effect.triesFlash_of_triesWrite hwrite] at hnot

/-- The writes of the session at a move. -/
def writesAt (d : Device) (m : Move) : List Effect :=
  (if m.actor = d.taskActor then d.does m else []).filter Effect.triesWrite

theorem writes_cons {m : Move} (hsessions : (d.move m).sessions = d.sessions) (ms : List Move) :
    d.writes (m :: ms) = d.writesAt m ++ (d.move m).writes ms := by
  have hactor : (d.move m).taskActor = d.taskActor := congrArg Actor.task hsessions
  rw [writes, writes, writesAt, doings, List.filter_append, hactor]

/-- A move writes at most once, and then it is a step of the task that stands at the write. -/
theorem writesAt_cases (d : Device) (m : Move) : d.writesAt m = [] ∨
    ∃ e t chunk isEnd, d.writesAt m = [e] ∧ (e = .died .write ∨ ∃ r, e = .flash (.write chunk) r) ∧
      m = .step d.taskActor ∧ d.move m ≠ d ∧ d.task = some t ∧ t.stage = .writing chunk isEnd := by
  rcases hw : d.writesAt m with _ | ⟨e, rest⟩
  · exact .inl rfl
  right
  have mem : ∀ e ∈ d.writesAt m, m.actor = d.taskActor ∧ e ∈ d.does m ∧ e.triesWrite = true := by
    intro e he
    obtain ⟨he, hwrite⟩ := List.mem_filter.mp he
    split at he
    · exact ⟨‹_›, he, hwrite⟩
    · cases he
  obtain ⟨hactor, hdoes, hwrite⟩ := mem e (hw ▸ List.mem_cons_self)
  obtain ⟨hstep, t, chunk, isEnd, live, hs, hcall⟩ := writing_of_does hdoes hwrite
  have hone : (d.writesAt m).length ≤ 1 := by
    rw [writesAt, if_pos hactor]
    exact Nat.le_trans (List.length_filter_le ..) (length_does_le (hactor ▸ nofun))
  obtain rfl : rest = [] := by
    rw [hw] at hone
    exact List.eq_nil_of_length_eq_zero (Nat.le_zero.mp (Nat.le_of_succ_le_succ hone))
  refine ⟨e, t, chunk, isEnd, rfl, hcall, hstep, fun hstuck => ?_, live, hs⟩
  rw [does, hstuck, List.drop_length] at hdoes
  cases hdoes

/-- **After an abort there is one more write at most**, of the chunk that the task works on. -/
theorem writes_of_aborted {r : AbortReason} (sound : d.Sound)
    (aborted : d.session.state = .aborted r) (ms : List Move) :
    d.writes ms = [] ∨ ∃ e, d.WritesNext e ∧ d.writes ms = [e] := by
  induction ms generalizing d with
  | nil => exact .inl rfl
  | cons m ms ih =>
    have hm := d.moved m
    obtain ⟨hsessions, hsession⟩ := Settled.moved (.inr ⟨r, aborted⟩) sound hm
    -- what is written later the task works on now, and it does not write now
    have hlater : (d.move m).writes ms = [] ∨ ∃ e, (d.move m).writes ms = [e] ∧ ∃ t chunk,
        d.task = some t ∧ t.stage.inWork? = some chunk ∧
        (e = .died .write ∨ ∃ r, e = .flash (.write chunk) r) ∧
        (m = .step d.taskActor → ∀ chunk' isEnd, t.stage = .writing chunk' isEnd →
          d.move m = d) := by
      rcases hsession with hsame | hidle
      · refine (ih (sound.moved hm) (hsame ▸ aborted)).imp id ?_
        rintro ⟨e, ⟨t', chunk, live', works, hcall⟩, hwrites⟩
        obtain ⟨t, live, works, hstuck⟩ := inWork_of_moved hm aborted live' works
        exact ⟨e, hwrites, t, chunk, live, works, hcall, hstuck⟩
      · exact .inl (IsPast.writes (.inr ⟨rfl, hidle⟩) (sound.moved hm) ms)
    rw [writes_cons hsessions]
    rcases d.writesAt_cases m with hnow | ⟨e, t, chunk, isEnd, hnow, hcall, hstep, hmoves, live, hs⟩
    · rw [hnow, List.nil_append]
      exact hlater.imp id fun ⟨e, hwrites, t, chunk, live, works, hcall, _⟩ =>
        ⟨e, ⟨t, chunk, live, works, hcall⟩, hwrites⟩
    · rcases hlater with hlater | ⟨_, -, t', _, live', -, -, hstuck⟩
      · exact .inr ⟨e, ⟨t, chunk, live, by rw [hs, Stage.inWork?], hcall⟩,
          by rw [hnow, hlater, List.append_nil]⟩
      · obtain rfl := Option.some.inj (live.symm.trans live')
        exact absurd (hstuck hstep chunk isEnd hs) hmoves

/-- **An aborted session has made no closing call, nor is it said to be completed.** -/
theorem Chronicle.not_closing {r : AbortReason} (h : d.Chronicle)
    (aborted : d.session.state = .aborted r) {e : Effect} (he : e ∈ deeds d.taskActor d.journal) :
    e.triesClosing = false ∧ ∀ n, e ≠ .event (.completed n) := by
  have busy : d.session.state ≠ .idle := by simp [aborted]
  obtain ⟨owner, -, opened⟩ := h.current busy
  refine ⟨h.early (.inr ⟨r, aborted⟩) e he, ?_⟩
  rintro n rfl
  rcases h.working opened (not_isPast busy) _ he with hwork | ⟨point, hdied⟩
  · exact hwork
  · cases hdied

/-- An aborted session makes none and is said so never. -/
theorem doings_of_aborted {r : AbortReason} (sound : d.Sound)
    (aborted : d.session.state = .aborted r) (ms : List Move) {e : Effect}
    (he : e ∈ d.doings d.taskActor ms) :
    e.triesClosing = false ∧ ∀ n, e ≠ .event (.completed n) := by
  obtain ⟨front, m, back, rfl, hactor, he⟩ := mem_doings.mp he
  rcases Settled.run (.inr ⟨r, aborted⟩) sound front with hpast | ⟨-, hsame⟩
  · obtain ⟨hflash, hnot⟩ := hpast.does (sound.run front) hactor he
    refine ⟨Bool.eq_false_iff.mpr fun hcloses => ?_, hnot⟩
    simp [Effect.triesFlash_of_triesClosing hcloses] at hflash
  · exact does_of_aborted (sound.run front) (hsame ▸ aborted) he

/-! ## A finalization -/

/-- **All of the image is there once it is being finalized.** -/
theorem received_of_finalizing (config : Config) (firmware : Firmware) (ms : List Move) :
    let d := (fresh config firmware).run ms
    d.session.state = .finalizing → d.session.received = d.session.total := by
  refine (run_induction (motive := fun d => d.Sound ∧ (d.session.state = .finalizing →
    d.session.received = d.session.total)) ⟨sound_fresh config firmware, nofun⟩ ?_ ms).2
  rintro d m d' ⟨sound, ih⟩ hm
  refine ⟨sound.moved hm, fun hfinal => ?_⟩
  cases hm with
  | handled hm =>
    cases hm with
    | opened | unopened | recorded => cases hfinal
    | _ => exact ih hfinal
  | advanced live hm =>
    cases hm with
    | timedOut atStage =>
      have htakes : d.session.Takes d.flash d.session.received.toNat := sound.stands live atStage
      obtain ⟨r, hmark⟩ := htakes.inTransfer.markAborted .timeout
      have hfinal' : (d.session.markAborted .timeout).state = .finalizing := hfinal
      rw [hmark] at hfinal'
      cases hfinal'
    | miscounted miscounts => exact absurd miscounts (sound.not_miscounts live)
    | accounted atStage notAborted advances requests =>
      obtain ⟨received, rfl, -⟩ := sound.advances live atStage advances
      exact absurd hfinal (sound.stands live atStage).1.inTransfer.ne_finalizing
    | finalizing atStage notAborted complete => exact complete
    | left => cases hfinal
    | _ => exact ih hfinal
  | performed other hm =>
    obtain ⟨_, _, _⟩ := hm
    exact ih hfinal
  | _ => exact ih hfinal

/-- A request comes to nothing but what the handler writes while the image is being finalized. -/
theorem alike_of_isRequest (sound : d.Sound) (finalizing : d.session.state = .finalizing) {m : Move}
    (hm : m.isRequest = true) : (d.move m).Alike d := by
  obtain ⟨c, bound⟩ := (sound.busy (by simp [finalizing])).bound
  have hhandled := handled_of_isRequest (d := d) hm
  obtain ⟨-, es, hjournal, -⟩ := hhandled.journal
  refine ⟨?_, fun a ha => ?_⟩
  · generalize d.move m = d' at hhandled
    cases hhandled with
    | ignored | refused => rfl
    | opened decodes unbound => cases unbound.symm.trans bound
    | unopened reached decodes unbound => cases unbound.symm.trans bound
    | queued decodes owner receiving => cases receiving.symm.trans finalizing
    | recorded reason byOwner owner receiving => cases receiving.symm.trans finalizing
    | acted es decodes unbound => cases unbound.symm.trans bound
  · rw [hjournal]
    exact deeds_append_of_ne ha.symm ..

/-- The run without the requests. -/
def withoutRequests (ms : List Move) : List Move := ms.filter fun m => !m.isRequest

/-- **Requests make no difference while the image is being finalized.** -/
theorem alike_withoutRequests (sound : d.Sound) (finalizing : d.session.state = .finalizing)
    (ms : List Move) (still : ¬(d.run ms).IsPast d.sessions) :
    (d.run ms).Alike (d.run (withoutRequests ms)) := by
  induction ms generalizing d with
  | nil => exact .refl _
  | cons m ms ih =>
    have hm := d.moved m
    rcases hrequest : m.isRequest
    · obtain ⟨hsessions, hsession⟩ := Settled.moved (.inl finalizing) sound hm
      have hsame : (d.move m).session = d.session := by
        refine hsession.resolve_right fun hidle => still ?_
        exact IsPast.run (.inr ⟨hsessions.symm, hidle⟩) (sound.moved hm) ms
      have hrest := ih (sound.moved hm) (hsame ▸ finalizing) (hsessions ▸ still)
      rwa [withoutRequests, List.filter_cons_of_pos (by simp [hrequest])]
    · have hrun : ((d.move m).run ms).Alike (d.run ms) :=
        (alike_of_isRequest sound finalizing hrequest).run ms
      have hrest := ih sound finalizing (by
        rwa [IsPast, ← hrun.session, ← hrun.sessions])
      rw [withoutRequests, List.filter_cons_of_neg (by simp [hrequest])]
      exact hrun.trans hrest

/-! ## Both -/

/-- What comes after an abort is recorded. -/
structure Abandons (d : Device) (ms : List Move) : Prop where
  stays : d.Stays ms
  unfinal : (d.run ms).sessions = d.sessions → (d.run ms).session.state ≠ .finalizing
  writes : d.writes ms = [] ∨ ∃ e, d.WritesNext e ∧ d.writes ms = [e]
  unclosed : ∀ e ∈ deeds d.taskActor (d.run ms).journal, e.triesClosing = false
  uncompleted : ∀ n, .event (.completed n) ∉ deeds d.taskActor (d.run ms).journal

/-- What comes after the finalization has begun. -/
structure Concludes (d : Device) (ms : List Move) : Prop where
  stays : d.Stays ms
  unaborted : (d.run ms).sessions = d.sessions → ∀ r, (d.run ms).session.state ≠ .aborted r
  requests : ¬(d.run ms).IsPast d.sessions →
    ∀ m, ((d.run ms).move m).Alike ((d.run (withoutRequests ms)).move m)
  outcome : (d.run ms).HasEnded d.sessions →
    (∀ point, .died point ∉ deeds d.taskActor (d.run ms).journal) →
    ((deeds d.taskActor (d.run ms).journal).filterMap Effect.verdict?
        = [.completed d.session.total] ↔
      closings (deeds d.taskActor (d.run ms).journal) = [(.finish, .ok ()), (.select, .ok ())])

/-- As long as the session is the latest, its state is the settled one, or it is over. -/
theorem Settled.state (h : d.Settled) (sound : d.Sound) {ms : List Move}
    (latest : (d.run ms).sessions = d.sessions) :
    (d.run ms).session.state = .idle ∨ (d.run ms).session.state = d.session.state := by
  rcases h.run sound ms with (hlt | ⟨-, hidle⟩) | ⟨-, hsame⟩
  · exact absurd hlt (latest ▸ Nat.lt_irrefl _)
  · exact .inl hidle
  · exact .inr (congrArg Session.state hsame)

theorem abandons_of_aborted {r : AbortReason} (sound : d.Sound) (chronicle : d.Chronicle)
    (aborted : d.session.state = .aborted r) (ms : List Move) : d.Abandons ms := by
  have settled : d.Settled := .inr ⟨r, aborted⟩
  have hdeeds : ∀ e ∈ deeds d.taskActor (d.run ms).journal,
      e.triesClosing = false ∧ ∀ n, e ≠ .event (.completed n) := by
    intro e he
    rw [deeds_run] at he
    rcases List.mem_append.mp he with he | he
    · exact chronicle.not_closing aborted he
    · exact doings_of_aborted sound aborted ms he
  refine ⟨settled.stays sound ms, fun latest => ?_, writes_of_aborted sound aborted ms,
    fun e he => (hdeeds e he).1, fun n he => (hdeeds _ he).2 n rfl⟩
  rcases settled.state sound latest with hstate | hstate <;> simp [hstate, aborted]

/-- **Abort and finalization exclude each other.**  Once an abort is recorded, the record stays
until the session is over, and neither is the partition closed or selected nor the session
completed; only the chunk at hand may still be written.  Once the image is being finalized, all of
it is there, no request makes a difference as long as the session is on, and it is completed iff
the partition could be closed and then selected. -/
theorem abort_excludes_finalization (config : Config) (firmware : Firmware) (ms : List Move) :
    let d := (fresh config firmware).run ms
    (∀ r, d.session.state = .aborted r → ∀ back, d.Abandons back) ∧
    (d.session.state = .finalizing →
      d.session.received = d.session.total ∧ ∀ back, d.Concludes back) := by
  intro d
  obtain ⟨sound, chronicle⟩ : d.Sound ∧ d.Chronicle := chronicle_run config firmware ms
  refine ⟨fun r aborted back => abandons_of_aborted sound chronicle aborted back,
    fun finalizing => ⟨received_of_finalizing config firmware ms finalizing, fun back => ?_⟩⟩
  have settled : d.Settled := .inl finalizing
  refine ⟨settled.stays sound back, fun latest r => ?_, fun still m => ?_, fun ended survived => ?_⟩
  · rcases settled.state sound latest with hstate | hstate <;> simp [hstate, finalizing]
  · exact (alike_withoutRequests sound finalizing back still).move m
  · obtain ⟨owner, -, opened⟩ := chronicle.current settled.ne_idle
    have chronicle' : (d.run back).Chronicle := by
      have hrun := (chronicle_run config firmware (ms ++ back)).2
      rwa [run_append] at hrun
    obtain ⟨body, done, outcome, received, flags, hes, work, closes, duties⟩ :=
      chronicle'.past_of_hasEnded (opening?_run opened back) ended survived
    rw [taskActor, hes, verdicts_eq work duties, closings_eq duties, closes.eq_iff,
      List.singleton_inj, Outcome.verdict_eq_iff]

theorem abort_excludes_finalization_brief :
    (∀ back, ((fresh .default .unknown).run (brief 3 ++ [.disconnect ⟨1, 1⟩])).Abandons back) ∧
      ∀ back, ((fresh .default .unknown).run (brief 7)).Concludes back := by
  have aborted : ((fresh .default .unknown).run (brief 3 ++ [.disconnect ⟨1, 1⟩])).session.state
      = .aborted .userDisconnect := by decide
  have finalizing : ((fresh .default .unknown).run (brief 7)).session.state = .finalizing := by
    decide
  exact ⟨(abort_excludes_finalization .default .unknown _).1 .userDisconnect aborted,
    ((abort_excludes_finalization .default .unknown (brief 7)).2 finalizing).2⟩

end Device

end OverTheAir
