import OverTheAir.Proofs.Journal
import OverTheAir.Proofs.Moves

/-!
# Proofs/Doings — what is done at a move, and by whom

At a move one actor does something (`does`), and the journal grows by just that (`journal_move`).
What matters most is read backwards here once more: a flash call is the doing of the session task at
the stage that makes it (`Called`), and so is the completion of a session (`Completes`).  What an
actor does in a run is the list of its `doings`.
-/

namespace OverTheAir

/-- A flash call, whether it is answered or the caller dies inside it. -/
def Effect.triesFlash : Effect → Bool
  | .flash _ _ => true
  | .died .begin => true
  | .died .write => true
  | .died .finish => true
  | .died .select => true
  | .died .abort => true
  | _ => false

/-- Who makes a move; what comes from outside, the handler takes up. -/
def Move.actor : Move → Actor
  | .step a => a
  | _ => .handler

theorem Move.actor_of_not_step {m : Move} (h : ∀ a, m ≠ .step a) : m.actor = .handler := by
  cases m with
  | step a => exact absurd rfl (h a)
  | _ => rfl

/-- A call that closes the partition or selects it, in the same sense. -/
def Effect.triesClosing : Effect → Bool
  | .flash .finish _ => true
  | .flash .select _ => true
  | .died .finish => true
  | .died .select => true
  | _ => false

theorem Effect.triesFlash_of_triesClosing {e : Effect} (h : e.triesClosing = true) :
    e.triesFlash = true := by
  cases e with
  | flash => rfl
  | died point => cases point <;> first | rfl | cases h
  | _ => cases h

/-- What the handler writes down when it refuses a frame. -/
def refusal (c : Client) (code : Refusal) (reached : Bool) : List Effect :=
  [.event (.rejected c code), .sent c (.error code) reached]

/-- A write, in the same sense. -/
def Effect.triesWrite : Effect → Bool
  | .flash (.write _) _ => true
  | .died .write => true
  | _ => false

theorem Effect.triesFlash_of_triesWrite {e : Effect} (h : e.triesWrite = true) :
    e.triesFlash = true := by
  cases e with
  | flash => rfl
  | died point => cases point <;> first | rfl | cases h
  | _ => cases h

namespace Device

open Journal

variable {d d' : Device} {t : SessionTask}

/-! ## What a move adds to the journal -/

/-- The session task makes a flash call and lives to see the answer. -/
inductive Called (d : Device) (call : FlashCall) (r : FlashResult) : Move → Device → Prop where
  | answered {t : SessionTask} {faults flash} (live : d.task = some t)
      (calls : t.stage.call? d.session.total = some call)
      (answer : d.flash.call call = (r, flash) ∨ flash = d.flash ∧ ∃ e, r = .error e) :
      Called d call r (.step d.taskActor)
        (({ d with faults, flash }.note d.taskActor (.flash call r)).goto t (t.stage.after r))

/-- The session task leaves with the session completed. -/
inductive Completes (d : Device) : Move → Device → Prop where
  | left {t : SessionTask} (live : d.task = some t) (atStage : t.stage = .leaving .completed) :
      Completes d (.step d.taskActor) (d.leave t .completed)

/-- An effect of a move, flash calls and completions being the doing of the session task. -/
structure Accounted (d : Device) (m : Move) (d' : Device) (e : Effect) : Prop where
  flash : ∀ call r, e = .flash call r → Called d call r m d'
  completed : ∀ n, e = .event (.completed n) → Completes d m d'
  tries : e.triesFlash = true → m = .step d.taskActor ∧
    ∃ t call, d.task = some t ∧ t.stage.call? d.session.total = some call ∧
      (e = .died call.point ∨ ∃ r, e = .flash call r)

/-- Most effects are neither. -/
theorem Accounted.of_other {m : Move} {e : Effect} (notFlash : e.triesFlash = false)
    (notCompleted : ∀ n, e ≠ .event (.completed n)) : Accounted d m d' e where
  flash call r h := by
    subst h
    cases notFlash
  completed n h := absurd h (notCompleted n)
  tries h := by
    rw [notFlash] at h
    cases h

theorem Handled.journal {m : Move} (h : Handled d m d') :
    m.actor = .handler ∧ ∃ es : List Effect,
      d'.journal = d.journal ++ es.map (Entry.mk .handler) ∧ ∀ e ∈ es, Accounted d m d' e := by
  have one : ∀ {e}, Accounted d m d' e → ∀ e' ∈ [e], Accounted d m d' e' :=
    fun he e' he' => List.mem_singleton.mp he' ▸ he
  have two : ∀ {e₁ e₂}, Accounted d m d' e₁ → Accounted d m d' e₂ →
      ∀ e' ∈ [e₁, e₂], Accounted d m d' e' := fun h₁ h₂ =>
    List.forall_mem_cons.mpr ⟨h₁, one h₂⟩
  cases h with
  | ignored => exact ⟨rfl, [], by simp, by simp⟩
  | refused code reached =>
    exact ⟨rfl, [.event (.rejected _ code), .sent _ (.error code) reached], rfl,
      two (.of_other rfl nofun) (.of_other rfl nofun)⟩
  | opened => exact ⟨rfl, [.event (.sessionStarted _ _)], rfl, one (.of_other rfl nofun)⟩
  | unopened reached =>
    exact ⟨rfl, [.event (.aborted .beginFailed 0), .sent _ (.abort .beginFailed) reached], rfl,
      two (.of_other rfl nofun) (.of_other rfl nofun)⟩
  | queued => exact ⟨rfl, [.queued _ _], rfl, one (.of_other rfl nofun)⟩
  | recorded _ byOwner =>
    refine ⟨?_, [], by simp, by simp⟩
    rcases byOwner with rfl | ⟨f, rfl⟩ <;> rfl
  | acted es _ _ effects =>
    refine ⟨rfl, es, rfl, fun e he => .of_other ?_ ?_⟩
    · have hact := effects e he
      cases e with
      | died point => cases point <;> first | rfl | cases hact
      | _ => first | rfl | cases hact
    · rintro n rfl
      simpa [Effect.isOfAction] using effects _ he

theorem Advanced.journal (live : d.task = some t) (h : Advanced d t d') :
    ∃ es : List Effect, d'.journal = d.journal ++ es.map (Entry.mk d.taskActor) ∧
      es.length ≤ 1 ∧ ∀ e ∈ es, Accounted d (.step d.taskActor) d' e := by
  -- the moves that change nothing but the state of the device
  have silent : d'.journal = d.journal → ∃ es : List Effect,
      d'.journal = d.journal ++ es.map (Entry.mk d.taskActor) ∧
      es.length ≤ 1 ∧ ∀ e ∈ es, Accounted d (.step d.taskActor) d' e :=
    fun h => ⟨[], by simp [h], Nat.zero_le 1, by simp⟩
  have once : ∀ e, d'.journal = d.journal ++ [⟨d.taskActor, e⟩] →
      Accounted d (.step d.taskActor) d' e → ∃ es : List Effect,
      d'.journal = d.journal ++ es.map (Entry.mk d.taskActor) ∧
      es.length ≤ 1 ∧ ∀ e ∈ es, Accounted d (.step d.taskActor) d' e :=
    fun e h he => ⟨[e], h, Nat.le_refl 1, fun e' he' => List.mem_singleton.mp he' ▸ he⟩
  cases h with
  | @died call faults calls =>
    exact once _ rfl ⟨nofun, nofun, fun _ => ⟨rfl, t, call, live, calls, .inl rfl⟩⟩
  | @called call r flash faults calls answer =>
    refine once (.flash call r) rfl
      ⟨?_, nofun, fun _ => ⟨rfl, t, call, live, calls, .inr ⟨r, rfl⟩⟩⟩
    rintro _ _ ⟨⟩
    exact .answered live calls answer
  | told | miscounted | progressed | filled => exact once _ rfl (.of_other rfl nofun)
  | @left outcome atStage =>
    rcases outcome with _ | reason
    · exact once (.event _) rfl ⟨nofun, fun _ _ => .left live atStage, nofun⟩
    · exact once (.event _) rfl (.of_other rfl nofun)
  | _ => exact silent rfl

/-- **A move adds to the journal what one actor does**, a step of an actor one effect at most. -/
theorem Moved.journal {m : Move} (h : Moved d m d') :
    ∃ es : List Effect, d'.journal = d.journal ++ es.map (Entry.mk m.actor) ∧
      (m.actor ≠ .handler → es.length ≤ 1) ∧ ∀ e ∈ es, Accounted d m d' e := by
  cases h with
  | handled h =>
    obtain ⟨ha, es, hjournal, hes⟩ := h.journal
    exact ⟨es, ha ▸ hjournal, fun hne => absurd ha hne, hes⟩
  | advanced live h =>
    obtain ⟨es, hjournal, hone, hes⟩ := h.journal live
    exact ⟨es, hjournal, fun _ => hone, hes⟩
  | performed other h =>
    obtain ⟨effect, takes, does⟩ := h
    refine ⟨[effect], rfl, fun _ => Nat.le_refl 1, fun e he => ?_⟩
    obtain rfl := List.mem_singleton.mp he
    cases e with
    | sent | broadcast | restarted => exact .of_other rfl nofun
    | _ => cases does
  | _ => exact ⟨[], by simp [goto], fun _ => Nat.zero_le 1, by simp⟩

/-! ## What a move leaves alone -/

/-- **The partition changes only by the calls of the task.** -/
theorem Moved.flash {m : Move} (h : Moved d m d') :
    d'.flash = d.flash ∨ ∃ call r, Called d call r m d' := by
  cases h with
  | handled h => cases h <;> exact .inl rfl
  | advanced live h =>
    cases h with
    | called calls answer => exact .inr ⟨_, _, .answered live calls answer⟩
    | _ => exact .inl rfl
  | performed other h =>
    obtain ⟨_, _, _⟩ := h
    exact .inl rfl
  | _ => exact .inl rfl

/-- **Sessions are counted up**, and only a device at rest with no update waiting opens one. -/
theorem Moved.sessions {m : Move} (h : Moved d m d') : d'.sessions = d.sessions ∨
    d'.sessions = d.sessions + 1 ∧ d.session.state = .idle ∧ d.pendingReboot = false ∧
      d'.session.state = .receiving ∧ d'.pendingReboot = false := by
  cases h with
  | handled h =>
    cases h with
    | opened decodes unbound idle parked notPending pos =>
      exact .inr ⟨rfl, idle, notPending, rfl, notPending⟩
    | _ => exact .inl rfl
  | advanced live h => cases h <;> exact .inl rfl
  | performed other h =>
    obtain ⟨_, _, _⟩ := h
    exact .inl rfl
  | _ => exact .inl rfl

/-- **A session is opened by a request for one**, for the client that sends it. -/
theorem Moved.opens {m : Move} (hm : Moved d m d') (grown : d'.sessions ≠ d.sessions) :
    ∃ c f total timeoutMs flags, m = .frame c f ∧
      Request.decode f = .ok (.start total timeoutMs flags) ∧ d' = { d with
        registry := ⟨some c⟩
        session := Session.opened total (d.config.timeoutFor timeoutMs) flags
        inbox := some []
        sessions := d.sessions + 1
        task := some ⟨.launched, false, !flags.needsVersionCheck⟩
        journal := d.journal ++ [⟨.handler, .event (.sessionStarted c total)⟩] } := by
  cases hm with
  | handled hm =>
    cases hm with
    | opened decodes => exact ⟨_, _, _, _, _, rfl, decodes, rfl⟩
    | _ => exact absurd rfl grown
  | advanced live hm => cases hm <;> exact absurd rfl grown
  | performed other hm =>
    obtain ⟨_, _, _⟩ := hm
    exact absurd rfl grown
  | _ => exact absurd rfl grown

theorem Moved.sessions_le {m : Move} (h : Moved d m d') : d.sessions ≤ d'.sessions := by
  rcases h.sessions with heq | ⟨heq, -⟩ <;> omega

/-- **An update waits for a reboot from the completion of a session on.** -/
theorem Moved.pendingReboot {m : Move} (h : Moved d m d') (notYet : d.pendingReboot = false)
    (pending : d'.pendingReboot = true) : Completes d m d' := by
  have same : d'.pendingReboot ≠ d.pendingReboot := by simp [notYet, pending]
  cases h with
  | handled h =>
    cases h with
    | acted es decodes unbound effects hpending duties =>
      rcases hpending with rfl | ⟨hwas, -⟩
      · exact absurd rfl same
      · simp [notYet] at hwas
    | _ => exact absurd rfl same
  | advanced live h =>
    cases h with
    | @left outcome atStage =>
      rcases outcome with _ | reason
      · exact .left live atStage
      · simp [leave, emit, note, notYet] at pending
    | _ => exact absurd rfl same
  | performed other h =>
    obtain ⟨_, _, _⟩ := h
    exact absurd rfl same
  | _ => exact absurd rfl same

/-! ## What is done at a move -/

/-- What is done at a move, by the one who makes it. -/
def does (d : Device) (m : Move) : List Effect :=
  ((d.move m).journal.drop d.journal.length).map Entry.effect

theorem does_eq {m : Move} {a : Actor} {es : List Effect}
    (h : (d.move m).journal = d.journal ++ es.map (Entry.mk a)) : d.does m = es := by
  rw [does, h, List.drop_left, List.map_map]
  exact List.map_id es

/-- A move that leaves the journal as it is does nothing. -/
theorem does_eq_nil {m : Move} (h : (d.move m).journal = d.journal) : d.does m = [] :=
  does_eq (a := .handler) (h.trans (List.append_nil _).symm)

/-- All that a refusal does. -/
theorem does_of_refuse {c : Client} {f : Bytes} {code : Refusal}
    (h : d.move (.frame c f) = d.refuse c code) :
    d.does (.frame c f) = refusal c code (!d.unreachable.contains c) := by
  refine does_eq (a := .handler) ?_
  rw [h, refuse, emit, send, note, note, List.append_assoc]
  rfl

/-- **The journal grows by what is done.** -/
theorem journal_move (d : Device) (m : Move) :
    (d.move m).journal = d.journal ++ (d.does m).map (Entry.mk m.actor) := by
  obtain ⟨es, hjournal, -⟩ := (d.moved m).journal
  rw [does_eq hjournal]
  exact hjournal

theorem accounted_of_does {m : Move} {e : Effect} (h : e ∈ d.does m) :
    Accounted d m (d.move m) e := by
  obtain ⟨es, hjournal, -, hes⟩ := (d.moved m).journal
  exact hes e (does_eq hjournal ▸ h)

/-- A step of an actor has one effect at most. -/
theorem length_does_le {m : Move} (h : m.actor ≠ .handler) : (d.does m).length ≤ 1 := by
  obtain ⟨es, hjournal, hone, -⟩ := (d.moved m).journal
  exact does_eq hjournal ▸ hone h

/-- A flash call is made by the task, at the stage that makes it. -/
theorem called_of_does {m : Move} {call : FlashCall} {r : FlashResult}
    (h : .flash call r ∈ d.does m) : Called d call r m (d.move m) :=
  (accounted_of_does h).flash call r rfl

/-- A session is said to be completed when its task leaves it so. -/
theorem completes_of_does {m : Move} {n : UInt32} (h : .event (.completed n) ∈ d.does m) :
    Completes d m (d.move m) :=
  (accounted_of_does h).completed n rfl

theorem Called.does {m : Move} {call : FlashCall} {r : FlashResult}
    (h : Called d call r m (d.move m)) : d.does m = [.flash call r] := by
  generalize hd' : d.move m = d' at h
  rcases h with ⟨live, calls, answer⟩
  exact does_eq (a := d.taskActor) (congrArg Device.journal hd')

/-- A task that leaves with its session completed says so. -/
theorem Completes.does {m : Move} (h : Completes d m (d.move m)) :
    d.does m = [.event (.completed d.session.total)] := by
  generalize hd' : d.move m = d' at h
  rcases h with ⟨live, atStage⟩
  exact does_eq (a := d.taskActor) (congrArg Device.journal hd')

/-- What is done at a move, by the kind of the move. -/
inductive Done (d : Device) (m : Move) : Prop where
  | handled (hm : Handled d m (d.move m))
  | advanced {t : SessionTask} (live : d.task = some t) (own : m = .step d.taskActor)
      (hm : Advanced d t (d.move m))
  /-- A duty is done. -/
  | performed {e : Effect} {duty : Duty} {errands : List Errand} (does : d.does m = [e])
      (isDuty : e.duty? = some duty) (takes : takeDuty m.actor d.errands = some (duty, errands))
  | nothing (does : d.does m = [])

theorem done (d : Device) (m : Move) : Done d m := by
  have hm := d.moved m
  generalize hd' : d.move m = d' at hm
  cases hm with
  | handled hm => exact .handled (hd' ▸ hm)
  | advanced live hm => exact .advanced live rfl (hd' ▸ hm)
  | @performed a _ _ hm =>
    obtain ⟨effect, takes, isDuty⟩ := hm
    have hdoes : d.does (.step a) = [effect] := does_eq (a := a) (congrArg Device.journal hd')
    exact .performed hdoes isDuty takes
  | _ => exact .nothing (does_eq_nil ((congrArg Device.journal hd').trans rfl))

/-! ## What is done in a run -/

/-- What an actor does in a run. -/
def doings (a : Actor) : Device → List Move → List Effect
  | _, [] => []
  | d, m :: ms => (if m.actor = a then d.does m else []) ++ doings a (d.move m) ms

theorem doings_append (a : Actor) (d : Device) (ms ns : List Move) :
    d.doings a (ms ++ ns) = d.doings a ms ++ (d.run ms).doings a ns := by
  induction ms generalizing d with
  | nil => rfl
  | cons m ms ih => rw [List.cons_append, doings, doings, ih, List.append_assoc, run_cons]

theorem doings_singleton (a : Actor) (d : Device) (m : Move) :
    d.doings a [m] = if m.actor = a then d.does m else [] := List.append_nil _

/-- A task does nothing when it is another's turn, -/
theorem doings_of_others {k : Nat} {m : Move} (h : m ≠ .step (.task k)) :
    d.doings (.task k) [m] = [] := by
  rw [doings_singleton, if_neg]
  intro byTask
  cases m with
  | step a => exact h (congrArg Move.step byTask)
  | _ => cases byTask

/-- and what it writes down when it is its own. -/
theorem doings_of_own {a : Actor} {es : List Effect} (journal : (d.move (.step a)).journal
    = d.journal ++ es.map (Entry.mk a)) : d.doings a [.step a] = es := by
  rw [doings_singleton, does_eq journal]
  exact if_pos rfl

/-- What a run adds to the journal is what its actors do. -/
theorem journal_run (d : Device) (ms : List Move) : ∃ j, (d.run ms).journal = d.journal ++ j ∧
    ∀ a, deeds a j = d.doings a ms := by
  induction ms generalizing d with
  | nil => exact ⟨[], (List.append_nil _).symm, fun _ => rfl⟩
  | cons m ms ih =>
    obtain ⟨j, journal, hdeeds⟩ := ih (d.move m)
    refine ⟨(d.does m).map (Entry.mk m.actor) ++ j, ?_, fun a => ?_⟩
    · rw [run_cons, journal, journal_move, List.append_assoc]
    · rw [deeds_append, hdeeds, doings]
      refine congrArg (· ++ _) ?_
      split
      · next ha =>
        subst ha
        exact deeds_append_self m.actor [] _
      · next ha => exact deeds_append_of_ne ha [] _

/-- **The deeds of an actor grow by its doings.** -/
theorem deeds_run (a : Actor) (d : Device) (ms : List Move) :
    deeds a (d.run ms).journal = deeds a d.journal ++ doings a d ms := by
  obtain ⟨j, journal, hdeeds⟩ := d.journal_run ms
  rw [journal, deeds_append, hdeeds]

theorem mem_deeds_move {a : Actor} {m : Move} {e : Effect} :
    e ∈ deeds a (d.move m).journal ↔ e ∈ deeds a d.journal ∨ m.actor = a ∧ e ∈ d.does m := by
  have grows := deeds_run a d [m]
  rw [run_cons, run_nil, doings_singleton] at grows
  rw [grows, List.mem_append]
  refine or_congr_right ?_
  split <;> simp_all

/-- **An entry of a run is written at one of its moves**, behind what is done at that move
before. -/
theorem entry_of_run {ms : List Move} {front back : Journal} {e : Entry}
    (split : (d.run ms).journal = d.journal ++ (front ++ e :: back)) :
    ∃ before m after es es', ms = before ++ m :: after ∧ e.actor = m.actor ∧
      (d.run before).does m = es ++ e.effect :: es' ∧
      d.journal ++ front = (d.run before).journal ++ es.map (Entry.mk m.actor) := by
  induction ms generalizing d front with
  | nil => exact absurd (congrArg List.length split) (by simp)
  | cons m ms ih =>
    obtain ⟨j, journal, -⟩ := (d.move m).journal_run ms
    -- an entry that comes behind the first move is written at a later one
    have later : ∀ front', d.journal ++ front = (d.move m).journal ++ front' →
        j = front' ++ e :: back → ∃ before m' after es es', m :: ms = before ++ m' :: after ∧
          e.actor = m'.actor ∧ (d.run before).does m' = es ++ e.effect :: es' ∧
          d.journal ++ front = (d.run before).journal ++ es.map (Entry.mk m'.actor) := by
      rintro front' front_eq rfl
      obtain ⟨before, m', after, es, es', rfl, actor, does, hfront⟩ := ih journal
      exact ⟨m :: before, m', after, es, es', rfl, actor, does, front_eq.trans hfront⟩
    rw [run_cons, journal, journal_move, List.append_assoc] at split
    rcases List.append_eq_append_iff.mp (List.append_cancel_left split) with
      ⟨front', rfl, rfl⟩ | ⟨written, hwritten, hj⟩
    · exact later front' (by rw [journal_move, List.append_assoc]) rfl
    rcases List.cons_eq_append_iff.mp hj with ⟨rfl, rfl⟩ | ⟨written', rfl, -⟩
    · refine later [] ?_ rfl
      rw [journal_move, hwritten, List.append_nil, List.append_nil]
    · obtain ⟨es, es', does, rfl, hes'⟩ := List.map_eq_append_iff.mp hwritten
      obtain ⟨effect, es'', rfl, rfl, -⟩ := List.map_eq_cons_iff.mp hes'
      exact ⟨[], m, ms, es, es'', rfl, rfl, does, rfl⟩

/-- What is done in a run is done at one of its moves. -/
theorem mem_doings {a : Actor} {e : Effect} {ms : List Move} : e ∈ doings a d ms ↔
    ∃ front m back, ms = front ++ m :: back ∧ m.actor = a ∧ e ∈ (d.run front).does m := by
  induction ms generalizing d with
  | nil => simp [doings]
  | cons m ms ih =>
    rw [doings, List.mem_append, ih]
    refine ⟨?_, ?_⟩
    · rintro (h | ⟨front, m', back, rfl, ha, he⟩)
      · split at h
        · exact ⟨[], m, ms, rfl, ‹_›, h⟩
        · cases h
      · exact ⟨m :: front, m', back, rfl, ha, he⟩
    · rintro ⟨_ | ⟨m₀, front⟩, m', back, heq, ha, he⟩
      · obtain ⟨rfl, rfl⟩ := List.cons.inj heq
        exact .inl ((if_pos ha).symm ▸ he)
      · obtain ⟨rfl, rfl⟩ := List.cons.inj heq
        exact .inr ⟨front, m', back, rfl, ha, he⟩

theorem mem_deeds_run {a : Actor} {e : Effect} (h : e ∈ deeds a d.journal) (ms : List Move) :
    e ∈ deeds a (d.run ms).journal := by
  rw [deeds_run]
  exact List.mem_append_left _ h

/-- An opening stays as it is for the rest of a run. -/
theorem opening?_run {k : Nat} {o : Client × UInt32} (h : opening? k d.journal = some o)
    (ms : List Move) : opening? k (d.run ms).journal = some o := by
  induction ms generalizing d with
  | nil => exact h
  | cons m ms ih =>
    refine ih ?_
    rw [journal_move]
    exact opening?_append h _

end Device

end OverTheAir
