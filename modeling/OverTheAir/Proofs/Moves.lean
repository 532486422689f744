import OverTheAir.Device.Run

/-!
# Proofs/Moves — everything a move can make of a device

The steps of `Device/Requests` and `Device/Task` are functions; here each is read backwards, once.
A move is one of

* a request that the handler answers (`Handled`),
* a step of the session task (`Advanced`),
* a duty done by an actor that has only duties left (`Performed`),
* a change around the device, or nothing.

`moved` says that this is all.  An invariant of runs is then one case analysis over `Moved`
(`run_induction`), and no later proof unfolds a step again.  Where it matters which way an action
went, `acted` tells its cases apart.
-/

namespace OverTheAir

/-! ## Stages that make a call -/

namespace Stage

/-- The flash call that a stage makes, in a session of `total` bytes. -/
def call? (total : UInt32) : Stage → Option FlashCall
  | .beginning => some (.begin total)
  | .writing chunk _ => some (.write chunk)
  | .closing => some .finish
  | .selecting => some .select
  | .aborting _ => some .abort
  | _ => none

/-- The five stages that make a call, and the calls. -/
theorem call?_cases {s : Stage} {total : UInt32} {call : FlashCall}
    (h : s.call? total = some call) :
    (s = .beginning ∧ call = .begin total) ∨
      (∃ chunk isEnd, s = .writing chunk isEnd ∧ call = .write chunk) ∨
      (s = .closing ∧ call = .finish) ∨ (s = .selecting ∧ call = .select) ∨
      ∃ reason, s = .aborting reason ∧ call = .abort := by
  match s, h with
  | .beginning, rfl => exact .inl ⟨rfl, rfl⟩
  | .writing chunk isEnd, rfl => exact .inr (.inl ⟨chunk, isEnd, rfl, rfl⟩)
  | .closing, rfl => exact .inr (.inr (.inl ⟨rfl, rfl⟩))
  | .selecting, rfl => exact .inr (.inr (.inr (.inl ⟨rfl, rfl⟩)))
  | .aborting reason, rfl => exact .inr (.inr (.inr (.inr ⟨reason, rfl, rfl⟩)))

theorem eq_selecting_of_call? {s : Stage} {total : UInt32} (h : s.call? total = some .select) :
    s = .selecting := by
  cases s <;> first | rfl | cases h

theorem eq_writing_of_call? {s : Stage} {total : UInt32} {chunk : Bytes}
    (h : s.call? total = some (.write chunk)) : ∃ isEnd, s = .writing chunk isEnd := by
  cases s with
  | writing chunk' isEnd =>
    obtain rfl : chunk' = chunk := by simpa [call?] using h
    exact ⟨isEnd, rfl⟩
  | _ => simp [call?] at h

/-- The stage after the flash call of a stage has been answered. -/
def after : Stage → FlashResult → Stage
  | .beginning, .ok () => .begun
  | .beginning, .error e => .aborting (Device.beginReason e)
  | .writing chunk isEnd, .ok () => .written chunk isEnd
  | .writing _ _, .error _ => .aborting .writeFailed
  | .closing, .ok () => .selecting
  | .closing, .error _ => .aborting .endFailed
  | .selecting, .ok () => .leaving .completed
  | .selecting, .error _ => .aborting .bootSelection
  | .aborting reason, _ => .leaving (.aborted reason)
  | s, _ => s

/-- Only a selection leads to a completed session. -/
theorem eq_select_of_after {s : Stage} {total : UInt32} {call : FlashCall} {r : FlashResult}
    (calls : s.call? total = some call) (h : s.after r = .leaving .completed) :
    call = .select ∧ r = .ok () := by
  cases s <;> simp only [call?, Option.some.injEq, reduceCtorEq] at calls <;> subst calls <;>
    rcases r with e | ⟨⟩ <;> simp [after] at h
  exact ⟨rfl, rfl⟩

/-- The stages at which the task looks for an abort. -/
def looksForAbort : Stage → Bool
  | .begun => true
  | .holding _ => true
  | .written _ _ => true
  | .ending => true
  | _ => false

/-- The stage after a chunk is dealt with. -/
def next (isEnd : Bool) : Stage := if isEnd then .ending else .awaiting 0

theorem next_ne {s : Stage} (ending : s ≠ .ending) (awaiting : s ≠ .awaiting 0) (isEnd : Bool) :
    next isEnd ≠ s := by
  rcases isEnd with _ | _
  · exact awaiting.symm
  · exact ending.symm

end Stage

/-- What the handler may do for an action. -/
def Effect.isOfAction : Effect → Bool
  | .firmware _ _ => true
  | .event (.actionPerformed _ _) => true
  | .sent _ (.action _ _) _ => true
  | .restarted => true
  | .died .markValid => true
  | .died .rollBack => true
  | .died .revert => true
  | _ => false

/-- The number that stands for the outcome of an action. -/
def resultCode : FlashResult → Int32
  | .ok () => 0
  | .error e => e.code

/-- What the handler writes down when it has taken an action. -/
def report (c : Client) (action : Action) (result : FlashResult) (reached : Bool) : List Effect :=
  [.event (.actionPerformed action (resultCode result)),
    .sent c (.action action (resultCode result)) reached]

/-- The duty that an effect does. -/
def Effect.duty? : Effect → Option Duty
  | .sent c frame _ => some (.tell c frame)
  | .broadcast except frame => some (.broadcast except frame)
  | .restarted => some .restart
  | _ => none

/-- Something that a client sends or that tells of one. -/
def Move.isRequest : Move → Bool
  | .frame _ _ => true
  | .disconnect _ => true
  | _ => false

namespace Device

/-! ## The four kinds of moves -/

/-- What the handler makes of a device. -/
inductive Handled (d : Device) : Move → Device → Prop where
  /-- The client that has gone makes no difference. -/
  | ignored {c} : Handled d (.disconnect c) d
  | refused {c f} (code reached) :
      Handled d (.frame c f) { d with journal := d.journal ++
        [⟨.handler, .event (.rejected c code)⟩, ⟨.handler, .sent c (.error code) reached⟩] }
  | opened {c f total timeoutMs flags}
      (decodes : Request.decode f = .ok (.start total timeoutMs flags))
      (unbound : d.registry.owner = none) (idle : d.session.state = .idle)
      (parked : d.writerParked = true) (notPending : d.pendingReboot = false)
      (pos : total ≠ 0) :
      Handled d (.frame c f) { d with
        registry := ⟨some c⟩
        session := Session.opened total (d.config.timeoutFor timeoutMs) flags
        inbox := some []
        sessions := d.sessions + 1
        task := some ⟨.launched, false, !flags.needsVersionCheck⟩
        journal := d.journal ++ [⟨.handler, .event (.sessionStarted c total)⟩] }
  /-- The task of the new session cannot be created. -/
  | unopened {c f total timeoutMs flags} (reached)
      (decodes : Request.decode f = .ok (.start total timeoutMs flags))
      (unbound : d.registry.owner = none) (idle : d.session.state = .idle)
      (parked : d.writerParked = true) (notPending : d.pendingReboot = false) :
      Handled d (.frame c f) { d with
        registry := Registry.empty
        session := Session.idle
        inbox := none
        spawnFails := false
        journal := d.journal ++ [⟨.handler, .event (.aborted .beginFailed 0)⟩,
          ⟨.handler, .sent c (.abort .beginFailed) reached⟩] }
  | queued {c f chunk isEnd queue} (decodes : Request.decode f = .ok (.state isEnd chunk))
      (owner : d.registry.owner = some c) (receiving : d.session.state = .receiving)
      (short : chunk.length ≤ d.config.maxChunkSize.toNat) (inbox : d.inbox = some queue)
      (taken : d.posting queue = .taken) :
      Handled d (.frame c f) { d with
        inbox := some (queue ++ [.data chunk isEnd])
        journal := d.journal ++ [⟨.handler, .queued chunk isEnd⟩] }
  /-- An abort is recorded, and the task woken if the inbox has room. -/
  | recorded {m c inbox} (reason) (byOwner : m = .disconnect c ∨ ∃ f, m = .frame c f)
      (owner : d.registry.owner = some c) (receiving : d.session.state = .receiving)
      (woken : inbox = d.inbox ∨ ∃ queue, d.inbox = some queue ∧ inbox = some (queue ++ [.wake])) :
      Handled d m { d with session := { d.session with state := .aborted reason }, inbox }
  | acted {c f action firmware faults pendingReboot spawnFails errands} (es : List Effect)
      (decodes : Request.decode f = .ok (.action action))
      (unbound : d.registry.owner = none)
      (effects : ∀ e ∈ es, e.isOfAction = true)
      (pending : pendingReboot = d.pendingReboot ∨ d.pendingReboot = true ∧ pendingReboot = false ∧
        action = .invalidateImage ∧ .firmware .revert (.ok ()) ∈ es)
      (duties : errands = d.errands ∨ errands = d.errands ++ [⟨.restarter, [.restart]⟩]) :
      Handled d (.frame c f) { d with
        firmware, faults, pendingReboot, spawnFails, errands
        journal := d.journal ++ es.map (Entry.mk .handler) }

/-- The byte counts of a task are out of range. -/
def Miscounts (d : Device) (t : SessionTask) : Prop :=
  (∃ chunk isEnd, t.stage = .measuring chunk isEnd ∧ d.session.fits? chunk.length = none) ∨
  ∃ chunk isEnd, t.stage = .written chunk isEnd ∧
    (d.session.advance? (UInt32.ofNat chunk.length) = none ∨
      ∃ s, d.session.advance? (UInt32.ofNat chunk.length) = some s ∧
        s.nextRequest? d.config.maxChunkSize = none)

/-- What a step of the session task makes of a device. -/
inductive Advanced (d : Device) (t : SessionTask) : Device → Prop where
  | equipped (atStage : t.stage = .launched) (parked : d.writerParked = true) :
      Advanced d t
        ({ d with writerParked := false }.goto { t with holdsWriter := true } .beginning)
  | unequipped (atStage : t.stage = .launched) (parked : d.writerParked = false) :
      Advanced d t (d.goto t (.leaving (.aborted .beginFailed)))
  | died {call faults} (calls : t.stage.call? d.session.total = some call) :
      Advanced d t ({ d with faults }.note d.taskActor (.died call.point)).die
  | called {call r flash faults} (calls : t.stage.call? d.session.total = some call)
      (answer : d.flash.call call = (r, flash) ∨ flash = d.flash ∧ ∃ e, r = .error e) :
      Advanced d t
        (({ d with faults, flash }.note d.taskActor (.flash call r)).goto t (t.stage.after r))
  | bailed {reason} (looks : t.stage.looksForAbort = true)
      (aborted : d.session.state = .aborted reason) : Advanced d t (d.goto t (.aborting reason))
  | greeted (atStage : t.stage = .begun) (notAborted : d.session.pendingAbort = none) :
      Advanced d t
        (d.goto t (.reporting (.state 0 (min d.session.total d.config.maxChunkSize)) false))
  | told {frame isEnd owner} (reached) (atStage : t.stage = .reporting frame isEnd)
      (bound : d.registry.owner = some owner) :
      Advanced d t ((d.note d.taskActor (.sent owner frame reached)).goto t (.next isEnd))
  | untold {frame isEnd} (atStage : t.stage = .reporting frame isEnd)
      (unbound : d.registry.owner = none) : Advanced d t (d.goto t (.next isEnd))
  | took {waited m queue} (atStage : t.stage = .awaiting waited)
      (inbox : d.inbox = some (m :: queue)) :
      Advanced d t ({ d with inbox := some queue }.goto t (.holding m))
  | orphaned {waited} (reason) (atStage : t.stage = .awaiting waited) (inbox : d.inbox = none) :
      Advanced d t (d.goto t (.aborting reason))
  | waitedOut {waited} (atStage : t.stage = .awaiting waited) (inbox : d.inbox = some [])
      (late : d.session.timeout ≤ waited) : Advanced d t (d.goto t .expired)
  | timedOut (atStage : t.stage = .expired) :
      Advanced d t ({ d with session := d.session.markAborted .timeout }.goto t
        (.aborting ((d.session.markAborted .timeout).pendingAbort.getD .timeout)))
  | woke (atStage : t.stage = .holding .wake) (notAborted : d.session.pendingAbort = none) :
      Advanced d t (d.goto t (.awaiting 0))
  | skipped {isEnd} (atStage : t.stage = .holding (.data [] isEnd))
      (notAborted : d.session.pendingAbort = none) : Advanced d t (d.goto t (.next isEnd))
  | looked {chunk isEnd} (atStage : t.stage = .holding (.data chunk isEnd))
      (notAborted : d.session.pendingAbort = none) (nonempty : chunk ≠ []) :
      Advanced d t (d.goto t (.measuring chunk isEnd))
  | overran {chunk isEnd} (atStage : t.stage = .measuring chunk isEnd)
      (overruns : d.session.fits? chunk.length = some false) :
      Advanced d t (d.goto t (.reporting (.error .packetSize) isEnd))
  | unvetted {chunk isEnd} (atStage : t.stage = .measuring chunk isEnd)
      (fits : d.session.fits? chunk.length = some true) (unchecked : t.versionChecked = false) :
      Advanced d t (d.goto t (.vetting chunk isEnd))
  | fitted {chunk isEnd} (atStage : t.stage = .measuring chunk isEnd)
      (fits : d.session.fits? chunk.length = some true) (checked : t.versionChecked = true) :
      Advanced d t (d.goto t (.writing chunk isEnd))
  /-- The version policy bars the image. -/
  | barred {chunk isEnd reason} (atStage : t.stage = .vetting chunk isEnd)
      (barred : d.policyCheck chunk = .error reason) : Advanced d t (d.goto t (.aborting reason))
  | admitted {chunk isEnd v} (atStage : t.stage = .vetting chunk isEnd)
      (admitted : d.policyCheck chunk = .ok v) :
      Advanced d t (d.goto { t with versionChecked := true } (.writing chunk isEnd))
  | miscounted {session} (miscounts : d.Miscounts t) :
      Advanced d t ({ d with session }.note d.taskActor .miscounted).die
  | accounted {chunk isEnd session requested} (atStage : t.stage = .written chunk isEnd)
      (notAborted : d.session.pendingAbort = none)
      (advances : d.session.advance? (UInt32.ofNat chunk.length) = some session)
      (requests : session.nextRequest? d.config.maxChunkSize = some requested) :
      Advanced d t ({ d with session }.goto t (.counted session.received requested isEnd))
  | progressed {received requested isEnd} (atStage : t.stage = .counted received requested isEnd)
      (short : received < d.session.total) :
      Advanced d t ((d.note d.taskActor (.event (.progress received d.session.total))).goto t
        (.reporting (.state received requested) isEnd))
  | filled {received requested isEnd} (atStage : t.stage = .counted received requested isEnd)
      (full : ¬received < d.session.total) :
      Advanced d t
        ((d.note d.taskActor (.event (.progress received d.session.total))).goto t (.next isEnd))
  | finalizing (atStage : t.stage = .ending) (notAborted : d.session.pendingAbort = none)
      (complete : d.session.received = d.session.total) :
      Advanced d t
        ({ d with session := { d.session with state := .finalizing } }.goto t .closing)
  | cutShort (atStage : t.stage = .ending) (notAborted : d.session.pendingAbort = none)
      (incomplete : d.session.received ≠ d.session.total) :
      Advanced d t (d.goto t (.aborting .endFailed))
  | left {outcome} (atStage : t.stage = .leaving outcome) : Advanced d t (d.leave t outcome)

/-- What doing a duty makes of a device. -/
inductive Performed (d : Device) (a : Actor) : Device → Prop where
  | did {duty errands firmware} (effect : Effect)
      (takes : takeDuty a d.errands = some (duty, errands)) (does : effect.duty? = some duty)
      (versions : firmware.running = d.firmware.running ∧
        firmware.lastInvalid = d.firmware.lastInvalid) :
      Performed d a { d with errands, firmware, journal := d.journal ++ [⟨a, effect⟩] }

/-- What a move makes of a device. -/
inductive Moved (d : Device) : Move → Device → Prop where
  | handled {m d'} (h : Handled d m d') : Moved d m d'
  | advanced {t d'} (live : d.task = some t) (h : Advanced d t d') : Moved d (.step d.taskActor) d'
  | performed {a d'} (other : d.task.isSome → a ≠ d.taskActor) (h : Performed d a d') :
      Moved d (.step a) d'
  | stuck {a} : Moved d (.step a) d
  | waited {t waited} (ms) (live : d.task = some t) (atStage : t.stage = .awaiting waited) :
      Moved d (.pass ms) (d.goto t (.awaiting (waited + ms)))
  | passed {ms} : Moved d (.pass ms) d
  /-- Something changes around the device. -/
  | around {m} (faults spawnFails unreachable pendingVerify)
      (outside : ∀ c f, m ≠ .frame c f) (still : ∀ a, m ≠ .step a) :
      Moved d m { d with
        faults, spawnFails, unreachable
        firmware := { d.firmware with pendingVerify } }

variable {d d' : Device} {t : SessionTask}

/-- A task that goes to a stage stands there. -/
theorem stage_of_goto {t' : SessionTask} {s : Stage} (live' : (d.goto t s).task = some t') :
    t'.stage = s := by
  obtain rfl := Option.some.inj live'
  rfl

/-! ## Requests -/

section Decoded

variable {c : Client} {f : Bytes}

theorem move_of_start {total : UInt32} {timeoutMs : UInt16} {flags : SessionFlags}
    (decodes : Request.decode f = .ok (.start total timeoutMs flags)) :
    d.move (.frame c f) = d.start c total timeoutMs flags := by
  rw [move, receive, decodes]

theorem move_of_data {isEnd : Bool} {payload : Bytes}
    (decodes : Request.decode f = .ok (.state isEnd payload)) :
    d.move (.frame c f) = d.data c isEnd payload := by
  rw [move, receive, decodes]

theorem move_of_abort (decodes : Request.decode f = .ok .abort) :
    d.move (.frame c f) = d.abort c := by
  rw [move, receive, decodes]

theorem move_of_action {action : Action} (decodes : Request.decode f = .ok (.action action)) :
    d.move (.frame c f) = d.act c action := by
  rw [move, receive, decodes]

end Decoded

theorem handled_refuse (c : Client) (f : Bytes) (code : Refusal) :
    Handled d (.frame c f) (d.refuse c code) := by
  have h := Handled.refused (d := d) (c := c) (f := f) code (!d.unreachable.contains c)
  simpa only [refuse, emit, send, note, List.append_assoc, List.cons_append, List.nil_append]
    using h

theorem handled_start {c : Client} {f : Bytes} {total : UInt32} {timeoutMs : UInt16}
    {flags : SessionFlags} (decodes : Request.decode f = .ok (.start total timeoutMs flags)) :
    Handled d (.frame c f) (d.start c total timeoutMs flags) := by
  rw [start]
  split
  · exact handled_refuse ..
  rename_i hfree
  simp only [Bool.or_eq_true, Bool.not_eq_true', not_or, Bool.not_eq_true, Bool.not_eq_false]
    at hfree
  obtain ⟨⟨hunbound, hidle⟩, parked⟩ := hfree
  have unbound : d.registry.owner = none := by simpa [Registry.isBound] using hunbound
  have idle : d.session.state = .idle := by simpa [Session.isIdle] using hidle
  split
  · exact handled_refuse ..
  rename_i hpending
  have notPending : d.pendingReboot = false := by simpa using hpending
  split
  · exact handled_refuse ..
  rename_i pos
  have hbind : d.registry.bind c = .ok ⟨some c⟩ := by
    simp [Registry.bind, Registry.isBound, unbound]
  rw [hbind]
  dsimp only
  split
  · have h := Handled.unopened (c := c) (!d.unreachable.contains c) decodes unbound idle parked
      notPending
    simpa only [emit, send, note, Registry.release, List.append_assoc, List.cons_append,
      List.nil_append] using h
  · exact .opened decodes unbound idle parked notPending pos

/-- Who may speak for the session is its owner. -/
theorem owner_of_authorize {c : Client} (h : d.authorize c = .ok ()) :
    d.registry.owner = some c := by
  rw [authorize] at h
  split at h
  · cases h
  · split at h
    · cases h
    · rename_i hverify
      simpa [Registry.verify] using hverify

theorem handled_data {c : Client} {f chunk : Bytes} {isEnd : Bool}
    (decodes : Request.decode f = .ok (.state isEnd chunk)) :
    Handled d (.frame c f) (d.data c isEnd chunk) := by
  rw [data]
  split
  · exact handled_refuse ..
  rename_i hauth
  have owner := owner_of_authorize hauth
  split
  · exact handled_refuse ..
  · exact handled_refuse ..
  · exact handled_refuse ..
  rename_i receiving
  split
  · exact handled_refuse ..
  rename_i hshort
  split
  · exact handled_refuse ..
  rename_i queue inbox
  split
  · exact .queued decodes owner receiving (Nat.le_of_not_lt hshort) inbox ‹_›
  · have hmark : d.session.markAborted .writeFailed
        = { d.session with state := .aborted .writeFailed } :=
      if_pos (by simp [Session.isReceiving, receiving])
    rw [hmark]
    exact .recorded _ (.inr ⟨f, rfl⟩) owner receiving (.inl rfl)
  · exact handled_refuse ..

/-- An abort is recorded while the session is receiving, and the task woken. -/
theorem handled_wake {m : Move} {c : Client} (byOwner : m = .disconnect c ∨ ∃ f, m = .frame c f)
    (owner : d.registry.owner = some c) (receiving : d.session.state = .receiving)
    (reason : AbortReason) :
    Handled d m { d with session := d.session.markAborted reason }.wake := by
  have hmark : d.session.markAborted reason = { d.session with state := .aborted reason } :=
    if_pos (by simp [Session.isReceiving, receiving])
  rw [hmark]
  rw [wake]
  split
  · exact .recorded reason byOwner owner receiving (.inl rfl)
  · rename_i queue inbox
    split
    · exact .recorded reason byOwner owner receiving (.inr ⟨queue, inbox, rfl⟩)
    · exact .recorded reason byOwner owner receiving (.inl rfl)

theorem handled_abort (c : Client) (f : Bytes) : Handled d (.frame c f) (d.abort c) := by
  rw [abort]
  split
  · exact handled_refuse ..
  rename_i hauth
  split
  · exact handled_wake (.inr ⟨f, rfl⟩) (owner_of_authorize hauth) ‹_› _
  · exact handled_refuse ..
  · exact handled_refuse ..
  · exact handled_refuse ..

theorem handled_disconnect (c : Client) : Handled d (.disconnect c) (d.disconnect c) := by
  rw [disconnect]
  split
  · rename_i h
    simp only [Bool.and_eq_true, Registry.verify, Session.isReceiving, beq_iff_eq] at h
    exact handled_wake (.inl rfl) h.1 h.2 _
  · exact .ignored

/-! ## Actions -/

/-- The restart that an action asks for, and what it leaves to do. -/
inductive Restarts (action : Action) (errands : List Errand) : List Effect → List Errand → Prop where
  | none (other : action ≠ .reset) : Restarts action errands [] errands
  /-- There is no thread to be had. -/
  | atOnce (reset : action = .reset) : Restarts action errands [.restarted] errands
  | later (reset : action = .reset) :
      Restarts action errands [] (errands ++ [⟨.restarter, [.restart]⟩])

section Restarts

variable {action : Action} {errands errands' : List Errand} {restarts : List Effect}

theorem Restarts.effects (h : Restarts action errands restarts errands') :
    restarts = [] ∨ action = .reset ∧ restarts = [.restarted] := by
  cases h with
  | none | later => exact .inl rfl
  | atOnce reset => exact .inr ⟨reset, rfl⟩

theorem Restarts.duties (h : Restarts action errands restarts errands') :
    errands' = errands ∨ errands' = errands ++ [⟨.restarter, [.restart]⟩] := by
  cases h with
  | none | atOnce => exact .inl rfl
  | later => exact .inr rfl

/-- All that is done once an action is done is of the action. -/
theorem Restarts.isOfAction (h : Restarts action errands restarts errands') (c : Client)
    (result : FlashResult) (reached : Bool) :
    ∀ e ∈ report c action result reached ++ restarts, e.isOfAction = true := by
  cases h with
  | none | later => simp [report, Effect.isOfAction]
  | atOnce => simp [report, Effect.isOfAction]

end Restarts

/-- A reset that finds no thread restarts at once. -/
theorem scheduleRestart_eq (d : Device) : ∃ firmware spawnFails errands restarts,
    d.scheduleRestart = { d with
      firmware, spawnFails, errands, journal := d.journal ++ List.map (.mk .handler) restarts } ∧
    Restarts .reset d.errands restarts errands := by
  rw [scheduleRestart]
  split
  · exact ⟨d.firmware.restart, false, d.errands, [.restarted], rfl, .atOnce rfl⟩
  · exact ⟨d.firmware, d.spawnFails, _, [], by rw [List.map_nil, List.append_nil], .later rfl⟩

/-- **An action that is done is reported**, and only a reset asks for a restart.  A revert that
succeeds ends the wait for a reboot, and nothing else does. -/
theorem finishAction_eq (d : Device) (c : Client) (action : Action) (result : FlashResult) :
    ∃ firmware pendingReboot spawnFails errands restarts,
      d.finishAction c action result = { d with
        firmware, pendingReboot, spawnFails, errands
        journal := d.journal ++ List.map (.mk .handler)
          (report c action result (!d.unreachable.contains c) ++ restarts) } ∧
      (pendingReboot = d.pendingReboot ∨ d.pendingReboot = true ∧ pendingReboot = false ∧
        action = .invalidateImage ∧ result = .ok ()) ∧
      Restarts action d.errands restarts errands := by
  obtain ⟨pendingReboot, hpending, hreverted⟩ : ∃ p, (if action == .invalidateImage &&
        d.pendingReboot && result.isOk then { d with pendingReboot := false } else d)
        = { d with pendingReboot := p } ∧
      (p = d.pendingReboot ∨ d.pendingReboot = true ∧ p = false ∧ action = .invalidateImage ∧
        result = .ok ()) := by
    split
    · rename_i h
      simp only [Bool.and_eq_true, beq_iff_eq] at h
      obtain ⟨⟨hact, hp⟩, hok⟩ := h
      refine ⟨false, rfl, .inr ⟨hp, rfl, hact, ?_⟩⟩
      rcases result with e | ⟨⟩
      · cases hok
      · rfl
    · exact ⟨d.pendingReboot, rfl, .inl rfl⟩
  have reports : d.finishAction c action result =
      let d' := { d with
        pendingReboot
        journal := d.journal ++ List.map (.mk .handler)
          (report c action result (!d.unreachable.contains c)) }
      if action = .reset then d'.scheduleRestart else d' := by
    simp only [finishAction, hpending, emit, send, note, List.append_assoc]
    rfl
  rw [reports]
  dsimp only
  split
  · next reset =>
    obtain ⟨firmware, spawnFails, errands, restarts, heq, restarting⟩ := scheduleRestart_eq
      { d with
        pendingReboot
        journal := d.journal ++ List.map (.mk .handler)
          (report c action result (!d.unreachable.contains c)) }
    refine ⟨firmware, pendingReboot, spawnFails, errands, restarts, ?_, hreverted,
      reset ▸ restarting⟩
    rw [heq, List.map_append, List.append_assoc]
  · next other =>
    refine ⟨d.firmware, pendingReboot, d.spawnFails, d.errands, [], ?_, hreverted, .none other⟩
    rw [List.append_nil]

/-- What an action makes of a device, by the call to the firmware that it comes down to. -/
inductive Acted (d : Device) (c : Client) (action : Action) : Device → Prop where
  | barred (bound : d.registry.isBound = true) :
      Acted d c action (d.refuse c (if d.registry.verify c then .wrongTime else .wrongUser))
  | pointless (unbound : d.registry.owner = none)
      (due : actionCall? action d.firmware.pendingVerify d.pendingReboot = none) :
      Acted d c action (d.refuse c .wrongTime)
  | uncalled (unbound : d.registry.owner = none)
      (due : actionCall? action d.firmware.pendingVerify d.pendingReboot = some none) :
      Acted d c action (d.finishAction c action (.ok ()))
  /-- The call is answered by the firmware, or is made to fail. -/
  | called {call mishap? faults result firmware} (unbound : d.registry.owner = none)
      (due : actionCall? action d.firmware.pendingVerify d.pendingReboot = some (some call))
      (drawn : Fault.draw call.point d.faults = (mishap?, faults))
      (answer : d.firmware.call call = (result, firmware) ∨
        ∃ e, mishap? = some (.failure e) ∧ result = .error e) :
      Acted d c action (finishAction { d with
        firmware, faults, journal := d.journal ++ [⟨.handler, .firmware call result⟩] }
          c action result)
  /-- The handler dies inside the call. -/
  | died {call faults} (unbound : d.registry.owner = none)
      (due : actionCall? action d.firmware.pendingVerify d.pendingReboot = some (some call))
      (drawn : Fault.draw call.point d.faults = (some .death, faults)) :
      Acted d c action { d with
        faults, journal := d.journal ++ [⟨.handler, .died call.point⟩] }

/-- **Every action is one of these.** -/
theorem acted (d : Device) (c : Client) (action : Action) : d.Acted c action (d.act c action) := by
  rw [act]
  split
  · exact .barred ‹_›
  next free =>
  have unbound : d.registry.owner = none := by simpa [Registry.isBound] using free
  split
  · exact .pointless unbound ‹_›
  · exact .uncalled unbound ‹_›
  · next call due =>
    rcases drawn : Fault.draw call.point d.faults with ⟨_ | e | _, faults⟩
    · simp only [callFirmware, drawn]
      exact .called unbound due drawn (.inl rfl)
    · simp only [callFirmware, drawn]
      exact .called unbound due drawn (.inr ⟨e, rfl, rfl⟩)
    · simp only [callFirmware, drawn]
      exact .died unbound due drawn

/-- The only call for an invalidation while an update waits is the revert. -/
theorem eq_revert_of_actionCall? {pendingVerify : Bool} {call : FirmwareCall}
    (h : actionCall? .invalidateImage pendingVerify true = some (some call)) : call = .revert := by
  simpa [actionCall?] using h.symm

theorem handled_act {c : Client} {f : Bytes} {action : Action}
    (decodes : Request.decode f = .ok (.action action)) :
    Handled d (.frame c f) (d.act c action) := by
  have hacted := d.acted c action
  generalize d.act c action = d' at hacted ⊢
  cases hacted with
  | barred | pointless => exact handled_refuse ..
  | uncalled unbound due =>
    obtain ⟨firmware, pendingReboot, spawnFails, errands, restarts, heq, hpending, restarting⟩ :=
      d.finishAction_eq c action (.ok ())
    rw [heq]
    refine .acted _ decodes unbound (restarting.isOfAction _ _ _) ?_ restarting.duties
    -- an action that needs no call is no invalidation of an update that waits
    rcases hpending with h | ⟨hp, -, rfl, -⟩
    · exact .inl h
    · simp [actionCall?, hp] at due
  | @called call _ faults result firmware unbound due =>
    obtain ⟨firmware', pendingReboot, spawnFails, errands, restarts, heq, hpending, restarting⟩ :=
      finishAction_eq { d with
        firmware, faults, journal := d.journal ++ [⟨.handler, .firmware call result⟩] }
          c action result
    rw [heq, List.append_assoc]
    refine .acted (.firmware call result :: _) decodes unbound
      (List.forall_mem_cons.mpr ⟨rfl, restarting.isOfAction _ _ _⟩) ?_ restarting.duties
    rcases hpending with h | ⟨hp, hfalse, rfl, rfl⟩
    · exact .inl h
    · have hp : d.pendingReboot = true := hp
      rw [hp] at due
      rw [eq_revert_of_actionCall? due]
      exact .inr ⟨hp, hfalse, rfl, List.mem_cons_self⟩
  | @died call _ unbound =>
    refine .acted [.died call.point] decodes unbound ?_ (.inl rfl) (.inl rfl)
    cases call <;> simp [FirmwareCall.point, Effect.isOfAction]

/-- **Every frame is handled in one of these ways.** -/
theorem handled_receive (c : Client) (f : Bytes) : Handled d (.frame c f) (d.receive c f) := by
  rw [receive]
  split
  · exact handled_start ‹_›
  · exact handled_data ‹_›
  · exact handled_abort c f
  · exact handled_act ‹_›
  · exact handled_refuse ..

theorem Handled.isRequest {m : Move} {d' : Device} (h : Handled d m d') : m.isRequest = true := by
  cases h with
  | recorded _ byOwner => rcases byOwner with rfl | ⟨f, rfl⟩ <;> rfl
  | _ => rfl

theorem handled_of_isRequest {m : Move} (h : m.isRequest = true) : Handled d m (d.move m) := by
  cases m with
  | frame c f => exact handled_receive c f
  | disconnect c => exact handled_disconnect c
  | _ => cases h

/-! ## The session task -/

theorem advanced_flashStep {call : FlashCall} {onOk : Stage} {onError : FlashError → Stage}
    (calls : t.stage.call? d.session.total = some call) (hok : t.stage.after (.ok ()) = onOk)
    (herror : ∀ e, t.stage.after (.error e) = onError e) :
    Advanced d t (d.flashStep t call onOk onError) := by
  rw [flashStep, callFlash]
  rcases hdraw : Fault.draw call.point d.faults with ⟨mishap, faults⟩
  rcases mishap with _ | e | _
  · dsimp only
    rcases hcall : d.flash.call call with ⟨r, flash⟩
    have h : Advanced d t
        (({ d with faults, flash }.note d.taskActor (.flash call r)).goto t (t.stage.after r)) :=
      .called calls (.inl hcall)
    rcases r with e | ⟨⟩
    · rwa [herror] at h
    · rwa [hok] at h
  · have h : Advanced d t (({ d with faults, flash := d.flash }.note d.taskActor
        (.flash call (.error e))).goto t (t.stage.after (.error e))) :=
      .called calls (.inr ⟨rfl, e, rfl⟩)
    rwa [herror] at h
  · exact .died calls

theorem advanced_unlessAborted {go : Device → Device} (looks : t.stage.looksForAbort = true)
    (h : d.session.pendingAbort = none → Advanced d t (go d)) :
    Advanced d t (d.unlessAborted t go) := by
  rw [unlessAborted]
  split
  · exact .bailed looks (Session.pendingAbort_eq_some_iff.mp ‹_›)
  · exact h ‹_›

theorem advanced_consider {m : Message} (atStage : t.stage = .holding m)
    (notAborted : d.session.pendingAbort = none) : Advanced d t (d.consider t m) := by
  unfold consider
  split
  · exact .woke atStage notAborted
  rename_i chunk isEnd
  split
  · rename_i hempty
    obtain rfl : chunk = [] := List.isEmpty_iff.mp hempty
    exact .skipped atStage notAborted
  · rename_i hnonempty
    exact .looked atStage notAborted fun h => hnonempty (List.isEmpty_iff.mpr h)

theorem advanced_measure {chunk : Bytes} {isEnd : Bool}
    (atStage : t.stage = .measuring chunk isEnd) : Advanced d t (d.measure t chunk isEnd) := by
  rw [measure]
  split
  · exact .miscounted (.inl ⟨chunk, isEnd, atStage, ‹_›⟩)
  · exact .overran atStage ‹_›
  · split
    · exact .fitted atStage ‹_› ‹_›
    · exact .unvetted atStage ‹_› (eq_false_of_ne_true ‹_›)

theorem advanced_vet {chunk : Bytes} {isEnd : Bool} (atStage : t.stage = .vetting chunk isEnd) :
    Advanced d t (d.vet t chunk isEnd) := by
  rw [vet]
  split
  · exact .admitted atStage ‹_›
  · exact .barred atStage ‹_›

/-- The move of a task that has something to do is its step. -/
theorem move_of_taskStep (live : d.task = some t) (h : d.taskStep t = some d') :
    d.move (.step d.taskActor) = d' := by
  change (d.step d.taskActor).getD d = d'
  rw [step, live]
  simp only [if_true, h, Option.getD_some]

/-- A chunk is measured whether or not an abort is recorded. -/
theorem move_of_measuring {chunk : Bytes} {isEnd : Bool} (live : d.task = some t)
    (atStage : t.stage = .measuring chunk isEnd) :
    d.move (.step d.taskActor) = d.measure t chunk isEnd :=
  move_of_taskStep live (by simp only [taskStep, atStage])

/-- So is the policy applied to it. -/
theorem move_of_vetting {chunk : Bytes} {isEnd : Bool} (live : d.task = some t)
    (atStage : t.stage = .vetting chunk isEnd) :
    d.move (.step d.taskActor) = d.vet t chunk isEnd :=
  move_of_taskStep live (by simp only [taskStep, atStage])

/-- When a wait was in vain, it is recorded that time is up. -/
theorem move_of_expired (live : d.task = some t) (atStage : t.stage = .expired) :
    d.move (.step d.taskActor) = d.expire t :=
  move_of_taskStep live (by simp only [taskStep, atStage])

theorem advanced_account {chunk : Bytes} {isEnd : Bool} (atStage : t.stage = .written chunk isEnd)
    (notAborted : d.session.pendingAbort = none) : Advanced d t (d.account t chunk isEnd) := by
  rw [account]
  split
  · exact .miscounted (.inr ⟨chunk, isEnd, atStage, .inl ‹_›⟩)
  · rename_i session advances
    split
    · exact .miscounted (.inr ⟨chunk, isEnd, atStage, .inr ⟨session, advances, ‹_›⟩⟩)
    · exact .accounted atStage notAborted advances ‹_›

theorem advanced_await {waited : Nat} (atStage : t.stage = .awaiting waited)
    (h : d.await t waited = some d') : Advanced d t d' := by
  rw [await] at h
  split at h
  · obtain rfl := Option.some.inj h
    exact .orphaned _ atStage ‹_›
  · obtain rfl := Option.some.inj h
    exact .took atStage ‹_›
  · split at h
    · cases h
    · obtain rfl := Option.some.inj h
      exact .waitedOut atStage ‹_› (Nat.le_of_not_lt ‹_›)

/-- **Every step of the session task is one of these.** -/
theorem advanced_taskStep (h : d.taskStep t = some d') : Advanced d t d' := by
  rcases hs : t.stage with _ | _ | _ | ⟨frame, isEnd⟩ | waited | _ | m | ⟨chunk, isEnd⟩ |
    ⟨chunk, isEnd⟩ | ⟨chunk, isEnd⟩ | ⟨chunk, isEnd⟩ | ⟨received, requested, isEnd⟩ | _ | _ | _ |
    reason | outcome <;>
    simp only [taskStep, hs, Option.some.injEq] at h
  case awaiting => exact advanced_await hs h
  all_goals subst h
  case launched =>
    rw [takeWriter]
    split
    · exact .equipped hs ‹_›
    · exact .unequipped hs (by simpa using ‹¬d.writerParked = true›)
  case beginning => refine advanced_flashStep ?_ ?_ fun e => ?_ <;> rw [hs] <;> rfl
  case begun => exact advanced_unlessAborted (by rw [hs]; rfl) fun h => .greeted hs h
  case reporting =>
    rw [tellOwner]
    split
    · exact .told _ hs ‹_›
    · exact .untold hs ‹_›
  case expired => exact .timedOut hs
  case holding => exact advanced_unlessAborted (by rw [hs]; rfl) fun h => advanced_consider hs h
  case measuring => exact advanced_measure hs
  case vetting => exact advanced_vet hs
  case writing => refine advanced_flashStep ?_ ?_ fun e => ?_ <;> rw [hs] <;> rfl
  case written => exact advanced_unlessAborted (by rw [hs]; rfl) fun h => advanced_account hs h
  case counted =>
    simp only [tellProgress]
    change Advanced d t (if _ < d.session.total then _ else _)
    split
    · exact .progressed hs ‹_›
    · exact .filled hs ‹_›
  case ending =>
    refine advanced_unlessAborted (by rw [hs]; rfl) fun h => ?_
    rw [finalize]
    split
    · exact .finalizing hs h (by simpa [Session.isComplete] using ‹d.session.isComplete = true›)
    · exact .cutShort hs h (by simpa [Session.isComplete] using ‹¬d.session.isComplete = true›)
  case closing => refine advanced_flashStep ?_ ?_ fun e => ?_ <;> rw [hs] <;> rfl
  case selecting => refine advanced_flashStep ?_ ?_ fun e => ?_ <;> rw [hs] <;> rfl
  case aborting => refine advanced_flashStep ?_ ?_ fun e => ?_ <;> rw [hs] <;> rfl
  case leaving => exact .left hs

/-- The task has no step only while it waits for a message. -/
theorem awaiting_of_step (live : d.task = some t) (still : d.step d.taskActor = none) :
    ∃ waited, t.stage = .awaiting waited ∧ d.inbox = some [] := by
  have hstep : d.taskStep t = none := by simpa [step, live] using still
  cases hs : t.stage <;> simp only [taskStep, hs, reduceCtorEq] at hstep
  rename_i waited
  refine ⟨waited, rfl, ?_⟩
  rw [await] at hstep
  split at hstep
  · cases hstep
  · cases hstep
  · assumption

/-! ## Duties, and every move -/

/-- An actor that is not the task of the session has duties only. -/
theorem step_of_free {a : Actor} (free : ∀ t, d.task = some t → a ≠ d.taskActor) :
    d.step a = d.errandStep a := by
  rw [step]
  split
  · next t live => exact if_neg (free t live)
  · rfl

theorem performed_errandStep {a : Actor} (h : d.errandStep a = some d') : Performed d a d' := by
  obtain ⟨⟨duty, errands⟩, takes, rfl⟩ := Option.map_eq_some_iff.mp h
  rcases duty with ⟨c, frame⟩ | ⟨except, frame⟩ | _
  · exact .did (.sent c frame (!d.unreachable.contains c)) takes rfl ⟨rfl, rfl⟩
  · exact .did (.broadcast except frame) takes rfl ⟨rfl, rfl⟩
  · exact .did .restarted takes rfl ⟨rfl, rfl⟩

/-- **Every move is one of these.** -/
theorem moved (d : Device) (m : Move) : Moved d m (d.move m) := by
  rcases m with ⟨c, f⟩ | c | a | ms | fault | _ | c | pending
  · exact .handled (handled_receive c f)
  · exact .handled (handled_disconnect c)
  · change Moved d (.step a) ((d.step a).getD d)
    rcases hstep : d.step a with _ | d'
    · exact .stuck
    rw [step] at hstep
    split at hstep
    · rename_i t live
      split at hstep
      · rename_i ha
        rw [ha]
        exact .advanced live (advanced_taskStep hstep)
      · exact .performed (fun _ => ‹_›) (performed_errandStep hstep)
    · rename_i dead
      exact .performed (fun h => by simp [dead] at h) (performed_errandStep hstep)
  · change Moved d (.pass ms) (d.pass ms)
    rw [pass]
    split
    · rename_i t live
      split
      · exact .waited ms live ‹_›
      · exact .passed
    · exact .passed
  · exact .around (d.faults ++ [fault]) d.spawnFails d.unreachable d.firmware.pendingVerify
      (by simp) (by simp)
  · exact .around d.faults true d.unreachable d.firmware.pendingVerify (by simp) (by simp)
  · exact .around d.faults d.spawnFails (c :: d.unreachable) d.firmware.pendingVerify (by simp)
      (by simp)
  · exact .around d.faults d.spawnFails d.unreachable pending (by simp) (by simp)

/-- **The installed images stay the same while a session is on**, so its task may ask for their
versions one after the other. -/
theorem Moved.versions {m : Move} (hm : Moved d m d') (bound : d.registry.owner ≠ none) :
    d'.firmware.running = d.firmware.running ∧
      d'.firmware.lastInvalid = d.firmware.lastInvalid := by
  cases hm with
  | handled hm =>
    cases hm with
    | acted es decodes unbound => exact absurd unbound bound
    | _ => exact ⟨rfl, rfl⟩
  | advanced live hm => cases hm <;> exact ⟨rfl, rfl⟩
  | performed other hm =>
    obtain ⟨effect, takes, does, versions⟩ := hm
    exact versions
  | _ => exact ⟨rfl, rfl⟩

/-- **What every move keeps, every run keeps.** -/
theorem run_induction {motive : Device → Prop} (start : motive d)
    (keep : ∀ {d m d'}, motive d → Moved d m d' → motive d') (ms : List Move) :
    motive (d.run ms) := by
  induction ms generalizing d with
  | nil => exact start
  | cons m ms ih => exact ih (keep start (d.moved m))

end Device

end OverTheAir
