import OverTheAir.Proofs.Calls
import OverTheAir.Proofs.Refusals

/-!
# Proofs/Admission — how a frame is answered

The handler tests owner, record, parked writer and inbox one after another.  As long as no session
task has died these agree, and what is said to a frame depends on little more than what the device
shows of itself (`Status`): `Status.answer` is the table, and `answered` says that the handler does
just what the table says.

* `exact_admission` — so it is in every run.
-/

namespace OverTheAir

/-! ## The table -/

/-- What the answer to a frame depends on. -/
structure Status where
  state : SessionState
  owner : Option Client
  /-- An update waits for a reboot. -/
  pendingReboot : Bool
  /-- The running image is pending verification. -/
  pendingVerify : Bool
  /-- The inbox has no room for another message. -/
  full : Bool
  deriving DecidableEq, Repr

/-- The answer to a frame. -/
inductive Answer where
  | refused (code : Refusal)
  /-- A session is opened. -/
  | opened (total : UInt32) (timeoutMs : UInt16) (flags : SessionFlags)
  /-- A chunk goes into the inbox. -/
  | queued (chunk : Bytes) (isEnd : Bool)
  /-- A chunk that the inbox has no room for ends the session. -/
  | overflowed
  /-- The owner gives the session up. -/
  | abandoned
  /-- An action is taken. -/
  | acted (action : Action)
  deriving DecidableEq, Repr

namespace Status

/-- Why a client cannot speak for a transfer, if it cannot. -/
def bars? (s : Status) (c : Client) : Option Refusal :=
  if s.owner = none then some .notRunning
  else if s.owner ≠ some c then some .wrongUser
  else if s.state = .finalizing then some .wrongTime
  else if s.state ≠ .receiving then some .notRunning
  else none

/-- How a frame is answered. -/
def answer (s : Status) (maxChunk : UInt32) (c : Client) : Except DecodeError Request → Answer
  | .error .empty => .refused .packetSize
  | .error (.unknownCommand _) => .refused .noCommand
  | .error (.length ..) => .refused .packetSize
  | .error (.unknownAction _) => .refused .noAction
  | .error (.unknownValue _) => .refused .packetSize
  | .ok (.start total timeoutMs flags) =>
    if s.state ≠ .idle then .refused .alreadyRunning
    else if s.pendingReboot then .refused .wrongTime
    else if total = 0 then .refused .packetSize
    else .opened total timeoutMs flags
  | .ok (.state isEnd chunk) =>
    match s.bars? c with
    | some code => .refused code
    | none =>
      if maxChunk.toNat < chunk.length then .refused .packetSize
      else if s.full then .overflowed
      else .queued chunk isEnd
  | .ok .abort =>
    match s.bars? c with
    | some code => .refused code
    | none => .abandoned
  | .ok (.action action) =>
    if s.owner = some c then .refused .wrongTime
    else if s.owner ≠ none then .refused .wrongUser
    else if action = .reset ∨ s.pendingVerify ∨ s.pendingReboot then .acted action
    else .refused .wrongTime

end Status

/-- A session task dies. -/
def Entry.isDeath : Entry → Bool
  | ⟨.task _, .died _⟩ => true
  | _ => false

namespace Device

open Journal

variable {d : Device} {t : SessionTask} {c : Client} {f : Bytes} {queue : List Message}

/-- The inbox has no room: it holds as many messages as it is deep, or, if it has no depth, the task
does not wait for one. -/
def isFull (d : Device) : Bool :=
  if d.config.queueDepth = 0 then !(d.isAwaiting && d.inbox = some [])
  else (d.inbox.getD []).length = d.config.queueDepth.toNat

def status (d : Device) : Status where
  state := d.session.state
  owner := d.registry.owner
  pendingReboot := d.pendingReboot
  pendingVerify := d.firmware.pendingVerify
  full := d.isFull

/-- The answer to a frame, as the table has it. -/
def answer (d : Device) (c : Client) (f : Bytes) : Answer :=
  d.status.answer d.config.maxChunkSize c (Request.decode f)

/-- The inbox of a task that is woken: one that has no room stays as it is. -/
def woken (d : Device) (queue : List Message) : List Message :=
  if d.posting queue = .taken then queue ++ [.wake] else queue

/-- What comes of an answer: all that is done at once, and the device afterwards. -/
inductive Answered (d : Device) (c : Client) : Answer → List Effect → Device → Prop where
  | refused {d'} (code reached) (unchanged : d'.bare = d.bare) :
      Answered d c (.refused code) (refusal c code reached) d'
  | opened {d' total timeoutMs flags} (spawned : d.spawnFails = false)
      (owner : d'.registry.owner = some c)
      (session : d'.session = Session.opened total (d.config.timeoutFor timeoutMs) flags)
      (inbox : d'.inbox = some []) (task : d'.task.isSome) :
      Answered d c (.opened total timeoutMs flags) [.event (.sessionStarted c total)] d'
  /-- The task of the session cannot be created. -/
  | unopened {d' total timeoutMs flags} (reached) (fails : d.spawnFails = true)
      (unbound : d'.registry.owner = none) (session : d'.session = Session.idle)
      (inbox : d'.inbox = none) (task : d'.task = none) :
      Answered d c (.opened total timeoutMs flags)
        [.event (.aborted .beginFailed 0), .sent c (.abort .beginFailed) reached] d'
  | queued {d' queue} (chunk isEnd) (inbox : d.inbox = some queue) (room : d.posting queue = .taken)
      (put : d'.bare = { d with inbox := some (queue ++ [Message.data chunk isEnd]) }.bare) :
      Answered d c (.queued chunk isEnd) [.queued chunk isEnd] d'
  | overflowed {queue : List Message} (inbox : d.inbox = some queue)
      (full : d.posting queue = .full) : Answered d c .overflowed []
        { d with session := { d.session with state := .aborted .writeFailed } }
  | abandoned : Answered d c .abandoned []
      { d with
        session := { d.session with state := .aborted .userRequest }
        inbox := d.inbox.map d.woken }
  /-- The action is reported with its result, after the call that it comes down to, if it comes down
  to one. -/
  | acted {d'} (action) (calls restarts : List Effect) (result : FlashResult) (reached)
      (unbound : d.registry.owner = none)
      (session : d'.session = d.session) (registry : d'.registry = d.registry)
      (inbox : d'.inbox = d.inbox) (task : d'.task = d.task)
      (calling : calls = [] ∧ result = .ok () ∨ ∃ call, calls = [.firmware call result])
      (restarting : restarts = [] ∨ action = .reset ∧ restarts = [.restarted]) :
      Answered d c (.acted action) (calls ++ report c action result reached ++ restarts) d'
  /-- The handler dies inside the call. -/
  | died {d'} (action point) (unbound : d.registry.owner = none)
      (session : d'.session = d.session) (registry : d'.registry = d.registry)
      (inbox : d'.inbox = d.inbox) (task : d'.task = d.task) :
      Answered d c (.acted action) [.died point] d'

/-- No session task has died. -/
def Survived (d : Device) : Prop := ∀ e ∈ d.journal, e.isDeath = false

instance (d : Device) : Decidable d.Survived := inferInstanceAs (Decidable (∀ e ∈ _, _))

/-- Who has survived a run has survived every part of it. -/
theorem Survived.of_move {m : Move} (h : (d.move m).Survived) : d.Survived := fun e he =>
  h e (journal_move d m ▸ List.mem_append_left _ he)

theorem Survived.of_run {ms : List Move} (h : (d.run ms).Survived) : d.Survived := by
  induction ms generalizing d with
  | nil => exact h
  | cons m ms ih => exact (ih h).of_move

theorem Survived.of_append {ms ns : List Move} (h : (d.run (ms ++ ns)).Survived) :
    (d.run ms).Survived := by
  rw [run_append] at h
  exact h.of_run

/-- A session that is on has a live task. -/
def Alive (d : Device) : Prop := d.session.state ≠ .idle → ∃ t, d.task = some t

/-- **As long as no task has died, the session has a live one.** -/
theorem Chronicle.alive (h : d.Chronicle) (survived : d.Survived) : d.Alive := by
  intro busy
  refine Option.ne_none_iff_exists'.mp fun noTask => ?_
  obtain ⟨owner, howner, -⟩ := h.current busy
  obtain ⟨body, point, hdeeds, -⟩ := h.dead owner busy noTask howner
  have died : Effect.died point ∈ deeds d.taskActor d.journal := by rw [hdeeds]; simp
  cases survived _ (mem_deeds.mp died)

/-! ## The inbox -/

theorem wake_eq (d : Device) : d.wake = { d with inbox := d.inbox.map d.woken } := by
  rw [wake]
  split
  · next inbox => rw [inbox, Option.map_none, ← inbox]
  · next queue inbox =>
    rw [inbox, Option.map_some, woken]
    split
    · rfl
    · rw [← inbox]

/-- What is taken leaves the inbox within its depth. -/
theorem length_lt_of_taken (taken : d.posting queue = .taken) :
    queue.length < max d.config.queueDepth.toNat 1 := by
  rw [posting] at taken
  split at taken
  · cases taken
  split at taken
  · omega
  split at taken
  · next handed =>
    rw [handed.2.1, List.length_nil]
    omega
  · cases taken

/-- No inbox holds more than it is deep; one of no depth holds a message that is handed over. -/
def Roomy (d : Device) : Prop :=
  ∀ queue, d.inbox = some queue → queue.length ≤ max d.config.queueDepth.toNat 1

theorem length_woken_le (d : Device) (h : queue.length ≤ max d.config.queueDepth.toNat 1) :
    (d.woken queue).length ≤ max d.config.queueDepth.toNat 1 := by
  rw [woken]
  split
  · next taken =>
    rw [List.length_append]
    exact length_lt_of_taken taken
  · exact h

theorem roomy_fresh (config : Config) (firmware : Firmware) : (fresh config firmware).Roomy :=
  fun _ inbox => by cases inbox

/-- **A live task's inbox takes a message unless it is full.** -/
theorem Roomy.posting (h : d.Roomy) (live : d.task = some t) (inbox : d.inbox = some queue) :
    d.posting queue = if d.isFull then .full else .taken := by
  have room := h queue inbox
  rw [Device.posting, live, if_neg (by simp), isFull, inbox]
  by_cases shallow : d.config.queueDepth = 0
  · have none : ¬queue.length < d.config.queueDepth.toNat := by simp [shallow]
    rw [if_neg none]
    by_cases waits : d.isAwaiting = true <;> by_cases empty : queue = [] <;>
      simp [shallow, waits, empty]
  · have deep : 0 < d.config.queueDepth.toNat :=
      Nat.pos_of_ne_zero fun h0 => shallow (UInt8.toNat_inj.mp h0)
    by_cases hlt : queue.length < d.config.queueDepth.toNat
    · simp [shallow, hlt, Nat.ne_of_lt hlt]
    · have heq : queue.length = d.config.queueDepth.toNat := by omega
      simp [shallow, heq]

/-! ## Who may speak for a transfer -/

/-- Whom nothing bars is the owner of a session that is receiving. -/
theorem receiving_of_bars? (h : d.status.bars? c = none) :
    d.registry.owner = some c ∧ d.session.state = .receiving := by
  unfold Status.bars? at h
  split at h
  · cases h
  split at h
  · cases h
  next isOwner =>
  split at h
  · cases h
  split at h
  · cases h
  next receiving => exact ⟨Decidable.not_not.mp isOwner, Decidable.not_not.mp receiving⟩

theorem authorize_of_owner (owner : d.registry.owner = some c) : d.authorize c = .ok () := by
  simp [authorize, Registry.isBound, Registry.verify, owner]

/-- Who is barred is told so first, whether it has data or gives the session up. -/
theorem refuse_of_bars? {code : Refusal} (h : d.status.bars? c = some code) :
    (∀ isEnd chunk, d.data c isEnd chunk = d.refuse c code) ∧ d.abort c = d.refuse c code := by
  unfold Status.bars? at h
  split at h
  · next unbound =>
    have unbound : d.registry.owner = none := unbound
    obtain rfl := Option.some.inj h
    have authorize : d.authorize c = .error .notRunning := by
      simp [Device.authorize, Registry.isBound, unbound]
    simp [data, abort, authorize]
  next bound =>
  split at h
  · next stranger =>
    obtain rfl := Option.some.inj h
    obtain ⟨owner, howner⟩ : ∃ owner, d.registry.owner = some owner :=
      Option.ne_none_iff_exists'.mp bound
    have hne : owner ≠ c := fun heq => stranger (heq ▸ howner)
    have authorize : d.authorize c = .error .wrongUser := by
      simp [Device.authorize, Registry.isBound, Registry.verify, howner, hne]
    simp [data, abort, authorize]
  next isOwner =>
  have authorize := authorize_of_owner (Decidable.not_not.mp isOwner)
  split at h
  · next finalizing =>
    have finalizing : d.session.state = .finalizing := finalizing
    obtain rfl := Option.some.inj h
    simp [data, abort, authorize, finalizing]
  next notFinalizing =>
  split at h
  · next notReceiving =>
    obtain rfl := Option.some.inj h
    simp only [data, abort, authorize]
    cases hs : d.session.state with
    | finalizing => exact absurd hs notFinalizing
    | receiving => exact absurd hs notReceiving
    | _ => exact ⟨fun _ _ => rfl, rfl⟩
  · cases h

/-! ## Requests -/

theorem answered_of_refuse {code : Refusal} (h : d.move (.frame c f) = d.refuse c code) :
    d.Answered c (.refused code) (d.does (.frame c f)) (d.move (.frame c f)) := by
  rw [does_of_refuse h, h]
  exact .refused code _ rfl

/-- What the handler does without changing the journal is nothing. -/
theorem answered_of_eq {a : Answer} {es : List Effect} {d' : Device}
    (move : d.move (.frame c f) = d') (journal : d'.journal = d.journal ++ es.map (.mk .handler))
    (h : d.Answered c a es d') :
    d.Answered c a (d.does (.frame c f)) (d.move (.frame c f)) := by
  subst move
  rwa [does_eq journal]

theorem Sound.answered_start {total : UInt32} {timeoutMs : UInt16} {flags : SessionFlags}
    (sound : d.Sound) (decodes : Request.decode f = .ok (.start total timeoutMs flags)) :
    d.Answered c (d.answer c f) (d.does (.frame c f)) (d.move (.frame c f)) := by
  have hmove : d.move (.frame c f) = d.start c total timeoutMs flags := move_of_start decodes
  rw [answer, decodes, Status.answer]
  split
  · next notIdle =>
    have notIdle : d.session.state ≠ .idle := notIdle
    have hidle : d.session.isIdle = false := by simpa [Session.isIdle] using notIdle
    exact answered_of_refuse (hmove.trans (by simp [start, hidle]))
  next idle =>
  have resting := sound.resting (Decidable.not_not.mp idle)
  have free : (d.registry.isBound || !d.session.isIdle || !d.writerParked) = false := by
    simp [Registry.isBound, resting.unbound, resting.session, Session.isIdle, Session.idle,
      resting.parked]
  rw [start, free] at hmove
  split
  · next pending =>
    have pending : d.pendingReboot = true := pending
    exact answered_of_refuse (hmove.trans (by simp [pending]))
  next notPending =>
  have notPending : ¬d.pendingReboot = true := notPending
  split
  · next zero => exact answered_of_refuse (hmove.trans (by simp [notPending, zero]))
  next pos =>
  have hbind : d.registry.bind c = .ok ⟨some c⟩ := by
    simp [Registry.bind, Registry.isBound, resting.unbound]
  simp only [Bool.false_eq_true, if_false, if_neg notPending, if_neg pos, hbind] at hmove
  split at hmove
  · next fails =>
    refine answered_of_eq hmove ?_ (.unopened (!d.unreachable.contains c) fails rfl rfl rfl ?_)
    · simp [emit, send, note]
    · exact resting.noTask
  · next spawned =>
    exact answered_of_eq hmove rfl (.opened (by simpa using spawned) rfl rfl rfl rfl)

theorem Roomy.answered_data {chunk : Bytes} {isEnd : Bool} (roomy : d.Roomy) (sound : d.Sound)
    (alive : d.Alive)
    (decodes : Request.decode f = .ok (.state isEnd chunk)) :
    d.Answered c (d.answer c f) (d.does (.frame c f)) (d.move (.frame c f)) := by
  have hmove : d.move (.frame c f) = d.data c isEnd chunk := move_of_data decodes
  rw [answer, decodes, Status.answer]
  split
  · next barred => exact answered_of_refuse (hmove.trans ((refuse_of_bars? barred).1 ..))
  next free =>
  obtain ⟨owner, receiving⟩ := receiving_of_bars? free
  have busy : d.session.state ≠ .idle := by simp [receiving]
  obtain ⟨queue, inbox⟩ := (sound.busy busy).inbox
  obtain ⟨t, live⟩ := alive busy
  have posting := roomy.posting live inbox
  simp only [data, authorize_of_owner owner, receiving, inbox] at hmove
  split
  · next long => exact answered_of_refuse (hmove.trans (if_pos long))
  next short =>
  rw [if_neg short] at hmove
  split
  · next full =>
    have full : d.isFull = true := full
    have posting : d.posting queue = .full := posting.trans (if_pos full)
    rw [posting] at hmove
    have hmark : d.session.markAborted .writeFailed
        = { d.session with state := .aborted .writeFailed } :=
      if_pos (by simp [Session.isReceiving, receiving])
    rw [hmark, ← inbox] at hmove
    exact answered_of_eq hmove (List.append_nil _).symm (.overflowed inbox posting)
  · next room =>
    have room : ¬d.isFull = true := room
    have posting : d.posting queue = .taken := posting.trans (if_neg room)
    rw [posting] at hmove
    exact answered_of_eq hmove rfl (.queued chunk isEnd inbox posting rfl)

theorem answered_abort (decodes : Request.decode f = .ok .abort) :
    d.Answered c (d.answer c f) (d.does (.frame c f)) (d.move (.frame c f)) := by
  have hmove : d.move (.frame c f) = d.abort c := move_of_abort decodes
  rw [answer, decodes, Status.answer]
  split
  · next barred => exact answered_of_refuse (hmove.trans (refuse_of_bars? barred).2)
  next free =>
  obtain ⟨owner, receiving⟩ := receiving_of_bars? free
  have hmark : d.session.markAborted .userRequest
      = { d.session with state := .aborted .userRequest } :=
    if_pos (by simp [Session.isReceiving, receiving])
  simp only [abort, authorize_of_owner owner, receiving, hmark, wake_eq] at hmove
  exact answered_of_eq hmove (List.append_nil _).symm .abandoned

/-- An action that comes down to a call reports what the call answered. -/
theorem answered_of_call {action : Action} {call : FirmwareCall} {result : FlashResult}
    {firmware : Firmware} {faults : List Fault} (unbound : d.registry.owner = none)
    (move : d.move (.frame c f) = finishAction { d with
      firmware, faults, journal := d.journal ++ [⟨.handler, .firmware call result⟩] }
        c action result) :
    d.Answered c (.acted action) (d.does (.frame c f)) (d.move (.frame c f)) := by
  obtain ⟨firmware', reboot, spawnFails, errands, restarts, heq, -, restarting⟩ :=
    finishAction_eq { d with
      firmware, faults, journal := d.journal ++ [⟨.handler, .firmware call result⟩] } c action result
  refine answered_of_eq (move.trans heq) ?_
    (.acted action [.firmware call result] restarts result (!d.unreachable.contains c)
      unbound rfl rfl rfl rfl (.inr ⟨call, rfl⟩) restarting.effects)
  simp

/-- An action is open to a device that can say which call it comes down to. -/
theorem isSome_actionCall? {action : Action} {verify reboot : Bool} :
    (actionCall? action verify reboot).isSome ↔
      action = .reset ∨ verify = true ∨ reboot = true := by
  cases action <;> cases verify <;> cases reboot <;> simp [actionCall?]

theorem answered_act {action : Action} (decodes : Request.decode f = .ok (.action action)) :
    d.Answered c (d.answer c f) (d.does (.frame c f)) (d.move (.frame c f)) := by
  rw [answer, decodes]
  have taken {call?} (unbound : d.registry.owner = none)
      (due : actionCall? action d.firmware.pendingVerify d.pendingReboot = some call?) :
      d.status.answer d.config.maxChunkSize c (.ok (.action action)) = .acted action := by
    have may := isSome_actionCall?.mp (Option.isSome_iff_exists.mpr ⟨_, due⟩)
    simp [Status.answer, status, unbound, may]
  have hacted := d.acted c action
  obtain ⟨d', hmove⟩ : ∃ d', d.move (.frame c f) = d' := ⟨_, rfl⟩
  rw [← move_of_action (c := c) decodes, hmove] at hacted
  cases hacted with
  | barred bound =>
    have bound : d.registry.owner ≠ none := Option.isSome_iff_ne_none.mp bound
    have refused : d.status.answer d.config.maxChunkSize c (.ok (.action action))
        = .refused (if d.registry.verify c then .wrongTime else .wrongUser) := by
      by_cases owner : d.registry.owner = some c <;>
        simp [Status.answer, status, Registry.verify, owner, bound]
    rw [refused]
    exact answered_of_refuse hmove
  | pointless unbound due =>
    have mayNot : ¬(action = .reset ∨ d.firmware.pendingVerify = true ∨ d.pendingReboot = true) := by
      rw [← isSome_actionCall?, due]
      exact Bool.false_ne_true
    have refused : d.status.answer d.config.maxChunkSize c (.ok (.action action))
        = .refused .wrongTime := by
      simp [Status.answer, status, unbound, mayNot]
    rw [refused]
    exact answered_of_refuse hmove
  | uncalled unbound due =>
    obtain ⟨firmware, reboot, spawnFails, errands, restarts, heq, -, restarting⟩ :=
      d.finishAction_eq c action (.ok ())
    rw [taken unbound due]
    exact answered_of_eq (hmove.trans heq) rfl
      (.acted action [] restarts (.ok ()) _ unbound rfl rfl rfl rfl (.inl ⟨rfl, rfl⟩)
        restarting.effects)
  | called unbound due =>
    rw [taken unbound due]
    exact answered_of_call unbound hmove
  | died unbound due =>
    rw [taken unbound due]
    exact answered_of_eq hmove rfl (.died action _ unbound rfl rfl rfl rfl)

/-- **The handler does what the table says.** -/
theorem Roomy.answered (roomy : d.Roomy) (sound : d.Sound) (alive : d.Alive) (c : Client)
    (f : Bytes) : d.Answered c (d.answer c f) (d.does (.frame c f)) (d.move (.frame c f)) := by
  rcases decodes : Request.decode f with e | ⟨total, timeoutMs, flags⟩ | ⟨isEnd, chunk⟩ | _ | action
  · have refuses : d.move (.frame c f) = d.refuse c e.refusal := by
      change d.receive c f = _
      rw [receive, decodes]
    rw [answer, decodes]
    cases e <;> exact answered_of_refuse refuses
  · exact sound.answered_start decodes
  · exact roomy.answered_data sound alive decodes
  · exact answered_abort decodes
  · exact answered_act decodes

/-! ## Every inbox has room -/

theorem disconnect_eq (d : Device) (c : Client) : d.move (.disconnect c) = d ∨
    d.move (.disconnect c) = { d with
      session := { d.session with state := .aborted .userDisconnect }
      inbox := d.inbox.map d.woken } := by
  change d.disconnect c = d ∨ d.disconnect c = _
  rw [disconnect]
  split
  · next isOwner =>
    have receiving := (Bool.and_eq_true_iff.mp isOwner).2
    rw [wake_eq, Session.markAborted, if_pos receiving]
    exact .inr rfl
  · exact .inl rfl

/-- What a request makes of session, inbox and task. -/
inductive Heard (d d' : Device) : Prop where
  | kept (session : d'.session = d.session) (inbox : d'.inbox = d.inbox) (task : d'.task = d.task)
  | opened (receiving : d'.session.state = .receiving) (inbox : d'.inbox = some [])
  | unopened (idle : d'.session.state = .idle) (inbox : d'.inbox = none)
  | queued (queue m) (room : d.posting queue = .taken) (inbox : d'.inbox = some (queue ++ [m]))
  | aborted (session : ∃ reason, d'.session = { d.session with state := .aborted reason })
      (inbox : d'.inbox = d.inbox.map d.woken) (task : d'.task = d.task)

theorem Answered.heard {a : Answer} {es : List Effect} {d' : Device} (h : d.Answered c a es d') :
    d.Heard d' := by
  cases h with
  | refused _ _ unchanged =>
    have session := congrArg Device.session unchanged
    have inbox := congrArg Device.inbox unchanged
    have task := congrArg Device.task unchanged
    exact .kept session inbox task
  | opened _ _ session inbox => exact .opened (congrArg Session.state session) inbox
  | unopened _ _ _ session inbox => exact .unopened (congrArg Session.state session) inbox
  | @queued _ queue chunk isEnd _ room put =>
    have inbox := congrArg Device.inbox put
    exact .queued queue (.data chunk isEnd) room inbox
  | overflowed inbox full => exact .aborted ⟨_, rfl⟩ (by simp [inbox, woken, full]) rfl
  | abandoned => exact .aborted ⟨_, rfl⟩ rfl rfl
  | acted _ _ _ _ _ _ session _ inbox task => exact .kept session inbox task
  | died _ _ _ session _ inbox task => exact .kept session inbox task

/-- **A request keeps session, inbox and task, or changes them in one of few ways.** -/
theorem Roomy.heard (roomy : d.Roomy) (sound : d.Sound) (alive : d.Alive) {m : Move}
    (request : m.isRequest = true) : d.Heard (d.move m) := by
  cases m with
  | frame c f => exact (roomy.answered sound alive c f).heard
  | disconnect c =>
    rcases d.disconnect_eq c with h | h <;> rw [h]
    · exact .kept rfl rfl rfl
    · exact .aborted ⟨_, rfl⟩ rfl rfl
  | _ => cases request

/-- Only requests put messages into the inbox. -/
theorem Moved.inbox {m : Move} {d' : Device} (hm : Moved d m d') (notRequest : m.isRequest = false)
    (inbox : d'.inbox = some queue) :
    ∃ queue', d.inbox = some queue' ∧ queue.length ≤ queue'.length := by
  cases hm with
  | handled hm => cases hm.isRequest.symm.trans notRequest
  | advanced live hm =>
    cases hm with
    | took _ inbox' =>
      obtain rfl := Option.some.inj inbox
      exact ⟨_, inbox', Nat.le_succ _⟩
    | left => cases inbox
    | _ => exact ⟨queue, inbox, Nat.le_refl _⟩
  | performed _ hm =>
    obtain ⟨effect, takes, does⟩ := hm
    exact ⟨queue, inbox, Nat.le_refl _⟩
  | _ => exact ⟨queue, inbox, Nat.le_refl _⟩

/-- **A move leaves every inbox within its depth.** -/
theorem Roomy.move (roomy : d.Roomy) (sound : d.Sound) (alive : d.Alive) (m : Move) :
    (d.move m).Roomy := by
  intro queue inbox
  rw [(d.moved m).config]
  cases request : m.isRequest with
  | false =>
    obtain ⟨queue', inbox', hle⟩ := (d.moved m).inbox request inbox
    exact Nat.le_trans hle (roomy queue' inbox')
  | true =>
    cases roomy.heard sound alive request with
    | kept _ inbox' => exact roomy queue (inbox'.symm.trans inbox)
    | opened _ inbox' =>
      obtain rfl := Option.some.inj (inbox'.symm.trans inbox)
      exact Nat.zero_le _
    | unopened _ inbox' => cases inbox'.symm.trans inbox
    | queued queue' m' room inbox' =>
      obtain rfl := Option.some.inj (inbox'.symm.trans inbox)
      rw [List.length_append]
      exact length_lt_of_taken room
    | aborted _ inbox' =>
      obtain ⟨queue', hqueue, rfl⟩ := Option.map_eq_some_iff.mp (inbox'.symm.trans inbox)
      exact d.length_woken_le (roomy queue' hqueue)

/-- **In a run that every task survives, no inbox holds more than it is deep.** -/
theorem roomy_run (config : Config) (firmware : Firmware) (ms : List Move)
    (survived : ((fresh config firmware).run ms).Survived) :
    ((fresh config firmware).run ms).Roomy :=
  chronicle_walk (motive := fun d => d.Survived → d.Roomy) (sound_fresh config firmware)
    (chronicle_fresh config firmware) (fun _ => roomy_fresh config firmware)
    (fun m sound chronicle roomy survived =>
      (roomy survived.of_move).move sound (chronicle.alive survived.of_move) m) ms survived

/-! ## Every frame -/

/-- A frame is refused with a code iff that is its answer. -/
theorem Answered.error_iff {a : Answer} {es : List Effect} {d' : Device} {code : Refusal}
    (h : d.Answered c a es d') :
    (∃ reached, .sent c (.error code) reached ∈ es) ↔ a = .refused code := by
  cases h with
  | refused code' reached => simp [refusal, eq_comm]
  | acted action calls restarts result reached unbound _ _ _ _ calling restarting =>
    refine iff_of_false ?_ (by simp)
    rintro ⟨reached', hsent⟩
    rcases calling with ⟨rfl, -⟩ | ⟨call, rfl⟩ <;> rcases restarting with rfl | ⟨-, rfl⟩ <;>
      simp [report] at hsent
  | _ => simp

/-- **Exact admission.**  In every run that the session tasks survive, what is said to a frame is
what the table says of the decoded frame, the sender and the status of the device; and all that is
done at once, and the session afterwards, are those of that answer. -/
theorem exact_admission (config : Config) (firmware : Firmware) (ms : List Move)
    (survived : ((fresh config firmware).run ms).Survived) (c : Client) (f : Bytes) :
    let d := (fresh config firmware).run ms
    d.Answered c (d.status.answer config.maxChunkSize c (Request.decode f)) (d.does (.frame c f))
      (d.move (.frame c f)) ∧
    ∀ code, (∃ reached, .sent c (.error code) reached ∈ d.does (.frame c f)) ↔
      d.status.answer config.maxChunkSize c (Request.decode f) = .refused code := by
  intro d
  obtain ⟨sound, chronicle⟩ : d.Sound ∧ d.Chronicle := chronicle_run config firmware ms
  have answered := (roomy_run config firmware ms survived).answered sound
    (chronicle.alive survived) c f
  have hconfig : d.config = config := config_run config firmware ms
  rw [answer, hconfig] at answered
  exact ⟨answered, fun _ => answered.error_iff⟩

/-- A second client tries to end an upload. -/
theorem exact_admission_brief : ((fresh .default .unknown).run (brief 0)).Survived ∧
    ∃ reached, .sent ⟨2, 2⟩ (.error .wrongUser) reached ∈
      ((fresh .default .unknown).run (brief 0)).does (.frame ⟨2, 2⟩ Request.abort.encode) := by
  have survived : ((fresh .default .unknown).run (brief 0)).Survived := by decide
  have answers := exact_admission .default .unknown (brief 0) survived ⟨2, 2⟩ Request.abort.encode
  exact ⟨survived, (answers.2 .wrongUser).mpr (by decide)⟩

/-- An inbox of no depth takes a chunk while the task waits for one; the next one is too many. -/
example :
    let d := (fresh { Config.default with queueDepth := 0 } .unknown).run
      ((brief 0).take 5)
    let chunk := Request.encode (.state false [7])
    d.answer ⟨1, 1⟩ chunk = .queued [7] false ∧
      (d.move (.frame ⟨1, 1⟩ chunk)).answer ⟨1, 1⟩ chunk = .overflowed := by decide

end Device

end OverTheAir
