import OverTheAir.Device.Calls

/-!
# Device/Requests — what the handler does with a frame

The handler decides every change that a request can cause and passes image data on to the session
task through the bounded inbox; it never waits for the flash.  A request that is out of place is
refused: one event and one frame with the same code, and nothing else.
-/

namespace OverTheAir.Device

/-- Turn a request down. -/
def refuse (d : Device) (c : Client) (code : Refusal) : Device :=
  (d.emit .handler (.rejected c code)).send .handler c (.error code)

/-! ## The inbox -/

/-- How the inbox takes a message. -/
inductive Posting where
  | taken
  | full
  /-- No task reads the inbox any more. -/
  | unread
  deriving DecidableEq, Repr

/-- The task waits for a message. -/
def isAwaiting (d : Device) : Bool :=
  match d.task with
  | some { stage := .awaiting _, .. } => true
  | _ => false

/-- How an inbox with some messages takes one more.  An inbox of depth 0 hands a message over only
to a task that waits for one. -/
def posting (d : Device) (queue : List Message) : Posting :=
  if d.task.isNone then .unread
  else if queue.length < d.config.queueDepth.toNat then .taken
  else if d.config.queueDepth = 0 ∧ queue = [] ∧ d.isAwaiting then .taken
  else .full

/-- Wake the session task.  A full inbox wakes it anyway. -/
def wake (d : Device) : Device :=
  match d.inbox with
  | none => d
  | some queue =>
    if d.posting queue = .taken then { d with inbox := some (queue ++ [Message.wake]) } else d

/-! ## Requests -/

/-- Ask for a session. -/
def start (d : Device) (c : Client) (totalSize : UInt32) (timeoutMs : UInt16)
    (flags : SessionFlags) : Device :=
  if d.registry.isBound || !d.session.isIdle || !d.writerParked then d.refuse c .alreadyRunning
  else if d.pendingReboot then d.refuse c .wrongTime
  else if totalSize = 0 then d.refuse c .packetSize
  else
    match d.registry.bind c with
    | .error code => d.refuse c code
    | .ok registry =>
      let d := { d with
        registry
        session := Session.opened totalSize (d.config.timeoutFor timeoutMs) flags
        inbox := some [] }
      if d.spawnFails then
        let d := { d with
          spawnFails := false
          registry := d.registry.release.2
          session := Session.idle
          inbox := none }
        (d.emit .handler (.aborted .beginFailed 0)).send .handler c (.abort .beginFailed)
      else
        let d := { d with
          sessions := d.sessions + 1
          task := some
            { stage := .launched, holdsWriter := false
              versionChecked := !flags.needsVersionCheck } }
        d.emit .handler (.sessionStarted c totalSize)

/-- Whether a client may speak for the session. -/
def authorize (d : Device) (c : Client) : Except Refusal Unit :=
  if !d.registry.isBound then .error .notRunning
  else if !d.registry.verify c then .error .wrongUser
  else .ok ()

/-- Hand over a chunk of the image.  A chunk that the inbox has no room for would leave a hole in
the image, so the session is aborted. -/
def data (d : Device) (c : Client) (isEnd : Bool) (payload : Bytes) : Device :=
  match d.authorize c with
  | .error code => d.refuse c code
  | .ok () =>
    match d.session.state with
    | .finalizing => d.refuse c .wrongTime
    | .idle => d.refuse c .notRunning
    | .aborted _ => d.refuse c .notRunning
    | .receiving =>
      if d.config.maxChunkSize.toNat < payload.length then d.refuse c .packetSize
      else
        match d.inbox with
        | none => d.refuse c .notRunning
        | some queue =>
          match d.posting queue with
          | .taken =>
            { d with inbox := some (queue ++ [Message.data payload isEnd]) }.note .handler
              (.queued payload isEnd)
          | .full => { d with session := d.session.markAborted .writeFailed }
          | .unread => d.refuse c .notRunning

/-- Give the session up. -/
def abort (d : Device) (c : Client) : Device :=
  match d.authorize c with
  | .error code => d.refuse c code
  | .ok () =>
    match d.session.state with
    | .receiving => { d with session := d.session.markAborted .userRequest }.wake
    | .finalizing => d.refuse c .wrongTime
    | .idle => d.refuse c .notRunning
    | .aborted _ => d.refuse c .notRunning

/-- The firmware call that an action comes down to: `none` when it needs none, no answer when it is
out of place. -/
def actionCall? (action : Action) (pendingVerify pendingReboot : Bool) :
    Option (Option FirmwareCall) :=
  match action with
  | .reset => some none
  | .validateImage =>
    if pendingVerify then some (some .markValid) else if pendingReboot then some none else none
  | .invalidateImage =>
    if pendingReboot then some (some .revert)
    else if pendingVerify then some (some .rollBack)
    else none

/-- Restart once the reply is out, from a thread of its own if there is one to be had. -/
def scheduleRestart (d : Device) : Device :=
  if d.spawnFails then { d with spawnFails := false }.restart .handler
  else { d with errands := d.errands ++ [⟨.restarter, [.restart]⟩] }

/-- Report an action as done: event, reply, and the restart that a reset asks for. -/
def finishAction (d : Device) (c : Client) (action : Action) (result : FlashResult) : Device :=
  let reverted := action == .invalidateImage && d.pendingReboot && result.isOk
  let d := if reverted then { d with pendingReboot := false } else d
  let code := match result with
    | .ok () => 0
    | .error e => e.code
  let d := (d.emit .handler (.actionPerformed action code)).send .handler c (.action action code)
  if action = .reset then d.scheduleRestart else d

/-- Act on the running image or restart: only while no session is bound. -/
def act (d : Device) (c : Client) (action : Action) : Device :=
  if d.registry.isBound then
    d.refuse c (if d.registry.verify c then .wrongTime else .wrongUser)
  else
    match actionCall? action d.firmware.pendingVerify d.pendingReboot with
    | none => d.refuse c .wrongTime
    | some none => d.finishAction c action (.ok ())
    | some (some call) =>
      match d.callFirmware .handler call with
      | (none, d) => d
      | (some result, d) => d.finishAction c action result

/-- A frame from a client. -/
def receive (d : Device) (c : Client) (frame : Bytes) : Device :=
  match Request.decode frame with
  | .ok (.start totalSize timeoutMs flags) => d.start c totalSize timeoutMs flags
  | .ok (.state isEnd payload) => d.data c isEnd payload
  | .ok .abort => d.abort c
  | .ok (.action action) => d.act c action
  | .error e => d.refuse c e.refusal

/-- A client has gone.  Only the owner of a session that is receiving makes a difference. -/
def disconnect (d : Device) (c : Client) : Device :=
  if d.registry.verify c && d.session.isReceiving then
    { d with session := d.session.markAborted .userDisconnect }.wake
  else d

end OverTheAir.Device
