import OverTheAir.Device.Calls

/-!
# Device/Task — what the session task does with a session

The task takes the flash writer, opens the partition, and takes messages in order of arrival until
the image ends or an abort is recorded.  Every way a session can end leads through `leave`: the
owner is released, the session cleared and the writer parked before the owner hears of it.

A step is one critical section, one call, or the end of a wait.  An abort may be recorded between
any two of them: behind the look for it and before the chunk is measured, vetted or written, and
behind the end of a wait and before it is recorded that time is up.
-/

namespace OverTheAir.Device

/-! ## Moving on -/

/-- The task goes on to a stage. -/
def goto (d : Device) (t : SessionTask) (stage : Stage) : Device :=
  { d with task := some { t with stage } }

/-- The task dies: the flash writer is lost with it, and nobody reads the inbox. -/
def die (d : Device) : Device := { d with task := none }

/-- Go on to a stage unless an abort is recorded. -/
def unlessAborted (d : Device) (t : SessionTask) (go : Device → Device) : Device :=
  match d.session.pendingAbort with
  | some reason => d.goto t (.aborting reason)
  | none => go d

/-- After a chunk: the end of the image, or the next message. -/
def goOn (d : Device) (t : SessionTask) (isEnd : Bool) : Device :=
  d.goto t (if isEnd then .ending else .awaiting 0)

/-- A flash call of the task, and where it goes on from a success and from a failure. -/
def flashStep (d : Device) (t : SessionTask) (call : FlashCall) (onOk : Stage)
    (onError : FlashError → Stage) : Device :=
  match d.callFlash d.taskActor call with
  | (none, d) => d.die
  | (some (.ok ()), d) => d.goto t onOk
  | (some (.error e), d) => d.goto t (onError e)

/-! ## Steps -/

/-- Take the flash writer. -/
def takeWriter (d : Device) (t : SessionTask) : Device :=
  if d.writerParked then
    { d with writerParked := false }.goto { t with holdsWriter := true } .beginning
  else d.goto t (.leaving (.aborted .beginFailed))

/-- Why a session ends whose partition cannot be opened. -/
def beginReason : FlashError → AbortReason
  | .noPartition => .noPartition
  | _ => .beginFailed

/-- Send a frame to the owner, if there is one. -/
def tellOwner (d : Device) (frame : Response) : Device :=
  match d.registry.owner with
  | some owner => d.send d.taskActor owner frame
  | none => d

/-- Take the next message.  Nothing happens while there is none and time is left. -/
def await (d : Device) (t : SessionTask) (waited : Nat) : Option Device :=
  match d.inbox with
  | none => some (d.goto t (.aborting (d.session.pendingAbort.getD .userRequest)))
  | some (m :: queue) => some ({ d with inbox := some queue }.goto t (.holding m))
  | some [] => if waited < d.session.timeout then none else some (d.goto t .expired)

/-- Record that time is up.  An abort that was recorded before keeps its reason. -/
def expire (d : Device) (t : SessionTask) : Device :=
  let session := d.session.markAborted .timeout
  { d with session }.goto t (.aborting (session.pendingAbort.getD .timeout))

/-- Look at a message.  An empty chunk asks for nothing. -/
def consider (d : Device) (t : SessionTask) : Message → Device
  | .wake => d.goto t (.awaiting 0)
  | .data chunk isEnd =>
    if chunk.isEmpty then d.goOn t isEnd else d.goto t (.measuring chunk isEnd)

/-- See whether a chunk fits.  One that overruns the announced size is discarded, and the owner is
told.  The version policy is for the first chunk that fits. -/
def measure (d : Device) (t : SessionTask) (chunk : Bytes) (isEnd : Bool) : Device :=
  match d.session.fits? chunk.length with
  | none => d.note d.taskActor .miscounted |>.die
  | some false => d.goto t (.reporting (.error .packetSize) isEnd)
  | some true =>
    if t.versionChecked then d.goto t (.writing chunk isEnd) else d.goto t (.vetting chunk isEnd)

/-- Whether an image that begins with a chunk may be installed beside the images of the device. -/
def policyCheck (d : Device) (chunk : Bytes) : Except AbortReason Version :=
  Image.checkVersion chunk d.session.flags (d.firmware.running.map (·.text))
    (d.firmware.lastInvalid.map (·.text))

/-- Apply the version policy to a chunk. -/
def vet (d : Device) (t : SessionTask) (chunk : Bytes) (isEnd : Bool) : Device :=
  match d.policyCheck chunk with
  | .ok _ => d.goto { t with versionChecked := true } (.writing chunk isEnd)
  | .error reason => d.goto t (.aborting reason)

/-- Account for a chunk that reached the flash. -/
def account (d : Device) (t : SessionTask) (chunk : Bytes) (isEnd : Bool) : Device :=
  match d.session.advance? (UInt32.ofNat chunk.length) with
  | none => d.note d.taskActor .miscounted |>.die
  | some session =>
    match session.nextRequest? d.config.maxChunkSize with
    | none => { d with session }.note d.taskActor .miscounted |>.die
    | some requested => { d with session }.goto t (.counted session.received requested isEnd)

/-- Tell of the progress.  The frame that asks for nothing is kept for the completed update. -/
def tellProgress (d : Device) (t : SessionTask) (received requested : UInt32) (isEnd : Bool) :
    Device :=
  let d := d.emit d.taskActor (.progress received d.session.total)
  if received < d.session.total then d.goto t (.reporting (.state received requested) isEnd)
  else d.goOn t isEnd

/-- The image has ended: all of it has to be there. -/
def finalize (d : Device) (t : SessionTask) : Device :=
  if d.session.isComplete then
    { d with session := { d.session with state := .finalizing } }.goto t .closing
  else d.goto t (.aborting .endFailed)

/-- What the former owner and the other clients are told when a session is over. -/
def farewell (owner : Option Client) (total : UInt32) (flags : SessionFlags) :
    Outcome → List Duty
  | .completed =>
    let done := Response.state total 0
    (owner.toList.map fun c => .tell c done) ++ [.broadcast owner done]
      ++ (if flags.resetAfterSuccess then [.restart] else [])
  | .aborted .userDisconnect => []
  | .aborted reason => owner.toList.map fun c => .tell c (.abort reason)

/-- Release the owner, clear the session and park the writer.  What is left is an errand. -/
def leave (d : Device) (t : SessionTask) (outcome : Outcome) : Device :=
  let (owner, registry) := d.registry.release
  let duties := farewell owner d.session.total d.session.flags outcome
  let event : Event := match outcome with
    | .completed => .completed d.session.total
    | .aborted reason => .aborted reason d.session.received
  let errands := if duties.isEmpty then d.errands else d.errands ++ [⟨d.taskActor, duties⟩]
  let d := { d with
    registry
    errands
    session := Session.idle
    inbox := none
    writerParked := d.writerParked || t.holdsWriter
    pendingReboot := d.pendingReboot || outcome == Outcome.completed
    task := none }
  d.emit d.taskActor event

/-- The next step of the task; none while it waits for a message. -/
def taskStep (d : Device) (t : SessionTask) : Option Device :=
  match t.stage with
  | .launched => some (d.takeWriter t)
  | .beginning =>
    some (d.flashStep t (.begin d.session.total) .begun fun e => .aborting (beginReason e))
  | .begun =>
    let frame := Response.state 0 (min d.session.total d.config.maxChunkSize)
    some (d.unlessAborted t fun d => d.goto t (.reporting frame false))
  | .reporting frame isEnd => some ((d.tellOwner frame).goOn t isEnd)
  | .awaiting waited => d.await t waited
  | .expired => some (d.expire t)
  | .holding m => some (d.unlessAborted t fun d => d.consider t m)
  | .measuring chunk isEnd => some (d.measure t chunk isEnd)
  | .vetting chunk isEnd => some (d.vet t chunk isEnd)
  | .writing chunk isEnd =>
    some (d.flashStep t (.write chunk) (.written chunk isEnd) fun _ => .aborting .writeFailed)
  | .written chunk isEnd => some (d.unlessAborted t fun d => d.account t chunk isEnd)
  | .counted received requested isEnd => some (d.tellProgress t received requested isEnd)
  | .ending => some (d.unlessAborted t fun d => d.finalize t)
  | .closing => some (d.flashStep t .finish .selecting fun _ => .aborting .endFailed)
  | .selecting =>
    some (d.flashStep t .select (.leaving .completed) fun _ => .aborting .bootSelection)
  | .aborting reason =>
    some (d.flashStep t .abort (.leaving (.aborted reason)) fun _ => .leaving (.aborted reason))
  | .leaving outcome => some (d.leave t outcome)

/-! ## Errands -/

/-- Take the next duty of an actor off a list of errands. -/
def takeDuty (a : Actor) : List Errand → Option (Duty × List Errand)
  | [] => none
  | e :: es =>
    if e.actor = a then
      match e.duties with
      | [] => takeDuty a es
      | [duty] => some (duty, es)
      | duty :: next :: duties => some (duty, ⟨a, next :: duties⟩ :: es)
    else (takeDuty a es).map fun (duty, es) => (duty, e :: es)

/-- Do a duty. -/
def perform (d : Device) (a : Actor) : Duty → Device
  | .tell c frame => d.send a c frame
  | .broadcast except frame => d.note a (.broadcast except frame)
  | .restart => d.restart a

/-- An actor that has only duties left does the next one. -/
def errandStep (d : Device) (a : Actor) : Option Device :=
  (takeDuty a d.errands).map fun (duty, errands) => { d with errands }.perform a duty

/-! ## Actors -/

/-- The next step of an actor; none when it has nothing to do now.  The handler acts on requests
only. -/
def step (d : Device) (a : Actor) : Option Device :=
  match d.task with
  | some t => if a = d.taskActor then d.taskStep t else d.errandStep a
  | none => d.errandStep a

end OverTheAir.Device
