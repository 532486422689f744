import OverTheAir.Device.Run
import OverTheAir.Proofs.Journal

/-!
# Proofs/Unread — the journal is written and never read

Nothing that a device does depends on what is in its journal, and only what a sent frame comes to
depends on who can be reached.  So the same device, told another way (`Retelling`), does the same,
told that way (`move_retold`).

One such way is to put more in front of the journal (`after`).  Two devices that differ only in
what the handler has written (`Alike`) stay so, whatever happens to them.
-/

namespace OverTheAir

/-- A frame to one client is the one effect that depends on who can be reached. -/
def Effect.isSent : Effect → Bool
  | .sent _ _ _ => true
  | _ => false

/-- A client can no longer be reached from here on. -/
def Move.isLoss : Move → Bool
  | .lose _ => true
  | _ => false

/-- Another way of telling what happens to a device: what its journal says, and who cannot be
reached. -/
structure Retelling where
  journal : Journal → Journal
  unreachable : List Client → List Client
  /-- What is no frame to a client is told as it is. -/
  note : ∀ j a e, e.isSent = false → journal (j ++ [⟨a, e⟩]) = journal j ++ [⟨a, e⟩]
  /-- A frame to a client is told by whom it does not reach. -/
  send : ∀ j a c frame lost, journal (j ++ [⟨a, .sent c frame (!lost.contains c)⟩])
    = journal j ++ [⟨a, .sent c frame (!(unreachable lost).contains c)⟩]

namespace Device

/-- The device, told another way. -/
def retold (d : Device) (r : Retelling) : Device :=
  { d with journal := r.journal d.journal, unreachable := r.unreachable d.unreachable }

section Fields

variable (d : Device) (r : Retelling)

@[simp] theorem retold_config : (d.retold r).config = d.config := rfl
@[simp] theorem retold_registry : (d.retold r).registry = d.registry := rfl
@[simp] theorem retold_session : (d.retold r).session = d.session := rfl
@[simp] theorem retold_writerParked : (d.retold r).writerParked = d.writerParked := rfl
@[simp] theorem retold_inbox : (d.retold r).inbox = d.inbox := rfl
@[simp] theorem retold_pendingReboot : (d.retold r).pendingReboot = d.pendingReboot := rfl
@[simp] theorem retold_task : (d.retold r).task = d.task := rfl
@[simp] theorem retold_errands : (d.retold r).errands = d.errands := rfl
@[simp] theorem retold_firmware : (d.retold r).firmware = d.firmware := rfl
@[simp] theorem retold_faults : (d.retold r).faults = d.faults := rfl
@[simp] theorem retold_spawnFails : (d.retold r).spawnFails = d.spawnFails := rfl

@[simp] theorem retold_taskActor : (d.retold r).taskActor = d.taskActor := rfl

end Fields

variable {d : Device} {t : SessionTask} (r : Retelling)

/-! ## Calls -/

theorem note_retold (a : Actor) {e : Effect} (quiet : e.isSent = false) :
    (d.retold r).note a e = (d.note a e).retold r := by
  rw [note, note, retold, retold, r.note _ a e quiet]

theorem send_retold (a : Actor) (c : Client) (frame : Response) :
    (d.retold r).send a c frame = (d.send a c frame).retold r := by
  rw [send, note, send, note, retold, retold, r.send]

theorem emit_retold (a : Actor) (event : Event) :
    (d.retold r).emit a event = (d.emit a event).retold r := note_retold r a rfl

theorem report_retold (a : Actor) (event : Event) (c : Client) (frame : Response) :
    ((d.retold r).emit a event).send a c frame = ((d.emit a event).send a c frame).retold r := by
  rw [emit_retold, send_retold]

theorem callFlash_retold (a : Actor) (call : FlashCall) :
    (d.retold r).callFlash a call
      = ((d.callFlash a call).1, (d.callFlash a call).2.retold r) := by
  simp only [callFlash, retold_faults]
  split
  · exact Prod.ext rfl (note_retold (d := { d with faults := _ }) r a rfl)
  · exact Prod.ext rfl (note_retold (d := { d with faults := _ }) r a rfl)
  · exact Prod.ext rfl (note_retold (d := { d with faults := _, flash := _ }) r a rfl)

theorem callFirmware_retold (a : Actor) (call : FirmwareCall) :
    (d.retold r).callFirmware a call
      = ((d.callFirmware a call).1, (d.callFirmware a call).2.retold r) := by
  simp only [callFirmware, retold_faults]
  split
  · exact Prod.ext rfl (note_retold (d := { d with faults := _ }) r a rfl)
  · exact Prod.ext rfl (note_retold (d := { d with faults := _ }) r a rfl)
  · exact Prod.ext rfl (note_retold (d := { d with faults := _, firmware := _ }) r a rfl)

theorem restart_retold (a : Actor) : (d.retold r).restart a = (d.restart a).retold r :=
  note_retold (d := { d with firmware := _ }) r a rfl

/-! ## Requests -/

theorem refuse_retold (c : Client) (code : Refusal) :
    (d.retold r).refuse c code = (d.refuse c code).retold r := report_retold r ..

theorem start_retold (c : Client) (total : UInt32) (timeoutMs : UInt16) (flags : SessionFlags) :
    (d.retold r).start c total timeoutMs flags = (d.start c total timeoutMs flags).retold r := by
  dsimp +instances [start]
  split
  · exact refuse_retold r ..
  split
  · exact refuse_retold r ..
  split
  · exact refuse_retold r ..
  split
  · exact refuse_retold r ..
  split
  · exact report_retold
      (d := { d with spawnFails := false, registry := _, session := _, inbox := _ }) r ..
  · rename_i registry _ _
    exact emit_retold (d := { d with
      registry
      session := Session.opened total (d.config.timeoutFor timeoutMs) flags
      inbox := some []
      sessions := d.sessions + 1
      task := some
        { stage := .launched, holdsWriter := false
          versionChecked := !flags.needsVersionCheck } }) r ..

@[simp] theorem posting_retold (queue : List Message) :
    (d.retold r).posting queue = d.posting queue := rfl

@[simp] theorem authorize_retold (c : Client) : (d.retold r).authorize c = d.authorize c := rfl

theorem wake_retold : (d.retold r).wake = d.wake.retold r := by
  dsimp +instances [wake]
  split
  · rfl
  · split <;> rfl

theorem data_retold (c : Client) (isEnd : Bool) (chunk : Bytes) :
    (d.retold r).data c isEnd chunk = (d.data c isEnd chunk).retold r := by
  dsimp +instances [data]
  split
  · exact refuse_retold r ..
  split
  · exact refuse_retold r ..
  · exact refuse_retold r ..
  · exact refuse_retold r ..
  split
  · exact refuse_retold r ..
  split
  · exact refuse_retold r ..
  split
  · rename_i queue _ _ _
    exact note_retold (d := { d with inbox := some (queue ++ [Message.data chunk isEnd]) }) r
      .handler (e := .queued chunk isEnd) rfl
  · rfl
  · exact refuse_retold r ..

theorem abort_retold (c : Client) : (d.retold r).abort c = (d.abort c).retold r := by
  dsimp +instances [abort]
  split
  · exact refuse_retold r ..
  split
  · exact wake_retold (d := { d with session := d.session.markAborted .userRequest }) r
  · exact refuse_retold r ..
  · exact refuse_retold r ..
  · exact refuse_retold r ..

theorem scheduleRestart_retold : (d.retold r).scheduleRestart = d.scheduleRestart.retold r := by
  dsimp +instances [scheduleRestart]
  split
  · exact restart_retold (d := { d with spawnFails := false }) r ..
  · rfl

theorem finishAction_retold (c : Client) (action : Action) (result : FlashResult) :
    (d.retold r).finishAction c action result = (d.finishAction c action result).retold r := by
  -- the report, and the restart that a reset asks for
  have report : ∀ (d : Device) (code : Int32),
      (if action = .reset then
          (((d.retold r).emit .handler (.actionPerformed action code)).send .handler c
            (.action action code)).scheduleRestart
        else ((d.retold r).emit .handler (.actionPerformed action code)).send .handler c
          (.action action code))
        = (if action = .reset then
            ((d.emit .handler (.actionPerformed action code)).send .handler c
              (.action action code)).scheduleRestart
          else (d.emit .handler (.actionPerformed action code)).send .handler c
            (.action action code)).retold r := by
    intro d code
    rw [report_retold]
    split
    · exact scheduleRestart_retold r
    · rfl
  dsimp +instances [finishAction]
  rcases hrev : action == .invalidateImage && d.pendingReboot && result.isOk
  · exact report d _
  · exact report { d with pendingReboot := false } _

theorem act_retold (c : Client) (action : Action) :
    (d.retold r).act c action = (d.act c action).retold r := by
  dsimp +instances [act]
  split
  · exact refuse_retold r ..
  split
  · exact refuse_retold r ..
  · exact finishAction_retold r ..
  · rename_i call hcall
    rw [callFirmware_retold]
    rcases d.callFirmware .handler call with ⟨_ | result, d₁⟩
    · rfl
    · exact finishAction_retold r ..

theorem receive_retold (c : Client) (frame : Bytes) :
    (d.retold r).receive c frame = (d.receive c frame).retold r := by
  rw [receive, receive]
  split
  · exact start_retold r ..
  · exact data_retold r ..
  · exact abort_retold r ..
  · exact act_retold r ..
  · exact refuse_retold r ..

theorem disconnect_retold (c : Client) : (d.retold r).disconnect c = (d.disconnect c).retold r := by
  dsimp +instances [disconnect]
  split
  · exact wake_retold (d := { d with session := d.session.markAborted .userDisconnect }) r
  · rfl

/-! ## Steps -/

theorem unlessAborted_retold {go : Device → Device} (h : go (d.retold r) = (go d).retold r) :
    (d.retold r).unlessAborted t go = (d.unlessAborted t go).retold r := by
  dsimp +instances [unlessAborted]
  split
  · rfl
  · exact h

theorem flashStep_retold (call : FlashCall) (onOk : Stage) (onError : FlashError → Stage) :
    (d.retold r).flashStep t call onOk onError = (d.flashStep t call onOk onError).retold r := by
  simp only [flashStep, retold_taskActor, callFlash_retold]
  rcases d.callFlash d.taskActor call with ⟨_ | e | ⟨⟩, d₁⟩ <;> rfl

theorem takeWriter_retold : (d.retold r).takeWriter t = (d.takeWriter t).retold r := by
  dsimp +instances [takeWriter]
  split <;> rfl

theorem tellOwner_retold (frame : Response) :
    (d.retold r).tellOwner frame = (d.tellOwner frame).retold r := by
  dsimp +instances [tellOwner]
  split
  · exact send_retold r ..
  · rfl

theorem await_retold (waited : Nat) :
    (d.retold r).await t waited = (d.await t waited).map (retold · r) := by
  dsimp +instances [await]
  split
  · rfl
  · rfl
  · split <;> rfl

theorem consider_retold (m : Message) :
    (d.retold r).consider t m = (d.consider t m).retold r := by
  dsimp +instances [consider]
  split
  · rfl
  · split <;> rfl

theorem measure_retold (chunk : Bytes) (isEnd : Bool) :
    (d.retold r).measure t chunk isEnd = (d.measure t chunk isEnd).retold r := by
  dsimp +instances [measure]
  split
  · exact congrArg die (note_retold r _ rfl)
  · rfl
  · split <;> rfl

theorem vet_retold (chunk : Bytes) (isEnd : Bool) :
    (d.retold r).vet t chunk isEnd = (d.vet t chunk isEnd).retold r := by
  have same : (d.retold r).policyCheck chunk = d.policyCheck chunk := rfl
  rw [vet, vet, same]
  split <;> rfl

theorem account_retold (chunk : Bytes) (isEnd : Bool) :
    (d.retold r).account t chunk isEnd = (d.account t chunk isEnd).retold r := by
  dsimp +instances [account]
  split
  · exact congrArg die (note_retold r _ rfl)
  split
  · rename_i session _ _ _
    exact congrArg die (note_retold (d := { d with session }) r _ rfl)
  · rfl

theorem tellProgress_retold (received requested : UInt32) (isEnd : Bool) :
    (d.retold r).tellProgress t received requested isEnd
      = (d.tellProgress t received requested isEnd).retold r := by
  dsimp +instances [tellProgress]
  rw [emit_retold]
  dsimp +instances only [retold_session]
  split <;> rfl

theorem finalize_retold : (d.retold r).finalize t = (d.finalize t).retold r := by
  dsimp +instances [finalize]
  split <;> rfl

theorem leave_retold (outcome : Outcome) :
    (d.retold r).leave t outcome = (d.leave t outcome).retold r := by
  refine Eq.trans ?_ (emit_retold r ..)
  rfl

theorem taskStep_retold : (d.retold r).taskStep t = (d.taskStep t).map (retold · r) := by
  rcases hs : t.stage with _ | _ | _ | ⟨frame, isEnd⟩ | waited | _ | m | ⟨chunk, isEnd⟩ |
    ⟨chunk, isEnd⟩ | ⟨chunk, isEnd⟩ | ⟨chunk, isEnd⟩ | ⟨received, requested, isEnd⟩ | _ | _ | _ |
    reason | outcome <;>
    simp only [taskStep, hs]
  case launched => exact congrArg some (takeWriter_retold r)
  case beginning => exact congrArg some (flashStep_retold r ..)
  case begun => exact congrArg some (unlessAborted_retold r rfl)
  case reporting => exact congrArg (some <| goOn · t isEnd) (tellOwner_retold r frame)
  case awaiting => exact await_retold r waited
  case expired => rfl
  case holding => exact congrArg some (unlessAborted_retold r (consider_retold r m))
  case measuring => exact congrArg some (measure_retold r chunk isEnd)
  case vetting => exact congrArg some (vet_retold r chunk isEnd)
  case writing => exact congrArg some (flashStep_retold r ..)
  case written => exact congrArg some (unlessAborted_retold r (account_retold r chunk isEnd))
  case counted => exact congrArg some (tellProgress_retold r ..)
  case ending => exact congrArg some (unlessAborted_retold r (finalize_retold r))
  case closing => exact congrArg some (flashStep_retold r ..)
  case selecting => exact congrArg some (flashStep_retold r ..)
  case aborting => exact congrArg some (flashStep_retold r ..)
  case leaving => exact congrArg some (leave_retold r outcome)

theorem errandStep_retold (a : Actor) :
    (d.retold r).errandStep a = (d.errandStep a).map (retold · r) := by
  rw [errandStep, errandStep, retold_errands, Option.map_map]
  refine congrArg (fun f => Option.map f _) (funext fun ⟨duty, errands⟩ => ?_)
  rcases duty with ⟨c, frame⟩ | ⟨except, frame⟩ | _
  · exact send_retold (d := { d with errands }) r ..
  · exact note_retold (d := { d with errands }) r a rfl
  · exact restart_retold (d := { d with errands }) r ..

theorem step_retold (a : Actor) : (d.retold r).step a = (d.step a).map (retold · r) := by
  dsimp +instances [step]
  split
  · split
    · exact taskStep_retold r
    · exact errandStep_retold r a
  · exact errandStep_retold r a

/-! ## Moves -/

/-- **The same move, told another way.**  A loss is a matter of the telling. -/
theorem move_retold {m : Move} (h : m.isLoss = false) :
    (d.retold r).move m = (d.move m).retold r := by
  rcases m with ⟨c, frame⟩ | c | a | ms | fault | _ | c | pending
  case frame => exact receive_retold r c frame
  case disconnect => exact disconnect_retold r c
  case step =>
    change ((d.retold r).step a).getD (d.retold r) = ((d.step a).getD d).retold r
    rw [step_retold]
    rcases d.step a <;> rfl
  case pass =>
    change (d.retold r).pass ms = (d.pass ms).retold r
    dsimp +instances [pass]
    split
    · split <;> rfl
    · rfl
  case lose => cases h
  all_goals rfl


/-! ## More in front of the journal -/

/-- The device with some entries in front of its journal. -/
def after (d : Device) (j : Journal) : Device := { d with journal := j ++ d.journal }

/-- The journal is told behind some entries. -/
def behind (j : Journal) : Retelling where
  journal := (j ++ ·)
  unreachable := id
  note _ _ _ _ := (List.append_assoc ..).symm
  send _ _ _ _ _ := (List.append_assoc ..).symm

/-- **A move does not depend on what is in the journal.** -/
theorem move_after (j : Journal) (m : Move) : (d.after j).move m = (d.move m).after j := by
  rcases hloss : m.isLoss
  · exact move_retold (behind j) hloss
  · cases m <;> first | rfl | cases hloss

/-! ## Devices that differ in what the handler has written -/


/-- The device without its journal. -/
def bare (d : Device) : Device := { d with journal := [] }

theorem bare_after (d : Device) : d.bare.after d.journal = d := by
  rw [after, bare, List.append_nil]

/-- The same device but for what the handler has written into the journal. -/
structure Alike (d d' : Device) : Prop where
  bare : d.bare = d'.bare
  deeds : ∀ a, a ≠ .handler → d.journal.deeds a = d'.journal.deeds a

variable {d' d'' : Device}

theorem Alike.refl (d : Device) : d.Alike d := ⟨rfl, fun _ _ => rfl⟩

theorem Alike.trans (h : d.Alike d') (h' : d'.Alike d'') : d.Alike d'' :=
  ⟨h.bare.trans h'.bare, fun a ha => (h.deeds a ha).trans (h'.deeds a ha)⟩

/-- **Devices that are alike stay alike.** -/
theorem Alike.move (h : d.Alike d') (m : Move) : (d.move m).Alike (d'.move m) := by
  have hmove : ∀ d : Device, d.move m = (d.bare.move m).after d.journal := fun d => by
    rw [← move_after, bare_after]
  rw [hmove d, hmove d', ← h.bare]
  refine ⟨rfl, fun a ha => ?_⟩
  change Journal.deeds a (_ ++ _) = Journal.deeds a (_ ++ _)
  rw [Journal.deeds_append, Journal.deeds_append]
  exact congrArg (· ++ _) (h.deeds a ha)

theorem Alike.run (h : d.Alike d') (ms : List Move) : (d.run ms).Alike (d'.run ms) := by
  induction ms generalizing d d' with
  | nil => exact h
  | cons m ms ih => exact ih (h.move m)

theorem Alike.session (h : d.Alike d') : d.session = d'.session := by
  change d.bare.session = d'.bare.session
  rw [h.bare]

theorem Alike.sessions (h : d.Alike d') : d.sessions = d'.sessions := by
  change d.bare.sessions = d'.bare.sessions
  rw [h.bare]

end Device

end OverTheAir
