import OverTheAir.Proofs.Doings
import OverTheAir.Proofs.Partition

/-!
# Proofs/Sound — the state a device is always in

Owner, session record, inbox, parked writer, task and partition are written separately, by the
handler and by the session task.  A device is **sound** when they agree: at rest everything is clear
(`Resting`); in a session there is an owner and an inbox, no completed update waits (`Busy`), and
the partition holds exactly the bytes that the stage of the task accounts for (`Stands`).

* `Sound.moved` — every move keeps a device sound.
* `sound_run` — so a fresh device stays sound, whatever happens to it.
-/

namespace OverTheAir

namespace Stage

theorem ne_launched_of_call? {s : Stage} {total : UInt32} {call : FlashCall}
    (h : s.call? total = some call) : s ≠ .launched := by
  rintro rfl
  cases h

theorem after_ne_launched {s : Stage} (h : s ≠ .launched) (r : FlashResult) :
    s.after r ≠ .launched := by
  cases s with
  | launched => exact absurd rfl h
  | _ => rcases r with e | ⟨⟩ <;> nofun

end Stage

namespace Session

/-- The transfer goes on, or its abort is recorded and not yet carried out. -/
def InTransfer (s : Session) : Prop := s.state = .receiving ∨ ∃ r, s.state = .aborted r

theorem InTransfer.ne_idle {s : Session} (h : s.InTransfer) : s.state ≠ .idle := by
  rcases h with h | ⟨r, h⟩ <;> simp [h]

theorem InTransfer.ne_finalizing {s : Session} (h : s.InTransfer) : s.state ≠ .finalizing := by
  rcases h with h | ⟨r, h⟩ <;> simp [h]

/-- An abort keeps the record but for its state. -/
theorem markAborted_eq (s : Session) (r : AbortReason) :
    ∃ state, s.markAborted r = { s with state } := by
  rw [markAborted]
  split
  · exact ⟨_, rfl⟩
  · exact ⟨s.state, rfl⟩

/-- Marking a transfer leaves it an aborted transfer. -/
theorem InTransfer.markAborted {s : Session} (h : s.InTransfer) (r : AbortReason) :
    ∃ r', s.markAborted r = { s with state := .aborted r' } := by
  rcases h with h | ⟨r', h⟩
  · exact ⟨r, if_pos (by simp [isReceiving, h])⟩
  · exact ⟨r', (markAborted_of_aborted h r).trans (by rw [← h])⟩

theorem InTransfer.receiving {s : Session} (h : s.InTransfer) (hp : s.pendingAbort = none) :
    s.state = .receiving := by
  rcases h with h | ⟨r, h⟩
  · exact h
  · simp [pendingAbort, h] at hp

/-- In a transfer, with `n` bytes of the image in the partition. -/
structure Takes (s : Session) (f : Flash) (n : Nat) : Prop where
  inTransfer : s.InTransfer
  holds : f.Holds s.total n

/-- A frame that a task sends to its owner on the way: the bytes so far, as long as some are
missing, or that a chunk overran. -/
def Tells (s : Session) (maxChunk : UInt32) (frame : Response) : Prop :=
  frame = .error .packetSize ∨ s.received.toNat < s.total.toNat ∧
    frame = .state s.received (min (s.total - s.received) maxChunk)

/-- A session that fails once it is finalizing fails for what the partition answers. -/
def Fails (s : Session) (reason : AbortReason) : Prop :=
  s.state ≠ .idle ∧ (s.state = .finalizing → reason = .endFailed ∨ reason = .bootSelection)

/-- The session is finalizing, and all of the image is there. -/
structure Finalizes (s : Session) : Prop where
  state : s.state = .finalizing
  all : s.received = s.total

theorem InTransfer.fails {s : Session} (h : s.InTransfer) (reason : AbortReason) :
    s.Fails reason :=
  ⟨h.ne_idle, fun hf => absurd hf h.ne_finalizing⟩

end Session

/-- Session record and partition when the task of the session stands at a stage. -/
def Stage.Stands (s : Session) (f : Flash) (maxChunk : UInt32) : Stage → Prop
  | .launched => s.InTransfer ∧ s.received = 0
  | .beginning => s.InTransfer ∧ s.received = 0
  | .begun => s.Takes f 0 ∧ s.received = 0
  | .reporting frame _ => s.Takes f s.received.toNat ∧ s.Tells maxChunk frame
  | .awaiting _ => s.Takes f s.received.toNat
  | .expired => s.Takes f s.received.toNat
  | .holding _ => s.Takes f s.received.toNat
  | .measuring chunk _ => s.Takes f s.received.toNat ∧ chunk ≠ []
  | .vetting chunk _ => s.Takes f s.received.toNat ∧ chunk ≠ [] ∧
      s.received.toNat + chunk.length ≤ s.total.toNat
  | .writing chunk _ => s.Takes f s.received.toNat ∧ chunk ≠ [] ∧
      s.received.toNat + chunk.length ≤ s.total.toNat
  | .written chunk _ => s.Takes f (s.received.toNat + chunk.length) ∧ chunk ≠ [] ∧
      s.received.toNat + chunk.length ≤ s.total.toNat
  | .counted received requested _ => s.Takes f s.received.toNat ∧ received = s.received ∧
      0 < received.toNat ∧ requested = min (s.total - s.received) maxChunk
  | .ending => s.Takes f s.received.toNat
  | .closing => s.Finalizes ∧ f.Holds s.total s.received.toNat
  | .selecting => s.Finalizes ∧ f.Complete s.total
  | .aborting reason => s.Fails reason
  | .leaving .completed => s.Finalizes ∧ f.Complete s.total ∧ f.bootSelected = true
  | .leaving (.aborted reason) => s.Fails reason

/-- A task has a session. -/
theorem Stage.Stands.ne_idle {s : Session} {f : Flash} {maxChunk : UInt32} {stage : Stage}
    (h : stage.Stands s f maxChunk) : s.state ≠ .idle := by
  have final : s.Finalizes → s.state ≠ .idle := fun h => by simp [h.state]
  rcases stage with _ | _ | _ | _ | _ | _ | _ | _ | _ | _ | _ | _ | _ | _ | _ | _ | _ | _
  case leaving.aborted => exact h.1
  case leaving.completed => exact final h.1
  case aborting => exact h.1
  case launched => exact h.1.ne_idle
  case beginning => exact h.1.ne_idle
  case closing => exact final h.1
  case selecting => exact final h.1
  case awaiting => exact h.inTransfer.ne_idle
  case expired => exact h.inTransfer.ne_idle
  case holding => exact h.inTransfer.ne_idle
  case ending => exact h.inTransfer.ne_idle
  all_goals exact h.1.inTransfer.ne_idle

theorem Session.Takes.stands_next {s : Session} {f : Flash} {maxChunk : UInt32} {isEnd : Bool}
    (h : s.Takes f s.received.toNat) : (Stage.next isEnd).Stands s f maxChunk := by
  rcases isEnd with _ | _ <;> exact h

/-- **Where the task stands leaves room for an abort**: only what comes after the image has ended
needs the record as it is, and there nothing is received any more. -/
theorem Stage.Stands.abort {s : Session} {f : Flash} {maxChunk : UInt32} {stage : Stage}
    (h : stage.Stands s f maxChunk) (hs : s.state = .receiving) (reason : AbortReason) :
    stage.Stands { s with state := .aborted reason } f maxChunk := by
  have inTransfer : Session.InTransfer { s with state := .aborted reason } := .inr ⟨reason, rfl⟩
  have takes : ∀ {n}, s.Takes f n → Session.Takes { s with state := .aborted reason } f n :=
    fun h => ⟨inTransfer, h.holds⟩
  have final : ¬s.Finalizes := fun h => by simp [h.state] at hs
  rcases stage with _ | _ | _ | _ | _ | _ | _ | _ | _ | _ | _ | _ | _ | _ | _ | _ | _ | _
  case launched => exact ⟨inTransfer, h.2⟩
  case beginning => exact ⟨inTransfer, h.2⟩
  case closing => exact absurd h.1 final
  case selecting => exact absurd h.1 final
  case leaving.completed => exact absurd h.1 final
  case leaving.aborted => exact inTransfer.fails _
  case aborting => exact inTransfer.fails _
  case awaiting => exact takes h
  case expired => exact takes h
  case holding => exact takes h
  case ending => exact takes h
  all_goals exact ⟨takes h.1, h.2⟩

namespace Device

/-! ## The invariant -/

/-- Nothing is going on. -/
structure Resting (d : Device) : Prop where
  session : d.session = Session.idle
  unbound : d.registry.owner = none
  noInbox : d.inbox = none
  parked : d.writerParked = true
  noTask : d.task = none

/-- A session is on; its task may have died with the flash writer. -/
structure Busy (d : Device) : Prop where
  bound : ∃ c, d.registry.owner = some c
  inbox : ∃ queue, d.inbox = some queue
  pos : 0 < d.session.total.toNat
  notPending : d.pendingReboot = false
  lost : d.task = none → d.writerParked = false

/-- The task has the flash writer from its first step on, and stands where the rest of the device
says. -/
structure Standing (d : Device) (t : SessionTask) : Prop where
  holdsWriter : t.holdsWriter = !d.writerParked
  launched : d.writerParked = true ↔ t.stage = .launched
  stands : t.stage.Stands d.session d.flash d.config.maxChunkSize

/-- **The parts of a device agree.** -/
structure Sound (d : Device) : Prop where
  counts : d.session.received.toNat ≤ d.session.total.toNat
  resting : d.session.state = .idle → d.Resting
  busy : d.session.state ≠ .idle → d.Busy
  standing : ∀ t, d.task = some t → d.Standing t

variable {d d' : Device} {t : SessionTask}

/-- Without an owner there is no session. -/
theorem Sound.resting_of_unbound (h : d.Sound) (hu : d.registry.owner = none) : d.Resting := by
  by_cases hidle : d.session.state = .idle
  · exact h.resting hidle
  · obtain ⟨c, hc⟩ := (h.busy hidle).bound
    rw [hu] at hc
    cases hc

/-- While a completed update waits there is no session. -/
theorem Sound.resting_of_pending (h : d.Sound) (hp : d.pendingReboot = true) : d.Resting := by
  by_cases hidle : d.session.state = .idle
  · exact h.resting hidle
  · simp [(h.busy hidle).notPending] at hp

theorem Sound.ne_idle (h : d.Sound) (live : d.task = some t) : d.session.state ≠ .idle :=
  (h.standing t live).stands.ne_idle

theorem Sound.stands (h : d.Sound) (live : d.task = some t) {s : Stage} (hs : t.stage = s) :
    s.Stands d.session d.flash d.config.maxChunkSize :=
  hs ▸ (h.standing t live).stands

theorem sound_fresh (config : Config) (firmware : Firmware) : (fresh config firmware).Sound where
  counts := Nat.le_refl _
  resting _ := ⟨rfl, rfl, rfl, rfl, rfl⟩
  busy h := absurd rfl h
  standing _ h := by cases h

/-! ## Moves keep it -/

/-- What the invariant depends on. -/
theorem Sound.congr (h : d.Sound) (config : d'.config = d.config)
    (registry : d'.registry = d.registry) (session : d'.session = d.session)
    (writer : d'.writerParked = d.writerParked) (inbox : d'.inbox = d.inbox)
    (pending : d'.pendingReboot = d.pendingReboot) (task : d'.task = d.task)
    (flash : d'.flash = d.flash) : d'.Sound := by
  rcases d
  rcases d'
  dsimp only at config registry session writer inbox pending task flash
  subst config registry session writer inbox pending task flash
  exact ⟨h.counts, fun hi => { h.resting hi with }, fun hb => { h.busy hb with },
    fun t ht => { h.standing t ht with }⟩

theorem Sound.handled {m : Move} (h : d.Sound) (hm : Handled d m d') : d'.Sound := by
  cases hm with
  | ignored => exact h
  | refused => exact h.congr rfl rfl rfl rfl rfl rfl rfl rfl
  | opened decodes unbound idle parked notPending pos =>
    refine ⟨Nat.zero_le _, nofun, fun _ => ⟨⟨_, rfl⟩, ⟨_, rfl⟩, ?_, notPending, nofun⟩, ?_⟩
    · exact Nat.pos_of_ne_zero fun h0 => pos (UInt32.toNat_inj.mp h0)
    · rintro t ht
      obtain rfl := Option.some.inj ht
      exact ⟨by simp [parked], by simp [parked], .inl rfl, rfl⟩
  | unopened reached decodes unbound idle parked =>
    have hr := h.resting idle
    exact ⟨Nat.le_refl _, fun _ => ⟨rfl, rfl, rfl, parked, hr.noTask⟩, fun hb => absurd rfl hb,
      fun t ht => by simp [hr.noTask] at ht⟩
  | queued decodes owner receiving =>
    have hb := h.busy (by simp [receiving])
    exact ⟨h.counts, fun hi => by simp [receiving] at hi, fun _ => { hb with inbox := ⟨_, rfl⟩ },
      fun t ht => { h.standing t ht with }⟩
  | recorded reason byOwner owner receiving woken =>
    have hb := h.busy (by simp [receiving])
    refine ⟨h.counts, nofun, fun _ => { hb with inbox := ?_ }, fun t ht => ?_⟩
    · rcases woken with rfl | ⟨queue, -, rfl⟩
      · exact hb.inbox
      · exact ⟨_, rfl⟩
    · have hst := h.standing t ht
      exact { hst with stands := hst.stands.abort receiving reason }
  | acted es decodes unbound =>
    have hr := h.resting_of_unbound unbound
    refine ⟨h.counts, fun _ => { hr with }, fun hb => absurd (congrArg Session.state hr.session) hb,
      fun t ht => ?_⟩
    rw [hr.noTask] at ht
    cases ht

/-- **The task goes on**: what has to be checked when it comes to a stage with the session and the
partition changed. -/
theorem Sound.goto {d₁ : Device} {t' : SessionTask} {s : Stage} (h : d.Sound)
    (live : d.task = some t) (from_ : t.stage ≠ .launched) (to_ : s ≠ .launched)
    (config : d₁.config = d.config) (registry : d₁.registry = d.registry)
    (writer : d₁.writerParked = d.writerParked) (pending : d₁.pendingReboot = d.pendingReboot)
    (inbox : ∃ queue, d₁.inbox = some queue) (total : d₁.session.total = d.session.total)
    (counts : d₁.session.received.toNat ≤ d₁.session.total.toNat)
    (holds : t'.holdsWriter = t.holdsWriter)
    (stands : s.Stands d₁.session d₁.flash d.config.maxChunkSize) : (d₁.goto t' s).Sound := by
  have hb := h.busy (h.ne_idle live)
  have hst := h.standing t live
  have hparked : d₁.writerParked ≠ true := by
    rw [writer]
    exact fun hp => from_ (hst.launched.mp hp)
  refine ⟨counts, fun hi => absurd hi stands.ne_idle, fun _ => ?_, ?_⟩
  · refine ⟨?_, inbox, ?_, pending.trans hb.notPending, nofun⟩
    · change ∃ c, d₁.registry.owner = some c
      rw [registry]
      exact hb.bound
    · change 0 < d₁.session.total.toNat
      rw [total]
      exact hb.pos
  · rintro _ ⟨⟩
    refine ⟨?_, ⟨fun hp => absurd hp hparked, fun hs => absurd hs to_⟩, ?_⟩
    · change t'.holdsWriter = !d₁.writerParked
      rw [holds, writer, hst.holdsWriter]
    · change s.Stands d₁.session d₁.flash d₁.config.maxChunkSize
      rw [config]
      exact stands

/-- A call that is answered leads where the partition says. -/
theorem Sound.stands_after (h : d.Sound) (live : d.task = some t) {call : FlashCall}
    {r : FlashResult} {flash : Flash} (calls : t.stage.call? d.session.total = some call)
    (answer : d.flash.call call = (r, flash) ∨ flash = d.flash ∧ ∃ e, r = .error e) :
    (t.stage.after r).Stands d.session flash d.config.maxChunkSize := by
  have hst := (h.standing t live).stands
  rcases hs : t.stage with
    _ | _ | _ | _ | _ | _ | _ | _ | _ | ⟨chunk, isEnd⟩ | _ | _ | _ | _ | _ | reason | _ <;>
    rw [hs] at calls hst <;> simp only [Stage.call?, Option.some.injEq, reduceCtorEq] at calls <;>
    subst calls
  case beginning =>
    rcases r with e | ⟨⟩
    · exact hst.1.fails _
    · have hcall := Flash.call_of_ok answer
      exact ⟨⟨hst.1, (Flash.holds_begin hcall).1⟩, hst.2⟩
  case writing =>
    obtain ⟨htakes, hne, hfit⟩ := hst
    rcases r with e | ⟨⟩
    · exact htakes.inTransfer.fails _
    · have hcall := Flash.call_of_ok answer
      obtain ⟨f', hcall', hholds, -⟩ := htakes.holds.write hfit
      obtain rfl : f' = flash := (Prod.mk.inj (hcall'.symm.trans hcall)).2
      exact ⟨⟨htakes.inTransfer, hholds⟩, hne, hfit⟩
  case closing =>
    obtain ⟨hfinal, hholds⟩ := hst
    rcases r with e | ⟨⟩
    · exact ⟨by simp [hfinal.state], fun _ => .inl rfl⟩
    · have hcall := Flash.call_of_ok answer
      obtain ⟨f', hcall', hcomplete, -⟩ := hholds.finish (congrArg UInt32.toNat hfinal.all)
      obtain rfl : f' = flash := (Prod.mk.inj (hcall'.symm.trans hcall)).2
      exact ⟨hfinal, hcomplete⟩
  case selecting =>
    obtain ⟨hfinal, hcomplete⟩ := hst
    rcases r with e | ⟨⟩
    · exact ⟨by simp [hfinal.state], fun _ => .inr rfl⟩
    · have hcall := Flash.call_of_ok answer
      obtain rfl : { d.flash with bootSelected := true } = flash :=
        (Prod.mk.inj (hcomplete.select.symm.trans hcall)).2
      exact ⟨hfinal, { hcomplete with }, rfl⟩
  case aborting => exact hst

/-- **What is selected is complete**, and the task leaves next. -/
theorem Sound.selects {m : Move} (h : d.Sound) (hc : Called d .select (.ok ()) m d') :
    ∃ t, m = .step d.taskActor ∧ d.task = some t ∧ t.stage = .selecting ∧
      d'.task = some { t with stage := .leaving .completed } ∧ d.flash.Complete d.session.total ∧
      d'.flash = { d.flash with bootSelected := true } ∧ d'.sessions = d.sessions := by
  obtain ⟨live, calls, answer⟩ := hc
  rename_i t faults flash
  have hs := Stage.eq_selecting_of_call? calls
  obtain ⟨hfinal, hcomplete⟩ := h.stands live hs
  have hcall := Flash.call_of_ok answer
  obtain rfl : { d.flash with bootSelected := true } = flash :=
    (Prod.mk.inj (hcomplete.select.symm.trans hcall)).2
  refine ⟨t, rfl, live, hs, ?_, hcomplete, rfl, rfl⟩
  change some { t with stage := t.stage.after (.ok ()) } = _
  rw [hs]
  rfl

/-- A chunk that was found to fit may be vetted or written. -/
theorem Sound.fits (h : d.Sound) (live : d.task = some t) {chunk : Bytes} {isEnd : Bool}
    (hs : t.stage = .measuring chunk isEnd) (fits : d.session.fits? chunk.length = some true) :
    d.session.Takes d.flash d.session.received.toNat ∧ chunk ≠ [] ∧
      d.session.received.toNat + chunk.length ≤ d.session.total.toNat := by
  obtain ⟨htakes, nonempty⟩ := h.stands live hs
  refine ⟨htakes, nonempty, ?_⟩
  simpa [Session.fits?_eq_some h.counts] using fits

/-- **A chunk that was written is accounted for**: the count grows by its length and stays within
the announced size. -/
theorem Sound.accounts (h : d.Sound) (live : d.task = some t) {chunk : Bytes} {isEnd : Bool}
    (hs : t.stage = .written chunk isEnd) : ∃ received : UInt32,
    d.session.advance? (UInt32.ofNat chunk.length) = some { d.session with received } ∧
    received.toNat = d.session.received.toNat + chunk.length ∧
    received.toNat ≤ d.session.total.toNat ∧
    Session.nextRequest? { d.session with received } d.config.maxChunkSize
      = some (min (d.session.total - received) d.config.maxChunkSize) := by
  obtain ⟨-, -, hfit⟩ := h.stands live hs
  obtain ⟨hlen, hsum⟩ := Bytes.toNat_add_ofNat hfit
  refine ⟨d.session.received + UInt32.ofNat chunk.length, Session.advance?_eq_some (by omega), hsum,
    by omega, ?_⟩
  have hle : d.session.received + UInt32.ofNat chunk.length ≤ d.session.total :=
    UInt32.le_iff_toNat_le.mpr (by omega)
  simp [Session.nextRequest?, Session.remaining?, hle]

/-- So the record of a chunk that was accounted for is the one before with a greater count. -/
theorem Sound.advances (h : d.Sound) (live : d.task = some t) {chunk : Bytes} {isEnd : Bool}
    {session : Session} (hs : t.stage = .written chunk isEnd)
    (advances : d.session.advance? (UInt32.ofNat chunk.length) = some session) :
    ∃ received : UInt32, session = { d.session with received } ∧
      received.toNat = d.session.received.toNat + chunk.length ∧
      d.session.received < received := by
  obtain ⟨received, hadvance, hsum, -⟩ := h.accounts live hs
  obtain ⟨-, nonempty, -⟩ := h.stands live hs
  have pos := List.length_pos_iff.mpr nonempty
  have grows : d.session.received < received := UInt32.lt_iff_toNat_lt.mpr (by omega)
  exact ⟨received, Option.some.inj (advances.symm.trans hadvance), hsum, grows⟩

/-- **The byte counts never leave their range.** -/
theorem Sound.not_miscounts (h : d.Sound) (live : d.task = some t) : ¬d.Miscounts t := by
  rintro (⟨chunk, isEnd, -, hnone⟩ | ⟨chunk, isEnd, hs, hbad⟩)
  · simp [Session.fits?_eq_some h.counts] at hnone
  · obtain ⟨received, hadvance, -, -, hrequest⟩ := h.accounts live hs
    rcases hbad with hnone | ⟨s, hsome, hnone⟩
    · simp [hadvance] at hnone
    · obtain rfl := Option.some.inj (hadvance.symm.trans hsome)
      simp [hrequest] at hnone

theorem Sound.advanced (h : d.Sound) (live : d.task = some t) (hm : Advanced d t d') :
    d'.Sound := by
  have hne := h.ne_idle live
  have hb := h.busy hne
  have hst := h.standing t live
  have notLaunched : ∀ {s : Stage}, t.stage = s → s ≠ .launched → t.stage ≠ .launched :=
    fun hs hl => hs ▸ hl
  -- a task that changes nothing but its stage
  have moveOn : ∀ {t' s s'}, t.stage = s → s ≠ .launched → s' ≠ .launched →
      t'.holdsWriter = t.holdsWriter → s'.Stands d.session d.flash d.config.maxChunkSize →
      (d.goto t' s').Sound := fun hs hl hl' hw stands =>
    h.goto live (notLaunched hs hl) hl' rfl rfl rfl rfl hb.inbox rfl h.counts hw stands
  have next_ne : ∀ isEnd, Stage.next isEnd ≠ .launched := Stage.next_ne nofun nofun
  cases hm with
  | equipped hs =>
    refine ⟨h.counts, fun hi => absurd hi hne, fun _ => { hb with lost := nofun }, ?_⟩
    rintro _ ⟨⟩
    have hstands := h.stands live hs
    exact ⟨rfl, ⟨nofun, nofun⟩, hstands⟩
  | unequipped hs parked => simp [hst.launched.mpr hs] at parked
  | died calls =>
    refine ⟨h.counts, fun hi => absurd hi hne, fun _ => { hb with lost := fun _ => ?_ }, nofun⟩
    exact Bool.eq_false_iff.mpr fun hp => Stage.ne_launched_of_call? calls (hst.launched.mp hp)
  | called calls answer =>
    have hcalls := Stage.ne_launched_of_call? calls
    exact h.goto live hcalls (Stage.after_ne_launched hcalls _) rfl rfl rfl rfl hb.inbox rfl
      h.counts rfl (h.stands_after live calls answer)
  | bailed looks aborted =>
    have inTransfer : d.session.InTransfer := .inr ⟨_, aborted⟩
    exact moveOn rfl (fun hs => by simp [hs, Stage.looksForAbort] at looks) nofun rfl
      (inTransfer.fails _)
  | greeted hs =>
    obtain ⟨htakes, hzero⟩ := h.stands live hs
    refine moveOn hs nofun nofun rfl ⟨?_, .inr ⟨?_, ?_⟩⟩
    · rw [hzero]
      exact htakes
    · rw [hzero]
      exact hb.pos
    · rw [hzero, UInt32.sub_zero]
  | told _ hs =>
    exact h.goto live (notLaunched hs nofun) (next_ne _) rfl rfl rfl rfl hb.inbox rfl h.counts rfl
      (h.stands live hs).1.stands_next
  | untold hs => exact moveOn hs nofun (next_ne _) rfl (h.stands live hs).1.stands_next
  | took hs =>
    have htakes : d.session.Takes d.flash d.session.received.toNat := h.stands live hs
    exact h.goto live (notLaunched hs nofun) nofun rfl rfl rfl rfl ⟨_, rfl⟩ rfl h.counts rfl htakes
  | orphaned _ hs => exact moveOn hs nofun nofun rfl ((h.stands live hs).inTransfer.fails _)
  | waitedOut hs =>
    have htakes : d.session.Takes d.flash d.session.received.toNat := h.stands live hs
    exact moveOn hs nofun nofun rfl htakes
  | timedOut hs =>
    obtain ⟨r, hmark⟩ := (h.stands live hs).inTransfer.markAborted .timeout
    rw [hmark]
    have inTransfer : Session.InTransfer { d.session with state := .aborted r } := .inr ⟨r, rfl⟩
    exact h.goto live (notLaunched hs nofun) nofun rfl rfl rfl rfl hb.inbox rfl h.counts rfl
      (inTransfer.fails _)
  | woke hs =>
    have htakes : d.session.Takes d.flash d.session.received.toNat := h.stands live hs
    exact moveOn hs nofun nofun rfl htakes
  | skipped hs =>
    have htakes : d.session.Takes d.flash d.session.received.toNat := h.stands live hs
    exact moveOn hs nofun (next_ne _) rfl htakes.stands_next
  | looked hs _ nonempty => exact moveOn hs nofun nofun rfl ⟨h.stands live hs, nonempty⟩
  | overran hs => exact moveOn hs nofun nofun rfl ⟨(h.stands live hs).1, .inl rfl⟩
  | unvetted hs fits => exact moveOn hs nofun nofun rfl (h.fits live hs fits)
  | fitted hs fits => exact moveOn hs nofun nofun rfl (h.fits live hs fits)
  | barred hs => exact moveOn hs nofun nofun rfl ((h.stands live hs).1.inTransfer.fails _)
  | admitted hs =>
    have hstands := h.stands live hs
    exact moveOn hs nofun nofun rfl hstands
  | miscounted miscounts => exact absurd miscounts (h.not_miscounts live)
  | accounted hs _ advances requests =>
    obtain ⟨received, hadvance, hsum, hle, hrequest⟩ := h.accounts live hs
    obtain rfl := Option.some.inj (hadvance.symm.trans advances)
    obtain rfl := Option.some.inj (hrequest.symm.trans requests)
    obtain ⟨htakes, hchunk, -⟩ := h.stands live hs
    have hpos := List.length_pos_iff.mpr hchunk
    refine h.goto live (notLaunched hs nofun) nofun rfl rfl rfl rfl hb.inbox rfl hle rfl
      ⟨⟨htakes.inTransfer, ?_⟩, rfl, by simp only; omega, rfl⟩
    change d.flash.Holds d.session.total received.toNat
    rw [hsum]
    exact htakes.holds
  | progressed hs short =>
    obtain ⟨htakes, hreceived, -, hrequested⟩ := h.stands live hs
    subst hreceived hrequested
    exact h.goto live (notLaunched hs nofun) nofun rfl rfl rfl rfl hb.inbox rfl h.counts rfl
      ⟨htakes, .inr ⟨UInt32.lt_iff_toNat_lt.mp short, rfl⟩⟩
  | filled hs =>
    exact h.goto live (notLaunched hs nofun) (next_ne _) rfl rfl rfl rfl hb.inbox rfl h.counts rfl
      (h.stands live hs).1.stands_next
  | finalizing hs _ complete =>
    have htakes : d.session.Takes d.flash d.session.received.toNat := h.stands live hs
    exact h.goto live (notLaunched hs nofun) nofun rfl rfl rfl rfl hb.inbox rfl h.counts rfl
      ⟨⟨rfl, complete⟩, htakes.holds⟩
  | cutShort hs => exact moveOn hs nofun nofun rfl ((h.stands live hs).inTransfer.fails _)
  | left =>
    refine ⟨Nat.le_refl _, fun _ => ⟨rfl, rfl, rfl, ?_, rfl⟩, fun hbusy => absurd rfl hbusy, nofun⟩
    change (d.writerParked || t.holdsWriter) = true
    rw [hst.holdsWriter, Bool.or_not_self]

theorem Sound.performed {a : Actor} (h : d.Sound) (hm : Performed d a d') : d'.Sound := by
  obtain ⟨effect, takes, does⟩ := hm
  exact h.congr rfl rfl rfl rfl rfl rfl rfl rfl

/-- **Every move keeps a device sound.** -/
theorem Sound.moved {m : Move} (h : d.Sound) (hm : Moved d m d') : d'.Sound := by
  cases hm with
  | handled hm => exact h.handled hm
  | advanced live hm => exact h.advanced live hm
  | performed _ hm => exact h.performed hm
  | stuck => exact h
  | waited _ live hs =>
    have htakes : d.session.Takes d.flash d.session.received.toNat := h.stands live hs
    exact h.goto live (by simp [hs]) nofun rfl rfl rfl rfl (h.busy (h.ne_idle live)).inbox rfl
      h.counts rfl htakes
  | passed => exact h
  | around => exact h.congr rfl rfl rfl rfl rfl rfl rfl rfl

/-- **A sound device stays sound**, whatever happens to it. -/
theorem Sound.run (h : d.Sound) (ms : List Move) : (d.run ms).Sound :=
  run_induction h (fun h hm => h.moved hm) ms

theorem sound_run (config : Config) (firmware : Firmware) (ms : List Move) :
    ((fresh config firmware).run ms).Sound := (sound_fresh config firmware).run ms

end Device

end OverTheAir
