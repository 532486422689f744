import OverTheAir.Proofs.Faults
import OverTheAir.Proofs.Rest
import OverTheAir.Proofs.Script

/-!
# Proofs/Conduct — a correct upload goes well, whatever the schedule

While an owner hands over the pieces of its image, the task of the session is paused and resumed at
any call, other clients are refused, clients come out of reach and time goes by (`Furthers`).  None
of this makes a difference: what the task has done and what is ahead of it are always the script of
the upload (`Underway`), and once the session is over, what is done and what is left of its duties
are (`Concluded`).

* `Underway.advanced` — every step of the task keeps to the script.
* `Conducts.run` — so does a whole run, as long as no mishap strikes a call of the task, it does not
  wait for too long, and the inbox has room for every piece.
-/

namespace OverTheAir

/-- The version policy that was asked for lets an image begin with a chunk. -/
def Upload.Passes (u : Upload) (firmware : Firmware) (chunk : Bytes) : Prop :=
  (Image.checkVersion chunk u.flags (firmware.running.map (·.text))
    (firmware.lastInvalid.map (·.text))).isOk = true

/-- How long a task that waits has waited. -/
def Stage.waited? : Stage → Option Nat
  | .awaiting waited => some waited
  | _ => none

/-- A stage says whether the version policy has been applied. -/
def Stage.Checked (checked : Bool) : Stage → Prop
  | .vetting _ _ => checked = false
  | .writing _ _ => checked = true
  | _ => True

theorem Stage.checked_next (checked isEnd : Bool) : (next isEnd).Checked checked := by
  cases isEnd <;> trivial

namespace Device

open Journal

/-! ## What may happen meanwhile -/

/-- No mishap strikes the call that the task is about to make. -/
def Spared (d : Device) : Prop := ∀ t ∈ d.task, ∀ call ∈ t.stage.call? d.session.total,
  (Fault.draw call.point d.faults).1 = none

/-- The task has not waited for too long. -/
def InTime (d : Device) : Prop := ∀ t ∈ d.task, ∀ waited ∈ t.stage.waited?,
  d.inbox = some [] → waited < d.session.timeout

/-- The inbox has room for a message, if anyone reads it. -/
def HasRoom (d : Device) : Prop := ∀ queue ∈ d.inbox, d.posting queue ≠ .full

instance (d : Device) : Decidable d.Spared := inferInstanceAs (Decidable (∀ t ∈ _, _))

instance (d : Device) : Decidable d.InTime := inferInstanceAs (Decidable (∀ t ∈ _, _))

instance (d : Device) : Decidable d.HasRoom := inferInstanceAs (Decidable (∀ queue ∈ _, _))

/-- A move while an owner hands over pieces of an image, and the pieces that are left behind it. -/
inductive Furthers (d : Device) (owner : Client) :
    Move → List (Bytes × Bool) → List (Bytes × Bool) → Prop where
  | hands {f chunk isEnd left} (decodes : Request.decode f = .ok (.state isEnd chunk))
      (room : d.HasRoom) : Furthers d owner (.frame owner f) ((chunk, isEnd) :: left) left
  /-- A frame of another client is refused. -/
  | refused {c f c' code left} (other : c ≠ owner)
      (rejects : .event (.rejected c' code) ∈ d.does (.frame c f)) :
      Furthers d owner (.frame c f) left left
  /-- Another client leaves. -/
  | gone {c left} (other : c ≠ owner) : Furthers d owner (.disconnect c) left left
  | steps {a left} (spared : a = d.taskActor → d.Spared) (inTime : a = d.taskActor → d.InTime) :
      Furthers d owner (.step a) left left
  /-- Something changes around the device, or time goes by. -/
  | around {m left} (outside : m.isRequest = false) (still : ∀ a, m ≠ .step a) :
      Furthers d owner m left left

/-- An owner hands over some pieces in a run, all of them and in order. -/
inductive Delivers (owner : Client) : Device → List (Bytes × Bool) → List Move → Prop where
  | nil {d} : Delivers owner d [] []
  | cons {d m ms left left'} (furthers : d.Furthers owner m left left')
      (others : Delivers owner (d.move m) left' ms) : Delivers owner d left (m :: ms)

/-! ## Where an upload stands -/

/-- The pieces that are still to be dealt with: in hand, in the inbox, or not handed over yet. -/
def outstanding (d : Device) (t : SessionTask) (left : List (Bytes × Bool)) : List (Bytes × Bool) :=
  t.stage.inHand ++ (waiting d.inbox ++ left)

/-- The session that is on is that of an upload, and nobody has given it up. -/
structure Hosts (d : Device) (u : Upload) (k : Nat) : Prop where
  session : d.sessions = k
  bound : d.registry.owner = some u.owner
  total : d.session.total = u.total
  flags : d.session.flags = u.flags
  maxChunk : d.config.maxChunkSize = u.maxChunk
  notAborted : d.session.pendingAbort = none

/-- The version policy has been applied, or will let the next chunk pass. -/
def Vetted (u : Upload) (firmware : Firmware) (checked : Bool) (chunks : List Bytes) : Prop :=
  checked = true ∨ ∀ chunk ∈ chunks.head?, u.Passes firmware chunk

/-- **What the task has done and what is ahead of it are the script**, and the pieces that are still
to be dealt with come to what is missing of the image. -/
structure Underway (d : Device) (u : Upload) (k : Nat) (left : List (Bytes × Bool))
    (t : SessionTask) : Prop where
  live : d.task = some t
  hosts : d.Hosts u k
  script : (deeds (.task k) d.journal).map Effect.reaching ++
    u.ahead d.session.received (chunksOf (d.outstanding t left)) t.stage = u.script
  owes : t.stage.Owes u.image d.flash.image.toList (d.outstanding t left)
  checked : t.stage.Checked t.versionChecked
  vetted : Vetted u d.firmware t.versionChecked (chunksOf (d.outstanding t left))

/-- The session of the upload is over: what is done and what is left to do are the script. -/
structure Concluded (d : Device) (u : Upload) (k : Nat) : Prop where
  session : d.sessions = k
  idle : d.session.state = .idle
  image : d.flash.image.toList = u.image
  selected : d.flash.bootSelected = true
  pending : d.pendingReboot = true
  script : (deeds (.task k) d.journal).map Effect.reaching ++
    (dutiesOf (.task k) d.errands).map Duty.effect = u.script

/-- The upload goes well. -/
inductive Conducts (d : Device) (u : Upload) (k : Nat) (left : List (Bytes × Bool)) : Prop where
  | underway {t} (h : d.Underway u k left t) : Conducts d u k left
  | concluded (all : left = []) (h : d.Concluded u k) : Conducts d u k left

variable {d d' : Device} {t : SessionTask} {u : Upload} {k : Nat} {a : Actor}
  {left left' : List (Bytes × Bool)} {call : FlashCall} {chunk : Bytes} {isEnd : Bool}

/-! ## What the task does -/

/-- A call that is spared is answered by the partition. -/
theorem does_of_spared (live : d.task = some t) (calls : t.stage.call? d.session.total = some call)
    (spared : d.Spared) : d.does (.step d.taskActor) = [.flash call (d.flash.call call).1] := by
  obtain ⟨onOk, onError, hmove⟩ := move_of_call? live calls
  obtain ⟨-, journal⟩ := d.flashStep_draws t call onOk onError
  rw [spared t live call calls, ← hmove] at journal
  exact does_eq journal

/-! ## The task goes on -/

theorem Underway.stage (h : d.Underway u k left t) {s : Stage} (hs : t.stage = s) :
    s.Owes u.image d.flash.image.toList (s.inHand ++ (waiting d.inbox ++ left)) ∧
      s.Checked t.versionChecked ∧
      Vetted u d.firmware t.versionChecked (chunksOf (s.inHand ++ (waiting d.inbox ++ left))) :=
  hs ▸ ⟨h.owes, h.checked, h.vetted⟩

/-- What has to be checked when the task comes to a stage, having done something. -/
theorem Underway.goto {d₁ : Device} {t' : SessionTask} {s s' : Stage} (h : d.Underway u k left t)
    (hs : t.stage = s) (es : List Effect) (hosts : d₁.Hosts u k)
    (journal : d₁.journal = d.journal ++ es.map (Entry.mk d.taskActor))
    (ahead : es.map Effect.reaching ++
        u.ahead d₁.session.received (chunksOf (s'.inHand ++ (waiting d₁.inbox ++ left))) s'
      = u.ahead d.session.received (chunksOf (s.inHand ++ (waiting d.inbox ++ left))) s)
    (owes : s'.Owes u.image d₁.flash.image.toList (s'.inHand ++ (waiting d₁.inbox ++ left)))
    (checked : s'.Checked t'.versionChecked)
    (vetted : Vetted u d₁.firmware t'.versionChecked
      (chunksOf (s'.inHand ++ (waiting d₁.inbox ++ left)))) :
    (d₁.goto t' s').Conducts u k left := by
  refine .underway (t := { t' with stage := s' }) ⟨rfl, { hosts with }, ?_, owes, checked, vetted⟩
  have actor : d.taskActor = .task k := congrArg Actor.task h.hosts.session
  have script := h.script
  rw [outstanding, hs, ← ahead] at script
  change (deeds (.task k) d₁.journal).map _ ++ _ = _
  rw [journal, actor, deeds_append_self, List.map_append, List.append_assoc]
  exact script

/-- A task that puts nothing into the partition, and drops no chunk. -/
theorem Underway.moveOn {d₁ : Device} {t' : SessionTask} {s s' : Stage}
    (h : d.Underway u k left t) (hs : t.stage = s) (es : List Effect) (hosts : d₁.Hosts u k)
    (journal : d₁.journal = d.journal ++ es.map (Entry.mk d.taskActor))
    (flash : d₁.flash = d.flash) (firmware : d₁.firmware = d.firmware)
    (same : t'.versionChecked = t.versionChecked) (checked : s'.Checked t.versionChecked)
    (pieces : s'.inHand ++ (waiting d₁.inbox ++ left) = s.inHand ++ (waiting d.inbox ++ left))
    (ahead : ∀ chunks, es.map Effect.reaching ++ u.ahead d₁.session.received chunks s'
      = u.ahead d.session.received chunks s)
    (owes : ∀ {written pieces}, s.Owes u.image written pieces → s'.Owes u.image written pieces) :
    (d₁.goto t' s').Conducts u k left := by
  obtain ⟨hold, -, vetted⟩ := h.stage hs
  rw [← same] at checked vetted
  refine h.goto hs es hosts journal ?_ ?_ checked ?_ <;> rw [pieces]
  · exact ahead _
  · rw [flash]
    exact owes hold
  · rw [firmware]
    exact vetted

/-- **No call fails of itself**: the partition has room for the image. -/
theorem Underway.succeeds (h : d.Underway u k left t) (sound : d.Sound)
    (calls : t.stage.call? d.session.total = some call) : (d.flash.call call).1 = .ok () := by
  cases call with
  | begin n =>
    obtain rfl : n = u.total := by
      obtain ⟨-, begins⟩ | ⟨_, _, -, ⟨⟩⟩ | ⟨-, ⟨⟩⟩ | ⟨-, ⟨⟩⟩ | ⟨_, -, ⟨⟩⟩ := Stage.call?_cases calls
      exact (FlashCall.begin.inj begins).trans h.hosts.total
    exact congrArg Prod.fst (if_neg (Nat.not_lt_of_le u.room))
  | _ => exact sound.answers h.live calls nofun

/-- A call that is answered. -/
theorem Underway.called {faults : List Fault} {flash : Flash} (h : d.Underway u k left t)
    (sound : d.Sound) (calls : t.stage.call? d.session.total = some call)
    (answer : d.flash.call call = (.ok (), flash)) :
    (({ d with faults, flash }.note d.taskActor (.flash call (.ok ()))).goto t
      (t.stage.after (.ok ()))).Conducts u k left := by
  have stands := (sound.standing t h.live).stands
  obtain ⟨hs, rfl⟩ | ⟨chunk, isEnd, hs, rfl⟩ | ⟨hs, rfl⟩ | ⟨hs, rfl⟩ | ⟨reason, hs, rfl⟩ :=
    Stage.call?_cases calls <;> obtain ⟨owes, checked, vetted⟩ := h.stage hs <;>
    rw [hs] at stands ⊢
  · have blank : flash.image = #[] := (Flash.holds_begin answer).2
    refine h.goto hs [_] { h.hosts with } rfl ?_ ?_ trivial vetted
    · rw [h.hosts.total]
      rfl
    · change Lacks u.image flash.image.toList _ false
      rw [blank]
      exact ⟨u.image, rfl, owes⟩
  · obtain ⟨takes, nonempty, fits⟩ := stands
    obtain ⟨flash', hcall, -, himage⟩ := takes.holds.write fits
    obtain rfl : flash' = flash := (Prod.mk.inj (hcall.symm.trans answer)).2
    refine h.goto hs [_] { h.hosts with } rfl ?_ ?_ trivial (.inl checked)
    · change _ = u.rest _ (chunksOf ((chunk, isEnd) :: _))
      rw [chunksOf_cons nonempty]
      rfl
    · change Lacks u.image flash'.image.toList _ isEnd
      rw [himage]
      exact Lacks.write owes
  · obtain ⟨final, holds⟩ := stands
    obtain ⟨flash', hcall, -, himage⟩ := holds.finish (congrArg UInt32.toNat final.all)
    obtain rfl : flash' = flash := (Prod.mk.inj (hcall.symm.trans answer)).2
    have none : Stage.closing.inHand ++ (waiting d.inbox ++ left) = [] := owes.all.2
    refine h.goto hs [_] { h.hosts with } rfl ?_ ?_ trivial vetted
    · change _ = u.rest _ (chunksOf (Stage.closing.inHand ++ _))
      rw [none]
      rfl
    · change Lacks u.image flash'.image.toList _ true
      rw [himage]
      exact owes
  · obtain rfl : { d.flash with bootSelected := true } = flash :=
      (Prod.mk.inj (stands.2.select.symm.trans answer)).2
    exact h.goto hs [_] { h.hosts with } rfl rfl owes trivial vetted
  · exact owes.elim

/-- When the task leaves, nothing is left to be handed over, and its duties end the script. -/
theorem Underway.leaves {outcome : Outcome} (h : d.Underway u k left t) (sound : d.Sound)
    (chronicle : d.Chronicle) (hs : t.stage = .leaving outcome) :
    (d.leave t outcome).Conducts u k left := by
  obtain ⟨owes, -⟩ := h.stage hs
  cases outcome with
  | aborted reason => exact owes.elim
  | completed =>
    obtain ⟨-, -, selected⟩ := sound.stands h.live hs
    obtain ⟨himage, none⟩ := Lacks.all owes
    have all : left = [] := (List.append_eq_nil_iff.mp (List.append_eq_nil_iff.mp none).2).2
    have actor : d.taskActor = .task k := congrArg Actor.task h.hosts.session
    have undue : dutiesOf (.task k) d.errands = [] :=
      h.hosts.session ▸ chronicle.undue _ (not_isPast (sound.ne_idle h.live))
    refine .concluded all ⟨h.hosts.session, rfl, himage, selected, Bool.or_true _, ?_⟩
    have script := h.script
    rw [hs] at script
    rw [journal_leave, dutiesOf_leave, actor, deeds_append_self, undue, if_pos rfl, h.hosts.bound,
      h.hosts.total, h.hosts.flags, List.nil_append, u.map_effect_farewell, List.map_append,
      List.append_assoc]
    exact script

/-- The bytes in the partition are those that are accounted for. -/
theorem length_image {n : Nat} (takes : d.session.Takes d.flash n) :
    d.flash.image.toList.length = n :=
  Array.length_toList.trans takes.holds.size

/-- A chunk in hand fits. -/
theorem Underway.fits (h : d.Underway u k left t) (sound : d.Sound)
    (hs : t.stage = .measuring chunk isEnd) :
    d.session.received.toNat + chunk.length ≤ d.session.total.toNat := by
  have takes : d.session.Takes d.flash d.session.received.toNat := (sound.stands h.live hs).1
  have hle := Lacks.length_le (h.stage hs).1
  rw [length_image takes] at hle
  rw [h.hosts.total, u.size]
  exact hle

/-- When the image has ended, all of it is there. -/
theorem Underway.complete (h : d.Underway u k left t) (sound : d.Sound) (hs : t.stage = .ending) :
    d.session.received = d.session.total := by
  have takes : d.session.Takes d.flash d.session.received.toNat := sound.stands h.live hs
  have himage := (Lacks.all (h.stage hs).1).1
  rw [← UInt32.toNat_inj, ← length_image takes, himage, h.hosts.total, u.size]
  rfl

/-- The version policy lets the chunk in hand pass. -/
theorem Underway.admits (h : d.Underway u k left t) (sound : d.Sound)
    (hs : t.stage = .vetting chunk isEnd) : (d.policyCheck chunk).isOk = true := by
  obtain ⟨-, unchecked, vetted⟩ := h.stage hs
  have passes := vetted.resolve_left (Bool.eq_false_iff.mp unchecked)
  change ∀ first ∈ (chunksOf ((chunk, isEnd) :: _)).head?, _ at passes
  rw [chunksOf_cons (sound.stands h.live hs).2.1] at passes
  rw [policyCheck, h.hosts.flags]
  exact passes chunk rfl

/-- **Every step of the task carries the upload on.** -/
theorem Underway.advanced (h : d.Underway u k left t) (sound : d.Sound) (chronicle : d.Chronicle)
    (spared : d.Spared) (inTime : d.InTime) (hm : Advanced d t d')
    (move : d.move (.step d.taskActor) = d') : d'.Conducts u k left := by
  have busy := sound.busy (sound.ne_idle h.live)
  have silent : d.journal = d.journal ++ [].map (Entry.mk d.taskActor) := (List.append_nil _).symm
  cases hm with
  | equipped hs | woke hs | looked hs =>
    exact h.moveOn hs [] { h.hosts with } silent rfl rfl rfl trivial rfl (fun _ => rfl) id
  | unvetted hs _ checked | fitted hs _ checked =>
    exact h.moveOn hs [] { h.hosts with } silent rfl rfl rfl checked rfl (fun _ => rfl) id
  | unequipped hs parked => simp [(sound.standing t h.live).launched.mpr hs] at parked
  | @died call _ calls =>
    have died : d.does (.step d.taskActor) = [.died call.point] :=
      does_eq (congrArg Device.journal move)
    rw [does_of_spared h.live calls spared] at died
    cases died
  | @called call r _ _ calls answer =>
    have made : d.does (.step d.taskActor) = [.flash call r] :=
      does_eq (congrArg Device.journal move)
    rw [does_of_spared h.live calls spared, h.succeeds sound calls] at made
    obtain rfl : .ok () = r := (Effect.flash.inj (List.cons.inj made).1).2
    exact h.called sound calls (Flash.call_of_ok answer)
  | bailed _ aborted =>
    have notAborted := h.hosts.notAborted
    rw [Session.pendingAbort_eq_some_iff.mpr aborted] at notAborted
    cases notAborted
  | greeted hs =>
    refine h.moveOn hs [] { h.hosts with } silent rfl rfl rfl trivial rfl (fun chunks => ?_) id
    rw [h.hosts.total, h.hosts.maxChunk, u.ahead_begun _ _ false, Upload.frame, UInt32.sub_zero]
    rfl
  | told reached hs bound =>
    obtain rfl := Option.some.inj (h.hosts.bound.symm.trans bound)
    refine h.moveOn hs [_] { h.hosts with } rfl rfl rfl rfl (Stage.checked_next ..) ?_
      (fun chunks => ?_) Stage.owes_next
    · rw [Stage.inHand_next]
      rfl
    · rw [u.ahead_next]
      rfl
  | untold _ unbound => cases h.hosts.bound.symm.trans unbound
  | @took _ m queue hs inbox =>
    refine h.moveOn hs [] { h.hosts with } silent rfl rfl rfl trivial ?_ (fun _ => rfl) id
    change m.piece?.toList ++ (queue.filterMap Message.piece? ++ left) = waiting d.inbox ++ left
    rw [inbox]
    cases m <;> rfl
  | orphaned _ _ inbox =>
    obtain ⟨queue, hqueue⟩ := busy.inbox
    cases inbox.symm.trans hqueue
  | waitedOut hs inbox late =>
    have early := inTime t h.live _ (by rw [hs]; rfl) inbox
    omega
  | timedOut hs => exact (h.stage hs).1.elim
  | @skipped isEnd hs =>
    obtain ⟨owes, -, vetted⟩ := h.stage hs
    have dealt : Lacks u.image (d.flash.image.toList ++ []) (waiting d.inbox ++ left) isEnd :=
      Lacks.write owes
    rw [List.append_nil] at dealt
    refine h.goto hs [] { h.hosts with } silent ?_ ?_ (Stage.checked_next ..) ?_ <;>
      rw [Stage.inHand_next]
    · exact u.ahead_next _ _ _
    · exact Stage.owes_next dealt
    · exact vetted
  | overran hs overruns =>
    simp [Session.fits?_eq_some sound.counts, h.fits sound hs] at overruns
  | barred hs barred =>
    have admits := h.admits sound hs
    rw [barred] at admits
    cases admits
  | admitted hs =>
    exact h.goto hs [] { h.hosts with } silent rfl (h.stage hs).1 rfl (.inl rfl)
  | miscounted miscounts => exact absurd miscounts (sound.not_miscounts h.live)
  | @accounted chunk isEnd _ _ hs _ advances requests =>
    obtain ⟨received, hadvance, hsum, hle, hrequest⟩ := sound.accounts h.live hs
    obtain rfl := Option.some.inj (hadvance.symm.trans advances)
    rw [hsum] at hle
    have hcount := (Bytes.toNat_add_ofNat hle).2
    obtain rfl := UInt32.toNat_inj.mp (hsum.trans hcount.symm)
    exact h.moveOn hs [] { h.hosts with } silent rfl rfl rfl trivial rfl (fun _ => rfl) id
  | progressed hs short =>
    obtain ⟨-, rfl, -, rfl⟩ := sound.stands h.live hs
    refine h.moveOn hs [_] { h.hosts with } rfl rfl rfl rfl trivial rfl (fun chunks => ?_) id
    rw [h.hosts.total] at short
    rw [h.hosts.total, h.hosts.maxChunk, u.ahead_counted, Upload.account, if_pos short]
    rfl
  | filled hs full =>
    refine h.moveOn hs [_] { h.hosts with } rfl rfl rfl rfl (Stage.checked_next ..) ?_
      (fun chunks => ?_) Stage.owes_next
    · rw [Stage.inHand_next]
      rfl
    · rw [h.hosts.total] at full
      rw [h.hosts.total, u.ahead_next, u.ahead_counted, Upload.account, if_neg full]
      rfl
  | finalizing hs =>
    exact h.moveOn hs [] { h.hosts with notAborted := rfl } silent rfl rfl rfl trivial rfl
      (fun _ => rfl) id
  | cutShort hs _ incomplete => exact absurd (h.complete sound hs) incomplete
  | left hs => exact h.leaves sound chronicle hs

/-- A step of the task: it goes on, or waits. -/
theorem Underway.step (h : d.Underway u k left t) (sound : d.Sound) (chronicle : d.Chronicle)
    (spared : d.Spared) (inTime : d.InTime) :
    (d.move (.step d.taskActor)).Conducts u k left := by
  have hm := d.moved (.step d.taskActor)
  generalize hd' : d.move (.step d.taskActor) = d' at hm
  cases hm with
  | handled hm => cases hm.isRequest
  | advanced live hm =>
    obtain rfl := Option.some.inj (h.live.symm.trans live)
    exact h.advanced sound chronicle spared inTime hm hd'
  | performed other => exact absurd rfl (other (by simp [h.live]))
  | stuck => exact .underway h
  | around _ _ _ _ _ still => exact absurd rfl (still _)

/-! ## What others do meanwhile -/

/-- A move leaves alone all that the upload depends on. -/
structure Aside (k : Nat) (d d' : Device) : Prop where
  config : d'.config = d.config
  registry : d'.registry = d.registry
  session : d'.session = d.session
  inbox : d'.inbox = d.inbox
  task : d'.task = d.task
  flash : d'.flash = d.flash
  sessions : d'.sessions = d.sessions
  pendingReboot : d'.pendingReboot = d.pendingReboot
  running : d'.firmware.running = d.firmware.running
  lastInvalid : d'.firmware.lastInvalid = d.firmware.lastInvalid
  deeds : deeds (.task k) d'.journal = deeds (.task k) d.journal
  duties : dutiesOf (.task k) d'.errands = dutiesOf (.task k) d.errands

theorem Conducts.aside (h : d.Conducts u k left) (aside : Aside k d d') :
    d'.Conducts u k left := by
  cases h with
  | @underway t h =>
    have pieces : d'.outstanding t left = d.outstanding t left := by
      rw [outstanding, aside.inbox, outstanding]
    refine .underway ⟨aside.task.trans h.live, ⟨aside.sessions.trans h.hosts.session, ?_, ?_, ?_,
      ?_, ?_⟩, ?_, ?_, h.checked, ?_⟩
    · rw [aside.registry, h.hosts.bound]
    · rw [aside.session, h.hosts.total]
    · rw [aside.session, h.hosts.flags]
    · rw [aside.config, h.hosts.maxChunk]
    · rw [aside.session, h.hosts.notAborted]
    · rw [aside.deeds, aside.session, pieces, h.script]
    · rw [aside.flash, pieces]
      exact h.owes
    · refine h.vetted.imp id fun passes chunk first => ?_
      rw [pieces] at first
      rw [Upload.Passes, aside.running, aside.lastInvalid]
      exact passes chunk first
  | concluded all h =>
    refine .concluded all ⟨aside.sessions.trans h.session, ?_, ?_, ?_, ?_, ?_⟩
    · rw [aside.session, h.idle]
    · rw [aside.flash, h.image]
    · rw [aside.flash, h.selected]
    · rw [aside.pendingReboot, h.pending]
    · rw [aside.deeds, aside.duties, h.script]

/-- A device that is the same but for its journal. -/
theorem Aside.of_bare {es : List Effect} (bare : d'.bare = d.bare)
    (journal : d'.journal = d.journal ++ es.map (Entry.mk .handler)) : Aside k d d' where
  config := (congrArg Device.config bare :)
  registry := (congrArg Device.registry bare :)
  session := (congrArg Device.session bare :)
  inbox := (congrArg Device.inbox bare :)
  task := (congrArg Device.task bare :)
  flash := (congrArg Device.flash bare :)
  sessions := (congrArg Device.sessions bare :)
  pendingReboot := (congrArg Device.pendingReboot bare :)
  running := (congrArg (Firmware.running ∘ Device.firmware) bare :)
  lastInvalid := (congrArg (Firmware.lastInvalid ∘ Device.firmware) bare :)
  deeds := by
    rw [journal]
    exact deeds_append_of_ne (a := .task k) (b := .handler) (by simp) ..
  duties := (congrArg (dutiesOf (.task k) ∘ Device.errands) bare :)

/-- **A piece that the owner hands over is put into the inbox.** -/
theorem Underway.queues {f : Bytes} (h : d.Underway u k ((chunk, isEnd) :: left) t)
    (sound : d.Sound) (short : chunk.length ≤ u.maxChunk.toNat)
    (decodes : Request.decode f = .ok (.state isEnd chunk)) (room : d.HasRoom) :
    ∃ queue, d.inbox = some queue ∧ d.move (.frame u.owner f)
      = { d with inbox := some (queue ++ [Message.data chunk isEnd]) }.note .handler
        (.queued chunk isEnd) := by
  obtain ⟨queue, inbox⟩ := (sound.busy (sound.ne_idle h.live)).inbox
  refine ⟨queue, inbox, ?_⟩
  have more : d.outstanding t ((chunk, isEnd) :: left) ≠ [] := by simp [outstanding]
  have receiving := (h.owes.inTransfer (sound.standing t h.live).stands more).receiving
    h.hosts.notAborted
  have fits : ¬d.config.maxChunkSize.toNat < chunk.length := by
    rw [h.hosts.maxChunk]
    exact Nat.not_lt_of_le short
  have taken : d.posting queue = .taken := by
    have notFull := room queue inbox
    have reads : d.posting queue ≠ .unread := by
      rw [posting, h.live, if_neg (by simp)]
      split
      · simp
      · split <;> simp
    cases hp : d.posting queue with
    | taken => rfl
    | full => exact absurd hp notFull
    | unread => exact absurd hp reads
  rw [move_of_data decodes]
  simp only [data, authorize_of_owner h.hosts.bound, receiving, if_neg fits, inbox, taken]

/-- An actor that is not the task of the session does a duty, or nothing. -/
theorem move_errand (free : ∀ t, d.task = some t → a ≠ d.taskActor) :
    d.move (.step a) = d ∨ ∃ duty errands effect firmware,
      takeDuty a d.errands = some (duty, errands) ∧ Effect.duty? effect = some duty ∧
      firmware.running = d.firmware.running ∧ firmware.lastInvalid = d.firmware.lastInvalid ∧
      d.move (.step a) = { d with
        errands, firmware, journal := d.journal ++ [effect].map (Entry.mk a) } := by
  change (d.step a).getD d = d ∨ ∃ duty errands effect firmware, _ ∧ _ ∧ _ ∧ _ ∧
    (d.step a).getD d = _
  rw [step_of_free free, errandStep]
  rcases takeDuty a d.errands with _ | ⟨duty, errands⟩
  · exact .inl rfl
  · right
    cases duty with
    | tell c frame =>
      exact ⟨_, errands, .sent c frame (!d.unreachable.contains c), d.firmware, rfl, rfl, rfl, rfl,
        rfl⟩
    | broadcast except frame =>
      exact ⟨_, errands, .broadcast except frame, d.firmware, rfl, rfl, rfl, rfl, rfl⟩
    | restart => exact ⟨_, errands, .restarted, d.firmware.restart, rfl, rfl, rfl, rfl, rfl⟩

theorem Conducts.sessions (h : d.Conducts u k left) : d.sessions = k := by
  cases h with
  | underway h => exact h.hosts.session
  | concluded _ h => exact h.session

/-- Nobody but the owner of the upload owns a session. -/
theorem Conducts.not_owner {c : Client} (h : d.Conducts u k left) (sound : d.Sound)
    (other : c ≠ u.owner) : d.registry.owner ≠ some c := by
  cases h with
  | underway h =>
    rw [h.hosts.bound]
    exact fun same => other (Option.some.inj same).symm
  | concluded _ h =>
    rw [(sound.resting h.idle).unbound]
    nofun

/-- A step of an actor that has only duties. -/
theorem Conducts.performed (h : d.Conducts u k left)
    (free : ∀ t, d.task = some t → a ≠ d.taskActor) : (d.move (.step a)).Conducts u k left := by
  rcases move_errand free with
    same | ⟨duty, errands, effect, firmware, takes, does, running, lastInvalid, move⟩
  · rwa [same]
  rw [move]
  obtain ⟨hself, hother⟩ := dutiesOf_takeDuty takes
  by_cases ha : a = .task k
  · subst ha
    cases h with
    | underway h => exact absurd (congrArg Actor.task h.hosts.session).symm (free _ h.live)
    | concluded all h =>
      refine .concluded all ⟨h.session, h.idle, h.image, h.selected, h.pending, ?_⟩
      have script := h.script
      rw [hself, List.map_cons, ← Effect.reaching_of_duty? does] at script
      rw [deeds_append_self, List.map_append, List.append_assoc]
      exact script
  · exact h.aside ⟨rfl, rfl, rfl, rfl, rfl, rfl, rfl, rfl, running, lastInvalid,
      deeds_append_of_ne ha .., hother _ fun hk => ha hk.symm⟩

/-! ## Every move carries the upload on -/

theorem Furthers.subset {owner : Client} {m : Move} (h : d.Furthers owner m left left') :
    left' ⊆ left := by
  cases h with
  | hands => exact List.subset_cons_self ..
  | _ => exact List.Subset.refl _

/-- **Whatever happens meanwhile, the upload goes well.** -/
theorem Conducts.move {m : Move} (h : d.Conducts u k left) (sound : d.Sound)
    (chronicle : d.Chronicle) (short : ∀ p ∈ left, p.1.length ≤ u.maxChunk.toNat)
    (furthers : d.Furthers u.owner m left left') : (d.move m).Conducts u k left' := by
  cases furthers with
  | @hands f chunk isEnd _ decodes room =>
    cases h with
    | concluded all => cases all
    | @underway t h =>
      obtain ⟨queue, inbox, move⟩ := h.queues sound (short _ List.mem_cons_self) decodes room
      rw [move]
      have pieces : outstanding
          (({ d with inbox := some (queue ++ [Message.data chunk isEnd]) }).note .handler
            (.queued chunk isEnd)) t left' = d.outstanding t ((chunk, isEnd) :: left') := by
        simp [outstanding, note, waiting, inbox, Message.piece?]
      refine .underway (t := t) ⟨h.live, { h.hosts with }, ?_, ?_, h.checked, ?_⟩ <;> rw [pieces]
      · have deeds := deeds_append_of_ne (a := .task k) (b := .handler) (by simp) d.journal
          [.queued chunk isEnd]
        exact (congrArg (List.map Effect.reaching · ++ _) deeds).trans h.script
      · exact h.owes
      · exact h.vetted
  | refused other rejects =>
    obtain ⟨-, -, bare⟩ := refused_of_rejected rejects
    exact h.aside (.of_bare bare (d.journal_move _))
  | gone other => rwa [move_of_stranger (h.not_owner sound other)]
  | @steps a _ spared inTime =>
    by_cases own : ∃ t, d.task = some t ∧ a = d.taskActor
    · obtain ⟨t, live, rfl⟩ := own
      cases h with
      | underway h => exact h.step sound chronicle (spared rfl) (inTime rfl)
      | concluded _ h => cases (sound.resting h.idle).noTask.symm.trans live
    · exact h.performed fun t live ha => own ⟨t, live, ha⟩
  | around outside still =>
    have hm := d.moved m
    generalize d.move m = d' at hm
    cases hm with
    | handled hm => cases hm.isRequest.symm.trans outside
    | advanced | performed | stuck => exact absurd rfl (still _)
    | waited ms live hs =>
      cases h with
      | underway h =>
        obtain rfl := Option.some.inj (h.live.symm.trans live)
        exact h.moveOn hs [] { h.hosts with } (List.append_nil _).symm rfl rfl rfl trivial rfl
          (fun _ => rfl) id
      | concluded _ h => cases (sound.resting h.idle).noTask.symm.trans live
    | passed => exact h
    | around =>
      exact h.aside ⟨rfl, rfl, rfl, rfl, rfl, rfl, rfl, rfl, rfl, rfl, rfl, rfl⟩

/-! ## Who else speaks to the owner -/

/-- The frames that an actor has still to send to a client. -/
def unsentBy (d : Device) (a : Actor) (c : Client) : List Response :=
  (dutiesOf a d.errands).filterMap (Duty.frameTo? c)

/-- What a step says is no longer left to say. -/
theorem frames_step {c : Client} (free : ∀ t, d.task = some t → a ≠ d.taskActor) (b : Actor) :
    framesTo c (d.doings a [.step b]) ++ (d.move (.step b)).unsentBy a c = d.unsentBy a c := by
  rw [framesTo_eq, unsentBy, unsentBy, ← duties_step free b, List.filterMap_append]

/-- **What others say to the owner meanwhile, they had to say before.** -/
theorem Conducts.others {m : Move} (h : d.Conducts u k left) (sound : d.Sound)
    (short : ∀ p ∈ left, p.1.length ≤ u.maxChunk.toNat)
    (furthers : d.Furthers u.owner m left left') (ha : a ≠ .task k) :
    framesTo u.owner (d.doings a [m]) ++ (d.move m).unsentBy a u.owner = d.unsentBy a u.owner := by
  -- a move at which nothing is said to the owner, and that leaves the duties as they are
  have silent : framesTo u.owner (d.does m) = [] → (d.move m).errands = d.errands →
      framesTo u.owner (d.doings a [m]) ++ (d.move m).unsentBy a u.owner
        = d.unsentBy a u.owner := by
    intro frames errands
    rw [doings_singleton, unsentBy, errands, ← unsentBy]
    split
    · rw [frames, List.nil_append]
    · rfl
  cases furthers with
  | hands decodes room =>
    cases h with
    | concluded all => cases all
    | underway h =>
      obtain ⟨queue, -, move⟩ := h.queues sound (short _ List.mem_cons_self) decodes room
      have hdoes : d.does (.frame u.owner _) = [.queued _ _] :=
        does_eq (a := .handler) (congrArg Device.journal move)
      exact silent (hdoes ▸ rfl) (congrArg Device.errands move :)
  | refused other rejects =>
    obtain ⟨-, ⟨reached, hdoes⟩, bare⟩ := refused_of_rejected rejects
    exact silent (by simp [hdoes, refusal, framesTo, List.filterMap_cons, Effect.frameTo?, other])
      (congrArg Device.errands bare :)
  | gone other =>
    have move := move_of_stranger (h.not_owner sound other)
    exact silent (does_eq_nil (congrArg Device.journal move) ▸ rfl) (congrArg Device.errands move)
  | @steps b =>
    exact frames_step (fun t live hk => ha (hk.trans (congrArg Actor.task h.sessions))) b
  | around outside still =>
    have same : (d.move m).journal = d.journal ∧ (d.move m).errands = d.errands := by
      have hm := d.moved m
      generalize d.move m = d' at hm
      cases hm with
      | handled hm => cases hm.isRequest.symm.trans outside
      | advanced | performed | stuck => exact absurd rfl (still _)
      | _ => exact ⟨rfl, rfl⟩
    exact silent (does_eq_nil same.1 ▸ rfl) same.2

/-- **A whole run carries the upload on.** -/
theorem Conducts.run {ms : List Move} (h : d.Conducts u k left) (sound : d.Sound)
    (chronicle : d.Chronicle) (short : ∀ p ∈ left, p.1.length ≤ u.maxChunk.toNat)
    (delivers : Delivers u.owner d left ms) : (d.run ms).Conducts u k [] ∧ ∀ a, a ≠ .task k →
      framesTo u.owner (d.doings a ms) ++ (d.run ms).unsentBy a u.owner = d.unsentBy a u.owner := by
  induction delivers with
  | nil => exact ⟨h, fun a _ => rfl⟩
  | @cons d m ms left left' furthers others ih =>
    have hm := d.moved m
    obtain ⟨conducts, frames⟩ := ih (h.move sound chronicle short furthers) (sound.moved hm)
      (chronicle.moved sound hm) fun p hp => short p (furthers.subset hp)
    refine ⟨conducts, fun a ha => ?_⟩
    rw [← List.singleton_append, doings_append, framesTo_append, List.append_assoc, run_append]
    exact (congrArg (_ ++ ·) (frames a ha)).trans (h.others sound short furthers ha)

end Device

end OverTheAir
