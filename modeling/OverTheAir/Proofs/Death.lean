import OverTheAir.Proofs.BootState
import OverTheAir.Proofs.Tenure

/-!
# Proofs/Death — what is left of a session whose task has died

Nothing is cleaned up when a session task dies inside a call: the flash writer is gone with it, and
session, owner and inbox stay as they are.  The device is **lost** then, for good.  Since somebody
is bound, all requests but those of the owner are refused; since nobody reads the inbox, so are the
chunks of the owner, who can still have an abort recorded, once.  So what the device does from there
on are refusals, and what others have left to do (`Lost.does`).

* `lost_of_died` — a task that dies leaves the device lost.
* `Lost.lingers_run` — what stays as it is from there on.
* `no_boot_after_death` — so no run leads from there to a boot.
-/

namespace OverTheAir

/-- A call to flash or firmware, answered or not, a chunk taken over, progress, an action, or a
session opened or completed. -/
def Effect.leadsOn : Effect → Bool
  | .flash _ _ => true
  | .firmware _ _ => true
  | .died _ => true
  | .queued _ _ => true
  | .event (.sessionStarted _ _) => true
  | .event (.progress _ _) => true
  | .event (.completed _) => true
  | .event (.actionPerformed _ _) => true
  | _ => false

/-- No duty leads on. -/
theorem Effect.leadsOn_of_duty? {e : Effect} {duty : Duty} (h : e.duty? = some duty) :
    e.leadsOn = false := by
  cases e <;> first | rfl | cases h

namespace Device

open Journal

variable {d d' : Device} {t : SessionTask} {k : Nat} {m : Move} {c : Client} {f : Bytes}

/-- The task of the session has died. -/
structure Lost (d : Device) : Prop where
  busy : d.session.state ≠ .idle
  noTask : d.task = none

/-- All that may change of a lost device but its journal: an abort is recorded. -/
structure Lingers (d d' : Device) : Prop where
  registry : d'.registry = d.registry
  pendingReboot : d'.pendingReboot = d.pendingReboot
  flash : d'.flash = d.flash
  session : d'.session = d.session ∨
    d.session.state = .receiving ∧ ∃ reason, d'.session = { d.session with state := .aborted reason }

theorem Lingers.refl (d : Device) : d.Lingers d := ⟨rfl, rfl, rfl, .inl rfl⟩

/-- An abort is recorded once. -/
theorem Lingers.trans {d'' : Device} (h : d.Lingers d') (h' : d'.Lingers d'') : d.Lingers d'' where
  registry := h'.registry.trans h.registry
  pendingReboot := h'.pendingReboot.trans h.pendingReboot
  flash := h'.flash.trans h.flash
  session := by
    obtain same | ⟨receiving, reason, aborted⟩ := h.session
    · rw [← same]
      exact h'.session
    · obtain same' | ⟨receiving', -⟩ := h'.session
      · exact .inr ⟨receiving, reason, same'.trans aborted⟩
      · rw [aborted] at receiving'
        cases receiving'

/-- The counts of the session stay as they are. -/
theorem Lingers.counts (h : d.Lingers d') :
    d'.session.total = d.session.total ∧ d'.session.received = d.session.received := by
  obtain same | ⟨-, reason, aborted⟩ := h.session
  · rw [same]
    exact ⟨rfl, rfl⟩
  · rw [aborted]
    exact ⟨rfl, rfl⟩

/-! ## How a device is lost -/

/-- A task that does not die writes down no death. -/
theorem Advanced.dies_or (sound : d.Sound) (live : d.task = some t) (hm : Advanced d t d') :
    (∃ faults effect, d' = ({ d with faults }.note d.taskActor effect).die) ∨
    ∃ es : List Effect, d'.journal = d.journal ++ es.map (Entry.mk d.taskActor) ∧
      ∀ point, .died point ∉ es := by
  cases hm with
  | died => exact .inl ⟨_, _, rfl⟩
  | miscounted miscounts => exact absurd miscounts (sound.not_miscounts live)
  | called | told | progressed | filled => exact .inr ⟨[_], rfl, by simp⟩
  | left => exact .inr ⟨_, journal_leave .., by simp⟩
  | _ => exact .inr ⟨[], (List.append_nil _).symm, by simp⟩

/-- **A task that dies leaves the device lost.** -/
theorem lost_of_died {a : Actor} {point : Point} (sound : d.Sound)
    (died : .died point ∈ d.does (.step a)) : (d.move (.step a)).Lost := by
  cases d.done (.step a) with
  | handled hm => cases hm.isRequest
  | advanced live own hm =>
    have busy := sound.ne_idle live
    obtain ⟨faults, effect, hd'⟩ | ⟨es, hjournal, hnot⟩ := hm.dies_or sound live
    · rw [hd']
      exact ⟨busy, rfl⟩
    · rw [does_eq hjournal] at died
      exact absurd died (hnot point)
  | performed does isDuty =>
    rw [does] at died
    obtain rfl := List.mem_singleton.mp died
    cases isDuty
  | nothing does =>
    rw [does] at died
    cases died

/-! ## What a lost device does -/

/-- **A lost device stays lost**, and changes by an abort that is recorded, if by anything. -/
theorem Lost.lingers (h : d.Lost) (sound : d.Sound) (hm : Moved d m d') :
    d'.Lost ∧ d.Lingers d' := by
  obtain ⟨-, busy', noTask'⟩ := lost_moved h.busy h.noTask hm
  refine ⟨⟨busy', noTask'⟩, ?_⟩
  obtain ⟨owner, bound⟩ := (sound.busy h.busy).bound
  cases hm with
  | handled hm =>
    cases hm with
    | opened _ unbound | unopened _ _ unbound | acted _ _ unbound =>
      cases unbound.symm.trans bound
    | recorded reason _ _ receiving => exact ⟨rfl, rfl, rfl, .inr ⟨receiving, reason, rfl⟩⟩
    | _ => exact ⟨rfl, rfl, rfl, .inl rfl⟩
  | advanced live | waited _ live => cases h.noTask.symm.trans live
  | performed _ hm =>
    obtain ⟨effect, takes, does⟩ := hm
    exact ⟨rfl, rfl, rfl, .inl rfl⟩
  | _ => exact ⟨rfl, rfl, rfl, .inl rfl⟩

theorem Lost.lingers_run (h : d.Lost) (sound : d.Sound) (ms : List Move) :
    (d.run ms).Lost ∧ d.Lingers (d.run ms) := by
  induction ms generalizing d with
  | nil => exact ⟨h, .refl d⟩
  | cons m ms ih =>
    have hm := d.moved m
    obtain ⟨lost, lingers⟩ := h.lingers sound hm
    obtain ⟨lost', lingers'⟩ := ih lost (sound.moved hm)
    exact ⟨lost', lingers.trans lingers'⟩

/-- Nobody reads the inbox of a lost device. -/
theorem Lost.unread (h : d.Lost) (queue : List Message) : d.posting queue = .unread := by
  rw [posting, h.noTask]
  rfl

theorem Lost.handled (h : d.Lost) (sound : d.Sound) (hm : Handled d m d') : ∃ es : List Effect,
    d'.journal = d.journal ++ es.map (Entry.mk .handler) ∧ ∀ e ∈ es, e.leadsOn = false := by
  obtain ⟨owner, bound⟩ := (sound.busy h.busy).bound
  cases hm with
  | opened _ unbound | unopened _ _ unbound | acted _ _ unbound =>
    cases unbound.symm.trans bound
  | queued _ _ _ _ _ taken => cases taken.symm.trans (h.unread _)
  | refused => exact ⟨[_, _], rfl, by simp [Effect.leadsOn]⟩
  | ignored | recorded => exact ⟨[], (List.append_nil _).symm, List.forall_mem_nil _⟩

/-- **Nothing that a lost device does leads on.** -/
theorem Lost.does (h : d.Lost) (sound : d.Sound) (m : Move) :
    ∀ e ∈ d.does m, e.leadsOn = false := by
  cases d.done m with
  | handled hm =>
    obtain ⟨es, hjournal, hes⟩ := h.handled sound hm
    rwa [does_eq hjournal]
  | advanced live => cases h.noTask.symm.trans live
  | performed does isDuty =>
    rw [does]
    exact List.forall_mem_singleton.mpr (Effect.leadsOn_of_duty? isDuty)
  | nothing does =>
    rw [does]
    exact List.forall_mem_nil _

/-- Who asks a lost device for a session is told that one is on. -/
theorem Lost.refuses_start {total : UInt32} {timeoutMs : UInt16} {flags : SessionFlags}
    (h : d.Lost) (decodes : Request.decode f = .ok (.start total timeoutMs flags)) :
    ∃ reached, d.does (.frame c f) = refusal c .alreadyRunning reached := by
  have notIdle : d.session.isIdle = false := by simpa [Session.isIdle] using h.busy
  refine ⟨_, does_of_refuse ((move_of_start decodes).trans ?_)⟩
  simp [start, notIdle]

/-- A lost device performs no action. -/
theorem Lost.refuses_action {action : Action} (h : d.Lost) (sound : d.Sound)
    (decodes : Request.decode f = .ok (.action action)) :
    ∃ code reached, d.does (.frame c f) = refusal c code reached := by
  obtain ⟨owner, bound⟩ := (sound.busy h.busy).bound
  obtain ⟨-, refused⟩ | ⟨unbound, -⟩ := d.action_cases c decodes
  · exact refused
  · cases unbound.symm.trans bound

/-- **A lost device takes no data**, not even from the owner. -/
theorem Lost.refuses_data {isEnd : Bool} {chunk : Bytes} (h : d.Lost)
    (decodes : Request.decode f = .ok (.state isEnd chunk)) :
    ∃ code, d.move (.frame c f) = d.refuse c code := by
  rw [move_of_data decodes, data]
  split
  · exact ⟨_, rfl⟩
  split
  · exact ⟨_, rfl⟩
  · exact ⟨_, rfl⟩
  · exact ⟨_, rfl⟩
  split
  · exact ⟨_, rfl⟩
  split
  · exact ⟨_, rfl⟩
  rw [h.unread]
  exact ⟨_, rfl⟩

/-! ## Every run -/

/-- **A dead task cannot lead to a boot.**  From the moment a session task dies inside a call, in
whatever way the run goes on, no flash call is made, no action is performed, and neither progress
nor a completed session is told of; no completed update waits.  Owner, counts and partition stay as
they are; of the session only an abort may be recorded, once, if it was receiving.  A client that
asks for a session is told that one is on, and chunks are refused and not queued. -/
theorem no_boot_after_death (config : Config) (firmware : Firmware) (front : List Move) (k : Nat)
    (point : Point) (died : .died point ∈ ((fresh config firmware).run front).does (.step (.task k)))
    (back : List Move) :
    let d₀ := (fresh config firmware).run (front ++ [.step (.task k)])
    let d := d₀.run back
    (∃ owner, d.registry.owner = some owner) ∧ d₀.Lingers d ∧
    d.session.total = d₀.session.total ∧ d.session.received = d₀.session.received ∧
    d.pendingReboot = false ∧
    (∀ m, (∀ e ∈ d.does m, e.leadsOn = false) ∧ d.Lingers (d.move m)) ∧
    ∀ c f,
      (∀ total timeoutMs flags, Request.decode f = .ok (.start total timeoutMs flags) →
        ∃ reached, d.does (.frame c f) = refusal c .alreadyRunning reached) ∧
      (∀ action, Request.decode f = .ok (.action action) →
        ∃ code reached, d.does (.frame c f) = refusal c code reached) ∧
      ∀ isEnd chunk, Request.decode f = .ok (.state isEnd chunk) →
        (d.move (.frame c f)).inbox = d.inbox ∧
        ∃ code reached, d.does (.frame c f) = refusal c code reached := by
  intro d₀ d
  have sound₀ : d₀.Sound := sound_run config firmware _
  have lost₀ : d₀.Lost := by
    have hd₀ : d₀ = ((fresh config firmware).run front).move (.step (.task k)) := run_concat ..
    rw [hd₀]
    exact lost_of_died (sound_run config firmware front) died
  obtain ⟨lost, lingers⟩ : d.Lost ∧ d₀.Lingers d := lost₀.lingers_run sound₀ back
  have sound : d.Sound := sound₀.run back
  have busy := sound.busy lost.busy
  refine ⟨busy.bound, lingers, lingers.counts.1, lingers.counts.2, busy.notPending, fun m => ?_,
    fun c f => ⟨fun _ _ _ => lost.refuses_start, fun _ => lost.refuses_action sound,
      fun isEnd chunk decodes => ?_⟩⟩
  · exact ⟨lost.does sound m, (lost.lingers sound (d.moved m)).2⟩
  · obtain ⟨code, refuses⟩ := lost.refuses_data (c := c) decodes
    refine ⟨?_, code, _, does_of_refuse refuses⟩
    rw [refuses]
    rfl

/-- The task dies inside the write of a brief upload.  Its owner sends another chunk, a second
client asks for a session, and the owner gives up; what the two send then is still refused. -/
theorem no_boot_after_death_brief :
    let front := .fault ⟨.write, 0, .death⟩ :: brief 3
    let chunk := (Request.state true [7]).encode
    let start := (Request.start 1 0 .none).encode
    let back : List Move :=
      [.frame ⟨1, 1⟩ chunk, .frame ⟨2, 2⟩ start, .frame ⟨1, 1⟩ Request.abort.encode]
    let d₀ := (fresh .default .unknown).run (front ++ [.step (.task 1)])
    let d := d₀.run back
    .died .write ∈ ((fresh .default .unknown).run front).does (.step (.task 1)) ∧
      d.session.state = .aborted .userRequest ∧ d₀.Lingers d ∧
      (∃ code reached, d.does (.frame ⟨1, 1⟩ chunk) = refusal ⟨1, 1⟩ code reached) ∧
      ∃ reached, d.does (.frame ⟨2, 2⟩ start) = refusal ⟨2, 2⟩ .alreadyRunning reached := by
  intro front chunk start back d₀ d
  have died : .died .write ∈ ((fresh .default .unknown).run front).does (.step (.task 1)) := by
    decide
  obtain ⟨-, lingers, -, -, -, -, answers⟩ :=
    no_boot_after_death .default .unknown front 1 .write died back
  have data := (answers ⟨1, 1⟩ chunk).2.2 true [7] (Request.decode_encode _)
  have starts := (answers ⟨2, 2⟩ start).1 1 0 .none (Request.decode_encode _)
  exact ⟨died, by decide, lingers, data.2, starts⟩

end Device

end OverTheAir
