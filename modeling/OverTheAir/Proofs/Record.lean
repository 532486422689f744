import OverTheAir.Proofs.Sound

/-!
# Proofs/Record — the session record tells what else is set

Owner, session record, inbox and parked writer are written one by one, and each is looked at by
itself.  In a sound device any one of them tells the others: without a session all are clear, in a
session none is (`idle_iff_unbound`, `unbound_iff_noInbox`).

The device has branches for records that do not agree.  A move **defends** when it goes through
one of them, and no move of any run does (`Sound.not_defends`).
-/

namespace OverTheAir.Device

variable {d : Device}

/-! ## One part tells the others -/

/-- **There is an owner exactly in a session.** -/
theorem Sound.idle_iff_unbound (h : d.Sound) :
    d.session.state = .idle ↔ d.registry.owner = none := by
  refine ⟨fun idle => (h.resting idle).unbound, fun unbound => ?_⟩
  rw [(h.resting_of_unbound unbound).session]
  rfl

/-- **There is an inbox exactly where there is an owner.** -/
theorem Sound.unbound_iff_noInbox (h : d.Sound) : d.registry.owner = none ↔ d.inbox = none := by
  rw [← h.idle_iff_unbound]
  refine ⟨fun idle => (h.resting idle).noInbox, fun noInbox => ?_⟩
  refine Decidable.byContradiction fun busy => ?_
  obtain ⟨queue, inbox⟩ := (h.busy busy).inbox
  simp [noInbox] at inbox

/-! ## Branches for records that do not agree -/

/-- A move that goes through a branch for a record that does not agree with the rest. -/
inductive Defends (d : Device) : Move → Prop where
  /-- A request for a session is let through, and its client cannot be bound. -/
  | unbindable {c f total timeoutMs flags code}
      (decodes : Request.decode f = .ok (.start total timeoutMs flags))
      (free : (d.registry.isBound || !d.session.isIdle || !d.writerParked) = false)
      (fails : d.registry.bind c = .error code) : Defends d (.frame c f)
  /-- The task of a new session finds no flash writer. -/
  | unequipped {t} (live : d.task = some t) (atStage : t.stage = .launched)
      (missing : d.writerParked = false) : Defends d (.step d.taskActor)
  /-- A session is receiving, and there is no inbox for its data. -/
  | unboxed {c f isEnd chunk} (decodes : Request.decode f = .ok (.state isEnd chunk))
      (receiving : d.session.state = .receiving) (noInbox : d.inbox = none) :
      Defends d (.frame c f)
  /-- A client owns a session that is not on. -/
  | ownsNothing {m c} (speaks : m = .disconnect c ∨ ∃ f, m = .frame c f)
      (owner : d.registry.owner = some c) (idle : d.session.state = .idle) : Defends d m
  /-- The task waits at an inbox that nobody can reach. -/
  | orphaned {t waited} (live : d.task = some t) (atStage : t.stage = .awaiting waited)
      (noInbox : d.inbox = none) : Defends d (.step d.taskActor)

/-- Only an owner stands in the way of another one. -/
theorem bind_of_free {r : Registry} (free : r.isBound = false) (c : Client) :
    r.bind c = .ok ⟨some c⟩ := by
  rw [Registry.bind, free]
  rfl

/-- **In a sound device no move defends.** -/
theorem Sound.not_defends (h : d.Sound) (m : Move) : ¬d.Defends m := by
  intro defends
  cases defends with
  | @unbindable c _ _ _ _ _ decodes free fails =>
    simp only [Bool.or_eq_false_iff] at free
    cases fails.symm.trans (bind_of_free free.1.1 c)
  | unequipped live atStage missing =>
    cases missing.symm.trans ((h.standing _ live).launched.mpr atStage)
  | unboxed decodes receiving noInbox =>
    cases receiving.symm.trans (h.idle_iff_unbound.mpr (h.unbound_iff_noInbox.mpr noInbox))
  | ownsNothing speaks owner idle => cases owner.symm.trans (h.idle_iff_unbound.mp idle)
  | orphaned live atStage noInbox =>
    exact h.ne_idle live (h.idle_iff_unbound.mpr (h.unbound_iff_noInbox.mpr noInbox))

/-- **The session record is consistent**, whatever happens to a device.  The session is idle exactly
without an owner, and there is an owner exactly with an inbox; an idle session has its counts clear
and the flash writer parked, any other has announced something and no completed update waits.  So no
move defends. -/
theorem record_consistent (config : Config) (firmware : Firmware) (ms : List Move) :
    let d := (fresh config firmware).run ms
    (d.session.state = .idle ↔ d.registry.owner = none) ∧
    (d.registry.owner = none ↔ d.inbox = none) ∧
    (d.session.state = .idle →
      d.writerParked = true ∧ d.session.received = 0 ∧ d.session.total = 0) ∧
    (d.session.state ≠ .idle → 0 < d.session.total ∧ d.pendingReboot = false) ∧
    ∀ m, ¬d.Defends m := by
  intro d
  have sound : d.Sound := sound_run config firmware ms
  refine ⟨sound.idle_iff_unbound, sound.unbound_iff_noInbox, fun idle => ?_, fun busy => ?_,
    sound.not_defends⟩
  · have resting := sound.resting idle
    rw [resting.session]
    exact ⟨resting.parked, rfl, rfl⟩
  · have hbusy := sound.busy busy
    exact ⟨UInt32.lt_iff_toNat_lt.mpr hbusy.pos, hbusy.notPending⟩

end OverTheAir.Device
