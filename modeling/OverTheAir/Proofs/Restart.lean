import OverTheAir.Proofs.Exclusion
import OverTheAir.Proofs.Farewell
import OverTheAir.Proofs.Window

/-!
# Proofs/Restart — what a restart can interrupt

A restart is announced before it happens: by the reply to a reset, or by the completion of a session
that asks for one.  At either the device is at rest, but nothing remembers that a restart is to
come.  So a restart finds the device at rest unless a session was opened since its announcement
(`restarts_at_rest`), and over a completed update that takes a revert.

* `restart_may_interrupt` — a run where all of this happens before the restart of a completed
  session.
-/

namespace OverTheAir.Device

open Journal

variable {d d' : Device} {t : SessionTask} {k : Nat} {m : Move} {c : Client} {f : Bytes}
  {action : Action}

/-! ## What announces a restart -/

/-- At a move a restart by an actor is announced: the handler replies to a reset, or the task
completes its session. -/
def Announces (d : Device) (m : Move) : Actor → Prop
  | .handler => False
  | .restarter => ∃ c f reached, m = .frame c f ∧ .sent c (.action .reset 0) reached ∈ d.does m
  | .task k => m = .step (.task k) ∧ ∃ n, .event (.completed n) ∈ d.does m

/-! ## A reset -/

theorem act_reset (unbound : d.registry.owner = none) (c : Client) :
    d.act c .reset = d.finishAction c .reset (.ok ()) := by
  have free : d.registry.isBound = false := by rw [Registry.isBound, unbound]; rfl
  rw [act, free]
  rfl

/-- A reset is told of, and the restart follows at once or is left to a thread. -/
theorem journal_reset (unbound : d.registry.owner = none)
    (decodes : Request.decode f = .ok (.action .reset)) : ∃ reached restarts,
    (d.move (.frame c f)).journal = d.journal ++ List.map (Entry.mk .handler)
      (.event (.actionPerformed .reset 0) :: .sent c (.action .reset 0) reached :: restarts) ∧
    (restarts = [.restarted] ∧ (d.move (.frame c f)).errands = d.errands ∨
      restarts = [] ∧ (d.move (.frame c f)).errands = d.errands ++ [⟨.restarter, [.restart]⟩]) := by
  obtain ⟨firmware, pendingReboot, spawnFails, errands, restarts, heq, -, restarting⟩ :=
    d.finishAction_eq c .reset (.ok ())
  rw [move_of_action decodes, act_reset unbound, heq]
  refine ⟨_, restarts, rfl, ?_⟩
  cases restarting with
  | none other => exact absurd rfl other
  | atOnce => exact .inl ⟨rfl, rfl⟩
  | later => exact .inr ⟨rfl, rfl⟩

theorem errands_finishAction (ne : action ≠ .reset) (c : Client) (result : FlashResult) :
    (d.finishAction c action result).errands = d.errands := by
  obtain ⟨firmware, pendingReboot, spawnFails, errands, restarts, heq, -, restarting⟩ :=
    d.finishAction_eq c action result
  rw [heq]
  cases restarting with
  | none => rfl
  | atOnce reset | later reset => exact absurd reset ne

/-- No other action leaves anything to do. -/
theorem errands_act (ne : action ≠ .reset) (c : Client) : (d.act c action).errands = d.errands := by
  have hacted := d.acted c action
  generalize d.act c action = d' at hacted ⊢
  cases hacted with
  | barred | pointless | died => rfl
  | uncalled | called => exact errands_finishAction ne ..

/-- **Only the reply to a reset gives a restarter its duty.** -/
theorem dutiesOf_restarter_move (m : Move)
    (silent : ∀ c f, m = .frame c f → ∀ reached, .sent c (.action .reset 0) reached ∉ d.does m)
    (none : dutiesOf .restarter d.errands = []) :
    dutiesOf .restarter (d.move m).errands = [] := by
  have hm := d.moved m
  generalize hd' : d.move m = d' at hm
  cases hm with
  | handled hm =>
    cases hm with
    | @acted c f action _ _ _ _ _ _ decodes unbound =>
      have ne : action ≠ .reset := by
        rintro rfl
        obtain ⟨reached, restarts, journal, -⟩ := journal_reset (c := c) unbound decodes
        refine silent c f rfl reached ?_
        rw [does_eq journal]
        exact List.mem_cons_of_mem _ List.mem_cons_self
      rw [← hd', move_of_action decodes, errands_act ne]
      exact none
    | _ => exact none
  | advanced live hm =>
    cases hm with
    | left =>
      rw [dutiesOf_leave, none, if_neg fun h => by cases h]
      rfl
    | _ => exact none
  | @performed a _ other hm =>
    obtain ⟨effect, takes, does⟩ := hm
    obtain ⟨hself, hother⟩ := dutiesOf_takeDuty takes
    by_cases ha : a = .restarter
    · subst ha
      cases none.symm.trans hself
    · exact (hother _ (Ne.symm ha)).trans none
  | _ => exact none

theorem dutiesOf_restarter_run (none : dutiesOf .restarter d.errands = []) (ms : List Move) :
    dutiesOf .restarter (d.run ms).errands = [] ∨
      ∃ front m back, ms = front ++ m :: back ∧ (d.run front).Announces m .restarter := by
  induction ms generalizing d with
  | nil => exact .inl none
  | cons m ms ih =>
    by_cases announced : d.Announces m .restarter
    · exact .inr ⟨[], m, ms, rfl, announced⟩
    · have none' := dutiesOf_restarter_move m
        (fun c f hm reached hsent => announced ⟨c, f, reached, hm, hsent⟩) none
      rcases ih none' with h | ⟨front, m', back, rfl, h⟩
      · exact .inl h
      · exact .inr ⟨m :: front, m', back, rfl, h⟩

/-! ## Who restarts -/

/-- **The handler acts at rest only.** -/
theorem Handled.unbound_of_isOfAction (hm : Handled d m d') {es : List Effect}
    (journal : d'.journal = d.journal ++ es.map (Entry.mk .handler)) {e : Effect} (he : e ∈ es)
    (ofAction : e.isOfAction = true) : d.registry.owner = none ∧ d'.registry = d.registry := by
  have hmem : ⟨.handler, e⟩ ∈ d'.journal.drop d.journal.length := by
    rw [journal, List.drop_left]
    exact List.mem_map_of_mem he
  cases hm with
  | acted _ _ unbound => exact ⟨unbound, rfl⟩
  | ignored | recorded => simp at hmem
  | refused | unopened =>
    simp only [List.drop_left, List.mem_cons, Entry.mk.injEq, List.not_mem_nil] at hmem
    rcases hmem with ⟨-, rfl⟩ | ⟨-, rfl⟩ | h
    · cases ofAction
    · cases ofAction
    · exact h.elim
  | opened | queued =>
    simp only [List.drop_left, List.mem_singleton, Entry.mk.injEq] at hmem
    obtain ⟨-, rfl⟩ := hmem
    cases ofAction

/-- A task that has a session restarts nothing. -/
theorem Advanced.not_restarts (hm : Advanced d t d') : ∃ es : List Effect,
    d'.journal = d.journal ++ es.map (Entry.mk d.taskActor) ∧ .restarted ∉ es := by
  cases hm with
  | died | called | told | miscounted | progressed | filled => exact ⟨[_], rfl, by simp⟩
  | left => exact ⟨_, journal_leave .., by simp⟩
  | _ => exact ⟨[], (List.append_nil _).symm, by simp⟩

/-- **The handler restarts at rest only; any other actor has it for a duty.** -/
theorem Proper.restarts (h : d.Proper) (sound : d.Sound) (restarts : .restarted ∈ d.does m) :
    (m.actor = .handler ∧ d.Resting) ∨
      m.actor ≠ .handler ∧ d.does m = [.restarted] ∧ dutiesOf m.actor d.errands ≠ [] := by
  have hm := d.moved m
  generalize hd' : d.move m = d' at hm
  cases hm with
  | handled hm =>
    obtain ⟨hactor, es, hjournal, -⟩ := hm.journal
    rw [does_eq (hd' ▸ hjournal)] at restarts
    obtain ⟨unbound, -⟩ := hm.unbound_of_isOfAction hjournal restarts rfl
    exact .inl ⟨hactor, sound.resting_of_unbound unbound⟩
  | advanced live hm =>
    obtain ⟨es, hjournal, hnot⟩ := hm.not_restarts
    rw [does_eq (a := d.taskActor) (hd' ▸ hjournal)] at restarts
    exact absurd restarts hnot
  | @performed a _ other hm =>
    obtain ⟨effect, takes, does⟩ := hm
    have hdoes : d.does (.step a) = [effect] := does_eq (a := a) (congrArg Device.journal hd')
    rw [hdoes] at restarts ⊢
    obtain rfl := List.mem_singleton.mp restarts
    refine .inr ⟨?_, rfl, ?_⟩
    · rintro rfl
      obtain ⟨⟨e, he, hactor, -⟩, -⟩ := mem_of_takeDuty takes
      have hproper := h.errands e he
      rwa [Errand.Proper, hactor] at hproper
    · have hself := (dutiesOf_takeDuty takes).1
      change dutiesOf a d.errands ≠ []
      rw [hself]
      exact List.cons_ne_nil _ _
  | _ =>
    rw [does_eq_nil ((congrArg Device.journal hd').trans rfl)] at restarts
    cases restarts

/-- Only a session that was completed and wanted a restart leaves one to do. -/
theorem farewell_of_restart {owner? : Option Client} {total : UInt32}
    {flags : SessionFlags} {outcome : Outcome}
    (h : .restart ∈ farewell owner? total flags outcome) :
    outcome = .completed ∧ flags.resetAfterSuccess = true := by
  rcases outcome with _ | reason
  · exact ⟨rfl, by simpa [farewell] using h⟩
  · rcases reason <;> simp [farewell] at h

/-- A task restarts the device only if it has completed its session. -/
theorem Chronicle.completed_of_restarted {owner : Client} {total : UInt32} (h : d.Chronicle)
    (opened : opening? k d.journal = some (owner, total))
    (restarts : .restarted ∈ deeds (.task k) d.journal) :
    .event (.completed total) ∈ deeds (.task k) d.journal := by
  have notWork : ¬Effect.restarted.IsWork owner total := id
  by_cases hpast : d.IsPast k
  · obtain ⟨body, done, outcome, received, flags, hes, work, closes, duties⟩ :=
      h.past k owner total opened hpast
    rw [hes] at restarts ⊢
    rcases List.mem_append.mp restarts with he | he
    · exact absurd (work _ he) notWork
    rcases List.mem_cons.mp he with he | he
    · cases he
    obtain ⟨duty, hduty, heq⟩ := duty_of_done duties he
    obtain rfl := Option.some.inj heq
    obtain ⟨rfl, -⟩ := farewell_of_restart hduty
    exact List.mem_append_right _ List.mem_cons_self
  · rcases h.working opened hpast _ restarts with hwork | ⟨point, hdied⟩
    · exact absurd hwork notWork
    · cases hdied

/-- A task that restarts the device has completed its session before. -/
theorem Chronicle.completed_of_does (h : d.Chronicle) (sound : d.Sound) (proper : d.Proper)
    (actor : m.actor = .task k) (restarts : d.does m = [.restarted]) :
    ∃ n, .event (.completed n) ∈ deeds (.task k) d.journal := by
  have hm := d.moved m
  have hdeeds : deeds (.task k) (d.move m).journal
      = deeds (.task k) d.journal ++ [.restarted] := by
    rw [journal_move, restarts, actor, deeds_append_self]
  have restarted : .restarted ∈ deeds (.task k) (d.move m).journal := by
    rw [hdeeds]
    exact List.mem_append_right _ (List.mem_singleton_self _)
  have chronicle' : (d.move m).Chronicle := h.moved sound hm
  obtain ⟨owner, total, opened⟩ := chronicle'.opened_of_deed (proper.moved sound h hm) restarted
  have completed := chronicle'.completed_of_restarted opened restarted
  rw [hdeeds, List.mem_append] at completed
  exact ⟨total, completed.resolve_right (by simp)⟩

/-- **Every restart by another than the handler was announced.** -/
theorem announced_of_restarts (config : Config) (firmware : Firmware) {ms : List Move}
    (restarts : .restarted ∈ ((fresh config firmware).run ms).does m)
    (other : m.actor ≠ .handler) : ∃ front m' back, ms = front ++ m' :: back ∧
      ((fresh config firmware).run front).Announces m' m.actor := by
  obtain ⟨sound, chronicle⟩ := chronicle_run config firmware ms
  have proper := proper_run config firmware ms
  obtain ⟨-, hdoes, hduties⟩ := (proper.restarts sound restarts).resolve_left fun h => other h.1
  rcases hactor : m.actor with _ | k | _
  case handler => exact absurd hactor other
  case restarter =>
    rw [hactor] at hduties
    exact (dutiesOf_restarter_run (d := fresh config firmware) rfl ms).resolve_left hduties
  case task =>
    obtain ⟨n, completed⟩ := chronicle.completed_of_does sound proper hactor hdoes
    rw [deeds_run] at completed
    obtain ⟨front, m', back, rfl, hm', he⟩ := mem_doings.mp completed
    refine ⟨front, m', back, rfl, ?_, n, he⟩
    have hstep := (completes_of_does he).left_eq.1
    rw [hstep] at hm' ⊢
    exact congrArg Move.step hm'

/-! ## What happens in between -/

/-- A device at rest stays so until a session is opened. -/
theorem Resting.run (h : d.Resting) (sound : d.Sound) (ms : List Move) :
    (d.run ms).Resting ∨ d.sessions < (d.run ms).sessions := by
  have isPast : d.IsPast d.sessions := .inr ⟨rfl, by rw [h.session]; rfl⟩
  rcases isPast.run sound ms with hlt | ⟨-, idle⟩
  · exact .inr hlt
  · exact .inl ((sound.run ms).resting idle)

/-- **When a restart is announced, the device is at rest.** -/
theorem Announces.resting {a : Actor} (h : d.Announces m a) (sound : d.Sound) :
    (d.move m).Resting := by
  have sound' : (d.move m).Sound := sound.moved (d.moved m)
  rcases a with _ | k | _
  · exact h.elim
  · obtain ⟨-, n, hdoes⟩ := h
    refine sound'.resting ?_
    rw [(completes_of_does hdoes).left_eq.2.2]
    rfl
  · obtain ⟨c, f, reached, rfl, hdoes⟩ := h
    have hm : Handled d (.frame c f) (d.move (.frame c f)) := handled_receive c f
    obtain ⟨-, es, hjournal, -⟩ := hm.journal
    rw [does_eq hjournal] at hdoes
    obtain ⟨unbound, hregistry⟩ := hm.unbound_of_isOfAction hjournal hdoes rfl
    exact sound'.resting_of_unbound (hregistry ▸ unbound)

/-- **From its announcement on a restart finds the device at rest, until a session is opened.** -/
theorem Announces.since {a : Actor} (config : Config) (firmware : Firmware) {front : List Move}
    (h : ((fresh config firmware).run front).Announces m a) (back : List Move) :
    let d' := ((fresh config firmware).run front).move m
    let d := (fresh config firmware).run (front ++ m :: back)
    d.Resting ∨ d'.sessions < d.sessions ∧
      ∀ k, a = .task k → (fresh config firmware).Reverts (front ++ m :: back) k := by
  intro d' d
  have sound := sound_run config firmware front
  have hd : d = d'.run back := run_append ..
  rcases (h.resting sound).run (sound.moved (moved _ m)) back with hrest | opens
  · exact .inl (hd ▸ hrest)
  rw [← hd] at opens
  refine .inr ⟨opens, ?_⟩
  rintro k rfl
  obtain ⟨rfl, n, hdoes⟩ := h
  obtain ⟨hstep, counted, -⟩ := (completes_of_does hdoes).left_eq
  have completed : .event (.completed n) ∈ deeds (.task k) d.journal := by
    rw [deeds_run]
    exact List.mem_append_right _ (mem_doings.mpr ⟨front, _, back, rfl, rfl, hdoes⟩)
  refine reverts_of_completed config firmware completed ?_
  calc k = _ := Actor.task.inj (Move.step.inj hstep)
    _ = d'.sessions := counted.symm
    _ < d.sessions := opens

/-- **A restart finds the device at rest, unless a session was opened since it was announced.**  The
handler restarts at rest only.  Any other restart was announced, by the reply to a reset or by the
completion of the session whose task restarts; the device was at rest then, and is so still unless a
session was opened since.  Behind a completed session that takes a revert of its update. -/
theorem restarts_at_rest (config : Config) (firmware : Firmware) (ms : List Move) (m : Move)
    (restarts : .restarted ∈ ((fresh config firmware).run ms).does m) :
    let d := (fresh config firmware).run ms
    (m.actor = .handler → d.Resting) ∧
    (m.actor ≠ .handler → ∃ front m' back, ms = front ++ m' :: back ∧
      ((fresh config firmware).run front).Announces m' m.actor) ∧
    ∀ front m' back, ms = front ++ m' :: back →
      ((fresh config firmware).run front).Announces m' m.actor →
      let d' := ((fresh config firmware).run front).move m'
      d'.Resting ∧ (d.Resting ∨ d'.sessions < d.sessions ∧
        ∀ k, m.actor = .task k → (fresh config firmware).Reverts ms k) := by
  intro d
  refine ⟨fun hactor => ?_, announced_of_restarts config firmware restarts, ?_⟩
  · have hrest := (proper_run config firmware ms).restarts (sound_run config firmware ms) restarts
    exact (hrest.resolve_right fun h => h.1 hactor).2
  · rintro front m' back rfl announced
    exact ⟨announced.resting (sound_run config firmware front),
      announced.since config firmware back⟩

theorem restarts_at_rest_reset :
    let d := (fresh .default .unknown).run [.frame ⟨1, 1⟩ (Request.action .reset).encode]
    .restarted ∈ d.does (.step .restarter) ∧ d.Resting := by
  intro d
  have restarts : .restarted ∈ d.does (.step .restarter) := by decide
  obtain ⟨-, announced, peaceful⟩ := restarts_at_rest .default .unknown _ (.step .restarter) restarts
  obtain ⟨front, m', back, split, hm'⟩ := announced nofun
  obtain ⟨-, resting | ⟨opens, -⟩⟩ := peaceful front m' back split hm'
  · exact ⟨restarts, resting⟩
  · exact absurd opens (Nat.not_lt_zero _)

/-- A client uploads an image of two bytes and asks for a restart behind it.  Its task is held before
the last frame, while another client has the image reverted and is given a session. -/
def takeOver : List Move :=
  .frame ⟨1, 1⟩ (Request.start 2 0 { SessionFlags.none with resetAfterSuccess := true }).encode ::
    List.replicate 4 (.step (.task 1)) ++
  .frame ⟨1, 1⟩ (Request.state true [7, 8]).encode :: List.replicate 10 (.step (.task 1)) ++
  [.frame ⟨2, 2⟩ (Request.action .invalidateImage).encode,
    .frame ⟨2, 2⟩ (Request.start 2 0 .none).encode]

/-- **A restart can interrupt a session**: the first task goes on, and restarts the device. -/
theorem restart_may_interrupt : ¬∀ (config : Config) (firmware : Firmware) (ms : List Move)
    (m : Move), let d := (fresh config firmware).run ms
    .restarted ∈ d.does m → d.session.state = .idle ∧ d.registry.owner = none := by
  intro atRest
  have idle := (atRest .default .unknown (takeOver ++ List.replicate 2 (.step (.task 1)))
    (.step (.task 1)) (by decide)).1
  have receiving : ((fresh .default .unknown).run
      (takeOver ++ List.replicate 2 (.step (.task 1)))).session.state = .receiving := by decide
  cases receiving.symm.trans idle

end OverTheAir.Device
