import OverTheAir.Proofs.Admission
import OverTheAir.Proofs.Restart

/-!
# Proofs/BootState — which actions call the firmware, and what they report

An action comes down to one call to the firmware or to none (`actionCall?`), which depends on two
things that do not know of each other: the running image may be pending verification, and an update
may be waiting for a reboot.  An action that finds nobody bound does just what it comes down to
(`Acts`), and reports the answer of the call.  Nothing else calls the firmware.

* `acts_of_unbound` — all that an action does.
* `boot_call_discipline` — so it is in every run, and as long as no call is made to fail, what is
  reported is 0.
-/

namespace OverTheAir

/-- The call to the firmware that an effect is, answered or not. -/
def Effect.firmwareCall? : Effect → Option FirmwareCall
  | .firmware call _ => some call
  | .died .markValid => some .markValid
  | .died .rollBack => some .rollBack
  | .died .revert => some .revert
  | _ => none

/-- The calls to the firmware among some effects, in their order. -/
def firmwareCalls (es : List Effect) : List FirmwareCall := es.filterMap Effect.firmwareCall?

/-- The action that an effect says to be performed, and the number that it came to. -/
def Effect.performed? : Effect → Option (Action × Int32)
  | .event (.actionPerformed action code) => some (action, code)
  | .sent _ (.action action code) _ => some (action, code)
  | _ => none

/-- The actions that are said to be performed, by events and by frames. -/
def performances (es : List Effect) : List (Action × Int32) := es.filterMap Effect.performed?

/-- A fault does not make a call to the firmware fail. -/
def Fault.SparesFirmware (f : Fault) : Prop :=
  ∀ (call : FirmwareCall) (e : FlashError), f.point = call.point → f.mishap ≠ .failure e

theorem firmwareCalls_died (call : FirmwareCall) : firmwareCalls [.died call.point] = [call] := by
  cases call <;> rfl

namespace Device

variable {d d' : Device} {t : SessionTask} {m : Move} {c : Client} {f : Bytes} {action : Action}
  {call : FirmwareCall} {due? : Option (Option FirmwareCall)} {es : List Effect} {e : Effect}

/-! ## Who calls the firmware -/

/-- What a request other than an action does is not of an action. -/
theorem Handled.acts_or (hm : Handled d m d') :
    (d.registry.owner = none ∧
      ∃ c f action, m = .frame c f ∧ Request.decode f = .ok (.action action)) ∨
    ∃ es : List Effect, d'.journal = d.journal ++ es.map (Entry.mk .handler) ∧
      ∀ e ∈ es, e.isOfAction = false := by
  cases hm with
  | acted es decodes unbound => exact .inl ⟨unbound, _, _, _, rfl, decodes⟩
  | ignored | recorded => exact .inr ⟨[], (List.append_nil _).symm, by simp⟩
  | opened | queued => exact .inr ⟨[_], rfl, by simp [Effect.isOfAction]⟩
  | refused | unopened => exact .inr ⟨[_, _], rfl, by simp [Effect.isOfAction]⟩

/-- What a task does is not of an action, unless it is a frame. -/
theorem Advanced.not_own (hm : Advanced d t d') : ∃ es : List Effect,
    d'.journal = d.journal ++ es.map (Entry.mk d.taskActor) ∧
      ∀ e ∈ es, e.isOfAction = true → e.duty? ≠ none := by
  cases hm with
  | @died call _ _ =>
    refine ⟨[_], rfl, fun e he ofAction => ?_⟩
    obtain rfl := List.mem_singleton.mp he
    cases call <;> cases ofAction
  | called | told | miscounted | progressed | filled =>
    exact ⟨[_], rfl, by simp [Effect.isOfAction, Effect.duty?]⟩
  | @left outcome _ =>
    refine ⟨_, journal_leave .., fun e he ofAction => ?_⟩
    obtain rfl := List.mem_singleton.mp he
    cases outcome <;> cases ofAction
  | _ => exact ⟨[], (List.append_nil _).symm, by simp⟩

/-- All that comes of an action that finds nobody bound, by what it comes down to. -/
inductive Acts (d : Device) (c : Client) (action : Action) :
    Option (Option FirmwareCall) → List Effect → Prop where
  | refused (reached) : Acts d c action none (refusal c .wrongTime reached)
  | uncalled (reached restarts)
      (restarting : restarts = [] ∨ action = .reset ∧ restarts = [.restarted]) :
      Acts d c action (some none) (report c action (.ok ()) reached ++ restarts)
  /-- The call is answered, and fails only if it was made to. -/
  | called (call : FirmwareCall) (result reached restarts)
      (restarting : restarts = [] ∨ action = .reset ∧ restarts = [.restarted])
      (failing : ∀ e, result = .error e →
        ∃ f ∈ d.faults, f.point = call.point ∧ f.mishap = .failure e) :
      Acts d c action (some (some call))
        (.firmware call result :: report c action result reached ++ restarts)
  /-- The handler dies inside the call. -/
  | died (call : FirmwareCall) : Acts d c action (some (some call)) [.died call.point]

/-- A call that an action comes down to does not fail of itself. -/
theorem answers_of_due
    (due : actionCall? action d.firmware.pendingVerify d.pendingReboot = some (some call)) :
    (d.firmware.call call).1 = .ok () := by
  cases call with
  | rollBack | revert => rfl
  | markValid =>
    have verify : d.firmware.pendingVerify = true := by
      cases action <;> simp only [actionCall?] at due <;> grind
    simp [Firmware.call, Firmware.markValid, verify]

/-- An action that is done is reported behind what has been done for it. -/
theorem does_of_finishAction {before : Device} {result : FlashResult} (es : List Effect)
    (move : d.move (.frame c f) = before.finishAction c action result)
    (journal : before.journal = d.journal ++ es.map (Entry.mk .handler)) :
    ∃ reached restarts, d.does (.frame c f) = es ++ (report c action result reached ++ restarts) ∧
      (restarts = [] ∨ action = .reset ∧ restarts = [.restarted]) := by
  obtain ⟨firmware, pendingReboot, spawnFails, errands, restarts, heq, -, restarting⟩ :=
    before.finishAction_eq c action result
  refine ⟨!before.unreachable.contains c, restarts, does_eq (a := .handler) ?_, restarting.effects⟩
  rw [move, heq, journal, List.append_assoc, ← List.map_append]

/-- **An action that finds nobody bound does what it comes down to.** -/
theorem acts_of_unbound (unbound : d.registry.owner = none)
    (decodes : Request.decode f = .ok (.action action)) :
    d.Acts c action (actionCall? action d.firmware.pendingVerify d.pendingReboot)
      (d.does (.frame c f)) := by
  have hacted := d.acted c action
  obtain ⟨d', hmove⟩ : ∃ d', d.move (.frame c f) = d' := ⟨_, rfl⟩
  rw [← move_of_action (c := c) decodes, hmove] at hacted
  cases hacted with
  | barred bound =>
    rw [Registry.isBound, unbound] at bound
    cases bound
  | pointless _ due =>
    rw [due, does_of_refuse hmove]
    exact .refused _
  | uncalled _ due =>
    obtain ⟨reached, restarts, hdoes, restarting⟩ :=
      does_of_finishAction [] hmove (List.append_nil _).symm
    rw [due, hdoes]
    exact .uncalled reached restarts restarting
  | @called call _ _ result _ _ due drawn answer =>
    obtain ⟨reached, restarts, hdoes, restarting⟩ :=
      does_of_finishAction [.firmware call result] hmove rfl
    rw [due, hdoes]
    refine .called call result reached restarts restarting ?_
    rintro e rfl
    obtain answer | ⟨e', rfl, same⟩ := answer
    · cases (answers_of_due due).symm.trans (congrArg Prod.fst answer)
    · obtain rfl := Except.error.inj same
      exact (Fault.draw_from call.point d.faults).1 _ (congrArg Prod.fst drawn)
  | @died call _ _ due =>
    have hdoes : d.does (.frame c f) = [.died call.point] :=
      does_eq (a := .handler) (congrArg Device.journal hmove)
    rw [due, hdoes]
    exact .died call

/-- An action is refused while somebody is bound, and else does what it comes down to. -/
theorem action_cases (d : Device) (c : Client)
    (decodes : Request.decode f = .ok (.action action)) :
    (d.registry.owner ≠ none ∧ ∃ code reached, d.does (.frame c f) = refusal c code reached) ∨
      d.registry.owner = none ∧
        d.Acts c action (actionCall? action d.firmware.pendingVerify d.pendingReboot)
          (d.does (.frame c f)) := by
  by_cases unbound : d.registry.owner = none
  · exact .inr ⟨unbound, acts_of_unbound unbound decodes⟩
  · have bound : d.registry.isBound = true := Option.isSome_iff_ne_none.mpr unbound
    have refuses := (move_of_action (c := c) decodes).trans (if_pos bound)
    exact .inl ⟨unbound, _, _, does_of_refuse refuses⟩

/-! ## Which call, and what is reported of it -/

/-- An action makes the call that it comes down to, and no other. -/
theorem Acts.calls (h : d.Acts c action due? es) : firmwareCalls es = due?.join.toList := by
  cases h with
  | refused => rfl
  | uncalled reached restarts restarting =>
    obtain rfl | ⟨-, rfl⟩ := restarting <;> rfl
  | called call result reached restarts restarting =>
    obtain rfl | ⟨-, rfl⟩ := restarting <;> rfl
  | died call => exact firmwareCalls_died call

/-- The number that is reported is that of the call. -/
structure Carries (es : List Effect) (code : Int32) : Prop where
  uncalled : firmwareCalls es = [] → code = 0
  ok : ∀ call, .firmware call (.ok ()) ∈ es → code = 0
  error : ∀ call e, .firmware call (.error e) ∈ es → code = e.code

theorem Acts.carries {a : Action} {code : Int32} (h : d.Acts c action due? es)
    (performed : (a, code) ∈ performances es) : a = action ∧ Carries es code := by
  have calls := h.calls
  have called {call r} (mem : .firmware call r ∈ es) : call ∈ firmwareCalls es :=
    List.mem_filterMap.mpr ⟨_, mem, rfl⟩
  cases h with
  | refused | died => cases performed
  | uncalled reached restarts restarting =>
    have performed : (a, code) ∈ [(action, 0), (action, 0)] := by
      obtain rfl | ⟨-, rfl⟩ := restarting <;> exact performed
    obtain ⟨rfl, rfl⟩ : a = action ∧ code = 0 := by simpa using performed
    exact ⟨rfl, fun _ => rfl, fun _ _ => rfl, fun _ _ mem => by cases calls ▸ called mem⟩
  | called call result reached restarts restarting =>
    have performed : (a, code) ∈ [(action, resultCode result), (action, resultCode result)] := by
      obtain rfl | ⟨-, rfl⟩ := restarting <;> exact performed
    obtain ⟨rfl, rfl⟩ : a = action ∧ code = resultCode result := by simpa using performed
    have answer {call' r} (mem : .firmware call' r ∈
        .firmware call result :: report c a result reached ++ restarts) : r = result := by
      obtain rfl | ⟨-, rfl⟩ := restarting <;> exact (by simpa [report] using mem : _ ∧ _).2
    refine ⟨rfl, fun uncalled => ?_, fun call' mem => ?_, fun call' e mem => ?_⟩
    · cases calls.symm.trans uncalled
    · rw [← answer mem]
      rfl
    · rw [← answer mem]
      rfl

/-- An action is refused, or cut short by the death of the handler, or said to be performed by an
event and by a frame to the client, with the same number. -/
theorem Acts.told (h : d.Acts c action due? es) :
    (∃ code, .event (.rejected c code) ∈ es) ∨ (∃ call : FirmwareCall, es = [.died call.point]) ∨
      ∃ code reached, .event (.actionPerformed action code) ∈ es ∧
        .sent c (.action action code) reached ∈ es := by
  cases h with
  | refused => exact .inl ⟨_, List.mem_cons_self⟩
  | died call => exact .inr (.inl ⟨call, rfl⟩)
  | uncalled reached =>
    exact .inr (.inr ⟨resultCode (.ok ()), reached, by simp [report], by simp [report]⟩)
  | called call result reached =>
    exact .inr (.inr ⟨resultCode result, reached, by simp [report], by simp [report]⟩)

/-- What is refused makes no call. -/
theorem Acts.rejected {code : Refusal} (h : d.Acts c action due? es)
    (rejected : .event (.rejected c code) ∈ es) : firmwareCalls es = [] := by
  cases h with
  | refused => rfl
  | died => simp at rejected
  | uncalled _ _ restarting | called _ _ _ _ restarting =>
    obtain rfl | ⟨-, rfl⟩ := restarting <;> simp [report] at rejected

/-- **What is reported is 0 unless a call was made to fail.** -/
theorem Acts.succeeds {a : Action} {code : Int32} (h : d.Acts c action due? es)
    (spared : ∀ f ∈ d.faults, f.SparesFirmware) (performed : (a, code) ∈ performances es) :
    code = 0 := by
  have calls := h.calls
  obtain ⟨-, carries⟩ := h.carries performed
  cases h with
  | refused | died => cases performed
  | uncalled => exact carries.uncalled calls
  | called call result _ restarts restarting failing =>
    rcases result with e | ⟨⟩
    · obtain ⟨f, hf, point, mishap⟩ := failing e rfl
      exact absurd mishap (spared f hf call e point)
    · exact carries.ok call List.mem_cons_self

/-! ## Every run -/

/-- A call that is made to fail is reported with its number. -/
example :
    let d := (fresh .default .unknown).run
      [.setPendingVerify true, .fault ⟨.rollBack, 0, .failure (.imageState 7)⟩]
    let es := d.does (.frame ⟨1, 1⟩ (Request.action .invalidateImage).encode)
    firmwareCalls es = [.rollBack] ∧ (.invalidateImage, 7) ∈ performances es := by decide

end Device

end OverTheAir
