import OverTheAir.Proofs.Sound

/-!
# Proofs/Faults — where a failing call has its failure from

A fault that is laid in store counts down or stays as it is until a call draws it, so a mishap that
a call meets was laid there by some move (`laid_run`).  In a sound device the partition itself
refuses nothing but to be opened (`Sound.answers`).  Together: every other flash call that fails was
made to (`laid_of_fails`).
-/

namespace OverTheAir

/-! ## Drawing a fault -/

/-- The fault strikes where another one does, and in the same way; it may do so sooner. -/
def Fault.Like (f f' : Fault) : Prop := f.point = f'.point ∧ f.mishap = f'.mishap

/-- Every fault of a list is like one that was in store. -/
def Fault.From (store faults : List Fault) : Prop := ∀ f ∈ faults, ∃ f' ∈ store, f'.Like f

theorem Fault.From.refl (store : List Fault) : From store store :=
  fun f hf => ⟨f, hf, rfl, rfl⟩

/-- **What is drawn was in store**, and so were the faults that stay. -/
theorem Fault.draw_from (p : Point) (store : List Fault) :
    (∀ mishap, (draw p store).1 = some mishap → ∃ f ∈ store, f.point = p ∧ f.mishap = mishap) ∧
      From store (draw p store).2 := by
  induction store with
  | nil => exact ⟨nofun, .refl []⟩
  | cons f store ih =>
    obtain ⟨hdrawn, hstay⟩ := ih
    have further : From (f :: store) store := fun g hg => ⟨g, List.mem_cons_of_mem f hg, rfl, rfl⟩
    rw [draw]
    split
    · rename_i hpoint
      split
      · refine ⟨?_, further⟩
        rintro mishap ⟨⟩
        exact ⟨f, List.mem_cons_self, hpoint, rfl⟩
      · refine ⟨nofun, List.forall_mem_cons.mpr ⟨?_, further⟩⟩
        exact ⟨f, List.mem_cons_self, rfl, rfl⟩
    · refine ⟨fun mishap h => ?_, List.forall_mem_cons.mpr ⟨?_, fun g hg => ?_⟩⟩
      · obtain ⟨g, hg, hlike⟩ := hdrawn mishap h
        exact ⟨g, List.mem_cons_of_mem f hg, hlike⟩
      · exact ⟨f, List.mem_cons_self, rfl, rfl⟩
      · obtain ⟨g', hg', hlike⟩ := hstay g hg
        exact ⟨g', List.mem_cons_of_mem f hg', hlike⟩

/-- What comes of a call that meets a mishap, or none. -/
def Effect.ofCall (call : FlashCall) (answer : FlashResult) : Option Mishap → Effect
  | some .death => .died call.point
  | some (.failure e) => .flash call (.error e)
  | none => .flash call answer

namespace Device

open Journal

variable {d : Device} {t : SessionTask}

/-! ## Faults in store -/

/-- The step of a task at a stage that makes a call is the call. -/
theorem taskStep_of_call? {call : FlashCall} (calls : t.stage.call? d.session.total = some call) :
    ∃ onOk onError, d.taskStep t = some (d.flashStep t call onOk onError) := by
  obtain ⟨hs, rfl⟩ | ⟨chunk, isEnd, hs, rfl⟩ | ⟨hs, rfl⟩ | ⟨hs, rfl⟩ | ⟨reason, hs, rfl⟩ :=
    Stage.call?_cases calls
  all_goals
    rw [taskStep, hs]
    exact ⟨_, _, rfl⟩

theorem move_of_call? (live : d.task = some t) {call : FlashCall}
    (calls : t.stage.call? d.session.total = some call) :
    ∃ onOk onError, d.move (.step d.taskActor) = d.flashStep t call onOk onError := by
  obtain ⟨onOk, onError, hstep⟩ := taskStep_of_call? calls
  refine ⟨onOk, onError, ?_⟩
  have hmove : d.step d.taskActor = d.taskStep t := by
    rw [step, live]
    exact if_pos rfl
  change (d.step d.taskActor).getD d = _
  rw [hmove, hstep]
  rfl

/-- A call of the task uses up what it draws, and what comes of it is an entry of the journal. -/
theorem flashStep_draws (d : Device) (t : SessionTask) (call : FlashCall) (onOk : Stage)
    (onError : FlashError → Stage) :
    (d.flashStep t call onOk onError).faults = (Fault.draw call.point d.faults).2 ∧
      (d.flashStep t call onOk onError).journal = d.journal ++ List.map (Entry.mk d.taskActor)
        [.ofCall call (d.flash.call call).1 (Fault.draw call.point d.faults).1] := by
  rw [flashStep, callFlash]
  obtain ⟨_ | _ | _, faults⟩ := Fault.draw call.point d.faults
  · dsimp only
    obtain ⟨_ | _, flash⟩ := d.flash.call call
    · exact ⟨rfl, rfl⟩
    · exact ⟨rfl, rfl⟩
  · exact ⟨rfl, rfl⟩
  · exact ⟨rfl, rfl⟩

/-- An action uses faults up only by the call that it makes. -/
theorem faults_act (d : Device) (c : Client) (action : Action) :
    Fault.From d.faults (d.act c action).faults := by
  have finish : ∀ (d' : Device) result, (d'.finishAction c action result).faults = d'.faults := by
    intro d' result
    obtain ⟨firmware, pendingReboot, spawnFails, errands, restarts, heq, -⟩ :=
      d'.finishAction_eq c action result
    rw [heq]
  have hacted := d.acted c action
  generalize d.act c action = d' at hacted ⊢
  cases hacted with
  | barred | pointless => exact .refl _
  | uncalled =>
    rw [finish]
    exact .refl _
  | @called call _ _ _ _ _ _ drawn =>
    have from_store := (Fault.draw_from call.point d.faults).2
    rw [drawn] at from_store
    rw [finish]
    exact from_store
  | @died call _ _ _ drawn =>
    have from_store := (Fault.draw_from call.point d.faults).2
    rw [drawn] at from_store
    exact from_store

/-- Of the requests only an action may use faults up. -/
theorem Handled.faults {d' : Device} {m : Move} (h : Handled d m d') : d'.faults = d.faults ∨
    ∃ c f action, m = .frame c f ∧ Request.decode f = .ok (.action action) := by
  cases h with
  | acted es decodes => exact .inr ⟨_, _, _, rfl, decodes⟩
  | _ => exact .inl rfl

/-- A step of an actor uses faults up only by the call that it makes. -/
theorem faults_step (d : Device) (a : Actor) :
    Fault.From d.faults (d.move (.step a)).faults := by
  have hm := d.moved (.step a)
  generalize hd' : d.move (.step a) = d' at hm
  cases hm with
  | handled hm =>
    obtain heq | ⟨c, f, action, hframe, -⟩ := hm.faults
    · rw [heq]
      exact .refl _
    · cases hframe
  | @advanced t _ live hm =>
    have drawn : ∀ {call}, t.stage.call? d.session.total = some call →
        Fault.From d.faults d'.faults := by
      intro call calls
      obtain ⟨onOk, onError, hmove⟩ := move_of_call? live calls
      rw [← hd', hmove, (d.flashStep_draws t call onOk onError).1]
      exact (Fault.draw_from call.point d.faults).2
    cases hm with
    | died calls => exact drawn calls
    | called calls answer => exact drawn calls
    | _ => exact .refl _
  | performed other hm =>
    obtain ⟨effect, takes, does⟩ := hm
    exact .refl _
  | stuck => exact .refl _
  | around faults spawnFails unreachable pendingVerify outside still => exact absurd rfl (still a)

/-- **Faults come from outside**: a move lays one in store or adds none to those that there are. -/
theorem faults_move (d : Device) : ∀ m, Fault.From d.faults (d.move m).faults ∨
    ∃ f, m = .fault f ∧ (d.move m).faults = d.faults ++ [f]
  | .frame c f => by
    refine .inl ?_
    obtain heq | ⟨_, _, action, hframe, decodes⟩ := (handled_receive (d := d) c f).faults
    · change Fault.From d.faults (d.receive c f).faults
      rw [heq]
      exact .refl _
    · obtain ⟨rfl, rfl⟩ := Move.frame.inj hframe
      rw [move_of_action decodes]
      exact d.faults_act c action
  | .disconnect c => by
    refine .inl ?_
    obtain heq | ⟨_, _, _, hframe, -⟩ := (handled_disconnect (d := d) c).faults
    · change Fault.From d.faults (d.disconnect c).faults
      rw [heq]
      exact .refl _
    · cases hframe
  | .step a => .inl (d.faults_step a)
  | .pass ms => by
    refine .inl ?_
    change Fault.From d.faults (d.pass ms).faults
    rw [pass]
    split
    · split
      · exact .refl _
      · exact .refl _
    · exact .refl _
  | .fault f => .inr ⟨f, rfl, rfl⟩
  | .failSpawn => .inl (.refl _)
  | .lose _ => .inl (.refl _)
  | .setPendingVerify _ => .inl (.refl _)

/-- **A fault in store was laid there**, by a move of the run. -/
theorem laid_run (d : Device) (ms : List Move) : ∀ f ∈ (d.run ms).faults,
    ∃ f', (f' ∈ d.faults ∨ .fault f' ∈ ms) ∧ f'.Like f := by
  induction ms generalizing d with
  | nil => exact fun f hf => ⟨f, .inl hf, rfl, rfl⟩
  | cons m ms ih =>
    intro f hf
    obtain ⟨f₁, hf₁, hlike⟩ := ih (d.move m) f hf
    obtain hf₁ | hf₁ := hf₁
    · obtain hfrom | ⟨laid, rfl, heq⟩ := d.faults_move m
      · obtain ⟨f₂, hf₂, hpoint, hmishap⟩ := hfrom f₁ hf₁
        exact ⟨f₂, .inl hf₂, hpoint.trans hlike.1, hmishap.trans hlike.2⟩
      · rw [heq] at hf₁
        obtain hf₁ | hf₁ := List.mem_append.mp hf₁
        · exact ⟨f₁, .inl hf₁, hlike⟩
        · obtain rfl := List.mem_singleton.mp hf₁
          exact ⟨f₁, .inr List.mem_cons_self, hlike⟩
    · exact ⟨f₁, .inr (List.mem_cons_of_mem m hf₁), hlike⟩

/-! ## Calls that fail -/

/-- **The partition refuses nothing but to be opened** in a sound device. -/
theorem Sound.answers (h : d.Sound) (live : d.task = some t) {call : FlashCall}
    (calls : t.stage.call? d.session.total = some call) (notBegin : ∀ n, call ≠ .begin n) :
    (d.flash.call call).1 = .ok () := by
  obtain ⟨hs, rfl⟩ | ⟨chunk, isEnd, hs, rfl⟩ | ⟨hs, rfl⟩ | ⟨hs, rfl⟩ | ⟨reason, hs, rfl⟩ :=
    Stage.call?_cases calls
  · exact absurd rfl (notBegin _)
  · obtain ⟨htakes, -, hfit⟩ := h.stands live hs
    obtain ⟨f', hcall, -⟩ := htakes.holds.write hfit
    rw [hcall]
  · obtain ⟨hfinal, hholds⟩ := h.stands live hs
    obtain ⟨f', hcall, -⟩ := hholds.finish (congrArg UInt32.toNat hfinal.all)
    rw [hcall]
  · obtain ⟨-, hcomplete⟩ := h.stands live hs
    rw [hcomplete.select]
  · rfl

/-- **A call that fails drew a failure**, unless it was to open the partition. -/
theorem Sound.draws_of_error (h : d.Sound) {m : Move} {call : FlashCall} {e : FlashError}
    (hdoes : .flash call (.error e) ∈ d.does m) (notBegin : ∀ n, call ≠ .begin n) :
    ∃ f ∈ d.faults, f.point = call.point ∧ f.mishap = .failure e := by
  obtain ⟨hm, t, call', live, calls, hcall⟩ := (accounted_of_does hdoes).tries rfl
  obtain rfl : call = call' := by
    obtain hdied | ⟨r, heq⟩ := hcall
    · cases hdied
    · exact (Effect.flash.inj heq).1
  obtain ⟨onOk, onError, hmove⟩ := move_of_call? live calls
  obtain ⟨-, hjournal⟩ := d.flashStep_draws t call onOk onError
  rw [← hmove, ← hm] at hjournal
  rw [does_eq hjournal, List.mem_singleton, h.answers live calls notBegin] at hdoes
  have hdraw := (Fault.draw_from call.point d.faults).1
  match hmishap : (Fault.draw call.point d.faults).1 with
  | some .death =>
    rw [hmishap] at hdoes
    cases hdoes
  | none =>
    rw [hmishap] at hdoes
    cases hdoes
  | some (.failure e') =>
    rw [hmishap] at hdoes
    obtain rfl : e = e' := by simpa [Effect.ofCall] using hdoes
    exact hdraw _ hmishap

/-- **A call that fails was made to**, unless it was to open the partition: a move of the run laid
the failure in store. -/
theorem laid_of_fails (config : Config) (firmware : Firmware) {ms : List Move} {a : Actor}
    {call : FlashCall} {e : FlashError}
    (fails : .flash call (.error e) ∈ deeds a ((fresh config firmware).run ms).journal)
    (notBegin : ∀ n, call ≠ .begin n) :
    ∃ f, .fault f ∈ ms ∧ f.point = call.point ∧ f.mishap = .failure e := by
  rw [deeds_run] at fails
  obtain ⟨front, m, back, rfl, -, hdoes⟩ := mem_doings.mp fails
  obtain ⟨f, hf, hpoint, hmishap⟩ :=
    (sound_run config firmware front).draws_of_error hdoes notBegin
  obtain ⟨f', hstore | hlaid, hlike⟩ := laid_run (fresh config firmware) front f hf
  · cases hstore
  · exact ⟨f', List.mem_append_left _ hlaid, hlike.1.trans hpoint, hlike.2.trans hmishap⟩

end Device

end OverTheAir
