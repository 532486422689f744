import OverTheAir.Proofs.BootState
import OverTheAir.Proofs.Order

/-!
# Proofs/Reset — a reset comes to one restart

A reset that is performed is told by an event and by a frame, and then the device restarts: from a
thread of its own, or at once if there is no thread to be had.  Restarts, and the threads that have
still to restart, so make up the resets (`Reckons`), and a restart has its reset's frame before it
(`replies_of_resets`).
-/

namespace OverTheAir

/-! ## Entries -/

namespace Entry

/-- A restart by other than a session task. -/
def resets : Entry → Bool
  | ⟨.handler, .restarted⟩ => true
  | ⟨.restarter, .restarted⟩ => true
  | _ => false

/-- A reset is performed. -/
def performsReset : Entry → Bool
  | ⟨_, .event (.actionPerformed .reset _)⟩ => true
  | _ => false

/-- A client is told that its reset is performed. -/
def repliesReset : Entry → Bool
  | ⟨.handler, .sent _ (.action .reset _) _⟩ => true
  | _ => false

/-- An entry has nothing to do with a reset. -/
def isQuiet (e : Entry) : Bool := !e.resets && !e.performsReset && !e.repliesReset

end Entry

namespace Device

open Journal

variable {d d' : Device} {t : SessionTask} {m : Move} {c : Client} {f : Bytes} {action : Action}
  {due? : Option (Option FirmwareCall)} {es : List Effect}

/-! ## What has nothing to do with a reset -/

/-- What a task does has nothing to do with a reset, -/
theorem isQuiet_of_task (k : Nat) {e : Effect} (h : e.isOfAction = true → e.duty? ≠ none) :
    Entry.isQuiet ⟨.task k, e⟩ = true := by
  cases e with
  | event event =>
    cases event with
    | actionPerformed => exact absurd rfl (h rfl)
    | _ => rfl
  | _ => rfl

theorem isQuiet_of_report (ne : action ≠ .reset) (c : Client) (result : FlashResult)
    (reached : Bool) :
    ∀ e ∈ report c action result reached, Entry.isQuiet ⟨.handler, e⟩ = true := by
  cases action with
  | reset => exact absurd rfl ne
  | _ => exact List.forall_mem_cons.mpr ⟨rfl, List.forall_mem_singleton.mpr rfl⟩

/-- nor has any other action. -/
theorem Acts.isQuiet (h : d.Acts c action due? es) (ne : action ≠ .reset) :
    ∀ e ∈ es, Entry.isQuiet ⟨.handler, e⟩ = true := by
  cases h with
  | refused => exact List.forall_mem_cons.mpr ⟨rfl, List.forall_mem_singleton.mpr rfl⟩
  | died => exact List.forall_mem_singleton.mpr rfl
  | uncalled reached restarts restarting =>
    obtain rfl | ⟨reset, -⟩ := restarting
    · rw [List.append_nil]
      exact isQuiet_of_report ne _ _ _
    · exact absurd reset ne
  | called call result reached restarts restarting =>
    obtain rfl | ⟨reset, -⟩ := restarting
    · rw [List.append_nil]
      exact List.forall_mem_cons.mpr ⟨rfl, isQuiet_of_report ne _ _ _⟩
    · exact absurd reset ne

/-! ## The reckoning -/

/-- **Restarts and threads that have still to restart make up the resets**, and so do the frames
that tell of them. -/
structure Reckons (d : Device) : Prop where
  owed : d.journal.countP Entry.resets + (dutiesOf .restarter d.errands).length
    = d.journal.countP Entry.performsReset
  replied : d.journal.countP Entry.repliesReset = d.journal.countP Entry.performsReset

theorem reckons_fresh (config : Config) (firmware : Firmware) : (fresh config firmware).Reckons :=
  ⟨rfl, rfl⟩

/-- What has nothing to do with a reset does not count. -/
theorem Reckons.keep (h : d.Reckons) (a : Actor) (es : List Effect)
    (journal : d'.journal = d.journal ++ es.map (Entry.mk a))
    (quiet : ∀ e ∈ es, Entry.isQuiet ⟨a, e⟩ = true)
    (duties : dutiesOf .restarter d'.errands = dutiesOf .restarter d.errands) : d'.Reckons := by
  have uncounted : ∀ p : Entry → Bool, (∀ e, Entry.isQuiet e = true → p e = false) →
      d'.journal.countP p = d.journal.countP p := by
    intro p hp
    have none : (es.map (Entry.mk a)).countP p = 0 :=
      List.countP_eq_zero.mpr (List.forall_mem_map.mpr fun e he => by simp [hp _ (quiet e he)])
    rw [journal, List.countP_append, none, Nat.add_zero]
  have quiets : ∀ e, Entry.isQuiet e = true →
      (e.resets = false ∧ e.performsReset = false) ∧ e.repliesReset = false := by
    intro e
    simp [Entry.isQuiet]
  have resets := uncounted _ fun e he => (quiets e he).1.1
  have performs := uncounted _ fun e he => (quiets e he).1.2
  have replies := uncounted _ fun e he => (quiets e he).2
  refine ⟨?_, ?_⟩
  · rw [resets, performs, duties]
    exact h.owed
  · rw [replies, performs]
    exact h.replied

/-- A reset counts once, as a restart or as a thread that has to restart. -/
theorem Reckons.reset (h : d.Reckons) (unbound : d.registry.owner = none)
    (decodes : Request.decode f = .ok (.action .reset)) : (d.move (.frame c f)).Reckons := by
  obtain ⟨reached, restarts, journal, done⟩ := journal_reset (c := c) unbound decodes
  have counts (p : Entry → Bool) := (congrArg (List.countP p) journal).trans List.countP_append
  have owed := h.owed
  have replied := h.replied
  obtain ⟨rfl, errands⟩ | ⟨rfl, errands⟩ := done
  · refine ⟨?_, ?_⟩
    · rw [counts Entry.resets, counts Entry.performsReset, errands]
      change _ + 1 + _ = _ + 1
      omega
    · rw [counts Entry.repliesReset, counts Entry.performsReset]
      change _ + 1 = _ + 1
      omega
  · have duties : dutiesOf .restarter (d.move (.frame c f)).errands
        = dutiesOf .restarter d.errands ++ [.restart] := by
      rw [errands, dutiesOf_append]
      rfl
    refine ⟨?_, ?_⟩
    · rw [counts Entry.resets, counts Entry.performsReset, duties, List.length_append]
      change _ + 0 + (_ + 1) = _ + 1
      omega
    · rw [counts Entry.repliesReset, counts Entry.performsReset]
      change _ + 1 = _ + 1
      omega

/-- A thread restarts, and has done with it. -/
theorem Reckons.restarts (h : d.Reckons)
    (journal : d'.journal = d.journal ++ [⟨.restarter, .restarted⟩])
    (duties : dutiesOf .restarter d.errands = .restart :: dutiesOf .restarter d'.errands) :
    d'.Reckons := by
  have counts (p : Entry → Bool) : d'.journal.countP p
      = d.journal.countP p + List.countP p [⟨.restarter, .restarted⟩] := by
    rw [journal, List.countP_append]
  have owed := h.owed
  rw [duties, List.length_cons] at owed
  refine ⟨?_, ?_⟩
  · rw [counts Entry.resets, counts Entry.performsReset]
    change _ + 1 + _ = _ + 0
    omega
  · rw [counts Entry.repliesReset, counts Entry.performsReset]
    exact h.replied

theorem Reckons.performed {a : Actor} (h : d.Reckons) (proper : d.Proper) (hm : Performed d a d') :
    d'.Reckons := by
  obtain ⟨effect, takes, does⟩ := hm
  obtain ⟨hself, hother⟩ := dutiesOf_takeDuty takes
  obtain ⟨⟨e, he, rfl, hduty⟩, -⟩ := mem_of_takeDuty takes
  have hproper := proper.errands e he
  rw [Errand.Proper] at hproper
  rcases hactor : e.actor with _ | k | _ <;> rw [hactor] at hproper hself hother
  case handler => exact hproper.elim
  case task =>
    have quiet : Entry.isQuiet ⟨.task k, effect⟩ = true :=
      isQuiet_of_task k fun _ none => by cases none.symm.trans does
    refine h.keep (.task k) [effect] rfl (List.forall_mem_singleton.mpr quiet) ?_
    exact hother _ fun h => by cases h
  case restarter =>
    obtain rfl := hproper _ hduty
    obtain rfl : effect = .restarted := by
      cases effect with
      | restarted => rfl
      | _ => cases does
    exact h.restarts rfl hself

/-- **Every move keeps the reckoning.** -/
theorem Reckons.move (h : d.Reckons) (proper : d.Proper) (m : Move) : (d.move m).Reckons := by
  have hm := d.moved m
  generalize hd' : d.move m = d' at hm ⊢
  cases hm with
  | handled hm =>
    cases hm with
    | @acted c f action _ _ _ _ _ _ decodes unbound =>
      rw [← hd']
      by_cases reset : action = .reset
      · subst reset
        exact h.reset unbound decodes
      · have quiet := (acts_of_unbound (c := c) unbound decodes).isQuiet reset
        refine h.keep .handler _ (journal_move d _) quiet ?_
        rw [move_of_action decodes, errands_act reset]
    | refused | unopened =>
      exact h.keep .handler [_, _] rfl
        (List.forall_mem_cons.mpr ⟨rfl, List.forall_mem_singleton.mpr rfl⟩) rfl
    | opened | queued =>
      exact h.keep .handler [_] rfl (List.forall_mem_singleton.mpr rfl) rfl
    | ignored | recorded => exact ⟨h.owed, h.replied⟩
  | advanced live hm =>
    obtain ⟨es, journal, own⟩ := hm.not_own
    exact h.keep _ es journal (fun e he => isQuiet_of_task _ (own e he)) (hm.duties nofun)
  | performed _ hm => exact h.performed proper hm
  | _ => exact ⟨h.owed, h.replied⟩

/-- **Restarts make up the resets, in every run.** -/
theorem reckons_run (config : Config) (firmware : Firmware) (ms : List Move) :
    ((fresh config firmware).run ms).Reckons := by
  refine (chronicle_walk (motive := fun d => d.Proper ∧ d.Reckons) (sound_fresh config firmware)
    (chronicle_fresh config firmware) ⟨proper_run config firmware [], ?_⟩ ?_ ms).2
  · exact reckons_fresh config firmware
  · rintro d m sound chronicle ⟨proper, h⟩
    exact ⟨proper.moved sound chronicle (d.moved m), h.move proper m⟩

/-! ## What comes before a restart -/

/-- The handler restarts for a reset, when it has told of it. -/
theorem Proper.report_of_restarts {es' : List Effect} (h : d.Proper) (actor : m.actor = .handler)
    (does : d.does m = es ++ .restarted :: es') :
    ∃ c reached,
      es = [.event (.actionPerformed .reset 0), .sent c (.action .reset 0) reached] := by
  have restarts : .restarted ∈ d.does m := by simp [does]
  cases d.done m with
  | handled hm =>
    obtain ⟨unbound, c, f, action, rfl, decodes⟩ | ⟨es₁, journal, not⟩ := hm.acts_or
    · by_cases reset : action = .reset
      · subst reset
        obtain ⟨reached, made, journal, done⟩ := journal_reset (c := c) unbound decodes
        rw [does_eq journal] at does
        refine ⟨c, reached, ?_⟩
        obtain ⟨rfl, -⟩ | ⟨rfl, -⟩ := done <;>
          rcases es with _ | ⟨e₁, _ | ⟨e₂, _ | ⟨e₃, es⟩⟩⟩ <;> simp_all
      · cases (acts_of_unbound unbound decodes).isQuiet reset _ restarts
    · rw [does_eq journal] at restarts
      cases not _ restarts
  | advanced live own hm =>
    subst own
    cases actor
  | performed _ _ takes =>
    rw [actor] at takes
    obtain ⟨⟨e, he, isHandler, -⟩, -⟩ := mem_of_takeDuty takes
    have proper := h.errands e he
    rw [Errand.Proper, isHandler] at proper
    exact proper.elim
  | nothing none =>
    rw [none] at restarts
    cases restarts

/-- **A restart comes behind the frame of its reset**: there are more such frames before it than
restarts.  One by the handler comes right behind its frame. -/
theorem replies_of_resets (config : Config) (firmware : Firmware) {ms : List Move}
    {front back : Journal} {e : Entry} (resets : e.resets = true)
    (split : ((fresh config firmware).run ms).journal = front ++ e :: back) :
    front.countP Entry.resets < front.countP Entry.repliesReset ∧
      (e.actor = .handler →
        ∃ c reached, [⟨.handler, .sent c (.action .reset 0) reached⟩] <:+ front) := by
  obtain ⟨before, m, after, es, es', rfl, actor, does, hfront⟩ :=
    entry_of_run (d := fresh config firmware) split
  have proper := proper_run config firmware before
  have reckons := reckons_run config firmware before
  have sound := sound_run config firmware before
  generalize (fresh config firmware).run before = d at does hfront proper reckons sound
  obtain rfl : front = d.journal ++ es.map (Entry.mk m.actor) := hfront
  obtain ⟨effect, byOther⟩ :
      e.effect = .restarted ∧ (e.actor = .handler ∨ e.actor = .restarter) := by
    obtain ⟨_ | _ | _, effect⟩ := e <;> cases effect <;> simp_all [Entry.resets]
  rw [effect] at does
  rw [actor] at byOther ⊢
  have restarts : .restarted ∈ d.does m := by simp [does]
  obtain ⟨handler, -⟩ | ⟨notHandler, alone, owes⟩ := proper.restarts sound restarts
  · obtain ⟨c, reached, rfl⟩ := proper.report_of_restarts handler does
    rw [handler]
    refine ⟨?_, fun _ => ⟨c, reached, ?_⟩⟩
    · rw [List.countP_append, List.countP_append, reckons.replied, ← reckons.owed]
      change _ + 0 < _ + 1
      omega
    · exact (List.suffix_cons ..).trans (List.suffix_append ..)
  · obtain rfl : es = [] := (List.append_eq_singleton_iff.mp (does.symm.trans alone)).elim
      And.left fun h => by cases h.2
    have restarter : m.actor = .restarter := byOther.resolve_left notHandler
    rw [restarter] at owes
    have owed := List.length_pos_iff.mpr owes
    refine ⟨?_, fun handler => absurd handler notHandler⟩
    rw [List.map_nil, List.append_nil, reckons.replied, ← reckons.owed]
    omega

end Device

end OverTheAir
