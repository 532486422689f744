import OverTheAir.Proofs.Doings
import OverTheAir.Proofs.Unread

/-!
# Proofs/Refusals — what is refused leaves no trace but its refusal

A frame that is refused adds to the journal one event and one frame to its sender, and changes
nothing else (`refused_of_rejected`); a client that leaves without owning the session changes
nothing at all.  Since nobody reads the journal (`move_after`), such moves can be taken out of a run
(`Pruned`): the device ends up the same, and its journal lacks just what was said about the moves
that are gone (`Journal.Clears`).
-/

namespace OverTheAir

/-- The second journal is the first one without some refusals, which are listed by client and
code. -/
inductive Journal.Clears : List (Client × Refusal) → Journal → Journal → Prop where
  | nil : Clears [] [] []
  | keep {gone j j'} (e : Entry) (rest : Clears gone j j') : Clears gone (e :: j) (e :: j')
  | drop {gone j j'} (c : Client) (code : Refusal) (reached : Bool) (rest : Clears gone j j') :
      Clears ((c, code) :: gone) ((refusal c code reached).map (Entry.mk .handler) ++ j) j'

theorem Journal.Clears.append {gone : List (Client × Refusal)} {j j' : Journal}
    (h : Clears gone j j') (front : Journal) : Clears gone (front ++ j) (front ++ j') := by
  induction front with
  | nil => exact h
  | cons e front ih => exact .keep e ih

namespace Device

variable {d : Device} {c : Client} {f : Bytes} {code : Refusal}

/-! ## A frame that is refused -/

/-- **A frame that is refused is answered, and changes nothing.** -/
theorem refused_of_rejected {c' : Client}
    (rejects : .event (.rejected c' code) ∈ d.does (.frame c f)) :
    c' = c ∧ (∃ reached, d.does (.frame c f) = refusal c code reached) ∧
      (d.move (.frame c f)).bare = d.bare := by
  have hm : Handled d (.frame c f) (d.move (.frame c f)) := handled_receive c f
  generalize hd' : d.move (.frame c f) = d' at hm
  -- what else the handler does is no refusal
  have others : ∀ es : List Effect, d'.journal = d.journal ++ es.map (Entry.mk .handler) →
      .event (.rejected c' code) ∈ es := by
    intro es hjournal
    rwa [does_eq (hd' ▸ hjournal)] at rejects
  cases hm with
  | refused code' reached =>
    have hdoes : d.does (.frame c f) = refusal c code' reached :=
      does_eq (a := .handler) (congrArg Device.journal hd')
    rw [hdoes] at rejects ⊢
    obtain ⟨rfl, rfl⟩ : c' = c ∧ code = code' := by simpa [refusal] using rejects
    exact ⟨rfl, ⟨reached, rfl⟩, rfl⟩
  | opened => simpa using others [.event (.sessionStarted _ _)] rfl
  | unopened reached =>
    simpa using others [.event (.aborted .beginFailed 0), .sent _ (.abort .beginFailed) _] rfl
  | queued => simpa using others [.queued _ _] rfl
  | recorded => simpa using others [] (List.append_nil _).symm
  | acted es decodes unbound effects => simpa [Effect.isOfAction] using effects _ (others es rfl)

/-- **While a session is on, a frame from anyone but its owner is refused**, whatever it says. -/
theorem rejects_stranger {owner : Client} (bound : d.registry.owner = some owner) (ne : c ≠ owner)
    (f : Bytes) : ∃ code, .event (.rejected c code) ∈ d.does (.frame c f) := by
  have isBound : d.registry.isBound = true := by rw [Registry.isBound, bound]; rfl
  have notOwner : d.registry.verify c = false := by
    simpa [Registry.verify, bound] using fun h => ne h.symm
  have unauthorized : d.authorize c = .error .wrongUser := by rw [authorize, isBound, notOwner]; rfl
  suffices ∃ code, d.receive c f = d.refuse c code by
    obtain ⟨code, h⟩ := this
    exact ⟨code, does_of_refuse h ▸ List.mem_cons_self⟩
  rw [receive]
  split
  · exact ⟨.alreadyRunning, by rw [start, isBound]; rfl⟩
  · exact ⟨.wrongUser, by rw [data, unauthorized]⟩
  · exact ⟨.wrongUser, by rw [abort, unauthorized]⟩
  · exact ⟨.wrongUser, by rw [act, isBound, notOwner]; rfl⟩
  · exact ⟨_, rfl⟩

/-- A client that leaves without owning the session changes nothing. -/
theorem move_of_stranger (notOwner : d.registry.owner ≠ some c) : d.move (.disconnect c) = d := by
  have unverified : d.registry.verify c = false := by simpa [Registry.verify] using notOwner
  change d.disconnect c = d
  rw [disconnect, unverified]
  rfl

/-! ## Runs without what is refused -/

theorem run_after (j : Journal) (ms : List Move) : (d.after j).run ms = (d.run ms).after j := by
  induction ms generalizing d with
  | nil => rfl
  | cons m ms ih => rw [run_cons, move_after, ih, run_cons]

/-- A move makes of a device without a journal what it makes of it with one, and writes down what is
done. -/
theorem move_bare (d : Device) (m : Move) :
    d.bare.move m = (d.move m).bare.after ((d.does m).map (Entry.mk m.actor)) := by
  have hmove : d.move m = (d.bare.move m).after d.journal := by rw [← move_after, bare_after]
  have hjournal : (d.bare.move m).journal = (d.does m).map (Entry.mk m.actor) := by
    refine List.append_cancel_left (?_ : d.journal ++ _ = d.journal ++ _)
    rw [← journal_move, hmove]
    rfl
  rw [← hjournal, hmove]
  exact (bare_after (d.bare.move m)).symm

theorem run_bare_cons (d : Device) (m : Move) (ms : List Move) : d.bare.run (m :: ms)
    = ((d.move m).bare.run ms).after ((d.does m).map (Entry.mk m.actor)) := by
  rw [run_cons, move_bare, run_after]

/-- Some moves are taken out of a run: frames that are refused, and clients that leave without
owning the session.  What was refused is listed. -/
inductive Pruned : Device → List Move → List Move → List (Client × Refusal) → Prop where
  | nil (d : Device) : Pruned d [] [] []
  | keep {d ms kept gone} (m : Move) (rest : Pruned (d.move m) ms kept gone) :
      Pruned d (m :: ms) (m :: kept) gone
  | refused {d c f c' code ms kept gone}
      (rejects : .event (.rejected c' code) ∈ d.does (.frame c f))
      (rest : Pruned (d.move (.frame c f)) ms kept gone) :
      Pruned d (.frame c f :: ms) kept ((c', code) :: gone)
  | stranger {d c ms kept gone} (notOwner : d.registry.owner ≠ some c)
      (rest : Pruned (d.move (.disconnect c)) ms kept gone) :
      Pruned d (.disconnect c :: ms) kept gone

/-- **A pruned run comes to the same**, and its journal lacks only what was said of the frames that
are gone. -/
theorem Pruned.run {ms kept : List Move} {gone : List (Client × Refusal)}
    (h : d.Pruned ms kept gone) : (d.bare.run ms).bare = (d.bare.run kept).bare ∧
      Journal.Clears gone (d.bare.run ms).journal (d.bare.run kept).journal := by
  induction h with
  | nil => exact ⟨rfl, .nil⟩
  | keep m rest ih =>
    rw [run_bare_cons, run_bare_cons]
    exact ⟨ih.1, ih.2.append _⟩
  | refused rejects rest ih =>
    obtain ⟨rfl, ⟨reached, hdoes⟩, hbare⟩ := refused_of_rejected rejects
    rw [run_bare_cons, hdoes]
    rw [hbare] at ih ⊢
    exact ⟨ih.1, .drop _ _ reached ih.2⟩
  | stranger notOwner rest ih =>
    have hmove := move_of_stranger notOwner
    have hdoes := does_eq_nil (congrArg Device.journal hmove)
    rw [run_bare_cons, hdoes, hmove]
    rw [hmove] at ih
    exact ih

/-- **What is refused does not interfere.**  While a session is on, every frame from anyone but its
owner is refused.  Any frame that is refused, whoever sent it, is answered with the one event and
the one frame that say so, and changes nothing.  So a run without some of these frames, and without
some clients that leave while they do not own the session, ends in the same device, with the same
journal but for those refusals. -/
theorem refusals_do_not_interfere (config : Config) (firmware : Firmware) (ms : List Move) :
    let d := (fresh config firmware).run ms
    (∀ owner, d.registry.owner = some owner → ∀ c, c ≠ owner → ∀ f,
      ∃ code, .event (.rejected c code) ∈ d.does (.frame c f)) ∧
    (∀ c f c' code, .event (.rejected c' code) ∈ d.does (.frame c f) →
      c' = c ∧ (∃ reached, d.does (.frame c f) = refusal c code reached) ∧
      (d.move (.frame c f)).bare = d.bare) ∧
    ∀ kept gone, (fresh config firmware).Pruned ms kept gone →
      d.bare = ((fresh config firmware).run kept).bare ∧
      Journal.Clears gone d.journal ((fresh config firmware).run kept).journal :=
  ⟨fun _ bound _ ne f => rejects_stranger bound ne f, fun _ _ _ _ rejects =>
    refused_of_rejected rejects, fun _ _ pruned => pruned.run⟩

/-- A second client asks for a session while the first one has it, tries to end that one, and
leaves. -/
theorem refusals_do_not_interfere_intruder :
    let ask (c : Client) := Move.frame c (Request.start 2 0 .none).encode
    let d := fresh .default .unknown
    let crowded := [ask ⟨1, 1⟩, ask ⟨2, 2⟩, .step (.task 1), .frame ⟨2, 2⟩ Request.abort.encode,
      .disconnect ⟨2, 2⟩, .step (.task 1)]
    let alone := [ask ⟨1, 1⟩, .step (.task 1), .step (.task 1)]
    (d.run crowded).bare = (d.run alone).bare ∧
      Journal.Clears [(⟨2, 2⟩, .alreadyRunning), (⟨2, 2⟩, .wrongUser)] (d.run crowded).journal
        (d.run alone).journal := by
  intro ask d crowded alone
  have pruned : d.Pruned crowded alone [(⟨2, 2⟩, .alreadyRunning), (⟨2, 2⟩, .wrongUser)] :=
    .keep _ <| .refused (by decide) <| .keep _ <|
      .refused (by decide) <| .stranger (by decide) <| .keep _ <| .nil _
  exact (refusals_do_not_interfere .default .unknown crowded).2.2 alone _ pruned

end Device

end OverTheAir
