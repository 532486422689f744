import OverTheAir.Proofs.Conduct

/-!
# Proofs/Completion — every correct upload completes

An upload is correct when the device is free, the announced size is that of the image, every chunk
is one that the device takes, the end is marked, and nothing goes wrong on the way (`Uploads`).
Then, when nobody has anything left to do, the image is in the partition and selected, and what was
said of it is what `Script` says (`Fulfilled`).

* `upload_completes` — so it is for every run.
* `upload_may_be_spoilt` — but not if the task of the session cannot be created; and the owner may
  be told in between how an earlier session of its ended.
-/

namespace OverTheAir

namespace Device

open Journal

/-- The frames to a client in a run, whoever sends them. -/
def framesIn (d : Device) (c : Client) (ms : List Move) : List Response :=
  framesTo c (((d.run ms).journal.drop d.journal.length).map Entry.effect)

/-- A correct upload to a device that is free: the owner asks for a session, and hands over the
pieces of its image; nothing goes wrong on the way, and in the end nobody has anything left to
do. -/
structure Uploads (d : Device) (u : Upload) (f : Bytes) (ms : List Move) : Prop where
  idle : d.session.state = .idle
  notPending : d.pendingReboot = false
  maxChunk : d.config.maxChunkSize = u.maxChunk
  asks : ∃ timeoutMs, Request.decode f = .ok (.start u.total timeoutMs u.flags)
  passes : u.flags.needsVersionCheck = true → ∀ chunk ∈ u.chunks.head?, u.Passes d.firmware chunk
  delivers : ∃ apart, Delivers u.owner (d.move (.frame u.owner f)) (u.pieces apart) ms
  rest : ∀ a, (d.run (.frame u.owner f :: ms)).step a = none

/-- The update is complete, and the task of its session has done and said what it is to. -/
structure Fulfilled (d : Device) (u : Upload) (k : Nat) : Prop where
  session : d.session = Session.idle
  unbound : d.registry.owner = none
  image : d.flash.image.toList = u.image
  selected : d.flash.bootSelected = true
  pending : d.pendingReboot = true
  script : (deeds (.task k) d.journal).map Effect.reaching = u.script
  events : eventsOf (deeds (.task k) d.journal) = u.events
  frames : framesTo u.owner (deeds (.task k) d.journal) = u.frames

variable {d : Device} {u : Upload} {k : Nat} {f : Bytes} {ms : List Move}
  {left : List (Bytes × Bool)} {a b : Actor} {c : Client}

/-! ## The beginning -/

/-- **A device that is free opens the session that is asked for**, if its task can be created. -/
theorem Sound.opens {total : UInt32} {timeoutMs : UInt16} {flags : SessionFlags} (sound : d.Sound)
    (idle : d.session.state = .idle) (notPending : d.pendingReboot = false)
    (spawns : d.spawnFails = false) (pos : total ≠ 0)
    (decodes : Request.decode f = .ok (.start total timeoutMs flags)) :
    d.move (.frame c f) = { d with
      registry := ⟨some c⟩
      session := Session.opened total (d.config.timeoutFor timeoutMs) flags
      inbox := some []
      sessions := d.sessions + 1
      task := some ⟨.launched, false, !flags.needsVersionCheck⟩
      journal := d.journal ++
        [Effect.event (.sessionStarted c total)].map (Entry.mk .handler) } := by
  have resting := sound.resting idle
  rw [move_of_start decodes]
  simp [start, Registry.isBound, resting.unbound, Session.isIdle, idle, resting.parked, notPending,
    pos, Registry.bind, spawns, emit, note]

/-- The session that is opened is that of the upload, with the whole script ahead. -/
theorem Uploads.conducts (h : d.Uploads u f ms) (sound : d.Sound) (chronicle : d.Chronicle)
    (spawns : d.spawnFails = false) (apart : Bool) :
    d.does (.frame u.owner f) = [.event (.sessionStarted u.owner u.total)] ∧
      (d.move (.frame u.owner f)).errands = d.errands ∧
      (d.move (.frame u.owner f)).Conducts u (d.sessions + 1) (u.pieces apart) := by
  obtain ⟨timeoutMs, decodes⟩ := h.asks
  have pos : u.total ≠ 0 := fun zero => by
    have pos := u.pos
    simp [zero] at pos
  have move := sound.opens (c := u.owner) h.idle h.notPending spawns pos decodes
  refine ⟨does_eq (congrArg Device.journal move), (congrArg Device.errands move :), ?_⟩
  rw [move]
  have chunks : chunksOf (u.pieces apart) = u.chunks := u.chunksOf_pieces apart
  refine .underway ⟨rfl, ⟨rfl, rfl, rfl, rfl, h.maxChunk, rfl⟩, ?_, u.splits_pieces apart, trivial,
    ?_⟩
  · have nothing : deeds (.task (d.sessions + 1)) (d.journal ++
        [Effect.event (.sessionStarted u.owner u.total)].map (Entry.mk .handler)) = [] := by
      rw [deeds_append_of_ne (a := .task (d.sessions + 1)) (b := .handler) nofun]
      exact chronicle.future _ (Nat.lt_succ_self _)
    change (deeds (.task (d.sessions + 1)) (d.journal ++ _)).map _ ++
      u.ahead 0 (chunksOf (u.pieces apart)) .launched = _
    rw [nothing, chunks]
    rfl
  · change Vetted u d.firmware _ (chunksOf (u.pieces apart))
    rw [chunks]
    cases needs : u.flags.needsVersionCheck with
    | false => exact .inl rfl
    | true => exact .inr (h.passes needs)

/-! ## The end -/

/-- With nobody left to do anything, the session is over: a task that waits for a message waits for
a piece that is still to be handed over. -/
theorem Conducts.concludes (h : d.Conducts u k []) (rest : ∀ a, d.step a = none) :
    d.Concluded u k := by
  cases h with
  | concluded _ h => exact h
  | underway h =>
    obtain ⟨waited, hs, empty⟩ := awaiting_of_step h.live (rest _)
    obtain ⟨others, -, splits⟩ := (h.stage hs).1
    rw [empty] at splits
    exact (not_splits_nil _ splits).elim

theorem Concluded.duties (h : d.Concluded u k) (sound : d.Sound) (rest : ∀ a, d.step a = none)
    (a : Actor) : dutiesOf a d.errands = [] := by
  have still := rest a
  rw [step, (sound.resting h.idle).noTask] at still
  exact dutiesOf_eq_nil_iff.mpr (Option.map_eq_none_iff.mp still)

/-- **What is concluded, with no duty left, is as it is to be.** -/
theorem Concluded.fulfilled (h : d.Concluded u k) (sound : d.Sound)
    (rest : ∀ a, d.step a = none) : d.Fulfilled u k := by
  have script := h.script
  rw [h.duties sound rest, List.map_nil, List.append_nil] at script
  refine ⟨(sound.resting h.idle).session, (sound.resting h.idle).unbound, h.image, h.selected,
    h.pending, script, ?_, ?_⟩
  · rw [← eventsOf_reaching, script, u.events_script]
  · rw [← framesTo_reaching, script, u.frames_script]

/-! ## All that is sent to a client -/

/-- If only one actor speaks to a client, what it says is all that is said. -/
theorem framesTo_of_others {j : Journal} (silent : ∀ b, b ≠ a → framesTo c (deeds b j) = []) :
    framesTo c (j.map Entry.effect) = framesTo c (deeds a j) := by
  induction j with
  | nil => rfl
  | cons e j ih =>
    have hcons : ∀ b, deeds b (e :: j) = (if e.actor = b then [e.effect] else []) ++ deeds b j :=
      fun b => by rw [deeds_cons]; split <;> rfl
    have htail : ∀ b, b ≠ a → framesTo c (deeds b j) = [] := fun b hb => by
      have hall := silent b hb
      rw [hcons, framesTo_append] at hall
      exact (List.append_eq_nil_iff.mp hall).2
    rw [List.map_cons, ← List.singleton_append, framesTo_append, ih htail, hcons, framesTo_append]
    refine congrArg (· ++ _) ?_
    split
    · rfl
    · next other =>
      have hall := silent e.actor other
      rw [hcons, if_pos rfl, framesTo_append] at hall
      exact (List.append_eq_nil_iff.mp hall).1

theorem framesIn_of_others (silent : ∀ b, b ≠ a → framesTo c (d.doings b ms) = []) :
    d.framesIn c ms = framesTo c (d.doings a ms) := by
  obtain ⟨j, journal, hdeeds⟩ := d.journal_run ms
  rw [framesIn, journal, List.drop_left, ← hdeeds]
  exact framesTo_of_others fun b hb => (hdeeds b).symm ▸ silent b hb

/-! ## Every correct upload -/

/-- **Every correct upload completes.**  Take a device that is free, and a client that asks for a
session of the size of its image and hands over the chunks in order, the end marked in the last one
or in an empty piece behind it.  The task of the session may be paused and resumed at any call, and
frames of other clients may be refused meanwhile.  If the task can be created, no mishap strikes its
calls, the inbox has room for every piece, the task does not wait for too long, and the version
policy lets the first chunk pass, then, once nobody has anything left to do, no session is on, the
partition holds the image and is selected, and the update waits for a reboot.  The events of the
session are its start, one progress per chunk and its completion, and its frames to the owner are
`u.frames`.  What else the owner is sent, the tasks of earlier sessions had still to say when the
session was opened; if that was nothing, `u.frames` is all. -/
theorem upload_completes (config : Config) (firmware : Firmware) (past : List Move) (u : Upload)
    (f : Bytes) (ms : List Move) :
    let d₀ := (fresh config firmware).run past
    let k := d₀.sessions + 1
    d₀.Uploads u f ms → d₀.spawnFails = false →
      d₀.does (.frame u.owner f) = [.event (.sessionStarted u.owner u.total)] ∧
      (d₀.run (.frame u.owner f :: ms)).Fulfilled u k ∧
      (∀ a, a ≠ .task k →
        framesTo u.owner (d₀.doings a (.frame u.owner f :: ms)) = d₀.unsentBy a u.owner) ∧
      ((∀ a, d₀.unsentBy a u.owner = []) →
        d₀.framesIn u.owner (.frame u.owner f :: ms) = u.frames) := by
  intro d₀ k uploads spawns
  obtain ⟨sound₀, chronicle₀⟩ : d₀.Sound ∧ d₀.Chronicle := chronicle_run config firmware past
  clear_value d₀
  obtain ⟨apart, delivers⟩ := uploads.delivers
  obtain ⟨opens, errands, conducts⟩ := uploads.conducts sound₀ chronicle₀ spawns apart
  have hm := d₀.moved (.frame u.owner f)
  have sound := sound₀.moved hm
  have chronicle := chronicle₀.moved sound₀ hm
  obtain ⟨ends, others⟩ := conducts.run sound chronicle (u.short_pieces apart) delivers
  have concluded := ends.concludes uploads.rest
  have fulfilled := concluded.fulfilled (sound.run ms) uploads.rest
  have said : ∀ a, a ≠ .task k →
      framesTo u.owner (d₀.doings a (.frame u.owner f :: ms)) = d₀.unsentBy a u.owner := by
    intro a ha
    have rest := others a ha
    rw [unsentBy, concluded.duties (sound.run ms) uploads.rest, List.filterMap_nil, List.append_nil,
      unsentBy, errands] at rest
    rw [doings, framesTo_append, rest, opens]
    split <;> rfl
  refine ⟨opens, fulfilled, said, fun nothing => ?_⟩
  have frames : framesTo u.owner (deeds (.task k) (d₀.run (.frame u.owner f :: ms)).journal)
      = u.frames := fulfilled.frames
  rw [deeds_run, chronicle₀.future k (Nat.lt_succ_self _), List.nil_append] at frames
  rw [← frames]
  exact framesIn_of_others fun a ha => (said a ha).trans (nothing a)

/-! ## Some uploads -/

/-- The steps of one actor, as long as nothing goes wrong. -/
theorem delivers_steps {owner : Client} {n : Nat}
    (free : ∀ i < n, (d.run (List.replicate i (.step a))).Spared ∧
      (d.run (List.replicate i (.step a))).InTime)
    (others : Delivers owner (d.run (List.replicate n (.step a))) left ms) :
    Delivers owner d left (List.replicate n (.step a) ++ ms) := by
  induction n generalizing d with
  | zero => exact others
  | succ n ih =>
    have now := free 0 (Nat.succ_pos n)
    rw [List.replicate_succ, List.cons_append]
    exact .cons (.steps (fun _ => now.1) fun _ => now.2)
      (ih (fun i hi => free (i + 1) (Nat.succ_lt_succ hi)) others)

/-- Nobody has a step to take if there is nobody. -/
theorem still_of_actors (none : d.actors = []) (a : Actor) : d.step a = Option.none :=
  (step_eq_none_of_not_mem_actors (by simp [none])).1

/-- An image of three bytes, in two chunks. -/
def threeBytes : Upload where
  owner := ⟨1, 1⟩
  total := 3
  maxChunk := Config.default.maxChunkSize
  flags := .none
  chunks := [[7, 8], [9]]
  short := by decide
  size := by decide
  pos := by decide
  room := by decide

/-- While the task is held in the call that opens the partition, both chunks are queued, another
client is refused, and the end is marked in a piece of its own. -/
def heldUpload : List Move :=
  .step (.task 1) :: .frame ⟨1, 1⟩ (Request.state false [7, 8]).encode ::
    .frame ⟨2, 2⟩ (Request.start 1 0 .none).encode ::
    .frame ⟨1, 1⟩ (Request.state false [9]).encode ::
    .frame ⟨1, 1⟩ (Request.state true []).encode :: (List.replicate 24 (.step (.task 1)) ++ [])

theorem upload_completes_heldUpload :
    let d₀ := (fresh .default .unknown).run []
    let start := (Request.start 3 0 .none).encode
    d₀.Uploads threeBytes start heldUpload ∧ d₀.spawnFails = false ∧
      (d₀.run (.frame ⟨1, 1⟩ start :: heldUpload)).Fulfilled threeBytes 1 := by
  intro d₀ start
  have delivers : Delivers ⟨1, 1⟩ (d₀.move (.frame ⟨1, 1⟩ start)) (threeBytes.pieces true)
      heldUpload := by
    refine .cons (.steps (by decide) (by decide)) (.cons (.hands (by decide) (by decide)) ?_)
    refine .cons (@Furthers.refused _ _ _ _ ⟨2, 2⟩ .alreadyRunning _ (by decide) (by decide)) ?_
    refine .cons (.hands (by decide) (by decide)) (.cons (.hands (by decide) (by decide)) ?_)
    exact delivers_steps (by decide) .nil
  have uploads : d₀.Uploads threeBytes start heldUpload :=
    ⟨rfl, rfl, rfl, ⟨0, by decide⟩, nofun, ⟨true, delivers⟩, still_of_actors (by decide)⟩
  exact ⟨uploads, rfl,
    (upload_completes .default .unknown [] threeBytes start heldUpload uploads rfl).2.1⟩

/-- An image of two bytes, in one chunk. -/
def twoBytes : Upload where
  owner := ⟨1, 1⟩
  total := 2
  maxChunk := Config.default.maxChunkSize
  flags := .none
  chunks := [[7, 8]]
  short := by decide
  size := by decide
  pos := by decide
  room := by decide

/-- The task of a session takes four steps, gets the two bytes, and takes `n` more. -/
def uploading (k n : Nat) : List Move :=
  List.replicate 4 (.step (.task k)) ++ .frame ⟨1, 1⟩ (Request.state true [7, 8]).encode ::
    List.replicate n (.step (.task k))

/-- **A correct upload may still be spoilt**, even under a valid configuration.  An earlier session of
the owner has been given up, and its task says so only now, behind the frames of the upload: the
owner is not sent `u.frames` alone.  And where the task of the session cannot be created, nothing is
completed. -/
theorem upload_may_be_spoilt :
    (¬∀ (config : Config) (firmware : Firmware) (past : List Move) (u : Upload) (f : Bytes)
      (ms : List Move), config.validate = .ok () →
      let d₀ := (fresh config firmware).run past
      d₀.Uploads u f ms → d₀.spawnFails = false →
        d₀.framesIn u.owner (.frame u.owner f :: ms) = u.frames) ∧
    ¬∀ (config : Config) (firmware : Firmware) (past : List Move) (u : Upload) (f : Bytes)
      (ms : List Move), config.validate = .ok () →
      let d₀ := (fresh config firmware).run past
      d₀.Uploads u f ms → (d₀.run (.frame u.owner f :: ms)).flash.bootSelected = true := by
  have valid : Config.default.validate = .ok () := Config.default.validate_eq_ok_iff.mpr (by decide)
  have asks : ∃ timeoutMs, Request.decode (Request.start 2 0 .none).encode
      = .ok (.start twoBytes.total timeoutMs twoBytes.flags) := ⟨0, by decide⟩
  refine ⟨fun alone => ?_, fun completes => ?_⟩
  · let past := giveUp ++ List.replicate 4 (.step (.task 1))
    let ms := uploading 2 12 ++ [.step (.task 1)]
    let d₀ := (fresh .default .unknown).run past
    have delivers : Delivers ⟨1, 1⟩ (d₀.move (.frame ⟨1, 1⟩ (Request.start 2 0 .none).encode))
        (twoBytes.pieces false) ms := by
      rw [show ms = List.replicate 4 (.step (.task 2)) ++
        .frame ⟨1, 1⟩ (Request.state true [7, 8]).encode ::
          (List.replicate 12 (.step (.task 2)) ++ [.step (.task 1)]) from rfl]
      refine delivers_steps (by decide) (.cons (.hands (by decide) (by decide)) ?_)
      exact delivers_steps (by decide) (.cons (.steps (by decide) (by decide)) .nil)
    have uploads : d₀.Uploads twoBytes (Request.start 2 0 .none).encode ms :=
      ⟨by decide, by decide, rfl, asks, nofun, ⟨false, delivers⟩, still_of_actors (by decide)⟩
    have frames := alone .default .unknown past twoBytes _ ms valid uploads (by decide)
    have late : d₀.framesIn ⟨1, 1⟩ (.frame ⟨1, 1⟩ (Request.start 2 0 .none).encode :: ms)
        = twoBytes.frames ++ [.abort .userRequest] := by decide
    cases frames.symm.trans late
  · let ms : List Move := [.frame ⟨1, 1⟩ (Request.state true [7, 8]).encode]
    let d₀ := (fresh .default .unknown).run [.failSpawn]
    have delivers : Delivers ⟨1, 1⟩ (d₀.move (.frame ⟨1, 1⟩ (Request.start 2 0 .none).encode))
        (twoBytes.pieces false) ms := .cons (.hands (by decide) (by decide)) .nil
    have uploads : d₀.Uploads twoBytes (Request.start 2 0 .none).encode ms :=
      ⟨rfl, rfl, rfl, asks, nofun, ⟨false, delivers⟩, still_of_actors (by decide)⟩
    have selected := completes .default .unknown [.failSpawn] twoBytes _ ms valid uploads
    have blank : (d₀.run (.frame ⟨1, 1⟩ (Request.start 2 0 .none).encode :: ms)).flash.bootSelected
        = false := by decide
    cases selected.symm.trans blank

end Device

end OverTheAir
