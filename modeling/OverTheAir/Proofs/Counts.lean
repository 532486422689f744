import OverTheAir.Proofs.Chronicle

/-!
# Proofs/Counts — no count leaves its range

The session record and the partition count bytes in 32-bit words, and the length of a chunk is cast
to one.  What is checked before a chunk is written still holds when it is accounted for, whatever
the handler does in between (`Sound`), so no subtraction goes below zero, no sum wraps around and no
cast loses anything.

* `metered_run` — while it is open, the partition counts what it holds, within the size that the
  session announced whose task opened it.
* `inRange_run` — the same for the record, at every stage that reckons with it.
-/

namespace OverTheAir

/-! ## Who opened the partition -/

/-- Who opens the partition with an entry, and for an image of which size. -/
def Entry.begun? (e : Entry) : Option (Actor × UInt32) :=
  match e.effect with
  | .flash (.begin total) (.ok ()) => some (e.actor, total)
  | _ => none

/-- Who opened the partition last, and for an image of which size. -/
def Journal.lastBegun? (j : Journal) : Option (Actor × UInt32) :=
  (j.filterMap Entry.begun?).getLast?

theorem Journal.lastBegun?_append (j j' : Journal) :
    lastBegun? (j ++ j') = (lastBegun? j').or (lastBegun? j) := by
  rw [lastBegun?, List.filterMap_append, List.getLast?_append]
  rfl

/-- Only an opening of the partition changes who opened it last. -/
theorem Journal.lastBegun?_append_of_silent {j j' : Journal}
    (h : ∀ e ∈ j', e.begun? = none) : lastBegun? (j ++ j') = lastBegun? j := by
  have hnone : lastBegun? j' = none := by
    rw [lastBegun?, List.filterMap_eq_nil_iff.mpr h]
    rfl
  rw [lastBegun?_append, hnone, Option.none_or]

/-- What opens the partition is a call that succeeds. -/
theorem Entry.eq_of_begun? {e : Entry} (h : e.begun? ≠ none) :
    ∃ total, e.effect = .flash (.begin total) (.ok ()) := by
  rw [begun?] at h
  split at h
  · exact ⟨_, ‹_›⟩
  · exact absurd rfl h

namespace Device

open Journal

variable {d d' : Device} {t : SessionTask}

/-- **What the partition counts, as long as it is open**: what it holds, within the size for which
it was opened, and that is the size which the session of the task that opened it announces. -/
def Metered (d : Device) : Prop :=
  d.flash.isOpen = true → ∃ k owner total, lastBegun? d.journal = some (.task k, total) ∧
    opening? k d.journal = some (owner, total) ∧ d.flash.expected = total ∧
    d.flash.written.toNat = d.flash.image.size ∧ d.flash.image.size ≤ total.toNat

theorem metered_fresh (config : Config) (firmware : Firmware) :
    (fresh config firmware).Metered := nofun

/-- What does not open the partition and leaves it as it is, if it is open then. -/
theorem Metered.keep (h : d.Metered) {es : Journal} (journal : d'.journal = d.journal ++ es)
    (silent : ∀ e ∈ es, e.begun? = none)
    (flash : d'.flash.isOpen = true → d'.flash = d.flash) : d'.Metered := by
  intro isOpen
  have same := flash isOpen
  obtain ⟨k, owner, total, begun, opened, counts⟩ := h (same ▸ isOpen)
  rw [journal, same]
  exact ⟨k, owner, total, (lastBegun?_append_of_silent silent).trans begun,
    opening?_append opened es, counts⟩

/-- A partition that is opened starts to count. -/
theorem Metered.begins (sound : d.Sound) (chronicle : d.Chronicle) (live : d.task = some t)
    {total : UInt32} (calls : t.stage.call? d.session.total = some (.begin total))
    (holds : d'.flash.Holds total 0)
    (journal : d'.journal = d.journal ++ [⟨d.taskActor, .flash (.begin total) (.ok ())⟩]) :
    d'.Metered := by
  intro _
  obtain ⟨owner, -, opened⟩ := chronicle.current (sound.ne_idle live)
  have htotal : total = d.session.total := by
    obtain ⟨-, heq⟩ | ⟨_, _, -, heq⟩ | ⟨-, heq⟩ | ⟨-, heq⟩ | ⟨_, -, heq⟩ :=
      Stage.call?_cases calls <;> cases heq
    rfl
  refine ⟨d.sessions, owner, total, ?_, ?_, holds.expected, holds.written.trans holds.size.symm, ?_⟩
  · rw [journal, lastBegun?_append]
    rfl
  · rw [journal, htotal]
    exact opening?_append opened _
  · rw [holds.size]
    exact Nat.zero_le _

/-- A chunk that is written has been found to fit, and is counted. -/
theorem Metered.writes (h : d.Metered) (sound : d.Sound) (live : d.task = some t) {chunk : Bytes}
    (calls : t.stage.call? d.session.total = some (.write chunk))
    (answer : d.flash.call (.write chunk) = (.ok (), d'.flash))
    (journal : d'.journal = d.journal ++ [⟨d.taskActor, .flash (.write chunk) (.ok ())⟩]) :
    d'.Metered := by
  intro _
  obtain ⟨isEnd, hs⟩ := Stage.eq_writing_of_call? calls
  obtain ⟨takes, -, fits⟩ := sound.stands live hs
  obtain ⟨f', answer', holds, -⟩ := takes.holds.write fits
  obtain rfl : f' = d'.flash := (Prod.mk.inj (answer'.symm.trans answer)).2
  obtain ⟨k, owner, total, begun, opened, expected, -⟩ := h takes.holds.isOpen
  have htotal : total = d.session.total := expected.symm.trans takes.holds.expected
  refine ⟨k, owner, total, ?_, ?_, holds.expected.trans htotal.symm,
    holds.written.trans holds.size.symm, ?_⟩
  · rw [journal, lastBegun?_append_of_silent (List.forall_mem_singleton.mpr rfl), begun]
  · rw [journal]
    exact opening?_append opened _
  · rw [holds.size, htotal]
    exact fits

/-- Any other call leaves the partition as it is, or closed. -/
theorem Metered.called {m : Move} {call : FlashCall} {r : FlashResult} (h : d.Metered)
    (sound : d.Sound) (chronicle : d.Chronicle) (hc : Called d call r m d') : d'.Metered := by
  obtain ⟨live, calls, answer⟩ := hc
  rename_i t faults flash
  have silent : (∀ total, call = .begin total → r ≠ .ok ()) →
      ∀ e ∈ [(⟨d.taskActor, .flash call r⟩ : Entry)], e.begun? = none := fun hnot => by
    refine List.forall_mem_singleton.mpr (Decidable.byContradiction fun hbegun => ?_)
    obtain ⟨total, heq⟩ := Entry.eq_of_begun? hbegun
    obtain ⟨rfl, rfl⟩ := Effect.flash.inj heq
    exact hnot total rfl rfl
  obtain hcall | ⟨rfl, e, rfl⟩ := answer
  · by_cases isOpen : flash.isOpen = true
    · obtain ⟨rfl, hnot⟩ | ⟨total, rfl, rfl⟩ | ⟨chunk, rfl, rfl⟩ := Flash.call_cases hcall isOpen
      · exact h.keep rfl (silent hnot) fun _ => rfl
      · exact .begins sound chronicle live calls (Flash.holds_begin hcall).1 rfl
      · exact h.writes sound live calls hcall rfl
    · exact fun isOpen' => absurd isOpen' isOpen
  · exact h.keep rfl (silent (by simp)) fun _ => rfl

theorem Metered.moved {m : Move} (h : d.Metered) (sound : d.Sound) (chronicle : d.Chronicle)
    (hm : Moved d m d') : d'.Metered := by
  by_cases hc : ∃ call r, Called d call r m d'
  · obtain ⟨call, r, hc⟩ := hc
    exact h.called sound chronicle hc
  · obtain ⟨es, journal, -, does⟩ := hm.journal
    refine h.keep journal (fun entry hentry => ?_) fun _ => hm.flash.resolve_right hc
    obtain ⟨e, he, rfl⟩ := List.mem_map.mp hentry
    refine Decidable.byContradiction fun hbegun => ?_
    obtain ⟨total, heq⟩ := Entry.eq_of_begun? hbegun
    exact hc ⟨_, _, (does e he).flash _ _ heq⟩

/-- **While it is open, the partition counts what it holds**, within the announced size. -/
theorem metered_run (config : Config) (firmware : Firmware) (ms : List Move) :
    ((fresh config firmware).run ms).Metered :=
  chronicle_induction (sound_fresh config firmware) (chronicle_fresh config firmware)
    (metered_fresh config firmware) (fun sound chronicle h hm => h.moved sound chronicle hm) ms

/-! ## The record -/

/-- **No move dies of a count out of range.** -/
theorem Sound.not_miscounted {m : Move} (h : d.Sound) (hm : Moved d m d') {a : Actor}
    (died : ⟨a, .miscounted⟩ ∈ d'.journal) : ⟨a, .miscounted⟩ ∈ d.journal := by
  have other : ∀ {es : Journal}, ⟨a, .miscounted⟩ ∈ d.journal ++ es →
      (∀ e ∈ es, e.effect ≠ .miscounted) → ⟨a, .miscounted⟩ ∈ d.journal := fun hmem hes =>
    (List.mem_append.mp hmem).resolve_right fun hnew => hes _ hnew rfl
  have one : ∀ {b : Actor} {e : Effect}, e ≠ .miscounted → ∀ x ∈ [Entry.mk b e],
      x.effect ≠ .miscounted := fun he => List.forall_mem_singleton.mpr he
  cases hm with
  | handled hm =>
    cases hm with
    | refused => exact other died (List.forall_mem_cons.mpr ⟨nofun, one nofun⟩)
    | unopened => exact other died (List.forall_mem_cons.mpr ⟨nofun, one nofun⟩)
    | opened => exact other died (one nofun)
    | queued => exact other died (one nofun)
    | acted es _ _ effects =>
      refine other died fun x hx heq => ?_
      obtain ⟨e, he, rfl⟩ := List.mem_map.mp hx
      obtain rfl : e = .miscounted := heq
      cases effects _ he
    | _ => exact died
  | advanced live hm =>
    cases hm with
    | miscounted miscounts => exact absurd miscounts (h.not_miscounts live)
    | died | called | told | progressed | filled => exact other died (one nofun)
    | @left outcome => cases outcome <;> exact other died (one nofun)
    | _ => exact died
  | performed _ hm =>
    obtain ⟨effect, takes, does⟩ := hm
    refine other died (one ?_)
    rintro rfl
    cases does
  | _ => exact died

/-- **No task dies of a count out of range**, at any move of a run. -/
theorem not_miscounted_run (config : Config) (firmware : Firmware) (ms : List Move) (a : Actor) :
    ⟨a, .miscounted⟩ ∉ ((fresh config firmware).run ms).journal := by
  have hrun := run_induction (motive := fun d => d.Sound ∧ ⟨a, .miscounted⟩ ∉ d.journal)
    ⟨sound_fresh config firmware, List.not_mem_nil⟩
    (fun ⟨sound, h⟩ hm => ⟨sound.moved hm, fun died => h (sound.not_miscounted hm died)⟩) ms
  exact hrun.2

/-! ## Every count is in range -/

/-- **The counts at hand are in range**, wherever the device reckons with them. -/
structure InRange (d : Device) : Prop where
  /-- What was received is no more than what was announced. -/
  remaining : ∃ r, d.session.remaining? = some r ∧
    d.session.received.toNat + r.toNat = d.session.total.toNat
  /-- A chunk is found to fit when it does. -/
  weighs : ∀ t chunk isEnd, d.task = some t → t.stage = .measuring chunk isEnd →
    d.session.fits? chunk.length
      = some (decide (d.session.received.toNat + chunk.length ≤ d.session.total.toNat))
  /-- A chunk that is about to be written has a 32-bit length and is within what the partition may
  still count. -/
  writes : ∀ t chunk isEnd, d.task = some t → t.stage = .writing chunk isEnd →
    (UInt32.ofNat chunk.length).toNat = chunk.length ∧
      (d.flash.written + UInt32.ofNat chunk.length).toNat = d.flash.written.toNat + chunk.length
  /-- A chunk that was written has a 32-bit length and is no longer than what remains.  Its length
  is added to what was received, and there is an answer again to what remains then. -/
  accounts : ∀ t chunk isEnd, d.task = some t → t.stage = .written chunk isEnd →
    (UInt32.ofNat chunk.length).toNat = chunk.length ∧
      (∃ r, d.session.remaining? = some r ∧ UInt32.ofNat chunk.length ≤ r) ∧
      ∃ received r, d.session.advance? (UInt32.ofNat chunk.length)
          = some { d.session with received } ∧
        received.toNat = d.session.received.toNat + chunk.length ∧
        Session.remaining? { d.session with received } = some r ∧
        Session.nextRequest? { d.session with received } d.config.maxChunkSize
          = some (min r d.config.maxChunkSize)
  /-- So no task has died of a count, -/
  survived : ∀ a, ⟨a, .miscounted⟩ ∉ d.journal
  /-- and the partition, while it is open, counts what it holds within the announced size. -/
  metered : d.Metered

/-- A chunk that is about to be written is within what the partition may still count. -/
theorem Sound.writes (h : d.Sound) (live : d.task = some t) {chunk : Bytes} {isEnd : Bool}
    (hs : t.stage = .writing chunk isEnd) : (UInt32.ofNat chunk.length).toNat = chunk.length ∧
      (d.flash.written + UInt32.ofNat chunk.length).toNat
        = d.flash.written.toNat + chunk.length := by
  obtain ⟨takes, -, fits⟩ := h.stands live hs
  have within : d.flash.written.toNat + chunk.length ≤ d.session.total.toNat := by
    rw [takes.holds.written]
    exact fits
  exact Bytes.toNat_add_ofNat within

/-- A chunk that was written is no longer than what remains. -/
theorem Sound.remains (h : d.Sound) (live : d.task = some t) {chunk : Bytes} {isEnd : Bool}
    (hs : t.stage = .written chunk isEnd) : (UInt32.ofNat chunk.length).toNat = chunk.length ∧
      ∃ r, d.session.remaining? = some r ∧ UInt32.ofNat chunk.length ≤ r := by
  obtain ⟨-, -, fits⟩ := h.stands live hs
  have hlen := (Bytes.toNat_add_ofNat fits).1
  have hr := Session.remaining?_of_le h.counts
  have hsum := Session.remaining?_eq_some_iff.mp hr
  refine ⟨hlen, _, hr, UInt32.le_iff_toNat_le.mpr ?_⟩
  rw [hlen]
  omega

/-- **Every count is in range**, in every run. -/
theorem inRange_run (config : Config) (firmware : Firmware) (ms : List Move) :
    ((fresh config firmware).run ms).InRange := by
  have sound := sound_run config firmware ms
  have hr := Session.remaining?_of_le sound.counts
  refine ⟨⟨_, hr, Session.remaining?_eq_some_iff.mp hr⟩,
    fun t chunk isEnd _ _ => Session.fits?_eq_some sound.counts chunk.length,
    fun t chunk isEnd live hs => sound.writes live hs, fun t chunk isEnd live hs => ?_,
    not_miscounted_run config firmware ms, metered_run config firmware ms⟩
  obtain ⟨hlen, hremains⟩ := sound.remains live hs
  obtain ⟨received, advances, sum, within, requests⟩ := sound.accounts live hs
  exact ⟨hlen, hremains, received, _, advances, sum, Session.remaining?_of_le within, requests⟩

end Device

end OverTheAir
