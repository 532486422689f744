import OverTheAir.Proofs.Chronicle

/-!
# Proofs/Grammar — in which order a device tells of what happens

Apart from refusals, the events of a device are **items**, one behind the other: an action that was
performed, a session that could not be opened, and a session from its start to its verdict, with the
counts of its progress in between.  The last item may be a session that is still on.

Handler and task tell their events in critical sections of their own, and a count is told later than
it is taken.  What the last count told so far has to do with the record is said by the stage of the
task (`Stage.Tallies`).

* `narrated_run` — all items are closed at rest, and all but the last one in a session.
* `event_grammar` — so the events begin a sequence of items.
-/

namespace OverTheAir

/-! ## Items -/

/-- What an effect tells the surroundings, a refusal apart. -/
def Effect.news? : Effect → Option Event
  | .event (.rejected _ _) => none
  | .event e => some e
  | _ => none

/-- The events of a journal but for refusals, oldest first. -/
def Journal.news (j : Journal) : List Event := j.filterMap fun e => e.effect.news?

/-- The last count, or 0 when there was none. -/
def latest (counts : List UInt32) : UInt32 := counts.getLast?.getD 0

/-- The start of a session and the progress told of it. -/
def bracket (owner : Client) (total : UInt32) (counts : List UInt32) : List Event :=
  .sessionStarted owner total :: counts.map (Event.progress · total)

/-- The counts of a session: each is greater than the one before, and none is 0 or greater than what
was announced. -/
structure Rising (total : UInt32) (counts : List UInt32) : Prop where
  increasing : counts.Pairwise (· < ·)
  range : ∀ n ∈ counts, 1 ≤ n ∧ n ≤ total

/-- What a device tells of in one piece. -/
inductive Item where
  | performed (action : Action) (result : Int32)
  /-- The task of a session cannot be created. -/
  | unopened
  | session (owner : Client) (total : UInt32) (counts : List UInt32) (outcome : Outcome)

namespace Item

def events : Item → List Event
  | performed action result => [.actionPerformed action result]
  | unopened => [.aborted .beginFailed 0]
  | session owner total counts outcome =>
    bracket owner total counts ++ [outcome.verdict total (latest counts)]

/-- The counts of a session rise, up to the announced size if it is completed. -/
def WellFormed : Item → Prop
  | session _ total counts outcome =>
    Rising total counts ∧ (outcome = .completed → counts.getLast? = some total)
  | _ => True

end Item

/-! ## Counts that rise -/

@[simp] theorem latest_concat (counts : List UInt32) (n : UInt32) :
    latest (counts ++ [n]) = n := by
  simp [latest]

theorem bracket_concat (owner : Client) (total n : UInt32) (counts : List UInt32) :
    bracket owner total (counts ++ [n]) = bracket owner total counts ++ [.progress n total] := by
  simp [bracket]

namespace Rising

variable {total n : UInt32} {counts : List UInt32}

theorem nil (total : UInt32) : Rising total [] := ⟨.nil, nofun⟩

theorem concat (h : Rising total counts) (below : ∀ c ∈ counts, c < n) (pos : 1 ≤ n)
    (within : n ≤ total) : Rising total (counts ++ [n]) where
  increasing := List.pairwise_append.mpr ⟨h.increasing, List.pairwise_singleton _ _,
    fun c hc _ hn => List.mem_singleton.mp hn ▸ below c hc⟩
  range c hc := (List.mem_append.mp hc).elim (h.range c) fun hn =>
    List.mem_singleton.mp hn ▸ ⟨pos, within⟩

/-- The last count is the greatest. -/
theorem le_latest (h : Rising total counts) : ∀ c ∈ counts, c ≤ latest counts := by
  intro c hc
  obtain rfl | ⟨init, n, rfl⟩ := List.eq_nil_or_concat counts
  · cases hc
  · rw [List.concat_eq_append] at h hc ⊢
    rw [latest_concat]
    rcases List.mem_append.mp hc with hc | hc
    · exact UInt32.le_of_lt
        ((List.pairwise_append.mp h.increasing).2.2 c hc n (List.mem_singleton_self n))
    · exact UInt32.le_of_eq (List.mem_singleton.mp hc)

/-- A last count that is not 0 has been told. -/
theorem getLast?_eq_some (h : latest counts = n) (pos : n ≠ 0) : counts.getLast? = some n := by
  rw [latest] at h
  cases hlast : counts.getLast? with
  | none => exact absurd (hlast ▸ h).symm pos
  | some m => rw [← h, hlast, Option.getD_some]

end Rising

/-! ## News -/

namespace Journal

@[simp] theorem news_append (j j' : Journal) : news (j ++ j') = news j ++ news j' :=
  List.filterMap_append

theorem news_map (a : Actor) (es : List Effect) :
    news (es.map (Entry.mk a)) = es.filterMap Effect.news? := by
  rw [news, List.filterMap_map]
  rfl

/-- What is no news adds none. -/
theorem news_append_of_silent {es : List Effect} (h : ∀ e ∈ es, e.news? = none) (j : Journal)
    (a : Actor) : news (j ++ es.map (Entry.mk a)) = news j := by
  rw [news_append, news_map, List.filterMap_eq_nil_iff.mpr h, List.append_nil]

end Journal

/-- What the handler tells of an action is that it was performed. -/
theorem Effect.news?_of_isOfAction {e : Effect} (h : e.isOfAction = true) :
    e.news? = none ∨ ∃ action result, e.news? = some (.actionPerformed action result) := by
  cases e with
  | event event =>
    cases event with
    | actionPerformed action result => exact .inr ⟨action, result, rfl⟩
    | _ => cases h
  | _ => exact .inl rfl

theorem Effect.news?_of_duty? {e : Effect} {duty : Duty} (h : e.duty? = some duty) :
    e.news? = none := by
  cases e <;> first | rfl | cases h

/-- The news of an action are items of their own. -/
theorem exists_performed {es : List Effect} (h : ∀ e ∈ es, e.isOfAction = true) :
    ∃ items : List Item, (∀ i ∈ items, i.WellFormed) ∧
      es.filterMap Effect.news? = items.flatMap Item.events := by
  induction es with
  | nil => exact ⟨[], nofun, rfl⟩
  | cons e es ih =>
    obtain ⟨here, rest⟩ := List.forall_mem_cons.mp h
    obtain ⟨items, wf, news⟩ := ih rest
    rcases Effect.news?_of_isOfAction here with none | ⟨action, result, some⟩
    · exact ⟨items, wf, by rw [List.filterMap_cons_none none, news]⟩
    · refine ⟨.performed action result :: items, List.forall_mem_cons.mpr ⟨trivial, wf⟩, ?_⟩
      rw [List.filterMap_cons_some some, news]
      rfl

/-- How far the counts that were told of a session have come when `received` bytes are there.  A
count that was just taken is still to be told. -/
def Stage.Tallies (received : UInt32) (counts : List UInt32) : Stage → Prop
  | .counted n _ _ => ∀ c ∈ counts, c < n
  | _ => latest counts = received

namespace Stage

variable {s : Stage} {received total : UInt32} {counts : List UInt32}

/-- Everywhere else what was counted has been told. -/
theorem tallies_iff (notCounted : ∀ n requested isEnd, s ≠ .counted n requested isEnd) :
    s.Tallies received counts ↔ latest counts = received := by
  cases s with
  | counted n requested isEnd => exact absurd rfl (notCounted n requested isEnd)
  | _ => exact Iff.rfl

theorem tallies_next (h : latest counts = received) (isEnd : Bool) :
    (next isEnd).Tallies received counts := by
  cases isEnd <;> exact h

/-- A call that is answered counts nothing. -/
theorem Tallies.after {call : FlashCall} (h : s.Tallies received counts)
    (calls : s.call? total = some call) (r : FlashResult) :
    (s.after r).Tallies received counts := by
  obtain ⟨rfl, -⟩ | ⟨chunk, isEnd, rfl, -⟩ | ⟨rfl, -⟩ | ⟨rfl, -⟩ | ⟨reason, rfl, -⟩ :=
    call?_cases calls <;> rcases r with e | ⟨⟩ <;> exact h

end Stage

namespace Device

open Journal

variable {d d' : Device} {t : SessionTask}

/-- **The events are items**, and a session that is on is the beginning of one. -/
inductive Narrated (d : Device) : Prop where
  | between (items : List Item) (wellFormed : ∀ i ∈ items, i.WellFormed)
      (idle : d.session.state = .idle) (news : d.journal.news = items.flatMap Item.events)
  | within (items : List Item) (wellFormed : ∀ i ∈ items, i.WellFormed) (owner : Client)
      (counts : List UInt32) (busy : d.session.state ≠ .idle)
      (bound : d.registry.owner = some owner) (rising : Rising d.session.total counts)
      (news : d.journal.news
        = items.flatMap Item.events ++ bracket owner d.session.total counts)
      (tallies : ∀ t, d.task = some t → t.stage.Tallies d.session.received counts)

theorem narrated_fresh (config : Config) (firmware : Firmware) :
    (fresh config firmware).Narrated := .between [] nofun rfl rfl

/-- What tells no news and changes neither record nor task. -/
theorem Narrated.keep (h : d.Narrated) (news : d'.journal.news = d.journal.news)
    (registry : d'.registry = d.registry)
    (idle : d'.session.state = .idle ↔ d.session.state = .idle)
    (total : d'.session.total = d.session.total)
    (received : d'.session.received = d.session.received) (task : d'.task = d.task) :
    d'.Narrated := by
  cases h with
  | between items wellFormed isIdle told =>
    exact .between items wellFormed (idle.mpr isIdle) (news.trans told)
  | within items wellFormed owner counts busy bound rising told tallies =>
    refine .within items wellFormed owner counts (mt idle.mp busy) (registry ▸ bound)
      (total ▸ rising) ?_ ?_
    · rw [news, told, total]
    · rw [task, received]
      exact tallies

/-- A session that is on has told its start and the counts that its stage tallies. -/
theorem Narrated.busy (h : d.Narrated) (busy : d.session.state ≠ .idle) :
    ∃ (items : List Item) (owner : Client) (counts : List UInt32),
      (∀ i ∈ items, i.WellFormed) ∧ d.registry.owner = some owner ∧
      Rising d.session.total counts ∧
      d.journal.news = items.flatMap Item.events ++ bracket owner d.session.total counts ∧
      ∀ t, d.task = some t → t.stage.Tallies d.session.received counts := by
  cases h with
  | between _ _ idle => exact absurd idle busy
  | within items wellFormed owner counts _ bound rising news tallies =>
    exact ⟨items, owner, counts, wellFormed, bound, rising, news, tallies⟩

/-- Without a session all that was told is items. -/
theorem Narrated.idle (h : d.Narrated) (idle : d.session.state = .idle) :
    ∃ items : List Item, (∀ i ∈ items, i.WellFormed) ∧
      d.journal.news = items.flatMap Item.events := by
  cases h with
  | between items wellFormed _ news => exact ⟨items, wellFormed, news⟩
  | within _ _ _ _ busy => exact absurd idle busy

/-! ## Moves keep it -/

/-- At rest, one more item is told, or some. -/
theorem Narrated.tells (h : d.Narrated) (idle : d.session.state = .idle) (more : List Item)
    (wellFormed : ∀ i ∈ more, i.WellFormed)
    (news : d'.journal.news = d.journal.news ++ more.flatMap Item.events)
    (idle' : d'.session.state = .idle) : d'.Narrated := by
  obtain ⟨items, wf, told⟩ := h.idle idle
  refine .between (items ++ more) (fun i hi => ?_) idle' ?_
  · exact (List.mem_append.mp hi).elim (wf i) (wellFormed i)
  · rw [news, told, List.flatMap_append]

theorem Narrated.handled {m : Move} (h : d.Narrated) (sound : d.Sound) (hm : Handled d m d') :
    d'.Narrated := by
  have silent : ∀ es : List Effect, (∀ e ∈ es, e.news? = none) →
      news (d.journal ++ es.map (Entry.mk .handler)) = news d.journal := fun es h =>
    news_append_of_silent h _ _
  cases hm with
  | ignored => exact h
  | @refused c f code reached =>
    exact h.keep (silent [.event (.rejected c code), .sent c (.error code) reached]
      (by simp [Effect.news?])) rfl Iff.rfl rfl rfl rfl
  | @opened c f total timeoutMs flags _ _ idle =>
    obtain ⟨items, wf, told⟩ := h.idle idle
    refine .within items wf c [] nofun rfl (.nil total) ?_ ?_
    · change news (d.journal ++ _) = _
      rw [news_append, told]
      rfl
    · rintro t ⟨⟩
      rfl
  | unopened reached _ _ idle =>
    refine h.tells idle [.unopened] (by simp [Item.WellFormed]) ?_ rfl
    rw [news_append]
    rfl
  | @queued c f chunk isEnd =>
    exact h.keep (silent [.queued chunk isEnd] (by simp [Effect.news?])) rfl Iff.rfl rfl rfl rfl
  | recorded reason _ _ receiving =>
    exact h.keep rfl rfl (by simp [receiving]) rfl rfl rfl
  | acted es _ unbound effects =>
    have idle : d.session.state = .idle := by
      rw [(sound.resting_of_unbound unbound).session]
      rfl
    obtain ⟨more, wf, performed⟩ := exists_performed effects
    refine h.tells idle more wf ?_ idle
    rw [news_append, news_map, performed]

/-- The task goes on and tells nothing. -/
theorem Narrated.goto {d₁ : Device} {t' : SessionTask} {s : Stage} (h : d.Narrated)
    (live : d.task = some t) (busy : d.session.state ≠ .idle) (busy' : d₁.session.state ≠ .idle)
    (news : d₁.journal.news = d.journal.news) (registry : d₁.registry = d.registry)
    (total : d₁.session.total = d.session.total)
    (stage : ∀ counts, Rising d.session.total counts → t.stage.Tallies d.session.received counts →
      s.Tallies d₁.session.received counts) : (d₁.goto t' s).Narrated := by
  obtain ⟨items, owner, counts, wf, bound, rising, told, tallies⟩ := h.busy busy
  refine .within items wf owner counts busy' (registry ▸ bound) (total ▸ rising) ?_ ?_
  · exact news.trans (total ▸ told)
  · rintro _ ⟨⟩
    exact stage counts rising (tallies t live)

/-- The count that was taken is told. -/
theorem Narrated.progresses {n requested : UInt32} {isEnd : Bool} {t' : SessionTask} {s : Stage}
    (h : d.Narrated) (sound : d.Sound) (live : d.task = some t)
    (hs : t.stage = .counted n requested isEnd)
    (stage : ∀ counts, latest counts = d.session.received → s.Tallies d.session.received counts) :
    ((d.note d.taskActor (.event (.progress n d.session.total))).goto t' s).Narrated := by
  have busy := sound.ne_idle live
  obtain ⟨items, owner, counts, wf, bound, rising, told, tallies⟩ := h.busy busy
  obtain ⟨-, rfl, pos, -⟩ := sound.stands live hs
  have below : ∀ c ∈ counts, c < d.session.received :=
    (show Stage.Tallies _ _ (.counted _ _ _) from hs ▸ tallies t live)
  refine .within items wf owner (counts ++ [d.session.received]) busy bound
    (rising.concat below (UInt32.le_iff_toNat_le.mpr pos) (UInt32.le_iff_toNat_le.mpr sound.counts))
    ?_ ?_
  · change news (d.journal ++ _) = _ ++ bracket owner d.session.total _
    rw [news_append, told, bracket_concat, List.append_assoc]
    rfl
  · rintro _ ⟨⟩
    exact stage _ (latest_concat ..)

/-- **The verdict closes the session**, with the last count that was told. -/
theorem Narrated.leaves {outcome : Outcome} (h : d.Narrated) (sound : d.Sound)
    (live : d.task = some t) (hs : t.stage = .leaving outcome) : (d.leave t outcome).Narrated := by
  obtain ⟨items, owner, counts, wf, -, rising, told, tallies⟩ := h.busy (sound.ne_idle live)
  have last : latest counts = d.session.received :=
    (show Stage.Tallies _ _ (.leaving _) from hs ▸ tallies t live)
  have all : outcome = .completed → counts.getLast? = some d.session.total := by
    rintro rfl
    obtain ⟨final, -⟩ := sound.stands live hs
    refine Rising.getLast?_eq_some (last.trans final.all) fun zero => ?_
    have pos := (sound.busy (sound.ne_idle live)).pos
    rw [zero] at pos
    cases pos
  refine .between (items ++ [.session owner d.session.total counts outcome]) (fun i hi => ?_) rfl ?_
  · rcases List.mem_append.mp hi with hi | hi
    · exact wf i hi
    · obtain rfl := List.mem_singleton.mp hi
      exact ⟨rising, all⟩
  · rw [journal_leave, news_append, told, List.flatMap_append, List.append_assoc]
    cases outcome <;> simp [news, Effect.news?, Outcome.verdict, Item.events, last]

theorem Narrated.advanced (h : d.Narrated) (sound : d.Sound) (live : d.task = some t)
    (hm : Advanced d t d') : d'.Narrated := by
  have busy := sound.ne_idle live
  -- a task that only goes on, between stages that tally what is there
  have moveOn : ∀ {d₁ : Device} {t' s s'}, t.stage = s → d₁.session.state ≠ .idle →
      d₁.journal.news = d.journal.news → d₁.registry = d.registry →
      d₁.session.total = d.session.total →
      (∀ counts, s.Tallies d.session.received counts →
        s'.Tallies d₁.session.received counts) → (d₁.goto t' s').Narrated :=
    fun hs busy' news registry total stage =>
      h.goto live busy busy' news registry total fun counts _ tallies => stage counts (hs ▸ tallies)
  have silent : ∀ e : Effect, e.news? = none →
      news (d.journal ++ [e].map (Entry.mk d.taskActor)) = news d.journal := fun e he =>
    news_append_of_silent (List.forall_mem_singleton.mpr he) _ _
  cases hm with
  | equipped hs | unequipped hs | greeted hs | took hs | orphaned _ hs | waitedOut hs | woke hs
  | looked hs | overran hs | unvetted hs | fitted hs | barred hs | admitted hs | cutShort hs =>
    exact moveOn hs busy rfl rfl rfl fun _ => id
  | finalizing hs => exact moveOn hs nofun rfl rfl rfl fun _ => id
  | untold hs | skipped hs =>
    exact moveOn hs busy rfl rfl rfl fun _ tallies => Stage.tallies_next tallies _
  | @died call faults calls =>
    obtain ⟨items, owner, counts, wf, bound, rising, told, -⟩ := h.busy busy
    exact .within items wf owner counts busy bound rising
      ((silent (.died call.point) rfl).trans told) nofun
  | called calls =>
    exact moveOn rfl busy (silent _ rfl) rfl rfl fun _ tallies => tallies.after calls _
  | bailed looks =>
    refine moveOn rfl busy rfl rfl rfl fun _ tallies => ?_
    refine (Stage.tallies_iff fun n requested isEnd hs => ?_).mp tallies
    rw [hs] at looks
    cases looks
  | told reached hs =>
    exact moveOn hs busy (silent _ rfl) rfl rfl fun _ tallies => Stage.tallies_next tallies _
  | timedOut hs =>
    obtain ⟨r, hmark⟩ := (sound.stands live hs).inTransfer.markAborted .timeout
    rw [hmark]
    exact moveOn hs nofun rfl rfl rfl fun _ => id
  | miscounted miscounts => exact absurd miscounts (sound.not_miscounts live)
  | accounted hs _ advances =>
    obtain ⟨received, rfl, -, grows⟩ := sound.advances live hs advances
    refine h.goto live busy busy rfl rfl rfl fun counts rising tallies c hc => ?_
    have last : latest counts = d.session.received := by
      rw [hs] at tallies
      exact tallies
    have hle := last ▸ rising.le_latest c hc
    exact UInt32.lt_of_le_of_lt hle grows
  | progressed hs => exact h.progresses sound live hs fun _ => id
  | filled hs => exact h.progresses sound live hs fun _ tallies => Stage.tallies_next tallies _
  | left hs => exact h.leaves sound live hs

/-- **Every move keeps the events in items.** -/
theorem Narrated.moved {m : Move} (h : d.Narrated) (sound : d.Sound) (hm : Moved d m d') :
    d'.Narrated := by
  cases hm with
  | handled hm => exact h.handled sound hm
  | advanced live hm => exact h.advanced sound live hm
  | @performed a d' _ hm =>
    obtain ⟨effect, takes, does⟩ := hm
    have silent : ∀ e ∈ [effect], e.news? = none :=
      List.forall_mem_singleton.mpr (Effect.news?_of_duty? does)
    exact h.keep (news_append_of_silent silent _ a) rfl Iff.rfl rfl rfl rfl
  | stuck => exact h
  | waited ms live hs =>
    refine h.goto live (sound.ne_idle live) (sound.ne_idle live) rfl rfl rfl fun _ _ tallies => ?_
    rw [hs] at tallies
    exact tallies
  | passed => exact h
  | around => exact h.keep rfl rfl Iff.rfl rfl rfl rfl

/-- **The events of every run are items**, all of them closed at rest, and all but the last one in a
session. -/
theorem narrated_run (config : Config) (firmware : Firmware) (ms : List Move) :
    ((fresh config firmware).run ms).Narrated :=
  chronicle_induction (sound_fresh config firmware) (chronicle_fresh config firmware)
    (narrated_fresh config firmware) (fun sound _ h hm => h.moved sound hm) ms

/-- A session that is on may still be given up, so what was told of it begins an item. -/
theorem Narrated.begins (h : d.Narrated) : ∃ items : List Item, (∀ i ∈ items, i.WellFormed) ∧
    d.journal.news <+: items.flatMap Item.events := by
  cases h with
  | between items wellFormed _ news => exact ⟨items, wellFormed, news ▸ List.prefix_rfl⟩
  | within items wellFormed owner counts _ _ rising news =>
    refine ⟨items ++ [.session owner d.session.total counts (.aborted .userRequest)],
      fun i hi => ?_, ?_⟩
    · rcases List.mem_append.mp hi with hi | hi
      · exact wellFormed i hi
      · obtain rfl := List.mem_singleton.mp hi
        exact ⟨rising, nofun⟩
    · rw [news, List.flatMap_append, List.flatMap_singleton]
      exact (List.prefix_append_right_inj _).mpr (List.prefix_append ..)

/-- **The grammar of events.**  In every run, the events but for refusals begin a sequence of items:
actions that were performed, sessions that could not be opened, and sessions from their start to
their verdict.  The counts of a session rise from one event to the next, to all of the announced
bytes if it is completed, and its verdict names the last of them. -/
theorem event_grammar (config : Config) (firmware : Firmware) (ms : List Move) :
    ∃ items : List Item, (∀ i ∈ items, i.WellFormed) ∧
      ((fresh config firmware).run ms).journal.news <+: items.flatMap Item.events :=
  (narrated_run config firmware ms).begins

end Device

end OverTheAir
