import OverTheAir.Proofs.Farewell

/-!
# Proofs/Progress — what a task tells its owner of the progress

A task reports a count of bytes in three situations: before the first chunk, after a chunk that
leaves some missing, and when the session is completed.  The counts only grow (`Stage.Told` keeps
those that were reported below the one that is to be), and a count that is reported is the number of
bytes in the partition.

* `Reporting.report` — what holds at the moment of a report.
* `truthful_progress` — so it is for every report of every run, and each task's counts increase.
-/

namespace OverTheAir

/-- The count that a state frame reports. -/
def Effect.report? : Effect → Option UInt32
  | .sent _ (.state n _) _ => some n
  | _ => none

theorem Effect.eq_of_report? {e : Effect} {n : UInt32} (h : e.report? = some n) :
    ∃ c q reached, e = .sent c (.state n q) reached := by
  cases e with
  | sent c frame reached =>
    cases frame with
    | state n' q =>
      obtain rfl := Option.some.inj h
      exact ⟨c, q, reached, rfl⟩
    | _ => cases h
  | _ => cases h

/-- The counts that were reported, oldest first. -/
def reported (es : List Effect) : List UInt32 := es.filterMap Effect.report?

/-- The count and the size that a progress event tells of. -/
def Effect.progress? : Effect → Option (UInt32 × UInt32)
  | .event (.progress n total) => some (n, total)
  | _ => none

/-- The last progress that was told of. -/
def lastProgress? (es : List Effect) : Option (UInt32 × UInt32) :=
  (es.filterMap Effect.progress?).getLast?

@[simp] theorem reported_append (es es' : List Effect) :
    reported (es ++ es') = reported es ++ reported es' := List.filterMap_append

/-- What is no report adds none. -/
theorem reported_silent {e : Effect} (silent : e.report? = none) (es : List Effect) :
    reported (es ++ [e]) = reported es := by
  simp [reported, silent]

theorem reported_concat (es : List Effect) (c : Client) (n q : UInt32) (reached : Bool) :
    reported (es ++ [.sent c (.state n q) reached]) = reported es ++ [n] := by
  simp [reported, Effect.report?]

theorem lastProgress?_concat (es : List Effect) (n total : UInt32) :
    lastProgress? (es ++ [.event (.progress n total)]) = some (n, total) := by
  simp [lastProgress?, Effect.progress?]

/-- What a task has reported when it stands at a stage of a session of `total` bytes, `received` of
which are there. -/
def Stage.Told (total received : UInt32) (es : List Effect) : Stage → Prop
  | .launched => reported es = []
  | .beginning => reported es = []
  | .begun => reported es = []
  | .reporting (.state n _) _ => reported es = [] ∧ n = 0 ∨
      reported es ≠ [] ∧ (∀ r ∈ reported es, r < n) ∧ lastProgress? es = some (n, total)
  | .counted n _ _ => reported es ≠ [] ∧ ∀ r ∈ reported es, r < n
  | .aborting _ => True
  | .leaving _ => True
  | _ => reported es ≠ [] ∧ ∀ r ∈ reported es, r ≤ received

theorem Stage.told_next {total received : UInt32} {es : List Effect} {isEnd : Bool}
    (h : reported es ≠ [] ∧ ∀ r ∈ reported es, r ≤ received) :
    (next isEnd).Told total received es := by
  cases isEnd <;> exact h

/-- A call that is answered reports nothing. -/
theorem Stage.Told.after {s : Stage} {total received size : UInt32} {es : List Effect}
    {call : FlashCall} (h : s.Told total received es) (calls : s.call? size = some call)
    (r : FlashResult) : (s.after r).Told total received (es ++ [.flash call r]) := by
  have silent : reported (es ++ [.flash call r]) = reported es := reported_silent rfl es
  obtain ⟨rfl, -⟩ | ⟨chunk, isEnd, rfl, -⟩ | ⟨rfl, -⟩ | ⟨rfl, -⟩ | ⟨reason, rfl, -⟩ :=
    call?_cases calls <;> rcases r with e | ⟨⟩ <;> simp only [Stage.after, Told, silent] <;> exact h

namespace Device

open Journal

variable {d d' : Device} {t : SessionTask} {k : Nat} {es : List Effect}

/-- The task has reported what its stage says. -/
def HasTold (d : Device) : Prop := ∀ t, d.task = some t →
  t.stage.Told d.session.total d.session.received (deeds d.taskActor d.journal)

/-- The tasks report as they go on. -/
structure Reporting (d : Device) : Prop where
  told : d.HasTold
  /-- Who closes the partition has reported before. -/
  closed : ∀ k r, .flash .finish r ∈ deeds (.task k) d.journal →
    reported (deeds (.task k) d.journal) ≠ []

theorem reporting_fresh (config : Config) (firmware : Firmware) :
    (fresh config firmware).Reporting :=
  ⟨nofun, nofun⟩

/-- What the task has come to report once it has done something more. -/
theorem hasTold_goto {d₁ : Device} {t' : SessionTask} {s : Stage} (es : List Effect)
    (sessions : d₁.sessions = d.sessions)
    (journal : d₁.journal = d.journal ++ es.map (Entry.mk d.taskActor))
    (h : s.Told d₁.session.total d₁.session.received (deeds d.taskActor d.journal ++ es)) :
    (d₁.goto t' s).HasTold := by
  intro t live
  obtain rfl := Option.some.inj live
  have actor : (d₁.goto t' s).taskActor = d.taskActor := congrArg Actor.task sessions
  change s.Told d₁.session.total d₁.session.received (deeds (d₁.goto t' s).taskActor d₁.journal)
  rw [actor, journal, deeds_append_self]
  exact h

/-- What the handler does leaves the reports of the tasks as they are. -/
theorem HasTold.handled {m : Move} (h : d.HasTold) (sound : d.Sound) (chronicle : d.Chronicle)
    (hm : Handled d m d') : d'.HasTold := by
  obtain ⟨-, es, journal, -⟩ := hm.journal
  have others : ∀ k, deeds (.task k) d'.journal = deeds (.task k) d.journal := fun k => by
    rw [journal]
    exact deeds_append_of_ne (a := .task k) (b := .handler) nofun ..
  intro t live
  rw [taskActor, others]
  cases hm with
  | opened =>
    obtain rfl := Option.some.inj live
    change reported (deeds (.task (d.sessions + 1)) d.journal) = []
    rw [chronicle.future _ (Nat.lt_succ_self _)]
    rfl
  | unopened _ _ _ idle =>
    rw [(sound.resting idle).noTask] at live
    cases live
  | _ => exact h t live

theorem HasTold.advanced (h : d.HasTold) (sound : d.Sound) (live : d.task = some t)
    (hm : Advanced d t d') : d'.HasTold := by
  have told := h t live
  -- a task that does nothing but go on
  have moveOn : ∀ {d₁ : Device} {t' s}, d₁.sessions = d.sessions → d₁.journal = d.journal →
      s.Told d₁.session.total d₁.session.received (deeds d.taskActor d.journal) →
      (d₁.goto t' s).HasTold := fun sessions journal h =>
    hasTold_goto [] sessions (journal.trans (List.append_nil _).symm)
      ((List.append_nil _).symm ▸ h)
  cases hm with
  | equipped hs | took hs | waitedOut hs | woke hs | looked hs | overran hs | unvetted hs
  | fitted hs | admitted hs | finalizing hs =>
    rw [hs] at told
    exact moveOn rfl rfl told
  | unequipped | bailed | orphaned | timedOut | barred | cutShort => exact moveOn rfl rfl trivial
  | died | miscounted | left => exact nofun
  | @called call r flash faults calls =>
    exact hasTold_goto (d := d) [.flash call r] rfl rfl (told.after calls r)
  | greeted hs =>
    rw [hs] at told
    exact moveOn rfl rfl (.inl ⟨told, rfl⟩)
  | @told frame isEnd owner reached hs bound =>
    refine hasTold_goto (d := d) [.sent owner frame reached] rfl rfl (Stage.told_next ?_)
    rw [hs] at told
    obtain ⟨-, rfl | ⟨short, rfl⟩⟩ := sound.stands live hs
    · rw [reported_silent rfl]
      exact told
    · rw [reported_concat]
      refine ⟨by simp, fun r hr => ?_⟩
      rcases List.mem_append.mp hr with hr | hr
      · rcases told with ⟨none, -⟩ | ⟨-, below, -⟩
        · rw [none] at hr
          cases hr
        · exact UInt32.le_of_lt (below r hr)
      · exact UInt32.le_of_eq (List.mem_singleton.mp hr)
  | untold hs unbound =>
    obtain ⟨owner, bound⟩ := (sound.busy (sound.ne_idle live)).bound
    cases unbound.symm.trans bound
  | skipped hs =>
    rw [hs] at told
    exact moveOn rfl rfl (Stage.told_next told)
  | accounted hs _ advances =>
    rw [hs] at told
    obtain ⟨received, rfl, -, grows⟩ := sound.advances live hs advances
    exact moveOn rfl rfl ⟨told.1, fun r hr => UInt32.lt_of_le_of_lt (told.2 r hr) grows⟩
  | @progressed received requested isEnd hs =>
    rw [hs] at told
    refine hasTold_goto (d := d) [.event (.progress received d.session.total)] rfl rfl
      (.inr ?_)
    rw [reported_silent rfl, lastProgress?_concat]
    exact ⟨told.1, told.2, rfl⟩
  | @filled received requested isEnd hs =>
    rw [hs] at told
    obtain ⟨-, rfl, -⟩ := sound.stands live hs
    refine hasTold_goto (d := d) [.event (.progress d.session.received d.session.total)]
      rfl rfl (Stage.told_next ?_)
    rw [reported_silent rfl]
    exact ⟨told.1, fun r hr => UInt32.le_of_lt (told.2 r hr)⟩

theorem HasTold.moved {m : Move} (h : d.HasTold) (sound : d.Sound) (chronicle : d.Chronicle)
    (hm : Moved d m d') : d'.HasTold := by
  cases hm with
  | handled hm => exact h.handled sound chronicle hm
  | advanced live hm => exact h.advanced sound live hm
  | @performed a _ other hm =>
    obtain ⟨effect, takes, does⟩ := hm
    intro t live
    have elsewhere : a ≠ d.taskActor := other (by simp [show d.task = some t from live])
    change t.stage.Told _ _ (deeds d.taskActor (d.journal ++ [effect].map (Entry.mk a)))
    rw [deeds_append_of_ne elsewhere]
    exact h t live
  | waited ms live hs =>
    have told := h _ live
    rw [hs] at told
    refine hasTold_goto (d := d) [] rfl (List.append_nil _).symm ?_
    rw [List.append_nil]
    exact told
  | _ => exact h

/-- **Every move keeps the reports in order.** -/
theorem Reporting.move (h : d.Reporting) (sound : d.Sound) (chronicle : d.Chronicle) (m : Move) :
    (d.move m).Reporting := by
  refine ⟨h.told.moved sound chronicle (d.moved m), fun k r finish => ?_⟩
  have grows := deeds_run (.task k) d [m]
  rw [run_cons, run_nil] at grows
  rw [grows] at finish ⊢
  suffices reported (deeds (.task k) d.journal) ≠ [] by
    rw [reported_append]
    exact List.append_ne_nil_of_left_ne_nil this _
  rcases List.mem_append.mp finish with before | now
  · exact h.closed k r before
  · rw [doings_singleton] at now
    split at now
    · next byTask =>
      have called := called_of_does now
      generalize d.move m = d' at called
      obtain ⟨live, calls, -⟩ := called
      obtain rfl : d.sessions = k := Actor.task.inj byTask
      have told := h.told _ live
      obtain ⟨-, h⟩ | ⟨_, _, -, h⟩ | ⟨hs, -⟩ | ⟨-, h⟩ | ⟨_, -, h⟩ := Stage.call?_cases calls
      case inr.inr.inl =>
        rw [hs] at told
        exact told.1
      all_goals cases h
    · cases now

theorem reporting_run (config : Config) (firmware : Firmware) (ms : List Move) :
    ((fresh config firmware).run ms).Reporting :=
  chronicle_walk (sound_fresh config firmware) (chronicle_fresh config firmware)
    (reporting_fresh config firmware) (fun m sound chronicle h => h.move sound chronicle m) ms

/-! ## Who reports -/

/-- The handler reports nothing. -/
theorem Handled.silent {m : Move} (hm : Handled d m d') : ∃ es : List Effect,
    d'.journal = d.journal ++ es.map (Entry.mk .handler) ∧ ∀ e ∈ es, e.report? = none := by
  cases hm with
  | ignored => exact ⟨[], by simp, by simp⟩
  | refused code reached =>
    exact ⟨[.event (.rejected _ code), .sent _ (.error code) reached], rfl, by simp [Effect.report?]⟩
  | opened => exact ⟨[.event (.sessionStarted _ _)], rfl, by simp [Effect.report?]⟩
  | unopened reached =>
    exact ⟨[.event (.aborted .beginFailed 0), .sent _ (.abort .beginFailed) reached], rfl,
      by simp [Effect.report?]⟩
  | queued => exact ⟨[.queued _ _], rfl, by simp [Effect.report?]⟩
  | recorded => exact ⟨[], by simp, by simp⟩
  | acted es _ _ effects =>
    refine ⟨es, rfl, fun e he => ?_⟩
    have acts := effects e he
    cases e with
    | sent c frame reached => cases frame <;> first | rfl | cases acts
    | _ => rfl

/-- The task of a session that is on reports only when it stands at a frame to its owner. -/
theorem Advanced.report {e : Effect}
    (hm : Advanced d t (d.move (.step d.taskActor))) (he : e ∈ d.does (.step d.taskActor))
    {n : UInt32} (report : e.report? = some n) : ∃ frame isEnd owner reached,
      t.stage = .reporting frame isEnd ∧ d.registry.owner = some owner ∧
      e = .sent owner frame reached := by
  -- what else the task does is no report
  have others : ∀ es : List Effect, (d.move (.step d.taskActor)).journal
      = d.journal ++ es.map (Entry.mk d.taskActor) → (∀ e ∈ es, e.report? = none) → False := by
    intro es journal silent
    rw [does_eq journal] at he
    cases (silent e he).symm.trans report
  generalize hd' : d.move (.step d.taskActor) = d' at hm others
  cases hm with
  | @told frame isEnd owner reached hs bound =>
    have hdoes : d.does (.step d.taskActor) = [.sent owner frame reached] :=
      does_eq (congrArg Device.journal hd')
    rw [hdoes] at he
    exact ⟨frame, isEnd, owner, reached, hs, bound, List.mem_singleton.mp he⟩
  | died => exact (others [.died _] rfl (by simp [Effect.report?])).elim
  | called => exact (others [.flash _ _] rfl (by simp [Effect.report?])).elim
  | miscounted => exact (others [.miscounted] rfl (by simp [Effect.report?])).elim
  | progressed => exact (others [.event (.progress _ _)] rfl (by simp [Effect.report?])).elim
  | filled => exact (others [.event (.progress _ _)] rfl (by simp [Effect.report?])).elim
  | @left outcome =>
    refine (others [.event (outcome.verdict d.session.total d.session.received)]
      (d.journal_leave t outcome) ?_).elim
    simp [Effect.report?]
  | _ => exact (others [] (List.append_nil _).symm (by simp)).elim

/-- What is left to do when a session is over holds a report only for a session that is completed,
and it comes first. -/
theorem report_of_farewell {owner c : Client} {total n q : UInt32} {flags : SessionFlags}
    {outcome : Outcome} {done : List Effect} {left : List Duty}
    (duties : done.map Effect.duty? ++ (Duty.tell c (.state n q) :: left).map some
      = (farewell (some owner) total flags outcome).map some) :
    done = [] ∧ outcome = .completed ∧ c = owner ∧ n = total ∧ q = 0 := by
  have isLeft : some (Duty.tell c (.state n q)) ∈
      (farewell (some owner) total flags outcome).map some := by
    rw [← duties]
    exact List.mem_append_right _ List.mem_cons_self
  cases outcome with
  | aborted reason => cases reason <;> simp [farewell] at isLeft
  | completed =>
    cases done with
    | nil => simp_all [farewell]
    | cons e done =>
      -- the duties behind the first one report nothing
      have behind : done.map Effect.duty? ++ (Duty.tell c (.state n q) :: left).map some
          = (Duty.broadcast (some owner) (.state total 0) ::
              if flags.resetAfterSuccess then [.restart] else []).map some :=
        (List.cons.inj duties).2
      have isBehind : some (Duty.tell c (.state n q)) ∈ done.map Effect.duty? ++
          (Duty.tell c (.state n q) :: left).map some :=
        List.mem_append_right _ List.mem_cons_self
      rw [behind] at isBehind
      rcases flags with ⟨_ | _, _, _⟩ <;> simp at isBehind

/-! ## Reports -/

/-- What holds when the task of a session of `total` bytes reports `n` and asks for `q`. -/
inductive Reports (d : Device) (k : Nat) (total n q : UInt32) : Prop where
  /-- The first report: nothing has come yet. -/
  | first (nothing : reported (deeds (.task k) d.journal) = []) (zero : n = 0) (missing : 0 < total)
      (asks : q = min total d.config.maxChunkSize)
  /-- Some bytes have come, and all of them are in the partition. -/
  | later (begun : reported (deeds (.task k) d.journal) ≠ []) (pos : 0 < n) (short : n < total)
      (asks : q = min (total - n) d.config.maxChunkSize) (holds : d.flash.image.size = n.toNat)
      (told : lastProgress? (deeds (.task k) d.journal) = some (n, total))
  /-- The session is completed. -/
  | last (begun : reported (deeds (.task k) d.journal) ≠ []) (all : n = total) (asks : q = 0)
      (finished : .flash .finish (.ok ()) ∈ deeds (.task k) d.journal)
      (selected : .flash .select (.ok ()) ∈ deeds (.task k) d.journal)

/-- A closing call that is listed was made. -/
theorem flash_of_mem_closings {call : FlashCall} {r : FlashResult} (h : (call, r) ∈ closings es) :
    .flash call r ∈ es := by
  obtain ⟨e, he, closing⟩ := List.mem_filterMap.mp h
  cases e with
  | flash call' r' => cases call' <;> simp_all [Effect.closing?]
  | _ => cases closing

/-- The report that a session is completed comes after all others, and after the calls that
completed it. -/
theorem Past.report {owner c : Client} {total n q : UInt32} {left : List Duty}
    (h : Past owner total es (.tell c (.state n q) :: left)) : c = owner ∧ n = total ∧ q = 0 ∧
      (∀ r ∈ reported es, r < n) ∧ .flash .finish (.ok ()) ∈ es ∧ .flash .select (.ok ()) ∈ es := by
  obtain ⟨body, done, outcome, received, flags, rfl, work, closes, duties⟩ := h
  obtain ⟨rfl, rfl, rfl, rfl, rfl⟩ := report_of_farewell duties
  have closings : closings body = [(.finish, .ok ()), (.select, .ok ())] := closes
  refine ⟨rfl, rfl, rfl, ?_, ?_, ?_⟩
  · rw [reported_silent rfl]
    intro r hr
    obtain ⟨e, he, report⟩ := List.mem_filterMap.mp hr
    obtain ⟨c', q', reached, rfl⟩ := Effect.eq_of_report? report
    have works : c' = c ∧ r.toNat < n.toNat := work _ he
    exact UInt32.lt_iff_toNat_lt.mpr works.2
  · exact List.mem_append_left _ (flash_of_mem_closings (closings ▸ by simp))
  · exact List.mem_append_left _ (flash_of_mem_closings (closings ▸ by simp))

/-- What the task is about to report of a session that is on is true. -/
theorem Reporting.standing {isEnd : Bool} {n q : UInt32} (h : d.Reporting) (sound : d.Sound)
    (live : d.task = some t) (hs : t.stage = .reporting (.state n q) isEnd) :
    (∀ r ∈ reported (deeds (.task d.sessions) d.journal), r < n) ∧
      d.Reports d.sessions d.session.total n q := by
  obtain ⟨takes, frame | ⟨short, frame⟩⟩ := sound.stands live hs
  · cases frame
  obtain ⟨rfl, rfl⟩ := Response.state.inj frame
  have told := h.told t live
  rw [hs] at told
  rcases told with ⟨nothing, zero⟩ | ⟨begun, below, progress⟩
  · have missing : 0 < d.session.total :=
      UInt32.lt_iff_toNat_lt.mpr (sound.busy (sound.ne_idle live)).pos
    refine ⟨?_, .first nothing zero missing ?_⟩
    · change ∀ r ∈ reported (deeds d.taskActor d.journal), _
      rw [nothing]
      exact List.forall_mem_nil _
    · rw [zero, UInt32.sub_zero]
  · have pos : 0 < d.session.received := by
      obtain ⟨r, hr⟩ := List.exists_mem_of_ne_nil _ begun
      have hlt := UInt32.lt_iff_toNat_lt.mp (below r hr)
      exact UInt32.lt_iff_toNat_lt.mpr (Nat.lt_of_le_of_lt (Nat.zero_le _) hlt)
    exact ⟨below, .later begun pos (UInt32.lt_iff_toNat_lt.mpr short) rfl takes.holds.size progress⟩

/-- What is reported of a session that is over is true: it is completed. -/
theorem Reporting.parting {a : Actor} {errands : List Errand} {c : Client} {n q : UInt32}
    (h : d.Reporting) (chronicle : d.Chronicle) (proper : d.Proper)
    (takes : takeDuty a d.errands = some (.tell c (.state n q), errands)) :
    ∃ k total, a = .task k ∧ opening? k d.journal = some (c, total) ∧
      (∀ r ∈ reported (deeds (.task k) d.journal), r < n) ∧ d.Reports k total n q := by
  obtain ⟨⟨e, he, rfl, hduty⟩, -⟩ := mem_of_takeDuty takes
  have hproper := proper.errands e he
  rw [Errand.Proper] at hproper
  obtain ⟨left, -⟩ := dutiesOf_takeDuty takes
  cases hactor : e.actor with
  | handler =>
    rw [hactor] at hproper
    cases hproper
  | restarter =>
    rw [hactor] at hproper
    cases hproper _ hduty
  | task k =>
    rw [hactor] at hproper left
    have isPast : d.IsPast k := Decidable.byContradiction fun notPast => by
      rw [chronicle.undue k notPast] at left
      cases left
    have counted : k ≤ d.sessions := isPast.elim Nat.le_of_lt fun last => Nat.le_of_eq last.1
    obtain ⟨owner, total, opened⟩ := chronicle.opened_of_le hproper counted
    have past := chronicle.past k owner total opened isPast
    rw [left] at past
    obtain ⟨rfl, rfl, rfl, below, finished, selected⟩ := past.report
    exact ⟨k, n, rfl, opened, below, .last (h.closed k _ finished) rfl rfl finished selected⟩

/-- **A report is true**, and greater than those before it. -/
theorem Reporting.report (h : d.Reporting) (sound : d.Sound) (chronicle : d.Chronicle)
    (proper : d.Proper) {m : Move} {c : Client} {n q : UInt32} {reached : Bool}
    (sends : .sent c (.state n q) reached ∈ d.does m) :
    ∃ k total, m = .step (.task k) ∧ opening? k d.journal = some (c, total) ∧
      (∀ r ∈ reported (deeds (.task k) d.journal), r < n) ∧ d.Reports k total n q := by
  have hm := d.moved m
  generalize hd' : d.move m = d' at hm
  have nothing : d'.journal = d.journal → False := fun same => by
    rw [does_eq_nil (hd' ▸ same)] at sends
    cases sends
  cases hm with
  | handled hm =>
    obtain ⟨es, journal, silent⟩ := hm.silent
    rw [does_eq (hd' ▸ journal)] at sends
    cases silent _ sends
  | @advanced t d' live hm =>
    obtain ⟨frame, isEnd, owner, reached', hs, bound, heq⟩ :=
      Advanced.report (hd' ▸ hm) sends (n := n) rfl
    obtain ⟨rfl, rfl, rfl⟩ := Effect.sent.inj heq
    obtain ⟨owner, howner, opened⟩ := chronicle.current (sound.ne_idle live)
    obtain rfl : c = owner := Option.some.inj (bound.symm.trans howner)
    exact ⟨d.sessions, d.session.total, rfl, opened, h.standing sound live hs⟩
  | @performed a d' other hm =>
    obtain ⟨effect, takes, speaks, -⟩ := hm
    rename_i duty errands firmware
    have hdoes : d.does (.step a) = [effect] := does_eq (congrArg Device.journal hd')
    rw [hdoes] at sends
    obtain rfl := List.mem_singleton.mp sends
    obtain rfl : Duty.tell c (.state n q) = duty := Option.some.inj speaks
    obtain ⟨k, total, rfl, reports⟩ := h.parting chronicle proper takes
    exact ⟨k, total, rfl, reports⟩
  | stuck | waited | passed | around => exact (nothing rfl).elim

/-- **The counts that a task reports increase.** -/
theorem Reporting.increasing (h : d.Reporting) (sound : d.Sound) (chronicle : d.Chronicle)
    (proper : d.Proper) (k : Nat)
    (before : (reported (deeds (.task k) d.journal)).Pairwise (· < ·)) (m : Move) :
    (reported (deeds (.task k) (d.move m).journal)).Pairwise (· < ·) := by
  have grows := deeds_run (.task k) d [m]
  rw [run_cons, run_nil, doings_singleton] at grows
  rw [grows]
  split
  · next byTask =>
    have one := length_does_le (d := d) (m := m) (byTask ▸ nofun)
    cases hdoes : d.does m with
    | nil => rwa [List.append_nil]
    | cons e es =>
      obtain rfl : es = [] := List.length_eq_zero_iff.mp (by simpa [hdoes] using one)
      cases hreport : e.report? with
      | none => rwa [reported_silent hreport]
      | some n =>
        obtain ⟨c, q, reached, rfl⟩ := Effect.eq_of_report? hreport
        obtain ⟨k', total, rfl, -, below, -⟩ :=
          h.report sound chronicle proper (hdoes ▸ List.mem_cons_self)
        obtain rfl : k' = k := Actor.task.inj byTask
        rw [reported_concat, List.pairwise_append]
        refine ⟨before, List.pairwise_singleton _ _, fun r hr n' hn => ?_⟩
        rw [List.mem_singleton.mp hn]
        exact below r hr
  · rwa [List.append_nil]

/-- **Truthful, increasing progress.**  In every run, whatever the configuration, the counts that a
task reports increase.  Every report is made by a task to the owner of its session, and is greater
than those before it.  The first one says that nothing has come; a later one counts the bytes in the
partition, as the last progress event does, and some are missing; and only when the partition has
been closed and selected, the last one says that all have come. -/
theorem truthful_progress (config : Config) (firmware : Firmware) (ms : List Move) :
    let d := (fresh config firmware).run ms
    (∀ k, (reported (deeds (.task k) d.journal)).Pairwise (· < ·)) ∧
    ∀ m c n q reached, .sent c (.state n q) reached ∈ d.does m →
      ∃ k total, m = .step (.task k) ∧ opening? k d.journal = some (c, total) ∧
        (∀ r ∈ reported (deeds (.task k) d.journal), r < n) ∧ d.Reports k total n q := by
  intro d
  obtain ⟨sound, chronicle⟩ : d.Sound ∧ d.Chronicle := chronicle_run config firmware ms
  have proper : d.Proper := proper_run config firmware ms
  have reporting : d.Reporting := reporting_run config firmware ms
  refine ⟨?_, fun m c n q reached sends => reporting.report sound chronicle proper sends⟩
  refine (chronicle_walk (motive := fun d => d.Proper ∧ d.Reporting ∧
      ∀ k, (reported (deeds (.task k) d.journal)).Pairwise (· < ·))
    (sound_fresh config firmware) (chronicle_fresh config firmware) ⟨?_, ?_, ?_⟩ ?_ ms).2.2
  · exact proper_run config firmware []
  · exact reporting_fresh config firmware
  · exact fun _ => .nil
  · rintro d m sound chronicle ⟨proper, reporting, increasing⟩
    exact ⟨proper.moved sound chronicle (d.moved m), reporting.move sound chronicle m,
      fun k => reporting.increasing sound chronicle proper k (increasing k) m⟩

/-- A short upload is about to be reported as completed. -/
theorem truthful_progress_brief :
    let d := (fresh .default .unknown).run (brief 10)
    .sent ⟨1, 1⟩ (.state 2 0) true ∈ d.does (.step (.task 1)) ∧
      ∃ total, opening? 1 d.journal = some (⟨1, 1⟩, total) ∧ d.Reports 1 total 2 0 := by
  intro d
  have sends : .sent ⟨1, 1⟩ (.state 2 0) true ∈ d.does (.step (.task 1)) := by decide
  obtain ⟨k, total, byTask, opened, -, reports⟩ :=
    (truthful_progress .default .unknown (brief 10)).2 _ _ _ _ _ sends
  obtain rfl : 1 = k := Actor.task.inj (Move.step.inj byTask)
  exact ⟨sends, total, opened, reports⟩

end Device

end OverTheAir
