import OverTheAir.Proofs.Chronicle

/-!
# Proofs/Verdict — what a session says of itself is what it did

A session that is over has one verdict.  Whether its image was selected for the next boot, which
event was emitted, whether an update waits for a reboot, which frame came last to the owner and
whether anything was broadcast all follow from the one outcome that its task left with (`Past`).
-/

namespace OverTheAir

namespace Effect

/-- The frame that is sent to a client, whether it arrives or not. -/
def frameTo? (c : Client) : Effect → Option Response
  | .sent c' frame _ => if c' = c then some frame else none
  | _ => none

/-- A report that a session of `total` bytes is completed: the event, the frame that asks for
nothing more, or anything broadcast. -/
def SaysCompleted (total : UInt32) : Effect → Prop
  | .event (.completed _) => True
  | .sent _ (.state n _) _ => n = total
  | .broadcast _ _ => True
  | _ => False

/-- A report that a session is aborted. -/
def SaysAborted : Effect → Prop
  | .event (.aborted _ _) => True
  | .sent _ (.abort _) _ => True
  | _ => False

variable {e : Effect} {owner : Client} {total : UInt32}

theorem IsWork.not_saysCompleted (h : e.IsWork owner total) : ¬e.SaysCompleted total := by
  intro hs
  cases e with
  | sent c frame reached =>
    cases frame with
    | state n q => exact absurd (congrArg UInt32.toNat hs) (Nat.ne_of_lt h.2)
    | _ => exact hs
  | event event => cases event <;> first | exact hs | exact h
  | _ => first | exact hs | exact h

theorem IsWork.not_saysAborted (h : e.IsWork owner total) : ¬e.SaysAborted := by
  intro hs
  cases e with
  | sent c frame reached => cases frame <;> first | exact hs | exact h
  | event event => cases event <;> first | exact hs | exact h
  | _ => exact hs

end Effect

/-- The partition has been selected iff the outcome is completion. -/
theorem Outcome.Closes.select_iff {outcome : Outcome} {l : List (FlashCall × FlashResult)}
    (h : outcome.Closes l) : (.select, .ok ()) ∈ l ↔ outcome = .completed := by
  rcases outcome with _ | reason
  · obtain rfl : l = [(.finish, .ok ()), (.select, .ok ())] := h
    simp
  · rcases h with rfl | ⟨e, rfl⟩ | ⟨e, rfl⟩ <;> simp

/-- Nothing but completion makes both calls and has both succeed. -/
theorem Outcome.Closes.eq_iff {outcome : Outcome} {l : List (FlashCall × FlashResult)}
    (h : outcome.Closes l) :
    l = [(.finish, .ok ()), (.select, .ok ())] ↔ outcome = .completed := by
  rcases outcome with _ | reason
  · exact iff_of_true h rfl
  · refine iff_of_false ?_ nofun
    rcases h with rfl | ⟨e, rfl⟩ | ⟨e, rfl⟩ <;> simp

/-- A verdict that the session is completed is the verdict on completion. -/
theorem Outcome.verdict_eq_iff {outcome : Outcome} {total received : UInt32} :
    outcome.verdict total received = .completed total ↔ outcome = .completed := by
  rcases outcome with _ | reason <;> simp [verdict]

/-- The frames that are sent to a client. -/
def framesTo (c : Client) (es : List Effect) : List Response := es.filterMap (Effect.frameTo? c)

/-- The frame that a duty is to send to a client. -/
def Duty.frameTo? (c : Client) : Duty → Option Response
  | .tell c' frame => if c' = c then some frame else none
  | _ => none

theorem Effect.frameTo?_of_duty? {e : Effect} {duty : Duty} (h : e.duty? = some duty) (c : Client) :
    e.frameTo? c = duty.frameTo? c := by
  cases e <;> first | cases h; rfl | cases h

/-- Doing duties sends the frames they are to send. -/
theorem framesTo_of_duties {done : List Effect} {duties : List Duty} {c : Client}
    (h : done.map Effect.duty? = duties.map some) :
    framesTo c done = duties.filterMap (Duty.frameTo? c) := by
  induction done generalizing duties with
  | nil =>
    rw [List.map_eq_nil_iff.mp h.symm]
    rfl
  | cons e done ih =>
    rcases duties with _ | ⟨duty, duties⟩
    · cases h
    · obtain ⟨hduty, hrest⟩ := List.cons.inj h
      have hframes : done.filterMap (Effect.frameTo? c) = duties.filterMap (Duty.frameTo? c) :=
        ih hrest
      rw [framesTo, List.filterMap_cons, List.filterMap_cons, Effect.frameTo?_of_duty? hduty,
        hframes]

namespace Device

open Journal

/-- The task of the session has nothing left to do. -/
def HasEnded (d : Device) (k : Nat) : Prop :=
  (d.task.isSome → k ≠ d.sessions) ∧ dutiesOf (.task k) d.errands = []

/-- The task of the session sets the mark that an update waits for a reboot. -/
def Marks (d : Device) (ms : List Move) (k : Nat) : Prop :=
  ∃ front back, ms = front ++ .step (.task k) :: back ∧ (d.run front).pendingReboot = false ∧
    ((d.run front).move (.step (.task k))).pendingReboot = true

instance (d : Device) (k : Nat) : Decidable (d.HasEnded k) :=
  inferInstanceAs (Decidable (_ ∧ _))

variable {d d' : Device} {owner : Client} {total : UInt32} {k : Nat} {es : List Effect}

/-! ## How far a session is -/

theorem Chronicle.isPast_of_ne (h : d.Chronicle) {o : Client × UInt32}
    (opened : opening? k d.journal = some o) (hne : k ≠ d.sessions) : d.IsPast k :=
  .inl (Nat.lt_of_le_of_ne (h.opened ▸ (opening?_range opened).2) hne)

/-- **A session that is not past has only worked and perhaps died.** -/
theorem Chronicle.working (h : d.Chronicle) (opened : opening? k d.journal = some (owner, total))
    (hpast : ¬d.IsPast k) :
    ∀ e ∈ deeds (.task k) d.journal, e.IsWork owner total ∨ ∃ point, e = .died point := by
  obtain rfl : k = d.sessions := Decidable.byContradiction fun hne =>
    hpast (h.isPast_of_ne opened hne)
  have busy : d.session.state ≠ .idle := fun hidle => hpast (.inr ⟨rfl, hidle⟩)
  obtain ⟨owner', howner, hopening⟩ := h.current busy
  obtain ⟨rfl, rfl⟩ := Prod.mk.inj (Option.some.inj (hopening.symm.trans opened))
  rcases ht : d.task with _ | t
  · obtain ⟨body, point, hdeeds, work⟩ := h.dead owner' busy ht howner
    change ∀ e ∈ deeds d.taskActor _, _
    rw [hdeeds]
    intro e he
    rcases List.mem_append.mp he with he | he
    · exact .inl (work e he)
    · exact .inr ⟨point, List.mem_singleton.mp he⟩
  · exact fun e he => .inl (h.works t owner' ht howner e he)

/-- A session that has ended and whose task did not die is past, with nothing left to do. -/
theorem Chronicle.past_of_hasEnded (h : d.Chronicle)
    (opened : opening? k d.journal = some (owner, total)) (ended : d.HasEnded k)
    (survived : ∀ point, .died point ∉ deeds (.task k) d.journal) :
    Past owner total (deeds (.task k) d.journal) [] := by
  have hpast : d.IsPast k := by
    refine Decidable.byContradiction fun hpast => ?_
    obtain rfl : k = d.sessions := Decidable.byContradiction fun hne =>
      hpast (h.isPast_of_ne opened hne)
    have busy : d.session.state ≠ .idle := fun hidle => hpast (.inr ⟨rfl, hidle⟩)
    obtain ⟨owner', howner, -⟩ := h.current busy
    have ht : d.task = none := by
      rcases ht : d.task with _ | t
      · rfl
      · exact absurd rfl (ended.1 (by rw [ht]; rfl))
    obtain ⟨body, point, hdeeds, -⟩ := h.dead owner' busy ht howner
    refine survived point ?_
    change _ ∈ deeds d.taskActor _
    rw [hdeeds]
    simp
  exact ended.2 ▸ h.past k owner total opened hpast

/-! ## Reading the deeds of a session that is past -/

section Reading

variable {body done : List Effect} {left : List Duty} {outcome : Outcome} {received : UInt32}
  {flags : SessionFlags}

/-- What is done after the verdict is what the farewell asks for. -/
theorem duty_of_done (duties : done.map Effect.duty? ++ left.map some
    = (farewell (some owner) total flags outcome).map some) {e : Effect} (he : e ∈ done) :
    ∃ duty ∈ farewell (some owner) total flags outcome, e.duty? = some duty := by
  have hmem : e.duty? ∈ (farewell (some owner) total flags outcome).map some := by
    rw [← duties]
    exact List.mem_append_left _ (List.mem_map_of_mem he)
  obtain ⟨duty, hduty, heq⟩ := List.mem_map.mp hmem
  exact ⟨duty, hduty, heq.symm⟩

/-- **There is one verdict.** -/
theorem verdicts_eq (work : ∀ e ∈ body, e.IsWork owner total)
    (duties : done.map Effect.duty? ++ left.map some
      = (farewell (some owner) total flags outcome).map some) :
    (body ++ .event (outcome.verdict total received) :: done).filterMap Effect.verdict?
      = [outcome.verdict total received] := by
  have hbody : body.filterMap Effect.verdict? = [] :=
    List.filterMap_eq_nil_iff.mpr fun e he => (work e he).verdict?
  have hdone : done.filterMap Effect.verdict? = [] := List.filterMap_eq_nil_iff.mpr fun e he => by
    obtain ⟨duty, -, hduty⟩ := duty_of_done duties he
    exact Effect.verdict?_of_duty? hduty
  have hverdict : (Effect.event (outcome.verdict total received)).verdict?
      = some (outcome.verdict total received) := by
    rcases outcome with _ | reason <;> rfl
  rw [List.filterMap_append, hbody, List.filterMap_cons, hverdict, hdone]
  rfl

/-- The closing calls come before the verdict. -/
theorem closings_eq (duties : done.map Effect.duty? ++ left.map some
    = (farewell (some owner) total flags outcome).map some) :
    closings (body ++ .event (outcome.verdict total received) :: done) = closings body := by
  have hdone : done.filterMap Effect.closing? = [] := List.filterMap_eq_nil_iff.mpr fun e he => by
    obtain ⟨duty, -, hduty⟩ := duty_of_done duties he
    exact Effect.closing?_of_duty? hduty
  have hverdict : (Effect.event (outcome.verdict total received)).closing? = none := by
    rcases outcome with _ | reason <;> rfl
  rw [closings_append]
  change _ ++ List.filterMap _ (_ :: _) = _
  rw [List.filterMap_cons, hverdict, hdone, List.append_nil]

theorem mem_closings_select {es : List Effect} {r : FlashResult} :
    (.select, r) ∈ closings es ↔ .flash .select r ∈ es := by
  rw [closings, List.mem_filterMap]
  refine ⟨?_, fun h => ⟨_, h, rfl⟩⟩
  rintro ⟨e, he, heq⟩
  rcases e with _ | _ | _ | ⟨call, r'⟩ | _ | _ | _ | _ | _ <;>
    simp only [Effect.closing?, reduceCtorEq] at heq
  rcases call with _ | _ | _ | _ | _ <;> simp_all

/-- The frames of a farewell. -/
theorem frames_farewell (owner : Client) (total : UInt32) (flags : SessionFlags) :
    (farewell (some owner) total flags outcome).filterMap (Duty.frameTo? owner) = match outcome with
      | .completed => [.state total 0]
      | .aborted .userDisconnect => []
      | .aborted reason => [.abort reason] := by
  rcases outcome with _ | reason
  · rcases hreset : flags.resetAfterSuccess <;> simp [farewell, Duty.frameTo?, hreset]
  · rcases reason <;> simp [farewell, Duty.frameTo?]

/-- **The last frame to the owner asks for nothing more iff the session is completed.** -/
theorem getLast?_framesTo (work : ∀ e ∈ body, e.IsWork owner total)
    (duties : done.map Effect.duty? ++ [].map some
      = (farewell (some owner) total flags outcome).map some) :
    (framesTo owner (body ++ .event (outcome.verdict total received) :: done)).getLast?
      = some (.state total 0) ↔ outcome = .completed := by
  have hbody : .state total 0 ∉ framesTo owner body := by
    intro hmem
    obtain ⟨e, he, hframe⟩ := List.mem_filterMap.mp hmem
    rcases e with ⟨c, frame, reached⟩ | _ | _ | _ | _ | _ | _ | _ | _ <;>
      simp only [Effect.frameTo?, reduceCtorEq] at hframe
    obtain ⟨-, rfl⟩ : c = owner ∧ frame = .state total 0 := by simpa using hframe
    exact (work _ he).not_saysCompleted rfl
  have hverdict : (Effect.event (outcome.verdict total received)).frameTo? owner = none := by
    rcases outcome with _ | reason <;> rfl
  have hdone : framesTo owner done
      = (farewell (some owner) total flags outcome).filterMap (Duty.frameTo? owner) :=
    framesTo_of_duties ((List.append_nil _).symm.trans duties)
  have hall : framesTo owner (body ++ .event (outcome.verdict total received) :: done)
      = framesTo owner body ++
        (farewell (some owner) total flags outcome).filterMap (Duty.frameTo? owner) := by
    rw [← hdone, framesTo, List.filterMap_append, List.filterMap_cons, hverdict]
    rfl
  rw [hall, frames_farewell]
  rcases outcome with _ | reason
  · simp
  · have hne : (framesTo owner body).getLast? ≠ some (.state total 0) :=
      fun h => hbody (List.mem_of_getLast? h)
    rcases reason <;> simp [hne]

/-- Only a completed session is reported completed, once it is over, -/
theorem eq_completed_of_report (duties : done.map Effect.duty? ++ left.map some
    = (farewell (some owner) total flags outcome).map some) {e : Effect}
    (he : e ∈ .event (outcome.verdict total received) :: done) (report : e.SaysCompleted total) :
    outcome = .completed := by
  rcases outcome with _ | reason
  · rfl
  exfalso
  rcases List.mem_cons.mp he with rfl | he
  · exact report
  · obtain ⟨duty, hduty, heq⟩ := duty_of_done duties he
    obtain ⟨c, reason', rfl⟩ : ∃ c reason', duty = .tell c (.abort reason') := by
      rcases reason <;> simp_all [farewell]
    cases e <;>
      simp only [Effect.duty?, Option.some.injEq, Duty.tell.injEq, reduceCtorEq] at heq
    obtain ⟨rfl, rfl⟩ := heq
    exact report

/-- and it is not reported aborted. -/
theorem ne_completed_of_report (duties : done.map Effect.duty? ++ left.map some
    = (farewell (some owner) total flags outcome).map some) {e : Effect}
    (he : e ∈ .event (outcome.verdict total received) :: done) (report : e.SaysAborted) :
    outcome ≠ .completed := by
  rintro rfl
  rcases List.mem_cons.mp he with rfl | he
  · exact report
  · obtain ⟨duty, hduty, heq⟩ := duty_of_done duties he
    have hduty' : duty = .tell owner (.state total 0) ∨
        duty = .broadcast (some owner) (.state total 0) ∨ duty = .restart := by
      rcases hreset : flags.resetAfterSuccess <;> simp only [farewell, hreset, Option.toList,
        List.map_cons, List.map_nil, Bool.false_eq_true, if_true, if_false, List.mem_append,
        List.mem_singleton, List.not_mem_nil, or_false] at hduty
      · exact hduty.imp id .inl
      · exact or_assoc.mp hduty
    cases e <;> rcases hduty' with rfl | rfl | rfl <;>
      simp only [Effect.duty?, Option.some.injEq, Duty.tell.injEq, reduceCtorEq] at heq
    · obtain ⟨rfl, rfl⟩ := heq
      exact report
    all_goals exact report

end Reading

/-- A list up to an element that is not in its first part has all of the first part before. -/
theorem prefix_of_split {α : Type} {body rest front back : List α} {e : α}
    (h : body ++ rest = front ++ e :: back) (hout : e ∉ body) : body <+: front ∧ e ∈ rest := by
  rcases List.append_eq_append_iff.mp h with ⟨mid, rfl, rfl⟩ | ⟨mid, rfl, hrest⟩
  · exact ⟨List.prefix_append body mid, by simp⟩
  · rcases mid with _ | ⟨e', mid⟩
    · have hrest' : e :: back = rest := hrest
      exact ⟨by simp, hrest' ▸ List.mem_cons_self⟩
    · obtain ⟨rfl, -⟩ := List.cons.inj hrest
      exact absurd (by simp) hout

/-- **A session is said to be completed only behind the selection, and to be aborted only without
one.** -/
theorem Past.reports {left : List Duty} (h : Past owner total es left) {front back : List Effect}
    {e : Effect} (split : es = front ++ e :: back) :
    (e.SaysCompleted total → .flash .select (.ok ()) ∈ front) ∧
      (e.SaysAborted → .flash .select (.ok ()) ∉ front) := by
  obtain ⟨body, done, outcome, received, flags, rfl, work, closes, duties⟩ := h
  refine ⟨fun report => ?_, fun report => ?_⟩
  · obtain ⟨hfront, he⟩ := prefix_of_split split fun he => (work e he).not_saysCompleted report
    obtain rfl := eq_completed_of_report duties he report
    exact hfront.subset (mem_closings_select.mp (closes.select_iff.mpr rfl))
  · obtain ⟨-, he⟩ := prefix_of_split split fun he => (work e he).not_saysAborted report
    intro hselect
    have hclosing : (.select, .ok ()) ∈
        closings (body ++ .event (outcome.verdict total received) :: done) :=
      mem_closings_select.mpr (split ▸ List.mem_append_left _ hselect)
    rw [closings_eq duties] at hclosing
    exact ne_completed_of_report duties he report (closes.select_iff.mp hclosing)

/-- **A session that is over agrees with itself**: its selection, its verdict, what it says and the
last frame to its owner all follow from its outcome. -/
theorem Past.agrees (h : Past owner total es []) :
    (.flash .select (.ok ()) ∈ es ↔ es.filterMap Effect.verdict? = [.completed total]) ∧
    (.flash .select (.ok ()) ∈ es ↔ ∃ n, .event (.completed n) ∈ es) ∧
    (.flash .select (.ok ()) ∈ es ↔ (framesTo owner es).getLast? = some (.state total 0)) ∧
    (.flash .select (.ok ()) ∉ es →
      (∃ reason received, es.filterMap Effect.verdict? = [.aborted reason received]) ∧
      ∀ e ∈ es, ¬e.SaysCompleted total) := by
  obtain ⟨body, done, outcome, received, flags, hes, work, closes, duties⟩ := h
  have hselect : .flash .select (.ok ()) ∈ es ↔ outcome = .completed := by
    rw [hes, ← mem_closings_select, closings_eq duties, closes.select_iff]
  have hverdict : es.filterMap Effect.verdict? = [outcome.verdict total received] :=
    hes ▸ verdicts_eq work duties
  have hreport : ∀ e ∈ es, e.SaysCompleted total → outcome = .completed := by
    intro e he report
    rcases List.mem_append.mp (hes ▸ he) with he | he
    · exact absurd report (work e he).not_saysCompleted
    · exact eq_completed_of_report duties he report
  rw [hselect]
  refine ⟨?_, ⟨?_, ?_⟩, ?_, fun hnot => ⟨?_, fun e he report => hnot (hreport e he report)⟩⟩
  · rw [hverdict, List.singleton_inj, Outcome.verdict_eq_iff]
  · rintro rfl
    exact ⟨total, hes ▸ List.mem_append_right _ List.mem_cons_self⟩
  · rintro ⟨n, hn⟩
    exact hreport _ hn trivial
  · rw [hes]
    exact (getLast?_framesTo work duties).symm
  · rcases outcome with _ | reason
    · exact absurd rfl hnot
    · exact ⟨reason, received, hverdict⟩

/-! ## The mark that an update waits -/

variable (config : Config) (firmware : Firmware) (ms : List Move)

/-- **The task that completes its session sets the mark, and no other.** -/
theorem marks_iff : (fresh config firmware).Marks ms k ↔
    ∃ n, .event (.completed n) ∈ deeds (.task k) ((fresh config firmware).run ms).journal := by
  refine ⟨?_, ?_⟩
  · rintro ⟨front, back, rfl, notYet, pending⟩
    have hcompletes := ((fresh config firmware).run front).moved (.step (.task k)) |>.pendingReboot
      notYet pending
    refine ⟨((fresh config firmware).run front).session.total, ?_⟩
    rw [deeds_run]
    refine List.mem_append_right _ (mem_doings.mpr ⟨front, _, back, rfl, rfl, ?_⟩)
    rw [hcompletes.does]
    exact List.mem_singleton_self _
  · rintro ⟨n, hmem⟩
    rw [deeds_run] at hmem
    obtain ⟨front, m, back, rfl, hactor, hdoes⟩ := mem_doings.mp hmem
    have sound := sound_run config firmware front
    have hcompletes := completes_of_does hdoes
    generalize hd' : ((fresh config firmware).run front).move m = d' at hcompletes
    rcases hcompletes with ⟨live, atStage⟩
    obtain rfl : ((fresh config firmware).run front).sessions = k := Actor.task.inj hactor
    refine ⟨front, back, rfl, (sound.busy (sound.ne_idle live)).notPending, ?_⟩
    change (Device.move _ (.step (taskActor _))).pendingReboot = true
    rw [hd']
    exact Bool.or_true _

/-- While an update waits for a reboot, the latest session is the one that was completed. -/
theorem completed_of_pendingReboot (h : ((fresh config firmware).run ms).pendingReboot = true) :
    ∃ n, .event (.completed n) ∈ deeds ((fresh config firmware).run ms).taskActor
      ((fresh config firmware).run ms).journal := by
  refine run_induction (motive := fun d => d.pendingReboot = true →
    ∃ n, .event (.completed n) ∈ deeds d.taskActor d.journal) (fun h => by cases h) ?_ ms h
  intro d m d' ih hm pending
  rcases hnow : d.pendingReboot
  · rcases hm.pendingReboot hnow pending with ⟨live, atStage⟩
    refine ⟨d.session.total, mem_deeds.mpr ?_⟩
    exact List.mem_append_right _ (List.mem_singleton_self _)
  · obtain ⟨n, hmem⟩ := ih hnow
    obtain ⟨es, hjournal, -, -⟩ := hm.journal
    have hactor : d'.taskActor = d.taskActor := by
      rcases hm.sessions with heq | ⟨-, -, hnot, -⟩
      · exact congrArg Actor.task heq
      · simp [hnow] at hnot
    rw [hactor, hjournal, deeds_append]
    exact ⟨n, List.mem_append_left _ hmem⟩

/-- As long as the session is the latest, the mark is as it was when the session was opened. -/
def KeepsMark (d : Device) (ms : List Move) (k : Nat) : Prop :=
  ∀ front m mid back, ms = front ++ m :: mid ++ back → (d.run front).sessions < k →
    k ≤ ((d.run front).move m).sessions → (d.run (front ++ m :: mid)).sessions = k →
    (d.run (front ++ m :: mid)).pendingReboot = (d.run front).pendingReboot

/-- A session that is not completed leaves the mark alone. -/
theorem keepsMark (h : ∀ n, .event (.completed n) ∉
      deeds (.task k) ((fresh config firmware).run ms).journal) :
    (fresh config firmware).KeepsMark ms k := by
  rintro front m mid back rfl before opens latest
  have hopens := (((fresh config firmware).run front).moved m).sessions
  rw [hopens.resolve_left (by omega) |>.2.2.1]
  refine Bool.eq_false_iff.mpr fun pending => ?_
  obtain ⟨n, hmem⟩ := completed_of_pendingReboot config firmware (front ++ m :: mid) pending
  refine h n ?_
  rw [run_append]
  refine mem_deeds_run ?_ back
  rw [taskActor, latest] at hmem
  exact hmem

/-- **Commit agreement.**  A session is said to be completed only behind the selection of its
image, and to be aborted only without one.  Once it is over and its task did not die, the image was
selected iff there is the one event that the session is completed, iff its task set the mark that an
update waits, iff the last frame to the owner asks for nothing more; else there is the one event
that it is aborted, the mark is kept, and nothing says that the session is completed. -/
theorem commit_agreement
    (opened : opening? k ((fresh config firmware).run ms).journal = some (owner, total)) :
    let d := (fresh config firmware).run ms
    let es := deeds (.task k) d.journal
    (∀ front e back, es = front ++ e :: back →
      (e.SaysCompleted total → .flash .select (.ok ()) ∈ front) ∧
      (e.SaysAborted → .flash .select (.ok ()) ∉ front)) ∧
    (d.HasEnded k → (∀ point, .died point ∉ es) →
      (.flash .select (.ok ()) ∈ es ↔ es.filterMap Effect.verdict? = [.completed total]) ∧
      (.flash .select (.ok ()) ∈ es ↔ (fresh config firmware).Marks ms k) ∧
      (.flash .select (.ok ()) ∈ es ↔ (framesTo owner es).getLast? = some (.state total 0)) ∧
      (.flash .select (.ok ()) ∉ es →
        (∃ reason received, es.filterMap Effect.verdict? = [.aborted reason received]) ∧
        (fresh config firmware).KeepsMark ms k ∧ ∀ e ∈ es, ¬e.SaysCompleted total)) := by
  intro d es
  have chronicle := (chronicle_run config firmware ms).2
  refine ⟨fun front e back split => ?_, fun ended survived => ?_⟩
  · by_cases hpast : d.IsPast k
    · exact (chronicle.past k owner total opened hpast).reports split
    · have he : e ∈ es := split ▸ List.mem_append_right _ List.mem_cons_self
      rcases chronicle.working opened hpast e he with hwork | ⟨point, rfl⟩
      · exact ⟨fun report => absurd report hwork.not_saysCompleted,
          fun report => absurd report hwork.not_saysAborted⟩
      · exact ⟨False.elim, False.elim⟩
  · obtain ⟨hverdict, hcompleted, hframe, haborted⟩ :=
      (chronicle.past_of_hasEnded opened ended survived).agrees
    have hmarks := hcompleted.trans (marks_iff config firmware ms).symm
    refine ⟨hverdict, hmarks, hframe, fun hnot => ?_⟩
    obtain ⟨hevent, hsilent⟩ := haborted hnot
    exact ⟨hevent, keepsMark config firmware ms fun n hn => hnot (hcompleted.mpr ⟨n, hn⟩), hsilent⟩

theorem commit_agreement_brief :
    let d := (fresh .default .unknown).run (brief 12)
    opening? 1 d.journal = some (⟨1, 1⟩, 2) ∧ d.HasEnded 1 ∧
      (deeds (.task 1) d.journal).filterMap Effect.verdict? = [.completed 2] ∧
      (framesTo ⟨1, 1⟩ (deeds (.task 1) d.journal)).getLast? = some (.state 2 0) := by
  have opened : opening? 1 ((fresh .default .unknown).run (brief 12)).journal
      = some (⟨1, 1⟩, 2) := by decide
  have ended : ((fresh .default .unknown).run (brief 12)).HasEnded 1 := by decide
  obtain ⟨hevent, -, hframe, -⟩ := (commit_agreement .default .unknown (brief 12) opened).2 ended
    (by rintro ⟨⟩ <;> decide)
  exact ⟨opened, ended, hevent.mp (by decide), hframe.mp (by decide)⟩

end Device

end OverTheAir
