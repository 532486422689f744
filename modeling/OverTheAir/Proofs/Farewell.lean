import OverTheAir.Proofs.Verdict

/-!
# Proofs/Farewell — a session takes leave of its owner once, and of nobody else

A transfer is concluded by a frame that asks for nothing more or says that it is aborted, and by
whatever is broadcast.  These are the `partings` among the deeds of a session, and they are what its
outcome asks for: one frame to the owner, none if the owner is gone, and a broadcast to the others
behind it only if the session is completed (`Past.parts`).

A request for a session is also accepted when no task can be created for it; then the handler
concludes the session at once (`does_accepted`).  Nobody else concludes anything, for every actor
keeps to what it is there for (`Proper`).
-/

namespace OverTheAir

/-! ## What concludes a transfer -/

/-- All of an image of `total` bytes is there, or its transfer is aborted. -/
def Response.concludes (total : UInt32) : Response → Bool
  | .state n _ => n == total
  | .abort _ => true
  | _ => false

/-- The duty tells someone that a transfer of `total` bytes is concluded. -/
def Duty.parts (total : UInt32) : Duty → Bool
  | .tell _ frame => frame.concludes total
  | .broadcast _ _ => true
  | .restart => false

/-- What is said to conclude a transfer of `total` bytes, in order, and to whom. -/
def partings (total : UInt32) (es : List Effect) : List Duty :=
  (es.filterMap Effect.duty?).filter (Duty.parts total)

/-- What there is to say when a session ends in some way.  An owner that is gone is told nothing. -/
def Outcome.parting (owner : Client) (total : UInt32) : Outcome → List Duty
  | .completed => [.tell owner (.state total 0), .broadcast (some owner) (.state total 0)]
  | .aborted .userDisconnect => []
  | .aborted reason => [.tell owner (.abort reason)]

/-- What a task may say: to the owner anything, to the others that the session is completed. -/
def Duty.IsFor (owner : Client) (total : UInt32) : Duty → Prop
  | .tell c _ => c = owner
  | .broadcast except frame => except = some owner ∧ frame = .state total 0
  | .restart => True

variable {owner : Client} {total : UInt32} {outcome : Outcome} {flags : SessionFlags}

theorem partings_append (total : UInt32) (es es' : List Effect) :
    partings total (es ++ es') = partings total es ++ partings total es' := by
  rw [partings, List.filterMap_append, List.filter_append]
  rfl

/-- While a task works on a transfer, nothing concludes it. -/
theorem partings_work {es : List Effect} (work : ∀ e ∈ es, e.IsWork owner total) :
    partings total es = [] := by
  refine List.filter_eq_nil_iff.mpr fun duty hduty parts => ?_
  obtain ⟨e, he, speaks⟩ := List.mem_filterMap.mp hduty
  have hwork := work e he
  cases e with
  | sent c frame reached =>
    obtain rfl : Duty.tell c frame = duty := Option.some.inj speaks
    cases frame with
    | state n requested =>
      have hall : n = total := by simpa [Duty.parts, Response.concludes] using parts
      exact absurd (congrArg UInt32.toNat hall) (Nat.ne_of_lt hwork.2)
    | error => cases parts
    | _ => exact hwork
  | flash | event => cases speaks
  | _ => exact hwork

/-- Deeds that do duties say what the duties are to say. -/
theorem partings_of_duties {done : List Effect} {duties : List Duty}
    (h : done.map Effect.duty? = duties.map some) (total : UInt32) :
    partings total done = duties.filter (Duty.parts total) := by
  have hdone : done.filterMap Effect.duty? = duties := by
    calc done.filterMap Effect.duty? = (done.map Effect.duty?).filterMap id := by
          rw [List.filterMap_map]; rfl
      _ = (duties.map some).filterMap id := by rw [h]
      _ = duties := by rw [List.filterMap_map]; exact List.filterMap_some
  rw [partings, hdone]

theorem parts_farewell :
    (Device.farewell (some owner) total flags outcome).filter (Duty.parts total)
      = outcome.parting owner total := by
  rcases outcome with _ | reason
  · rcases hreset : flags.resetAfterSuccess <;>
      simp [Device.farewell, Duty.parts, Response.concludes, Outcome.parting, List.filter, hreset]
  · rcases reason <;> simp [Device.farewell, Duty.parts, Response.concludes, Outcome.parting]

/-- A farewell is for the owner, and for the others only if the session is completed. -/
theorem isFor_of_farewell {duty : Duty}
    (h : duty ∈ Device.farewell (some owner) total flags outcome) : duty.IsFor owner total ∧
      ∀ except frame, duty = .broadcast except frame → outcome = .completed := by
  rcases outcome with _ | reason
  · refine ⟨?_, fun _ _ _ => rfl⟩
    rcases hreset : flags.resetAfterSuccess <;> simp [Device.farewell, hreset] at h
    · rcases h with rfl | rfl
      · rfl
      · exact ⟨rfl, rfl⟩
    · rcases h with rfl | rfl | rfl
      · rfl
      · exact ⟨rfl, rfl⟩
      · trivial
  · obtain ⟨reason', rfl⟩ : ∃ reason', duty = .tell owner (.abort reason') := by
      rcases reason <;> simp_all [Device.farewell]
    exact ⟨rfl, fun except frame h => Duty.noConfusion h⟩

/-! ## What an actor is there for -/

/-- An errand has the duties of its actor: a restarter has to restart and the handler has none.
Tasks are numbered from 1. -/
def Errand.Proper (e : Errand) : Prop :=
  match e.actor with
  | .handler => False
  | .restarter => ∀ duty ∈ e.duties, duty = .restart
  | .task k => 0 < k

/-- An entry is by an actor that there is, and a restarter only restarts. -/
def Entry.Proper (e : Entry) : Prop :=
  match e.actor with
  | .handler => True
  | .restarter => e.effect = .restarted
  | .task k => 0 < k

/-- An errand is proper if another one of its actor is that has all of its duties. -/
theorem Errand.Proper.sub {e e' : Errand} (h : e.Proper) (actor : e'.actor = e.actor)
    (duties : ∀ duty ∈ e'.duties, duty ∈ e.duties) : e'.Proper := by
  rw [Proper] at h ⊢
  rw [actor]
  rcases ha : e.actor with _ | k | _ <;> rw [ha] at h
  · exact h
  · exact h
  · exact fun duty hduty => h duty (duties duty hduty)

/-- Doing a duty of a proper errand makes a proper entry. -/
theorem Errand.Proper.entry {e : Errand} (h : e.Proper) {duty : Duty} (hduty : duty ∈ e.duties)
    {effect : Effect} (does : effect.duty? = some duty) : Entry.Proper ⟨e.actor, effect⟩ := by
  rw [Proper] at h
  rw [Entry.Proper]
  rcases ha : e.actor with _ | k | _ <;> rw [ha] at h
  · exact h.elim
  · exact h
  · obtain rfl := h duty hduty
    cases effect with
    | restarted => rfl
    | _ => cases does

/-- A duty that is taken was on the list, and so were those that stay. -/
theorem mem_of_takeDuty {a : Actor} {es es' : List Errand} {duty : Duty}
    (h : Device.takeDuty a es = some (duty, es')) : (∃ e ∈ es, e.actor = a ∧ duty ∈ e.duties) ∧
      ∀ e' ∈ es', ∃ e ∈ es, e'.actor = e.actor ∧ ∀ x ∈ e'.duties, x ∈ e.duties := by
  fun_induction Device.takeDuty a es generalizing es' with
  | case1 => cases h
  | case2 e es _ _ ih =>
    obtain ⟨⟨e₁, he₁, htaken⟩, hstay⟩ := ih h
    refine ⟨⟨e₁, List.mem_cons_of_mem _ he₁, htaken⟩, fun e' he' => ?_⟩
    obtain ⟨e₂, he₂, hsub⟩ := hstay e' he'
    exact ⟨e₂, List.mem_cons_of_mem _ he₂, hsub⟩
  | case3 e es hactor duty hduties =>
    cases h
    exact ⟨⟨e, List.mem_cons_self, hactor, by simp [hduties]⟩,
      fun e' he' => ⟨e', List.mem_cons_of_mem _ he', rfl, fun _ hx => hx⟩⟩
  | case4 e es hactor duty next duties hduties =>
    cases h
    refine ⟨⟨e, List.mem_cons_self, hactor, by simp [hduties]⟩, fun e' he' => ?_⟩
    rcases List.mem_cons.mp he' with rfl | he'
    · refine ⟨e, List.mem_cons_self, hactor.symm, fun x hx => ?_⟩
      rw [hduties]
      exact List.mem_cons_of_mem _ hx
    · exact ⟨e', List.mem_cons_of_mem _ he', rfl, fun _ hx => hx⟩
  | case5 e es _ ih =>
    obtain ⟨⟨duty', rest⟩, htake, heq⟩ := Option.map_eq_some_iff.mp h
    cases heq
    obtain ⟨⟨e₁, he₁, htaken⟩, hstay⟩ := ih htake
    refine ⟨⟨e₁, List.mem_cons_of_mem _ he₁, htaken⟩, fun e' he' => ?_⟩
    rcases List.mem_cons.mp he' with rfl | he'
    · exact ⟨e', List.mem_cons_self, rfl, fun _ hx => hx⟩
    · obtain ⟨e₂, he₂, hsub⟩ := hstay e' he'
      exact ⟨e₂, List.mem_cons_of_mem _ he₂, hsub⟩

namespace Device

open Journal

variable {d d' : Device} {es : List Effect} {left : List Duty} {k : Nat}

/-! ## A session with a task -/

/-- **A session that is over has said what its outcome asks for**, and nothing else concluded it. -/
theorem Past.parts (h : Past owner total es []) : ∃ outcome received,
    es.filterMap Effect.verdict? = [Outcome.verdict total received outcome] ∧
      partings total es = outcome.parting owner total := by
  obtain ⟨body, done, outcome, received, flags, rfl, work, closes, duties⟩ := h
  refine ⟨outcome, received, verdicts_eq work duties, ?_⟩
  have hdone : partings total done = outcome.parting owner total := by
    exact (partings_of_duties ((List.append_nil _).symm.trans duties) total).trans parts_farewell
  have hverdict : (Effect.event (outcome.verdict total received)).duty? = none := rfl
  calc partings total (body ++ .event (outcome.verdict total received) :: done)
      = partings total body ++ partings total done := by
        rw [partings_append, partings, partings, partings, List.filterMap_cons, hverdict]
    _ = outcome.parting owner total := by rw [partings_work work, hdone, List.nil_append]

/-- Work is told to the owner. -/
theorem isFor_of_work {e : Effect} {duty : Duty} (work : e.IsWork owner total)
    (speaks : e.duty? = some duty) :
    duty.IsFor owner total ∧ ∃ frame, duty = .tell owner frame := by
  cases e with
  | sent c frame reached =>
    obtain rfl : Duty.tell c frame = duty := Option.some.inj speaks
    obtain rfl : c = owner := by
      cases frame with
      | state | error => exact work.1
      | _ => exact work.elim
    exact ⟨rfl, frame, rfl⟩
  | flash | event => cases speaks
  | _ => exact work.elim

/-- **A task speaks to the owner of its session**, and to the others only to say that the session is
completed. -/
theorem Chronicle.isFor (h : d.Chronicle) (opened : opening? k d.journal = some (owner, total))
    {e : Effect} (he : e ∈ deeds (.task k) d.journal) {duty : Duty} (speaks : e.duty? = some duty) :
    duty.IsFor owner total ∧ ∀ except frame, duty = .broadcast except frame →
      .event (.completed total) ∈ deeds (.task k) d.journal := by
  by_cases hpast : d.IsPast k
  · obtain ⟨body, done, outcome, received, flags, hes, work, closes, duties⟩ :=
      h.past k owner total opened hpast
    rw [hes] at he ⊢
    rcases List.mem_append.mp he with he | he
    · obtain ⟨hfor, frame, rfl⟩ := isFor_of_work (work e he) speaks
      exact ⟨hfor, nofun⟩
    rcases List.mem_cons.mp he with rfl | he
    · cases speaks
    obtain ⟨duty', hduty, heq⟩ := duty_of_done duties he
    obtain rfl := Option.some.inj (speaks.symm.trans heq)
    obtain ⟨hfor, hcompleted⟩ := isFor_of_farewell hduty
    refine ⟨hfor, fun except frame hb => ?_⟩
    rw [hcompleted except frame hb]
    exact List.mem_append_right _ List.mem_cons_self
  · rcases h.working opened hpast e he with work | ⟨point, rfl⟩
    · obtain ⟨hfor, frame, rfl⟩ := isFor_of_work work speaks
      exact ⟨hfor, nofun⟩
    · cases speaks

/-! ## Every actor keeps to what it is there for -/

/-- Every actor keeps to what it is there for. -/
structure Proper (d : Device) : Prop where
  errands : ∀ e ∈ d.errands, e.Proper
  journal : ∀ e ∈ d.journal, e.Proper

/-- **Every move keeps actors to what they are there for.** -/
theorem Proper.moved {m : Move} (h : d.Proper) (sound : d.Sound) (chronicle : d.Chronicle)
    (hm : Moved d m d') : d'.Proper := by
  cases hm with
  | handled hm =>
    refine ⟨?_, ?_⟩
    · cases hm with
      | acted es decodes unbound effects pending duties =>
        rcases duties with rfl | rfl
        · exact h.errands
        · refine List.forall_mem_append.mpr ⟨h.errands, List.forall_mem_singleton.mpr ?_⟩
          exact List.forall_mem_singleton.mpr rfl
      | _ => exact h.errands
    · obtain ⟨-, es, hjournal, -⟩ := hm.journal
      rw [hjournal]
      refine List.forall_mem_append.mpr ⟨h.journal, List.forall_mem_map.mpr fun e _ => ?_⟩
      trivial
  | advanced live hm =>
    obtain ⟨owner, -, opened⟩ := chronicle.current (sound.ne_idle live)
    have numbered : 0 < d.sessions := (opening?_range opened).1
    refine ⟨?_, ?_⟩
    · cases hm with
      | @left outcome atStage =>
        change ∀ e ∈ (if List.isEmpty _ then d.errands else d.errands ++ [_]), e.Proper
        split
        · exact h.errands
        · exact List.forall_mem_append.mpr ⟨h.errands, List.forall_mem_singleton.mpr numbered⟩
      | _ => exact h.errands
    · obtain ⟨es, hjournal, -⟩ := hm.journal live
      rw [hjournal]
      exact List.forall_mem_append.mpr ⟨h.journal, List.forall_mem_map.mpr fun e _ => numbered⟩
  | performed other hm =>
    obtain ⟨effect, takes, does⟩ := hm
    obtain ⟨⟨e, he, rfl, hduty⟩, hstay⟩ := mem_of_takeDuty takes
    refine ⟨fun e' he' => ?_, List.forall_mem_append.mpr ⟨h.journal, ?_⟩⟩
    · obtain ⟨e₁, he₁, hactor, hsub⟩ := hstay e' he'
      exact (h.errands e₁ he₁).sub hactor hsub
    · exact List.forall_mem_singleton.mpr ((h.errands e he).entry hduty does)
  | _ => exact ⟨h.errands, h.journal⟩

theorem proper_run (config : Config) (firmware : Firmware) (ms : List Move) :
    ((fresh config firmware).run ms).Proper :=
  chronicle_induction (sound_fresh config firmware) (chronicle_fresh config firmware)
    ⟨nofun, nofun⟩ (fun sound chronicle h hm => h.moved sound chronicle hm) ms

/-- The sessions that are counted were opened. -/
theorem Chronicle.opened_of_le (h : d.Chronicle) (numbered : 0 < k) (counted : k ≤ d.sessions) :
    ∃ owner total, opening? k d.journal = some (owner, total) := by
  obtain ⟨k, rfl⟩ := Nat.exists_eq_add_one.mpr numbered
  have hlt : k < (openings d.journal).length := by
    rw [h.opened]
    exact counted
  exact ⟨_, _, List.getElem?_eq_getElem hlt⟩

/-- Only the task of a session that was opened does anything. -/
theorem Chronicle.opened_of_deed (h : d.Chronicle) (proper : d.Proper) {e : Effect}
    (he : e ∈ deeds (.task k) d.journal) :
    ∃ owner total, opening? k d.journal = some (owner, total) := by
  have numbered : 0 < k := proper.journal _ (mem_deeds.mp he)
  refine h.opened_of_le numbered (Nat.le_of_not_lt fun hlt => ?_)
  rw [h.future k hlt] at he
  cases he

/-! ## A request for a session -/

/-- The handler refuses nothing at a move. -/
def Accepts (d : Device) (m : Move) : Prop := ∀ c code, .event (.rejected c code) ∉ d.does m

/-- **A request that is accepted opens a session, or the handler aborts it at once** because no task
can be created. -/
theorem does_accepted {c : Client} {f : Bytes} {timeoutMs : UInt16}
    (decodes : Request.decode f = .ok (.start total timeoutMs flags))
    (accepted : d.Accepts (.frame c f)) :
    ((d.move (.frame c f)).sessions = d.sessions + 1 ∧
      d.does (.frame c f) = [.event (.sessionStarted c total)]) ∨
    ((d.move (.frame c f)).sessions = d.sessions ∧ ∃ reached, d.does (.frame c f)
      = [.event (.aborted .beginFailed 0), .sent c (.abort .beginFailed) reached]) := by
  have hmove : d.move (.frame c f) = d.start c total timeoutMs flags := move_of_start decodes
  have notRefused : ∀ {code}, d.move (.frame c f) ≠ d.refuse c code := by
    intro code hrefuse
    exact accepted c code (does_of_refuse hrefuse ▸ List.mem_cons_self)
  rw [start] at hmove
  split at hmove
  · exact absurd hmove notRefused
  split at hmove
  · exact absurd hmove notRefused
  split at hmove
  · exact absurd hmove notRefused
  split at hmove
  · exact absurd hmove notRefused
  dsimp only at hmove
  split at hmove
  · refine .inr ⟨by rw [hmove]; rfl, !d.unreachable.contains c, does_eq (a := .handler) ?_⟩
    rw [hmove]
    simp [emit, send, note]
  · refine .inl ⟨by rw [hmove]; rfl, does_eq (a := .handler) ?_⟩
    rw [hmove]
    rfl

/-- The handler turns a transfer down before it has begun: a request for a session is accepted, and
no task can be created for it. -/
def TurnsDown (m : Move) (d d' : Device) (duty : Duty) : Prop :=
  ∃ c f total timeoutMs flags, m = .frame c f ∧
    Request.decode f = .ok (.start total timeoutMs flags) ∧ d'.sessions = d.sessions ∧
    duty = .tell c (.abort .beginFailed)

/-- The handler concludes a transfer only where it has not begun. -/
theorem Handled.parts {m : Move} (h : Handled d m d') (total : UInt32) : ∃ es : List Effect,
    d'.journal = d.journal ++ es.map (Entry.mk .handler) ∧ ∀ e ∈ es, ∀ duty,
      e.duty? = some duty → duty.parts total = true → TurnsDown m d d' duty := by
  cases h with
  | ignored => exact ⟨[], (List.append_nil _).symm, List.forall_mem_nil _⟩
  | refused code reached =>
    refine ⟨[.event (.rejected _ code), .sent _ (.error code) reached], rfl, ?_⟩
    refine List.forall_mem_cons.mpr ⟨by simp [Effect.duty?], ?_⟩
    refine List.forall_mem_singleton.mpr fun duty speaks parts => ?_
    obtain rfl := Option.some.inj speaks
    cases parts
  | opened => exact ⟨[.event (.sessionStarted _ _)], rfl, by simp [Effect.duty?]⟩
  | unopened reached decodes =>
    refine ⟨[.event (.aborted .beginFailed 0), .sent _ (.abort .beginFailed) reached], rfl, ?_⟩
    refine List.forall_mem_cons.mpr ⟨by simp [Effect.duty?], ?_⟩
    refine List.forall_mem_singleton.mpr fun duty speaks parts => ?_
    obtain rfl := Option.some.inj speaks
    exact ⟨_, _, _, _, _, rfl, decodes, rfl, rfl⟩
  | queued => exact ⟨[.queued _ _], rfl, by simp [Effect.duty?]⟩
  | recorded => exact ⟨[], (List.append_nil _).symm, List.forall_mem_nil _⟩
  | acted es _ _ effects =>
    refine ⟨es, rfl, fun e he duty speaks parts => ?_⟩
    have hact := effects e he
    cases e with
    | sent c frame reached =>
      obtain rfl : Duty.tell c frame = duty := Option.some.inj speaks
      cases frame with
      | action => cases parts
      | _ => cases hact
    | restarted =>
      obtain rfl : Duty.restart = duty := Option.some.inj speaks
      cases parts
    | broadcast => cases hact
    | _ => cases speaks

/-- **Nobody but tasks concludes a transfer that has begun.** -/
theorem Proper.parts {m : Move} (h : d.Proper) (notTask : ∀ k, m.actor ≠ .task k)
    {e : Effect} (he : e ∈ d.does m) {duty : Duty} (speaks : e.duty? = some duty)
    (parts : duty.parts total = true) : TurnsDown m d (d.move m) duty := by
  have hm := d.moved m
  generalize hd' : d.move m = d' at hm
  cases hm with
  | handled hm =>
    obtain ⟨es, hjournal, hes⟩ := hm.parts total
    rw [does_eq (hd' ▸ hjournal)] at he
    exact hes e he duty speaks parts
  | advanced live hm => exact absurd rfl (notTask _)
  | @performed a _ other hm =>
    obtain ⟨effect, takes, does⟩ := hm
    obtain ⟨⟨errand, herrand, rfl, hduty⟩, -⟩ := mem_of_takeDuty takes
    have hjournal : (d.move (.step errand.actor)).journal
        = d.journal ++ [effect].map (Entry.mk errand.actor) := congrArg Device.journal hd'
    rw [does_eq hjournal] at he
    obtain rfl : e = effect := List.mem_singleton.mp he
    obtain rfl := Option.some.inj (speaks.symm.trans does)
    have hproper := h.errands errand herrand
    rw [Errand.Proper] at hproper
    rcases ha : errand.actor with _ | k | _ <;> rw [ha] at hproper
    · exact hproper.elim
    · exact absurd ha (notTask k)
    · rw [hproper _ hduty] at parts
      cases parts
  | _ =>
    rw [does_eq_nil ((congrArg Device.journal hd').trans rfl)] at he
    cases he

/-! ## One farewell -/

/-- What is done for the session that a move asks for, in a run that goes on with `back`: by its
task, or by the handler at once if there is none. -/
def doneFor (d : Device) (m : Move) (back : List Move) : List Effect :=
  if (d.move m).sessions = d.sessions then d.does m
  else deeds (d.move m).taskActor ((d.move m).run back).journal

/-- The session that a move asks for is over, and its task has nothing left to do. -/
def IsOver (d : Device) (m : Move) (back : List Move) : Prop :=
  (d.move m).sessions = d.sessions ∨ ((d.move m).run back).HasEnded (d.move m).sessions

/-- A session that is opened is the next one. -/
theorem Chronicle.opening_of_does (h : d.Chronicle) {m : Move} {c : Client}
    (counted : (d.move m).sessions = d.sessions + 1)
    (opens : d.does m = [.event (.sessionStarted c total)]) :
    opening? (d.move m).sessions (d.move m).journal = some (c, total) := by
  have hopenings : openings (d.move m).journal = openings d.journal ++ [(c, total)] := by
    rw [journal_move, opens]
    exact openings_append ..
  rw [counted, opening?, hopenings, ← h.opened]
  exact List.getElem?_concat_length

/-- **A session takes leave once, and of its owner.**  For every request that is accepted, once the
session is over and its task did not die, there is one verdict, and what concludes the session is
what this verdict asks for: one frame to the owner, none if the owner has gone, and behind it one
broadcast to the others if the session is completed.  Whatever else a task says goes to the owner
of its own session.  Nobody else concludes a transfer, but that the handler turns down what it has
no task for. -/
theorem one_farewell (config : Config) (firmware : Firmware) (ms : List Move) :
    let d := (fresh config firmware).run ms
    (∀ c f total timeoutMs flags, Request.decode f = .ok (.start total timeoutMs flags) →
      d.Accepts (.frame c f) → ∀ back, d.IsOver (.frame c f) back →
      (∀ point, .died point ∉ d.doneFor (.frame c f) back) → ∃ outcome received,
        (d.doneFor (.frame c f) back).filterMap Effect.verdict?
          = [Outcome.verdict total received outcome] ∧
        partings total (d.doneFor (.frame c f) back) = outcome.parting c total) ∧
    (∀ k, ∀ e ∈ deeds (.task k) d.journal, ∀ duty, e.duty? = some duty →
      ∃ owner total, opening? k d.journal = some (owner, total) ∧ duty.IsFor owner total ∧
        ∀ except frame, duty = .broadcast except frame →
          .event (.completed total) ∈ deeds (.task k) d.journal) ∧
    ∀ m, (∀ k, m.actor ≠ .task k) → ∀ e ∈ d.does m, ∀ duty, e.duty? = some duty →
      ∀ total, duty.parts total = true → TurnsDown m d (d.move m) duty := by
  intro d
  obtain ⟨sound, chronicle⟩ : d.Sound ∧ d.Chronicle := chronicle_run config firmware ms
  have proper : d.Proper := proper_run config firmware ms
  refine ⟨fun c f total timeoutMs flags decodes accepted back isOver survived => ?_,
    fun k e he duty speaks => ?_, fun m notTask e he duty speaks total parts =>
    proper.parts notTask he speaks parts⟩
  · rcases does_accepted decodes accepted with ⟨counted, opens⟩ | ⟨same, reached, aborts⟩
    · have spawned : (d.move (.frame c f)).sessions ≠ d.sessions := by omega
      rw [doneFor, if_neg spawned] at survived ⊢
      have chronicle' : ((d.move (.frame c f)).run back).Chronicle :=
        chronicle.run sound (.frame c f :: back)
      have opened := opening?_run (chronicle.opening_of_does counted opens) back
      exact (chronicle'.past_of_hasEnded opened (isOver.resolve_left spawned) survived).parts
    · rw [doneFor, if_pos same, aborts]
      exact ⟨.aborted .beginFailed, 0, rfl, rfl⟩
  · obtain ⟨owner, total, opened⟩ := chronicle.opened_of_deed proper he
    exact ⟨owner, total, opened, chronicle.isFor opened he speaks⟩

theorem one_farewell_brief :
    let d := fresh .default .unknown
    let m := Move.frame ⟨1, 1⟩ (Request.start 2 0 .none).encode
    d.Accepts m ∧ d.IsOver m (brief 12).tail ∧ partings 2 (d.doneFor m (brief 12).tail)
      = [.tell ⟨1, 1⟩ (.state 2 0), .broadcast (some ⟨1, 1⟩) (.state 2 0)] := by
  intro d m
  have accepted : d.Accepts m := by
    have opens : d.does m = [.event (.sessionStarted ⟨1, 1⟩ 2)] := by decide
    intro c code
    simp [opens]
  have isOver : d.IsOver m (brief 12).tail := .inr (by decide)
  obtain ⟨outcome, received, verdict, parts⟩ := (one_farewell .default .unknown []).1 ⟨1, 1⟩ _ 2 0
    .none (Request.decode_encode _) accepted (brief 12).tail isOver (by rintro ⟨⟩ <;> decide)
  have completed : (d.doneFor m (brief 12).tail).filterMap Effect.verdict? = [.completed 2] := by
    decide
  obtain rfl : outcome = .completed :=
    Outcome.verdict_eq_iff.mp (List.singleton_inj.mp (verdict.symm.trans completed))
  exact ⟨accepted, isOver, parts⟩

end Device

end OverTheAir
