import OverTheAir.Proofs.Sound

/-!
# Proofs/Chronicle — what the journal says of every session

What a session task does falls into three parts: the work on the transfer (`Effect.IsWork`), one
verdict, and the duties that are left after it.  Where a session stands decides how far its deeds
go:

* a task that is live has only worked, and its closing calls are those that lead to its stage
  (`Stage.Closes`),
* a task that died has only worked before,
* a session that is past has its verdict and does its duties, one after another (`Past`).

`chronicle_run` says so of every run.  Nothing is said here about the state alone; that is `Sound`.
-/

namespace OverTheAir

/-! ## Kinds of effects -/

/-- The verdict on a session. -/
def Outcome.verdict (total received : UInt32) : Outcome → Event
  | .completed => .completed total
  | .aborted reason => .aborted reason received

/-- A verdict opens no session. -/
theorem Outcome.opening?_verdict (total received : UInt32) :
    ∀ outcome : Outcome, Effect.opening? (.event (outcome.verdict total received)) = none
  | .completed => rfl
  | .aborted _ => rfl

namespace Effect

/-- What a task does for the transfer of a session. -/
def IsWork (owner : Client) (total : UInt32) : Effect → Prop
  | .flash _ _ => True
  | .event (.progress _ n) => n = total
  | .sent c (.state n _) _ => c = owner ∧ n.toNat < total.toNat
  | .sent c (.error code) _ => c = owner ∧ code = .packetSize
  | _ => False

/-- The call that closes a partition or selects it, and its answer. -/
def closing? : Effect → Option (FlashCall × FlashResult)
  | .flash .finish r => some (.finish, r)
  | .flash .select r => some (.select, r)
  | _ => none

/-- The verdict on a session, as it is told to the surroundings. -/
def verdict? : Effect → Option Event
  | .event (.completed total) => some (.completed total)
  | .event (.aborted reason received) => some (.aborted reason received)
  | _ => none

variable {e : Effect} {owner : Client} {total : UInt32}

theorem IsWork.verdict? (h : e.IsWork owner total) : e.verdict? = none := by
  cases e with
  | event event => cases event <;> first | rfl | exact False.elim h
  | _ => rfl

theorem IsWork.opening? (h : e.IsWork owner total) : e.opening? = none := by
  cases e with
  | event event => cases event <;> first | rfl | exact False.elim h
  | _ => rfl

theorem opening?_of_duty? {duty : Duty} (h : e.duty? = some duty) : e.opening? = none := by
  cases e <;> first | rfl | cases h

theorem verdict?_of_duty? {duty : Duty} (h : e.duty? = some duty) : e.verdict? = none := by
  cases e <;> first | rfl | cases h

theorem closing?_of_duty? {duty : Duty} (h : e.duty? = some duty) : e.closing? = none := by
  cases e <;> first | rfl | cases h

/-- The handler opens no session while it acts. -/
theorem opening?_of_isOfAction (h : e.isOfAction = true) : e.opening? = none := by
  cases e with
  | event event => cases event <;> first | rfl | cases h
  | _ => rfl

end Effect

/-- The closing calls among some deeds. -/
def closings (es : List Effect) : List (FlashCall × FlashResult) := es.filterMap Effect.closing?

theorem closings_eq_nil {es : List Effect} (h : ∀ e ∈ es, e.triesClosing = false) :
    closings es = [] := by
  refine List.filterMap_eq_nil_iff.mpr fun e he => ?_
  have hnot := h e he
  cases e with
  | flash call r => cases call <;> first | rfl | cases hnot
  | _ => rfl

@[simp] theorem closings_append (es es' : List Effect) :
    closings (es ++ es') = closings es ++ closings es' := List.filterMap_append

/-- The closing calls of a session that ends in some way. -/
def Outcome.Closes (l : List (FlashCall × FlashResult)) : Outcome → Prop
  | .completed => l = [(.finish, .ok ()), (.select, .ok ())]
  | .aborted _ => l = [] ∨ (∃ e, l = [(.finish, .error e)]) ∨
      ∃ e, l = [(.finish, .ok ()), (.select, .error e)]

/-- The closing calls that lead to a stage. -/
def Stage.Closes (l : List (FlashCall × FlashResult)) : Stage → Prop
  | .selecting => l = [(.finish, .ok ())]
  | .aborting reason => (Outcome.aborted reason).Closes l
  | .leaving outcome => outcome.Closes l
  | _ => l = []

theorem Stage.closes_next {isEnd : Bool} {l : List (FlashCall × FlashResult)} (h : l = []) :
    (Stage.next isEnd).Closes l := by
  rcases isEnd with _ | _ <;> exact h

/-- **A closing call leads to the stage that its answer leads to.** -/
theorem Stage.Closes.after {s : Stage} {l : List (FlashCall × FlashResult)} {total : UInt32}
    {call : FlashCall} (h : s.Closes l) (calls : s.call? total = some call) (r : FlashResult) :
    (s.after r).Closes (l ++ closings [.flash call r]) := by
  rcases s with _ | _ | _ | _ | _ | _ | ⟨chunk, isEnd⟩ | _ | _ | _ | _ | _ | reason | _ <;>
    simp only [call?, Option.some.injEq, reduceCtorEq] at calls <;> subst calls
  case beginning =>
    obtain rfl : l = [] := h
    rcases r with e | ⟨⟩
    · exact .inl rfl
    · rfl
  case writing =>
    obtain rfl : l = [] := h
    rcases r with e | ⟨⟩
    · exact .inl rfl
    · rfl
  case closing =>
    obtain rfl : l = [] := h
    rcases r with e | ⟨⟩
    · exact .inr (.inl ⟨e, rfl⟩)
    · rfl
  case selecting =>
    obtain rfl : l = [(.finish, .ok ())] := h
    rcases r with e | ⟨⟩
    · exact .inr (.inr ⟨e, rfl⟩)
    · rfl
  case aborting =>
    rw [show closings [.flash .abort r] = [] from rfl, List.append_nil]
    exact h

/-- As long as the transfer goes on, no closing call is made. -/
theorem Stage.Stands.not_closing {s : Session} {f : Flash} {maxChunk total : UInt32}
    {stage : Stage} {call : FlashCall} (h : stage.Stands s f maxChunk) (hs : s.InTransfer)
    (calls : stage.call? total = some call) (r : FlashResult) :
    (Effect.flash call r).triesClosing = false ∧
      (Effect.died call.point).triesClosing = false := by
  rcases stage with _ | _ | _ | _ | _ | _ | ⟨chunk, isEnd⟩ | _ | _ | _ | _ | _ | reason | _ <;>
    simp only [call?, Option.some.injEq, reduceCtorEq] at calls <;> subst calls
  case closing => exact absurd h.1.state hs.ne_finalizing
  case selecting => exact absurd h.1.state hs.ne_finalizing
  all_goals exact ⟨rfl, rfl⟩

/-! ## Duties -/

/-- The duties that an actor has on a list of errands. -/
def dutiesOf (a : Actor) (errands : List Errand) : List Duty :=
  errands.flatMap fun e => if e.actor = a then e.duties else []

theorem dutiesOf_append (a : Actor) (es es' : List Errand) :
    dutiesOf a (es ++ es') = dutiesOf a es ++ dutiesOf a es' := List.flatMap_append

theorem dutiesOf_cons (a : Actor) (e : Errand) (es : List Errand) :
    dutiesOf a (e :: es) = (if e.actor = a then e.duties else []) ++ dutiesOf a es :=
  List.flatMap_cons

/-- **Duties are done in order, and one actor's do not touch another's.** -/
theorem dutiesOf_takeDuty {a : Actor} {es es' : List Errand} {duty : Duty}
    (h : Device.takeDuty a es = some (duty, es')) :
    dutiesOf a es = duty :: dutiesOf a es' ∧ ∀ b, b ≠ a → dutiesOf b es' = dutiesOf b es := by
  induction es generalizing es' with
  | nil => cases h
  | cons e es ih =>
    simp only [Device.takeDuty] at h
    simp only [dutiesOf_cons]
    split at h
    · rename_i hactor
      have other : ∀ b, b ≠ a → e.actor ≠ b := fun b hb h => hb (h.symm.trans hactor)
      split at h <;> rename_i hduties
      · obtain ⟨ihself, ihother⟩ := ih h
        refine ⟨?_, fun b hb => ?_⟩
        · rw [if_pos hactor, hduties, ihself, List.nil_append]
        · rw [ihother b hb, if_neg (other b hb), List.nil_append]
      · obtain ⟨rfl, rfl⟩ := Prod.mk.inj (Option.some.inj h)
        refine ⟨?_, fun b hb => ?_⟩
        · rw [if_pos hactor, hduties, List.singleton_append]
        · rw [if_neg (other b hb), List.nil_append]
      · obtain ⟨rfl, rfl⟩ := Prod.mk.inj (Option.some.inj h)
        refine ⟨?_, fun b hb => ?_⟩
        · rw [if_pos hactor, hduties, dutiesOf_cons, if_pos rfl, List.cons_append]
        · rw [if_neg (other b hb), dutiesOf_cons, if_neg hb.symm]
    · rename_i hactor
      obtain ⟨⟨duty', es₁⟩, htake, heq⟩ := Option.map_eq_some_iff.mp h
      obtain ⟨rfl, rfl⟩ := Prod.mk.inj heq
      obtain ⟨ihself, ihother⟩ := ih htake
      refine ⟨?_, fun b hb => ?_⟩
      · rw [if_neg hactor, List.nil_append, dutiesOf_cons, if_neg hactor, List.nil_append, ihself]
      · rw [dutiesOf_cons, ihother b hb]

/-- An actor has no duties when there is none to take. -/
theorem dutiesOf_eq_nil_iff {a : Actor} {es : List Errand} :
    dutiesOf a es = [] ↔ Device.takeDuty a es = none := by
  refine ⟨fun none => ?_, fun none => ?_⟩
  · rcases htake : Device.takeDuty a es with _ | ⟨duty, es'⟩
    · rfl
    · cases none.symm.trans (dutiesOf_takeDuty htake).1
  · induction es with
    | nil => rfl
    | cons e es ih =>
      rw [Device.takeDuty] at none
      rw [dutiesOf_cons]
      split at none
      · next hactor =>
        rw [if_pos hactor]
        split at none
        · next noDuties =>
          rw [noDuties]
          exact ih none
        · cases none
        · cases none
      · next hactor =>
        rw [if_neg hactor]
        exact ih (Option.map_eq_none_iff.mp none)

namespace Device

open Journal

/-! ## The invariant -/

/-- The deeds of a session that is past: the work on it, the verdict, and the duties that are done;
the others are left. -/
inductive Past (owner : Client) (total : UInt32) (es : List Effect) (left : List Duty) : Prop where
  | intro (body done : List Effect) (outcome : Outcome) (received : UInt32) (flags : SessionFlags)
      (deeds : es = body ++ .event (outcome.verdict total received) :: done)
      (work : ∀ e ∈ body, e.IsWork owner total) (closes : outcome.Closes (closings body))
      (duties : done.map Effect.duty? ++ left.map some
        = (farewell (some owner) total flags outcome).map some)

/-- The session was opened before the current one, or has been left. -/
def IsPast (d : Device) (k : Nat) : Prop :=
  k < d.sessions ∨ k = d.sessions ∧ d.session.state = .idle

instance (d : Device) (k : Nat) : Decidable (d.IsPast k) :=
  inferInstanceAs (Decidable (_ ∨ _))

/-- **The journal agrees with the state**, session by session. -/
structure Chronicle (d : Device) : Prop where
  opened : (openings d.journal).length = d.sessions
  current : d.session.state ≠ .idle → ∃ owner, d.registry.owner = some owner ∧
    opening? d.sessions d.journal = some (owner, d.session.total)
  works : ∀ t owner, d.task = some t → d.registry.owner = some owner →
    ∀ e ∈ deeds d.taskActor d.journal, e.IsWork owner d.session.total
  closes : ∀ t, d.task = some t → t.stage.Closes (closings (deeds d.taskActor d.journal))
  dead : ∀ owner, d.session.state ≠ .idle → d.task = none → d.registry.owner = some owner →
    ∃ body point, deeds d.taskActor d.journal = body ++ [.died point] ∧
      ∀ e ∈ body, e.IsWork owner d.session.total
  early : d.session.InTransfer → ∀ e ∈ deeds d.taskActor d.journal, e.triesClosing = false
  past : ∀ k owner total, opening? k d.journal = some (owner, total) → d.IsPast k →
    Past owner total (deeds (.task k) d.journal) (dutiesOf (.task k) d.errands)
  future : ∀ k, d.sessions < k → deeds (.task k) d.journal = []
  undue : ∀ k, ¬d.IsPast k → dutiesOf (.task k) d.errands = []

variable {d d' : Device} {t : SessionTask}

theorem not_isPast (busy : d.session.state ≠ .idle) : ¬d.IsPast d.sessions := by
  rintro (hlt | ⟨-, hidle⟩)
  · exact Nat.lt_irrefl _ hlt
  · exact busy hidle

theorem chronicle_fresh (config : Config) (firmware : Firmware) :
    (fresh config firmware).Chronicle where
  opened := rfl
  current h := absurd rfl h
  works _ _ h := by cases h
  closes _ h := by cases h
  dead _ h := absurd rfl h
  early h := absurd rfl h.ne_idle
  past k owner total h := absurd (opening?_range h).2 (Nat.not_le_of_lt (opening?_range h).1)
  future _ _ := rfl
  undue _ _ := rfl

/-! ## Moves keep it -/

/-- What the handler does is no session's deed. -/
theorem Chronicle.quiet (h : d.Chronicle) (es : List Effect)
    (journal : d'.journal = d.journal ++ es.map (Entry.mk .handler))
    (silent : ∀ e ∈ es, e.opening? = none) (registry : d'.registry = d.registry)
    (total : d'.session.total = d.session.total)
    (idle : d'.session.state = .idle ↔ d.session.state = .idle)
    (inTransfer : d'.session.InTransfer → d.session.InTransfer) (task : d'.task = d.task)
    (sessions : d'.sessions = d.sessions)
    (duties : ∀ k, dutiesOf (.task k) d'.errands = dutiesOf (.task k) d.errands) :
    d'.Chronicle := by
  have hdeeds : ∀ k, deeds (.task k) d'.journal = deeds (.task k) d.journal := fun k => by
    rw [journal]
    exact deeds_append_of_ne (a := .task k) (b := .handler) nofun ..
  have hactor : d'.taskActor = d.taskActor := congrArg Actor.task sessions
  have hopenings : openings d'.journal = openings d.journal := by
    rw [journal, openings_append_of_silent silent]
  have hopening := opening?_congr hopenings
  have hpast : ∀ k, d'.IsPast k ↔ d.IsPast k := fun k => by rw [IsPast, IsPast, sessions, idle]
  refine ⟨?_, fun hb => ?_, fun t owner ht ho => ?_, fun t ht => ?_, fun owner hb ht ho => ?_,
    fun hi => ?_, fun k owner n ho hk => ?_, fun k hk => ?_, fun k hk => ?_⟩
  · rw [hopenings, sessions]
    exact h.opened
  · rw [registry, hopening, total, sessions]
    exact h.current (mt idle.mpr hb)
  · rw [hactor, taskActor, hdeeds, total]
    exact h.works t owner (task ▸ ht) (registry ▸ ho)
  · rw [hactor, taskActor, hdeeds]
    exact h.closes t (task ▸ ht)
  · rw [hactor, taskActor, hdeeds, total]
    exact h.dead owner (mt idle.mpr hb) (task ▸ ht) (registry ▸ ho)
  · rw [hactor, taskActor, hdeeds]
    exact h.early (inTransfer hi)
  · rw [hdeeds, duties]
    exact h.past k owner n (hopening k ▸ ho) ((hpast k).mp hk)
  · rw [hdeeds]
    exact h.future k (sessions ▸ hk)
  · rw [duties]
    exact h.undue k (mt (hpast k).mpr hk)

/-- A new session has an opening, a task that has done nothing, and no duties. -/
theorem Chronicle.opens (h : d.Chronicle) (idle : d.session.state = .idle) (owner : Client)
    (total : UInt32) (timeout : Nat) (flags : SessionFlags) (versionChecked : Bool) :
    Chronicle { d with
      registry := ⟨some owner⟩
      session := Session.opened total timeout flags
      inbox := some []
      sessions := d.sessions + 1
      task := some ⟨.launched, false, versionChecked⟩
      journal := d.journal ++ [⟨.handler, .event (.sessionStarted owner total)⟩] } := by
  have hdeeds : ∀ k, deeds (.task k)
      (d.journal ++ [⟨.handler, .event (.sessionStarted owner total)⟩])
        = deeds (.task k) d.journal := fun k => by simp
  have hopenings : openings (d.journal ++ [⟨.handler, .event (.sessionStarted owner total)⟩])
      = openings d.journal ++ [(owner, total)] := openings_append ..
  have hnone : deeds (.task (d.sessions + 1)) d.journal = [] := h.future _ (Nat.lt_succ_self _)
  have newest : opening? (d.sessions + 1)
      (d.journal ++ [⟨.handler, .event (.sessionStarted owner total)⟩]) = some (owner, total) := by
    rw [opening?, hopenings, ← h.opened]
    exact List.getElem?_concat_length
  have wasPast : ∀ k, k < d.sessions + 1 → d.IsPast k := fun k hk =>
    (Nat.lt_succ_iff_lt_or_eq.mp hk).imp id fun heq => ⟨heq, idle⟩
  refine ⟨?_, fun _ => ⟨owner, rfl, newest⟩, fun t o ht ho => ?_, fun t ht => ?_,
    fun o _ ht _ => ?_, fun _ => ?_, fun k o n ho hk => ?_, fun k hk => ?_, fun k hk => ?_⟩
  · rw [hopenings, List.length_append, h.opened]
    rfl
  · change ∀ e ∈ deeds (.task (d.sessions + 1)) _, _
    rw [hdeeds, hnone]
    simp
  · obtain rfl := Option.some.inj ht
    change closings (deeds (.task (d.sessions + 1)) _) = []
    rw [hdeeds, hnone]
    rfl
  · cases ht
  · change ∀ e ∈ deeds (.task (d.sessions + 1)) _, _
    rw [hdeeds, hnone]
    simp
  · have hlt : k < d.sessions + 1 := hk.resolve_right (by rintro ⟨-, hidle⟩; cases hidle)
    have hold : opening? k d.journal = some (o, n) := by
      rw [opening?_append_of_le (by rw [h.opened]; omega)] at ho
      exact ho
    rw [hdeeds]
    exact h.past k o n hold (wasPast k hlt)
  · rw [hdeeds]
    exact h.future k (Nat.lt_of_succ_lt hk)
  · refine h.undue k fun hp => hk ?_
    rcases hp with hlt | ⟨rfl, -⟩
    · exact .inl (Nat.lt_succ_of_lt hlt)
    · exact .inl (Nat.lt_succ_self _)

theorem Chronicle.handled {m : Move} (h : d.Chronicle) (sound : d.Sound) (hm : Handled d m d') :
    d'.Chronicle := by
  cases hm with
  | ignored => exact h
  | refused code reached =>
    exact h.quiet [.event (.rejected _ code), .sent _ (.error code) reached] rfl
      (by simp [Effect.opening?]) rfl rfl Iff.rfl id rfl rfl fun _ => rfl
  | opened _ _ idle => exact h.opens idle _ _ _ _ _
  | unopened reached _ unbound idle =>
    have hr := sound.resting idle
    have hregistry : d.registry = Registry.empty := congrArg Registry.mk unbound
    refine h.quiet [.event (.aborted .beginFailed 0), .sent _ (.abort .beginFailed) reached] rfl
      (by simp [Effect.opening?]) hregistry.symm ?_ ?_ ?_ rfl rfl fun _ => rfl
    · rw [hr.session]
    · rw [hr.session]
    · rw [hr.session]
      exact id
  | queued =>
    exact h.quiet [.queued _ _] rfl (by simp [Effect.opening?]) rfl rfl Iff.rfl id rfl rfl
      fun _ => rfl
  | recorded _ _ _ receiving =>
    refine h.quiet [] (by simp) (by simp) rfl rfl ?_ (fun _ => .inl receiving) rfl rfl fun _ => rfl
    simp [receiving]
  | acted es _ _ effects _ duties =>
    refine h.quiet es rfl (fun e he => Effect.opening?_of_isOfAction (effects e he)) rfl rfl Iff.rfl
      id rfl rfl fun k => ?_
    rcases duties with rfl | rfl
    · rfl
    · rw [dutiesOf_append]
      exact List.append_nil _

/-- What the task does leaves the other sessions as they are. -/
theorem Chronicle.acts (h : d.Chronicle) (busy : d.session.state ≠ .idle) (es : List Effect)
    (journal : d'.journal = d.journal ++ es.map (Entry.mk d.taskActor))
    (silent : ∀ e ∈ es, e.opening? = none) (registry : d'.registry = d.registry)
    (total : d'.session.total = d.session.total) (sessions : d'.sessions = d.sessions)
    (errands : d'.errands = d.errands) (busy' : d'.session.state ≠ .idle)
    (works : ∀ t owner, d'.task = some t → d.registry.owner = some owner →
      ∀ e ∈ deeds d.taskActor d.journal ++ es, e.IsWork owner d.session.total)
    (closes : ∀ t, d'.task = some t →
      t.stage.Closes (closings (deeds d.taskActor d.journal ++ es)))
    (dead : ∀ owner, d'.task = none → d.registry.owner = some owner → ∃ body point,
      deeds d.taskActor d.journal ++ es = body ++ [.died point] ∧
        ∀ e ∈ body, e.IsWork owner d.session.total)
    (early : d'.session.InTransfer → d.session.InTransfer ∧ ∀ e ∈ es, e.triesClosing = false) :
    d'.Chronicle := by
  have hown : deeds d.taskActor d'.journal = deeds d.taskActor d.journal ++ es := by
    rw [journal, deeds_append_self]
  have hother : ∀ k, k ≠ d.sessions → deeds (.task k) d'.journal = deeds (.task k) d.journal :=
    fun k hk => by
      rw [journal]
      exact deeds_append_of_ne (fun he => hk (Actor.task.inj he).symm) ..
  have hopenings : openings d'.journal = openings d.journal := by
    rw [journal, openings_append_of_silent silent]
  have hopening := opening?_congr hopenings
  have hactor : d'.taskActor = d.taskActor := congrArg Actor.task sessions
  have hpast : ∀ k, d'.IsPast k ↔ k < d.sessions := fun k => by simp [IsPast, sessions, busy']
  refine ⟨?_, fun _ => ?_, fun t o ht ho => ?_, fun t ht => ?_, fun o _ ht ho => ?_, fun hi => ?_,
    fun k o n ho hk => ?_, fun k hk => ?_, fun k hk => ?_⟩
  · rw [hopenings, sessions]
    exact h.opened
  · rw [registry, hopening, sessions, total]
    exact h.current busy
  · rw [hactor, hown, total]
    exact works t o ht (registry ▸ ho)
  · rw [hactor, hown]
    exact closes t ht
  · rw [hactor, hown, total]
    exact dead o ht (registry ▸ ho)
  · rw [hactor, hown]
    exact List.forall_mem_append.mpr ⟨h.early (early hi).1, (early hi).2⟩
  · have hlt := (hpast k).mp hk
    rw [hother k (Nat.ne_of_lt hlt), errands]
    exact h.past k o n (hopening k ▸ ho) (.inl hlt)
  · have hlt : d.sessions < k := sessions ▸ hk
    rw [hother k (Nat.ne_of_gt hlt)]
    exact h.future k hlt
  · rw [errands]
    refine h.undue k fun hp => hk ((hpast k).mpr ?_)
    exact hp.resolve_right fun hidle => busy hidle.2

/-- **The task goes on**: what has to be checked when it comes to a stage having done something. -/
theorem Chronicle.goto {d₁ : Device} {t' : SessionTask} {s : Stage} (h : d.Chronicle)
    (live : d.task = some t) (busy : d.session.state ≠ .idle) (es : List Effect)
    (journal : d₁.journal = d.journal ++ es.map (Entry.mk d.taskActor))
    (registry : d₁.registry = d.registry) (total : d₁.session.total = d.session.total)
    (sessions : d₁.sessions = d.sessions) (errands : d₁.errands = d.errands)
    (busy' : d₁.session.state ≠ .idle)
    (work : ∀ owner, d.registry.owner = some owner → ∀ e ∈ es, e.IsWork owner d.session.total)
    (closes : s.Closes (closings (deeds d.taskActor d.journal ++ es)))
    (early : d₁.session.InTransfer → d.session.InTransfer ∧ ∀ e ∈ es, e.triesClosing = false) :
    (d₁.goto t' s).Chronicle := by
  obtain ⟨owner, howner, -⟩ := h.current busy
  refine h.acts busy es journal (fun e he => (work owner howner e he).opening?) registry total
    sessions errands busy' (fun _ o _ ho e he => ?_) ?_ nofun early
  · rcases List.mem_append.mp he with he | he
    · exact h.works t o live ho e he
    · exact work o ho e he
  · rintro _ ⟨⟩
    exact closes

/-- The deeds of a task that dies end with its death. -/
theorem Chronicle.dies {faults : List Fault} {call : FlashCall} (h : d.Chronicle) (sound : d.Sound)
    (live : d.task = some t) (calls : t.stage.call? d.session.total = some call) :
    (({ d with faults }.note d.taskActor (.died call.point)).die).Chronicle := by
  have busy := sound.ne_idle live
  have dead : ∀ t', (({ d with faults }.note d.taskActor (.died call.point)).die).task ≠ some t' :=
    fun t' live' => by cases live'
  refine h.acts busy [.died call.point] rfl (by simp [Effect.opening?]) rfl rfl rfl rfl busy
    (fun t' _ live' => absurd live' (dead t')) (fun t' live' => absurd live' (dead t'))
    (fun owner _ ho => ⟨_, call.point, rfl, h.works t owner live ho⟩) fun hi => ⟨hi, ?_⟩
  rintro e he
  obtain rfl := List.mem_singleton.mp he
  exact ((sound.standing t live).stands.not_closing hi calls (.ok ())).2

/-- When the task leaves, the verdict on its session goes to the journal, -/
theorem journal_leave (d : Device) (t : SessionTask) : ∀ outcome,
    (d.leave t outcome).journal = d.journal ++
      [Effect.event (outcome.verdict d.session.total d.session.received)].map
        (Entry.mk d.taskActor)
  | .completed => rfl
  | .aborted _ => rfl

/-- and what is left to do goes to its errand. -/
theorem dutiesOf_leave (d : Device) (t : SessionTask) (outcome : Outcome) (a : Actor) :
    dutiesOf a (d.leave t outcome).errands = dutiesOf a d.errands ++ if d.taskActor = a then
      farewell d.registry.owner d.session.total d.session.flags outcome else [] := by
  change dutiesOf a (if (farewell d.registry.owner d.session.total d.session.flags outcome).isEmpty
    then d.errands else _) = _
  split
  · rename_i hnone
    rw [List.isEmpty_iff.mp hnone, ite_self, List.append_nil]
  · rw [dutiesOf_append, dutiesOf_cons]
    exact congrArg _ (List.append_nil _)

/-- **The task leaves**: its session is past, with a verdict and the duties that go with it. -/
theorem Chronicle.leaves {outcome : Outcome} (h : d.Chronicle) (live : d.task = some t)
    (busy : d.session.state ≠ .idle) (atStage : t.stage = .leaving outcome) :
    (d.leave t outcome).Chronicle := by
  obtain ⟨owner, howner, hcurrent⟩ := h.current busy
  have journal := d.journal_leave t outcome
  have silent : ∀ e ∈ [Effect.event (outcome.verdict d.session.total d.session.received)],
      e.opening? = none :=
    List.forall_mem_singleton.mpr (outcome.opening?_verdict _ _)
  have hown : deeds d.taskActor (d.leave t outcome).journal = deeds d.taskActor d.journal ++
      [.event (outcome.verdict d.session.total d.session.received)] := by
    rw [journal, deeds_append_self]
  have hne : ∀ {k}, k ≠ d.sessions → d.taskActor ≠ .task k :=
    fun hk he => hk (Actor.task.inj he).symm
  have hother : ∀ k, k ≠ d.sessions →
      deeds (.task k) (d.leave t outcome).journal = deeds (.task k) d.journal := fun k hk => by
    rw [journal, deeds_append_of_ne (hne hk)]
  have hduties : ∀ k, k ≠ d.sessions →
      dutiesOf (.task k) (d.leave t outcome).errands = dutiesOf (.task k) d.errands :=
    fun k hk => by rw [dutiesOf_leave, if_neg (hne hk), List.append_nil]
  have hopenings : openings (d.leave t outcome).journal = openings d.journal := by
    rw [journal, openings_append_of_silent silent]
  have hopening := opening?_congr hopenings
  have noTask : ∀ t', (d.leave t outcome).task ≠ some t' := fun t' live' => by cases live'
  refine ⟨hopenings ▸ h.opened, fun hb => absurd rfl hb, fun t' _ live' => absurd live' (noTask t'),
    fun t' live' => absurd live' (noTask t'), fun _ hb => absurd rfl hb,
    fun hi => absurd rfl hi.ne_idle, fun k o n ho hk => ?_, fun k hk => ?_, fun k hk => ?_⟩
  · rw [hopening] at ho
    rcases Nat.lt_or_eq_of_le (hk.elim Nat.le_of_lt fun hk => Nat.le_of_eq hk.1) with hlt | rfl
    · have hlt' : k ≠ d.sessions := Nat.ne_of_lt hlt
      rw [hother k hlt', hduties k hlt']
      exact h.past k o n ho (.inl hlt)
    · change opening? d.sessions d.journal = _ at ho
      obtain ⟨rfl, rfl⟩ := Prod.mk.inj (Option.some.inj (hcurrent.symm.trans ho))
      change Past _ _ (deeds d.taskActor _) (dutiesOf d.taskActor _)
      refine .intro _ [] outcome d.session.received d.session.flags hown
        (h.works t owner live howner) ?_ ?_
      · have hcloses := h.closes t live
        rwa [atStage] at hcloses
      · have hnone : dutiesOf d.taskActor d.errands = [] := h.undue _ (not_isPast busy)
        rw [dutiesOf_leave, hnone, if_pos rfl, howner]
        rfl
  · rw [hother k (Nat.ne_of_gt hk)]
    exact h.future k hk
  · have hlt : d.sessions < k := Nat.lt_of_not_le fun hle =>
      hk ((Nat.lt_or_eq_of_le hle).imp id fun heq => ⟨heq, rfl⟩)
    rw [hduties k (Nat.ne_of_gt hlt)]
    refine h.undue k ?_
    rintro (hlt' | ⟨heq, -⟩) <;> omega

theorem Chronicle.advanced (h : d.Chronicle) (sound : d.Sound) (live : d.task = some t)
    (hm : Advanced d t d') : d'.Chronicle := by
  have busy := sound.ne_idle live
  -- most stages come before the closing calls
  have unclosed : ∀ {s}, t.stage = s → (∀ l, s.Closes l → l = []) →
      closings (deeds d.taskActor d.journal) = [] := fun hs hl => hl _ (hs ▸ h.closes t live)
  -- a task that does nothing but go on
  have moveOn : ∀ {d₁ t' s}, d₁.journal = d.journal → d₁.registry = d.registry →
      d₁.session = d.session → d₁.sessions = d.sessions → d₁.errands = d.errands →
      s.Closes (closings (deeds d.taskActor d.journal)) → (Device.goto d₁ t' s).Chronicle := by
    intro d₁ t' s journal registry session sessions errands closes
    refine h.goto live busy [] (journal.trans (List.append_nil _).symm) registry
      (congrArg _ session) sessions errands (session ▸ busy) nofun ?_ fun hi => ?_
    · rwa [List.append_nil]
    · exact ⟨session ▸ hi, nofun⟩
  -- a task that works, and makes no closing call
  have workOn : ∀ {t' s} (e : Effect), e.triesClosing = false →
      (∀ owner, d.registry.owner = some owner → e.IsWork owner d.session.total) →
      s.Closes (closings (deeds d.taskActor d.journal)) →
      ((d.note d.taskActor e).goto t' s).Chronicle := by
    intro t' s e hclosing work closes
    have hnone : closings (deeds d.taskActor d.journal ++ [e])
        = closings (deeds d.taskActor d.journal) := by
      rw [closings_append, closings_eq_nil (List.forall_mem_singleton.mpr hclosing),
        List.append_nil]
    refine h.goto live busy [e] rfl rfl rfl rfl rfl busy (fun owner ho e' he => ?_) ?_ fun hi => ?_
    · obtain rfl := List.mem_singleton.mp he
      exact work owner ho
    · rwa [hnone]
    · exact ⟨hi, List.forall_mem_singleton.mpr hclosing⟩
  -- a task that does nothing but keep its record
  have record : ∀ {session : Session} {t' s}, session.total = d.session.total →
      session.state ≠ .idle → (session.InTransfer → d.session.InTransfer) →
      s.Closes (closings (deeds d.taskActor d.journal)) →
      (Device.goto { d with session } t' s).Chronicle := by
    intro session t' s total busy' inTransfer closes
    refine h.goto live busy [] (List.append_nil _).symm rfl total rfl rfl busy' nofun ?_
      fun hi => ?_
    · rwa [List.append_nil]
    · exact ⟨inTransfer hi, nofun⟩
  cases hm with
  | equipped hs => exact moveOn rfl rfl rfl rfl rfl (unclosed hs fun _ h => h)
  | unequipped hs => exact moveOn rfl rfl rfl rfl rfl (.inl (unclosed hs fun _ h => h))
  | died calls => exact h.dies sound live calls
  | @called call r flash faults calls _ =>
    refine h.goto live busy [.flash call r] rfl rfl rfl rfl rfl busy ?_ ?_ fun hi => ?_
    · rintro owner ho e he
      obtain rfl := List.mem_singleton.mp he
      trivial
    · rw [closings_append]
      exact (h.closes t live).after calls r
    · have hnot := ((sound.standing t live).stands.not_closing hi calls r).1
      exact ⟨hi, List.forall_mem_singleton.mpr hnot⟩
  | bailed _ aborted =>
    exact moveOn rfl rfl rfl rfl rfl (.inl (closings_eq_nil (h.early (.inr ⟨_, aborted⟩))))
  | greeted hs => exact moveOn rfl rfl rfl rfl rfl (unclosed hs fun _ h => h)
  | @told frame isEnd owner _ hs bound =>
    refine workOn _ rfl (fun owner' ho => ?_) (Stage.closes_next (unclosed hs fun _ h => h))
    obtain rfl := Option.some.inj (bound.symm.trans ho)
    obtain ⟨-, rfl | ⟨hlt, rfl⟩⟩ := sound.stands live hs
    · exact ⟨rfl, rfl⟩
    · exact ⟨rfl, hlt⟩
  | untold hs => exact moveOn rfl rfl rfl rfl rfl (Stage.closes_next (unclosed hs fun _ h => h))
  | took hs => exact moveOn rfl rfl rfl rfl rfl (unclosed hs fun _ h => h)
  | orphaned _ hs => exact moveOn rfl rfl rfl rfl rfl (.inl (unclosed hs fun _ h => h))
  | waitedOut hs => exact moveOn rfl rfl rfl rfl rfl (unclosed hs fun _ h => h)
  | timedOut hs =>
    have htransfer := (sound.stands live hs).inTransfer
    obtain ⟨r, hmark⟩ := htransfer.markAborted .timeout
    rw [hmark]
    exact record rfl nofun (fun _ => htransfer) (.inl (unclosed hs fun _ h => h))
  | woke hs => exact moveOn rfl rfl rfl rfl rfl (unclosed hs fun _ h => h)
  | skipped hs => exact moveOn rfl rfl rfl rfl rfl (Stage.closes_next (unclosed hs fun _ h => h))
  | looked hs => exact moveOn rfl rfl rfl rfl rfl (unclosed hs fun _ h => h)
  | overran hs => exact moveOn rfl rfl rfl rfl rfl (unclosed hs fun _ h => h)
  | unvetted hs => exact moveOn rfl rfl rfl rfl rfl (unclosed hs fun _ h => h)
  | fitted hs => exact moveOn rfl rfl rfl rfl rfl (unclosed hs fun _ h => h)
  | barred hs => exact moveOn rfl rfl rfl rfl rfl (.inl (unclosed hs fun _ h => h))
  | admitted hs => exact moveOn rfl rfl rfl rfl rfl (unclosed hs fun _ h => h)
  | miscounted miscounts => exact absurd miscounts (sound.not_miscounts live)
  | accounted hs _ advances =>
    obtain ⟨received, rfl, -⟩ := sound.advances live hs advances
    exact record rfl busy id (unclosed hs fun _ h => h)
  | progressed hs => exact workOn _ rfl (fun _ _ => rfl) (unclosed hs fun _ h => h)
  | filled hs => exact workOn _ rfl (fun _ _ => rfl) (Stage.closes_next (unclosed hs fun _ h => h))
  | finalizing hs =>
    exact record rfl nofun (fun hi => absurd rfl hi.ne_finalizing) (unclosed hs fun _ h => h)
  | cutShort hs => exact moveOn rfl rfl rfl rfl rfl (.inl (unclosed hs fun _ h => h))
  | left hs => exact h.leaves live busy hs

/-- A duty that is done is a deed of a session that is past. -/
theorem Past.performs {owner : Client} {total : UInt32} {es : List Effect} {left : List Duty}
    {e : Effect} {duty : Duty} (h : Past owner total es (duty :: left))
    (does : e.duty? = some duty) : Past owner total (es ++ [e]) left := by
  obtain ⟨body, done, outcome, received, flags, hdeeds, work, closes, duties⟩ := h
  refine .intro body (done ++ [e]) outcome received flags ?_ work closes ?_
  · rw [hdeeds, List.append_assoc, List.cons_append]
  · rw [← duties, List.map_append, List.append_assoc, List.map_singleton, does]
    rfl

theorem Chronicle.performed {a : Actor} (h : d.Chronicle) (sound : d.Sound)
    (hm : Performed d a d') : d'.Chronicle := by
  obtain ⟨effect, takes, does, -⟩ := hm
  rename_i duty errands firmware
  obtain ⟨hself, hother⟩ := dutiesOf_takeDuty takes
  have hdeeds : ∀ k, a ≠ .task k →
      deeds (.task k) (d.journal ++ [⟨a, effect⟩]) = deeds (.task k) d.journal :=
    fun k hk => deeds_append_of_ne hk d.journal [effect]
  -- an actor with duties is not the task of a session that is on or still to come
  have isPast : ∀ k, a = .task k → d.IsPast k := by
    rintro k rfl
    refine Decidable.byContradiction fun hk => ?_
    rw [h.undue k hk] at hself
    cases hself
  have hlatest : d.session.state ≠ .idle →
      deeds d.taskActor (d.journal ++ [⟨a, effect⟩]) = deeds d.taskActor d.journal :=
    fun busy => hdeeds d.sessions fun ha => not_isPast busy (isPast _ ha)
  have silent : ∀ e ∈ [effect], e.opening? = none :=
    List.forall_mem_singleton.mpr (Effect.opening?_of_duty? does)
  have hopenings : openings (d.journal ++ [⟨a, effect⟩]) = openings d.journal :=
    openings_append_of_silent silent d.journal a
  have hopening := opening?_congr hopenings
  refine ⟨?_, fun hb => ?_, fun t o ht ho => ?_, fun t ht => ?_, fun o hb ht ho => ?_,
    fun hi => ?_, fun k o n ho hk => ?_, fun k hk => ?_, fun k hk => ?_⟩
  · exact (congrArg List.length hopenings).trans h.opened
  · rw [hopening]
    exact h.current hb
  · change ∀ e ∈ deeds d.taskActor _, _
    rw [hlatest (sound.ne_idle ht)]
    exact h.works t o ht ho
  · change t.stage.Closes (closings (deeds d.taskActor _))
    rw [hlatest (sound.ne_idle ht)]
    exact h.closes t ht
  · change ∃ body point, deeds d.taskActor _ = _ ∧ _
    rw [hlatest hb]
    exact h.dead o hb ht ho
  · change ∀ e ∈ deeds d.taskActor _, _
    rw [hlatest hi.ne_idle]
    exact h.early hi
  · have hold := h.past k o n (hopening k ▸ ho) hk
    by_cases ha : a = .task k
    · subst ha
      rw [hself] at hold
      change Past o n (deeds (.task k) (d.journal ++ [effect].map (Entry.mk (.task k)))) _
      rw [deeds_append_self]
      exact hold.performs does
    · change Past o n (deeds (.task k) (d.journal ++ _)) (dutiesOf (.task k) errands)
      rw [hdeeds k ha, hother _ fun hk => ha hk.symm]
      exact hold
  · change deeds (.task k) (d.journal ++ _) = []
    rw [hdeeds k fun ha => ?_]
    · exact h.future k hk
    · rcases isPast k ha with hlt | ⟨heq, -⟩
      · exact Nat.lt_asymm hk hlt
      · exact Nat.ne_of_gt hk heq
  · change dutiesOf (.task k) errands = []
    rw [hother _ fun ha => hk (isPast k ha.symm)]
    exact h.undue k hk

/-- **Every move keeps the chronicle.** -/
theorem Chronicle.moved {m : Move} (h : d.Chronicle) (sound : d.Sound) (hm : Moved d m d') :
    d'.Chronicle := by
  cases hm with
  | handled hm => exact h.handled sound hm
  | advanced live hm => exact h.advanced sound live hm
  | performed _ hm => exact h.performed sound hm
  | stuck => exact h
  | @waited t waited _ live hs =>
    have hnone : closings (deeds d.taskActor d.journal) = [] :=
      (show Stage.Closes _ (.awaiting waited) from hs ▸ h.closes t live)
    refine h.goto live (sound.ne_idle live) [] (List.append_nil _).symm rfl rfl rfl rfl
      (sound.ne_idle live) nofun ?_ fun hi => ⟨hi, nofun⟩
    rwa [List.append_nil]
  | passed => exact h
  | around =>
    exact h.quiet [] (List.append_nil _).symm nofun rfl rfl Iff.rfl id rfl rfl fun _ => rfl

/-- Induction over runs, with a sound state and a journal that agrees with it at every move. -/
theorem chronicle_induction {motive : Device → Prop} (sound : d.Sound) (chronicle : d.Chronicle)
    (start : motive d)
    (keep : ∀ {d m d'}, d.Sound → d.Chronicle → motive d → Moved d m d' → motive d')
    (ms : List Move) : motive (d.run ms) := by
  have hrun := run_induction (motive := fun d => d.Sound ∧ d.Chronicle ∧ motive d)
    ⟨sound, chronicle, start⟩ (fun ⟨sound, chronicle, h⟩ hm =>
      ⟨sound.moved hm, chronicle.moved sound hm, keep sound chronicle h hm⟩) ms
  exact hrun.2.2

/-- The same for what is kept by the moves themselves, and not by every device that is like what
they make. -/
theorem chronicle_walk {motive : Device → Prop} (sound : d.Sound) (chronicle : d.Chronicle)
    (start : motive d)
    (keep : ∀ {d} (m : Move), d.Sound → d.Chronicle → motive d → motive (d.move m))
    (ms : List Move) : motive (d.run ms) := by
  induction ms generalizing d with
  | nil => exact start
  | cons m ms ih =>
    have hm := d.moved m
    exact ih (sound.moved hm) (chronicle.moved sound hm) (keep m sound chronicle start)

theorem Chronicle.run (h : d.Chronicle) (sound : d.Sound) (ms : List Move) :
    (d.run ms).Chronicle :=
  chronicle_induction sound h h (fun sound h _ hm => h.moved sound hm) ms

/-- **The journal of every run agrees with its state.** -/
theorem chronicle_run (config : Config) (firmware : Firmware) (ms : List Move) :
    ((fresh config firmware).run ms).Sound ∧ ((fresh config firmware).run ms).Chronicle :=
  ⟨sound_run config firmware ms,
    (chronicle_fresh config firmware).run (sound_fresh config firmware) ms⟩

/-! ## A short run -/

/-- A client uploads an image of two bytes, and then its task takes `n` steps. -/
def brief (n : Nat) : List Move :=
  .frame ⟨1, 1⟩ (Request.start 2 0 .none).encode :: List.replicate 4 (.step (.task 1)) ++
    .frame ⟨1, 1⟩ (Request.state true [7, 8]).encode :: List.replicate n (.step (.task 1))

end Device

end OverTheAir
