import OverTheAir.Proofs.Faults
import OverTheAir.Proofs.Verdict

/-!
# Proofs/Calls — the flash calls of a run, session by session

The flash calls of a session make up a **block** (`Block`): the partition is opened, takes chunks,
and is either closed and selected or dropped.  Where the task stands decides how far its block is
(`Stage.Made`), and a block that is cut short can be carried to an end (`Stage.Made.extends`).

* `disciplined_run` — the calls of a session that is past are a block, those of the latest one the
  beginning of one.
* `flash_discipline` — so the calls of a run are the blocks of its sessions, one after another.
-/

namespace OverTheAir

/-! ## Calls and their answers -/

/-- The flash call that an effect is, with its answer. -/
def Effect.call? : Effect → Option (FlashCall × FlashResult)
  | .flash call r => some (call, r)
  | _ => none

/-- The flash calls among some deeds, each with its answer. -/
def callsOf (es : List Effect) : List (FlashCall × FlashResult) := es.filterMap Effect.call?

theorem callsOf_append (es es' : List Effect) : callsOf (es ++ es') = callsOf es ++ callsOf es' :=
  List.filterMap_append

theorem callsOf_eq_nil {es : List Effect} (h : ∀ e ∈ es, e.call? = none) : callsOf es = [] :=
  List.filterMap_eq_nil_iff.mpr h

theorem Effect.call?_of_duty? {e : Effect} {duty : Duty} (h : e.duty? = some duty) :
    e.call? = none := by
  match e, h with
  | .sent _ _ _, _ => rfl
  | .broadcast _ _, _ => rfl
  | .restarted, _ => rfl

theorem Effect.call?_of_isOfAction {e : Effect} (h : e.isOfAction = true) : e.call? = none := by
  match e, h with
  | .firmware _ _, _ => rfl
  | .event _, _ => rfl
  | .sent _ _ _, _ => rfl
  | .restarted, _ => rfl
  | .died _, _ => rfl

/-- The flash calls of a journal, each with its caller and its answer. -/
def Journal.calls (j : Journal) : List (Actor × FlashCall × FlashResult) :=
  j.filterMap fun e => e.effect.call?.map (Prod.mk e.actor)

/-- What an actor does adds its calls to those of the journal. -/
theorem Journal.calls_append (j : Journal) (a : Actor) (es : List Effect) :
    calls (j ++ es.map (Entry.mk a)) = calls j ++ (callsOf es).map (Prod.mk a) := by
  rw [calls, List.filterMap_append, List.filterMap_map, callsOf, List.map_filterMap]
  rfl

/-! ## Blocks -/

/-- Chunks for an image of `total` bytes: none is empty or too long, and together they do not
overrun the image. -/
structure Chunks (total : UInt32) (maxChunk : Nat) (chunks : List Bytes) : Prop where
  each : ∀ chunk ∈ chunks, chunk ≠ [] ∧ chunk.length ≤ maxChunk
  within : chunks.flatten.length ≤ total.toNat

/-- The partition is opened for an image of `total` bytes and takes some chunks. -/
def taking (total : UInt32) (chunks : List Bytes) : List (FlashCall × FlashResult) :=
  (.begin total, .ok ()) :: chunks.map fun chunk => (.write chunk, .ok ())

/-- What comes between the chunks that are written and the cleanup: nothing, or a call that fails.
The partition is closed only when all of the image is there. -/
inductive Breaks (total : UInt32) (maxChunk : Nat) (chunks : List Bytes) :
    List (FlashCall × FlashResult) → Prop where
  | off : Breaks total maxChunk chunks []
  | write {chunk} (e) (h : Chunks total maxChunk (chunks ++ [chunk])) :
      Breaks total maxChunk chunks [(.write chunk, .error e)]
  | finish (e) (all : chunks.flatten.length = total.toNat) :
      Breaks total maxChunk chunks [(.finish, .error e)]
  | select (e) (all : chunks.flatten.length = total.toNat) :
      Breaks total maxChunk chunks [(.finish, .ok ()), (.select, .error e)]

/-- **The flash calls of a session**, from the first to the last. -/
inductive Block (total : UInt32) (maxChunk : Nat) : List (FlashCall × FlashResult) → Prop where
  /-- The partition cannot be opened. -/
  | refused (e r) : Block total maxChunk [(.begin total, .error e), (.abort, r)]
  | completed {chunks} (h : Chunks total maxChunk chunks)
      (all : chunks.flatten.length = total.toNat) :
      Block total maxChunk (taking total chunks ++ [(.finish, .ok ()), (.select, .ok ())])
  | dropped {chunks rest} (h : Chunks total maxChunk chunks)
      (breaks : Breaks total maxChunk chunks rest) (r) :
      Block total maxChunk (taking total chunks ++ rest ++ [(.abort, r)])

/-- So far the partition was opened and took `n` bytes. -/
def Writes (total : UInt32) (maxChunk n : Nat) (l : List (FlashCall × FlashResult)) : Prop :=
  ∃ chunks, Chunks total maxChunk chunks ∧ chunks.flatten.length = n ∧ l = taking total chunks

section Blocks

variable {total : UInt32} {maxChunk n : Nat} {l : List (FlashCall × FlashResult)} {chunk : Bytes}
  {chunks : List Bytes}

theorem Chunks.concat (h : Chunks total maxChunk chunks) (nonempty : chunk ≠ [])
    (short : chunk.length ≤ maxChunk)
    (within : chunks.flatten.length + chunk.length ≤ total.toNat) :
    Chunks total maxChunk (chunks ++ [chunk]) := by
  refine ⟨List.forall_mem_append.mpr ⟨h.each, ?_⟩, ?_⟩
  · exact List.forall_mem_singleton.mpr ⟨nonempty, short⟩
  · rw [List.flatten_append, List.length_append, List.flatten_singleton]
    exact within

theorem taking_concat (total : UInt32) (chunks : List Bytes) (chunk : Bytes) :
    taking total (chunks ++ [chunk]) = taking total chunks ++ [(.write chunk, .ok ())] := by
  rw [taking, List.map_append]
  rfl

theorem writes_begin : Writes total maxChunk 0 [(.begin total, .ok ())] :=
  ⟨[], ⟨List.forall_mem_nil _, Nat.zero_le _⟩, rfl, rfl⟩

theorem Writes.write (h : Writes total maxChunk n l) (nonempty : chunk ≠ [])
    (short : chunk.length ≤ maxChunk) (within : n + chunk.length ≤ total.toNat) :
    Writes total maxChunk (n + chunk.length) (l ++ [(.write chunk, .ok ())]) := by
  obtain ⟨chunks, hchunks, rfl, rfl⟩ := h
  refine ⟨chunks ++ [chunk], hchunks.concat nonempty short within, ?_, ?_⟩
  · rw [List.flatten_append, List.length_append, List.flatten_singleton]
  · rw [taking_concat]

/-- A transfer can be dropped between two calls, -/
theorem Writes.drop (h : Writes total maxChunk n l) (r : FlashResult) :
    Block total maxChunk (l ++ [(.abort, r)]) := by
  obtain ⟨chunks, hchunks, -, rfl⟩ := h
  have hblock := Block.dropped hchunks .off r
  rwa [List.append_nil] at hblock

/-- and after a chunk that cannot be written. -/
theorem Writes.drop_write (h : Writes total maxChunk n l) (nonempty : chunk ≠ [])
    (short : chunk.length ≤ maxChunk) (within : n + chunk.length ≤ total.toNat) (e : FlashError)
    (r : FlashResult) :
    Block total maxChunk (l ++ [(.write chunk, .error e)] ++ [(.abort, r)]) := by
  obtain ⟨chunks, hchunks, rfl, rfl⟩ := h
  exact .dropped hchunks (.write e (hchunks.concat nonempty short within)) r

end Blocks

/-! ## How far a block is -/

/-- A message is no longer than a chunk may be. -/
def Message.Short (maxChunk : Nat) : Message → Prop
  | .data chunk _ => chunk.length ≤ maxChunk
  | .wake => True

/-- The calls that were made when the task of a session stands at a stage, with `received` bytes
accounted for. -/
def Stage.Made (total : UInt32) (maxChunk received : Nat) (l : List (FlashCall × FlashResult)) :
    Stage → Prop
  | .launched | .beginning => l = []
  | .holding m => Writes total maxChunk received l ∧ m.Short maxChunk
  | .measuring chunk _ | .vetting chunk _ | .writing chunk _ =>
    Writes total maxChunk received l ∧ chunk.length ≤ maxChunk
  | .written chunk _ => Writes total maxChunk (received + chunk.length) l
  | .selecting => ∃ chunks, Chunks total maxChunk chunks ∧ chunks.flatten.length = total.toNat ∧
      l = taking total chunks ++ [(.finish, .ok ())]
  | .aborting _ => ∀ r, Block total maxChunk (l ++ [(.abort, r)])
  | .leaving _ => Block total maxChunk l
  | _ => Writes total maxChunk received l

section Made

variable {s : Stage} {total : UInt32} {maxChunk received n : Nat}
  {l : List (FlashCall × FlashResult)}

theorem Stage.made_next (h : Writes total maxChunk received l) :
    ∀ isEnd, (next isEnd).Made total maxChunk received l
  | false => h
  | true => h

/-- **A call carries the block on** to the stage that its answer leads to. -/
theorem Stage.Made.after {session : Session} {f : Flash} {maxRequest : UInt32} {call : FlashCall}
    (h : s.Made session.total maxChunk session.received.toNat l)
    (stands : s.Stands session f maxRequest) (calls : s.call? session.total = some call)
    (r : FlashResult) :
    (s.after r).Made session.total maxChunk session.received.toNat (l ++ [(call, r)]) := by
  obtain ⟨rfl, rfl⟩ | ⟨chunk, isEnd, rfl, rfl⟩ | ⟨rfl, rfl⟩ | ⟨rfl, rfl⟩ | ⟨reason, rfl, rfl⟩ :=
    call?_cases calls
  · obtain rfl : l = [] := h
    match r with
    | .error e => exact fun r => .refused e r
    | .ok () =>
      have hzero : session.received.toNat = 0 := congrArg UInt32.toNat stands.2
      change Writes session.total maxChunk session.received.toNat _
      rw [hzero]
      exact writes_begin
  · obtain ⟨hwrites, short⟩ := h
    obtain ⟨-, nonempty, within⟩ := stands
    match r with
    | .error e => exact hwrites.drop_write nonempty short within e
    | .ok () => exact hwrites.write nonempty short within
  · obtain ⟨chunks, hchunks, hlength, rfl⟩ := h
    have all : chunks.flatten.length = session.total.toNat :=
      hlength.trans (congrArg UInt32.toNat stands.1.all)
    match r with
    | .error e => exact fun r => .dropped hchunks (.finish e all) r
    | .ok () => exact ⟨chunks, hchunks, all, rfl⟩
  · obtain ⟨chunks, hchunks, all, rfl⟩ := h
    rw [List.append_assoc]
    match r with
    | .error e => exact fun r => .dropped hchunks (.select e all) r
    | .ok () => exact .completed hchunks all
  · exact h r

/-- Where the task looks for an abort, the transfer can be dropped. -/
theorem Stage.Made.drop (h : s.Made total maxChunk received l) (looks : s.looksForAbort = true) :
    ∀ r, Block total maxChunk (l ++ [(.abort, r)]) := by
  match s, looks, h with
  | .begun, _, h => exact Writes.drop h
  | .holding _, _, h => exact Writes.drop h.1
  | .written _ _, _, h => exact Writes.drop h
  | .ending, _, h => exact Writes.drop h

/-- **A block that is cut short can be carried to an end.** -/
theorem Stage.Made.extends (h : s.Made total maxChunk received l) :
    ∃ rest, Block total maxChunk (l ++ rest) := by
  have drops : ∀ {n}, Writes total maxChunk n l → ∃ rest, Block total maxChunk (l ++ rest) :=
    fun h => ⟨_, h.drop (.ok ())⟩
  have opens : l = [] → ∃ rest, Block total maxChunk (l ++ rest) := by
    rintro rfl
    exact ⟨_, .refused .noPartition (.ok ())⟩
  match s, h with
  | .launched, h => exact opens h
  | .beginning, h => exact opens h
  | .begun, h => exact drops h
  | .reporting _ _, h => exact drops h
  | .awaiting _, h => exact drops h
  | .expired, h => exact drops h
  | .holding _, h => exact drops h.1
  | .measuring _ _, h => exact drops h.1
  | .vetting _ _, h => exact drops h.1
  | .writing _ _, h => exact drops h.1
  | .written _ _, h => exact drops h
  | .counted _ _ _, h => exact drops h
  | .ending, h => exact drops h
  | .closing, h => exact drops h
  | .selecting, ⟨chunks, hchunks, all, hl⟩ =>
    refine ⟨[(.select, .ok ())], ?_⟩
    rw [hl, List.append_assoc]
    exact .completed hchunks all
  | .aborting _, h => exact ⟨_, h (.ok ())⟩
  | .leaving _, h => exact ⟨[], (List.append_nil l).symm ▸ h⟩

/-- The block of a session is cut short inside a call, and could be carried on from there. -/
def Cut (total : UInt32) (maxChunk : Nat) (l : List (FlashCall × FlashResult)) (point : Point) :
    Prop :=
  ∃ call r rest, FlashCall.point call = point ∧ Block total maxChunk (l ++ (call, r) :: rest)

theorem Stage.Made.cut {session : Session} {f : Flash} {maxRequest : UInt32} {call : FlashCall}
    (h : s.Made session.total maxChunk session.received.toNat l)
    (stands : s.Stands session f maxRequest) (calls : s.call? session.total = some call) :
    Cut session.total maxChunk l call.point := by
  obtain ⟨rest, hblock⟩ := (h.after stands calls (.error .notOpen)).extends
  rw [List.append_assoc] at hblock
  exact ⟨call, .error .notOpen, rest, rfl, hblock⟩

end Made

namespace Device

open Journal

variable {d d' : Device} {t : SessionTask} {es : List Effect}

/-! ## The invariant -/

/-- The flash calls of a session, each with its answer. -/
def callsBy (d : Device) (k : Nat) : List (FlashCall × FlashResult) :=
  callsOf (deeds (.task k) d.journal)

/-- The greatest length of a chunk. -/
def maxChunk (d : Device) : Nat := d.config.maxChunkSize.toNat

/-- The messages in the inbox are no longer than a chunk may be. -/
def ShortInbox (d : Device) : Prop :=
  ∀ queue, d.inbox = some queue → ∀ m ∈ queue, m.Short d.maxChunk

/-- **The flash calls of a device are as they should be.**  Those of the latest session are as far
as its task, and those of every session that is past are a block. -/
structure Disciplined (d : Device) : Prop where
  short : d.ShortInbox
  live : ∀ t, d.task = some t →
    t.stage.Made d.session.total d.maxChunk d.session.received.toNat (d.callsBy d.sessions)
  dead : d.session.state ≠ .idle → d.task = none → ∀ point,
    .died point ∈ deeds d.taskActor d.journal →
      Cut d.session.total d.maxChunk (d.callsBy d.sessions) point
  past : ∀ k owner total, opening? k d.journal = some (owner, total) → d.IsPast k →
    Block total d.maxChunk (d.callsBy k)

theorem disciplined_fresh (config : Config) (firmware : Firmware) :
    (fresh config firmware).Disciplined where
  short := nofun
  live _ h := by cases h
  dead busy := absurd rfl busy
  past _ _ _ h := absurd (opening?_range h).2 (Nat.not_le_of_lt (opening?_range h).1)

/-- The calls of a session grow by what its task does. -/
theorem callsBy_of_journal {a : Actor} (journal : d'.journal = d.journal ++ es.map (Entry.mk a))
    (k : Nat) : d'.callsBy k = d.callsBy k ++ if a = .task k then callsOf es else [] := by
  rw [callsBy, journal]
  split
  · rename_i ha
    rw [ha, deeds_append_self, callsOf_append]
    rfl
  · rename_i ha
    rw [deeds_append_of_ne ha, List.append_nil]
    rfl

/-- What makes no flash call adds to the calls of no session. -/
theorem callsBy_of_silent {a : Actor} (journal : d'.journal = d.journal ++ es.map (Entry.mk a))
    (silent : callsOf es = []) (k : Nat) : d'.callsBy k = d.callsBy k := by
  rw [callsBy_of_journal journal, silent, ite_self, List.append_nil]

/-- A session that is still to come has made no calls. -/
theorem Chronicle.callsBy_next (h : d.Chronicle) : d.callsBy (d.sessions + 1) = [] := by
  rw [callsBy, h.future _ (Nat.lt_succ_self _)]
  rfl

/-! ## Moves keep it -/

/-- **What makes no flash call changes nothing**, as long as the session stays the one it is. -/
theorem Disciplined.quiet {a : Actor} (h : d.Disciplined) (es : List Effect)
    (journal : d'.journal = d.journal ++ es.map (Entry.mk a)) (silent : ∀ e ∈ es, e.call? = none)
    (alive : a = d.taskActor → ∀ point, .died point ∉ es) (closed : ∀ e ∈ es, e.opening? = none)
    (config : d'.config = d.config) (total : d'.session.total = d.session.total)
    (received : d'.session.received = d.session.received)
    (idle : d'.session.state = .idle ↔ d.session.state = .idle) (task : d'.task = d.task)
    (sessions : d'.sessions = d.sessions) (short : d'.ShortInbox) : d'.Disciplined := by
  have hcalls := callsBy_of_silent journal (callsOf_eq_nil silent)
  have hmax : d'.maxChunk = d.maxChunk := by rw [maxChunk, config, maxChunk]
  have hactor : d'.taskActor = d.taskActor := congrArg Actor.task sessions
  refine ⟨short, fun t live => ?_, fun busy lost point hdied => ?_,
    fun k owner n opened hpast => ?_⟩
  · rw [total, hmax, received, hcalls, sessions]
    exact h.live t (task ▸ live)
  · rw [total, hmax, hcalls, sessions]
    refine h.dead (mt idle.mpr busy) (task ▸ lost) point ?_
    rw [hactor, journal] at hdied
    by_cases ha : a = d.taskActor
    · rw [ha, deeds_append_self] at hdied
      exact (List.mem_append.mp hdied).resolve_right (alive ha point)
    · rwa [deeds_append_of_ne ha] at hdied
  · rw [hmax, hcalls]
    rw [IsPast, sessions, idle] at hpast
    rw [journal, opening?_append_of_silent closed] at opened
    exact h.past k owner n opened hpast

/-- A new session has made no calls. -/
theorem Disciplined.opens (h : d.Disciplined) (chronicle : d.Chronicle)
    (idle : d.session.state = .idle) (owner : Client) (total : UInt32) (timeout : Nat)
    (flags : SessionFlags) (versionChecked : Bool) :
    Disciplined { d with
      registry := ⟨some owner⟩
      session := Session.opened total timeout flags
      inbox := some []
      sessions := d.sessions + 1
      task := some ⟨.launched, false, versionChecked⟩
      journal := d.journal ++ [⟨.handler, .event (.sessionStarted owner total)⟩] } := by
  generalize hd' : Device.mk .. = d'
  have journal : d'.journal
      = d.journal ++ [Effect.event (.sessionStarted owner total)].map (Entry.mk .handler) := by
    rw [← hd']
    rfl
  have hcalls := callsBy_of_silent journal (callsOf_eq_nil (by simp [Effect.call?]))
  subst hd'
  refine ⟨?_, ?_, nofun, fun k owner' n opened hpast => ?_⟩
  · rintro _ ⟨⟩
    exact List.forall_mem_nil _
  · rintro _ ⟨⟩
    exact (hcalls _).trans chronicle.callsBy_next
  · have hlt : k < d.sessions + 1 := hpast.resolve_right fun hidle => by cases hidle.2
    rw [hcalls]
    refine h.past k owner' n ?_ ?_
    · rw [opening?_append_of_le (by rw [chronicle.opened]; omega)] at opened
      exact opened
    · exact (Nat.lt_succ_iff_lt_or_eq.mp hlt).imp id fun heq => ⟨heq, idle⟩

/-- **The task goes on**: what has to be checked when it comes to a stage having done something. -/
theorem Disciplined.goto {d₁ : Device} {t' : SessionTask} {s : Stage} (h : d.Disciplined)
    (es : List Effect)
    (journal : d₁.journal = d.journal ++ es.map (Entry.mk d.taskActor))
    (closed : ∀ e ∈ es, e.opening? = none) (config : d₁.config = d.config)
    (sessions : d₁.sessions = d.sessions) (busy' : d₁.session.state ≠ .idle)
    (short : d₁.ShortInbox)
    (made : s.Made d₁.session.total d.maxChunk d₁.session.received.toNat
      (d.callsBy d.sessions ++ callsOf es)) : (d₁.goto t' s).Disciplined := by
  have hcalls := callsBy_of_journal journal
  have hmax : (d₁.goto t' s).maxChunk = d.maxChunk := by
    change d₁.config.maxChunkSize.toNat = _
    rw [config, maxChunk]
  refine ⟨short, ?_, nofun, fun k owner n opened hpast => ?_⟩
  · rintro _ ⟨⟩
    change s.Made d₁.session.total (d₁.goto t' s).maxChunk _ (d₁.callsBy d₁.sessions)
    rw [hmax, sessions, hcalls, if_pos (show d.taskActor = .task d.sessions from rfl)]
    exact made
  · have hlt : k < d.sessions := by
      rw [← sessions]
      exact hpast.resolve_right fun hidle => busy' hidle.2
    have hother : d.taskActor ≠ .task k := fun ha => Nat.ne_of_gt hlt (Actor.task.inj ha)
    change opening? k d₁.journal = _ at opened
    rw [journal, opening?_append_of_silent closed] at opened
    rw [hmax]
    change Block n d.maxChunk (d₁.callsBy k)
    rw [hcalls, if_neg hother, List.append_nil]
    exact h.past k owner n opened (.inl hlt)

/-- A task that dies leaves its block where it is. -/
theorem Disciplined.dies {faults : List Fault} {call : FlashCall} (h : d.Disciplined)
    (sound : d.Sound) (chronicle : d.Chronicle) (live : d.task = some t)
    (calls : t.stage.call? d.session.total = some call) :
    (({ d with faults }.note d.taskActor (.died call.point)).die).Disciplined := by
  have busy := sound.ne_idle live
  obtain ⟨owner, howner, -⟩ := chronicle.current busy
  generalize hd' : ({ d with faults }.note d.taskActor (.died call.point)).die = d'
  have journal : d'.journal
      = d.journal ++ [Effect.died call.point].map (Entry.mk d.taskActor) := by
    rw [← hd']
    rfl
  have hcalls := callsBy_of_silent journal (callsOf_eq_nil (by simp [Effect.call?]))
  have hopening : ∀ k, opening? k d'.journal = opening? k d.journal := fun k => by
    rw [journal, opening?_append_of_silent (by simp [Effect.opening?])]
  have hdeeds : deeds d.taskActor d'.journal
      = deeds d.taskActor d.journal ++ [Effect.died call.point] := by
    rw [journal, deeds_append_self]
  have dead : ∀ t', d'.task ≠ some t' := fun t' live' => by
    rw [← hd'] at live'
    cases live'
  subst hd'
  refine ⟨h.short, fun t' live' => absurd live' (dead t'), fun _ _ point hdied => ?_,
    fun k owner n opened hpast => ?_⟩
  · obtain rfl : point = call.point := by
      obtain hbefore | hnow := List.mem_append.mp (hdeeds ▸ hdied)
      · exact (chronicle.works t owner live howner _ hbefore).elim
      · exact Effect.died.inj (List.mem_singleton.mp hnow)
    rw [hcalls]
    exact (h.live t live).cut (sound.standing t live).stands calls
  · rw [hcalls]
    exact h.past k owner n (hopening k ▸ opened) hpast

/-- **The block of a session is whole when its task leaves.** -/
theorem Disciplined.leaves {outcome : Outcome} (h : d.Disciplined) (sound : d.Sound)
    (chronicle : d.Chronicle) (live : d.task = some t) (atStage : t.stage = .leaving outcome) :
    (d.leave t outcome).Disciplined := by
  obtain ⟨owner, -, hcurrent⟩ := chronicle.current (sound.ne_idle live)
  have journal := d.journal_leave t outcome
  have hcalls := callsBy_of_silent journal (callsOf_eq_nil (by simp [Effect.call?]))
  have closed : ∀ e ∈ [Effect.event (outcome.verdict d.session.total d.session.received)],
      e.opening? = none :=
    List.forall_mem_singleton.mpr (outcome.opening?_verdict _ _)
  have hmade : Block d.session.total d.maxChunk (d.callsBy d.sessions) := by
    have hmade := h.live t live
    rwa [atStage] at hmade
  have noTask : ∀ t', (d.leave t outcome).task ≠ some t' := fun t' live' => by cases live'
  refine ⟨nofun, fun t' live' => absurd live' (noTask t'), fun busy => absurd rfl busy,
    fun k owner' n opened hpast => ?_⟩
  rw [hcalls]
  rw [journal, opening?_append_of_silent closed] at opened
  obtain hlt | ⟨rfl, -⟩ := hpast
  · exact h.past k owner' n opened (.inl hlt)
  · change opening? d.sessions d.journal = _ at opened
    obtain ⟨rfl, rfl⟩ := Prod.mk.inj (Option.some.inj (hcurrent.symm.trans opened))
    exact hmade

theorem Disciplined.handled {m : Move} (h : d.Disciplined) (sound : d.Sound)
    (chronicle : d.Chronicle) (hm : Handled d m d') : d'.Disciplined := by
  -- the handler is no session's task
  have alive : ∀ {es : List Effect}, Actor.handler = d.taskActor → ∀ point, .died point ∉ es :=
    fun ha => absurd ha (by simp [taskActor])
  cases hm with
  | ignored => exact h
  | refused code reached =>
    exact h.quiet [.event (.rejected _ code), .sent _ (.error code) reached] rfl
      (by simp [Effect.call?]) alive (by simp [Effect.opening?]) rfl rfl rfl Iff.rfl rfl rfl h.short
  | opened _ _ idle => exact h.opens chronicle idle _ _ _ _ _
  | unopened reached _ unbound idle =>
    have hr := sound.resting idle
    refine h.quiet [.event (.aborted .beginFailed 0), .sent _ (.abort .beginFailed) reached] rfl
      (by simp [Effect.call?]) alive (by simp [Effect.opening?]) rfl ?_ ?_ ?_ rfl rfl ?_
    · rw [hr.session]
    · rw [hr.session]
    · rw [hr.session]
    · intro queue inbox
      cases inbox
  | @queued _ _ chunk isEnd queue _ _ _ short inbox =>
    refine h.quiet [.queued _ _] rfl (by simp [Effect.call?]) alive (by simp [Effect.opening?]) rfl
      rfl rfl Iff.rfl rfl rfl ?_
    rintro _ ⟨⟩
    exact List.forall_mem_append.mpr ⟨h.short queue inbox, List.forall_mem_singleton.mpr short⟩
  | recorded reason _ _ receiving woken =>
    refine h.quiet [] (List.append_nil _).symm (List.forall_mem_nil _) alive (List.forall_mem_nil _)
      rfl rfl rfl ?_ rfl rfl ?_
    · simp [receiving]
    · obtain rfl | ⟨queue, inbox, rfl⟩ := woken
      · exact h.short
      · rintro _ ⟨⟩
        have hwake : ∀ m ∈ [Message.wake], m.Short d.maxChunk :=
          List.forall_mem_singleton.mpr trivial
        exact List.forall_mem_append.mpr ⟨h.short queue inbox, hwake⟩
  | acted es _ _ effects =>
    exact h.quiet es rfl (fun e he => Effect.call?_of_isOfAction (effects e he)) alive
      (fun e he => Effect.opening?_of_isOfAction (effects e he)) rfl rfl rfl Iff.rfl rfl rfl h.short

theorem Disciplined.advanced (h : d.Disciplined) (sound : d.Sound) (chronicle : d.Chronicle)
    (live : d.task = some t) (hm : Advanced d t d') : d'.Disciplined := by
  have busy := sound.ne_idle live
  have made : ∀ {s}, t.stage = s →
      s.Made d.session.total d.maxChunk d.session.received.toNat (d.callsBy d.sessions) :=
    fun hs => hs ▸ h.live t live
  -- a task that goes on without a call, with its record and its inbox changed or not
  have goOn : ∀ {d₁ t' s} (es : List Effect),
      d₁.journal = d.journal ++ es.map (Entry.mk d.taskActor) → (∀ e ∈ es, e.call? = none) →
      (∀ e ∈ es, e.opening? = none) → d₁.config = d.config → d₁.sessions = d.sessions →
      d₁.session.state ≠ .idle → d₁.ShortInbox →
      s.Made d₁.session.total d.maxChunk d₁.session.received.toNat (d.callsBy d.sessions) →
      (Device.goto d₁ t' s).Disciplined := by
    intro d₁ t' s es journal silent closed config sessions busy' short hmade
    refine h.goto es journal closed config sessions busy' short ?_
    rwa [callsOf_eq_nil silent, List.append_nil]
  -- a task that does nothing but go on
  have moveOn : ∀ {t' s},
      s.Made d.session.total d.maxChunk d.session.received.toNat (d.callsBy d.sessions) →
      (d.goto t' s).Disciplined := by
    intro t' s hmade
    exact goOn [] (List.append_nil _).symm (List.forall_mem_nil _) (List.forall_mem_nil _) rfl rfl
      busy h.short hmade
  cases hm with
  | equipped hs =>
    exact goOn [] (List.append_nil _).symm (List.forall_mem_nil _) (List.forall_mem_nil _) rfl rfl
      busy h.short (made hs :)
  | unequipped hs parked => simp [(sound.standing t live).launched.mpr hs] at parked
  | died calls => exact h.dies sound chronicle live calls
  | @called call r flash faults calls answer =>
    exact h.goto [.flash call r] rfl (by simp [Effect.opening?]) rfl rfl busy h.short
      ((made rfl).after (sound.standing t live).stands calls r)
  | bailed looks => exact moveOn ((made rfl).drop looks)
  | greeted hs => exact moveOn (made hs :)
  | told _ hs =>
    exact goOn [.sent _ _ _] rfl (by simp [Effect.call?]) (by simp [Effect.opening?]) rfl rfl busy
      h.short (Stage.made_next (made hs) _)
  | untold hs => exact moveOn (Stage.made_next (made hs) _)
  | @took _ m queue hs inbox =>
    have hshort := h.short _ inbox
    refine goOn [] (List.append_nil _).symm (List.forall_mem_nil _) (List.forall_mem_nil _) rfl rfl
      busy ?_ ⟨made hs, hshort m List.mem_cons_self⟩
    rintro _ ⟨⟩
    exact fun m' hm' => hshort m' (List.mem_cons_of_mem m hm')
  | orphaned _ hs => exact moveOn (Writes.drop (made hs))
  | waitedOut hs => exact moveOn (made hs :)
  | timedOut hs =>
    have htakes : d.session.Takes d.flash d.session.received.toNat := sound.stands live hs
    obtain ⟨r, hmark⟩ := htakes.inTransfer.markAborted .timeout
    rw [hmark]
    exact goOn [] (List.append_nil _).symm (List.forall_mem_nil _) (List.forall_mem_nil _) rfl rfl
      (by simp) h.short (Writes.drop (made hs))
  | woke hs => exact moveOn (made hs).1
  | skipped hs => exact moveOn (Stage.made_next (made hs).1 _)
  | looked hs => exact moveOn (made hs :)
  | overran hs => exact moveOn (made hs).1
  | unvetted hs => exact moveOn (made hs :)
  | fitted hs => exact moveOn (made hs :)
  | barred hs => exact moveOn (made hs).1.drop
  | admitted hs => exact moveOn (made hs :)
  | miscounted miscounts => exact absurd miscounts (sound.not_miscounts live)
  | accounted hs _ advances =>
    obtain ⟨received, rfl, hsum, -⟩ := sound.advances live hs advances
    refine goOn [] (List.append_nil _).symm (List.forall_mem_nil _) (List.forall_mem_nil _) rfl rfl
      busy h.short ?_
    change Writes _ _ received.toNat _
    rw [hsum]
    exact made hs
  | progressed hs =>
    exact goOn [.event (.progress _ _)] rfl (by simp [Effect.call?]) (by simp [Effect.opening?]) rfl
      rfl busy h.short (made hs :)
  | filled hs =>
    exact goOn [.event (.progress _ _)] rfl (by simp [Effect.call?]) (by simp [Effect.opening?]) rfl
      rfl busy h.short (Stage.made_next (made hs) _)
  | finalizing hs =>
    exact goOn [] (List.append_nil _).symm (List.forall_mem_nil _) (List.forall_mem_nil _) rfl rfl
      (by simp) h.short (made hs :)
  | cutShort hs => exact moveOn (Writes.drop (made hs))
  | left hs => exact h.leaves sound chronicle live hs

theorem Disciplined.performed {a : Actor} (h : d.Disciplined) (hm : Performed d a d') :
    d'.Disciplined := by
  obtain ⟨effect, takes, does⟩ := hm
  refine h.quiet [effect] rfl ?_ ?_ ?_ rfl rfl rfl Iff.rfl rfl rfl h.short
  · exact List.forall_mem_singleton.mpr (Effect.call?_of_duty? does)
  · intro _ point hdied
    obtain rfl := List.mem_singleton.mp hdied
    cases does
  · exact List.forall_mem_singleton.mpr (Effect.opening?_of_duty? does)

/-- **Every move keeps the discipline.** -/
theorem Disciplined.moved {m : Move} (h : d.Disciplined) (sound : d.Sound)
    (chronicle : d.Chronicle) (hm : Moved d m d') : d'.Disciplined := by
  cases hm with
  | handled hm => exact h.handled sound chronicle hm
  | advanced live hm => exact h.advanced sound chronicle live hm
  | performed _ hm => exact h.performed hm
  | stuck => exact h
  | @waited t waited _ live hs =>
    have hmade := h.live t live
    rw [hs] at hmade
    refine h.goto [] (List.append_nil _).symm (List.forall_mem_nil _) rfl rfl (sound.ne_idle live)
      h.short ?_
    rwa [callsOf_eq_nil (List.forall_mem_nil _), List.append_nil]
  | passed => exact h
  | around =>
    exact h.quiet [] (List.append_nil _).symm (List.forall_mem_nil _) (a := .handler) nofun
      (List.forall_mem_nil _) rfl rfl rfl Iff.rfl rfl rfl h.short

theorem disciplined_run (config : Config) (firmware : Firmware) (ms : List Move) :
    ((fresh config firmware).run ms).Disciplined :=
  chronicle_induction (sound_fresh config firmware) (chronicle_fresh config firmware)
    (disciplined_fresh config firmware) (fun sound chronicle h hm => h.moved sound chronicle hm) ms

/-! ## One session after another -/

/-- The flash calls of the first `n` sessions, one session after another, each with its caller. -/
def callsUpto (d : Device) : Nat → List (Actor × FlashCall × FlashResult)
  | 0 => []
  | n + 1 => d.callsUpto n ++ (d.callsBy (n + 1)).map (Prod.mk (.task (n + 1)))

theorem callsUpto_congr {n : Nat} (h : ∀ k, k ≤ n → d'.callsBy k = d.callsBy k) :
    d'.callsUpto n = d.callsUpto n := by
  induction n with
  | zero => rfl
  | succ n ih =>
    rw [callsUpto, callsUpto, h (n + 1) (Nat.le_refl _),
      ih fun k hk => h k (Nat.le_succ_of_le hk)]

/-- A flash call is made by the task of the session that is on, which does nothing else at that
move. -/
theorem Moved.calls {m : Move} (hm : Moved d m d') : ∃ es : List Effect,
    d'.journal = d.journal ++ es.map (Entry.mk m.actor) ∧ (callsOf es = [] ∨
      (∃ call r, es = [.flash call r]) ∧ m.actor = d.taskActor ∧ d'.sessions = d.sessions ∧
        ∃ t, d.task = some t) := by
  obtain ⟨es, hjournal, hone, hes⟩ := hm.journal
  refine ⟨es, hjournal, ?_⟩
  by_cases hcall : ∃ call r, .flash call r ∈ es
  · obtain ⟨call, r, hmem⟩ := hcall
    obtain ⟨live, calls, answer⟩ := (hes _ hmem).flash call r rfl
    refine .inr ⟨⟨call, r, ?_⟩, rfl, rfl, _, live⟩
    have one : es.length = 1 := Nat.le_antisymm (hone nofun) (List.length_pos_of_mem hmem)
    obtain ⟨e, rfl⟩ := List.length_eq_one_iff.mp one
    rw [List.mem_singleton.mp hmem]
  · refine .inl (callsOf_eq_nil fun e he => ?_)
    match e, he with
    | .flash call r, he => exact absurd ⟨call, r, he⟩ hcall
    | .sent _ _ _, _ | .broadcast _ _, _ | .event _, _ | .firmware _ _, _ | .restarted, _
    | .queued _ _, _ | .died _, _ | .miscounted, _ => rfl

/-- **The calls of a journal stay in the order of their sessions.** -/
theorem calls_moved {m : Move} (h : d.journal.calls = d.callsUpto d.sessions) (sound : d.Sound)
    (chronicle : d.Chronicle) (hm : Moved d m d') :
    d'.journal.calls = d'.callsUpto d'.sessions := by
  obtain ⟨es, hjournal, hnone | ⟨⟨call, r, rfl⟩, hactor, same, t, live⟩⟩ := hm.calls
  · have hcalls := callsBy_of_silent hjournal hnone
    rw [hjournal, Journal.calls_append, hnone, List.map_nil, List.append_nil, h]
    obtain same | ⟨next, -⟩ := hm.sessions
    · rw [same, callsUpto_congr fun k _ => hcalls k]
    · rw [next, callsUpto, callsUpto_congr fun k _ => hcalls k, hcalls, chronicle.callsBy_next,
        List.map_nil, List.append_nil]
  · obtain ⟨owner, -, opened⟩ := chronicle.current (sound.ne_idle live)
    -- the task that makes the call is that of the latest session
    obtain ⟨n, hn⟩ := Nat.exists_eq_add_one.mpr (opening?_range opened).1
    rw [show d.taskActor = .task (n + 1) from congrArg Actor.task hn] at hactor
    rw [hactor] at hjournal
    have hlatest : d'.callsBy (n + 1) = d.callsBy (n + 1) ++ [(call, r)] := by
      rw [callsBy_of_journal hjournal, if_pos rfl]
      rfl
    have hearlier : ∀ k, k ≤ n → d'.callsBy k = d.callsBy k := by
      intro k hk
      have hne : Actor.task (n + 1) ≠ .task k := fun ha =>
        Nat.ne_of_gt (Nat.lt_succ_of_le hk) (Actor.task.inj ha)
      rw [callsBy_of_journal hjournal, if_neg hne, List.append_nil]
    rw [hjournal, Journal.calls_append, h, same, hn, callsUpto, callsUpto,
      callsUpto_congr hearlier, hlatest, List.map_append, List.append_assoc]
    rfl

theorem calls_run (config : Config) (firmware : Firmware) (ms : List Move) :
    let d := (fresh config firmware).run ms
    d.journal.calls = d.callsUpto d.sessions :=
  chronicle_induction (motive := fun d => d.journal.calls = d.callsUpto d.sessions)
    (sound_fresh config firmware) (chronicle_fresh config firmware) rfl
    (fun sound chronicle h hm => calls_moved h sound chronicle hm) ms

/-! ## The discipline of a run -/

/-- A device keeps its configuration. -/
theorem Moved.config {m : Move} (hm : Moved d m d') : d'.config = d.config := by
  cases hm with
  | handled hm => cases hm <;> rfl
  | advanced live hm => cases hm <;> rfl
  | performed other hm =>
    obtain ⟨effect, takes, does⟩ := hm
    rfl
  | _ => rfl

theorem config_run (config : Config) (firmware : Firmware) (ms : List Move) :
    ((fresh config firmware).run ms).config = config :=
  run_induction (motive := fun d => d.config = config) rfl (fun h hm => hm.config.trans h) ms

/-- **The discipline of flash calls.**  The flash calls of a run are those of its sessions, one
session after another.  Those of a session that is over are a block; the latest session may be on
its way, and then its calls are the beginning of one, or its task may have died inside the next
call.  And no call but one that opens the partition fails, unless it was made to. -/
theorem flash_discipline (config : Config) (firmware : Firmware) (ms : List Move) :
    let d := (fresh config firmware).run ms
    let maxChunk := config.maxChunkSize.toNat
    d.journal.calls = d.callsUpto d.sessions ∧ (openings d.journal).length = d.sessions ∧
    (∀ k owner total, opening? k d.journal = some (owner, total) →
      (d.IsPast k ∧ Block total maxChunk (d.callsBy k)) ∨
      (k = d.sessions ∧ d.task.isSome ∧ ∃ rest, Block total maxChunk (d.callsBy k ++ rest)) ∨
      (k = d.sessions ∧ ∃ point, (deeds (.task k) d.journal).getLast? = some (.died point) ∧
        Cut total maxChunk (d.callsBy k) point)) ∧
    ∀ k call e, (call, .error e) ∈ d.callsBy k → (∀ n, call ≠ .begin n) →
      ∃ f, .fault f ∈ ms ∧ f.point = call.point ∧ f.mishap = .failure e := by
  intro d maxChunk
  obtain ⟨sound, chronicle⟩ : d.Sound ∧ d.Chronicle := chronicle_run config firmware ms
  have disciplined : d.Disciplined := disciplined_run config firmware ms
  have hmax : d.maxChunk = maxChunk := by
    rw [Device.maxChunk, config_run]
  refine ⟨calls_run config firmware ms, chronicle.opened, fun k owner total opened => ?_,
    fun k call e hmem notBegin => ?_⟩
  · rw [← hmax]
    by_cases hpast : d.IsPast k
    · exact .inl ⟨hpast, disciplined.past k owner total opened hpast⟩
    right
    obtain rfl : k = d.sessions := Decidable.byContradiction fun hne =>
      hpast (chronicle.isPast_of_ne opened hne)
    have busy : d.session.state ≠ .idle := fun hidle => hpast (.inr ⟨rfl, hidle⟩)
    obtain ⟨owner', howner, hcurrent⟩ := chronicle.current busy
    obtain ⟨rfl, rfl⟩ := Prod.mk.inj (Option.some.inj (hcurrent.symm.trans opened))
    match htask : d.task with
    | some t => exact .inl ⟨rfl, rfl, (disciplined.live t htask).extends⟩
    | none =>
      obtain ⟨body, point, hdeeds, -⟩ := chronicle.dead owner' busy htask howner
      refine .inr ⟨rfl, point, ?_, disciplined.dead busy htask point ?_⟩
      · change (deeds d.taskActor d.journal).getLast? = _
        rw [hdeeds, List.getLast?_concat]
      · rw [hdeeds]
        exact List.mem_append_right _ (List.mem_singleton_self _)
  · obtain ⟨effect, heffect, heq⟩ := List.mem_filterMap.mp hmem
    match effect, heq with
    | .flash _ _, rfl => exact laid_of_fails config firmware heffect notBegin

theorem flash_discipline_brief :
    let d := (fresh .default .unknown).run (brief 12)
    opening? 1 d.journal = some (⟨1, 1⟩, 2) ∧
      Block 2 Config.default.maxChunkSize.toNat (d.callsBy 1) ∧
      d.callsBy 1 = [(.begin 2, .ok ()), (.write [7, 8], .ok ()), (.finish, .ok ()),
        (.select, .ok ())] := by
  intro d
  have opened : opening? 1 d.journal = some (⟨1, 1⟩, 2) := by decide
  have last : (deeds (.task 1) d.journal).getLast?
      = some (.broadcast (some ⟨1, 1⟩) (.state 2 0)) := by decide
  obtain ⟨-, hblock⟩ | ⟨-, live, -⟩ | ⟨-, point, died, -⟩ :=
    (flash_discipline .default .unknown (brief 12)).2.2.1 1 _ _ opened
  · exact ⟨opened, hblock, by decide⟩
  · exact absurd live (by decide)
  · cases last.symm.trans died

end Device

end OverTheAir
