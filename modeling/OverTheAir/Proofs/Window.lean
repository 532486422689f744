import Mathlib.Data.List.Induction
import OverTheAir.Proofs.Verdict

/-!
# Proofs/Window — the time between a completed update and its reboot

From the completion of a session on, an update waits for a reboot.  Until the wait is ended the
device is at rest: nothing reaches the partition, so it keeps the image that was selected last, and
no session is opened over it.  The wait ends only by a revert that succeeds.

The partition is followed from the selection on (`Waits`), one step before the mark is set.
-/

namespace OverTheAir.Device

open Journal

variable {d d' : Device} {k : Nat}

/-- A selected image waits: the mark is set, or the task is about to set it. -/
def Waits (d : Device) : Prop :=
  d.pendingReboot = true ∨ ∃ t, d.task = some t ∧ t.stage = .leaving .completed

/-- The task of the `k`-th session makes the last selection of a run, behind the moves of
`front`. -/
def SelectsLast (d : Device) (ms front : List Move) (k : Nat) : Prop :=
  ∃ back, ms = front ++ .step (.task k) :: back ∧
    .flash .select (.ok ()) ∈ (d.run front).does (.step (.task k)) ∧
    ∀ mid m rest, back = mid ++ m :: rest →
      .flash .select (.ok ()) ∉ (d.run (front ++ .step (.task k) :: mid)).does m

/-- A list that grows by one element at its end splits at that element or where it split before. -/
theorem split_concat {α : Type} {back mid rest : List α} {a b : α}
    (h : back ++ [a] = mid ++ b :: rest) :
    mid = back ∧ b = a ∨ ∃ rest', back = mid ++ b :: rest' := by
  rcases List.eq_nil_or_concat rest with rfl | ⟨rest', c, rfl⟩
  · obtain ⟨rfl, hlast⟩ := List.append_inj' h rfl
    exact .inl ⟨rfl, (List.singleton_inj.mp hlast).symm⟩
  · have h' : back ++ [a] = (mid ++ b :: rest') ++ [c] := by simpa using h
    exact .inr ⟨rest', (List.append_inj' h' rfl).1⟩

theorem SelectsLast.concat {ms front : List Move} {m : Move} (h : d.SelectsLast ms front k)
    (other : .flash .select (.ok ()) ∉ (d.run ms).does m) :
    d.SelectsLast (ms ++ [m]) front k := by
  obtain ⟨back, rfl, hselect, hlast⟩ := h
  refine ⟨back ++ [m], by simp, hselect, fun mid m' rest heq => ?_⟩
  rcases split_concat heq with ⟨rfl, rfl⟩ | ⟨rest', hback⟩
  · exact other
  · exact hlast mid m' rest' hback

/-- The partition and its image are as the last selection of a run left them. -/
structure Seals (d : Device) (ms front : List Move) (k : Nat) (total : UInt32) : Prop where
  selects : d.SelectsLast ms front k
  latest : k = (d.run ms).sessions
  selected : (d.run ms).flash.bootSelected = true
  image : (d.run ms).flash.image = ((d.run front).move (.step (.task k))).flash.image
  size : (d.run ms).flash.image.size = total.toNat
  opened : ∃ owner, opening? k (d.run ms).journal = some (owner, total)

/-- The task comes to leave with its session completed by a selection only. -/
theorem Advanced.selects {t t' : SessionTask} (live : d.task = some t) (hm : Advanced d t d')
    (live' : d'.task = some t') (atStage : t'.stage = .leaving .completed) :
    Called d .select (.ok ()) (.step d.taskActor) d' := by
  cases hm with
  | @called call r flash faults calls answer =>
    have hafter : t.stage.after r = .leaving .completed := (stage_of_goto live').symm.trans atStage
    obtain ⟨rfl, rfl⟩ := Stage.eq_select_of_after calls hafter
    exact .answered live calls answer
  | died | miscounted | left => cases live'
  | told | untold | skipped | filled =>
    exact absurd ((stage_of_goto live').symm.trans atStage) (Stage.next_ne (by simp) (by simp) _)
  | _ => cases (stage_of_goto live').symm.trans atStage

/-- **An image waits because it is selected or because it waited before**, and then nothing has
touched it. -/
theorem Waits.of_moved {m : Move} (h : d'.Waits) (hm : Moved d m d') (sound : d.Sound) :
    Called d .select (.ok ()) m d' ∨
      d.Waits ∧ d'.flash = d.flash ∧ d'.sessions = d.sessions := by
  rcases h with pending | ⟨t', live', atStage⟩
  · right
    rcases hnow : d.pendingReboot
    · rcases hm.pendingReboot hnow pending with ⟨live, atStage⟩
      exact ⟨.inr ⟨_, live, atStage⟩, rfl, rfl⟩
    · refine ⟨.inl hnow, hm.flash.resolve_right ?_, hm.sessions.resolve_right ?_⟩
      · rintro ⟨call, r, ⟨live⟩⟩
        simp [(sound.busy (sound.ne_idle live)).notPending] at hnow
      · rintro ⟨-, -, hnot, -⟩
        simp [hnow] at hnot
  · cases hm with
    | handled hm =>
      cases hm with
      | opened =>
        obtain rfl := Option.some.inj live'
        cases atStage
      | _ => exact .inr ⟨.inr ⟨t', live', atStage⟩, rfl, rfl⟩
    | advanced live hm => exact .inl (hm.selects live live' atStage)
    | performed other hm =>
      obtain ⟨_, _, _⟩ := hm
      exact .inr ⟨.inr ⟨t', live', atStage⟩, rfl, rfl⟩
    | waited => cases (stage_of_goto live').symm.trans atStage
    | _ => exact .inr ⟨.inr ⟨t', live', atStage⟩, rfl, rfl⟩

/-- **What waits is what was selected last.** -/
theorem seals_run (config : Config) (firmware : Firmware) (ms : List Move)
    (h : ((fresh config firmware).run ms).Waits) :
    ∃ front k total, (fresh config firmware).Seals ms front k total := by
  induction ms using List.reverseRecOn with
  | nil =>
    rcases h with h | ⟨t, h, -⟩ <;> cases h
  | append_singleton ms m ih =>
    obtain ⟨sound, chronicle⟩ := chronicle_run config firmware ms
    have hrun := (fresh config firmware).run_concat ms m
    rw [hrun] at h
    rcases h.of_moved (moved _ m) sound with hselect | ⟨hwaits, hflash, hsessions⟩
    · obtain ⟨t, rfl, live, -, -, hcomplete, hflash, hsessions⟩ := sound.selects hselect
      obtain ⟨owner, -, hopening⟩ := chronicle.current (sound.ne_idle live)
      refine ⟨ms, _, ((fresh config firmware).run ms).session.total, ⟨[], rfl, ?_, by simp⟩,
        ?_, ?_, ?_, ?_, owner, ?_⟩
      · exact hselect.does ▸ List.mem_singleton_self _
      · rw [hrun, hsessions]
      · rw [hrun, hflash]
      · rw [hrun]
        rfl
      · rw [hrun, hflash]
        exact hcomplete.size
      · rw [hrun]
        exact opening?_run hopening [.step (taskActor _)]
    · obtain ⟨front, k, total, hseals⟩ := ih hwaits
      obtain ⟨owner, hopened⟩ := hseals.opened
      refine ⟨front, k, total, hseals.selects.concat fun hdoes => ?_, ?_, ?_, ?_, ?_, owner, ?_⟩
      · obtain ⟨t, -, live, hs, -⟩ := sound.selects (called_of_does hdoes)
        rcases hwaits with pending | ⟨t', live', hs'⟩
        · simp [(sound.busy (sound.ne_idle live)).notPending] at pending
        · obtain rfl := Option.some.inj (live.symm.trans live')
          cases hs.symm.trans hs'
      · rw [hrun, hsessions]
        exact hseals.latest
      · rw [hrun, hflash]
        exact hseals.selected
      · rw [hrun, hflash]
        exact hseals.image
      · rw [hrun, hflash]
        exact hseals.size
      · rw [hrun]
        exact opening?_run hopened [m]

/-- The wait ends by a revert that succeeds, and not otherwise. -/
theorem Moved.reverts {m : Move} (hm : Moved d m d') (pending : d.pendingReboot = true)
    (cleared : d'.pendingReboot = false) : ∃ c f, ∃ es : List Effect, m = .frame c f ∧
      Request.decode f = .ok (.action .invalidateImage) ∧
      d'.journal = d.journal ++ es.map (Entry.mk .handler) ∧
      .firmware .revert (.ok ()) ∈ es := by
  have same : d'.pendingReboot ≠ d.pendingReboot := by simp [pending, cleared]
  cases hm with
  | handled h =>
    cases h with
    | acted es decodes unbound effects hpending duties =>
      rcases hpending with rfl | ⟨-, -, rfl, hrevert⟩
      · exact absurd rfl same
      · exact ⟨_, _, es, rfl, decodes, rfl, hrevert⟩
    | _ => exact absurd rfl same
  | advanced live h =>
    cases h with
    | left => simp [leave, emit, note, pending] at cleared
    | _ => exact absurd rfl same
  | performed other h =>
    obtain ⟨_, _, _⟩ := h
    exact absurd rfl same
  | _ => exact absurd rfl same

/-- In a run, the update of the `k`-th session is reverted while it waits for a reboot. -/
def Reverts (d : Device) (ms : List Move) (k : Nat) : Prop :=
  ∃ front m back, ms = front ++ m :: back ∧ (d.run front).sessions = k ∧
    (d.run front).pendingReboot = true ∧ .firmware .revert (.ok ()) ∈ (d.run front).does m

theorem Reverts.behind (front : List Move) {back : List Move}
    (h : (d.run front).Reverts back k) : d.Reverts (front ++ back) k := by
  obtain ⟨mid, m, rest, rfl, counted, pending, reverts⟩ := h
  rw [← run_append] at counted pending reverts
  exact ⟨front ++ mid, m, rest, by simp, counted, pending, reverts⟩

/-- **No session is opened over an update that waits**: it is reverted before. -/
theorem reverts_of_lt {ms : List Move} (pending : d.pendingReboot = true)
    (opens : d.sessions < (d.run ms).sessions) : d.Reverts ms d.sessions := by
  induction ms generalizing d with
  | nil => exact absurd opens (Nat.lt_irrefl _)
  | cons m ms ih =>
    rcases hcleared : (d.move m).pendingReboot
    · obtain ⟨c, f, es, rfl, -, hjournal, reverts⟩ := (d.moved m).reverts pending hcleared
      exact ⟨[], _, ms, rfl, rfl, pending, does_eq hjournal ▸ reverts⟩
    · have counted : (d.move m).sessions = d.sessions := by
        refine (d.moved m).sessions.resolve_right ?_
        rintro ⟨-, -, notPending, -⟩
        cases pending.symm.trans notPending
      rw [← counted] at opens ⊢
      exact Reverts.behind [m] (ih hcleared opens)

/-- A task that completes its session leaves the device without one. -/
theorem Completes.left_eq {m : Move} (h : Completes d m d') :
    m = .step d.taskActor ∧ d'.sessions = d.sessions ∧ d'.session = Session.idle := by
  rcases h with ⟨live, atStage⟩
  exact ⟨rfl, rfl, rfl⟩

/-- **A session that is completed is followed by another only once it is reverted.** -/
theorem reverts_of_completed (config : Config) (firmware : Firmware) {ms : List Move} {n : UInt32}
    (completed : .event (.completed n) ∈ deeds (.task k) ((fresh config firmware).run ms).journal)
    (opens : k < ((fresh config firmware).run ms).sessions) :
    (fresh config firmware).Reverts ms k := by
  obtain ⟨front, back, rfl, notYet, pending⟩ := (marks_iff config firmware ms).mpr ⟨n, completed⟩
  have completes := (moved _ (.step (.task k))).pendingReboot notYet pending
  obtain ⟨hstep, counted, -⟩ := completes.left_eq
  obtain rfl : k = ((fresh config firmware).run front).sessions :=
    Actor.task.inj (Move.step.inj hstep)
  rw [run_append, run_cons] at opens
  have reverts := reverts_of_lt pending (by rwa [counted])
  rw [counted] at reverts
  exact Reverts.behind front (Reverts.behind [.step (taskActor _)] reverts)

/-- A device at rest makes no flash call, -/
theorem Resting.does (h : d.Resting) {m : Move} {e : Effect} (he : e ∈ d.does m) :
    e.triesFlash = false := by
  refine Bool.eq_false_iff.mpr fun htries => ?_
  obtain ⟨-, t, call, live, -⟩ := (accounted_of_does he).tries htries
  cases h.noTask.symm.trans live

/-- and its partition stays as it is. -/
theorem Resting.flash (h : d.Resting) (m : Move) : (d.move m).flash = d.flash := by
  refine (d.moved m).flash.resolve_right ?_
  rintro ⟨call, r, hcalled⟩
  generalize d.move m = d' at hcalled
  obtain ⟨live, -, -⟩ := hcalled
  cases h.noTask.symm.trans live

/-- A session that completes has its image selected. -/
theorem Chronicle.selected (h : d.Chronicle) (sound : d.Sound) {m : Move}
    (completes : Completes d m (d.move m)) : ∃ k owner total, m = .step (.task k) ∧
      opening? k d.journal = some (owner, total) ∧
      .flash .select (.ok ()) ∈ deeds (.task k) d.journal ∧
      d.does m = [.event (.completed total)] := by
  have hdoes := completes.does
  generalize d.move m = d' at completes
  obtain ⟨live, atStage⟩ := completes
  obtain ⟨owner, -, hopening⟩ := h.current (sound.ne_idle live)
  have hcloses : Outcome.Closes (closings (deeds d.taskActor d.journal)) .completed := by
    have hcloses := h.closes _ live
    rwa [atStage] at hcloses
  exact ⟨d.sessions, owner, d.session.total, rfl, hopening,
    mem_closings_select.mp (hcloses.select_iff.mpr rfl), hdoes⟩

/-- While an update waits, no session is opened. -/
theorem start_eq_refuse (sound : d.Sound) (pending : d.pendingReboot = true) (c : Client)
    (total : UInt32) (timeoutMs : UInt16) (flags : SessionFlags) :
    d.start c total timeoutMs flags = d.refuse c .wrongTime := by
  have hr : d.Resting := sound.resting_of_pending pending
  have free : (d.registry.isBound || !d.session.isIdle || !d.writerParked) = false := by
    simp [Registry.isBound, hr.unbound, Session.isIdle, hr.session, Session.idle, hr.parked]
  rw [start, free, pending]
  rfl

/-- **The window of a completed update.**  While an update waits for a reboot, the device is at rest
and the partition has the image that was selected last, all of its announced size; no move makes a
flash call, and every request for a session is refused.  The wait begins when a session is
completed, and ends when an invalidation has the image reverted. -/
theorem completed_update_window (config : Config) (firmware : Firmware) (ms : List Move) :
    let d := (fresh config firmware).run ms
    (d.pendingReboot = true →
      d.session = Session.idle ∧ d.registry.owner = none ∧ d.writerParked = true ∧
      (∃ front k total, (fresh config firmware).Seals ms front k total) ∧
      ∀ m, (∀ e ∈ d.does m, e.triesFlash = false) ∧ (d.move m).flash = d.flash ∧
        ∀ c f total timeoutMs flags, m = .frame c f →
          Request.decode f = .ok (.start total timeoutMs flags) →
          d.move m = d.refuse c .wrongTime) ∧
    (∀ m, d.pendingReboot = false → (d.move m).pendingReboot = true → ∃ k owner total,
      m = .step (.task k) ∧ opening? k d.journal = some (owner, total) ∧
      .flash .select (.ok ()) ∈ deeds (.task k) d.journal ∧
      d.does m = [.event (.completed total)]) ∧
    ∀ m, d.pendingReboot = true → (d.move m).pendingReboot = false → ∃ c f,
      m = .frame c f ∧ Request.decode f = .ok (.action .invalidateImage) ∧
      .firmware .revert (.ok ()) ∈ d.does m := by
  intro d
  obtain ⟨sound, chronicle⟩ := chronicle_run config firmware ms
  refine ⟨fun pending => ?_, fun m notYet pending => ?_, fun m pending cleared => ?_⟩
  · have hr : d.Resting := sound.resting_of_pending pending
    refine ⟨hr.session, hr.unbound, hr.parked, seals_run config firmware ms (.inl pending),
      fun m => ⟨fun e he => hr.does he, hr.flash m, ?_⟩⟩
    rintro c f total timeoutMs flags rfl decodes
    rw [← start_eq_refuse sound pending c total timeoutMs flags]
    change d.receive c f = _
    rw [receive, decodes]
  · exact chronicle.selected sound ((d.moved m).pendingReboot notYet pending)
  · obtain ⟨c, f, es, rfl, decodes, hjournal, hrevert⟩ := (d.moved m).reverts pending cleared
    exact ⟨c, f, rfl, decodes, does_eq hjournal ▸ hrevert⟩

theorem completed_update_window_brief :
    let d := (fresh .default .unknown).run (brief 10)
    d.pendingReboot = true ∧ d.session = Session.idle ∧
      ∃ front k total, (fresh .default .unknown).Seals (brief 10) front k total := by
  have pending : ((fresh .default .unknown).run (brief 10)).pendingReboot = true := by decide
  obtain ⟨idle, -, -, seals, -⟩ :=
    (completed_update_window .default .unknown (brief 10)).1 pending
  exact ⟨pending, idle, seals⟩

end OverTheAir.Device
