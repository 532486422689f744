import OverTheAir.Proofs.Refusals

/-!
# Proofs/Reachability — who cannot be reached makes no difference

A run can be told as if other clients had been lost (`Retelling.amid`): the same frames are sent,
and only whether they arrive is told otherwise.  A loss changes nothing that is told so, and no
other move depends on it (`move_retold`).  So a run in which clients are lost comes to what it would
come to if every client could be reached, but for the frames that did not arrive; and those are the
frames to the clients that were lost before.
-/

namespace OverTheAir

/-- The effect, had these clients been out of reach and no others. -/
def Effect.amid (lost : List Client) : Effect → Effect
  | .sent c frame _ => .sent c frame (!lost.contains c)
  | e => e

theorem Effect.amid_of_not_sent {e : Effect} (h : e.isSent = false) (lost : List Client) :
    e.amid lost = e := by
  cases e with
  | sent => cases h
  | _ => rfl

def Entry.amid (lost : List Client) (e : Entry) : Entry := ⟨e.actor, e.effect.amid lost⟩

/-- The run is told as if these clients had been out of reach all along, and no others. -/
def Retelling.amid (lost : List Client) : Retelling where
  journal := List.map (Entry.amid lost)
  unreachable _ := lost
  note j a e h := by simp [Entry.amid, Effect.amid_of_not_sent h]
  send j a c frame _ := by simp [Entry.amid, Effect.amid]

theorem Move.eq_lose {m : Move} (h : m.isLoss = true) : ∃ c, m = .lose c := by
  cases m with
  | lose c => exact ⟨c, rfl⟩
  | _ => cases h

namespace Device

variable {d : Device} {c : Client}

/-- The device as it would be if every client could be reached: nobody is out of reach, and every
frame has arrived. -/
def delivered (d : Device) : Device :=
  { d with unreachable := [], journal := d.journal.map (Entry.amid []) }

/-- The run in which every client can be reached. -/
def withoutLosses (ms : List Move) : List Move := ms.filter fun m => !m.isLoss

@[simp] theorem withoutLosses_lose (c : Client) (ms : List Move) :
    withoutLosses (.lose c :: ms) = withoutLosses ms := rfl

theorem withoutLosses_of_not_loss {m : Move} (h : m.isLoss = false) (ms : List Move) :
    withoutLosses (m :: ms) = m :: withoutLosses ms := List.filter_cons_of_pos (by simp [h])

/-! ## Told as if every client could be reached -/

theorem delivered_fresh (config : Config) (firmware : Firmware) :
    (fresh config firmware).delivered = fresh config firmware := rfl

/-- A loss changes nothing that is told without it. -/
theorem delivered_lose (d : Device) (c : Client) : (d.move (.lose c)).delivered = d.delivered := rfl

theorem delivered_move {m : Move} (h : m.isLoss = false) :
    (d.move m).delivered = d.delivered.move m := (move_retold (.amid []) h).symm

/-- **What a run comes to does not depend on who is lost**, but for the frames that do not arrive. -/
theorem delivered_run (d : Device) (ms : List Move) :
    (d.run ms).delivered = d.delivered.run (withoutLosses ms) := by
  induction ms generalizing d with
  | nil => rfl
  | cons m ms ih =>
    rw [run_cons, ih]
    rcases hloss : m.isLoss
    · rw [delivered_move hloss, ← run_cons, withoutLosses_of_not_loss hloss]
    · obtain ⟨c, rfl⟩ := Move.eq_lose hloss
      rw [delivered_lose, withoutLosses_lose]

/-! ## Who is out of reach -/

/-- A move of a device without a journal, told as it is. -/
theorem move_amid {m : Move} (h : m.isLoss = false) :
    (d.bare.move m).retold (.amid d.unreachable) = d.bare.move m :=
  (move_retold _ h).symm

theorem unreachable_move {m : Move} (h : m.isLoss = false) :
    (d.move m).unreachable = d.unreachable := by
  have hbare := congrArg Device.unreachable (move_amid (d := d) h)
  rw [move_bare] at hbare
  exact hbare.symm

/-- A client is out of reach once it is lost, -/
theorem mem_unreachable_run (ms : List Move) :
    c ∈ (d.run ms).unreachable ↔ c ∈ d.unreachable ∨ .lose c ∈ ms := by
  induction ms generalizing d with
  | nil => simp
  | cons m ms ih =>
    rw [run_cons, ih, List.mem_cons, ← or_assoc]
    refine or_congr_left ?_
    rcases hloss : m.isLoss
    · rw [unreachable_move hloss]
      refine ⟨.inl, fun h => h.resolve_right ?_⟩
      rintro rfl
      cases hloss
    · obtain ⟨c', rfl⟩ := Move.eq_lose hloss
      simp [move, or_comm]

/-- and a frame arrives unless it is sent to such a client. -/
theorem reached_of_does {m : Move} {frame : Response} {reached : Bool}
    (h : .sent c frame reached ∈ d.does m) : reached = !d.unreachable.contains c := by
  have hloss : m.isLoss = false := by
    cases m with
    | lose c' =>
      rw [does_eq_nil rfl] at h
      cases h
    | _ => rfl
  have hsame : ((d.does m).map (Entry.mk m.actor)).map (Entry.amid d.unreachable)
      = (d.does m).map (Entry.mk m.actor) := by
    have hjournal := congrArg Device.journal (move_amid (d := d) hloss)
    rw [move_bare] at hjournal
    simpa [after, retold, Retelling.amid, bare] using hjournal
  rw [List.map_map] at hsame
  have hentry := List.map_inj_left.mp hsame _ h
  simpa [Entry.amid, Effect.amid, eq_comm] using hentry

/-! ## Runs without losses -/

/-- **Delivery failures do not interfere.**  Whenever clients are lost in a run, and whichever, the
device is at every point what it would be if every client could be reached: in the same state, having
done the same in the same order, the same frames sent among it.  Only a frame to a client that was
lost before does not arrive. -/
theorem losses_do_not_interfere (config : Config) (firmware : Firmware) (ms : List Move) :
    let d := (fresh config firmware).run ms
    d.delivered = (fresh config firmware).run (withoutLosses ms) ∧
    ∀ m c frame reached, .sent c frame reached ∈ d.does m → (reached = false ↔ .lose c ∈ ms) := by
  have same := delivered_run (fresh config firmware) ms
  rw [delivered_fresh] at same
  refine ⟨same, fun m c frame reached h => ?_⟩
  have hlost : c ∈ ((fresh config firmware).run ms).unreachable ↔ .lose c ∈ ms := by
    rw [mem_unreachable_run]
    simp [fresh]
  rw [reached_of_does h, ← hlost]
  simp

/-- The owner of a session is lost before it is asked for the first chunk. -/
theorem losses_do_not_interfere_owner :
    let ask := Move.frame ⟨1, 1⟩ (Request.start 2 0 .none).encode
    let d := (fresh .default .unknown).run
      [ask, .lose ⟨1, 1⟩, .step (.task 1), .step (.task 1), .step (.task 1)]
    d.delivered = (fresh .default .unknown).run
        [ask, .step (.task 1), .step (.task 1), .step (.task 1)] ∧
      .sent ⟨1, 1⟩ (.state 0 2) false ∈ d.does (.step (.task 1)) := by
  intro ask d
  obtain ⟨same, lost⟩ := losses_do_not_interfere .default .unknown
    [ask, .lose ⟨1, 1⟩, .step (.task 1), .step (.task 1), .step (.task 1)]
  obtain ⟨reached, h⟩ : ∃ reached, .sent ⟨1, 1⟩ (.state 0 2) reached ∈ d.does (.step (.task 1)) :=
    ⟨false, by decide⟩
  obtain rfl : reached = false := (lost _ _ _ _ h).mpr (by simp)
  exact ⟨same, h⟩

end Device

end OverTheAir
