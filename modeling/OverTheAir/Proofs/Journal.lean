import OverTheAir.Device.Journal

/-!
# Proofs/Journal — a journal, read session by session

A journal is one list; what a session task did stands in it under the name of the task (`deeds`),
and the handler's announcements number the sessions (`opening?`).  Both readings turn appending to
the journal into appending to what was read, so a property of whole runs is proved entry by entry.
-/

namespace OverTheAir

/-- The owner and the announced size of the session that an effect opens. -/
def Effect.opening? : Effect → Option (Client × UInt32)
  | .event (.sessionStarted owner total) => some (owner, total)
  | _ => none

namespace Journal

variable {a b : Actor} {j : Journal}

/-! ## By actor -/

/-- What an actor did, oldest first. -/
def deeds (a : Actor) (j : Journal) : List Effect :=
  j.filterMap fun e => if e.actor = a then some e.effect else none

@[simp] theorem deeds_nil (a : Actor) : deeds a [] = [] := rfl

@[simp] theorem deeds_append (a : Actor) (j j' : Journal) :
    deeds a (j ++ j') = deeds a j ++ deeds a j' := List.filterMap_append

@[simp] theorem deeds_cons (a : Actor) (e : Entry) (j : Journal) :
    deeds a (e :: j) = if e.actor = a then e.effect :: deeds a j else deeds a j := by
  by_cases h : e.actor = a <;> simp [deeds, h]

/-- What an actor does is added to its deeds, -/
theorem deeds_append_self (a : Actor) (j : Journal) (es : List Effect) :
    deeds a (j ++ es.map (Entry.mk a)) = deeds a j ++ es := by
  have hall : ∀ es : List Effect, deeds a (es.map (Entry.mk a)) = es := by
    intro es
    induction es with
    | nil => rfl
    | cons e es ih => simp [ih]
  rw [deeds_append, hall]

/-- and to those of no other actor. -/
theorem deeds_append_of_ne (h : b ≠ a) (j : Journal) (es : List Effect) :
    deeds a (j ++ es.map (Entry.mk b)) = deeds a j := by
  have hnone : ∀ es : List Effect, deeds a (es.map (Entry.mk b)) = [] := by
    intro es
    induction es with
    | nil => rfl
    | cons e es ih => simp [h, ih]
  rw [deeds_append, hnone, List.append_nil]

theorem mem_deeds {e : Effect} : e ∈ deeds a j ↔ ⟨a, e⟩ ∈ j := by
  induction j with
  | nil => simp
  | cons x j ih =>
    obtain ⟨b, e'⟩ := x
    by_cases h : b = a
    · subst h
      simp [ih]
    · have h' : a ≠ b := fun h' => h h'.symm
      simp [h, h', ih]

theorem count_deeds (a : Actor) (effect : Effect) (j : Journal) :
    (deeds a j).count effect = j.count ⟨a, effect⟩ := by
  rw [deeds, List.count, List.countP_filterMap, List.count]
  refine List.countP_congr fun e _ => ?_
  obtain ⟨b, effect'⟩ := e
  by_cases h : b = a <;> simp [h]

/-! ## By session -/

/-- The sessions opened, oldest first: who owns each, and how many bytes it announces. -/
def openings (j : Journal) : List (Client × UInt32) := j.filterMap fun e => e.effect.opening?

@[simp] theorem openings_append (j j' : Journal) :
    openings (j ++ j') = openings j ++ openings j' := List.filterMap_append

theorem openings_append_of_silent {es : List Effect} (h : ∀ e ∈ es, e.opening? = none)
    (j : Journal) (a : Actor) : openings (j ++ es.map (Entry.mk a)) = openings j := by
  have hnone : openings (es.map (Entry.mk a)) = [] := by
    rw [openings, List.filterMap_map]
    exact List.filterMap_eq_nil_iff.mpr h
  rw [openings_append, hnone, List.append_nil]

/-- Owner and announced size of a session.  Sessions are numbered from 1, as their tasks are. -/
def opening? : Nat → Journal → Option (Client × UInt32)
  | 0, _ => none
  | k + 1, j => (openings j)[k]?

/-- A session that was opened has a number within the count. -/
theorem opening?_range {k : Nat} {o : Client × UInt32} (h : opening? k j = some o) :
    0 < k ∧ k ≤ (openings j).length := by
  rcases k with _ | k
  · cases h
  · exact ⟨Nat.succ_pos k, (List.getElem?_eq_some_iff.mp h).1⟩

theorem opening?_congr {j' : Journal} (h : openings j' = openings j) (k : Nat) :
    opening? k j' = opening? k j := by
  rcases k with _ | k
  · rfl
  · rw [opening?, opening?, h]

/-- What opens no session leaves the openings as they are. -/
theorem opening?_append_of_silent {es : List Effect} (h : ∀ e ∈ es, e.opening? = none) (k : Nat)
    (j : Journal) (a : Actor) : opening? k (j ++ es.map (Entry.mk a)) = opening? k j :=
  opening?_congr (openings_append_of_silent h j a) k

/-- **An opening is never revised.** -/
theorem opening?_append {k : Nat} {o : Client × UInt32} (h : opening? k j = some o)
    (j' : Journal) : opening? k (j ++ j') = some o := by
  rcases k with _ | k
  · cases h
  · rw [opening?, openings_append, List.getElem?_append_left (List.getElem?_eq_some_iff.mp h).1]
    exact h

/-- What comes later does not open a session that is counted already. -/
theorem opening?_append_of_le {k : Nat} (h : k ≤ (openings j).length) (j' : Journal) :
    opening? k (j ++ j') = opening? k j := by
  match k, h with
  | 0, _ => rfl
  | k + 1, h => rw [opening?, opening?, openings_append, List.getElem?_append_left h]

end Journal

end OverTheAir
