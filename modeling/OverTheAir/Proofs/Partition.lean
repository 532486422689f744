import OverTheAir.Flash

/-!
# Proofs/Partition — what a partition goes through when an image is written to it

A partition that is open for an image of `total` bytes counts what it holds (`Holds`); once closed
with nothing missing it is `Complete`.  From `begin` on no call fails of itself: as long as the
chunks stay within the announced size, `write`, `finish` and `select` succeed.  Otherwise a call
leaves what it does not change as it was (`call_cases`, `image_finish`, `image_select`).
-/

namespace OverTheAir.Flash

/-- The partition is open for an image of `total` bytes and has taken `n` of them. -/
structure Holds (f : Flash) (total : UInt32) (n : Nat) : Prop where
  isOpen : f.isOpen = true
  expected : f.expected = total
  written : f.written.toNat = n
  size : f.image.size = n
  room : total.toNat ≤ capacity

/-- The partition is closed over an image of `total` bytes, all of them there. -/
structure Complete (f : Flash) (total : UInt32) : Prop where
  isClosed : f.isOpen = false
  expected : f.expected = total
  written : f.written = total
  size : f.image.size = total.toNat

variable {f f' : Flash} {total : UInt32} {n : Nat} {r : FlashResult}

/-- `begin` opens an empty partition, or is refused. -/
theorem holds_begin (h : f.call (.begin total) = (.ok (), f')) :
    f'.Holds total 0 ∧ f'.image = #[] := by
  simp only [call, begin] at h
  split at h
  · cases h
  · obtain rfl := (Prod.mk.inj h).2
    exact ⟨⟨rfl, rfl, rfl, rfl, Nat.le_of_not_lt ‹_›⟩, rfl⟩

/-- **A chunk within the announced size is written**, behind what is there. -/
theorem Holds.write (h : f.Holds total n) {chunk : Bytes} (hfit : n + chunk.length ≤ total.toNat) :
    ∃ f', f.call (.write chunk) = (.ok (), f') ∧ f'.Holds total (n + chunk.length) ∧
      f'.image.toList = f.image.toList ++ chunk := by
  have hroom : ¬capacity < f.image.size + chunk.length := by
    rw [h.size]
    exact Nat.not_lt_of_le (Nat.le_trans hfit h.room)
  have hcall : f.call (.write chunk) = (.ok (), { f with
      image := f.image ++ chunk, written := f.written + UInt32.ofNat chunk.length }) := by
    simp only [call, Flash.write, h.isOpen, Bool.not_true, Bool.false_eq_true, if_false,
      if_neg hroom]
  have hwritten : (f.written + UInt32.ofNat chunk.length).toNat = n + chunk.length := by
    rw [← h.written] at hfit
    rw [(Bytes.toNat_add_ofNat hfit).2, h.written]
  have himage : (f.image ++ chunk).toList = f.image.toList ++ chunk := by simp
  have hsize : (f.image ++ chunk).size = n + chunk.length := by
    rw [← Array.length_toList, himage, List.length_append, Array.length_toList, h.size]
  exact ⟨_, hcall, ⟨h.isOpen, h.expected, hwritten, hsize, h.room⟩, himage⟩

/-- **A partition with nothing missing closes**, and keeps its image. -/
theorem Holds.finish (h : f.Holds total n) (hall : n = total.toNat) :
    ∃ f', f.call .finish = (.ok (), f') ∧ f'.Complete total ∧ f'.image = f.image := by
  have hwritten : f.written = total := UInt32.toNat_inj.mp (h.written.trans hall)
  have hcall : f.call .finish = (.ok (), { f with isOpen := false }) := by
    simp [call, Flash.finish, h.isOpen, h.expected, hwritten]
  exact ⟨_, hcall, ⟨rfl, h.expected, hwritten, h.size.trans hall⟩, rfl⟩

/-- **A complete image can be selected**, and stays as it is. -/
theorem Complete.select (h : f.Complete total) :
    f.call .select = (.ok (), { f with bootSelected := true }) := by
  simp [call, Flash.select, h.isClosed, h.written, h.expected]

/-! ## What a call changes -/

variable {call : FlashCall}

/-- A call that succeeds was made, and not answered by an error that was laid for it. -/
theorem call_of_ok
    (answer : f.call call = (.ok (), f') ∨ f' = f ∧ ∃ e, (.ok () : FlashResult) = .error e) :
    f.call call = (.ok (), f') :=
  answer.resolve_right (by rintro ⟨-, e, ⟨⟩⟩)

/-- A call that closes the partition or selects it leaves none open that it has changed. -/
theorem finish_snd (f : Flash) : f.finish.2 = f ∨ f.finish.2.isOpen = false := by
  rw [finish]
  split
  · exact .inl rfl
  · split <;> exact .inr rfl

theorem select_snd (f : Flash) : f.select.2 = f ∨ f.select.2.isOpen = false := by
  rw [select]
  split
  · exact .inl rfl
  · rename_i h
    simp only [Bool.or_eq_true, not_or] at h
    exact .inr (Bool.eq_false_iff.mpr h.1)

/-- **An open partition changes only by being opened or written to.** -/
theorem call_cases (h : f.call call = (r, f')) (isOpen : f'.isOpen = true) :
    (f' = f ∧ ∀ total, call = .begin total → r ≠ .ok ()) ∨
      (∃ total, call = .begin total ∧ r = .ok ()) ∨ ∃ chunk, call = .write chunk ∧ r = .ok () := by
  have unchanged : f' = f ∨ f'.isOpen = false → f' = f := fun h =>
    h.resolve_right (by simp [isOpen])
  cases call with
  | begin total =>
    rw [Flash.call, begin] at h
    split at h
    · exact .inl ⟨(Prod.mk.inj h).2.symm, fun _ _ hr => by simp [hr] at h⟩
    · exact .inr (.inl ⟨total, rfl, (Prod.mk.inj h).1.symm⟩)
  | write chunk =>
    rw [Flash.call, write] at h
    split at h
    · exact .inl ⟨(Prod.mk.inj h).2.symm, by simp⟩
    · split at h
      · exact .inl ⟨(Prod.mk.inj h).2.symm, by simp⟩
      · exact .inr (.inr ⟨chunk, rfl, (Prod.mk.inj h).1.symm⟩)
  | finish =>
    obtain rfl : f.finish.2 = f' := congrArg Prod.snd h
    exact .inl ⟨unchanged f.finish_snd, by simp⟩
  | select =>
    obtain rfl : f.select.2 = f' := congrArg Prod.snd h
    exact .inl ⟨unchanged f.select_snd, by simp⟩
  | abort =>
    obtain rfl : f.abort = f' := congrArg Prod.snd h
    exact .inl ⟨unchanged (.inr rfl), by simp⟩

/-- A write that succeeds puts its chunk behind what is there, -/
theorem image_write {chunk : Bytes} (h : f.call (.write chunk) = (.ok (), f')) :
    f'.image.toList = f.image.toList ++ chunk := by
  rw [Flash.call, Flash.write] at h
  split at h
  · cases h
  · split at h
    · cases h
    · obtain rfl := (Prod.mk.inj h).2
      simp

/-- closing the partition leaves its image as it is, -/
theorem image_finish (h : f.call .finish = (r, f')) : f'.image = f.image := by
  obtain rfl : f.finish.2 = f' := congrArg Prod.snd h
  rw [Flash.finish]
  split
  · rfl
  · split <;> rfl

/-- and so does selecting it. -/
theorem image_select (h : f.call .select = (r, f')) : f'.image = f.image := by
  obtain rfl : f.select.2 = f' := congrArg Prod.snd h
  rw [Flash.select]
  split <;> rfl

end OverTheAir.Flash
