import OverTheAir.Proofs.Partition

/-!
# Proofs/Selection — which images are selected for the next boot

The partition takes its calls in any order.  What has become of it depends on what it was asked
since an image was last begun (`Begun`): it stays open until one of those calls closes it, and it
holds the bytes that they put there (`Standing`, `Kept`).  As long as none of them drops the image,
only a finished image is selected, and it stays in the partition from then on.

Dropping an image is what breaks this.  It leaves alone the two counts that a selection compares,
and it empties the partition even if the image in there is selected already.  In this respect a
blank partition is like one whose image of no bytes was dropped.

* `Standing.calls` — where a partition stands after any calls.
* `selects_finished` — what can be selected, and what is in the partition then.
* `selects_unfinished` — without the condition on drops, neither half holds.
-/

namespace OverTheAir.Flash

/-! ## Calls, one after another -/

/-- What some calls make of a partition, one after another. -/
def calls : Flash → List FlashCall → Flash
  | f, [] => f
  | f, c :: cs => calls (f.call c).2 cs

/-- Some calls, each with its answer. -/
def record : Flash → List FlashCall → List (FlashCall × FlashResult)
  | _, [] => []
  | f, c :: cs => (c, (f.call c).1) :: record (f.call c).2 cs

/-- The bytes that a call puts into the partition. -/
def taken : FlashCall × FlashResult → Bytes
  | (.write chunk, .ok ()) => chunk
  | _ => []

/-- The bytes that some calls put there, in order. -/
def accepted (made : List (FlashCall × FlashResult)) : Bytes := made.flatMap taken

/-- The last image that was begun is one of `size` bytes, and `since` is what was asked after
that. -/
structure Begun (made : List (FlashCall × FlashResult)) (size : UInt32)
    (since : List (FlashCall × FlashResult)) : Prop where
  split : ∃ front, made = front ++ (.begin size, .ok ()) :: since
  last : ∀ n, (.begin n, .ok ()) ∉ since

theorem accepted_concat (since : List (FlashCall × FlashResult)) (e : FlashCall × FlashResult) :
    accepted (since ++ [e]) = accepted since ++ taken e := by
  rw [accepted, List.flatMap_append, List.flatMap_singleton]
  rfl

/-- A call that is not answered puts nothing there. -/
theorem taken_error (call : FlashCall) (e : FlashError) : taken (call, .error e) = [] := by
  cases call <;> rfl

/-! ## One call -/

/-- What a call makes of a partition, and how it is answered. -/
inductive Does (f : Flash) : FlashCall → FlashResult → Flash → Prop where
  | begun {size} : Does f (.begin size) (.ok ()) ⟨#[], true, false, size, 0⟩
  /-- Nothing changes.  A partition that is open can be closed in any case. -/
  | refused {call} (e) (closed : call = .finish → f.isOpen = false) (able : call ≠ .abort) :
      Does f call (.error e) f
  | wrote {chunk} (isOpen : f.isOpen = true) (room : f.image.size + chunk.length ≤ capacity) :
      Does f (.write chunk) (.ok ())
        { f with image := f.image ++ chunk, written := f.written + UInt32.ofNat chunk.length }
  | finished (isOpen : f.isOpen = true) (all : f.written = f.expected) :
      Does f .finish (.ok ()) { f with isOpen := false }
  | cutShort (isOpen : f.isOpen = true) (missing : f.written ≠ f.expected) :
      Does f .finish (.error (.finish validationFailed)) { f with isOpen := false }
  | selected (closed : f.isOpen = false) (all : f.written = f.expected) :
      Does f .select (.ok ()) { f with bootSelected := true }
  | dropped : Does f .abort (.ok ()) { f with isOpen := false, image := #[] }

/-- **Every call is one of these.** -/
theorem does (f : Flash) (call : FlashCall) : f.Does call (f.call call).1 (f.call call).2 := by
  cases call with
  | begin size =>
    rw [Flash.call, begin]
    split
    · exact .refused _ (fun h => by cases h) (fun h => by cases h)
    · exact .begun
  | write chunk =>
    rw [Flash.call, write]
    split
    · exact .refused _ (fun h => by cases h) (fun h => by cases h)
    · next isOpen =>
      split
      · exact .refused _ (fun h => by cases h) (fun h => by cases h)
      · next room => exact .wrote (by simpa using isOpen) (Nat.le_of_not_lt room)
  | finish =>
    rw [Flash.call, finish]
    split
    · next closed => exact .refused _ (fun _ => by simpa using closed) (fun h => by cases h)
    · next isOpen =>
      have isOpen : f.isOpen = true := by simpa using isOpen
      split
      · exact .cutShort isOpen ‹_›
      · next all => exact .finished isOpen (Classical.not_not.mp all)
  | select =>
    rw [Flash.call, select]
    split
    · exact .refused _ (fun h => by cases h) (fun h => by cases h)
    · next ready =>
      obtain ⟨closed, all⟩ : f.isOpen = false ∧ f.written = f.expected := by simpa using ready
      exact .selected closed all
  | abort => exact .dropped

/-- A partition can be selected iff it is closed and the counts agree. -/
theorem select_eq_ok_iff {f : Flash} :
    (f.call .select).1 = .ok () ↔ f.isOpen = false ∧ f.written = f.expected := by
  rw [call, select]
  split
  · next unready =>
    refine iff_of_false (fun h => by cases h) fun ready => ?_
    simp [ready.1, ready.2] at unready
  · next ready => exact iff_of_true rfl (by simpa using ready)

/-! ## Where a partition stands -/

section Standing

variable {f f' : Flash} {c : FlashCall} {r : FlashResult} {size : UInt32}
  {made since : List (FlashCall × FlashResult)}

/-- Nothing was dropped since an image of `size` bytes was begun. -/
structure Kept (f : Flash) (size : UInt32) (since : List (FlashCall × FlashResult)) : Prop where
  isOpen : f.isOpen = true ↔ ∀ r, (.finish, r) ∉ since
  image : f.image.toList = accepted since
  /-- Once it is closed, the image is finished iff all of it is there. -/
  finished : f.isOpen = false →
    ((.finish, .ok ()) ∈ since ↔ (accepted since).length = size.toNat)
  /-- An image that is selected was finished before, and nothing has come to it after. -/
  selected : f.bootSelected = true → f.isOpen = false ∧ ∃ front back,
    since = front ++ (.select, .ok ()) :: back ∧ (.finish, .ok ()) ∈ front ∧
      accepted front = accepted since

/-- Where a partition stands that was asked `since` after an image of `size` bytes was begun. -/
structure Standing (f : Flash) (size : UInt32) (since : List (FlashCall × FlashResult)) : Prop where
  expected : f.expected = size
  written : f.written.toNat = (accepted since).length
  bootSelected : f.bootSelected = true ↔ (.select, .ok ()) ∈ since
  dropped : (.abort, .ok ()) ∈ since → f.isOpen = false ∧ f.image = #[]
  kept : (.abort, .ok ()) ∉ since → f.Kept size since

/-- The counts that a selection compares. -/
theorem Standing.counts (h : f.Standing size since) :
    f.written = f.expected ↔ (accepted since).length = size.toNat := by
  rw [← UInt32.toNat_inj, h.written, h.expected]

theorem standing_begun : Standing ⟨#[], true, false, size, 0⟩ size [] where
  expected := rfl
  written := rfl
  bootSelected := by simp
  dropped h := absurd h List.not_mem_nil
  kept _ :=
    { isOpen := by simp
      image := rfl
      finished := fun closed => by cases closed
      selected := fun selected => by cases selected }

/-- A blank partition stands as if an image of no bytes had been dropped. -/
theorem standing_blank_nil : Standing blank 0 [(.abort, .ok ())] where
  expected := rfl
  written := rfl
  bootSelected := by simp [blank]
  dropped _ := ⟨rfl, rfl⟩
  kept h := absurd (List.mem_singleton_self _) h

/-! ## What a call changes -/

/-- A call that neither begins an image nor drops one. -/
structure Proceeds (f : Flash) (c : FlashCall) (r : FlashResult) (f' : Flash) : Prop where
  expected : f'.expected = f.expected
  isOpen : f'.isOpen = true ↔ f.isOpen = true ∧ c ≠ .finish
  image : f'.image.toList = f.image.toList ++ taken (c, r)
  written : f'.written = f.written + UInt32.ofNat (taken (c, r)).length
  /-- Only an open partition takes bytes. -/
  takes : taken (c, r) = [] ∨
    f.isOpen = true ∧ f.image.size + (taken (c, r)).length ≤ capacity
  finishes : (c, r) = (.finish, .ok ()) ↔
    c = .finish ∧ f.isOpen = true ∧ f.written = f.expected
  bootSelected : f'.bootSelected = true ↔ f.bootSelected = true ∨ (c, r) = (.select, .ok ())
  selects : (c, r) = (.select, .ok ()) → f.isOpen = false ∧ f.written = f.expected
  keeps : c ≠ .abort

theorem Does.proceeds (h : f.Does c r f') (notBegun : ∀ n, (c, r) ≠ (.begin n, .ok ()))
    (keeps : c ≠ .abort) : f.Proceeds c r f' := by
  cases h with
  | begun => exact absurd rfl (notBegun _)
  | refused e closed able =>
    have nothing := taken_error c e
    refine ⟨rfl, ?_, ?_, ?_, .inl nothing, ?_, ?_, ?_, keeps⟩
    · exact ⟨fun isOpen => ⟨isOpen, fun h => by simp [closed h] at isOpen⟩, And.left⟩
    · rw [nothing, List.append_nil]
    · rw [nothing]
      exact (UInt32.add_zero _).symm
    · refine iff_of_false (by simp) fun ⟨isFinish, isOpen, _⟩ => ?_
      simp [closed isFinish] at isOpen
    · simp
    · simp
  | wrote isOpen room =>
    refine ⟨rfl, ?_, ?_, rfl, .inr ⟨isOpen, room⟩, ?_, ?_, ?_, keeps⟩ <;> simp [taken]
  | finished isOpen all =>
    refine ⟨rfl, ?_, ?_, ?_, .inl rfl, ?_, ?_, ?_, keeps⟩ <;> simp [taken, isOpen, all]
  | cutShort isOpen missing =>
    refine ⟨rfl, ?_, ?_, ?_, .inl rfl, ?_, ?_, ?_, keeps⟩ <;> simp [taken, missing]
  | selected closed all =>
    refine ⟨rfl, ?_, ?_, ?_, .inl rfl, ?_, ?_, ?_, keeps⟩ <;> simp [taken, closed, all]
  | dropped => exact absurd rfl keeps

/-- A closed partition takes nothing. -/
theorem Proceeds.taken_eq_nil (h : f.Proceeds c r f') (closed : f.isOpen = false) :
    taken (c, r) = [] :=
  h.takes.resolve_right fun ⟨isOpen, _⟩ => by simp [closed] at isOpen

theorem Proceeds.isClosed (h : f.Proceeds c r f') (closed : f.isOpen = false) :
    f'.isOpen = false := by
  refine Bool.eq_false_iff.mpr fun isOpen => ?_
  have wasOpen := (h.isOpen.mp isOpen).1
  simp [closed] at wasOpen

/-- **A closed partition stays closed and takes nothing** until an image is begun. -/
theorem accepted_of_closed {cs : List FlashCall} (closed : f.isOpen = false)
    (notBegun : ∀ n, (.begin n, .ok ()) ∉ f.record cs) : accepted (f.record cs) = [] := by
  induction cs generalizing f with
  | nil => rfl
  | cons c cs ih =>
    have hd := f.does c
    rw [record] at notBegun ⊢
    have rest : (f.call c).2.isOpen = false → accepted ((f.call c).2.record cs) = [] := fun h =>
      ih h fun n begun => notBegun n (List.mem_cons_of_mem _ begun)
    rw [accepted, List.flatMap_cons]
    by_cases keeps : c = .abort
    · subst keeps
      exact rest rfl
    · have hp := hd.proceeds (fun n begun => notBegun n (begun ▸ List.mem_cons_self)) keeps
      rw [hp.taken_eq_nil closed]
      exact rest (hp.isClosed closed)

/-- **As long as nothing is dropped**, a partition holds what it took, and a selected image
stays. -/
theorem Kept.next (k : f.Kept size since) (h : f.Proceeds c r f')
    (counts : f.written = f.expected ↔ (accepted since).length = size.toNat) :
    f'.Kept size (since ++ [(c, r)]) where
  isOpen := by
    rw [h.isOpen, k.isOpen]
    simp only [List.mem_append, List.mem_singleton, not_or, forall_and, Prod.mk.injEq, not_and]
    exact and_congr_right fun _ => ⟨fun hc _ isFinish => absurd isFinish.symm hc,
      fun hc isFinish => hc r isFinish.symm rfl⟩
  image := by rw [h.image, k.image, accepted_concat]
  finished closed := by
    rw [List.mem_append, List.mem_singleton, accepted_concat, eq_comm (b := (c, r)), h.finishes]
    cases wasOpen : f.isOpen with
    | true =>
      -- the call closes the partition
      have isFinish : c = .finish := by
        refine Classical.not_not.mp fun other => ?_
        simp [h.isOpen.mpr ⟨wasOpen, other⟩] at closed
      subst isFinish
      have nothing : taken (.finish, r) = [] := rfl
      rw [nothing, List.append_nil, ← counts]
      simp [k.isOpen.mp wasOpen (.ok ())]
    | false =>
      rw [h.taken_eq_nil wasOpen, List.append_nil, k.finished wasOpen]
      simp
  selected selected := by
    rcases h.bootSelected.mp selected with before | now
    · obtain ⟨closed, front, back, rfl, finished, all⟩ := k.selected before
      refine ⟨h.isClosed closed, front, back ++ [(c, r)], by simp, finished, ?_⟩
      rw [accepted_concat, h.taken_eq_nil closed, List.append_nil, all]
    · obtain ⟨closed, all⟩ := h.selects now
      refine ⟨h.isClosed closed, since, [], by rw [now], ?_, ?_⟩
      · exact (k.finished closed).mpr (counts.mp all)
      · rw [accepted_concat, h.taken_eq_nil closed, List.append_nil]

/-- The count of the bytes that were taken is exact. -/
theorem Standing.written_next (h : f.Standing size since) (hp : f.Proceeds c r f') :
    f'.written.toNat = (accepted (since ++ [(c, r)])).length := by
  rw [hp.written, accepted_concat, List.length_append, ← h.written]
  rcases hp.takes with nothing | ⟨isOpen, room⟩
  · rw [nothing]
    exact congrArg UInt32.toNat (UInt32.add_zero _)
  · have keeps : (.abort, .ok ()) ∉ since := fun dropped => by
      simp [(h.dropped dropped).1] at isOpen
    have held : f.image.size = f.written.toNat := by
      rw [h.written, ← (h.kept keeps).image, Array.length_toList]
    have fits : f.written.toNat + (taken (c, r)).length ≤ (UInt32.ofNat capacity).toNat := by
      rwa [← held]
    exact (Bytes.toNat_add_ofNat fits).2

theorem Standing.proceeds (h : f.Standing size since) (hp : f.Proceeds c r f') :
    f'.Standing size (since ++ [(c, r)]) := by
  have aborts : (.abort, .ok ()) ∈ since ++ [(c, r)] ↔ (.abort, .ok ()) ∈ since := by
    simp [hp.keeps.symm]
  refine ⟨hp.expected.trans h.expected, h.written_next hp, ?_, fun dropped => ?_, fun keeps => ?_⟩
  · rw [hp.bootSelected, h.bootSelected, List.mem_append, List.mem_singleton, eq_comm (a := (c, r))]
  · obtain ⟨closed, empty⟩ := h.dropped (aborts.mp dropped)
    refine ⟨hp.isClosed closed, Array.toList_inj.mp ?_⟩
    rw [hp.image, empty, hp.taken_eq_nil closed]
    rfl
  · exact (h.kept (mt aborts.mpr keeps)).next hp h.counts

/-- A drop leaves the counts and the selection alone. -/
theorem Standing.drops (h : f.Standing size since) :
    Standing { f with isOpen := false, image := #[] } size (since ++ [(.abort, .ok ())]) where
  expected := h.expected
  written := by
    rw [accepted_concat]
    exact h.written.trans (congrArg List.length (List.append_nil _).symm)
  bootSelected := by
    rw [List.mem_append]
    exact h.bootSelected.trans (by simp)
  dropped _ := ⟨rfl, rfl⟩
  kept keeps := absurd (List.mem_append_right _ (List.mem_singleton_self _)) keeps

/-- **Where a partition stands after one more call**, unless a new image is begun. -/
theorem Standing.next (h : f.Standing size since) (hd : f.Does c r f')
    (notBegun : ∀ n, (c, r) ≠ (.begin n, .ok ())) : f'.Standing size (since ++ [(c, r)]) := by
  by_cases keeps : c = .abort
  · subst keeps
    cases hd with
    | refused e closed able => exact absurd rfl able
    | dropped => exact h.drops
  · exact h.proceeds (hd.proceeds notBegun keeps)

theorem Does.standing (hd : f.Does (.begin size) (.ok ()) f') : f'.Standing size [] := by
  cases hd
  exact standing_begun

/-- **Where a partition stands after any calls**: the calls since the last image was begun tell, and
if none was, those before count too. -/
theorem Standing.calls (h : f.Standing size since) (cs : List FlashCall) :
    (∀ size' since', Begun (f.record cs) size' since' → (f.calls cs).Standing size' since') ∧
    ((∀ n, (.begin n, .ok ()) ∉ f.record cs) →
      (f.calls cs).Standing size (since ++ f.record cs)) := by
  induction cs generalizing f size since with
  | nil =>
    refine ⟨fun size' since' begun => ?_, fun _ => ?_⟩
    · obtain ⟨front, split⟩ := begun.split
      simp [record] at split
    · rw [record, List.append_nil]
      exact h
  | cons c cs ih =>
    have hd := f.does c
    rw [record, Flash.calls]
    by_cases begins : ∃ n, (c, (f.call c).1) = (.begin n, .ok ())
    · obtain ⟨n, begins⟩ := begins
      obtain ⟨rfl, ok⟩ := Prod.mk.inj begins
      rw [ok] at hd
      have rest := ih hd.standing
      refine ⟨fun size' since' begun => ?_, fun notBegun => ?_⟩
      · obtain ⟨_ | ⟨e, front⟩, split⟩ := begun.split
        · obtain ⟨head, rfl⟩ := List.cons.inj split
          rw [ok] at head
          obtain rfl := FlashCall.begin.inj (Prod.mk.inj head).1
          exact rest.2 begun.last
        · exact rest.1 _ _ ⟨⟨front, (List.cons.inj split).2⟩, begun.last⟩
      · exact absurd (ok ▸ List.mem_cons_self) (notBegun n)
    · have rest := ih (h.next hd fun n begun => begins ⟨n, begun⟩)
      refine ⟨fun size' since' begun => ?_, fun notBegun => ?_⟩
      · obtain ⟨_ | ⟨e, front⟩, split⟩ := begun.split
        · exact absurd ⟨_, (List.cons.inj split).1⟩ begins
        · exact rest.1 _ _ ⟨⟨front, (List.cons.inj split).2⟩, begun.last⟩
      · have later := rest.2 fun n begun => notBegun n (List.mem_cons_of_mem _ begun)
        rwa [List.append_assoc] at later

/-- As long as nothing is dropped, a partition can be selected iff the image in it is finished. -/
theorem Kept.select_eq_ok_iff (k : f.Kept size since) (h : f.Standing size since) :
    (f.call .select).1 = .ok () ↔ (.finish, .ok ()) ∈ since := by
  rw [Flash.select_eq_ok_iff, h.counts]
  refine ⟨fun ⟨closed, all⟩ => (k.finished closed).mpr all, fun finished => ?_⟩
  have closed : f.isOpen = false :=
    Bool.eq_false_iff.mpr fun isOpen => k.isOpen.mp isOpen _ finished
  exact ⟨closed, (k.finished closed).mp finished⟩

/-- Once an image is dropped, the counts alone tell whether the partition can be selected. -/
theorem Standing.select_eq_ok_iff (h : f.Standing size since)
    (dropped : (.abort, .ok ()) ∈ since) :
    (f.call .select).1 = .ok () ↔ (accepted since).length = size.toNat := by
  rw [Flash.select_eq_ok_iff, h.counts]
  exact and_iff_right (h.dropped dropped).1

end Standing

/-! ## What is selected -/

/-- **Only finished images are selected, unless one is dropped.**  Take a blank partition and any
calls.  As long as the image that was last begun is not dropped, the partition can be selected iff
that image is finished; and once it is selected, the image that was in there then is in there still,
finished and as long as it was announced.  When the image is dropped, the partition is empty, and it
can be selected iff as many bytes had come as were announced, finished or not; a selection made
before stays.  A partition in which no image was begun is empty and can be selected. -/
theorem selects_finished (cs : List FlashCall) :
    let f := blank.calls cs
    let made := blank.record cs
    (∀ size since, Begun made size since → (.abort, .ok ()) ∉ since →
      ((f.call .select).1 = .ok () ↔ (.finish, .ok ()) ∈ since) ∧
      (f.bootSelected = true → ∃ front back, since = front ++ (.select, .ok ()) :: back ∧
        (.finish, .ok ()) ∈ front ∧ f.image.toList = accepted front ∧
          (accepted front).length = size.toNat)) ∧
    (∀ size since, Begun made size since → (.abort, .ok ()) ∈ since →
      f.image = #[] ∧
      ((f.call .select).1 = .ok () ↔ (accepted since).length = size.toNat) ∧
      (f.bootSelected = true ↔ (.select, .ok ()) ∈ since)) ∧
    ((∀ n, (.begin n, .ok ()) ∉ made) →
      f.image = #[] ∧ (f.call .select).1 = .ok () ∧
      (f.bootSelected = true ↔ (.select, .ok ()) ∈ made)) := by
  intro f made
  obtain ⟨standing, unbegun⟩ := standing_blank_nil.calls cs
  refine ⟨fun size since begun keeps => ?_, fun size since begun dropped => ?_, fun none => ?_⟩
  · have h := standing size since begun
    have k := h.kept keeps
    refine ⟨k.select_eq_ok_iff h, fun selected => ?_⟩
    obtain ⟨closed, front, back, rfl, finished, all⟩ := k.selected selected
    refine ⟨front, back, rfl, finished, k.image.trans all.symm, ?_⟩
    rw [all]
    exact (k.finished closed).mp (List.mem_append_left _ finished)
  · have h := standing size since begun
    exact ⟨(h.dropped dropped).2, h.select_eq_ok_iff dropped, h.bootSelected⟩
  · have h := unbegun none
    have dropped : (.abort, .ok ()) ∈ [(.abort, .ok ())] ++ made := List.mem_cons_self
    refine ⟨(h.dropped dropped).2, (h.select_eq_ok_iff dropped).mpr ?_, ?_⟩
    · exact congrArg List.length (accepted_of_closed rfl none)
    · rw [h.bootSelected, List.singleton_append, List.mem_cons]
      exact or_iff_right (by simp)

/-- An image that has all its bytes can be selected though it was never finished. -/
example : ((blank.calls [.begin 1, .write [7], .abort]).call .select).1 = .ok () := rfl

/-- An image of one byte is finished and selected, and dropped then. -/
def dropLate : List FlashCall := [.begin 1, .write [7], .finish, .select, .abort]

/-- **An image that was dropped can be selected**, and one that was selected can be dropped. -/
theorem selects_unfinished :
    (¬∀ cs, ((blank.calls cs).call .select).1 = .ok () → ∃ size front back,
      Begun (blank.record cs) size (front ++ (.finish, .ok ()) :: back) ∧
        (.abort, .ok ()) ∉ back) ∧
    ¬∀ cs, (blank.calls cs).bootSelected = true → ∃ size since,
      Begun (blank.record cs) size since ∧ (blank.calls cs).image.size = size.toNat := by
  have last : (blank.record dropLate).getLast? = some (.abort, .ok ()) := by decide
  refine ⟨fun finished => ?_, fun whole => ?_⟩
  · obtain ⟨size, front, back, begun, keeps⟩ := finished dropLate (by decide)
    obtain ⟨front', split⟩ := begun.split
    rw [split] at last
    -- the drop is the last call, so it is behind the end of the image
    rcases List.eq_nil_or_concat back with rfl | ⟨back', e, rfl⟩
    · simp [List.getLast?_append, List.getLast?_cons] at last
    · obtain rfl : e = (.abort, .ok ()) := by
        simpa [List.getLast?_append, List.getLast?_cons] using last
      exact keeps (by simp)
  · obtain ⟨size, since, begun, empty⟩ := whole dropLate (by decide)
    obtain ⟨front, split⟩ := begun.split
    have announced : (.begin size, .ok ()) ∈ blank.record dropLate := by
      rw [split]
      exact List.mem_append_right _ List.mem_cons_self
    obtain rfl : size = 0 := UInt32.toNat_inj.mp empty.symm
    revert announced
    decide

end OverTheAir.Flash
