import OverTheAir.Proofs.Order
import OverTheAir.Proofs.Upload

/-!
# Proofs/Script — what an upload that goes well comes to

An upload is a client and an image, cut into chunks.  Its `script` is everything that the task of its
session does, from the call that opens the partition to the last duty.  It is computed from the
chunks alone, one after another: no inbox, no pause and no end mark stands in it.

* `events_script`, `frames_script` — among all that, the events are `events`, and the frames to the
  owner are `frames`.
* `Upload.ahead` — the part of the script that is still to come when the task stands at a stage.
* `Stage.Owes` — what the pieces that are still to come make of the image.
-/

namespace OverTheAir

/-! ## Effects, wherever the clients are -/

/-- The effect, had every client been within reach. -/
def Effect.reaching : Effect → Effect
  | .sent c frame _ => .sent c frame true
  | e => e

/-- What doing a duty comes to, had every client been within reach. -/
def Duty.effect : Duty → Effect
  | .tell c frame => .sent c frame true
  | .broadcast except frame => .broadcast except frame
  | .restart => .restarted

theorem Effect.reaching_of_duty? {e : Effect} {duty : Duty} (h : e.duty? = some duty) :
    e.reaching = duty.effect := by
  cases e <;> first | cases h; rfl | cases h

/-- The event that an effect tells the surroundings. -/
def Effect.event? : Effect → Option Event
  | .event e => some e
  | _ => none

def eventsOf (es : List Effect) : List Event := es.filterMap Effect.event?

theorem eventsOf_reaching (es : List Effect) : eventsOf (es.map Effect.reaching) = eventsOf es := by
  rw [eventsOf, List.filterMap_map]
  refine congrArg (List.filterMap · es) (funext fun e => ?_)
  cases e <;> rfl

theorem framesTo_reaching (c : Client) (es : List Effect) :
    framesTo c (es.map Effect.reaching) = framesTo c es := by
  rw [framesTo, List.filterMap_map]
  refine congrArg (List.filterMap · es) (funext fun e => ?_)
  cases e <;> rfl

/-! ## Uploads -/

/-- An image that a client uploads, cut into chunks that the device takes. -/
structure Upload where
  owner : Client
  /-- The size that is announced. -/
  total : UInt32
  /-- Longest chunk that the device takes. -/
  maxChunk : UInt32
  flags : SessionFlags
  chunks : List Bytes
  short : ∀ chunk ∈ chunks, chunk ≠ [] ∧ chunk.length ≤ maxChunk.toNat
  size : total.toNat = chunks.flatten.length
  pos : 0 < total.toNat
  room : total.toNat ≤ Flash.capacity

/-- How many bytes have come after each chunk, `n` being there before. -/
def tallies (n : UInt32) : List Bytes → List UInt32
  | [] => []
  | chunk :: chunks =>
    (n + UInt32.ofNat chunk.length) :: tallies (n + UInt32.ofNat chunk.length) chunks

namespace Upload

variable (u : Upload) {n : UInt32} {chunk : Bytes} {chunks : List Bytes}

def image : Bytes := u.chunks.flatten

/-- The pieces that are handed over: the end of the image is marked in the last chunk, or apart, in
an empty piece behind it. -/
def pieces (apart : Bool) : List (Bytes × Bool) :=
  if apart then u.chunks.map (·, false) ++ [([], true)]
  else u.chunks.dropLast.map (·, false) ++ u.chunks.getLast?.toList.map (·, true)

/-- The frame that asks for more when `n` bytes are there. -/
def frame (n : UInt32) : Response := .state n (min (u.total - n) u.maxChunk)

def report (n : UInt32) : Effect := .sent u.owner (u.frame n) true

/-- What is said when `n` bytes have come to be there. -/
def account (n : UInt32) : List Effect :=
  .event (.progress n u.total) :: if n < u.total then [u.report n] else []

/-- What is left to do once the session is over. -/
def partings : List Effect :=
  .sent u.owner (.state u.total 0) true :: .broadcast (some u.owner) (.state u.total 0) ::
    if u.flags.resetAfterSuccess then [.restarted] else []

def verdict : List Effect := .event (.completed u.total) :: u.partings

def finale : List Effect := .flash .finish (.ok ()) :: .flash .select (.ok ()) :: u.verdict

/-- What is done for the rest of the chunks and after them, `n` bytes being there before. -/
def rest (n : UInt32) : List Bytes → List Effect
  | [] => u.finale
  | chunk :: chunks =>
    .flash (.write chunk) (.ok ()) :: u.account (n + UInt32.ofNat chunk.length) ++
      rest (n + UInt32.ofNat chunk.length) chunks

/-- **All that the task of the session does.** -/
def script : List Effect :=
  .flash (.begin u.total) (.ok ()) :: u.report 0 :: u.rest 0 u.chunks

/-! ## The script, read by kind -/

theorem map_effect_farewell : (Device.farewell (some u.owner) u.total u.flags .completed).map
    Duty.effect = u.partings := by
  rw [Device.farewell, partings]
  split <;> rfl

theorem events_finale : eventsOf u.finale = [.completed u.total] := by
  rw [finale, verdict, partings]
  split <;> rfl

theorem frames_finale : framesTo u.owner u.finale = [.state u.total 0] := by
  rw [finale, verdict, partings]
  split <;> simp [framesTo, List.filterMap_cons, Effect.frameTo?]

theorem events_account (n : UInt32) : eventsOf (u.account n) = [.progress n u.total] := by
  rw [account]
  split <;> rfl

theorem frames_account (n : UInt32) : framesTo u.owner (u.account n)
    = if n < u.total then [u.frame n] else [] := by
  rw [account]
  split <;> simp [framesTo, List.filterMap_cons, Effect.frameTo?, report]

theorem events_rest (n : UInt32) (chunks : List Bytes) : eventsOf (u.rest n chunks)
    = (tallies n chunks).map (.progress · u.total) ++ [.completed u.total] := by
  induction chunks generalizing n with
  | nil => exact u.events_finale
  | cons chunk chunks ih =>
    have haccount := u.events_account (n + UInt32.ofNat chunk.length)
    have hrest := ih (n + UInt32.ofNat chunk.length)
    simp only [eventsOf] at haccount hrest ⊢
    rw [rest, List.filterMap_append, List.filterMap_cons, haccount, hrest]
    rfl

/-- The frames ask for more after every chunk but the last, and the one behind that asks for
nothing. -/
theorem frames_rest (nonempty : ∀ chunk ∈ chunks, chunk ≠ [])
    (size : n.toNat + chunks.flatten.length = u.total.toNat) : framesTo u.owner (u.rest n chunks)
    = (tallies n chunks).dropLast.map u.frame ++ [.state u.total 0] := by
  induction chunks generalizing n with
  | nil => exact u.frames_finale
  | cons chunk chunks ih =>
    rw [List.flatten_cons, List.length_append] at size
    have fits : n.toNat + chunk.length ≤ u.total.toNat := by omega
    have hcount := (Bytes.toNat_add_ofNat fits).2
    have hrest := ih (n := n + UInt32.ofNat chunk.length)
      (fun chunk h => nonempty chunk (List.mem_cons_of_mem _ h)) (by omega)
    have hwrite : framesTo u.owner [.flash (.write chunk) (.ok ())] = [] := rfl
    rw [rest, List.cons_append, ← List.singleton_append, framesTo_append, framesTo_append, hwrite,
      hrest, frames_account, tallies, List.nil_append, ← List.append_assoc]
    refine congrArg (· ++ [Response.state u.total 0]) ?_
    rcases chunks with _ | ⟨next, chunks⟩
    · have full : ¬n + UInt32.ofNat chunk.length < u.total := by
        rw [UInt32.lt_iff_toNat_lt]
        simp only [List.flatten_nil, List.length_nil] at size
        omega
      rw [if_neg full]
      rfl
    · have missing : n + UInt32.ofNat chunk.length < u.total := by
        have hpos := List.length_pos_iff.mpr (nonempty next (by simp))
        rw [UInt32.lt_iff_toNat_lt]
        simp only [List.flatten_cons, List.length_append] at size
        omega
      rw [if_pos missing]
      rfl

/-- The events of the task: one progress per chunk, and the completion. -/
def events : List Event := (tallies 0 u.chunks).map (.progress · u.total) ++ [.completed u.total]

/-- The frames to the owner: one asks for the first chunk, one asks for the next chunk after every
chunk but the last, and one says that all is there. -/
def frames : List Response :=
  u.frame 0 :: (tallies 0 u.chunks).dropLast.map u.frame ++ [.state u.total 0]

theorem events_script : eventsOf u.script = u.events := u.events_rest 0 u.chunks

theorem frames_script : framesTo u.owner u.script = u.frames := by
  have hopening : framesTo u.owner [.flash (.begin u.total) (.ok ()), u.report 0] = [u.frame 0] := by
    simp [framesTo, List.filterMap_cons, Effect.frameTo?, report]
  rw [frames, List.cons_append, ← u.frames_rest (n := 0) (fun chunk h => (u.short chunk h).1)
    (by simp [u.size])]
  exact (framesTo_append u.owner [_, _] (u.rest 0 u.chunks)).trans (hopening ▸ rfl)

end Upload

/-! ## What is still to come -/

/-- The chunks of pieces; one that is empty adds nothing. -/
def chunksOf (pieces : List (Bytes × Bool)) : List Bytes :=
  (pieces.map Prod.fst).filter fun chunk => !chunk.isEmpty

theorem chunksOf_cons {chunk : Bytes} (h : chunk ≠ []) (isEnd : Bool)
    (pieces : List (Bytes × Bool)) :
    chunksOf ((chunk, isEnd) :: pieces) = chunk :: chunksOf pieces := by
  simp [chunksOf, h]

/-- Pieces that come to an image, with the end in the last one. -/
structure Splits (image : Bytes) (pieces : List (Bytes × Bool)) : Prop where
  all : (pieces.map Prod.fst).flatten = image
  ends : Ends pieces true

/-- After a piece, the rest comes to the rest; behind the end there is none. -/
def Remains (image : Bytes) (pieces : List (Bytes × Bool)) : Bool → Prop
  | true => image = [] ∧ pieces = []
  | false => Splits image pieces

theorem Splits.uncons {image chunk : Bytes} {isEnd : Bool} {pieces : List (Bytes × Bool)}
    (h : Splits image ((chunk, isEnd) :: pieces)) :
    ∃ others, image = chunk ++ others ∧ Remains others pieces isEnd := by
  obtain ⟨rfl, front, last, heq, unmarked⟩ := h
  refine ⟨(pieces.map Prod.fst).flatten, rfl, ?_⟩
  rcases front with _ | ⟨piece, front⟩
  · obtain ⟨⟨rfl, rfl⟩, rfl⟩ : (chunk = last ∧ isEnd = true) ∧ pieces = [] := by simpa using heq
    exact ⟨rfl, rfl⟩
  · obtain ⟨rfl, rfl⟩ := List.cons.inj heq
    obtain rfl : isEnd = false := unmarked _ List.mem_cons_self
    exact ⟨rfl, front, last, rfl, fun p hp => unmarked p (List.mem_cons_of_mem _ hp)⟩

theorem not_splits_nil (image : Bytes) : ¬Splits image [] := by
  rintro ⟨-, front, last, heq, -⟩
  simp at heq

/-- `written` is there of an image, and the pieces come to the rest. -/
def Lacks (image written : Bytes) (pieces : List (Bytes × Bool)) (isEnd : Bool) : Prop :=
  ∃ others, image = written ++ others ∧ Remains others pieces isEnd

/-- A piece that is written is no longer lacking. -/
theorem Lacks.write {image written chunk : Bytes} {isEnd : Bool} {pieces : List (Bytes × Bool)}
    (h : Lacks image written ((chunk, isEnd) :: pieces) false) :
    Lacks image (written ++ chunk) pieces isEnd := by
  obtain ⟨others, rfl, splits⟩ := h
  obtain ⟨others, rfl, remains⟩ := Splits.uncons splits
  exact ⟨others, (List.append_assoc ..).symm, remains⟩

theorem Lacks.length_le {image written chunk : Bytes} {isEnd : Bool} {pieces : List (Bytes × Bool)}
    (h : Lacks image written ((chunk, isEnd) :: pieces) false) :
    written.length + chunk.length ≤ image.length := by
  obtain ⟨others, rfl, -⟩ := h.write
  simp

/-- With the end dealt with, all of the image is there. -/
theorem Lacks.all {image written : Bytes} {pieces : List (Bytes × Bool)}
    (h : Lacks image written pieces true) : written = image ∧ pieces = [] := by
  obtain ⟨others, rfl, rfl, none⟩ := h
  exact ⟨(List.append_nil _).symm, none⟩

/-- What the pieces that are still to be dealt with come to, with `written` in the partition, when
the task stands at a stage. -/
def Stage.Owes (image written : Bytes) (pieces : List (Bytes × Bool)) : Stage → Prop
  | .launched => Splits image pieces
  | .beginning => Splits image pieces
  | .expired => False
  | .aborting _ => False
  | .leaving (.aborted _) => False
  | s => Lacks image written pieces s.isEnd

theorem Stage.owes_next {image written : Bytes} {pieces : List (Bytes × Bool)} {isEnd : Bool}
    (h : Lacks image written pieces isEnd) : (next isEnd).Owes image written pieces := by
  cases isEnd <;> exact h

/-- As long as there are pieces to come, the transfer goes on. -/
theorem Stage.Owes.inTransfer {s : Stage} {image written : Bytes} {pieces : List (Bytes × Bool)}
    {session : Session} {f : Flash} {maxChunk : UInt32} (h : s.Owes image written pieces)
    (stands : s.Stands session f maxChunk) (more : pieces ≠ []) : session.InTransfer := by
  rcases s with _ | _ | _ | _ | _ | _ | _ | _ | _ | _ | _ | _ | _ | _ | _ | _ | _ | _
  case launched => exact stands.1
  case beginning => exact stands.1
  case awaiting => exact stands.inTransfer
  case holding => exact stands.inTransfer
  case ending => exact absurd h.all.2 more
  case closing => exact absurd h.all.2 more
  case selecting => exact absurd h.all.2 more
  case leaving.completed => exact absurd h.all.2 more
  case expired => exact h.elim
  case aborting => exact h.elim
  case leaving.aborted => exact h.elim
  all_goals exact stands.1.inTransfer

namespace Upload

variable (u : Upload)

theorem chunks_ne_nil : u.chunks ≠ [] := by
  intro none
  have size := u.size
  have pos := u.pos
  simp [none] at size
  omega

/-- **Wherever the end is marked, the pieces come to the image**, -/
theorem splits_pieces (apart : Bool) : Splits u.image (u.pieces apart) := by
  obtain ⟨front, last, heq⟩ := u.chunks.eq_nil_or_concat.resolve_left u.chunks_ne_nil
  rw [image, pieces, heq]
  cases apart with
  | true =>
    refine ⟨by simp [Function.comp_def], (front ++ [last]).map (·, false), [], by simp, by simp⟩
  | false => exact ⟨by simp [Function.comp_def], front.map (·, false), last, by simp, by simp⟩

/-- and have the same chunks. -/
theorem chunksOf_pieces (apart : Bool) : chunksOf (u.pieces apart) = u.chunks := by
  obtain ⟨front, last, heq⟩ := u.chunks.eq_nil_or_concat.resolve_left u.chunks_ne_nil
  have nonempty : ∀ chunk ∈ u.chunks, (!chunk.isEmpty) = true := fun chunk h => by
    simp [(u.short chunk h).1]
  rw [← List.filter_eq_self.mpr nonempty, chunksOf, pieces]
  cases apart with
  | true => simp [Function.comp_def]
  | false => simp [heq, Function.comp_def]

/-- No piece is longer than the device takes. -/
theorem short_pieces (apart : Bool) : ∀ p ∈ u.pieces apart, p.1.length ≤ u.maxChunk.toNat := by
  have short : ∀ chunk ∈ u.chunks, chunk.length ≤ u.maxChunk.toNat := fun chunk h =>
    (u.short chunk h).2
  intro p hp
  cases apart with
  | true =>
    rcases List.mem_append.mp hp with hp | hp
    · obtain ⟨chunk, hchunk, rfl⟩ := List.mem_map.mp hp
      exact short chunk hchunk
    · rw [List.mem_singleton.mp hp]
      exact Nat.zero_le _
  | false =>
    rcases List.mem_append.mp hp with hp | hp
    · obtain ⟨chunk, hchunk, rfl⟩ := List.mem_map.mp hp
      exact short chunk (List.dropLast_subset _ hchunk)
    · obtain ⟨chunk, hchunk, rfl⟩ := List.mem_map.mp hp
      exact short chunk (List.mem_of_getLast? (Option.mem_toList.mp hchunk))

/-- The rest of the script when the task stands at a stage, `n` bytes being accounted for and
`chunks` still to be dealt with. -/
def ahead (n : UInt32) (chunks : List Bytes) : Stage → List Effect
  | .launched => .flash (.begin u.total) (.ok ()) :: u.report 0 :: u.rest n chunks
  | .beginning => .flash (.begin u.total) (.ok ()) :: u.report 0 :: u.rest n chunks
  | .begun => u.report 0 :: u.rest n chunks
  | .reporting frame _ => .sent u.owner frame true :: u.rest n chunks
  | .written chunk _ =>
    u.account (n + UInt32.ofNat chunk.length) ++ u.rest (n + UInt32.ofNat chunk.length) chunks
  | .counted received _ _ => u.account received ++ u.rest n chunks
  | .selecting => .flash .select (.ok ()) :: u.verdict
  | .leaving _ => u.verdict
  | _ => u.rest n chunks

theorem ahead_begun (n : UInt32) (chunks : List Bytes) (isEnd : Bool) :
    u.ahead n chunks .begun = u.ahead n chunks (.reporting (u.frame 0) isEnd) := rfl

theorem ahead_counted (n received requested : UInt32) (chunks : List Bytes) (isEnd : Bool) :
    u.ahead n chunks (.counted received requested isEnd) = u.account received ++ u.rest n chunks :=
  rfl

theorem ahead_next (n : UInt32) (chunks : List Bytes) (isEnd : Bool) :
    u.ahead n chunks (.next isEnd) = u.rest n chunks := by
  cases isEnd <;> rfl

end Upload

end OverTheAir
