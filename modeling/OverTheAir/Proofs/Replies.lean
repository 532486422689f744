import OverTheAir.Packet.Response

/-!
# Proofs/Replies — which frames are responses, and of which

A response is written run by run into a buffer of nine bytes (`Buffer`), none of which is written
past the end.  A frame is a response iff nothing is wrong with it, and then it is the frame of that
response alone: no byte of it is reserved.  What can be wrong is listed in the order in which it is
reported (`flaws`): the frame is empty, its leading byte is no command of a device, its length is not
that of the command, or it has an action, a reason or a code that there is not.

* `fill?_eq` — the buffer holds every response.
* `decode_ok_iff`, `decode_error_iff` — reading, told by `encode` and `flaws`.
* `bijection_onto_frames` — all of it.
-/

namespace OverTheAir

namespace Response

/-! ## The buffer -/

/-- A buffer as long as the largest frame, of which the first `filled` bytes are taken. -/
structure Buffer where
  bytes : Bytes
  filled : Nat
  size : bytes.length = maxLength
  fits : filled ≤ maxLength

namespace Buffer

/-- Nothing but zeros, none of them taken. -/
def blank : Buffer := ⟨List.replicate maxLength 0, 0, List.length_replicate, Nat.zero_le _⟩

/-- Overwrites the bytes behind the taken ones with a run.  There is no answer where the run goes
past the end of the buffer. -/
def write? (b : Buffer) (run : Bytes) : Option Buffer :=
  if fits : b.filled + run.length ≤ maxLength then
    some
      { bytes := b.bytes.take b.filled ++ run ++ b.bytes.drop (b.filled + run.length)
        filled := b.filled + run.length
        size := by
          simp only [List.length_append, List.length_take, List.length_drop, b.size]
          omega
        fits }
  else none

/-- The bytes that are taken. -/
def frame (b : Buffer) : Bytes := b.bytes.take b.filled

/-- A run that fits is written behind what is there. -/
theorem write?_of_fits {b : Buffer} {run : Bytes} (fits : b.filled + run.length ≤ maxLength) :
    ∃ b', b.write? run = some b' ∧ b'.filled = b.filled + run.length ∧
      b'.frame = b.frame ++ run := by
  have taken : (b.bytes.take b.filled).length = b.filled := by
    rw [List.length_take, b.size]
    exact Nat.min_eq_left b.fits
  refine ⟨_, dif_pos fits, rfl, ?_⟩
  exact List.take_left' (by rw [List.length_append, taken])

/-- Runs that fit together are written one behind the other. -/
theorem writes_of_fits : ∀ (runs : List Bytes) (b : Buffer),
    b.filled + runs.flatten.length ≤ maxLength →
    ∃ b', runs.foldlM write? b = some b' ∧ b'.frame = b.frame ++ runs.flatten
  | [], b, _ => ⟨b, rfl, by simp⟩
  | run :: runs, b, fits => by
    rw [List.flatten_cons, List.length_append] at fits
    have first : b.filled + run.length ≤ maxLength := by omega
    obtain ⟨b₁, written, filled, frame⟩ := write?_of_fits first
    obtain ⟨b', all, frame'⟩ := writes_of_fits runs b₁ (by omega)
    refine ⟨b', ?_, ?_⟩
    · rw [List.foldlM_cons, written]
      exact all
    · rw [frame', frame, List.flatten_cons, List.append_assoc]

end Buffer

/-- The runs of bytes that a response is written in. -/
def runs : Response → List Bytes
  | state received requested =>
    [[Command.state.number], Bytes.ofWord32 received, Bytes.ofWord32 requested]
  | abort reason => [[Command.abort.number], [reason.number]]
  | action a result => [[Command.action.number], [a.number], Bytes.ofWord32 result.toUInt32]
  | error code => [[Command.error.number], [code.number]]

theorem flatten_runs (r : Response) : r.runs.flatten = r.encode := by
  cases r <;> rfl

/-- The buffer with a response in it. -/
def fill? (r : Response) : Option Buffer := r.runs.foldlM Buffer.write? .blank

/-- **The buffer holds every response.** -/
theorem fill?_eq (r : Response) : ∃ b, r.fill? = some b ∧ b.frame = r.encode := by
  have fits : Buffer.blank.filled + r.runs.flatten.length ≤ maxLength := by
    rw [flatten_runs, Buffer.blank, Nat.zero_add]
    exact length_encode_le r
  obtain ⟨b, filled, frame⟩ := Buffer.writes_of_fits r.runs .blank fits
  exact ⟨b, filled, by rw [frame, flatten_runs]; rfl⟩

/-! ## What is wrong with a frame -/

/-- The commands of a device are the numbers from 2 to 4, and 10. -/
def commandFlaw? (f : Bytes) : Option DecodeError :=
  match f.head? with
  | some raw => if raw ∈ [2, 3, 4, 10] then none else some (.unknownCommand raw)
  | none => none

/-- The frame of a command has a fixed length. -/
def lengthFlaw? (f : Bytes) : Option DecodeError :=
  match f.head? with
  | some 2 => if f.length = 9 then none else some (.length .state 9 f.length)
  | some 3 => if f.length = 2 then none else some (.length .abort 2 f.length)
  | some 4 => if f.length = 6 then none else some (.length .action 6 f.length)
  | some 10 => if f.length = 2 then none else some (.length .error 2 f.length)
  | _ => none

/-- The actions are the numbers from 0 to 2. -/
def actionFlaw? (f : Bytes) : Option DecodeError :=
  match f with
  | 4 :: raw :: _ => if raw ≤ 2 then none else some (.unknownAction raw)
  | _ => none

/-- The reasons are the numbers from 0 to 10, the codes of a refusal those from 0 to 7. -/
def valueFlaw? (f : Bytes) : Option DecodeError :=
  match f with
  | 3 :: raw :: _ => if raw ≤ 10 then none else some (.unknownValue raw)
  | 10 :: raw :: _ => if raw ≤ 7 then none else some (.unknownValue raw)
  | _ => none

/-- Everything that is wrong with a frame, in the order in which it is reported. -/
def flaws (f : Bytes) : List DecodeError :=
  [if f = [] then some .empty else none, commandFlaw? f, lengthFlaw? f, actionFlaw? f,
    valueFlaw? f].filterMap id

/-- Nothing is wrong with what is written. -/
theorem flaws_encode (r : Response) : flaws r.encode = [] := by
  cases r with
  | state received requested => rfl
  | abort reason => cases reason <;> rfl
  | action a result => cases a <;> rfl
  | error code => cases code <;> rfl

/-! ## Reading a frame -/

variable {e : DecodeError}

/-- A `state` frame has eight bytes behind its command. -/
theorem first_state : ∀ body : Bytes, decodeBody .state body = .error e →
    (flaws (2 :: body)).head? = some e
  | [_, _, _, _, _, _, _, _], h => by cases h
  | [], h | [_], h | [_, _], h | [_, _, _], h | [_, _, _, _], h | [_, _, _, _, _], h
  | [_, _, _, _, _, _], h | [_, _, _, _, _, _, _], h
  | _ :: _ :: _ :: _ :: _ :: _ :: _ :: _ :: _ :: _, h => by
    cases h
    rfl

/-- An `abort` frame has one byte behind its command, the number of the reason. -/
theorem first_abort : ∀ body : Bytes, decodeBody .abort body = .error e →
    (flaws (3 :: body)).head? = some e
  | [], h | _ :: _ :: _, h => by
    cases h
    rfl
  | [raw], h => by
    rw [decodeBody] at h
    split at h
    · cases h
    · next unknown =>
      cases h
      have large : ¬raw ≤ 10 := by simpa [unknown] using AbortReason.isSome_ofNumber? raw
      simp [flaws, commandFlaw?, lengthFlaw?, actionFlaw?, valueFlaw?, large]

/-- An `action` frame has five bytes behind its command, and the first is the number of the
action. -/
theorem first_action : ∀ body : Bytes, decodeBody .action body = .error e →
    (flaws (4 :: body)).head? = some e
  | [], h | [_], h | [_, _], h | [_, _, _], h | [_, _, _, _], h
  | _ :: _ :: _ :: _ :: _ :: _ :: _, h => by
    cases h
    rfl
  | [raw, _, _, _, _], h => by
    rw [decodeBody] at h
    split at h
    · cases h
    · next unknown =>
      cases h
      have large : ¬raw ≤ 2 := by simpa [unknown] using Action.isSome_ofNumber? raw
      simp [flaws, commandFlaw?, lengthFlaw?, actionFlaw?, valueFlaw?, large]

/-- An `error` frame has one byte behind its command, the number of the code. -/
theorem first_error : ∀ body : Bytes, decodeBody .error body = .error e →
    (flaws (10 :: body)).head? = some e
  | [], h | _ :: _ :: _, h => by
    cases h
    rfl
  | [raw], h => by
    rw [decodeBody] at h
    split at h
    · cases h
    · next unknown =>
      cases h
      have large : ¬raw ≤ 7 := by simpa [unknown] using Refusal.isSome_ofNumber? raw
      simp [flaws, commandFlaw?, lengthFlaw?, actionFlaw?, valueFlaw?, large]

/-- A frame that is refused is refused for its first flaw. -/
theorem first_of_decode : ∀ f : Bytes, decode f = .error e → (flaws f).head? = some e
  | [], h => by
    cases h
    rfl
  | raw :: body, h => by
    rw [decode] at h
    split at h
    · next command known =>
      rw [Command.eq_of_ofNumber? known]
      cases command with
      | start =>
        cases h
        rfl
      | state => exact first_state body h
      | abort => exact first_abort body h
      | action => exact first_action body h
      | error => exact first_error body h
    · next unknown =>
      have foreign : raw ∉ [2, 3, 4, 10] := fun device => by
        simp only [List.mem_cons, List.not_mem_nil, or_false] at device
        rcases device with rfl | rfl | rfl | rfl <;> cases unknown
      cases h
      simp [flaws, commandFlaw?, foreign]

/-- **A frame is the frame of a response iff it is read as that response.** -/
theorem decode_ok_iff {f : Bytes} {r : Response} : decode f = .ok r ↔ r.encode = f := by
  refine ⟨encode_of_decode, ?_⟩
  rintro rfl
  exact decode_encode r

/-- **A frame is refused for its first flaw, and only for that.** -/
theorem decode_error_iff {f : Bytes} : decode f = .error e ↔ (flaws f).head? = some e := by
  refine ⟨first_of_decode f, fun first => ?_⟩
  cases read : decode f with
  | ok r =>
    rw [← encode_of_decode read, flaws_encode] at first
    cases first
  | error e' => rw [Option.some.inj ((first_of_decode f read).symm.trans first)]

/-- **A frame is refused iff it is the frame of no response.** -/
theorem refused_iff {f : Bytes} : (∃ e, decode f = .error e) ↔ ∀ r : Response, r.encode ≠ f := by
  refine ⟨fun ⟨e, refused⟩ r written => ?_, fun foreign => ?_⟩
  · rw [decode_ok_iff.mpr written] at refused
    cases refused
  · cases read : decode f with
    | ok r => exact absurd (encode_of_decode read) (foreign r)
    | error e => exact ⟨e, rfl⟩

/-! ## The whole of it -/

/-- **Responses and frames, one for one.**  Every response fits into the buffer, and is read back
from its frame.  A frame is read as a response iff it is the frame of that response, and is refused,
for its first flaw, iff it is the frame of none. -/
theorem bijection_onto_frames :
    (∀ r : Response,
      r.encode.length ≤ maxLength ∧ (∃ b, r.fill? = some b ∧ b.frame = r.encode) ∧
        decode r.encode = .ok r) ∧
    ∀ f : Bytes,
      (∀ r, decode f = .ok r ↔ r.encode = f) ∧
      (∀ e, decode f = .error e ↔ (flaws f).head? = some e) ∧
      ((∃ e, decode f = .error e) ↔ ∀ r : Response, r.encode ≠ f) :=
  ⟨fun r => ⟨length_encode_le r, fill?_eq r, decode_encode r⟩,
    fun _ => ⟨fun _ => decode_ok_iff, fun _ => decode_error_iff, refused_iff⟩⟩

end Response

end OverTheAir
