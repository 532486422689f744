import OverTheAir.Packet.Request

/-!
# Proofs/Codec — which frames are requests, and of which

A request has one frame, and a frame is a request iff nothing is wrong with it.  What can be wrong
is listed in the order in which it is reported (`flaws`): the frame is empty, its leading byte is no
command of a client, its length is not that of the command, or it asks for an action that there is
not.  Reading a frame forgets its reserved bits and nothing else (`clearReserved`).

* `decode_eq_ok_iff`, `decode_eq_error_iff` — reading, told by `flaws` and `clearReserved`.
* `decodeByPlace?_eq` — every byte that is read has its place in the frame.
* `decode_exact` — all of it.
-/

namespace OverTheAir

namespace Request

/-! ## What is wrong with a frame -/

/-- The commands of a client are the numbers from 1 to 4. -/
def commandFlaw? (f : Bytes) : Option DecodeError :=
  match f.head? with
  | some raw => if raw ∈ [1, 2, 3, 4] then none else some (.unknownCommand raw)
  | none => none

/-- The frame of a command has a fixed length, but that a chunk of any length may end it. -/
def lengthFlaw? (f : Bytes) : Option DecodeError :=
  match f.head? with
  | some 1 => if f.length = 8 then none else some (.length .start 8 f.length)
  | some 2 => if 2 ≤ f.length then none else some (.length .state 2 f.length)
  | some 3 => if f.length = 1 then none else some (.length .abort 1 f.length)
  | some 4 => if f.length = 2 then none else some (.length .action 2 f.length)
  | _ => none

/-- The actions are the numbers from 0 to 2. -/
def actionFlaw? (f : Bytes) : Option DecodeError :=
  match f with
  | 4 :: raw :: _ => if raw ≤ 2 then none else some (.unknownAction raw)
  | _ => none

/-- Everything that is wrong with a frame, in the order in which it is reported. -/
def flaws (f : Bytes) : List DecodeError :=
  [if f = [] then some .empty else none, commandFlaw? f, lengthFlaw? f, actionFlaw? f].filterMap id

/-- The frame with its reserved bits cleared: bits 3 to 7 of the flags that end a `start` frame, and
bits 1 to 7 of the flags behind the command of a `state` frame. -/
def clearReserved (f : Bytes) : Bytes :=
  match f.head? with
  | some 1 => f.modify 7 (· &&& 0b00000111)
  | some 2 => f.modify 1 (· &&& 0b00000001)
  | _ => f

theorem length_clearReserved (f : Bytes) : (clearReserved f).length = f.length := by
  unfold clearReserved
  split <;> simp

/-- The lowest bit of the flags, written again. -/
theorem endBit_eq : ∀ bits : UInt8, (if bits.toNat.testBit 0 then 1 else 0) = bits &&& 1 :=
  Bytes.forall_byte (by decide +kernel)

/-! ## Reading a frame -/

/-- A frame is read as a request that is written so again, or refused for its first flaw. -/
inductive Reads (f : Bytes) : Except DecodeError Request → Prop where
  | ok (r : Request) (flawless : flaws f = []) (written : r.encode = clearReserved f) :
      Reads f (.ok r)
  | error (e : DecodeError) (first : (flaws f).head? = some e) : Reads f (.error e)

/-- A `start` frame has seven bytes behind its command. -/
theorem reads_start : ∀ body : Bytes, Reads (1 :: body) (decodeBody .start body)
  | [a, b, c, d, e, f, g] => by
    refine .ok _ rfl ?_
    rw [encode, Bytes.bytes32_word32, Bytes.bytes16_word16, SessionFlags.pack_unpack]
    rfl
  | [] | [_] | [_, _] | [_, _, _] | [_, _, _, _] | [_, _, _, _, _] | [_, _, _, _, _, _] =>
    .error _ rfl
  | _ :: _ :: _ :: _ :: _ :: _ :: _ :: _ :: body => .error _ rfl

/-- A `state` frame has its flags behind its command, and then the chunk. -/
theorem reads_state : ∀ body : Bytes, Reads (2 :: body) (decodeBody .state body)
  | [] => .error _ rfl
  | bits :: payload => by
    refine .ok _ (by simp [flaws, commandFlaw?, lengthFlaw?, actionFlaw?]) ?_
    rw [encode, endBit_eq]
    rfl

theorem reads_abort : ∀ body : Bytes, Reads (3 :: body) (decodeBody .abort body)
  | [] => .ok _ rfl rfl
  | _ :: _ => .error _ rfl

/-- An `action` frame has one byte behind its command, the number of the action. -/
theorem reads_action : ∀ body : Bytes, Reads (4 :: body) (decodeBody .action body)
  | [] | _ :: _ :: _ => .error _ rfl
  | [raw] => by
    rw [decodeBody]
    cases known : Action.ofNumber? raw with
    | some a =>
      rw [Action.eq_of_ofNumber? known]
      cases a <;> exact .ok _ rfl rfl
    | none =>
      have unknown : ¬raw ≤ 2 := by simpa [known] using Action.isSome_ofNumber? raw
      refine .error _ ?_
      simp [flaws, commandFlaw?, lengthFlaw?, actionFlaw?, unknown]

/-- **Every frame is read, or refused for its first flaw.** -/
theorem reads_decode : ∀ f : Bytes, Reads f (decode f)
  | [] => .error _ rfl
  | raw :: body => by
    rw [decode]
    cases known : Command.ofNumber? raw with
    | some command =>
      rw [Command.eq_of_ofNumber? known]
      cases command with
      | start => exact reads_start body
      | state => exact reads_state body
      | abort => exact reads_abort body
      | action => exact reads_action body
      | error => exact .error _ rfl
    | none =>
      have unknown : raw ∉ [1, 2, 3, 4] := fun client => by
        simp only [List.mem_cons, List.not_mem_nil, or_false] at client
        rcases client with rfl | rfl | rfl | rfl <;> cases known
      refine .error _ ?_
      simp [flaws, commandFlaw?, unknown]

theorem encode_injective {r r' : Request} (h : r.encode = r'.encode) : r = r' := by
  have read := congrArg decode h
  rw [decode_encode, decode_encode] at read
  exact Except.ok.inj read

/-- **A frame is a request iff nothing is wrong with it**, and then it is the one that is written so
but for reserved bits. -/
theorem decode_eq_ok_iff {f : Bytes} {r : Request} :
    decode f = .ok r ↔ flaws f = [] ∧ r.encode = clearReserved f := by
  have reads := reads_decode f
  refine ⟨fun h => ?_, fun ⟨flawless, written⟩ => ?_⟩
  · rw [h] at reads
    cases reads with
    | ok _ flawless written => exact ⟨flawless, written⟩
  · generalize decode f = result at reads
    cases reads with
    | ok r' _ written' => rw [encode_injective (written'.trans written.symm)]
    | error e first =>
      rw [flawless] at first
      cases first

/-- **A frame that is refused is refused for its first flaw.** -/
theorem decode_eq_error_iff {f : Bytes} {e : DecodeError} :
    decode f = .error e ↔ (flaws f).head? = some e := by
  have reads := reads_decode f
  refine ⟨fun h => ?_, fun first => ?_⟩
  · rw [h] at reads
    cases reads with
    | error _ first => exact first
  · generalize decode f = result at reads
    cases reads with
    | ok _ flawless _ =>
      rw [flawless] at first
      cases first
    | error e' first' => rw [Option.some.inj (first'.symm.trans first)]

/-! ## Reading by places -/

/-- Everything from a place on; no answer where the place lies behind the end. -/
def from? (place : Nat) (f : Bytes) : Option Bytes :=
  if place ≤ f.length then some (f.drop place) else none

/-- The request in a frame, with every byte fetched by its place.  There is no answer where a place
lies outside of the frame. -/
def decodeByPlace? (f : Bytes) : Option (Except DecodeError Request) := do
  if f.length = 0 then return .error .empty
  let raw ← f[0]?
  match Command.ofNumber? raw with
  | some .start =>
    if f.length ≠ 8 then return .error (.length .start 8 f.length)
    let totalSize := Bytes.word32 (← f[1]?) (← f[2]?) (← f[3]?) (← f[4]?)
    let timeoutMs := Bytes.word16 (← f[5]?) (← f[6]?)
    return .ok (start totalSize timeoutMs (SessionFlags.unpack (← f[7]?)))
  | some .state =>
    if f.length < stateHeaderLength then
      return .error (.length .state stateHeaderLength f.length)
    let bits ← f[1]?
    return .ok (state (bits.toNat.testBit 0) (← from? stateHeaderLength f))
  | some .abort =>
    if f.length ≠ 1 then return .error (.length .abort 1 f.length)
    return .ok abort
  | some .action =>
    if f.length ≠ 2 then return .error (.length .action 2 f.length)
    let number ← f[1]?
    match Action.ofNumber? number with
    | some a => return .ok (action a)
    | none => return .error (.unknownAction number)
  | some .error => return .error (.unknownCommand raw)
  | none => return .error (.unknownCommand raw)

theorem decodeByPlace?_start : ∀ body : Bytes,
    decodeByPlace? (1 :: body) = some (decodeBody .start body)
  | [_, _, _, _, _, _, _] => rfl
  | [] | [_] | [_, _] | [_, _, _] | [_, _, _, _] | [_, _, _, _, _] | [_, _, _, _, _, _] => rfl
  | _ :: _ :: _ :: _ :: _ :: _ :: _ :: _ :: _ => rfl

theorem decodeByPlace?_state : ∀ body : Bytes,
    decodeByPlace? (2 :: body) = some (decodeBody .state body)
  | [] | _ :: _ => rfl

theorem decodeByPlace?_action : ∀ body : Bytes,
    decodeByPlace? (4 :: body) = some (decodeBody .action body)
  | [] | _ :: _ :: _ => rfl
  | [raw] => by
    change (match Action.ofNumber? raw with
      | some a => pure (.ok (action a))
      | none => pure (.error (.unknownAction raw)) : Option (Except DecodeError Request)) = _
    rw [decodeBody]
    cases Action.ofNumber? raw <;> rfl

/-- **No byte is read from outside of the frame.** -/
theorem decodeByPlace?_eq : ∀ f : Bytes, decodeByPlace? f = some (decode f)
  | [] => rfl
  | raw :: body => by
    rw [decode]
    cases known : Command.ofNumber? raw with
    | some command =>
      rw [Command.eq_of_ofNumber? known]
      cases command with
      | start => exact decodeByPlace?_start body
      | state => exact decodeByPlace?_state body
      | abort => cases body <;> rfl
      | action => exact decodeByPlace?_action body
      | error => rfl
    | none => simp [decodeByPlace?, known]

/-! ## The whole of it -/

/-- **Frames and requests.**  Every request is read back from its frame.  A frame is a request iff
it has no flaw, and then the request is written as the frame is with its reserved bits cleared,
which is as long; otherwise the first flaw is reported.  No byte is read from outside of the
frame. -/
theorem decode_exact :
    (∀ r : Request, decode r.encode = .ok r) ∧
    ∀ f : Bytes,
      (∀ r, decode f = .ok r ↔ flaws f = [] ∧ r.encode = clearReserved f) ∧
      (clearReserved f).length = f.length ∧
      (∀ e, decode f = .error e ↔ (flaws f).head? = some e) ∧
      decodeByPlace? f = some (decode f) :=
  ⟨decode_encode, fun f => ⟨fun _ => decode_eq_ok_iff, length_clearReserved f,
    fun _ => decode_eq_error_iff, decodeByPlace?_eq f⟩⟩

end Request

end OverTheAir
