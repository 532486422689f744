import OverTheAir.Packet.Code
import OverTheAir.Packet.Flags
import OverTheAir.Text.Bounded

/-!
# Image — the head of a firmware image and its version

An application image opens with a 24-byte image header and an 8-byte segment header.  The
256-byte application descriptor follows, and 16 bytes into it stands the version, padded with zero
bytes to 32.  Only a head that reaches the end of the descriptor is read.
-/

namespace OverTheAir

/-- A version is a text of at most 32 bytes. -/
abbrev Version := BoundedText 32

namespace Image

def magic : UInt8 := 0xE9

def descriptorMagic : UInt32 := 0xABCD5432

/-- Where the application descriptor starts. -/
def descriptorOffset : Nat := 24 + 8

def versionOffset : Nat := descriptorOffset + 16

def versionLength : Nat := 32

/-- Bytes that must be there before the version is read. -/
def headLength : Nat := descriptorOffset + 256

/-- The image opens with its magic byte. -/
def hasMagic : Bytes → Bool
  | b :: _ => b == magic
  | [] => false

/-- The descriptor opens with its magic word. -/
def hasDescriptor (head : Bytes) : Bool :=
  (head.drop descriptorOffset).take 4 == Bytes.ofWord32 descriptorMagic

/-- The zero-padded version field. -/
def versionField (head : Bytes) : Bytes := (head.drop versionOffset).take versionLength

/-- The version an image announces: the text before the first zero byte of its version field. -/
def version? (head : Bytes) : Option Version :=
  if headLength ≤ head.length ∧ hasMagic head ∧ hasDescriptor head then
    BoundedText.ofBytes? (Bytes.beforeZero (versionField head))
  else none

/-- Whether an image may be written, given the versions it must not have.  An image without a
readable version is refused; so is one with the last invalidated version, then one with the running
version, each only if the policy asks for it. -/
def checkVersion (head : Bytes) (flags : SessionFlags) (running lastInvalid : Option String) :
    Except AbortReason Version :=
  match version? head with
  | none => .error .invalidVersion
  | some v =>
    if flags.refuseLastInvalid && lastInvalid == some v.text then .error .invalidVersion
    else if flags.refuseRunning && running == some v.text then .error .sameVersion
    else .ok v

/-- A field that lies in the head of an image is the same in all of it. -/
theorem field_append {head : Bytes} {offset length : Nat} (h : offset + length ≤ head.length)
    (rest : Bytes) :
    ((head ++ rest).drop offset).take length = (head.drop offset).take length := by
  have hle : length ≤ (head.drop offset).length := by
    rw [List.length_drop]
    omega
  rw [List.drop_append_of_le_length (by omega), List.take_append_of_le_length hle]

/-- **The version of an image stands in its head**, whatever comes behind. -/
theorem version?_append {head : Bytes} {v : Version} (h : version? head = some v) (rest : Bytes) :
    version? (head ++ rest) = some v := by
  rw [version?] at h
  split at h
  · next readable =>
    obtain ⟨long, magical, described⟩ := readable
    have longer : headLength ≤ (head ++ rest).length := by
      rw [List.length_append]
      omega
    have sameMagic : hasMagic (head ++ rest) = hasMagic head := by
      cases head with
      | nil => cases long
      | cons b head => rfl
    have sameDescriptor : hasDescriptor (head ++ rest) = hasDescriptor head := by
      rw [hasDescriptor, field_append (Nat.le_trans (by decide) long), hasDescriptor]
    have sameField : versionField (head ++ rest) = versionField head :=
      field_append (Nat.le_trans (by decide) long) rest
    rw [version?, sameMagic, sameDescriptor, sameField, if_pos ⟨longer, magical, described⟩, h]
  · cases h

/-- **What the version policy lets pass** has a version that is readable and not one of those that
the policy refuses. -/
theorem checkVersion_eq_ok_iff {head : Bytes} {flags : SessionFlags}
    {running lastInvalid : Option String} {v : Version} :
    checkVersion head flags running lastInvalid = .ok v ↔ version? head = some v ∧
      (flags.refuseLastInvalid = true → lastInvalid ≠ some v.text) ∧
      (flags.refuseRunning = true → running ≠ some v.text) := by
  rw [checkVersion]
  cases version? head with
  | none => simp
  | some v' =>
    dsimp only
    split
    · next refused =>
      simp only [Bool.and_eq_true, beq_iff_eq] at refused
      refine iff_of_false nofun fun ⟨same, passes, _⟩ => ?_
      obtain rfl := Option.some.inj same
      exact passes refused.1 refused.2
    · next passes =>
      split
      · next refused =>
        simp only [Bool.and_eq_true, beq_iff_eq] at refused
        refine iff_of_false nofun fun ⟨same, _, differs⟩ => ?_
        obtain rfl := Option.some.inj same
        exact differs refused.1 refused.2
      · next differs =>
        simp only [Bool.and_eq_true, beq_iff_eq, not_and] at passes differs
        refine ⟨fun h => ?_, fun ⟨same, _⟩ => congrArg _ (Option.some.inj same)⟩
        obtain rfl := Except.ok.inj h
        exact ⟨rfl, passes, differs⟩

/-- What the version policy turns down, it turns down for its version. -/
theorem checkVersion_error {head : Bytes} {flags : SessionFlags}
    {running lastInvalid : Option String} {reason : AbortReason}
    (h : checkVersion head flags running lastInvalid = .error reason) :
    reason = .invalidVersion ∨ reason = .sameVersion := by
  rw [checkVersion] at h
  split at h
  · exact .inl (Except.error.inj h).symm
  · split at h
    · exact .inl (Except.error.inj h).symm
    · split at h
      · exact .inr (Except.error.inj h).symm
      · cases h

end Image

namespace Version

/-- The version in a zero-padded field of an installed image; an empty one counts as none. -/
def ofPadded? (field : Bytes) : Option Version :=
  match BoundedText.ofBytes? (Bytes.beforeZero field) with
  | some v => if v.text.isEmpty then none else some v
  | none => none

end Version

end OverTheAir
