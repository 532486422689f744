import OverTheAir.Bytes

/-!
# Packet/Flags — the policy bits of a session

Three bits fixed for the lifetime of a session, packed lowest first.  The other five bits of the
byte are reserved: written as zero, ignored when read (`pack_unpack`).
-/

namespace OverTheAir

/-- What a client asks of its session beyond the transfer. -/
structure SessionFlags where
  /-- Restart the device once the update is complete. -/
  resetAfterSuccess : Bool
  /-- Refuse an image that has the version of the last invalidated one. -/
  refuseLastInvalid : Bool
  /-- Refuse an image that has the version of the running one. -/
  refuseRunning : Bool
  deriving DecidableEq, Repr

namespace SessionFlags

/-- No policy at all. -/
def none : SessionFlags := ⟨false, false, false⟩

def pack (f : SessionFlags) : UInt8 :=
  (if f.resetAfterSuccess then 1 else 0) + (if f.refuseLastInvalid then 2 else 0)
    + (if f.refuseRunning then 4 else 0)

def unpack (bits : UInt8) : SessionFlags :=
  ⟨bits.toNat.testBit 0, bits.toNat.testBit 1, bits.toNat.testBit 2⟩

/-- The image head has to be inspected before the first write. -/
def needsVersionCheck (f : SessionFlags) : Bool := f.refuseLastInvalid || f.refuseRunning

theorem needsVersionCheck_iff {f : SessionFlags} :
    f.needsVersionCheck = true ↔ f.refuseLastInvalid = true ∨ f.refuseRunning = true :=
  Bool.or_eq_true_iff

@[simp] theorem unpack_pack (f : SessionFlags) : unpack f.pack = f := by
  obtain ⟨a, b, c⟩ := f
  cases a <;> cases b <;> cases c <;> rfl

/-- Packing what was read keeps the three policy bits and clears the reserved ones. -/
theorem pack_unpack : ∀ bits : UInt8, (unpack bits).pack = bits &&& 7 :=
  Bytes.forall_byte (by decide +kernel)

end SessionFlags

end OverTheAir
