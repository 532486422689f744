import OverTheAir.Flash
import OverTheAir.Image

/-!
# Firmware — the running image and what becomes of it

A freshly booted image may be pending verification: it is then marked valid, or invalidated, which
rolls the device back to the image before it.  A boot selection made during this boot can be
reverted.
-/

namespace OverTheAir

/-- What can be asked about the image state. -/
inductive FirmwareCall where
  | markValid
  | rollBack
  | revert
  deriving DecidableEq, Repr

structure Firmware where
  running : Option Version
  lastInvalid : Option Version
  pendingVerify : Bool
  /-- The boot selection was reverted to the running image. -/
  reverted : Bool
  restarts : Nat
  deriving DecidableEq

namespace Firmware

/-- A device that runs, and last invalidated, images of the given versions. -/
def withVersions (running lastInvalid : Option String) : Firmware where
  running := running.bind fun s => Version.ofPadded? (Bytes.ofText s)
  lastInvalid := lastInvalid.bind fun s => Version.ofPadded? (Bytes.ofText s)
  pendingVerify := false
  reverted := false
  restarts := 0

/-- A device about whose images nothing is known. -/
def unknown : Firmware := ⟨none, none, false, false, 0⟩

/-- A device fresh from the factory. -/
def factory : Firmware := withVersions (some "0.1.0") none

def markValid (f : Firmware) : FlashResult × Firmware :=
  if f.pendingVerify then (.ok (), { f with pendingVerify := false })
  else (.error (.imageState FlashError.generic), f)

/-- Invalidate the running image and restart into the one before it. -/
def rollBack (f : Firmware) : FlashResult × Firmware :=
  (.ok (), { f with
    running := none, lastInvalid := f.running, pendingVerify := false, restarts := f.restarts + 1 })

def revert (f : Firmware) : FlashResult × Firmware :=
  (.ok (), { f with reverted := true })

def restart (f : Firmware) : Firmware := { f with restarts := f.restarts + 1 }

/-- Make one call. -/
def call (f : Firmware) : FirmwareCall → FlashResult × Firmware
  | .markValid => f.markValid
  | .rollBack => f.rollBack
  | .revert => f.revert

end Firmware

end OverTheAir
