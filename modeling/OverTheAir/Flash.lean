import OverTheAir.Bytes

/-!
# Flash — the inactive partition an update is written to

The partition takes an image between `begin` and `finish`, and the finished image may then be
selected for the next boot.  A call that fails says why and, `finish` apart, changes nothing.

The image is an array, so that a write appends in place; its `toList` is the view to reason with.
-/

namespace OverTheAir

/-- What went wrong underneath, with its native code where it has one. -/
inductive FlashError where
  | noPartition
  | begin (code : Int32)
  | write (code : Int32)
  | finish (code : Int32)
  | select (code : Int32)
  /-- No update is open. -/
  | notOpen
  | imageState (code : Int32)
  deriving DecidableEq, Repr

namespace FlashError

/-- The native code of a failure that has none of its own. -/
def generic : Int32 := -1

def code : FlashError → Int32
  | noPartition => generic
  | begin c => c
  | write c => c
  | finish c => c
  | select c => c
  | notOpen => generic
  | imageState c => c

def message : FlashError → String
  | noPartition => "no inactive OTA partition available"
  | begin c => s!"OTA begin failed ({c.toInt})"
  | write c => s!"OTA write failed ({c.toInt})"
  | finish c => s!"OTA end failed ({c.toInt})"
  | select c => s!"set boot partition failed ({c.toInt})"
  | notOpen => "no OTA update in progress"
  | imageState c => s!"image state operation failed ({c.toInt})"

end FlashError

/-- The answer of a call to flash or firmware. -/
abbrev FlashResult := Except FlashError Unit

instance : DecidableEq FlashResult
  | .ok (), .ok () => isTrue rfl
  | .ok (), .error _ => isFalse nofun
  | .error _, .ok () => isFalse nofun
  | .error a, .error b =>
    if h : a = b then isTrue (congrArg _ h) else isFalse fun h' => h (Except.error.inj h')

/-- What can be asked of the partition. -/
inductive FlashCall where
  | begin (size : UInt32)
  | write (chunk : Bytes)
  | finish
  | select
  | abort
  deriving DecidableEq, Repr

structure Flash where
  image : Array UInt8
  /-- An update has begun and has been neither finished nor aborted. -/
  isOpen : Bool
  /-- The image is the one to boot next. -/
  bootSelected : Bool
  expected : UInt32
  /-- Bytes written since the last `begin`. -/
  written : UInt32
  deriving DecidableEq, Repr

namespace Flash

/-- Size of the partition in bytes. -/
def capacity : Nat := 1536 * 1024

/-- Native code of a size that the partition cannot hold. -/
def invalidSize : Int32 := 0x104

/-- Native code of an image that is not what was announced. -/
def validationFailed : Int32 := 0x1503

/-- A blank partition. -/
def blank : Flash := ⟨#[], false, false, 0, 0⟩

def begin (f : Flash) (size : UInt32) : FlashResult × Flash :=
  if capacity < size.toNat then (.error (.begin invalidSize), f)
  else (.ok (), ⟨#[], true, false, size, 0⟩)

def write (f : Flash) (chunk : Bytes) : FlashResult × Flash :=
  if !f.isOpen then (.error .notOpen, f)
  else if capacity < f.image.size + chunk.length then (.error (.write invalidSize), f)
  else (.ok (), { f with
    image := f.image ++ chunk, written := f.written + UInt32.ofNat chunk.length })

/-- Close the update.  It is closed even if the image is not as long as announced. -/
def finish (f : Flash) : FlashResult × Flash :=
  if !f.isOpen then (.error .notOpen, f)
  else if f.written ≠ f.expected then
    (.error (.finish validationFailed), { f with isOpen := false })
  else (.ok (), { f with isOpen := false })

def select (f : Flash) : FlashResult × Flash :=
  if f.isOpen || f.written ≠ f.expected then (.error (.select validationFailed), f)
  else (.ok (), { f with bootSelected := true })

/-- Drop the update and what was written; the count of bytes written stays. -/
def abort (f : Flash) : Flash := { f with isOpen := false, image := #[] }

/-- Make one call. -/
def call (f : Flash) : FlashCall → FlashResult × Flash
  | .begin size => f.begin size
  | .write chunk => f.write chunk
  | .finish => f.finish
  | .select => f.select
  | .abort => (.ok (), f.abort)

end Flash

end OverTheAir
