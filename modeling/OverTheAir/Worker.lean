import OverTheAir.Log

/-!
# Worker — starting a thread

A worker is started under a name padded with zero characters.  Off the device no core is chosen; the
request is logged, and the system may refuse the thread.  Two requests are out of place whatever the
system says: a stack whose size in bytes is no 64-bit word, and a name with a zero character inside.
-/

namespace OverTheAir

inductive Core where
  | protocol
  | application
  deriving DecidableEq, Repr

structure WorkerSpec where
  core : Core
  priority : UInt8
  stackKb : Nat
  /-- Ends in zero characters. -/
  name : String
  deriving DecidableEq, Repr

inductive WorkerStart where
  /-- The thread runs under this name. -/
  | running (name : String)
  /-- The system has no thread to give. -/
  | refused
  /-- The size of the stack in bytes is no 64-bit word. -/
  | oversized
  /-- No thread can have this name. -/
  | unnameable
  deriving DecidableEq, Repr

namespace WorkerSpec

/-- The name without its padding. -/
def displayName (w : WorkerSpec) : String :=
  String.ofList (w.name.toList.reverse.dropWhile (· == '\x00')).reverse

/-- The size of the stack in bytes. -/
def stackBytes (w : WorkerSpec) : Nat := w.stackKb * 1024

/-- No stack of this many bytes, or more, fits into an address space of 47 bits. -/
def addressSpace : Nat := 1 <<< 47

def logLine (w : WorkerSpec) : LogLine :=
  ⟨.info, s!"Spawning '{w.displayName}' (sim, no core pinning, stack={w.stackKb}KB)"⟩

/-- Start the worker, on a system that gives threads or one that does not. -/
def start (w : WorkerSpec) (systemRefuses : Bool) : WorkerStart × List LogLine :=
  let outcome : WorkerStart :=
    if UInt64.size ≤ w.stackBytes then .oversized
    else if w.displayName.toList.contains '\x00' then .unnameable
    else if systemRefuses || addressSpace ≤ w.stackBytes then .refused
    else .running w.displayName
  (outcome, [w.logLine])

end WorkerSpec

end OverTheAir
