import OverTheAir.Packet.Code
import OverTheAir.Packet.Flags

/-!
# Session — the record of one transfer

A session is idle, receiving, finalizing or aborted.  Byte counts are 32-bit words; an operation
that would take a count out of range has no answer (`none`) and leaves the record alone.  An abort
is recorded only while the session is receiving, so the first reason wins and a finalization is
never interrupted (`markAborted`).
-/

namespace OverTheAir

inductive SessionState where
  | idle
  | receiving
  | finalizing
  /-- The abort is decided and the session task has not cleaned up yet. -/
  | aborted (reason : AbortReason)
  deriving DecidableEq, Repr

structure Session where
  state : SessionState
  received : UInt32
  total : UInt32
  /-- Longest wait for the next chunk, in milliseconds. -/
  timeout : Nat
  flags : SessionFlags
  deriving DecidableEq, Repr

namespace Session

/-- No transfer. -/
def idle : Session := ⟨.idle, 0, 0, 0, .none⟩

/-- The record of an accepted request. -/
def opened (total : UInt32) (timeout : Nat) (flags : SessionFlags) : Session :=
  ⟨.receiving, 0, total, timeout, flags⟩

def isIdle (s : Session) : Bool := s.state == .idle

def isReceiving (s : Session) : Bool := s.state == .receiving

/-- Bytes still to come; no answer when more have come than were announced. -/
def remaining? (s : Session) : Option UInt32 :=
  if s.received ≤ s.total then some (s.total - s.received) else none

/-- Whether `len` more bytes stay within the announced size.  A length that is no 32-bit word
never does, whatever the counts. -/
def fits? (s : Session) (len : Nat) : Option Bool :=
  if len < UInt32.size then s.remaining?.map fun r => decide (len ≤ r.toNat) else some false

/-- Account for `len` bytes that reached the flash; no answer when they do not fit. -/
def advance? (s : Session) (len : UInt32) : Option Session :=
  match s.remaining? with
  | some r => if len ≤ r then some { s with received := s.received + len } else none
  | none => none

/-- Size of the next chunk to ask for. -/
def nextRequest? (s : Session) (maxChunk : UInt32) : Option UInt32 :=
  s.remaining?.map fun r => min r maxChunk

def isComplete (s : Session) : Bool := s.received == s.total

/-- Record an abort: only while receiving. -/
def markAborted (s : Session) (reason : AbortReason) : Session :=
  if s.isReceiving then { s with state := .aborted reason } else s

/-- The reason of a recorded abort. -/
def pendingAbort (s : Session) : Option AbortReason :=
  match s.state with
  | .aborted reason => some reason
  | _ => none

/-! ## Counts -/

/-- There is an answer to what remains as long as no more was received than announced. -/
theorem remaining?_of_le {s : Session} (h : s.received.toNat ≤ s.total.toNat) :
    s.remaining? = some (s.total - s.received) :=
  if_pos (UInt32.le_iff_toNat_le.mpr h)

theorem remaining?_eq_some_iff {s : Session} {r : UInt32} :
    s.remaining? = some r ↔ s.received.toNat + r.toNat = s.total.toNat := by
  rw [remaining?]
  split
  · next h =>
    have hle := UInt32.le_iff_toNat_le.mp h
    rw [Option.some.injEq, ← UInt32.toNat_inj, UInt32.toNat_sub_of_le _ _ h]
    omega
  · next h =>
    have h := mt UInt32.le_iff_toNat_le.mpr h
    simp only [reduceCtorEq, false_iff]
    omega

/-- Within counts that are in range, a length fits iff the sum stays within the announced size. -/
theorem fits?_eq_some {s : Session} (h : s.received.toNat ≤ s.total.toNat) (len : Nat) :
    s.fits? len = some (decide (s.received.toNat + len ≤ s.total.toNat)) := by
  have hr := remaining?_of_le h
  have := remaining?_eq_some_iff.mp hr
  have htotal : s.total.toNat < UInt32.size := s.total.toNat_lt
  rw [fits?]
  split
  · rw [hr, Option.map_some]
    exact congrArg some (decide_eq_decide.mpr (by omega))
  · exact congrArg some (decide_eq_false (by omega)).symm

/-- Accounting for a length that fits adds it to the count and leaves the rest alone. -/
theorem advance?_eq_some {s : Session} {len : UInt32}
    (h : s.received.toNat + len.toNat ≤ s.total.toNat) :
    s.advance? len = some { s with received := s.received + len } := by
  have hr := remaining?_of_le (Nat.le_of_add_right_le h)
  have := remaining?_eq_some_iff.mp hr
  rw [advance?, hr]
  exact if_pos (UInt32.le_iff_toNat_le.mpr (by omega))

/-! ## Aborts -/

theorem pendingAbort_eq_some_iff {s : Session} {r : AbortReason} :
    s.pendingAbort = some r ↔ s.state = .aborted r := by
  unfold pendingAbort
  split <;> simp_all

/-- What is being received is aborted. -/
theorem markAborted_of_receiving {s : Session} (h : s.state = .receiving) (r : AbortReason) :
    s.markAborted r = { s with state := .aborted r } := by
  simp [markAborted, isReceiving, h]

/-- **The first reason wins**: a recorded abort is not recorded over. -/
theorem markAborted_of_aborted {s : Session} {r : AbortReason} (h : s.state = .aborted r)
    (r' : AbortReason) : s.markAborted r' = s := by
  simp [markAborted, isReceiving, h]

/-- A finalization is not interrupted. -/
theorem markAborted_of_finalizing {s : Session} (h : s.state = .finalizing) (r : AbortReason) :
    s.markAborted r = s := by
  simp [markAborted, isReceiving, h]

end Session

end OverTheAir
