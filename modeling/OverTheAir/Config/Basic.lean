import OverTheAir.Image
import OverTheAir.Packet.Request

/-!
# Config/Basic — the settings of the update service and their limits

A configuration may hold any values of its fields' types; `validate` tells whether they are within
limits.  The limits are tested in the order of `Limit`, and the first one broken is reported.
-/

namespace OverTheAir

/-- A failure of the settings store. -/
inductive StorageError where
  | notFound
  | full
  | failed
  deriving DecidableEq, Repr

def StorageError.message : StorageError → String
  | notFound => "key not found"
  | full => "storage full"
  | failed => "I/O error"

/-- Why there is no usable configuration. -/
inductive ConfigError where
  | corrupted
  | invalid (why : String)
  | storage (cause : StorageError)
  deriving DecidableEq, Repr

def ConfigError.message : ConfigError → String
  | corrupted => "config corrupted"
  | invalid why => "validation failed: " ++ why
  | storage cause => "storage: " ++ cause.message

/-- The endpoint path is a text of at most 32 bytes. -/
abbrev Uri := BoundedText 32

structure Config where
  /-- Path of the endpoint that clients connect to. -/
  uri : Uri
  /-- Largest image chunk taken in one frame, in bytes. -/
  maxChunkSize : UInt32
  /-- Idle time of a session that asks for none of its own, in milliseconds. -/
  defaultTimeoutMs : UInt16
  /-- Chunks that may wait for the session task. -/
  queueDepth : UInt8
  taskStackKb : UInt16
  taskPriority : UInt8
  /-- Time between an update and the restart it asked for, in milliseconds. -/
  resetDelayMs : UInt32
  /-- Attempts to join the network. -/
  wifiMaxRetries : UInt8
  deriving DecidableEq

namespace Config

def defaultUri : Uri := ⟨"/ota", by decide⟩

def default : Config := ⟨defaultUri, 4096, 5000, 4, 8, 5, 1000, 5⟩

instance : Inhabited Config := ⟨default⟩

/-- A limit on the settings. -/
inductive Limit where
  | uri
  | maxChunkSize
  | defaultTimeout
  | queueDepth
  | taskStack
  | taskPriority
  | resetDelay
  | wifiRetries
  deriving DecidableEq, Repr

def Limit.message : Limit → String
  | uri => "uri must start with '/'"
  | maxChunkSize => "max_chunk_size must be 288–16384"
  | defaultTimeout => "default_timeout_ms must be at least 100"
  | queueDepth => "queue_depth must be 1–32"
  | taskStack => "task_stack_kb must be 4–64"
  | taskPriority => "task_priority must be 1–24"
  | resetDelay => "reset_delay_ms must be at most 10000"
  | wifiRetries => "wifi_max_retries must be at least 1"

/-- Every limit, in the order in which they are tested. -/
def Limit.all : List Limit :=
  [uri, maxChunkSize, defaultTimeout, queueDepth, taskStack, taskPriority, resetDelay, wifiRetries]

/-- Whether the settings keep a limit.  A chunk must hold at least the head of an image. -/
def keeps (c : Config) : Limit → Bool
  | .uri => c.uri.text.toList.head? == some '/'
  | .maxChunkSize => Image.headLength ≤ c.maxChunkSize.toNat && c.maxChunkSize.toNat ≤ 16 * 1024
  | .defaultTimeout => 100 ≤ c.defaultTimeoutMs.toNat
  | .queueDepth => 1 ≤ c.queueDepth.toNat && c.queueDepth.toNat ≤ 32
  | .taskStack => 4 ≤ c.taskStackKb.toNat && c.taskStackKb.toNat ≤ 64
  | .taskPriority => 1 ≤ c.taskPriority.toNat && c.taskPriority.toNat ≤ 24
  | .resetDelay => c.resetDelayMs.toNat ≤ 10000
  | .wifiRetries => 1 ≤ c.wifiMaxRetries.toNat

/-- The first limit broken. -/
def brokenLimit? (c : Config) : Option Limit := Limit.all.find? fun l => !c.keeps l

def validate (c : Config) : Except ConfigError Unit :=
  match c.brokenLimit? with
  | some l => .error (.invalid l.message)
  | none => .ok ()

/-- The idle time of a session, in milliseconds; a request of 0 asks for the default. -/
def timeoutFor (c : Config) (requestedMs : UInt16) : Nat :=
  if requestedMs = 0 then c.defaultTimeoutMs.toNat else requestedMs.toNat

/-- The largest frame a client may send, in bytes. -/
def maxFrameLength (c : Config) : Nat := Request.stateHeaderLength + c.maxChunkSize.toNat

/-- Settings within limits keep every limit. -/
theorem validate_eq_ok_iff (c : Config) : c.validate = .ok () ↔ ∀ l ∈ Limit.all, c.keeps l := by
  unfold validate brokenLimit?
  split
  · next l h =>
    have hm := List.mem_of_find?_eq_some h
    have hk := List.find?_some h
    simp only [reduceCtorEq, false_iff]
    intro hall
    simp [hall l hm] at hk
  · next h =>
    have := List.find?_eq_none.mp h
    simpa using this

end Config

end OverTheAir
