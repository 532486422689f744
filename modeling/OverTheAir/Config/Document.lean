import OverTheAir.Config.Basic
import OverTheAir.Json.Quoted
import OverTheAir.Json.Skip

/-!
# Config/Document — settings as a JSON text

The settings are written as one object with a member for each field, in order and without blanks.
They are read from an object with the members in any order, each exactly once and others ignored, or
from a list of the eight values in order.
-/

namespace OverTheAir.Config

/-- The fields of the settings, in order. -/
inductive Field where
  | uri
  | maxChunkSize
  | defaultTimeout
  | queueDepth
  | taskStack
  | taskPriority
  | resetDelay
  | wifiRetries
  deriving DecidableEq, Repr

namespace Field

def all : List Field :=
  [uri, maxChunkSize, defaultTimeout, queueDepth, taskStack, taskPriority, resetDelay, wifiRetries]

/-- The name of the member. -/
def name : Field → String
  | uri => "uri"
  | maxChunkSize => "max_chunk_size"
  | defaultTimeout => "default_timeout_ms"
  | queueDepth => "queue_depth"
  | taskStack => "task_stack_kb"
  | taskPriority => "task_priority"
  | resetDelay => "reset_delay_ms"
  | wifiRetries => "wifi_max_retries"

def ofName? (name : Bytes) : Option Field := all.find? fun f => Bytes.ofText f.name == name

end Field

namespace Document

/-! ## Writing -/

/-- The value of a field as it is written. -/
def value (c : Config) : Field → String
  | .uri => Json.quote c.uri.text
  | .maxChunkSize => toString c.maxChunkSize.toNat
  | .defaultTimeout => toString c.defaultTimeoutMs.toNat
  | .queueDepth => toString c.queueDepth.toNat
  | .taskStack => toString c.taskStackKb.toNat
  | .taskPriority => toString c.taskPriority.toNat
  | .resetDelay => toString c.resetDelayMs.toNat
  | .wifiRetries => toString c.wifiMaxRetries.toNat

def member (c : Config) (f : Field) : String := Json.quote f.name ++ ":" ++ value c f

/-- The settings as one object. -/
def write (c : Config) : String :=
  "\x7b" ++ ",".intercalate (Field.all.map (member c)) ++ "\x7d"

/-! ## Reading -/

/-- The fields read so far. -/
structure Draft where
  uri : Option Uri
  maxChunkSize : Option UInt32
  defaultTimeoutMs : Option UInt16
  queueDepth : Option UInt8
  taskStackKb : Option UInt16
  taskPriority : Option UInt8
  resetDelayMs : Option UInt32
  wifiMaxRetries : Option UInt8

namespace Draft

def empty : Draft := ⟨none, none, none, none, none, none, none, none⟩

def has (d : Draft) : Field → Bool
  | .uri => d.uri.isSome
  | .maxChunkSize => d.maxChunkSize.isSome
  | .defaultTimeout => d.defaultTimeoutMs.isSome
  | .queueDepth => d.queueDepth.isSome
  | .taskStack => d.taskStackKb.isSome
  | .taskPriority => d.taskPriority.isSome
  | .resetDelay => d.resetDelayMs.isSome
  | .wifiRetries => d.wifiMaxRetries.isSome

/-- The settings, once every field is there. -/
def config? (d : Draft) : Option Config := do
  return ⟨← d.uri, ← d.maxChunkSize, ← d.defaultTimeoutMs, ← d.queueDepth, ← d.taskStackKb,
    ← d.taskPriority, ← d.resetDelayMs, ← d.wifiMaxRetries⟩

end Draft

open Json (Problem Scanner problemAt dropBlanks)

/-- A value of the wrong kind, from its first byte on.  It is still read where that is short work,
so a malformed one is told from one that does not fit. -/
def misfit (b : Bytes) : Problem :=
  let after {α : Type} (r : Except Problem α) : Problem :=
    match r with
    | .error p => p
    | .ok _ => .unfit
  match b with
  | [] => .cutShort
  | c :: rest =>
    if c == 0x6E then after (Json.word (Bytes.ofText "ull") rest)
    else if c == 0x74 then after (Json.word (Bytes.ofText "rue") rest)
    else if c == 0x66 then after (Json.word (Bytes.ofText "alse") rest)
    else if c == 0x2D || Json.isDigit c then after (Json.number b)
    else if c == 0x22 then after (Json.string rest)
    else if c == 0x5B || c == 0x7B then .unfit
    else .malformed

/-- A plain number below `bound`. -/
def natural (bound : Nat) : Scanner Nat := fun b =>
  match dropBlanks b with
  | [] => .error .cutShort
  | c :: rest =>
    if c == 0x2D || Json.isDigit c then do
      let (n?, rest) ← Json.number (c :: rest)
      match n? with
      | some n => if n < bound then return (n, rest) else throw .unfit
      | none => throw .unfit
    else .error (misfit (c :: rest))

/-- A text that fits. -/
def text {cap : Nat} : Scanner (BoundedText cap) := fun b =>
  match dropBlanks b with
  | [] => .error .cutShort
  | c :: rest =>
    if c == 0x22 then do
      let (s, rest) ← Json.string rest
      match BoundedText.ofBytes? s with
      | some t => return (t, rest)
      | none => throw .unfit
    else .error (misfit (c :: rest))

/-- Read the value of a field. -/
def readField (f : Field) (d : Draft) : Scanner Draft := fun b => do
  match f with
  | .uri => let (t, b) ← text b; return ({ d with uri := some t }, b)
  | .maxChunkSize =>
    let (n, b) ← natural UInt32.size b; return ({ d with maxChunkSize := some (UInt32.ofNat n) }, b)
  | .defaultTimeout =>
    let (n, b) ← natural UInt16.size b
    return ({ d with defaultTimeoutMs := some (UInt16.ofNat n) }, b)
  | .queueDepth =>
    let (n, b) ← natural UInt8.size b; return ({ d with queueDepth := some (UInt8.ofNat n) }, b)
  | .taskStack =>
    let (n, b) ← natural UInt16.size b; return ({ d with taskStackKb := some (UInt16.ofNat n) }, b)
  | .taskPriority =>
    let (n, b) ← natural UInt8.size b; return ({ d with taskPriority := some (UInt8.ofNat n) }, b)
  | .resetDelay =>
    let (n, b) ← natural UInt32.size b; return ({ d with resetDelayMs := some (UInt32.ofNat n) }, b)
  | .wifiRetries =>
    let (n, b) ← natural UInt8.size b; return ({ d with wifiMaxRetries := some (UInt8.ofNat n) }, b)

/-- The values of some fields, in order.  A list that ends early lacks a field. -/
def items : List Field → (first : Bool) → Draft → Scanner Draft
  | [], _, d, b => .ok (d, b)
  | f :: fs, first, d, b =>
    match dropBlanks b with
    | [] => .error .cutShort
    | c :: rest =>
      if c == 0x5D then .error .unfit
      else if first then do
        let (d, b) ← readField f d (c :: rest)
        items fs false d b
      else if c == 0x2C then
        match dropBlanks rest with
        | [] => .error .cutShort
        | c :: rest =>
          if c == 0x5D then .error .malformed
          else do
            let (d, b) ← readField f d (c :: rest)
            items fs false d b
      else .error .malformed

/-- The end of a list of values. -/
def endOfList (b : Bytes) : Except Problem Bytes :=
  match dropBlanks b with
  | 0x5D :: rest => .ok rest
  | b => .error (problemAt b)

/-- A member after its opening quote. -/
def readMember (d : Draft) : Scanner Draft := fun b => do
  let (name, b) ← Json.string b
  let field? := Field.ofName? name
  if (field?.map d.has).getD false then throw .unfit
  match dropBlanks b with
  | 0x3A :: b =>
    match field? with
    | some f => readField f d b
    | none =>
      let ((), b) ← Json.skipValue b
      return (d, b)
  | b => throw (problemAt b)

/-- The members up to the closing brace, which is left standing. -/
def members : (fuel : Nat) → (first : Bool) → Draft → Scanner Draft
  | 0, _, _, _ => .error .malformed
  | fuel + 1, first, d, b =>
    match dropBlanks b with
    | [] => .error .cutShort
    | c :: rest =>
      if c == 0x7D then .ok (d, c :: rest)
      else
        let next? : Option Bytes :=
          if first then some (c :: rest) else if c == 0x2C then some (dropBlanks rest) else none
        match next? with
        | none => .error .malformed
        | some (0x22 :: rest) => do
          let (d, b) ← readMember d rest
          members fuel false d b
        | some b => .error (problemAt b)

/-- The settings at the front of a text. -/
def readConfig : Scanner Config := fun b =>
  match dropBlanks b with
  | [] => .error .cutShort
  | 0x5B :: rest => do
    let (d, b) ← items Field.all true Draft.empty rest
    let b ← endOfList b
    match d.config? with
    | some c => return (c, b)
    | none => throw .unfit
  | 0x7B :: rest => do
    let (d, b) ← members (rest.length + 1) true Draft.empty rest
    match d.config? with
    | some c => return (c, b.tail)
    | none => throw .unfit
  | b => .error (misfit b)

/-- The settings that a text holds; only blanks may follow them. -/
def read (s : String) : Except Problem Config := do
  let (c, b) ← readConfig (Bytes.ofText s)
  if (dropBlanks b).isEmpty then return c else throw .malformed

end Document

end OverTheAir.Config
