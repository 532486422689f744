import OverTheAir.Bytes.Varint
import OverTheAir.Config.Basic

/-!
# Config/Blob — settings as bytes

The fields follow each other in order: a text as its length and its UTF-8 bytes, wider numbers in
groups of seven bits, bytes as they are.  Reading stops after the last field, so bytes that follow a
blob do no harm (`read_write`).
-/

namespace OverTheAir.Config.Blob

/-- Groups that may follow the first one of a 16-bit word, and the largest last one. -/
def word16 : Nat × Nat := (2, 3)

/-- The same for a 32-bit word. -/
def word32 : Nat × Nat := (4, 15)

/-- The same for a length, a 64-bit word. -/
def size : Nat × Nat := (9, 1)

/-- A reader takes a value off the front of some bytes. -/
abbrev Reader (α : Type) := Bytes → Option (α × Bytes)

def readNumber (width : Nat × Nat) : Reader Nat := Bytes.readVarint width.2 width.1

def readByte : Reader UInt8
  | [] => none
  | b :: rest => some (b, rest)

def readText {cap : Nat} : Reader (BoundedText cap) := fun b => do
  let (n, b) ← readNumber size b
  if b.length < n then none
  else
    let t ← BoundedText.ofBytes? (b.take n)
    return (t, b.drop n)

/-- The settings at the front of some bytes, and what follows them. -/
def read : Reader Config := fun b => do
  let (uri, b) ← readText b
  let (chunk, b) ← readNumber word32 b
  let (timeout, b) ← readNumber word16 b
  let (depth, b) ← readByte b
  let (stack, b) ← readNumber word16 b
  let (priority, b) ← readByte b
  let (delay, b) ← readNumber word32 b
  let (retries, b) ← readByte b
  return (⟨uri, UInt32.ofNat chunk, UInt16.ofNat timeout, depth, UInt16.ofNat stack, priority,
    UInt32.ofNat delay, retries⟩, b)

def writeNumber (width : Nat × Nat) (n : Nat) : Bytes := Bytes.writeVarint width.1 n

def writeText {cap : Nat} (t : BoundedText cap) : Bytes :=
  writeNumber size t.bytes.length ++ t.bytes

/-- The settings as bytes. -/
def write (c : Config) : Bytes :=
  writeText c.uri ++ writeNumber word32 c.maxChunkSize.toNat
    ++ writeNumber word16 c.defaultTimeoutMs.toNat ++ [c.queueDepth]
    ++ writeNumber word16 c.taskStackKb.toNat ++ [c.taskPriority]
    ++ writeNumber word32 c.resetDelayMs.toNat ++ [c.wifiMaxRetries]

/-! ## Reading undoes writing -/

theorem readByte_cons (b : UInt8) (rest : Bytes) : readByte (b :: rest) = some (b, rest) := rfl

theorem readNumber_word16 (n : UInt16) (rest : Bytes) :
    readNumber word16 (writeNumber word16 n.toNat ++ rest) = some (n.toNat, rest) :=
  Bytes.read_write (by decide)
    (by have := n.toNat_lt; simpa [word16, Bytes.varintLimit] using this) rest

theorem readNumber_word32 (n : UInt32) (rest : Bytes) :
    readNumber word32 (writeNumber word32 n.toNat ++ rest) = some (n.toNat, rest) :=
  Bytes.read_write (by decide)
    (by have := n.toNat_lt; simpa [word32, Bytes.varintLimit] using this) rest

theorem readText_writeText {cap : Nat} (hcap : cap < UInt64.size) (t : BoundedText cap)
    (rest : Bytes) : readText (writeText t ++ rest) = some (t, rest) := by
  have hlen := Nat.lt_of_le_of_lt t.length_bytes_le hcap
  have hread : readNumber size (writeNumber size t.bytes.length ++ (t.bytes ++ rest))
      = some (t.bytes.length, t.bytes ++ rest) :=
    Bytes.read_write (by decide) hlen _
  simp [readText, writeText, hread, BoundedText.ofBytes?_bytes]

/-- **A blob reads back as the settings it was written from**, whatever follows it. -/
theorem read_write (c : Config) (rest : Bytes) : read (write c ++ rest) = some (c, rest) := by
  simp only [read, write, List.append_assoc, readText_writeText (by decide : 32 < UInt64.size),
    readNumber_word32, readNumber_word16, readByte_cons, List.cons_append, List.nil_append,
    Option.bind_eq_bind, Option.bind_some, UInt32.ofNat_toNat, UInt16.ofNat_toNat, pure]

end OverTheAir.Config.Blob
