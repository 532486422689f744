import OverTheAir.Proofs.Spelling
import OverTheAir.Store

/-!
# Proofs/Settings — what is saved is loaded, and only settings within limits are

The store is a register for settings within limits: what is loaded is what was saved last
(`accesses_eq`, `save_load`).  Whatever else the slot may hold, loading gives the settings at its
front if they are within limits, and the default ones otherwise (`loads`, `load_within_limits`).
-/

namespace OverTheAir

namespace Config

/-! ## Limits -/

/-- Settings within limits, limit by limit. -/
structure InLimits (c : Config) : Prop where
  uri : c.uri.text.toList.head? = some '/'
  maxChunkSize : 288 ≤ c.maxChunkSize.toNat ∧ c.maxChunkSize.toNat ≤ 16384
  defaultTimeout : 100 ≤ c.defaultTimeoutMs.toNat
  queueDepth : 1 ≤ c.queueDepth.toNat ∧ c.queueDepth.toNat ≤ 32
  taskStack : 4 ≤ c.taskStackKb.toNat ∧ c.taskStackKb.toNat ≤ 64
  taskPriority : 1 ≤ c.taskPriority.toNat ∧ c.taskPriority.toNat ≤ 24
  resetDelay : c.resetDelayMs.toNat ≤ 10000
  wifiRetries : 1 ≤ c.wifiMaxRetries.toNat

variable {c c' : Config} {e : ConfigError}

theorem validate_iff_inLimits : c.validate = .ok () ↔ c.InLimits := by
  rw [validate_eq_ok_iff]
  simp only [Limit.all, List.mem_cons, List.not_mem_nil, or_false, forall_eq_or_imp, forall_eq,
    keeps, Bool.and_eq_true, decide_eq_true_eq, beq_iff_eq]
  exact ⟨fun ⟨uri, chunk, timeout, depth, stack, priority, delay, retries⟩ =>
      ⟨uri, chunk, timeout, depth, stack, priority, delay, retries⟩,
    fun ⟨uri, chunk, timeout, depth, stack, priority, delay, retries⟩ =>
      ⟨uri, chunk, timeout, depth, stack, priority, delay, retries⟩⟩

theorem validate_default : Config.default.validate = .ok () :=
  (validate_eq_ok_iff _).mpr (by decide)

/-- A limit is broken and none before it. -/
structure BreaksFirst (c : Config) (l : Limit) : Prop where
  broken : c.keeps l = false
  first : ∃ front back, Limit.all = front ++ l :: back ∧ ∀ l' ∈ front, c.keeps l' = true

/-- **The first limit that is broken is reported.** -/
theorem breaksFirst_of_validate (h : c.validate = .error e) :
    ∃ l, c.BreaksFirst l ∧ e = .invalid l.message := by
  rw [validate] at h
  split at h
  · rename_i l hbroken
    obtain ⟨hl, front, back, hall, hfront⟩ := List.find?_eq_some_iff_append.mp hbroken
    refine ⟨l, ⟨by simpa using hl, front, back, hall, fun l' hl' => ?_⟩, (Except.error.inj h).symm⟩
    simpa using hfront l' hl'
  · cases h

end Config

namespace Store

open Config.Blob (Spells)

variable {s : Store} {c c' : Config} {e : ConfigError} {b : Bytes}

/-! ## What the slot holds -/

/-- What is in the slot fits the buffer. -/
def Fits (s : Store) : Prop := ∀ b, s.blob = some b → b.length ≤ maxBlob

/-- Some bytes at the front of the slot spell these settings. -/
def Holds (s : Store) (c : Config) : Prop :=
  ∃ p rest, s.blob = some (p ++ rest) ∧ Spells c p

/-- A slot holds one set of settings at most. -/
theorem Holds.unique (h : s.Holds c) (h' : s.Holds c') : c = c' := by
  obtain ⟨p, rest, hblob, hp⟩ := h
  obtain ⟨p', rest', hblob', hp'⟩ := h'
  exact (hp.unique hp' (Option.some.inj (hblob.symm.trans hblob'))).1

/-- What comes of loading. -/
inductive Loads (s : Store) : Except ConfigError Config → Prop where
  | overlong (overlong : ¬s.Fits) : Loads s (.error (.storage .full))
  | held {c : Config} (fits : s.Fits) (held : s.Holds c) (valid : c.validate = .ok ()) :
      Loads s (.ok c)
  | unheld (fits : s.Fits) (unheld : ∀ c, s.Holds c → c.validate ≠ .ok ()) :
      Loads s (.ok .default)

theorem holds_iff (stored : s.blob = some b) :
    s.Holds c ↔ ∃ rest, Config.Blob.read b = some (c, rest) := by
  simp only [Holds, stored, Option.some.injEq, Config.Blob.read_eq_some_iff]
  exact exists_comm

/-- **Loading gives the settings in the slot if they are within limits**, the default ones if there
are none such, and an error only if the slot holds too much. -/
theorem loads (s : Store) : s.Loads s.load.1 := by
  rw [load]
  split
  · rename_i stored
    refine .unheld (fun b hb => ?_) fun c hc => ?_
    · cases stored.symm.trans hb
    · obtain ⟨p, rest, hblob, -⟩ := hc
      cases stored.symm.trans hblob
  rename_i b stored
  split
  · rename_i long
    exact .overlong fun fits => Nat.not_lt.mpr (fits b stored) long
  rename_i short
  have fits : s.Fits := fun b' hb' => by
    obtain rfl := Option.some.inj (stored.symm.trans hb')
    exact Nat.le_of_not_lt short
  split
  · rename_i unread
    refine .unheld fits fun c hc => ?_
    obtain ⟨rest, hread⟩ := (holds_iff stored).mp hc
    cases unread.symm.trans hread
  rename_i c rest hread
  have held : s.Holds c := (holds_iff stored).mpr ⟨rest, hread⟩
  split
  · rename_i e invalid
    refine .unheld fits fun c' hc' => ?_
    rw [hc'.unique held, invalid]
    exact fun h => by cases h
  · rename_i valid
    exact .held fits held valid

theorem Loads.unique {r r' : Except ConfigError Config} (h : s.Loads r) (h' : s.Loads r') :
    r = r' := by
  cases h with
  | overlong overlong =>
    cases h' with
    | overlong => rfl
    | held fits | unheld fits => exact absurd fits overlong
  | held fits held valid =>
    cases h' with
    | overlong overlong => exact absurd fits overlong
    | held _ held' => rw [held.unique held']
    | unheld _ unheld => exact absurd valid (unheld _ held)
  | unheld fits unheld =>
    cases h' with
    | overlong overlong => exact absurd fits overlong
    | held _ held valid => exact absurd valid (unheld _ held)
    | unheld => rfl

theorem load_eq_iff {r : Except ConfigError Config} : s.load.1 = r ↔ s.Loads r :=
  ⟨fun h => h ▸ s.loads, fun h => s.loads.unique h⟩

theorem load_eq_error_iff :
    s.load.1 = .error e ↔ e = .storage .full ∧ ∃ b, s.blob = some b ∧ maxBlob < b.length := by
  rw [load_eq_iff]
  constructor
  · rintro ⟨overlong⟩
    simpa [Fits] using overlong
  · rintro ⟨rfl, b, stored, long⟩
    exact .overlong fun fits => Nat.not_lt.mpr (fits b stored) long

theorem load_eq_ok_iff : s.load.1 = .ok c ↔ s.Fits ∧
    (s.Holds c ∧ c.validate = .ok () ∨ c = .default ∧ ∀ c', s.Holds c' → c'.validate ≠ .ok ()) := by
  rw [load_eq_iff]
  constructor
  · rintro (_ | ⟨fits, held, valid⟩ | ⟨fits, unheld⟩)
    · exact ⟨fits, .inl ⟨held, valid⟩⟩
    · exact ⟨fits, .inr ⟨rfl, unheld⟩⟩
  · rintro ⟨fits, ⟨held, valid⟩ | ⟨rfl, unheld⟩⟩
    · exact .held fits held valid
    · exact .unheld fits unheld

/-! ## Loading through a buffer -/

/-- Copy some bytes to the front of a buffer; there is no answer if they do not fit. -/
def fill? (buffer b : Bytes) : Option Bytes :=
  if b.length ≤ buffer.length then some (b ++ buffer.drop b.length) else none

/-- The first bytes of a buffer; there is no answer if it does not have so many. -/
def front? (n : Nat) (buffer : Bytes) : Option Bytes :=
  if n ≤ buffer.length then some (buffer.take n) else none

/-- Load by way of a buffer of fixed size.  There is no answer where a byte outside of it would be
written or read. -/
def loadBuffered? (s : Store) : Option (Except ConfigError Config) :=
  match s.blob with
  | none => some (.ok .default)
  | some b =>
    if maxBlob < b.length then some (.error (.storage .full))
    else do
      let buffer ← fill? (List.replicate maxBlob 0) b
      let blob ← front? b.length buffer
      match Config.Blob.read blob with
      | none => return .ok .default
      | some (c, _) =>
        match c.validate with
        | .error _ => return .ok .default
        | .ok () => return .ok c

theorem front?_fill? {buffer : Bytes} (fits : b.length ≤ buffer.length) :
    (fill? buffer b).bind (front? b.length) = some b := by
  simp [fill?, front?, fits]

/-- **No byte is written or read outside of the buffer.** -/
theorem loadBuffered?_eq : ∀ s : Store, s.loadBuffered? = some s.load.1
  | ⟨none⟩ => rfl
  | ⟨some b⟩ => by
    rw [loadBuffered?, load]
    dsimp only
    by_cases long : maxBlob < b.length
    · rw [if_pos long, if_pos long]
    · have fits : b.length ≤ (List.replicate maxBlob (0 : UInt8)).length := by
        rw [List.length_replicate]
        exact Nat.le_of_not_lt long
      rw [if_neg long, if_neg long, Option.bind_eq_bind, ← Option.bind_assoc, front?_fill? fits,
        Option.bind_some]
      cases Config.Blob.read b with
      | none => rfl
      | some held =>
        dsimp only
        cases held.1.validate <;> rfl

/-! ## The store as a register -/

/-- What the program does with the store. -/
inductive Access where
  | load
  | save (c : Config)

/-- What an access makes of the store. -/
def access (s : Store) : Access → Store
  | .load => s
  | .save c => (s.save c).2.1

/-- What some accesses make of the store, one after another. -/
def accesses (s : Store) (as : List Access) : Store := as.foldl access s

/-- The settings that an access stores. -/
def Access.stores? : Access → Option Config
  | .load => none
  | .save c =>
    match c.validate with
    | .ok () => some c
    | .error _ => none

/-- Saving refuses settings that break a limit, -/
theorem save_of_invalid (h : c.validate = .error e) : s.save c = (.error e, s, []) := by
  rw [save, h]

/-- and stores all others. -/
theorem save_of_valid (h : c.validate = .ok ()) :
    (s.save c).1 = .ok () ∧ (s.save c).2.1 = ⟨some (Config.Blob.write c)⟩ := by
  have hlength := Config.Blob.length_write_le c
  have short : ¬maxBlob < (Config.Blob.write c).length := by
    rw [maxBlob]
    omega
  rw [save, h]
  dsimp only
  rw [if_neg short]
  exact ⟨rfl, rfl⟩

/-- The slot that holds these settings as they are written. -/
def holding (c : Config) : Store := ⟨some (Config.Blob.write c)⟩

theorem access_eq (s : Store) (a : Access) : s.access a = (a.stores?.map holding).getD s := by
  rcases a with _ | c
  · rfl
  rw [access, Access.stores?]
  cases valid : c.validate with
  | ok => exact (save_of_valid valid).2
  | error e =>
    rw [save_of_invalid valid]
    rfl

/-- **The slot holds what was stored last.** -/
theorem accesses_eq (s : Store) (as : List Access) :
    s.accesses as = ((as.filterMap Access.stores?).getLast?.map holding).getD s := by
  induction as generalizing s with
  | nil => rfl
  | cons a as ih =>
    change (s.access a).accesses as = _
    rw [ih, access_eq]
    cases stores : a.stores? with
    | none => rw [List.filterMap_cons_none stores]; rfl
    | some c =>
      rw [List.filterMap_cons_some stores, List.getLast?_cons]
      exact Option.getD_map ..

theorem Access.validate_of_stores {a : Access} (h : a.stores? = some c) : c.validate = .ok () := by
  rcases a with _ | c'
  · cases h
  rw [stores?] at h
  cases valid : c'.validate with
  | ok =>
    rw [valid] at h
    exact Option.some.inj h ▸ valid
  | error e =>
    rw [valid] at h
    cases h

/-! ## Saving, then loading -/

/-- A spelling of settings within limits is loaded, whatever follows it in the buffer. -/
theorem load_of_spells (valid : c.validate = .ok ()) {p : Bytes} (h : Spells c p) (rest : Bytes)
    (fits : (p ++ rest).length ≤ maxBlob) : (Store.mk (some (p ++ rest))).load.1 = .ok c := by
  refine load_eq_iff.mpr (.held (fun b hb => ?_) ⟨p, rest, rfl, h⟩ valid)
  obtain rfl := Option.some.inj hb
  exact fits

theorem length_write_le_maxBlob (c : Config) : (Config.Blob.write c).length ≤ maxBlob :=
  Nat.le_trans (Config.Blob.length_write_le c) (by decide)

theorem load_holding (valid : c.validate = .ok ()) : (holding c).load.1 = .ok c := by
  have hload := load_of_spells valid (Config.Blob.spells_write c) []
    (by simpa using length_write_le_maxBlob c)
  rwa [List.append_nil] at hload

/-- What saving settings within limits comes to, and the blob that is then in the slot. -/
structure Keeps (s : Store) (c : Config) (b : Bytes) : Prop where
  answer : (s.save c).1 = .ok ()
  stored : (s.save c).2.1 = ⟨some b⟩
  fits : b.length ≤ maxBlob
  spelled : Spells c b
  shortest : ∀ p, Spells c p → b.length ≤ p.length
  /-- From then on, the settings saved last are loaded. -/
  loaded : ∀ as : List Access, ((s.save c).2.1.accesses as).load.1
    = .ok ((as.filterMap Access.stores?).getLast?.getD c)
  /-- They are loaded also when more follows in the slot. -/
  followed : ∀ rest, (b ++ rest).length ≤ maxBlob → (Store.mk (some (b ++ rest))).load.1 = .ok c

theorem keeps_write (s : Store) (valid : c.validate = .ok ()) :
    s.Keeps c (Config.Blob.write c) where
  answer := (save_of_valid valid).1
  stored := (save_of_valid valid).2
  fits := length_write_le_maxBlob c
  spelled := Config.Blob.spells_write c
  shortest _ h := h.length_write_le
  loaded as := by
    rw [(save_of_valid valid).2, accesses_eq]
    change (Option.getD (Option.map holding _) (holding c)).load.1 = _
    rw [Option.getD_map]
    refine load_holding ?_
    cases last : (as.filterMap Access.stores?).getLast? with
    | none => exact valid
    | some c' =>
      obtain ⟨a, -, stores⟩ := List.mem_filterMap.mp (List.mem_of_getLast? last)
      exact Access.validate_of_stores stores
  followed rest fits := load_of_spells valid (Config.Blob.spells_write c) rest fits

/-- **What is saved is loaded.**  Settings within limits are saved, whatever the slot held, as a blob
that fits the buffer, the shortest that spells them; from then on they are loaded until others are
saved, and they are loaded also when more follows the blob.  Settings that break a limit are refused
for the first one that they break, and the slot is left alone. -/
theorem save_load (s : Store) (c : Config) :
    (c.validate = .ok () ↔ c.InLimits) ∧
    (c.validate = .ok () → ∃ b, s.Keeps c b) ∧
    ∀ e, c.validate = .error e →
      (∃ l, c.BreaksFirst l ∧ e = .invalid l.message) ∧ s.save c = (.error e, s, []) :=
  ⟨Config.validate_iff_inLimits, fun valid => ⟨_, keeps_write s valid⟩, fun _ invalid =>
    ⟨Config.breaksFirst_of_validate invalid, save_of_invalid invalid⟩⟩

/-- The first setting out of its limits is the priority. -/
example : Store.empty.save { Config.default with taskPriority := 0, wifiMaxRetries := 0 }
    = (.error (.invalid "task_priority must be 1–24"), .empty, []) := rfl

/-! ## Loading whatever is there -/

/-- **Only settings within limits are loaded**, whatever the slot holds.  Loading fails iff the slot
holds more than the buffer takes.  Otherwise it gives the settings that the front of the slot spells,
if it spells any and they are within limits, and the default ones in all other cases.  No byte outside
of the buffer is touched, and the slot is left alone. -/
theorem load_within_limits (s : Store) :
    (∀ e, s.load.1 = .error e ↔
      e = .storage .full ∧ ∃ b, s.blob = some b ∧ maxBlob < b.length) ∧
    (∀ c, s.load.1 = .ok c ↔ (∀ b, s.blob = some b → b.length ≤ maxBlob) ∧
      (s.Holds c ∧ c.validate = .ok () ∨
        c = .default ∧ ∀ c', s.Holds c' → c'.validate ≠ .ok ())) ∧
    (∀ c, s.load.1 = .ok c → c.InLimits) ∧
    (∀ c c', s.Holds c → s.Holds c' → c = c') ∧
    s.loadBuffered? = some s.load.1 ∧
    ∀ as : List Access, (∀ a ∈ as, a = .load) → s.accesses as = s := by
  refine ⟨fun e => load_eq_error_iff, fun c => load_eq_ok_iff, fun c loaded => ?_,
    fun c c' => Holds.unique, loadBuffered?_eq s, fun as loads => ?_⟩
  · rw [← Config.validate_iff_inLimits]
    obtain ⟨-, ⟨-, valid⟩ | ⟨rfl, -⟩⟩ := load_eq_ok_iff.mp loaded
    · exact valid
    · exact Config.validate_default
  · rw [accesses_eq, List.filterMap_eq_nil_iff.mpr fun a ha => loads a ha ▸ rfl]
    rfl

/-- The length of a text that never ends. -/
example : (Store.mk (some [255, 255, 255])).load.1 = .ok .default := rfl

end Store

end OverTheAir
