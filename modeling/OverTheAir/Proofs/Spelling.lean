import OverTheAir.Config.Blob

/-!
# Proofs/Spelling — which bytes are a blob of which settings

A number is spelled by groups of seven bits, and may be padded with empty groups; a text by its
length and its UTF-8 bytes; settings by their eight fields behind each other (`Blob.Spells`).  None
of this mentions a reader.

* `Bytes.readVarint_eq_some_iff`, `Blob.read_eq_some_iff` — a value is read off some bytes iff a
  spelling of it is in front of them.
* `Blob.Spells.unique` — no spelling begins with another one.
* `Blob.spells_write`, `Blob.Spells.length_write_le` — what is written is a spelling, and no
  spelling of the same settings is shorter.
-/

namespace OverTheAir

namespace Bytes

/-! ## Numbers -/

/-- The number that is made up of groups of seven bits, lowest first. -/
def ofGroups : Bytes → Nat
  | [] => 0
  | b :: groups => b.toNat % 128 + 128 * ofGroups groups

/-- Some bytes spell a number: every byte but the last has its top bit set, at most `more` bytes
come before the last, and a last one behind so many is at most `top`. -/
structure SpellsNumber (top more : Nat) (p : Bytes) (n : Nat) : Prop where
  number : ofGroups p = n
  groups : ∃ front last, p = front ++ [last] ∧ (∀ b ∈ front, 128 ≤ b.toNat) ∧ last.toNat < 128 ∧
    front.length ≤ more ∧ (front.length = more → last.toNat ≤ top)

variable {top more n : Nat} {b : UInt8} {p rest : Bytes}

theorem SpellsNumber.ne_nil (h : SpellsNumber top more p n) : p ≠ [] := by
  obtain ⟨front, last, rfl, -⟩ := h.groups
  simp

/-- A byte without its top bit is the whole number. -/
theorem spellsNumber_last (small : b.toNat < 128) (fits : more = 0 → b.toNat ≤ top) :
    SpellsNumber top more [b] b.toNat where
  number := by simp [ofGroups, Nat.mod_eq_of_lt small]
  groups := ⟨[], b, rfl, by simp, small, Nat.zero_le _, fun h => fits h.symm⟩

/-- A byte with its top bit set is the lowest group of a number. -/
theorem spellsNumber_group (big : 128 ≤ b.toNat) (h : SpellsNumber top more p n) :
    SpellsNumber top (more + 1) (b :: p) (b.toNat - 128 + 128 * n) where
  number := by
    have hlt := b.toNat_lt
    rw [ofGroups, h.number]
    omega
  groups := by
    obtain ⟨front, last, rfl, hfront, small, hle, fits⟩ := h.groups
    refine ⟨b :: front, last, rfl, by simpa using ⟨big, hfront⟩, small, by simpa using hle,
      fun hlen => fits (by simpa using hlen)⟩

/-- There are no other spellings. -/
theorem spellsNumber_cases (h : SpellsNumber top more (b :: p) n) :
    (b.toNat < 128 ∧ p = [] ∧ n = b.toNat ∧ (more = 0 → b.toNat ≤ top)) ∨
    (128 ≤ b.toNat ∧ ∃ more' m, more = more' + 1 ∧ SpellsNumber top more' p m ∧
      n = b.toNat - 128 + 128 * m) := by
  obtain ⟨front, last, heq, hfront, small, hle, fits⟩ := h.groups
  have hnumber := h.number
  rw [ofGroups] at hnumber
  rcases front with _ | ⟨b', front⟩
  · obtain ⟨rfl, rfl⟩ : b = last ∧ p = [] := by simpa using heq
    rw [ofGroups] at hnumber
    refine .inl ⟨small, rfl, by omega, fun h => fits h.symm⟩
  · obtain ⟨rfl, rfl⟩ : b = b' ∧ p = front ++ [last] := by simpa using heq
    have big := hfront b List.mem_cons_self
    have hlt := b.toNat_lt
    rw [List.length_cons] at hle fits
    obtain ⟨more, rfl⟩ : ∃ more', more = more' + 1 := ⟨more - 1, by omega⟩
    refine .inr ⟨big, more, _, rfl, ⟨rfl, front, last, rfl, ?_, small, by omega, ?_⟩, by omega⟩
    · exact fun x hx => hfront x (List.mem_cons_of_mem _ hx)
    · exact fun h => fits (by omega)

/-- **A number is read off some bytes iff a spelling of it is in front of them.** -/
theorem readVarint_eq_some_iff (htop : top < 128) {b : Bytes} :
    readVarint top more b = some (n, rest) ↔ ∃ p, b = p ++ rest ∧ SpellsNumber top more p n := by
  constructor
  · intro h
    fun_induction readVarint top more b generalizing n with
    | case1 => cases h
    | case2 b rest' small =>
      obtain ⟨rfl, rfl⟩ := Prod.mk.inj (Option.some.inj h)
      exact ⟨[b], rfl, spellsNumber_last (by omega) fun _ => small⟩
    | case3 => cases h
    | case4 more b rest' small =>
      obtain ⟨rfl, rfl⟩ := Prod.mk.inj (Option.some.inj h)
      exact ⟨[b], rfl, spellsNumber_last small fun h => by cases h⟩
    | case5 more b rest' big ih =>
      obtain ⟨⟨m, rest''⟩, hread, heq⟩ := Option.map_eq_some_iff.mp h
      obtain ⟨rfl, rfl⟩ := Prod.mk.inj heq
      obtain ⟨p, rfl, hp⟩ := ih hread
      exact ⟨b :: p, rfl, spellsNumber_group (by omega) hp⟩
  · rintro ⟨p, rfl, hp⟩
    induction p generalizing more n with
    | nil => exact absurd rfl hp.ne_nil
    | cons b p ih =>
      rcases spellsNumber_cases hp with ⟨small, rfl, rfl, fits⟩ | ⟨big, more, m, rfl, hp', rfl⟩
      · rcases more with _ | more
        · exact if_pos (fits rfl)
        · exact if_pos small
      · rw [List.cons_append, readVarint, if_neg (by omega), ih hp', Option.map_some]

/-- A number padded with an empty group. -/
example : readVarint 3 2 [136, 128, 0, 7] = some (8, [7]) := rfl

theorem varintLimit_pos (top more : Nat) : 0 < varintLimit top more := by
  induction more with
  | zero => exact Nat.succ_pos top
  | succ more ih => exact Nat.mul_pos (by decide) ih

/-- A number that is spelled is below the limit of its width. -/
theorem SpellsNumber.lt (h : SpellsNumber top more p n) : n < varintLimit top more := by
  induction p generalizing more n with
  | nil => exact absurd rfl h.ne_nil
  | cons b p ih =>
    rcases spellsNumber_cases h with ⟨small, rfl, rfl, fits⟩ | ⟨big, more, m, rfl, hp', rfl⟩
    · have hpos := varintLimit_pos top (more - 1)
      rcases more with _ | more
      · exact Nat.lt_succ_of_le (fits rfl)
      · rw [varintLimit]
        rw [Nat.add_sub_cancel] at hpos
        omega
    · have hlt := ih hp'
      have hb := b.toNat_lt
      rw [varintLimit]
      omega

/-- What is written is a spelling, -/
theorem spellsNumber_writeVarint (htop : top < 128) (hn : n < varintLimit top more) :
    SpellsNumber top more (writeVarint more n) n := by
  obtain ⟨p, heq, hp⟩ := (readVarint_eq_some_iff htop).mp (read_write htop hn [])
  rwa [List.append_cancel_right heq]

/-- and no other one is shorter. -/
theorem SpellsNumber.length_writeVarint_le (h : SpellsNumber top more p n) :
    (writeVarint more n).length ≤ p.length := by
  induction p generalizing more n with
  | nil => exact absurd rfl h.ne_nil
  | cons b p ih =>
    rcases spellsNumber_cases h with ⟨small, rfl, rfl, fits⟩ | ⟨big, more, m, rfl, hp, rfl⟩
    · rcases more with _ | more
      · exact Nat.le_refl 1
      · rw [writeVarint, if_pos small]
        exact Nat.le_refl 1
    · have hb := b.toNat_lt
      have hrest : (b.toNat - 128 + 128 * m) / 128 = m := by omega
      rw [writeVarint]
      split
      · exact Nat.succ_le_succ (Nat.zero_le _)
      · rw [hrest]
        exact Nat.succ_le_succ (ih hp)

theorem length_writeVarint_le (more n : Nat) : (writeVarint more n).length ≤ more + 1 := by
  induction more generalizing n with
  | zero => exact Nat.le_refl 1
  | succ more ih =>
    rw [writeVarint]
    split
    · exact Nat.succ_le_succ (Nat.zero_le _)
    · exact Nat.succ_le_succ (ih _)

end Bytes

namespace Config.Blob

open Bytes (SpellsNumber)

variable {cap n : Nat} {width : Nat × Nat} {t : BoundedText cap} {c c' : Config} {b p rest : Bytes}

/-! ## Texts -/

/-- Some bytes spell a text: its length in UTF-8, and then its bytes. -/
inductive SpellsText (t : BoundedText cap) : Bytes → Prop where
  | mk {length : Bytes} (spelled : SpellsNumber size.2 size.1 length t.bytes.length) :
      SpellsText t (length ++ t.bytes)

theorem readNumber_eq_some_iff (hwidth : width.2 < 128) :
    readNumber width b = some (n, rest) ↔ ∃ p, b = p ++ rest ∧ SpellsNumber width.2 width.1 p n :=
  Bytes.readVarint_eq_some_iff hwidth

theorem readNumber_of_spells (hwidth : width.2 < 128) (h : SpellsNumber width.2 width.1 p n)
    (rest : Bytes) : readNumber width (p ++ rest) = some (n, rest) :=
  (readNumber_eq_some_iff hwidth).mpr ⟨p, rfl, h⟩

theorem readByte_eq_some_iff {x : UInt8} : readByte b = some (x, rest) ↔ b = x :: rest := by
  cases b <;> simp [readByte]

/-- A number that is spelled as a word of 16 bits is one, -/
theorem spells_word16 (h : SpellsNumber word16.2 word16.1 p n) :
    SpellsNumber word16.2 word16.1 p (UInt16.ofNat n).toNat := by
  have hlt : n < UInt16.size := h.lt
  rwa [UInt16.toNat_ofNat_of_lt' hlt]

/-- and so with 32 bits. -/
theorem spells_word32 (h : SpellsNumber word32.2 word32.1 p n) :
    SpellsNumber word32.2 word32.1 p (UInt32.ofNat n).toNat := by
  have hlt : n < UInt32.size := h.lt
  rwa [UInt32.toNat_ofNat_of_lt' hlt]

/-- **A text is read off some bytes iff a spelling of it is in front of them.** -/
theorem readText_eq_some_iff :
    readText b = some (t, rest) ↔ ∃ p, b = p ++ rest ∧ SpellsText t p := by
  constructor
  · intro h
    obtain ⟨⟨n, b⟩, hlength, htake⟩ := Option.bind_eq_some_iff.mp h
    obtain ⟨length, rfl, spelled⟩ := (readNumber_eq_some_iff (by decide)).mp hlength
    dsimp only at htake
    split at htake
    · cases htake
    · rename_i enough
      obtain ⟨t', htext, hrest⟩ := Option.bind_eq_some_iff.mp htake
      obtain ⟨rfl, rfl⟩ := Prod.mk.inj (Option.some.inj hrest)
      have hbytes : b.take n = t'.bytes := BoundedText.ofBytes?_eq_some_iff.mp htext
      have hn : n = t'.bytes.length := by
        rw [← hbytes, List.length_take]
        omega
      refine ⟨length ++ t'.bytes, ?_, .mk (hn ▸ spelled)⟩
      rw [List.append_assoc, ← hbytes, List.take_append_drop]
  · rintro ⟨_, rfl, ⟨spelled⟩⟩
    simp [readText, readNumber_of_spells (by decide) spelled, BoundedText.ofBytes?_bytes]

theorem readText_of_spells (h : SpellsText t p) (rest : Bytes) :
    readText (p ++ rest) = some (t, rest) := readText_eq_some_iff.mpr ⟨p, rfl, h⟩

/-! ## Settings -/

/-- Some bytes spell settings: the fields behind each other, in order. -/
inductive Spells (c : Config) : Bytes → Prop where
  | mk {uri chunk timeout stack delay : Bytes} (uri_spelled : SpellsText c.uri uri)
      (chunk_spelled : SpellsNumber word32.2 word32.1 chunk c.maxChunkSize.toNat)
      (timeout_spelled : SpellsNumber word16.2 word16.1 timeout c.defaultTimeoutMs.toNat)
      (stack_spelled : SpellsNumber word16.2 word16.1 stack c.taskStackKb.toNat)
      (delay_spelled : SpellsNumber word32.2 word32.1 delay c.resetDelayMs.toNat) :
      Spells c (uri ++ chunk ++ timeout ++ [c.queueDepth] ++ stack ++ [c.taskPriority] ++ delay
        ++ [c.wifiMaxRetries])

/-- **Settings are read off some bytes iff a spelling of them is in front.** -/
theorem read_eq_some_iff : read b = some (c, rest) ↔ ∃ p, b = p ++ rest ∧ Spells c p := by
  constructor
  · intro h
    simp only [read, Option.bind_eq_bind, Option.bind_eq_some_iff, Prod.exists] at h
    obtain ⟨uri, b₁, huri, chunk, b₂, hchunk, timeout, b₃, htimeout, depth, b₄, hdepth, stack, b₅,
      hstack, priority, b₆, hpriority, delay, b₇, hdelay, retries, b₈, hretries, heq⟩ := h
    obtain ⟨_, rfl, uri_spelled⟩ := readText_eq_some_iff.mp huri
    obtain ⟨_, rfl, chunk_spelled⟩ := (readNumber_eq_some_iff (by decide)).mp hchunk
    obtain ⟨_, rfl, timeout_spelled⟩ := (readNumber_eq_some_iff (by decide)).mp htimeout
    obtain rfl := readByte_eq_some_iff.mp hdepth
    obtain ⟨_, rfl, stack_spelled⟩ := (readNumber_eq_some_iff (by decide)).mp hstack
    obtain rfl := readByte_eq_some_iff.mp hpriority
    obtain ⟨_, rfl, delay_spelled⟩ := (readNumber_eq_some_iff (by decide)).mp hdelay
    obtain rfl := readByte_eq_some_iff.mp hretries
    obtain ⟨rfl, rfl⟩ := Prod.mk.inj (Option.some.inj heq)
    exact ⟨_, by simp, .mk uri_spelled (spells_word32 chunk_spelled) (spells_word16 timeout_spelled)
      (spells_word16 stack_spelled) (spells_word32 delay_spelled)⟩
  · rintro ⟨_, rfl, ⟨uri, chunk, timeout, stack, delay⟩⟩
    simp only [read, List.append_assoc, readText_of_spells uri,
      readNumber_of_spells (by decide) chunk, readNumber_of_spells (by decide) timeout,
      readNumber_of_spells (by decide) stack, readNumber_of_spells (by decide) delay, readByte_cons,
      List.cons_append, List.nil_append, Option.bind_eq_bind, Option.bind_some,
      UInt32.ofNat_toNat, UInt16.ofNat_toNat, pure]

theorem read_of_spells (h : Spells c p) (rest : Bytes) : read (p ++ rest) = some (c, rest) :=
  read_eq_some_iff.mpr ⟨p, rfl, h⟩

/-- **No spelling begins with another one**, and none is of two settings. -/
theorem Spells.unique {p' rest' : Bytes} (h : Spells c p) (h' : Spells c' p')
    (same : p ++ rest = p' ++ rest') : c = c' ∧ p = p' := by
  have hread := (read_of_spells h rest).symm.trans (same ▸ read_of_spells h' rest')
  obtain ⟨rfl, rfl⟩ := Prod.mk.inj (Option.some.inj hread)
  exact ⟨rfl, List.append_cancel_right same⟩

/-- **What is written is a spelling**, -/
theorem spells_write (c : Config) : Spells c (write c) := by
  obtain ⟨p, heq, hp⟩ := read_eq_some_iff.mp (read_write c [])
  rwa [List.append_cancel_right heq]

/-- the shortest one. -/
theorem Spells.length_write_le (h : Spells c p) : (write c).length ≤ p.length := by
  obtain ⟨⟨uri⟩, chunk, timeout, stack, delay⟩ := h
  have huri := uri.length_writeVarint_le
  have hchunk := chunk.length_writeVarint_le
  have htimeout := timeout.length_writeVarint_le
  have hstack := stack.length_writeVarint_le
  have hdelay := delay.length_writeVarint_le
  simp only [write, writeText, writeNumber, List.length_append, List.length_singleton]
  omega

/-- Settings take 61 bytes at most. -/
theorem length_write_le (c : Config) : (write c).length ≤ 61 := by
  have huri := c.uri.length_bytes_le
  have hlength := Bytes.length_writeVarint_le size.1 c.uri.bytes.length
  have hchunk := Bytes.length_writeVarint_le word32.1 c.maxChunkSize.toNat
  have htimeout := Bytes.length_writeVarint_le word16.1 c.defaultTimeoutMs.toNat
  have hstack := Bytes.length_writeVarint_le word16.1 c.taskStackKb.toNat
  have hdelay := Bytes.length_writeVarint_le word32.1 c.resetDelayMs.toNat
  simp only [size, word16, word32] at hlength hchunk htimeout hstack hdelay
  simp only [write, writeText, writeNumber, size, word16, word32, List.length_append,
    List.length_singleton]
  omega

end Config.Blob

end OverTheAir
