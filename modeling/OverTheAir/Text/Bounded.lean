import OverTheAir.Bytes

/-!
# Text/Bounded — text of limited length

A device has no room for texts of any length: an endpoint path and a version each fit in 32 bytes
of UTF-8.  The bound is part of the type, so no operation has to check it again.
-/

namespace OverTheAir

/-- A text of at most `cap` bytes in UTF-8. -/
structure BoundedText (cap : Nat) where
  text : String
  fits : text.utf8ByteSize ≤ cap
  deriving DecidableEq

namespace BoundedText

variable {cap : Nat}

/-- The text itself when it fits. -/
def ofString? (s : String) : Option (BoundedText cap) :=
  if h : s.utf8ByteSize ≤ cap then some ⟨s, h⟩ else none

/-- The text that some bytes spell, when they spell one that fits. -/
def ofBytes? (b : Bytes) : Option (BoundedText cap) :=
  (Bytes.text? b).bind ofString?

/-- The UTF-8 bytes of the text. -/
def bytes (t : BoundedText cap) : Bytes := Bytes.ofText t.text

instance : Inhabited (BoundedText cap) := ⟨⟨"", Nat.zero_le _⟩⟩

@[ext] theorem ext {s t : BoundedText cap} (h : s.text = t.text) : s = t := by
  cases s; cases t; cases h; rfl

theorem length_bytes (t : BoundedText cap) : t.bytes.length = t.text.utf8ByteSize := by
  simp [bytes, Bytes.ofText]

theorem length_bytes_le (t : BoundedText cap) : t.bytes.length ≤ cap :=
  t.length_bytes ▸ t.fits

theorem ofString?_text (t : BoundedText cap) : ofString? t.text = some t :=
  dif_pos t.fits

theorem ofString?_eq_some_iff {s : String} {t : BoundedText cap} :
    ofString? s = some t ↔ t.text = s := by
  constructor
  · intro h
    rw [ofString?] at h
    split at h
    · exact (Option.some.inj h) ▸ rfl
    · cases h
  · rintro rfl
    exact ofString?_text t

theorem ofBytes?_eq_some_iff {b : Bytes} {t : BoundedText cap} :
    ofBytes? b = some t ↔ b = t.bytes := by
  simp only [ofBytes?, Option.bind_eq_some_iff, Bytes.text?_eq_some_iff, ofString?_eq_some_iff]
  exact ⟨fun ⟨s, hb, ht⟩ => by rw [hb, ← ht, bytes], fun h => ⟨t.text, h, rfl⟩⟩

/-- Reading undoes writing. -/
theorem ofBytes?_bytes (t : BoundedText cap) : ofBytes? t.bytes = some t :=
  ofBytes?_eq_some_iff.mpr rfl

end BoundedText

end OverTheAir
