import OverTheAir.Config.Blob
import OverTheAir.Log

/-!
# Store — the settings kept across restarts

One slot holds the blob of the settings.  Loading gives settings within limits or the default ones;
only a blob too long for the buffer is an error.  Saving refuses settings that break a limit.
-/

namespace OverTheAir

/-- The slot for the settings; `none` when nothing was stored. -/
structure Store where
  blob : Option Bytes
  deriving DecidableEq, Repr

namespace Store

/-- Nothing stored. -/
def empty : Store := ⟨none⟩

/-- Bytes of the largest blob that is read. -/
def maxBlob : Nat := 128

/-- The stored settings, and what the log says about them. -/
def load (s : Store) : Except ConfigError Config × List LogLine :=
  match s.blob with
  | none => (.ok Config.default, [⟨.info, "NvsAdapter: no stored config, using defaults"⟩])
  | some b =>
    if maxBlob < b.length then (.error (.storage .full), [])
    else
      match Config.Blob.read b with
      | none =>
        (.ok Config.default, [⟨.warn, "NvsAdapter: stored config corrupted, using defaults"⟩])
      | some (c, _) =>
        match c.validate with
        | .error e =>
          (.ok Config.default,
            [⟨.warn, s!"NvsAdapter: stored config rejected ({e.message}), using defaults"⟩])
        | .ok () => (.ok c, [⟨.info, s!"NvsAdapter: loaded config ({b.length} bytes)"⟩])

/-- Store the settings, if they are within limits. -/
def save (s : Store) (c : Config) : Except ConfigError Unit × Store × List LogLine :=
  match c.validate with
  | .error e => (.error e, s, [])
  | .ok () =>
    let b := Config.Blob.write c
    if maxBlob < b.length then (.error .corrupted, s, [])
    else (.ok (), ⟨some b⟩, [⟨.info, s!"NvsAdapter: config saved ({b.length} bytes)"⟩])

end Store

end OverTheAir
