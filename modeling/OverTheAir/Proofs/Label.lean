import Mathlib.Data.List.TakeWhile
import OverTheAir.Firmware

/-!
# Proofs/Label — the version that an image bears

Two readers take a version out of a field of 32 bytes: one of them for the image that comes in, the
other for those that are installed.  Here the version is told without either of them: a field holds
the text before its first zero byte (`Bytes.Holds`), and the head of an image bears the version that
its field holds (`Image.Bears`).  Both readers read that, and differ only in the empty text.

* `version_exact` — what is read, what it depends on, and that the two readers agree, so that the
  version policy refuses an image whose version is one of those installed.
-/

namespace OverTheAir

/-! ## Fields -/

namespace Bytes

/-- A field holds a text: a zero byte ends it, or the end of the field does. -/
structure Holds (field text : Bytes) : Prop where
  nonzero : 0 ∉ text
  ends : field = text ∨ ∃ rest, field = text ++ 0 :: rest

variable {field field' text rest : Bytes}

theorem beforeZero_of_nonzero (nonzero : 0 ∉ text) (rest : Bytes) :
    beforeZero (text ++ rest) = text ++ beforeZero rest :=
  List.takeWhile_append_of_pos fun b hb => by
    simpa using fun zero : b = 0 => nonzero (zero ▸ hb)

/-- **A field holds the bytes before its first zero byte**, and nothing else. -/
theorem holds_iff : field.Holds text ↔ beforeZero field = text := by
  constructor
  · rintro ⟨nonzero, rfl | ⟨rest, rfl⟩⟩
    · simpa [beforeZero] using beforeZero_of_nonzero nonzero []
    · rw [beforeZero_of_nonzero nonzero]
      exact List.append_nil _
  · rintro rfl
    refine ⟨fun zero => by simpa using List.mem_takeWhile_imp zero, ?_⟩
    have split : beforeZero field ++ field.dropWhile (· ≠ 0) = field :=
      List.takeWhile_append_dropWhile
    cases hrest : field.dropWhile (· ≠ 0) with
    | nil =>
      rw [hrest, List.append_nil] at split
      exact .inl split.symm
    | cons b rest =>
      -- the first byte that is left is zero
      have stops := List.head?_dropWhile_not (fun b : UInt8 => decide (b ≠ 0)) field
      rw [hrest] at stops
      obtain rfl : b = 0 := by simpa using stops
      exact .inr ⟨rest, by rw [← hrest, split]⟩

theorem length_beforeZero_le (field : Bytes) : (beforeZero field).length ≤ field.length :=
  (List.takeWhile_prefix _).length_le

end Bytes

/-- **Bytes that fit are read as the text that they spell**: the bound never gets in the way. -/
theorem BoundedText.text_ofBytes? {cap : Nat} {b : Bytes} (fits : b.length ≤ cap) :
    (ofBytes? b : Option (BoundedText cap)).map (·.text) = Bytes.text? b := by
  cases spelled : Bytes.text? b with
  | none => rw [ofBytes?, spelled]; rfl
  | some s =>
    obtain rfl := Bytes.text?_eq_some_iff.mp spelled
    have short : s.utf8ByteSize ≤ cap := by simpa [Bytes.ofText] using fits
    rw [ofBytes?, spelled, Option.bind_some, ofString?, dif_pos short]
    rfl

namespace Image

/-! ## The head of an image -/

/-- A head in which a version can be looked for. -/
structure IsHead (head : Bytes) : Prop where
  long : 288 ≤ head.length
  magic : head.head? = some 0xE9
  descriptor : (head.drop 32).take 4 = [0x32, 0x54, 0xCD, 0xAB]

/-- A head bears a version: its version field holds the text. -/
structure Bears (head : Bytes) (version : String) : Prop extends IsHead head where
  field : Bytes.Holds ((head.drop 48).take 32) (Bytes.ofText version)

variable {head : Bytes} {s : String}

theorem isHead_iff :
    IsHead head ↔ headLength ≤ head.length ∧ hasMagic head ∧ hasDescriptor head := by
  have magic : hasMagic head = true ↔ head.head? = some 0xE9 := by
    cases head <;> simp [hasMagic, Image.magic]
  have descriptor : hasDescriptor head = true ↔
      (head.drop 32).take 4 = [0x32, 0x54, 0xCD, 0xAB] := beq_iff_eq
  rw [magic, descriptor]
  exact ⟨fun ⟨long, magic, descriptor⟩ => ⟨long, magic, descriptor⟩,
    fun ⟨long, magic, descriptor⟩ => ⟨long, magic, descriptor⟩⟩

theorem length_versionField_le (head : Bytes) : (versionField head).length ≤ 32 :=
  List.length_take_le ..

/-- **The version of an image** is what its version field holds, if it is an image. -/
theorem version?_of_isHead (h : IsHead head) :
    version? head = BoundedText.ofBytes? (Bytes.beforeZero (versionField head)) :=
  if_pos (isHead_iff.mp h)

theorem version?_of_not_isHead (h : ¬IsHead head) : version? head = none :=
  if_neg fun readable => h (isHead_iff.mpr readable)

theorem text_version?_of_isHead (h : IsHead head) :
    (version? head).map (·.text) = Bytes.text? (Bytes.beforeZero (versionField head)) := by
  rw [version?_of_isHead h]
  exact BoundedText.text_ofBytes?
    (Nat.le_trans (Bytes.length_beforeZero_le _) (length_versionField_le head))

theorem text_version?_eq_some_iff : (version? head).map (·.text) = some s ↔ Bears head s := by
  by_cases h : IsHead head
  · rw [text_version?_of_isHead h, Bytes.text?_eq_some_iff, ← Bytes.holds_iff]
    exact ⟨fun field => ⟨h, field⟩, Bears.field⟩
  · refine iff_of_false ?_ fun bears => h bears.toIsHead
    rw [version?_of_not_isHead h]
    exact fun h => by cases h

/-! ## What lies around the version -/

/-- The pieces of a head, cut where the version field begins and where it ends. -/
structure Parts (front field tail : Bytes) : Prop where
  front : front.length = 48
  field : field.length = 32
  tail : 208 ≤ tail.length

variable {front field field' tail tail' text : Bytes}

theorem Parts.versionField (h : Parts front field tail) :
    versionField (front ++ (field ++ tail)) = field := by
  change ((front ++ (field ++ tail)).drop 48).take 32 = field
  rw [← h.front, List.drop_left, ← h.field, List.take_left]

/-- Whether it is a head does not show behind the front. -/
theorem Parts.isHead_iff (h : Parts front field tail) : IsHead (front ++ (field ++ tail)) ↔
    front.head? = some 0xE9 ∧ (front.drop 32).take 4 = [0x32, 0x54, 0xCD, 0xAB] := by
  have long : 288 ≤ (front ++ (field ++ tail)).length := by
    have := h.front
    have := h.field
    have := h.tail
    simp only [List.length_append]
    omega
  have magic : (front ++ (field ++ tail)).head? = front.head? := by
    cases front with
    | nil => cases h.front
    | cons b front => rfl
  have descriptor : ((front ++ (field ++ tail)).drop 32).take 4 = (front.drop 32).take 4 :=
    field_append (by rw [h.front]; decide) _
  refine ⟨fun head => ⟨magic ▸ head.magic, descriptor ▸ head.descriptor⟩, fun ⟨hm, hd⟩ => ?_⟩
  exact ⟨long, magic.trans hm, descriptor.trans hd⟩

/-- **Nothing behind the version makes a difference**, in its field or after it. -/
theorem version?_congr (h : Parts front field tail) (h' : Parts front field' tail')
    (holds : field.Holds text) (holds' : field'.Holds text) :
    version? (front ++ (field ++ tail)) = version? (front ++ (field' ++ tail')) := by
  have same : Bytes.beforeZero field = Bytes.beforeZero field' :=
    (Bytes.holds_iff.mp holds).trans (Bytes.holds_iff.mp holds').symm
  by_cases head : IsHead (front ++ (field ++ tail))
  · have head' := h'.isHead_iff.mpr (h.isHead_iff.mp head)
    rw [version?_of_isHead head, version?_of_isHead head', h.versionField, h'.versionField, same]
  · have head' := mt (fun head' => h.isHead_iff.mpr (h'.isHead_iff.mp head')) head
    rw [version?_of_not_isHead head, version?_of_not_isHead head']

/-! ## The two readers -/

/-- The reader of installed images leaves out the empty text. -/
theorem ofPadded?_eq (field : Bytes) : Version.ofPadded? field =
    (BoundedText.ofBytes? (Bytes.beforeZero field) : Option Version).filter (·.text ≠ "") := by
  rw [Version.ofPadded?]
  cases BoundedText.ofBytes? (Bytes.beforeZero field) with
  | none => rfl
  | some v => by_cases empty : v.text = "" <;> simp [empty, Option.filter]

/-- The version that an image bears fits, so it is the one that is read. -/
theorem Bears.version? (h : Bears head s) : ∃ v, version? head = some v ∧ v.text = s :=
  Option.map_eq_some_iff.mp (text_version?_eq_some_iff.mpr h)

/-- A version that some image bears is read from every field that holds it. -/
theorem Bears.installed {installed : Bytes} (h : Bears head s) (nonempty : s ≠ "")
    (holds : installed.Holds (Bytes.ofText s)) :
    (Version.ofPadded? installed).map (·.text) = some s := by
  obtain ⟨v, -, rfl⟩ := h.version?
  rw [ofPadded?_eq, Bytes.holds_iff.mp holds]
  change ((BoundedText.ofBytes? v.bytes).filter _).map _ = _
  rw [BoundedText.ofBytes?_bytes]
  simp [Option.filter, nonempty]

/-- An image with the version to be refused as the last invalidated one is refused, -/
theorem Bears.refused_as_lastInvalid {flags : SessionFlags} (h : Bears head s)
    (asked : flags.refuseLastInvalid = true) (running : Option String) :
    checkVersion head flags running (some s) = .error .invalidVersion := by
  obtain ⟨v, read, rfl⟩ := h.version?
  simp [checkVersion, read, asked]

/-- and so is one with the version to be refused as the running one. -/
theorem Bears.refused_as_running {flags : SessionFlags} (h : Bears head s)
    (asked : flags.refuseRunning = true) (lastInvalid : Option String) :
    checkVersion head flags (some s) lastInvalid = .error
      (if flags.refuseLastInvalid = true ∧ lastInvalid = some s then .invalidVersion
        else .sameVersion) := by
  obtain ⟨v, read, rfl⟩ := h.version?
  simp only [checkVersion, read, asked, Bool.and_eq_true, beq_iff_eq, and_self, if_true]
  split <;> rfl

/-- **The version of an image is read exactly**, and the two readers agree.  The version that is
read is the one that the head bears, and it always fits.  Nothing behind it makes a difference.
From a field that stands in a head, the reader of installed images reads the same, but no empty
text.  So an image with a version that is held by the field of the running image is refused if the
policy asks for it, and so is one with the version of the last invalidated image. -/
theorem version_exact :
    (∀ head s, (version? head).map (·.text) = some s ↔ Bears head s) ∧
    (∀ head s, Bears head s → s.utf8ByteSize ≤ 32) ∧
    (∀ front field field' tail tail' text, Parts front field tail → Parts front field' tail' →
      field.Holds text → field'.Holds text →
      version? (front ++ (field ++ tail)) = version? (front ++ (field' ++ tail'))) ∧
    (∀ front field tail, Parts front field tail → IsHead (front ++ (field ++ tail)) →
      Version.ofPadded? field
        = (version? (front ++ (field ++ tail))).filter (·.text ≠ "")) ∧
    ∀ (head : Bytes) (s : String) (installed : Bytes) (flags : SessionFlags) (firmware : Firmware),
      Bears head s → s ≠ "" → installed.Holds (Bytes.ofText s) →
      let answer := Image.checkVersion head flags (firmware.running.map (·.text))
        (firmware.lastInvalid.map (·.text))
      (flags.refuseLastInvalid = true → firmware.lastInvalid = Version.ofPadded? installed →
        answer = .error .invalidVersion) ∧
      (flags.refuseRunning = true → firmware.running = Version.ofPadded? installed →
        answer = .error (if flags.refuseLastInvalid = true ∧
          firmware.lastInvalid.map (·.text) = some s then .invalidVersion else .sameVersion)) := by
  refine ⟨fun head s => text_version?_eq_some_iff, fun head s bears => ?_,
    fun front field field' tail tail' text => version?_congr, fun front field tail parts head => ?_,
    fun head s installed flags firmware bears nonempty holds => ?_⟩
  · obtain ⟨v, -, rfl⟩ := bears.version?
    exact v.fits
  · rw [version?_of_isHead head, parts.versionField, ofPadded?_eq]
  · have version := bears.installed nonempty holds
    refine ⟨fun asked same => ?_, fun asked same => ?_⟩
    · rw [same, version]
      exact bears.refused_as_lastInvalid asked _
    · rw [same, version]
      exact bears.refused_as_running asked _

/-- A character that the end of the field cuts in two is not read. -/
example : Version.ofPadded? (List.replicate 31 0x61 ++ [0xC3]) = none := by decide +kernel

/-- The first bytes of an image of version 1.0. -/
def firstBytes : Bytes :=
  0xE9 :: List.replicate 31 0 ++ [0x32, 0x54, 0xCD, 0xAB] ++ List.replicate 12 0
    ++ (0x31 :: 0x2E :: 0x30 :: 0 :: List.replicate 236 0xFF)

/-- It is refused on a device that runs version 1.0, whose field is padded otherwise. -/
theorem version_exact_same :
    let field := Bytes.ofText "1.0" ++ List.replicate 29 0
    let firmware := { Firmware.unknown with running := Version.ofPadded? field }
    let flags := { SessionFlags.none with refuseRunning := true }
    Bears firstBytes "1.0" ∧ checkVersion firstBytes flags (firmware.running.map (·.text))
      (firmware.lastInvalid.map (·.text)) = .error .sameVersion := by
  intro field firmware flags
  have bears : Bears firstBytes "1.0" :=
    ⟨⟨by decide +kernel, rfl, rfl⟩, ⟨by decide, .inr ⟨List.replicate 28 0xFF, by decide⟩⟩⟩
  have holds : Bytes.Holds field (Bytes.ofText "1.0") :=
    ⟨by decide, .inr ⟨List.replicate 28 0, by decide⟩⟩
  have refused := version_exact.2.2.2.2 firstBytes "1.0" field flags firmware bears (by decide) holds
  exact ⟨bears, refused.2 rfl rfl⟩

end Image

end OverTheAir
