/-
Declared sizes are the real ones.

Every box declares its size before it is written, and counts its own
header and those of its children with 8 bytes each. A box past 32 bits
has a longer header, so the declared size is never too large, and exact
as long as it fits into 32 bits: it is `Fair` to the real length. A box
without children is exact in any case (`measured_of_body`). For a box
with children fairness follows from theirs, since it adds up.
-/
import AudioMux.Box.Any

namespace AudioMux.Box

-- =============================================================== fair sizes

/-- A size that is at most the length, and is the length if it fits into
32 bits. -/
def Fair (size length : Nat) : Prop :=
  size ≤ length ∧ (size ≤ maxWord32 → length = size)

theorem fair_self (n : Nat) : Fair n n := ⟨Nat.le_refl n, fun _ => rfl⟩

theorem Fair.add {size length size' length' : Nat} (h : Fair size length)
    (h' : Fair size' length') : Fair (size + size') (length + length') := by
  unfold Fair at *
  omega

/-- The declared size of a box, which counts its header with 8 bytes, is
fair. -/
class Measured (α : Type) [Format α] : Prop where
  fair : ∀ box : α, Fair (Format.size box) (8 + (content box).length)

/-- A box without children declares exactly what it has. -/
theorem measured_of_body {α : Type} [Format α]
    (h : ∀ box : α, (Format.full? box).elim 8 (fun _ => 12) +
      (Format.body box).length = Format.size box) : Measured α where
  fair box := by
    have hcontent : 8 + (content box).length = Format.size box := by
      rw [← h box]
      unfold content
      rw [List.length_append]
      cases Format.full? box with
      | none =>
          show 8 + (0 + _) = 8 + _
          omega
      | some full =>
          show 8 + (full.encode.length + _) = 12 + _
          rw [length_versionFlags_encode]
          omega
    rw [hcontent]
    exact fair_self _

theorem length_header_small {size : Nat} (kind : FourCC)
    (h : size ≤ maxWord32) : (header kind size).length = 8 := by
  unfold header
  rw [if_pos h, List.length_append, Bytes.length_bigEndian,
    FourCC.length_bytes]

theorem length_header_large {size : Nat} (kind : FourCC)
    (h : maxWord32 < size) : (header kind size).length = 16 := by
  unfold header
  rw [if_neg (by omega)]
  simp only [List.length_append, Bytes.length_bigEndian,
    FourCC.length_bytes]

section
variable {α : Type} [Format α] [Measured α]

theorem fair_encode (box : α) :
    Fair (Format.size box) (encode box).length := by
  have hfair := Measured.fair box
  unfold Fair at hfair ⊢
  unfold encode
  rw [List.length_append]
  by_cases h : Format.size box ≤ maxWord32
  · rw [length_header_small _ h]
    exact hfair
  · rw [length_header_large _ (by omega)]
    omega

theorem fair_encodeOption (box? : Option α) :
    Fair (sizeOption box?) (encodeOption box?).length := by
  cases box? with
  | none => exact fair_self 0
  | some box => exact fair_encode box

theorem fair_encodeList (boxes : List α) :
    Fair (sizeList boxes) (encodeList boxes).length := by
  induction boxes with
  | nil => exact fair_self 0
  | cons box rest ih =>
      show Fair (Format.size box + sizeList rest)
        (encode box ++ encodeList rest).length
      rw [List.length_append]
      exact (fair_encode box).add ih

/-- A box has a header at least. -/
theorem eight_le_size (box : α) : 8 ≤ Format.size box := by
  have hfair := Measured.fair box
  unfold Fair maxWord32 at hfair
  omega

theorem length_le_sizeList (boxes : List α) :
    boxes.length ≤ sizeList boxes := by
  induction boxes with
  | nil => exact Nat.zero_le _
  | cons box rest ih =>
      have height := eight_le_size box
      have hsplit : sizeList (box :: rest)
          = Format.size box + sizeList rest := rfl
      rw [List.length_cons]
      omega

/-- A box is as long as it declares, if that fits into 32 bits. -/
theorem length_encode {box : α} (h : Format.size box ≤ maxWord32) :
    (encode box).length = Format.size box :=
  (fair_encode box).2 h

/-- A box is as long as it declares, if its real length fits. -/
theorem size_eq_of_length_le {box : α}
    (h : 8 + (content box).length ≤ maxWord32) :
    Format.size box = 8 + (content box).length := by
  have hfair := Measured.fair box
  unfold Fair at hfair
  omega

end

theorem size_le_sizeOption {α : Type} [Format α] {box? : Option α}
    {box : α} (h : box ∈ box?) : Format.size box ≤ sizeOption box? := by
  cases h
  exact Nat.le_refl _

/-- If a list of boxes fits, each of them does. -/
theorem size_le_sizeList {α : Type} [Format α] {boxes : List α} {box : α}
    (h : box ∈ boxes) : Format.size box ≤ sizeList boxes := by
  induction boxes with
  | nil => cases h
  | cons first rest ih =>
      have hsplit : sizeList (first :: rest)
          = Format.size first + sizeList rest := rfl
      rcases List.mem_cons.mp h with rfl | hmem
      · omega
      · have := ih hmem
        omega

-- ================================================================== pieces

/-- The entries of a counted list take up the same space each. -/
theorem length_countedList {α : Type} {entry : α → Bytes} {width : Nat}
    (h : ∀ a, (entry a).length = width) (entries : List α) :
    (countedList entry entries).length = 4 + width * entries.length := by
  have hentries : (entries.flatMap entry).length
      = width * entries.length := by
    induction entries with
    | nil => rfl
    | cons a rest ih =>
        rw [List.flatMap_cons, List.length_append, ih, h, List.length_cons,
          Nat.mul_succ, Nat.add_comm]
  unfold countedList
  rw [List.length_append, Bytes.length_bigEndian, hentries]

@[simp] theorem length_ofText (text : String) :
    (Bytes.ofText text).length = text.utf8ByteSize := by
  unfold Bytes.ofText
  rw [Array.length_toList]
  rfl

@[simp] theorem length_matrix (m : Matrix) : m.encode.length = 36 := by
  simp [Matrix.encode, Matrix.cells]

@[simp] theorem length_language (language : Language) :
    language.encode.length = 2 := rfl

@[simp] theorem length_edit (width : Nat) (edit : Edit) :
    (edit.encode width).length = 2 * width := by
  simp [Edit.encode]
  omega

@[simp] theorem length_descriptor_header (tag : UInt8) (size : Nat) :
    (Descriptor.header tag size).length = 5 := rfl

@[simp] theorem length_decoderConfig (config : Descriptor.DecoderConfig) :
    config.encode.length = config.size := by
  simp [Descriptor.DecoderConfig.encode, Descriptor.DecoderConfig.size,
    Descriptor.DecoderConfig.payloadSize, Descriptor.headerSize]
  omega

@[simp] theorem length_stream (stream : Descriptor.Stream) :
    stream.encode.length = stream.size := by
  simp [Descriptor.Stream.encode, Descriptor.Stream.size,
    Descriptor.Stream.payloadSize, Descriptor.headerSize]
  omega

-- ================================================== boxes without children

instance : Measured MovieHeader := measured_of_body fun box => by
  simp [Format.full?, Format.body, Format.size]
  omega

instance : Measured TrackHeader := measured_of_body fun box => by
  simp [Format.full?, Format.body, Format.size]
  omega

instance : Measured MediaHeader := measured_of_body fun box => by
  simp [Format.full?, Format.body, Format.size]
  omega

instance : Measured EditList := measured_of_body fun box => by
  simp [Format.full?, Format.body, Format.size,
    length_countedList (length_edit box.width)]
  rw [Nat.mul_comm]
  omega

instance : Measured Handler := measured_of_body fun box => by
  simp [Format.full?, Format.body, Format.size]
  omega

instance : Measured SoundHeader := measured_of_body fun _ => rfl

instance : Measured DataLocation := measured_of_body fun box => by
  simp only [Format.full?, Format.body, Format.size, Option.elim]
  split
  · rfl
  · simp

instance : Measured CodecConfig := measured_of_body fun box => by
  cases box <;> simp [Format.full?, Format.body, Format.size]

instance : Measured TimeToSample := measured_of_body fun box => by
  have hrun : ∀ run : TimeRun,
      (Bytes.word32 run.count ++ Bytes.word32 run.delta).length = 8 :=
    fun run => by simp
  simp [Format.full?, Format.body, Format.size, length_countedList hrun]
  omega

instance : Measured SampleToChunk := measured_of_body fun box => by
  have hrun : ∀ run : ChunkRun,
      (Bytes.word32 run.firstChunk ++ Bytes.word32 run.samplesPerChunk ++
        Bytes.word32 run.descriptionIndex).length = 12 :=
    fun run => by simp
  simp only [Format.full?, Format.body, Format.size, Option.elim,
    length_countedList hrun]
  omega

instance : Measured SampleSizes := measured_of_body fun box => by
  simp [Format.full?, Format.body, Format.size,
    length_countedList Bytes.length_word32]
  omega

instance : Measured ChunkOffsets := measured_of_body fun box => by
  cases box with
  | narrow offsets =>
      simp [Format.full?, Format.body, Format.size,
        length_countedList Bytes.length_word32]
      omega
  | wide offsets =>
      simp [Format.full?, Format.body, Format.size,
        length_countedList Bytes.length_word64]
      omega

instance : Measured SampleToGroup := measured_of_body fun box => by
  have hrun : ∀ run : GroupRun,
      (Bytes.word32 run.count ++ Bytes.word32 run.groupIndex).length = 8 :=
    fun run => by simp
  simp [Format.full?, Format.body, Format.size, length_countedList hrun]
  omega

instance : Measured SampleGroups := measured_of_body fun box => by
  have hdistance : ∀ distance : Int16,
      (Bytes.word16 distance.toUInt16).length = 2 :=
    fun distance => Bytes.length_word16 distance.toUInt16
  simp [Format.full?, Format.body, Format.size,
    length_countedList hdistance]
  omega

instance : Measured ItemData := measured_of_body fun box => by
  simp [Format.full?, Format.body, Format.size]
  omega

instance : Measured ItemMeaning := measured_of_body fun box => by
  simp [Format.full?, Format.body, Format.size]

instance : Measured ItemName := measured_of_body fun box => by
  simp [Format.full?, Format.body, Format.size]

theorem length_brands (brands : List FourCC) :
    (brands.flatMap FourCC.bytes).length = 4 * brands.length := by
  induction brands with
  | nil => rfl
  | cons brand rest ih =>
      rw [List.flatMap_cons, List.length_append, ih, FourCC.length_bytes,
        List.length_cons]
      omega

instance : Measured FileType := measured_of_body fun box => by
  simp only [Format.full?, Format.body, Format.size, Option.elim,
    List.length_append, FourCC.length_bytes, Bytes.length_word32,
    length_brands]
  omega

instance : Measured FreeSpace := measured_of_body fun box => by
  simp only [Format.full?, Format.body, Format.size, Option.elim,
    Bytes.length_zeros]
  omega

-- ===================================================== boxes with children

instance : Measured EditBox where
  fair box := (fair_self 8).add (fair_encode box.editList)

instance : Measured DataReference where
  fair box := by
    have hentries := fair_encodeList box.entries
    have hlength : (content box).length
        = 4 + (4 + (encodeList box.entries).length) := by
      simp [content, Format.full?, Format.body, countedList, encodeList]
    have hsize : Format.size box = 12 + 4 + sizeList box.entries := rfl
    rw [hlength, hsize]
    unfold Fair at *
    omega

instance : Measured DataInformation where
  fair box := (fair_self 8).add (fair_encode box.reference)

instance : Measured SampleEntry where
  fair box := by
    cases box with
    | audio entry =>
        have hconfig := fair_encode entry.config
        have hlength : (content (SampleEntry.audio entry)).length
            = 28 + (encode entry.config).length := by
          simp [content, Format.full?, Format.body]
          omega
        have hsize : Format.size (SampleEntry.audio entry)
            = 36 + Format.size entry.config := rfl
        rw [hlength, hsize]
        unfold Fair at *
        omega
    | text entry =>
        have hlength : 8 + (content (SampleEntry.text entry)).length
            = Format.size (SampleEntry.text entry) := by
          simp [content, Format.full?, Format.body, Format.size]
          omega
        rw [hlength]
        exact fair_self _

instance : Measured SampleDescription where
  fair box := by
    have hentry := fair_encode box.entry
    have hlength : (content box).length
        = 8 + (encode box.entry).length := by
      simp [content, Format.full?, Format.body, countedList]
      omega
    have hsize : Format.size box = 16 + Format.size box.entry := rfl
    rw [hlength, hsize]
    unfold Fair at *
    omega

instance : Measured SampleTables where
  fair box := by
    have hdescription := fair_encode box.description
    have hmembership := fair_encodeOption box.sampleToGroup?
    have hgroups := fair_encodeOption box.groups?
    have htimes := fair_encode box.timeToSample
    have hchunks := fair_encode box.sampleToChunk
    have hsizes := fair_encode box.sampleSizes
    have hoffsets := fair_encode box.chunkOffsets
    simp only [content, Format.full?, Format.body, Option.elim,
      List.nil_append, List.length_append]
    show Fair (8 + Format.size box.description +
      sizeOption box.sampleToGroup? + sizeOption box.groups? +
      Format.size box.timeToSample + Format.size box.sampleToChunk +
      Format.size box.sampleSizes + Format.size box.chunkOffsets) _
    unfold Fair at *
    omega

instance : Measured MediaInformation where
  fair box := by
    have hsound := fair_encodeOption box.soundHeader?
    have hdata := fair_encode box.dataInformation
    have htables := fair_encode box.sampleTables
    simp only [content, Format.full?, Format.body, Option.elim,
      List.nil_append, List.length_append]
    show Fair (8 + sizeOption box.soundHeader? +
      Format.size box.dataInformation + Format.size box.sampleTables) _
    unfold Fair at *
    omega

instance : Measured Media where
  fair box := by
    have hheader := fair_encode box.header
    have hhandler := fair_encode box.handler
    have hinformation := fair_encode box.information
    simp only [content, Format.full?, Format.body, Option.elim,
      List.nil_append, List.length_append]
    show Fair (8 + Format.size box.header + Format.size box.handler +
      Format.size box.information) _
    unfold Fair at *
    omega

instance : Measured TrackBox where
  fair box := by
    have hheader := fair_encode box.header
    have hedits := fair_encodeOption box.edits?
    have hmedia := fair_encode box.media
    simp only [content, Format.full?, Format.body, Option.elim,
      List.nil_append, List.length_append]
    show Fair (8 + Format.size box.header + sizeOption box.edits? +
      Format.size box.media) _
    unfold Fair at *
    omega

instance : Measured Item where
  fair box := by
    cases box with
    | coded code data => exact (fair_self 8).add (fair_encode data)
    | freeForm name data =>
        have hparts := ((fair_encode ItemMeaning.mk).add
          (fair_encode name)).add (fair_encode data)
        rw [← List.length_append, ← List.length_append] at hparts
        exact (fair_self 8).add hparts

instance : Measured ItemList where
  fair box := (fair_self 8).add (fair_encodeList box.items)

instance : Measured Metadata where
  fair box := by
    have hhandler := fair_encode box.handler
    have hitems := fair_encode box.itemList
    simp only [content, Format.full?, Format.body, Option.elim,
      List.length_append, length_versionFlags_encode]
    show Fair (12 + Format.size box.handler + Format.size box.itemList) _
    unfold Fair at *
    omega

instance : Measured UserData where
  fair box := (fair_self 8).add (fair_encode box.metadata)

instance : Measured Movie where
  fair box := by
    have hheader := fair_encode box.header
    have htracks := fair_encodeList box.tracks
    have huser := fair_encodeOption box.userData?
    simp only [content, Format.full?, Format.body, Option.elim,
      List.nil_append, List.length_append]
    show Fair (8 + Format.size box.header + sizeList box.tracks +
      sizeOption box.userData?) _
    unfold Fair at *
    omega

end AudioMux.Box
