/-
Reading sample descriptions and sample tables back.

A descriptor gives its size in base 128, most significant digits first,
in up to four bytes, all but the last with the high bit set. What is in
it is read by a reader of its own, which has to come out at its end.

The box of a sample entry is read by its kind, and the table of chunk
offsets is whichever of the two is there.
-/
import AudioMux.Proofs.Box.Decode.Reader

namespace AudioMux.Box

open Reader

-- ============================================================= descriptors

namespace Descriptor

/-- The rest of a size, in so many bytes at most. -/
def sizeReader : (most : Nat) → (size : Nat) → Reader Nat
  | 0, _ => failure
  | most + 1, size => do
    let digit ← number 1
    if digit < 128 then pure (size * 128 + digit)
    else sizeReader most (size * 128 + (digit - 128))

/-- What a descriptor with this tag holds. -/
def reader {α : Type} (tag : UInt8) (payload : Reader α) : Reader α := do
  guard ((← byte) = tag)
  let size ← sizeReader 4 0
  payload.whole? (← bytes size)

theorem takes_lastDigit {most size digit : Nat} (h : digit < 128) :
    Takes (sizeReader (most + 1) size) [UInt8.ofNat digit]
      (size * 128 + digit) := by
  have hbyte : Takes (number 1) [UInt8.ofNat digit] digit :=
    takes_number (by omega)
  refine hbyte.bind ?_
  rw [if_pos h]
  exact takes_pure _

theorem takes_digit {most size digit total : Nat} {more : Bytes}
    (h : digit < 128)
    (hmore : Takes (sizeReader most (size * 128 + digit)) more total) :
    Takes (sizeReader (most + 1) size)
      (UInt8.ofNat (digit + 128) :: more) total := by
  have hbyte : Takes (number 1) [UInt8.ofNat (digit + 128)] (digit + 128) :=
    takes_number (by omega)
  refine hbyte.bind ?_
  rw [if_neg (by omega), Nat.add_sub_cancel]
  exact hmore

/-- Of a size the header keeps 28 bits. -/
theorem takes_size (size : Nat) :
    Takes (sizeReader 4 0)
      [UInt8.ofNat (size / 128 / 128 / 128 % 128 + 128),
        UInt8.ofNat (size / 128 / 128 % 128 + 128),
        UInt8.ofNat (size / 128 % 128 + 128), UInt8.ofNat (size % 128)]
      (size % 2 ^ 28) := by
  have htotal : (((0 * 128 + size / 128 / 128 / 128 % 128) * 128
        + size / 128 / 128 % 128) * 128 + size / 128 % 128) * 128
        + size % 128 = size % 2 ^ 28 := by omega
  rw [← htotal]
  refine takes_digit (by omega) ?_
  refine takes_digit (by omega) ?_
  refine takes_digit (by omega) ?_
  exact takes_lastDigit (by omega)

section
variable {α : Type} {payload : Reader α} {written : Bytes}

/-- Behind a header the reader takes as many bytes as it was told. -/
theorem reader_header (tag : UInt8) (size : Nat) (rest : Bytes) :
    reader tag payload (header tag size ++ rest)
      = (Reader.bytes (size % 2 ^ 28) >>= fun found =>
          payload.whole? found : Reader α) rest := by
  have hheader : header tag size ++ rest
      = [tag] ++ ([] ++ ([UInt8.ofNat (size / 128 / 128 / 128 % 128 + 128),
          UInt8.ofNat (size / 128 / 128 % 128 + 128),
          UInt8.ofNat (size / 128 % 128 + 128), UInt8.ofNat (size % 128)]
        ++ rest)) := rfl
  unfold reader
  rw [hheader, (takes_byte tag).bind_apply, (takes_guard rfl).bind_apply,
    (takes_size size).bind_apply]

/-- A descriptor is read back if its size has no more than 28 bits. -/
theorem takes_descriptor {a : α} (h : Reads payload written a) (tag : UInt8)
    (hsize : written.length < 2 ^ 28) :
    Takes (reader tag payload) (header tag written.length ++ written)
      a := by
  intro rest
  rw [List.append_assoc, reader_header, Nat.mod_eq_of_lt hsize,
    (takes_bytes rfl).bind_apply, whole?_of_reads h]
  rfl

/-- Otherwise bytes are left behind it. -/
theorem not_reads_descriptor (tag : UInt8)
    (hsize : 2 ^ 28 ≤ written.length) (a : α) :
    ¬ Reads (reader tag payload) (header tag written.length ++ written)
      a := by
  have hlt : written.length % 2 ^ 28 < written.length :=
    Nat.lt_of_lt_of_le (Nat.mod_lt _ (by decide)) hsize
  have hbytes : Reader.bytes (written.length % 2 ^ 28) written
      = some (written.take (written.length % 2 ^ 28),
          written.drop (written.length % 2 ^ 28)) :=
    if_pos (Nat.le_of_lt hlt)
  intro hread
  unfold Reads at hread
  rw [reader_header] at hread
  obtain ⟨⟨found, behind⟩, hfound, hwhole⟩ :=
    Option.bind_eq_some_iff.mp hread
  cases hfound.symm.trans hbytes
  obtain ⟨_, _, hleft⟩ := Option.bind_eq_some_iff.mp hwhole
  have hnil : written.drop (written.length % 2 ^ 28) = [] :=
    (Prod.mk.inj (Option.some.inj hleft)).2
  have hlength := congrArg List.length hnil
  rw [List.length_drop, List.length_nil] at hlength
  omega

end

def DecoderConfig.reader : Reader DecoderConfig :=
  Descriptor.reader decoderConfigTag do
    skip 2
    let bufferSize ← word24
    let maxBitrate ← word32
    let averageBitrate ← word32
    let info ← Descriptor.reader decoderInfoTag allBytes
    pure ⟨bufferSize, maxBitrate, averageBitrate, info⟩

def Stream.reader : Reader Stream :=
  Descriptor.reader streamTag do
    skip 3
    let decoderConfig ← DecoderConfig.reader
    let _ ← Descriptor.reader syncLayerTag allBytes
    pure ⟨decoderConfig⟩

/-- The buffer size and the sizes of the descriptors fit into their
fields. -/
def Stream.Lossless (stream : Stream) : Prop :=
  stream.decoderConfig.bufferSize.toNat < 2 ^ 24
    ∧ stream.payloadSize < 2 ^ 28

instance Stream.decidableLossless (stream : Stream) :
    Decidable stream.Lossless :=
  inferInstanceAs (Decidable (_ ∧ _))

theorem takes_decoderConfig {config : DecoderConfig}
    (hbuffer : config.bufferSize.toNat < 2 ^ 24)
    (hsize : config.payloadSize < 2 ^ 28) :
    Takes DecoderConfig.reader config.encode config := by
  have hpayload : config.payloadSize = 18 + config.info.length := by
    unfold DecoderConfig.payloadSize headerSize
    omega
  let written := [mpeg4Audio, audioStream] ++
    (Bytes.bigEndian 3 config.bufferSize.toNat ++
      (Bytes.word32 config.maxBitrate ++ (Bytes.word32 config.averageBitrate
        ++ (header decoderInfoTag config.info.length ++ config.info))))
  have hlength : written.length = config.payloadSize := by
    simp [written]
    omega
  have hencode : config.encode
      = header decoderConfigTag written.length ++ written := by
    rw [hlength]
    simp [DecoderConfig.encode, written]
  have htypes : Takes (skip 2) [mpeg4Audio, audioStream] () :=
    takes_skip rfl
  have hinfo := takes_descriptor (reads_allBytes config.info) decoderInfoTag
    (by omega)
  rw [hencode]
  refine takes_descriptor (Takes.reads ?_) decoderConfigTag
    (hlength ▸ hsize)
  refine htypes.bind ?_
  refine (takes_word24 hbuffer).bind ?_
  refine (takes_word32 _).bind ?_
  refine (takes_word32 _).bind ?_
  exact hinfo.map

/-- What the header of a stream is the header of. -/
def Stream.payload (stream : Stream) : Bytes :=
  Bytes.zeros 3 ++ (stream.decoderConfig.encode ++
    (header syncLayerTag 1 ++ [2]))

theorem length_payload (stream : Stream) :
    stream.payload.length = stream.payloadSize := by
  simp [Stream.payload, Stream.payloadSize, headerSize]
  omega

theorem encode_stream (stream : Stream) :
    stream.encode
      = header streamTag stream.payload.length ++ stream.payload := by
  rw [length_payload]
  simp [Stream.encode, Stream.payload]

theorem takes_stream {stream : Stream} (h : stream.Lossless) :
    Takes Stream.reader stream.encode stream := by
  obtain ⟨hbuffer, hsize⟩ := h
  have hpayload : stream.payloadSize
      = 14 + stream.decoderConfig.payloadSize := by
    unfold Stream.payloadSize DecoderConfig.size headerSize
    omega
  rw [encode_stream]
  refine takes_descriptor (Takes.reads ?_) streamTag
    (length_payload stream ▸ hsize)
  refine (takes_zeros 3).bind ?_
  refine (takes_decoderConfig hbuffer (by omega)).bind ?_
  exact (takes_descriptor (reads_allBytes [2]) syncLayerTag (by decide)).map

end Descriptor

-- ============================================================ descriptions

/-- The descriptors of AAC. -/
def CodecConfig.aacReader : Reader CodecConfig := do
  let _ ← versionFlags
  let stream ← Descriptor.Stream.reader
  pure (.aac stream)

/-- The magic cookie of ALAC. -/
def CodecConfig.alacReader : Reader CodecConfig := do
  let _ ← versionFlags
  let cookie ← allBytes
  pure (.alac cookie)

def CodecConfig.Lossless : CodecConfig → Prop
  | .aac stream => stream.Lossless
  | .alac _ => True

instance CodecConfig.decidableLossless :
    (config : CodecConfig) → Decidable config.Lossless
  | .aac stream => inferInstanceAs (Decidable stream.Lossless)
  | .alac _ => inferInstanceAs (Decidable True)

theorem reads_aac {stream : Descriptor.Stream} (h : stream.Lossless) :
    Reads CodecConfig.aacReader (content (CodecConfig.aac stream))
      (.aac stream) := by
  refine (takes_versionFlags (by decide)).bind_reads ?_
  exact (Descriptor.takes_stream h).map.reads

theorem reads_alac (cookie : Bytes) :
    Reads CodecConfig.alacReader (content (CodecConfig.alac cookie))
      (.alac cookie) := by
  refine (takes_versionFlags (by decide)).bind_reads ?_
  exact (reads_allBytes cookie).map

/-- An audio entry with a box of this kind for its configuration. -/
def AudioSampleEntry.reader (kind : FourCC) (config : Reader CodecConfig) :
    Reader AudioSampleEntry := do
  skip 6
  let dataReferenceIndex ← word16
  skip 8
  let channelCount ← word16
  let sampleSize ← word16
  skip 2
  skip 2
  let sampleRate ← word32
  let config ← boxes (child kind config)
  pure ⟨dataReferenceIndex, channelCount, sampleSize, sampleRate, config⟩

theorem reads_audioEntry {entry : AudioSampleEntry} {kind : FourCC}
    {config : Reader CodecConfig}
    (hsize : Format.size entry.config ≤ maxWord32)
    (hkind : Format.kind entry.config = kind)
    (h : Reads config (content entry.config) entry.config) :
    Reads (AudioSampleEntry.reader kind config)
      (content (SampleEntry.audio entry)) entry := by
  have hcontent : content (SampleEntry.audio entry)
      = Bytes.zeros 6 ++ (Bytes.word16 entry.dataReferenceIndex ++
        (Bytes.zeros 8 ++ (Bytes.word16 entry.channelCount ++
          (Bytes.word16 entry.sampleSize ++ (Bytes.zeros 2 ++
            (Bytes.zeros 2 ++ (Bytes.word32 entry.sampleRate ++
              encode entry.config))))))) := by
    simp [content, Format.full?, Format.body]
  rw [hcontent]
  refine (takes_zeros 6).bind_reads ?_
  refine (takes_word16 _).bind_reads ?_
  refine (takes_zeros 8).bind_reads ?_
  refine (takes_word16 _).bind_reads ?_
  refine (takes_word16 _).bind_reads ?_
  refine (takes_zeros 2).bind_reads ?_
  refine (takes_zeros 2).bind_reads ?_
  refine (takes_word32 _).bind_reads ?_
  exact (reads_boxes (walk_encode_self hsize)
    (child_of (payload?_cons hkind) h)).map

def TextSampleEntry.reader : Reader TextSampleEntry := do
  skip 6
  let dataReferenceIndex ← word16
  let config ← allBytes
  pure ⟨dataReferenceIndex, config⟩

/-- A sample entry in a box of this kind. -/
def SampleEntry.reader (kind : FourCC) : Reader SampleEntry :=
  if kind = .ofChars 'm' 'p' '4' 'a' then
    .audio <$> AudioSampleEntry.reader (.ofChars 'e' 's' 'd' 's')
      CodecConfig.aacReader
  else if kind = .ofChars 'a' 'l' 'a' 'c' then
    .audio <$> AudioSampleEntry.reader (.ofChars 'a' 'l' 'a' 'c')
      CodecConfig.alacReader
  else if kind = .ofChars 't' 'e' 'x' 't' then
    .text <$> TextSampleEntry.reader
  else failure

theorem reads_textEntry (entry : TextSampleEntry) :
    Reads TextSampleEntry.reader (content (SampleEntry.text entry))
      entry := by
  have hcontent : content (SampleEntry.text entry)
      = Bytes.zeros 6 ++ (Bytes.word16 entry.dataReferenceIndex ++
        entry.config) := by
    simp [content, Format.full?, Format.body]
  rw [hcontent]
  refine (takes_zeros 6).bind_reads ?_
  refine (takes_word16 _).bind_reads ?_
  exact (reads_allBytes _).map

def SampleEntry.Lossless : SampleEntry → Prop
  | .audio entry => entry.config.Lossless
  | .text _ => True

instance SampleEntry.decidableLossless :
    (box : SampleEntry) → Decidable box.Lossless
  | .audio entry => inferInstanceAs (Decidable entry.config.Lossless)
  | .text _ => inferInstanceAs (Decidable True)

theorem reads_sampleEntry {box : SampleEntry}
    (hsize : Format.size box ≤ maxWord32) (h : box.Lossless) :
    Reads (SampleEntry.reader (Format.kind box)) (content box) box := by
  cases box with
  | audio entry =>
      have hconfig : Format.size entry.config ≤ maxWord32 := by
        have hsplit : Format.size (SampleEntry.audio entry)
            = 36 + Format.size entry.config := rfl
        omega
      obtain ⟨index, channels, bits, rate, config⟩ := entry
      cases config with
      | aac stream =>
          exact (reads_audioEntry hconfig rfl (reads_aac h)).map
      | alac cookie =>
          exact (reads_audioEntry hconfig rfl (reads_alac cookie)).map
  | text entry => exact (reads_textEntry entry).map

def SampleDescription.reader : Reader SampleDescription := do
  let _ ← versionFlags
  let count ← number 4
  boxes fun parts => do
    guard (parts.length = count)
    match parts with
    | [part] =>
      let entry ← (SampleEntry.reader part.kind).whole? part.payload
      pure ⟨entry⟩
    | _ => none

def SampleDescription.Lossless (box : SampleDescription) : Prop :=
  box.entry.Lossless

instance SampleDescription.decidableLossless (box : SampleDescription) :
    Decidable box.Lossless :=
  inferInstanceAs (Decidable box.entry.Lossless)

theorem reads_sampleDescription {box : SampleDescription}
    (hsize : Format.size box ≤ maxWord32) (h : box.Lossless) :
    Reads SampleDescription.reader (content box) box := by
  have hentry : Format.size box.entry ≤ maxWord32 := by
    have hsplit : Format.size box = 16 + Format.size box.entry := rfl
    omega
  have hcontent : content box = VersionFlags.plain.encode ++
      (Bytes.bigEndian 4 1 ++ encode box.entry) := by
    simp [content, Format.full?, Format.body, countedList]
  have hread := whole?_of_reads (reads_sampleEntry hentry h)
  rw [hcontent]
  refine (takes_versionFlags (by decide)).bind_reads ?_
  refine (takes_number (by decide)).bind_reads ?_
  refine reads_boxes (walk_encode_self hentry) ?_
  show (do
    guard (1 = 1)
    let entry ← (SampleEntry.reader (Format.kind box.entry)).whole?
      (content box.entry)
    pure (SampleDescription.mk entry)) = some box
  rw [hread]
  rfl

-- ================================================================== tables

def TimeRun.reader : Reader TimeRun := do
  let count ← word32
  let delta ← word32
  pure ⟨count, delta⟩

def TimeToSample.reader : Reader TimeToSample := do
  let _ ← versionFlags
  let runs ← table TimeRun.reader
  pure ⟨runs⟩

theorem reads_timeToSample {box : TimeToSample}
    (h : Format.size box ≤ maxWord32) :
    Reads TimeToSample.reader (content box) box := by
  have hcount : box.runs.length ≤ maxWord32 := by
    have hsize : Format.size box = 12 + 4 + 8 * box.runs.length := rfl
    omega
  refine (takes_versionFlags (by decide)).bind_reads ?_
  refine (reads_table (fun run => ?_) hcount).map
  exact (takes_word32 _).bind (takes_word32 _).map

def ChunkRun.reader : Reader ChunkRun := do
  let firstChunk ← word32
  let samplesPerChunk ← word32
  let descriptionIndex ← word32
  pure ⟨firstChunk, samplesPerChunk, descriptionIndex⟩

def SampleToChunk.reader : Reader SampleToChunk := do
  let _ ← versionFlags
  let runs ← table ChunkRun.reader
  pure ⟨runs⟩

theorem reads_sampleToChunk {box : SampleToChunk}
    (h : Format.size box ≤ maxWord32) :
    Reads SampleToChunk.reader (content box) box := by
  have hcount : box.runs.length ≤ maxWord32 := by
    have hsize : Format.size box = 12 + 4 + 12 * box.runs.length := rfl
    omega
  refine (takes_versionFlags (by decide)).bind_reads ?_
  refine (reads_table (fun run => ?_) hcount).map
  rw [List.append_assoc]
  exact (takes_word32 _).bind ((takes_word32 _).bind (takes_word32 _).map)

/-- A size in front that is not zero is that of all samples. -/
def SampleSizes.reader : Reader SampleSizes := do
  let _ ← versionFlags
  let size ← word32
  if size = 0 then
    let sizes ← table word32
    pure ⟨sizes⟩
  else
    let count ← number 4
    pure ⟨List.replicate count size⟩

theorem reads_sampleSizes {box : SampleSizes}
    (h : Format.size box ≤ maxWord32) :
    Reads SampleSizes.reader (content box) box := by
  have hcount : box.sizes.length ≤ maxWord32 := by
    have hsize : Format.size box = 12 + 4 + 4 + 4 * box.sizes.length := rfl
    omega
  refine (takes_versionFlags (by decide)).bind_reads ?_
  refine (takes_word32 0).bind_reads ?_
  exact (reads_table takes_word32 hcount).map

def GroupRun.reader : Reader GroupRun := do
  let count ← word32
  let groupIndex ← word32
  pure ⟨count, groupIndex⟩

def SampleToGroup.reader : Reader SampleToGroup := do
  let _ ← versionFlags
  let groupingType ← fourCC
  let runs ← table GroupRun.reader
  pure ⟨groupingType, runs⟩

theorem reads_sampleToGroup {box : SampleToGroup}
    (h : Format.size box ≤ maxWord32) :
    Reads SampleToGroup.reader (content box) box := by
  have hcount : box.runs.length ≤ maxWord32 := by
    have hsize : Format.size box = 12 + 4 + 4 + 8 * box.runs.length := rfl
    omega
  refine (takes_versionFlags (by decide)).bind_reads ?_
  refine (takes_fourCC _).bind_reads ?_
  refine (reads_table (fun run => ?_) hcount).map
  exact (takes_word32 _).bind (takes_word32 _).map

def SampleGroups.reader : Reader SampleGroups := do
  let _ ← versionFlags
  let groupingType ← fourCC
  let rollDistances ← table int16
  pure ⟨groupingType, rollDistances⟩

theorem reads_sampleGroups {box : SampleGroups}
    (h : Format.size box ≤ maxWord32) :
    Reads SampleGroups.reader (content box) box := by
  have hcount : box.rollDistances.length ≤ maxWord32 := by
    have hsize : Format.size box
        = 12 + 4 + 4 + 2 * box.rollDistances.length := rfl
    omega
  refine (takes_versionFlags (by decide)).bind_reads ?_
  refine (takes_fourCC _).bind_reads ?_
  exact (reads_table takes_int16 hcount).map

/-- A table of chunk offsets and nothing else. -/
def offsetsReader {α : Type} (offset : Reader α) : Reader (List α) := do
  let _ ← versionFlags
  table offset

/-- The chunk offsets, in whichever table there is. -/
def ChunkOffsets.read? (parts : List Part) : Option ChunkOffsets := do
  match ← childOption (.ofChars 's' 't' 'c' 'o') (offsetsReader word32)
    parts with
  | some offsets => pure (.narrow offsets)
  | none =>
    let offsets ← child (.ofChars 'c' 'o' '6' '4') (offsetsReader word64)
      parts
    pure (.wide offsets)

def SampleTables.reader : Reader SampleTables :=
  boxes fun parts => do
    let description ← child (.ofChars 's' 't' 's' 'd')
      SampleDescription.reader parts
    let sampleToGroup? ← childOption (.ofChars 's' 'b' 'g' 'p')
      SampleToGroup.reader parts
    let groups? ← childOption (.ofChars 's' 'g' 'p' 'd')
      SampleGroups.reader parts
    let timeToSample ← child (.ofChars 's' 't' 't' 's')
      TimeToSample.reader parts
    let sampleToChunk ← child (.ofChars 's' 't' 's' 'c')
      SampleToChunk.reader parts
    let sampleSizes ← child (.ofChars 's' 't' 's' 'z')
      SampleSizes.reader parts
    let chunkOffsets ← ChunkOffsets.read? parts
    pure ⟨description, sampleToGroup?, groups?, timeToSample, sampleToChunk,
      sampleSizes, chunkOffsets⟩

def SampleTables.Lossless (box : SampleTables) : Prop :=
  box.description.Lossless

instance SampleTables.decidableLossless (box : SampleTables) :
    Decidable box.Lossless :=
  inferInstanceAs (Decidable box.description.Lossless)

theorem reads_offsets {α : Type} {offset : Reader α} {write : α → Bytes}
    (h : ∀ a, Takes offset (write a) a) {offsets : List α}
    (hcount : offsets.length ≤ maxWord32) :
    Reads (offsetsReader offset)
      (VersionFlags.plain.encode ++ countedList write offsets) offsets :=
  (takes_versionFlags (by decide)).bind_reads (reads_table h hcount)

/-- The offsets are found among the boxes if no other box has the kind of
the tables. -/
theorem read_chunkOffsets {box : ChunkOffsets} {parts : List Part}
    (hsize : Format.size box ≤ maxWord32)
    (hnarrow : Part.payload? (.ofChars 's' 't' 'c' 'o') parts
      = if box.isWide then none else some (content box))
    (hwide : Part.payload? (.ofChars 'c' 'o' '6' '4') parts
      = if box.isWide then some (content box) else none) :
    ChunkOffsets.read? parts = some box := by
  have hcount := length_offsets_le box
  cases box with
  | narrow offsets =>
      have hoffsets : Reads (offsetsReader word32)
          (content (ChunkOffsets.narrow offsets)) offsets := by
        refine reads_offsets takes_word32 ?_
        have hlist : (ChunkOffsets.narrow offsets).toList.length
            = offsets.length := List.length_map _
        omega
      have hread : childOption (.ofChars 's' 't' 'c' 'o')
          (offsetsReader word32) parts = some (some offsets) := by
        unfold childOption
        rw [hnarrow]
        show (whole? _ (content (ChunkOffsets.narrow offsets))).map some = _
        rw [whole?_of_reads hoffsets]
        rfl
      unfold ChunkOffsets.read?
      rw [hread]
      rfl
  | wide offsets =>
      have hoffsets : Reads (offsetsReader word64)
          (content (ChunkOffsets.wide offsets)) offsets := by
        refine reads_offsets takes_word64 ?_
        have hlist : (ChunkOffsets.wide offsets).toList.length
            = offsets.length := List.length_map _
        omega
      have hnone : childOption (.ofChars 's' 't' 'c' 'o')
          (offsetsReader word32) parts = some none := by
        unfold childOption
        rw [hnarrow]
        rfl
      unfold ChunkOffsets.read?
      rw [hnone, Option.bind_eq_bind, Option.bind_some]
      dsimp only
      rw [child_of hwide hoffsets]
      rfl

/-- The boxes of sample groups are found where they should be, or
nowhere. -/
theorem childOption_sampleToGroup {box : SampleTables}
    (hsize : Format.size box ≤ maxWord32) :
    (walk (content box)).bind
        (childOption (.ofChars 's' 'b' 'g' 'p') SampleToGroup.reader)
      = some box.sampleToGroup? := by
  have hsplit : Format.size box = 8 + Format.size box.description +
      sizeOption box.sampleToGroup? + sizeOption box.groups? +
      Format.size box.timeToSample + Format.size box.sampleToChunk +
      Format.size box.sampleSizes + Format.size box.chunkOffsets := rfl
  rw [walk_sampleTables hsize, Option.bind_some]
  refine childOption_self ?_ fun group hmem => ?_
  · cases box.sampleToGroup? <;> cases box.groups? <;>
      cases box.chunkOffsets <;> rfl
  · have hfits := size_le_sizeOption hmem
    exact reads_sampleToGroup (by omega)

theorem childOption_groups {box : SampleTables}
    (hsize : Format.size box ≤ maxWord32) :
    (walk (content box)).bind
        (childOption (.ofChars 's' 'g' 'p' 'd') SampleGroups.reader)
      = some box.groups? := by
  have hsplit : Format.size box = 8 + Format.size box.description +
      sizeOption box.sampleToGroup? + sizeOption box.groups? +
      Format.size box.timeToSample + Format.size box.sampleToChunk +
      Format.size box.sampleSizes + Format.size box.chunkOffsets := rfl
  rw [walk_sampleTables hsize, Option.bind_some]
  refine childOption_self ?_ fun groups hmem => ?_
  · cases box.sampleToGroup? <;> cases box.groups? <;>
      cases box.chunkOffsets <;> rfl
  · have hfits := size_le_sizeOption hmem
    exact reads_sampleGroups (by omega)

theorem reads_sampleTables {box : SampleTables}
    (hsize : Format.size box ≤ maxWord32) (h : box.Lossless) :
    Reads SampleTables.reader (content box) box := by
  have hsplit : Format.size box = 8 + Format.size box.description +
      sizeOption box.sampleToGroup? + sizeOption box.groups? +
      Format.size box.timeToSample + Format.size box.sampleToChunk +
      Format.size box.sampleSizes + Format.size box.chunkOffsets := rfl
  obtain ⟨description, sampleToGroup?, groups?, times, chunks, sizes,
    offsets⟩ := box
  dsimp only at hsplit
  have hdescription := reads_sampleDescription
    (show Format.size description ≤ maxWord32 by omega) h
  have htimes := reads_timeToSample
    (show Format.size times ≤ maxWord32 by omega)
  have hchunks := reads_sampleToChunk
    (show Format.size chunks ≤ maxWord32 by omega)
  have hsizes := reads_sampleSizes
    (show Format.size sizes ≤ maxWord32 by omega)
  have hoffsets : Format.size offsets ≤ maxWord32 := by omega
  have hread₂ := childOption_sampleToGroup hsize
  have hread₃ := childOption_groups hsize
  rw [walk_sampleTables hsize, Option.bind_some] at hread₂ hread₃
  refine reads_boxes (walk_sampleTables hsize) ?_
  dsimp only at hread₂ hread₃ ⊢
  generalize hparts : Part.of description :: _ = parts at hread₂ hread₃ ⊢
  have hread₁ : child (.ofChars 's' 't' 's' 'd') SampleDescription.reader
      parts = some description := by
    subst hparts
    exact child_of (payload?_cons rfl) hdescription
  have hread₄ : child (.ofChars 's' 't' 't' 's') TimeToSample.reader parts
      = some times := by
    refine child_of ?_ htimes
    subst hparts
    cases sampleToGroup? <;> cases groups? <;> rfl
  have hread₅ : child (.ofChars 's' 't' 's' 'c') SampleToChunk.reader parts
      = some chunks := by
    refine child_of ?_ hchunks
    subst hparts
    cases sampleToGroup? <;> cases groups? <;> rfl
  have hread₆ : child (.ofChars 's' 't' 's' 'z') SampleSizes.reader parts
      = some sizes := by
    refine child_of ?_ hsizes
    subst hparts
    cases sampleToGroup? <;> cases groups? <;> rfl
  have hread₇ : ChunkOffsets.read? parts = some offsets := by
    subst hparts
    refine read_chunkOffsets hoffsets ?_ ?_
    · cases sampleToGroup? <;> cases groups? <;> cases offsets <;> rfl
    · cases sampleToGroup? <;> cases groups? <;> cases offsets <;> rfl
  rw [hread₁, hread₂, hread₃, hread₄, hread₅, hread₆, hread₇]
  rfl

end AudioMux.Box
