/-
The sample tables of a track: how its samples are coded, how long and
how large each one is, how they are gathered in chunks, and where the
chunks are. Durations and chunk lengths are run-length coded.
-/
import AudioMux.Box.SampleEntry

namespace AudioMux.Box

/-- The sample entry that all samples of a track use. -/
structure SampleDescription where
  entry : SampleEntry
  deriving DecidableEq, Repr

instance : Format SampleDescription where
  kind _ := .ofChars 's' 't' 's' 'd'
  full? _ := some .plain
  size box := 12 + 4 + Format.size box.entry
  body box := countedList encode [box.entry]

/-- `count` samples that each last `delta` ticks. -/
structure TimeRun where
  count : UInt32
  delta : UInt32
  deriving DecidableEq, Repr

/-- The durations of the samples, in runs. -/
structure TimeToSample where
  runs : List TimeRun
  deriving DecidableEq, Repr

instance : Format TimeToSample where
  kind _ := .ofChars 's' 't' 't' 's'
  full? _ := some .plain
  size box := 12 + 4 + 8 * box.runs.length
  body box := countedList
    (fun run => Bytes.word32 run.count ++ Bytes.word32 run.delta) box.runs

/-- From chunk `firstChunk` on, counted from 1, chunks hold
`samplesPerChunk` samples. -/
structure ChunkRun where
  firstChunk : UInt32
  samplesPerChunk : UInt32
  descriptionIndex : UInt32
  deriving DecidableEq, Repr

/-- The sample counts of the chunks, in runs. -/
structure SampleToChunk where
  runs : List ChunkRun
  deriving DecidableEq, Repr

instance : Format SampleToChunk where
  kind _ := .ofChars 's' 't' 's' 'c'
  full? _ := some .plain
  size box := 12 + 4 + 12 * box.runs.length
  body box := countedList
    (fun run => Bytes.word32 run.firstChunk ++
      Bytes.word32 run.samplesPerChunk ++ Bytes.word32 run.descriptionIndex)
    box.runs

/-- The size of each sample, always as a list. -/
structure SampleSizes where
  sizes : List UInt32
  deriving DecidableEq, Repr

/-- The word in front is the size of all samples, zero for a list. -/
instance : Format SampleSizes where
  kind _ := .ofChars 's' 't' 's' 'z'
  full? _ := some .plain
  size box := 12 + 4 + 4 + 4 * box.sizes.length
  body box := Bytes.zeros 4 ++ countedList Bytes.word32 box.sizes

/-- Where each chunk starts in the file, in 32 or in 64 bits. -/
inductive ChunkOffsets where
  | narrow (offsets : List UInt32)
  | wide (offsets : List UInt64)
  deriving DecidableEq, Repr

/-- Whether the offsets have 64 bits. -/
def ChunkOffsets.isWide : ChunkOffsets → Bool
  | .narrow _ => false
  | .wide _ => true

instance : Format ChunkOffsets where
  kind
    | .narrow _ => .ofChars 's' 't' 'c' 'o'
    | .wide _ => .ofChars 'c' 'o' '6' '4'
  full? _ := some .plain
  size
    | .narrow offsets => 12 + 4 + 4 * offsets.length
    | .wide offsets => 12 + 4 + 8 * offsets.length
  body
    | .narrow offsets => countedList Bytes.word32 offsets
    | .wide offsets => countedList Bytes.word64 offsets

/-- `count` samples that belong to group `groupIndex`. -/
structure GroupRun where
  count : UInt32
  groupIndex : UInt32
  deriving DecidableEq, Repr

/-- The code of groups by roll distance. -/
def rollGrouping : FourCC := .ofChars 'r' 'o' 'l' 'l'

/-- Which group each sample belongs to, in runs. -/
structure SampleToGroup where
  groupingType : FourCC
  runs : List GroupRun
  deriving DecidableEq, Repr

/-- All samples in the first group by roll distance. -/
def SampleToGroup.roll (sampleCount : UInt32) : SampleToGroup :=
  ⟨rollGrouping, [⟨sampleCount, 1⟩]⟩

instance : Format SampleToGroup where
  kind _ := .ofChars 's' 'b' 'g' 'p'
  full? _ := some .plain
  size box := 12 + 4 + 4 + 8 * box.runs.length
  body box := box.groupingType.bytes ++ countedList
    (fun run => Bytes.word32 run.count ++ Bytes.word32 run.groupIndex)
    box.runs

/-- The groups: how many samples before one must be decoded for it to
come out right, a roll distance a group. -/
structure SampleGroups where
  groupingType : FourCC
  rollDistances : List Int16
  deriving DecidableEq, Repr

/-- One group of the given roll distance. -/
def SampleGroups.roll (distance : Int16) : SampleGroups :=
  ⟨rollGrouping, [distance]⟩

instance : Format SampleGroups where
  kind _ := .ofChars 's' 'g' 'p' 'd'
  full? _ := some .plain
  size box := 12 + 4 + 4 + 2 * box.rollDistances.length
  body box := box.groupingType.bytes ++ countedList
    (fun distance => Bytes.word16 distance.toUInt16) box.rollDistances

/-- All sample tables of a track. The two boxes of sample groups are
there together or not at all. -/
structure SampleTables where
  description : SampleDescription
  sampleToGroup? : Option SampleToGroup
  groups? : Option SampleGroups
  timeToSample : TimeToSample
  sampleToChunk : SampleToChunk
  sampleSizes : SampleSizes
  chunkOffsets : ChunkOffsets
  deriving DecidableEq, Repr

instance : Format SampleTables where
  kind _ := .ofChars 's' 't' 'b' 'l'
  full? _ := none
  size box :=
    8 + Format.size box.description +
    sizeOption box.sampleToGroup? + sizeOption box.groups? +
    Format.size box.timeToSample + Format.size box.sampleToChunk +
    Format.size box.sampleSizes + Format.size box.chunkOffsets
  body box :=
    encode box.description ++
    encodeOption box.sampleToGroup? ++ encodeOption box.groups? ++
    encode box.timeToSample ++ encode box.sampleToChunk ++
    encode box.sampleSizes ++ encode box.chunkOffsets

end AudioMux.Box
