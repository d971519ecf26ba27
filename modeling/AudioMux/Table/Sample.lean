/-
The samples of a track.

Samples are only ever added, and what is asked most often concerns the
newest of them, so the table keeps the newest first. `toList` gives
them in the order they were added, which is the order they are played
in.
-/
import AudioMux.Box.SampleTable
import AudioMux.MediaTime

namespace AudioMux

/-- One access unit: its size in bytes, and its duration in ticks of the
track. -/
structure Sample where
  size : UInt32
  duration : UInt32
  deriving DecidableEq, Repr

/-- All samples of a track so far. -/
structure SampleTable where
  newestFirst : List Sample
  deriving DecidableEq, Repr

namespace SampleTable

/-- A table without samples. -/
def empty : SampleTable := ⟨[]⟩

/-- Adds a sample. -/
def push (table : SampleTable) (sample : Sample) : SampleTable :=
  ⟨sample :: table.newestFirst⟩

/-- The samples in the order they were added. -/
def toList (table : SampleTable) : List Sample :=
  table.newestFirst.reverse

/-- The number of samples. -/
def length (table : SampleTable) : Nat := table.newestFirst.length

/-- Whether there are no samples. -/
def isEmpty (table : SampleTable) : Bool := table.newestFirst.isEmpty

/-- The duration of all samples. -/
def duration (table : SampleTable) : Nat :=
  table.newestFirst.foldr
    (fun sample duration => sample.duration.toNat + duration) 0

/-- The size of the largest sample, zero without samples. -/
def maxSize (table : SampleTable) : UInt32 :=
  table.newestFirst.foldl (fun size sample => max size sample.size) 0

/-- The size and duration of the newest samples that together last at
least `goal` ticks, added to what was gathered so far. If all of them
last less, it is all of them. -/
def trailing (goal : Nat) (size duration : Nat) :
    List Sample → Nat × Nat
  | [] => (size, duration)
  | sample :: older =>
    if goal ≤ duration then (size, duration)
    else trailing goal (size + sample.size.toNat)
      (duration + sample.duration.toNat) older

/-- The bit rate of the last second. -/
def trailingBitrate (table : SampleTable) (timescale : UInt32) : UInt32 :=
  let (size, duration) := trailing timescale.toNat 0 0 table.newestFirst
  bitrate size duration timescale

/-- Adds a duration in front of runs of equal durations. -/
def addToRuns (duration : UInt32) :
    List (Nat × UInt32) → List (Nat × UInt32)
  | [] => [(1, duration)]
  | (count, delta) :: runs =>
    if delta = duration then (count + 1, delta) :: runs
    else (1, duration) :: (count, delta) :: runs

/-- The durations in runs of equal ones. -/
def timeToSample (table : SampleTable) : Box.TimeToSample :=
  let runs := table.newestFirst.foldl
    (fun runs sample => addToRuns sample.duration runs) []
  ⟨runs.map fun (count, delta) => ⟨UInt32.ofNat count, delta⟩⟩

/-- The size of each sample. -/
def sampleSizes (table : SampleTable) : Box.SampleSizes :=
  ⟨table.toList.map Sample.size⟩

end SampleTable

end AudioMux
