/-
Run-length coded tables, expanded.

Two tables of a track are kept in runs: the durations of the samples and
the sample counts of the chunks. A reader that expands the runs gets each
sample's duration and each chunk's count back, provided that the counts
and the chunk numbers fit into 32 bits.
-/
import AudioMux.Table.Chunk
import AudioMux.Table.Sample

namespace AudioMux

-- =============================================================== durations

/-- As many copies of each value as its run has. -/
def expandRuns (runs : List (Nat × Nat)) : List Nat :=
  runs.flatMap fun (count, value) => List.replicate count value

theorem expandRuns_cons (count value : Nat) (runs : List (Nat × Nat)) :
    expandRuns ((count, value) :: runs)
      = List.replicate count value ++ expandRuns runs := rfl

/-- No run has more copies than there are values. -/
theorem le_length_expandRuns {runs : List (Nat × Nat)} {run : Nat × Nat}
    (h : run ∈ runs) : run.1 ≤ (expandRuns runs).length := by
  induction runs with
  | nil => cases h
  | cons first runs ih =>
      obtain ⟨count, value⟩ := first
      rw [expandRuns_cons, List.length_append, List.length_replicate]
      rcases List.mem_cons.mp h with rfl | hmem
      · exact Nat.le_add_right _ _
      · have := ih hmem
        omega

namespace SampleTable

/-- A run of durations as a reader finds it. -/
def plainRun (run : Nat × UInt32) : Nat × Nat := (run.1, run.2.toNat)

/-- A duration that is added to runs comes first when they are
expanded. -/
theorem expandRuns_addToRuns (duration : UInt32)
    (runs : List (Nat × UInt32)) :
    expandRuns ((addToRuns duration runs).map plainRun)
      = duration.toNat :: expandRuns (runs.map plainRun) := by
  cases runs with
  | nil => rfl
  | cons run runs =>
      obtain ⟨count, delta⟩ := run
      unfold addToRuns
      dsimp only
      split
      · next hsame =>
        rw [List.map_cons, List.map_cons, plainRun, plainRun,
          expandRuns_cons, expandRuns_cons, List.replicate_succ, hsame]
        rfl
      · rfl

/-- The runs of the table expand to the durations of its samples. -/
theorem expandRuns_runs (samples : List Sample)
    (runs : List (Nat × UInt32)) :
    expandRuns ((samples.foldl
        (fun runs sample => addToRuns sample.duration runs) runs).map
          plainRun)
      = (samples.reverse.map fun sample => sample.duration.toNat) ++
        expandRuns (runs.map plainRun) := by
  induction samples generalizing runs with
  | nil => rfl
  | cons sample samples ih =>
      rw [List.foldl_cons, ih, expandRuns_addToRuns, List.reverse_cons,
        List.map_append, List.append_assoc]
      rfl

/-- No run is longer than the table. -/
theorem count_le_length {table : SampleTable} {run : Nat × UInt32}
    (h : run ∈ table.newestFirst.foldl
      (fun runs sample => addToRuns sample.duration runs) []) :
    run.1 ≤ table.length := by
  have hlength := congrArg List.length
    (expandRuns_runs table.newestFirst [])
  have hcount :=
    le_length_expandRuns (List.mem_map_of_mem (f := plainRun) h)
  rw [hlength, List.length_append, List.length_map,
    List.length_reverse] at hcount
  exact hcount

/-- In a table that 32 bits can count they can count its runs. -/
theorem toNat_count {table : SampleTable} {run : Nat × UInt32}
    (h : table.length ≤ Box.maxWord32)
    (hrun : run ∈ table.newestFirst.foldl
      (fun runs sample => addToRuns sample.duration runs) []) :
    (UInt32.ofNat run.1).toNat = run.1 :=
  UInt32.toNat_ofNat_of_lt'
    (Nat.lt_of_le_of_lt (Nat.le_trans (count_le_length hrun) h) (by decide))

/-- The durations are what a reader makes of them. -/
theorem expandRuns_timeToSample (table : SampleTable)
    (h : table.length ≤ Box.maxWord32) :
    expandRuns (table.timeToSample.runs.map fun run =>
        (run.count.toNat, run.delta.toNat))
      = table.toList.map fun sample => sample.duration.toNat := by
  have hexpand := expandRuns_runs table.newestFirst []
  rw [List.map_nil, show expandRuns [] = [] from rfl, List.append_nil]
    at hexpand
  unfold timeToSample toList
  rw [← hexpand, List.map_map]
  refine congrArg expandRuns (List.map_congr_left fun run hrun => ?_)
  exact congrArg (·, run.2.toNat) (toNat_count h hrun)

end SampleTable

-- ================================================================== chunks

/-- The sample counts of `remaining` chunks, which are counted from
`number`. A run that starts at a chunk gives its count, and otherwise the
count of the chunk before goes on. -/
def chunkCounts : (remaining number current : Nat) → List (Nat × Nat) →
    List Nat
  | 0, _, _, _ => []
  | remaining + 1, number, current, [] =>
      current :: chunkCounts remaining (number + 1) current []
  | remaining + 1, number, current, (first, count) :: runs =>
      if first = number then
        count :: chunkCounts remaining (number + 1) count runs
      else
        current ::
          chunkCounts remaining (number + 1) current ((first, count) :: runs)

/-- Until the next run starts the count stays the same. -/
theorem chunkCounts_of_lt {remaining number current : Nat}
    {runs : List (Nat × Nat)} (h : ∀ run ∈ runs, number < run.1) :
    chunkCounts (remaining + 1) number current runs
      = current :: chunkCounts remaining (number + 1) current runs := by
  cases runs with
  | nil => rfl
  | cons run runs =>
      obtain ⟨first, count⟩ := run
      have hfirst : number < first := h _ List.mem_cons_self
      rw [chunkCounts, if_neg (by omega)]

namespace ChunkTable

/-- A run of sample counts as a reader finds it. -/
def plainRun (run : Box.ChunkRun) : Nat × Nat :=
  (run.firstChunk.toNat, run.samplesPerChunk.toNat)

/-- Runs start at the chunks that they are made of. -/
theorem le_first_of_mem_sampleRuns {chunks : List Chunk} (number : Nat)
    (previous? : Option Nat) (h : number + chunks.length ≤ UInt32.size) :
    ∀ run ∈ (sampleRuns number previous? chunks).map plainRun,
      number ≤ run.1 := by
  induction chunks generalizing number previous? with
  | nil => nofun
  | cons chunk chunks ih =>
      rw [List.length_cons] at h
      have hlater := ih (number + 1) (some chunk.samples) (by omega)
      intro run hrun
      unfold sampleRuns at hrun
      dsimp only at hrun
      split at hrun
      · have := hlater run hrun
        omega
      · rcases List.mem_cons.mp hrun with rfl | hmem
        · refine Nat.le_of_eq (Eq.symm ?_)
          exact UInt32.toNat_ofNat_of_lt' (by omega)
        · have := hlater run hmem
          omega

/-- The runs of chunks expand to their sample counts, if the chunk before
had the count that is current. -/
theorem chunkCounts_sampleRuns {chunks : List Chunk} (number : Nat)
    (previous? : Option Nat) (h : number + chunks.length ≤ UInt32.size)
    (hsamples : ∀ chunk ∈ chunks, chunk.samples < UInt32.size) :
    chunkCounts chunks.length number (previous?.getD 0)
        ((sampleRuns number previous? chunks).map plainRun)
      = chunks.map Chunk.samples := by
  induction chunks generalizing number previous? with
  | nil => rfl
  | cons chunk chunks ih =>
      rw [List.length_cons] at h
      have hrest := ih (number + 1) (some chunk.samples) (by omega)
        fun other hother => hsamples other (List.mem_cons_of_mem _ hother)
      have hlater := le_first_of_mem_sampleRuns (number + 1)
        (some chunk.samples)
        (show number + 1 + chunks.length ≤ UInt32.size by omega)
      rw [List.length_cons]
      unfold sampleRuns
      dsimp only
      split
      · next hsame =>
        rw [hsame, chunkCounts_of_lt hlater]
        exact congrArg (chunk.samples :: ·) hrest
      · have hnumber : (UInt32.ofNat number).toNat = number :=
          UInt32.toNat_ofNat_of_lt' (by omega)
        have hcount : (UInt32.ofNat chunk.samples).toNat = chunk.samples :=
          UInt32.toNat_ofNat_of_lt' (hsamples chunk List.mem_cons_self)
        rw [List.map_cons, plainRun, hnumber, hcount, chunkCounts,
          if_pos rfl]
        exact congrArg (chunk.samples :: ·) hrest

/-- The sample counts are what a reader makes of them. -/
theorem chunkCounts_sampleToChunk (table : ChunkTable)
    (h : table.length < Box.maxWord32)
    (hsamples : ∀ chunk ∈ table.toList, chunk.samples ≤ Box.maxWord32) :
    chunkCounts table.length 1 0
        (table.sampleToChunk.runs.map fun run =>
          (run.firstChunk.toNat, run.samplesPerChunk.toNat))
      = table.toList.map Chunk.samples := by
  have hlength : table.toList.length = table.length :=
    List.length_reverse
  rw [← hlength] at h ⊢
  refine chunkCounts_sampleRuns 1 none ?_ fun chunk hchunk => ?_
  · have hsize : UInt32.size = Box.maxWord32 + 1 := rfl
    omega
  · exact Nat.lt_of_le_of_lt (hsamples chunk hchunk) (by decide)

end ChunkTable

end AudioMux
