/-
The runs of a table are as few as they can be, and each chunk is found.

Equal neighbours always share a run: a duration joins the run it is added
in front of if it can (`Tight.addToRuns`), and a chunk starts a run only if
its count is not that of the chunk before (`count_ne_of_mem_head?`).
Whatever a list of runs is, what it tells has no more changes than it has
runs, and in such a table each run is a change. So no fewer runs tell the
same (`TimeToSample.Tells.fewest`, `SampleToChunk.Tells.fewest`).

A reader of the chunks' counts need not expand them. It takes the last run
that starts at the chunk or before it (`runAt?`). Runs start one behind the
other, so all that start too late come last, and the chunk's own is in front
of them. The induction goes along the chunks; what carries it is that
before the first run starts the count of the chunk before goes on
(`count_runAt?_sampleRuns`).
-/
import Mathlib.Algebra.Ring.Nat
import Mathlib.Data.List.Chain
import Mathlib.Data.List.Induction
import AudioMux.Proofs.Table.Expansion

namespace AudioMux

-- ============================================================ the statement

namespace Box

/-- The runs expand to the durations of these samples. -/
def TimeToSample.Tells (box : TimeToSample) (samples : List Sample) : Prop :=
  expandRuns (box.runs.map fun run => (run.count.toNat, run.delta.toNat))
    = samples.map fun sample => sample.duration.toNat

/-- The run that a chunk belongs to, with chunks counted from 1: the last
one that starts at the chunk or before it. -/
def SampleToChunk.runAt? (number : Nat) (box : SampleToChunk) :
    Option ChunkRun :=
  box.runs.findRev? fun run => run.firstChunk.toNat ≤ number

/-- The run of each of these chunks has the chunk's count. -/
def SampleToChunk.Tells (box : SampleToChunk) (chunks : List Chunk) : Prop :=
  ∀ (i : Nat) (chunk : Chunk), chunks[i]? = some chunk →
    (box.runAt? (i + 1)).map (fun run => run.samplesPerChunk.toNat)
      = some chunk.samples

/-- The runs tell the durations of these samples. None of them is empty,
neighbouring runs have different durations, and no fewer would do. -/
structure TimeToSample.Codes (box : TimeToSample) (samples : List Sample) :
    Prop where
  tells : box.Tells samples
  positive : ∀ run ∈ box.runs, 0 < run.count
  distinct : box.runs.IsChain fun run next => run.delta ≠ next.delta
  fewest : ∀ other : TimeToSample, other.Tells samples →
    box.runs.length ≤ other.runs.length

/-- The runs tell the counts of these chunks. They start with the first
chunk, one behind the other, neighbouring runs have different counts, and no
fewer would do. -/
structure SampleToChunk.Codes (box : SampleToChunk) (chunks : List Chunk) :
    Prop where
  tells : box.Tells chunks
  first : ∀ run ∈ box.runs.head?, run.firstChunk = 1
  increasing : box.runs.Pairwise fun run later =>
    run.firstChunk < later.firstChunk
  distinct : box.runs.IsChain fun run next =>
    run.samplesPerChunk ≠ next.samplesPerChunk
  fewest : ∀ other : SampleToChunk, other.Tells chunks →
    box.runs.length ≤ other.runs.length

end Box

namespace Box.SampleToChunk

/-- Of runs behind one that comes last, the one that comes last is asked
first. -/
theorem runAt?_concat (runs : List ChunkRun) (last : ChunkRun)
    (number : Nat) :
    runAt? number ⟨runs ++ [last]⟩
      = if last.firstChunk.toNat ≤ number then some last
        else runAt? number ⟨runs⟩ := by
  unfold runAt?
  simp only [List.findRev?_eq_find?_reverse, List.reverse_append,
    List.reverse_singleton, List.singleton_append, List.find?_cons]
  by_cases hstart : last.firstChunk.toNat ≤ number
  · simp only [hstart, decide_true, if_true]
  · simp only [hstart, decide_false, if_false]

/-- The first run is for the chunks that none of the others is for. -/
theorem runAt?_cons {first : ChunkRun} {number : Nat}
    (h : first.firstChunk.toNat ≤ number) (runs : List ChunkRun) :
    runAt? number ⟨first :: runs⟩
      = (runAt? number ⟨runs⟩).or (some first) := by
  have hfirst :
      [first].find? (fun run => run.firstChunk.toNat ≤ number) = some first :=
    List.find?_cons_of_pos (decide_eq_true h)
  unfold runAt?
  rw [List.findRev?_eq_find?_reverse, List.findRev?_eq_find?_reverse,
    List.reverse_cons, List.find?_append, hfirst]

theorem runAt?_eq_none {runs : List ChunkRun} {number : Nat}
    (h : ∀ run ∈ runs, number < run.firstChunk.toNat) :
    runAt? number ⟨runs⟩ = none := by
  unfold runAt?
  rw [List.findRev?_eq_find?_reverse, List.find?_eq_none]
  intro run hrun
  have hlate := h run (List.mem_reverse.mp hrun)
  rw [decide_eq_true_iff]
  omega

end Box.SampleToChunk

-- =================================================================== fewest

/-- Values of which no two neighbours are equal take at most one out of
equal ones. -/
theorem length_le_one_of_sublist_replicate {α : Type} {values : List α}
    {count : Nat} {value : α} (hchain : values.IsChain (· ≠ ·))
    (hsub : values.Sublist (List.replicate count value)) :
    values.length ≤ 1 := by
  obtain ⟨taken, -, rfl⟩ := List.sublist_replicate_iff.mp hsub
  rw [List.length_replicate]
  match taken with
  | 0 => exact Nat.zero_le 1
  | 1 => exact Nat.le_refl 1
  | taken + 2 => exact absurd rfl (List.isChain_cons_cons.mp hchain).1

/-- They take at most one out of each run. -/
theorem length_le_of_sublist_expandRuns {values : List Nat}
    {runs : List (Nat × Nat)} (hchain : values.IsChain (· ≠ ·))
    (hsub : values.Sublist (expandRuns runs)) :
    values.length ≤ runs.length := by
  induction runs generalizing values with
  | nil =>
      rw [List.sublist_nil.mp hsub]
      exact Nat.le_refl 0
  | cons run runs ih =>
      rw [expandRuns_cons] at hsub
      obtain ⟨front, back, rfl, hfront, hback⟩ :=
        List.sublist_append_iff.mp hsub
      have hone :=
        length_le_one_of_sublist_replicate hchain.left_of_append hfront
      have hrest := ih hchain.right_of_append hback
      rw [List.length_append, List.length_cons]
      omega

theorem values_sublist_expandRuns {runs : List (Nat × Nat)}
    (h : ∀ run ∈ runs, 0 < run.1) :
    (runs.map Prod.snd).Sublist (expandRuns runs) := by
  induction runs with
  | nil => exact List.nil_sublist []
  | cons run runs ih =>
      obtain ⟨count, value⟩ := run
      have hrest := ih fun other hother =>
        h other (List.mem_cons_of_mem _ hother)
      obtain ⟨more, rfl⟩ : ∃ more, count = more + 1 :=
        Nat.exists_eq_add_one.mpr (h _ List.mem_cons_self)
      rw [expandRuns_cons, List.replicate_succ]
      exact (hrest.trans (List.sublist_append_right _ _)).cons_cons value

/-- Runs that are not empty and of which no two neighbours are alike are the
fewest that tell the same. -/
theorem Box.TimeToSample.Tells.fewest {box other : TimeToSample}
    {samples : List Sample} (h : box.Tells samples)
    (hother : other.Tells samples)
    (hpositive : ∀ run ∈ box.runs, 0 < run.count)
    (hdistinct : box.runs.IsChain fun run next => run.delta ≠ next.delta) :
    box.runs.length ≤ other.runs.length := by
  have hfilled : ∀ run ∈ box.runs.map fun run =>
      (run.count.toNat, run.delta.toNat), 0 < run.1 := by
    intro run hrun
    obtain ⟨coded, hcoded, rfl⟩ := List.mem_map.mp hrun
    exact UInt32.lt_iff_toNat_lt.mp (hpositive coded hcoded)
  have hsub := values_sublist_expandRuns hfilled
  rw [h.trans hother.symm, List.map_map] at hsub
  have hchain : (box.runs.map fun run => run.delta.toNat).IsChain (· ≠ ·) :=
    (List.isChain_map _).mpr (hdistinct.imp fun _ _ hne hsame =>
      hne (UInt32.toNat_inj.mp hsame))
  have hle := length_le_of_sublist_expandRuns hchain hsub
  rw [List.length_map, List.length_map] at hle
  exact hle

/-- The counts that a reader finds for chunks with numbers from `start`
on. -/
def lookups (runs : List Box.ChunkRun) (start length : Nat) :
    List (Option Nat) :=
  (List.range' start length).map fun number =>
    (Box.SampleToChunk.runAt? number ⟨runs⟩).map fun run =>
      run.samplesPerChunk.toNat

/-- From where the last run starts all chunks have its count. -/
theorem lookups_concat (runs : List Box.ChunkRun) (last : Box.ChunkRun)
    (start length : Nat) :
    ∃ early late, lookups (runs ++ [last]) start length
      = lookups runs start early
        ++ List.replicate late (some last.samplesPerChunk.toNat) := by
  let early := min length (last.firstChunk.toNat - start)
  refine ⟨early, length - early, ?_⟩
  have hsplit : List.range' start length = List.range' start early
      ++ List.range' (start + early) (length - early) := by
    rw [List.range'_append_1]
    congr 1
    omega
  unfold lookups
  rw [hsplit, List.map_append]
  congr 1
  · refine List.map_congr_left fun number hnumber => ?_
    rw [List.mem_range'_1] at hnumber
    rw [Box.SampleToChunk.runAt?_concat, if_neg (by omega)]
  · rw [List.eq_replicate_iff, List.length_map, List.length_range']
    refine ⟨rfl, fun count hcount => ?_⟩
    obtain ⟨number, hnumber, rfl⟩ := List.mem_map.mp hcount
    rw [List.mem_range'_1] at hnumber
    rw [Box.SampleToChunk.runAt?_concat, if_pos (by omega)]
    rfl

/-- Counts of which no two neighbours are equal take at most one from the
chunks of each run. -/
theorem length_le_of_sublist_lookups {values : List (Option Nat)}
    {runs : List Box.ChunkRun} {start length : Nat}
    (hchain : values.IsChain (· ≠ ·)) (hthere : none ∉ values)
    (hsub : values.Sublist (lookups runs start length)) :
    values.length ≤ runs.length := by
  induction runs using List.reverseRecOn generalizing values length with
  | nil =>
      have hnone : ∀ value ∈ values, value = none := by
        intro value hvalue
        obtain ⟨number, -, rfl⟩ := List.mem_map.mp (hsub.subset hvalue)
        rfl
      cases values with
      | nil => exact Nat.le_refl 0
      | cons value values =>
          have hfirst := hnone value List.mem_cons_self
          exact absurd (hfirst ▸ List.mem_cons_self) hthere
  | append_singleton runs last ih =>
      obtain ⟨early, late, hlookups⟩ :=
        lookups_concat runs last start length
      rw [hlookups] at hsub
      obtain ⟨front, back, rfl, hfront, hback⟩ :=
        List.sublist_append_iff.mp hsub
      have hone :=
        length_le_one_of_sublist_replicate hchain.right_of_append hback
      have hrest := ih hchain.left_of_append
        (fun hmem => hthere (List.mem_append_left _ hmem)) hfront
      rw [List.length_append, List.length_append, List.length_singleton]
      omega

/-- A reader that finds each chunk finds its count. -/
theorem Box.SampleToChunk.Tells.lookups_eq {box : SampleToChunk}
    {chunks : List Chunk} (h : box.Tells chunks) :
    lookups box.runs 1 chunks.length
      = chunks.map fun chunk => some chunk.samples := by
  refine List.ext_getElem? fun i => ?_
  unfold lookups
  rw [List.getElem?_map, List.getElem?_map]
  cases hchunk : chunks[i]? with
  | none =>
      rw [List.getElem?_eq_none_iff] at hchunk
      rw [List.getElem?_eq_none]
      · rfl
      · rw [List.length_range']
        exact hchunk
  | some chunk =>
      have hi := (List.getElem?_eq_some_iff.mp hchunk).1
      rw [List.getElem?_range' hi, Nat.one_mul, Nat.add_comm]
      exact congrArg some (h i chunk hchunk)

/-- Runs that come from the chunks and of which no two neighbours are alike
are the fewest that tell the same. -/
theorem Box.SampleToChunk.Tells.fewest {box other : SampleToChunk}
    {chunks : List Chunk} (hother : other.Tells chunks)
    (hdistinct : box.runs.IsChain fun run next =>
      run.samplesPerChunk ≠ next.samplesPerChunk)
    (hsub : (box.runs.map fun run => some run.samplesPerChunk.toNat).Sublist
      (chunks.map fun chunk => some chunk.samples)) :
    box.runs.length ≤ other.runs.length := by
  rw [← hother.lookups_eq] at hsub
  have hchain : (box.runs.map fun run =>
      some run.samplesPerChunk.toNat).IsChain (· ≠ ·) :=
    (List.isChain_map _).mpr (hdistinct.imp fun _ _ hne hsame =>
      hne (UInt32.toNat_inj.mp (Option.some_inj.mp hsame)))
  have hle := length_le_of_sublist_lookups hchain (by simp) hsub
  rw [List.length_map] at hle
  exact hle

-- =============================================================== durations

namespace SampleTable

/-- No run is empty, and neighbouring runs have different durations. -/
structure Tight (runs : List (Nat × UInt32)) : Prop where
  positive : ∀ run ∈ runs, 0 < run.1
  distinct : runs.IsChain fun run next => run.2 ≠ next.2

theorem tight_nil : Tight [] := ⟨nofun, .nil⟩

theorem Tight.addToRuns {runs : List (Nat × UInt32)} (h : Tight runs)
    (duration : UInt32) : Tight (addToRuns duration runs) := by
  cases runs with
  | nil =>
      refine ⟨fun run hrun => ?_, .singleton _⟩
      obtain rfl := List.mem_singleton.mp hrun
      exact Nat.one_pos
  | cons run runs =>
      obtain ⟨count, delta⟩ := run
      unfold SampleTable.addToRuns
      dsimp only
      split
      -- Only the count of the first run grows, which its neighbour does not
      -- look at.
      · refine ⟨fun run hrun => ?_,
          h.distinct.imp_head (x := (count, delta)) (y := (count + 1, delta))
            fun hne => hne⟩
        rcases List.mem_cons.mp hrun with rfl | hold
        · exact Nat.succ_pos count
        · exact h.positive run (List.mem_cons_of_mem _ hold)
      · next hdiff =>
        refine ⟨fun run hrun => ?_, .cons_cons (Ne.symm hdiff) h.distinct⟩
        rcases List.mem_cons.mp hrun with rfl | hold
        · exact Nat.one_pos
        · exact h.positive run hold

theorem tight_foldl {runs : List (Nat × UInt32)} (h : Tight runs)
    (samples : List Sample) :
    Tight (samples.foldl
      (fun runs sample => SampleTable.addToRuns sample.duration runs)
      runs) := by
  induction samples generalizing runs with
  | nil => exact h
  | cons sample samples ih => exact ih (h.addToRuns sample.duration)

theorem positive_timeToSample {table : SampleTable}
    (h : table.length ≤ Box.maxWord32) :
    ∀ run ∈ table.timeToSample.runs, 0 < run.count := by
  intro run hrun
  obtain ⟨plain, hplain, rfl⟩ := List.mem_map.mp hrun
  show (0 : UInt32).toNat < (UInt32.ofNat plain.1).toNat
  rw [toNat_count h hplain]
  exact (tight_foldl tight_nil table.newestFirst).positive plain hplain

theorem isChain_timeToSample (table : SampleTable) :
    table.timeToSample.runs.IsChain fun run next => run.delta ≠ next.delta :=
  (List.isChain_map _).mpr (tight_foldl tight_nil table.newestFirst).distinct

/-- The durations of a table are coded as tightly as they can be. -/
theorem codes_timeToSample {table : SampleTable}
    (h : table.length ≤ Box.maxWord32) :
    table.timeToSample.Codes table.toList := by
  have htells : table.timeToSample.Tells table.toList :=
    expandRuns_timeToSample table h
  have hpositive := positive_timeToSample h
  have hdistinct := isChain_timeToSample table
  exact ⟨htells, hpositive, hdistinct, fun _ hother =>
    htells.fewest hother hpositive hdistinct⟩

end SampleTable

-- ================================================================== chunks

namespace ChunkTable

variable {chunks : List Chunk}

theorem le_firstChunk (number : Nat) (previous? : Option Nat)
    (h : number + chunks.length ≤ UInt32.size) :
    ∀ run ∈ sampleRuns number previous? chunks,
      number ≤ run.firstChunk.toNat :=
  fun run hrun => le_first_of_mem_sampleRuns number previous? h
    (plainRun run) (List.mem_map_of_mem hrun)

/-- Runs start one behind the other. -/
theorem pairwise_sampleRuns (number : Nat) (previous? : Option Nat)
    (h : number + chunks.length ≤ UInt32.size) :
    (sampleRuns number previous? chunks).Pairwise fun run later =>
      run.firstChunk < later.firstChunk := by
  induction chunks generalizing number previous? with
  | nil => exact .nil
  | cons chunk chunks ih =>
      rw [List.length_cons] at h
      have hrest := ih (number + 1) (some chunk.samples) (by omega)
      unfold sampleRuns
      dsimp only
      split
      · exact hrest
      · refine .cons (fun later hlater => ?_) hrest
        have hstart := le_firstChunk (number + 1) (some chunk.samples)
          (by omega) later hlater
        show (UInt32.ofNat number).toNat < later.firstChunk.toNat
        rw [UInt32.toNat_ofNat_of_lt' (by omega)]
        exact hstart

/-- Another run starts with another count. -/
theorem count_ne_of_mem_head? (number count : Nat)
    (hsamples : ∀ chunk ∈ chunks, chunk.samples < UInt32.size) :
    ∀ run ∈ (sampleRuns number (some count) chunks).head?,
      run.samplesPerChunk.toNat ≠ count := by
  induction chunks generalizing number with
  | nil => nofun
  | cons chunk chunks ih =>
      obtain ⟨hfits, hlater⟩ := List.forall_mem_cons.mp hsamples
      unfold sampleRuns
      dsimp only
      split
      · next hsame =>
        rw [← Option.some_inj.mp hsame]
        exact ih (number + 1) hlater
      · next hdiff =>
        rintro run hrun hcount
        obtain rfl := Option.some_inj.mp hrun
        apply hdiff
        rw [← hcount]
        exact congrArg some (UInt32.toNat_ofNat_of_lt' hfits)

/-- Neighbouring runs have different counts. -/
theorem isChain_sampleRuns (number : Nat) (previous? : Option Nat)
    (hsamples : ∀ chunk ∈ chunks, chunk.samples < UInt32.size) :
    (sampleRuns number previous? chunks).IsChain fun run next =>
      run.samplesPerChunk ≠ next.samplesPerChunk := by
  induction chunks generalizing number previous? with
  | nil => exact .nil
  | cons chunk chunks ih =>
      obtain ⟨hfits, hlater⟩ := List.forall_mem_cons.mp hsamples
      have hrest := ih (number + 1) (some chunk.samples) hlater
      unfold sampleRuns
      dsimp only
      split
      · exact hrest
      · refine hrest.cons fun next hnext hsame => ?_
        refine count_ne_of_mem_head? (number + 1) chunk.samples hlater next
          hnext ?_
        rw [← hsame]
        exact UInt32.toNat_ofNat_of_lt' hfits

/-- Each run has the count of the chunk that it starts with. -/
theorem counts_sublist_sampleRuns (number : Nat) (previous? : Option Nat)
    (hsamples : ∀ chunk ∈ chunks, chunk.samples < UInt32.size) :
    ((sampleRuns number previous? chunks).map fun run =>
        some run.samplesPerChunk.toNat).Sublist
      (chunks.map fun chunk => some chunk.samples) := by
  induction chunks generalizing number previous? with
  | nil => exact List.nil_sublist []
  | cons chunk chunks ih =>
      obtain ⟨hfits, hlater⟩ := List.forall_mem_cons.mp hsamples
      have hrest := ih (number + 1) (some chunk.samples) hlater
      have hcount : (UInt32.ofNat chunk.samples).toNat = chunk.samples :=
        UInt32.toNat_ofNat_of_lt' hfits
      unfold sampleRuns
      dsimp only
      split
      · exact hrest.cons _
      · rw [List.map_cons, hcount]
        exact hrest.cons_cons _

/-- The run of a chunk has the chunk's count. Before the first run starts
the count is that of the chunk before. -/
theorem count_runAt?_sampleRuns (number : Nat) (previous? : Option Nat)
    (h : number + chunks.length ≤ UInt32.size)
    (hsamples : ∀ chunk ∈ chunks, chunk.samples < UInt32.size)
    {i : Nat} {chunk : Chunk} (hchunk : chunks[i]? = some chunk) :
    ((Box.SampleToChunk.runAt? (number + i)
        ⟨sampleRuns number previous? chunks⟩).map fun run =>
          run.samplesPerChunk.toNat).or previous?
      = some chunk.samples := by
  induction chunks generalizing number previous? i with
  | nil => cases hchunk
  | cons first chunks ih =>
      rw [List.length_cons] at h
      obtain ⟨hfits, hlater⟩ := List.forall_mem_cons.mp hsamples
      -- What the runs of the other chunks say, after that of the first.
      have hrest : ((Box.SampleToChunk.runAt? (number + i)
          ⟨sampleRuns (number + 1) (some first.samples) chunks⟩).map
            fun run => run.samplesPerChunk.toNat).or (some first.samples)
          = some chunk.samples := by
        cases i with
        | zero =>
            obtain rfl : first = chunk := Option.some_inj.mp hchunk
            have hlate : ∀ run ∈
                sampleRuns (number + 1) (some first.samples) chunks,
                number < run.firstChunk.toNat :=
              le_firstChunk _ _ (by omega)
            rw [Nat.add_zero, Box.SampleToChunk.runAt?_eq_none hlate]
            rfl
        | succ i =>
            rw [← Nat.add_assoc, Nat.add_right_comm]
            exact ih (number + 1) (some first.samples) (by omega) hlater
              hchunk
      unfold sampleRuns
      dsimp only
      split
      · next hsame =>
        rw [hsame]
        exact hrest
      · have hnumber : (UInt32.ofNat number).toNat = number :=
          UInt32.toNat_ofNat_of_lt' (by omega)
        have hstart : (UInt32.ofNat number).toNat ≤ number + i := by
          rw [hnumber]
          exact Nat.le_add_right number i
        rw [← hrest, Box.SampleToChunk.runAt?_cons hstart]
        cases Box.SampleToChunk.runAt? (number + i) _ with
        | some run => rfl
        | none => exact congrArg some (UInt32.toNat_ofNat_of_lt' hfits)

/-- The counts of a table are coded as tightly as they can be. -/
theorem codes_sampleToChunk {table : ChunkTable}
    (h : table.length ≤ Box.maxWord32)
    (hsamples : ∀ chunk ∈ table.toList, chunk.samples ≤ Box.maxWord32) :
    table.sampleToChunk.Codes table.toList := by
  have hlength : 1 + table.toList.length ≤ UInt32.size := by
    unfold toList
    rw [List.length_reverse, Nat.add_comm]
    exact Nat.succ_le_succ h
  have hcounts : ∀ chunk ∈ table.toList, chunk.samples < UInt32.size :=
    fun chunk hchunk => Nat.lt_of_le_of_lt (hsamples chunk hchunk) (by decide)
  have hdistinct := isChain_sampleRuns 1 none hcounts
  have htells : table.sampleToChunk.Tells table.toList := by
    intro i chunk hchunk
    have hfound := count_runAt?_sampleRuns 1 none hlength hcounts hchunk
    rw [Option.or_none, Nat.add_comm] at hfound
    exact hfound
  have hfirst : ∀ run ∈ (sampleRuns 1 none table.toList).head?,
      run.firstChunk = 1 := by
    cases table.toList with
    | nil => nofun
    | cons chunk chunks =>
        intro run hrun
        obtain rfl := Option.some_inj.mp hrun
        rfl
  exact ⟨htells, hfirst, pairwise_sampleRuns 1 none hlength, hdistinct,
    fun _ hother => hother.fewest hdistinct
      (counts_sublist_sampleRuns 1 none hcounts)⟩

end ChunkTable

-- =================================================================== results

/-- The count of a chunk is a number of 32 bits. As long as samples and
chunks can be counted in as many, their tables in runs are right and as
tight as can be: the durations expand to those of the samples, and looking a
chunk up gives its number of samples. -/
theorem runs_code_tables {samples : SampleTable} {chunks : ChunkTable}
    (hsamples : samples.length < 2 ^ 32) (hchunks : chunks.length < 2 ^ 32)
    (hcounts : ∀ chunk ∈ chunks.toList, chunk.samples < 2 ^ 32) :
    samples.timeToSample.Codes samples.toList
      ∧ chunks.sampleToChunk.Codes chunks.toList := by
  have hmax : Box.maxWord32 + 1 = 2 ^ 32 := rfl
  refine ⟨SampleTable.codes_timeToSample (by omega),
    ChunkTable.codes_sampleToChunk (by omega) fun chunk hchunk => ?_⟩
  have := hcounts chunk hchunk
  omega

/-- Two durations that come and go. -/
def unevenSamples : SampleTable :=
  ⟨[⟨1, 512⟩, ⟨1, 1024⟩, ⟨1, 512⟩, ⟨1, 512⟩]⟩

/-- Three chunks of two samples and one with the sample that was left. -/
def unevenChunks : ChunkTable :=
  ⟨[⟨54, 1, 1, 200⟩, ⟨52, 2, 2, 400⟩, ⟨50, 2, 2, 400⟩, ⟨48, 2, 2, 400⟩], []⟩

theorem runs_code_tables_uneven :
    unevenSamples.timeToSample.runs = [⟨2, 512⟩, ⟨1, 1024⟩, ⟨1, 512⟩]
      ∧ unevenChunks.sampleToChunk.runs = [⟨1, 2, 1⟩, ⟨4, 1, 1⟩]
      ∧ unevenSamples.timeToSample.Codes unevenSamples.toList
      ∧ unevenChunks.sampleToChunk.Codes unevenChunks.toList :=
  ⟨by decide, by decide,
    runs_code_tables (by decide) (by decide) (by decide)⟩

end AudioMux
