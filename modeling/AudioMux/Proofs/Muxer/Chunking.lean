/-
How the samples of a track are cut up into chunks.

A chunk takes samples as long as they last half a second at most, so the
chunks are the greedy way to cut up what was accepted (`IsGreedy`). There is
only one such way (`IsGreedy.unique`): if two of them first differed in some
part, the shorter of the two would have stopped short of a unit that still
fits, as the longer one shows.

Whether a sample needs a new chunk is decided from the newest chunk alone.
So an append either puts a part of its own behind a greedy cut
(`IsGreedy.split`) or joins the last part (`IsGreedy.join`), and the chunks
stay greedy whatever the durations are and whatever fails on the way
(`Made.exists_cut`). A sink that never fails decides nothing: what is
accepted can be told from the calls alone (`intake_make`).
-/
import Mathlib.Data.List.Chain
import AudioMux.Proofs.Muxer.TrackRun

namespace AudioMux

open Box (maxWord32)
open AccessUnit (payload totalDuration)

-- ============================================================= greedy cuts

namespace AccessUnit

/-- Units are cut up into parts that go on as long as a limit on their
duration allows. A unit that is longer than that is a part of its own. -/
structure IsGreedy (limit : Nat) (parts : List (List AccessUnit)) :
    Prop where
  nonempty : ∀ part ∈ parts, part ≠ []
  bounded : ∀ part ∈ parts, 2 ≤ part.length → totalDuration part ≤ limit
  tight : parts.IsChain fun part next => ∀ first ∈ next.head?,
    limit < totalDuration part + first.duration.toNat

/-- Whether parts are greedy can be looked up. -/
instance (limit : Nat) (parts : List (List AccessUnit)) :
    Decidable (IsGreedy limit parts) :=
  decidable_of_iff
    ((∀ part ∈ parts, part ≠ [])
      ∧ (∀ part ∈ parts, 2 ≤ part.length → totalDuration part ≤ limit)
      ∧ parts.IsChain fun part next => ∀ first ∈ next.head?,
          limit < totalDuration part + first.duration.toNat)
    ⟨fun ⟨hnonempty, hbounded, htight⟩ => ⟨hnonempty, hbounded, htight⟩,
      fun h => ⟨h.nonempty, h.bounded, h.tight⟩⟩

namespace IsGreedy

variable {limit : Nat} {part last : List AccessUnit}
  {parts others : List (List AccessUnit)} {unit : AccessUnit}

theorem nil (limit : Nat) : IsGreedy limit [] :=
  ⟨nofun, nofun, .nil⟩

theorem tail (h : IsGreedy limit (part :: parts)) :
    IsGreedy limit parts where
  nonempty := fun next hnext =>
    h.nonempty next (List.mem_cons_of_mem part hnext)
  bounded := fun next hnext =>
    h.bounded next (List.mem_cons_of_mem part hnext)
  tight := h.tight.tail

/-- A unit that does not fit into the last part starts another. -/
theorem split (h : IsGreedy limit parts)
    (hfull : ∀ last ∈ parts.getLast?,
      limit < totalDuration last + unit.duration.toNat) :
    IsGreedy limit (parts ++ [[unit]]) where
  nonempty := by
    intro part hpart
    rcases List.mem_append.mp hpart with hold | hnew
    · exact h.nonempty part hold
    · simp [List.mem_singleton.mp hnew]
  bounded := by
    intro part hpart hlength
    rcases List.mem_append.mp hpart with hold | hnew
    · exact h.bounded part hold hlength
    · simp [List.mem_singleton.mp hnew] at hlength
  tight := by
    apply List.isChain_append.mpr
    refine ⟨h.tight, .singleton _, ?_⟩
    intro last hlast next hnext first hfirst
    obtain rfl : [unit] = next := by simpa using hnext
    obtain rfl : unit = first := by simpa using hfirst
    exact hfull last hlast

/-- A unit that fits into the last part joins it. -/
theorem join (h : IsGreedy limit (parts ++ [last]))
    (hfits : totalDuration last + unit.duration.toNat ≤ limit) :
    IsGreedy limit (parts ++ [last ++ [unit]]) where
  nonempty := by
    intro part hpart
    rcases List.mem_append.mp hpart with hold | hnew
    · exact h.nonempty part (List.mem_append_left _ hold)
    · simp [List.mem_singleton.mp hnew]
  bounded := by
    intro part hpart hlength
    rcases List.mem_append.mp hpart with hold | hnew
    · exact h.bounded part (List.mem_append_left _ hold) hlength
    · rw [List.mem_singleton.mp hnew, totalDuration_concat]
      exact hfits
  tight := by
    obtain ⟨holder, -, hlast⟩ := List.isChain_append.mp h.tight
    apply List.isChain_append.mpr
    refine ⟨holder, .singleton _, ?_⟩
    intro part hpart next hnext first hfirst
    obtain rfl : last ++ [unit] = next := by simpa using hnext
    -- The part still starts with the unit it started with.
    have hne : last ≠ [] := h.nonempty last (by simp)
    rw [List.head?_append_of_ne_nil last hne] at hfirst
    exact hlast part hpart last (by simp) first hfirst

/-- No greedy cut goes on with its first part longer than another does. -/
theorem append_ne (h : IsGreedy limit (part :: parts))
    (h' : IsGreedy limit ((part ++ unit :: last) :: others)) :
    parts.flatten ≠ unit :: last ++ others.flatten := by
  intro hflatten
  have hpart : part ≠ [] := h.nonempty part List.mem_cons_self
  have hlong : totalDuration (part ++ unit :: last) ≤ limit := by
    apply h'.bounded _ List.mem_cons_self
    have hpos := List.length_pos_of_ne_nil hpart
    simp only [List.length_append, List.length_cons]
    omega
  cases parts with
  | nil => simp at hflatten
  | cons next rest =>
      have hnext : next ≠ [] := h.nonempty next (by simp)
      have hfirst : unit ∈ next.head? := by
        have hhead := congrArg List.head? hflatten
        rw [List.flatten_cons, List.head?_append_of_ne_nil next hnext]
          at hhead
        simpa using hhead
      have hover := (List.isChain_cons_cons.mp h.tight).1 unit hfirst
      have hsum : totalDuration (part ++ unit :: last)
          = totalDuration part
            + (unit.duration.toNat + totalDuration last) :=
        totalDuration_append part (unit :: last)
      omega

/-- Units can be cut up greedily in one way only. -/
theorem unique (h : IsGreedy limit parts) (h' : IsGreedy limit others)
    (hflatten : parts.flatten = others.flatten) : parts = others := by
  induction parts generalizing others with
  | nil =>
      cases others with
      | nil => rfl
      | cons other others =>
          simp [h'.nonempty other List.mem_cons_self] at hflatten
  | cons part parts ih =>
      cases others with
      | nil => simp [h.nonempty part List.mem_cons_self] at hflatten
      | cons other others =>
          simp only [List.flatten_cons] at hflatten
          rcases List.append_eq_append_iff.mp hflatten with
            ⟨rest, rfl, hrest⟩ | ⟨rest, rfl, hrest⟩
          · cases rest with
            | nil =>
                rw [List.append_nil] at h' ⊢
                rw [ih h.tail h'.tail hrest]
            | cons unit rest => exact absurd hrest (h.append_ne h')
          · cases rest with
            | nil =>
                rw [List.append_nil] at h ⊢
                rw [ih h.tail h'.tail hrest.symm]
            | cons unit rest => exact absurd hrest (h'.append_ne h)

end IsGreedy

end AccessUnit

open AccessUnit (IsGreedy)

-- ================================================================== chunks

/-- The chunk that some units make up, as if it had no place in the
file. -/
def Chunk.ofUnits (units : List AccessUnit) : Chunk :=
  ⟨0, (payload units).length, units.length, totalDuration units⟩

theorem Chunk.ofUnits_concat (units : List AccessUnit)
    (unit : AccessUnit) :
    ofUnits (units ++ [unit])
      = (ofUnits units).add unit.data.length unit.duration := by
  simp [ofUnits, add, AccessUnit.payload_concat,
    AccessUnit.totalDuration_concat]

namespace ChunkTable

variable {table room : ChunkTable} {parts : List (List AccessUnit)}

/-- The chunks are those that some parts make up, wherever they lie. -/
def CutsInto (table : ChunkTable) (parts : List (List AccessUnit)) :
    Prop :=
  table.unplaced.newestFirst = (parts.map Chunk.ofUnits).reverse

theorem CutsInto.toList (h : table.CutsInto parts) :
    table.toList.map Chunk.unplaced = parts.map Chunk.ofUnits := by
  have hnewest : table.newestFirst.map Chunk.unplaced
      = (parts.map Chunk.ofUnits).reverse := h
  unfold ChunkTable.toList
  rw [List.map_reverse, hnewest, List.reverse_reverse]

/-- A sample needs a new chunk if it does not fit into the last part. -/
theorem CutsInto.needsNewChunk_iff (h : table.CutsInto parts)
    (duration timescale : UInt32) :
    table.needsNewChunk duration timescale = true
      ↔ ∀ last ∈ parts.getLast?,
        timescale.toNat / 2 < totalDuration last + duration.toNat := by
  rw [← needsNewChunk_unplaced]
  unfold needsNewChunk
  rw [h]
  rcases List.eq_nil_or_concat' parts with rfl | ⟨older, last, rfl⟩
  · simp
  · simp [Chunk.ofUnits]

/-- With room made for it, a sample is either a part of its own or joins the
last part. -/
theorem CutsInto.extend (h : table.CutsInto parts) (data : Bytes)
    (duration timescale : UInt32)
    (hroom : room.unplaced.newestFirst
      = table.roomFor duration timescale)
    (hgreedy : IsGreedy (timescale.toNat / 2) parts) :
    ∃ parts', (room.extend data duration).CutsInto parts'
      ∧ parts'.flatten = parts.flatten ++ [⟨data, duration⟩]
      ∧ IsGreedy (timescale.toNat / 2) parts' := by
  have hfull := h.needsNewChunk_iff duration timescale
  unfold roomFor at hroom
  rw [h] at hroom
  by_cases hneeds : table.needsNewChunk duration timescale = true
  · rw [if_pos hneeds] at hroom
    refine ⟨parts ++ [[⟨data, duration⟩]], ?_, by simp,
      hgreedy.split (hfull.mp hneeds)⟩
    unfold CutsInto
    rw [unplaced_extend]
    unfold ChunkTable.extend
    rw [hroom, List.map_append, List.reverse_append]
    exact congrArg (· :: _) (Chunk.ofUnits_concat [] ⟨data, duration⟩).symm
  · rw [if_neg hneeds] at hroom
    rw [hfull] at hneeds
    rcases List.eq_nil_or_concat' parts with rfl | ⟨older, last, rfl⟩
    · simp at hneeds
    have hfits : totalDuration last + duration.toNat
        ≤ timescale.toNat / 2 := by simpa using hneeds
    refine ⟨older ++ [last ++ [⟨data, duration⟩]], ?_, by simp,
      hgreedy.join hfits⟩
    unfold CutsInto
    rw [unplaced_extend]
    unfold ChunkTable.extend
    rw [hroom, List.map_append, List.map_append, List.reverse_append,
      List.reverse_append]
    exact congrArg (· :: _)
      (Chunk.ofUnits_concat last ⟨data, duration⟩).symm

end ChunkTable

-- ==================================================================== runs

namespace TrackRun

section
variable {σ : Type} [Sink σ] {timescale : UInt32} {run : TrackRun σ}
  {parts : List (List AccessUnit)}

/-- The chunks cut up what was accepted greedily. -/
structure Cut (timescale : UInt32) (run : TrackRun σ)
    (parts : List (List AccessUnit)) : Prop where
  agrees : run.Agrees timescale
  chunks : run.track.chunks.CutsInto parts
  units : parts.flatten = run.intake.units
  greedy : IsGreedy (timescale.toNat / 2) parts

theorem Cut.proceed (h : run.Cut timescale parts) (call : TrackCall) :
    ∃ parts', (run.proceed call).Cut timescale parts' := by
  have hagrees := h.agrees.proceed call
  cases call with
  | fix duration => exact ⟨parts, hagrees, h.chunks, h.units, h.greedy⟩
  | append data duration =>
      unfold TrackRun.proceed at hagrees ⊢
      dsimp only at hagrees ⊢
      rcases Track.append_cases data duration run.track run.out with
        ⟨flushed, room, out', hok, _, _, hroom⟩
        | ⟨failure, chunks, out', herror, hchunks⟩
      · rw [hok] at hagrees ⊢
        rw [h.agrees.timescale] at hroom
        obtain ⟨parts', hcuts, hflatten, hgreedy⟩ :=
          h.chunks.extend data _ timescale hroom h.greedy
        refine ⟨parts', hagrees, hcuts, ?_, hgreedy⟩
        rw [hflatten, h.units]
        unfold Intake.accept Track.durationInForce
        rw [h.agrees.fixed]
      · rw [herror] at hagrees ⊢
        exact ⟨parts, hagrees, hchunks.trans h.chunks, h.units, h.greedy⟩

/-- At any time the chunks cut up greedily what was accepted. -/
theorem Made.exists_cut (h : run.Made timescale) :
    ∃ parts, run.Cut timescale parts := by
  obtain ⟨codec, out, calls, rfl⟩ := h
  apply make_induction (P := fun run => ∃ parts, run.Cut timescale parts)
  · exact ⟨[], agrees_start codec timescale out, rfl, rfl, .nil _⟩
  · rintro run call ⟨parts, hcut⟩
    exact hcut.proceed call

end

end TrackRun

-- ================================================================== intake

/-- What a call adds to the account if nothing fails. Only a sample that is
too large for a file is refused. -/
def TrackCall.note (intake : Intake) : TrackCall → Intake
  | .append data duration =>
    if data.length ≤ maxWord32 then intake.accept data duration else intake
  | .fix duration => intake.fix duration

/-- What calls add up to if nothing fails. -/
def TrackCall.handedIn (calls : List TrackCall) : Intake :=
  calls.foldl note .empty

section
variable {σ : Type} [Sink σ] [FaithfulSink σ] [NeverFails σ]

/-- On a sink that never fails a sample can be appended if a file can hold
it. -/
theorem Track.append_succeeds {data : Bytes} (duration : UInt32)
    (hdata : data.length ≤ maxWord32) (track : Track) {out : Output σ}
    (hfault : out.fault? = none) :
    ∃ flushed track' out',
      append data duration (track, out) = .ok flushed (track', out')
        ∧ out'.fault? = none := by
  have hflat := append_flat (FaithfulSink.view out.sink) track duration hdata
  rw [← Output.image_of_no_fault hfault] at hflat
  obtain ⟨flushed, ⟨track', out'⟩, hok, -, hafter⟩ :=
    (mirrors_append data duration).exists_ok (s := (track, out))
      ‹NeverFails σ› hflat
  have hout := (Prod.mk.inj hafter).2
  exact ⟨flushed, track', out', hok, congrArg Output.fault? hout⟩

namespace TrackRun

variable {run : TrackRun σ}

theorem proceed_of_no_fault (hfault : run.out.fault? = none)
    (call : TrackCall) :
    (run.proceed call).intake = call.note run.intake
      ∧ (run.proceed call).out.fault? = none := by
  cases call with
  | fix duration => exact ⟨rfl, hfault⟩
  | append data duration =>
      unfold TrackRun.proceed TrackCall.note
      dsimp only
      by_cases hdata : data.length ≤ maxWord32
      · obtain ⟨flushed, track', out', hok, hafter⟩ :=
          Track.append_succeeds duration hdata run.track hfault
        rw [hok, if_pos hdata]
        exact ⟨rfl, hafter⟩
      · rw [Track.append_too_large run.track duration
          (Nat.lt_of_not_le hdata), if_neg hdata]
        exact ⟨rfl, hfault⟩

/-- On a sink that never fails the calls decide alone what is accepted. -/
theorem intake_make (hfault : run.out.fault? = none)
    (calls : List TrackCall) :
    (run.make calls).intake = calls.foldl TrackCall.note run.intake := by
  induction calls generalizing run with
  | nil => rfl
  | cons call calls ih =>
      obtain ⟨hintake, hafter⟩ := proceed_of_no_fault hfault call
      rw [List.foldl_cons, ← hintake, ← ih hafter]
      rfl

-- ================================================================== result

/-- Whatever samples are handed to a new track, on a sink that never fails
and with a fixed duration or without one: the sample table lists all that
are not too large for a file, and the chunks are the greedy way to cut them
up into half seconds, which is the only one. -/
theorem chunks_greedy {out : Output σ} (hfault : out.fault? = none)
    (codec : Codec) (timescale : UInt32) (calls : List TrackCall) :
    ∃ parts : List (List AccessUnit),
      parts.flatten = (TrackCall.handedIn calls).units
        ∧ IsGreedy (timescale.toNat / 2) parts
        ∧ (∀ others, IsGreedy (timescale.toNat / 2) others →
            others.flatten = (TrackCall.handedIn calls).units →
            others = parts)
        ∧ ((start codec timescale out).make calls).track.samples.toList
          = parts.flatten.map AccessUnit.sample
        ∧ ((start codec timescale out).make calls).track.chunks.toList.map
            Chunk.unplaced
          = parts.map Chunk.ofUnits := by
  have hmade : ((start codec timescale out).make calls).Made timescale :=
    ⟨codec, out, calls, rfl⟩
  obtain ⟨parts, hcut⟩ := hmade.exists_cut
  have hunits : parts.flatten = (TrackCall.handedIn calls).units := by
    rw [hcut.units, intake_make hfault]
    rfl
  refine ⟨parts, hunits, hcut.greedy, ?_, ?_, hcut.chunks.toList⟩
  · intro others hgreedy hothers
    exact hgreedy.unique hcut.greedy (hothers.trans hunits.symm)
  · rw [hcut.agrees.samples, hcut.units]
    exact List.reverse_reverse _

/-- Half a second is two ticks. One sample lasts longer than that, some last
no time at all, and for a while all last one tick. -/
def shortSamples : List TrackCall :=
  [.append [1] 1, .append [2] 1, .append [3] 0, .append [4] 5,
    .append [5] 0, .fix 1, .append [6, 7] 9, .append [] 9, .fix 0,
    .append [8] 2]

/-- How the short samples are cut up. -/
def shortParts : List (List AccessUnit) :=
  [[⟨[1], 1⟩, ⟨[2], 1⟩, ⟨[3], 0⟩], [⟨[4], 5⟩],
    [⟨[5], 0⟩, ⟨[6, 7], 1⟩, ⟨[], 1⟩], [⟨[8], 2⟩]]

theorem chunks_greedy_shortSamples :
    (Output.ofSink FlatFile.empty).fault? = none
      ∧ IsGreedy ((4 : UInt32).toNat / 2) shortParts
      ∧ ((start .aac 4 (.ofSink FlatFile.empty)).make
          shortSamples).track.chunks.toList.map Chunk.unplaced
        = shortParts.map Chunk.ofUnits := by
  have hgreedy : IsGreedy ((4 : UInt32).toNat / 2) shortParts := by
    decide +kernel
  have hfault : (Output.ofSink FlatFile.empty).fault? = none := rfl
  obtain ⟨parts, -, -, hunique, -, hchunks⟩ :=
    chunks_greedy hfault .aac 4 shortSamples
  have hparts : shortParts = parts :=
    hunique shortParts hgreedy (by decide +kernel)
  exact ⟨hfault, hgreedy, hparts ▸ hchunks⟩

end TrackRun

end

end AudioMux
