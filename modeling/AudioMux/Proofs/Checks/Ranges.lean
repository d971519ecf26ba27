/-
How large the numbers of a track get.

A sample is at most as large and as long as 32 bits can say. All that a
track of fewer than `2 ^ 32` samples adds up therefore fits into 64 bits,
with one more sample to spare, and what is multiplied out for its rates
and times fits into 128.
-/
import AudioMux.Proofs.Checks.Actions
import AudioMux.Proofs.Muxer.ReadBack

namespace AudioMux

open AccessUnit (payload totalDuration)
open Box (maxWord32)

-- ================================================================== products

theorem BitrateInRange.of_lt {bytes ticks : Nat} (timescale : UInt32)
    (hbytes : bytes < 2 ^ 64) (hticks : ticks < 2 ^ 64) :
    BitrateInRange bytes ticks timescale := by
  have htimescale := timescale.toNat_lt
  have hproduct : bytes * 8 * timescale.toNat ≤ 2 ^ 67 * 2 ^ 32 :=
    Nat.mul_le_mul (by omega) (by omega)
  exact ⟨hbytes, hticks, by omega, by omega, by omega, by omega⟩

theorem RescaleInRange.of_lt {ticks : Nat} (source target : UInt32)
    (hticks : ticks < 2 ^ 64) : RescaleInRange ticks source target := by
  have hsource := source.toNat_lt
  have htarget := target.toNat_lt
  have hproduct : ticks * target.toNat ≤ 2 ^ 64 * 2 ^ 32 :=
    Nat.mul_le_mul (by omega) (by omega)
  exact ⟨hticks, by omega⟩

-- =================================================================== samples

namespace SampleTable

/-- The window of the newest samples is no larger than all of them. -/
theorem trailing_le (goal : Nat) (samples : List Sample)
    (size duration : Nat) :
    (trailing goal size duration samples).1
        ≤ size + samples.length * 2 ^ 32
      ∧ (trailing goal size duration samples).2
        ≤ duration + samples.length * 2 ^ 32 := by
  induction samples generalizing size duration with
  | nil => exact ⟨Nat.le_add_right _ _, Nat.le_add_right _ _⟩
  | cons sample older ih =>
      have hsize := sample.size.toNat_lt
      have hduration := sample.duration.toNat_lt
      unfold trailing
      rw [List.length_cons, Nat.succ_mul]
      split
      · exact ⟨Nat.le_add_right _ _, Nat.le_add_right _ _⟩
      · obtain ⟨hfirst, hsecond⟩ := ih (size + sample.size.toNat)
          (duration + sample.duration.toNat)
        omega

end SampleTable

-- ==================================================================== chunks

/-- Samples have at most as many bytes each as 32 bits can say. -/
theorem length_payload_le {units : List AccessUnit}
    (h : ∀ unit ∈ units, unit.data.length ≤ maxWord32) :
    (payload units).length ≤ units.length * maxWord32 := by
  induction units with
  | nil => exact Nat.zero_le _
  | cons unit units ih =>
      have hfirst := h unit List.mem_cons_self
      have hrest := ih fun other hother => h other (List.mem_cons_of_mem _ hother)
      show (unit.data ++ payload units).length ≤ _
      rw [List.length_append, List.length_cons, Nat.succ_mul]
      omega

/-- The chunks are together as large as what they consist of. -/
theorem Chunk.totalSize_eq {chunks : List Chunk}
    {parts : List (List AccessUnit)}
    (h : List.Forall₂ Chunk.SumsUp chunks parts) :
    chunks.foldr (fun chunk size => chunk.size + size) 0
      = (payload parts.flatten).length := by
  induction h with
  | nil => rfl
  | cons hsums _ ih =>
      rw [List.foldr_cons, ih, List.flatten_cons, AccessUnit.payload_append,
        List.length_append, hsums.size]

namespace Entry.Sound

variable {entry : Entry} (h : entry.Sound)
include h

/-- A part is no more than all. -/
theorem part_le {units : List AccessUnit} (hunits : units ∈ entry.parts) :
    units.length ≤ entry.track.samples.length
      ∧ ∀ unit ∈ units, unit.data.length ≤ maxWord32 := by
  have hsub : units.Sublist entry.intake.units := by
    rw [← h.units]
    exact List.sublist_flatten_of_mem (List.mem_reverse.mpr hunits)
  rw [h.length_samples]
  exact ⟨hsub.length_le, fun unit hunit => h.small unit (hsub.subset hunit)⟩

/-- What a chunk adds up. -/
theorem chunk_le {chunk : Chunk}
    (hchunk : chunk ∈ entry.track.chunks.newestFirst) :
    chunk.samples ≤ entry.track.samples.length
      ∧ chunk.size ≤ entry.track.samples.length * maxWord32
      ∧ chunk.duration ≤ entry.track.samples.length * 2 ^ 32 := by
  obtain ⟨units, hunits, hsums⟩ := Chunk.exists_part h.chunks hchunk
  obtain ⟨hcount, hsmall⟩ := h.part_le hunits
  rw [hsums.samples, hsums.size, hsums.duration]
  refine ⟨hcount, ?_, ?_⟩
  · exact Nat.le_trans (length_payload_le hsmall)
      (Nat.mul_le_mul_right _ hcount)
  · exact Nat.le_trans (totalDuration_le units)
      (Nat.mul_le_mul_right _ hcount)

/-- What the newest chunk holds back. -/
theorem pending_le (htidy : entry.Tidy) :
    entry.track.chunks.pending.length
      ≤ entry.track.samples.length * maxWord32 := by
  rcases htidy with hnil | hheld
  · rw [hnil]
    exact Nat.zero_le _
  · unfold Held at hheld
    rw [hheld]
    cases hparts : entry.parts with
    | nil => exact Nat.zero_le _
    | cons units rest =>
        have hunits : units ∈ entry.parts := by
          rw [hparts]
          exact List.mem_cons_self
        obtain ⟨hcount, hsmall⟩ := h.part_le hunits
        exact Nat.le_trans (length_payload_le hsmall)
          (Nat.mul_le_mul_right _ hcount)

/-- What all chunks hold together. -/
theorem totalSize_le :
    entry.track.chunks.totalSize
      ≤ entry.track.samples.length * maxWord32 := by
  have hlength : entry.parts.flatten.length
      = entry.track.samples.length := by
    rw [h.length_samples, ← h.units, List.length_flatten,
      List.length_flatten, List.map_reverse, List.sum_reverse]
  have hsmall : ∀ unit ∈ entry.parts.flatten,
      unit.data.length ≤ maxWord32 := by
    intro unit hunit
    obtain ⟨units, hunits, hmem⟩ := List.mem_flatten.mp hunit
    exact (h.part_le hunits).2 unit hmem
  have hsize : entry.track.chunks.totalSize = _ :=
    Chunk.totalSize_eq h.chunks
  rw [hsize, ← hlength]
  exact length_payload_le hsmall

-- ==================================================================== ranges

variable (hcount : entry.track.samples.length < 2 ^ 32)
include hcount

/-- Everything that grows with a sample is in range. -/
theorem countsInRange : entry.track.CountsInRange := by
  obtain ⟨hsize, hduration⟩ := SampleTable.trailing_le
    entry.track.timescale.toNat entry.track.samples.newestFirst 0 0
  have hlength : entry.track.samples.newestFirst.length
      = entry.track.samples.length := rfl
  rw [hlength] at hsize hduration
  refine ⟨h.duration_lt hcount, fun chunk hchunk => ?_, ?_⟩
  · obtain ⟨hsamples, hbytes, hticks⟩ :=
      h.chunk_le (List.mem_of_mem_head? hchunk)
    unfold maxWord32 at hbytes
    exact ⟨by omega, by omega, by omega⟩
  · exact .of_lt _ (by omega) (by omega)

/-- The average bit rate of the track. -/
theorem bitrateInRange :
    BitrateInRange entry.track.chunks.totalSize entry.track.duration
      entry.track.timescale := by
  have hsize := h.totalSize_le
  unfold maxWord32 at hsize
  exact .of_lt _ (by omega) (h.duration_lt hcount)

/-- All that is worked out for the box of the track, if its chunks can be
numbered and moved. -/
theorem boxInRange {distance : Nat} (target : UInt32)
    (hnumbers : entry.track.chunks.length < 2 ^ 32)
    (hoffsets : ∀ chunk ∈ entry.track.chunks.newestFirst,
      chunk.offset + distance < 2 ^ 64) :
    entry.track.BoxInRange target distance := by
  have hdelay := entry.track.delay.toNat_lt
  have hpadding := entry.track.padding.toNat_lt
  have hduration := h.duration_lt hcount
  have hpresentation : entry.track.presentationDuration
      ≤ entry.track.duration := Nat.sub_le _ _
  refine ⟨by omega, .of_lt _ _ hduration, .of_lt _ _ (by omega),
    fun run hrun => ?_, hnumbers, hoffsets⟩
  exact Nat.lt_of_le_of_lt (SampleTable.count_le_length hrun) hcount

end Entry.Sound

end AudioMux
