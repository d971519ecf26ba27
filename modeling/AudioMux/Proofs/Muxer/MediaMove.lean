/-
Moving the media is a move of memory.

The media is read and written in blocks, the last block first. Source and
target overlap wherever the gap is smaller than the media, and the blocks
may be of any size, the first one of the file being what is left over. A
block is written behind all that is still to be read, so nothing is lost
(`moveBlocks_flat`), and the blocks that were written make up one stretch.

What remains is to say so byte by byte (`Bytes.MovedBy`), and for every
sink that does what it says. A move that succeeds has read the end of the
media first, so the media was all in the file (`moveBlocks_eq_ok`).
-/
import AudioMux.Proofs.Muxer.Mirror
import AudioMux.Proofs.Muxer.Relocation
import AudioMux.Proofs.Muxer.Session

namespace AudioMux

-- ==================================================================== bytes

namespace Bytes

/-- What becomes of a file when `count` bytes of it are moved by `gap`. -/
structure MovedBy (gap : Nat) (before after : Bytes) (start count : Nat) :
    Prop where
  /-- Every byte that is to be moved lies `gap` further. -/
  moved : ∀ i < count, ∃ byte, before[start + i]? = some byte
    ∧ after[start + gap + i]? = some byte
  /-- Every byte that no other was moved to is as it was. -/
  kept : ∀ i < before.length,
    i < start + gap ∨ start + gap + count ≤ i → after[i]? = before[i]?
  /-- Where the file was extended without a byte being moved there, it was
  filled up. -/
  filled : ∀ i, before.length ≤ i →
    i < start + gap ∨ start + gap + count ≤ i →
    ∀ byte, after[i]? = some byte → byte = 0

/-- Writing a copy of a stretch moves it. -/
theorem movedBy_overwrite {bytes : Bytes} {start count : Nat} (gap : Nat)
    (h : count ≠ 0 → start + count ≤ bytes.length) :
    MovedBy gap bytes
      (bytes.overwrite (start + gap) ((bytes.drop start).take count)) start
      count := by
  by_cases hcount : count = 0
  · subst hcount
    rw [List.take_zero, overwrite_nil]
    refine ⟨?_, fun i _ _ => rfl, ?_⟩
    · intro i hi
      omega
    · intro i hi _ byte hbyte
      rw [List.getElem?_eq_none hi] at hbyte
      cases hbyte
  have hinside := h hcount
  generalize hcopy : (bytes.drop start).take count = copy
  have hlength : copy.length = count := by
    rw [← hcopy, List.length_take, List.length_drop]
    omega
  have hne : copy ≠ [] := by
    intro hnil
    rw [hnil, List.length_nil] at hlength
    omega
  refine ⟨?_, ?_, ?_⟩
  · intro i hi
    have hi' : start + i < bytes.length := by omega
    refine ⟨bytes[start + i], List.getElem?_eq_getElem hi', ?_⟩
    have hindex : start + gap + i - (start + gap) = i := by omega
    rw [getElem?_overwrite hne, if_neg (by omega), if_pos (by omega),
      hindex, ← hcopy, List.getElem?_take_of_lt hi, List.getElem?_drop]
    exact List.getElem?_eq_getElem hi'
  · intro i hi houtside
    rw [getElem?_overwrite hne, hlength]
    rcases houtside with hfront | hbehind
    · rw [if_pos hfront, if_pos hi]
    · rw [if_neg (by omega), if_neg (by omega)]
  · intro i hi houtside byte hbyte
    rw [getElem?_overwrite hne, hlength] at hbyte
    rcases houtside with hfront | hbehind
    · rw [if_pos hfront, if_neg (by omega)] at hbyte
      cases hbyte
      rfl
    · rw [if_neg (by omega), if_neg (by omega),
        List.getElem?_eq_none hi] at hbyte
      cases hbyte

end Bytes

-- =================================================================== blocks

namespace Output

/-- What was read was there. -/
theorem le_of_read_flat {file : FlatFile} {count : Nat} {bytes : Bytes}
    {after : Output FlatFile} (hcount : count ≠ 0)
    (h : read count (ofSink file) = .ok bytes after) :
    file.cursor + count ≤ file.bytes.length := by
  by_cases hle : file.cursor + count ≤ file.bytes.length
  · exact hle
  · have hrefused : Sink.readExact count file
        = .error ⟨.unexpectedEnd, "failed to fill whole buffer"⟩ file := by
      unfold Sink.readExact
      rw [if_neg hcount]
      exact if_neg hle
    cases h.symm.trans (perform_error hrefused)

end Output

namespace Muxer

/-- A move that succeeds found all the bytes in the file, and has written a
copy of them. -/
theorem moveBlocks_eq_ok {start gap block remaining : Nat}
    {out after : Output FlatFile} (hblock : 0 < block)
    (h : moveBlocks start gap block remaining out = .ok () after) :
    (remaining ≠ 0 → start + remaining ≤ out.sink.bytes.length)
      ∧ after.sink.bytes = out.sink.bytes.overwrite (start + gap)
          ((out.sink.bytes.drop start).take remaining) := by
  by_cases hdone : remaining = 0
  · subst hdone
    rw [moveBlocks, if_pos (Or.inl rfl)] at h
    cases h
    refine ⟨fun hne => absurd rfl hne, ?_⟩
    rw [List.take_zero, Bytes.overwrite_nil]
  obtain ⟨file, _ | fault⟩ := out
  · have hinside : start + remaining ≤ file.bytes.length := by
      rw [moveBlocks, if_neg (by omega)] at h
      obtain ⟨_, _, hseek, h⟩ := Action.bind_eq_ok h
      cases (Output.seek_flat file _).symm.trans hseek
      obtain ⟨_, _, hread, _⟩ := Action.bind_eq_ok h
      -- The block that is read first ends where the media ends.
      have hend := Output.le_of_read_flat (by omega) hread
      rw [FlatFile.cursor_moveTo, FlatFile.bytes_moveTo] at hend
      omega
    obtain ⟨cursor, hmove⟩ :=
      moveBlocks_flat gap hblock remaining file hinside
    cases hmove.symm.trans h
    exact ⟨fun _ => hinside, rfl⟩
  · rw [moveBlocks, if_neg (by omega)] at h
    obtain ⟨_, _, hseek, _⟩ := Action.bind_eq_ok h
    cases (Output.perform_faulted _ file fault).symm.trans hseek

-- ================================================================== results

/-- Moving the media by a gap, whatever the file holds and however large
the blocks are. When it succeeds, each byte of the media lies `gap`
further and no other byte has changed, and neither has anything of the
muxer except that the media and every chunk are said to lie `gap` further.
It does succeed on a sink that never fails, if the media is in the
file. -/
theorem moveMedia_moves {σ : Type} [Sink σ] [FaithfulSink σ]
    (muxer : Muxer σ) (gap : Nat) {block : Nat} (hblock : 0 < block) :
    (∀ after, moveMedia gap block muxer = .ok () after →
      Bytes.MovedBy gap (FaithfulSink.view muxer.out.sink).bytes
          (FaithfulSink.view after.out.sink).bytes muxer.mediaStart
          muxer.mediaSize
        ∧ after.mediaStart = muxer.mediaStart + gap
        ∧ after.tracks.map (fun track => track.chunks.toList)
          = muxer.tracks.map (fun track => track.chunks.toList.map
              fun chunk => { chunk with offset := chunk.offset + gap })
        ∧ after = { muxer with
            out := after.out
            mediaStart := after.mediaStart
            tracks := muxer.tracks.map fun track =>
              { track with chunks := track.chunks.shift gap } })
    ∧ (NeverFails σ → muxer.out.fault? = none →
      muxer.mediaStart + muxer.mediaSize
          ≤ (FaithfulSink.view muxer.out.sink).bytes.length →
      ∃ after, moveMedia gap block muxer = .ok () after) := by
  constructor
  · intro after h
    have hflat := (mirrors_moveMedia gap block muxer).1 () after h
    obtain ⟨out, _, rfl⟩ := moveMedia_eq_ok h
    obtain ⟨out', hmove, hout⟩ := moveMedia_eq_ok hflat
    obtain ⟨hinside, hbytes⟩ := moveBlocks_eq_ok hblock hmove
    have hview : (FaithfulSink.view out.sink).bytes = out'.sink.bytes :=
      congrArg (fun muxer : Muxer FlatFile => muxer.out.sink.bytes) hout
    refine ⟨?_, rfl, ?_, rfl⟩
    · show Bytes.MovedBy gap _ (FaithfulSink.view out.sink).bytes _ _
      rw [hview, hbytes]
      exact Bytes.movedBy_overwrite gap hinside
    · show List.map _ (muxer.tracks.map _) = _
      rw [List.map_map]
      apply List.map_congr_left
      intro track _
      show (ChunkTable.shift gap track.chunks).newestFirst.reverse = _
      unfold ChunkTable.shift ChunkTable.toList
      rw [List.map_reverse]
  · intro hrel hfault hinside
    have hout : muxer.image.out
        = .ofSink (FaithfulSink.view muxer.out.sink) :=
      congrArg (Output.mk _) hfault
    obtain ⟨cursor, hmove⟩ := moveBlocks_flat gap hblock muxer.mediaSize
      (FaithfulSink.view muxer.out.sink) hinside
    rw [← hout] at hmove
    have hflat : ∃ t, moveMedia gap block muxer.image = .ok () t := by
      unfold moveMedia
      rw [Action.apply_bind_ok (Action.apply_get _)]
      exact ⟨_, Action.apply_bind_ok (onOutput_ok hmove)⟩
    obtain ⟨t, hflat⟩ := hflat
    obtain ⟨_, after, hok, _, _⟩ :=
      (mirrors_moveMedia gap block).exists_ok hrel hflat
    exact ⟨after, hok⟩

/-- A muxer whose media, seven bytes, lies in the middle of a file. -/
def overlappingMuxer : Muxer FlatFile :=
  { freshMuxer with
    out := .ofSink ⟨[90, 91, 1, 2, 3, 4, 5, 6, 7, 92], 0⟩
    mediaStart := 2
    mediaSize := 7
    tracks := [{ Track.new .aac 44100 with
      chunks := ⟨[⟨6, 3, 1, 1⟩, ⟨2, 4, 2, 2⟩], []⟩ }] }

/-- The media moves by less than its size, in two blocks of different
size. -/
theorem moveMedia_moves_overlappingMuxer :
    0 < 4 ∧ ∃ after, moveMedia 3 4 overlappingMuxer = .ok () after
      ∧ after.out.sink.bytes
        = [90, 91, 1, 2, 3, 1, 2, 3, 4, 5, 6, 7]
      ∧ Bytes.MovedBy 3 overlappingMuxer.out.sink.bytes
          after.out.sink.bytes 2 7
      ∧ after.tracks.map (fun track => track.chunks.toList)
        = [[⟨5, 4, 2, 2⟩, ⟨9, 3, 1, 1⟩]] := by
  have hblock : 0 < 4 := by decide
  obtain ⟨hmoves, hsucceeds⟩ := moveMedia_moves overlappingMuxer 3 hblock
  obtain ⟨after, hafter⟩ := hsucceeds inferInstance rfl (by decide)
  obtain ⟨hmoved, _, hchunks, _⟩ := hmoves after hafter
  obtain ⟨out, hmove, rfl⟩ := moveMedia_eq_ok hafter
  exact ⟨hblock, _, hafter, (moveBlocks_eq_ok hblock hmove).2, hmoved,
    hchunks⟩

end Muxer

end AudioMux
