/-
The file in memory is faithful, in whatever way it is made to fail.

It keeps its writes, the latest first, and reads them back by laying one
over the other. Byte by byte that is what the latest write says
(`getElem?_slice`), and so one more write is an overwrite of all that the
file held before (`flat_store`). A file that is full, or refuses to move,
to be read or to be flushed, fails, and of failures nothing is asked.
-/
import AudioMux.Proofs.Sink.Faithful
import AudioMux.Sink.SparseFile

namespace AudioMux

-- ================================================================= segments

namespace Segment

variable {segment : Segment} {position : Nat}

theorem byteAt?_of_lt (h : position < segment.start) :
    segment.byteAt? position = none := by
  unfold byteAt?
  rw [if_neg (by omega)]

theorem byteAt?_of_stop_le (h : segment.stop ≤ position) :
    segment.byteAt? position = none := by
  unfold stop at h
  unfold byteAt?
  split
  · refine Array.getElem?_eq_none ?_
    show segment.data.size ≤ _
    omega
  · rfl

theorem exists_byteAt? (hlow : segment.start ≤ position)
    (hhigh : position < segment.stop) :
    ∃ byte, segment.byteAt? position = some byte
      ∧ segment.data.data[position - segment.start]? = some byte := by
  unfold stop at hhigh
  have hinside : position - segment.start < segment.data.data.size := by
    show _ < segment.data.size
    omega
  refine ⟨segment.data.data[position - segment.start], ?_,
    Array.getElem?_eq_getElem hinside⟩
  unfold byteAt?
  rw [if_pos hlow, Array.getElem?_eq_getElem hinside]

/-- A segment says what the bytes that it covers are, and keeps the
others. -/
theorem getElem?_overlay (start : Nat) (segment : Segment)
    (bytes : ByteArray) {i : Nat} (hi : i < bytes.data.size) :
    (segment.overlay start bytes).data[i]?
      = (segment.byteAt? (start + i)).or bytes.data[i]? := by
  have hdata : segment.data.data.size = segment.data.size := rfl
  have hbytes : bytes.data.size = bytes.size := rfl
  unfold overlay
  dsimp only
  split
  · next hmeet =>
    unfold ByteArray.copySlice
    simp only [Array.getElem?_append, Array.size_append, Array.size_extract,
      Array.getElem?_extract]
    by_cases hbefore : start + i < segment.start
    · rw [byteAt?_of_lt hbefore, if_pos (by omega), if_pos (by omega),
        if_pos (by omega), Nat.zero_add]
      rfl
    by_cases hafter : segment.stop ≤ start + i
    · rw [byteAt?_of_stop_le hafter]
      unfold stop at hmeet hafter ⊢
      rw [if_neg (by omega), if_pos (by omega), Option.none_or]
      congr 1
      omega
    · obtain ⟨byte, hbyte, hthere⟩ := exists_byteAt?
        (Nat.le_of_not_lt hbefore) (Nat.lt_of_not_le hafter)
      rw [hbyte, Option.some_or, ← hthere]
      unfold stop at hmeet hafter ⊢
      rw [if_pos (by omega), if_neg (by omega), if_pos (by omega)]
      congr 1
      omega
  · next hmiss =>
    have hnone : segment.byteAt? (start + i) = none := by
      by_cases hbefore : start + i < segment.start
      · exact byteAt?_of_lt hbefore
      · exact byteAt?_of_stop_le (by omega)
    rw [hnone, Option.none_or]

theorem size_overlay (start : Nat) (segment : Segment)
    (bytes : ByteArray) :
    (segment.overlay start bytes).data.size = bytes.data.size := by
  have hdata : segment.data.data.size = segment.data.size := rfl
  have hbytes : bytes.data.size = bytes.size := rfl
  unfold overlay stop
  dsimp only
  split
  · next hmeet =>
    unfold ByteArray.copySlice
    simp only [Array.size_append, Array.size_extract]
    omega
  · rfl

end Segment

-- =================================================================== slices

namespace SparseFile

section
variable {file older : SparseFile} {segment : Segment}
  (h : file.writes = segment :: older.writes)

include h

/-- The latest write decides. -/
theorem byteAt?_of_writes (position : Nat) :
    file.byteAt? position
      = (segment.byteAt? position).or (older.byteAt? position) := by
  unfold byteAt?
  rw [h, List.findSome?_cons]
  cases segment.byteAt? position <;> rfl

theorem length_of_writes : file.length = max segment.stop older.length := by
  unfold length
  rw [h]
  rfl

theorem slice_of_writes (start count : Nat) :
    file.slice start count
      = segment.overlay start (older.slice start count) := by
  unfold slice
  rw [h]
  rfl

end

theorem size_slice (file : SparseFile) (start count : Nat) :
    (file.slice start count).data.size = count := by
  unfold slice
  induction file.writes with
  | nil => simp [Bytes.zeros]
  | cons segment writes ih =>
      rw [List.foldr_cons, Segment.size_overlay, ih]

/-- The bytes of a stretch, each as the latest write has it. -/
theorem getElem?_slice (file : SparseFile) (start : Nat) {i count : Nat}
    (hi : i < count) :
    (file.slice start count).data[i]?
      = some ((file.byteAt? (start + i)).getD 0) := by
  induction hwrites : file.writes generalizing file with
  | nil =>
      unfold slice byteAt?
      rw [hwrites]
      show (Bytes.zeros count).toByteArray.data[i]? = some 0
      rw [List.data_toByteArray, List.getElem?_toArray]
      exact List.getElem?_replicate_of_lt hi
  | cons segment writes ih =>
      let older : SparseFile := { file with writes := writes }
      have hsplit : file.writes = segment :: older.writes := hwrites
      have hsize := size_slice older start count
      rw [slice_of_writes hsplit, byteAt?_of_writes hsplit,
        Segment.getElem?_overlay start segment _ (by omega), ih older rfl]
      cases segment.byteAt? (start + i) <;> rfl

/-- Nothing is said of positions past the end. -/
theorem byteAt?_of_length_le {file : SparseFile} {position : Nat}
    (hend : file.length ≤ position) : file.byteAt? position = none := by
  induction hwrites : file.writes generalizing file with
  | nil =>
      unfold byteAt?
      rw [hwrites]
      rfl
  | cons segment writes ih =>
      let older : SparseFile := { file with writes := writes }
      have hsplit : file.writes = segment :: older.writes := hwrites
      rw [length_of_writes hsplit] at hend
      have holder : older.byteAt? position = none := ih (by omega) rfl
      rw [byteAt?_of_writes hsplit, holder,
        Segment.byteAt?_of_stop_le (by omega)]
      rfl

-- ================================================================ as a file

/-- The file with zeros in its holes. -/
def flat (file : SparseFile) : FlatFile :=
  ⟨file.contents.data.toList, file.cursor⟩

theorem length_flat (file : SparseFile) :
    file.flat.bytes.length = file.length :=
  size_slice file 0 file.length

theorem getElem?_flat (file : SparseFile) (i : Nat) :
    file.flat.bytes[i]?
      = if i < file.length then some ((file.byteAt? i).getD 0)
        else none := by
  split
  · next hi =>
    have hslice := getElem?_slice file 0 hi
    rw [Nat.zero_add] at hslice
    exact Array.getElem?_toList.trans hslice
  · next hi =>
    refine List.getElem?_eq_none ?_
    rw [length_flat]
    exact Nat.le_of_not_lt hi

/-- The file after one more write. -/
def store (data : Bytes) (file : SparseFile) : SparseFile :=
  { file with
    writes := ⟨file.cursor, data.toByteArray⟩ :: file.writes
    cursor := file.cursor + data.length }

/-- One more write goes over what is there. -/
theorem flat_store {data : Bytes} (hdata : data ≠ []) (file : SparseFile) :
    (file.store data).flat = file.flat.write data := by
  refine FlatFile.ext (List.ext_getElem? fun i => ?_) rfl
  have hsplit : (file.store data).writes
    = ⟨file.cursor, data.toByteArray⟩ :: file.writes := rfl
  have hstop : (Segment.mk file.cursor data.toByteArray).stop
      = file.cursor + data.length := by
    unfold Segment.stop
    rw [List.size_toByteArray]
  have hcursor : file.flat.cursor = file.cursor := rfl
  rw [FlatFile.bytes_write, Bytes.getElem?_overwrite hdata, getElem?_flat,
    getElem?_flat, length_flat, length_of_writes hsplit,
    byteAt?_of_writes hsplit, hstop, hcursor]
  by_cases hbefore : i < file.cursor
  · rw [Segment.byteAt?_of_lt hbefore, Option.none_or, if_pos hbefore,
      if_pos (by omega)]
    split
    · rfl
    · next hend => rw [byteAt?_of_length_le (Nat.le_of_not_lt hend)]; rfl
  by_cases hafter : file.cursor + data.length ≤ i
  · have hlength : i < max (file.cursor + data.length) file.length
        ↔ i < file.length := by omega
    rw [Segment.byteAt?_of_stop_le (by omega), Option.none_or,
      if_neg hbefore, if_neg (Nat.not_lt.mpr hafter)]
    simp only [hlength]
  · obtain ⟨byte, hbyte, hthere⟩ := Segment.exists_byteAt?
      (show (Segment.mk file.cursor data.toByteArray).start ≤ i from
        Nat.le_of_not_lt hbefore) (by omega)
    have hdata : data[i - file.cursor]? = some byte := by
      rw [List.data_toByteArray, List.getElem?_toArray] at hthere
      exact hthere
    rw [hbyte, if_neg hbefore, if_pos (by omega), if_pos (by omega), hdata]
    rfl

/-- A write that succeeds stores all it was given. -/
theorem eq_store_of_write {data : Bytes} {file after : SparseFile}
    (h : write data file = .ok () after) : after = file.store data := by
  unfold write at h
  rw [Action.apply_bind_ok (Action.apply_get _),
    Action.apply_bind_ok (Action.apply_get _),
    Action.apply_bind_ok (Action.apply_modify _ _)] at h
  by_cases hroom : data.length ≤ file.capacity - file.cursor
  · rw [if_pos hroom, List.take_of_length_le hroom,
      Nat.min_eq_left hroom] at h
    cases h
    rfl
  · rw [if_neg hroom] at h
    cases h

/-- A read that succeeds gives what is there. -/
theorem eq_of_read {count : Nat} {bytes : Bytes} {file after : SparseFile}
    (h : read count file = .ok bytes after) :
    file.cursor + count ≤ file.length
      ∧ bytes = (file.slice file.cursor count).data.toList
      ∧ after = { file with cursor := file.cursor + count } := by
  unfold read at h
  rw [Action.apply_bind_ok (Action.apply_get _)] at h
  by_cases hdenied : file.failRead
  · rw [if_pos hdenied] at h
    cases h
  rw [if_neg hdenied] at h
  by_cases hthere : file.cursor + count ≤ file.length
  · rw [if_pos hthere] at h
    cases h
    exact ⟨hthere, rfl, rfl⟩
  · rw [if_neg hthere] at h
    cases h

theorem upcoming_flat {count : Nat} {file : SparseFile}
    (h : file.cursor + count ≤ file.length) :
    file.flat.upcoming count
      = (file.slice file.cursor count).data.toList := by
  refine List.ext_getElem? fun i => ?_
  unfold FlatFile.upcoming
  rw [List.getElem?_take, List.getElem?_drop, getElem?_flat,
    Array.getElem?_toList]
  have hcursor : file.flat.cursor = file.cursor := rfl
  by_cases hi : i < count
  · rw [if_pos hi, hcursor, if_pos (by omega), getElem?_slice file _ hi]
  · rw [if_neg hi, Array.getElem?_eq_none]
    rw [size_slice]
    exact Nat.le_of_not_lt hi

instance : FaithfulSink SparseFile where
  view := flat
  view_write := by
    intro data file after hdata h
    rw [eq_store_of_write h]
    exact flat_store hdata file
  view_read := by
    intro count bytes file after _ h
    obtain ⟨hthere, rfl, rfl⟩ := eq_of_read h
    rw [upcoming_flat hthere, length_flat]
    exact ⟨hthere, rfl, rfl⟩
  view_position := by
    intro position file after h
    cases h
    exact ⟨rfl, rfl⟩
  view_seek := by
    intro target file after h
    change seek target file = _ at h
    unfold seek at h
    rw [Action.apply_bind_ok (Action.apply_get _)] at h
    by_cases hlimit : file.seekLimit < target
    · rw [if_pos hlimit] at h
      cases h
    · rw [if_neg hlimit] at h
      cases h
      rfl
  view_flush := by
    intro file after h
    change flush file = _ at h
    unfold flush at h
    rw [Action.apply_bind_ok (Action.apply_get _)] at h
    by_cases hrefused : file.failFlush
    · rw [if_pos hrefused] at h
      cases h
    · rw [if_neg hrefused] at h
      cases h
      rfl

/-- A new file stands for one without bytes. -/
theorem flat_empty : empty.flat = .empty := rfl

end SparseFile

end AudioMux
