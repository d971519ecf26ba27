/-
A plain file in memory: bytes without holes, and a cursor. It is the
simplest sink there is, and what the statements about written files
speak of: every other sink is compared with it (`FaithfulSink`).

Two notions carry the proofs. `overwrite` is what a write does to the
bytes, and `HoldsAt` says that certain bytes lie at a position. Writes
that follow each other are one write (`overwrite_append`), a write in the
middle leaves alone what is around it (`overwrite_middle`), and a stretch
is where it should be once its parts are (`holdsAt_append`).
-/
import Mathlib.Algebra.Ring.Nat
import AudioMux.Sink.Basic

namespace AudioMux

namespace Bytes

-- ============================================================ overwriting

/-- The bytes with `data` written over them from a position on. A gap
before the position is filled with zeros. -/
def overwrite (bytes : Bytes) (position : Nat) (data : Bytes) : Bytes :=
  if data.isEmpty then bytes
  else
    bytes.take position ++ zeros (position - bytes.length) ++ data ++
      bytes.drop (position + data.length)

@[simp] theorem overwrite_nil (bytes : Bytes) (position : Nat) :
    bytes.overwrite position [] = bytes := rfl

theorem overwrite_of_ne_nil {bytes data : Bytes} {position : Nat}
    (h : data ≠ []) :
    bytes.overwrite position data
      = bytes.take position ++ zeros (position - bytes.length) ++ data ++
          bytes.drop (position + data.length) := by
  unfold overwrite
  rw [if_neg]
  simpa using h

theorem length_overwrite {bytes data : Bytes} {position : Nat}
    (h : data ≠ []) :
    (bytes.overwrite position data).length
      = max bytes.length (position + data.length) := by
  rw [overwrite_of_ne_nil h]
  simp only [List.length_append, List.length_take, length_zeros,
    List.length_drop]
  omega

/-- A file is at least as long as what is written to it. -/
theorem length_le_overwrite (bytes : Bytes) (position : Nat)
    (data : Bytes) :
    data.length ≤ (bytes.overwrite position data).length := by
  by_cases h : data = []
  · rw [h]
    exact Nat.zero_le _
  · rw [length_overwrite h]
    omega

/-- What a written file holds, byte by byte. -/
theorem getElem?_overwrite {bytes data : Bytes} {position : Nat}
    (h : data ≠ []) (i : Nat) :
    (bytes.overwrite position data)[i]?
      = if i < position then
          if i < bytes.length then bytes[i]? else some 0
        else if i < position + data.length then data[i - position]?
        else bytes[i]? := by
  rw [overwrite_of_ne_nil h]
  have hfront :
      (bytes.take position ++ zeros (position - bytes.length)).length
        = position := by
    simp only [List.length_append, List.length_take, length_zeros]
    omega
  split
  · next hi =>
    rw [List.append_assoc, List.getElem?_append_left (by omega)]
    split
    · next hlt =>
      rw [List.getElem?_append_left (by rw [List.length_take]; omega),
        List.getElem?_take_of_lt hi]
    · next hge =>
      rw [List.getElem?_append_right (by rw [List.length_take]; omega)]
      unfold zeros
      rw [List.getElem?_replicate, if_pos (by rw [List.length_take]; omega)]
  · next hi =>
    rw [List.append_assoc, List.getElem?_append_right (by omega), hfront]
    split
    · next hlt => rw [List.getElem?_append_left (by omega)]
    · next hge =>
      rw [List.getElem?_append_right (by omega), List.getElem?_drop]
      congr 1
      omega

/-- What a file holds that two stretches were written to at once. -/
theorem getElem?_overwrite_append {bytes first : Bytes} {position : Nat}
    (h : first ≠ []) (second : Bytes) (i : Nat) :
    (bytes.overwrite position (first ++ second))[i]?
      = if i < position then
          if i < bytes.length then bytes[i]? else some 0
        else if i < position + first.length then first[i - position]?
        else if i < position + first.length + second.length then
          second[i - (position + first.length)]?
        else bytes[i]? := by
  rw [getElem?_overwrite (List.append_ne_nil_of_left_ne_nil h second),
    List.length_append]
  by_cases h₁ : i < position
  · rw [if_pos h₁, if_pos h₁]
  rw [if_neg h₁, if_neg h₁]
  by_cases h₂ : i < position + first.length
  · rw [if_pos (by omega), if_pos h₂, List.getElem?_append_left (by omega)]
  rw [if_neg h₂, List.getElem?_append_right (by omega), Nat.sub_sub,
    Nat.add_assoc]

/-- Two writes, the second right after the first, are one. -/
theorem overwrite_append (bytes : Bytes) (position : Nat)
    (first second : Bytes) :
    (bytes.overwrite position first).overwrite (position + first.length)
        second
      = bytes.overwrite position (first ++ second) := by
  by_cases hfirst : first = []
  · simp [hfirst]
  by_cases hsecond : second = []
  · simp [hsecond]
  refine List.ext_getElem? fun i => ?_
  rw [getElem?_overwrite_append hfirst, getElem?_overwrite hsecond,
    getElem?_overwrite hfirst, length_overwrite hfirst]
  by_cases hi : i < position + first.length
  · rw [if_pos hi, if_pos (by omega), if_pos hi, if_pos hi]
  · have hbehind : ¬ i < position := by omega
    simp only [if_neg hi, if_neg hbehind]

/-- Two writes, the second right before the first, are one. -/
theorem overwrite_prepend (bytes : Bytes) (position : Nat)
    (first second : Bytes) :
    (bytes.overwrite (position + first.length) second).overwrite position
        first
      = bytes.overwrite position (first ++ second) := by
  by_cases hfirst : first = []
  · simp [hfirst]
  by_cases hsecond : second = []
  · simp [hsecond]
  refine List.ext_getElem? fun i => ?_
  rw [getElem?_overwrite_append hfirst, getElem?_overwrite hfirst,
    getElem?_overwrite hsecond, length_overwrite hsecond]
  by_cases hi : i < position
  · have hfront : i < position + first.length := by omega
    rw [if_pos hi, if_pos (by omega), if_pos hfront, if_pos hi]
  rw [if_neg hi, if_neg hi]
  by_cases hfront : i < position + first.length
  · rw [if_pos hfront, if_pos hfront]
  · simp only [if_neg hfront]

/-- Writing over a stretch in the middle of what is there. -/
theorem overwrite_middle (front rest : Bytes) {old new : Bytes}
    (h : new.length = old.length) :
    (front ++ old ++ rest).overwrite front.length new
      = front ++ new ++ rest := by
  by_cases hnew : new = []
  · have hold : old = [] := by
      rw [← List.length_eq_zero_iff, ← h, hnew, List.length_nil]
    simp [hnew, hold]
  · rw [overwrite_of_ne_nil hnew]
    have hpad : front.length - (front ++ old ++ rest).length = 0 := by
      simp only [List.length_append]
      omega
    have htake : (front ++ old ++ rest).take front.length = front := by
      rw [List.append_assoc, List.take_left]
    have hdrop : (front ++ old ++ rest).drop (front.length + new.length)
        = rest := by
      rw [h, ← List.length_append, List.drop_left]
    rw [hpad, htake, hdrop]
    simp [zeros]

/-- Writing over the end of what is there, and past it. -/
theorem overwrite_end (front : Bytes) {old new : Bytes}
    (h : old.length ≤ new.length) :
    (front ++ old).overwrite front.length new = front ++ new := by
  by_cases hnew : new = []
  · have hold : old = [] := by
      rw [hnew, List.length_nil] at h
      exact List.length_eq_zero_iff.mp (by omega)
    simp [hnew, hold]
  · rw [overwrite_of_ne_nil hnew]
    have hpad : front.length - (front ++ old).length = 0 := by
      simp only [List.length_append]
      omega
    have hdrop : (front ++ old).drop (front.length + new.length) = [] := by
      refine List.drop_of_length_le ?_
      rw [List.length_append]
      omega
    rw [hpad, List.take_left, hdrop]
    simp [zeros]

/-- Writing again over a stretch in the middle of what was just
written. -/
theorem overwrite_again (bytes : Bytes) (position : Nat)
    (front rest : Bytes) {old new : Bytes} (h : new.length = old.length) :
    (bytes.overwrite position (front ++ old ++ rest)).overwrite
        (position + front.length) new
      = bytes.overwrite position (front ++ new ++ rest) := by
  by_cases hnew : new = []
  · have hold : old = [] := by
      rw [← List.length_eq_zero_iff, ← h, hnew, List.length_nil]
    simp [hnew, hold]
  have hold : old ≠ [] := by
    intro hnil
    exact hnew (List.length_eq_zero_iff.mp (by rw [h, hnil, List.length_nil]))
  have hboth : front ++ old ++ rest ≠ [] := by simp [hold]
  have hboth' : front ++ new ++ rest ≠ [] := by simp [hnew]
  have hlength : (front ++ new ++ rest).length
      = (front ++ old ++ rest).length := by
    simp only [List.length_append, h]
  -- What comes before the position, zeros included, has its length.
  generalize hpad : bytes.take position ++ zeros (position - bytes.length)
    = pad
  have hpadlen : (pad ++ front).length = position + front.length := by
    rw [← hpad]
    simp only [List.length_append, List.length_take, length_zeros]
    omega
  rw [overwrite_of_ne_nil hboth, overwrite_of_ne_nil hboth', hlength, hpad]
  generalize bytes.drop (position + (front ++ old ++ rest).length) = tail
  have hregroup : ∀ middle : Bytes,
      pad ++ (front ++ middle ++ rest) ++ tail
        = pad ++ front ++ middle ++ (rest ++ tail) := by
    intro middle
    simp only [List.append_assoc]
  rw [hregroup, hregroup, ← hpadlen, overwrite_middle _ _ h]

/-- Writing at the end of the bytes appends. -/
theorem overwrite_length (bytes data : Bytes) :
    bytes.overwrite bytes.length data = bytes ++ data := by
  by_cases h : data = []
  · simp [h]
  · rw [overwrite_of_ne_nil h]
    simp [zeros]

/-- What lies in front of a write is still there. -/
theorem take_drop_overwrite {bytes : Bytes} {start count position : Nat}
    (hfront : start + count ≤ position)
    (hinside : start + count ≤ bytes.length) (data : Bytes) :
    ((bytes.overwrite position data).drop start).take count
      = (bytes.drop start).take count := by
  by_cases h : data = []
  · rw [h, overwrite_nil]
  refine List.ext_getElem? fun i => ?_
  by_cases hi : i < count
  · rw [List.getElem?_take_of_lt hi, List.getElem?_take_of_lt hi,
      List.getElem?_drop, List.getElem?_drop, getElem?_overwrite h,
      if_pos (by omega), if_pos (by omega)]
  · rw [List.getElem?_take_eq_none (by omega),
      List.getElem?_take_eq_none (by omega)]

-- ========================================================= what lies where

/-- The bytes from a position on start with `data`. -/
def HoldsAt (bytes : Bytes) (position : Nat) (data : Bytes) : Prop :=
  data <+: bytes.drop position

theorem holdsAt_iff {bytes data : Bytes} {position : Nat} :
    bytes.HoldsAt position data
      ↔ ∀ i, i < data.length → bytes[position + i]? = data[i]? := by
  unfold HoldsAt
  rw [List.prefix_iff_getElem?]
  constructor
  · intro h i hi
    have := h i hi
    rw [List.getElem?_drop] at this
    rw [this, List.getElem?_eq_getElem hi]
  · intro h i hi
    rw [List.getElem?_drop, h i hi, List.getElem?_eq_getElem hi]

@[simp] theorem holdsAt_nil (bytes : Bytes) (position : Nat) :
    bytes.HoldsAt position [] :=
  List.nil_prefix

/-- Reading where bytes are known to lie. -/
theorem HoldsAt.take_drop {bytes data : Bytes} {position : Nat}
    (h : bytes.HoldsAt position data) :
    (bytes.drop position).take data.length = data :=
  (List.prefix_iff_eq_take.mp h).symm

/-- A stretch in two parts. -/
theorem holdsAt_append {bytes first second : Bytes} {position : Nat} :
    bytes.HoldsAt position (first ++ second)
      ↔ bytes.HoldsAt position first
          ∧ bytes.HoldsAt (position + first.length) second := by
  rw [holdsAt_iff, holdsAt_iff, holdsAt_iff]
  constructor
  · intro h
    refine ⟨fun i hi => ?_, fun i hi => ?_⟩
    · rw [h i (by rw [List.length_append]; omega),
        List.getElem?_append_left hi]
    · have := h (first.length + i) (by rw [List.length_append]; omega)
      rw [List.getElem?_append_right (by omega)] at this
      rw [Nat.add_assoc, this]
      congr 1
      omega
  · rintro ⟨hfirst, hsecond⟩ i hi
    rw [List.length_append] at hi
    by_cases hlt : i < first.length
    · rw [hfirst i hlt, List.getElem?_append_left hlt]
    · have := hsecond (i - first.length) (by omega)
      rw [List.getElem?_append_right (by omega), ← this]
      congr 1
      omega

theorem holdsAt_append_length (front data rest : Bytes) :
    (front ++ data ++ rest).HoldsAt front.length data := by
  unfold HoldsAt
  rw [List.append_assoc, List.drop_left]
  exact List.prefix_append data rest

/-- What is written lies where it was written. -/
theorem holdsAt_overwrite (bytes : Bytes) (position : Nat) (data : Bytes) :
    (bytes.overwrite position data).HoldsAt position data := by
  by_cases h : data = []
  · rw [h]
    exact holdsAt_nil _ _
  · refine holdsAt_iff.mpr fun i hi => ?_
    rw [getElem?_overwrite h, if_neg (by omega), if_pos (by omega),
      Nat.add_sub_cancel_left]

end Bytes

-- ================================================================ the file

/-- Bytes and a cursor. -/
@[ext] structure FlatFile where
  bytes : Bytes
  cursor : Nat
  deriving DecidableEq, Repr

namespace FlatFile

/-- A file without bytes. -/
def empty : FlatFile := ⟨[], 0⟩

/-- Writes at the cursor and moves it past what was written. -/
def write (data : Bytes) (file : FlatFile) : FlatFile :=
  ⟨file.bytes.overwrite file.cursor data, file.cursor + data.length⟩

/-- The bytes at the cursor. -/
def upcoming (count : Nat) (file : FlatFile) : Bytes :=
  (file.bytes.drop file.cursor).take count

/-- Moves the cursor. -/
def moveTo (target : Nat) (file : FlatFile) : FlatFile :=
  { file with cursor := target }

/-- Reads at the cursor, as long as there is enough to read. -/
def read (count : Nat) : EStateM IoFailure FlatFile Bytes := fun file =>
  if file.cursor + count ≤ file.bytes.length then
    .ok (file.upcoming count) (file.moveTo (file.cursor + count))
  else
    .error ⟨.unexpectedEnd, "failed to fill whole buffer"⟩ file

/-- Only a read past the end fails. -/
instance : Sink FlatFile where
  write data := modify (write data)
  read := read
  position := do pure (← get).cursor
  seek target := modify (moveTo target)
  flush := pure ()

theorem read_of_le {count : Nat} {file : FlatFile}
    (h : file.cursor + count ≤ file.bytes.length) :
    read count file
      = .ok (file.upcoming count) (file.moveTo (file.cursor + count)) :=
  if_pos h

@[simp] theorem bytes_moveTo (target : Nat) (file : FlatFile) :
    (file.moveTo target).bytes = file.bytes := rfl

@[simp] theorem cursor_moveTo (target : Nat) (file : FlatFile) :
    (file.moveTo target).cursor = target := rfl

@[simp] theorem cursor_write (data : Bytes) (file : FlatFile) :
    (file.write data).cursor = file.cursor + data.length := rfl

@[simp] theorem bytes_write (data : Bytes) (file : FlatFile) :
    (file.write data).bytes = file.bytes.overwrite file.cursor data := rfl

@[simp] theorem write_nil (file : FlatFile) : file.write [] = file := rfl

/-- Two writes in a row are one. -/
theorem write_write (first second : Bytes) (file : FlatFile) :
    (file.write first).write second = file.write (first ++ second) := by
  unfold write
  rw [Bytes.overwrite_append, List.length_append, Nat.add_assoc]

/-- Writing at the end appends. -/
theorem write_at_end {file : FlatFile} (h : file.cursor = file.bytes.length)
    (data : Bytes) :
    file.write data = ⟨file.bytes ++ data, file.cursor + data.length⟩ := by
  unfold write
  rw [h, Bytes.overwrite_length]

end FlatFile

end AudioMux
