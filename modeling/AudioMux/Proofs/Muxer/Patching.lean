/-
Boxes in boxes, written piece by piece.

A box is opened with a size of zero and closed by going back, once all that
is in it has been written. While boxes are open around it the file holds
their headers with a size of zero. Closing the innermost one changes its own
size only, and leaves the cursor where it was: what has been written from the
start of the box on is the box, closed (`Output.closeBox_opened`). So writing
pieces one after the other comes to one write of what they encode to, by
induction on the pieces (`Pieces.write_flat`).

A box that got too large is refused when it is closed. What was written
until then stays, with the boxes around it still open
(`Pieces.write_flat_error`).
-/
import AudioMux.Proofs.Muxer.Flat

namespace AudioMux

open Output (openHeader)

-- ================================================================== pieces

/-- What is written between boxes: bytes, or a number at a width. -/
inductive Leaf where
  | bytes (data : Bytes)
  | word (width n : Nat)

namespace Leaf

def encode : Leaf → Bytes
  | bytes data => data
  | word width n => Bytes.bigEndian width n

def write {σ : Type} [Sink σ] : Leaf → Writing σ Unit
  | bytes data => Output.write data
  | word width n => Output.writeWord width n

end Leaf

/-- Boxes, with what is between them, in the order in which they stand. -/
inductive Pieces where
  | nil
  | leaf (first : Leaf) (rest : Pieces)
  | box (kind : FourCC) (children rest : Pieces)

namespace Pieces

/-- The size of all pieces together. -/
def size : Pieces → Nat
  | nil => 0
  | leaf first rest => first.encode.length + rest.size
  | box _ children rest => 8 + children.size + rest.size

/-- The bytes of the pieces: of a box its size, its kind and the pieces in
it. -/
def encode : Pieces → Bytes
  | nil => []
  | leaf first rest => first.encode ++ rest.encode
  | box kind children rest =>
      Bytes.bigEndian 4 (8 + children.size) ++
        (kind.bytes ++ children.encode) ++ rest.encode

/-- The sizes of the boxes, in the order in which they end. -/
def sizes : Pieces → List Nat
  | nil => []
  | leaf _ rest => rest.sizes
  | box _ children rest =>
      children.sizes ++ (8 + children.size) :: rest.sizes

/-- The size of the first box to end that does not fit into 32 bits. -/
def tooLarge? (pieces : Pieces) : Option Nat :=
  pieces.sizes.find? fun size => Box.maxWord32 < size

/-- Every box fits into 32 bits. -/
def Fits (pieces : Pieces) : Prop :=
  ∀ size ∈ pieces.sizes, size ≤ Box.maxWord32

instance (pieces : Pieces) : Decidable pieces.Fits :=
  inferInstanceAs (Decidable (∀ size ∈ pieces.sizes, _))

/-- The bytes up to the end of the first box that is too large. The boxes
that it is in, and the box itself, have a size of zero. -/
def draft : Pieces → Bytes
  | nil => []
  | leaf first rest => first.encode ++ rest.draft
  | box kind children rest =>
      if ¬ children.Fits then openHeader kind ++ children.draft
      else if Box.maxWord32 < 8 + children.size then
        openHeader kind ++ children.encode
      else
        Bytes.bigEndian 4 (8 + children.size) ++
          (kind.bytes ++ children.encode) ++ rest.draft

/-- Writes the pieces one after the other, and gives the sizes of the boxes
as they are closed. -/
def write {σ : Type} [Sink σ] : Pieces → Writing σ (List Nat)
  | nil => pure []
  | leaf first rest => do
    first.write
    rest.write
  | box kind children rest => do
    let start ← Output.openBox kind
    let inner ← children.write
    let size ← Output.closeBox start
    let later ← rest.write
    pure (inner ++ size :: later)

theorem length_encode (pieces : Pieces) :
    pieces.encode.length = pieces.size := by
  induction pieces with
  | nil => rfl
  | leaf first rest ih => rw [encode, List.length_append, ih, size]
  | box kind children rest ihChildren ihRest =>
      rw [encode, size, ← ihChildren, ← ihRest]
      simp only [List.length_append, Bytes.length_bigEndian,
        FourCC.length_bytes]
      omega

theorem tooLarge?_eq_none_iff {pieces : Pieces} :
    pieces.tooLarge? = none ↔ pieces.Fits := by
  simp [tooLarge?, Fits, List.find?_eq_none]

theorem not_fits_of_tooLarge? {pieces : Pieces} {size : Nat}
    (h : pieces.tooLarge? = some size) : ¬ pieces.Fits := by
  rw [← tooLarge?_eq_none_iff, h]
  exact Option.some_ne_none size

theorem tooLarge?_box (kind : FourCC) (children rest : Pieces) :
    (box kind children rest).tooLarge?
      = children.tooLarge?.or
        (if Box.maxWord32 < 8 + children.size then some (8 + children.size)
        else rest.tooLarge?) := by
  unfold tooLarge?
  rw [sizes, List.find?_append, List.find?_cons]
  by_cases hsize : Box.maxWord32 < 8 + children.size <;> simp [hsize]

theorem fits_box {kind : FourCC} {children rest : Pieces} :
    (box kind children rest).Fits
      ↔ children.Fits ∧ 8 + children.size ≤ Box.maxWord32 ∧ rest.Fits := by
  unfold Fits
  rw [sizes, List.forall_mem_append, List.forall_mem_cons]

/-- A box in a box, with numbers in both. -/
def nested : Pieces :=
  .box (.ofChars 'm' 'o' 'o' 'v')
    (.box (.ofChars 'u' 'd' 't' 'a') (.leaf (.word 3 0x0a0b0c) .nil)
      (.leaf (.word 2 0xffff) .nil))
    .nil

/-- A box in a box, with a number as wide as one likes. -/
def padded (width : Nat) : Pieces :=
  .box (.ofChars 'm' 'o' 'o' 'v')
    (.box (.ofChars 'u' 'd' 't' 'a') (.leaf (.word width 0) .nil) .nil)
    .nil

theorem sizes_padded (width : Nat) :
    (padded width).sizes = [width + 8, width + 16] := by
  simp [padded, sizes, size, Leaf.encode]
  omega

end Pieces

-- ================================================================= writing

theorem Leaf.write_flat (leaf : Leaf) (file : FlatFile) :
    leaf.write (.ofSink file) = .ok () (.ofSink (file.write leaf.encode)) := by
  cases leaf with
  | bytes data => exact Output.write_flat file data
  | word width n => exact Output.write_flat file _

namespace Pieces

variable {pieces : Pieces} (file : FlatFile)

/-- Boxes that fit are written as if at once. -/
theorem write_flat (h : pieces.Fits) :
    pieces.write (.ofSink file)
      = .ok pieces.sizes (.ofSink (file.write pieces.encode)) := by
  induction pieces generalizing file with
  | nil => rfl
  | leaf first rest ih =>
      unfold write
      rw [Action.apply_bind_ok (first.write_flat file), ih _ h,
        FlatFile.write_write]
      rfl
  | box kind children rest ihChildren ihRest =>
      obtain ⟨hchildren, hsize, hrest⟩ := fits_box.mp h
      have hlength : children.encode.length = children.size :=
        children.length_encode
      have hfits : 8 + children.encode.length ≤ Box.maxWord32 := by
        omega
      unfold write
      rw [Action.apply_bind_ok (Output.openBox_flat file kind),
        Action.apply_bind_ok (ihChildren _ hchildren), FlatFile.write_write,
        Action.apply_bind_ok (Output.closeBox_opened file kind hfits),
        Action.apply_bind_ok (ihRest _ hrest), FlatFile.write_write, hlength]
      rfl

/-- The first box to end that is too large is refused, with what has been
written until then. -/
theorem write_flat_error {size : Nat} (h : pieces.tooLarge? = some size) :
    pieces.write (.ofSink file)
      = .error (.unsupported (.boxTooLarge size))
          (.ofSink (file.write pieces.draft)) := by
  induction pieces generalizing file with
  | nil => cases h
  | leaf first rest ih =>
      unfold write
      rw [Action.apply_bind_ok (first.write_flat file), ih _ h,
        FlatFile.write_write]
      rfl
  | box kind children rest ihChildren ihRest =>
      have hlength : children.encode.length = children.size :=
        children.length_encode
      rw [tooLarge?_box] at h
      unfold write draft
      rw [Action.apply_bind_ok (Output.openBox_flat file kind)]
      cases hinner : children.tooLarge? with
      | some inner =>
          rw [hinner, Option.some_or] at h
          cases h
          rw [if_pos (not_fits_of_tooLarge? hinner),
            Action.apply_bind_error (ihChildren _ hinner),
            FlatFile.write_write]
      | none =>
          rw [hinner, Option.none_or] at h
          have hchildren := tooLarge?_eq_none_iff.mp hinner
          rw [if_neg (not_not.mpr hchildren),
            Action.apply_bind_ok (write_flat _ hchildren),
            FlatFile.write_write]
          split at h
          · next hlarge =>
            cases h
            have hbeyond : Box.maxWord32 < 8 + children.encode.length := by
              omega
            rw [if_pos hlarge, Action.apply_bind_error
              (Output.closeBox_opened_error file kind hbeyond), hlength]
          · next hsize =>
            have hfits : 8 + children.encode.length ≤ Box.maxWord32 := by
              omega
            rw [if_neg hsize,
              Action.apply_bind_ok (Output.closeBox_opened file kind hfits),
              Action.apply_bind_error (ihRest _ h), FlatFile.write_write,
              hlength]

end Pieces

-- =========================================================== on every sink

section
variable {σ : Type} [Sink σ] [FaithfulSink σ]

theorem Leaf.mirrors_write (leaf : Leaf) :
    Mirrors (S := Output σ) id leaf.write leaf.write := by
  cases leaf with
  | bytes data => exact Output.mirrors_write data
  | word width n => exact Output.mirrors_write _

theorem Pieces.mirrors_write (pieces : Pieces) :
    Mirrors (S := Output σ) id pieces.write pieces.write := by
  induction pieces with
  | nil => exact mirrors_pure rfl
  | leaf first rest ih =>
      exact mirrors_bind first.mirrors_write fun _ => ih
  | box kind children rest ihChildren ihRest =>
      refine mirrors_bind (Output.mirrors_openBox kind) fun start => ?_
      refine mirrors_bind ihChildren fun inner => ?_
      refine mirrors_bind (Output.mirrors_closeBox start) fun size => ?_
      exact mirrors_bind ihRest fun later => mirrors_pure rfl

end

-- ================================================================== result

/-- A file once bytes have been written at its cursor. -/
structure Stored (before : FlatFile) (data : Bytes) (after : FlatFile) :
    Prop where
  holds : after.bytes.HoldsAt before.cursor data
  /-- The cursor is right behind them. -/
  cursor : after.cursor = before.cursor + data.length
  /-- What was there in front of them and behind them still is. -/
  around : ∀ i < before.bytes.length,
    i < before.cursor ∨ before.cursor + data.length ≤ i →
      after.bytes[i]? = before.bytes[i]?
  /-- Where there was nothing in front of them there are zeros. -/
  gap : ∀ i < after.bytes.length, before.bytes.length ≤ i →
    i < before.cursor → after.bytes[i]? = some 0
  /-- The file ends where it ended, or with them. -/
  length : after.bytes.length = before.bytes.length
    ∨ after.bytes.length = before.cursor + data.length

theorem stored_write (file : FlatFile) (data : Bytes) :
    Stored file data (file.write data) := by
  by_cases h : data = []
  · rw [h, FlatFile.write_nil]
    exact ⟨Bytes.holdsAt_nil _ _, rfl, fun _ _ _ => rfl,
      fun i hlt hle _ => absurd hlt (Nat.not_lt.mpr hle), .inl rfl⟩
  · have hlength : (file.write data).bytes.length
        = max file.bytes.length (file.cursor + data.length) :=
      Bytes.length_overwrite h
    refine ⟨Bytes.holdsAt_overwrite _ _ _, rfl, fun i hi hout => ?_,
      fun i _ hle hlt => ?_, by omega⟩
    · rw [FlatFile.bytes_write, Bytes.getElem?_overwrite h, if_pos hi]
      rcases hout with hfront | hbehind
      · rw [if_pos hfront]
      · rw [if_neg (by omega), if_neg (by omega)]
    · rw [FlatFile.bytes_write, Bytes.getElem?_overwrite h, if_pos hlt,
        if_neg (by omega)]

section
variable {σ : Type} [Sink σ] [FaithfulSink σ] [NeverFails σ]
  {out : Output σ}

/-- What succeeds on the file that a sink stands for succeeds on the
sink. -/
theorem Output.exists_ok_of_flat {α : Type} {f : Writing σ α}
    {g : Writing FlatFile α} (h : Mirrors id f g) (hfault : out.fault? = none)
    {a : α} {file : FlatFile}
    (hg : g (.ofSink (FaithfulSink.view out.sink)) = .ok a (.ofSink file)) :
    ∃ after, f out = .ok a after ∧ after.fault? = none
      ∧ FaithfulSink.view after.sink = file := by
  rw [← image_of_no_fault hfault] at hg
  obtain ⟨_, after, hf, rfl, himage⟩ := h.exists_ok ‹NeverFails σ› hg
  exact ⟨after, hf, congrArg fault? himage, congrArg sink himage⟩

theorem Output.exists_error_of_flat {α : Type} {f : Writing σ α}
    {g : Writing FlatFile α} (h : Mirrors id f g) (hfault : out.fault? = none)
    {failure : Failure} {file : FlatFile}
    (hg : g (.ofSink (FaithfulSink.view out.sink))
      = .error failure (.ofSink file)) :
    ∃ after, f out = .error failure after ∧ after.fault? = none
      ∧ FaithfulSink.view after.sink = file := by
  rw [← image_of_no_fault hfault] at hg
  obtain ⟨after, hf, himage⟩ := h.exists_error ‹NeverFails σ› hg rfl
  exact ⟨after, hf, congrArg fault? himage, congrArg sink himage⟩

/-- Boxes in boxes, with bytes and numbers between them, on a sink that never
fails, wherever its cursor is and whatever it holds. If every box fits into
32 bits, the sizes that closing them gives are those of the boxes, and their
bytes are stored at the cursor. If not, the first one to end that does not
fit is refused, and what was written until then is stored. Refusing to close
a box is not a fault and changes nothing. -/
theorem Pieces.write_stores (hfault : out.fault? = none) (pieces : Pieces) :
    (pieces.Fits → ∃ after,
      pieces.write out = .ok pieces.sizes after
        ∧ after.fault? = none
        ∧ Stored (FaithfulSink.view out.sink) pieces.encode
            (FaithfulSink.view after.sink))
    ∧ (¬ pieces.Fits → ∃ size after,
      pieces.tooLarge? = some size
        ∧ pieces.write out
          = .error (.unsupported (.boxTooLarge size)) after
        ∧ after.fault? = none
        ∧ Stored (FaithfulSink.view out.sink) pieces.draft
            (FaithfulSink.view after.sink))
    ∧ ∀ start size, (FaithfulSink.view out.sink).cursor - start = size →
      Box.maxWord32 < size → ∃ after,
        Output.closeBox start out
            = .error (.unsupported (.boxTooLarge size)) after
          ∧ after.fault? = none
          ∧ FaithfulSink.view after.sink = FaithfulSink.view out.sink := by
  refine ⟨fun h => ?_, fun h => ?_, fun start size hsize hlarge => ?_⟩
  · obtain ⟨after, hrun, hnone, hview⟩ := Output.exists_ok_of_flat
      pieces.mirrors_write hfault (write_flat _ h)
    refine ⟨after, hrun, hnone, ?_⟩
    rw [hview]
    exact stored_write _ _
  · obtain ⟨size, hsize⟩ : ∃ size, pieces.tooLarge? = some size :=
      Option.ne_none_iff_exists'.mp (mt tooLarge?_eq_none_iff.mp h)
    obtain ⟨after, hrun, hnone, hview⟩ := Output.exists_error_of_flat
      pieces.mirrors_write hfault (write_flat_error _ hsize)
    refine ⟨size, after, hsize, hrun, hnone, ?_⟩
    rw [hview]
    exact stored_write _ _
  · exact Output.exists_error_of_flat (Output.mirrors_closeBox start) hfault
      (Output.closeBox_flat_error _ hsize hlarge)

end

namespace Pieces

/-- Behind the end of a file, where the boxes fit and where they do not. -/
theorem write_stores_nested :
    (∃ after : Output FlatFile,
      nested.write (.ofSink ⟨[1, 2, 3], 5⟩) = .ok [11, 21] after
        ∧ after.fault? = none
        ∧ Stored ⟨[1, 2, 3], 5⟩
            [0, 0, 0, 21, 0x6d, 0x6f, 0x6f, 0x76,
              0, 0, 0, 11, 0x75, 0x64, 0x74, 0x61, 0x0a, 0x0b, 0x0c,
              0xff, 0xff]
            after.sink)
    ∧ (∃ after : Output FlatFile,
      (padded (2 ^ 32)).write (.ofSink ⟨[1, 2, 3], 5⟩)
          = .error (.unsupported (.boxTooLarge (2 ^ 32 + 8))) after
        ∧ after.fault? = none)
    ∧ ∃ after : Output FlatFile,
      Output.closeBox 5 (.ofSink ⟨[1, 2, 3], 2 ^ 32 + 5⟩)
          = .error (.unsupported (.boxTooLarge (2 ^ 32))) after
        ∧ after.fault? = none
        ∧ after.sink = ⟨[1, 2, 3], 2 ^ 32 + 5⟩ := by
  have hfault : ∀ file : FlatFile, (Output.ofSink file).fault? = none :=
    fun _ => rfl
  have hlarge : (padded (2 ^ 32)).tooLarge? = some (2 ^ 32 + 8) := by
    unfold tooLarge?
    rw [sizes_padded]
    rfl
  obtain ⟨size, after, hsize, hrun, hnone, -⟩ :=
    (write_stores (hfault ⟨[1, 2, 3], 5⟩) (padded (2 ^ 32))).2.1
      (not_fits_of_tooLarge? hlarge)
  cases hlarge.symm.trans hsize
  exact ⟨(write_stores (hfault ⟨[1, 2, 3], 5⟩) nested).1 (by decide),
    ⟨after, hrun, hnone⟩,
    (write_stores (hfault ⟨[1, 2, 3], 2 ^ 32 + 5⟩) nested).2.2 5 (2 ^ 32)
      rfl (by decide)⟩

end Pieces

end AudioMux
