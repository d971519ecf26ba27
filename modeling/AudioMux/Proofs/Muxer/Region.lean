/-
The media region of a file: what is stored of the tracks, one block
after the other.

`Contiguous` says that blocks follow each other without gaps. A region
is `Shelved` if the file ends with blocks that do, and the tracks own
these blocks between them, each track's lying one further than the
other. There is a single step: one track stores what it held back at the
end of the file, and then owns it (`Shelved.store`).
-/
import AudioMux.Proofs.Muxer.Ledger

namespace AudioMux

-- ================================================================= blocks

namespace Block

/-- The bytes of blocks, back to back. -/
def joined (blocks : List Block) : Bytes := blocks.flatMap Block.data

/-- Where a block ends. -/
def endOf (block : Block) : Nat := block.offset + block.data.length

/-- A position in a block. -/
def Covers (block : Block) (position : Nat) : Prop :=
  block.offset ≤ position ∧ position < block.endOf

/-- Two blocks without a common position. -/
def Apart (first second : Block) : Prop :=
  first.endOf ≤ second.offset ∨ second.endOf ≤ first.offset

theorem Apart.symm {first second : Block} (h : first.Apart second) :
    second.Apart first :=
  Or.symm h

/-- Blocks that follow each other from a position on. -/
def Contiguous : Nat → List Block → Prop
  | _, [] => True
  | start, block :: rest =>
      block.offset = start ∧ Contiguous (start + block.data.length) rest

@[simp] theorem joined_nil : joined [] = [] := rfl

theorem joined_cons (block : Block) (rest : List Block) :
    joined (block :: rest) = block.data ++ joined rest := rfl

theorem joined_append (first second : List Block) :
    joined (first ++ second) = joined first ++ joined second :=
  List.flatMap_append

theorem joined_place (position : Nat) (data : Bytes) :
    joined (place position data) = data := by
  by_cases h : data = []
  · rw [h]
    rfl
  · rw [place_of_ne_nil h]
    exact List.append_nil data

theorem contiguous_append {start : Nat} {first second : List Block}
    (hfirst : Contiguous start first)
    (hsecond : Contiguous (start + (joined first).length) second) :
    Contiguous start (first ++ second) := by
  induction first generalizing start with
  | nil => exact hsecond
  | cons block rest ih =>
      obtain ⟨hoffset, hrest⟩ := hfirst
      refine ⟨hoffset, ih hrest ?_⟩
      rw [joined_cons, List.length_append, ← Nat.add_assoc] at hsecond
      exact hsecond

theorem contiguous_place (position : Nat) (data : Bytes) :
    Contiguous position (place position data) := by
  unfold place
  split
  · exact trivial
  · exact ⟨rfl, trivial⟩

/-- No block starts before the first. -/
theorem Contiguous.le_offset {start : Nat} {blocks : List Block}
    (h : Contiguous start blocks) :
    ∀ block ∈ blocks, start ≤ block.offset := by
  induction blocks generalizing start with
  | nil => nofun
  | cons first rest ih =>
      obtain ⟨hoffset, hrest⟩ := h
      intro block hblock
      rcases List.mem_cons.mp hblock with rfl | hmem
      · exact Nat.le_of_eq hoffset.symm
      · have := ih hrest block hmem
        omega

/-- No block ends after the last. -/
theorem Contiguous.endOf_le {start : Nat} {blocks : List Block}
    (h : Contiguous start blocks) :
    ∀ block ∈ blocks, block.endOf ≤ start + (joined blocks).length := by
  induction blocks generalizing start with
  | nil => nofun
  | cons first rest ih =>
      obtain ⟨hoffset, hrest⟩ := h
      intro block hblock
      rw [joined_cons, List.length_append]
      rcases List.mem_cons.mp hblock with rfl | hmem
      · unfold endOf
        omega
      · have := ih hrest block hmem
        omega

theorem Contiguous.pairwise_apart {start : Nat} {blocks : List Block}
    (h : Contiguous start blocks) : blocks.Pairwise Apart := by
  induction blocks generalizing start with
  | nil => exact .nil
  | cons first rest ih =>
      obtain ⟨hoffset, hrest⟩ := h
      refine .cons (fun block hblock => Or.inl ?_) (ih hrest)
      have := hrest.le_offset block hblock
      unfold endOf
      omega

/-- Each position of the region lies in a block. -/
theorem Contiguous.exists_covers {start : Nat} {blocks : List Block}
    (h : Contiguous start blocks) {position : Nat} (hlo : start ≤ position)
    (hhi : position < start + (joined blocks).length) :
    ∃ block ∈ blocks, block.Covers position := by
  induction blocks generalizing start with
  | nil =>
      rw [joined_nil, List.length_nil] at hhi
      omega
  | cons first rest ih =>
      obtain ⟨hoffset, hrest⟩ := h
      rw [joined_cons, List.length_append] at hhi
      by_cases hin : position < start + first.data.length
      · refine ⟨first, List.mem_cons_self, ?_, ?_⟩
        · omega
        · unfold endOf
          omega
      · obtain ⟨block, hmem, hcovers⟩ := ih hrest (by omega) (by omega)
        exact ⟨block, List.mem_cons_of_mem _ hmem, hcovers⟩

/-- A file that holds the blocks back to back holds each of them where
it says, or by `gap` further if all of them lie further. -/
theorem Contiguous.holdsAt {start : Nat} {blocks : List Block}
    {front : Bytes} (h : Contiguous start blocks) (gap : Nat)
    (hfront : front.length = start + gap) (rest : Bytes) :
    ∀ block ∈ blocks, (front ++ joined blocks ++ rest).HoldsAt
      (block.offset + gap) block.data := by
  induction blocks generalizing start front with
  | nil => nofun
  | cons first others ih =>
      obtain ⟨hoffset, hrest⟩ := h
      intro block hblock
      rw [joined_cons, ← List.append_assoc]
      rcases List.mem_cons.mp hblock with rfl | hmem
      · rw [hoffset, ← hfront, List.append_assoc (front ++ block.data)]
        exact Bytes.holdsAt_append_length front block.data _
      · refine ih hrest ?_ block hmem
        rw [List.length_append, hfront]
        omega

end Block

-- ======================================================= who owns a block

/-- One list of a family grows at its front. -/
theorem perm_flatMap_set {α β : Type} {f : α → List β} {l : List α}
    {i : Nat} {a b : α} {new : List β} (h : l[i]? = some a)
    (hf : f b = new ++ f a) :
    (l.flatMap f ++ new).Perm ((l.set i b).flatMap f) := by
  induction l generalizing i with
  | nil => cases h
  | cons x l ih =>
      cases i with
      | zero =>
          cases h
          rw [List.set_cons_zero, List.flatMap_cons, List.flatMap_cons, hf]
          exact (List.perm_append_comm).trans
            (by rw [List.append_assoc])
      | succ i =>
          rw [List.set_cons_succ, List.flatMap_cons, List.flatMap_cons,
            List.append_assoc]
          exact (ih h).append_left (f x)

/-- All that tracks have in the file. -/
def Entry.storedBy (ledger : List Entry) : List Block :=
  ledger.flatMap Entry.stored

/-- Where media starts. -/
def mediaOrigin : Nat := 48

/-- The file ends with `blocks`, which follow each other from the start
of the media on and which the tracks own between them. -/
structure Shelved (file : FlatFile) (mediaSize : Nat)
    (ledger : List Entry) (blocks : List Block) : Prop where
  bytes : file.bytes = Muxer.preamble ++ Block.joined blocks
  cursor : file.cursor = file.bytes.length
  size : mediaSize = (Block.joined blocks).length
  contiguous : Block.Contiguous mediaOrigin blocks
  owned : blocks.Perm (Entry.storedBy ledger)
  ordered : ∀ entry ∈ ledger,
    entry.stored.Pairwise fun newer older => older.offset < newer.offset

namespace Shelved

variable {file : FlatFile} {mediaSize : Nat} {ledger : List Entry}
  {blocks : List Block}

theorem cursor_eq (h : Shelved file mediaSize ledger blocks) :
    file.cursor = mediaOrigin + mediaSize := by
  rw [h.cursor, h.bytes, h.size, List.length_append, Muxer.length_preamble]
  rfl

/-- What a track owns is among the blocks. -/
theorem mem_blocks (h : Shelved file mediaSize ledger blocks)
    {entry : Entry} (hentry : entry ∈ ledger) {block : Block}
    (hblock : block ∈ entry.stored) : block ∈ blocks :=
  h.owned.mem_iff.mpr (List.mem_flatMap.mpr ⟨entry, hentry, hblock⟩)

theorem isFilled_of_mem_stored {entry : Entry} {block : Block}
    (h : block ∈ entry.stored) : 0 < block.data.length := by
  have hfilled := (List.mem_filter.mp h).2
  unfold Block.isFilled at hfilled
  exact List.length_pos_iff.mpr (by simpa using hfilled)

/-- One track stores data at the end of the file. -/
theorem store (h : Shelved file mediaSize ledger blocks) {index : Nat}
    {entry entry' : Entry} (hentry : ledger[index]? = some entry)
    {data : Bytes}
    (hstored : entry'.stored
      = Block.place file.cursor data ++ entry.stored) :
    Shelved (file.write data) (mediaSize + data.length)
      (ledger.set index entry') (blocks ++ Block.place file.cursor data) := by
  have hmem : entry ∈ ledger := List.mem_of_getElem? hentry
  refine ⟨?_, ?_, ?_, ?_, ?_, ?_⟩
  · rw [FlatFile.write_at_end h.cursor, h.bytes, Block.joined_append,
      Block.joined_place, List.append_assoc]
  · rw [FlatFile.write_at_end h.cursor, List.length_append, ← h.cursor]
  · rw [Block.joined_append, Block.joined_place, List.length_append, h.size]
  · refine Block.contiguous_append h.contiguous ?_
    rw [← h.size, ← h.cursor_eq]
    exact Block.contiguous_place _ _
  · exact (h.owned.append_right _).trans (perm_flatMap_set hentry hstored)
  · intro other hother
    rcases List.mem_or_eq_of_mem_set hother with hold | rfl
    · exact h.ordered other hold
    · rw [hstored]
      by_cases hdata : data = []
      · rw [hdata]
        exact h.ordered entry hmem
      · rw [Block.place_of_ne_nil hdata]
        refine .cons (fun block hblock => ?_) (h.ordered entry hmem)
        have hend := h.contiguous.endOf_le block (h.mem_blocks hmem hblock)
        have hpos := isFilled_of_mem_stored hblock
        have hcursor := h.cursor_eq
        rw [← h.size] at hend
        unfold Block.endOf at hend
        show block.offset < file.cursor
        omega

/-- Changes to a track that leave its blocks alone. -/
theorem replace (h : Shelved file mediaSize ledger blocks) {index : Nat}
    {entry entry' : Entry} (hentry : ledger[index]? = some entry)
    (hstored : entry'.stored = entry.stored) :
    Shelved file mediaSize (ledger.set index entry') blocks := by
  have hnew : Shelved (file.write []) (mediaSize + 0)
      (ledger.set index entry') (blocks ++ Block.place file.cursor []) :=
    h.store hentry hstored
  rw [Block.place_nil, List.append_nil] at hnew
  exact hnew

/-- When writing starts nothing is stored. -/
theorem start (hledger : ∀ entry ∈ ledger, entry.stored = []) :
    Shelved (FlatFile.empty.write Muxer.preamble) 0 ledger [] := by
  have hempty : Entry.storedBy ledger = [] :=
    List.flatMap_eq_nil_iff.mpr hledger
  refine ⟨?_, ?_, rfl, trivial, ?_, ?_⟩
  · rw [FlatFile.write_at_end rfl]
    rfl
  · rw [FlatFile.write_at_end rfl]
    show 0 + _ = ([] ++ Muxer.preamble).length
    rw [Nat.zero_add, List.nil_append]
  · rw [hempty]
  · intro entry hentry
    rw [hledger entry hentry]
    exact .nil

end Shelved

end AudioMux
