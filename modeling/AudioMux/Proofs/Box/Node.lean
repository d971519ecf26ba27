/-
Boxes as a tree.

A reader takes a box apart as far as its chunk offsets lie deep: boxes of
boxes on the way there become nodes with children, tables of chunk offsets
become lists of numbers, and every other box is kept byte by byte
(`Node.read?`). So two trees that are equal have equal boxes in every
respect.

Two boxes are the same up to a distance if the tree of the second is that
of the first with every chunk offset moved by the distance (`Moved`).
That boxes are moved follows from their children being moved one by one
(`moved_container`).
-/
import Mathlib.Data.List.Forall2
import AudioMux.Proofs.Box.Read

namespace AudioMux.Box

-- =================================================================== trees

/-- A box with its boxes, down to the chunk offsets. -/
inductive Node where
  | leaf (part : Part)
  | chunkOffsets (kind : FourCC) (headerLength : Nat) (full : Bytes)
      (offsets : List Nat)
  | container (kind : FourCC) (headerLength : Nat) (children : List Node)

/-- Whether boxes of this kind lead to the chunk offsets. -/
def isContainer (kind : FourCC) : Bool :=
  [.ofChars 'm' 'o' 'o' 'v', .ofChars 't' 'r' 'a' 'k',
    .ofChars 'm' 'd' 'i' 'a', .ofChars 'm' 'i' 'n' 'f',
    .ofChars 's' 't' 'b' 'l'].contains kind

/-- The width of the chunk offsets in a box of this kind. -/
def offsetWidth? (kind : FourCC) : Option Nat :=
  if kind = .ofChars 's' 't' 'c' 'o' then some 4
  else if kind = .ofChars 'c' 'o' '6' '4' then some 8
  else none

/-- Whether a box of this kind is kept byte by byte. -/
def isLeaf (kind : FourCC) : Bool :=
  !isContainer kind && (offsetWidth? kind).isNone

namespace Node

/-- Reads a box as a tree of at most this depth. -/
def read? : (depth : Nat) → Part → Option Node
  | 0, part => some (.leaf part)
  | depth + 1, part =>
    if isContainer part.kind then do
      let parts ← walk part.payload
      let children ← parts.mapM (read? depth)
      pure (.container part.kind part.headerLength children)
    else
      match offsetWidth? part.kind with
      | some width => do
        let offsets ← readFullTable? (readNumber? width) part.payload
        pure (.chunkOffsets part.kind part.headerLength
          (part.payload.take 4) offsets)
      | none => some (.leaf part)

mutual

/-- The tree with all chunk offsets moved by a distance. -/
def move (distance : Nat) : Node → Node
  | leaf part => leaf part
  | chunkOffsets kind headerLength full offsets =>
      chunkOffsets kind headerLength full (offsets.map (· + distance))
  | container kind headerLength children =>
      container kind headerLength (moveAll distance children)

/-- Trees with all chunk offsets moved by a distance. -/
def moveAll (distance : Nat) : List Node → List Node
  | [] => []
  | child :: children => child.move distance :: moveAll distance children

end

end Node

-- =================================================================== moving

/-- The second box reads like the first one, with its chunk offsets moved
by a distance. -/
def Moved (distance depth : Nat) (part part' : Part) : Prop :=
  ∃ node, Node.read? depth part = some node
    ∧ Node.read? depth part' = some (node.move distance)

section
variable {distance depth : Nat}

/-- A box that is neither taken apart nor full of chunk offsets reads the
same. -/
theorem moved_leaf {part : Part} (h : isLeaf part.kind = true) :
    Moved distance depth part part := by
  unfold isLeaf at h
  rw [Bool.and_eq_true, Bool.not_eq_true', Option.isNone_iff_eq_none] at h
  obtain ⟨hkind, hwidth⟩ := h
  have hread : Node.read? depth part = some (.leaf part) := by
    cases depth with
    | zero => rfl
    | succ depth =>
        unfold Node.read?
        rw [if_neg (Bool.not_eq_true _ ▸ hkind), hwidth]
  exact ⟨.leaf part, hread, hread⟩

/-- Boxes that are moved one by one are read one by one. -/
theorem mapM_moved {parts parts' : List Part}
    (h : List.Forall₂ (Moved distance depth) parts parts') :
    ∃ children, parts.mapM (Node.read? depth) = some children
      ∧ parts'.mapM (Node.read? depth)
        = some (Node.moveAll distance children) := by
  induction h with
  | nil => exact ⟨[], rfl, rfl⟩
  | cons hfirst _ ih =>
      obtain ⟨node, hnode, hnode'⟩ := hfirst
      obtain ⟨children, hchildren, hchildren'⟩ := ih
      refine ⟨node :: children, ?_, ?_⟩
      · rw [List.mapM_cons, hnode, hchildren]
        rfl
      · rw [List.mapM_cons, hnode', hchildren']
        rfl

/-- A box of boxes is moved if they are. -/
theorem moved_container {kind : FourCC} {headerLength : Nat}
    {payload payload' : Bytes} {parts parts' : List Part}
    (hkind : isContainer kind = true) (hwalk : walk payload = some parts)
    (hwalk' : walk payload' = some parts')
    (h : List.Forall₂ (Moved distance depth) parts parts') :
    Moved distance (depth + 1) ⟨kind, headerLength, payload⟩
      ⟨kind, headerLength, payload'⟩ := by
  obtain ⟨children, hchildren, hchildren'⟩ := mapM_moved h
  refine ⟨.container kind headerLength children, ?_, ?_⟩
  · unfold Node.read?
    rw [if_pos hkind, hwalk, Option.bind_eq_bind, Option.bind_some,
      hchildren]
    rfl
  · unfold Node.read?
    rw [if_pos hkind, hwalk', Option.bind_eq_bind, Option.bind_some,
      hchildren']
    rfl

/-- A table of chunk offsets is moved if they are. -/
theorem moved_offsets {kind : FourCC} {headerLength width : Nat}
    {payload payload' : Bytes} {offsets : List Nat}
    (hkind : isContainer kind = false)
    (hwidth : offsetWidth? kind = some width)
    (hfull : payload'.take 4 = payload.take 4)
    (hread : readFullTable? (readNumber? width) payload = some offsets)
    (hread' : readFullTable? (readNumber? width) payload'
      = some (offsets.map (· + distance))) :
    Moved distance (depth + 1) ⟨kind, headerLength, payload⟩
      ⟨kind, headerLength, payload'⟩ := by
  refine ⟨.chunkOffsets kind headerLength (payload.take 4) offsets, ?_, ?_⟩
  · unfold Node.read?
    rw [if_neg (Bool.not_eq_true _ ▸ hkind), hwidth]
    dsimp only
    rw [hread]
    rfl
  · unfold Node.read?
    rw [if_neg (Bool.not_eq_true _ ▸ hkind), hwidth]
    dsimp only
    rw [hread', hfull]
    rfl

/-- Boxes that are kept byte by byte. -/
theorem forall₂_moved_leaves {parts : List Part}
    (h : (parts.all fun part => isLeaf part.kind) = true) :
    List.Forall₂ (Moved distance depth) parts parts :=
  List.forall₂_same.mpr fun part hpart =>
    moved_leaf (List.all_eq_true.mp h part hpart)

/-- Boxes that are kept byte by byte, and one behind them that is
moved. -/
theorem forall₂_moved_concat (parts : List Part) {part part' : Part}
    (h : (parts.all fun part => isLeaf part.kind) = true)
    (hlast : Moved distance depth part part') :
    List.Forall₂ (Moved distance depth) (parts ++ [part])
      (parts ++ [part']) :=
  List.rel_append (forall₂_moved_leaves h) (.cons hlast .nil)

end

-- ============================================================== containers

section
variable {distance depth : Nat}

theorem moved_narrowOffsets {offsets offsets' : List UInt32}
    (hfits : Format.size (ChunkOffsets.narrow offsets) ≤ maxWord32)
    (hfits' : Format.size (ChunkOffsets.narrow offsets') ≤ maxWord32)
    (h : offsets'.map UInt32.toNat
      = (offsets.map UInt32.toNat).map (· + distance)) :
    Moved distance (depth + 1) (Part.of (ChunkOffsets.narrow offsets))
      (Part.of (ChunkOffsets.narrow offsets')) := by
  have hread' := read_narrowOffsets hfits'
  rw [h] at hread'
  exact moved_offsets rfl rfl rfl (read_narrowOffsets hfits) hread'

theorem moved_sampleTables {box box' : SampleTables}
    (hdescription : box'.description = box.description)
    (hmembership : box'.sampleToGroup? = box.sampleToGroup?)
    (hgroups : box'.groups? = box.groups?)
    (htimes : box'.timeToSample = box.timeToSample)
    (hchunks : box'.sampleToChunk = box.sampleToChunk)
    (hsizes : box'.sampleSizes = box.sampleSizes)
    (hfits : Format.size box ≤ maxWord32)
    (hfits' : Format.size box' ≤ maxWord32)
    (h : Moved distance depth (Part.of box.chunkOffsets)
      (Part.of box'.chunkOffsets)) :
    Moved distance (depth + 1) (Part.of box) (Part.of box') := by
  have hwalk := walk_sampleTables hfits
  have hwalk' := walk_sampleTables hfits'
  rw [hdescription, hmembership, hgroups, htimes, hchunks, hsizes] at hwalk'
  -- The offsets come last, and all in front of them are leaves.
  let front := Part.of box.description ::
    ((box.sampleToGroup?.map Part.of).toList ++
      ((box.groups?.map Part.of).toList ++ [Part.of box.timeToSample,
        Part.of box.sampleToChunk, Part.of box.sampleSizes]))
  have hsplit : ∀ last, Part.of box.description ::
      ((box.sampleToGroup?.map Part.of).toList ++
        ((box.groups?.map Part.of).toList ++ [Part.of box.timeToSample,
          Part.of box.sampleToChunk, Part.of box.sampleSizes, last]))
      = front ++ [last] := by
    intro last
    simp [front]
  have hleaves : (front.all fun part => isLeaf part.kind) = true := by
    unfold front
    cases box.sampleToGroup? <;> cases box.groups? <;> rfl
  rw [hsplit] at hwalk hwalk'
  exact moved_container rfl hwalk hwalk'
    (forall₂_moved_concat front hleaves h)

theorem moved_mediaInformation {box box' : MediaInformation}
    (hsound : box'.soundHeader? = box.soundHeader?)
    (hdata : box'.dataInformation = box.dataInformation)
    (hfits : Format.size box ≤ maxWord32)
    (hfits' : Format.size box' ≤ maxWord32)
    (h : Moved distance depth (Part.of box.sampleTables)
      (Part.of box'.sampleTables)) :
    Moved distance (depth + 1) (Part.of box) (Part.of box') := by
  have hwalk' := walk_mediaInformation hfits'
  rw [hsound, hdata] at hwalk'
  refine moved_container rfl (walk_mediaInformation hfits) hwalk' ?_
  cases box.soundHeader? with
  | none => exact forall₂_moved_concat [Part.of _] rfl h
  | some sound =>
      exact forall₂_moved_concat [Part.of _, Part.of _] rfl h

theorem moved_media {box box' : Media} (hheader : box'.header = box.header)
    (hhandler : box'.handler = box.handler)
    (hfits : Format.size box ≤ maxWord32)
    (hfits' : Format.size box' ≤ maxWord32)
    (h : Moved distance depth (Part.of box.information)
      (Part.of box'.information)) :
    Moved distance (depth + 1) (Part.of box) (Part.of box') := by
  have hwalk' := walk_mediaBox hfits'
  rw [hheader, hhandler] at hwalk'
  refine moved_container rfl (walk_mediaBox hfits) hwalk' ?_
  exact forall₂_moved_concat [Part.of _, Part.of _] rfl h

theorem moved_trackBox {box box' : TrackBox}
    (hheader : box'.header = box.header) (hedits : box'.edits? = box.edits?)
    (hfits : Format.size box ≤ maxWord32)
    (hfits' : Format.size box' ≤ maxWord32)
    (h : Moved distance depth (Part.of box.media)
      (Part.of box'.media)) :
    Moved distance (depth + 1) (Part.of box) (Part.of box') := by
  have hwalk' := walk_trackBox hfits'
  rw [hheader, hedits] at hwalk'
  refine moved_container rfl (walk_trackBox hfits) hwalk' ?_
  cases box.edits? with
  | none => exact forall₂_moved_concat [Part.of _] rfl h
  | some edits =>
      exact forall₂_moved_concat [Part.of _, Part.of _] rfl h

theorem moved_movie {box box' : Movie} (hheader : box'.header = box.header)
    (huser : box'.userData? = box.userData?)
    (hfits : Format.size box ≤ maxWord32)
    (hfits' : Format.size box' ≤ maxWord32)
    (h : List.Forall₂ (Moved distance depth) (box.tracks.map Part.of)
      (box'.tracks.map Part.of)) :
    Moved distance (depth + 1) (Part.of box) (Part.of box') := by
  have hwalk' := walk_movieBox hfits'
  rw [hheader, huser] at hwalk'
  refine moved_container rfl (walk_movieBox hfits) hwalk' ?_
  refine .cons (moved_leaf rfl) (List.rel_append h ?_)
  cases box.userData? with
  | none => exact .nil
  | some user => exact .cons (moved_leaf rfl) .nil

end

end AudioMux.Box
