/-
Boxes in boxes, at every depth.

A box has fixed fields and, behind them, other boxes (`Any.children`);
what is no box of boxes has only fields. `Any.Lies` says at which position
of a box's bytes another one starts, however deep it lies: behind the
header and the fields of the box around it, and behind the boxes in front
of it there, each taken with its declared size.

What a box declares includes what the boxes in it declare
(`size_eq_children`), so all of them fit into 32 bits if the outermost one
does. Then every box lies where the declared sizes put it
(`holdsAt_of_lies`), and a walk over what is behind its fields finds
exactly its boxes (`walk_children`).
-/
import AudioMux.Proofs.Box.Walk

namespace AudioMux.Box

-- ================================================================= the tree

namespace Any

/-- The boxes right inside a box, in the order they are written. -/
def children : Any → List Any
  | edit box => [editList box.editList]
  | dataReference box => box.entries.map dataLocation
  | dataInformation box => [dataReference box.reference]
  | sampleEntry (.audio entry) => [codecConfig entry.config]
  | sampleDescription box => [sampleEntry box.entry]
  | sampleTables box =>
      [sampleDescription box.description] ++
      (box.sampleToGroup?.map sampleToGroup).toList ++
      (box.groups?.map sampleGroups).toList ++
      [timeToSample box.timeToSample, sampleToChunk box.sampleToChunk,
        sampleSizes box.sampleSizes, chunkOffsets box.chunkOffsets]
  | mediaInformation box =>
      (box.soundHeader?.map soundHeader).toList ++
      [dataInformation box.dataInformation, sampleTables box.sampleTables]
  | media box =>
      [mediaHeader box.header, handler box.handler,
        mediaInformation box.information]
  | track box =>
      [trackHeader box.header] ++ (box.edits?.map edit).toList ++
      [media box.media]
  | movie box =>
      [movieHeader box.header] ++ box.tracks.map track ++
      (box.userData?.map userData).toList
  | item (.coded _ data) => [itemData data]
  | item (.freeForm name data) => [itemMeaning ⟨⟩, itemName name,
      itemData data]
  | itemList box => box.items.map item
  | metadata box => [handler box.handler, itemList box.itemList]
  | userData box => [metadata box.metadata]
  | _ => []

/-- The length of the fields between the header and the first box inside:
the version and flags, a count of entries, or the fields of an audio
sample entry. A box that holds no others is all fields. -/
def fieldsLength : Any → Nat
  | dataReference _ => 8
  | sampleEntry (.audio _) => 28
  | sampleDescription _ => 8
  | metadata _ => 4
  | edit _ | dataInformation _ | sampleTables _ | mediaInformation _
  | media _ | track _ | movie _ | item _ | itemList _ | userData _ => 0
  | box => (content box).length

/-- In the bytes of `box`, `inner` starts at a position: it is the box
itself or lies in it, at any depth. -/
inductive Lies (box : Any) : Nat → Any → Prop
  | self : Lies box 0 box
  | child {start : Nat} {around child : Any} {front back : List Any} :
      Lies box start around → around.children = front ++ child :: back →
      Lies box (start + (8 + around.fieldsLength + sizeList front)) child

instance : Measured Any where
  fair box := by
    cases box <;> rename_i box <;> exact Measured.fair box

end Any

-- ============================================================== one level

theorem encodeList_append {α : Type} [Format α] (first second : List α) :
    encodeList (first ++ second) = encodeList first ++ encodeList second :=
  List.flatMap_append

theorem encodeList_cons {α : Type} [Format α] (box : α) (rest : List α) :
    encodeList (box :: rest) = encode box ++ encodeList rest :=
  List.flatMap_cons

theorem sizeList_append {α : Type} [Format α] (first second : List α) :
    sizeList (first ++ second) = sizeList first + sizeList second := by
  induction first with
  | nil => exact (Nat.zero_add _).symm
  | cons box first ih =>
      show Format.size box + sizeList (first ++ second)
        = Format.size box + sizeList first + sizeList second
      rw [ih, Nat.add_assoc]

section
variable {α : Type} [Format α] (wrap : α → Any)

/-- Boxes of one type are written the same among boxes of all types. -/
theorem encodeList_wrapped (h : ∀ box, encode (wrap box) = encode box)
    (boxes : List α) : encodeList (boxes.map wrap) = encodeList boxes := by
  unfold encodeList
  rw [List.flatMap_map]
  exact congrArg (fun write => boxes.flatMap write) (funext h)

theorem encodeList_wrappedOption
    (h : ∀ box, encode (wrap box) = encode box) (box? : Option α) :
    encodeList (box?.map wrap).toList = encodeOption box? := by
  cases box? with
  | none => rfl
  | some box => exact (List.append_nil _).trans (h box)

end

/-- The content of a box is its fields and then the boxes inside. -/
theorem exists_fields (box : Any) :
    ∃ fields : Bytes, fields.length = box.fieldsLength
      ∧ content box = fields ++ encodeList box.children := by
  -- A box of boxes without fields of its own.
  have hbare : ∀ {box : Any}, box.fieldsLength = 0 →
      content box = encodeList box.children →
      ∃ fields : Bytes, fields.length = box.fieldsLength
        ∧ content box = fields ++ encodeList box.children :=
    fun hnone hcontent => ⟨[], hnone.symm, hcontent⟩
  cases box with
  | edit box => exact hbare rfl (List.append_nil _).symm
  | dataReference box =>
      refine ⟨VersionFlags.plain.encode ++
        Bytes.bigEndian 4 box.entries.length, rfl, ?_⟩
      rw [Any.children,
        encodeList_wrapped Any.dataLocation (fun _ => rfl),
        List.append_assoc]
      rfl
  | dataInformation box => exact hbare rfl (List.append_nil _).symm
  | sampleEntry box =>
      cases box with
      | audio entry =>
          refine ⟨Bytes.zeros 6 ++ Bytes.word16 entry.dataReferenceIndex ++
            Bytes.zeros 8 ++ Bytes.word16 entry.channelCount ++
            Bytes.word16 entry.sampleSize ++ Bytes.zeros 2 ++
            Bytes.zeros 2 ++ Bytes.word32 entry.sampleRate, rfl, ?_⟩
          exact congrArg (_ ++ ·) (List.append_nil _).symm
      | text entry => exact ⟨_, rfl, (List.append_nil _).symm⟩
  | sampleDescription box =>
      refine ⟨VersionFlags.plain.encode ++ Bytes.bigEndian 4 1, rfl, ?_⟩
      rw [List.append_assoc]
      rfl
  | sampleTables box =>
      refine hbare rfl ?_
      simp only [Any.children, encodeList_append,
        encodeList_wrappedOption Any.sampleToGroup fun _ => rfl,
        encodeList_wrappedOption Any.sampleGroups fun _ => rfl]
      show _ ++ _ ++ _ ++ _ ++ _ ++ _ ++ _
        = (_ ++ []) ++ _ ++ _ ++ (_ ++ (_ ++ (_ ++ (_ ++ []))))
      simp only [List.append_nil, List.append_assoc]
      rfl
  | mediaInformation box =>
      refine hbare rfl ?_
      rw [Any.children, encodeList_append,
        encodeList_wrappedOption Any.soundHeader fun _ => rfl]
      show _ ++ _ ++ _ = _ ++ (_ ++ (_ ++ []))
      rw [List.append_nil, List.append_assoc]
      rfl
  | media box =>
      refine hbare rfl ?_
      show _ ++ _ ++ _ = _ ++ (_ ++ (_ ++ []))
      rw [List.append_nil, List.append_assoc]
      rfl
  | track box =>
      refine hbare rfl ?_
      rw [Any.children, encodeList_append, encodeList_append,
        encodeList_wrappedOption Any.edit fun _ => rfl]
      show _ ++ _ ++ _ = (_ ++ []) ++ _ ++ (_ ++ [])
      rw [List.append_nil, List.append_nil]
      rfl
  | movie box =>
      refine hbare rfl ?_
      rw [Any.children, encodeList_append, encodeList_append,
        encodeList_wrapped Any.track fun _ => rfl,
        encodeList_wrappedOption Any.userData fun _ => rfl]
      show _ ++ _ ++ _ = (_ ++ []) ++ _ ++ _
      rw [List.append_nil]
      rfl
  | item box =>
      cases box with
      | coded code data => exact hbare rfl (List.append_nil _).symm
      | freeForm name data =>
          refine hbare rfl ?_
          show _ ++ _ ++ _ = _ ++ (_ ++ (_ ++ []))
          rw [List.append_nil, List.append_assoc]
          rfl
  | itemList box =>
      refine hbare rfl ?_
      exact (encodeList_wrapped Any.item (fun _ => rfl) box.items).symm
  | metadata box =>
      refine ⟨VersionFlags.plain.encode, rfl, ?_⟩
      show _ ++ (_ ++ _) = _ ++ (_ ++ (_ ++ []))
      rw [List.append_nil]
      rfl
  | userData box => exact hbare rfl (List.append_nil _).symm
  | _ => exact ⟨_, rfl, (List.append_nil _).symm⟩

section
variable {box : Any} (h : Format.size box ≤ maxWord32)
include h

/-- A box declares a header, its fields, and what the boxes inside
declare. -/
theorem size_eq_children :
    Format.size box = 8 + box.fieldsLength + sizeList box.children := by
  obtain ⟨fields, hfields, hcontent⟩ := exists_fields box
  have hbox := (Measured.fair box).2 h
  have hinside := fair_encodeList box.children
  rw [hcontent, List.length_append, hfields] at hbox
  unfold Fair at hinside
  omega

theorem sizeList_children_le : sizeList box.children ≤ maxWord32 := by
  have hsize := size_eq_children h
  omega

/-- Behind its fields a box is made up of the boxes inside. -/
theorem walk_children :
    walk ((content box).drop box.fieldsLength)
      = some (box.children.map Part.of) := by
  obtain ⟨fields, hfields, hcontent⟩ := exists_fields box
  rw [hcontent, ← hfields, List.drop_left]
  exact walk_encodeList_self (sizeList_children_le h)

end

-- ============================================================= every depth

/-- What lies somewhere in a box fits if the box does, and lies there. -/
theorem holdsAt_of_lies {box inner : Any} {start : Nat}
    (h : Format.size box ≤ maxWord32) (hlies : box.Lies start inner) :
    Format.size inner ≤ maxWord32
      ∧ (encode box).HoldsAt start (encode inner) := by
  induction hlies with
  | self => exact ⟨h, List.prefix_refl _⟩
  | @child start around child front back _ hchildren ih =>
      obtain ⟨haround, hholds⟩ := ih
      have hinside := sizeList_children_le haround
      rw [hchildren, sizeList_append] at hinside
      have hsplit : sizeList (child :: back)
          = Format.size child + sizeList back := rfl
      obtain ⟨fields, hfields, hcontent⟩ := exists_fields around
      -- What stands in front of the child in the box around it.
      have hencode : encode around
          = (header (Format.kind around) (Format.size around) ++ fields ++
              encodeList front) ++ (encode child ++ encodeList back) := by
        show header _ _ ++ content around = _
        rw [hcontent, hchildren, encodeList_append, encodeList_cons]
        simp only [List.append_assoc]
      have hfront : (header (Format.kind around) (Format.size around) ++
          fields ++ encodeList front).length
            = 8 + around.fieldsLength + sizeList front := by
        rw [List.length_append, List.length_append,
          length_header_small _ haround, hfields,
          (fair_encodeList front).2 (by omega)]
      rw [hencode] at hholds
      have hbehind := (Bytes.holdsAt_append.mp hholds).2
      rw [hfront] at hbehind
      exact ⟨by omega, (Bytes.holdsAt_append.mp hbehind).1⟩

/-- Where a box lies its header is read, with its length as the size. -/
theorem readHeader?_of_holdsAt {bytes : Bytes} {box : Any} {start : Nat}
    (h : Format.size box ≤ maxWord32)
    (hholds : bytes.HoldsAt start (encode box)) :
    readHeader? (bytes.drop start)
      = some ⟨Format.kind box, false, (encode box).length⟩ := by
  obtain ⟨rest, hrest⟩ := hholds
  have hheader := readHeader?_small (Format.kind box)
    (content box ++ rest) (eight_le_size box) h
  rw [← hrest, length_encode h, ← hheader]
  unfold encode
  rw [List.append_assoc]

/-- In some bytes a box lies at a position, and is as it says: the 32-bit
size in its header counts the bytes up to its end, and its boxes make up
all that is behind its fields. -/
structure Any.Stated (bytes : Bytes) (start : Nat) (box : Any) : Prop where
  holds : bytes.HoldsAt start (encode box)
  header : readHeader? (bytes.drop start)
    = some ⟨Format.kind box, false, (encode box).length⟩
  fields : box.fieldsLength ≤ (content box).length
  children : walk ((content box).drop box.fieldsLength)
    = some (box.children.map Part.of)

theorem stated_of_lies {box inner : Any} {start : Nat}
    (h : Format.size box ≤ maxWord32) (hlies : box.Lies start inner) :
    inner.Stated (encode box) start := by
  obtain ⟨hfits, hholds⟩ := holdsAt_of_lies h hlies
  refine ⟨hholds, readHeader?_of_holdsAt hfits hholds, ?_,
    walk_children hfits⟩
  obtain ⟨fields, hfields, hcontent⟩ := exists_fields inner
  rw [hcontent, List.length_append, hfields]
  exact Nat.le_add_right _ _

end AudioMux.Box
