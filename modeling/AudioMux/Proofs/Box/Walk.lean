/-
Walking over boxes: a reader that knows nothing of how a file was
written. It reads the header of a box, with a 64-bit size where the
32-bit one is 1, takes what lies inside, and goes on where the box ends.
It gives up unless the last box ends where the bytes do.

What a walk finds makes up all bytes (`length_of_walk`) and lies where
it was found (`holdsAt_of_walk`). What is walked over is known piece by
piece: a box in front of other bytes is a part in front of their parts
(`walk_box`), so a box with children is walked over child by child.
-/
import AudioMux.Proofs.Box.Size
import AudioMux.Proofs.Sink.FlatFile
import Mathlib.Data.List.Induction

namespace AudioMux

/-- The code that four bytes spell. -/
def FourCC.ofBytes? : Bytes → Option FourCC
  | [a, b, c, d] => some ⟨a, b, c, d⟩
  | _ => none

theorem FourCC.ofBytes?_bytes (code : FourCC) :
    FourCC.ofBytes? code.bytes = some code := rfl

namespace Box

-- ================================================================== header

/-- The header of a box: its kind, whether it has a 64-bit size, and the
size of the box, header included. -/
structure Header where
  kind : FourCC
  isLarge : Bool
  size : Nat
  deriving DecidableEq, Repr

/-- The length of the header itself. -/
def Header.length (header : Header) : Nat :=
  if header.isLarge then 16 else 8

theorem Header.eight_le_length (header : Header) : 8 ≤ header.length := by
  unfold Header.length
  split <;> omega

/-- Reads a header. -/
def readHeader? (bytes : Bytes) : Option Header := do
  let kind ← FourCC.ofBytes? ((bytes.drop 4).take 4)
  let size := Bytes.toNat (bytes.take 4)
  if size = 1 then
    pure ⟨kind, true, Bytes.toNat ((bytes.drop 8).take 8)⟩
  else
    pure ⟨kind, false, size⟩

-- ==================================================================== parts

/-- A box as a reader finds it. -/
structure Part where
  kind : FourCC
  headerLength : Nat
  payload : Bytes
  deriving DecidableEq, Repr

namespace Part

/-- The size of the whole box. -/
def size (part : Part) : Nat := part.headerLength + part.payload.length

/-- Parts that follow each other, with the position where each starts. -/
def locate : Nat → List Part → List (Nat × Part)
  | _, [] => []
  | start, part :: rest => (start, part) :: locate (start + part.size) rest

/-- The payload of the first part of a kind. -/
def payload? (kind : FourCC) (parts : List Part) : Option Bytes :=
  (parts.find? fun part => part.kind = kind).map Part.payload

/-- The payloads of all parts of a kind. -/
def payloads (kind : FourCC) (parts : List Part) : List Bytes :=
  (parts.filter fun part => part.kind = kind).map Part.payload

end Part

/-- The boxes that bytes consist of. -/
def walk (bytes : Bytes) : Option (List Part) :=
  if bytes.isEmpty then some []
  else
    match readHeader? bytes with
    | none => none
    | some header =>
      if header.length ≤ header.size ∧ header.size ≤ bytes.length then
        let payload :=
          (bytes.drop header.length).take (header.size - header.length)
        (walk (bytes.drop header.size)).map
          (⟨header.kind, header.length, payload⟩ :: ·)
      else none
termination_by bytes.length
decreasing_by
  have := header.eight_le_length
  rw [List.length_drop]
  omega

/-- What a walk found: bytes that end with the parts behind the first one,
or none at all. -/
theorem walk_cases {bytes : Bytes} {parts : List Part}
    (h : walk bytes = some parts) :
    (bytes = [] ∧ parts = [])
      ∨ ∃ part rest, parts = part :: rest
        ∧ 8 ≤ part.size ∧ part.size ≤ bytes.length
        ∧ bytes.HoldsAt part.headerLength part.payload
        ∧ walk (bytes.drop part.size) = some rest := by
  rw [walk] at h
  split at h
  · next hempty =>
    cases h
    exact Or.inl ⟨List.isEmpty_iff.mp hempty, rfl⟩
  · split at h
    · cases h
    · next header _ =>
      have hheader := header.eight_le_length
      split at h
      · next hfits =>
        obtain ⟨hlo, hhi⟩ := hfits
        obtain ⟨rest, hrest, rfl⟩ := Option.map_eq_some_iff.mp h
        have hlength : ((bytes.drop header.length).take
            (header.size - header.length)).length
              = header.size - header.length := by
          rw [List.length_take, List.length_drop]
          omega
        have hsize : (Part.mk header.kind header.length
            ((bytes.drop header.length).take
              (header.size - header.length))).size = header.size := by
          show header.length + _ = header.size
          rw [hlength]
          omega
        refine Or.inr ⟨_, rest, rfl, ?_, ?_, List.take_prefix _ _, ?_⟩
        · omega
        · omega
        · rw [hsize]
          exact hrest
      · cases h

/-- The parts make up all bytes. -/
theorem length_of_walk {bytes : Bytes} {parts : List Part}
    (h : walk bytes = some parts) :
    (parts.map Part.size).sum = bytes.length := by
  induction parts generalizing bytes with
  | nil =>
      rcases walk_cases h with ⟨rfl, _⟩ | ⟨part, rest, hparts, _⟩
      · rfl
      · cases hparts
  | cons part parts ih =>
      rcases walk_cases h with ⟨_, hparts⟩ | ⟨first, rest, hparts, hrest⟩
      · cases hparts
      · cases hparts
        obtain ⟨_, hsize, _, hwalk⟩ := hrest
        rw [List.map_cons, List.sum_cons, ih hwalk, List.length_drop]
        omega

/-- A part lies where it was found. -/
theorem holdsAt_of_walk {bytes : Bytes} {parts : List Part}
    (h : walk bytes = some parts) {base start : Nat} {part : Part}
    (hpart : (start, part) ∈ Part.locate base parts) :
    base ≤ start
      ∧ bytes.HoldsAt (start - base + part.headerLength) part.payload := by
  induction parts generalizing bytes base with
  | nil => cases hpart
  | cons first parts ih =>
      rcases walk_cases h with ⟨_, hparts⟩ | ⟨first, rest, hparts, hrest⟩
      · cases hparts
      · cases hparts
        obtain ⟨_, hsize, hfirst, hwalk⟩ := hrest
        rcases List.mem_cons.mp hpart with heq | hlater
        · cases heq
          rw [Nat.sub_self, Nat.zero_add]
          exact ⟨Nat.le_refl _, hfirst⟩
        · obtain ⟨hle, hholds⟩ := ih hwalk hlater
          refine ⟨by omega, ?_⟩
          unfold Bytes.HoldsAt at hholds ⊢
          rw [List.drop_drop] at hholds
          have hposition : first.size +
              (start - (base + first.size) + part.headerLength)
            = start - base + part.headerLength := by omega
          rw [hposition] at hholds
          exact hholds

/-- Behind other parts a part starts where they end. -/
theorem Part.mem_locate_append (front : List Part) (part : Part)
    (rest : List Part) (base : Nat) :
    (base + (front.map Part.size).sum, part)
      ∈ Part.locate base (front ++ part :: rest) := by
  induction front generalizing base with
  | nil => exact List.mem_cons_self
  | cons first front ih =>
      have := ih (base + first.size)
      rw [Nat.add_assoc] at this
      exact List.mem_cons_of_mem _ this

-- ===================================================================== laws

@[simp] theorem walk_nil : walk [] = some [] := by
  rw [walk]
  rfl

/-- A number that fits into its field is read back. -/
theorem toNat_bigEndian_of_lt {width n : Nat} (h : n < 256 ^ width) :
    Bytes.toNat (Bytes.bigEndian width n) = n := by
  rw [Bytes.toNat_bigEndian]
  exact Nat.mod_eq_of_lt h

/-- The number that bytes spell has no other bytes of that length. -/
theorem bigEndian_toNat (bytes : Bytes) :
    Bytes.bigEndian bytes.length (Bytes.toNat bytes) = bytes := by
  induction bytes using List.reverseRecOn with
  | nil => rfl
  | append_singleton bytes byte ih =>
      have hlt : byte.toNat < 256 := byte.toNat_lt
      have hfront : (Bytes.toNat bytes * 256 + byte.toNat) / 256
          = Bytes.toNat bytes := by omega
      have hlast : UInt8.ofNat (Bytes.toNat bytes * 256 + byte.toNat)
          = byte := by
        rw [← UInt8.toNat_inj, UInt8.toNat_ofNat']
        omega
      rw [List.length_append, List.length_singleton,
        Bytes.toNat_append_byte, Bytes.bigEndian, hfront, ih, hlast]

/-- Only the low bits of a number that fit into its field are written. -/
theorem bigEndian_mod (width n : Nat) :
    Bytes.bigEndian width (n % 256 ^ width) = Bytes.bigEndian width n := by
  have hsame := bigEndian_toNat (Bytes.bigEndian width n)
  rw [Bytes.length_bigEndian, Bytes.toNat_bigEndian] at hsame
  exact hsame

theorem readHeader?_small {size : Nat} (kind : FourCC) (rest : Bytes)
    (hlo : 8 ≤ size) (h : size ≤ maxWord32) :
    readHeader? (header kind size ++ rest) = some ⟨kind, false, size⟩ := by
  have hword : Bytes.toNat (Bytes.bigEndian 4 size) = size := by
    refine toNat_bigEndian_of_lt ?_
    unfold maxWord32 at h
    omega
  have hsize : (header kind size ++ rest).take 4
      = Bytes.bigEndian 4 size := by
    unfold header
    rw [if_pos h, List.append_assoc,
      List.take_append_of_le_length (by simp), List.take_of_length_le
        (by simp)]
  have hkind : ((header kind size ++ rest).drop 4).take 4
      = kind.bytes := by
    unfold header
    rw [if_pos h, List.append_assoc,
      List.drop_left' (Bytes.length_bigEndian 4 size)]
    rfl
  unfold readHeader?
  rw [hsize, hkind, hword, FourCC.ofBytes?_bytes, Option.bind_eq_bind,
    Option.bind_some]
  dsimp only
  rw [if_neg (by omega)]
  rfl

theorem readHeader?_large {size : Nat} (kind : FourCC) (rest : Bytes)
    (hlo : maxWord32 < size) (h : size + 8 < 2 ^ 64) :
    readHeader? (header kind size ++ rest)
      = some ⟨kind, true, size + 8⟩ := by
  have hword : Bytes.toNat (Bytes.bigEndian 8 (size + 8)) = size + 8 :=
    toNat_bigEndian_of_lt (by omega)
  have hshape : header kind size ++ rest
      = Bytes.bigEndian 4 1 ++ (kind.bytes ++
        (Bytes.bigEndian 8 (size + 8) ++ rest)) := by
    unfold header
    rw [if_neg (by omega), List.append_assoc, List.append_assoc]
  have hlarge : ((header kind size ++ rest).drop 8).take 8
      = Bytes.bigEndian 8 (size + 8) := by
    rw [hshape, ← List.append_assoc,
      List.drop_left' (by simp : (Bytes.bigEndian 4 1 ++ kind.bytes).length
        = 8),
      List.take_append_of_le_length (by simp), List.take_of_length_le
        (by simp)]
  have hsize : (header kind size ++ rest).take 4
      = Bytes.bigEndian 4 1 := by
    rw [hshape, List.take_append_of_le_length (by simp),
      List.take_of_length_le (by simp)]
  have hkind : ((header kind size ++ rest).drop 4).take 4
      = kind.bytes := by
    rw [hshape, List.drop_left' (Bytes.length_bigEndian 4 1)]
    rfl
  have hone : Bytes.toNat (Bytes.bigEndian 4 1) = 1 := by decide
  unfold readHeader?
  rw [hsize, hkind, hlarge, hword, hone, FourCC.ofBytes?_bytes,
    Option.bind_eq_bind, Option.bind_some]
  dsimp only
  rw [if_pos rfl]
  rfl

/-- Where a header can be read and the box is all there, the walk goes
on behind it. -/
theorem walk_of_header {bytes : Bytes} {head : Header}
    (payload rest : Bytes)
    (hhead : readHeader? bytes = some head)
    (hlength : bytes.length = head.length + payload.length + rest.length)
    (hsize : head.size = head.length + payload.length)
    (hbytes : bytes.drop head.length = payload ++ rest) :
    walk bytes
      = (walk rest).map (⟨head.kind, head.length, payload⟩ :: ·) := by
  have hheader := head.eight_le_length
  have hne : ¬ bytes.isEmpty = true := by
    rw [List.isEmpty_iff]
    intro hnil
    rw [hnil, List.length_nil] at hlength
    omega
  have hrest : bytes.drop head.size = rest := by
    rw [hsize, ← List.drop_drop, hbytes, List.drop_left]
  have hpayload : (bytes.drop head.length).take (head.size - head.length)
      = payload := by
    rw [hsize, hbytes, Nat.add_sub_cancel_left, List.take_left]
  rw [walk, if_neg hne, hhead]
  dsimp only
  rw [if_pos (by omega), hrest, hpayload]

/-- A box in front of other bytes. The size field holds at most 64
bits. -/
theorem walk_box (kind : FourCC) (payload rest : Bytes)
    (h : payload.length + 16 < 2 ^ 64) :
    walk (header kind (payload.length + 8) ++ payload ++ rest)
      = (walk rest).map
          (⟨kind, (header kind (payload.length + 8)).length, payload⟩
            :: ·) := by
  rw [List.append_assoc]
  by_cases hsmall : payload.length + 8 ≤ maxWord32
  · have hlength := length_header_small kind hsmall
    rw [walk_of_header payload rest
      (readHeader?_small kind _ (by omega) hsmall) ?_ ?_ ?_, hlength]
    · rfl
    · rw [List.length_append, hlength, List.length_append, ← Nat.add_assoc]
      rfl
    · exact Nat.add_comm _ _
    · exact List.drop_left' hlength
  · have hlarge : maxWord32 < payload.length + 8 := by omega
    have hlength := length_header_large kind hlarge
    rw [walk_of_header payload rest
      (readHeader?_large kind _ hlarge (by omega)) ?_ ?_ ?_, hlength]
    · rfl
    · rw [List.length_append, hlength, List.length_append, ← Nat.add_assoc]
      rfl
    · show payload.length + 8 + 8 = 16 + payload.length
      omega
    · exact List.drop_left' hlength

/-- A box as its reader finds it. -/
def Part.of {α : Type} [Format α] (box : α) : Part :=
  ⟨Format.kind box, 8, content box⟩

section
variable {α : Type} [Format α] [Measured α]

theorem walk_encode {box : α} (h : Format.size box ≤ maxWord32)
    (rest : Bytes) :
    walk (encode box ++ rest) = (walk rest).map (Part.of box :: ·) := by
  have hsize : Format.size box = (content box).length + 8 := by
    have := (Measured.fair box).2 h
    omega
  have hheader := length_header_small (Format.kind box) h
  unfold encode Part.of
  unfold maxWord32 at h
  rw [hsize] at hheader ⊢
  rw [walk_box (Format.kind box) (content box) rest (by omega), hheader]

/-- A box on its own. -/
theorem walk_encode_self {box : α} (h : Format.size box ≤ maxWord32) :
    walk (encode box) = some [Part.of box] := by
  rw [← List.append_nil (encode box), walk_encode h, walk_nil]
  rfl

theorem walk_encodeOption {box? : Option α}
    (h : sizeOption box? ≤ maxWord32) (rest : Bytes) :
    walk (encodeOption box? ++ rest)
      = (walk rest).map ((box?.map Part.of).toList ++ ·) := by
  cases box? with
  | none =>
      show walk rest = _
      cases walk rest <;> rfl
  | some box => exact walk_encode h rest

theorem walk_encodeList {boxes : List α}
    (h : sizeList boxes ≤ maxWord32) (rest : Bytes) :
    walk (encodeList boxes ++ rest)
      = (walk rest).map (boxes.map Part.of ++ ·) := by
  induction boxes with
  | nil =>
      show walk rest = _
      cases walk rest <;> rfl
  | cons box boxes ih =>
      have hsplit : sizeList (box :: boxes)
          = Format.size box + sizeList boxes := rfl
      show walk (encode box ++ encodeList boxes ++ rest) = _
      rw [List.append_assoc, walk_encode (by omega), ih (by omega),
        Option.map_map]
      rfl

theorem walk_encodeList_self {boxes : List α}
    (h : sizeList boxes ≤ maxWord32) :
    walk (encodeList boxes) = some (boxes.map Part.of) := by
  have hwalk := walk_encodeList h []
  rw [List.append_nil, walk_nil, Option.map_some, List.append_nil] at hwalk
  exact hwalk

end

-- ============================================================== containers

theorem walk_sampleTables {box : SampleTables}
    (h : Format.size box ≤ maxWord32) :
    walk (content box) = some (Part.of box.description ::
      ((box.sampleToGroup?.map Part.of).toList ++
        ((box.groups?.map Part.of).toList ++
          [Part.of box.timeToSample, Part.of box.sampleToChunk,
            Part.of box.sampleSizes, Part.of box.chunkOffsets]))) := by
  have hsize : Format.size box = 8 + Format.size box.description +
      sizeOption box.sampleToGroup? + sizeOption box.groups? +
      Format.size box.timeToSample + Format.size box.sampleToChunk +
      Format.size box.sampleSizes + Format.size box.chunkOffsets := rfl
  have hcontent : content box = encode box.description ++
      (encodeOption box.sampleToGroup? ++ (encodeOption box.groups? ++
        (encode box.timeToSample ++ (encode box.sampleToChunk ++
          (encode box.sampleSizes ++ (encode box.chunkOffsets ++ [])))))) := by
    simp [content, Format.full?, Format.body]
  rw [hcontent, walk_encode (by omega), walk_encodeOption (by omega),
    walk_encodeOption (by omega), walk_encode (by omega),
    walk_encode (by omega), walk_encode (by omega), walk_encode (by omega),
    walk_nil]
  rfl

/-- The tables of a track fit if their box does. -/
theorem size_tables_le {box : SampleTables}
    (h : Format.size box ≤ maxWord32) :
    Format.size box.timeToSample ≤ maxWord32
      ∧ Format.size box.sampleToChunk ≤ maxWord32
      ∧ Format.size box.sampleSizes ≤ maxWord32
      ∧ Format.size box.chunkOffsets ≤ maxWord32 := by
  have hsize : Format.size box = 8 + Format.size box.description +
      sizeOption box.sampleToGroup? + sizeOption box.groups? +
      Format.size box.timeToSample + Format.size box.sampleToChunk +
      Format.size box.sampleSizes + Format.size box.chunkOffsets := rfl
  omega

theorem walk_mediaInformation {box : MediaInformation}
    (h : Format.size box ≤ maxWord32) :
    walk (content box) = some ((box.soundHeader?.map Part.of).toList ++
      [Part.of box.dataInformation, Part.of box.sampleTables]) := by
  have hsize : Format.size box = 8 + sizeOption box.soundHeader? +
      Format.size box.dataInformation + Format.size box.sampleTables := rfl
  have hcontent : content box = encodeOption box.soundHeader? ++
      (encode box.dataInformation ++ (encode box.sampleTables ++ [])) := by
    simp [content, Format.full?, Format.body]
  rw [hcontent, walk_encodeOption (by omega), walk_encode (by omega),
    walk_encode (by omega), walk_nil]
  rfl

theorem size_sampleTables_le {box : MediaInformation}
    (h : Format.size box ≤ maxWord32) :
    Format.size box.sampleTables ≤ maxWord32 := by
  have hsize : Format.size box = 8 + sizeOption box.soundHeader? +
      Format.size box.dataInformation + Format.size box.sampleTables := rfl
  omega

theorem walk_mediaBox {box : Media} (h : Format.size box ≤ maxWord32) :
    walk (content box) = some [Part.of box.header, Part.of box.handler,
      Part.of box.information] := by
  have hsize : Format.size box = 8 + Format.size box.header +
      Format.size box.handler + Format.size box.information := rfl
  have hcontent : content box = encode box.header ++
      (encode box.handler ++ (encode box.information ++ [])) := by
    simp [content, Format.full?, Format.body]
  rw [hcontent, walk_encode (by omega), walk_encode (by omega),
    walk_encode (by omega), walk_nil]
  rfl

theorem size_information_le {box : Media}
    (h : Format.size box ≤ maxWord32) :
    Format.size box.information ≤ maxWord32 := by
  have hsize : Format.size box = 8 + Format.size box.header +
      Format.size box.handler + Format.size box.information := rfl
  omega

theorem walk_trackBox {box : TrackBox} (h : Format.size box ≤ maxWord32) :
    walk (content box) = some (Part.of box.header ::
      ((box.edits?.map Part.of).toList ++ [Part.of box.media])) := by
  have hsize : Format.size box = 8 + Format.size box.header +
      sizeOption box.edits? + Format.size box.media := rfl
  have hcontent : content box = encode box.header ++
      (encodeOption box.edits? ++ (encode box.media ++ [])) := by
    simp [content, Format.full?, Format.body]
  rw [hcontent, walk_encode (by omega), walk_encodeOption (by omega),
    walk_encode (by omega), walk_nil]
  rfl

theorem size_media_le {box : TrackBox}
    (h : Format.size box ≤ maxWord32) :
    Format.size box.media ≤ maxWord32 := by
  have hsize : Format.size box = 8 + Format.size box.header +
      sizeOption box.edits? + Format.size box.media := rfl
  omega

theorem walk_movieBox {box : Movie} (h : Format.size box ≤ maxWord32) :
    walk (content box) = some (Part.of box.header ::
      (box.tracks.map Part.of ++ (box.userData?.map Part.of).toList)) := by
  have hsize : Format.size box = 8 + Format.size box.header +
      sizeList box.tracks + sizeOption box.userData? := rfl
  have hcontent : content box = encode box.header ++
      (encodeList box.tracks ++ (encodeOption box.userData? ++ [])) := by
    simp [content, Format.full?, Format.body]
  rw [hcontent, walk_encode (by omega), walk_encodeList (by omega),
    walk_encodeOption (by omega), walk_nil, Option.map_some, Option.map_some,
    Option.map_some, List.append_nil]

theorem size_track_le {box : Movie} (h : Format.size box ≤ maxWord32)
    {track : TrackBox} (htrack : track ∈ box.tracks) :
    Format.size track ≤ maxWord32 := by
  have hsize : Format.size box = 8 + Format.size box.header +
      sizeList box.tracks + sizeOption box.userData? := rfl
  have hle := size_le_sizeList htrack
  omega

/-- The boxes of the tracks are what they are for the reader. -/
theorem payloads_tracks (movie : Movie) :
    Part.payloads (.ofChars 't' 'r' 'a' 'k') (Part.of movie.header ::
        (movie.tracks.map Part.of ++ (movie.userData?.map Part.of).toList))
      = movie.tracks.map content := by
  have htracks : ∀ tracks : List TrackBox,
      Part.payloads (.ofChars 't' 'r' 'a' 'k')
          (tracks.map Part.of ++ (movie.userData?.map Part.of).toList)
        = tracks.map content := by
    intro tracks
    induction tracks with
    | nil => cases movie.userData? <;> rfl
    | cons track tracks ih => exact congrArg (content track :: ·) ih
  exact htracks movie.tracks

/-- Behind the tracks, none of which is user data, there may be some. -/
theorem payload?_userData (movie : Movie) :
    Part.payload? (.ofChars 'u' 'd' 't' 'a') (Part.of movie.header ::
        (movie.tracks.map Part.of ++ (movie.userData?.map Part.of).toList))
      = movie.userData?.map content := by
  have hbehind : ∀ tracks : List TrackBox,
      Part.payload? (.ofChars 'u' 'd' 't' 'a')
          (tracks.map Part.of ++ (movie.userData?.map Part.of).toList)
        = movie.userData?.map content := by
    intro tracks
    induction tracks with
    | nil => cases movie.userData? <;> rfl
    | cons track tracks ih => exact ih
  exact hbehind movie.tracks

end Box

end AudioMux
