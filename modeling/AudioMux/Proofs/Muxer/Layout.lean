/-
What lies where in a file that is closed.

All bytes of the file are known: the file type, then what stands in
front of the media (`mediaHead`, 16 bytes in any case), the media, and
the movie box, which either comes last (`appendMovie_flat`) or right
after the file type, with free space up to where the media was moved
(`prependMovie_eq_fillGap`). The file is written in another order, and partly
more than once; that this comes to the same is what the laws of
`Bytes.overwrite` are for.
-/
import AudioMux.Proofs.Muxer.Accounting
import AudioMux.Proofs.Muxer.Relocation

namespace AudioMux

open Box
open AccessUnit (payload)

namespace Muxer

-- =================================================================== headers

/-- The file type box. -/
def fileType : Bytes := encode FileType.mpeg4Audio

theorem length_fileType_eq : fileType.length = 32 := length_fileType

/-- The 16 bytes in front of the media: a free box and a short header, or
a long one. -/
def mediaHead (size : Nat) : Bytes :=
  (if (MediaDataHeader.mk size).isLarge then []
    else encode (FreeSpace.mk 8)) ++ (MediaDataHeader.mk size).encode

/-- What is written there first. -/
def mediaSpot : Bytes :=
  encode (FreeSpace.mk 8) ++ Output.openHeader mediaDataKind

theorem length_free : (encode (FreeSpace.mk 8)).length = 8 := by decide

theorem length_mediaSpot : mediaSpot.length = 16 := by decide

theorem length_mediaData (size : Nat) :
    (MediaDataHeader.mk size).encode.length
      = (MediaDataHeader.mk size).length := by
  unfold MediaDataHeader.encode MediaDataHeader.length
    MediaDataHeader.isLarge
  dsimp only
  by_cases h : maxWord32 < size + 8
  · rw [length_header_large _ h]
    simp [h]
  · rw [length_header_small _ (by omega)]
    simp [h]

theorem length_mediaHead (size : Nat) : (mediaHead size).length = 16 := by
  unfold mediaHead
  rw [List.length_append, length_mediaData]
  unfold MediaDataHeader.length
  split
  · rfl
  · rw [length_free]

/-- Writing the header of the media over its spot. -/
theorem overwrite_mediaData (base rest : Bytes) {position size : Nat} :
    (base.overwrite position (mediaSpot ++ rest)).overwrite
        (position + 16 - (MediaDataHeader.mk size).length)
        (MediaDataHeader.mk size).encode
      = base.overwrite position (mediaHead size ++ rest) := by
  have hlength := length_mediaData size
  unfold mediaHead
  unfold MediaDataHeader.length at hlength ⊢
  split
  · next hlarge =>
    rw [if_pos hlarge] at hlength
    have hsame : (MediaDataHeader.mk size).encode.length
        = mediaSpot.length := by rw [hlength, length_mediaSpot]
    exact Bytes.overwrite_again base position [] rest hsame
  · next hsmall =>
    rw [if_neg hsmall] at hlength
    have hsame : (MediaDataHeader.mk size).encode.length
        = (Output.openHeader mediaDataKind).length := by
      rw [hlength, Output.length_openHeader]
    have hposition : position + 16 - 8
        = position + (encode (FreeSpace.mk 8)).length := by
      rw [length_free]
      omega
    rw [hposition]
    exact Bytes.overwrite_again base position _ rest hsame

-- =================================================================== actions

section
variable {muxer : Muxer FlatFile} {file : FlatFile}

/-- The gapless item is a change to the metadata at most. -/
theorem addGaplessItem_ok {σ : Type} (muxer : Muxer σ) :
    ∃ metadata, addGaplessItem muxer
      = .ok () { muxer with metadata := metadata } := by
  have hstore : ∀ name value : String, ∃ metadata,
      storeTag (.freeForm name value) muxer
        = .ok () { muxer with metadata := metadata } := by
    intro name value
    have hencode : ∃ item?,
        (Tag.freeForm name value).encode = .ok item? := by
      show ∃ item?, (if name.isEmpty then Except.ok none
        else .ok (Tag.entryOf (.name name) .utf8 (Bytes.ofText value)))
          = .ok item?
      split
      · exact ⟨_, rfl⟩
      · exact ⟨_, rfl⟩
    obtain ⟨item?, hentry⟩ := hencode
    have hadd : ∃ metadata,
        muxer.metadata.add (.freeForm name value) = .ok metadata := by
      unfold TagTable.add
      rw [hentry]
      cases item? with
      | none => exact ⟨_, rfl⟩
      | some entry => exact ⟨_, rfl⟩
    obtain ⟨metadata, hmetadata⟩ := hadd
    refine ⟨metadata, ?_⟩
    unfold storeTag
    rw [Action.apply_bind_ok (Action.apply_get _), hmetadata]
    rfl
  unfold addGaplessItem
  rw [Action.apply_bind_ok (Action.apply_get _)]
  split
  · cases muxer.tracks.head? with
    | none => exact ⟨muxer.metadata, rfl⟩
    | some track =>
        dsimp only
        split
        · exact hstore _ _
        · exact ⟨muxer.metadata, rfl⟩
  · exact ⟨muxer.metadata, rfl⟩

/-- The muxer with another file. -/
def around (muxer : Muxer FlatFile) (file : FlatFile) : Muxer FlatFile :=
  { muxer with out := .ofSink file }

theorem around_eq_self (hout : muxer.out = .ofSink file) :
    muxer.around file = muxer := by
  unfold around
  rw [← hout]

theorem onOutput_around {α : Type} {action : Writing FlatFile α} {a : α}
    {file' : FlatFile} (h : action (.ofSink file) = .ok a (.ofSink file')) :
    onOutput action (muxer.around file) = .ok a (muxer.around file') :=
  onOutput_ok h

theorem onOutput_around_error {α : Type} {action : Writing FlatFile α}
    {failure : Failure} {file' : FlatFile}
    (h : action (.ofSink file) = .error failure (.ofSink file')) :
    onOutput action (muxer.around file)
      = .error failure (muxer.around file') :=
  onOutput_error h

theorem writeMediaHeader_flat (muxer : Muxer FlatFile) (file : FlatFile) :
    writeMediaHeader (muxer.around file) = .ok () (muxer.around
      (((file.moveTo (muxer.mediaStart -
          (MediaDataHeader.mk muxer.mediaSize).length)).write
        (MediaDataHeader.mk muxer.mediaSize).encode).moveTo
          (muxer.mediaStart + muxer.mediaSize))) := by
  unfold writeMediaHeader
  rw [Action.apply_bind_ok (Action.apply_get _),
    Action.apply_bind_ok (onOutput_around (Output.seek_flat _ _)),
    Action.apply_bind_ok (onOutput_around (Output.write_flat _ _))]
  exact onOutput_around (Output.seek_flat _ _)

/-- A movie box is written whole if its size fits into 32 bits. -/
theorem writeMovie_flat (movie : Movie)
    (h : 8 + (content movie).length ≤ maxWord32) :
    writeMovie movie (.ofSink file)
      = .ok (encode movie).length (.ofSink (file.write (encode movie))) := by
  have hsize := size_eq_of_length_le h
  have hlength : (encode movie).length = 8 + (content movie).length := by
    rw [length_encode (by omega), hsize]
  have hheader : encode movie = Bytes.bigEndian 4 (Format.size movie) ++
      ((Format.kind movie).bytes ++ content movie) := by
    unfold encode header
    rw [if_pos (by omega), List.append_assoc]
  unfold writeMovie
  rw [Action.apply_bind_ok (Output.openBox_flat file _),
    Action.apply_bind_ok (Output.write_flat _ _), FlatFile.write_write,
    Output.closeBox_opened file _ h, ← hsize, ← hheader, hlength, hsize]

/-- A movie box that needs a 64-bit size is refused, once it has been
written. -/
theorem writeMovie_flat_error (movie : Movie)
    (h : maxWord32 < 8 + (content movie).length) :
    writeMovie movie (.ofSink file)
      = .error (.unsupported (.boxTooLarge (8 + (content movie).length)))
          (.ofSink (file.write (Output.openHeader (Format.kind movie) ++
            content movie))) := by
  unfold writeMovie
  rw [Action.apply_bind_ok (Output.openBox_flat file _),
    Action.apply_bind_ok (Output.write_flat _ _), FlatFile.write_write]
  exact Output.closeBox_opened_error file _ h

end

-- ============================================================ sealed files

/-- A file that lacks only the movie box, with the cursor at its end. -/
def sealedFile (media : Bytes) : FlatFile :=
  ⟨fileType ++ (mediaHead media.length ++ media),
    mediaOrigin + media.length⟩

/-- All media is in the file and so is its header; what is missing is
the movie box. -/
structure Sealed (muxer : Muxer FlatFile) (intakes : List Intake)
    (ledger : List Entry) (blocks : List Block) : Prop where
  out : muxer.out = .ofSink (sealedFile (Block.joined blocks))
  headerEnd : muxer.headerEnd = 32
  mediaStart : muxer.mediaStart = mediaOrigin
  tracks : muxer.tracks = ledger.map Entry.track
  intakes : intakes = ledger.map Entry.intake
  few : ledger.length ≤ maxTracks
  sound : ∀ entry ∈ ledger, entry.Sound
  settled : ∀ entry ∈ ledger, entry.track.chunks.pending = []
  size : muxer.mediaSize = (Block.joined blocks).length
  contiguous : Block.Contiguous mediaOrigin blocks
  owned : blocks.Perm (Entry.storedBy ledger)

/-- The preamble ends with the spot for the header of the media. -/
theorem preamble_eq : preamble = fileType ++ mediaSpot := by
  unfold preamble fileType mediaSpot
  rw [List.append_assoc]

end Muxer

namespace Closing

open Muxer

/-- The metadata may change before the file is sealed. -/
theorem withMetadata {muxer : Muxer FlatFile}
    {intakes : List Intake} {ledger : List Entry} {blocks : List Block}
    (h : Closing muxer intakes ledger blocks) (metadata : TagTable) :
    Closing { muxer with metadata := metadata } intakes ledger blocks :=
  ⟨h.fault, h.headerEnd, h.mediaStart, h.tracks, h.intakes, h.few, h.sound,
    h.tidy, h.shelved⟩

/-- Once its tracks are finished a muxer seals the file. -/
theorem sealMedia {muxer : Muxer FlatFile} {intakes : List Intake}
    {ledger : List Entry} {blocks : List Block}
    (h : Closing muxer intakes ledger blocks)
    (hsettled : ∀ entry ∈ ledger, entry.track.chunks.pending = []) :
    ∃ done, Sealed done intakes ledger blocks
      ∧ writeMediaHeader muxer = .ok () done := by
  have hspot := Bytes.overwrite_length fileType
    (mediaSpot ++ Block.joined blocks)
  have hhead := Bytes.overwrite_length fileType
    (mediaHead muxer.mediaSize ++ Block.joined blocks)
  rw [length_fileType_eq] at hspot hhead
  have hplaced : muxer.out.sink.bytes
      = fileType.overwrite 32 (mediaSpot ++ Block.joined blocks) := by
    rw [h.shelved.bytes, preamble_eq, hspot, List.append_assoc]
  have hbytes : muxer.out.sink.bytes.overwrite
        (muxer.mediaStart - (MediaDataHeader.mk muxer.mediaSize).length)
        (MediaDataHeader.mk muxer.mediaSize).encode
      = (sealedFile (Block.joined blocks)).bytes := by
    unfold sealedFile
    rw [← h.shelved.size, hplaced, h.mediaStart, ← hhead]
    exact overwrite_mediaData fileType (Block.joined blocks)
  have hfile : ((muxer.out.sink.moveTo (muxer.mediaStart -
        (MediaDataHeader.mk muxer.mediaSize).length)).write
          (MediaDataHeader.mk muxer.mediaSize).encode).moveTo
            (muxer.mediaStart + muxer.mediaSize)
      = sealedFile (Block.joined blocks) := by
    refine FlatFile.ext hbytes ?_
    show muxer.mediaStart + muxer.mediaSize
      = mediaOrigin + (Block.joined blocks).length
    rw [h.mediaStart, h.shelved.size]
  have hwrite := writeMediaHeader_flat muxer muxer.out.sink
  rw [around_eq_self h.out, hfile] at hwrite
  exact ⟨muxer.around (sealedFile (Block.joined blocks)),
    ⟨rfl, h.headerEnd, h.mediaStart, h.tracks, h.intakes, h.few, h.sound,
      hsettled, h.shelved.size, h.shelved.contiguous, h.shelved.owned⟩,
    hwrite⟩

end Closing

namespace Muxer

theorem length_sealedFile (media : Bytes) :
    (sealedFile media).bytes.length
      = mediaOrigin + media.length := by
  unfold sealedFile mediaOrigin
  rw [List.length_append, List.length_append, length_fileType_eq,
    length_mediaHead]
  omega

-- ======================================================== the movie box last

/-- A file with the movie box behind the media. -/
def appended (media : Bytes) (movie : Movie) : Bytes :=
  fileType ++ (mediaHead media.length ++ media) ++ encode movie

theorem bytes_append (media : Bytes) (movie : Movie) :
    ((sealedFile media).write (encode movie)).bytes
      = appended media movie := by
  rw [FlatFile.write_at_end (length_sealedFile media).symm]
  rfl

section
variable {muxer : Muxer FlatFile}

theorem appendMovie_flat (file : FlatFile)
    (hfits : 8 + (content (muxer.movie 0)).length ≤ maxWord32) :
    appendMovie (muxer.around file)
      = .ok () (muxer.around (file.write (encode (muxer.movie 0)))) := by
  unfold appendMovie
  rw [Action.apply_bind_ok (Action.apply_get _)]
  exact Action.apply_discard_ok
    (onOutput_around (writeMovie_flat (muxer.movie 0) hfits))

theorem appendMovie_flat_error (file : FlatFile)
    (hlarge : maxWord32 < 8 + (content (muxer.movie 0)).length) :
    appendMovie (muxer.around file)
      = .error (.unsupported (.boxTooLarge
          (8 + (content (muxer.movie 0)).length)))
        (muxer.around (file.write (Output.openHeader
          (Format.kind (muxer.movie 0)) ++ content (muxer.movie 0)))) := by
  unfold appendMovie
  rw [Action.apply_bind_ok (Action.apply_get _)]
  exact Action.apply_discard_error
    (onOutput_around_error (writeMovie_flat_error (muxer.movie 0) hlarge))

end

-- ======================================================= the movie box first

/-- What fills the gap behind a movie box. -/
def filler (room : Nat) : Bytes :=
  if room = 0 then [] else encode (FreeSpace.mk room)

theorem length_filler {room : Nat} (h : room = 0 ∨ 8 ≤ room)
    (hmax : room ≤ maxWord32) : (filler room).length = room := by
  unfold filler
  split
  · next hzero => rw [hzero, List.length_nil]
  · have hsize : Format.size (FreeSpace.mk room) = room := by
      show max room 8 = room
      omega
    rw [length_encode (by omega), hsize]

/-- A file with the movie box in front of the media. -/
def prepended (media : Bytes) (movie : Movie) (gap : Nat) : Bytes :=
  fileType ++ (encode movie ++ filler (gap - (encode movie).length) ++
    (mediaHead media.length ++ media))

section
variable {muxer : Muxer FlatFile} {media : Bytes} {gap : Nat}

/-- Writing the movie box into the gap, as the last steps of
`prependMovie`. -/
def fillGap (gap : Nat) : Muxing FlatFile Unit := do
  let movie := (← get).movie 0
  let size ← onOutput (writeMovie movie)
  if size < gap then
    onOutput (Output.put (FreeSpace.mk (gap - size)))
  onOutput (Output.seek ((← get).mediaStart + (← get).mediaSize))

/-- Moving the media of a file in which it comes last. -/
theorem moveMedia_sealed (hstart : muxer.mediaStart = mediaOrigin)
    (hsize : muxer.mediaSize = media.length) (gap : Nat) :
    ∃ cursor, moveMedia gap moveBlock (muxer.around (sealedFile media))
      = .ok () ((muxer.shift gap).around
        ⟨(sealedFile media).bytes.overwrite (muxer.mediaStart + gap) media,
          cursor⟩) := by
  have hinside : mediaOrigin + media.length
      ≤ (sealedFile media).bytes.length :=
    Nat.le_of_eq (length_sealedFile media).symm
  obtain ⟨cursor, hblocks⟩ := moveBlocks_flat gap
    (by decide : 0 < moveBlock) media.length (sealedFile media) hinside
  have hmedia : ((sealedFile media).bytes.drop mediaOrigin).take
      media.length = media := by
    unfold sealedFile mediaOrigin
    rw [← List.append_assoc, List.drop_left' (by
      rw [List.length_append, length_fileType_eq, length_mediaHead])]
    exact List.take_length
  rw [hmedia, ← hstart, ← hsize] at hblocks
  refine ⟨cursor, ?_⟩
  unfold moveMedia
  rw [Action.apply_bind_ok (Action.apply_get _)]
  exact Action.apply_bind_ok (onOutput_around hblocks)

/-- Moving the media by the gap and writing its header in front of it
there. The bytes up to the header stay as they were. -/
theorem prependMovie_eq_fillGap (hheader : muxer.headerEnd = 32)
    (hstart : muxer.mediaStart = mediaOrigin)
    (hsize : muxer.mediaSize = media.length)
    (hgap : muxer.relocationGap = .ok gap) :
    prependMovie (muxer.around (sealedFile media))
      = fillGap gap ((muxer.shift gap).around
        ⟨(sealedFile media).bytes.overwrite (32 + gap)
          (mediaHead media.length ++ media), 32⟩) := by
  obtain ⟨cursor, hmove⟩ := moveMedia_sealed hstart hsize gap
  -- The spot for the header is written in front of the media, and then
  -- the header over it.
  have hposition : muxer.mediaStart + gap = 32 + gap + 16 := by
    rw [hstart]
    unfold mediaOrigin
    omega
  have hspot : ((sealedFile media).bytes.overwrite (muxer.mediaStart + gap)
        media).overwrite (muxer.mediaStart + gap - 16) mediaSpot
      = (sealedFile media).bytes.overwrite (32 + gap)
        (mediaSpot ++ media) := by
    rw [← Bytes.overwrite_prepend, length_mediaSpot, hposition,
      Nat.add_sub_cancel]
  have hbytes : (((sealedFile media).bytes.overwrite
        (muxer.mediaStart + gap) media).overwrite
          (muxer.mediaStart + gap - 16) mediaSpot).overwrite
        (muxer.mediaStart + gap -
          (MediaDataHeader.mk muxer.mediaSize).length)
        (MediaDataHeader.mk muxer.mediaSize).encode
      = (sealedFile media).bytes.overwrite (32 + gap)
        (mediaHead media.length ++ media) := by
    rw [hspot, hposition, overwrite_mediaData, hsize]
  have hgap' : (muxer.around (sealedFile media)).relocationGap = .ok gap :=
    hgap
  unfold prependMovie
  rw [Action.apply_bind_ok (Action.apply_get _), hgap']
  dsimp only
  rw [Action.apply_bind_ok (Action.apply_pure _ _),
    Action.apply_bind_ok hmove, Action.apply_bind_ok (Action.apply_get _),
    Action.apply_bind_ok (onOutput_around (Output.seek_flat _ _)),
    Action.apply_bind_ok (onOutput_around (Output.put_flat _ _)),
    Action.apply_bind_ok (Action.apply_discard_ok
      (onOutput_around (Output.openBox_flat _ _))),
    FlatFile.write_write, Action.apply_bind_ok (writeMediaHeader_flat _ _),
    Action.apply_bind_ok (Action.apply_get _),
    Action.apply_bind_ok (onOutput_around (Output.seek_flat _ _)),
    ← hbytes, ← hheader]
  rfl

/-- The movie box and the filler take up the gap exactly. -/
theorem fillGap_flat {bytes : Bytes}
    (hfits : 8 + (content (muxer.movie 0)).length ≤ maxWord32) :
    fillGap gap (muxer.around ⟨bytes, 32⟩) = .ok () (muxer.around
      ⟨bytes.overwrite 32 (encode (muxer.movie 0) ++
          filler (gap - (encode (muxer.movie 0)).length)),
        muxer.mediaStart + muxer.mediaSize⟩) := by
  have hmovie : (muxer.around ⟨bytes, 32⟩).movie 0 = muxer.movie 0 := rfl
  unfold fillGap
  rw [Action.apply_bind_ok (Action.apply_get _), hmovie,
    Action.apply_bind_ok (onOutput_around
      (writeMovie_flat (muxer.movie 0) hfits))]
  unfold filler
  split
  · next hroom =>
    rw [Action.apply_bind_ok (onOutput_around (Output.put_flat _ _)),
      FlatFile.write_write, if_neg (by omega)]
    rfl
  · next hexact =>
    rw [if_pos (by omega), List.append_nil]
    rfl

theorem fillGap_flat_error {bytes : Bytes}
    (hlarge : maxWord32 < 8 + (content (muxer.movie 0)).length) :
    fillGap gap (muxer.around ⟨bytes, 32⟩)
      = .error (.unsupported (.boxTooLarge
          (8 + (content (muxer.movie 0)).length)))
        (muxer.around ((FlatFile.mk bytes 32).write (Output.openHeader
          (Format.kind (muxer.movie 0)) ++ content (muxer.movie 0)))) := by
  unfold fillGap
  rw [Action.apply_bind_ok (Action.apply_get _)]
  exact Action.apply_bind_error
    (onOutput_around_error (writeMovie_flat_error (muxer.movie 0) hlarge))

/-- A movie box that the gap is meant for takes it up with its filler. -/
theorem length_encode_filler {movie : Movie}
    (hroom : (encode movie).length = gap
      ∨ (encode movie).length + 8 ≤ gap)
    (hslack : gap ≤ (encode movie).length + headroom) :
    (encode movie ++ filler (gap - (encode movie).length)).length
      = gap := by
  have hfiller : (filler (gap - (encode movie).length)).length
      = gap - (encode movie).length := by
    unfold headroom at hslack
    refine length_filler (by omega) ?_
    unfold maxWord32
    omega
  rw [List.length_append, hfiller]
  omega

theorem bytes_prepend {movie : Movie} (hroom : (encode movie).length = gap
      ∨ (encode movie).length + 8 ≤ gap)
    (hslack : gap ≤ (encode movie).length + headroom) :
    ((sealedFile media).bytes.overwrite (32 + gap)
        (mediaHead media.length ++ media)).overwrite 32
          (encode movie ++ filler (gap - (encode movie).length))
      = prepended media movie gap := by
  have hposition : 32 + gap = 32 + (encode movie ++
      filler (gap - (encode movie).length)).length :=
    congrArg (32 + ·) (length_encode_filler hroom hslack).symm
  rw [hposition, Bytes.overwrite_prepend]
  have hlonger : (mediaHead media.length ++ media).length
      ≤ (encode movie ++ filler (gap - (encode movie).length) ++
        (mediaHead media.length ++ media)).length :=
    (List.sublist_append_right _ _).length_le
  have hend := Bytes.overwrite_end fileType hlonger
  rw [length_fileType_eq] at hend
  exact hend

end

-- =================================================================== results

/-- What is left to do once the file is sealed. -/
def addMovie (optimize : Bool) : Muxing FlatFile Unit := do
  if optimize then prependMovie else appendMovie
  onOutput Output.flush

namespace Sealed

variable {muxer : Muxer FlatFile} {intakes : List Intake}
  {ledger : List Entry} {blocks : List Block} {gap : Nat}

/-- All chunks that are filled are in the file. -/
theorem mem_blocks (h : Sealed muxer intakes ledger blocks)
    {entry : Entry} (hentry : entry ∈ ledger) :
    List.Forall₂ (fun chunk units => chunk.SumsUp units
        ∧ (payload units ≠ [] → ⟨chunk.offset, payload units⟩ ∈ blocks))
      entry.track.chunks.newestFirst entry.parts := by
  refine (Chunk.forall₂_blocks (h.sound entry hentry).chunks).imp ?_
  rintro chunk units ⟨hsums, hblock⟩
  refine ⟨hsums, fun hunits => ?_⟩
  have hstored : ⟨chunk.offset, payload units⟩ ∈ entry.stored := by
    unfold Entry.stored Entry.closed
    dsimp only
    rw [h.settled entry hentry]
    refine List.mem_filter.mpr ⟨hblock, ?_⟩
    unfold Block.isFilled
    simpa using hunits
  exact h.owned.mem_iff.mpr (List.mem_flatMap.mpr ⟨entry, hentry, hstored⟩)

theorem around_eq (h : Sealed muxer intakes ledger blocks) :
    muxer.around (sealedFile (Block.joined blocks)) = muxer :=
  around_eq_self h.out

theorem append_ok (h : Sealed muxer intakes ledger blocks)
    (hfits : 8 + (content (muxer.movie 0)).length ≤ maxWord32) :
    addMovie false muxer = .ok () (muxer.around
      ((sealedFile (Block.joined blocks)).write
        (encode (muxer.movie 0)))) := by
  have happend := appendMovie_flat (sealedFile (Block.joined blocks)) hfits
  rw [h.around_eq] at happend
  exact (Action.apply_bind_ok happend).trans
    (onOutput_around (Output.flush_flat _))

theorem append_error (h : Sealed muxer intakes ledger blocks)
    (hlarge : maxWord32 < 8 + (content (muxer.movie 0)).length) :
    ∃ failure file, addMovie false muxer
        = .error failure (muxer.around file)
      ∧ maxWord32 < file.bytes.length := by
  have happend := appendMovie_flat_error (sealedFile (Block.joined blocks))
    hlarge
  rw [h.around_eq] at happend
  refine ⟨_, _, Action.apply_bind_error happend, ?_⟩
  rw [FlatFile.bytes_write]
  refine Nat.lt_of_lt_of_le ?_ (Bytes.length_le_overwrite _ _ _)
  rw [List.length_append, Output.length_openHeader]
  exact hlarge

theorem prepend_ok (h : Sealed muxer intakes ledger blocks)
    (hgap : muxer.relocationGap = .ok gap)
    (hfits : 8 + (content (muxer.movie gap)).length ≤ maxWord32) :
    addMovie true muxer = .ok () ((muxer.shift gap).around
      ⟨prepended (Block.joined blocks) (muxer.movie gap) gap,
        muxer.mediaStart + gap + muxer.mediaSize⟩) := by
  obtain ⟨hroom, hslack⟩ := muxer.fits_of_relocationGap hgap
  rw [movieSize_eq] at hroom hslack
  rw [← movie_shift] at hfits
  have hprepend := prependMovie_eq_fillGap h.headerEnd h.mediaStart h.size
    hgap
  rw [h.around_eq, fillGap_flat hfits, movie_shift,
    bytes_prepend hroom hslack] at hprepend
  exact (Action.apply_bind_ok hprepend).trans
    (onOutput_around (Output.flush_flat _))

theorem prepend_error (h : Sealed muxer intakes ledger blocks)
    (hgap : muxer.relocationGap = .ok gap)
    (hlarge : maxWord32 < 8 + (content (muxer.movie gap)).length) :
    ∃ failure file, addMovie true muxer
        = .error failure ((muxer.shift gap).around file)
      ∧ maxWord32 < file.bytes.length := by
  rw [← movie_shift] at hlarge
  have hprepend := prependMovie_eq_fillGap h.headerEnd h.mediaStart h.size
    hgap
  rw [h.around_eq, fillGap_flat_error hlarge] at hprepend
  refine ⟨_, _, Action.apply_bind_error hprepend, ?_⟩
  rw [FlatFile.bytes_write]
  refine Nat.lt_of_lt_of_le ?_ (Bytes.length_le_overwrite _ _ _)
  rw [List.length_append, Output.length_openHeader]
  exact hlarge

end Sealed

/-- A muxer that is writing seals its file, step by step, and adds the
movie box. -/
theorem seal_of_recording {session : Session FlatFile}
    {ledger : List Entry} {blocks : List Block}
    (h : session.Recording ledger blocks) :
    ∃ finished tagged done ledger' blocks',
      finishTracks { session.muxer with phase := .finalized }
          = .ok () finished
        ∧ addGaplessItem finished = .ok () tagged
        ∧ writeMediaHeader tagged = .ok () done
        ∧ Sealed done session.intakes ledger' blocks'
        ∧ ∀ optimize, finalize optimize session.muxer
          = addMovie optimize done := by
  obtain ⟨finished, ledger', blocks', hfinish, hclosing, hsettled⟩ :=
    h.closing.finishTracks
  obtain ⟨metadata, hitem⟩ := addGaplessItem_ok finished
  obtain ⟨done, hsealed, hseal⟩ :=
    (hclosing.withMetadata metadata).sealMedia hsettled
  refine ⟨finished, _, done, ledger', blocks', hfinish, hitem, hseal,
    hsealed, fun optimize => ?_⟩
  rw [finalize_of_writing h.fault h.phase]
  unfold closeFile
  rw [Action.apply_bind_ok (Action.apply_modify _ _),
    Action.apply_bind_ok hfinish, Action.apply_bind_ok hitem,
    Action.apply_bind_ok hseal]
  rfl

/-- What has to do neither with the tags nor with the file is left alone
on the way from the finished tracks to the sealed file. -/
theorem Aside.seal {X : Type} {look : Muxer FlatFile → X} (h : Aside look)
    {finished tagged done : Muxer FlatFile}
    (hitem : addGaplessItem finished = .ok () tagged)
    (hseal : writeMediaHeader tagged = .ok () done) :
    look done = look finished := by
  have hfirst := keeps_addGaplessItem h finished
  have hsecond := keeps_writeMediaHeader h tagged
  rw [hitem] at hfirst
  rw [hseal] at hsecond
  exact hsecond.trans hfirst

theorem finalize_of_recording {session : Session FlatFile}
    {ledger : List Entry} {blocks : List Block}
    (h : session.Recording ledger blocks) :
    ∃ done ledger' blocks', Sealed done session.intakes ledger' blocks'
      ∧ ∀ optimize, finalize optimize session.muxer
        = addMovie optimize done := by
  obtain ⟨_, _, done, ledger', blocks', _, _, _, hsealed, hfinal⟩ :=
    seal_of_recording h
  exact ⟨done, ledger', blocks', hsealed, hfinal⟩

/-- The bytes of a closed file. -/
def closedFile (optimize : Bool) (media : Bytes) (movie : Movie)
    (gap : Nat) : Bytes :=
  if optimize then prepended media movie gap else appended media movie

/-- There is more in a closed file than the media and the movie box. -/
theorem length_le_closedFile (optimize : Bool) (media : Bytes)
    (movie : Movie) (gap : Nat) :
    mediaOrigin + media.length + (encode movie).length
      ≤ (closedFile optimize media movie gap).length := by
  have hfileType := length_fileType_eq
  have hhead := length_mediaHead media.length
  unfold closedFile prepended appended mediaOrigin
  split
  · simp only [List.length_append]
    omega
  · simp only [List.length_append]
    omega

/-- A muxer that closed its file, as it was when it sealed it: by how
much it moved the media then, and the bytes of the file. -/
structure Closed (optimize : Bool) (muxer : Muxer FlatFile)
    (intakes : List Intake) (done : Muxer FlatFile) (ledger : List Entry)
    (blocks : List Block) (gap : Nat) : Prop where
  seals : Sealed done intakes ledger blocks
  moved : if optimize then done.Fits gap else gap = 0
  movieFits : 8 + (content (done.movie gap)).length ≤ maxWord32
  mediaStart : muxer.mediaStart = mediaOrigin + gap
  mediaSize : muxer.mediaSize = (Block.joined blocks).length
  bytes : muxer.out.sink.bytes
    = closedFile optimize (Block.joined blocks) (done.movie gap) gap

namespace Closed

variable {optimize : Bool} {muxer done : Muxer FlatFile}
  {intakes : List Intake} {ledger : List Entry} {blocks : List Block}
  {gap : Nat}

/-- The media lies where its chunks were moved to. -/
theorem exists_front
    (h : Closed optimize muxer intakes done ledger blocks gap) :
    ∃ front rest, muxer.out.sink.bytes
        = front ++ Block.joined blocks ++ rest
      ∧ front.length = mediaOrigin + gap := by
  have hmoved := h.moved
  have hhead := length_mediaHead (Block.joined blocks).length
  rw [h.bytes]
  unfold closedFile prepended appended mediaOrigin
  cases optimize with
  | false =>
      have hgap : gap = 0 := hmoved
      refine ⟨fileType ++ mediaHead (Block.joined blocks).length,
        encode (done.movie gap), ?_, ?_⟩
      · simp
      · rw [List.length_append, length_fileType_eq, hhead, hgap]
  | true =>
      obtain ⟨hroom, hslack⟩ := hmoved
      rw [movieSize_eq] at hroom hslack
      refine ⟨fileType ++ (encode (done.movie gap) ++
        filler (gap - (encode (done.movie gap)).length) ++
          mediaHead (Block.joined blocks).length), [], ?_, ?_⟩
      · simp
      · rw [List.length_append, List.length_append, length_fileType_eq,
          hhead, length_encode_filler hroom hslack]
        omega

/-- The file holds what the chunks stand for, and none lies behind its
end. -/
theorem holdsAt_chunks
    (h : Closed optimize muxer intakes done ledger blocks gap)
    {entry : Entry} (hentry : entry ∈ ledger) :
    List.Forall₂ (fun chunk units => chunk.SumsUp units
        ∧ chunk.offset + gap ≤ muxer.out.sink.bytes.length
        ∧ muxer.out.sink.bytes.HoldsAt (chunk.offset + gap)
          (payload units))
      entry.track.chunks.newestFirst entry.parts := by
  obtain ⟨front, rest, hbytes, hfront⟩ := h.exists_front
  refine (h.seals.mem_blocks hentry).imp ?_
  rintro chunk units ⟨hsums, hblock⟩
  by_cases hunits : payload units = []
  · rw [hsums.unplaced hunits, hunits]
    refine ⟨hsums, ?_, Bytes.holdsAt_nil _ _⟩
    rw [hbytes, List.length_append, List.length_append]
    omega
  · have hmem := hblock hunits
    have hend := h.seals.contiguous.endOf_le _ hmem
    have hholds := h.seals.contiguous.holdsAt gap hfront rest _ hmem
    rw [← hbytes] at hholds
    refine ⟨hsums, ?_, hholds⟩
    unfold Block.endOf at hend
    dsimp only at hend
    rw [hbytes, List.length_append, List.length_append]
    omega

theorem offset_le
    (h : Closed optimize muxer intakes done ledger blocks gap)
    {entry : Entry} (hentry : entry ∈ ledger) {chunk : Chunk}
    (hchunk : chunk ∈ entry.track.chunks.newestFirst) :
    chunk.offset + gap ≤ muxer.out.sink.bytes.length := by
  have hchunks := h.holdsAt_chunks hentry
  revert hchunk hchunks
  generalize entry.track.chunks.newestFirst = chunks
  generalize entry.parts = parts
  intro hchunk hchunks
  induction hchunks with
  | nil => cases hchunk
  | cons hfirst _ ih =>
      rcases List.mem_cons.mp hchunk with rfl | hmem
      · exact hfirst.2.1
      · exact ih hmem

end Closed

namespace Sealed

variable {done : Muxer FlatFile} {intakes : List Intake}
  {ledger : List Entry} {blocks : List Block} {gap : Nat}

/-- With the movie box behind the media the file is closed, if the movie
box fits, and is larger than 32 bits can say if not. -/
theorem append_cases (h : Sealed done intakes ledger blocks) :
    (∃ final, addMovie false done = .ok () final
        ∧ final.out.fault? = none
        ∧ Closed false final intakes done ledger blocks 0)
      ∨ ∃ failure final, addMovie false done = .error failure final
        ∧ final.out.fault? = none
        ∧ maxWord32 < final.out.sink.bytes.length := by
  by_cases hfits : 8 + (content (done.movie 0)).length ≤ maxWord32
  · exact Or.inl ⟨_, h.append_ok hfits, rfl, h, rfl, hfits, h.mediaStart,
      h.size, bytes_append _ _⟩
  · obtain ⟨failure, file, herror, hlong⟩ := h.append_error (by omega)
    exact Or.inr ⟨failure, _, herror, rfl, hlong⟩

/-- The same with the movie box in front of the media. With at most two
tracks there is room for it. -/
theorem prepend_cases (h : Sealed done intakes ledger blocks) :
    (∃ final gap, addMovie true done = .ok () final
        ∧ final.out.fault? = none
        ∧ Closed true final intakes done ledger blocks gap)
      ∨ ∃ failure final, addMovie true done = .error failure final
        ∧ final.out.fault? = none
        ∧ maxWord32 < final.out.sink.bytes.length := by
  have hfew : done.tracks.length ≤ 2 := by
    rw [h.tracks, List.length_map]
    exact h.few
  obtain ⟨gap, hgap⟩ := done.relocationGap_ok hfew
  by_cases hfits : 8 + (content (done.movie gap)).length ≤ maxWord32
  · refine Or.inl ⟨_, gap, h.prepend_ok hgap hfits, rfl, h,
      done.fits_of_relocationGap hgap, hfits, ?_, h.size, rfl⟩
    show done.mediaStart + gap = _
    rw [h.mediaStart]
  · obtain ⟨failure, file, herror, hlong⟩ :=
      h.prepend_error hgap (by omega)
    exact Or.inr ⟨failure, _, herror, rfl, hlong⟩

/-- Either way the file is closed, unless the movie box is too large. -/
theorem addMovie_cases (h : Sealed done intakes ledger blocks)
    (optimize : Bool) :
    (∃ final gap, addMovie optimize done = .ok () final
        ∧ final.out.fault? = none
        ∧ Closed optimize final intakes done ledger blocks gap)
      ∨ ∃ failure final, addMovie optimize done = .error failure final
        ∧ final.out.fault? = none
        ∧ maxWord32 < final.out.sink.bytes.length := by
  cases optimize with
  | false =>
      rcases h.append_cases with ⟨final, hok, hfault, hclosed⟩ | herror
      · exact Or.inl ⟨final, 0, hok, hfault, hclosed⟩
      · exact Or.inr herror
  | true => exact h.prepend_cases

end Sealed

/-- A muxer that is writing closes its file like this, if it can. -/
theorem closed_of_recording {session : Session FlatFile}
    {ledger : List Entry} {blocks : List Block}
    (h : session.Recording ledger blocks) {optimize : Bool}
    {muxer : Muxer FlatFile}
    (hfinalize : finalize optimize session.muxer = .ok () muxer) :
    ∃ done ledger' blocks' gap,
      Closed optimize muxer session.intakes done ledger' blocks' gap := by
  obtain ⟨done, ledger', blocks', hdone, hfinal⟩ :=
    finalize_of_recording h
  rw [hfinal] at hfinalize
  rcases hdone.addMovie_cases optimize with
    ⟨final, gap, hok, _, hclosed⟩ | ⟨failure, final, herror, _⟩
  · rw [hok] at hfinalize
    cases hfinalize
    exact ⟨done, ledger', blocks', gap, hclosed⟩
  · rw [herror] at hfinalize
    cases hfinalize

/-- Only a muxer that is writing and has met no fault can be
finalized. -/
theorem writing_of_finalize {σ : Type} [Sink σ] {optimize : Bool}
    {muxer after : Muxer σ} (h : finalize optimize muxer = .ok () after) :
    muxer.phase = .writing ∧ muxer.out.fault? = none := by
  have hfault : muxer.out.fault? = none := by
    cases hfault : muxer.out.fault? with
    | none => rfl
    | some fault =>
        have hsome : muxer.out.fault?.isSome := by
          rw [hfault]
          rfl
        cases h.symm.trans
          ((Call.finalize optimize).perform_of_fault hsome)
  refine ⟨?_, hfault⟩
  unfold finalize at h
  rw [Action.apply_bind_ok (Call.checkFault_of_no_fault hfault),
    Action.apply_bind_ok (Action.apply_get _)] at h
  cases hphase : muxer.phase with
  | writing => rfl
  | configuring =>
      rw [hphase] at h
      cases h
  | finalized =>
      rw [hphase] at h
      cases h

end Muxer

namespace Session

section
variable {σ : Type} [Sink σ] [FaithfulSink σ] {config : MuxerConfig}
  {now : UInt64} {sink : σ} {muxer final : Muxer σ} {calls : List Call}
  {optimize : Bool} (hfresh : FaithfulSink.view sink = .empty)
  (hcreate : Muxer.create config now sink = .ok muxer)
  (hfinalize : Muxer.finalize optimize ((opened muxer).run calls).muxer
    = .ok () final)

include hfresh hcreate hfinalize

/-- Whatever was called, on whatever sink that is faithful and was empty: a
muxer that can be finalized was writing its file. -/
theorem recording_of_finalize :
    ∃ ledger blocks,
      ((opened muxer).run calls).image.Recording ledger blocks := by
  obtain ⟨hphase, hnone⟩ := Muxer.writing_of_finalize hfinalize
  refine exists_recording hfresh hcreate hphase ?_
  unfold Faulted
  rw [hnone]
  exact nofun

/-- Once it has been finalized its file is closed. -/
theorem exists_closed :
    ∃ done ledger blocks gap, Muxer.Closed optimize final.image
      ((opened muxer).run calls).intakes done ledger blocks gap := by
  obtain ⟨ledger, blocks, h⟩ :=
    recording_of_finalize hfresh hcreate hfinalize
  exact Muxer.closed_of_recording h
    ((Muxer.mirrors_finalize optimize _).1 () final hfinalize)

end

end Session

end AudioMux
