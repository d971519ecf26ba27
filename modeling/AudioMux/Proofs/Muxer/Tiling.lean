/-
The boxes of a closed file, as a reader meets them that walks from one to
the next by their sizes.

Without moving the media these are the file type, 8 bytes of free space,
the media, and the movie box. If the media was moved, the movie box comes
second, at position 32, and perhaps more free space behind it. Media that
does not fit a 32-bit size has a longer header, for which the 8 bytes of
free space in front of it are given up (`Outline`). The walk ends where
the file does.
-/
import AudioMux.Proofs.Box.Walk
import AudioMux.Proofs.Muxer.Layout

namespace AudioMux

open Box

-- ================================================================== outline

/-- The boxes of a closed file. -/
structure Outline where
  fileType : Part
  movie : Part
  gap? : Option Part
  spacer? : Option Part
  media : Part

namespace Outline

/-- The boxes in the order of the file. -/
def parts (optimize : Bool) (outline : Outline) : List Part :=
  if optimize then
    outline.fileType :: outline.movie :: (outline.gap?.toList ++
      (outline.spacer?.toList ++ [outline.media]))
  else
    outline.fileType :: (outline.spacer?.toList ++
      [outline.media, outline.movie])

/-- The boxes are what they should be. The media takes up the spacer in
front of it, which is free space of 8 bytes, if it is too large for a
32-bit size. -/
structure IsProper (outline : Outline) (mediaSize : Nat) : Prop where
  fileType : outline.fileType.kind = .ofChars 'f' 't' 'y' 'p'
  movie : outline.movie.kind = .ofChars 'm' 'o' 'o' 'v'
  gap : ∀ part ∈ outline.gap?, part.kind = .ofChars 'f' 'r' 'e' 'e'
  spacer : ∀ part ∈ outline.spacer?,
    part.kind = .ofChars 'f' 'r' 'e' 'e' ∧ part.size = 8
  spacer_eq_none : outline.spacer? = none ↔ maxWord32 < mediaSize + 8
  media : outline.media.kind = .ofChars 'm' 'd' 'a' 't'
  headerLength : outline.media.headerLength
    = if maxWord32 < mediaSize + 8 then 16 else 8
  size : outline.media.payload.length = mediaSize

/-- The outline of a file with this media and movie box. -/
def of (optimize : Bool) (media : Bytes) (movie : Movie) (gap : Nat) :
    Outline where
  fileType := Part.of FileType.mpeg4Audio
  movie := Part.of movie
  gap? :=
    if optimize ∧ gap - (encode movie).length ≠ 0 then
      some (Part.of (FreeSpace.mk (gap - (encode movie).length)))
    else none
  spacer? :=
    if (MediaDataHeader.mk media.length).isLarge then none
    else some (Part.of (FreeSpace.mk 8))
  media :=
    ⟨mediaDataKind, (MediaDataHeader.mk media.length).length, media⟩

theorem isProper_of (optimize : Bool) (media : Bytes) (movie : Movie)
    (gap : Nat) : (of optimize media movie gap).IsProper media.length where
  fileType := rfl
  movie := rfl
  gap := by
    intro part hpart
    unfold of at hpart
    dsimp only at hpart
    split at hpart
    · cases hpart
      rfl
    · cases hpart
  spacer := by
    intro part hpart
    unfold of at hpart
    dsimp only at hpart
    split at hpart
    · cases hpart
    · cases hpart
      exact ⟨rfl, rfl⟩
  spacer_eq_none := by
    unfold of MediaDataHeader.isLarge
    by_cases h : maxWord32 < media.length + 8
    · simp [h]
    · simp [h]
  media := rfl
  headerLength := by
    unfold of MediaDataHeader.length MediaDataHeader.isLarge
    simp
  size := rfl

end Outline

-- ================================================================== walking

namespace Muxer

theorem walk_fileType (rest : Bytes) :
    walk (fileType ++ rest)
      = (walk rest).map (Part.of FileType.mpeg4Audio :: ·) :=
  walk_encode (by decide) rest

/-- Free space of 8 bytes or none, and the media. -/
theorem walk_media {media : Bytes} (h : media.length + 16 < 2 ^ 64)
    (rest : Bytes) (optimize : Bool) (movie : Movie) (gap : Nat) :
    walk (mediaHead media.length ++ media ++ rest)
      = (walk rest).map
        ((Outline.of optimize media movie gap).spacer?.toList ++
          (Outline.of optimize media movie gap).media :: ·) := by
  have hmedia : walk ((MediaDataHeader.mk media.length).encode ++ media ++
        rest)
      = (walk rest).map
        ((Outline.of optimize media movie gap).media :: ·) := by
    have hlength := length_mediaData media.length
    unfold MediaDataHeader.encode at hlength ⊢
    rw [walk_box mediaDataKind media rest h, hlength]
    rfl
  unfold mediaHead Outline.of
  dsimp only
  split
  · exact hmedia
  · rw [List.append_assoc (encode _), List.append_assoc (encode _),
      walk_encode (by decide), hmedia, Option.map_map]
    rfl

/-- The movie box of a closed file fits a 32-bit size. -/
theorem walk_movie {movie : Movie}
    (h : 8 + (content movie).length ≤ maxWord32) (rest : Bytes) :
    walk (encode movie ++ rest) = (walk rest).map (Part.of movie :: ·) := by
  refine walk_encode ?_ rest
  rw [size_eq_of_length_le h]
  exact h

theorem walk_appended {media : Bytes} {movie : Movie}
    (hmedia : media.length + 16 < 2 ^ 64)
    (hmovie : 8 + (content movie).length ≤ maxWord32) (gap : Nat) :
    walk (appended media movie)
      = some ((Outline.of false media movie gap).parts false) := by
  have hlast : walk (encode movie) = some [Part.of movie] := by
    have := walk_movie hmovie []
    rw [List.append_nil, walk_nil] at this
    exact this
  unfold appended
  rw [List.append_assoc, walk_fileType,
    walk_media hmedia (encode movie) false movie gap, hlast]
  rfl

theorem walk_filler {room : Nat} (h : room ≤ maxWord32) (rest : Bytes) :
    walk (filler room ++ rest)
      = (walk rest).map ((if room ≠ 0 then
          some (Part.of (FreeSpace.mk room)) else none).toList ++ ·) := by
  unfold filler
  by_cases hzero : room = 0
  · rw [if_pos hzero, if_neg (not_not_intro hzero)]
    show walk rest = _
    cases walk rest <;> rfl
  · rw [if_neg hzero, if_pos hzero]
    refine walk_encode ?_ rest
    show max room 8 ≤ maxWord32
    unfold maxWord32 at h ⊢
    omega

theorem walk_prepended {media : Bytes} {movie : Movie} {gap : Nat}
    (hmedia : media.length + 16 < 2 ^ 64)
    (hmovie : 8 + (content movie).length ≤ maxWord32)
    (hslack : gap ≤ (encode movie).length + headroom) :
    walk (prepended media movie gap)
      = some ((Outline.of true media movie gap).parts true) := by
  have hroom : gap - (encode movie).length ≤ maxWord32 := by
    unfold headroom at hslack
    unfold maxWord32
    omega
  have hlast : walk (mediaHead media.length ++ media)
      = some ((Outline.of true media movie gap).spacer?.toList ++
          [(Outline.of true media movie gap).media]) := by
    have := walk_media hmedia [] true movie gap
    rw [List.append_nil, walk_nil] at this
    exact this
  unfold prepended
  rw [walk_fileType, List.append_assoc, walk_movie hmovie,
    walk_filler hroom, hlast]
  simp only [Option.map_some]
  unfold Outline.parts Outline.of
  simp only [true_and, if_true]

end Muxer

-- =================================================================== results

/-- A file consists of the boxes of an outline: they make up all of it,
and the media is where the muxer says, as is an optimized file's movie
box. -/
structure Tiled (optimize : Bool) (file : Bytes)
    (mediaStart mediaSize : Nat) (outline : Outline) : Prop where
  proper : outline.IsProper mediaSize
  walked : walk file = some (outline.parts optimize)
  total : ((outline.parts optimize).map Part.size).sum = file.length
  media : ∃ start,
    (start, outline.media) ∈ Part.locate 0 (outline.parts optimize)
      ∧ start + outline.media.headerLength = mediaStart
  holds : file.HoldsAt mediaStart outline.media.payload
  movie : optimize →
    (32, outline.movie) ∈ Part.locate 0 (outline.parts optimize)

/-- Where the boxes lie follows from their sizes. -/
theorem Tiled.of_walk {optimize : Bool} {file : Bytes}
    {mediaStart mediaSize start : Nat} {outline : Outline}
    (hproper : outline.IsProper mediaSize)
    (hwalk : walk file = some (outline.parts optimize))
    (hmedia : (start, outline.media)
      ∈ Part.locate 0 (outline.parts optimize))
    (hstart : start + outline.media.headerLength = mediaStart)
    (hmovie : optimize →
      (32, outline.movie) ∈ Part.locate 0 (outline.parts optimize)) :
    Tiled optimize file mediaStart mediaSize outline := by
  refine ⟨hproper, hwalk, length_of_walk hwalk, ⟨start, hmedia, hstart⟩,
    ?_, hmovie⟩
  have hholds := (holdsAt_of_walk hwalk hmedia).2
  rw [Nat.sub_zero, hstart] at hholds
  exact hholds

namespace Outline

variable (media : Bytes) {movie : Movie} {gap : Nat}

/-- The free space in front of the media and the header of the media
have 16 bytes together. -/
theorem size_spacer (movie : Movie) (gap : Nat) (optimize : Bool) :
    (((of optimize media movie gap).spacer?.toList.map Part.size).sum +
      (of optimize media movie gap).media.headerLength) = 16 := by
  unfold of MediaDataHeader.length
  dsimp only
  split
  · rfl
  · rfl

/-- The movie box and the free space behind it take up the gap. -/
theorem size_gap (hmovie : 8 + (content movie).length ≤ maxWord32)
    (hroom : (encode movie).length = gap
      ∨ (encode movie).length + 8 ≤ gap) :
    (of true media movie gap).movie.size +
      ((of true media movie gap).gap?.toList.map Part.size).sum = gap := by
  have hlength : (encode movie).length = 8 + (content movie).length := by
    have hsize := size_eq_of_length_le hmovie
    rw [length_encode (by omega), hsize]
  have hbox : (of true media movie gap).movie.size
      = (encode movie).length := hlength.symm
  rw [hbox]
  unfold of
  dsimp only
  split
  · next hfree =>
    have hfree' : (Part.of (FreeSpace.mk
        (gap - (encode movie).length))).size
          = max (gap - (encode movie).length) 8 := by
      show 8 + (content (FreeSpace.mk _)).length = _
      simp only [content, Format.full?, Format.body, Option.elim,
        List.nil_append, Bytes.length_zeros]
      omega
    show _ + (_ + 0) = gap
    rw [hfree']
    omega
  · next hexact =>
    have hzero : gap - (encode movie).length = 0 := by
      simpa using hexact
    show _ + 0 = gap
    omega

/-- The file type box takes up the first 32 bytes. -/
theorem size_fileType (movie : Movie) (gap : Nat) (optimize : Bool) :
    (of optimize media movie gap).fileType.size = 32 := by
  show (Part.of FileType.mpeg4Audio).size = 32
  decide

theorem mem_media_append (movie : Movie) (gap : Nat) :
    ∃ start, (start, (of false media movie gap).media)
        ∈ Part.locate 0 ((of false media movie gap).parts false)
      ∧ start + (of false media movie gap).media.headerLength = 48 := by
  generalize houtline : of false media movie gap = outline
  have hspacer := size_spacer media movie gap false
  have hfileType := size_fileType media movie gap false
  rw [houtline] at hspacer hfileType
  refine ⟨_, Part.mem_locate_append
    (outline.fileType :: outline.spacer?.toList) outline.media
    [outline.movie] 0, ?_⟩
  rw [List.map_cons, List.sum_cons]
  omega

theorem mem_media_prepend
    (hmovie : 8 + (content movie).length ≤ maxWord32)
    (hroom : (encode movie).length = gap
      ∨ (encode movie).length + 8 ≤ gap) :
    ∃ start, (start, (of true media movie gap).media)
        ∈ Part.locate 0 ((of true media movie gap).parts true)
      ∧ start + (of true media movie gap).media.headerLength
        = 48 + gap := by
  have hgap := size_gap media hmovie hroom
  have hspacer := size_spacer media movie gap true
  have hfileType := size_fileType media movie gap true
  generalize of true media movie gap = outline at *
  have hlocate := Part.mem_locate_append (outline.fileType ::
    outline.movie :: (outline.gap?.toList ++ outline.spacer?.toList))
    outline.media [] 0
  have hparts : (outline.fileType :: outline.movie ::
      (outline.gap?.toList ++ outline.spacer?.toList)) ++ [outline.media]
        = outline.parts true := by
    simp [parts]
  rw [hparts] at hlocate
  refine ⟨_, hlocate, ?_⟩
  rw [List.map_cons, List.map_cons, List.map_append, List.sum_cons,
    List.sum_cons, List.sum_append]
  omega

theorem mem_movie_prepend (movie : Movie) (gap : Nat) :
    (32, (of true media movie gap).movie)
      ∈ Part.locate 0 ((of true media movie gap).parts true) := by
  have hlocate := Part.mem_locate_append
    [(of true media movie gap).fileType] (of true media movie gap).movie
    ((of true media movie gap).gap?.toList ++
      ((of true media movie gap).spacer?.toList ++
        [(of true media movie gap).media])) 0
  rw [List.map_cons, List.sum_cons, size_fileType] at hlocate
  exact hlocate

end Outline

namespace Muxer.Closed

variable {optimize : Bool} {muxer done : Muxer FlatFile}
  {intakes : List Intake} {ledger : List Entry} {blocks : List Block}
  {gap : Nat}

/-- Walking a closed file. -/
theorem walk_eq (h : Closed optimize muxer intakes done ledger blocks gap)
    (hlength : muxer.out.sink.bytes.length < 2 ^ 64) :
    walk muxer.out.sink.bytes
      = some ((Outline.of optimize (Block.joined blocks)
          (done.movie gap) gap).parts optimize) := by
  obtain ⟨hseals, hmoved, hmovie, hstart, hsize, hbytes⟩ := h
  have hmedia := length_le_closedFile optimize (Block.joined blocks)
    (done.movie gap) gap
  rw [← hbytes] at hmedia
  unfold mediaOrigin at hmedia
  rw [hbytes]
  cases optimize with
  | false => exact walk_appended (by omega) hmovie gap
  | true =>
      obtain ⟨_, hslack⟩ := hmoved
      rw [movieSize_eq] at hslack
      exact walk_prepended (by omega) hmovie hslack

/-- A closed file is tiled. -/
theorem tiled_bytes (h : Closed optimize muxer intakes done ledger blocks gap)
    (hlength : muxer.out.sink.bytes.length < 2 ^ 64) :
    Tiled optimize muxer.out.sink.bytes muxer.mediaStart muxer.mediaSize
      (Outline.of optimize (Block.joined blocks) (done.movie gap) gap) := by
  have hwalk := h.walk_eq hlength
  obtain ⟨hseals, hmoved, hmovie, hstart, hsize, hbytes⟩ := h
  unfold mediaOrigin at hstart
  rw [hsize, hstart]
  have hproper := Outline.isProper_of optimize (Block.joined blocks)
    (done.movie gap) gap
  cases optimize with
  | false =>
      obtain ⟨start, hmem, hpayload⟩ := Outline.mem_media_append
        (Block.joined blocks) (done.movie gap) gap
      exact .of_walk hproper hwalk hmem (by rw [hpayload, hmoved]) nofun
  | true =>
      obtain ⟨hroom, _⟩ := hmoved
      rw [movieSize_eq] at hroom
      obtain ⟨start, hmem, hpayload⟩ := Outline.mem_media_prepend
        (Block.joined blocks) hmovie hroom
      exact .of_walk hproper hwalk hmem hpayload
        fun _ => Outline.mem_movie_prepend _ _ _

end Muxer.Closed

/-- Whatever was called, on whatever sink that is faithful and was empty:
once the muxer has been finalized its file is tiled by its boxes, with
the media where the muxer says. Positions in a file have 64 bits. -/
theorem Session.tiled {σ : Type} [Sink σ] [FaithfulSink σ]
    {config : MuxerConfig} {now : UInt64} {sink : σ}
    {muxer final : Muxer σ} {calls : List Call} {optimize : Bool}
    (hfresh : FaithfulSink.view sink = .empty)
    (hcreate : Muxer.create config now sink = .ok muxer)
    (hfinalize : Muxer.finalize optimize ((opened muxer).run calls).muxer
      = .ok () final)
    (hlength : (FaithfulSink.view final.out.sink).bytes.length < 2 ^ 64) :
    ∃ outline, Tiled optimize (FaithfulSink.view final.out.sink).bytes
      final.mediaStart final.mediaSize outline := by
  obtain ⟨done, ledger, blocks, gap, hclosed⟩ :=
    exists_closed hfresh hcreate hfinalize
  exact ⟨_, hclosed.tiled_bytes hlength⟩

/-- The short session closes an optimized file that is tiled. -/
theorem tiled_shortSession :
    ∃ (final : Muxer FlatFile) (outline : Outline),
      Muxer.finalize true
          ((Session.opened freshMuxer).run shortSession).muxer
        = .ok () final
      ∧ Tiled true final.out.sink.bytes final.mediaStart final.mediaSize
        outline := by
  obtain ⟨final, hfinalize, hlength⟩ := finalize_shortSession true
  obtain ⟨outline, htiled⟩ := Session.tiled (σ := FlatFile) rfl
    create_default hfinalize (Nat.lt_trans hlength (by decide))
  exact ⟨final, outline, hfinalize, htiled⟩

end AudioMux
