/-
What a decoder asks for, read back from the descriptors of a file.

The descriptor of a stream holds that of its decoder configuration, and this
one what the decoder asks for. Each has its size in front, of which there
are 28 bits. The outermost is the largest, so a reader comes out at the end
of all of them as long as the size of the stream is told in full. From there
on bytes are left behind that the reader was not told of
(`whole?_aacReader`).

Nothing on the way looks at the size: what was set last is set, and the file
is closed if the movie box fits into 32 bits. So a reader gets it back up to
a length and not beyond (`Session.decoder_info_read_eq`).
-/
import AudioMux.Proofs.Muxer.Script

namespace AudioMux

open Box

-- ============================================================= descriptors

namespace Box

/-- The stream as it is written, with as much of the buffer size as there is
room for. -/
def Descriptor.Stream.cut (stream : Descriptor.Stream) :
    Descriptor.Stream :=
  ⟨{ stream.decoderConfig with
    bufferSize :=
      UInt32.ofNat (stream.decoderConfig.bufferSize.toNat % 2 ^ 24) }⟩

theorem toNat_bufferSize_cut (stream : Descriptor.Stream) :
    stream.cut.decoderConfig.bufferSize.toNat
      = stream.decoderConfig.bufferSize.toNat % 256 ^ 3 := by
  have hlt : stream.decoderConfig.bufferSize.toNat % 2 ^ 24 < 2 ^ 24 :=
    Nat.mod_lt _ (by decide)
  exact UInt32.toNat_ofNat_of_lt' (Nat.lt_trans hlt (by decide))

theorem encode_cut (stream : Descriptor.Stream) :
    stream.cut.encode = stream.encode := by
  unfold Descriptor.Stream.encode Descriptor.DecoderConfig.encode
  rw [toNat_bufferSize_cut, bigEndian_mod]
  rfl

/-- A reader gets through the descriptors if the size of the stream is told
in full, and not otherwise. -/
theorem whole?_aacReader (stream : Descriptor.Stream) :
    Reader.whole? CodecConfig.aacReader (content (CodecConfig.aac stream))
      = if stream.payloadSize < 2 ^ 28 then some (.aac stream.cut)
        else none := by
  have hcontent : content (CodecConfig.aac stream)
      = VersionFlags.plain.encode ++ stream.encode := rfl
  have hversion : Takes Reader.versionFlags VersionFlags.plain.encode
      ⟨0, 0⟩ := takes_versionFlags (by decide)
  split
  · next hsize =>
    have hbuffer : stream.cut.decoderConfig.bufferSize.toNat < 2 ^ 24 := by
      rw [toNat_bufferSize_cut]
      exact Nat.mod_lt _ (by decide)
    rw [hcontent, ← encode_cut]
    exact whole?_of_reads (reads_aac ⟨hbuffer, hsize⟩)
  · next hsize =>
    refine whole?_eq_none fun config hread => ?_
    unfold CodecConfig.aacReader at hread
    rw [hcontent, hversion.bind_reads_iff] at hread
    obtain ⟨⟨found, behind⟩, hfound, hlast⟩ :=
      Option.bind_eq_some_iff.mp hread
    cases hlast
    rw [Descriptor.encode_stream] at hfound
    refine Descriptor.not_reads_descriptor _ ?_ found hfound
    rw [Descriptor.length_payload]
    omega

end Box

-- ============================================================== the reader

/-- What the decoder of a track asks for, given the content of its box. -/
def readDecoderInfo? (track : Bytes) : Option Bytes := do
  let media ← child? (.ofChars 'm' 'd' 'i' 'a') track
  let information ← child? (.ofChars 'm' 'i' 'n' 'f') media
  let tables ← child? (.ofChars 's' 't' 'b' 'l') information
  let description ← child? (.ofChars 's' 't' 's' 'd') tables
  -- The version and the count are in front of the sample entry, and what
  -- it says of the sound is in front of the descriptors.
  let entry ← child? (.ofChars 'm' 'p' '4' 'a') (description.drop 8)
  let descriptors ← child? (.ofChars 'e' 's' 'd' 's') (entry.drop 28)
  match ← Reader.whole? CodecConfig.aacReader descriptors with
  | .aac stream => pure stream.decoderConfig.info
  | .alac _ => none

/-- The content of the box of a track. -/
def trackAt? (file : Bytes) (index : Nat) : Option Bytes := do
  let movie ← child? (.ofChars 'm' 'o' 'o' 'v') file
  let parts ← walk movie
  (Part.payloads (.ofChars 't' 'r' 'a' 'k') parts)[index]?

/-- What the decoder of one of the tracks of a file asks for. -/
def decoderInfoAt? (file : Bytes) (index : Nat) : Option Bytes :=
  (trackAt? file index).bind readDecoderInfo?

/-- A box that is alone is found. -/
theorem child?_encode {α : Type} [Format α] [Measured α] {box : α}
    {kind : FourCC} (hkind : Format.kind box = kind)
    (h : Format.size box ≤ maxWord32) :
    child? kind (encode box) = some (content box) := by
  unfold child?
  rw [walk_encode_self h]
  exact payload?_cons hkind

/-- Behind the version and the count there is the sample entry. -/
theorem drop_description (box : SampleDescription) :
    (content box).drop 8 = encode box.entry := by
  have hcontent : content box
      = (VersionFlags.plain.encode ++ Bytes.bigEndian 4 1)
        ++ encode box.entry := by
    simp [content, Format.full?, Format.body, countedList]
  rw [hcontent]
  exact List.drop_left' rfl

/-- Behind what an entry says of the sound there is its configuration. -/
theorem drop_audioEntry (entry : AudioSampleEntry) :
    (content (SampleEntry.audio entry)).drop 28 = encode entry.config :=
  List.drop_left'
    (show (Bytes.zeros 6 ++ Bytes.word16 entry.dataReferenceIndex ++
      Bytes.zeros 8 ++ Bytes.word16 entry.channelCount ++
      Bytes.word16 entry.sampleSize ++ Bytes.zeros 2 ++ Bytes.zeros 2 ++
      Bytes.word32 entry.sampleRate).length = 28 by simp)

/-- What the reader makes of the box of a track of AAC. -/
theorem readDecoderInfo?_content {box : TrackBox}
    (h : Format.size box ≤ maxWord32) {entry : AudioSampleEntry}
    {stream : Descriptor.Stream}
    (hentry : box.media.information.sampleTables.description.entry
      = .audio entry)
    (hconfig : entry.config = .aac stream) :
    readDecoderInfo? (content box)
      = if stream.payloadSize < 2 ^ 28 then some stream.decoderConfig.info
        else none := by
  have hmedia := size_media_le h
  have hinformation := size_information_le hmedia
  have htables := size_sampleTables_le hinformation
  have hsize : Format.size box.media.information.sampleTables
      = 8 + (16 + Format.size
          box.media.information.sampleTables.description.entry) + _ + _ + _
        + _ + _ + _ := rfl
  have haudio : Format.size (SampleEntry.audio entry)
      = 36 + Format.size entry.config := rfl
  have hkind : Format.kind (SampleEntry.audio entry)
      = .ofChars 'm' 'p' '4' 'a' := congrArg CodecConfig.entryKind hconfig
  rw [hentry] at hsize
  rw [hconfig] at haudio
  have hmp4a := child?_encode hkind (by omega)
  have hesds : child? (.ofChars 'e' 's' 'd' 's')
      (encode (CodecConfig.aac stream)) = some _ :=
    child?_encode rfl (by omega)
  unfold readDecoderInfo?
  simp only [child?_media h, child?_information hmedia,
    child?_sampleTables hinformation, child?_description htables,
    drop_description, hentry, hmp4a, drop_audioEntry, hconfig, hesds,
    whole?_aacReader, Option.bind_eq_bind, Option.bind_some]
  split <;> rfl

-- ============================================================ what was set

namespace Muxer

variable {σ : Type}

/-- How the samples of one of the tracks are to be decoded. -/
def codingAt? (index : Nat) (muxer : Muxer σ) : Option Coding :=
  muxer.codings[index]?

theorem keeps_codingAt?_of_settings {index : Nat} {α : Type}
    {action : Muxing σ α}
    (h : Action.Keeps (settings Track.coding) action) :
    Action.Keeps (codingAt? index) action :=
  fun muxer => congrArg (·[index]?) (h muxer)

/-- Configuring another track. -/
theorem keeps_codingAt?_configureTrack {index other : Nat}
    (h : other ≠ index) (change : Track → Track) :
    Action.Keeps (codingAt? index) (configureTrack (σ := σ) other change) := by
  refine Action.keeps_bind (keeps_codingAt?_of_settings
    (keeps_settings_checkConfigurable Track.coding)) fun _ muxer => ?_
  cases htrack : muxer.tracks[other]? with
  | none =>
      rw [onTrack_none htrack]
      rfl
  | some track =>
      rw [onTrack_ok htrack (Action.apply_modify _ (track, muxer.out))]
      show ((muxer.tracks.set other (change track)).map Track.coding)[index]?
        = (muxer.tracks.map Track.coding)[index]?
      rw [List.getElem?_map, List.getElem?_set_ne h, List.getElem?_map]

end Muxer

namespace Session

variable {σ : Type} [Sink σ] {session : Session σ} {index : Nat}

theorem after_proceed {X : Type} {look : Muxer σ → X} (call : Call)
    (h : Action.Keeps look (call.perform (σ := σ))) :
    look (session.proceed call).muxer = look session.muxer := by
  have hkept := h session.muxer
  cases hrun : call.perform session.muxer with
  | ok _ next =>
      rw [proceed_ok call hrun]
      rw [hrun] at hkept
      exact hkept
  | error failure next =>
      rw [proceed_error call hrun]
      rw [hrun] at hkept
      exact hkept

/-- However a call goes, it leaves a track that is there as it is coded,
unless it sets what the decoder of this track asks for. -/
theorem codingAt?_proceed {call : Call} {coding : Coding}
    (hcall : ∀ info, call ≠ .setDecoderInfo index info)
    (h : session.muxer.codingAt? index = some coding) :
    (session.proceed call).muxer.codingAt? index = some coding := by
  cases call with
  | addTrack codec timescale =>
      unfold Muxer.codingAt? Muxer.codings at h ⊢
      rcases session.muxer.addTrack_cases codec timescale with
        ⟨failure, next, hrun, htracks⟩ | ⟨_, next, hrun, _, htracks⟩
      · rw [proceed_error (.addTrack codec timescale)
          (Action.apply_discard_error hrun), htracks]
        exact h
      · rw [proceed_ok (.addTrack codec timescale)
          (Action.apply_discard_ok hrun), htracks, List.map_append]
        have hindex := (List.getElem?_eq_some_iff.mp h).1
        exact (List.getElem?_append_left hindex).trans h
  | setDecoderInfo other info =>
      have hother : other ≠ index := by
        rintro rfl
        exact hcall info rfl
      exact (after_proceed _
        (Muxer.keeps_codingAt?_configureTrack hother _)).trans h
  | setChannels | setFixedDuration | setVariableBitrate | setPriming
  | setGapless | addTag | beginWriting | appendSample | finalize =>
      refine (after_proceed _ (Muxer.keeps_codingAt?_of_settings ?_)).trans h
      exact Call.keeps_codings nofun nofun

theorem codingAt?_run {calls : List Call} {coding : Coding}
    (hcalls : ∀ info, .setDecoderInfo index info ∉ calls)
    (h : session.muxer.codingAt? index = some coding) :
    (session.run calls).muxer.codingAt? index = some coding := by
  apply List.foldlRecOn
    (motive := fun session : Session σ =>
      session.muxer.codingAt? index = some coding) calls proceed h
  intro session hsession call hcall
  refine codingAt?_proceed (fun info heq => hcalls info ?_) hsession
  exact heq ▸ hcall

/-- What was set last is set from then on. -/
theorem codingAt?_set {session : Session σ} {info : Bytes}
    {configured : Muxer σ} {calls : List Call} {track : Track}
    (hset : Muxer.setDecoderInfo index info session.muxer = .ok () configured)
    (htrack : configured.tracks[index]? = some track)
    (hlast : ∀ later, .setDecoderInfo index later ∉ calls) :
    (session.run (.setDecoderInfo index info :: calls)).muxer.codingAt? index
      = some ⟨track.codec, track.timescale, info⟩ := by
  have hproceed : session.proceed (.setDecoderInfo index info)
      = ⟨configured, session.intakes⟩ := proceed_ok _ hset
  have hcoding : configured.codings[index]? = some track.coding := by
    unfold Muxer.codings
    rw [List.getElem?_map, htrack]
    rfl
  have hmodified := congrArg (·[index]?) (Call.codings_of_setDecoderInfo hset)
  have hinfo : track.decoderInfo = info := by
    rw [hcoding, List.getElem?_modify] at hmodified
    simp only [if_true] at hmodified
    obtain ⟨_, _, hset⟩ := Option.map_eq_some_iff.mp hmodified.symm
    exact (congrArg Coding.info hset).symm
  show ((session.proceed _).run calls).muxer.codingAt? index = _
  rw [hproceed, ← hinfo]
  exact codingAt?_run hlast hcoding

end Session

-- ================================================================ closing

namespace Muxer

variable {optimize : Bool} {muxer done : Muxer FlatFile}
  {intakes : List Intake} {ledger : List Entry} {blocks : List Block}
  {gap : Nat}

/-- Closing a file behind which the movie box fits: there is nothing in it
but what is in front of the media, the media and the movie box. -/
theorem Sealed.exists_appended
    (h : Sealed muxer intakes ledger blocks)
    (hsize : Format.size (muxer.movie 0) ≤ maxWord32) :
    ∃ final, addMovie false muxer = .ok () final
      ∧ final.out.sink.bytes.length
        = 48 + muxer.mediaSize + Format.size (muxer.movie 0) := by
  have hfits := (Measured.fair (muxer.movie 0)).2 hsize
  refine ⟨_, h.append_ok (by omega), ?_⟩
  show ((sealedFile (Block.joined blocks)).write
    (encode (muxer.movie 0))).bytes.length = _
  rw [bytes_append]
  unfold appended
  simp only [List.length_append, length_fileType_eq,
    length_mediaHead]
  rw [length_encode hsize, h.size]
  omega

theorem Closed.trackAt?_eq
    (h : Closed optimize muxer intakes done ledger blocks gap)
    (hlength : muxer.out.sink.bytes.length < 2 ^ 64) {index : Nat}
    {entry : Entry} (hentry : ledger[index]? = some entry) :
    trackAt? muxer.out.sink.bytes index
      = some (content (done.trackBox gap index entry.track)) := by
  have hbox : (done.movie gap).tracks[index]?
      = some (done.trackBox gap index entry.track) := by
    show (done.tracks.mapIdx (done.trackBox gap))[index]? = _
    rw [h.seals.tracks, List.getElem?_mapIdx, List.getElem?_map, hentry]
    rfl
  unfold trackAt?
  rw [h.child?_movie hlength, Option.bind_eq_bind, Option.bind_some,
    walk_movieBox h.size_movie, Option.bind_eq_bind, Option.bind_some,
    payloads_tracks, List.getElem?_map, hbox]
  rfl

/-- A reader gets back what the decoder of a track of AAC asks for if there
is room for its size. -/
theorem Closed.decoderInfoAt?_eq
    (h : Closed optimize muxer intakes done ledger blocks gap)
    (hlength : muxer.out.sink.bytes.length < 2 ^ 64) {index : Nat}
    {entry : Entry} (hentry : ledger[index]? = some entry)
    (hcodec : entry.track.codec = .aac) :
    decoderInfoAt? muxer.out.sink.bytes index
      = if entry.track.decoderInfo.length < 2 ^ 28 - 32 then
          some entry.track.decoderInfo
        else none := by
  have hsample : entry.track.sampleEntry
      = .audio (entry.track.audioEntry
          (.aac ⟨entry.track.decoderConfig⟩)) := by
    unfold Track.sampleEntry
    rw [hcodec]
  have hpayload : Descriptor.Stream.payloadSize ⟨entry.track.decoderConfig⟩
      = 3 + (5 + (18 + entry.track.decoderInfo.length)) + 5 + 1 := rfl
  have hroom : Descriptor.Stream.payloadSize ⟨entry.track.decoderConfig⟩
      < 2 ^ 28 ↔ entry.track.decoderInfo.length < 2 ^ 28 - 32 := by
    rw [hpayload]
    omega
  unfold decoderInfoAt?
  rw [h.trackAt?_eq hlength hentry, Option.bind_some,
    readDecoderInfo?_content (h.size_trackBox hentry) hsample rfl]
  simp only [hroom]
  rfl

end Muxer

-- ============================================================= a short run

/-- A muxer that was told what its decoder asks for, and then begins. -/
def Session.told (info : Bytes) : Session FlatFile :=
  (opened freshMuxer).run [.setDecoderInfo 0 info, .beginWriting]

/-- Nothing but what the decoder asks for is in the file before the movie
box is added, and the movie box has 526 bytes beside it. -/
theorem sealed_told (info : Bytes) :
    ∃ done ledger blocks,
      Muxer.Sealed done (Session.told info).intakes ledger blocks
        ∧ (∀ optimize, Muxer.finalize optimize (Session.told info).muxer
          = Muxer.addMovie optimize done)
        ∧ done.mediaSize = 0
        ∧ Format.size (done.movie 0) = 526 + info.length := by
  have hcreate : Muxer.create
      { MuxerConfig.default with noTimestamp := true } 0 FlatFile.empty
        = .ok freshMuxer := rfl
  have hfault : ¬ (Session.told info).Faulted := nofun
  obtain ⟨ledger, blocks, hwriting⟩ :=
    Session.exists_recording rfl hcreate rfl hfault
  obtain ⟨finished, tagged, done, ledger', blocks', hfinish, hitem, hseal,
    hsealed, hfinal⟩ := Muxer.seal_of_recording hwriting
  -- There is nothing left to write of the track, and no item to add.
  have hfinish' : Muxer.finishTracks
      { (Session.told info).muxer with phase := .finalized }
    = .ok () { (Session.told info).muxer with phase := .finalized } := rfl
  have hitem' : Muxer.addGaplessItem
      { (Session.told info).muxer with phase := .finalized }
    = .ok () { (Session.told info).muxer with phase := .finalized } := rfl
  obtain ⟨-, rfl⟩ := EStateM.Result.ok.inj (hfinish'.symm.trans hfinish)
  obtain ⟨-, rfl⟩ := EStateM.Result.ok.inj (hitem'.symm.trans hitem)
  have hseal' := Muxer.writeMediaHeader_flat
    { (Session.told info).muxer with phase := .finalized }
    (Session.told info).muxer.out.sink
  obtain ⟨-, rfl⟩ := EStateM.Result.ok.inj (hseal'.symm.trans hseal)
  generalize hdone : Muxer.around _ _ = done at hsealed hfinal
  -- The boxes from the outside in, with the headers that are in front of
  -- what the decoder asks for.
  have hnested : Format.size (done.movie 0)
      = 8 + 108 + (8 + 92 + (8 + 32 + 33 + (8 + 16 + 36 + (8 + (16 + (36
        + (12 + (5 + (3 + (5 + (18 + info.length)) + 5 + 1)))))
        + 16 + 16 + 20 + 16)))) := by
    rw [← hdone]
    rfl
  have hmedia : done.mediaSize = 0 := by
    rw [← hdone]
    rfl
  exact ⟨done, ledger', blocks', hsealed, hfinal, hmedia, by omega⟩

/-- The movie box of a file without samples has room for a lot. -/
theorem finalize_told {info : Bytes} (h : info.length + 526 ≤ maxWord32) :
    ∃ final, Muxer.finalize false (Session.told info).muxer = .ok () final
      ∧ final.out.sink.bytes.length = 574 + info.length := by
  obtain ⟨done, _, _, hsealed, hfinal, hmedia, hsize⟩ := sealed_told info
  obtain ⟨final, hok, hlength⟩ := hsealed.exists_appended (by omega)
  exact ⟨final, (hfinal false).trans hok, by omega⟩

-- ================================================================= result

section
variable {σ : Type} [Sink σ] [FaithfulSink σ] {config : MuxerConfig}
  {now : UInt64} {sink : σ} {muxer configured final : Muxer σ}
  {before calls : List Call} {index : Nat} {info : Bytes} {track : Track}
  {optimize : Bool}

/-- The track is closed with what was set last. -/
theorem Session.exists_entry_set
    (hfresh : FaithfulSink.view sink = .empty)
    (hcreate : Muxer.create config now sink = .ok muxer)
    (hset : Muxer.setDecoderInfo index info
      ((opened muxer).run before).muxer = .ok () configured)
    (htrack : configured.tracks[index]? = some track)
    (hlast : ∀ later, .setDecoderInfo index later ∉ calls)
    (hfinalize : Muxer.finalize optimize
      ((opened muxer).run
        (before ++ .setDecoderInfo index info :: calls)).muxer
      = .ok () final) :
    ∃ intakes done ledger blocks gap entry,
      Muxer.Closed optimize final.image intakes done ledger blocks gap
        ∧ ledger[index]? = some entry
        ∧ entry.track.coding = ⟨track.codec, track.timescale, info⟩ := by
  have hcoding := codingAt?_set hset htrack hlast
  rw [← run_append] at hcoding
  obtain ⟨_, _, h⟩ := recording_of_finalize hfresh hcreate hfinalize
  obtain ⟨done, ledger, blocks, gap, hclosed, hcodings⟩ :=
    Muxer.closed_codings h
      ((Muxer.mirrors_finalize optimize _).1 () final hfinalize)
  obtain ⟨entry, hentry, hsame⟩ : ∃ entry, ledger[index]? = some entry
      ∧ entry.track.coding = ⟨track.codec, track.timescale, info⟩ := by
    refine Option.map_eq_some_iff.mp ?_
    rw [← List.getElem?_map, hcodings]
    exact hcoding
  exact ⟨_, done, ledger, blocks, gap, entry, hclosed, hentry, hsame⟩

/-- Whatever was called, on whatever sink that is faithful and was empty, and
whatever was set last as what the decoder of a track of AAC asks for: once
the muxer has been finalized, a reader of the file gets it back if it is
shorter than 2 ^ 28 - 32 bytes, and gets nothing if it is not. Positions in a
file have 64 bits. -/
theorem Session.decoder_info_read_eq
    (hfresh : FaithfulSink.view sink = .empty)
    (hcreate : Muxer.create config now sink = .ok muxer)
    (hset : Muxer.setDecoderInfo index info
      ((opened muxer).run before).muxer = .ok () configured)
    (htrack : configured.tracks[index]? = some track)
    (hcodec : track.codec = .aac)
    (hlast : ∀ later, .setDecoderInfo index later ∉ calls)
    (hfinalize : Muxer.finalize optimize
      ((opened muxer).run
        (before ++ .setDecoderInfo index info :: calls)).muxer
      = .ok () final)
    (hlength : (FaithfulSink.view final.out.sink).bytes.length < 2 ^ 64) :
    decoderInfoAt? (FaithfulSink.view final.out.sink).bytes index
      = if info.length < 2 ^ 28 - 32 then some info else none := by
  obtain ⟨_, _, _, _, _, entry, hclosed, hentry, hcoding⟩ :=
    exists_entry_set hfresh hcreate hset htrack hlast hfinalize
  have hentryCodec : entry.track.codec = .aac :=
    (congrArg Coding.codec hcoding).trans hcodec
  have hentryInfo : entry.track.decoderInfo = info :=
    congrArg Coding.info hcoding
  have hread := hclosed.decoderInfoAt?_eq hlength hentry hentryCodec
  rw [hentryInfo] at hread
  exact hread

end

/-- Two bytes are read back. -/
theorem decoder_info_read_stereo :
    ∃ configured final : Muxer FlatFile,
      Muxer.setDecoderInfo 0 [0x12, 0x10] freshMuxer = .ok () configured
        ∧ Muxer.finalize false
          (Session.told [0x12, 0x10]).muxer = .ok () final
        ∧ decoderInfoAt? final.out.sink.bytes 0 = some [0x12, 0x10] := by
  have hfresh : FaithfulSink.view FlatFile.empty = .empty := rfl
  have hcreate : Muxer.create
      { MuxerConfig.default with noTimestamp := true } 0 FlatFile.empty
        = .ok freshMuxer := rfl
  have hroom : ([0x12, 0x10] : Bytes).length + 526 ≤ maxWord32 := by decide
  obtain ⟨final, hfinalize, hlength⟩ := finalize_told hroom
  have hset : Muxer.setDecoderInfo 0 [0x12, 0x10]
      ((Session.opened freshMuxer).run []).muxer = .ok () _ := rfl
  have hlast : ∀ later, Call.setDecoderInfo 0 later ∉ [Call.beginWriting] :=
    nofun
  have hread := Session.decoder_info_read_eq hfresh hcreate hset rfl rfl
    hlast hfinalize ?_
  · exact ⟨_, final, hset, hfinalize, hread⟩
  · show final.out.sink.bytes.length < 2 ^ 64
    rw [hlength]
    decide

/-- What is too long for its size is taken and written all the same, and a
reader does not get it back. -/
theorem told_unread {info : Bytes} (hlong : 2 ^ 28 - 32 ≤ info.length)
    (h : info.length + 526 ≤ maxWord32) :
    ∃ configured final : Muxer FlatFile,
      Muxer.setDecoderInfo 0 info freshMuxer = .ok () configured
        ∧ Muxer.finalize false (Session.told info).muxer = .ok () final
        ∧ decoderInfoAt? final.out.sink.bytes 0 = none := by
  have hcreate : Muxer.create
      { MuxerConfig.default with noTimestamp := true } 0 FlatFile.empty
        = .ok freshMuxer := rfl
  obtain ⟨final, hfinalize, hlength⟩ := finalize_told h
  have hset : Muxer.setDecoderInfo 0 info
      ((Session.opened freshMuxer).run []).muxer = .ok () _ := rfl
  have hlast : ∀ later, Call.setDecoderInfo 0 later ∉ [Call.beginWriting] :=
    nofun
  obtain ⟨_, _, _, _, _, entry, hclosed, hentry, hcoding⟩ :=
    Session.exists_entry_set rfl hcreate hset rfl hlast hfinalize
  have hcodec : entry.track.codec = .aac := congrArg Coding.codec hcoding
  have hinfo : entry.track.decoderInfo = info := congrArg Coding.info hcoding
  have hread := hclosed.decoderInfoAt?_eq ?_ hentry hcodec
  · rw [hinfo, if_neg (Nat.not_lt.mpr hlong)] at hread
    exact ⟨_, final, hset, hfinalize, hread⟩
  · show final.out.sink.bytes.length < 2 ^ 64
    unfold maxWord32 at h
    omega

/-- With 2 ^ 28 - 32 bytes the stream has a size of 2 ^ 28, which is told to
be zero. -/
theorem decoder_info_unread :
    ∃ configured final : Muxer FlatFile,
      Muxer.setDecoderInfo 0 (List.replicate (2 ^ 28 - 32) 0) freshMuxer
          = .ok () configured
        ∧ Muxer.finalize false
          (Session.told (List.replicate (2 ^ 28 - 32) 0)).muxer
            = .ok () final
        ∧ decoderInfoAt? final.out.sink.bytes 0 = none :=
  told_unread (by rw [List.length_replicate])
    (by rw [List.length_replicate]; decide)

end AudioMux
