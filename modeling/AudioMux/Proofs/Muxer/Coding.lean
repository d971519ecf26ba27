/-
How the samples of a track are to be decoded, and what a reader learns
of it.

The codec, the timescale and what the decoder asks for are set while a
track is configured; appending samples and closing the file leave them
alone (`codings_of_ok`, `closed_codings`). The reader finds them in the
media header and the sample entry (`Closed.readCodings?_eq`).
-/
import AudioMux.Proofs.Box.Decode.Headers
import AudioMux.Proofs.Box.Decode.Tables
import AudioMux.Proofs.Muxer.ReadBack
import AudioMux.Proofs.Muxer.TrackSettings

namespace AudioMux

open Box

/-- What a decoder has to know of a track. -/
structure Coding where
  codec : Codec
  timescale : UInt32
  info : Bytes
  deriving DecidableEq, Repr

-- ============================================================== the tracks

namespace Track

/-- How the samples of the track are to be decoded. -/
def coding (track : Track) : Coding :=
  ⟨track.codec, track.timescale, track.decoderInfo⟩

theorem isSetting_coding : IsSetting coding :=
  ⟨fun _ _ => rfl, fun _ _ _ => rfl, fun _ _ => rfl⟩

end Track

-- =============================================================== the muxer

namespace Muxer

variable {σ : Type}

/-- How the samples of each track are to be decoded. -/
def codings (muxer : Muxer σ) : List Coding := muxer.tracks.map Track.coding

/-- A track that comes back with its coding is none that changed. -/
theorem codings_set {tracks : List Track} {index : Nat} {track : Track}
    {change : Coding → Coding} (htrack : tracks[index]? = some track)
    {track' : Track} (h : track'.coding = change track.coding) :
    (tracks.set index track').map Track.coding
      = (tracks.map Track.coding).modify index change := by
  have hcoding : (tracks.map Track.coding)[index]? = some track.coding := by
    rw [List.getElem?_map, htrack]
    rfl
  rw [modify_eq_set_of_getElem? hcoding, List.map_set, h]

end Muxer

-- =================================================================== calls

namespace Call

/-- What a call does to the codings once it has succeeded. -/
def recode : Call → List Coding → List Coding
  | addTrack codec timescale, codings => codings ++ [⟨codec, timescale, []⟩]
  | setDecoderInfo index info, codings =>
      codings.modify index fun coding => { coding with info := info }
  | _, codings => codings

variable {σ : Type} {muxer next : Muxer σ}

theorem codings_of_setDecoderInfo {index : Nat} {info : Bytes}
    (h : Muxer.setDecoderInfo index info muxer = .ok () next) :
    next.codings = muxer.codings.modify index
      fun coding => { coding with info := info } := by
  have hkeeps := Muxer.keeps_settings_checkConfigurable Track.coding muxer
  unfold Muxer.setDecoderInfo Muxer.configureTrack at h
  obtain ⟨_, checked, hcheck, hset⟩ := Action.bind_eq_ok h
  rw [hcheck] at hkeeps
  have hkeeps : checked.codings = muxer.codings := hkeeps
  rw [← hkeeps]
  cases htrack : checked.tracks[index]? with
  | none => cases hset.symm.trans (Muxer.onTrack_none htrack _)
  | some track =>
      cases hset.symm.trans (Muxer.onTrack_ok htrack
        (Action.apply_modify _ (track, checked.out)))
      exact Muxer.codings_set htrack rfl

theorem codings_of_addTrack {codec : Codec} {timescale : UInt32}
    {index : Nat}
    (h : Muxer.addTrack codec timescale muxer = .ok index next) :
    next.codings = muxer.codings ++ [⟨codec, timescale, []⟩] := by
  rcases Muxer.addTrack_cases muxer codec timescale with
    ⟨_, _, hrun, _⟩ | ⟨_, added, hrun, _, htracks⟩
  · cases h.symm.trans hrun
  · cases h.symm.trans hrun
    unfold Muxer.codings
    rw [htracks, List.map_append]
    rfl

/-- No other call has to do with the codings. -/
theorem keeps_codings [Sink σ] {call : Call}
    (hadd : ∀ codec timescale, call ≠ .addTrack codec timescale)
    (hset : ∀ index info, call ≠ .setDecoderInfo index info) :
    Action.Keeps (Muxer.settings Track.coding) (call.perform (σ := σ)) := by
  cases call with
  | addTrack codec timescale => exact absurd rfl (hadd codec timescale)
  | setDecoderInfo index info => exact absurd rfl (hset index info)
  | setChannels index | setFixedDuration index | setVariableBitrate index
  | setPriming index =>
      exact Muxer.keeps_settings_configureTrack index fun _ => rfl
  | setGapless mode => exact Muxer.keeps_settings_setGapless Track.coding mode
  | addTag tag => exact Muxer.keeps_settings_addTag Track.coding tag
  | beginWriting => exact Muxer.keeps_settings_beginWriting Track.coding
  | appendSample index data duration =>
      exact Muxer.keeps_settings_appendSample Track.isSetting_coding index
        data duration
  | finalize optimize =>
      exact Muxer.keeps_settings_finalize Track.isSetting_coding optimize

/-- Every call that does not close the file. -/
theorem codings_of_ok [Sink σ] {call : Call}
    (hcall : ∀ optimize, call ≠ .finalize optimize)
    (h : call.perform muxer = .ok () next) :
    next.codings = call.recode muxer.codings := by
  have hkept : Action.Keeps (Muxer.settings Track.coding)
      (call.perform (σ := σ)) → next.codings = muxer.codings := by
    intro hkeeps
    have hsame := hkeeps muxer
    rw [h] at hsame
    exact hsame
  cases call with
  | addTrack codec timescale =>
      obtain ⟨_, hadd⟩ := Action.discard_eq_ok h
      exact codings_of_addTrack hadd
  | setDecoderInfo index info => exact codings_of_setDecoderInfo h
  | finalize optimize => exact absurd rfl (hcall optimize)
  | setChannels | setFixedDuration | setVariableBitrate | setPriming
  | setGapless | addTag | beginWriting | appendSample =>
      exact hkept (keeps_codings nofun nofun)

end Call

-- ================================================================= closing

namespace Muxer

/-- The tracks of a closed file are coded as they were configured. -/
theorem closed_codings {session : Session FlatFile} {ledger : List Entry}
    {blocks : List Block} (h : session.Recording ledger blocks)
    {optimize : Bool} {muxer : Muxer FlatFile}
    (hfinalize : finalize optimize session.muxer = .ok () muxer) :
    ∃ done ledger' blocks' gap,
      Closed optimize muxer session.intakes done ledger' blocks' gap
        ∧ ledger'.map (fun entry => entry.track.coding)
          = session.muxer.codings := by
  obtain ⟨finished, tagged, done, ledger', blocks', hfinish, hitem, hseal,
    hsealed, hfinal⟩ := seal_of_recording h
  rw [hfinal] at hfinalize
  have hkept : done.codings = session.muxer.codings := by
    have hfirst := keeps_settings_finishTracks Track.isSetting_coding
      { session.muxer with phase := .finalized }
    rw [hfinish] at hfirst
    exact ((aside_settings Track.coding).seal hitem hseal).trans hfirst
  have hcodings : ledger'.map (fun entry => entry.track.coding)
      = session.muxer.codings := by
    rw [← hkept]
    unfold codings
    rw [hsealed.tracks, List.map_map]
    rfl
  rcases hsealed.addMovie_cases optimize with
    ⟨final, gap, hok, _, hclosed⟩ | ⟨failure, final, herror, _⟩
  · cases hfinalize.symm.trans hok
    exact ⟨done, ledger', blocks', gap, hclosed, hcodings⟩
  · cases hfinalize.symm.trans herror

end Muxer

-- ============================================================== the reader

/-- The codec of a sample entry, and what its decoder asks for. -/
def Box.SampleEntry.coding : SampleEntry → Codec × Bytes
  | .audio entry =>
      match entry.config with
      | .aac stream => (.aac, stream.decoderConfig.info)
      | .alac cookie => (.alac, cookie)
  | .text entry => (.text, entry.config)

/-- How a track is to be decoded, given the content of its box. -/
def readCoding? (track : Bytes) : Option Coding := do
  let media ← child? (.ofChars 'm' 'd' 'i' 'a') track
  let header ← (child? (.ofChars 'm' 'd' 'h' 'd') media).bind
    (Reader.whole? MediaHeader.reader)
  let information ← child? (.ofChars 'm' 'i' 'n' 'f') media
  let tables ← child? (.ofChars 's' 't' 'b' 'l') information
  let description ← (child? (.ofChars 's' 't' 's' 'd') tables).bind
    (Reader.whole? SampleDescription.reader)
  let (codec, info) := description.entry.coding
  pure ⟨codec, header.timescale, info⟩

/-- How the tracks of a file are to be decoded, in the order of their
boxes. -/
def readCodings? (file : Bytes) : Option (List Coding) := do
  let movie ← child? (.ofChars 'm' 'o' 'o' 'v') file
  let parts ← walk movie
  (Part.payloads (.ofChars 't' 'r' 'a' 'k') parts).mapM readCoding?

theorem child?_description {box : SampleTables}
    (h : Format.size box ≤ maxWord32) :
    child? (.ofChars 's' 't' 's' 'd') (content box)
      = some (content box.description) := by
  unfold child?
  rw [walk_sampleTables h]
  rfl

/-- What the reader makes of the box of a track. -/
theorem readCoding?_content {box : TrackBox}
    (h : Format.size box ≤ maxWord32)
    (hheader : box.media.header.Lossless)
    (hentry : box.media.information.sampleTables.description.Lossless) :
    readCoding? (content box)
      = some ⟨box.media.information.sampleTables.description.entry.coding.1,
          box.media.header.timescale,
          box.media.information.sampleTables.description.entry.coding.2⟩ := by
  have hmedia := size_media_le h
  have hinformation := size_information_le hmedia
  have htables := size_sampleTables_le hinformation
  have hdescription : Format.size
      box.media.information.sampleTables.description ≤ maxWord32 := by
    have hsize : Format.size box.media.information.sampleTables
        = 8 + Format.size
            box.media.information.sampleTables.description + _ + _ + _ + _
          + _ + _ := rfl
    omega
  unfold readCoding?
  simp only [child?_media h, child?_mediaHeader hmedia,
    whole?_of_reads (reads_mediaHeader hheader),
    child?_information hmedia, child?_sampleTables hinformation,
    child?_description htables,
    whole?_of_reads (reads_sampleDescription hdescription hentry),
    Option.bind_eq_bind, Option.bind_some, Option.pure_def]

/-- The sample entry of a track says how it is coded. -/
theorem Track.coding_sampleEntry (track : Track) :
    (⟨track.sampleEntry.coding.1, track.timescale,
      track.sampleEntry.coding.2⟩ : Coding) = track.coding := by
  unfold sampleEntry coding
  cases track.codec <;> rfl

/-- A reader learns how each track is coded, if the sample entries can say
it. -/
theorem Muxer.Closed.readCodings?_eq {optimize : Bool}
    {muxer done : Muxer FlatFile} {intakes : List Intake}
    {ledger : List Entry} {blocks : List Block} {gap : Nat}
    (h : Closed optimize muxer intakes done ledger blocks gap)
    (hlength : muxer.out.sink.bytes.length < 2 ^ 64)
    (hentries : ∀ entry ∈ ledger, entry.track.sampleEntry.Lossless) :
    readCodings? muxer.out.sink.bytes
      = some (ledger.map fun entry => entry.track.coding) := by
  refine h.mapM_tracks hlength fun index entry hentry hfits => ?_
  have hheader : (done.mediaHeader entry.track).Lossless := by
    show Language.Lossless .undetermined
    decide +kernel
  rw [readCoding?_content hfits hheader (hentries entry hentry)]
  exact congrArg some entry.track.coding_sampleEntry

-- =================================================================== sizes

/-- The largest sample is no larger than all of them. -/
theorem SampleTable.maxSize_le {table : SampleTable} {bound : UInt32}
    (h : ∀ sample ∈ table.newestFirst, sample.size ≤ bound) :
    table.maxSize ≤ bound := by
  have hfold : ∀ (samples : List Sample) (size : UInt32), size ≤ bound →
      (∀ sample ∈ samples, sample.size ≤ bound) →
      samples.foldl (fun size sample => max size sample.size) size
        ≤ bound := by
    intro samples
    induction samples with
    | nil => exact fun size hsize _ => hsize
    | cons sample samples ih =>
        intro size hsize hall
        refine ih _ ?_ fun other hother =>
          hall other (List.mem_cons_of_mem _ hother)
        have hfirst := hall sample List.mem_cons_self
        show (if size ≤ sample.size then sample.size else size) ≤ bound
        split
        · exact hfirst
        · exact hsize
  exact hfold table.newestFirst 0 (UInt32.zero_le) h

/-- A sample entry can say how a track is coded if neither the samples nor
what the decoder asks for are too large. -/
theorem Track.lossless_sampleEntry {track : Track}
    (hinfo : track.decoderInfo.length < 2 ^ 27)
    (hsize : track.samples.maxSize.toNat < 2 ^ 24) :
    track.sampleEntry.Lossless := by
  unfold sampleEntry
  cases track.codec with
  | aac =>
      refine ⟨hsize, ?_⟩
      have hpayload : Descriptor.Stream.payloadSize ⟨track.decoderConfig⟩
          = 3 + (5 + (18 + track.decoderInfo.length)) + 5 + 1 := rfl
      rw [hpayload]
      omega
  | alac => trivial
  | text => trivial

/-- That is so for what was handed in if it is small. -/
theorem Entry.Sound.lossless_sampleEntry {entry : Entry} (h : entry.Sound)
    (hinfo : entry.track.decoderInfo.length < 2 ^ 27)
    (hunits : ∀ unit ∈ entry.intake.units, unit.data.length < 2 ^ 24) :
    entry.track.sampleEntry.Lossless := by
  refine Track.lossless_sampleEntry hinfo ?_
  have hbound : entry.track.samples.maxSize ≤ UInt32.ofNat (2 ^ 24 - 1) := by
    refine SampleTable.maxSize_le fun sample hsample => ?_
    rw [h.samples, List.mem_reverse] at hsample
    obtain ⟨unit, hunit, rfl⟩ := List.mem_map.mp hsample
    have hsmall := hunits unit hunit
    rw [UInt32.le_iff_toNat_le]
    show (UInt32.ofNat unit.data.length).toNat ≤ _
    rw [UInt32.toNat_ofNat_of_lt' (by
      show _ < 2 ^ 32
      omega)]
    exact Nat.le_pred_of_lt hsmall
  exact Nat.lt_of_le_of_lt (UInt32.le_iff_toNat_le.mp hbound) (by decide)

end AudioMux
