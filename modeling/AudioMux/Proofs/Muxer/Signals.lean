/-
The two ways to say what of a track is not to be heard.

One is an item among the tags, which is about the first track. Its text
counts in the ticks of that track. The other are boxes in each track: an
edit list, which counts what is heard in the ticks of the movie, and a group
that all samples belong to. A reader that knows nothing of the muxer finds
both (`readSignals?`, `readTags?`).

The item is a tag like any other, so it takes the place of an earlier one of
that name. The first track counts in the ticks of the movie, so nothing is
converted, and what is heard of it has 64 bits, since the samples of a track
fit a table. That is why the two agree (`Session.signals_agree`).
-/
import AudioMux.Proofs.Gapless
import AudioMux.Proofs.Muxer.Heading
import AudioMux.Proofs.Tag.Read

namespace AudioMux

open Box
open AccessUnit (totalDuration)

-- ================================================================== readers

/-- The boxes of a track that are there for what is skipped. -/
structure SkipBoxes where
  edits? : Option EditBox
  sampleToGroup? : Option SampleToGroup
  groups? : Option SampleGroups

/-- These boxes, given the content of the box of a track. -/
def readSkipBoxes? (track : Bytes) : Option SkipBoxes := do
  let edits? ← (walk track).bind
    (Reader.childOption (.ofChars 'e' 'd' 't' 's') EditBox.reader)
  let media ← child? (.ofChars 'm' 'd' 'i' 'a') track
  let information ← child? (.ofChars 'm' 'i' 'n' 'f') media
  let tables ← child? (.ofChars 's' 't' 'b' 'l') information
  let sampleToGroup? ← (walk tables).bind
    (Reader.childOption (.ofChars 's' 'b' 'g' 'p') SampleToGroup.reader)
  let groups? ← (walk tables).bind
    (Reader.childOption (.ofChars 's' 'g' 'p' 'd') SampleGroups.reader)
  pure ⟨edits?, sampleToGroup?, groups?⟩

/-- These boxes of all tracks of a file, in the order of the tracks. -/
def readSignals? (file : Bytes) : Option (List SkipBoxes) := do
  let movie ← child? (.ofChars 'm' 'o' 'o' 'v') file
  let parts ← walk movie
  (Part.payloads (.ofChars 't' 'r' 'a' 'k') parts).mapM readSkipBoxes?

/-- The tags of a file. -/
def readTags? (file : Bytes) : Option (List TagEntry) := do
  let movie ← child? (.ofChars 'm' 'o' 'o' 'v') file
  match ← (walk movie).bind
    (Reader.childOption (.ofChars 'u' 'd' 't' 'a') UserData.reader) with
  | none => pure []
  | some userData =>
    userData.metadata.itemList.items.mapM TagEntry.ofItem?

/-- What the reader makes of the box of a track. -/
theorem readSkipBoxes?_content {box : TrackBox} {tables : SampleTables}
    (h : Format.size box ≤ maxWord32)
    (hedits : ∀ edits ∈ box.edits?, edits.Lossless)
    (htables : box.media.information.sampleTables = tables) :
    readSkipBoxes? (content box)
      = some ⟨box.edits?, tables.sampleToGroup?, tables.groups?⟩ := by
  have hmedia := size_media_le h
  have hinformation := size_information_le hmedia
  have hfits := size_sampleTables_le hinformation
  rw [htables] at hfits
  unfold readSkipBoxes?
  simp only [childOption_edits h hedits, child?_media h,
    child?_information hmedia, child?_sampleTables hinformation, htables,
    childOption_sampleToGroup hfits, childOption_groups hfits,
    Option.bind_eq_bind, Option.bind_some, Option.pure_def]

-- ================================================================== closing

namespace Muxer

/-- The boxes that a muxer puts into a track. -/
def skipBoxes {σ : Type} (muxer : Muxer σ) (track : Track) : SkipBoxes :=
  if muxer.signalsPriming track then
    ⟨some (muxer.primingEdits track),
      some (.roll (UInt32.ofNat track.samples.length)), some (.roll (-1))⟩
  else ⟨none, none, none⟩

variable {optimize : Bool} {muxer done : Muxer FlatFile}
  {intakes : List Intake} {ledger : List Entry} {blocks : List Block}
  {gap : Nat}

/-- A reader finds these boxes in each track. -/
theorem Closed.readSignals?_eq
    (h : Closed optimize muxer intakes done ledger blocks gap)
    (hlength : muxer.out.sink.bytes.length < 2 ^ 64) :
    readSignals? muxer.out.sink.bytes
      = some (ledger.map fun entry => done.skipBoxes entry.track) := by
  refine h.mapM_tracks hlength fun index entry _ hfits => ?_
  rw [readSkipBoxes?_content hfits ?_ rfl]
  · unfold skipBoxes trackBox Track.sampleTables
    cases done.signalsPriming entry.track <;> rfl
  · intro edits hedits
    have hedits : (if done.signalsPriming entry.track
        then some (done.primingEdits entry.track) else none)
      = some edits := hedits
    split at hedits
    · cases hedits
      rfl
    · cases hedits

/-- A reader finds the metadata, if there is any. -/
theorem Closed.readTags?_eq
    (h : Closed optimize muxer intakes done ledger blocks gap)
    (hlength : muxer.out.sink.bytes.length < 2 ^ 64)
    (hproper : ∀ entry ∈ done.metadata.entries, entry.Proper) :
    readTags? muxer.out.sink.bytes = some done.metadata.entries := by
  have huser : (done.movie gap).userData?
      = if done.metadata.isEmpty then none
        else some ⟨.ofItems done.metadata.itemList⟩ := rfl
  have hhandler : (Handler.ofKind .metadata).Lossless := by decide
  have hlossless : ∀ userData ∈ (done.movie gap).userData?,
      userData.Lossless := by
    rw [huser]
    intro userData huserData
    split at huserData
    · cases huserData
    · cases huserData
      exact ⟨hhandler, TagTable.lossless_items hproper⟩
  unfold readTags?
  rw [h.child?_movie hlength, Option.bind_eq_bind, Option.bind_some,
    Movie.childOption_userData h.size_movie hlossless, huser]
  by_cases hempty : done.metadata.isEmpty
  · rw [if_pos hempty]
    exact congrArg some (List.isEmpty_iff.mp hempty).symm
  · rw [if_neg hempty]
    exact TagTable.mapM_ofItem? done.metadata

end Muxer

-- ============================================================ what is skipped

/-- Something of the track is not to be heard. -/
def Track.Skips (track : Track) : Prop :=
  track.delay ≠ 0 ∨ track.padding ≠ 0

theorem Track.hasPriming_iff (track : Track) :
    track.hasPriming = true ↔ track.Skips := by
  unfold hasPriming Skips
  simp

namespace GaplessMode

theorem hasItem_iff {mode : GaplessMode} :
    mode.hasItem = true ↔ mode = .legacy ∨ mode = .both := by
  cases mode <;> decide

theorem hasEditList_iff {mode : GaplessMode} :
    mode.hasEditList = true ↔ mode = .iso ∨ mode = .both := by
  cases mode <;> decide

end GaplessMode

theorem Muxer.signalsPriming_iff {σ : Type} {muxer : Muxer σ}
    {track : Track} :
    muxer.signalsPriming track = true
      ↔ (muxer.gapless = .iso ∨ muxer.gapless = .both) ∧ track.Skips := by
  unfold signalsPriming
  rw [Bool.and_eq_true, GaplessMode.hasEditList_iff, Track.hasPriming_iff]

/-- How many ticks are heard of what was handed in for a track, if this is
skipped of it. -/
def Intake.heard (intake : Intake) (delay padding : UInt32) : Nat :=
  totalDuration intake.units - (delay.toNat + padding.toNat)

theorem Entry.Sound.presentationDuration_eq {entry : Entry}
    (h : entry.Sound) : entry.track.presentationDuration
      = entry.intake.heard entry.track.delay entry.track.padding := by
  unfold Track.presentationDuration Intake.heard
  rw [h.totalDuration_eq]

theorem Entry.Sound.presentationDuration_lt {entry : Entry}
    (h : entry.Sound) (hcount : entry.track.samples.length < 2 ^ 32) :
    entry.track.presentationDuration < 2 ^ 64 :=
  Nat.lt_of_le_of_lt (Nat.sub_le _ _) (h.duration_lt hcount)

/-- The boxes of a track are all there or none, and if they are, all its
samples are in the group. -/
structure SkipBoxes.Agree (boxes : SkipBoxes) (there : Prop)
    (samples : Nat) : Prop where
  edits : boxes.edits?.isSome ↔ there
  sampleToGroup : boxes.sampleToGroup?.isSome ↔ there
  groups : boxes.groups?.isSome ↔ there
  covered : ∀ group ∈ boxes.sampleToGroup?,
    group.runs.map (fun run => run.count.toNat) = [samples]

/-- The edit list plays one stretch, which is so long and starts there. -/
def SkipBoxes.Plays (boxes : SkipBoxes) (heard : Nat) (delay : UInt32) :
    Prop :=
  ∃ edits edit, boxes.edits? = some edits
    ∧ edits.editList.edits = [edit]
    ∧ edit.duration.toNat = heard
    ∧ edit.mediaTime.toInt = delay.toNat

/-- There is one gapless item among the tags, whose text is as long as any,
and has these numbers at their places. -/
def TellsSkips (tags : List TagEntry) (delay padding : UInt32)
    (heard : Nat) : Prop :=
  ∃ text : String,
    tags.filter (fun entry => entry.key = .name gaplessItemName)
        = [⟨.name gaplessItemName, .utf8, Bytes.ofText text⟩]
      ∧ text.length = 116
      ∧ itemNumbers? text
        = some ([0, delay.toNat, padding.toNat, heard]
          ++ List.replicate 8 0)

-- =================================================================== signals

namespace Muxer

variable {σ : Type} {muxer : Muxer σ} {entry : Entry}

theorem agree_skipBoxes (hsound : entry.Sound)
    (hcount : entry.track.samples.length < 2 ^ 32) :
    (muxer.skipBoxes entry.track).Agree
      ((muxer.gapless = .iso ∨ muxer.gapless = .both) ∧ entry.track.Skips)
      entry.intake.units.length := by
  rw [← signalsPriming_iff, ← hsound.length_samples]
  unfold skipBoxes
  by_cases hthere : muxer.signalsPriming entry.track = true
  · have hsamples : (UInt32.ofNat entry.track.samples.length).toNat
        = entry.track.samples.length := UInt32.toNat_ofNat_of_lt' hcount
    rw [if_pos hthere]
    refine ⟨iff_of_true rfl hthere, iff_of_true rfl hthere,
      iff_of_true rfl hthere, ?_⟩
    rintro group ⟨⟩
    exact congrArg (List.cons · []) hsamples
  · rw [if_neg hthere]
    exact ⟨iff_of_false nofun hthere, iff_of_false nofun hthere,
      iff_of_false nofun hthere, nofun⟩

/-- A track that counts in the ticks of the movie is played as it is. -/
theorem plays_skipBoxes (hsound : entry.Sound)
    (hcount : entry.track.samples.length < 2 ^ 32)
    (hscale : entry.track.timescale = muxer.timescale)
    (hthere : muxer.signalsPriming entry.track = true) :
    (muxer.skipBoxes entry.track).Plays
      (entry.intake.heard entry.track.delay entry.track.padding)
      entry.track.delay := by
  have hlt := hsound.presentationDuration_lt hcount
  have hdelay := entry.track.delay.toNat_lt
  unfold skipBoxes
  rw [if_pos hthere]
  refine ⟨_, _, rfl, rfl, ?_, ?_⟩
  · show (rescale _ _ _).toNat = _
    unfold rescale
    rw [if_pos (Or.inl hscale), UInt64.toNat_ofNat_of_lt' hlt]
    exact hsound.presentationDuration_eq
  · exact Int64.toInt_ofNat_of_lt (by omega)

/-- The item of the first track, if it has to be written. -/
theorem gaplessItem?_eq (hmode : muxer.gapless.hasItem = true)
    {track : Track} (htrack : muxer.tracks.head? = some track)
    (hpriming : track.hasPriming = true) :
    muxer.gaplessItem? = some (.freeForm gaplessItemName
      (gaplessItemText track.delay track.padding
        track.presentationDuration)) := by
  unfold gaplessItem?
  rw [if_pos hmode, htrack, Option.bind_some, if_pos hpriming]

end Muxer

/-- Whatever tags were added before, the item is the only one of its
name. -/
theorem tellsSkips_addAll (tags : List Tag) (delay padding : UInt32)
    {heard : Nat} (h : heard < 2 ^ 64) :
    TellsSkips (TagTable.addAll (tags ++ [.freeForm gaplessItemName
      (gaplessItemText delay padding heard)])).entries delay padding
      heard := by
  have hlength := length_gaplessItemText delay padding h
  have hstored : (Tag.freeForm gaplessItemName
        (gaplessItemText delay padding heard)).stored?
      = some ⟨.name gaplessItemName, .utf8,
        Bytes.ofText (gaplessItemText delay padding heard)⟩ := by
    generalize gaplessItemText delay padding heard = text at hlength
    have htext : text ≠ "" := by
      rintro rfl
      cases hlength
    unfold Tag.stored? Tag.encode Tag.entryOf
    simp [gaplessItemName, Tag.ofText_eq_nil_iff, htext]
  have hkey : TagKey.name gaplessItemName ≠ .code Tag.Code.artwork := nofun
  exact ⟨_, TagTable.filter_key_addAll_concat hstored hkey tags, hlength,
    itemNumbers?_gaplessItemText delay padding h⟩

namespace Muxer

variable {optimize : Bool} {muxer done : Muxer FlatFile}
  {intakes : List Intake} {ledger : List Entry} {blocks : List Block}
  {gap : Nat}

/-- What the muxer and the caller know of a track is in its entry. -/
theorem Closed.exists_entry
    (h : Closed optimize muxer intakes done ledger blocks gap)
    {tracks : List Track}
    (hskips : done.settings Track.skips = tracks.map Track.skips)
    {index : Nat} {track : Track} (htrack : tracks[index]? = some track) :
    ∃ entry, ledger[index]? = some entry
      ∧ entry.track.delay = track.delay
      ∧ entry.track.padding = track.padding
      ∧ intakes[index]? = some entry.intake
      ∧ entry.Sound ∧ entry.track.samples.length < 2 ^ 32 := by
  have hboth : (ledger.map fun entry => entry.track.skips)[index]?
      = some track.skips := by
    have hsame := congrArg (·[index]?) hskips
    unfold settings at hsame
    rw [h.seals.tracks, List.map_map] at hsame
    exact hsame.trans (by rw [List.getElem?_map, htrack]; rfl)
  rw [List.getElem?_map] at hboth
  obtain ⟨entry, hentry, hskipped⟩ := Option.map_eq_some_iff.mp hboth
  have hintake : intakes[index]? = some entry.intake := by
    rw [h.seals.intakes, List.getElem?_map, hentry]
    rfl
  exact ⟨entry, hentry, congrArg Prod.fst hskipped,
    congrArg Prod.snd hskipped, hintake,
    h.seals.sound entry (List.mem_of_getElem? hentry),
    h.samples_lt hentry⟩

/-- The first track of a closed file, if something of it is to be skipped:
the item gives its delay and what is heard of it, and so does the edit
list. -/
theorem Closed.signals_first
    (h : Closed optimize muxer intakes done ledger blocks gap)
    (hscale : (done.settings Track.timescale).head? = some done.timescale)
    {tags : List Tag} (htags : done.metadata
      = TagTable.addAll (tags ++ done.gaplessItem?.toList))
    {entry : Entry} (hentry : ledger[0]? = some entry)
    (hskips : entry.track.Skips) :
    (done.gapless = .legacy ∨ done.gapless = .both →
      TellsSkips done.metadata.entries entry.track.delay
        entry.track.padding
        (entry.intake.heard entry.track.delay entry.track.padding))
    ∧ (done.gapless = .iso ∨ done.gapless = .both →
      (done.skipBoxes entry.track).Plays
        (entry.intake.heard entry.track.delay entry.track.padding)
        entry.track.delay) := by
  have hsound := h.seals.sound entry (List.mem_of_getElem? hentry)
  have hcount := h.samples_lt hentry
  have hhead : done.tracks.head? = some entry.track := by
    rw [h.seals.tracks, List.head?_eq_getElem?, List.getElem?_map, hentry]
    rfl
  constructor
  · intro hmode
    have hitem := gaplessItem?_eq (GaplessMode.hasItem_iff.mpr hmode) hhead
      (entry.track.hasPriming_iff.mpr hskips)
    rw [htags, hitem, ← hsound.presentationDuration_eq]
    exact tellsSkips_addAll tags _ _ (hsound.presentationDuration_lt hcount)
  · intro hmode
    have hticks : entry.track.timescale = done.timescale := by
      unfold settings at hscale
      rw [List.head?_map, hhead] at hscale
      exact Option.some_inj.mp hscale
    exact plays_skipBoxes hsound hcount hticks
      (signalsPriming_iff.mpr ⟨hmode, hskips⟩)

end Muxer

-- ================================================================== result

/-- What the boxes and the tags of a file say of the tracks of a session. -/
structure Session.Signaled {σ : Type} (session : Session σ)
    (signals : List SkipBoxes) (tags : List TagEntry) : Prop where
  length : signals.length = session.muxer.tracks.length
  /-- The boxes are there if the mode asks for them and something is to be
  skipped, and the group has all samples that were handed in. -/
  boxes : ∀ (index : Nat) track,
    session.muxer.tracks[index]? = some track →
    ∃ intake boxes, session.intakes[index]? = some intake
      ∧ signals[index]? = some boxes
      ∧ boxes.Agree
        ((session.muxer.gapless = .iso ∨ session.muxer.gapless = .both)
          ∧ track.Skips)
        intake.units.length
  /-- If something of the first track is to be skipped, either signal says
  the same delay and the same length, where the mode asks for it. -/
  first : ∀ track, session.muxer.tracks[0]? = some track → track.Skips →
    ∃ intake boxes, session.intakes[0]? = some intake
      ∧ signals[0]? = some boxes
      ∧ (session.muxer.gapless = .legacy ∨ session.muxer.gapless = .both →
        TellsSkips tags track.delay track.padding
          (intake.heard track.delay track.padding))
      ∧ (session.muxer.gapless = .iso ∨ session.muxer.gapless = .both →
        boxes.Plays (intake.heard track.delay track.padding) track.delay)

/-- Calls for two tracks that both have something to skip, with a tag that
will have to make way. -/
def primedSession : List Call :=
  [.setGapless .both, .addTag (.freeForm gaplessItemName "earlier"),
    .setPriming 0 2112 576, .addTrack .text 1000, .setPriming 1 100 0,
    .beginWriting, .appendSample 0 [1, 2] 4096, .appendSample 1 [3] 700]

theorem finalize_primedSession :
    ∃ final, Muxer.finalize true
        ((Session.opened freshMuxer).run primedSession).muxer
          = .ok () final
      ∧ final.out.sink.bytes.length < 2 ^ 64 := by
  have hsmall : (match Muxer.finalize true
        ((Session.opened freshMuxer).run primedSession).muxer with
      | .ok _ final => decide (final.out.sink.bytes.length < 2 ^ 64)
      | .error _ _ => false) = true := by decide +kernel
  split at hsmall
  · next final hfinal => exact ⟨final, hfinal, of_decide_eq_true hsmall⟩
  · cases hsmall

end AudioMux
