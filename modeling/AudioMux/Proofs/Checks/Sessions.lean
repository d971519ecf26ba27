/-
No run fails a check.

Whatever is called and whatever the sink does, each call of a session
comes through all of its checks (`Session.no_check_fails`). What a call
needs for it is known from the calls before: either the muxer has met a
fault, and refuses the call before anything is checked, or the sink stands
for a flat file whose books are in order.
-/
import AudioMux.Proofs.Checks.Closing
import Mathlib.Data.List.Infix

namespace AudioMux

open Box (Format encode maxWord32 length_encode)

namespace Checked

variable {σ : Type} [Sink σ] [FaithfulSink σ] {muxer : Muxer σ}

-- ==================================================================== guards

/-- After a fault nothing is checked. -/
theorem passes_checkFault {second : Unit → Checked (Muxer σ) Unit}
    (h : muxer.out.fault? = none → (second ()).Passes muxer) :
    (plain Muxer.checkFault >>= second).Passes muxer := by
  refine passes_plain_bind fun _ s hrun _ => ?_
  cases hfault : muxer.out.fault? with
  | none =>
      cases hrun.symm.trans (Call.checkFault_of_no_fault hfault)
      exact h hfault
  | some fault =>
      have hsome : muxer.out.fault?.isSome := by
        rw [hfault]
        rfl
      cases hrun.symm.trans (Call.checkFault_of_fault hsome)

/-- Nor is anything once the file is closed. -/
theorem passes_checkConfigurable {second : Unit → Checked (Muxer σ) Unit}
    (h : muxer.out.fault? = none → (second ()).Passes muxer) :
    (plain Muxer.checkConfigurable >>= second).Passes muxer := by
  refine passes_plain_bind fun _ s hrun _ => ?_
  cases hfault : muxer.out.fault? with
  | none =>
      by_cases hphase : muxer.phase = .finalized
      · cases hrun.symm.trans
          (Muxer.checkConfigurable_of_finalized hfault hphase)
      · cases hrun.symm.trans (Muxer.checkConfigurable_ok hfault hphase)
        exact h hfault
  | some fault =>
      have hsome : muxer.out.fault?.isSome := by
        rw [hfault]
        rfl
      cases hrun.symm.trans (Call.checkConfigurable_of_fault hsome)

-- ===================================================================== calls

/-- A track that was added is there. -/
theorem passes_addTrack (codec : Codec) (timescale : UInt32) :
    (addTrack codec timescale).Passes muxer := by
  refine passes_plain_bind fun _ s hrun _ => ?_
  obtain ⟨index, hadd⟩ := Action.discard_eq_ok hrun
  obtain ⟨_, before, _, hadd⟩ := Action.bind_eq_ok hadd
  obtain ⟨_, _, hget, hadd⟩ := Action.bind_eq_ok hadd
  cases hget
  dsimp only at hadd
  split at hadd
  · cases hadd
  split at hadd
  · cases hadd
  split at hadd
  · cases hadd
  · cases hadd
    show 1 ≤ (before.tracks ++ [_]).length
    rw [List.length_append]
    exact Nat.le_add_left _ _

/-- What is done with an output that stands for a flat file. -/
theorem out_of_onOutput {α : Type} {action : Writing σ α}
    {action' : Writing FlatFile α} (hmirrors : Mirrors id action action')
    {after : Muxer σ} {a b : α} {file file' : FlatFile}
    (hrun : Muxer.onOutput action muxer = .ok a after)
    (hout : muxer.out.image = .ofSink file)
    (hflat : action' (.ofSink file) = .ok b (.ofSink file')) :
    a = b ∧ after.out.image = .ofSink file' := by
  rw [← hout] at hflat
  obtain ⟨hsame, himage⟩ := (Muxer.mirrors_onOutput hmirrors).eq_of_ok hrun
    (Muxer.onOutput_ok hflat)
  exact ⟨hsame, congrArg Muxer.out himage⟩

/-- Writing starts with an empty file. -/
theorem passes_beginWriting
    (h : muxer.out.fault? = none → muxer.phase = .configuring →
      muxer.out.image = .ofSink .empty) :
    beginWriting.Passes muxer := by
  refine passes_checkConfigurable fun hfault => ?_
  refine passes_get_bind (passes_guard fun hphase => ?_)
  have hout := h hfault (not_not.mp hphase)
  refine passes_plain_bind fun _ s₁ hrun _ => ?_
  obtain ⟨_, hout⟩ := out_of_onOutput (Output.mirrors_put _) hrun hout
    (Output.put_flat _ _)
  refine passes_plain_bind fun headerEnd s₂ hrun _ => ?_
  obtain ⟨_, hout⟩ := out_of_onOutput Output.mirrors_position hrun hout
    (Output.position_flat _)
  refine passes_modify_bind fun _ => ?_
  refine passes_check_bind (Nat.le_max_right _ _) ?_
  refine passes_plain_bind fun _ s₃ hrun _ => ?_
  obtain ⟨_, hout⟩ := out_of_onOutput (Output.mirrors_put _) hrun hout
    (Output.put_flat _ _)
  refine passes_plain_bind fun _ s₄ hrun _ => ?_
  obtain ⟨_, hrun⟩ := Action.discard_eq_ok hrun
  obtain ⟨_, hout⟩ := out_of_onOutput (Output.mirrors_openBox _) hrun hout
    (Output.openBox_flat _ _)
  refine passes_plain_bind fun mediaStart s₅ hrun _ => ?_
  obtain ⟨hstart, _⟩ := out_of_onOutput Output.mirrors_position hrun hout
    (Output.position_flat _)
  have hplaced : mediaStart = Format.size Box.FileType.mpeg4Audio + 16 := by
    rw [hstart]
    simp only [FlatFile.cursor_write, Output.length_openHeader]
    decide
  refine passes_check_bind ⟨by decide, hplaced⟩ ?_
  exact trivial

section
variable {intakes : List Intake} {ledger : List Entry} {blocks : List Block}

/-- A gapless item tells of numbers of 32 bits. -/
theorem passes_addGaplessItem : addGaplessItem.Passes muxer := by
  refine passes_check_bind (fun track _ => ?_) trivial
  have hdelay := track.delay.toNat_lt
  have hpadding := track.padding.toNat_lt
  omega

/-- The media is sealed where the finished tracks end. -/
theorem passes_sealMedia (h : Closing muxer.image intakes ledger blocks)
    (hwithin : Within muxer) : writeMediaHeader.Passes muxer := by
  have hstart : muxer.mediaStart = mediaOrigin := h.mediaStart
  have hfile : muxer.image.out.sink.bytes.length
      = mediaOrigin + muxer.mediaSize :=
    h.shelved.cursor.symm.trans h.shelved.cursor_eq
  have hshort : muxer.image.out.sink.bytes.length < 2 ^ 63 := hwithin.1
  refine passes_writeMediaHeader ?_ ?_
  · rw [hstart]
    decide
  · omega

/-- The movie box goes in front of the media of a sealed file. -/
theorem passes_prependMovie_sealed
    (h : Muxer.Sealed muxer.image intakes ledger blocks)
    (hwithin : Within muxer) {gap : Nat}
    (hgap : muxer.relocationGap = .ok gap)
    (hsize : Format.size (muxer.movie gap) ≤ maxWord32) :
    prependMovie.Passes muxer := by
  have hmeasured : muxer.movieSize gap = Format.size (muxer.movie gap) := by
    rw [Muxer.movieSize_eq, length_encode hsize]
  have hslack := (muxer.fits_of_relocationGap hgap).slack
  have hsmall : gap < 2 ^ 62 := by
    unfold maxWord32 at hsize
    unfold Muxer.headroom at hslack
    omega
  -- Whatever the search measures is not larger than what it settles for.
  have hprobe : ∀ distance, distance ≤ gap → muxer.ProbeInRange distance
      ∧ muxer.movieSize distance ≤ maxWord32 := by
    intro distance hle
    have hmono := muxer.movieSize_mono hle
    have hlength : (encode (muxer.movie distance)).length ≤ maxWord32 := by
      rw [← Muxer.movieSize_eq]
      omega
    have hfair := (Box.fair_encode (muxer.movie distance)).1
    have hrange := h.movieInRange hwithin
      (Nat.lt_of_le_of_lt hle hsmall) (Nat.le_trans hfair hlength)
    exact ⟨hrange.probe (Nat.le_trans hfair hlength), by omega⟩
  have hstart : muxer.mediaStart = mediaOrigin := h.mediaStart
  have hend := h.mediaEnd_lt hwithin
  refine passes_prependMovie hgap (Muxer.gapInRange hprobe hgap)
    (h.movieInRange hwithin hsmall hsize) hsize ?_ ?_
  · rw [hstart]
    decide
  · omega

/-- The movie box goes where it was asked for. -/
theorem passes_addMovie
    (h : Muxer.Sealed muxer.image intakes ledger blocks)
    (hwithin : Within muxer) {optimize : Bool}
    (hsize : Format.size (muxer.movie
      (if optimize then muxer.relocationGap.toOption.getD 0 else 0))
        ≤ maxWord32) :
    (if optimize then prependMovie else appendMovie).Passes muxer := by
  cases optimize with
  | false =>
      exact passes_appendMovie
        (h.movieInRange hwithin (by decide) hsize) hsize
  | true =>
      have hfew : muxer.tracks.length ≤ 2 := by
        have htracks : muxer.tracks = ledger.map Entry.track := h.tracks
        rw [htracks, List.length_map]
        exact h.few
      obtain ⟨gap, hgap⟩ := muxer.relocationGap_ok hfew
      rw [hgap] at hsize
      exact passes_prependMovie_sealed h hwithin hgap hsize

end

/-- Closing the file, from the last chunks to the movie box. -/
theorem passes_finalize {session : Session σ} {ledger : List Entry}
    {blocks : List Block} (h : session.image.Recording ledger blocks)
    (optimize : Bool)
    (hmovie : ∀ movie closing,
      Muxer.closingMovie optimize session.muxer = .ok movie closing →
        (encode movie).length < 2 ^ 32) :
    (finalize optimize).Passes session.muxer := by
  refine passes_checkFault fun hfault => passes_get_bind ?_
  have hphase : session.muxer.phase = .writing := h.phase
  rw [hphase]
  refine passes_modify_bind fun hwithin => ?_
  -- What succeeds on the way comes as far as it does on the flat file.
  obtain ⟨_, ledger', blocks', hflat, hclosed, hsettled⟩ :=
    h.closing.finishTracks
  refine passes_bind (passes_finishTracks h.closing hwithin)
    fun _ finished hfinish _ => ?_
  rw [action_finishTracks] at hfinish
  obtain ⟨_, rfl⟩ := Muxer.mirrors_finishTracks.eq_of_ok hfinish hflat
  obtain ⟨metadata, hitem⟩ := Muxer.addGaplessItem_ok finished
  refine passes_bind passes_addGaplessItem fun _ tagged hrun hwithin => ?_
  cases hitem.symm.trans hrun
  have htagged := hclosed.withMetadata metadata
  obtain ⟨_, hsealed, hflat⟩ := htagged.sealMedia hsettled
  refine passes_bind (passes_sealMedia htagged hwithin)
    fun _ done hseal hwithin => ?_
  obtain ⟨_, rfl⟩ := Muxer.mirrors_writeMediaHeader.eq_of_ok hseal hflat
  have hsmall := hmovie _ _ (Muxer.closingMovie_ok hfault hphase hfinish
    hitem hseal optimize)
  have hsize := Nat.le_trans (Box.fair_encode _).1
    (Nat.le_of_lt_succ hsmall)
  have hadd := passes_addMovie hsealed hwithin hsize
  cases optimize with
  | false => exact passes_bind hadd fun _ _ _ _ => trivial
  | true => exact passes_bind hadd fun _ _ _ _ => trivial

end Checked

-- =================================================================== results

namespace Session

variable {σ : Type} [Sink σ] [FaithfulSink σ] {config : MuxerConfig}
  {now : UInt64} {sink : σ} {muxer : Muxer σ} {calls : List Call}

/-- A call after any others. -/
theorem passes_call (hfresh : FaithfulSink.view sink = .empty)
    (hcreate : Muxer.create config now sink = .ok muxer) {call : Call}
    (hwithin : Within ((opened muxer).run calls).muxer)
    (hmovie : ∀ optimize, call = .finalize optimize →
      ∀ movie closing,
        Muxer.closingMovie optimize ((opened muxer).run calls).muxer
          = .ok movie closing →
        (encode movie).length < 2 ^ 32) :
    call.checked.Passes ((opened muxer).run calls).muxer := by
  have hmet : ((opened muxer).run calls).muxer.out.fault? = none →
      ¬ ((opened muxer).run calls).Faulted := by
    intro hfault hfaulted
    unfold Faulted at hfaulted
    rw [hfault] at hfaulted
    cases hfaulted
  cases call with
  | addTrack codec timescale => exact Checked.passes_addTrack _ _
  | setChannels | setFixedDuration | setDecoderInfo | setVariableBitrate
  | setPriming | setGapless | addTag => exact trivial
  | beginWriting =>
      refine Checked.passes_beginWriting fun hfault hphase => ?_
      obtain ⟨ledger, h⟩ :=
        exists_configuring hfresh hcreate hphase (hmet hfault)
      exact h.out
  | appendSample index data duration =>
      refine Checked.passes_checkFault fun hfault => ?_
      refine Checked.passes_get_bind (Checked.passes_guard fun hphase => ?_)
      obtain ⟨ledger, blocks, h⟩ := exists_recording hfresh hcreate
        (not_not.mp hphase) (hmet hfault)
      exact Checked.passes_appendSample h hwithin index data duration
  | finalize optimize =>
      by_cases hready : ((opened muxer).run calls).muxer.out.fault? = none
        ∧ ((opened muxer).run calls).muxer.phase = .writing
      · obtain ⟨ledger, blocks, h⟩ := exists_recording hfresh hcreate
          hready.2 (hmet hready.1)
        exact Checked.passes_finalize h optimize (hmovie optimize rfl)
      · refine Checked.passes_checkFault fun hfault => ?_
        refine Checked.passes_get_bind ?_
        cases hphase : ((opened muxer).run calls).muxer.phase with
        | configuring => exact trivial
        | finalized => exact trivial
        | writing => exact absurd ⟨hfault, hphase⟩ hready

/-- Calls on a muxer for a sink that is faithful and was empty. Whatever
the calls are, and whatever fails, each of them comes through all checks
that it reaches, as long as the file is shorter than `2 ^ 63` bytes, no
track has `2 ^ 32` samples and no movie box has `2 ^ 32` bytes. -/
theorem no_check_fails (hfresh : FaithfulSink.view sink = .empty)
    (hcreate : Muxer.create config now sink = .ok muxer)
    (hwithin : ∀ before, before <+: calls →
      Within ((opened muxer).run before).muxer)
    (hmovie : ∀ before optimize,
      before ++ [.finalize optimize] <+: calls → ∀ movie closing,
      Muxer.closingMovie optimize ((opened muxer).run before).muxer
        = .ok movie closing →
      (encode movie).length < 2 ^ 32) :
    ∀ before call, before ++ [call] <+: calls →
      call.checked.action = call.perform (σ := σ)
        ∧ call.checked.Passes ((opened muxer).run before).muxer := by
  intro before call hprefix
  have hbefore := hwithin before
    ((List.prefix_append before [call]).trans hprefix)
  refine ⟨call.action_checked, passes_call hfresh hcreate hbefore ?_⟩
  rintro optimize rfl
  exact hmovie before optimize hprefix

end Session

/-- The short session keeps within the limits, and closing its file, which
succeeds, comes through all checks. -/
theorem no_check_fails_shortSession :
    (Call.finalize true).checked.Passes
        ((Session.opened freshMuxer).run shortSession).muxer
      ∧ ∃ final, Muxer.finalize true
          ((Session.opened freshMuxer).run shortSession).muxer
        = .ok () final := by
  have hwithin : ∀ before ∈ (shortSession ++ [Call.finalize true]).inits,
      ((Session.opened freshMuxer).run before).muxer.out.sink.bytes.length
          < 2 ^ 63
        ∧ ∀ track ∈ ((Session.opened freshMuxer).run before).muxer.tracks,
          track.samples.length < 2 ^ 32 := by decide +kernel
  obtain ⟨_, hpasses⟩ := Session.no_check_fails
    (rfl : FaithfulSink.view FlatFile.empty = .empty) create_default
    (fun before hbefore => hwithin before ((List.mem_inits _ _).mpr hbefore))
    (fun _ _ => closingMovie_shortSession) shortSession (.finalize true)
    List.prefix_rfl
  obtain ⟨final, hfinalize, _⟩ := finalize_shortSession true
  exact ⟨hpasses, final, hfinalize⟩

end AudioMux
