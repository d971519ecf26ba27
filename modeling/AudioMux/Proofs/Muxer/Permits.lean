/-
Which calls a muxer takes.

What a call needs can be read off the muxer before it (`Permitted`). A
call that is not permitted is refused before anything is touched: the
muxer, the sink and its cursor stay as they are, and nothing is remembered
(`Call.refused`). A call that is permitted succeeds on a flat file
(`Session.Active.accepts`), except that closing the file needs a movie box
whose size fits into 32 bits (`Session.Recording.accepts_finalize`).
-/
import AudioMux.Proofs.Muxer.Agreement
import AudioMux.Proofs.Muxer.Fault
import AudioMux.Proofs.Tag.Encode

namespace AudioMux

open AudioMux.Action (after)

-- ================================================================== answers

namespace Call

variable {σ : Type}

/-- What a call needs: a muxer at the right point, a track that is there,
and arguments that make sense. -/
def Permitted (muxer : Muxer σ) : Call → Prop
  | addTrack _ timescale => muxer.phase = .configuring
      ∧ muxer.tracks.length < maxTracks ∧ timescale ≠ 0
  | setChannels index _ | setFixedDuration index _ | setDecoderInfo index _
  | setVariableBitrate index _ | setPriming index _ _ =>
      muxer.phase ≠ .finalized ∧ index < muxer.tracks.length
  | setGapless _ => muxer.phase ≠ .finalized
  | addTag tag => muxer.phase ≠ .finalized
      ∧ ∃ stored?, tag.encode = .ok stored?
  | beginWriting => muxer.phase = .configuring
  | appendSample index data _ => muxer.phase = .writing
      ∧ index < muxer.tracks.length ∧ data.length < 2 ^ 32
  | finalize _ => muxer.phase = .writing

variable [Sink σ]

/-- A call with its answer: the index of a track that was added, and
nothing otherwise. -/
def answer : Call → Muxing σ (Option Nat)
  | addTrack codec timescale => do
    let index ← Muxer.addTrack codec timescale
    pure (some index)
  | call => do
    call.perform
    pure none

end Call

-- ================================================================= refusals

namespace Muxer

variable {σ : Type} {muxer : Muxer σ}

theorem checkConfigurable_of_finalized (hfault : muxer.out.fault? = none)
    (hphase : muxer.phase = .finalized) :
    checkConfigurable muxer = .error (.unsupported .finalized) muxer := by
  unfold checkConfigurable
  rw [Action.apply_bind_ok (Call.checkFault_of_no_fault hfault),
    Action.apply_bind_ok (Action.apply_get _), if_pos hphase]
  rfl

theorem checkConfigurable_ok (hfault : muxer.out.fault? = none)
    (hphase : muxer.phase ≠ .finalized) :
    checkConfigurable muxer = .ok () muxer := by
  unfold checkConfigurable
  rw [Action.apply_bind_ok (Call.checkFault_of_no_fault hfault),
    Action.apply_bind_ok (Action.apply_get _), if_neg hphase]
  rfl

/-- A setter is refused for a track that is not there, and once the file
is closed. -/
theorem configureTrack_refused (hfault : muxer.out.fault? = none)
    {index : Nat}
    (h : ¬ (muxer.phase ≠ .finalized ∧ index < muxer.tracks.length))
    (change : Track → Track) :
    ∃ reason, configureTrack index change muxer
      = .error (.unsupported reason) muxer := by
  by_cases hphase : muxer.phase = .finalized
  · exact ⟨_, Action.apply_bind_error
      (checkConfigurable_of_finalized hfault hphase)⟩
  · have hindex : muxer.tracks[index]? = none := by
      rw [List.getElem?_eq_none_iff]
      exact Nat.le_of_not_lt fun hlt => h ⟨hphase, hlt⟩
    refine ⟨.trackOutOfRange index muxer.tracks.length, ?_⟩
    unfold configureTrack
    rw [Action.apply_bind_ok (checkConfigurable_ok hfault hphase)]
    exact onTrack_none hindex _

theorem addTrack_refused (hfault : muxer.out.fault? = none) {codec : Codec}
    {timescale : UInt32}
    (h : ¬ (muxer.phase = .configuring ∧ muxer.tracks.length < maxTracks
      ∧ timescale ≠ 0)) :
    ∃ reason, addTrack codec timescale muxer
      = .error (.unsupported reason) muxer := by
  by_cases hphase : muxer.phase = .finalized
  · exact ⟨_, Action.apply_bind_error
      (checkConfigurable_of_finalized hfault hphase)⟩
  have hadd : addTrack codec timescale muxer = _ :=
    (Action.apply_bind_ok (checkConfigurable_ok hfault hphase)).trans
      (Action.apply_bind_ok (Action.apply_get _))
  dsimp only at hadd
  by_cases hconf : muxer.phase ≠ .configuring
  · rw [if_pos hconf] at hadd
    exact ⟨_, hadd⟩
  by_cases hmany : maxTracks ≤ muxer.tracks.length
  · rw [if_neg hconf, if_pos hmany] at hadd
    exact ⟨_, hadd⟩
  by_cases hzero : timescale = 0
  · rw [if_neg hconf, if_neg hmany, if_pos hzero] at hadd
    exact ⟨_, hadd⟩
  · exact absurd ⟨not_not.mp hconf, by omega, hzero⟩ h

/-- A tag that can be encoded is taken before the file is closed. -/
theorem addTag_ok (hfault : muxer.out.fault? = none)
    (hphase : muxer.phase ≠ .finalized) {tag : Tag}
    {stored? : Option TagEntry} (hencode : tag.encode = .ok stored?) :
    addTag tag muxer = .ok () { muxer with
      metadata := stored?.elim muxer.metadata muxer.metadata.insert } := by
  unfold addTag storeTag
  rw [Action.apply_bind_ok (checkConfigurable_ok hfault hphase),
    Action.apply_bind_ok (Action.apply_get _),
    TagTable.add_of_encode hencode]
  rfl

theorem addTag_refused (hfault : muxer.out.fault? = none) {tag : Tag}
    (h : ¬ (muxer.phase ≠ .finalized
      ∧ ∃ stored?, tag.encode = .ok stored?)) :
    ∃ reason, addTag tag muxer = .error (.unsupported reason) muxer := by
  by_cases hphase : muxer.phase = .finalized
  · exact ⟨_, Action.apply_bind_error
      (checkConfigurable_of_finalized hfault hphase)⟩
  cases hencode : tag.encode with
  | ok stored? => exact absurd ⟨hphase, stored?, hencode⟩ h
  | error failure =>
      obtain ⟨reason, rfl⟩ := Tag.exists_reason_of_encode hencode
      refine ⟨reason, (Action.apply_bind_ok
        (checkConfigurable_ok hfault hphase)).trans ?_⟩
      unfold storeTag
      rw [Action.apply_bind_ok (Action.apply_get _),
        TagTable.add_of_encode_error hencode]
      rfl

variable [Sink σ]

theorem beginWriting_refused (hfault : muxer.out.fault? = none)
    (h : muxer.phase ≠ .configuring) :
    ∃ reason, beginWriting muxer = .error (.unsupported reason) muxer := by
  by_cases hphase : muxer.phase = .finalized
  · exact ⟨_, Action.apply_bind_error
      (checkConfigurable_of_finalized hfault hphase)⟩
  · refine ⟨.alreadyWriting, ?_⟩
    unfold beginWriting
    rw [Action.apply_bind_ok (checkConfigurable_ok hfault hphase),
      Action.apply_bind_ok (Action.apply_get _), if_pos h]
    rfl

/-- A sample is refused before a chunk is written for it. -/
theorem appendSample_refused (hfault : muxer.out.fault? = none)
    {index : Nat} {data : Bytes} {duration : UInt32}
    (h : ¬ (muxer.phase = .writing ∧ index < muxer.tracks.length
      ∧ data.length < 2 ^ 32)) :
    ∃ reason, appendSample index data duration muxer
      = .error (.unsupported reason) muxer := by
  have happend : appendSample index data duration muxer = _ :=
    (Action.apply_bind_ok (Call.checkFault_of_no_fault hfault)).trans
      (Action.apply_bind_ok (Action.apply_get _))
  dsimp only at happend
  by_cases hphase : muxer.phase ≠ .writing
  · rw [if_pos hphase] at happend
    exact ⟨_, happend⟩
  rw [if_neg hphase] at happend
  cases htrack : muxer.tracks[index]? with
  | none =>
      exact ⟨_, happend.trans
        (Action.apply_bind_error (onTrack_none htrack _))⟩
  | some track =>
      have hindex := (List.getElem?_eq_some_iff.mp htrack).1
      have hlong : Box.maxWord32 < data.length := by
        have hdata : ¬ data.length < 2 ^ 32 := fun hdata =>
          h ⟨not_not.mp hphase, hindex, hdata⟩
        unfold Box.maxWord32
        omega
      have hrefuse := onTrack_error htrack
        (Track.append_too_large track duration hlong muxer.out)
      rw [set_of_getElem? htrack] at hrefuse
      exact ⟨_, happend.trans (Action.apply_bind_error hrefuse)⟩

theorem finalize_refused (hfault : muxer.out.fault? = none)
    (h : muxer.phase ≠ .writing) (optimize : Bool) :
    ∃ reason, finalize optimize muxer
      = .error (.unsupported reason) muxer := by
  have hfinal : finalize optimize muxer = _ :=
    (Action.apply_bind_ok (Call.checkFault_of_no_fault hfault)).trans
      (Action.apply_bind_ok (Action.apply_get _))
  dsimp only at hfinal
  cases hphase : muxer.phase with
  | configuring =>
      rw [hphase] at hfinal
      exact ⟨_, hfinal⟩
  | writing => exact absurd hphase h
  | finalized =>
      rw [hphase] at hfinal
      exact ⟨_, hfinal⟩

end Muxer

namespace Call

variable {σ : Type} [Sink σ] {muxer : Muxer σ}

theorem answer_of_error {call : Call} {failure : Failure}
    {next : Muxer σ} (h : call.perform muxer = .error failure next) :
    call.answer muxer = .error failure next := by
  cases call with
  | addTrack codec timescale =>
      unfold answer
      cases hrun : Muxer.addTrack codec timescale muxer with
      | ok index next' =>
          cases h.symm.trans (Action.apply_discard_ok hrun)
      | error failure' next' =>
          cases h.symm.trans (Action.apply_discard_error hrun)
          exact Action.apply_bind_error hrun
  | setChannels | setFixedDuration | setDecoderInfo | setVariableBitrate
  | setPriming | setGapless | addTag | beginWriting | appendSample
  | finalize => exact Action.apply_bind_error h

theorem answer_of_ok {call : Call} {next : Muxer σ}
    (h : call.perform muxer = .ok () next) :
    ∃ answer, call.answer muxer = .ok answer next := by
  cases call with
  | addTrack codec timescale =>
      obtain ⟨index, hadd⟩ := Action.discard_eq_ok h
      exact ⟨some index, Action.apply_bind_ok hadd⟩
  | setChannels | setFixedDuration | setDecoderInfo | setVariableBitrate
  | setPriming | setGapless | addTag | beginWriting | appendSample
  | finalize => exact ⟨none, Action.apply_bind_ok h⟩

/-- A call that is not permitted is refused and changes nothing. -/
theorem refused (hfault : muxer.out.fault? = none) {call : Call}
    (h : ¬ call.Permitted muxer) :
    ∃ reason, call.perform muxer
      = .error (.unsupported reason) muxer := by
  cases call with
  | addTrack codec timescale =>
      obtain ⟨reason, hadd⟩ := Muxer.addTrack_refused hfault h
      exact ⟨reason, Action.apply_discard_error hadd⟩
  | setChannels | setFixedDuration | setDecoderInfo | setVariableBitrate
  | setPriming => exact Muxer.configureTrack_refused hfault h _
  | setGapless mode =>
      exact ⟨_, Action.apply_bind_error
        (Muxer.checkConfigurable_of_finalized hfault (not_not.mp h))⟩
  | addTag tag => exact Muxer.addTag_refused hfault h
  | beginWriting => exact Muxer.beginWriting_refused hfault h
  | appendSample index data duration =>
      exact Muxer.appendSample_refused hfault h
  | finalize optimize => exact Muxer.finalize_refused hfault h optimize

/-- How far a muxer is after a call that succeeded. -/
def phaseAfter : Call → Phase → Phase
  | beginWriting, _ => .writing
  | finalize _, _ => .finalized
  | _, phase => phase

/-- How many tracks there are after a call that succeeded. -/
def tracksAfter : Call → Nat → Nat
  | addTrack _ _, count => count + 1
  | _, count => count

end Call

-- =============================================================== acceptance

/-- The movie box that closing the file is about to write. -/
def Muxer.closingMovie {σ : Type} [Sink σ] (optimize : Bool) :
    Muxing σ Box.Movie := do
  startClosing
  addGaplessItem
  writeMediaHeader
  let muxer ← get
  let gap := if optimize then muxer.relocationGap.toOption.getD 0 else 0
  pure (muxer.movie gap)

/-- A muxer that is writing comes to the movie box step by step. -/
theorem Muxer.closingMovie_ok {σ : Type} [Sink σ]
    {muxer finished tagged done : Muxer σ}
    (hfault : muxer.out.fault? = none) (hphase : muxer.phase = .writing)
    (hfinish : finishTracks { muxer with phase := .finalized }
      = .ok () finished)
    (hitem : addGaplessItem finished = .ok () tagged)
    (hseal : writeMediaHeader tagged = .ok () done) (optimize : Bool) :
    closingMovie optimize muxer = .ok
      (done.movie (if optimize then done.relocationGap.toOption.getD 0
        else 0)) done := by
  have hclosing : startClosing muxer = .ok () finished := by
    unfold startClosing
    rw [Action.apply_bind_ok (Call.checkFault_of_no_fault hfault),
      Action.apply_bind_ok (Action.apply_get _), hphase]
    exact (Action.apply_bind_ok (Action.apply_modify _ _)).trans hfinish
  unfold closingMovie
  rw [Action.apply_bind_ok hclosing, Action.apply_bind_ok hitem,
    Action.apply_bind_ok hseal]
  rfl

namespace Session

variable {session : Session FlatFile}

/-- A call that is permitted succeeds, as long as it does not close the
file. -/
theorem Active.accepts (h : session.Active) {call : Call}
    (hcall : ∀ optimize, call ≠ .finalize optimize)
    (hpermitted : call.Permitted session.muxer) :
    ∃ next, call.perform session.muxer = .ok () next
      ∧ next.phase = call.phaseAfter session.muxer.phase
      ∧ next.tracks.length
        = call.tracksAfter session.muxer.tracks.length := by
  obtain ⟨file, hout⟩ := h.out
  have hconf := Muxer.checkConfigurable_flat hout h.phase
  have hset : ∀ index change, index < session.muxer.tracks.length →
      ∃ next, Muxer.configureTrack index change session.muxer = .ok () next
        ∧ next.phase = session.muxer.phase
        ∧ next.tracks.length = session.muxer.tracks.length := by
    intro index change hindex
    exact ⟨_, Muxer.configureTrack_flat hout h.phase
      (List.getElem?_eq_getElem hindex) change, rfl, List.length_set⟩
  cases call with
  | addTrack codec timescale =>
      obtain ⟨hphase, hfew, hscale⟩ := hpermitted
      exact ⟨_, Action.apply_discard_ok
        (Muxer.addTrack_flat hout hphase hfew hscale), rfl,
        List.length_append⟩
  | setChannels index channels => exact hset index _ hpermitted.2
  | setFixedDuration index duration => exact hset index _ hpermitted.2
  | setDecoderInfo index info => exact hset index _ hpermitted.2
  | setVariableBitrate index varies => exact hset index _ hpermitted.2
  | setPriming index delay padding => exact hset index _ hpermitted.2
  | setGapless mode => exact ⟨_, Action.apply_bind_ok hconf, rfl, rfl⟩
  | addTag tag =>
      obtain ⟨_, stored?, hencode⟩ := hpermitted
      exact ⟨_, Muxer.addTag_ok h.fault h.phase hencode, rfl, rfl⟩
  | beginWriting =>
      cases h with
      | configuring ledger h =>
          exact ⟨_, Muxer.beginWriting_flat h.out h.phase, rfl, rfl⟩
      | recording ledger blocks h =>
          cases h.phase.symm.trans hpermitted
  | appendSample index data duration =>
      obtain ⟨hphase, hindex, hdata⟩ := hpermitted
      have hfits : data.length ≤ Box.maxWord32 := by
        unfold Box.maxWord32
        omega
      exact ⟨_, Muxer.appendSample_flat hout hphase
        (List.getElem?_eq_getElem hindex) hfits, rfl, List.length_set⟩
  | finalize optimize => exact absurd rfl (hcall optimize)

/-- A muxer that is writing closes the file if the movie box fits. -/
theorem Recording.accepts_finalize {ledger : List Entry}
    {blocks : List Block} (h : session.Recording ledger blocks)
    (optimize : Bool) :
    ∃ movie closing,
      Muxer.closingMovie optimize session.muxer = .ok movie closing
        ∧ ((Box.encode movie).length < 2 ^ 32 →
          ∃ next, Muxer.finalize optimize session.muxer = .ok () next) := by
  obtain ⟨finished, tagged, done, ledger', blocks', hfinish, hitem, hseal,
    hsealed, hfinal⟩ := Muxer.seal_of_recording h
  have hmovie := Muxer.closingMovie_ok h.fault h.phase hfinish hitem hseal
    optimize
  refine ⟨_, done, hmovie, fun hsmall => ?_⟩
  rw [hfinal]
  have hfits : ∀ movie : Box.Movie, (Box.encode movie).length < 2 ^ 32 →
      8 + (Box.content movie).length ≤ Box.maxWord32 := by
    intro movie hlength
    have hsize : Box.Format.size movie ≤ Box.maxWord32 :=
      Nat.le_trans (Box.fair_encode movie).1 (by
        unfold Box.maxWord32
        omega)
    rw [(Box.Measured.fair movie).2 hsize]
    exact hsize
  cases optimize with
  | false => exact ⟨_, hsealed.append_ok (hfits _ hsmall)⟩
  | true =>
      have hfew : done.tracks.length ≤ 2 := by
        rw [hsealed.tracks, List.length_map]
        exact hsealed.few
      obtain ⟨gap, hgap⟩ := done.relocationGap_ok hfew
      rw [hgap] at hsmall
      exact ⟨_, hsealed.prepend_ok hgap (hfits _ hsmall)⟩

end Session

/-- The movie box of the short session is small. -/
theorem closingMovie_shortSession {before : List Call} {optimize : Bool}
    (hcalls : before ++ [.finalize optimize]
      <+: shortSession ++ [.finalize true])
    (movie : Box.Movie) (closing : Muxer FlatFile)
    (hclosing : Muxer.closingMovie optimize
      ((Session.opened freshMuxer).run before).muxer = .ok movie closing) :
    (Box.encode movie).length < 2 ^ 32 := by
  have hsmall : (match Muxer.closingMovie true
        ((Session.opened freshMuxer).run shortSession).muxer with
      | .ok movie _ => decide ((Box.encode movie).length < 2 ^ 32)
      | .error _ _ => false) = true := by decide +kernel
  rcases List.prefix_concat_iff.mp hcalls with heq | hearlier
  · obtain ⟨rfl, hcall⟩ := List.append_inj' heq rfl
    cases hcall
    rw [hclosing] at hsmall
    exact of_decide_eq_true hsmall
  · have hmem := hearlier.subset
      (List.mem_append_right before (List.mem_singleton_self _))
    simp [shortSession] at hmem

end AudioMux
