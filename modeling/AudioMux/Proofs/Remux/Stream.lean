/-
What becomes of an ADTS stream.

Exactly a playable stream is remuxed (`remux_playable`): its frames are all
that is read of it, the calls for them all succeed, and the file is closed
unless it is too large. A reader then gets back the access units as they
were, with their durations, and what the headers said about decoding them.
-/
import AudioMux.Proofs.Adts.Playable
import AudioMux.Proofs.Remux.Calls

namespace AudioMux

open Adts (WholeFrame Header Frame Playable)

namespace Remux

-- ================================================================= actions

section
variable {σ : Type} {α : Type}

theorem telling_ok {failure : Failure → StreamFailure} {action : Muxing σ α}
    {muxer next : Muxer σ} {a : α} (h : action muxer = .ok a next) :
    telling failure action muxer = .ok a next := by
  unfold telling
  rw [h]

theorem telling_error {failure : Failure → StreamFailure}
    {action : Muxing σ α} {muxer next : Muxer σ} {cause : Failure}
    (h : action muxer = .error cause next) :
    telling failure action muxer = .error (failure cause) next := by
  unfold telling
  rw [h]

variable [Sink σ]

/-- Setting up the track makes the calls for it. -/
theorem configure_eq (settings : Settings) (tags : List Tag)
    (first : Header) :
    (do
      configure settings tags first
      Muxer.beginWriting)
      = (setupCalls settings tags first ++ [Call.beginWriting]).forM
          (Call.perform (σ := σ)) := by
  unfold configure setupCalls trackCalls allTags
  cases settings.toolTag <;> simp [List.forM_append, Call.perform]

/-- Frames of one stream are written by the calls for them. -/
theorem forM_writeFrame {first : Header} {frames : List Frame}
    (hsame : ∀ frame ∈ frames, frame.header.sameStream first = true)
    {muxer final : Muxer σ}
    (h : (sampleCalls (frames.map Frame.payload)).forM Call.perform muxer
      = .ok ⟨⟩ final) :
    frames.forM (writeFrame first) muxer = .ok ⟨⟩ final := by
  induction frames generalizing muxer with
  | nil =>
      cases h
      rfl
  | cons frame frames ih =>
      obtain ⟨_, next, happend, hrest⟩ := Action.bind_eq_ok
        (show (Muxer.appendSample 0 frame.payload Adts.samplesPerFrame
          >>= fun _ => (sampleCalls (frames.map Frame.payload)).forM
            Call.perform) muxer = .ok ⟨⟩ final from h)
      have hwrite : writeFrame first frame muxer = .ok () next := by
        unfold writeFrame
        rw [hsame frame List.mem_cons_self]
        exact telling_ok happend
      exact (Action.apply_bind_ok hwrite).trans
        (ih (fun other hother =>
          hsame other (List.mem_cons_of_mem _ hother)) hrest)

/-- Frames are only written if they are of one stream. -/
theorem sameStream_of_forM {first : Header} {frames : List Frame}
    {muxer final : Muxer σ}
    (h : frames.forM (writeFrame first) muxer = .ok ⟨⟩ final) :
    ∀ frame ∈ frames, frame.header.sameStream first = true := by
  induction frames generalizing muxer with
  | nil => exact nofun
  | cons frame frames ih =>
      obtain ⟨_, next, hwrite, hrest⟩ := Action.bind_eq_ok
        (show (writeFrame first frame >>= fun _ =>
          frames.forM (writeFrame first)) muxer = .ok ⟨⟩ final from h)
      have hsame : frame.header.sameStream first = true := by
        cases hsame : frame.header.sameStream first with
        | true => rfl
        | false =>
            unfold writeFrame at hwrite
            rw [hsame] at hwrite
            cases hwrite
      intro other hother
      rcases List.mem_cons.mp hother with rfl | hmem
      · exact hsame
      · exact ih hrest other hmem

/-- A file is only written to its end for a stream that ended well and
whose frames agree. -/
theorem writeFile_eq_ok {settings : Settings} {tags : List Tag}
    {first : Header} {frames : List Frame}
    {failure? : Option Adts.ReadFailure} {muxer final : Muxer σ}
    (h : writeFile settings tags first frames failure? muxer
      = .ok () final) :
    failure? = none
      ∧ ∀ frame ∈ frames, frame.header.sameStream first = true := by
  unfold writeFile at h
  obtain ⟨_, begun, _, hrest⟩ := Action.bind_eq_ok h
  obtain ⟨_, written, hframes, hrest⟩ := Action.bind_eq_ok hrest
  refine ⟨?_, sameStream_of_forM hframes⟩
  cases failure? with
  | none => rfl
  | some failure => cases hrest

/-- The calls for a stream are what is done with it. -/
theorem writeFile_eq {settings : Settings} {tags : List Tag}
    {first : Header} {frames : List Frame} {muxer ready : Muxer σ}
    (hsame : ∀ frame ∈ frames, frame.header.sameStream first = true)
    (h : (calls settings tags first (frames.map Frame.payload)).forM
      Call.perform muxer = .ok ⟨⟩ ready) :
    writeFile settings tags first frames none muxer
      = telling .finalizing (Muxer.finalize settings.muxer.optimize)
          ready := by
  obtain ⟨written, hwritten, hlast⟩ := Action.forM_append_eq_ok h
  obtain ⟨begun, hbegun, hsamples⟩ := Action.forM_append_eq_ok hwritten
  rw [← configure_eq] at hbegun
  have hlast : (Muxer.setPriming 0 settings.delay settings.padding
      >>= fun _ => (pure ⟨⟩ : Muxing σ PUnit)) written
    = .ok ⟨⟩ ready := hlast
  obtain ⟨_, primed, hpriming, hdone⟩ := Action.bind_eq_ok hlast
  cases hdone
  unfold writeFile
  rw [Action.apply_bind_ok (telling_ok hbegun),
    Action.apply_bind_ok (forM_writeFrame hsame hsamples)]
  exact Action.apply_bind_ok (telling_ok hpriming)

end

-- ================================================================ streams

section
variable {σ : Type}

/-- A muxer for a stream can be created at every rate. -/
theorem exists_created (settings : Settings) (now : UInt64) (sink : σ)
    {rate : UInt32} (h : rate ≠ 0) :
    ∃ muxer, Muxer.create (muxerConfig settings rate) now sink = .ok muxer
      ∧ muxer.codings = [⟨.aac, rate, []⟩] := by
  unfold Muxer.create
  rw [if_neg nofun,
    if_neg (show (muxerConfig settings rate).timescale ≠ 0 from h)]
  exact ⟨_, rfl, rfl⟩

theorem payloadSize_eq (frames : List Frame) :
    payloadSize frames
      = ((frames.map Frame.payload).map List.length).sum := by
  induction frames with
  | nil => rfl
  | cons frame frames ih =>
      rw [List.map_cons, List.map_cons, List.sum_cons, ← ih]
      rfl

/-- What comes back once a stream was written, or was not. -/
def report (made : Summary) :
    EStateM.Result StreamFailure (Muxer σ) Unit →
      Except StreamFailure Summary × σ
  | .ok () final => (.ok made, final.out.sink)
  | .error failure final => (.error failure, final.out.sink)

/-- A stream whose first frame is good becomes what is written for it. -/
theorem remux_of_frames [Sink σ] {settings : Settings} {tags : List Tag}
    {now : UInt64} {source : Adts.Source} {sink : σ} {frame : Frame}
    {frames : List Frame} {failure? : Option Adts.ReadFailure}
    {rate : UInt32} {muxer : Muxer σ}
    (hframes : (Adts.Reader.ofSource source).frames
      = (frame :: frames, failure?))
    (hrate : frame.header.sampleRate? = some rate)
    (hcreate : Muxer.create (muxerConfig settings rate) now sink
      = .ok muxer) :
    remux settings tags now source sink
      = report ⟨(frame :: frames).length, rate,
          channels frame.header.channelConfig, payloadSize (frame :: frames)⟩
        (writeFile settings tags frame.header (frame :: frames) failure?
          muxer) := by
  unfold remux
  rw [hframes]
  dsimp only
  rw [hrate]
  dsimp only
  rw [hcreate]
  dsimp only
  cases writeFile settings tags frame.header (frame :: frames) failure?
    muxer <;> rfl

/-- What is handed in for a stream. -/
def intake (frames : List WholeFrame) : Intake where
  fixedDuration? := some Adts.samplesPerFrame
  units := frames.map fun frame => ⟨frame.payload, Adts.samplesPerFrame⟩

/-- A reader should find as many durations of 1024 ticks as frames. -/
theorem recovered_intake (frames : List WholeFrame) :
    (intake frames).recovered = {
      samples := frames.map WholeFrame.payload
      durations := List.replicate frames.length 1024
      duration := 1024 * frames.length } := by
  have hdurations : (intake frames).units.map
        (fun unit => unit.duration.toNat)
      = List.replicate frames.length 1024 := by
    rw [intake, List.map_map]
    exact List.map_const'
  unfold Intake.recovered
  rw [hdurations, List.sum_replicate_nat, Nat.mul_comm, intake,
    List.map_map]
  rfl

/-- What was made of a stream. -/
def summary (first : WholeFrame) (rest : List WholeFrame) (rate : UInt32) :
    Summary where
  frames := (first :: rest).length
  sampleRate := rate
  channels := channels first.header.channelConfig
  bytes := ((first :: rest).map fun frame => frame.payload.length).sum

variable [Sink σ] [FaithfulSink σ] [NeverFails σ] {settings : Settings}
  {tags : List Tag} {now : UInt64} {source : Adts.Source} {sink : σ}
  {first : WholeFrame} {rest : List WholeFrame}

/-- All frames of a playable stream are written. What is left is to close
the file. -/
theorem exists_written (hsteady : source.Steady)
    (hfresh : FaithfulSink.view sink = .empty)
    (htags : ∀ tag ∈ tags, ∃ stored?, tag.encode = .ok stored?)
    (h : Playable source.bytes first rest) :
    ∃ (rate : UInt32) (session : Session σ) (ledger : List Entry)
      (blocks : List Block),
      Adts.sampleRates[first.header.samplingIndex]? = some rate
        ∧ session.image.Recording ledger blocks
        ∧ session.intakes = [intake (first :: rest)]
        ∧ session.muxer.codings = [⟨.aac, rate, first.header.decoderConfig⟩]
        ∧ remux settings tags now source sink
          = report (summary first rest rate)
            (telling .finalizing (Muxer.finalize settings.muxer.optimize)
              session.muxer) := by
  obtain ⟨rate, hrate, hnonzero⟩ := Adts.Header.exists_rate h.known
  obtain ⟨muxer, hcreate, hcodings⟩ :=
    exists_created settings now sink hnonzero
  have hpayloads := WholeFrame.payloads_located 0 (first :: rest)
  have hsmall : ∀ payload ∈ (first :: rest).map WholeFrame.payload,
      payload.length < 2 ^ 32 := by
    intro payload hpayload
    obtain ⟨frame, _, rfl⟩ := List.mem_map.mp hpayload
    exact Nat.lt_trans frame.length_payload_lt (by decide)
  have hallowed := allAllowed_calls settings first.header htags hsmall
  obtain ⟨hrun, hintakes, hrecoded⟩ :=
    Session.run_allowed hfresh hcreate hallowed
  have hended := Call.not_ended_append Call.not_ended_nil hallowed
  rw [List.nil_append] at hrun hintakes hrecoded hended
  obtain ⟨ledger, blocks, hrecording⟩ := Session.recording_of_begun hfresh
    hcreate (begun_calls settings first.header) hended
  refine ⟨rate, _, ledger, blocks, hrate, hrecording, ?_, ?_, ?_⟩
  · refine hintakes.trans ((record_calls settings first.header).trans ?_)
    unfold intake
    rw [List.map_map]
    rfl
  · refine hrecoded.trans ?_
    rw [← recode_calls settings first.header .aac rate, ← hcodings]
    rfl
  · have hframes := Adts.Reader.frames_eq (h.bytes ▸
      Adts.Reader.holds_ofSource hsteady)
    have hwrite := writeFile_eq h.sameStream (hpayloads ▸ hrun)
    have hsummary : (⟨(WholeFrame.located 0 (first :: rest)).length, rate,
          channels first.header.channelConfig,
          payloadSize (WholeFrame.located 0 (first :: rest))⟩ : Summary)
        = summary first rest rate := by
      rw [WholeFrame.length_located, payloadSize_eq, hpayloads, List.map_map]
      rfl
    rw [← hsummary]
    refine (remux_of_frames hframes hrate hcreate).trans ?_
    refine (congrArg (report _) hwrite).trans ?_
    rw [hpayloads]
    rfl

/-- A playable stream becomes a file that says what was in it, unless the
file gets too long. -/
theorem remux_of_playable (hsteady : source.Steady)
    (hfresh : FaithfulSink.view sink = .empty)
    (htags : ∀ tag ∈ tags, ∃ stored?, tag.encode = .ok stored?)
    (hlength : (FaithfulSink.view
      (remux settings tags now source sink).2).bytes.length < 2 ^ 32)
    (h : Playable source.bytes first rest) :
    ∃ rate, Adts.sampleRates[first.header.samplingIndex]? = some rate
      ∧ (remux settings tags now source sink).1
        = .ok (summary first rest rate)
      ∧ readFile? (FaithfulSink.view
          (remux settings tags now source sink).2).bytes
        = some [(intake (first :: rest)).recovered]
      ∧ readCodings? (FaithfulSink.view
          (remux settings tags now source sink).2).bytes
        = some [⟨.aac, rate, first.header.decoderConfig⟩] := by
  obtain ⟨rate, session, ledger, blocks, hrate, hrecording, hintakes,
    hcodings, hremux⟩ := exists_written hsteady hfresh htags h
  refine ⟨rate, hrate, ?_⟩
  have hsink : (remux settings tags now source sink).2
      = (session.proceed
        (.finalize settings.muxer.optimize)).muxer.out.sink := by
    rw [hremux]
    cases hrun : Muxer.finalize settings.muxer.optimize session.muxer with
    | ok _ final =>
        rw [telling_ok hrun, Session.proceed_ok (.finalize _) hrun]
        rfl
    | error cause final =>
        rw [telling_error hrun, Session.proceed_error (.finalize _) hrun]
        rfl
  obtain ⟨final, hfinalize⟩ :=
    hrecording.exists_finalized (hsink ▸ hlength)
  rw [telling_ok hfinalize] at hremux
  rw [hremux] at hlength ⊢
  obtain ⟨hfile, hread⟩ := hrecording.reads hfinalize hlength
    (by
      intro coding hcoding
      rw [hcodings] at hcoding
      obtain rfl := List.mem_singleton.mp hcoding
      show 2 < 2 ^ 27
      decide)
    (by
      intro entry hentry unit hunit
      rw [hintakes] at hentry
      obtain rfl := List.mem_singleton.mp hentry
      obtain ⟨frame, _, rfl⟩ := List.mem_map.mp hunit
      exact Nat.lt_trans frame.length_payload_lt (by decide))
  rw [hintakes] at hfile
  rw [hcodings] at hread
  exact ⟨rfl, hfile, hread⟩

end

section
variable {σ : Type} [Sink σ] {settings : Settings} {tags : List Tag}
  {now : UInt64} {source : Adts.Source} {sink : σ} {made : Summary}

/-- What becomes a file was read to its end, begins with a frame whose
sampling frequency has an index, and has only frames that agree. -/
theorem frames_of_remux
    (h : (remux settings tags now source sink).1 = .ok made) :
    ∃ frame frames,
      (Adts.Reader.ofSource source).frames = (frame :: frames, none)
        ∧ frame.header.samplingIndex < 13
        ∧ ∀ other ∈ frame :: frames,
          other.header.sameStream frame.header = true := by
  unfold remux at h
  cases hframes : (Adts.Reader.ofSource source).frames with
  | mk frames failure? =>
  rw [hframes] at h
  cases frames with
  | nil => cases failure? <;> cases h
  | cons frame frames =>
  dsimp only at h
  cases hrate : frame.header.sampleRate? with
  | none =>
      rw [hrate] at h
      cases h
  | some rate =>
  rw [hrate] at h
  dsimp only at h
  cases hcreate : Muxer.create (muxerConfig settings rate) now sink with
  | error cause =>
      rw [hcreate] at h
      cases h
  | ok muxer =>
  rw [hcreate] at h
  dsimp only at h
  cases hwrite : writeFile settings tags frame.header (frame :: frames)
      failure? muxer with
  | error failure final =>
      rw [hwrite] at h
      cases h
  | ok _ final =>
      obtain ⟨rfl, hsame⟩ := writeFile_eq_ok hwrite
      obtain ⟨hindex, _⟩ := List.getElem?_eq_some_iff.mp hrate
      exact ⟨frame, frames, rfl, hindex, hsame⟩

/-- Only a playable stream becomes a file. -/
theorem exists_playable (hsteady : source.Steady)
    (h : (remux settings tags now source sink).1 = .ok made) :
    ∃ first rest, Playable source.bytes first rest := by
  obtain ⟨frame, frames, hframes, hindex, hsame⟩ := frames_of_remux h
  have hholds := Adts.Reader.holds_ofSource hsteady
  obtain ⟨whole, hbytes⟩ := Adts.Reader.exists_whole_of_frames hholds
    (by rw [hframes])
  have hlocated := (Adts.Reader.frames_eq (hbytes ▸ hholds)).symm.trans
    hframes
  have hlocated : WholeFrame.located 0 whole = frame :: frames :=
    congrArg Prod.fst hlocated
  cases whole with
  | nil => cases hlocated
  | cons first rest =>
  cases hlocated
  have hwhole : ∀ other ∈ first :: rest,
      other.header.sameStream first.header = true :=
    (WholeFrame.forall_located
      (p := fun header => header.sameStream first.header = true)).mp hsame
  exact ⟨first, rest, hbytes, fun other hother =>
    (Header.agrees_iff _ _).mp (hwhole other (.tail _ hother)), hindex⟩

end

end Remux

-- ================================================================= results

open Adts (DecoderSetup)

/-- A frame with two bytes. -/
def shortFrame : WholeFrame where
  header := ⟨1, 4, 2, true, 9, 0⟩
  bytes := [0xff, 0xf1, 0x50, 0x80, 0x01, 0x20, 0x00, 0x0a, 0x0b]
  parsed := by decide
  single := rfl
  covers := by decide
  length_bytes := rfl

/-- A frame with a checksum and nothing else. -/
def emptyFrame : WholeFrame where
  header := ⟨1, 4, 2, false, 9, 0⟩
  bytes := [0xff, 0xf0, 0x50, 0x80, 0x01, 0x20, 0x00, 0x3c, 0x5d]
  parsed := by decide
  single := rfl
  covers := by decide
  length_bytes := rfl

/-- A stream of the two. -/
def shortStream : Bytes := WholeFrame.stream [shortFrame, emptyFrame]

theorem playable_shortStream :
    Playable shortStream shortFrame [emptyFrame] where
  bytes := rfl
  agree := by
    intro frame hframe
    obtain rfl := List.mem_singleton.mp hframe
    exact ⟨rfl, rfl, rfl⟩
  known := by decide

/-- What is left of the short stream in a flat file. -/
def shortRemux : Except Remux.StreamFailure Remux.Summary × FlatFile :=
  remux .default [.text Tag.Code.title "short"] 0 (.ofBytes shortStream)
    .empty

theorem length_shortRemux : shortRemux.2.bytes.length < 2 ^ 32 := by
  have hholds : (Adts.Reader.ofSource (.ofBytes shortStream)).Holds 0
      (WholeFrame.stream [shortFrame, emptyFrame]) :=
    Adts.Reader.holds_ofSource (Adts.Source.steady_ofBytes shortStream)
  have hremux : shortRemux = _ :=
    Remux.remux_of_frames (Adts.Reader.frames_eq hholds) rfl rfl
  rw [hremux]
  decide +kernel

end AudioMux
