/-
Every action of a muxer around a faithful sink is the same action around
a flat file (`Mirrors`). There is one lemma for each action, in the order
of the definitions: the chunk table, the track, the muxer, and closing
the file. The proofs follow the do blocks step by step; an action on a
part of the state is carried to the whole by `mirrors_focus`.
-/
import AudioMux.Muxer.Finalize
import AudioMux.Proofs.Sink.Faithful

namespace AudioMux

open Mirrored

-- ====================================================== parts of a state

/-- Working on a part of the state is mirrored if the work is, as long
as the image of the part is the part of the image and the fault is the
part's. -/
theorem mirrors_focus {S T S' T' α β : Type} [Mirrored S T]
    [Mirrored S' T'] {r : α → β} {f : EStateM Failure S α}
    {g : EStateM Failure T β} {part : S' → S} {restore : S → S' → S'}
    {part' : T' → T} {restore' : T → T' → T'} (h : Mirrors r f g)
    (hpart : ∀ s, part' (image s) = image (part s))
    (hrestore : ∀ s s',
      image (restore s s') = restore' (image s) (image s'))
    (hfault : ∀ s s', fault? (restore s s') = fault? s)
    (hfault' : ∀ t t',
      imageFault? S' (restore' t t') = imageFault? S t)
    (hrel : Reliable S' → Reliable S) :
    Mirrors r (Action.focus part restore f)
      (Action.focus part' restore' g) := by
  intro s'
  obtain ⟨hok, herr⟩ := h (part s')
  cases hf : f (part s') with
  | ok a s =>
      rw [Action.focus_ok hf]
      refine ⟨fun a' s₁ heq => ?_, nofun⟩
      cases heq
      have hg : g (part' (image s')) = .ok (r a) (image s) := by
        rw [hpart]
        exact hok a s hf
      rw [Action.focus_ok hg, hrestore]
  | error e s =>
      rw [Action.focus_error hf]
      refine ⟨nofun, fun e' s₁ heq => ?_⟩
      cases heq
      rcases herr e s hf with hsame | ⟨hlost, hboth⟩
      · refine Or.inl ?_
        have hg : g (part' (image s')) = .error e (image s) := by
          rw [hpart]
          exact hsame
        rw [Action.focus_error hg, hrestore]
      · refine Or.inr ⟨by rw [hfault]; exact hlost, fun hr => ?_⟩
        obtain ⟨e', t, hg, hlost'⟩ := hboth (hrel hr)
        rw [← hpart] at hg
        exact ⟨e', _, Action.focus_error hg, by rw [hfault']; exact hlost'⟩

-- ======================================================== chunks and tracks

variable {σ : Type} [Sink σ] [FaithfulSink σ] {α β X : Type} {r : α → β}

/-- A state beside an output. -/
instance : Mirrored (X × Output σ) (X × Output FlatFile) where
  image s := (s.1, s.2.image)
  fault? s := s.2.fault?
  imageFault? t := t.2.fault?
  Reliable := NeverFails σ

/-- An action on the output alone. -/
def beside {σ α : Type} (X : Type) (action : Writing σ α) :
    EStateM Failure (X × Output σ) α :=
  Action.focus Prod.snd (fun out s => (s.1, out)) action

omit [Sink σ] [FaithfulSink σ] in
theorem beside_ok {action : Writing σ α} {out after : Output σ} {a : α}
    (h : action out = .ok a after) (x : X) :
    beside X action (x, out) = .ok a (x, after) :=
  Action.focus_ok h

omit [Sink σ] [FaithfulSink σ] in
theorem beside_error {action : Writing σ α} {out after : Output σ}
    {failure : Failure} (h : action out = .error failure after) (x : X) :
    beside X action (x, out) = .error failure (x, after) :=
  Action.focus_error h

theorem mirrors_beside {f : Writing σ α} {g : Writing FlatFile β}
    (h : Mirrors r f g) : Mirrors r (beside X f) (beside X g) :=
  mirrors_focus h (fun _ => rfl) (fun _ _ => rfl) (fun _ _ => rfl)
    (fun _ _ => rfl) id

namespace ChunkTable

omit [FaithfulSink σ] in
/-- Flushing, step by step. -/
theorem flush_eq :
    flush (σ := σ) = (get >>= fun s =>
      if s.1.pending.isEmpty then pure 0
      else
        beside ChunkTable Output.position >>= fun offset =>
        modify (fun s => (s.1.place offset, s.2)) >>= fun _ =>
        beside ChunkTable (Output.write (s.1.place offset).pending)
          >>= fun _ =>
        modify (fun s => ({ s.1 with pending := [] }, s.2)) >>= fun _ =>
        pure (s.1.place offset).pending.length) := by
  funext ⟨table, out⟩
  rw [Action.apply_bind_ok (Action.apply_get _)]
  unfold flush
  by_cases hempty : table.pending.isEmpty = true
  · simp only [hempty, if_true]
    rfl
  simp only [if_neg hempty]
  cases hpos : Output.position out with
  | error failure out₁ =>
      rw [Action.apply_bind_error (beside_error hpos table)]
  | ok offset out₁ =>
      rw [Action.apply_bind_ok (beside_ok hpos table),
        Action.apply_bind_ok (Action.apply_modify _ _)]
      cases hwrite : Output.write (table.place offset).pending out₁ with
      | error failure out₂ =>
          rw [Action.apply_bind_error (beside_error hwrite _)]
          simp only [hwrite]
      | ok u out₂ =>
          rw [Action.apply_bind_ok (beside_ok hwrite _)]
          simp only [hwrite]
          rfl

theorem mirrors_flush :
    Mirrors (S := ChunkTable × Output σ) id flush flush := by
  rw [flush_eq, flush_eq]
  refine mirrors_get_bind fun s => ?_
  refine mirrors_ite (fun _ => mirrors_pure rfl) fun _ => ?_
  refine mirrors_bind (mirrors_beside Output.mirrors_position)
    fun offset => ?_
  refine mirrors_bind (mirrors_modify fun _ => rfl) fun _ => ?_
  refine mirrors_bind (mirrors_beside (Output.mirrors_write _)) fun _ => ?_
  exact mirrors_bind (mirrors_modify fun _ => rfl) fun _ => mirrors_pure rfl

end ChunkTable

namespace Track

/-- A track's chunks and the output. -/
def chunkPart {σ : Type} (s : Track × Output σ) : ChunkTable × Output σ :=
  (s.1.chunks, s.2)

/-- A track with other chunks, and another output. -/
def restoreChunks {σ : Type} (s : ChunkTable × Output σ)
    (whole : Track × Output σ) : Track × Output σ :=
  ({ whole.1 with chunks := s.1 }, s.2)

omit [Sink σ] [FaithfulSink σ] in
theorem onChunks_eq (action : EStateM Failure (ChunkTable × Output σ) α) :
    onChunks action = Action.focus chunkPart restoreChunks action := by
  funext ⟨track, out⟩
  unfold onChunks Action.focus chunkPart
  dsimp only
  cases action (track.chunks, out) <;> rfl

theorem mirrors_onChunks {f : EStateM Failure (ChunkTable × Output σ) α}
    {g : EStateM Failure (ChunkTable × Output FlatFile) β}
    (h : Mirrors r f g) : Mirrors r (onChunks f) (onChunks g) := by
  rw [onChunks_eq, onChunks_eq]
  exact mirrors_focus h (fun _ => rfl) (fun _ _ => rfl) (fun _ _ => rfl)
    (fun _ _ => rfl) id

theorem mirrors_makeRoom (duration : UInt32) :
    Mirrors (S := Track × Output σ) id (makeRoom duration)
      (makeRoom duration) := by
  refine mirrors_get_bind fun s => ?_
  refine mirrors_ite (fun _ => ?_) fun _ => mirrors_pure rfl
  refine mirrors_bind (mirrors_onChunks ChunkTable.mirrors_flush)
    fun flushed => ?_
  exact mirrors_bind (mirrors_onChunks (mirrors_modify fun _ => rfl))
    fun _ => mirrors_pure rfl

theorem mirrors_add (data : Bytes) (duration : UInt32) :
    Mirrors (S := Track × Output σ) id (add data duration)
      (add data duration) := by
  refine mirrors_get_bind fun s => ?_
  dsimp only
  cases s.1.chunks.append data duration with
  | error failure => exact mirrors_throw failure
  | ok chunks => exact mirrors_set rfl

theorem mirrors_append (data : Bytes) (duration : UInt32) :
    Mirrors (S := Track × Output σ) id (append data duration)
      (append data duration) := by
  refine mirrors_get_bind fun s => ?_
  refine mirrors_guard fun _ => ?_
  refine mirrors_bind (mirrors_makeRoom _) fun flushed => ?_
  exact mirrors_bind (mirrors_add data _) fun _ => mirrors_pure rfl

theorem mirrors_finish :
    Mirrors (S := Track × Output σ) id finish finish :=
  mirrors_bind (mirrors_modify fun _ => rfl) fun _ =>
    mirrors_onChunks ChunkTable.mirrors_flush

end Track

-- =============================================================== the muxer

namespace Muxer

/-- The muxer around the file that the sink stands for. -/
def image (muxer : Muxer σ) : Muxer FlatFile where
  out := muxer.out.image
  timescale := muxer.timescale
  creationTime := muxer.creationTime
  modificationTime := muxer.modificationTime
  gapless := muxer.gapless
  headerEnd := muxer.headerEnd
  mediaStart := muxer.mediaStart
  mediaSize := muxer.mediaSize
  tracks := muxer.tracks
  metadata := muxer.metadata
  phase := muxer.phase

/-- A muxer is created in the same way around the flat file. -/
theorem create_image {config : MuxerConfig} {now : UInt64} {sink : σ}
    {muxer : Muxer σ} (h : create config now sink = .ok muxer) :
    create config now (FaithfulSink.view sink) = .ok muxer.image := by
  unfold create at h ⊢
  split at h
  · cases h
  · split at h
    · cases h
    · next hcodec htimescale =>
      cases h
      rw [if_neg hcodec, if_neg htimescale]
      rfl

instance : Mirrored (Muxer σ) (Muxer FlatFile) where
  image := Muxer.image
  fault? muxer := muxer.out.fault?
  imageFault? muxer := muxer.out.fault?
  Reliable := NeverFails σ

/-- A muxer with another output. -/
def restoreOutput {σ : Type} (out : Output σ) (muxer : Muxer σ) : Muxer σ :=
  { muxer with out := out }

omit [Sink σ] [FaithfulSink σ] in
theorem onOutput_eq (action : Writing σ α) :
    onOutput action = Action.focus Muxer.out restoreOutput action := by
  funext muxer
  unfold onOutput Action.focus
  cases action muxer.out <;> rfl

theorem mirrors_onOutput {f : Writing σ α} {g : Writing FlatFile β}
    (h : Mirrors r f g) :
    Mirrors (S := Muxer σ) r (onOutput f) (onOutput g) := by
  rw [onOutput_eq, onOutput_eq]
  exact mirrors_focus h (fun _ => rfl) (fun _ _ => rfl) (fun _ _ => rfl)
    (fun _ _ => rfl) id

/-- A track and the output. -/
def trackPart {σ : Type} (track : Track) (muxer : Muxer σ) :
    Track × Output σ := (track, muxer.out)

/-- A muxer with another track at an index, and another output. -/
def restoreTrack {σ : Type} (index : Nat) (s : Track × Output σ)
    (muxer : Muxer σ) : Muxer σ :=
  { muxer with tracks := muxer.tracks.set index s.1, out := s.2 }

omit [Sink σ] [FaithfulSink σ] in
theorem onTrack_some {muxer : Muxer σ} {index : Nat} {track : Track}
    (h : muxer.tracks[index]? = some track) (action : Tracking σ α) :
    onTrack index action muxer
      = Action.focus (trackPart track) (restoreTrack index) action muxer := by
  unfold onTrack Action.focus trackPart
  rw [h]
  dsimp only
  cases action (track, muxer.out) <;> rfl

omit [Sink σ] [FaithfulSink σ] in
theorem onTrack_none {muxer : Muxer σ} {index : Nat}
    (h : muxer.tracks[index]? = none) (action : Tracking σ α) :
    onTrack index action muxer
      = .error (.unsupported (.trackOutOfRange index muxer.tracks.length))
          muxer := by
  unfold onTrack
  rw [h]

theorem mirrors_onTrack {f : Tracking σ α} {g : Tracking FlatFile β}
    (index : Nat) (h : Mirrors r f g) :
    Mirrors (S := Muxer σ) r (onTrack index f) (onTrack index g) := by
  intro muxer
  cases htrack : muxer.tracks[index]? with
  | none =>
      have himage : (Mirrored.image muxer).tracks[index]? = none := htrack
      rw [onTrack_none htrack, onTrack_none himage]
      refine ⟨nofun, fun e s' h => ?_⟩
      cases h
      exact Or.inl rfl
  | some track =>
      have himage : (Mirrored.image muxer).tracks[index]? = some track :=
        htrack
      rw [onTrack_some htrack, onTrack_some himage]
      have hwhole : Mirrors (S := Muxer σ) r
          (Action.focus (trackPart track) (restoreTrack index) f)
          (Action.focus (trackPart track) (restoreTrack index) g) :=
        mirrors_focus h (fun _ => rfl) (fun _ _ => rfl) (fun _ _ => rfl)
          (fun _ _ => rfl) id
      exact hwhole muxer

theorem mirrors_checkFault :
    Mirrors (S := Muxer σ) id checkFault checkFault :=
  mirrors_onOutput Output.mirrors_check

theorem mirrors_checkConfigurable :
    Mirrors (S := Muxer σ) id checkConfigurable checkConfigurable :=
  mirrors_bind mirrors_checkFault fun _ => mirrors_get_bind fun _ =>
    mirrors_ite (fun _ => mirrors_throw _) fun _ => mirrors_pure rfl

theorem mirrors_configureTrack (index : Nat) (change : Track → Track) :
    Mirrors (S := Muxer σ) id (configureTrack index change)
      (configureTrack index change) :=
  mirrors_bind mirrors_checkConfigurable fun _ =>
    mirrors_onTrack index (mirrors_modify fun _ => rfl)

theorem mirrors_addTrack (codec : Codec) (timescale : UInt32) :
    Mirrors (S := Muxer σ) id (addTrack codec timescale)
      (addTrack codec timescale) := by
  refine mirrors_bind mirrors_checkConfigurable fun _ => ?_
  refine mirrors_get_bind fun muxer => ?_
  refine mirrors_guard fun _ => ?_
  refine mirrors_guard fun _ => ?_
  refine mirrors_guard fun _ => ?_
  exact mirrors_bind (mirrors_set rfl) fun _ => mirrors_pure rfl

theorem mirrors_setGapless (mode : GaplessMode) :
    Mirrors (S := Muxer σ) id (setGapless mode) (setGapless mode) :=
  mirrors_bind mirrors_checkConfigurable fun _ => mirrors_modify fun _ => rfl

theorem mirrors_storeTag (tag : Tag) :
    Mirrors (S := Muxer σ) id (storeTag tag) (storeTag tag) := by
  refine mirrors_get_bind fun muxer => ?_
  have hmetadata : (Mirrored.image muxer).metadata = muxer.metadata := rfl
  rw [hmetadata]
  cases muxer.metadata.add tag with
  | error failure => exact mirrors_throw failure
  | ok metadata => exact mirrors_set rfl

theorem mirrors_addTag (tag : Tag) :
    Mirrors (S := Muxer σ) id (addTag tag) (addTag tag) :=
  mirrors_bind mirrors_checkConfigurable fun _ => mirrors_storeTag tag

-- ================================================================= writing

theorem mirrors_beginWriting :
    Mirrors (S := Muxer σ) id beginWriting beginWriting := by
  refine mirrors_bind mirrors_checkConfigurable fun _ => ?_
  refine mirrors_get_bind fun muxer => ?_
  refine mirrors_guard fun _ => ?_
  refine mirrors_bind (mirrors_onOutput (Output.mirrors_put _)) fun _ => ?_
  refine mirrors_bind (mirrors_onOutput Output.mirrors_position)
    fun headerEnd => ?_
  refine mirrors_bind (mirrors_modify fun _ => rfl) fun _ => ?_
  refine mirrors_bind (mirrors_onOutput (Output.mirrors_put _)) fun _ => ?_
  refine mirrors_bind
    (mirrors_discard (mirrors_onOutput (Output.mirrors_openBox _)))
    fun _ => ?_
  exact mirrors_bind (mirrors_onOutput Output.mirrors_position)
    fun mediaStart => mirrors_modify fun _ => rfl

theorem mirrors_countMedia (written : Nat) :
    Mirrors (S := Muxer σ) id (countMedia written) (countMedia written) :=
  mirrors_modify fun _ => rfl

theorem mirrors_appendSample (index : Nat) (data : Bytes)
    (duration : UInt32) :
    Mirrors (S := Muxer σ) id (appendSample index data duration)
      (appendSample index data duration) := by
  refine mirrors_bind mirrors_checkFault fun _ => ?_
  refine mirrors_get_bind fun muxer => ?_
  refine mirrors_guard fun _ => ?_
  exact mirrors_bind (mirrors_onTrack index (Track.mirrors_append data _))
    fun flushed => mirrors_countMedia flushed

-- =============================================================== finalizing

theorem mirrors_finishTracks :
    Mirrors (S := Muxer σ) id finishTracks finishTracks := by
  refine mirrors_get_bind fun muxer => ?_
  refine mirrors_forM (fun index => ?_) _
  exact mirrors_bind (mirrors_onTrack index Track.mirrors_finish)
    fun flushed => mirrors_countMedia flushed

theorem mirrors_addGaplessItem :
    Mirrors (S := Muxer σ) id addGaplessItem addGaplessItem := by
  refine mirrors_get_bind fun muxer => ?_
  refine mirrors_ite (fun _ => ?_) fun _ => mirrors_pure rfl
  have htracks : (Mirrored.image muxer).tracks = muxer.tracks := rfl
  rw [htracks]
  cases muxer.tracks.head? with
  | none => exact mirrors_pure rfl
  | some track =>
      exact mirrors_ite (fun _ => mirrors_storeTag _) fun _ =>
        mirrors_pure rfl

theorem mirrors_writeMediaHeader :
    Mirrors (S := Muxer σ) id writeMediaHeader writeMediaHeader := by
  refine mirrors_get_bind fun _ => ?_
  refine mirrors_bind (mirrors_onOutput (Output.mirrors_seek _)) fun _ => ?_
  refine mirrors_bind (mirrors_onOutput (Output.mirrors_write _)) fun _ => ?_
  exact mirrors_onOutput (Output.mirrors_seek _)

theorem mirrors_writeMovie (movie : Box.Movie) :
    Mirrors (S := Output σ) id (writeMovie movie) (writeMovie movie) :=
  mirrors_bind (Output.mirrors_openBox _) fun start =>
    mirrors_bind (Output.mirrors_write _) fun _ =>
      Output.mirrors_closeBox start

theorem mirrors_appendMovie :
    Mirrors (S := Muxer σ) (fun _ => ()) appendMovie appendMovie :=
  mirrors_get_bind fun _ =>
    mirrors_discard (mirrors_onOutput (mirrors_writeMovie _))

theorem mirrors_moveBlocks (start gap block remaining : Nat) :
    Mirrors (S := Output σ) id (moveBlocks start gap block remaining)
      (moveBlocks start gap block remaining) := by
  induction remaining using Nat.strongRecOn with
  | ind remaining ih =>
      rw [moveBlocks, moveBlocks]
      refine mirrors_ite (fun _ => mirrors_pure rfl) fun hne => ?_
      refine mirrors_bind (Output.mirrors_seek _) fun _ => ?_
      refine mirrors_bind (Output.mirrors_read _) fun bytes => ?_
      refine mirrors_bind (Output.mirrors_seek _) fun _ => ?_
      refine mirrors_bind (Output.mirrors_write _) fun _ => ?_
      exact ih _ (by omega)

theorem mirrors_moveMedia (gap block : Nat) :
    Mirrors (S := Muxer σ) id (moveMedia gap block) (moveMedia gap block) :=
  mirrors_get_bind fun _ =>
    mirrors_bind (mirrors_onOutput (mirrors_moveBlocks _ _ _ _)) fun _ =>
      mirrors_modify fun _ => rfl

/-- The gap depends on the tables alone. -/
theorem relocationGap_image (muxer : Muxer σ) :
    muxer.image.relocationGap = muxer.relocationGap := by
  have hsettle : ∀ passes gap,
      muxer.image.settleGap gap passes = muxer.settleGap gap passes := by
    intro passes
    induction passes with
    | zero => intro gap; rfl
    | succ passes ih =>
        intro gap
        show (if muxer.movieSize gap = gap ∨ muxer.movieSize gap + 8 ≤ gap
          then Except.ok gap
          else muxer.image.settleGap (muxer.movieSize gap + headroom) passes)
            = _
        rw [ih]
        rfl
  exact hsettle _ _

theorem mirrors_prependMovie :
    Mirrors (S := Muxer σ) id prependMovie prependMovie := by
  refine mirrors_get_bind fun muxer => ?_
  have hgap : (Mirrored.image muxer).relocationGap = muxer.relocationGap :=
    relocationGap_image muxer
  rw [hgap]
  cases muxer.relocationGap with
  | error failure =>
      exact mirrors_throw_bind failure _ _
  | ok gap =>
      refine mirrors_bind (mirrors_pure (r := id) rfl) fun gap => ?_
      refine mirrors_bind (mirrors_moveMedia gap _) fun _ => ?_
      refine mirrors_get_bind fun _ => ?_
      refine mirrors_bind (mirrors_onOutput (Output.mirrors_seek _))
        fun _ => ?_
      refine mirrors_bind (mirrors_onOutput (Output.mirrors_put _))
        fun _ => ?_
      refine mirrors_bind
        (mirrors_discard (mirrors_onOutput (Output.mirrors_openBox _)))
        fun _ => ?_
      refine mirrors_bind mirrors_writeMediaHeader fun _ => ?_
      refine mirrors_get_bind fun _ => ?_
      refine mirrors_bind (mirrors_onOutput (Output.mirrors_seek _))
        fun _ => ?_
      refine mirrors_get_bind fun _ => ?_
      refine mirrors_bind (mirrors_onOutput (mirrors_writeMovie _))
        fun size => ?_
      have hend : ∀ u : Unit, Mirrors (S := Muxer σ) id
          (get >>= fun m => get >>= fun m' =>
            onOutput (Output.seek (m.mediaStart + m'.mediaSize)))
          (get >>= fun m => get >>= fun m' =>
            onOutput (Output.seek (m.mediaStart + m'.mediaSize))) :=
        fun _ => mirrors_get_bind fun _ => mirrors_get_bind fun _ =>
          mirrors_onOutput (Output.mirrors_seek _)
      exact mirrors_ite
        (fun _ => mirrors_bind (mirrors_onOutput (Output.mirrors_put _)) hend)
        fun _ => hend ()

/-- Closing is refused before the file has begun, and once it is closed. -/
theorem mirrors_close {f : Muxing σ Unit} {g : Muxing FlatFile Unit}
    (h : Mirrors (S := Muxer σ) id f g) :
    Mirrors (S := Muxer σ) id
      (do
        checkFault
        match (← get).phase with
        | .configuring => throw (.unsupported .neverBegun)
        | .finalized => throw (.unsupported .alreadyFinalized)
        | .writing => pure ()
        modify fun muxer => { muxer with phase := .finalized }
        f)
      (do
        checkFault
        match (← get).phase with
        | .configuring => throw (.unsupported .neverBegun)
        | .finalized => throw (.unsupported .alreadyFinalized)
        | .writing => pure ()
        modify fun muxer => { muxer with phase := .finalized }
        g) := by
  refine mirrors_bind mirrors_checkFault fun _ => ?_
  refine mirrors_get_bind fun muxer => ?_
  have hphase : (Mirrored.image muxer).phase = muxer.phase := rfl
  rw [hphase]
  cases muxer.phase with
  | configuring => exact mirrors_throw_bind _ _ _
  | finalized => exact mirrors_throw_bind _ _ _
  | writing => exact mirrors_bind (mirrors_modify fun _ => rfl) fun _ => h

theorem mirrors_finalize (optimize : Bool) :
    Mirrors (S := Muxer σ) id (finalize optimize) (finalize optimize) := by
  refine mirrors_close (mirrors_bind mirrors_finishTracks fun _ => ?_)
  refine mirrors_bind mirrors_addGaplessItem fun _ => ?_
  refine mirrors_bind mirrors_writeMediaHeader fun _ => ?_
  have hflush : ∀ u : Unit, Mirrors (S := Muxer σ) id
      (onOutput Output.flush) (onOutput Output.flush) :=
    fun _ => mirrors_onOutput Output.mirrors_flush
  exact mirrors_ite (fun _ => mirrors_bind mirrors_prependMovie hflush)
    fun _ => mirrors_bind mirrors_appendMovie hflush

end Muxer

end AudioMux
