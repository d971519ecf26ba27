/-
What actions may do to their output.

All actions of the library reach their sink in one way, through
`Output.perform`. So a rule about outputs that admits the five operations
of a sink, and that passes from step to step, is kept by every action,
however it ends. Such a rule is a `Conduct`: it relates the output before
an action to the output after it, and knows the failure that the action
ended with, if any. It has to allow for a lack of memory as well, which
is no matter of the sink.

There is one lemma for each action, in the order of the definitions. What
a particular rule says is proved of the five operations alone.
-/
import AudioMux.Proofs.Muxer.Session
import AudioMux.Proofs.Tag.Encode

namespace AudioMux

open AudioMux.Action (after ending)

-- ===================================================================== rules

/-- A rule about what becomes of an output. -/
structure Conduct (σ : Type) [Sink σ] where
  /-- The output before, the failure at the end, and the output after. -/
  Admits : Output σ → Option Failure → Output σ → Prop
  /-- Doing nothing is admitted. -/
  rest : ∀ out, Admits out none out
  /-- A success may be followed by anything that is admitted. -/
  follow : ∀ {first second third end?}, Admits first none second →
    Admits second end? third → Admits first end? third
  /-- An action may refuse and leave everything alone. -/
  refuse : ∀ {failure : Failure} out, failure.fault? = none →
    Admits out (some failure) out
  /-- It may run out of memory, which is remembered. -/
  starve : ∀ out, Admits out (some .outOfMemory)
    (Output.latch .outOfMemory out)
  position : ∀ out, Admits out (ending (Output.position out))
    (after (Output.position out))
  seek : ∀ target out, Admits out (ending (Output.seek target out))
    (after (Output.seek target out))
  write : ∀ bytes out, Admits out (ending (Output.write bytes out))
    (after (Output.write bytes out))
  read : ∀ count out, Admits out (ending (Output.read count out))
    (after (Output.read count out))
  flush : ∀ out, Admits out (ending (Output.flush out))
    (after (Output.flush out))

/-- An action keeps to a rule, if `output` is the output in its state. -/
def Obeys {S σ α : Type} [Sink σ] (conduct : Conduct σ)
    (output : S → Output σ) (action : EStateM Failure S α) : Prop :=
  ∀ state, conduct.Admits (output state) (ending (action state))
    (output (after (action state)))

section
variable {S σ α β : Type} [Sink σ] {conduct : Conduct σ}
  {output : S → Output σ}

theorem obeys_pure (a : α) :
    Obeys conduct output (pure a : EStateM Failure S α) :=
  fun state => conduct.rest (output state)

theorem obeys_throw {failure : Failure} (h : failure.fault? = none) :
    Obeys conduct output (throw failure : EStateM Failure S α) :=
  fun state => conduct.refuse (output state) h

theorem obeys_throw_bind {failure : Failure} (h : failure.fault? = none)
    (second : α → EStateM Failure S β) :
    Obeys conduct output (throw failure >>= second) :=
  fun state => conduct.refuse (output state) h

theorem obeys_get : Obeys conduct output (get : EStateM Failure S S) :=
  fun state => conduct.rest (output state)

theorem obeys_modify {change : S → S}
    (h : ∀ state, output (change state) = output state) :
    Obeys conduct output (modify change : EStateM Failure S PUnit) := by
  intro state
  show conduct.Admits (output state) none (output (change state))
  rw [h]
  exact conduct.rest (output state)

theorem obeys_bind {first : EStateM Failure S α}
    {second : α → EStateM Failure S β} (hfirst : Obeys conduct output first)
    (hsecond : ∀ a, Obeys conduct output (second a)) :
    Obeys conduct output (first >>= second) := by
  intro state
  have h := hfirst state
  cases hrun : first state with
  | ok a state' =>
      rw [hrun] at h
      rw [Action.apply_bind_ok hrun]
      exact conduct.follow h (hsecond a state')
  | error failure state' =>
      rw [hrun] at h
      rw [Action.apply_bind_error hrun]
      exact h

/-- An action that looks at its state, and puts back one with the same
output. -/
theorem obeys_get_bind {second : S → EStateM Failure S β}
    (h : ∀ state, conduct.Admits (output state)
      (ending (second state state)) (output (after (second state state)))) :
    Obeys conduct output (get >>= second) := by
  intro state
  rw [Action.apply_bind_ok (Action.apply_get state)]
  exact h state

theorem obeys_ite {c : Prop} [Decidable c] {f g : EStateM Failure S α}
    (hpos : Obeys conduct output f) (hneg : Obeys conduct output g) :
    Obeys conduct output (if c then f else g) := by
  split
  · exact hpos
  · exact hneg

/-- A guard refuses, or lets the rest go on. -/
theorem obeys_guard {c : Prop} [Decidable c] {reason : Unsupported}
    {next : PUnit → EStateM Failure S α}
    (h : Obeys conduct output (next ⟨⟩)) :
    Obeys conduct output
      (if c then throw (.unsupported reason) >>= next else next ⟨⟩) :=
  obeys_ite (obeys_throw_bind rfl next) h

theorem obeys_discard {action : EStateM Failure S α}
    (h : Obeys conduct output action) :
    Obeys conduct output (discard action) := by
  intro state
  have h := h state
  cases hrun : action state with
  | ok a state' =>
      rw [hrun] at h
      rw [Action.apply_discard_ok hrun]
      exact h
  | error failure state' =>
      rw [hrun] at h
      rw [Action.apply_discard_error hrun]
      exact h

theorem obeys_forM {ι : Type} {f : ι → EStateM Failure S PUnit}
    (h : ∀ i, Obeys conduct output (f i)) :
    ∀ l : List ι, Obeys conduct output (l.forM f) := by
  intro l
  induction l with
  | nil => exact obeys_pure _
  | cons i l ih => exact obeys_bind (h i) fun _ => ih

/-- Work on a part of a state keeps to what it keeps to there, if the
output is the part's. -/
theorem obeys_focus {T : Type} {part : S → T} {restore : T → S → S}
    {partOutput : T → Output σ} {action : EStateM Failure T α}
    (hpart : ∀ state, partOutput (part state) = output state)
    (hrestore : ∀ t state, output (restore t state) = partOutput t)
    (h : Obeys conduct partOutput action) :
    Obeys conduct output (Action.focus part restore action) := by
  intro state
  have h := h (part state)
  rw [hpart] at h
  cases hrun : action (part state) with
  | ok a t =>
      rw [hrun] at h
      rw [Action.focus_ok hrun]
      show conduct.Admits _ none (output (restore t state))
      rw [hrestore]
      exact h
  | error failure t =>
      rw [hrun] at h
      rw [Action.focus_error hrun]
      show conduct.Admits _ (some failure) (output (restore t state))
      rw [hrestore]
      exact h

end

-- ================================================================ the output

variable {σ α : Type} [Sink σ] (conduct : Conduct σ)

namespace Output

theorem obeys_check : Obeys conduct id (check (σ := σ)) :=
  obeys_bind obeys_get fun _ => obeys_ite (obeys_throw rfl) (obeys_pure _)

theorem obeys_writeWord32At (target n : Nat) :
    Obeys conduct id (writeWord32At (σ := σ) target n) := by
  refine obeys_bind conduct.position fun here => ?_
  refine obeys_bind (conduct.seek target) fun _ => ?_
  exact obeys_bind (conduct.write _) fun _ => conduct.seek here

theorem obeys_put {β : Type} [Box.Format β] (box : β) :
    Obeys conduct id (put (σ := σ) box) :=
  conduct.write (Box.encode box)

theorem obeys_openBox (kind : FourCC) :
    Obeys conduct id (openBox (σ := σ) kind) := by
  refine obeys_bind conduct.position fun start => ?_
  refine obeys_bind (conduct.write _) fun _ => ?_
  exact obeys_bind (conduct.write _) fun _ => obeys_pure start

theorem obeys_closeBox (start : Nat) :
    Obeys conduct id (closeBox (σ := σ) start) := by
  refine obeys_bind conduct.position fun position => ?_
  refine obeys_guard ?_
  exact obeys_bind (obeys_writeWord32At conduct start _) fun _ =>
    obeys_pure _

end Output

-- ======================================================== chunks and tracks

/-- An action on the output beside something else. -/
theorem obeys_beside {X : Type} {action : Writing σ α}
    (h : Obeys conduct id action) :
    Obeys conduct Prod.snd (beside X action) :=
  obeys_focus (fun _ => rfl) (fun _ _ => rfl) h

theorem ChunkTable.obeys_flush :
    Obeys conduct Prod.snd (ChunkTable.flush (σ := σ)) := by
  rw [ChunkTable.flush_eq]
  refine obeys_bind obeys_get fun s => ?_
  refine obeys_ite (obeys_pure _) ?_
  refine obeys_bind (obeys_beside conduct conduct.position) fun offset => ?_
  refine obeys_bind (obeys_modify fun _ => rfl) fun _ => ?_
  refine obeys_bind (obeys_beside conduct (conduct.write _)) fun _ => ?_
  exact obeys_bind (obeys_modify fun _ => rfl) fun _ => obeys_pure _

namespace Track

theorem obeys_onChunks {action : EStateM Failure (ChunkTable × Output σ) α}
    (h : Obeys conduct Prod.snd action) :
    Obeys conduct Prod.snd (onChunks action) := by
  rw [onChunks_eq]
  exact obeys_focus (fun _ => rfl) (fun _ _ => rfl) h

theorem obeys_makeRoom (duration : UInt32) :
    Obeys conduct Prod.snd (makeRoom (σ := σ) duration) := by
  refine obeys_bind obeys_get fun s => ?_
  refine obeys_ite ?_ (obeys_pure _)
  refine obeys_bind (obeys_onChunks conduct (ChunkTable.obeys_flush conduct))
    fun flushed => ?_
  exact obeys_bind
    (obeys_onChunks conduct (obeys_modify fun _ => rfl))
    fun _ => obeys_pure _

/-- A table without an open chunk is the only one to refuse a sample. -/
theorem obeys_add (data : Bytes) (duration : UInt32) :
    Obeys conduct Prod.snd (add (σ := σ) data duration) := by
  refine obeys_get_bind fun ⟨track, out⟩ => ?_
  dsimp only
  unfold ChunkTable.append
  cases track.chunks.newestFirst with
  | nil => exact conduct.refuse out rfl
  | cons chunk older => exact conduct.rest out

theorem obeys_append (data : Bytes) (duration : UInt32) :
    Obeys conduct Prod.snd (append (σ := σ) data duration) := by
  refine obeys_bind obeys_get fun s => ?_
  refine obeys_guard ?_
  refine obeys_bind (obeys_makeRoom conduct _) fun flushed => ?_
  exact obeys_bind (obeys_add conduct data _) fun _ => obeys_pure _

theorem obeys_finish : Obeys conduct Prod.snd (finish (σ := σ)) :=
  obeys_bind (obeys_modify fun _ => rfl) fun _ =>
    obeys_onChunks conduct (ChunkTable.obeys_flush conduct)

end Track

-- ================================================================= the muxer

namespace Muxer

theorem obeys_onOutput {action : Writing σ α}
    (h : Obeys conduct id action) :
    Obeys conduct Muxer.out (onOutput action) := by
  rw [onOutput_eq]
  exact obeys_focus (fun _ => rfl) (fun _ _ => rfl) h

theorem obeys_onTrack (index : Nat) {action : Tracking σ α}
    (h : Obeys conduct Prod.snd action) :
    Obeys conduct Muxer.out (onTrack index action) := by
  intro muxer
  cases htrack : muxer.tracks[index]? with
  | none =>
      rw [onTrack_none htrack]
      exact conduct.refuse muxer.out rfl
  | some track =>
      rw [onTrack_some htrack]
      have hwhole : Obeys conduct Muxer.out
          (Action.focus (trackPart track) (restoreTrack index) action) :=
        obeys_focus (fun _ => rfl) (fun _ _ => rfl) h
      exact hwhole muxer

theorem obeys_checkFault : Obeys conduct Muxer.out (checkFault (σ := σ)) :=
  obeys_onOutput conduct (Output.obeys_check conduct)

theorem obeys_checkConfigurable :
    Obeys conduct Muxer.out (checkConfigurable (σ := σ)) :=
  obeys_bind (obeys_checkFault conduct) fun _ =>
    obeys_bind obeys_get fun _ => obeys_ite (obeys_throw rfl) (obeys_pure _)

theorem obeys_configureTrack (index : Nat) (change : Track → Track) :
    Obeys conduct Muxer.out (configureTrack (σ := σ) index change) :=
  obeys_bind (obeys_checkConfigurable conduct) fun _ =>
    obeys_onTrack conduct index (obeys_modify fun _ => rfl)

theorem obeys_addTrack (codec : Codec) (timescale : UInt32) :
    Obeys conduct Muxer.out (addTrack (σ := σ) codec timescale) := by
  refine obeys_bind (obeys_checkConfigurable conduct) fun _ => ?_
  refine obeys_get_bind fun muxer => ?_
  dsimp only
  split
  · exact conduct.refuse muxer.out rfl
  split
  · exact conduct.refuse muxer.out rfl
  split
  · exact conduct.refuse muxer.out rfl
  · exact conduct.rest muxer.out

theorem obeys_setGapless (mode : GaplessMode) :
    Obeys conduct Muxer.out (setGapless (σ := σ) mode) :=
  obeys_bind (obeys_checkConfigurable conduct) fun _ =>
    obeys_modify fun _ => rfl

theorem obeys_storeTag (tag : Tag) :
    Obeys conduct Muxer.out (storeTag (σ := σ) tag) := by
  refine obeys_get_bind fun muxer => ?_
  cases hencode : tag.encode with
  | error failure =>
      obtain ⟨reason, rfl⟩ := Tag.exists_reason_of_encode hencode
      rw [TagTable.add_of_encode_error hencode]
      exact conduct.refuse muxer.out rfl
  | ok stored? =>
      rw [TagTable.add_of_encode hencode]
      exact conduct.rest muxer.out

theorem obeys_addTag (tag : Tag) :
    Obeys conduct Muxer.out (addTag (σ := σ) tag) :=
  obeys_bind (obeys_checkConfigurable conduct) fun _ =>
    obeys_storeTag conduct tag

-- =================================================================== writing

theorem obeys_beginWriting :
    Obeys conduct Muxer.out (beginWriting (σ := σ)) := by
  refine obeys_bind (obeys_checkConfigurable conduct) fun _ => ?_
  refine obeys_bind obeys_get fun muxer => ?_
  refine obeys_guard ?_
  refine obeys_bind (obeys_onOutput conduct (Output.obeys_put conduct _))
    fun _ => ?_
  refine obeys_bind (obeys_onOutput conduct conduct.position)
    fun headerEnd => ?_
  refine obeys_bind (obeys_modify fun _ => rfl) fun _ => ?_
  refine obeys_bind (obeys_onOutput conduct (Output.obeys_put conduct _))
    fun _ => ?_
  refine obeys_bind (obeys_discard
    (obeys_onOutput conduct (Output.obeys_openBox conduct _))) fun _ => ?_
  exact obeys_bind (obeys_onOutput conduct conduct.position)
    fun mediaStart => obeys_modify fun _ => rfl

theorem obeys_countMedia (written : Nat) :
    Obeys conduct Muxer.out (countMedia (σ := σ) written) :=
  obeys_modify fun _ => rfl

theorem obeys_appendSample (index : Nat) (data : Bytes)
    (duration : UInt32) :
    Obeys conduct Muxer.out
      (appendSample (σ := σ) index data duration) := by
  refine obeys_bind (obeys_checkFault conduct) fun _ => ?_
  refine obeys_bind obeys_get fun muxer => ?_
  refine obeys_guard ?_
  exact obeys_bind
    (obeys_onTrack conduct index (Track.obeys_append conduct data _))
    fun flushed => obeys_countMedia conduct flushed

-- ================================================================ finalizing

theorem obeys_finishTracks :
    Obeys conduct Muxer.out (finishTracks (σ := σ)) := by
  refine obeys_bind obeys_get fun muxer => ?_
  refine obeys_forM (fun index => ?_) _
  exact obeys_bind (obeys_onTrack conduct index (Track.obeys_finish conduct))
    fun flushed => obeys_countMedia conduct flushed

theorem obeys_addGaplessItem :
    Obeys conduct Muxer.out (addGaplessItem (σ := σ)) := by
  refine obeys_bind obeys_get fun muxer => ?_
  refine obeys_ite ?_ (obeys_pure _)
  cases muxer.tracks.head? with
  | none => exact obeys_pure _
  | some track =>
      exact obeys_ite (obeys_storeTag conduct _) (obeys_pure _)

theorem obeys_writeMediaHeader :
    Obeys conduct Muxer.out (writeMediaHeader (σ := σ)) := by
  refine obeys_bind obeys_get fun muxer => ?_
  refine obeys_bind (obeys_onOutput conduct (conduct.seek _)) fun _ => ?_
  refine obeys_bind (obeys_onOutput conduct (conduct.write _)) fun _ => ?_
  exact obeys_onOutput conduct (conduct.seek _)

theorem obeys_writeMovie (movie : Box.Movie) :
    Obeys conduct id (writeMovie (σ := σ) movie) :=
  obeys_bind (Output.obeys_openBox conduct _) fun start =>
    obeys_bind (conduct.write _) fun _ => Output.obeys_closeBox conduct start

theorem obeys_appendMovie :
    Obeys conduct Muxer.out (appendMovie (σ := σ)) :=
  obeys_bind obeys_get fun _ =>
    obeys_discard (obeys_onOutput conduct (obeys_writeMovie conduct _))

theorem obeys_moveBlocks (start gap block remaining : Nat) :
    Obeys conduct id (moveBlocks (σ := σ) start gap block remaining) := by
  induction remaining using Nat.strongRecOn with
  | ind remaining ih =>
      rw [moveBlocks]
      by_cases hdone : remaining = 0 ∨ block = 0
      · rw [if_pos hdone]
        exact obeys_pure _
      rw [if_neg hdone]
      refine obeys_bind (conduct.seek _) fun _ => ?_
      refine obeys_bind (conduct.read _) fun bytes => ?_
      refine obeys_bind (conduct.seek _) fun _ => ?_
      refine obeys_bind (conduct.write _) fun _ => ?_
      exact ih _ (by omega)

theorem obeys_moveMedia (gap block : Nat) :
    Obeys conduct Muxer.out (moveMedia (σ := σ) gap block) :=
  obeys_bind obeys_get fun _ =>
    obeys_bind (obeys_onOutput conduct (obeys_moveBlocks conduct _ _ _ _))
      fun _ => obeys_modify fun _ => rfl

omit [Sink σ] in
/-- A gap that is not found is an unsupported request. -/
theorem exists_reason_of_relocationGap {muxer : Muxer σ}
    {failure : Failure} (h : muxer.relocationGap = .error failure) :
    ∃ reason, failure = .unsupported reason := by
  have hsettle : ∀ passes gap, muxer.settleGap gap passes = .error failure →
      ∃ reason, failure = .unsupported reason := by
    intro passes
    induction passes with
    | zero =>
        intro gap hgap
        cases hgap
        exact ⟨_, rfl⟩
    | succ passes ih =>
        intro gap hgap
        unfold settleGap at hgap
        dsimp only at hgap
        split at hgap
        · cases hgap
        · exact ih _ hgap
  exact hsettle _ _ h

theorem obeys_prependMovie :
    Obeys conduct Muxer.out (prependMovie (σ := σ)) := by
  have hend : Obeys (S := Muxer σ) conduct Muxer.out
      (get >>= fun m => get >>= fun m' =>
        onOutput (Output.seek (m.mediaStart + m'.mediaSize))) :=
    obeys_bind obeys_get fun _ => obeys_bind obeys_get fun _ =>
      obeys_onOutput conduct (conduct.seek _)
  refine obeys_bind obeys_get fun muxer => ?_
  cases hgap : muxer.relocationGap with
  | error failure =>
      obtain ⟨reason, rfl⟩ := exists_reason_of_relocationGap hgap
      exact obeys_throw_bind rfl _
  | ok gap =>
      refine obeys_bind (obeys_pure gap) fun gap => ?_
      refine obeys_bind (obeys_moveMedia conduct gap _) fun _ => ?_
      refine obeys_bind obeys_get fun _ => ?_
      refine obeys_bind (obeys_onOutput conduct (conduct.seek _)) fun _ => ?_
      refine obeys_bind
        (obeys_onOutput conduct (Output.obeys_put conduct _)) fun _ => ?_
      refine obeys_bind (obeys_discard
        (obeys_onOutput conduct (Output.obeys_openBox conduct _)))
        fun _ => ?_
      refine obeys_bind (obeys_writeMediaHeader conduct) fun _ => ?_
      refine obeys_bind obeys_get fun _ => ?_
      refine obeys_bind (obeys_onOutput conduct (conduct.seek _)) fun _ => ?_
      refine obeys_bind obeys_get fun _ => ?_
      refine obeys_bind (obeys_onOutput conduct (obeys_writeMovie conduct _))
        fun size => ?_
      exact obeys_ite
        (obeys_bind (obeys_onOutput conduct (Output.obeys_put conduct _))
          fun _ => hend)
        hend

/-- Closing is refused before the file has begun, and once it is closed. -/
theorem obeys_close {f : Muxing σ Unit} (h : Obeys conduct Muxer.out f) :
    Obeys (S := Muxer σ) conduct Muxer.out
      (do
        checkFault
        match (← get).phase with
        | .configuring => throw (.unsupported .neverBegun)
        | .finalized => throw (.unsupported .alreadyFinalized)
        | .writing => pure ()
        modify fun muxer => { muxer with phase := .finalized }
        f) := by
  refine obeys_bind (obeys_checkFault conduct) fun _ => ?_
  refine obeys_bind obeys_get fun muxer => ?_
  cases muxer.phase with
  | configuring => exact obeys_throw_bind rfl _
  | finalized => exact obeys_throw_bind rfl _
  | writing => exact obeys_bind (obeys_modify fun _ => rfl) fun _ => h

theorem obeys_finalize (optimize : Bool) :
    Obeys conduct Muxer.out (finalize (σ := σ) optimize) := by
  refine obeys_close conduct
    (obeys_bind (obeys_finishTracks conduct) fun _ => ?_)
  refine obeys_bind (obeys_addGaplessItem conduct) fun _ => ?_
  refine obeys_bind (obeys_writeMediaHeader conduct) fun _ => ?_
  have hflush : Obeys (S := Muxer σ) conduct Muxer.out
      (onOutput Output.flush) := obeys_onOutput conduct conduct.flush
  exact obeys_ite
    (obeys_bind (obeys_prependMovie conduct) fun _ => hflush)
    (obeys_bind (obeys_appendMovie conduct) fun _ => hflush)

end Muxer

/-- Every call keeps to every rule. -/
theorem Call.obeys_perform (call : Call) :
    Obeys conduct Muxer.out (call.perform (σ := σ)) := by
  cases call with
  | addTrack codec timescale =>
      exact obeys_discard (Muxer.obeys_addTrack conduct codec timescale)
  | setChannels index | setFixedDuration index | setDecoderInfo index
  | setVariableBitrate index | setPriming index =>
      exact Muxer.obeys_configureTrack conduct index _
  | setGapless mode => exact Muxer.obeys_setGapless conduct mode
  | addTag tag => exact Muxer.obeys_addTag conduct tag
  | beginWriting => exact Muxer.obeys_beginWriting conduct
  | appendSample index data duration =>
      exact Muxer.obeys_appendSample conduct index data duration
  | finalize optimize => exact Muxer.obeys_finalize conduct optimize

end AudioMux
