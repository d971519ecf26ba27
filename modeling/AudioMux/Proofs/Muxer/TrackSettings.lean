/-
What is set about the tracks, and left alone from then on.

A setting of a track is anything about it that has to do with neither its
samples nor the rates that are worked out from them, such as its codec or
its timescale (`Track.IsSetting`). Appending samples and finishing a track
leave its settings alone, so all that a muxer does with its tracks leaves
them alone, however it ends, unless it configures a track or adds one
(`keeps_settings_appendSample`, `keeps_settings_finalize`,
`addTrack_cases`).
-/
import AudioMux.Proofs.Muxer.Books

namespace AudioMux

open AudioMux.Action

-- ============================================================== the tracks

namespace Track

/-- Something about a track that appending to it does not touch. -/
structure IsSetting {X : Type} (look : Track → X) : Prop where
  chunks : ∀ (track : Track) chunks,
    look { track with chunks := chunks } = look track
  record : ∀ size duration (track : Track),
    look (record size duration track) = look track
  averageBitrate : ∀ (track : Track) rate,
    look { track with averageBitrate := rate } = look track

theorem isSetting_timescale : IsSetting Track.timescale :=
  ⟨fun _ _ => rfl, fun _ _ _ => rfl, fun _ _ => rfl⟩

variable {σ X : Type} {look : Track → X}

/-- Something about a track, where there is an output beside it. -/
def beside (look : Track → X) (state : Track × Output σ) : X :=
  look state.1

section
variable (h : IsSetting look)

include h

theorem keeps_setting_onChunks {α : Type}
    (action : EStateM Failure (ChunkTable × Output σ) α) :
    Keeps (beside look) (onChunks action) := by
  rintro ⟨track, out⟩
  unfold onChunks
  dsimp only
  cases action (track.chunks, out) with
  | ok a state => exact h.chunks track state.1
  | error failure state => exact h.chunks track state.1

theorem keeps_setting_add (data : Bytes) (duration : UInt32) :
    Keeps (beside (σ := σ) look) (add data duration) := by
  rintro ⟨track, out⟩
  unfold add
  rw [apply_bind_ok (apply_get _)]
  dsimp only
  cases track.chunks.append data duration with
  | error failure => rfl
  | ok chunks =>
      exact (h.record _ duration _).trans (h.chunks track chunks)

variable [Sink σ]

theorem keeps_setting_makeRoom (duration : UInt32) :
    Keeps (beside (σ := σ) look) (makeRoom duration) := by
  refine keeps_bind keeps_get fun state => keeps_ite ?_ (keeps_pure _)
  refine keeps_bind (keeps_setting_onChunks h _) fun flushed => ?_
  exact keeps_bind (keeps_setting_onChunks h _) fun _ => keeps_pure _

theorem keeps_setting_append (data : Bytes) (duration : UInt32) :
    Keeps (beside (σ := σ) look) (append data duration) := by
  refine keeps_bind keeps_get fun state => ?_
  refine keeps_ite (keeps_throw_bind _ _) ?_
  refine keeps_bind (keeps_setting_makeRoom h _) fun flushed => ?_
  exact keeps_bind (keeps_setting_add h data _) fun _ => keeps_pure _

theorem keeps_setting_finish : Keeps (beside (σ := σ) look) finish :=
  keeps_bind (keeps_modify fun state => h.averageBitrate state.1 _)
    fun _ => keeps_setting_onChunks h _

end

end Track

-- =============================================================== the muxer

namespace Muxer

variable {σ α X : Type} {look : Track → X}

/-- Something about each of the tracks. -/
def settings (look : Track → X) (muxer : Muxer σ) : List X :=
  muxer.tracks.map look

theorem aside_settings (look : Track → X) :
    Aside (settings (σ := σ) look) :=
  ⟨fun _ _ => rfl, fun _ _ => rfl, fun _ _ => rfl⟩

theorem keeps_settings_onTrack {action : Tracking σ α}
    (h : Keeps (Track.beside look) action) (index : Nat) :
    Keeps (settings look) (onTrack index action) := by
  intro muxer
  have hsame : ∀ track track', muxer.tracks[index]? = some track →
      look track' = look track →
      (muxer.tracks.set index track').map look = muxer.settings look := by
    intro track track' htrack hlook
    have hthere : (muxer.tracks.map look)[index]? = some (look track) := by
      rw [List.getElem?_map, htrack]
      rfl
    obtain ⟨hindex, hget⟩ := List.getElem?_eq_some_iff.mp hthere
    rw [List.map_set, hlook, ← hget, List.set_getElem_self]
    rfl
  unfold onTrack
  cases htrack : muxer.tracks[index]? with
  | none => rfl
  | some track =>
      have hlook := h (track, muxer.out)
      dsimp only
      cases hrun : action (track, muxer.out) with
      | ok a state =>
          rw [hrun] at hlook
          exact hsame track state.1 htrack hlook
      | error failure state =>
          rw [hrun] at hlook
          exact hsame track state.1 htrack hlook

theorem keeps_settings_checkConfigurable (look : Track → X) :
    Keeps (settings look) (checkConfigurable (σ := σ)) :=
  keeps_bind (keeps_onOutput (aside_settings look) _) fun _ =>
    keeps_bind keeps_get fun _ => keeps_ite (fun _ => rfl) (keeps_pure _)

/-- A setting that is not the one that is configured. -/
theorem keeps_settings_configureTrack (index : Nat)
    {change : Track → Track} (h : ∀ track, look (change track) = look track) :
    Keeps (settings look) (configureTrack (σ := σ) index change) := by
  refine keeps_bind (keeps_settings_checkConfigurable look) fun _ => ?_
  refine keeps_settings_onTrack ?_ index
  exact fun state => h state.1

theorem keeps_settings_setGapless (look : Track → X) (mode : GaplessMode) :
    Keeps (settings look) (setGapless (σ := σ) mode) :=
  keeps_bind (keeps_settings_checkConfigurable look) fun _ =>
    keeps_modify fun _ => rfl

theorem keeps_settings_addTag (look : Track → X) (tag : Tag) :
    Keeps (settings look) (addTag (σ := σ) tag) :=
  keeps_bind (keeps_settings_checkConfigurable look) fun _ =>
    keeps_storeTag (aside_settings look) tag

/-- Another track is either refused, or a new one with a timescale of its
own. -/
theorem addTrack_cases (muxer : Muxer σ) (codec : Codec)
    (timescale : UInt32) :
    (∃ failure next, addTrack codec timescale muxer = .error failure next
        ∧ next.tracks = muxer.tracks)
      ∨ ∃ index next, addTrack codec timescale muxer = .ok index next
        ∧ timescale ≠ 0
        ∧ next.tracks = muxer.tracks ++ [Track.new codec timescale] := by
  have hkeeps := keeps_settings_checkConfigurable id muxer
  unfold settings at hkeeps
  rw [List.map_id, List.map_id] at hkeeps
  unfold addTrack
  cases hcheck : checkConfigurable muxer with
  | error failure checked =>
      rw [hcheck] at hkeeps
      rw [apply_bind_error hcheck]
      exact Or.inl ⟨failure, checked, rfl, hkeeps⟩
  | ok _ checked =>
      rw [hcheck] at hkeeps
      have hkeeps : checked.tracks = muxer.tracks := hkeeps
      rw [apply_bind_ok hcheck, apply_bind_ok (apply_get _), ← hkeeps]
      by_cases hphase : checked.phase ≠ .configuring
      · rw [if_pos hphase]
        exact Or.inl ⟨_, checked, rfl, rfl⟩
      rw [if_neg hphase]
      by_cases hmany : maxTracks ≤ checked.tracks.length
      · rw [if_pos hmany]
        exact Or.inl ⟨_, checked, rfl, rfl⟩
      rw [if_neg hmany]
      by_cases hzero : timescale = 0
      · rw [if_pos hzero]
        exact Or.inl ⟨_, checked, rfl, rfl⟩
      rw [if_neg hzero]
      exact Or.inr ⟨_, _, rfl, hzero, rfl⟩

variable [Sink σ]

theorem keeps_settings_beginWriting (look : Track → X) :
    Keeps (settings look) (beginWriting (σ := σ)) := by
  have haside := aside_settings (σ := σ) look
  refine keeps_bind (keeps_settings_checkConfigurable look) fun _ => ?_
  refine keeps_bind keeps_get fun muxer => ?_
  refine keeps_ite (keeps_throw_bind _ _) ?_
  refine keeps_bind (keeps_onOutput haside _) fun _ => ?_
  refine keeps_bind (keeps_onOutput haside _) fun headerEnd => ?_
  refine keeps_bind (keeps_modify fun _ => rfl) fun _ => ?_
  refine keeps_bind (keeps_onOutput haside _) fun _ => ?_
  refine keeps_bind (keeps_discard (keeps_onOutput haside _)) fun _ => ?_
  exact keeps_bind (keeps_onOutput haside _) fun mediaStart =>
    keeps_modify fun _ => rfl

variable (h : Track.IsSetting look)

include h

theorem keeps_settings_appendSample (index : Nat) (data : Bytes)
    (duration : UInt32) :
    Keeps (settings look) (appendSample (σ := σ) index data duration) := by
  have haside := aside_settings (σ := σ) look
  refine keeps_bind (keeps_onOutput haside _) fun _ => ?_
  refine keeps_bind keeps_get fun muxer => ?_
  refine keeps_ite (keeps_throw_bind _ _) ?_
  refine keeps_bind (keeps_settings_onTrack
    (Track.keeps_setting_append h data duration) index) fun flushed => ?_
  exact keeps_countMedia haside flushed

theorem keeps_settings_finishTracks :
    Keeps (settings look) (finishTracks (σ := σ)) :=
  keeps_finishTracks (aside_settings look)
    (keeps_settings_onTrack (Track.keeps_setting_finish h))

theorem keeps_settings_moveMedia (gap block : Nat) :
    Keeps (settings look) (moveMedia (σ := σ) gap block) := by
  refine keeps_bind keeps_get fun muxer => ?_
  refine keeps_bind (keeps_onOutput (aside_settings look) _) fun _ => ?_
  refine keeps_modify fun muxer => ?_
  show List.map look (List.map _ muxer.tracks) = _
  rw [List.map_map]
  exact List.map_congr_left fun track _ => h.chunks track _

omit [Sink σ] h in
/-- Closing is refused before the file has begun, and once it is closed. -/
theorem keeps_settings_close {f : Muxing σ Unit}
    (hf : Keeps (settings look) f) :
    Keeps (σ := Muxer σ) (settings look)
      (do
        checkFault
        match (← get).phase with
        | .configuring => throw (.unsupported .neverBegun)
        | .finalized => throw (.unsupported .alreadyFinalized)
        | .writing => pure ()
        modify fun muxer => { muxer with phase := .finalized }
        f) := by
  refine keeps_bind (keeps_onOutput (aside_settings look) _) fun _ => ?_
  refine keeps_bind keeps_get fun muxer => ?_
  cases muxer.phase with
  | configuring => exact keeps_throw_bind _ _
  | finalized => exact keeps_throw_bind _ _
  | writing => exact keeps_bind (keeps_modify fun _ => rfl) fun _ => hf

theorem keeps_settings_finalize (optimize : Bool) :
    Keeps (settings look) (finalize (σ := σ) optimize) := by
  have haside := aside_settings (σ := σ) look
  refine keeps_settings_close
    (keeps_bind (keeps_settings_finishTracks h) fun _ => ?_)
  refine keeps_bind (keeps_addGaplessItem haside) fun _ => ?_
  refine keeps_bind (keeps_writeMediaHeader haside) fun _ => ?_
  exact keeps_ite
    (keeps_bind (keeps_prependMovie haside (keeps_settings_moveMedia h))
      fun _ => keeps_onOutput haside _)
    (keeps_bind (keeps_appendMovie haside)
      fun _ => keeps_onOutput haside _)

end Muxer

end AudioMux
