/-
What is called for an ADTS stream.

A stream is written by calls on a muxer, one for each frame and a few
before and behind them. All of them are allowed (`allAllowed_calls`), and
what they hand in and say about decoding is known from the stream alone
(`record_calls`, `recode_calls`).
-/
import AudioMux.Remux
import AudioMux.Proofs.Muxer.Script

namespace AudioMux.Remux

open Adts (Header)

/-- The calls that say what is in the only track. -/
def trackCalls (first : Header) : List Call :=
  [.setDecoderInfo 0 first.decoderConfig,
    .setChannels 0 (channels first.channelConfig),
    .setFixedDuration 0 Adts.samplesPerFrame, .setVariableBitrate 0 true]

/-- All tags of a file, with the one that names the program. -/
def allTags (settings : Settings) (tags : List Tag) : List Tag :=
  tags ++ if settings.toolTag then [toolTag] else []

/-- The calls that come before writing. -/
def setupCalls (settings : Settings) (tags : List Tag) (first : Header) :
    List Call :=
  trackCalls first ++ (allTags settings tags).map .addTag

/-- The calls for access units. -/
def sampleCalls (payloads : List Bytes) : List Call :=
  payloads.map fun payload => .appendSample 0 payload Adts.samplesPerFrame

/-- All calls for a stream but the one that closes the file. -/
def calls (settings : Settings) (tags : List Tag) (first : Header)
    (payloads : List Bytes) : List Call :=
  setupCalls settings tags first ++ [.beginWriting] ++ sampleCalls payloads
    ++ [.setPriming 0 settings.delay settings.padding]

section
variable (settings : Settings) {tags : List Tag} (first : Header)
  {payloads : List Bytes}

open Call (AllAllowed Begun Ended)

/-- The tag that names the program can be written too. -/
theorem encode_allTags
    (htags : ∀ tag ∈ tags, ∃ stored?, tag.encode = .ok stored?) :
    ∀ tag ∈ allTags settings tags, ∃ stored?, tag.encode = .ok stored? := by
  intro tag htag
  rcases List.mem_append.mp htag with htag | htag
  · exact htags tag htag
  · split at htag
    · obtain rfl := List.mem_singleton.mp htag
      exact ⟨_, rfl⟩
    · cases htag

/-- Setting up a track is allowed as long as the file is not closed. -/
theorem allAllowed_setupCalls
    (htags : ∀ tag ∈ tags, ∃ stored?, tag.encode = .ok stored?) :
    AllAllowed [] (setupCalls settings tags first) := by
  refine Call.allAllowed_of_forall Call.not_ended_nil fun call hcall => ?_
  rcases List.mem_append.mp hcall with hcall | hcall
  · -- The four settings name the first track.
    have hsetting : ∀ before, ¬ Ended before →
        ¬ Ended before ∧ 0 < Call.trackCount before :=
      fun before hended => ⟨hended, Call.zero_lt_trackCount before⟩
    simp only [trackCalls, List.mem_cons, List.not_mem_nil, or_false]
      at hcall
    rcases hcall with rfl | rfl | rfl | rfl
    · exact ⟨nofun, fun before _ => hsetting before⟩
    · exact ⟨nofun, fun before _ => hsetting before⟩
    · exact ⟨nofun, fun before _ => hsetting before⟩
    · exact ⟨nofun, fun before _ => hsetting before⟩
  · obtain ⟨tag, htag, rfl⟩ := List.mem_map.mp hcall
    have hencode := encode_allTags settings htags tag htag
    exact ⟨nofun, fun before _ hended => ⟨hended, hencode⟩⟩

theorem not_begun_setupCalls :
    ¬ Begun (setupCalls settings tags first) := by
  unfold Begun setupCalls trackCalls
  simp

/-- All calls for a stream are allowed. -/
theorem allAllowed_calls
    (htags : ∀ tag ∈ tags, ∃ stored?, tag.encode = .ok stored?)
    (hsmall : ∀ payload ∈ payloads, payload.length < 2 ^ 32) :
    AllAllowed [] (calls settings tags first payloads) := by
  have hsetup := allAllowed_setupCalls settings first htags
  have hopen := Call.not_ended_append Call.not_ended_nil hsetup
  have hbegin : AllAllowed ([] ++ setupCalls settings tags first)
      [.beginWriting] :=
    ⟨not_begun_setupCalls settings first, nofun, trivial⟩
  have hsamples : AllAllowed
      ([] ++ (setupCalls settings tags first ++ [.beginWriting]))
      (sampleCalls payloads) := by
    refine Call.allAllowed_of_forall ?_ ?_
    · exact Call.not_ended_snoc hopen nofun
    · intro call hcall
      obtain ⟨payload, hpayload, rfl⟩ := List.mem_map.mp hcall
      refine ⟨nofun, fun later hprefix hended => ⟨?_, hended,
        Call.zero_lt_trackCount later, hsmall payload hpayload⟩⟩
      exact hprefix.subset
        (List.mem_append_right _ (List.mem_append_right _
          (List.mem_singleton_self _)))
  have hstart := Call.allAllowed_append
    (Call.allAllowed_append hsetup hbegin) hsamples
  refine Call.allAllowed_append hstart ⟨⟨?_, ?_⟩, nofun, trivial⟩
  · exact Call.not_ended_append Call.not_ended_nil hstart
  · exact Call.zero_lt_trackCount _

theorem begun_calls : Begun (calls settings tags first payloads) := by
  unfold Begun calls
  simp

/-- What makes nothing of tags makes of the calls what it makes of the
others. -/
theorem foldl_calls {α : Type} {step : α → Call → α}
    (htag : ∀ state tag, step state (.addTag tag) = state) (start : α) :
    (calls settings tags first payloads).foldl step start
      = step ((sampleCalls payloads).foldl step
          (step ((trackCalls first).foldl step start) .beginWriting))
        (.setPriming 0 settings.delay settings.padding) := by
  have htags : ∀ state, ((allTags settings tags).map Call.addTag).foldl step
      state = state := by
    intro state
    rw [List.foldl_map]
    exact List.foldl_fixed' (htag state) _
  unfold calls setupCalls
  rw [List.foldl_append, List.foldl_append, List.foldl_append,
    List.foldl_append, htags]
  rfl

/-- What the calls for frames hand in. -/
theorem record_sampleCalls (units : List AccessUnit) :
    (sampleCalls payloads).foldl
        (fun intakes call => call.record intakes)
          [⟨some Adts.samplesPerFrame, units⟩]
      = [⟨some Adts.samplesPerFrame,
          units ++ payloads.map (⟨·, Adts.samplesPerFrame⟩)⟩] := by
  induction payloads generalizing units with
  | nil =>
      rw [List.map_nil, List.append_nil]
      rfl
  | cons payload payloads ih =>
      have hrest := ih (units ++ [⟨payload, Adts.samplesPerFrame⟩])
      rw [List.append_assoc] at hrest
      exact hrest

/-- What the calls for a stream hand in. -/
theorem record_calls :
    (calls settings tags first payloads).foldl
        (fun intakes call => call.record intakes) [.empty]
      = [⟨some Adts.samplesPerFrame,
          payloads.map (⟨·, Adts.samplesPerFrame⟩)⟩] :=
  (foldl_calls settings first (fun _ _ => rfl) _).trans
    (record_sampleCalls [])

/-- What the calls for a stream say about decoding it. -/
theorem recode_calls (codec : Codec) (rate : UInt32) :
    (calls settings tags first payloads).foldl
        (fun codings call => call.recode codings) [⟨codec, rate, []⟩]
      = [⟨codec, rate, first.decoderConfig⟩] := by
  refine (foldl_calls settings first (fun _ _ => rfl) _).trans ?_
  unfold sampleCalls
  rw [List.foldl_map]
  exact List.foldl_fixed payloads

end

end AudioMux.Remux
