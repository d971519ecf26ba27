/-
Streams that one track can hold, and what their decoder is told.

A stream is playable if it consists of whole frames that one decoder can
take, at a sampling frequency that has an index. The two bytes that are
made of its first header say to a decoder what the header says
(`decode?_decoderConfig`).
-/
import AudioMux.Proofs.Adts.Frames

namespace AudioMux.Adts

-- ================================================================= streams

/-- Two headers of frames for one decoder. -/
def Header.Agrees (header first : Header) : Prop :=
  header.profile = first.profile
    ∧ header.samplingIndex = first.samplingIndex
    ∧ header.channelConfig = first.channelConfig

/-- Bytes that consist of whole frames for one decoder, at a sampling
frequency that has an index. -/
structure Playable (input : Bytes) (first : WholeFrame)
    (rest : List WholeFrame) : Prop where
  bytes : input = WholeFrame.stream (first :: rest)
  agree : ∀ frame ∈ rest, frame.header.Agrees first.header
  known : first.header.samplingIndex < 13

theorem Header.agrees_iff (header first : Header) :
    header.sameStream first = true ↔ header.Agrees first := by
  unfold sameStream Agrees
  rw [Bool.and_eq_true, Bool.and_eq_true, beq_iff_eq, beq_iff_eq,
    beq_iff_eq, and_assoc]

theorem Playable.sameStream {input : Bytes} {first : WholeFrame}
    {rest : List WholeFrame} (h : Playable input first rest) :
    ∀ frame ∈ WholeFrame.located 0 (first :: rest),
      frame.header.sameStream first.header = true := by
  refine (WholeFrame.forall_located
    (p := fun header => header.sameStream first.header = true)).mpr
      fun frame hframe => ?_
  rw [Header.agrees_iff]
  rcases List.mem_cons.mp hframe with rfl | hmem
  · exact ⟨rfl, rfl, rfl⟩
  · exact h.agree frame hmem

/-- Access units of a stream have less than 2 ^ 13 bytes. -/
theorem WholeFrame.length_payload_lt (frame : WholeFrame) :
    frame.payload.length < 2 ^ 13 := by
  obtain ⟨_, _, _, hlength⟩ := Header.bounds_of_parse? frame.parsed
  have hbytes := frame.length_bytes
  unfold payload
  rw [List.length_drop]
  omega

-- ================================================================ decoders

/-- What the configuration of a decoder says. -/
structure DecoderSetup where
  objectType : Nat
  samplingIndex : Nat
  channelConfig : Nat
  deriving DecidableEq, Repr

/-- Reads the configuration of a decoder: 5 bits of object type, 4 bits of
sampling index and 4 bits of channels, and 3 bits that do not matter here.
The largest type and index stand for ones that are written further
behind. -/
def DecoderSetup.decode? : Bytes → Option DecoderSetup
  | [high, low] =>
    let bits := high.toNat * 256 + low.toNat
    let objectType := bits / 2048
    let samplingIndex := bits / 128 % 16
    if objectType = 31 ∨ samplingIndex = 15 then none
    else some ⟨objectType, samplingIndex, bits / 8 % 16⟩
  | _ => none

/-- A decoder finds what the header says. -/
theorem DecoderSetup.decode?_decoderConfig (frame : WholeFrame)
    (hknown : frame.header.samplingIndex < 13) :
    decode? frame.header.decoderConfig
      = some ⟨frame.header.profile + 1, frame.header.samplingIndex,
          frame.header.channelConfig⟩ := by
  obtain ⟨hprofile, _, hchannels, _⟩ := Header.bounds_of_parse? frame.parsed
  generalize frame.header = header at *
  unfold decode? Header.decoderConfig
  dsimp only
  rw [UInt8.toNat_ofNat_of_lt' (by
      show _ < 256
      omega),
    UInt8.toNat_ofNat_of_lt' (by
      show _ < 256
      omega)]
  rw [if_neg (by omega)]
  refine congrArg some ?_
  rw [DecoderSetup.mk.injEq]
  omega

/-- Every index below 13 stands for a frequency. -/
theorem Header.exists_rate {header : Header} (h : header.samplingIndex < 13) :
    ∃ rate, sampleRates[header.samplingIndex]? = some rate ∧ rate ≠ 0 := by
  have hrate : sampleRates[header.samplingIndex]?
      = some sampleRates[header.samplingIndex] :=
    List.getElem?_eq_getElem h
  refine ⟨_, hrate, ?_⟩
  have hmem := List.mem_of_getElem? hrate
  have hnonzero : ∀ rate ∈ sampleRates, rate ≠ 0 := by
    simp [sampleRates]
  exact hnonzero _ hmem

end AudioMux.Adts
