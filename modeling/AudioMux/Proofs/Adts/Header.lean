/-
The fields of a header, bit by bit.

The 7 bytes of a header are 56 bits in a row, of which each field has its
own (`Header.SpelledBy`); two fields lie across several bytes. Taking the
bytes apart one at a time finds the same fields (`parse?_eq_some_iff`), and
nothing is found only if the first 12 bits are not all set
(`parse?_eq_none_iff`).
-/
import AudioMux.Adts.Header
import Mathlib.Algebra.Ring.Nat

namespace AudioMux.Adts

/-- The number in `width` of the 56 bits of a header, behind the first
`skipped`. -/
def headerBits (bytes : Bytes) (skipped width : Nat) : Nat :=
  Bytes.toNat bytes / 2 ^ (56 - skipped - width) % 2 ^ width

/-- Whether seven bytes start with the 12 bits by which a frame is
found. -/
def Synced (bytes : Bytes) : Prop := headerBits bytes 0 12 = 0xfff

namespace Header

/-- The bytes of a header say what its fields are. Behind the sync word
stand 3 bits that do not matter, and there are others further on. -/
structure SpelledBy (header : Header) (bytes : Bytes) : Prop where
  length : bytes.length = fixedLength
  synced : Synced bytes
  protectionAbsent :
    header.protectionAbsent = decide (headerBits bytes 15 1 = 1)
  profile : header.profile = headerBits bytes 16 2
  samplingIndex : header.samplingIndex = headerBits bytes 18 4
  channelConfig : header.channelConfig = headerBits bytes 23 3
  frameLength : header.frameLength = headerBits bytes 30 13
  rawBlocks : header.rawBlocks = headerBits bytes 54 2

/-- Seven bytes, one by one. -/
theorem exists_seven {bytes : Bytes} (h : bytes.length = fixedLength) :
    ∃ b0 b1 b2 b3 b4 b5 b6, bytes = [b0, b1, b2, b3, b4, b5, b6] := by
  match bytes, h with
  | [b0, b1, b2, b3, b4, b5, b6], _ =>
    exact ⟨b0, b1, b2, b3, b4, b5, b6, rfl⟩

theorem length_of_parse? {bytes : Bytes} {header : Header}
    (h : parse? bytes = some header) : bytes.length = fixedLength := by
  unfold parse? at h
  split at h
  · rfl
  · cases h

variable {b0 b1 b2 b3 b4 b5 b6 : UInt8}

/-- The number that seven bytes spell. -/
theorem toNat_seven :
    Bytes.toNat [b0, b1, b2, b3, b4, b5, b6]
      = b0.toNat * 2 ^ 48 + b1.toNat * 2 ^ 40 + b2.toNat * 2 ^ 32
        + b3.toNat * 2 ^ 24 + b4.toNat * 2 ^ 16 + b5.toNat * 2 ^ 8
        + b6.toNat := by
  simp only [Bytes.toNat, List.foldl_cons, List.foldl_nil]
  omega

/-- The sync word fills the first byte and half of the second. -/
theorem synced_seven_iff :
    Synced [b0, b1, b2, b3, b4, b5, b6]
      ↔ b0.toNat = 0xff ∧ b1.toNat / 16 = 0xf := by
  have h0 := b0.toNat_lt
  have h1 := b1.toNat_lt
  have h2 := b2.toNat_lt
  have h3 := b3.toNat_lt
  have h4 := b4.toNat_lt
  have h5 := b5.toNat_lt
  have h6 := b6.toNat_lt
  unfold Synced headerBits
  rw [toNat_seven]
  omega

/-- The fields lie in the bytes as they are taken out of them. -/
theorem fields_seven (b0 b1 b2 b3 b4 b5 b6 : UInt8) :
    headerBits [b0, b1, b2, b3, b4, b5, b6] 15 1 = b1.toNat % 2
      ∧ headerBits [b0, b1, b2, b3, b4, b5, b6] 16 2 = b2.toNat / 64
      ∧ headerBits [b0, b1, b2, b3, b4, b5, b6] 18 4 = b2.toNat / 4 % 16
      ∧ headerBits [b0, b1, b2, b3, b4, b5, b6] 23 3
        = b2.toNat % 2 * 4 + b3.toNat / 64
      ∧ headerBits [b0, b1, b2, b3, b4, b5, b6] 30 13
        = b3.toNat % 4 * 2048 + b4.toNat * 8 + b5.toNat / 32
      ∧ headerBits [b0, b1, b2, b3, b4, b5, b6] 54 2 = b6.toNat % 4 := by
  have h1 := b1.toNat_lt
  have h2 := b2.toNat_lt
  have h3 := b3.toNat_lt
  have h4 := b4.toNat_lt
  have h5 := b5.toNat_lt
  have h6 := b6.toNat_lt
  unfold headerBits
  rw [toNat_seven]
  refine ⟨?_, ?_, ?_, ?_, ?_, ?_⟩
  all_goals omega

/-- Seven bytes that are synchronized are taken for a header, and no
others are. -/
theorem parse?_seven :
    parse? [b0, b1, b2, b3, b4, b5, b6]
      = if b0.toNat = 0xff ∧ b1.toNat / 16 = 0xf then
          some {
            profile := b2.toNat / 64
            samplingIndex := b2.toNat / 4 % 16
            channelConfig := b2.toNat % 2 * 4 + b3.toNat / 64
            protectionAbsent := b1.toNat % 2 = 1
            frameLength :=
              b3.toNat % 4 * 2048 + b4.toNat * 8 + b5.toNat / 32
            rawBlocks := b6.toNat % 4 }
        else none := rfl

-- ================================================================= results

/-- Seven bytes are taken for a header exactly if they spell it. -/
theorem parse?_eq_some_iff {bytes : Bytes} {header : Header} :
    parse? bytes = some header ↔ header.SpelledBy bytes := by
  constructor
  · intro hparse
    obtain ⟨b0, b1, b2, b3, b4, b5, b6, rfl⟩ :=
      exists_seven (length_of_parse? hparse)
    obtain ⟨habsent, hprofile, hindex, hchannels, hframe, hblocks⟩ :=
      fields_seven b0 b1 b2 b3 b4 b5 b6
    rw [parse?_seven, Option.ite_none_right_eq_some] at hparse
    obtain ⟨hsync, hheader⟩ := hparse
    cases hheader
    refine ⟨rfl, synced_seven_iff.mpr hsync, ?_, hprofile.symm,
      hindex.symm, hchannels.symm, hframe.symm, hblocks.symm⟩
    rw [habsent]
  · rintro ⟨hlength, hsynced, habsent, hprofile, hindex, hchannels, hframe,
      hblocks⟩
    obtain ⟨b0, b1, b2, b3, b4, b5, b6, rfl⟩ := exists_seven hlength
    obtain ⟨habsent', hprofile', hindex', hchannels', hframe', hblocks'⟩ :=
      fields_seven b0 b1 b2 b3 b4 b5 b6
    rw [parse?_seven, if_pos (synced_seven_iff.mp hsynced), ← habsent',
      ← hprofile', ← hindex', ← hchannels', ← hframe', ← hblocks',
      ← habsent, ← hprofile, ← hindex, ← hchannels, ← hframe, ← hblocks]

/-- Seven bytes are taken for no header exactly if they are not
synchronized. -/
theorem parse?_eq_none_iff {bytes : Bytes}
    (hlength : bytes.length = fixedLength) :
    parse? bytes = none ↔ ¬ Synced bytes := by
  obtain ⟨b0, b1, b2, b3, b4, b5, b6, rfl⟩ := exists_seven hlength
  rw [synced_seven_iff, parse?_seven]
  simp

end Header

end AudioMux.Adts
