/-
What a reader makes of an ADTS stream.

A whole frame is some bytes that begin with a header and are as long as
the header says. At the front of other bytes it is read as it is
(`next_frame`), and what begins with no whole frame is refused, if there
is anything, for the first thing that is wrong with it (`Refused`,
`next_refused`). So a stream is read to its end exactly if it consists of
whole frames, and these are what is read (`frames_eq`,
`exists_whole_of_frames`).
-/
import AudioMux.Adts.Reader
import AudioMux.Proofs.Adts.Header
import AudioMux.Proofs.Adts.Source
import Mathlib.Algebra.Ring.Nat
import Mathlib.Data.List.Basic

namespace AudioMux.Adts

-- ============================================================ whole frames

/-- A frame, with its header and nothing missing: it has one raw data
block and is no shorter than its header. -/
structure WholeFrame where
  header : Header
  bytes : Bytes
  parsed : Header.parse? (bytes.take Header.fixedLength) = some header
  single : header.rawBlocks = 0
  covers : header.length ≤ header.frameLength
  length_bytes : bytes.length = header.frameLength

theorem Header.fixedLength_le_length (header : Header) :
    fixedLength ≤ header.length := by
  unfold fixedLength length
  split <;> omega

namespace WholeFrame

/-- The raw access unit behind the header and its checksum. -/
def payload (frame : WholeFrame) : Bytes :=
  frame.bytes.drop frame.header.length

/-- The bytes of frames that follow each other. -/
def stream (frames : List WholeFrame) : Bytes :=
  frames.flatMap WholeFrame.bytes

/-- The frames of a stream as a reader has to give them, the first of
them at an offset. -/
def located : Nat → List WholeFrame → List Frame
  | _, [] => []
  | offset, frame :: frames =>
      ⟨frame.header, offset, frame.payload⟩
        :: located (offset + frame.header.frameLength) frames

theorem fixedLength_le_length_bytes (frame : WholeFrame) :
    Header.fixedLength ≤ frame.bytes.length := by
  rw [frame.length_bytes]
  exact Nat.le_trans frame.header.fixedLength_le_length frame.covers

/-- The header of a frame stands in front, whatever follows the frame. -/
theorem take_bytes_append (frame : WholeFrame) (later : Bytes) :
    (frame.bytes ++ later).take Header.fixedLength
      = frame.bytes.take Header.fixedLength :=
  List.take_append_of_le_length frame.fixedLength_le_length_bytes

theorem length_located (offset : Nat) (frames : List WholeFrame) :
    (located offset frames).length = frames.length := by
  induction frames generalizing offset with
  | nil => rfl
  | cons frame frames ih =>
      rw [located, List.length_cons, ih, List.length_cons]

theorem payloads_located (offset : Nat) (frames : List WholeFrame) :
    (located offset frames).map Frame.payload = frames.map payload := by
  induction frames generalizing offset with
  | nil => rfl
  | cons frame frames ih =>
      rw [located, List.map_cons, ih]
      rfl

theorem headers_located (offset : Nat) (frames : List WholeFrame) :
    (located offset frames).map Frame.header = frames.map header := by
  induction frames generalizing offset with
  | nil => rfl
  | cons frame frames ih =>
      rw [located, List.map_cons, ih]
      rfl

/-- What holds of the headers a reader gives holds of those there are. -/
theorem forall_located {p : Header → Prop} {offset : Nat}
    {frames : List WholeFrame} :
    (∀ frame ∈ located offset frames, p frame.header)
      ↔ ∀ frame ∈ frames, p frame.header := by
  rw [← List.forall_mem_map (P := p), headers_located, List.forall_mem_map]

end WholeFrame

/-- Why bytes at a position begin with no whole frame. Each reason stands
behind those before it: there is a header, it can be used, and it asks for
no more bytes than there are. -/
inductive Refused (position : Nat) (input : Bytes) : ReadFailure → Prop
  | noHeader (h : input.length < Header.fixedLength) :
      Refused position input (.truncated position)
  | noSync (h : Header.fixedLength ≤ input.length)
      (hsync : ¬ Synced (input.take Header.fixedLength)) :
      Refused position input (.lostSync position)
  | severalBlocks (header : Header)
      (h : header.SpelledBy (input.take Header.fixedLength))
      (hblocks : header.rawBlocks ≠ 0) :
      Refused position input
        (.unusable position (.rawBlocks (header.rawBlocks + 1)))
  | tooShort (header : Header)
      (h : header.SpelledBy (input.take Header.fixedLength))
      (hblocks : header.rawBlocks = 0)
      (hlength : header.frameLength < header.length) :
      Refused position input
        (.unusable position (.tooShort header.frameLength))
  | cutOff (header : Header)
      (h : header.SpelledBy (input.take Header.fixedLength))
      (hblocks : header.rawBlocks = 0)
      (hlength : header.length ≤ header.frameLength)
      (hcut : input.length < header.frameLength) :
      Refused position input (.truncated position)

/-- The fields of a header have so many bits. -/
theorem Header.bounds_of_parse? {bytes : Bytes} {header : Header}
    (h : parse? bytes = some header) :
    header.profile < 4 ∧ header.samplingIndex < 16
      ∧ header.channelConfig < 8 ∧ header.frameLength < 2 ^ 13 := by
  unfold parse? at h
  split at h
  · next b0 b1 b2 b3 b4 b5 b6 =>
    split at h
    · cases h
      have h2 := b2.toNat_lt
      have h3 := b3.toNat_lt
      have h4 := b4.toNat_lt
      have h5 := b5.toNat_lt
      dsimp only
      omega
    · cases h
  · cases h

namespace Reader

/-- A reader whose source is steady and has these bytes left, of a frame
at an offset. -/
structure Holds (reader : Reader) (offset : Nat) (input : Bytes) :
    Prop where
  steady : reader.source.Steady
  bytes : reader.source.bytes = input
  offset : reader.offset = offset

theorem holds_ofSource {source : Source} (h : source.Steady) :
    (ofSource source).Holds 0 source.bytes := ⟨h, rfl, rfl⟩

variable {reader : Reader} {offset count : Nat} {input : Bytes}

-- =================================================================== steps

theorem take_ok (h : reader.Holds offset input) (count : Nat) :
    ∃ rest, take count reader = .ok (input.take count) rest
      ∧ rest.Holds offset (input.drop count) := by
  obtain ⟨source, hread, hsteady, hleft⟩ :=
    Source.readFull_steady h.steady count
  refine ⟨{ reader with source := source }, ?_, hsteady, ?_, h.offset⟩
  · unfold take
    rw [hread, h.bytes]
  · rw [← h.bytes]
    exact hleft

theorem takeExactly_ok (h : reader.Holds offset input)
    (hcount : count ≤ input.length) (position : Nat) :
    ∃ rest, takeExactly position count reader = .ok (input.take count) rest
      ∧ rest.Holds offset (input.drop count) := by
  obtain ⟨rest, htake, hrest⟩ := take_ok h count
  refine ⟨rest, ?_, hrest⟩
  unfold takeExactly
  rw [Action.apply_bind_ok htake, if_neg]
  · rfl
  · rw [not_not, List.length_take]
    omega

theorem takeExactly_short (h : reader.Holds offset input)
    (hcount : input.length < count) (position : Nat) :
    ∃ rest, takeExactly position count reader
      = .error (.truncated position) rest := by
  obtain ⟨rest, htake, _⟩ := take_ok h count
  refine ⟨rest, ?_⟩
  unfold takeExactly
  rw [Action.apply_bind_ok htake, if_pos]
  · rfl
  · rw [List.length_take]
    omega

/-- The header that stands at the front is good for a frame. -/
theorem checkHeader_eq_ok {bytes : Bytes} {header : Header}
    (h : checkHeader offset bytes = .ok header) :
    bytes.length = Header.fixedLength ∧ Header.parse? bytes = some header
      ∧ header.rawBlocks = 0 ∧ header.length ≤ header.frameLength := by
  unfold checkHeader at h
  split at h
  · cases h
  next hlength =>
  split at h
  · cases h
  next parsed hparsed =>
  split at h
  · cases h
  next hsingle =>
  split at h
  · cases h
  next hcovers =>
  cases h
  exact ⟨not_not.mp hlength, hparsed, not_not.mp hsingle,
    Nat.le_of_not_lt hcovers⟩

/-- Otherwise what stands there is refused. -/
theorem checkHeader_refused {failure : ReadFailure}
    (h : checkHeader offset (input.take Header.fixedLength)
      = .error failure) : Refused offset input failure := by
  unfold checkHeader at h
  split at h
  · next hlength =>
    cases h
    rw [List.length_take] at hlength
    exact .noHeader (by omega)
  next hlength =>
  rw [not_not] at hlength
  split at h
  · next hnone =>
    cases h
    have hsync := (Header.parse?_eq_none_iff hlength).mp hnone
    rw [List.length_take] at hlength
    exact .noSync (by omega) hsync
  next header hheader =>
  have hspelled := Header.parse?_eq_some_iff.mp hheader
  split at h
  · next hblocks =>
    cases h
    exact .severalBlocks header hspelled hblocks
  next hblocks =>
  split at h
  · next hshort =>
    cases h
    exact .tooShort header hspelled (not_not.mp hblocks) hshort
  · cases h

theorem checkHeader_wholeFrame (frame : WholeFrame) (offset : Nat) :
    checkHeader offset (frame.bytes.take Header.fixedLength)
      = .ok frame.header := by
  have hfixed := frame.header.fixedLength_le_length
  have hcovers := frame.covers
  have hlength := frame.length_bytes
  unfold checkHeader
  rw [if_neg, frame.parsed]
  · dsimp only
    rw [if_neg (not_not.mpr frame.single), if_neg (Nat.not_lt.mpr hcovers)]
  · rw [not_not, List.length_take]
    omega

/-- The first bytes decide what is to be done next. -/
theorem next_of_header {bytes : Bytes} {header : Header} {rest : Reader}
    (h : take Header.fixedLength reader = .ok bytes rest)
    (hcheck : checkHeader reader.offset bytes = .ok header) :
    next reader = (do
      let _checksum ← takeExactly reader.offset
        (header.length - Header.fixedLength)
      let payload ← takeExactly reader.offset
        (header.frameLength - header.length)
      modify fun other : Reader =>
        { other with offset := other.offset + header.frameLength }
      pure (some (Frame.mk header reader.offset payload))) rest := by
  obtain ⟨hlength, _⟩ := checkHeader_eq_ok hcheck
  have hsome : bytes.isEmpty = false := by
    rw [List.isEmpty_eq_false_iff, ← List.length_pos_iff, hlength]
    decide
  unfold next
  rw [Action.apply_bind_ok (Action.apply_get reader), Action.apply_bind_ok h,
    if_neg (by rw [hsome]; decide), hcheck]

/-- There may be none of them. -/
theorem next_of_nothing {rest : Reader}
    (h : take Header.fixedLength reader = .ok [] rest) :
    next reader = .ok none rest := by
  unfold next
  rw [Action.apply_bind_ok (Action.apply_get reader), Action.apply_bind_ok h]
  rfl

/-- They may be no header of a frame. -/
theorem next_of_no_header {bytes : Bytes} {failure : ReadFailure}
    {rest : Reader} (h : take Header.fixedLength reader = .ok bytes rest)
    (hbytes : bytes ≠ [])
    (hcheck : checkHeader reader.offset bytes = .error failure) :
    next reader = .error failure rest := by
  unfold next
  rw [Action.apply_bind_ok (Action.apply_get reader), Action.apply_bind_ok h,
    if_neg (by rw [List.isEmpty_iff]; exact hbytes), hcheck]
  rfl

theorem next_end (h : reader.Holds offset []) :
    ∃ rest, next reader = .ok none rest ∧ rest.Holds offset [] := by
  obtain ⟨rest, htake, hrest⟩ := take_ok h Header.fixedLength
  exact ⟨rest, next_of_nothing htake, hrest⟩

/-- A whole frame is read as it is. -/
theorem next_frame {frame : WholeFrame} {later : Bytes}
    (h : reader.Holds offset (frame.bytes ++ later)) :
    ∃ rest, next reader
        = .ok (some ⟨frame.header, offset, frame.payload⟩) rest
      ∧ rest.Holds (offset + frame.header.frameLength) later := by
  have hfixed := frame.header.fixedLength_le_length
  have hcovers := frame.covers
  have hlength := frame.length_bytes
  obtain ⟨first, htake, hfirst⟩ := take_ok h Header.fixedLength
  have hnext := next_of_header htake (by
    rw [frame.take_bytes_append]
    exact checkHeader_wholeFrame frame reader.offset)
  -- What is left is the frame without its fixed header.
  rw [List.drop_append_of_le_length (by omega)] at hfirst
  obtain ⟨second, hsum, hsecond⟩ := takeExactly_ok hfirst
    (show frame.header.length - Header.fixedLength ≤ _ by
      rw [List.length_append, List.length_drop]
      omega) reader.offset
  rw [List.drop_append_of_le_length (by rw [List.length_drop]; omega),
    List.drop_drop, Nat.add_sub_cancel' hfixed] at hsecond
  have hpayload : frame.payload.length
      = frame.header.frameLength - frame.header.length := by
    unfold WholeFrame.payload
    rw [List.length_drop, hlength]
  have hsecond : second.Holds offset (frame.payload ++ later) := hsecond
  obtain ⟨third, hpay, hthird⟩ := takeExactly_ok hsecond
    (show frame.header.frameLength - frame.header.length ≤ _ by
      rw [List.length_append]
      omega) reader.offset
  rw [List.take_left' hpayload] at hpay
  rw [List.drop_left' hpayload] at hthird
  refine ⟨{ third with offset := third.offset + frame.header.frameLength },
    ?_, hthird.steady, hthird.bytes, ?_⟩
  · rw [hnext, Action.apply_bind_ok hsum, Action.apply_bind_ok hpay,
      h.offset]
    rfl
  · exact congrArg (· + frame.header.frameLength) hthird.offset

/-- Bytes that begin with no whole frame are refused. -/
theorem next_refused (h : reader.Holds offset input) (hinput : input ≠ [])
    (hnone : ∀ (frame : WholeFrame) later, input ≠ frame.bytes ++ later) :
    ∃ failure rest, next reader = .error failure rest
      ∧ Refused offset input failure := by
  obtain ⟨first, htake, hfirst⟩ := take_ok h Header.fixedLength
  have hoffset := h.offset
  subst hoffset
  cases hcheck : checkHeader reader.offset
      (input.take Header.fixedLength) with
  | error failure =>
      have hsome : input.take Header.fixedLength ≠ [] := by
        rw [Ne, List.take_eq_nil_iff]
        rintro (hzero | hempty)
        · cases hzero
        · exact hinput hempty
      exact ⟨failure, first, next_of_no_header htake hsome hcheck,
        checkHeader_refused hcheck⟩
  | ok header =>
      obtain ⟨hfixed, hparsed, hsingle, hcovers⟩ := checkHeader_eq_ok hcheck
      have hheader := header.fixedLength_le_length
      rw [List.length_take] at hfixed
      have hshort : input.length < header.frameLength := by
        by_contra henough
        have hlength : (input.take header.frameLength).length
            = header.frameLength := by
          rw [List.length_take]
          omega
        refine hnone ⟨header, input.take header.frameLength, ?_, hsingle,
          hcovers, hlength⟩ (input.drop header.frameLength)
          (List.take_append_drop _ _).symm
        rw [List.take_take, Nat.min_eq_left (by omega)]
        exact hparsed
      have hrefused : Refused reader.offset input
          (.truncated reader.offset) :=
        .cutOff header (Header.parse?_eq_some_iff.mp hparsed) hsingle
          hcovers hshort
      rw [next_of_header htake hcheck]
      by_cases hchecksum : (input.drop Header.fixedLength).length
          < header.length - Header.fixedLength
      · obtain ⟨rest, herror⟩ :=
          takeExactly_short hfirst hchecksum reader.offset
        exact ⟨_, rest, Action.apply_bind_error herror, hrefused⟩
      · obtain ⟨second, hsum, hsecond⟩ := takeExactly_ok hfirst
          (Nat.le_of_not_lt hchecksum) reader.offset
        rw [List.length_drop] at hchecksum
        obtain ⟨rest, herror⟩ := takeExactly_short hsecond
          (show _ < header.frameLength - header.length by
            rw [List.length_drop, List.length_drop]
            omega) reader.offset
        refine ⟨.truncated reader.offset, rest, ?_, hrefused⟩
        rw [Action.apply_bind_ok hsum]
        exact Action.apply_bind_error herror

-- ================================================================= streams

theorem frames_of_end {rest : Reader} (h : next reader = .ok none rest) :
    frames reader = ([], none) := by
  rw [frames]
  split
  · next herror => cases h.symm.trans herror
  · rfl
  · next hok => cases h.symm.trans hok

theorem frames_of_error {failure : ReadFailure} {rest : Reader}
    (h : next reader = .error failure rest) :
    frames reader = ([], some failure) := by
  rw [frames]
  split
  · next herror =>
    cases h.symm.trans herror
    rfl
  · next hok => cases h.symm.trans hok
  · next hok => cases h.symm.trans hok

theorem frames_of_frame {frame : Frame} {rest : Reader}
    (h : next reader = .ok (some frame) rest) :
    frames reader = (frame :: (frames rest).1, (frames rest).2) := by
  rw [frames]
  split
  · next herror => cases h.symm.trans herror
  · next hok => cases h.symm.trans hok
  · next hok =>
    cases h.symm.trans hok
    rfl

/-- Whole frames are all read, and the stream ends well. -/
theorem frames_eq {whole : List WholeFrame}
    (h : reader.Holds offset (WholeFrame.stream whole)) :
    frames reader = (WholeFrame.located offset whole, none) := by
  induction whole generalizing reader offset with
  | nil =>
      obtain ⟨rest, hnext, _⟩ := next_end h
      exact frames_of_end hnext
  | cons frame whole ih =>
      obtain ⟨rest, hnext, hrest⟩ := next_frame
        (show reader.Holds offset (frame.bytes ++ WholeFrame.stream whole)
          from h)
      rw [frames_of_frame hnext, ih hrest]
      rfl

/-- A stream that ends well consists of whole frames. -/
theorem exists_whole_of_frames (h : reader.Holds offset input)
    (hend : (frames reader).2 = none) :
    ∃ whole, input = WholeFrame.stream whole := by
  -- The induction is on the bytes that are left.
  induction hlength : input.length using Nat.strongRecOn
    generalizing reader offset input with
  | ind length ih =>
      subst hlength
      by_cases hempty : input = []
      · exact ⟨[], hempty⟩
      by_cases hfront : ∃ (frame : WholeFrame) (later : Bytes),
          input = frame.bytes ++ later
      · obtain ⟨frame, later, rfl⟩ := hfront
        obtain ⟨rest, hnext, hrest⟩ := next_frame h
        rw [frames_of_frame hnext] at hend
        have hfixed := frame.header.fixedLength_le_length
        have hcovers := frame.covers
        have hlength := frame.length_bytes
        have hpos : 0 < Header.fixedLength := by decide
        obtain ⟨whole, rfl⟩ := ih later.length (by
          rw [List.length_append]
          omega) hrest hend rfl
        exact ⟨frame :: whole, rfl⟩
      · obtain ⟨failure, rest, hnext, _⟩ := next_refused h hempty
          fun frame later heq => hfront ⟨frame, later, heq⟩
        rw [frames_of_error hnext] at hend
        cases hend

end Reader

end AudioMux.Adts
