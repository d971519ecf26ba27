/-
Where a reader says it is in its stream, and where it is.

A call of `next` takes some bytes from the front of what is left of the
stream, even where it fails, be it because of the bytes or of the source
(`Called`, `next_called`). The offset of the reader moves behind a frame
only, so it stays in front of what a failed call took: from there on every
offset is too small by what was lost that way (`offset_add_lost`), and all
of them are true exactly as long as failed calls take nothing
(`offsets_true_iff`).
-/
import AudioMux.Proofs.Adts.Grammar

namespace AudioMux.Adts

open AudioMux.Action (after outcome)

-- ============================================================== any source

namespace Source

/-- However bytes are gathered, they come from the front of what there is.
Without a failure none of them is lost. -/
theorem handedOut_gather {failure? : Option IoFailure}
    {events rest : List ReadEvent} {gathered : Bytes} {count : Nat}
    {result : Except IoFailure Bytes}
    (h : gather failure? gathered count events = (result, rest)) :
    ∃ taken, handedOut events = taken ++ handedOut rest
      ∧ ∀ bytes, result = .ok bytes → bytes = gathered.reverse ++ taken := by
  induction events generalizing gathered count with
  | nil =>
      refine ⟨[], ?_⟩
      cases failure? with
      | none =>
          cases h
          refine ⟨rfl, ?_⟩
          rintro _ ⟨⟩
          exact (List.append_nil _).symm
      | some failure =>
          cases h
          exact ⟨rfl, nofun⟩
  | cons event events ih =>
      cases event with
      | interrupted => exact ih h
      | failed failure =>
          cases h
          exact ⟨[], rfl, nofun⟩
      | data piece =>
          unfold gather at h
          split at h
          · next hempty =>
            cases h
            rw [List.isEmpty_iff.mp hempty]
            refine ⟨[], rfl, ?_⟩
            rintro _ ⟨⟩
            exact (List.append_nil _).symm
          split at h
          · obtain ⟨taken, hsplit, hbytes⟩ := ih h
            refine ⟨piece ++ taken, ?_, ?_⟩
            · rw [List.append_assoc, ← hsplit]
              rfl
            · intro bytes hresult
              rw [hbytes bytes hresult, List.reverse_append,
                List.reverse_reverse, List.append_assoc]
          · cases h
            refine ⟨piece.take count, ?_, ?_⟩
            · rw [handedOut_putBack, ← List.append_assoc,
                List.take_append_drop]
              rfl
            · rintro _ ⟨⟩
              rfl

/-- A read that succeeds gives the bytes it takes. -/
theorem bytes_of_readFull_ok {source rest : Source} {count : Nat}
    {bytes : Bytes} (h : readFull count source = .ok bytes rest) :
    source.bytes = bytes ++ rest.bytes := by
  unfold readFull at h
  split at h
  · cases h
    rfl
  · split at h
    · next hgather =>
      cases h
      obtain ⟨taken, hsplit, hbytes⟩ := handedOut_gather hgather
      rw [hbytes _ rfl]
      exact hsplit
    · cases h

/-- A read that fails takes some as well. -/
theorem bytes_of_readFull_error {source rest : Source} {count : Nat}
    {failure : IoFailure} (h : readFull count source = .error failure rest) :
    ∃ taken, source.bytes = taken ++ rest.bytes := by
  unfold readFull at h
  split at h
  · cases h
  · split at h
    · cases h
    · next hgather =>
      cases h
      obtain ⟨taken, hsplit, _⟩ := handedOut_gather hgather
      exact ⟨taken, hsplit⟩

end Source

/-- Where a failure says that the frame starts, if it does. -/
def ReadFailure.position? : ReadFailure → Option Nat
  | .io _ => none
  | .lostSync offset => some offset
  | .truncated offset => some offset
  | .unusable offset _ => some offset

namespace Reader

-- ================================================================ one call

/-- One reader stands some bytes behind another, and both expect the next
frame at the same place. -/
structure Passed (reader : Reader) (taken : Bytes) (rest : Reader) :
    Prop where
  bytes : reader.source.bytes = taken ++ rest.source.bytes
  offset : rest.offset = reader.offset

theorem Passed.trans {reader between rest : Reader} {first second : Bytes}
    (hfirst : Passed reader first between)
    (hsecond : Passed between second rest) :
    Passed reader (first ++ second) rest := by
  refine ⟨?_, hsecond.offset.trans hfirst.offset⟩
  rw [hfirst.bytes, hsecond.bytes, List.append_assoc]

/-- What a call can come to. It is at the end of what there is, or it reads
a frame, and the offset moves as far as the bytes, or it fails somewhere and
says at most where it began. -/
inductive Called (reader : Reader) :
    EStateM.Result ReadFailure Reader (Option Frame) → Prop
  | ended {rest : Reader} (h : Passed reader [] rest) :
      Called reader (.ok none rest)
  | read (frame : WholeFrame) {rest : Reader}
      (hbytes : reader.source.bytes = frame.bytes ++ rest.source.bytes)
      (hoffset : rest.offset = reader.offset + frame.bytes.length) :
      Called reader
        (.ok (some ⟨frame.header, reader.offset, frame.payload⟩) rest)
  | failed {failure : ReadFailure} {rest : Reader} (taken : Bytes)
      (h : Passed reader taken rest)
      (hposition : ∀ position ∈ failure.position?,
        position = reader.offset) :
      Called reader (.error failure rest)

variable {reader rest : Reader} {count position : Nat} {bytes : Bytes}
  {failure : ReadFailure}

theorem passed_of_take_ok (h : take count reader = .ok bytes rest) :
    Passed reader bytes rest := by
  unfold take at h
  split at h
  · next hread =>
    cases h
    exact ⟨Source.bytes_of_readFull_ok hread, rfl⟩
  · cases h

theorem passed_of_take_error (h : take count reader = .error failure rest) :
    ∃ taken, Passed reader taken rest ∧ failure.position? = none := by
  unfold take at h
  split at h
  · cases h
  · next hread =>
    cases h
    obtain ⟨taken, hbytes⟩ := Source.bytes_of_readFull_error hread
    exact ⟨taken, ⟨hbytes, rfl⟩, rfl⟩

theorem passed_of_takeExactly_ok
    (h : takeExactly position count reader = .ok bytes rest) :
    Passed reader bytes rest ∧ bytes.length = count := by
  unfold takeExactly at h
  obtain ⟨taken, between, htake, hthen⟩ := Action.bind_eq_ok h
  by_cases hcount : taken.length = count
  · rw [if_neg (not_not_intro hcount)] at hthen
    cases hthen
    exact ⟨passed_of_take_ok htake, hcount⟩
  · rw [if_pos hcount] at hthen
    cases hthen

theorem passed_of_takeExactly_error
    (h : takeExactly position count reader = .error failure rest) :
    ∃ taken, Passed reader taken rest
      ∧ ∀ reported ∈ failure.position?, reported = position := by
  unfold takeExactly at h
  cases htake : take count reader with
  | error other between =>
      rw [Action.apply_bind_error htake] at h
      cases h
      obtain ⟨taken, hpassed, hnone⟩ := passed_of_take_error htake
      refine ⟨taken, hpassed, ?_⟩
      rw [hnone]
      nofun
  | ok taken between =>
      rw [Action.apply_bind_ok htake] at h
      by_cases hcount : taken.length = count
      · rw [if_neg (not_not_intro hcount)] at h
        cases h
      · rw [if_pos hcount] at h
        cases h
        refine ⟨taken, passed_of_take_ok htake, ?_⟩
        rintro _ ⟨⟩
        rfl

/-- A header is refused where it starts. -/
theorem position_of_checkHeader_error
    (h : checkHeader position bytes = .error failure) :
    failure.position? = some position := by
  unfold checkHeader at h
  split at h
  · cases h
    rfl
  split at h
  · cases h
    rfl
  split at h
  · cases h
    rfl
  split at h
  · cases h
    rfl
  · cases h

/-- Behind a header that can be used, a call takes as many bytes as the
frame has, or fails for want of them. -/
theorem called_of_header {header : Header} {first : Reader}
    (htake : take Header.fixedLength reader = .ok bytes first)
    (hcheck : checkHeader reader.offset bytes = .ok header) :
    Called reader (next reader) := by
  obtain ⟨hfixed, hparsed, hsingle, hcovers⟩ := checkHeader_eq_ok hcheck
  have hfirst := passed_of_take_ok htake
  rw [next_of_header htake hcheck]
  cases hsum : takeExactly reader.offset
      (header.length - Header.fixedLength) first with
  | error failure rest =>
      obtain ⟨taken, hpassed, hposition⟩ := passed_of_takeExactly_error hsum
      rw [Action.apply_bind_error hsum]
      exact .failed _ (hfirst.trans hpassed) hposition
  | ok checksum second =>
      obtain ⟨hsecond, hchecksum⟩ := passed_of_takeExactly_ok hsum
      have hsecond := hfirst.trans hsecond
      rw [Action.apply_bind_ok hsum]
      cases hpay : takeExactly reader.offset
          (header.frameLength - header.length) second with
      | error failure rest =>
          obtain ⟨taken, hpassed, hposition⟩ :=
            passed_of_takeExactly_error hpay
          rw [Action.apply_bind_error hpay]
          exact .failed _ (hsecond.trans hpassed) hposition
      | ok payload third =>
          obtain ⟨hthird, hpayload⟩ := passed_of_takeExactly_ok hpay
          have hthird := hsecond.trans hthird
          have hheader := header.fixedLength_le_length
          have hfront : (bytes ++ checksum).length = header.length := by
            rw [List.length_append]
            omega
          have hlength : (bytes ++ checksum ++ payload).length
              = header.frameLength := by
            rw [List.length_append]
            omega
          -- The three parts are the whole frame.
          let frame : WholeFrame :=
            { header := header
              bytes := bytes ++ checksum ++ payload
              parsed := by
                rw [List.append_assoc, List.take_left' hfixed]
                exact hparsed
              single := hsingle
              covers := hcovers
              length_bytes := hlength }
          have hframe : frame.payload = payload := List.drop_left' hfront
          have hcalled : Called reader
              (.ok (some ⟨frame.header, reader.offset, frame.payload⟩)
                { third with
                  offset := third.offset + header.frameLength }) := by
            refine .read frame hthird.bytes ?_
            rw [frame.length_bytes, ← hthird.offset]
          rw [hframe] at hcalled
          rw [Action.apply_bind_ok hpay]
          exact hcalled

/-- Whatever the source does, a call comes to one of these. -/
theorem next_called (reader : Reader) : Called reader (next reader) := by
  cases htake : take Header.fixedLength reader with
  | error failure rest =>
      obtain ⟨taken, hpassed, hnone⟩ := passed_of_take_error htake
      have hnext : next reader = .error failure rest := by
        unfold next
        rw [Action.apply_bind_ok (Action.apply_get reader)]
        exact Action.apply_bind_error htake
      rw [hnext]
      refine .failed taken hpassed ?_
      rw [hnone]
      nofun
  | ok bytes first =>
      have hfirst := passed_of_take_ok htake
      by_cases hempty : bytes = []
      · subst hempty
        rw [next_of_nothing htake]
        exact .ended hfirst
      cases hcheck : checkHeader reader.offset bytes with
      | error failure =>
          rw [next_of_no_header htake hempty hcheck]
          refine .failed bytes hfirst ?_
          rw [position_of_checkHeader_error hcheck]
          rintro _ ⟨⟩
          rfl
      | ok header => exact called_of_header htake hcheck

/-- What a call takes stood in front. -/
theorem Called.exists_taken
    {result : EStateM.Result ReadFailure Reader (Option Frame)}
    (h : Called reader result) :
    ∃ taken, reader.source.bytes = taken ++ (after result).source.bytes := by
  cases h with
  | ended h => exact ⟨[], h.bytes⟩
  | read frame hbytes _ => exact ⟨frame.bytes, hbytes⟩
  | failed taken h _ => exact ⟨taken, h.bytes⟩

-- =================================================================== calls

/-- How many bytes a source gave for so many calls. -/
def consumed (source : Source) (count : Nat) : Nat :=
  source.bytes.length - (reached source count).source.bytes.length

/-- How many of them went to calls that failed. -/
def lost (source : Source) : Nat → Nat
  | 0 => 0
  | count + 1 =>
      match answer source count with
      | .ok _ => lost source count
      | .error _ =>
          lost source count
            + (consumed source (count + 1) - consumed source count)

/-- The bytes that the calls took were the first ones. -/
theorem exists_consumed (source : Source) (count : Nat) :
    ∃ taken, source.bytes = taken ++ (reached source count).source.bytes
      ∧ taken.length = consumed source count := by
  have htaken : ∃ taken,
      source.bytes = taken ++ (reached source count).source.bytes := by
    induction count with
    | zero => exact ⟨[], rfl⟩
    | succ count ih =>
        obtain ⟨earlier, hearlier⟩ := ih
        obtain ⟨taken, htaken⟩ :=
          (next_called (reached source count)).exists_taken
        refine ⟨earlier ++ taken, ?_⟩
        rw [hearlier, htaken, List.append_assoc]
        rfl
  obtain ⟨taken, hbytes⟩ := htaken
  refine ⟨taken, hbytes, ?_⟩
  unfold consumed
  rw [hbytes, List.length_append, Nat.add_sub_cancel]

theorem bytes_reached (source : Source) (count : Nat) :
    (reached source count).source.bytes
      = source.bytes.drop (consumed source count) := by
  obtain ⟨taken, hbytes, hlength⟩ := exists_consumed source count
  rw [← hlength, hbytes, List.drop_left]

variable {source : Source}

/-- Another call takes what it takes. -/
theorem consumed_succ {taken : Bytes}
    (h : (reached source count).source.bytes
      = taken ++ (reached source (count + 1)).source.bytes) :
    consumed source (count + 1) = consumed source count + taken.length := by
  obtain ⟨earlier, hbytes, _⟩ := exists_consumed source count
  have hleft := congrArg List.length h
  have hall := congrArg List.length hbytes
  rw [List.length_append] at hleft hall
  unfold consumed
  omega

theorem consumed_le_succ (source : Source) (count : Nat) :
    consumed source count ≤ consumed source (count + 1) := by
  obtain ⟨taken, htaken⟩ := (next_called (reached source count)).exists_taken
  rw [consumed_succ htaken]
  exact Nat.le_add_right _ _

theorem lost_of_ok {frame? : Option Frame}
    (h : answer source count = .ok frame?) :
    lost source (count + 1) = lost source count := by
  rw [lost, h]

theorem lost_of_error (h : answer source count = .error failure) :
    lost source (count + 1) = lost source count
      + (consumed source (count + 1) - consumed source count) := by
  rw [lost, h]

theorem lost_le_succ (source : Source) (count : Nat) :
    lost source count ≤ lost source (count + 1) := by
  cases hanswer : answer source count with
  | ok frame? => rw [lost_of_ok hanswer]
  | error failure =>
      rw [lost_of_error hanswer]
      exact Nat.le_add_right _ _

/-- The offset moves as far as the bytes do, but for those that are lost. -/
theorem offset_add_lost (source : Source) (count : Nat) :
    (reached source count).offset + lost source count
      = consumed source count := by
  induction count with
  | zero =>
      unfold consumed
      exact (Nat.sub_self _).symm
  | succ count ih =>
      have hcalled := next_called (reached source count)
      cases hnext : next (reached source count) with
      | ok frame? rest =>
          have hanswer : answer source count = .ok frame? :=
            congrArg outcome hnext
          have hreached : reached source (count + 1) = rest :=
            congrArg after hnext
          subst hreached
          rw [hnext] at hcalled
          rw [lost_of_ok hanswer]
          cases hcalled with
          | ended h =>
              rw [consumed_succ h.bytes, h.offset, ih]
              rfl
          | read frame hbytes hoffset =>
              rw [consumed_succ hbytes, hoffset, ← ih]
              omega
      | error failure rest =>
          have hanswer : answer source count = .error failure :=
            congrArg outcome hnext
          have hreached : reached source (count + 1) = rest :=
            congrArg after hnext
          subst hreached
          rw [hnext] at hcalled
          rw [lost_of_error hanswer]
          cases hcalled with
          | failed taken h _ =>
              rw [consumed_succ h.bytes, h.offset, ← ih]
              omega

/-- Nothing is lost as long as no failed call takes anything. -/
theorem lost_eq_zero_iff (source : Source) (count : Nat) :
    lost source count = 0
      ↔ ∀ earlier < count, ∀ failure,
          answer source earlier = .error failure →
            consumed source (earlier + 1) ≤ consumed source earlier := by
  induction count with
  | zero =>
      exact ⟨fun _ _ hearlier => absurd hearlier (Nat.not_lt_zero _),
        fun _ => rfl⟩
  | succ count ih =>
      constructor
      · intro hzero earlier hearlier failure hanswer
        by_cases hlast : earlier = count
        · subst hlast
          rw [lost_of_error hanswer] at hzero
          omega
        · have hkept : lost source count = 0 := by
            have hle := lost_le_succ source count
            omega
          exact ih.mp hkept earlier (by omega) failure hanswer
      · intro hall
        have hzero := ih.mpr fun earlier hearlier =>
          hall earlier (Nat.lt_succ_of_lt hearlier)
        cases hanswer : answer source count with
        | ok frame? => rw [lost_of_ok hanswer, hzero]
        | error failure =>
            have hnone := hall count (Nat.lt_succ_self count) failure hanswer
            rw [lost_of_error hanswer, hzero]
            omega

-- ================================================================= results

/-- Whatever the source does, failing reads included, and however the calls
before have ended: they took the first bytes of the stream, and the offset
of the reader is smaller than their number by what was lost to failed
calls. A frame is given with this offset, and its bytes are the next ones
of the stream. A failure reports this offset or none. So what offsets say
is true exactly as long as failed calls take nothing. -/
theorem offsets_true_iff (source : Source) (count : Nat) :
    (reached source count).source.bytes
        = source.bytes.drop (consumed source count)
      ∧ (reached source count).offset + lost source count
        = consumed source count
      ∧ (∀ frame, answer source count = .ok (some frame) →
          frame.offset = (reached source count).offset
            ∧ ∃ whole : WholeFrame,
                frame.header = whole.header
                  ∧ frame.payload = whole.payload
                  ∧ whole.bytes
                    <+: source.bytes.drop (consumed source count))
      ∧ (∀ failure, answer source count = .error failure →
          ∀ position ∈ failure.position?,
            position = (reached source count).offset)
      ∧ ((reached source count).offset = consumed source count
          ↔ ∀ earlier < count, ∀ failure,
              answer source earlier = .error failure →
                consumed source (earlier + 1)
                  = consumed source earlier) := by
  have hoffset := offset_add_lost source count
  have hcalled := next_called (reached source count)
  refine ⟨bytes_reached source count, hoffset, ?_, ?_, ?_⟩
  · intro frame hanswer
    cases hnext : next (reached source count) with
    | error failure rest => cases (congrArg outcome hnext).symm.trans hanswer
    | ok frame? rest =>
        cases (congrArg outcome hnext).symm.trans hanswer
        rw [hnext] at hcalled
        cases hcalled with
        | read whole hbytes _ =>
            refine ⟨rfl, whole, rfl, rfl, ?_⟩
            rw [← bytes_reached, hbytes]
            exact List.prefix_append _ _
  · intro failure hanswer
    cases hnext : next (reached source count) with
    | ok frame? rest => cases (congrArg outcome hnext).symm.trans hanswer
    | error other rest =>
        cases (congrArg outcome hnext).symm.trans hanswer
        rw [hnext] at hcalled
        cases hcalled with
        | failed _ _ hposition => exact hposition
  · have hlost := lost_eq_zero_iff source count
    constructor
    · intro htrue earlier hearlier failure hanswer
      have hkept := hlost.mp (by omega) earlier hearlier failure hanswer
      have hmono := consumed_le_succ source earlier
      omega
    · intro hall
      have hzero := hlost.mpr fun earlier hearlier failure hanswer =>
        Nat.le_of_eq (hall earlier hearlier failure hanswer)
      omega

/-- Seven bytes that are no header, and then a frame. -/
def straySource : Source :=
  .ofBytes ([0, 0, 0, 0, 0, 0, 0]
    ++ [0xff, 0xf1, 0x50, 0x80, 0x01, 0x1f, 0xfc, 0x05])

/-- The call that refuses the seven bytes takes them, and the offset stays
at 0. The frame behind them is said to start there as well. -/
theorem offset_stays_behind :
    answer straySource 0 = .error (.lostSync 0)
      ∧ (reached straySource 1).offset = 0
      ∧ consumed straySource 1 = 7
      ∧ answer straySource 1
        = .ok (some ⟨⟨1, 4, 2, true, 8, 0⟩, 0, [0x05]⟩)
      ∧ (reached straySource 2).offset = 8
      ∧ consumed straySource 2 = 15 :=
  ⟨rfl, rfl, rfl, rfl, rfl, rfl⟩

end Reader

end AudioMux.Adts
