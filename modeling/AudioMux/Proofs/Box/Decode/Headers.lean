/-
Reading the headers of a movie back: times, durations, languages, handlers
and data references.

A header takes the width of its times from its version. What a value has
to be like for nothing of it to be lost is said next to its reader, as
`Lossless`: flags of which 24 bits are written, letters that fit into
five bits, texts that end where a zero byte stands.
-/
import AudioMux.Proofs.Box.Decode.Reader

namespace AudioMux.Box

open Reader

-- =================================================================== times

/-- The width of the times in a box of this version. -/
def VersionFlags.width (full : VersionFlags) : Nat :=
  if full.version = 1 then 8 else 4

theorem width_widthVersion (values : List UInt64) (flags : UInt32) :
    VersionFlags.width ⟨widthVersion (fieldWidth values), flags⟩
      = fieldWidth values := by
  unfold fieldWidth
  split <;> rfl

/-- Each of the times fits the width that is chosen for all of them. -/
theorem takes_times {values : List UInt64} {value : UInt64}
    (h : value ∈ values) :
    Takes (time (fieldWidth values))
      (Bytes.bigEndian (fieldWidth values) value.toNat) value :=
  takes_time (toNat_lt_fieldWidth h)

-- ================================================================== movie

def Matrix.reader : Reader Matrix := do
  let a ← int32
  let b ← int32
  let u ← int32
  let c ← int32
  let d ← int32
  let v ← int32
  let x ← int32
  let y ← int32
  let w ← int32
  pure ⟨a, b, u, c, d, v, x, y, w⟩

theorem takes_matrix (m : Matrix) : Takes Matrix.reader m.encode m := by
  simp only [Matrix.encode, Matrix.cells, List.flatMap_cons,
    List.flatMap_nil, List.append_nil]
  refine (takes_int32 m.a).bind ?_
  refine (takes_int32 m.b).bind ?_
  refine (takes_int32 m.u).bind ?_
  refine (takes_int32 m.c).bind ?_
  refine (takes_int32 m.d).bind ?_
  refine (takes_int32 m.v).bind ?_
  refine (takes_int32 m.x).bind ?_
  refine (takes_int32 m.y).bind ?_
  exact (takes_int32 m.w).map

def MovieHeader.reader : Reader MovieHeader := do
  let full ← versionFlags
  let creationTime ← time full.width
  let modificationTime ← time full.width
  let timescale ← word32
  let duration ← time full.width
  let rate ← int32
  let volume ← int16
  skip 2
  skip 8
  let matrix ← Matrix.reader
  skip 24
  let nextTrackId ← word32
  pure ⟨creationTime, modificationTime, timescale, duration, rate, volume,
    matrix, nextTrackId⟩

theorem reads_movieHeader (box : MovieHeader) :
    Reads MovieHeader.reader (content box) box := by
  simp only [content, Format.full?, Format.body, Option.elim,
    List.append_assoc, MovieHeader.width]
  refine ((takes_versionFlags (by decide)).bind ?_).reads
  rw [width_widthVersion]
  refine (takes_times (by simp)).bind ?_
  refine (takes_times (by simp)).bind ?_
  refine (takes_word32 _).bind ?_
  refine (takes_times (by simp)).bind ?_
  refine (takes_int32 _).bind ?_
  refine (takes_int16 _).bind ?_
  refine (takes_zeros 2).bind ?_
  refine (takes_zeros 8).bind ?_
  refine (takes_matrix _).bind ?_
  refine (takes_zeros 24).bind ?_
  exact (takes_word32 _).map

def TrackHeader.reader : Reader TrackHeader := do
  let full ← versionFlags
  let creationTime ← time full.width
  let modificationTime ← time full.width
  let trackId ← word32
  skip 4
  let duration ← time full.width
  skip 8
  skip 4
  let volume ← int16
  skip 2
  let matrix ← Matrix.reader
  skip 8
  pure ⟨full.flags, creationTime, modificationTime, trackId, duration,
    volume, matrix⟩

def TrackHeader.Lossless (box : TrackHeader) : Prop :=
  box.flags.toNat < 2 ^ 24

instance TrackHeader.decidableLossless (box : TrackHeader) :
    Decidable box.Lossless :=
  inferInstanceAs (Decidable (_ < _))

theorem reads_trackHeader {box : TrackHeader} (h : box.Lossless) :
    Reads TrackHeader.reader (content box) box := by
  simp only [content, Format.full?, Format.body, Option.elim,
    List.append_assoc, TrackHeader.width]
  refine ((takes_versionFlags h).bind ?_).reads
  rw [width_widthVersion]
  refine (takes_times (by simp)).bind ?_
  refine (takes_times (by simp)).bind ?_
  refine (takes_word32 _).bind ?_
  refine (takes_zeros 4).bind ?_
  refine (takes_times (by simp)).bind ?_
  refine (takes_zeros 8).bind ?_
  refine (takes_zeros 4).bind ?_
  refine (takes_int16 _).bind ?_
  refine (takes_zeros 2).bind ?_
  refine (takes_matrix _).bind ?_
  exact (takes_zeros 8).map

-- ================================================================== media

/-- Three letters of five bits each. -/
def Language.reader : Reader Language := do
  let packed ← number 2
  pure ⟨UInt8.ofNat (packed / 1024 % 32 + 0x60),
    UInt8.ofNat (packed / 32 % 32 + 0x60),
    UInt8.ofNat (packed % 32 + 0x60)⟩

/-- All letters are lower-case ones. -/
def Language.Lossless (language : Language) : Prop :=
  ∀ letter ∈ [language.first, language.second, language.third],
    0x61 ≤ letter ∧ letter ≤ 0x7a

instance Language.decidableLossless (language : Language) :
    Decidable language.Lossless :=
  inferInstanceAs (Decidable (∀ letter ∈ _, _))

def MediaHeader.reader : Reader MediaHeader := do
  let full ← versionFlags
  let creationTime ← time full.width
  let modificationTime ← time full.width
  let timescale ← word32
  let duration ← time full.width
  let language ← Language.reader
  skip 2
  pure ⟨creationTime, modificationTime, timescale, duration, language⟩

def MediaHeader.Lossless (box : MediaHeader) : Prop :=
  box.language.Lossless

instance MediaHeader.decidableLossless (box : MediaHeader) :
    Decidable box.Lossless :=
  inferInstanceAs (Decidable box.language.Lossless)

/-- Three letters of five bits each lie side by side. -/
theorem packed_language {first second third : UInt8}
    (hfirst : first.toNat < 32) (hsecond : second.toNat < 32)
    (hthird : third.toNat < 32) :
    [first <<< 2 ||| second >>> 3, second <<< 5 ||| third]
      = Bytes.bigEndian 2
          (first.toNat * 1024 + second.toNat * 32 + third.toNat) := by
  have hhigh : (first <<< 2 ||| second >>> 3).toNat
      = 4 * first.toNat + second.toNat / 8 := by
    have hshift : (first <<< 2).toNat = 2 ^ 2 * first.toNat := by
      rw [UInt8.toNat_shiftLeft, Nat.shiftLeft_eq]
      simp
      omega
    have hrest : (second >>> 3).toNat = second.toNat / 8 := by
      rw [UInt8.toNat_shiftRight, Nat.shiftRight_eq_div_pow]
      rfl
    rw [UInt8.toNat_or, hshift, hrest,
      ← Nat.two_pow_add_eq_or_of_lt (by omega)]
  have hlow : (second <<< 5 ||| third).toNat
      = 32 * (second.toNat % 8) + third.toNat := by
    have hshift : (second <<< 5).toNat = 2 ^ 5 * (second.toNat % 8) := by
      rw [UInt8.toNat_shiftLeft, Nat.shiftLeft_eq]
      simp
      omega
    rw [UInt8.toNat_or, hshift,
      ← Nat.two_pow_add_eq_or_of_lt (by omega)]
  simp only [Bytes.bigEndian, List.nil_append, List.singleton_append,
    List.cons.injEq, and_true, ← UInt8.toNat_inj, hhigh, hlow,
    UInt8.toNat_ofNat']
  omega

theorem takes_language {language : Language} (h : language.Lossless) :
    Takes Language.reader language.encode language := by
  obtain ⟨first, second, third⟩ := language
  have hletter : ∀ letter ∈ [first, second, third],
      (letter - 0x60).toNat = letter.toNat - 0x60
        ∧ 0x61 ≤ letter.toNat ∧ letter.toNat ≤ 0x7a := by
    intro letter hletter
    obtain ⟨hlo, hhi⟩ := h letter hletter
    have hlo' : 0x61 ≤ letter.toNat := hlo
    have hhi' : letter.toNat ≤ 0x7a := hhi
    refine ⟨?_, hlo', hhi'⟩
    rw [UInt8.toNat_sub_of_le]
    · rfl
    · show 0x60 ≤ letter.toNat
      omega
  obtain ⟨hfirst, _, _⟩ := hletter first (by simp)
  obtain ⟨hsecond, _, _⟩ := hletter second (by simp)
  obtain ⟨hthird, _, _⟩ := hletter third (by simp)
  have hencode : Language.encode ⟨first, second, third⟩
      = Bytes.bigEndian 2 ((first.toNat - 0x60) * 1024
          + (second.toNat - 0x60) * 32 + (third.toNat - 0x60)) := by
    unfold Language.encode
    dsimp only
    rw [packed_language (by omega) (by omega) (by omega), hfirst, hsecond,
      hthird]
  have hback : ∀ n (letter : UInt8), n = letter.toNat →
      UInt8.ofNat n = letter := by
    rintro n letter rfl
    exact UInt8.ofNat_toNat
  rw [hencode]
  have hlt : (first.toNat - 0x60) * 1024 + (second.toNat - 0x60) * 32
      + (third.toNat - 0x60) < 256 ^ 2 := by omega
  have htakes := (takes_number hlt).map (f := fun packed =>
    Language.mk (UInt8.ofNat (packed / 1024 % 32 + 0x60))
      (UInt8.ofNat (packed / 32 % 32 + 0x60))
      (UInt8.ofNat (packed % 32 + 0x60)))
  rw [hback _ first (by omega), hback _ second (by omega),
    hback _ third (by omega)] at htakes
  exact htakes

theorem reads_mediaHeader {box : MediaHeader} (h : box.Lossless) :
    Reads MediaHeader.reader (content box) box := by
  simp only [content, Format.full?, Format.body, Option.elim,
    List.append_assoc, MediaHeader.width]
  refine ((takes_versionFlags (by decide)).bind ?_).reads
  rw [width_widthVersion]
  refine (takes_times (by simp)).bind ?_
  refine (takes_times (by simp)).bind ?_
  refine (takes_word32 _).bind ?_
  refine (takes_times (by simp)).bind ?_
  refine (takes_language h).bind ?_
  exact (takes_zeros 2).map

-- ================================================================ handlers

def HandlerKind.reader : Reader HandlerKind := do
  let code ← fourCC
  if code = .ofChars 's' 'o' 'u' 'n' then pure .audio
  else if code = .ofChars 't' 'e' 'x' 't' then pure .text
  else if code = .ofChars 'm' 'd' 'i' 'r' then pure .metadata
  else failure

theorem takes_handlerKind (kind : HandlerKind) :
    Takes HandlerKind.reader kind.code.bytes kind := by
  intro rest
  cases kind <;> rfl

def Handler.reader : Reader Handler := do
  let _ ← versionFlags
  skip 4
  let kind ← HandlerKind.reader
  let manufacturer ← fourCC
  skip 8
  let name ← terminated
  pure ⟨kind, some manufacturer, name⟩

def Handler.Lossless (box : Handler) : Prop := NulFree box.name

instance Handler.decidableLossless (box : Handler) :
    Decidable box.Lossless :=
  inferInstanceAs (Decidable (NulFree box.name))

/-- What is read of a handler: a manufacturer in any case, four zero bytes
if there was none. -/
def Handler.filled (box : Handler) : Handler :=
  { box with manufacturer? := some (box.manufacturer?.getD .zero) }

theorem reads_handler {box : Handler} (h : box.Lossless) :
    Reads Handler.reader (content box) box.filled := by
  simp only [content, Format.full?, Format.body, Option.elim,
    List.append_assoc]
  refine ((takes_versionFlags (by decide)).bind ?_).reads
  refine (takes_zeros 4).bind ?_
  refine (takes_handlerKind _).bind ?_
  refine (takes_fourCC _).bind ?_
  refine (takes_zeros 8).bind ?_
  exact (takes_terminated h).map

def SoundHeader.reader : Reader SoundHeader := do
  let _ ← versionFlags
  let balance ← int16
  skip 2
  pure ⟨balance⟩

theorem reads_soundHeader (box : SoundHeader) :
    Reads SoundHeader.reader (content box) box := by
  refine ((takes_versionFlags (by decide)).bind ?_).reads
  refine (takes_int16 _).bind ?_
  exact (takes_zeros 2).map

-- =============================================================== references

/-- The lowest flag says that there is no location. -/
def DataLocation.reader : Reader DataLocation := do
  let full ← versionFlags
  if full.flags &&& 1 != 0 then
    pure ⟨full.flags, ""⟩
  else
    let location ← terminated
    pure ⟨full.flags, location⟩

/-- A location in the same file cannot say where it is. -/
def DataLocation.Lossless (box : DataLocation) : Prop :=
  box.flags.toNat < 2 ^ 24 ∧ NulFree box.location
    ∧ (box.isSelfContained → box.location = "")

instance DataLocation.decidableLossless (box : DataLocation) :
    Decidable box.Lossless :=
  inferInstanceAs (Decidable (_ ∧ _ ∧ (_ → _)))

theorem reads_dataLocation {box : DataLocation} (h : box.Lossless) :
    Reads DataLocation.reader (content box) box := by
  obtain ⟨flags, location⟩ := box
  obtain ⟨hflags, hlocation, hempty⟩ := h
  simp only [content, Format.full?, Format.body, Option.elim]
  refine ((takes_versionFlags hflags).bind ?_).reads
  by_cases hself : (flags &&& 1 != 0) = true
  · have hnone : location = "" := hempty hself
    subst hnone
    show Takes (if (flags &&& 1 != 0) = true then _ else _)
      (if (flags &&& 1 != 0) = true then _ else _) _
    rw [if_pos hself, if_pos hself]
    exact takes_pure _
  · show Takes (if (flags &&& 1 != 0) = true then _ else _)
      (if (flags &&& 1 != 0) = true then _ else _) _
    rw [if_neg hself, if_neg hself]
    exact (takes_terminated hlocation).map

/-- Exactly as many data references as are counted. -/
def DataReference.reader : Reader DataReference := do
  let _ ← versionFlags
  let count ← number 4
  boxes fun parts => do
    guard (parts.length = count)
    let entries ← children (.ofChars 'u' 'r' 'l' ' ') DataLocation.reader
      parts
    pure ⟨entries⟩

def DataInformation.reader : Reader DataInformation :=
  boxes fun parts => do
    let reference ← child (.ofChars 'd' 'r' 'e' 'f') DataReference.reader
      parts
    pure ⟨reference⟩

theorem reads_dataReference {box : DataReference}
    (hsize : Format.size box ≤ maxWord32)
    (h : ∀ entry ∈ box.entries, entry.Lossless) :
    Reads DataReference.reader (content box) box := by
  have hentries : Format.size box = 12 + 4 + sizeList box.entries := rfl
  have hcount : box.entries.length < 256 ^ 4 := by
    have hlength := length_le_sizeList box.entries
    unfold maxWord32 at hsize
    omega
  have hread : children (.ofChars 'u' 'r' 'l' ' ') DataLocation.reader
      (box.entries.map Part.of) = some box.entries := by
    have hfind : Part.payloads (.ofChars 'u' 'r' 'l' ' ')
        (box.entries.map Part.of) = box.entries.map content :=
      payloads_map_of fun _ _ => rfl
    have hchildren := children_of hfind fun entry hentry =>
      reads_dataLocation (h entry hentry)
    rw [List.map_id'] at hchildren
    exact hchildren
  refine (takes_versionFlags (by decide)).bind_reads ?_
  refine (takes_number hcount).bind_reads ?_
  refine reads_boxes (walk_encodeList_self (by omega)) ?_
  have hguard : (guard (box.entries.length = box.entries.length)
      : Option Unit) = some () := if_pos rfl
  rw [hread, List.length_map, hguard]
  rfl

def DataInformation.Lossless (box : DataInformation) : Prop :=
  ∀ entry ∈ box.reference.entries, entry.Lossless

instance DataInformation.decidableLossless (box : DataInformation) :
    Decidable box.Lossless :=
  inferInstanceAs (Decidable (∀ entry ∈ _, DataLocation.Lossless entry))

theorem walk_dataInformation {box : DataInformation}
    (h : Format.size box ≤ maxWord32) :
    walk (content box) = some [Part.of box.reference] := by
  have hsize : Format.size box = 8 + Format.size box.reference := rfl
  exact walk_encode_self (by omega)

theorem reads_dataInformation {box : DataInformation}
    (hsize : Format.size box ≤ maxWord32) (h : box.Lossless) :
    Reads DataInformation.reader (content box) box := by
  have hreference : Format.size box.reference ≤ maxWord32 := by
    have hsplit : Format.size box = 8 + Format.size box.reference := rfl
    omega
  refine reads_boxes (walk_dataInformation hsize) ?_
  rw [child_of rfl (reads_dataReference hreference h)]
  rfl

end AudioMux.Box
