/-
Reading a whole movie back.

A movie of which the format can say everything (`Movie.Lossless`) and
whose size fits into 32 bits is read back as it was, and a handler without
a manufacturer is read with four zero bytes for one (`Movie.filled`). So
the bytes of a movie determine it up to that (`Movie.read_encode`).
-/
import AudioMux.Proofs.Box.Decode.Edits
import AudioMux.Proofs.Box.Decode.Headers
import AudioMux.Proofs.Box.Decode.Tables

namespace AudioMux.Box

open Reader

-- ================================================================ metadata

def ItemData.reader : Reader ItemData := do
  let full ← versionFlags
  let locale ← word32
  let payload ← allBytes
  pure ⟨full.flags, locale, payload⟩

def ItemData.Lossless (box : ItemData) : Prop :=
  box.typeCode.toNat < 2 ^ 24

instance ItemData.decidableLossless (box : ItemData) :
    Decidable box.Lossless :=
  inferInstanceAs (Decidable (_ < _))

theorem reads_itemData {box : ItemData} (h : box.Lossless) :
    Reads ItemData.reader (content box) box := by
  refine (takes_versionFlags h).bind_reads ?_
  refine (takes_word32 _).bind_reads ?_
  exact (reads_allBytes _).map

def ItemName.reader : Reader ItemName := do
  let _ ← versionFlags
  let name ← allText
  pure ⟨name⟩

theorem reads_itemName (box : ItemName) :
    Reads ItemName.reader (content box) box := by
  refine (takes_versionFlags (by decide)).bind_reads ?_
  exact (reads_allText _).map

/-- An item in a box of this kind: a free-form item has a name in a box,
any other is named by the kind. -/
def Item.reader (kind : FourCC) : Reader Item :=
  boxes fun parts => do
    let data ← child (.ofChars 'd' 'a' 't' 'a') ItemData.reader parts
    if kind = .ofChars '-' '-' '-' '-' then
      let name ← child (.ofChars 'n' 'a' 'm' 'e') ItemName.reader parts
      pure (.freeForm name data)
    else
      pure (.coded kind data)

/-- The code of an item must not be that of the free-form ones. -/
def Item.Lossless : Item → Prop
  | .coded code data => code ≠ freeFormCode ∧ data.Lossless
  | .freeForm _ data => data.Lossless

instance Item.decidableLossless :
    (item : Item) → Decidable item.Lossless
  | .coded _ data => inferInstanceAs (Decidable (_ ∧ data.Lossless))
  | .freeForm _ data => inferInstanceAs (Decidable data.Lossless)

theorem walk_freeForm {name : ItemName} {data : ItemData}
    (h : Format.size (Item.freeForm name data) ≤ maxWord32) :
    walk (content (Item.freeForm name data))
      = some [Part.of ItemMeaning.mk, Part.of name, Part.of data] := by
  have hsize : Format.size (Item.freeForm name data) = 8 +
      (Format.size ItemMeaning.mk + Format.size name + Format.size data) :=
    rfl
  have hcontent : content (Item.freeForm name data)
      = encode ItemMeaning.mk ++ (encode name ++ encode data) := by
    simp [content, Format.full?, Format.body]
  rw [hcontent, walk_encode (by omega), walk_encode (by omega),
    walk_encode_self (by omega)]
  rfl

theorem reads_item {box : Item} (hsize : Format.size box ≤ maxWord32)
    (h : box.Lossless) :
    Reads (Item.reader (Format.kind box)) (content box) box := by
  cases box with
  | coded code data =>
      obtain ⟨hcode, hdata⟩ := h
      have hfits : Format.size data ≤ maxWord32 := by
        have hsplit : Format.size (Item.coded code data)
            = 8 + Format.size data := rfl
        omega
      refine reads_boxes (walk_encode_self hfits) ?_
      rw [child_of rfl (reads_itemData hdata)]
      exact if_neg hcode
  | freeForm name data =>
      refine reads_boxes (walk_freeForm hsize) ?_
      rw [child_of rfl (reads_itemData h),
        child_of rfl (reads_itemName name)]
      rfl

def ItemList.reader : Reader ItemList :=
  boxes fun parts => do
    let items ← parts.mapM fun part =>
      (Item.reader part.kind).whole? part.payload
    pure ⟨items⟩

theorem mapM_items {items : List Item}
    (hsize : sizeList items ≤ maxWord32)
    (h : ∀ item ∈ items, item.Lossless) :
    ((items.map Part.of).mapM fun part =>
      (Item.reader part.kind).whole? part.payload) = some items := by
  induction items with
  | nil => rfl
  | cons item items ih =>
      have hsplit : sizeList (item :: items)
          = Format.size item + sizeList items := rfl
      have hfirst : (Item.reader (Part.of item).kind).whole?
          (Part.of item).payload = some item :=
        whole?_of_reads (reads_item (by omega) (h item List.mem_cons_self))
      have hrest := ih (by omega) fun item hitem =>
        h item (List.mem_cons_of_mem _ hitem)
      rw [List.map_cons, List.mapM_cons, hfirst, hrest]
      rfl

theorem reads_itemList {box : ItemList}
    (hsize : Format.size box ≤ maxWord32)
    (h : ∀ item ∈ box.items, item.Lossless) :
    Reads ItemList.reader (content box) box := by
  have hitems : sizeList box.items ≤ maxWord32 := by
    have hsplit : Format.size box = 8 + sizeList box.items := rfl
    omega
  refine reads_boxes (walk_encodeList_self hitems) ?_
  rw [mapM_items hitems h]
  rfl

def Metadata.reader : Reader Metadata := do
  let _ ← versionFlags
  boxes fun parts => do
    let handler ← child (.ofChars 'h' 'd' 'l' 'r') Handler.reader parts
    let itemList ← child (.ofChars 'i' 'l' 's' 't') ItemList.reader parts
    pure ⟨handler, itemList⟩

def UserData.reader : Reader UserData :=
  boxes fun parts => do
    let metadata ← child (.ofChars 'm' 'e' 't' 'a') Metadata.reader parts
    pure ⟨metadata⟩

def UserData.Lossless (box : UserData) : Prop :=
  box.metadata.handler.Lossless
    ∧ ∀ item ∈ box.metadata.itemList.items, item.Lossless

instance UserData.decidableLossless (box : UserData) :
    Decidable box.Lossless :=
  inferInstanceAs (Decidable (_ ∧ ∀ item ∈ _, Item.Lossless item))

def UserData.filled (box : UserData) : UserData :=
  ⟨{ box.metadata with handler := box.metadata.handler.filled }⟩

theorem reads_metadata {box : Metadata}
    (hsize : Format.size box ≤ maxWord32) (hhandler : box.handler.Lossless)
    (hitems : ∀ item ∈ box.itemList.items, item.Lossless) :
    Reads Metadata.reader (content box)
      { box with handler := box.handler.filled } := by
  have hsplit : Format.size box = 12 + Format.size box.handler +
      Format.size box.itemList := rfl
  have hlist : Format.size box.itemList ≤ maxWord32 := by omega
  have hwalk : walk (encode box.handler ++ encode box.itemList)
      = some [Part.of box.handler, Part.of box.itemList] := by
    rw [walk_encode (by omega), walk_encode_self hlist]
    rfl
  refine (takes_versionFlags (by decide)).bind_reads ?_
  refine reads_boxes hwalk ?_
  rw [child_of rfl (reads_handler hhandler),
    child_of rfl (reads_itemList hlist hitems)]
  rfl

theorem reads_userData {box : UserData}
    (hsize : Format.size box ≤ maxWord32) (h : box.Lossless) :
    Reads UserData.reader (content box) box.filled := by
  have hmetadata : Format.size box.metadata ≤ maxWord32 := by
    have hsplit : Format.size box = 8 + Format.size box.metadata := rfl
    omega
  refine reads_boxes (walk_encode_self hmetadata) ?_
  rw [child_of rfl (reads_metadata hmetadata h.1 h.2)]
  rfl

-- =================================================================== tracks

def MediaInformation.reader : Reader MediaInformation :=
  boxes fun parts => do
    let soundHeader? ← childOption (.ofChars 's' 'm' 'h' 'd')
      SoundHeader.reader parts
    let dataInformation ← child (.ofChars 'd' 'i' 'n' 'f')
      DataInformation.reader parts
    let sampleTables ← child (.ofChars 's' 't' 'b' 'l')
      SampleTables.reader parts
    pure ⟨soundHeader?, dataInformation, sampleTables⟩

def MediaInformation.Lossless (box : MediaInformation) : Prop :=
  box.dataInformation.Lossless ∧ box.sampleTables.Lossless

instance MediaInformation.decidableLossless (box : MediaInformation) :
    Decidable box.Lossless :=
  inferInstanceAs (Decidable (_ ∧ _))

theorem reads_mediaInformation {box : MediaInformation}
    (hsize : Format.size box ≤ maxWord32) (h : box.Lossless) :
    Reads MediaInformation.reader (content box) box := by
  have hsplit : Format.size box = 8 + sizeOption box.soundHeader? +
      Format.size box.dataInformation + Format.size box.sampleTables := rfl
  have hdata : Format.size box.dataInformation ≤ maxWord32 := by omega
  have htables : Format.size box.sampleTables ≤ maxWord32 := by omega
  obtain ⟨hlocations, hentry⟩ := h
  refine reads_boxes (walk_mediaInformation hsize) ?_
  rw [childOption_self ?_ fun sound _ => reads_soundHeader sound,
    child_of ?_ (reads_dataInformation hdata hlocations),
    child_of ?_ (reads_sampleTables htables hentry)]
  · rfl
  · cases box.soundHeader? <;> rfl
  · cases box.soundHeader? <;> rfl
  · cases box.soundHeader? <;> rfl

def Media.reader : Reader Media :=
  boxes fun parts => do
    let header ← child (.ofChars 'm' 'd' 'h' 'd') MediaHeader.reader parts
    let handler ← child (.ofChars 'h' 'd' 'l' 'r') Handler.reader parts
    let information ← child (.ofChars 'm' 'i' 'n' 'f')
      MediaInformation.reader parts
    pure ⟨header, handler, information⟩

def Media.Lossless (box : Media) : Prop :=
  box.header.Lossless ∧ box.handler.Lossless ∧ box.information.Lossless

instance Media.decidableLossless (box : Media) :
    Decidable box.Lossless :=
  inferInstanceAs (Decidable (_ ∧ _ ∧ _))

def Media.filled (box : Media) : Media :=
  { box with handler := box.handler.filled }

theorem reads_media {box : Media} (hsize : Format.size box ≤ maxWord32)
    (h : box.Lossless) : Reads Media.reader (content box) box.filled := by
  obtain ⟨hheader, hhandler, hinformation⟩ := h
  refine reads_boxes (walk_mediaBox hsize) ?_
  rw [child_of rfl (reads_mediaHeader hheader),
    child_of rfl (reads_handler hhandler),
    child_of rfl (reads_mediaInformation (size_information_le hsize)
      hinformation)]
  rfl

def TrackBox.reader : Reader TrackBox :=
  boxes fun parts => do
    let header ← child (.ofChars 't' 'k' 'h' 'd') TrackHeader.reader parts
    let edits? ← childOption (.ofChars 'e' 'd' 't' 's') EditBox.reader parts
    let media ← child (.ofChars 'm' 'd' 'i' 'a') Media.reader parts
    pure ⟨header, edits?, media⟩

def TrackBox.Lossless (box : TrackBox) : Prop :=
  box.header.Lossless ∧ (∀ edits ∈ box.edits?, edits.Lossless)
    ∧ box.media.Lossless

instance TrackBox.decidableLossless (box : TrackBox) :
    Decidable box.Lossless :=
  inferInstanceAs (Decidable (_ ∧ (∀ edits ∈ _, EditBox.Lossless edits) ∧ _))

def TrackBox.filled (box : TrackBox) : TrackBox :=
  { box with media := box.media.filled }

/-- An edit list is found where it should be, or nowhere. -/
theorem childOption_edits {box : TrackBox}
    (hsize : Format.size box ≤ maxWord32)
    (h : ∀ edits ∈ box.edits?, edits.Lossless) :
    (walk (content box)).bind
        (childOption (.ofChars 'e' 'd' 't' 's') EditBox.reader)
      = some box.edits? := by
  have hsplit : Format.size box = 8 + Format.size box.header +
      sizeOption box.edits? + Format.size box.media := rfl
  rw [walk_trackBox hsize, Option.bind_some]
  refine childOption_self ?_ fun edits hmem => ?_
  · cases box.edits? <;> rfl
  · have hfits := size_le_sizeOption hmem
    exact reads_editBox (by omega) (h edits hmem)

theorem reads_trackBox {box : TrackBox}
    (hsize : Format.size box ≤ maxWord32) (h : box.Lossless) :
    Reads TrackBox.reader (content box) box.filled := by
  obtain ⟨hheader, hlists, hmedia⟩ := h
  have hedits := childOption_edits hsize hlists
  rw [walk_trackBox hsize, Option.bind_some] at hedits
  refine reads_boxes (walk_trackBox hsize) ?_
  rw [child_of ?_ (reads_trackHeader hheader), hedits,
    child_of ?_ (reads_media (size_media_le hsize) hmedia)]
  · rfl
  · cases box.edits? <;> rfl
  · rfl

-- ==================================================================== movie

namespace Movie

def reader : Reader Movie :=
  boxes fun parts => do
    let header ← child (.ofChars 'm' 'v' 'h' 'd') MovieHeader.reader parts
    let tracks ← children (.ofChars 't' 'r' 'a' 'k') TrackBox.reader parts
    let userData? ← childOption (.ofChars 'u' 'd' 't' 'a') UserData.reader
      parts
    pure ⟨header, tracks, userData?⟩

/-- The movie in a string of bytes. -/
def read? (bytes : Bytes) : Option Movie :=
  (walk bytes).bind (child (.ofChars 'm' 'o' 'o' 'v') reader)

/-- Nothing of the movie is lost when it is written: flags, type codes and
buffer sizes have 24 bits, descriptors 28-bit sizes, and languages
lower-case letters; names and locations have no zero character, and there
is no location for media in the same file; a list of edits has one of
them, and no item that has a code has the one of free-form items. -/
def Lossless (movie : Movie) : Prop :=
  (∀ track ∈ movie.tracks, track.Lossless)
    ∧ ∀ userData ∈ movie.userData?, userData.Lossless

instance decidableLossless (movie : Movie) : Decidable movie.Lossless :=
  inferInstanceAs (Decidable ((∀ track ∈ _, TrackBox.Lossless track)
    ∧ ∀ userData ∈ _, UserData.Lossless userData))

/-- What is read of a movie: every handler has a manufacturer. -/
def filled (movie : Movie) : Movie :=
  { movie with
    tracks := movie.tracks.map TrackBox.filled
    userData? := movie.userData?.map UserData.filled }

/-- User data is found where it should be, or nowhere. -/
theorem childOption_userData {movie : Movie}
    (hsize : Format.size movie ≤ maxWord32)
    (h : ∀ userData ∈ movie.userData?, userData.Lossless) :
    (walk (content movie)).bind
        (childOption (.ofChars 'u' 'd' 't' 'a') UserData.reader)
      = some (movie.userData?.map UserData.filled) := by
  have hsplit : Format.size movie = 8 + Format.size movie.header +
      sizeList movie.tracks + sizeOption movie.userData? := rfl
  rw [walk_movieBox hsize, Option.bind_some]
  refine childOption_of (payload?_userData movie) fun userData hmem => ?_
  have hfits := size_le_sizeOption hmem
  exact reads_userData (by omega) (h userData hmem)

theorem reads_content {movie : Movie}
    (hsize : Format.size movie ≤ maxWord32) (h : movie.Lossless) :
    Reads reader (content movie) movie.filled := by
  obtain ⟨htracks, huser⟩ := h
  have hread : ∀ track ∈ movie.tracks,
      Reads TrackBox.reader (content track) track.filled :=
    fun track hmem =>
      reads_trackBox (size_track_le hsize hmem) (htracks track hmem)
  have hread' := childOption_userData hsize huser
  rw [walk_movieBox hsize, Option.bind_some] at hread'
  refine reads_boxes (walk_movieBox hsize) ?_
  rw [child_of ?_ (reads_movieHeader movie.header), children_of ?_ hread,
    hread']
  · rfl
  · exact payloads_tracks movie
  · rfl

theorem read_encode_of_fits {movie : Movie} (h : movie.Lossless)
    (hsize : (encode movie).length < 2 ^ 32) :
    read? (encode movie) = some movie.filled := by
  have hfits : Format.size movie ≤ maxWord32 := by
    have hle := (fair_encode movie).1
    unfold maxWord32
    omega
  unfold read?
  rw [walk_encode_self hfits, Option.bind_some]
  exact child_of rfl (reads_content hfits h)

theorem sizeList_filled (tracks : List TrackBox) :
    sizeList (tracks.map TrackBox.filled) = sizeList tracks := by
  induction tracks with
  | nil => rfl
  | cons track tracks ih => exact congrArg (Format.size track + ·) ih

theorem encodeList_filled (tracks : List TrackBox) :
    encodeList (tracks.map TrackBox.filled) = encodeList tracks := by
  induction tracks with
  | nil => rfl
  | cons track tracks ih => exact congrArg (encode track ++ ·) ih

/-- The missing manufacturers are written as they are read. -/
theorem encode_filled (movie : Movie) :
    encode movie.filled = encode movie := by
  obtain ⟨header, tracks, userData?⟩ := movie
  have huser : sizeOption (userData?.map UserData.filled)
        = sizeOption userData?
      ∧ encodeOption (userData?.map UserData.filled)
        = encodeOption userData? := by
    cases userData? <;> exact ⟨rfl, rfl⟩
  simp only [encode, content, Format.size, Format.body, filled,
    sizeList_filled, encodeList_filled, huser.1, huser.2]
  rfl

/-- The bytes of a movie determine it, but for a missing manufacturer,
which is the same as one of four zero bytes: a reader that follows the
format gets everything back, so different movies have different bytes. -/
theorem read_encode {movie : Movie} (h : movie.Lossless)
    (hsize : (encode movie).length < 2 ^ 32) :
    read? (encode movie) = some movie.filled
      ∧ ∀ other : Movie, other.Lossless →
          (encode other).length < 2 ^ 32 →
          (encode movie = encode other ↔ movie.filled = other.filled) := by
  refine ⟨read_encode_of_fits h hsize, fun other hother hsize' => ?_⟩
  constructor
  · intro hsame
    have hread := read_encode_of_fits h hsize
    rw [hsame, read_encode_of_fits hother hsize'] at hread
    exact (Option.some.inj hread).symm
  · intro hsame
    rw [← encode_filled movie, hsame, encode_filled]

end Movie

/-- A movie with one of each box that may be missing, an edit that starts
before the media and a time past 32 bits. -/
def shortMovie : Movie where
  header := ⟨0, 0x123456789, 44100, 2048, 0x10000, 0x100, .identity, 2⟩
  tracks := [{
    header := ⟨7, 0, 0, 1, 2048, 0x100, .identity⟩
    edits? := some ⟨⟨[⟨2048, -1⟩], 1, 0⟩⟩
    media := {
      header := ⟨0, 0, 44100, 2048, .undetermined⟩
      handler := .ofKind .audio
      information := {
        soundHeader? := some ⟨0⟩
        dataInformation := .selfContained
        sampleTables := {
          description :=
            ⟨.audio ⟨1, 2, 16, 0xac440000, .aac ⟨6144, 0, 0, [0x12, 0x10]⟩⟩⟩
          sampleToGroup? := some (.roll 2)
          groups? := some (.roll (-1))
          timeToSample := ⟨[⟨2, 1024⟩]⟩
          sampleToChunk := ⟨[⟨1, 2, 1⟩]⟩
          sampleSizes := ⟨[3, 4]⟩
          chunkOffsets := .narrow [40] } } } }]
  userData? := some ⟨.ofItems ⟨[
    .coded (.ofChars '\xa9' 'n' 'a' 'm') ⟨1, 0, [0x61]⟩,
    .freeForm ⟨"tool"⟩ ⟨1, 0, []⟩]⟩⟩

theorem read_encode_shortMovie :
    Movie.read? (encode shortMovie) = some shortMovie.filled := by
  have hlossless : shortMovie.Lossless := by decide +kernel
  have hsize : (encode shortMovie).length < 2 ^ 32 := by decide +kernel
  exact (Movie.read_encode hlossless hsize).1

end AudioMux.Box
