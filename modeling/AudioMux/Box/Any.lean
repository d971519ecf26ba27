/-
One type for all boxes of the library, so that a statement about every
box is a statement about `Any`, and a program can choose at run time
which box it writes.
-/
import AudioMux.Box.File
import AudioMux.Box.Movie

namespace AudioMux.Box

/-- Any box the library can write. -/
inductive Any where
  | fileType (box : FileType)
  | freeSpace (box : FreeSpace)
  | movieHeader (box : MovieHeader)
  | trackHeader (box : TrackHeader)
  | mediaHeader (box : MediaHeader)
  | editList (box : EditList)
  | edit (box : EditBox)
  | handler (box : Handler)
  | soundHeader (box : SoundHeader)
  | dataLocation (box : DataLocation)
  | dataReference (box : DataReference)
  | dataInformation (box : DataInformation)
  | codecConfig (box : CodecConfig)
  | sampleEntry (box : SampleEntry)
  | sampleDescription (box : SampleDescription)
  | timeToSample (box : TimeToSample)
  | sampleToChunk (box : SampleToChunk)
  | sampleSizes (box : SampleSizes)
  | chunkOffsets (box : ChunkOffsets)
  | sampleToGroup (box : SampleToGroup)
  | sampleGroups (box : SampleGroups)
  | sampleTables (box : SampleTables)
  | mediaInformation (box : MediaInformation)
  | media (box : Media)
  | track (box : TrackBox)
  | movie (box : Movie)
  | itemData (box : ItemData)
  | itemMeaning (box : ItemMeaning)
  | itemName (box : ItemName)
  | item (box : Item)
  | itemList (box : ItemList)
  | metadata (box : Metadata)
  | userData (box : UserData)
  deriving DecidableEq, Repr

/-- What `f` gives for the box inside, whatever its type. -/
def Any.elim {β : Type} (f : ∀ {α : Type} [Format α], α → β) : Any → β
  | .fileType box => f box
  | .freeSpace box => f box
  | .movieHeader box => f box
  | .trackHeader box => f box
  | .mediaHeader box => f box
  | .editList box => f box
  | .edit box => f box
  | .handler box => f box
  | .soundHeader box => f box
  | .dataLocation box => f box
  | .dataReference box => f box
  | .dataInformation box => f box
  | .codecConfig box => f box
  | .sampleEntry box => f box
  | .sampleDescription box => f box
  | .timeToSample box => f box
  | .sampleToChunk box => f box
  | .sampleSizes box => f box
  | .chunkOffsets box => f box
  | .sampleToGroup box => f box
  | .sampleGroups box => f box
  | .sampleTables box => f box
  | .mediaInformation box => f box
  | .media box => f box
  | .track box => f box
  | .movie box => f box
  | .itemData box => f box
  | .itemMeaning box => f box
  | .itemName box => f box
  | .item box => f box
  | .itemList box => f box
  | .metadata box => f box
  | .userData box => f box

instance : Format Any where
  kind := Any.elim Format.kind
  full? := Any.elim Format.full?
  size := Any.elim Format.size
  body := Any.elim Format.body

end AudioMux.Box
