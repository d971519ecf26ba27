/-
Metadata in the layout players of iTunes files read: user data holds a
metadata box, which holds a handler and the list of items. An item is
named by its four-character code, or it is a free-form item with a name
of its own in a common namespace.
-/
import AudioMux.Box.Handler

namespace AudioMux.Box

/-- The namespace of free-form items. -/
def freeFormMeaning : String := "com.apple.iTunes"

/-- The value of an item. The type code stands in the flags. -/
structure ItemData where
  typeCode : UInt32
  locale : UInt32
  payload : Bytes
  deriving DecidableEq, Repr

instance : Format ItemData where
  kind _ := .ofChars 'd' 'a' 't' 'a'
  full? box := some ⟨0, box.typeCode⟩
  size box := 12 + 4 + box.payload.length
  body box := Bytes.word32 box.locale ++ box.payload

/-- The namespace of a free-form item, which is always the same. -/
structure ItemMeaning where
  deriving DecidableEq, Repr

instance : Format ItemMeaning where
  kind _ := .ofChars 'm' 'e' 'a' 'n'
  full? _ := some .plain
  size _ := 12 + freeFormMeaning.utf8ByteSize
  body _ := Bytes.ofText freeFormMeaning

/-- The name of a free-form item, without a zero byte at the end. -/
structure ItemName where
  name : String
  deriving DecidableEq, Repr

instance : Format ItemName where
  kind _ := .ofChars 'n' 'a' 'm' 'e'
  full? _ := some .plain
  size box := 12 + box.name.utf8ByteSize
  body box := Bytes.ofText box.name

/-- The code of free-form items, `----`. -/
def freeFormCode : FourCC := .ofChars '-' '-' '-' '-'

/-- One item of metadata. -/
inductive Item where
  | coded (code : FourCC) (data : ItemData)
  | freeForm (name : ItemName) (data : ItemData)
  deriving DecidableEq, Repr

/-- An item's box is named by the item's code. -/
instance : Format Item where
  kind
    | .coded code _ => code
    | .freeForm _ _ => freeFormCode
  full? _ := none
  size
    | .coded _ data => 8 + Format.size data
    | .freeForm name data =>
      8 + (Format.size (ItemMeaning.mk) + Format.size name + Format.size data)
  body
    | .coded _ data => encode data
    | .freeForm name data =>
      encode (ItemMeaning.mk) ++ encode name ++ encode data

/-- All items, in order. -/
structure ItemList where
  items : List Item
  deriving DecidableEq, Repr

instance : Format ItemList where
  kind _ := .ofChars 'i' 'l' 's' 't'
  full? _ := none
  size box := 8 + sizeList box.items
  body box := encodeList box.items

/-- The items and the handler that says how to read them. -/
structure Metadata where
  handler : Handler
  itemList : ItemList
  deriving DecidableEq, Repr

/-- The usual metadata box around a list of items. -/
def Metadata.ofItems (itemList : ItemList) : Metadata :=
  ⟨.ofKind .metadata, itemList⟩

instance : Format Metadata where
  kind _ := .ofChars 'm' 'e' 't' 'a'
  full? _ := some .plain
  size box := 12 + Format.size box.handler + Format.size box.itemList
  body box := encode box.handler ++ encode box.itemList

/-- The box that carries the metadata in a movie. -/
structure UserData where
  metadata : Metadata
  deriving DecidableEq, Repr

instance : Format UserData where
  kind _ := .ofChars 'u' 'd' 't' 'a'
  full? _ := none
  size box := 8 + Format.size box.metadata
  body box := encode box.metadata

end AudioMux.Box
