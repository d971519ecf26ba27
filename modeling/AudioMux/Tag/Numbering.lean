/-
Merging of numbers: the number of a track and the count of tracks may
be given apart and more than once, but a file holds them in one item.
The same goes for discs.
-/
import AudioMux.Tag.Basic

namespace AudioMux.Tag

/-- The later of two numbers that is not zero, if there is one. -/
def laterNumber (earlier later : UInt16) : UInt16 :=
  if later = 0 then earlier else later

/-- A tag with the numbers of a later tag put over its own, if both are
about the track or both about the disc. -/
def mergeWith? (earlier later : Tag) : Option Tag :=
  match earlier, later with
  | .track number total, .track number' total' =>
    some (.track (laterNumber number number') (laterNumber total total'))
  | .disc number total, .disc number' total' =>
    some (.disc (laterNumber number number') (laterNumber total total'))
  | _, _ => none

/-- Adds a tag after others: into the first it can be merged with, or
else at the end. -/
def mergeInto (tag : Tag) : List Tag → List Tag
  | [] => [tag]
  | earlier :: rest =>
    match mergeWith? earlier tag with
    | some merged => merged :: rest
    | none => earlier :: mergeInto tag rest

/-- The tags with all track numbers in one and all disc numbers in one,
where the first of each stood. -/
def mergeNumbering (tags : List Tag) : List Tag :=
  tags.foldl (fun merged tag => mergeInto tag merged) []

end AudioMux.Tag
