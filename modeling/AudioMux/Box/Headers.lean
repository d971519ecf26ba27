/-
The three boxes that hold times: the movie header, the track header
and the media header. Times are seconds since the start of 1904. Each
writes its times and its duration in 32 bits unless one of them needs
64, and says so in its version.
-/
import AudioMux.Box.Format

namespace AudioMux.Box

/-- A transformation of the picture: a 3 by 3 matrix, row by row, of
raw 16.16 numbers (2.30 in the last column). -/
structure Matrix where
  a : Int32
  b : Int32
  u : Int32
  c : Int32
  d : Int32
  v : Int32
  x : Int32
  y : Int32
  w : Int32
  deriving DecidableEq, Repr

/-- The cells in the order they are written. -/
def Matrix.cells (m : Matrix) : List Int32 :=
  [m.a, m.b, m.u, m.c, m.d, m.v, m.x, m.y, m.w]

/-- The matrix that changes nothing. -/
def Matrix.identity : Matrix :=
  ⟨0x10000, 0, 0, 0, 0x10000, 0, 0, 0, 0x40000000⟩

/-- The nine cells as 32-bit words. -/
def Matrix.encode (m : Matrix) : Bytes :=
  m.cells.flatMap fun cell => Bytes.word32 cell.toUInt32

/-- What the whole movie shares: its times, its timescale and its
duration. `rate` is a raw 16.16 number and `volume` a raw 8.8 one. -/
structure MovieHeader where
  creationTime : UInt64
  modificationTime : UInt64
  timescale : UInt32
  duration : UInt64
  rate : Int32
  volume : Int16
  matrix : Matrix
  nextTrackId : UInt32
  deriving DecidableEq, Repr

/-- The width of the times and the duration. -/
def MovieHeader.width (box : MovieHeader) : Nat :=
  fieldWidth [box.creationTime, box.modificationTime, box.duration]

instance : Format MovieHeader where
  kind _ := .ofChars 'm' 'v' 'h' 'd'
  full? box := some ⟨widthVersion box.width, 0⟩
  size box := 12 + (3 * box.width + 4) + 4 + 2 + 2 + 8 + 36 + 24 + 4
  body box :=
    Bytes.bigEndian box.width box.creationTime.toNat ++
    Bytes.bigEndian box.width box.modificationTime.toNat ++
    Bytes.word32 box.timescale ++
    Bytes.bigEndian box.width box.duration.toNat ++
    Bytes.word32 box.rate.toUInt32 ++
    Bytes.word16 box.volume.toUInt16 ++
    Bytes.zeros 2 ++ Bytes.zeros 8 ++
    box.matrix.encode ++
    Bytes.zeros 24 ++
    Bytes.word32 box.nextTrackId

/-- What the movie knows of a track. The duration is in the movie's
timescale, and `volume` is a raw 8.8 number. -/
structure TrackHeader where
  flags : UInt32
  creationTime : UInt64
  modificationTime : UInt64
  trackId : UInt32
  duration : UInt64
  volume : Int16
  matrix : Matrix
  deriving DecidableEq, Repr

/-- The flags of a track that is enabled, in the movie and in its
preview. -/
def TrackHeader.enabledEverywhere : UInt32 := 7

/-- The width of the times and the duration. -/
def TrackHeader.width (box : TrackHeader) : Nat :=
  fieldWidth [box.creationTime, box.modificationTime, box.duration]

instance : Format TrackHeader where
  kind _ := .ofChars 't' 'k' 'h' 'd'
  full? box := some ⟨widthVersion box.width, box.flags⟩
  size box := 12 + (3 * box.width + 8) + 8 + 4 + 2 + 2 + 36 + 8
  body box :=
    Bytes.bigEndian box.width box.creationTime.toNat ++
    Bytes.bigEndian box.width box.modificationTime.toNat ++
    Bytes.word32 box.trackId ++ Bytes.zeros 4 ++
    Bytes.bigEndian box.width box.duration.toNat ++
    Bytes.zeros 8 ++
    -- layer and alternate group
    Bytes.zeros 4 ++
    Bytes.word16 box.volume.toUInt16 ++ Bytes.zeros 2 ++
    box.matrix.encode ++
    -- width and height
    Bytes.zeros 8

/-- A language by its three lower-case letters (ISO 639-2/T). -/
structure Language where
  first : UInt8
  second : UInt8
  third : UInt8
  deriving DecidableEq, Repr

namespace Language

/-- The code of a language that is not known, `und`. -/
def undetermined : Language := ⟨0x75, 0x6e, 0x64⟩

/-- Three letters packed into two bytes, five bits a letter. -/
def encode (language : Language) : Bytes :=
  [(language.first - 0x60) <<< 2 ||| (language.second - 0x60) >>> 3,
    (language.second - 0x60) <<< 5 ||| (language.third - 0x60)]

end Language

/-- A track's own timescale, duration and language. -/
structure MediaHeader where
  creationTime : UInt64
  modificationTime : UInt64
  timescale : UInt32
  duration : UInt64
  language : Language
  deriving DecidableEq, Repr

/-- The width of the times and the duration. -/
def MediaHeader.width (box : MediaHeader) : Nat :=
  fieldWidth [box.creationTime, box.modificationTime, box.duration]

instance : Format MediaHeader where
  kind _ := .ofChars 'm' 'd' 'h' 'd'
  full? box := some ⟨widthVersion box.width, 0⟩
  size box := 12 + (3 * box.width + 4) + 2 + 2
  body box :=
    Bytes.bigEndian box.width box.creationTime.toNat ++
    Bytes.bigEndian box.width box.modificationTime.toNat ++
    Bytes.word32 box.timescale ++
    Bytes.bigEndian box.width box.duration.toNat ++
    box.language.encode ++
    Bytes.zeros 2

end AudioMux.Box
