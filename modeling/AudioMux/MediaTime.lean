/-
Times, durations and rates.

Durations are counted in ticks of a timescale, which is a number of
ticks a second. Both conversions here round to the nearest integer, a
half upward.
-/
import AudioMux.Bytes

namespace AudioMux

/-- Seconds from the start of 1904, where the file format counts from,
to the start of 1970: 66 years with 17 leap days. -/
def epochOffset : Int := ((1970 - 1904) * 365 + 17) * 24 * 60 * 60

/-- The file format's time for a number of whole seconds since the start
of 1970. Times before 1904 become zero. -/
def fileTime (unixSeconds : Int) : UInt64 :=
  UInt64.ofNat (unixSeconds + epochOffset).toNat

/-- A number of ticks converted from one timescale to another, to the
nearest tick. The result is a 64-bit number. -/
def rescale (ticks : Nat) (source target : UInt32) : UInt64 :=
  if source = target ∨ source = 0 then
    UInt64.ofNat ticks
  else
    UInt64.ofNat
      ((ticks * target.toNat + source.toNat / 2) / source.toNat)

/-- The bit rate of `size` bytes over `duration` ticks, in bits a second,
to the nearest integer and at most the largest 32-bit number. Nothing
is known of an empty duration, for which it is zero. -/
def bitrate (size duration : Nat) (timescale : UInt32) : UInt32 :=
  if duration = 0 then
    0
  else
    UInt32.ofNat
      (min 0xffffffff
        ((size * 8 * timescale.toNat * 2 + duration) / (duration * 2)))

end AudioMux
