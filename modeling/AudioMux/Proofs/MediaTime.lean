/-
Conversions against the quotients they stand for.

Both conversions divide whole numbers, after half the divisor was added.
That is rounding a quotient to the nearest whole number (`nearest`). What
then becomes of a number that is too large is where they part: a duration
is cut off at 64 bits (`toNat_rescale`), while a bit rate stays at the
largest number of 32 bits (`toNat_bitrate`).
-/
import AudioMux.MediaTime
import Mathlib.Algebra.Order.Round
import Mathlib.Data.Rat.Floor
import Mathlib.Tactic.FieldSimp
import Mathlib.Tactic.Ring

namespace AudioMux

/-- The whole number nearest to a quotient, of two the larger one. What is
divided by zero counts as zero. -/
def nearest (dividend divisor : Nat) : Nat :=
  (round ((dividend : ℚ) / divisor)).toNat

variable {dividend divisor : Nat}

/-- Rounding is done by whole division. -/
theorem nearest_eq_div (h : 0 < divisor) :
    nearest dividend divisor
      = (2 * dividend + divisor) / (2 * divisor) := by
  have hdivisor : (divisor : ℚ) ≠ 0 := by
    exact_mod_cast Nat.pos_iff_ne_zero.mp h
  have hhalf : (dividend : ℚ) / divisor + 1 / 2
      = ((2 * dividend + divisor : Nat) : ℚ) / (2 * divisor : Nat) := by
    push_cast
    field_simp
  unfold nearest
  rw [round_eq, hhalf, Rat.floor_natCast_div_natCast]
  exact Int.toNat_natCast _

theorem nearest_zero_right (dividend : Nat) : nearest dividend 0 = 0 := by
  unfold nearest
  rw [Nat.cast_zero, div_zero, round_zero]
  rfl

/-- Nothing to round. -/
theorem nearest_mul_right (ticks : Nat) (h : 0 < divisor) :
    nearest (ticks * divisor) divisor = ticks := by
  have hdivisor : (divisor : ℚ) ≠ 0 := by
    exact_mod_cast Nat.pos_iff_ne_zero.mp h
  unfold nearest
  rw [Nat.cast_mul, mul_div_cancel_right₀ _ hdivisor, round_natCast]
  exact Int.toNat_natCast _

/-- A quotient rounds to a number or less if it is less than a half above
it. -/
theorem nearest_le_iff (h : 0 < divisor) {bound : Nat} :
    nearest dividend divisor ≤ bound
      ↔ 2 * dividend < (2 * bound + 1) * divisor := by
  rw [nearest_eq_div h, ← Nat.lt_succ_iff,
    Nat.div_lt_iff_lt_mul (by omega : 0 < 2 * divisor)]
  have hsplit : bound.succ * (2 * divisor)
      = (2 * bound + 1) * divisor + divisor := by
    rw [Nat.succ_eq_add_one]
    ring
  omega

/-- More of the same rounds to no less. -/
theorem nearest_mono {less more : Nat} (h : less ≤ more) (divisor : Nat) :
    nearest less divisor ≤ nearest more divisor := by
  rcases Nat.eq_zero_or_pos divisor with rfl | hpos
  · rw [nearest_zero_right]
    exact Nat.zero_le _
  · rw [nearest_eq_div hpos, nearest_eq_div hpos]
    exact Nat.div_le_div_right (by omega)

/-- Ticks of one timescale are converted to the nearest tick of another, of
which the low 64 bits are kept. -/
theorem toNat_rescale (ticks : Nat) {source : UInt32} (target : UInt32)
    (h : source ≠ 0) :
    (rescale ticks source target).toNat
      = nearest (ticks * target.toNat) source.toNat % 2 ^ 64 := by
  have hsource : 0 < source.toNat := by
    rw [Nat.pos_iff_ne_zero]
    exact fun hzero => h (UInt32.toNat_inj.mp hzero)
  unfold rescale
  by_cases hsame : source = target
  · rw [if_pos (Or.inl hsame), ← hsame, nearest_mul_right ticks hsource]
    exact UInt64.toNat_ofNat'
  · have hhalf : (ticks * target.toNat + source.toNat / 2) / source.toNat
        = nearest (ticks * target.toNat) source.toNat := by
      rw [nearest_eq_div hsource, ← Nat.div_div_eq_div_mul,
        Nat.mul_add_div (by decide)]
    rw [if_neg (by rintro (hequal | hzero) <;> contradiction), hhalf]
    exact UInt64.toNat_ofNat'

/-- A bit rate is the nearest number of bits a second, if that has no more
than 32 bits. -/
theorem toNat_bitrate (size duration : Nat) (timescale : UInt32) :
    (bitrate size duration timescale).toNat
      = min 0xffffffff
          (nearest (size * 8 * timescale.toNat) duration) := by
  unfold bitrate
  by_cases hzero : duration = 0
  · rw [if_pos hzero, hzero, nearest_zero_right]
    rfl
  · have hrounded : (size * 8 * timescale.toNat * 2 + duration)
          / (duration * 2)
        = nearest (size * 8 * timescale.toNat) duration := by
      rw [nearest_eq_div (Nat.pos_of_ne_zero hzero), Nat.mul_comm 2,
        Nat.mul_comm 2]
    rw [if_neg hzero, hrounded]
    exact UInt32.toNat_ofNat_of_lt' (by
      show _ < 2 ^ 32
      omega)

end AudioMux
