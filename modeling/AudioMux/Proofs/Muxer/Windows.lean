/-
The last second of what was handed in, at every moment of it.

The window of some units is the shortest run at their end that lasts a
second, or all of them if they last less (`IsWindow`). It is what a track
looks at when it works out how fast the data came in last
(`trailing_window`).

Any units can be cut into windows: the last one is that of all units, the
one before it that of the units in front of it, and so on. Each of them has
at most the rate of the fastest window, so all units together, whose rate is
the mean of theirs, have no more (`rate_le_of_windowRates`). Only the first
piece of the cut can be shorter than a second, and it needs some duration
for its rate to mean anything, which the first unit has to give it.
-/
import AudioMux.Proofs.MediaTime
import AudioMux.Proofs.Muxer.Ledger
import Mathlib.Order.Bounds.Basic

namespace AudioMux

open AccessUnit (payload totalDuration)
open Box (maxWord32)

-- ================================================================= windows

namespace AccessUnit

/-- The shortest run at the end of some units that lasts at least `goal`
ticks, or all of them if they last less. -/
structure IsWindow (goal : Nat) (units window : List AccessUnit) : Prop where
  isSuffix : window <:+ units
  covers : goal ≤ totalDuration window ∨ window = units
  shortest : ∀ shorter, shorter <:+ units → goal ≤ totalDuration shorter →
    window.length ≤ shorter.length

variable {goal : Nat} {unit : AccessUnit} {units window : List AccessUnit}

theorem totalDuration_le_of_isSuffix (h : window <:+ units) :
    totalDuration window ≤ totalDuration units := by
  obtain ⟨earlier, rfl⟩ := h
  rw [totalDuration_append]
  exact Nat.le_add_left _ _

theorem isWindow_self (h : totalDuration units < goal) :
    IsWindow goal units units := by
  refine ⟨List.suffix_refl units, Or.inr rfl, ?_⟩
  intro shorter hsuffix hcovers
  have hle := totalDuration_le_of_isSuffix hsuffix
  omega

/-- Another unit in front goes into the window if it is needed there. -/
theorem isWindow_cons_iff :
    IsWindow goal (unit :: units) window
      ↔ goal ≤ totalDuration units ∧ IsWindow goal units window
        ∨ totalDuration units < goal ∧ window = unit :: units := by
  constructor
  · intro h
    have hsuffix := List.suffix_cons_iff.mp h.isSuffix
    by_cases henough : goal ≤ totalDuration units
    · have hlength := h.shortest units (List.suffix_cons unit units) henough
      have hne : window ≠ unit :: units := by
        rintro rfl
        rw [List.length_cons] at hlength
        omega
      refine Or.inl ⟨henough, hsuffix.resolve_left hne,
        Or.inl (h.covers.resolve_right hne), ?_⟩
      intro shorter hshorter
      exact h.shortest shorter (hshorter.trans (List.suffix_cons unit units))
    · refine Or.inr ⟨Nat.lt_of_not_le henough, ?_⟩
      refine hsuffix.resolve_right fun hshorter => ?_
      have hle := totalDuration_le_of_isSuffix hshorter
      rcases h.covers with hcovers | rfl
      · omega
      · have hlength := hshorter.length_le
        rw [List.length_cons] at hlength
        omega
  · rintro (⟨henough, h⟩ | ⟨hshort, rfl⟩)
    · have hcovers : goal ≤ totalDuration window := by
        rcases h.covers with hcovers | rfl
        · exact hcovers
        · exact henough
      refine ⟨h.isSuffix.trans (List.suffix_cons unit units), Or.inl hcovers,
        ?_⟩
      intro shorter hshorter hgoal
      rcases List.suffix_cons_iff.mp hshorter with rfl | hshorter
      · have hlength := h.isSuffix.length_le
        rw [List.length_cons]
        omega
      · exact h.shortest shorter hshorter hgoal
    · refine ⟨List.suffix_refl _, Or.inr rfl, ?_⟩
      intro shorter hshorter hgoal
      rcases List.suffix_cons_iff.mp hshorter with rfl | hshorter
      · exact Nat.le_refl _
      · have hle := totalDuration_le_of_isSuffix hshorter
        omega

theorem exists_window (goal : Nat) (units : List AccessUnit) :
    ∃ window, IsWindow goal units window := by
  induction units with
  | nil =>
      refine ⟨[], List.suffix_refl [], Or.inr rfl, ?_⟩
      intro shorter _ _
      exact Nat.zero_le _
  | cons unit units ih =>
      by_cases henough : goal ≤ totalDuration units
      · obtain ⟨window, hwindow⟩ := ih
        exact ⟨window, isWindow_cons_iff.mpr (Or.inl ⟨henough, hwindow⟩)⟩
      · exact ⟨unit :: units, isWindow_cons_iff.mpr
          (Or.inr ⟨Nat.lt_of_not_le henough, rfl⟩)⟩

end AccessUnit

open AccessUnit (IsWindow isWindow_cons_iff isWindow_self)

-- ========================================================== the sample table

namespace SampleTable

/-- An older sample is looked at if those after it last too short. -/
theorem trailing_concat (goal size duration : Nat) (newer : List Sample)
    (oldest : Sample) :
    trailing goal size duration (newer ++ [oldest])
      = if goal ≤ (trailing goal size duration newer).2 then
          trailing goal size duration newer
        else
          ((trailing goal size duration newer).1 + oldest.size.toNat,
            (trailing goal size duration newer).2
              + oldest.duration.toNat) := by
  induction newer generalizing size duration with
  | nil => rfl
  | cons sample newer ih =>
      rw [List.cons_append, trailing, trailing]
      by_cases henough : goal ≤ duration
      · rw [if_pos henough, if_pos henough, if_pos henough]
      · rw [if_neg henough, if_neg henough]
        exact ih _ _

/-- What is summed up is the window. -/
theorem trailing_window {goal : Nat} {units window : List AccessUnit}
    (h : IsWindow goal units window)
    (hsmall : ∀ unit ∈ units, unit.data.length ≤ maxWord32) :
    trailing goal 0 0 (units.map AccessUnit.sample).reverse
      = ((payload window).length, totalDuration window) := by
  induction units generalizing window with
  | nil =>
      obtain rfl := List.suffix_nil.mp h.isSuffix
      rfl
  | cons unit units ih =>
      have hrest : ∀ other ∈ units, other.data.length ≤ maxWord32 :=
        fun other hother => hsmall other (List.mem_cons_of_mem _ hother)
      rw [List.map_cons, List.reverse_cons, trailing_concat]
      rcases isWindow_cons_iff.mp h with ⟨henough, h⟩ | ⟨hshort, rfl⟩
      · rw [ih h hrest, if_pos]
        rcases h.covers with hcovers | rfl
        · exact hcovers
        · exact henough
      · have hsize : unit.sample.size.toNat = unit.data.length :=
          UInt32.toNat_ofNat_of_lt'
            (Nat.lt_succ_of_le (hsmall unit List.mem_cons_self))
        rw [ih (isWindow_self hshort) hrest, if_neg (Nat.not_le.mpr hshort),
          hsize, Nat.add_comm, Nat.add_comm (totalDuration units)]
        show _ = ((unit.data ++ payload units).length, _)
        rw [List.length_append]
        rfl

end SampleTable

namespace AccessUnit

-- =================================================================== rates

variable {unit : AccessUnit} {units window : List AccessUnit}

/-- The bit rate of some units, in bits a second and at most the largest
32-bit number. -/
def rate (timescale : UInt32) (units : List AccessUnit) : Nat :=
  min 0xffffffff
    (nearest ((payload units).length * 8 * timescale.toNat)
      (totalDuration units))

/-- It is what a table works out for its last second. -/
theorem toNat_trailingBitrate {timescale : UInt32}
    (h : IsWindow timescale.toNat units window)
    (hsmall : ∀ unit ∈ units, unit.data.length ≤ maxWord32) :
    (SampleTable.trailingBitrate ⟨(units.map sample).reverse⟩
        timescale).toNat = rate timescale window := by
  unfold SampleTable.trailingBitrate rate
  rw [SampleTable.trailing_window h hsmall]
  exact toNat_bitrate _ _ _

/-- The bit rates of the last second, at every moment so far. -/
def windowRates (timescale : UInt32) (units : List AccessUnit) : Set Nat :=
  { windowRate | ∃ seen window, seen <+: units
      ∧ IsWindow timescale.toNat seen window
      ∧ windowRate = rate timescale window }

variable {timescale : UInt32} {peak newest bound : Nat}

theorem isGreatest_windowRates_nil (timescale : UInt32) :
    IsGreatest (windowRates timescale []) 0 := by
  have hnone : rate timescale [] = 0 := by
    unfold rate totalDuration
    rw [List.map_nil, List.sum_nil, nearest_zero_right]
    rfl
  obtain ⟨window, hwindow⟩ := exists_window timescale.toNat []
  obtain rfl := List.suffix_nil.mp hwindow.isSuffix
  refine ⟨⟨[], [], List.prefix_refl [], hwindow, hnone.symm⟩, ?_⟩
  rintro _ ⟨seen, window, hseen, hwindow, rfl⟩
  obtain rfl := List.prefix_nil.mp hseen
  obtain rfl := List.suffix_nil.mp hwindow.isSuffix
  exact Nat.le_of_eq hnone

/-- With another unit there is one window more. -/
theorem isGreatest_windowRates_concat
    (h : IsGreatest (windowRates timescale units) peak)
    (hnewest : ∀ window, IsWindow timescale.toNat (units ++ [unit]) window →
      rate timescale window = newest) :
    IsGreatest (windowRates timescale (units ++ [unit]))
      (max peak newest) := by
  constructor
  · rcases Nat.le_total peak newest with hle | hle
    · obtain ⟨window, hwindow⟩ :=
        exists_window timescale.toNat (units ++ [unit])
      rw [Nat.max_eq_right hle]
      exact ⟨_, window, List.prefix_refl _, hwindow,
        (hnewest window hwindow).symm⟩
    · obtain ⟨seen, window, hseen, hwindow, hpeak⟩ := h.1
      rw [Nat.max_eq_left hle]
      exact ⟨seen, window, hseen.trans (List.prefix_append _ _), hwindow,
        hpeak⟩
  · rintro _ ⟨seen, window, hseen, hwindow, rfl⟩
    rcases List.prefix_concat_iff.mp hseen with rfl | hseen
    · rw [hnewest window hwindow]
      exact Nat.le_max_right _ _
    · have hle := h.2 ⟨seen, window, hseen, hwindow, rfl⟩
      exact Nat.le_trans hle (Nat.le_max_left _ _)

-- ==================================================================== means

theorem totalDuration_pos {first : AccessUnit} (hfirst : first.duration ≠ 0)
    (later : List AccessUnit) : 0 < totalDuration (first :: later) := by
  have hpos : 0 < first.duration.toNat := by
    rw [Nat.pos_iff_ne_zero]
    exact fun hzero => hfirst (UInt32.toNat_inj.mp hzero)
  show 0 < first.duration.toNat + totalDuration later
  omega

/-- Two runs of units that keep below a rate do so together. -/
theorem below_append {first second : List AccessUnit} {ticks factor : Nat}
    (hfirst : 2 * ((payload first).length * 8 * ticks)
      < factor * totalDuration first)
    (hsecond : 2 * ((payload second).length * 8 * ticks)
      < factor * totalDuration second) :
    2 * ((payload (first ++ second)).length * 8 * ticks)
      < factor * totalDuration (first ++ second) := by
  rw [payload_append, List.length_append, totalDuration_append, Nat.add_mul,
    Nat.add_mul, Nat.mul_add, Nat.mul_add]
  omega

/-- All that was handed in until some moment has no larger rate than its
windows, as long as the bound is below the largest rate there is. -/
theorem below_of_windowRates (hbound : bound < 0xffffffff)
    (h : ∀ windowRate ∈ windowRates timescale units, windowRate ≤ bound)
    {first : AccessUnit} (hfirst : first.duration ≠ 0)
    {later : List AccessUnit} (hseen : first :: later <+: units) :
    2 * ((payload (first :: later)).length * 8 * timescale.toNat)
      < (2 * bound + 1) * totalDuration (first :: later) := by
  -- The induction is on how many units there are: in front of the window
  -- there are fewer.
  induction hlength : later.length using Nat.strongRecOn
    generalizing later with
  | ind length ih =>
      subst hlength
      have hpos := totalDuration_pos hfirst later
      by_cases hzero : timescale.toNat = 0
      · rw [hzero, Nat.mul_zero, Nat.mul_zero]
        exact Nat.mul_pos (Nat.succ_pos _) hpos
      have hbelow : ∀ window, 0 < totalDuration window →
          IsWindow timescale.toNat (first :: later) window →
          2 * ((payload window).length * 8 * timescale.toNat)
            < (2 * bound + 1) * totalDuration window := by
        intro window hticks hwindow
        have hrate := h _ ⟨_, window, hseen, hwindow, rfl⟩
        unfold rate at hrate
        exact (nearest_le_iff hticks).mp (by omega)
      obtain ⟨window, hwindow⟩ :=
        exists_window timescale.toNat (first :: later)
      obtain ⟨earlier, hsplit⟩ := hwindow.isSuffix
      cases earlier with
      | nil =>
          obtain rfl : window = first :: later := hsplit
          exact hbelow _ hpos hwindow
      | cons unit earlier =>
          rw [List.cons_append] at hsplit
          obtain ⟨rfl, rfl⟩ := List.cons.inj hsplit
          have hcount : (earlier ++ window).length
            = earlier.length + window.length := List.length_append
          have hgoal : timescale.toNat ≤ totalDuration window := by
            refine hwindow.covers.resolve_right fun hall => ?_
            have hlonger := congrArg List.length hall
            rw [List.length_cons] at hlonger
            omega
          have hticks : 0 < totalDuration window := by omega
          have hsome : window ≠ [] := by
            rintro rfl
            exact absurd hticks (Nat.lt_irrefl 0)
          have hlength := List.length_pos_iff.mpr hsome
          have hearlier := ih earlier.length (by omega)
            ((List.prefix_append (unit :: earlier) window).trans hseen) rfl
          have htogether :=
            below_append hearlier (hbelow window hticks hwindow)
          exact htogether

/-- The rate of all units is no larger than the largest of their windows, if
the first unit has a duration. -/
theorem rate_le_of_windowRates
    (h : ∀ windowRate ∈ windowRates timescale units, windowRate ≤ bound)
    (hfirst : ∀ first ∈ units.head?, first.duration ≠ 0) :
    rate timescale units ≤ bound := by
  unfold rate
  by_cases hbound : bound < 0xffffffff
  · cases units with
    | nil =>
        have hnone : totalDuration [] = 0 := rfl
        rw [hnone, nearest_zero_right]
        exact Nat.zero_le _
    | cons first later =>
        have hduration := hfirst first rfl
        have hbelow := below_of_windowRates hbound h hduration
          (List.prefix_refl _)
        have hpos := totalDuration_pos hduration later
        exact Nat.le_trans (Nat.min_le_right _ _)
          ((nearest_le_iff hpos).mpr hbelow)
  · exact Nat.le_trans (Nat.min_le_left _ _) (Nat.le_of_not_lt hbound)

end AccessUnit

end AudioMux
