/-
Merged numbers: what becomes of the numbers of tracks and discs that are
given in several tags.

A tag counts tracks, or discs, or neither (`counted?`). Merging puts each
tag that counts into the slot of what it counts and leaves the others alone
(`mergeNumbering_eq`). In such a slot the number is the last one that is not
zero, and so is the total, each by itself (`mergeAll_merge`).
-/
import AudioMux.Proofs.Slots
import AudioMux.Tag.Numbering

namespace AudioMux

/-- What has a number and a total. -/
inductive Counted where
  | track
  | disc
  deriving DecidableEq, Repr

/-- The tag of a number and a total. -/
def Counted.tag : Counted → UInt16 → UInt16 → Tag
  | .track => .track
  | .disc => .disc

/-- The last number that is not zero, or zero if there is none. -/
def lastNonzero (numbers : List UInt16) : UInt16 :=
  (numbers.filter (· ≠ 0)).getLast?.getD 0

theorem lastNonzero_concat (numbers : List UInt16) (number : UInt16) :
    lastNonzero (numbers ++ [number])
      = Tag.laterNumber (lastNonzero numbers) number := by
  unfold lastNonzero Tag.laterNumber
  by_cases hzero : number = 0
  · simp [hzero]
  · simp [hzero]

namespace Tag

/-- What a tag counts, if anything. -/
def counted? : Tag → Option Counted
  | .track _ _ => some .track
  | .disc _ _ => some .disc
  | _ => none

/-- The number in a tag that counts. -/
def statedNumber : Tag → UInt16
  | .track number _ | .disc number _ => number
  | _ => 0

/-- The total in a tag that counts. -/
def statedTotal : Tag → UInt16
  | .track _ total | .disc _ total => total
  | _ => 0

/-- Two tags in one, if they count the same. -/
def merge (earlier later : Tag) : Tag :=
  (mergeWith? earlier later).getD earlier

theorem counted?_eq_some_iff {tag : Tag} {kind : Counted} :
    tag.counted? = some kind ↔ tag = kind.tag tag.statedNumber tag.statedTotal := by
  cases tag <;> cases kind <;>
    simp [counted?, Counted.tag, statedNumber, statedTotal]

@[simp] theorem counted?_tag (kind : Counted) (number total : UInt16) :
    (kind.tag number total).counted? = some kind := by
  cases kind <;> rfl

theorem mergeWith?_tag (kind : Counted)
    (number total number' total' : UInt16) :
    mergeWith? (kind.tag number total) (kind.tag number' total')
      = some (kind.tag (laterNumber number number')
          (laterNumber total total')) := by
  cases kind <;> rfl

theorem mergeWith?_eq_none {earlier later : Tag}
    (h : later.counted? = none ∨ earlier.counted? ≠ later.counted?) :
    mergeWith? earlier later = none := by
  cases earlier <;> cases later <;>
    first | rfl | simp [counted?] at h

theorem keepsKey_merge : Slots.KeepsKey counted? merge := by
  intro earlier later hsame
  cases hkind : earlier.counted? with
  | none =>
      have hnone : mergeWith? earlier later = none :=
        mergeWith?_eq_none (Or.inl (hsame.symm.trans hkind))
      rw [merge, hnone]
      exact hkind
  | some kind =>
      rw [counted?_eq_some_iff.mp hkind,
        counted?_eq_some_iff.mp (hsame.symm.trans hkind), merge,
        mergeWith?_tag, Option.getD_some, counted?_tag]

/-- A tag is merged into the slot of what it counts. -/
theorem mergeInto_eq (tag : Tag) (tags : List Tag) :
    mergeInto tag tags = Slots.put counted? merge tag tags := by
  induction tags with
  | nil => rfl
  | cons earlier rest ih =>
      unfold mergeInto Slots.put
      rw [ih]
      by_cases hmerge : tag.counted? ≠ none
          ∧ earlier.counted? = tag.counted?
      · obtain ⟨hsome, hsame⟩ := hmerge
        obtain ⟨kind, hkind⟩ := Option.ne_none_iff_exists'.mp hsome
        rw [if_pos ⟨hsome, hsame⟩, merge,
          counted?_eq_some_iff.mp hkind,
          counted?_eq_some_iff.mp (hsame.trans hkind), mergeWith?_tag]
        rfl
      · have hnone : mergeWith? earlier tag = none := by
          apply mergeWith?_eq_none
          by_cases hnone : tag.counted? = none
          · exact Or.inl hnone
          · exact Or.inr fun hsame => hmerge ⟨hnone, hsame⟩
        rw [if_neg hmerge, hnone]

theorem mergeNumbering_eq (tags : List Tag) :
    mergeNumbering tags = Slots.slots counted? merge tags := by
  rw [← Slots.foldl_put keepsKey_merge]
  unfold mergeNumbering
  simp only [mergeInto_eq]

theorem merge_tag (kind : Counted) (number total : UInt16) {later : Tag}
    (h : later.counted? = some kind) :
    merge (kind.tag number total) later
      = kind.tag (laterNumber number later.statedNumber)
          (laterNumber total later.statedTotal) := by
  rw [counted?_eq_some_iff.mp h, merge, mergeWith?_tag]
  cases kind <;> rfl

/-- The last number and the last total that are not zero, if any of some
tags are of this kind. -/
def numbers? (kind : Counted) (tags : List Tag) :
    Option (UInt16 × UInt16) :=
  let same := Slots.withKey counted? kind tags
  if same = [] then none
  else some (lastNonzero (same.map statedNumber),
    lastNonzero (same.map statedTotal))

/-- Numbers and totals are put together each by itself, and zeros count for
nothing. -/
theorem mergeAll_merge (kind : Counted) (tags : List Tag) :
    Slots.mergeAll merge (Slots.withKey counted? kind tags)
      = (numbers? kind tags).map fun (number, total) =>
          kind.tag number total := by
  have hall : ∀ tag ∈ Slots.withKey counted? kind tags,
      tag.counted? = some kind := by
    intro tag htag
    simpa using (List.mem_filter.mp htag).2
  unfold numbers?
  dsimp only
  generalize Slots.withKey counted? kind tags = same at hall
  induction same using List.reverseRecOn with
  | nil => rfl
  | append_singleton same tag ih =>
      have htag := hall tag (by simp)
      have hearlier := ih fun other hother =>
        hall other (List.mem_append_left _ hother)
      have hsome : same ++ [tag] ≠ [] := by simp
      rw [Slots.mergeAll_concat, hearlier, if_neg hsome,
        List.map_append, List.map_append, List.map_singleton,
        List.map_singleton, lastNonzero_concat, lastNonzero_concat]
      by_cases hempty : same = []
      · have hzero : ∀ n, laterNumber (lastNonzero []) n = n := by
          intro n
          unfold laterNumber
          split
          · next h => exact h.symm
          · rfl
        rw [if_pos hempty, hempty, List.map_nil, List.map_nil, hzero, hzero]
        exact congrArg some (counted?_eq_some_iff.mp htag)
      · rw [if_neg hempty]
        exact congrArg some (merge_tag kind _ _ htag)

end Tag

end AudioMux
