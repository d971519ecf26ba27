/-
Which texts spell a number, and what is taken off a text around it.

White space is told by its code points (`IsWhite`). What trimming leaves of a
text is the one part of it that stands between white space and has none at
its ends (`trim_eq_iff`). A reader of numbers takes exactly the texts that
consist of decimal digits, with or without a plus sign in front, and whose
value it can take (`unsigned?_eq_some_iff`). Digits and signs are no white
space, so between white space there is one number at most (`gives_iff`). A
text that is cut in two is cut at the first place where the separator stands
(`splitFirst_eq_some_iff`).
-/
import Mathlib.Data.List.TakeWhile
import AudioMux.Text.Words

namespace AudioMux.Text

-- ============================================================= white space

/-- White space, by its numbers in Unicode. -/
def IsWhite (c : Char) : Prop :=
  c.toNat ∈ [0x9, 0xa, 0xb, 0xc, 0xd, 0x20, 0x85, 0xa0, 0x1680, 0x2000, 0x2001,
    0x2002, 0x2003, 0x2004, 0x2005, 0x2006, 0x2007, 0x2008, 0x2009, 0x200a,
    0x2028, 0x2029, 0x202f, 0x205f, 0x3000]

instance (c : Char) : Decidable (IsWhite c) :=
  inferInstanceAs (Decidable (_ ∈ _))

/-- The text is `inner` with nothing but white space around it. -/
def Wraps (text inner : String) : Prop :=
  ∃ front back : List Char, text.toList = front ++ inner.toList ++ back
    ∧ (∀ c ∈ front, IsWhite c) ∧ ∀ c ∈ back, IsWhite c

/-- There is no white space at either end. -/
def IsBare (text : String) : Prop :=
  (∀ c ∈ text.toList.head?, ¬ IsWhite c)
    ∧ ∀ c ∈ text.toList.getLast?, ¬ IsWhite c

theorem isBlank_iff {c : Char} : isBlank c = true ↔ IsWhite c := by
  unfold isBlank IsWhite
  simp only [Bool.or_eq_true, Bool.and_eq_true, decide_eq_true_eq,
    beq_iff_eq, List.mem_cons, List.not_mem_nil, or_false]
  omega

/-- What is left behind a front of which everything is dropped. -/
theorem dropWhile_eq_iff {α : Type} {p : α → Bool} {all rest : List α} :
    all.dropWhile p = rest
      ↔ (∃ front, all = front ++ rest ∧ ∀ a ∈ front, p a = true)
        ∧ ∀ a ∈ rest.head?, ¬ p a = true := by
  constructor
  · rintro rfl
    refine ⟨⟨all.takeWhile p, List.takeWhile_append_dropWhile.symm,
      fun a ha => List.mem_takeWhile_imp ha⟩, fun a ha => ?_⟩
    have hhead := List.head?_dropWhile_not p all
    rw [Option.mem_def.mp ha] at hhead
    simp [hhead]
  · rintro ⟨⟨front, rfl, hfront⟩, hrest⟩
    rw [List.dropWhile_append_of_pos hfront]
    cases rest with
    | nil => rfl
    | cons a rest => exact List.dropWhile_cons_of_neg (hrest a rfl)

/-- Trimming leaves the part between the white space at the ends. -/
theorem trim_eq_iff {text inner : String} :
    trim text = inner ↔ Wraps text inner ∧ IsBare inner := by
  have htrim : trim text = inner
      ↔ (text.toList.dropWhile isBlank).reverse.dropWhile isBlank
        = inner.toList.reverse := by
    unfold trim
    rw [← String.toList_inj, String.toList_ofList, List.reverse_eq_iff]
  rw [htrim, dropWhile_eq_iff, List.head?_reverse]
  simp only [isBlank_iff]
  unfold Wraps IsBare
  constructor
  · rintro ⟨⟨back, hback, hwhite⟩, hlast⟩
    obtain ⟨⟨front, htext, hfront⟩, hhead⟩ :=
      dropWhile_eq_iff.mp (List.reverse_eq_iff.mp hback)
    simp only [isBlank_iff] at hfront hhead
    rw [List.reverse_append, List.reverse_reverse] at htext hhead
    refine ⟨⟨front, back.reverse, ?_, hfront, ?_⟩, ?_, hlast⟩
    · rw [htext, List.append_assoc]
    · intro c hc
      exact hwhite c (List.mem_reverse.mp hc)
    · intro c hc
      refine hhead c ?_
      rw [List.head?_append, Option.mem_def.mp hc]
      rfl
  · rintro ⟨⟨front, back, htext, hfront, hback⟩, hhead, hlast⟩
    refine ⟨?_, hlast⟩
    generalize inner.toList = middle at htext hhead
    rw [htext]
    cases middle with
    | nil =>
        -- Then all is white space, and nothing is left on the way.
        have hall : ∀ c ∈ front ++ [] ++ back, isBlank c = true := by
          intro c hc
          rw [List.append_nil, List.mem_append] at hc
          exact isBlank_iff.mpr (hc.elim (hfront c) (hback c))
        rw [List.dropWhile_eq_nil_iff.mpr hall]
        exact ⟨[], rfl, nofun⟩
    | cons a rest =>
        have hleft : (front ++ (a :: rest) ++ back).dropWhile isBlank
            = a :: rest ++ back := by
          refine dropWhile_eq_iff.mpr ⟨⟨front, List.append_assoc .., ?_⟩, ?_⟩
          · exact fun c hc => isBlank_iff.mpr (hfront c hc)
          · exact fun c hc => mt isBlank_iff.mp (hhead c hc)
        refine ⟨back.reverse, ?_, fun c hc => ?_⟩
        · rw [hleft, List.reverse_append]
        · exact hback c (List.mem_reverse.mp hc)

-- ================================================================= numbers

/-- A decimal digit of ASCII. -/
def IsDigit (c : Char) : Prop := '0' ≤ c ∧ c ≤ '9'

instance (c : Char) : Decidable (IsDigit c) :=
  inferInstanceAs (Decidable (_ ∧ _))

/-- The value of decimal digits behind a number, most significant first. -/
def digitsValue (n : Nat) (digits : List Char) : Nat :=
  digits.foldl (fun n c => n * 10 + (c.toNat - '0'.toNat)) n

/-- The text is decimal digits for a number, maybe behind a plus sign. -/
def Spells (text : String) (n : Nat) : Prop :=
  ∃ digits : List Char, digits ≠ [] ∧ (∀ c ∈ digits, IsDigit c)
    ∧ (text.toList = digits ∨ text.toList = '+' :: digits)
    ∧ n = digitsValue 0 digits

/-- Between white space the text spells a number of at most `max`. -/
def Gives (max : Nat) (text : String) (n : Nat) : Prop :=
  (∃ inner, Wraps text inner ∧ Spells inner n) ∧ n ≤ max

theorem digits?_eq_some_iff {n m : Nat} {digits : List Char} :
    digits? n digits = some m
      ↔ (∀ c ∈ digits, IsDigit c) ∧ m = digitsValue n digits := by
  induction digits generalizing n with
  | nil =>
      constructor
      · rintro ⟨⟩
        exact ⟨nofun, rfl⟩
      · rintro ⟨_, rfl⟩
        rfl
  | cons c rest ih =>
      unfold digits? digit?
      by_cases hdigit : IsDigit c
      · have hif : (if '0' ≤ c ∧ c ≤ '9' then some (c.toNat - '0'.toNat)
            else none) = some (c.toNat - '0'.toNat) := if_pos hdigit
        rw [hif]
        show digits? (n * 10 + (c.toNat - '0'.toNat)) rest = some m ↔ _
        rw [ih, List.forall_mem_cons]
        simp [hdigit, digitsValue]
      · have hif : (if '0' ≤ c ∧ c ≤ '9' then some (c.toNat - '0'.toNat)
            else none) = none := if_neg hdigit
        rw [hif, List.forall_mem_cons]
        simp [hdigit]

/-- The digits of a text, behind a plus sign if there is one. -/
def digitsOf (text : String) : List Char :=
  match text.toList with
  | '+' :: rest => rest
  | all => all

theorem unsigned?_eq (max : Nat) (text : String) :
    unsigned? max text = if digitsOf text = [] then none
      else (digits? 0 (digitsOf text)).bind fun n =>
        if n ≤ max then some n else none := by
  have hguard : unsigned? max text
      = Option.bind (guard (!(digitsOf text).isEmpty)) fun _ =>
        (digits? 0 (digitsOf text)).bind fun n =>
          Option.bind (guard (n ≤ max)) fun _ => some n := rfl
  rw [hguard]
  by_cases hempty : digitsOf text = []
  · rw [if_pos hempty, hempty]
    rfl
  · have hpass : (guard (!(digitsOf text).isEmpty) : Option Unit)
        = some () := if_pos (by simpa using hempty)
    rw [if_neg hempty, hpass, Option.bind_some]
    congr 1
    funext n
    by_cases hle : n ≤ max
    · have hin : (guard (n ≤ max) : Option Unit) = some () := if_pos hle
      rw [if_pos hle, hin, Option.bind_some]
    · have hout : (guard (n ≤ max) : Option Unit) = none := if_neg hle
      rw [if_neg hle, hout, Option.bind_none]

/-- A sign is no digit, so a text has the digits it spells a number with. -/
theorem spells_iff {text : String} {n : Nat} :
    Spells text n ↔ digitsOf text ≠ []
      ∧ (∀ c ∈ digitsOf text, IsDigit c)
      ∧ n = digitsValue 0 (digitsOf text) := by
  unfold Spells digitsOf
  constructor
  · rintro ⟨digits, hne, hdigits, htext | htext, hn⟩
    · rw [htext]
      cases digits with
      | nil => exact absurd rfl hne
      | cons c rest =>
          have hsign : c ≠ '+' := by
            rintro rfl
            exact absurd (hdigits '+' List.mem_cons_self) (by decide)
          split
          · next rest' hcons =>
            exact absurd (List.cons.inj hcons).1 hsign
          · exact ⟨hne, hdigits, hn⟩
    · rw [htext]
      exact ⟨hne, hdigits, hn⟩
  · split
    · next rest htext =>
      rintro ⟨hne, hdigits, hn⟩
      exact ⟨rest, hne, hdigits, Or.inr htext, hn⟩
    · rintro ⟨hne, hdigits, hn⟩
      exact ⟨text.toList, hne, hdigits, Or.inl rfl, hn⟩

/-- A number is read from the texts that spell it, if it is small enough, and
from no others. -/
theorem unsigned?_eq_some_iff {max n : Nat} {text : String} :
    unsigned? max text = some n ↔ Spells text n ∧ n ≤ max := by
  rw [unsigned?_eq, spells_iff]
  generalize digitsOf text = digits
  by_cases hempty : digits = []
  · simp [hempty]
  rw [if_neg hempty, Option.bind_eq_some_iff]
  constructor
  · rintro ⟨m, hvalue, hle⟩
    obtain ⟨hdigits, hm⟩ := digits?_eq_some_iff.mp hvalue
    obtain ⟨hmax, rfl⟩ : m ≤ max ∧ m = n := by simpa using hle
    exact ⟨⟨hempty, hdigits, hm⟩, hmax⟩
  · rintro ⟨⟨-, hdigits, hn⟩, hle⟩
    exact ⟨n, digits?_eq_some_iff.mpr ⟨hdigits, hn⟩, if_pos hle⟩

theorem not_isWhite_of_isDigit {c : Char} (h : IsDigit c) :
    ¬ IsWhite c := by
  have hlo : 48 ≤ c.toNat := UInt32.le_iff_toNat_le.mp h.1
  have hhi : c.toNat ≤ 57 := UInt32.le_iff_toNat_le.mp h.2
  unfold IsWhite
  simp only [List.mem_cons, List.not_mem_nil, or_false]
  omega

/-- There is no white space in a number. -/
theorem Spells.isBare {text : String} {n : Nat} (h : Spells text n) :
    IsBare text := by
  obtain ⟨digits, -, hdigits, htext, -⟩ := h
  have hnone : ∀ c ∈ text.toList, ¬ IsWhite c := by
    intro c hc
    rcases htext with hplain | hsigned
    · rw [hplain] at hc
      exact not_isWhite_of_isDigit (hdigits c hc)
    · rw [hsigned] at hc
      rcases List.mem_cons.mp hc with rfl | hdigit
      · decide
      · exact not_isWhite_of_isDigit (hdigits c hdigit)
  exact ⟨fun c hc => hnone c (List.mem_of_mem_head? hc),
    fun c hc => hnone c (List.mem_of_mem_getLast? hc)⟩

/-- A text gives the number that is read from it once it has been trimmed. -/
theorem gives_iff {max n : Nat} {text : String} :
    Gives max text n ↔ unsigned? max (trim text) = some n := by
  rw [unsigned?_eq_some_iff]
  unfold Gives
  constructor
  · rintro ⟨⟨inner, hwraps, hspells⟩, hle⟩
    rw [trim_eq_iff.mpr ⟨hwraps, hspells.isBare⟩]
    exact ⟨hspells, hle⟩
  · rintro ⟨hspells, hle⟩
    exact ⟨⟨trim text, (trim_eq_iff.mp rfl).1, hspells⟩, hle⟩

instance (max : Nat) (text : String) (n : Nat) :
    Decidable (Gives max text n) :=
  decidable_of_iff _ gives_iff.symm

/-- A text without digits gives no number. -/
theorem Gives.ne_empty {max n : Nat} {text : String}
    (h : Gives max text n) : text ≠ "" := by
  rintro rfl
  have hread : unsigned? max (trim "") = some n := gives_iff.mp h
  cases hread

-- ================================================================== cutting

section
variable {separator : Char} {text before after : String}

theorem splitFirst_eq_some_iff :
    splitFirst separator text = some (before, after)
      ↔ text.toList = before.toList ++ separator :: after.toList
        ∧ separator ∉ before.toList := by
  have hparts := List.takeWhile_append_dropWhile
    (p := fun c => decide (c ≠ separator)) (l := text.toList)
  have hhead := List.head?_dropWhile_not
    (fun c => decide (c ≠ separator)) text.toList
  unfold splitFirst
  constructor
  · intro h
    split at h
    · cases h
    · next c rest hrest =>
      cases h
      rw [hrest] at hparts hhead
      obtain rfl : c = separator := by simpa using hhead
      rw [String.toList_ofList, String.toList_ofList]
      refine ⟨hparts.symm, fun hmem => ?_⟩
      simpa using List.mem_takeWhile_imp hmem
  · rintro ⟨htext, hnotin⟩
    have hall : ∀ c ∈ before.toList, decide (c ≠ separator) = true := by
      intro c hc
      refine decide_eq_true ?_
      rintro rfl
      exact hnotin hc
    rw [htext, List.dropWhile_append_of_pos hall,
      List.takeWhile_append_of_pos hall]
    simp

theorem splitFirst_eq_none_iff :
    splitFirst separator text = none ↔ separator ∉ text.toList := by
  have hnil : splitFirst separator text = none
      ↔ text.toList.dropWhile (· ≠ separator) = [] := by
    unfold splitFirst
    dsimp only
    split
    · next h => exact iff_of_true rfl h
    · next c rest h =>
      rw [h]
      exact iff_of_false (Option.some_ne_none _) (List.cons_ne_nil c rest)
  rw [hnil, List.dropWhile_eq_nil_iff]
  constructor
  · intro hall hmem
    simpa using hall separator hmem
  · intro hnotin c hc
    refine decide_eq_true ?_
    rintro rfl
    exact hnotin hc

end

/-- The two numbers of 16 bits that a text gives: the one it spells and zero,
or the ones on either side of its first slash. -/
def GivesPair (text : String) (number total : Nat) : Prop :=
  ('/' ∉ text.toList ∧ Gives 0xffff text number ∧ total = 0)
    ∨ ∃ before after : String,
      text.toList = before.toList ++ '/' :: after.toList
        ∧ '/' ∉ before.toList
        ∧ Gives 0xffff before number ∧ Gives 0xffff after total

section
variable {text : String} {number total : Nat}

theorem givesPair_of_no_slash (h : splitFirst '/' text = none) :
    GivesPair text number total ↔ Gives 0xffff text number ∧ total = 0 := by
  have hslash := splitFirst_eq_none_iff.mp h
  unfold GivesPair
  constructor
  · rintro (⟨-, hgives⟩ | ⟨before, after, htext, -⟩)
    · exact hgives
    · rw [htext] at hslash
      exact absurd (List.mem_append_right _ List.mem_cons_self) hslash
  · exact fun hgives => Or.inl ⟨hslash, hgives⟩

theorem givesPair_of_slash {before after : String}
    (h : splitFirst '/' text = some (before, after)) :
    GivesPair text number total
      ↔ Gives 0xffff before number ∧ Gives 0xffff after total := by
  obtain ⟨htext, hbefore⟩ := splitFirst_eq_some_iff.mp h
  unfold GivesPair
  constructor
  · rintro (⟨hslash, -⟩ | ⟨before', after', hcut, hbefore', hgives⟩)
    · rw [htext] at hslash
      exact absurd (List.mem_append_right _ List.mem_cons_self) hslash
    · cases h.symm.trans (splitFirst_eq_some_iff.mpr ⟨hcut, hbefore'⟩)
      exact hgives
  · exact fun hgives => Or.inr ⟨before, after, htext, hbefore, hgives⟩

theorem GivesPair.le (h : GivesPair text number total) :
    number ≤ 0xffff ∧ total ≤ 0xffff := by
  rcases h with ⟨-, ⟨-, hnumber⟩, rfl⟩
    | ⟨_, _, -, -, ⟨-, hnumber⟩, -, htotal⟩
  · exact ⟨hnumber, Nat.zero_le _⟩
  · exact ⟨hnumber, htotal⟩

theorem GivesPair.ne_empty (h : GivesPair text number total) :
    text ≠ "" := by
  rcases h with ⟨-, hgives, -⟩ | ⟨before, after, htext, -⟩
  · exact hgives.ne_empty
  · rintro rfl
    exact List.cons_ne_nil _ _ (List.append_eq_nil_iff.mp htext.symm).2

end

end AudioMux.Text
