/-
What is stored for a text, byte by byte.

The code of an item, told by its characters, says how the item's value is
laid out in the file (`Layout.ofCode`): as a number of some width, as a number
and a total packed into words of 16 bits, or as text. What a text stores
(`Layout.Stores`) is said from the side of a reader, who finds bytes and wants
the number back that the text spells. A text that stores nothing of that kind
is refused, and no number is ever cut down to its width
(`stored_ofText_iff`).

Only one string of bytes of a length spells a number
(`Box.bigEndian_toNat`), so what a reader finds settles what the bytes are.
-/
import AudioMux.Proofs.Box.Walk
import AudioMux.Proofs.Tag.Named

namespace AudioMux

-- =================================================================== bytes

namespace Bytes

/-- Bytes spell a number that fits their length if they are what is written
for it. -/
theorem length_eq_and_toNat_eq_iff {bytes : Bytes} {width n : Nat}
    (h : n < 256 ^ width) :
    bytes.length = width ∧ toNat bytes = n ↔ bytes = bigEndian width n := by
  constructor
  · rintro ⟨rfl, rfl⟩
    exact (Box.bigEndian_toNat bytes).symm
  · rintro rfl
    exact ⟨length_bigEndian width n, Box.toNat_bigEndian_of_lt h⟩

/-- The words of 16 bits that bytes consist of. -/
def words16? : Bytes → Option (List Nat)
  | [] => some []
  | [_] => none
  | high :: low :: rest => (words16? rest).map (toNat [high, low] :: ·)

theorem words16?_word16_append (word : UInt16) (rest : Bytes) :
    words16? (word16 word ++ rest)
      = (words16? rest).map (word.toNat :: ·) := by
  have hlt : word.toNat < 256 ^ 2 := word.toNat_lt
  have hvalue := (length_eq_and_toNat_eq_iff hlt).mpr
    (rfl : word16 word = bigEndian 2 word.toNat)
  obtain ⟨high, low, hword⟩ := List.length_eq_two.mp hvalue.1
  rw [hword] at hvalue ⊢
  show (words16? rest).map (toNat [high, low] :: ·) = _
  rw [hvalue.2]

/-- Bytes that consist of the same words are the same. -/
theorem words16?_inj {bytes bytes' : Bytes} {words : List Nat}
    (h : words16? bytes = some words) (h' : words16? bytes' = some words) :
    bytes = bytes' := by
  induction words generalizing bytes bytes' with
  | nil =>
      have hnil : ∀ bytes, words16? bytes = some [] → bytes = [] := by
        intro bytes hwords
        unfold words16? at hwords
        split at hwords
        · rfl
        · cases hwords
        · simp at hwords
      rw [hnil bytes h, hnil bytes' h']
  | cons word words ih =>
      have hcons : ∀ bytes, words16? bytes = some (word :: words) →
          ∃ rest, bytes = bigEndian 2 word ++ rest
            ∧ words16? rest = some words := by
        intro bytes hwords
        unfold words16? at hwords
        split at hwords
        · cases hwords
        · cases hwords
        · next high low rest =>
          obtain ⟨_, hrest, hsame⟩ := Option.map_eq_some_iff.mp hwords
          cases hsame
          refine ⟨rest, ?_, hrest⟩
          have hword := Box.bigEndian_toNat [high, low]
          exact (congrArg (· ++ rest) hword).symm
      obtain ⟨rest, rfl, hrest⟩ := hcons bytes h
      obtain ⟨rest', rfl, hrest'⟩ := hcons bytes' h'
      rw [ih hrest hrest']

end Bytes

open Text (Gives GivesPair)

-- ================================================================= layouts

/-- How the value of an item is laid out in a file. -/
inductive Layout where
  /-- A number of so many bytes. -/
  | number (width : Nat) (type : DataType)
  /-- A number and a total. -/
  | numbered (kind : Counted)
  /-- A total that is given on its own, and belongs to a number. -/
  | total (kind : Counted)
  | text
  /-- Nothing is stored under a code without a name. -/
  | nameless

/-- How the value of the item of a code is laid out. -/
def Layout.ofCode (code : FourCC) : Layout :=
  if code = .ofChars '\x00' 't' 'r' 't' then .total .track
  else if code = .ofChars '\x00' 'd' 's' 't' then .total .disc
  else if code = .ofChars 't' 'r' 'k' 'n' then .numbered .track
  else if code = .ofChars 'd' 'i' 's' 'k' then .numbered .disc
  else if code = .ofChars 'g' 'n' 'r' 'e' then .number 2 .implicit
  else if code = .ofChars 't' 'm' 'p' 'o' then .number 2 .integer
  else if code ∈ Tag.byteItems then .number 1 .integer
  else if code ∈ Tag.word32Items then .number 4 .integer
  else if code ∈ Tag.word64Items then .number 8 .integer
  else if code = .ofChars '-' '-' '-' '-' then .nameless
  else .text

/-- The words of a number and a total in the item that holds both. -/
def Counted.words : Counted → Nat → Nat → List Nat
  | .track, number, total => [0, number, total, 0]
  | .disc, number, total => [0, number, total]

/-- What a reader finds under a code if a text is stored in this layout: the
number that the text spells, at its full width, or the text as it is. -/
def Layout.Stores (code : FourCC) (text : String)
    (stored? : Option TagEntry) : Layout → Prop
  | .number width type => ∃ n data, Gives (256 ^ width - 1) text n
    ∧ stored? = some ⟨.code code, type, data⟩
    ∧ data.length = width ∧ Bytes.toNat data = n
  | .numbered kind => ∃ number total data, GivesPair text number total
    ∧ stored? = some ⟨kind.key, .implicit, data⟩
    ∧ Bytes.words16? data = some (kind.words number total)
  | .total kind => ∃ total data, Gives 0xffff text total
    ∧ stored? = some ⟨kind.key, .implicit, data⟩
    ∧ Bytes.words16? data = some (kind.words 0 total)
  | .text => stored?
    = if text = "" then none
      else some ⟨.code code, .utf8, Bytes.ofText text⟩
  | .nameless => False

namespace Tag

-- ================================================================ encoding

/-- The entry of a number and a total holds both, as words. -/
theorem words16?_entry (kind : Counted) {number total : Nat}
    (hnumber : number ≤ 0xffff) (htotal : total ≤ 0xffff) :
    Bytes.words16? (kind.entry (UInt16.ofNat number)
        (UInt16.ofNat total)).data
      = some (kind.words number total) := by
  have hnumber' : (UInt16.ofNat number).toNat = number :=
    UInt16.toNat_ofNat_of_lt' (Nat.lt_succ_of_le hnumber)
  have htotal' : (UInt16.ofNat total).toNat = total :=
    UInt16.toNat_ofNat_of_lt' (Nat.lt_succ_of_le htotal)
  have hzeros : Bytes.zeros 2 = Bytes.word16 0 := rfl
  cases kind with
  | track =>
      show Bytes.words16? (Bytes.zeros 2 ++ _ ++ _ ++ Bytes.zeros 2) = _
      simp only [hzeros, List.append_assoc, Bytes.words16?_word16_append]
      rw [hnumber', htotal']
      rfl
  | disc =>
      show Bytes.words16? (Bytes.zeros 2 ++ _ ++ Bytes.word16 _) = _
      rw [← List.append_nil (Bytes.zeros 2 ++ _ ++ _)]
      simp only [hzeros, List.append_assoc, Bytes.words16?_word16_append]
      rw [hnumber', htotal']
      rfl

/-- A tag that counts is stored if the reader finds its words. -/
theorem encode_counted_iff (kind : Counted) {number total : Nat}
    (hnumber : number ≤ 0xffff) (htotal : total ≤ 0xffff)
    {stored? : Option TagEntry} :
    (kind.tag (UInt16.ofNat number) (UInt16.ofNat total)).encode
        = .ok stored?
      ↔ ∃ data, stored? = some ⟨kind.key, .implicit, data⟩
        ∧ Bytes.words16? data = some (kind.words number total) := by
  have hwords := words16?_entry kind hnumber htotal
  have hencode : (kind.tag (UInt16.ofNat number)
      (UInt16.ofNat total)).encode
    = .ok (some (kind.entry (UInt16.ofNat number) (UInt16.ofNat total))) := by
    cases kind <;> rfl
  have hentry : kind.entry (UInt16.ofNat number) (UInt16.ofNat total)
      = ⟨kind.key, .implicit, (kind.entry (UInt16.ofNat number)
          (UInt16.ofNat total)).data⟩ := by
    cases kind <;> rfl
  rw [hencode]
  constructor
  · rintro ⟨⟩
    exact ⟨_, congrArg some hentry, hwords⟩
  · rintro ⟨data, rfl, hdata⟩
    rw [Bytes.words16?_inj hdata hwords, ← hentry]

theorem entryOf_bigEndian (key : TagKey) (type : DataType) {width : Nat}
    (hwidth : 0 < width) (n : Nat) :
    entryOf key type (Bytes.bigEndian width n)
      = some ⟨key, type, Bytes.bigEndian width n⟩ := by
  have hdata : Bytes.bigEndian width n ≠ [] :=
    List.ne_nil_of_length_pos (by rw [Bytes.length_bigEndian]; exact hwidth)
  simp [entryOf, hdata]

/-- How the text of an item is read, against how its value is laid out. -/
inductive LaidOut (code : FourCC) : Layout → Reading → Prop where
  | number {width : Nat} {type : DataType} {ofNumber : Nat → Tag}
      (hencode : ∀ n, n < 256 ^ width → (ofNumber n).encode
        = .ok (some ⟨.code code, type, Bytes.bigEndian width n⟩)) :
      LaidOut code (.number width type) (.number (256 ^ width - 1) ofNumber)
  | numbered (kind : Counted) : LaidOut code (.numbered kind) (.numbered kind)
  | total (kind : Counted) : LaidOut code (.total kind) (.total kind)
  | text (halone : StandsAlone code) : LaidOut code .text .text
  | nameless (hfree : ¬ StandsAlone code) : LaidOut code .nameless .text

/-- A choice between layouts that is one between readings too. -/
theorem LaidOut.ite {code : FourCC} {c : Prop} [Decidable c]
    {layout layout' : Layout} {how how' : Reading}
    (hpos : c → LaidOut code layout how)
    (hneg : ¬ c → LaidOut code layout' how') :
    LaidOut code (if c then layout else layout') (if c then how else how') := by
  by_cases h : c
  · rw [if_pos h, if_pos h]
    exact hpos h
  · rw [if_neg h, if_neg h]
    exact hneg h

theorem laidOut (code : FourCC) :
    LaidOut code (Layout.ofCode code) (reading code) := by
  -- The codes of numbers stand alone, so only the bytes differ.
  have hstored : ∀ {type : DataType} {data : Bytes} {width n : Nat},
      0 < width → StandsAlone code → data = Bytes.bigEndian width n →
      (do pure (entryOf (← keyOfCode code) type data)
        : Except Failure (Option TagEntry))
        = .ok (some ⟨.code code, type, Bytes.bigEndian width n⟩) := by
    rintro type data width n hwidth halone rfl
    rw [keyed_of_standsAlone halone, entryOf_bigEndian _ _ hwidth]
  have halone₁ : ∀ code ∈ byteItems, StandsAlone code := by decide
  have halone₄ : ∀ code ∈ word32Items, StandsAlone code := by decide
  have halone₈ : ∀ code ∈ word64Items, StandsAlone code := by decide
  refine .ite (fun _ => .total .track) fun htrack => ?_
  refine .ite (fun _ => .total .disc) fun hdisc => ?_
  refine .ite (fun _ => .numbered .track) fun _ => ?_
  refine .ite (fun _ => .numbered .disc) fun _ => ?_
  refine .ite (fun hgenre => ?_) fun _ => ?_
  · subst hgenre
    refine .number fun n (hn : n < 256 ^ 2) =>
      hstored (by decide) (by decide) ?_
    exact congrArg (Bytes.bigEndian 2) (UInt16.toNat_ofNat_of_lt' hn)
  refine .ite (fun htempo => ?_) fun _ => ?_
  · subst htempo
    refine .number fun n (hn : n < 256 ^ 2) =>
      hstored (by decide) (by decide) ?_
    exact congrArg (Bytes.bigEndian 2) (UInt16.toNat_ofNat_of_lt' hn)
  refine .ite (fun h₁ => ?_) fun _ => ?_
  · exact .number fun n hn => hstored (by decide) (halone₁ code h₁) rfl
  refine .ite (fun h₄ => ?_) fun _ => ?_
  · refine .number fun n hn => hstored (by decide) (halone₄ code h₄) ?_
    exact congrArg (Bytes.bigEndian 4) (UInt32.toNat_ofNat_of_lt' hn)
  refine .ite (fun h₈ => ?_) fun _ => ?_
  · refine .number fun n hn => hstored (by decide) (halone₈ code h₈) ?_
    exact congrArg (Bytes.bigEndian 8) (UInt64.toNat_ofNat_of_lt' hn)
  split
  · next hfree => exact .nameless fun halone => halone.1 hfree
  · next hfree => exact .text ⟨hfree, htrack, hdisc⟩

-- =================================================================== result

/-- What is stored for a text under the code of an item. -/
def stored (code : FourCC) (text : String) :
    Except Failure (Option TagEntry) := do
  (← ofText code text).encode

theorem stored_eq_ok_iff {code : FourCC} {text : String}
    {stored? : Option TagEntry} :
    stored code text = .ok stored?
      ↔ ∃ tag, Means code text tag ∧ tag.encode = .ok stored? := by
  simp only [← ofText_eq_ok_iff]
  unfold stored
  cases ofText code text with
  | error failure => exact iff_of_false nofun fun ⟨_, h, _⟩ => nomatch h
  | ok tag =>
      constructor
      · exact fun h => ⟨tag, rfl, h⟩
      · rintro ⟨_, ⟨⟩, h⟩
        exact h

section
variable {code : FourCC} {text : String} {stored? : Option TagEntry}

/-- A number is stored at its full width. -/
theorem stored_number_iff {width : Nat} {type : DataType}
    {ofNumber : Nat → Tag}
    (h : reading code = .number (256 ^ width - 1) ofNumber)
    (hencode : ∀ n, n < 256 ^ width → (ofNumber n).encode
      = .ok (some ⟨.code code, type, Bytes.bigEndian width n⟩)) :
    stored code text = .ok stored?
      ↔ (Layout.number width type).Stores code text stored? := by
  have hpos : 0 < 256 ^ width := Nat.pow_pos (by decide)
  have hlt : ∀ {n}, Gives (256 ^ width - 1) text n → n < 256 ^ width := by
    intro n hgives
    have := hgives.2
    omega
  rw [stored_eq_ok_iff]
  unfold Means Layout.Stores
  rw [h]
  constructor
  · rintro ⟨tag, ⟨n, hgives, rfl⟩, hok⟩
    cases hok.symm.trans (hencode n (hlt hgives))
    exact ⟨n, _, hgives, rfl,
      (Bytes.length_eq_and_toNat_eq_iff (hlt hgives)).mpr rfl⟩
  · rintro ⟨n, data, hgives, rfl, hdata⟩
    rw [(Bytes.length_eq_and_toNat_eq_iff (hlt hgives)).mp hdata]
    exact ⟨_, ⟨n, hgives, rfl⟩, hencode n (hlt hgives)⟩

theorem stored_numbered_iff {kind : Counted}
    (h : reading code = .numbered kind) :
    stored code text = .ok stored?
      ↔ (Layout.numbered kind).Stores code text stored? := by
  rw [stored_eq_ok_iff]
  unfold Means
  rw [h]
  constructor
  · rintro ⟨tag, ⟨number, total, hgives, rfl⟩, hok⟩
    obtain ⟨data, hdata⟩ :=
      (encode_counted_iff kind hgives.le.1 hgives.le.2).mp hok
    exact ⟨number, total, data, hgives, hdata⟩
  · rintro ⟨number, total, data, hgives, hdata⟩
    exact ⟨_, ⟨number, total, hgives, rfl⟩,
      (encode_counted_iff kind hgives.le.1 hgives.le.2).mpr ⟨data, hdata⟩⟩

theorem stored_total_iff {kind : Counted}
    (h : reading code = .total kind) :
    stored code text = .ok stored?
      ↔ (Layout.total kind).Stores code text stored? := by
  rw [stored_eq_ok_iff]
  unfold Means
  rw [h]
  constructor
  · rintro ⟨tag, ⟨total, hgives, rfl⟩, hok⟩
    obtain ⟨data, hdata⟩ :=
      (encode_counted_iff kind (Nat.zero_le _) hgives.2).mp hok
    exact ⟨total, data, hgives, hdata⟩
  · rintro ⟨total, data, hgives, hdata⟩
    exact ⟨_, ⟨total, hgives, rfl⟩,
      (encode_counted_iff kind (Nat.zero_le _) hgives.2).mpr ⟨data, hdata⟩⟩

theorem stored_text_iff (h : reading code = .text)
    (halone : StandsAlone code) :
    stored code text = .ok stored?
      ↔ Layout.text.Stores code text stored? := by
  have hencode : (Tag.text code text).encode
      = .ok (entryOf (.code code) .utf8 (Bytes.ofText text)) :=
    keyed_of_standsAlone halone .utf8 _
  rw [stored_eq_ok_iff]
  unfold Means Layout.Stores
  simp only [h, exists_eq_left, hencode, entryOf, List.isEmpty_iff,
    ofText_eq_nil_iff]
  exact ⟨fun hok => (Except.ok.inj hok).symm,
    fun hsame => congrArg _ hsame.symm⟩

/-- Where there is no name to store a text under, every text is refused. -/
theorem stored_nameless_iff (h : reading code = .text)
    (hfree : ¬ StandsAlone code) :
    stored code text = .ok stored?
      ↔ Layout.nameless.Stores code text stored? := by
  obtain ⟨failure, hkey⟩ := exists_failure_of_keyOfCode hfree
  have hencode : (Tag.text code text).encode = .error failure := by
    simp only [encode, hkey]
    rfl
  rw [stored_eq_ok_iff]
  unfold Means Layout.Stores
  simp only [h, exists_eq_left, hencode, reduceCtorEq]

/-- A text for an item is stored as what it spells, read back from the bytes
in the layout of the item, or else it is refused. -/
theorem stored_ofText_iff :
    stored code text = .ok stored?
      ↔ (Layout.ofCode code).Stores code text stored? := by
  have hlaid := laidOut code
  generalize Layout.ofCode code = layout at hlaid ⊢
  generalize hreading : reading code = how at hlaid
  cases hlaid with
  | number hencode => exact stored_number_iff hreading hencode
  | numbered kind => exact stored_numbered_iff hreading
  | total kind => exact stored_total_iff hreading
  | text halone => exact stored_text_iff hreading halone
  | nameless hfree => exact stored_nameless_iff hreading hfree

end

/-- The largest number of each width is stored, and one more is refused. So
is what spells no number. -/
theorem stored_ofText_someTexts :
    stored (.ofChars 'c' 'p' 'i' 'l') " +255 "
        = .ok (some ⟨.code (.ofChars 'c' 'p' 'i' 'l'), .integer, [0xff]⟩)
      ∧ (∀ stored?, stored (.ofChars 'c' 'p' 'i' 'l') "256" ≠ .ok stored?)
      ∧ (∀ stored?, stored (.ofChars 'c' 'p' 'i' 'l') "yes" ≠ .ok stored?)
      ∧ stored (.ofChars 't' 'm' 'p' 'o') "65535"
        = .ok (some ⟨.code (.ofChars 't' 'm' 'p' 'o'), .integer,
            [0xff, 0xff]⟩)
      ∧ (∀ stored?, stored (.ofChars 't' 'm' 'p' 'o') "65536" ≠ .ok stored?)
      ∧ stored (.ofChars 't' 'v' 's' 'n') "4294967295"
        = .ok (some ⟨.code (.ofChars 't' 'v' 's' 'n'), .integer,
            [0xff, 0xff, 0xff, 0xff]⟩)
      ∧ (∀ stored?, stored (.ofChars 't' 'v' 's' 'n') "4294967296"
        ≠ .ok stored?)
      ∧ stored (.ofChars 'p' 'l' 'I' 'D') "18446744073709551615"
        = .ok (some ⟨.code (.ofChars 'p' 'l' 'I' 'D'), .integer,
            [0xff, 0xff, 0xff, 0xff, 0xff, 0xff, 0xff, 0xff]⟩)
      ∧ (∀ stored?, stored (.ofChars 'p' 'l' 'I' 'D') "18446744073709551616"
        ≠ .ok stored?)
      ∧ stored (.ofChars 't' 'r' 'k' 'n') "3 / 12"
        = .ok (some ⟨.code (.ofChars 't' 'r' 'k' 'n'), .implicit,
            [0, 0, 0, 3, 0, 12, 0, 0]⟩)
      ∧ stored (.ofChars '\x00' 'd' 's' 't') "2"
        = .ok (some ⟨.code (.ofChars 'd' 'i' 's' 'k'), .implicit,
            [0, 0, 0, 0, 0, 2]⟩)
      ∧ stored (.ofChars '©' 'n' 'a' 'm') "é/2"
        = .ok (some ⟨.code (.ofChars '©' 'n' 'a' 'm'), .utf8,
            [0xc3, 0xa9, 0x2f, 0x32]⟩)
      ∧ stored (.ofChars '©' 'n' 'a' 'm') "" = .ok none
      ∧ ∀ stored?, stored (.ofChars '-' '-' '-' '-') "1" ≠ .ok stored? := by
  have hrefused : ∀ {code : FourCC} {width : Nat} {type : DataType}
      {text : String}, Layout.ofCode code = .number width type →
      Text.unsigned? (256 ^ width - 1) (Text.trim text) = none →
      ∀ stored?, stored code text ≠ .ok stored? := by
    intro code width type text hlayout hnone stored? hstored
    rw [stored_ofText_iff, hlayout] at hstored
    obtain ⟨n, _, hgives, -⟩ := hstored
    cases hnone.symm.trans (Text.gives_iff.mp hgives)
  have hcut : Text.splitFirst '/' "3 / 12" = some ("3 ", " 12") := by
    decide +kernel
  have htrack : GivesPair "3 / 12" 3 12 :=
    (Text.givesPair_of_slash hcut).mpr
      ⟨by decide +kernel, by decide +kernel⟩
  refine ⟨?_, hrefused rfl ?_, hrefused rfl ?_, ?_, hrefused rfl ?_, ?_,
    hrefused rfl ?_, ?_, hrefused rfl ?_, ?_, ?_, ?_, ?_, ?_⟩
  · exact stored_ofText_iff.mpr ⟨0xff, _, by decide +kernel, rfl, rfl, rfl⟩
  · decide +kernel
  · decide +kernel
  · exact stored_ofText_iff.mpr ⟨0xffff, _, by decide +kernel, rfl, rfl, rfl⟩
  · decide +kernel
  · exact stored_ofText_iff.mpr
      ⟨0xffffffff, _, by decide +kernel, rfl, rfl, rfl⟩
  · decide +kernel
  · exact stored_ofText_iff.mpr
      ⟨0xffffffffffffffff, _, by decide +kernel, rfl, rfl, rfl⟩
  · decide +kernel
  · exact stored_ofText_iff.mpr ⟨3, 12, _, htrack, rfl, rfl⟩
  · exact stored_ofText_iff.mpr ⟨2, _, by decide +kernel, rfl, rfl⟩
  · exact stored_ofText_iff.mpr rfl
  · exact stored_ofText_iff.mpr rfl
  · exact fun stored? hstored => stored_ofText_iff.mp hstored

end Tag

end AudioMux
