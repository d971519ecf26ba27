/-
Readers: what takes a value off the front of some bytes and leaves the
bytes behind it.

A reader knows the format and nothing of how bytes were written. The law
of a reader is that it takes back what was written, whatever follows
(`Takes`), or that it reads all of what was written (`Reads`), if it is
one that goes on to the end. Both pass from the steps of a reader to the
whole (`Takes.bind`, `Takes.bind_reads`), so the proof about a box has one
step for each of its fields.

The boxes in a box are found by walking over them, and each is read by
what its type asks for, wherever it stands.
-/
import AudioMux.Proofs.Box.Read
import Mathlib.Algebra.Ring.Int.Defs

namespace AudioMux.Box

/-- Takes a value off the front of some bytes, if there is one. -/
abbrev Reader (α : Type) := StateT Bytes Option α

-- ===================================================================== laws

section
variable {α β : Type}

/-- The reader takes exactly what was written, whatever follows. -/
def Takes (reader : Reader α) (written : Bytes) (a : α) : Prop :=
  ∀ rest, reader (written ++ rest) = some (a, rest)

/-- The reader makes this of all that was written. -/
def Reads (reader : Reader α) (written : Bytes) (a : α) : Prop :=
  reader written = some (a, [])

variable {reader : Reader α} {next : α → Reader β} {written more : Bytes}
  {a : α} {b : β}

theorem Takes.reads (h : Takes reader written a) :
    Reads reader written a := by
  have hnil := h []
  rw [List.append_nil] at hnil
  exact hnil

theorem takes_pure (a : α) : Takes (pure a) [] a := fun _ => rfl

/-- What holds is passed without a look at the bytes. -/
theorem takes_guard {c : Prop} [Decidable c] (h : c) :
    Takes (guard c) [] () := by
  have hguard : (guard c : Reader Unit) = pure () := if_pos h
  rw [hguard]
  exact takes_pure ()

/-- What a first step has taken is out of the way of the next one. -/
theorem Takes.bind_apply (h : Takes reader written a) (rest : Bytes) :
    (reader >>= next) (written ++ rest) = next a rest := by
  show (reader (written ++ rest)).bind _ = _
  rw [h, Option.bind_some]

theorem Takes.bind (h : Takes reader written a)
    (hnext : Takes (next a) more b) :
    Takes (reader >>= next) (written ++ more) b := by
  intro rest
  rw [List.append_assoc, h.bind_apply]
  exact hnext rest

theorem Takes.bind_reads_iff (h : Takes reader written a) :
    Reads (reader >>= next) (written ++ more) b
      ↔ Reads (next a) more b := by
  unfold Reads
  rw [h.bind_apply]

theorem Takes.bind_reads (h : Takes reader written a)
    (hnext : Reads (next a) more b) :
    Reads (reader >>= next) (written ++ more) b :=
  h.bind_reads_iff.mpr hnext

theorem Reads.bind (h : Reads reader written a)
    (hnext : Reads (next a) [] b) : Reads (reader >>= next) written b := by
  show (reader written).bind _ = _
  rw [h, Option.bind_some]
  exact hnext

/-- The last step of a reader that puts its fields together. -/
theorem Takes.map {f : α → β} (h : Takes reader written a) :
    Takes (reader >>= fun a => pure (f a)) written (f a) := by
  intro rest
  show (reader (written ++ rest)).bind _ = _
  rw [h]
  rfl

theorem Reads.map {f : α → β} (h : Reads reader written a) :
    Reads (reader >>= fun a => pure (f a)) written (f a) := by
  show (reader written).bind _ = _
  rw [h]
  rfl

end

namespace Reader

-- =================================================================== fields

/-- A number of `width` bytes. -/
def number (width : Nat) : Reader Nat := readNumber? width

def byte : Reader UInt8 := do
  pure (UInt8.ofNat (← number 1))

def word16 : Reader UInt16 := do
  pure (UInt16.ofNat (← number 2))

/-- A number of three bytes. -/
def word24 : Reader UInt32 := do
  pure (UInt32.ofNat (← number 3))

def word32 : Reader UInt32 := do
  pure (UInt32.ofNat (← number 4))

def word64 : Reader UInt64 := do
  pure (UInt64.ofNat (← number 8))

def int16 : Reader Int16 := do
  pure (← word16).toInt16

def int32 : Reader Int32 := do
  pure (← word32).toInt32

/-- A time or duration in a field of `width` bytes. -/
def time (width : Nat) : Reader UInt64 := do
  pure (UInt64.ofNat (← number width))

/-- A number in two's complement in a field of `width` bytes. -/
def signed (width : Nat) : Reader Int64 := do
  let n ← number width
  pure (Int64.ofInt (if 2 * n < 256 ^ width then n else n - 256 ^ width))

/-- So many bytes as they are. -/
def bytes (count : Nat) : Reader Bytes := fun bytes =>
  if count ≤ bytes.length then some (bytes.take count, bytes.drop count)
  else none

/-- Passes over reserved bytes. -/
def skip (count : Nat) : Reader Unit := do
  let _ ← bytes count

/-- All bytes that are left. -/
def allBytes : Reader Bytes := fun bytes => some (bytes, [])

def fourCC : Reader FourCC := do
  FourCC.ofBytes? (← bytes 4)

/-- The version and the flags of a full box. -/
def versionFlags : Reader VersionFlags := do
  let version ← byte
  let flags ← word24
  pure ⟨version, flags⟩

/-- Text up to a zero byte. -/
def terminated : Reader String := fun bytes =>
  match bytes.dropWhile (· ≠ 0) with
  | [] => none
  | _ :: rest =>
    (String.fromUTF8? ⟨(bytes.takeWhile (· ≠ 0)).toArray⟩).map (·, rest)

/-- All bytes that are left, as text. -/
def allText : Reader String := fun bytes =>
  (String.fromUTF8? ⟨bytes.toArray⟩).map (·, [])

/-- A counted table and nothing behind it. -/
def table {α : Type} (entry : Reader α) : Reader (List α) := fun bytes =>
  (readTable? entry bytes).map (·, [])

/-- What a reader makes of all the bytes there are. -/
def whole? {α : Type} (reader : Reader α) (bytes : Bytes) : Option α :=
  match reader bytes with
  | some (a, []) => some a
  | _ => none

-- ==================================================================== boxes

/-- The boxes that make up the bytes that are left. -/
def boxes {α : Type} (read? : List Part → Option α) : Reader α :=
  fun bytes => ((walk bytes).bind read?).map (·, [])

section
variable {α : Type} (kind : FourCC) (reader : Reader α) (parts : List Part)

/-- The box of a kind, which has to be there. -/
def child : Option α :=
  (Part.payload? kind parts).bind reader.whole?

/-- The box of a kind, if there is one. -/
def childOption : Option (Option α) :=
  match Part.payload? kind parts with
  | none => some none
  | some payload => (reader.whole? payload).map some

/-- All boxes of a kind, in order. -/
def children : Option (List α) :=
  (Part.payloads kind parts).mapM reader.whole?

end

end Reader

open Reader

-- =============================================================== field laws

section
variable {width n : Nat}

theorem takes_number_mod (width n : Nat) :
    Takes (number width) (Bytes.bigEndian width n) (n % 256 ^ width) :=
  readNumber?_bigEndian width n

theorem takes_number (h : n < 256 ^ width) :
    Takes (number width) (Bytes.bigEndian width n) n := by
  have htakes := takes_number_mod width n
  rw [Nat.mod_eq_of_lt h] at htakes
  exact htakes

theorem takes_byte (byte : UInt8) : Takes Reader.byte [byte] byte := by
  intro rest
  show some (UInt8.ofNat (Bytes.toNat [byte]), rest) = _
  simp [Bytes.toNat]

theorem takes_word16 (n : UInt16) : Takes word16 (Bytes.word16 n) n := by
  have hlt : n.toNat < 256 ^ 2 := n.toNat_lt
  have htakes := (takes_number hlt).map (f := UInt16.ofNat)
  rw [UInt16.ofNat_toNat] at htakes
  exact htakes

theorem takes_word24 {n : UInt32} (h : n.toNat < 2 ^ 24) :
    Takes word24 (Bytes.bigEndian 3 n.toNat) n := by
  have hlt : n.toNat < 256 ^ 3 := h
  have htakes := (takes_number hlt).map (f := UInt32.ofNat)
  rw [UInt32.ofNat_toNat] at htakes
  exact htakes

theorem takes_word32 (n : UInt32) : Takes word32 (Bytes.word32 n) n := by
  have hlt : n.toNat < 256 ^ 4 := n.toNat_lt
  have htakes := (takes_number hlt).map (f := UInt32.ofNat)
  rw [UInt32.ofNat_toNat] at htakes
  exact htakes

theorem takes_word64 (n : UInt64) : Takes word64 (Bytes.word64 n) n := by
  have hlt : n.toNat < 256 ^ 8 := n.toNat_lt
  have htakes := (takes_number hlt).map (f := UInt64.ofNat)
  rw [UInt64.ofNat_toNat] at htakes
  exact htakes

theorem takes_int16 (n : Int16) :
    Takes int16 (Bytes.word16 n.toUInt16) n :=
  (takes_word16 n.toUInt16).map

theorem takes_int32 (n : Int32) :
    Takes int32 (Bytes.word32 n.toUInt32) n :=
  (takes_word32 n.toUInt32).map

theorem takes_time {value : UInt64} (h : value.toNat < 256 ^ width) :
    Takes (time width) (Bytes.bigEndian width value.toNat) value := by
  have htakes := (takes_number h).map (f := UInt64.ofNat)
  rw [UInt64.ofNat_toNat] at htakes
  exact htakes

/-- A number in two's complement comes back if it fits the field. -/
theorem takes_signed {n : Int64} (hwidth : width = 4 ∨ width = 8)
    (hlo : -256 ^ width ≤ 2 * n.toInt) (hhi : 2 * n.toInt < 256 ^ width) :
    Takes (signed width) (Bytes.bigEndian width n.toUInt64.toNat) n := by
  have htakes := (takes_number_mod width n.toUInt64.toNat).map
    (f := fun m : Nat => Int64.ofInt
      (if 2 * m < 256 ^ width then (m : Int) else m - 256 ^ width))
  have hlt := n.toUInt64.toNat_lt
  have hint : n.toInt = if 2 * n.toUInt64.toNat < 2 ^ 64 then
      (n.toUInt64.toNat : Int) else n.toUInt64.toNat - (2 ^ 64 : Nat) :=
    BitVec.toInt_eq_toNat_cond n.toBitVec
  have hvalue : (if 2 * (n.toUInt64.toNat % 256 ^ width) < 256 ^ width then
      ((n.toUInt64.toNat % 256 ^ width : Nat) : Int)
      else (n.toUInt64.toNat % 256 ^ width : Nat) - 256 ^ width)
        = n.toInt := by
    rcases hwidth with rfl | rfl
    · split_ifs at hint ⊢ <;> omega
    · split_ifs at hint ⊢ <;> omega
  rw [hvalue, Int64.ofInt_toInt] at htakes
  exact htakes

theorem takes_bytes {written : Bytes} {count : Nat}
    (h : written.length = count) : Takes (bytes count) written written := by
  intro rest
  unfold Reader.bytes
  rw [if_pos (by rw [List.length_append]; omega), List.take_left' h,
    List.drop_left' h]

theorem takes_skip {written : Bytes} {count : Nat}
    (h : written.length = count) : Takes (skip count) written () :=
  (takes_bytes h).map

theorem takes_zeros (count : Nat) :
    Takes (skip count) (Bytes.zeros count) () :=
  takes_skip (Bytes.length_zeros count)

theorem takes_fourCC (code : FourCC) :
    Takes fourCC code.bytes code := by
  intro rest
  rfl

theorem takes_versionFlags {version : UInt8} {flags : UInt32}
    (h : flags.toNat < 2 ^ 24) :
    Takes versionFlags (VersionFlags.mk version flags).encode
      ⟨version, flags⟩ :=
  (takes_byte version).bind (takes_word24 h).map

theorem reads_allBytes (written : Bytes) :
    Reads allBytes written written := rfl

end

-- ================================================================ text laws

/-- Text without a zero character. -/
def NulFree (text : String) : Prop :=
  Char.ofNat 0 ∉ text.toList

instance (text : String) : Decidable (NulFree text) :=
  inferInstanceAs (Decidable (_ ∉ _))

theorem fromUTF8?_ofText (text : String) :
    String.fromUTF8? ⟨(Bytes.ofText text).toArray⟩ = some text := by
  have hbytes : (⟨(Bytes.ofText text).toArray⟩ : ByteArray)
      = text.toByteArray := rfl
  rw [hbytes]
  exact dif_pos text.isValidUTF8

/-- Only the zero character has a zero byte. -/
theorem zero_notMem_utf8EncodeChar {c : Char} (h : c ≠ Char.ofNat 0) :
    0 ∉ String.utf8EncodeChar c := by
  have hval : c.val.toNat ≠ 0 := by
    intro hzero
    exact h (Char.ext (UInt32.toNat_inj.mp hzero))
  have hpositive : ∀ n, n % 256 ≠ 0 → (0 : UInt8) ≠ UInt8.ofNat n := by
    intro n hn hzero
    have hnat := congrArg UInt8.toNat hzero
    rw [UInt8.toNat_ofNat'] at hnat
    exact hn hnat.symm
  unfold String.utf8EncodeChar
  dsimp only
  split_ifs <;>
    simp only [List.mem_cons, List.not_mem_nil, or_false, not_or]
  · exact hpositive _ (by omega)
  · exact ⟨hpositive _ (by omega), hpositive _ (by omega)⟩
  · exact ⟨hpositive _ (by omega), hpositive _ (by omega),
      hpositive _ (by omega)⟩
  · exact ⟨hpositive _ (by omega), hpositive _ (by omega),
      hpositive _ (by omega), hpositive _ (by omega)⟩

theorem zero_notMem_ofText {text : String} (h : NulFree text) :
    0 ∉ Bytes.ofText text := by
  have hbytes : Bytes.ofText text
      = text.toList.flatMap String.utf8EncodeChar := by
    unfold Bytes.ofText
    have htext : text.toByteArray = text.toList.utf8Encode := by
      rw [← String.toByteArray_ofList, String.ofList_toList]
    rw [String.toUTF8_eq_toByteArray, htext]
    simp [List.utf8Encode]
  rw [hbytes]
  intro hzero
  obtain ⟨c, hc, hbyte⟩ := List.mem_flatMap.mp hzero
  refine zero_notMem_utf8EncodeChar (fun heq => h ?_) hbyte
  exact heq ▸ hc

theorem reads_allText (text : String) :
    Reads allText (Bytes.ofText text) text := by
  unfold Reads allText
  rw [fromUTF8?_ofText]
  rfl

theorem takes_terminated {text : String} (h : NulFree text) :
    Takes terminated (Bytes.ofText text ++ [0]) text := by
  intro rest
  have hall : ∀ byte ∈ Bytes.ofText text, decide (byte ≠ 0) = true := by
    intro byte hbyte
    refine decide_eq_true fun hzero => zero_notMem_ofText h ?_
    exact hzero ▸ hbyte
  unfold terminated
  rw [List.append_assoc, List.dropWhile_append_of_pos hall,
    List.takeWhile_append_of_pos hall]
  simp [fromUTF8?_ofText]

-- =============================================================== table laws

/-- A table is read back, as long as its length fits the count. -/
theorem reads_table {α : Type} {entry : Reader α} {write : α → Bytes}
    (h : ∀ a, Takes entry (write a) a) {entries : List α}
    (hcount : entries.length ≤ maxWord32) :
    Reads (table entry) (countedList write entries) entries := by
  unfold Reads table
  rw [readTable?_countedList h hcount, List.map_id']
  rfl

-- ================================================================= box laws

section
variable {α : Type}

theorem whole?_of_reads {reader : Reader α} {written : Bytes} {a : α}
    (h : Reads reader written a) : whole? reader written = some a := by
  unfold whole?
  rw [h]

theorem whole?_eq_none {reader : Reader α} {written : Bytes}
    (h : ∀ a, ¬ Reads reader written a) : whole? reader written = none := by
  unfold whole?
  split
  · next a hread => exact absurd hread (h a)
  · rfl

theorem reads_boxes {read? : List Part → Option α} {written : Bytes}
    {parts : List Part} {a : α} (hwalk : walk written = some parts)
    (h : read? parts = some a) : Reads (boxes read?) written a := by
  unfold Reads boxes
  rw [hwalk, Option.bind_some, h]
  rfl

variable {kind : FourCC} {reader : Reader α} {parts : List Part}

/-- The first box is found under its kind. -/
theorem payload?_cons {β : Type} [Format β] {box : β}
    (h : Format.kind box = kind) :
    Part.payload? kind (Part.of box :: parts) = some (content box) := by
  simp [Part.payload?, Part.of, h]

theorem child_of {payload : Bytes} {a : α}
    (hfind : Part.payload? kind parts = some payload)
    (h : Reads reader payload a) : child kind reader parts = some a := by
  unfold child
  rw [hfind, Option.bind_some, whole?_of_reads h]

/-- A box that may be there is found where it should be, or nowhere. -/
theorem childOption_of {β : Type} [Format β] {box? : Option β} {f : β → α}
    (hfind : Part.payload? kind parts = box?.map content)
    (h : ∀ box ∈ box?, Reads reader (content box) (f box)) :
    childOption kind reader parts = some (box?.map f) := by
  unfold childOption
  rw [hfind]
  cases box? with
  | none => rfl
  | some box =>
      show (reader.whole? (content box)).map some = _
      rw [whole?_of_reads (h box rfl)]
      rfl

theorem childOption_self [Format α] {box? : Option α}
    (hfind : Part.payload? kind parts = box?.map content)
    (h : ∀ box ∈ box?, Reads reader (content box) box) :
    childOption kind reader parts = some box? := by
  rw [childOption_of hfind h, Option.map_id']

theorem mapM_whole? {β : Type} {write : β → Bytes} {f : β → α}
    {boxes : List β} (h : ∀ box ∈ boxes, Reads reader (write box) (f box)) :
    (boxes.map write).mapM reader.whole? = some (boxes.map f) := by
  induction boxes with
  | nil => rfl
  | cons box boxes ih =>
      have hfirst := whole?_of_reads (h box List.mem_cons_self)
      have hrest := ih fun box hbox => h box (List.mem_cons_of_mem _ hbox)
      rw [List.map_cons, List.mapM_cons, hfirst, hrest]
      rfl

/-- Boxes of one kind are all found under it. -/
theorem payloads_map_of {β : Type} [Format β] {boxes : List β}
    (h : ∀ box ∈ boxes, Format.kind box = kind) :
    Part.payloads kind (boxes.map Part.of) = boxes.map content := by
  have hall : (boxes.map Part.of).filter (fun part => part.kind = kind)
      = boxes.map Part.of := by
    refine List.filter_eq_self.mpr fun part hpart => ?_
    obtain ⟨box, hbox, rfl⟩ := List.mem_map.mp hpart
    exact decide_eq_true (h box hbox)
  unfold Part.payloads
  rw [hall, List.map_map]
  rfl

theorem children_of {β : Type} [Format β] {boxes : List β} {f : β → α}
    (hfind : Part.payloads kind parts = boxes.map content)
    (h : ∀ box ∈ boxes, Reads reader (content box) (f box)) :
    children kind reader parts = some (boxes.map f) := by
  unfold children
  rw [hfind]
  exact mapM_whole? h

end

end AudioMux.Box
