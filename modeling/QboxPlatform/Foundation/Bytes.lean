import Mathlib

/-!
# Little-endian words and byte images

Words are bit vectors, byte strings are lists, and a register file or a memory
is a total function from offsets to bytes.  Everything here is stated bit by
bit, so that the encoder and the decoder meet in one formula.
-/

namespace Foundation

/-- One octet. -/
abbrev Byte := BitVec 8

/-- Byte `index` of a word, counted from the least significant one. -/
def byteOf {width : Nat} (word : BitVec width) (index : Nat) : Byte :=
  word.extractLsb' (8 * index) 8

/-- The `count` low bytes of a word, least significant first. -/
def toBytes {width : Nat} (count : Nat) (word : BitVec width) : List Byte :=
  (List.range count).map (byteOf word)

/-- The word whose bytes, least significant first, are the given ones. -/
def ofBytes (width : Nat) : List Byte → BitVec width
  | [] => 0
  | byte :: rest => byte.setWidth width ||| (ofBytes width rest <<< 8)

@[simp]
theorem length_toBytes {width : Nat} (count : Nat) (word : BitVec width) :
    (toBytes count word).length = count := by
  simp [toBytes]

theorem getLsbD_byteOf {width : Nat} (word : BitVec width) (index bit : Nat) :
    (byteOf word index).getLsbD bit =
      (decide (bit < 8) && word.getLsbD (8 * index + bit)) := by
  simp [byteOf]

theorem getD_toBytes {width : Nat} (count : Nat) (word : BitVec width) (index : Nat) :
    (toBytes count word).getD index 0 =
      if index < count then byteOf word index else 0 := by
  by_cases below : index < count
  · simp [toBytes, below]
  · simp [toBytes, below]

theorem getLsbD_ofBytes (width : Nat) (bytes : List Byte) (bit : Nat) :
    (ofBytes width bytes).getLsbD bit =
      (decide (bit < width) && (bytes.getD (bit / 8) 0).getLsbD (bit % 8)) := by
  induction bytes generalizing bit with
  | nil => simp [ofBytes]
  | cons byte rest inductionHypothesis =>
      simp only [ofBytes, BitVec.getLsbD_or, BitVec.getLsbD_setWidth,
        BitVec.getLsbD_shiftLeft, inductionHypothesis]
      by_cases low : bit < 8
      · have quotient : bit / 8 = 0 := Nat.div_eq_of_lt low
        have remainder : bit % 8 = bit := Nat.mod_eq_of_lt low
        simp [low, quotient, remainder]
      · have quotient : bit / 8 = (bit - 8) / 8 + 1 := by omega
        have remainder : bit % 8 = (bit - 8) % 8 := by omega
        have high : byte.getLsbD bit = false := BitVec.getLsbD_of_ge _ _ (by omega)
        have bounded : bit < width → bit - 8 < width := by omega
        by_cases inside : bit < width
        · simp [low, quotient, remainder, high, inside, bounded inside]
        · simp [inside]

/-- Decoding the low bytes of a word gives the word back. -/
theorem ofBytes_toBytes {width count : Nat} (word : BitVec width)
    (enough : width ≤ 8 * count) : ofBytes width (toBytes count word) = word := by
  apply BitVec.eq_of_getLsbD_eq
  intro bit inside
  have byteInside : bit / 8 < count := by omega
  have position : 8 * (bit / 8) + bit % 8 = bit := by omega
  rw [getLsbD_ofBytes, getD_toBytes, if_pos byteInside, getLsbD_byteOf, position]
  simp [inside, Nat.mod_lt]

theorem byteOf_ofBytes {width : Nat} (bytes : List Byte) (index : Nat)
    (inside : 8 * index + 8 ≤ width) :
    byteOf (ofBytes width bytes) index = bytes.getD index 0 := by
  apply BitVec.eq_of_getLsbD_eq
  intro bit low
  have quotient : (8 * index + bit) / 8 = index := by omega
  have remainder : (8 * index + bit) % 8 = bit := by omega
  have below : 8 * index + bit < width := by omega
  rw [getLsbD_byteOf, getLsbD_ofBytes, quotient, remainder]
  simp [low, below]

/-- Encoding a decoded byte string gives the byte string back. -/
theorem toBytes_ofBytes {width : Nat} (bytes : List Byte)
    (fits : 8 * bytes.length ≤ width) :
    toBytes bytes.length (ofBytes width bytes) = bytes := by
  apply List.ext_getElem (by simp)
  intro index _ inside
  simp only [toBytes, List.getElem_map, List.getElem_range]
  rw [byteOf_ofBytes bytes index (by omega), List.getD_eq_getElem _ _ inside]

theorem toBytes_injective {width count : Nat} (enough : width ≤ 8 * count)
    {first second : BitVec width}
    (same : toBytes count first = toBytes count second) : first = second := by
  have decoded := congrArg (ofBytes width) same
  rwa [ofBytes_toBytes first enough, ofBytes_toBytes second enough] at decoded

theorem take_toBytes {width : Nat} (taken count : Nat) (word : BitVec width) :
    (toBytes count word).take taken = toBytes (min taken count) word := by
  rw [toBytes, ← List.map_take, List.take_range, toBytes]

/-- Word `index` of a byte string, padded with zeros past its end. -/
def wordAt (bytes : List Byte) (index : Nat) : BitVec 32 :=
  ofBytes 32 ((bytes.drop (4 * index)).take 4)

theorem wordAt_succ (bytes : List Byte) (index : Nat) :
    wordAt bytes (index + 1) = wordAt (bytes.drop 4) index := by
  rw [wordAt, wordAt, List.drop_drop, Nat.mul_succ, Nat.add_comm]

theorem wordAt_of_length_le {bytes : List Byte} {index : Nat}
    (beyond : bytes.length ≤ 4 * index) : wordAt bytes index = 0 := by
  rw [wordAt, List.drop_of_length_le beyond]
  rfl

/-- Enough words of a byte string give the byte string back. -/
theorem take_flatMap_wordAt (bytes : List Byte) {count : Nat}
    (enough : bytes.length ≤ 4 * count) :
    ((List.range count).flatMap fun index => toBytes 4 (wordAt bytes index)).take
      bytes.length = bytes := by
  induction count generalizing bytes with
  | zero =>
      have empty := List.eq_nil_of_length_eq_zero (Nat.le_zero.mp enough)
      simp [empty]
  | succ count inductionHypothesis =>
      have later := inductionHypothesis (bytes.drop 4) (by rw [List.length_drop]; omega)
      rw [List.length_drop] at later
      have first : (toBytes 4 (wordAt bytes 0)).take bytes.length = bytes.take 4 := by
        have whole := toBytes_ofBytes (bytes.take 4)
          (show 8 * (bytes.take 4).length ≤ 32 by rw [List.length_take]; omega)
        rw [take_toBytes, wordAt, Nat.mul_zero, List.drop_zero, Nat.min_comm,
          ← List.length_take, whole]
      rw [List.range_succ_eq_map, List.flatMap_cons, List.flatMap_map, List.take_append,
        length_toBytes, first]
      simp only [wordAt_succ, later, List.take_append_drop]

/-- A mask of one bit tests that bit. -/
theorem and_bit_ne_zero_iff {w : Nat} (word : BitVec w) {bit : Nat} (inside : bit < w) :
    word &&& (1#w <<< bit) ≠ 0 ↔ word.getLsbD bit = true := by
  rw [← BitVec.twoPow_eq, BitVec.and_twoPow]
  cases set : word.getLsbD bit with
  | true =>
      have nonzero : BitVec.twoPow w bit ≠ 0 := by
        intro zero
        have at_bit := congrArg (fun mask => mask.getLsbD bit) zero
        simp [inside] at at_bit
      simpa using nonzero
  | false => simp

/-- Every bit of the first word is set in the second one. -/
def SubBits {width : Nat} (first second : BitVec width) : Prop :=
  ∀ bit, first.getLsbD bit = true → second.getLsbD bit = true

section SubBits

variable {width : Nat} {first second third : BitVec width}

@[simp]
theorem SubBits.refl (word : BitVec width) : SubBits word word := fun _ set => set

theorem SubBits.trans (lower : SubBits first second) (upper : SubBits second third) :
    SubBits first third :=
  fun bit set => upper bit (lower bit set)

theorem subBits_or_left (word mask : BitVec width) : SubBits word (word ||| mask) := by
  intro bit set
  simp [set]

end SubBits

/-- A byte-addressed store.  A device of finite size reads and writes only the
offsets below its size. -/
abbrev Image := Nat → Byte

namespace Image

/-- `memcpy` of a byte string into the image. -/
def write (image : Image) (offset : Nat) (data : List Byte) : Image := fun index =>
  if offset ≤ index then data.getD (index - offset) (image index) else image index

/-- `memcpy` of `count` bytes out of the image. -/
def read (image : Image) (offset count : Nat) : List Byte :=
  (List.range count).map fun index => image (offset + index)

/-- Store a 32-bit word in little-endian order. -/
def store32 (image : Image) (offset : Nat) (value : BitVec 32) : Image :=
  image.write offset (toBytes 4 value)

/-- Load a 32-bit word in little-endian order. -/
def load32 (image : Image) (offset : Nat) : BitVec 32 :=
  ofBytes 32 (image.read offset 4)

/-- Store a 64-bit word in little-endian order. -/
def store64 (image : Image) (offset : Nat) (value : BitVec 64) : Image :=
  image.write offset (toBytes 8 value)

/-- Load a 64-bit word in little-endian order. -/
def load64 (image : Image) (offset : Nat) : BitVec 64 :=
  ofBytes 64 (image.read offset 8)

@[simp]
theorem length_read (image : Image) (offset count : Nat) :
    (image.read offset count).length = count := by
  simp [read]

theorem getElem_read (image : Image) (offset count index : Nat)
    (inside : index < (image.read offset count).length) :
    (image.read offset count)[index] = image (offset + index) := by
  simp [read]

theorem write_outside (image : Image) (offset : Nat) (data : List Byte) {index : Nat}
    (outside : index < offset ∨ offset + data.length ≤ index) :
    image.write offset data index = image index := by
  unfold write
  split
  · apply List.getD_eq_default
    omega
  · rfl

theorem write_inside (image : Image) (offset : Nat) (data : List Byte) {index : Nat}
    (inside : index < data.length) :
    image.write offset data (offset + index) = data[index] := by
  simp [write, inside]

/-- Two copies one behind the other are one copy. -/
theorem write_append (image : Image) (offset : Nat) (front back : List Byte) :
    image.write offset (front ++ back) =
      (image.write offset front).write (offset + front.length) back := by
  funext index
  by_cases before : index < offset + front.length
  · rw [write_outside _ _ back (Or.inl before)]
    unfold write
    split
    · rw [List.getD_append _ _ _ _ (by omega)]
    · rfl
  · have behind : offset ≤ index := by omega
    have skipped := image.write_outside offset front (Or.inr (Nat.le_of_not_lt before))
    simp only [write, if_pos behind, if_pos (Nat.le_of_not_lt before)] at skipped ⊢
    rw [List.getD_append_right _ _ _ _ (by omega), skipped, Nat.sub_sub]

theorem store32_outside (image : Image) (offset : Nat) (value : BitVec 32) {index : Nat}
    (outside : index < offset ∨ offset + 4 ≤ index) :
    image.store32 offset value index = image index := by
  exact image.write_outside offset _ (by simpa using outside)

theorem store32_inside (image : Image) (offset : Nat) (value : BitVec 32) {index : Nat}
    (inside : index < 4) :
    image.store32 offset value (offset + index) = byteOf value index := by
  rw [store32, image.write_inside offset _ (by simpa using inside)]
  simp [toBytes]

/-- The byte a word store leaves at any offset. -/
theorem store32_apply (image : Image) (offset : Nat) (value : BitVec 32) (index : Nat) :
    image.store32 offset value index =
      if offset ≤ index ∧ index < offset + 4 then byteOf value (index - offset)
      else image index := by
  by_cases covered : offset ≤ index ∧ index < offset + 4
  · obtain ⟨position, rfl⟩ := Nat.exists_eq_add_of_le covered.1
    rw [if_pos covered, store32_inside _ _ _ (by omega), Nat.add_sub_cancel_left]
  · rw [if_neg covered]
    exact image.store32_outside offset value (by omega)

theorem read_congr {first second : Image} {offset count : Nat}
    (same : ∀ index, offset ≤ index → index < offset + count →
      first index = second index) :
    first.read offset count = second.read offset count := by
  apply List.map_congr_left
  intro index member
  have below := List.mem_range.mp member
  exact same _ (by omega) (by omega)

theorem read_write_same (image : Image) (offset : Nat) (data : List Byte) :
    (image.write offset data).read offset data.length = data := by
  apply List.ext_getElem (by simp)
  intro index _ inside
  rw [getElem_read, image.write_inside offset data inside]

theorem load32_congr {first second : Image} {offset : Nat}
    (same : ∀ index, offset ≤ index → index < offset + 4 → first index = second index) :
    first.load32 offset = second.load32 offset := by
  rw [load32, load32, read_congr same]

@[simp]
theorem load32_store32 (image : Image) (offset : Nat) (value : BitVec 32) :
    (image.store32 offset value).load32 offset = value := by
  have whole := image.read_write_same offset (toBytes 4 value)
  rw [length_toBytes] at whole
  rw [load32, store32, whole, ofBytes_toBytes value (by omega)]

theorem load32_store32_of_disjoint (image : Image) {offset other : Nat}
    (value : BitVec 32) (disjoint : other + 4 ≤ offset ∨ offset + 4 ≤ other) :
    (image.store32 offset value).load32 other = image.load32 other :=
  load32_congr fun _ _ _ => image.store32_outside offset value (by omega)

theorem load32_write_of_disjoint (image : Image) {offset other : Nat} (data : List Byte)
    (disjoint : other + 4 ≤ offset ∨ offset + data.length ≤ other) :
    (image.write offset data).load32 other = image.load32 other :=
  load32_congr fun _ _ _ => image.write_outside offset data (by omega)

theorem load64_congr {first second : Image} {offset : Nat}
    (same : ∀ index, offset ≤ index → index < offset + 8 → first index = second index) :
    first.load64 offset = second.load64 offset := by
  rw [load64, load64, read_congr same]

theorem load64_write_of_disjoint (image : Image) {offset other : Nat} (data : List Byte)
    (disjoint : other + 8 ≤ offset ∨ offset + data.length ≤ other) :
    (image.write offset data).load64 other = image.load64 other :=
  load64_congr fun _ _ _ => image.write_outside offset data (by omega)

theorem byteOf_load32 (image : Image) (offset : Nat) {index : Nat} (inside : index < 4) :
    byteOf (image.load32 offset) index = image (offset + index) := by
  rw [load32, byteOf_ofBytes _ _ (by omega),
    List.getD_eq_getElem _ _ (by simpa using inside), getElem_read]

end Image

end Foundation
