import QboxPlatform.Foundation.Bytes

/-!
# Numbers of byte strings

The number that a byte string stands for, most significant byte first, and the byte strings
of a number: the shortest one, and those of a given length.
-/

namespace Foundation.BigEndian

/-- The number of a byte string. -/
def number (bytes : List Byte) : Nat := Nat.ofDigits 256 (bytes.reverse.map BitVec.toNat)

/-- The shortest byte string of a number; that of zero is empty. -/
def octets (value : Nat) : List Byte := ((Nat.digits 256 value).map (BitVec.ofNat 8)).reverse

/-- The byte string of a number with zeros at its head, of at least `count` bytes. -/
def padded (count value : Nat) : List Byte :=
  List.replicate (count - (octets value).length) 0 ++ octets value

@[simp]
theorem number_nil : number [] = 0 := rfl

theorem number_append (front back : List Byte) :
    number (front ++ back) = number front * 256 ^ back.length + number back := by
  simp only [number, List.reverse_append, List.map_append, Nat.ofDigits_append, List.length_map,
    List.length_reverse]
  ring

@[simp]
theorem number_singleton (byte : Byte) : number [byte] = byte.toNat := by
  simp [number]

theorem number_cons (byte : Byte) (rest : List Byte) :
    number (byte :: rest) = byte.toNat * 256 ^ rest.length + number rest := by
  rw [← List.singleton_append, number_append, number_singleton]

theorem number_lt (bytes : List Byte) : number bytes < 256 ^ bytes.length := by
  have digits : ∀ digit ∈ bytes.reverse.map BitVec.toNat, digit < 256 := by
    intro digit member
    obtain ⟨byte, -, rfl⟩ := List.mem_map.mp member
    exact byte.isLt
  have bounded := Nat.ofDigits_lt_base_pow_length (by decide : 1 < 256) digits
  rwa [List.length_map, List.length_reverse] at bounded

theorem number_octets (value : Nat) : number (octets value) = value := by
  have digits : ((Nat.digits 256 value).map (BitVec.ofNat 8)).map BitVec.toNat =
      Nat.digits 256 value := by
    rw [List.map_map]
    nth_rewrite 2 [← List.map_id (Nat.digits 256 value)]
    apply List.map_congr_left
    intro digit member
    have below := Nat.digits_lt_base (by decide : 1 < 256) member
    simp [Nat.mod_eq_of_lt below]
  rw [number, octets, List.reverse_reverse, digits, Nat.ofDigits_digits]

theorem octets_ne_nil {value : Nat} (positive : 0 < value) : octets value ≠ [] := by
  simp [octets, Nat.digits_ne_nil_iff_ne_zero, positive.ne']

theorem length_octets_le {value count : Nat} (below : value < 256 ^ count) :
    (octets value).length ≤ count := by
  rw [octets, List.length_reverse, List.length_map]
  exact (Nat.digits_length_le_iff (by decide) value).mpr below

theorem number_replicate_zero (count : Nat) : number (List.replicate count 0) = 0 := by
  induction count with
  | zero => rfl
  | succ count inductionHypothesis =>
      rw [List.replicate_succ, number_cons, inductionHypothesis]
      simp

@[simp]
theorem number_padded (count value : Nat) : number (padded count value) = value := by
  rw [padded, number_append, number_replicate_zero, number_octets, Nat.zero_mul, Nat.zero_add]

theorem length_padded {value count : Nat} (below : value < 256 ^ count) :
    (padded count value).length = count := by
  have short := length_octets_le below
  rw [padded, List.length_append, List.length_replicate]
  omega

end Foundation.BigEndian
