import Mathlib

/-!
# Counter mode

Items are combined with a key stream that a counter produces block by block.  A stream that is
cut at block boundaries is the concatenation of its pieces, each from the counter that the blocks
before it leave.
-/

namespace Foundation

universe u v

namespace CounterMode

variable {Counter : Type u} {Item : Type v} (keyStream : Counter → List Item)
  (next : Counter → Counter) (combine : Item → Item → Item) (size : Nat)

/-- The number of blocks that some items begin. -/
def blocks (length : Nat) : Nat := (length + (size - 1)) / size

/-- Combine each block of the items with the block of its counter. -/
def crypt (counter : Counter) (items : List Item) : List Item :=
  if 0 < size ∧ items ≠ [] then
    List.zipWith combine (items.take size) (keyStream counter) ++
      crypt (next counter) (items.drop size)
  else []
termination_by items.length
decreasing_by
  have positive : 0 < items.length := List.length_pos_iff.mpr (by simp_all)
  rw [List.length_drop]
  omega

variable {keyStream next combine size}

theorem blocks_zero (positive : 0 < size) : blocks size 0 = 0 := by
  rw [blocks, Nat.zero_add]
  exact Nat.div_eq_of_lt (Nat.sub_one_lt (Nat.pos_iff_ne_zero.mp positive))

theorem blocks_self (positive : 0 < size) : blocks size size = 1 := by
  rw [blocks, Nat.add_div_left _ positive, Nat.div_eq_of_lt (Nat.sub_one_lt positive.ne')]

/-- Complete blocks add up, and so does a last incomplete one. -/
theorem blocks_add (positive : 0 < size) {first second : Nat}
    (whole : size ∣ first ∨ second = 0) :
    blocks size (first + second) = blocks size second + blocks size first := by
  rcases whole with ⟨count, rfl⟩ | rfl
  · have complete : blocks size (size * count) = count := by
      rw [blocks, Nat.mul_add_div positive, Nat.div_eq_of_lt (Nat.sub_one_lt positive.ne'),
        Nat.add_zero]
    rw [complete, blocks, blocks, Nat.add_assoc, Nat.mul_add_div positive, Nat.add_comm]
  · rw [Nat.add_zero, blocks_zero positive, Nat.zero_add]

/-- One more block than the items past the first block have. -/
theorem blocks_drop (positive : 0 < size) {items : List Item} (nonempty : items ≠ []) :
    blocks size items.length = blocks size (items.drop size).length + 1 := by
  rcases Nat.le_total size items.length with enough | few
  · have lengths : items.length = size + (items.drop size).length := by
      rw [List.length_drop]
      omega
    rw [lengths, blocks_add positive (Or.inl dvd_rfl), blocks_self positive]
  · have some : 0 < items.length := List.length_pos_iff.mpr nonempty
    rw [List.drop_of_length_le few, List.length_nil, blocks_zero positive, blocks]
    apply Nat.div_eq_of_lt_le <;> omega

@[simp]
theorem crypt_nil (counter : Counter) : crypt keyStream next combine size counter [] = [] := by
  rw [crypt, if_neg fun nonempty => nonempty.2 rfl]

theorem crypt_of_ne_nil (positive : 0 < size) (counter : Counter) {items : List Item}
    (nonempty : items ≠ []) :
    crypt keyStream next combine size counter items =
      List.zipWith combine (items.take size) (keyStream counter) ++
        crypt keyStream next combine size (next counter) (items.drop size) := by
  rw [crypt, if_pos ⟨positive, nonempty⟩]

theorem length_crypt (positive : 0 < size)
    (fills : ∀ counter, (keyStream counter).length = size) (counter : Counter)
    (items : List Item) : (crypt keyStream next combine size counter items).length =
      items.length := by
  induction counter, items using crypt.induct next size with
  | case1 counter items nonempty inductionHypothesis =>
      rw [crypt_of_ne_nil positive counter nonempty.2, List.length_append, List.length_zipWith,
        inductionHypothesis, List.length_take, List.length_drop, fills]
      omega
  | case2 counter items exhausted =>
      have empty : items = [] := by
        by_contra nonempty
        exact exhausted ⟨positive, nonempty⟩
      rw [empty, crypt_nil]

/-- Pieces that are cut at block boundaries are combined one after the other. -/
theorem crypt_append (positive : 0 < size) (counter : Counter) {front back : List Item}
    (whole : size ∣ front.length ∨ back = []) :
    crypt keyStream next combine size counter (front ++ back) =
      crypt keyStream next combine size counter front ++
        crypt keyStream next combine size (next^[blocks size front.length] counter) back := by
  rcases whole with whole | rfl
  · induction counter, front using crypt.induct next size with
    | case1 counter front nonempty inductionHypothesis =>
        have enough : size ≤ front.length :=
          Nat.le_of_dvd (List.length_pos_iff.mpr nonempty.2) whole
        have cut : size ∣ (front.drop size).length := by
          rw [List.length_drop]
          exact Nat.dvd_sub whole dvd_rfl
        rw [crypt_of_ne_nil positive counter (List.append_ne_nil_of_left_ne_nil nonempty.2 back),
          crypt_of_ne_nil positive counter nonempty.2, List.take_append_of_le_length enough,
          List.drop_append_of_le_length enough, inductionHypothesis cut,
          blocks_drop positive nonempty.2,
          Function.iterate_succ_apply, List.append_assoc]
    | case2 counter front exhausted =>
        have empty : front = [] := by
          by_contra nonempty
          exact exhausted ⟨positive, nonempty⟩
        rw [empty, crypt_nil, List.length_nil, blocks_zero positive]
        rfl
  · rw [crypt_nil, List.append_nil, List.append_nil]

/-! ### Positions in the stream -/

variable (keyStream next combine size) in
/-- The item of the stream at a position. -/
def streamAt (filler : Item) (counter : Counter) (position : Nat) : Item :=
  (keyStream (next^[position / size] counter)).getD (position % size) filler

variable (keyStream next combine size) in
/-- Combine items with the stream from a position on. -/
def cryptFrom (filler : Item) (counter : Counter) (position : Nat) (items : List Item) :
    List Item :=
  items.mapIdx fun index item =>
    combine item (streamAt keyStream next size filler counter (position + index))

variable {filler : Item}

@[simp]
theorem length_cryptFrom (counter : Counter) (position : Nat) (items : List Item) :
    (cryptFrom keyStream next combine size filler counter position items).length =
      items.length := by
  simp [cryptFrom]

/-- A stream can be cut anywhere. -/
theorem cryptFrom_append (counter : Counter) (position : Nat) (front back : List Item) :
    cryptFrom keyStream next combine size filler counter position (front ++ back) =
      cryptFrom keyStream next combine size filler counter position front ++
        cryptFrom keyStream next combine size filler counter (position + front.length) back := by
  rw [cryptFrom, List.mapIdx_append]
  simp only [cryptFrom, Nat.add_assoc, Nat.add_comm front.length]

/-- Items inside one block are combined with a part of it. -/
theorem zipWith_eq_cryptFrom (fills : ∀ counter, (keyStream counter).length = size)
    (counter : Counter) (block : Nat) {offset : Nat} {items : List Item}
    (inside : offset + items.length ≤ size) :
    List.zipWith combine items ((keyStream (next^[block] counter)).drop offset) =
      cryptFrom keyStream next combine size filler counter (size * block + offset) items := by
  have lengths : (keyStream (next^[block] counter)).length = size := fills _
  apply List.ext_getElem
  · simp only [List.length_zipWith, List.length_drop, length_cryptFrom, lengths]
    omega
  · intro index _ within
    rw [length_cryptFrom] at within
    have quotient : (size * block + offset + index) / size = block := by
      rw [Nat.add_assoc, Nat.mul_add_div (by omega), Nat.div_eq_of_lt (by omega), Nat.add_zero]
    have remainder : (size * block + offset + index) % size = offset + index := by
      rw [Nat.add_assoc, Nat.mul_add_mod, Nat.mod_eq_of_lt (by omega)]
    simp only [List.getElem_zipWith, List.getElem_drop, cryptFrom, List.getElem_mapIdx, streamAt,
      quotient, remainder]
    rw [List.getD_eq_getElem _ _ (by omega)]

end CounterMode

end Foundation
