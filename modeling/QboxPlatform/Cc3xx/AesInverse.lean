import QboxPlatform.Cc3xx.Aes

/-!
# The block functions are inverse to each other

Every layer of a round is a permutation of the blocks: the two tables undo each other, the row
shifts undo each other, and the column mixing is a linear map over the bytes whose inverse is
computed by another multiplication.  The rounds are undone one by one, in the opposite order.
-/

namespace QboxPlatform.Cc3xx

open Foundation

theorem aesInvSbox_aesSbox : ∀ value, aesInvSbox (aesSbox value) = value := by decide +kernel

theorem aesSbox_aesInvSbox : ∀ value, aesSbox (aesInvSbox value) = value := by
  have onto : Function.Surjective aesSbox :=
    Finite.surjective_of_injective (Function.LeftInverse.injective aesInvSbox_aesSbox)
  exact Function.LeftInverse.rightInverse_of_surjective aesInvSbox_aesSbox onto

theorem aesXtime_eq (value : Byte) :
    aesXtime value = value <<< 1 ^^^ if value.msb then 0x1b else 0 := by
  revert value
  decide +kernel

theorem xor_left_comm (first second third : Byte) :
    first ^^^ (second ^^^ third) = second ^^^ (first ^^^ third) := by
  rw [← BitVec.xor_assoc, ← BitVec.xor_assoc, BitVec.xor_comm first]

theorem aesXtime_xor (first second : Byte) :
    aesXtime (first ^^^ second) = aesXtime first ^^^ aesXtime second := by
  simp only [aesXtime_eq, BitVec.msb_xor, BitVec.shiftLeft_xor_distrib]
  cases first.msb <;> cases second.msb <;> simp [BitVec.xor_assoc, BitVec.xor_comm, xor_left_comm]

namespace Column

@[simp]
theorem xor_xor_cancel (first second : Column) : (first.xor second).xor second = first := by
  simp [xor]

theorem map_map_cancel {forward backward : Byte → Byte}
    (inverse : ∀ value, backward (forward value) = value) (column : Column) :
    (column.map forward).map backward = column := by
  simp [map, inverse]

end Column

/-- Four times the sums of the opposite bytes of a column. -/
def opposite (column : Column) : Column :=
  let even := aesXtime (aesXtime (column.b0 ^^^ column.b2))
  let odd := aesXtime (aesXtime (column.b1 ^^^ column.b3))
  ⟨even, odd, even, odd⟩

/-- What the inverse mixing adds to the mixing. -/
def correction (column : Column) : Column :=
  let both := aesXtime (aesXtime (aesXtime (column.b0 ^^^ column.b1 ^^^ column.b2 ^^^ column.b3)))
  (opposite column).xor ⟨both, both, both, both⟩

theorem invMixColumn_eq (column : Column) :
    invMixColumn column = (mixColumn column).xor (correction column) := by
  simp [invMixColumn, mixColumn, correction, opposite, Column.xor, aesMul, aesXtime_xor,
    BitVec.xor_assoc, BitVec.xor_comm, xor_left_comm]

theorem mixColumn_xor (first second : Column) :
    mixColumn (first.xor second) = (mixColumn first).xor (mixColumn second) := by
  simp [mixColumn, Column.xor, aesXtime_xor, BitVec.xor_assoc, BitVec.xor_comm, xor_left_comm]

/-- Mixing twice adds the opposite bytes. -/
theorem mixColumn_mixColumn (column : Column) :
    mixColumn (mixColumn column) = column.xor (opposite column) := by
  simp [mixColumn, opposite, Column.xor, aesXtime_xor, BitVec.xor_assoc, BitVec.xor_comm,
    xor_left_comm]

theorem correction_mixColumn (column : Column) :
    correction (mixColumn column) = opposite column := by
  simp [mixColumn, correction, opposite, Column.xor, aesXtime_xor, BitVec.xor_assoc,
    BitVec.xor_comm, xor_left_comm]

theorem mixColumn_correction (column : Column) :
    mixColumn (correction column) = opposite column := by
  simp [mixColumn, correction, opposite, Column.xor, aesXtime_xor, BitVec.xor_assoc,
    BitVec.xor_comm, xor_left_comm]

theorem invMixColumn_mixColumn (column : Column) : invMixColumn (mixColumn column) = column := by
  rw [invMixColumn_eq, mixColumn_mixColumn, correction_mixColumn, Column.xor_xor_cancel]

theorem mixColumn_invMixColumn (column : Column) : mixColumn (invMixColumn column) = column := by
  rw [invMixColumn_eq, mixColumn_xor, mixColumn_mixColumn, mixColumn_correction,
    Column.xor_xor_cancel]

namespace Block

@[simp]
theorem xor_xor_cancel (first second : Block) : (first.xor second).xor second = first := by
  simp [xor]

theorem map_map_cancel {forward backward : Column → Column}
    (inverse : ∀ column, backward (forward column) = column) (block : Block) :
    (block.map forward).map backward = block := by
  simp [map, inverse]

end Block

/-- `aes_sub_bytes`, with its inverse. -/
def subBytesEquiv : Block ≃ Block where
  toFun := aesSubBytes
  invFun := aesInvSubBytes
  left_inv := Block.map_map_cancel (Column.map_map_cancel aesInvSbox_aesSbox)
  right_inv := Block.map_map_cancel (Column.map_map_cancel aesSbox_aesInvSbox)

/-- `aes_shift_rows`, with its inverse. -/
def shiftRowsEquiv : Block ≃ Block where
  toFun := aesShiftRows
  invFun := aesInvShiftRows
  left_inv _ := rfl
  right_inv _ := rfl

/-- `aes_mix_columns`, with its inverse. -/
def mixColumnsEquiv : Block ≃ Block where
  toFun := aesMixColumns
  invFun := aesInvMixColumns
  left_inv := Block.map_map_cancel invMixColumn_mixColumn
  right_inv := Block.map_map_cancel mixColumn_invMixColumn

/-- The layers before the mixing. -/
def substitution : Block ≃ Block := subBytesEquiv.trans shiftRowsEquiv

/-- One middle round under a round key. -/
def encryptRound (key : Block) : Block ≃ Block where
  toFun state := (mixColumnsEquiv (substitution state)).xor key
  invFun state := substitution.symm (mixColumnsEquiv.symm (state.xor key))
  left_inv state := by simp
  right_inv state := by simp

theorem encryptRounds_succ (words : List Column) (remaining round : Nat) (state : Block) :
    encryptRounds words (remaining + 1) round state =
      encryptRound (roundKey words (round + remaining))
        (encryptRounds words remaining round state) := by
  induction remaining generalizing round state with
  | zero => rfl
  | succ remaining inductionHypothesis =>
      rw [encryptRounds, inductionHypothesis, encryptRounds, Nat.add_assoc, Nat.add_comm 1]

/-- The middle rounds of the decryption, seen through the substitution, undo the last middle
round of the encryption first. -/
theorem decryptRounds_succ (words : List Column) (round : Nat) (state : Block) :
    decryptRounds words (round + 1) (substitution state) =
      decryptRounds words round
        (substitution ((encryptRound (roundKey words (round + 1))).symm state)) := by
  have undone : aesInvSubBytes (aesInvShiftRows (substitution state)) = state :=
    substitution.symm_apply_apply state
  have mixed : substitution ((encryptRound (roundKey words (round + 1))).symm state) =
      aesInvMixColumns (state.xor (roundKey words (round + 1))) :=
    substitution.apply_symm_apply _
  rw [decryptRounds, undone, mixed]

/-- The decryption rounds take back the encryption rounds. -/
theorem decryptRounds_encryptRounds (words : List Column) (rounds : Nat) (state : Block) :
    decryptRounds words rounds (substitution (encryptRounds words rounds 1 state)) =
      substitution state := by
  induction rounds with
  | zero => rfl
  | succ rounds inductionHypothesis =>
      rw [encryptRounds_succ, decryptRounds_succ, Nat.add_comm 1 rounds,
        Equiv.symm_apply_apply, inductionHypothesis]

theorem encryptRounds_decryptRounds (words : List Column) (rounds : Nat) (state : Block) :
    encryptRounds words rounds 1 (substitution.symm (decryptRounds words rounds state)) =
      substitution.symm state := by
  induction rounds generalizing state with
  | zero => rfl
  | succ rounds inductionHypothesis =>
      obtain ⟨start, rfl⟩ := substitution.surjective state
      rw [encryptRounds_succ, decryptRounds_succ, inductionHypothesis, Nat.add_comm 1 rounds]
      simp only [Equiv.symm_apply_apply, Equiv.apply_symm_apply]

theorem decryptBlock_encryptBlock {key : List Byte}
    (supported : key.length = 16 ∨ key.length = 24 ∨ key.length = 32) (block : Block) :
    ∃ output, aesEncryptBlock key block = some output ∧
      aesDecryptBlock key output = some block := by
  obtain ⟨words, rounds, expanded⟩ : ∃ words rounds, aesExpandKey key = some (words, rounds) :=
    ⟨_, _, if_pos supported⟩
  have layers (state : Block) : aesShiftRows (aesSubBytes state) = substitution state := rfl
  have invLayers (state : Block) :
      aesInvSubBytes (aesInvShiftRows state) = substitution.symm state := rfl
  unfold aesEncryptBlock aesDecryptBlock
  simp only [expanded, Option.map_some]
  refine ⟨_, rfl, congrArg some ?_⟩
  simp only [layers, invLayers]
  rw [Block.xor_xor_cancel, decryptRounds_encryptRounds, Equiv.symm_apply_apply,
    Block.xor_xor_cancel]

theorem encryptBlock_decryptBlock {key : List Byte}
    (supported : key.length = 16 ∨ key.length = 24 ∨ key.length = 32) (block : Block) :
    ∃ output, aesDecryptBlock key block = some output ∧
      aesEncryptBlock key output = some block := by
  obtain ⟨words, rounds, expanded⟩ : ∃ words rounds, aesExpandKey key = some (words, rounds) :=
    ⟨_, _, if_pos supported⟩
  have layers (state : Block) : aesShiftRows (aesSubBytes state) = substitution state := rfl
  have invLayers (state : Block) :
      aesInvSubBytes (aesInvShiftRows state) = substitution.symm state := rfl
  unfold aesEncryptBlock aesDecryptBlock
  simp only [expanded, Option.map_some]
  refine ⟨_, rfl, congrArg some ?_⟩
  simp only [layers, invLayers]
  rw [Block.xor_xor_cancel, encryptRounds_decryptRounds, Equiv.apply_symm_apply,
    Block.xor_xor_cancel]

/-- Under a key of a supported length each block function takes back the other. -/
theorem aesBlock_inverse (key : List Byte)
    (supported : key.length = 16 ∨ key.length = 24 ∨ key.length = 32) (block : Block) :
    (aesEncryptBlock key block).bind (aesDecryptBlock key) = some block ∧
      (aesDecryptBlock key block).bind (aesEncryptBlock key) = some block := by
  obtain ⟨encryptedBlock, encrypts, takenBack⟩ := decryptBlock_encryptBlock supported block
  obtain ⟨decryptedBlock, decrypts, restored⟩ := encryptBlock_decryptBlock supported block
  rw [encrypts, decrypts]
  exact ⟨takenBack, restored⟩

/-- A zero block under a key of 24 zero bytes. -/
theorem aesBlock_inverse_zero :
    (aesEncryptBlock (List.replicate 24 0) .zero).bind (aesDecryptBlock (List.replicate 24 0)) =
        some .zero ∧
      (aesDecryptBlock (List.replicate 24 0) .zero).bind (aesEncryptBlock (List.replicate 24 0)) =
        some .zero :=
  aesBlock_inverse _ (by decide) _

end QboxPlatform.Cc3xx
