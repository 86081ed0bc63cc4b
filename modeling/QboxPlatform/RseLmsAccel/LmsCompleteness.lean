import QboxPlatform.RseLmsAccel.LmsScheme

/-!
# Every signature of the scheme is accepted

The verifier finishes the chains that the signature stopped, and climbs from the leaf to the root.
-/

namespace QboxPlatform.RseLmsAccel

open Foundation

namespace LmsScheme

theorem length_numberString (count value : Nat) : (numberString count value).length = count := by
  rw [numberString, List.length_reverse, List.length_map, List.length_range]

theorem byteOf_ofNat {width index : Nat} (inside : 8 * index + 8 ≤ width) (value : Nat) :
    byteOf (BitVec.ofNat width value) index = BitVec.ofNat 8 (value / 256 ^ index) := by
  have power : (2 : Nat) ^ (8 * index) = 256 ^ index := pow_mul 2 8 index
  apply BitVec.eq_of_getLsbD_eq
  intro bit low
  rw [getLsbD_byteOf, BitVec.getLsbD_ofNat, BitVec.getLsbD_ofNat, ← power,
    Nat.testBit_div_two_pow]
  have position : 8 * index + bit < width := by omega
  simp only [low, position, decide_true, Bool.true_and]
  rw [Nat.add_comm]

theorem numberString_eq {width count : Nat} (enough : 8 * count ≤ width) (value : Nat) :
    (toBytes count (BitVec.ofNat width value)).reverse = numberString count value := by
  rw [numberString, toBytes]
  refine congrArg List.reverse (List.map_congr_left fun index member => ?_)
  have inside := List.mem_range.mp member
  exact byteOf_ofNat (by omega) value

theorem storeBe32_ofNat (value : Nat) :
    storeBe32 (BitVec.ofNat 32 value) = numberString 4 value := numberString_eq (by decide) value

theorem storeBe16_ofNat (value : Nat) :
    storeBe16 (BitVec.ofNat 16 value) = numberString 2 value := numberString_eq (by decide) value

theorem ofBytes_four (first second third fourth : Byte) :
    ofBytes 32 [first, second, third, fourth] =
      fourth.setWidth 32 <<< 24 ||| third.setWidth 32 <<< 16 ||| second.setWidth 32 <<< 8 |||
        first.setWidth 32 := by
  have unfolded : ofBytes 32 [first, second, third, fourth] =
      first.setWidth 32 ||| (second.setWidth 32 ||| (third.setWidth 32 |||
        (fourth.setWidth 32 ||| 0#32 <<< 8) <<< 8) <<< 8) <<< 8 := rfl
  generalize first.setWidth 32 = word0, second.setWidth 32 = word1, third.setWidth 32 = word2,
    fourth.setWidth 32 = word3 at unfolded ⊢
  have twice (word : BitVec 32) : word <<< 8 <<< 8 = word <<< 16 :=
    (BitVec.shiftLeft_add word 8 8).symm
  have thrice (word : BitVec 32) : word <<< 8 <<< 16 = word <<< 24 :=
    (BitVec.shiftLeft_add word 8 16).symm
  rw [unfolded, BitVec.zero_shiftLeft, BitVec.or_zero, BitVec.shiftLeft_or_distrib word2,
    BitVec.shiftLeft_or_distrib word1, BitVec.shiftLeft_or_distrib (word2 <<< 8), twice, twice,
    thrice, BitVec.or_comm word0, BitVec.or_comm (word1 <<< 8),
    BitVec.or_comm (word2 <<< 16)]

theorem loadBe32_numberString (value : Nat) (rest : List Byte) :
    loadBe32 (numberString 4 value ++ rest) = BitVec.ofNat 32 value := by
  have decoded := ofBytes_toBytes (BitVec.ofNat 32 value) (show 32 ≤ 8 * 4 by decide)
  rw [← storeBe32_ofNat, loadBe32]
  exact (ofBytes_four _ _ _ _).symm.trans decoded

theorem coef_eq (text : List Byte) (index : Nat) :
    coef text index w = (text.getD index 0).toNat := by
  have below := (text.getD index 0).isLt
  rw [coef, w, Nat.mul_div_cancel _ (by decide), Nat.and_comm, Nat.and_two_pow_sub_one_eq_mod,
    Nat.div_self (by decide), Nat.mod_one]
  exact Nat.mod_eq_of_lt below

theorem checksum_eq (text : List Byte) :
    checksum text = BitVec.ofNat 32 (text.map fun digit => 255 - digit.toNat).sum := by
  have folded : ∀ (sum : Nat), text.foldl
      (fun sum digit => sum + (0xff - digit.setWidth 32)) (BitVec.ofNat 32 sum) =
        BitVec.ofNat 32 (sum + (text.map fun digit => 255 - digit.toNat).sum) := by
    induction text with
    | nil =>
        intro sum
        rfl
    | cons digit rest inductionHypothesis =>
        intro sum
        have below := digit.isLt
        have step : BitVec.ofNat 32 sum + (0xff - digit.setWidth 32) =
            BitVec.ofNat 32 (sum + (255 - digit.toNat)) := by
          apply BitVec.eq_of_toNat_eq
          have wide : (digit.setWidth 32).toNat = digit.toNat :=
            BitVec.toNat_setWidth_of_le (by decide)
          have full : (0xff : BitVec 32).toNat = 255 := rfl
          rw [BitVec.toNat_add, BitVec.toNat_sub, wide, full, BitVec.toNat_ofNat,
            BitVec.toNat_ofNat]
          omega
        rw [List.foldl_cons, step, inductionHypothesis, List.map_cons, List.sum_cons,
          Nat.add_assoc]
  have whole := folded 0
  rwa [Nat.zero_add] at whole

theorem cksm_eq {text : List Byte} (length : text.length = hashLen) :
    cksm text = (text.map fun digit => 255 - digit.toNat).sum := by
  have indexed : ((List.range (hashLen * 8 / w)).map fun index => 2 ^ w - 1 - coef text index w) =
      text.map fun digit => 255 - digit.toNat := by
    apply List.ext_getElem
    · rw [List.length_map, List.length_range, List.length_map, length]
      rfl
    · intro index left right
      rw [List.length_map] at right
      rw [List.getElem_map, List.getElem_map, List.getElem_range, coef_eq,
        List.getD_eq_getElem _ _ right]
      rfl
  rw [cksm, indexed]
  rfl

theorem digits_eq {text : List Byte} (length : text.length = hashLen) :
    text ++ storeBe16 ((checksum text).setWidth 16) = digits text := by
  rw [digits, cksm_eq length, checksum_eq, ← storeBe16_ofNat]
  rw [BitVec.setWidth_ofNat_of_le (by decide)]

variable (hash : List Byte → Digest) (keyId : List.Vector Byte iKeyIdLen)
  (secret : Nat → Nat → Digest)

/-- The loop over `j` goes along the chain. -/
theorem hashDigit_eq (leaf index : Nat) (digit : Byte) (value : Digest) :
    hashDigit hash keyId.toList (numberString 4 leaf) index digit value.toList =
      (chain (chainStep hash keyId leaf index) digit.toNat (255 - digit.toNat) value).toList := by
  have steps : ∀ (indices : List Nat) (value : Digest), indices.foldl
      (fun tmp j => (hash (keyId.toList ++ numberString 4 leaf ++
        storeBe16 (BitVec.ofNat 16 index) ++ [BitVec.ofNat 8 j] ++ tmp)).toList) value.toList =
      (indices.foldl (fun value j => chainStep hash keyId leaf index j value) value).toList := by
    intro indices
    induction indices with
    | nil =>
        intro value
        rfl
    | cons j rest inductionHypothesis =>
        intro value
        have single : [BitVec.ofNat 8 j] = numberString 1 j :=
          congrArg (fun value => [BitVec.ofNat 8 value]) (Nat.div_one j).symm
        rw [List.foldl_cons, storeBe16_ofNat, single]
        rw [storeBe16_ofNat] at inductionHypothesis
        exact inductionHypothesis (chainStep hash keyId leaf index j value)
  exact steps _ value

theorem length_signedChains (leaf : Nat) (text : List Byte) :
    (signedChains hash keyId secret leaf text).length = p * hashLen :=
  length_flatMap_range fun _ _ => List.Vector.toList_length _

theorem length_otsSignature (leaf : Nat) (randomizer : Digest) (message : List Byte) :
    (otsSignature hash keyId secret leaf randomizer message).length = lmotsSigLen := by
  rw [otsSignature, List.length_append, List.length_append, length_numberString,
    length_signedChains, List.Vector.toList_length]
  rfl

/-- Each chain is finished where the one of the public key ends. -/
theorem finished_chain (leaf : Nat) {text : List Byte} {index : Nat} (inside : index < p) :
    hashDigit hash keyId.toList (numberString 4 leaf) index ((digits text).getD index 0)
        (((signedChains hash keyId secret leaf text).drop (index * hashLen)).take hashLen) =
      (chain (chainStep hash keyId leaf index) 0 (2 ^ w - 1) (secret leaf index)).toList := by
  have slice : ((signedChains hash keyId secret leaf text).drop (index * hashLen)).take hashLen =
      (chain (chainStep hash keyId leaf index) 0 (coef (digits text) index w)
        (secret leaf index)).toList :=
    @slice_flatMap_range _ _ _ p index (fun _ _ => List.Vector.toList_length _) inside
  have below := ((digits text).getD index 0).isLt
  rw [slice, coef_eq, hashDigit_eq]
  exact congrArg List.Vector.toList (chain_finish _ (Nat.le_of_lt_succ below) _)

/-- The candidate from a signature is the one-time public key. -/
theorem lmotsCandidate_otsSignature (leaf : Nat) (randomizer : Digest) (message : List Byte) :
    lmotsCandidate hash message (otsSignature hash keyId secret leaf randomizer message)
        keyId.toList (numberString 4 leaf) = some (otsPublicKey hash keyId secret leaf) := by
  have length := length_otsSignature hash keyId secret leaf randomizer message
  have type : loadBe32 (otsSignature hash keyId secret leaf randomizer message) =
      lmotsSha256N32W8 := by
    rw [otsSignature, List.append_assoc]
    exact loadBe32_numberString otsType _
  have random : ((otsSignature hash keyId secret leaf randomizer message).drop 4).take hashLen =
      randomizer.toList := by
    rw [otsSignature, List.append_assoc, List.drop_left' (length_numberString 4 _),
      List.take_left' (List.Vector.toList_length _)]
  have chains : (otsSignature hash keyId secret leaf randomizer message).drop (4 + hashLen) =
      signedChains hash keyId secret leaf
        (messageHash hash keyId leaf randomizer message).toList := by
    rw [otsSignature, List.drop_left']
    rw [List.length_append, length_numberString, List.Vector.toList_length]
  have hashed : hash (keyId.toList ++ numberString 4 leaf ++ dMessage ++ randomizer.toList ++
      message) = messageHash hash keyId leaf randomizer message := rfl
  unfold lmotsCandidate
  rw [if_neg (not_or.mpr ⟨not_not.mpr length, not_not.mpr type⟩)]
  dsimp only
  rw [random, chains, hashed, digits_eq (List.Vector.toList_length _)]
  have finished : ((List.range lmotsP).flatMap fun index =>
      hashDigit hash keyId.toList (numberString 4 leaf) index
        ((digits (messageHash hash keyId leaf randomizer message).toList).getD index 0)
        (((signedChains hash keyId secret leaf
          (messageHash hash keyId leaf randomizer message).toList).drop (index * hashLen)).take
            hashLen)) =
      (List.range p).flatMap fun index =>
        (chain (chainStep hash keyId leaf index) 0 (2 ^ w - 1) (secret leaf index)).toList := by
    apply List.flatMap_congr
    intro index member
    exact finished_chain hash keyId secret leaf (List.mem_range.mp member)
  rw [finished]
  rfl

/-- One level of the path is one level of the climb. -/
theorem climbPath_eq {bytes : List Byte} {level : Nat} {node other : Digest} {number : Nat}
    (small : number < 2 ^ 32)
    (read : (bytes.drop (level * hashLen)).take hashLen = other.toList) :
    climbPath hash keyId.toList bytes (BitVec.ofNat 32 number, node.toList) level =
      (BitVec.ofNat 32 (climb (innerNode hash keyId) (number, node) other).1,
        (climb (innerNode hash keyId) (number, node) other).2.toList) := by
  have parent : BitVec.ofNat 32 number / 2 = BitVec.ofNat 32 (number / 2) := by
    apply BitVec.eq_of_toNat_eq
    rw [BitVec.toNat_udiv, BitVec.toNat_ofNat, BitVec.toNat_ofNat, Nat.mod_eq_of_lt small,
      Nat.mod_eq_of_lt (by omega)]
    rfl
  have odd : BitVec.ofNat 32 number &&& 1 ≠ 0 ↔ number % 2 = 1 := by
    have bit := and_bit_ne_zero_iff (BitVec.ofNat 32 number) (show 0 < 32 by decide)
    rw [BitVec.getLsbD_ofNat, Nat.testBit_zero] at bit
    refine Iff.trans bit ?_
    rw [Bool.and_eq_true, decide_eq_true_eq, decide_eq_true_eq]
    exact and_iff_right (by decide)
  unfold climbPath climb
  dsimp only
  rw [parent, read, storeBe32_ofNat]
  simp only [odd]
  split
  · rfl
  · rfl

theorem climb_path (leaf : Nat) (inside : leaf < 2 ^ h) {count : Nat} (within : count ≤ h) :
    (List.range count).foldl
        (climbPath hash keyId.toList
          ((path hash keyId secret leaf).flatMap List.Vector.toList))
        (BitVec.ofNat 32 (2 ^ h + leaf), (leafNode hash keyId secret (2 ^ h + leaf)).toList) =
      (BitVec.ofNat 32 ((2 ^ h + leaf) / 2 ^ count),
        (treeNode (leafNode hash keyId secret) (innerNode hash keyId) count
          ((2 ^ h + leaf) / 2 ^ count)).toList) := by
  induction count with
  | zero =>
      rw [pow_zero, Nat.div_one]
      rfl
  | succ count inductionHypothesis =>
      have bounded : 2 ^ h + leaf < 2 ^ 32 := by
        rw [h] at inside ⊢
        omega
      have small := (Nat.div_le_self (2 ^ h + leaf) (2 ^ count)).trans_lt bounded
      have above : (2 ^ h + leaf) / 2 ^ (count + 1) = (2 ^ h + leaf) / 2 ^ count / 2 := by
        rw [pow_succ, Nat.div_div_eq_div_mul]
      have read : (((path hash keyId secret leaf).flatMap List.Vector.toList).drop
          (count * hashLen)).take hashLen =
            (treeNode (leafNode hash keyId secret) (innerNode hash keyId) count
              (sibling ((2 ^ h + leaf) / 2 ^ count))).toList := by
        rw [path, treePath, List.flatMap_map]
        exact @slice_flatMap_range _ _ _ h count (fun _ _ => List.Vector.toList_length _) within
      rw [List.range_succ, List.foldl_append, inductionHypothesis (Nat.le_of_succ_le within),
        List.foldl_cons, List.foldl_nil, climbPath_eq hash keyId small read, climb_treeNode,
        above]

theorem rootOfPath_path (leaf : Nat) (inside : leaf < 2 ^ h) :
    rootOfPath hash keyId.toList ((path hash keyId secret leaf).flatMap List.Vector.toList)
        (BitVec.ofNat 32 leaf) (otsPublicKey hash keyId secret leaf) =
      (root hash keyId secret).toList := by
  have number : BitVec.ofNat 32 (1 <<< lmsHeight) + BitVec.ofNat 32 leaf =
      BitVec.ofNat 32 (2 ^ h + leaf) := (BitVec.ofNat_add ..).symm
  have node : hash (keyId.toList ++ numberString 4 (2 ^ h + leaf) ++ dLeaf ++
      (otsPublicKey hash keyId secret leaf).toList) =
        leafNode hash keyId secret (2 ^ h + leaf) := by
    rw [leafNode, Nat.add_sub_cancel_left]
    rfl
  have top : (2 ^ h + leaf) / 2 ^ h = 1 := by
    rw [h] at inside ⊢
    omega
  have climbed := climb_path hash keyId secret leaf inside (Nat.le_refl h)
  rw [top] at climbed
  unfold rootOfPath
  dsimp only
  rw [number, storeBe32_ofNat, node]
  exact congrArg Prod.snd climbed

theorem length_publicKey : (publicKey hash keyId secret).length = lmsPublicKeyLen := by
  rw [publicKey, List.length_append, List.length_append, List.length_append,
    length_numberString, length_numberString, List.Vector.toList_length,
    List.Vector.toList_length]
  rfl

theorem length_path (leaf : Nat) :
    ((path hash keyId secret leaf).flatMap List.Vector.toList).length = h * hashLen := by
  rw [path, treePath, List.flatMap_map]
  exact length_flatMap_range fun _ _ => List.Vector.toList_length _

theorem length_signature (leaf : Nat) (randomizer : Digest) (message : List Byte) :
    (signature hash keyId secret leaf randomizer message).length = lmsSigLen := by
  rw [signature, List.length_append, List.length_append, List.length_append,
    length_numberString, length_numberString, length_otsSignature, length_path]
  rfl

end LmsScheme

open LmsScheme

/-- Completeness: every signature of the scheme is accepted under the public key. -/
theorem verify_signature (hash : List Byte → Digest) (keyId : List.Vector Byte iKeyIdLen)
    (secret : Nat → Nat → Digest) (leaf : Fin (2 ^ 10)) (randomizer : Digest)
    (message : List Byte) :
    verify hash (publicKey hash keyId secret) message
      (signature hash keyId secret leaf randomizer message) = true := by
  have keyTypes : loadBe32 (publicKey hash keyId secret) = lmsSha256M32H10 ∧
      loadBe32 ((publicKey hash keyId secret).drop 4) = lmotsSha256N32W8 := by
    constructor
    · rw [publicKey, List.append_assoc, List.append_assoc]
      exact loadBe32_numberString lmsType _
    · rw [publicKey, List.append_assoc, List.append_assoc,
        List.drop_left' (length_numberString 4 _)]
      exact loadBe32_numberString otsType _
  have key : ((publicKey hash keyId secret).drop 8).take iKeyIdLen = keyId.toList := by
    rw [publicKey, List.append_assoc, List.drop_left',
      List.take_left' (List.Vector.toList_length _)]
    rw [List.length_append, length_numberString, length_numberString]
  have publicRoot : ((publicKey hash keyId secret).drop 24).take hashLen =
      (root hash keyId secret).toList := by
    rw [publicKey, List.drop_left', List.take_of_length_le]
    · exact (List.Vector.toList_length _).le
    · rw [List.length_append, List.length_append, length_numberString, length_numberString,
        List.Vector.toList_length]
      rfl
  have leafId : loadBe32 (signature hash keyId secret leaf randomizer message) =
      BitVec.ofNat 32 leaf := by
    rw [signature, List.append_assoc, List.append_assoc]
    exact loadBe32_numberString leaf _
  have one : ((signature hash keyId secret leaf randomizer message).drop 4).take lmotsSigLen =
      otsSignature hash keyId secret leaf randomizer message := by
    rw [signature, List.append_assoc, List.append_assoc,
      List.drop_left' (length_numberString 4 _), List.take_left' (length_otsSignature ..)]
  have type : loadBe32 ((signature hash keyId secret leaf randomizer message).drop
      (4 + lmotsSigLen)) = lmsSha256M32H10 := by
    rw [signature, List.append_assoc, List.drop_left']
    · exact loadBe32_numberString lmsType _
    · rw [List.length_append, length_numberString, length_otsSignature]
  have siblings : (signature hash keyId secret leaf randomizer message).drop
      (4 + lmotsSigLen + 4) = (path hash keyId secret leaf).flatMap List.Vector.toList := by
    rw [signature, List.drop_left']
    rw [List.length_append, List.length_append, length_numberString, length_otsSignature,
      length_numberString]
  have small : ¬BitVec.ofNat 32 (1 <<< lmsHeight) ≤ BitVec.ofNat 32 leaf.val := by
    have inside := leaf.isLt
    have value : (BitVec.ofNat 32 leaf.val).toNat = leaf.val := Nat.mod_eq_of_lt (by omega)
    rw [BitVec.le_def, value]
    exact Nat.not_le.mpr inside
  have lengths : ¬((publicKey hash keyId secret).length ≠ lmsPublicKeyLen ∨
      (signature hash keyId secret leaf randomizer message).length ≠ lmsSigLen) := by
    rw [length_publicKey, length_signature]
    decide
  unfold verify
  dsimp only
  rw [if_neg lengths, keyTypes.1, keyTypes.2, if_neg (by decide), type, if_neg (not_not.mpr rfl),
    leafId, if_neg small, one, key, storeBe32_ofNat, lmotsCandidate_otsSignature, siblings,
    publicRoot]
  dsimp only
  rw [rootOfPath_path hash keyId secret leaf leaf.isLt]
  exact beq_self_eq_true _

end QboxPlatform.RseLmsAccel
