import QboxPlatform.RseLmsAccel.Incomparable

/-!
# Only signatures of the scheme are accepted

Under the public key of some private strings an accepted signature is the one that the scheme makes
with them, or two strings have one hash: one that is hashed to check the signature, and another
one that was hashed to make the key.
-/

namespace QboxPlatform.RseLmsAccel

open Foundation

namespace LmsScheme

section Strings

variable (keyId : List.Vector Byte iKeyIdLen)

def chainString (leaf index j : Nat) (value : Digest) : List Byte :=
  keyId.toList ++ numberString 4 leaf ++ numberString 2 index ++ numberString 1 j ++ value.toList

def endsString (leaf : Nat) (ends : Nat → Digest) : List Byte :=
  keyId.toList ++ numberString 4 leaf ++ numberString 2 0x8080 ++
    (List.range p).flatMap fun index => (ends index).toList

def leafString (number : Nat) (candidate : Digest) : List Byte :=
  keyId.toList ++ numberString 4 number ++ numberString 2 0x8282 ++ candidate.toList

def innerString (number : Nat) (left right : Digest) : List Byte :=
  keyId.toList ++ numberString 4 number ++ numberString 2 0x8383 ++ left.toList ++ right.toList

theorem chainString_injective {leaf index j : Nat} {first second : Digest}
    (same : chainString keyId leaf index j first = chainString keyId leaf index j second) :
    first = second :=
  List.Vector.toList_injective (List.append_cancel_left same)

theorem leafString_injective {number : Nat} {first second : Digest}
    (same : leafString keyId number first = leafString keyId number second) : first = second :=
  List.Vector.toList_injective (List.append_cancel_left same)

theorem innerString_injective {number : Nat} {left right left' right' : Digest}
    (same : innerString keyId number left right = innerString keyId number left' right') :
    (left, right) = (left', right') := by
  unfold innerString at same
  rw [List.append_assoc _ left.toList, List.append_assoc _ left'.toList] at same
  have parts := List.append_inj (List.append_cancel_left same)
    (left.toList_length.trans left'.toList_length.symm)
  rw [List.Vector.toList_injective parts.1, List.Vector.toList_injective parts.2]

theorem endsString_injective {leaf : Nat} {first second : Nat → Digest}
    (same : endsString keyId leaf first = endsString keyId leaf second) {index : Nat}
    (inside : index < p) : first index = second index := by
  have pieces := List.append_cancel_left same
  have left := @slice_flatMap_range _ (fun index => (first index).toList) hashLen p index
    (fun _ _ => List.Vector.toList_length _) inside
  have right := @slice_flatMap_range _ (fun index => (second index).toList) hashLen p index
    (fun _ _ => List.Vector.toList_length _) inside
  rw [pieces] at left
  exact List.Vector.toList_injective (left.symm.trans right)

end Strings

def toDigest (bytes : List Byte) : Digest := List.Vector.ofFn fun index => bytes.getD index 0

/-- The digest with an index in a string of them. -/
def digestOf (bytes : List Byte) (index : Nat) : Digest :=
  toDigest ((bytes.drop (index * hashLen)).take hashLen)

def leafOf (sig : List Byte) : Nat := (loadBe32 sig).toNat

def randomizerOf (sig : List Byte) : Digest := toDigest ((sig.drop 8).take hashLen)

def valueOf (sig : List Byte) : Nat → Digest := digestOf (sig.drop (8 + hashLen))

def siblingsOf (sig : List Byte) : List Digest :=
  (List.range h).map (digestOf (sig.drop (4 + lmotsSigLen + 4)))

theorem toDigest_toList {bytes : List Byte} (length : bytes.length = hashLen) :
    (toDigest bytes).toList = bytes := by
  rw [toDigest, List.Vector.toList_ofFn]
  apply List.ext_getElem
  · rw [List.length_ofFn, length]
  · intro index left right
    rw [List.getElem_ofFn, List.getD_eq_getElem _ _ right]

theorem digestOf_toList {bytes : List Byte} {index : Nat}
    (enough : (index + 1) * hashLen ≤ bytes.length) :
    (digestOf bytes index).toList = (bytes.drop (index * hashLen)).take hashLen := by
  apply toDigest_toList
  rw [Nat.succ_mul] at enough
  rw [List.length_take, List.length_drop]
  omega

/-- A string of digests, put together from them. -/
theorem flatMap_digestOf {bytes : List Byte} {count : Nat}
    (enough : count * hashLen ≤ bytes.length) :
    ((List.range count).flatMap fun index => (digestOf bytes index).toList) =
      bytes.take (count * hashLen) := by
  induction count with
  | zero => rw [Nat.zero_mul, List.take_zero, List.range_zero, List.flatMap_nil]
  | succ count inductionHypothesis =>
      have front : count * hashLen ≤ bytes.length := by
        rw [Nat.succ_mul] at enough
        exact (Nat.le_add_right _ _).trans enough
      rw [List.range_succ, List.flatMap_append, inductionHypothesis front,
        List.flatMap_singleton, digestOf_toList enough, Nat.succ_mul, List.take_add]

/-- Four bytes are the string of their number. -/
theorem numberString_loadBe32 {bytes : List Byte} (length : 4 ≤ bytes.length) :
    numberString 4 (loadBe32 bytes).toNat = bytes.take 4 := by
  have parts : bytes.take 4 =
      [bytes.getD 0 0, bytes.getD 1 0, bytes.getD 2 0, bytes.getD 3 0] := by
    apply List.ext_getElem
    · rw [List.length_take_of_le length]
      rfl
    · intro index left right
      rw [List.length_take_of_le length] at left
      rw [List.getElem_take]
      interval_cases index <;> exact (List.getD_eq_getElem _ _ _).symm
  have loaded : loadBe32 bytes = ofBytes 32 (bytes.take 4).reverse := by
    rw [parts]
    exact (ofBytes_four _ _ _ _).symm
  have size : (bytes.take 4).reverse.length = 4 := by
    rw [List.length_reverse, List.length_take_of_le length]
  have encoded := @toBytes_ofBytes 32 (bytes.take 4).reverse (by rw [size])
  rw [size, ← loaded] at encoded
  have string := @numberString_eq 32 4 (by decide) (loadBe32 bytes).toNat
  rw [BitVec.ofNat_toNat, BitVec.setWidth_eq, encoded, List.reverse_reverse] at string
  exact string.symm

theorem take_drop_append {α : Type} (items : List α) (first count : Nat) :
    (items.drop first).take count ++ items.drop (first + count) = items.drop first := by
  rw [← List.drop_drop, List.take_append_drop]

variable {sig : List Byte}

theorem drop_length_le (length : sig.length = lmsSigLen) {first count : Nat}
    (inside : first + count ≤ lmsSigLen) : count ≤ (sig.drop first).length := by
  rw [List.length_drop, length]
  omega

theorem ots_parts (length : sig.length = lmsSigLen)
    (type : loadBe32 ((sig.drop 4).take lmotsSigLen) = lmotsSha256N32W8) :
    numberString 4 otsType ++ (randomizerOf sig).toList ++
        ((List.range p).flatMap fun index => (valueOf sig index).toList) =
      (sig.drop 4).take lmotsSigLen := by
  have typed := @numberString_loadBe32 ((sig.drop 4).take lmotsSigLen) (by
    rw [List.length_take, List.length_drop, length]
    decide)
  rw [type, List.take_take, show min 4 lmotsSigLen = 4 from rfl] at typed
  have random : (randomizerOf sig).toList = (sig.drop 8).take hashLen := by
    apply toDigest_toList
    exact List.length_take_of_le (drop_length_le length (by decide))
  have values := @flatMap_digestOf (sig.drop (8 + hashLen)) p
    (drop_length_le length (by decide))
  have sizes : lmotsSigLen = 4 + (hashLen + p * hashLen) := by decide
  rw [sizes, List.take_add, List.take_add, List.drop_drop, List.drop_drop, ← List.append_assoc]
  exact congrArg₂ (· ++ ·) (congrArg₂ (· ++ ·) typed random) values

theorem siblings_parts (length : sig.length = lmsSigLen) :
    (siblingsOf sig).flatMap List.Vector.toList = sig.drop (4 + lmotsSigLen + 4) := by
  have digests := @flatMap_digestOf (sig.drop (4 + lmotsSigLen + 4)) h
    (drop_length_le length (by decide))
  rw [siblingsOf, List.flatMap_map, digests]
  apply List.take_of_length_le
  rw [List.length_drop, length]
  decide

/-- A signature is put together from its parts. -/
theorem sig_parts (length : sig.length = lmsSigLen)
    (oneTime : loadBe32 ((sig.drop 4).take lmotsSigLen) = lmotsSha256N32W8)
    (tree : loadBe32 (sig.drop (4 + lmotsSigLen)) = lmsSha256M32H10) :
    numberString 4 (leafOf sig) ++
        (numberString 4 otsType ++ (randomizerOf sig).toList ++
          (List.range p).flatMap fun index => (valueOf sig index).toList) ++
        numberString 4 lmsType ++ (siblingsOf sig).flatMap List.Vector.toList = sig := by
  have leaf := @numberString_loadBe32 sig (by rw [length]; decide)
  have typed := @numberString_loadBe32 (sig.drop (4 + lmotsSigLen))
    (drop_length_le length (by decide))
  rw [tree] at typed
  change numberString 4 lmsType = _ at typed
  rw [leafOf, leaf, ots_parts length oneTime, typed, siblings_parts length, List.append_assoc,
    take_drop_append, List.append_assoc, take_drop_append, List.take_append_drop]

section Checks

variable (hash : List Byte → Digest) (keyId : List.Vector Byte iKeyIdLen)
  (secret : Nat → Nat → Digest) (message sig : List Byte)

/-- The digit from which the check walks a chain of the signature. -/
def startOf (index : Nat) : Nat :=
  coef (digits (messageHash hash keyId (leafOf sig) (randomizerOf sig) message).toList) index w

/-- The value at a place of a chain of the signature. -/
def walked (index j : Nat) : Digest :=
  chain (chainStep hash keyId (leafOf sig) index) (startOf hash keyId message sig index)
    (j - startOf hash keyId message sig index) (valueOf sig index)

def candidateOf : Digest :=
  hash (endsString keyId (leafOf sig) fun index => walked hash keyId message sig index (2 ^ w - 1))

def nodeOf : Digest :=
  hash (leafString keyId (2 ^ h + leafOf sig) (candidateOf hash keyId message sig))

/-- The value at a place of a chain of the key. -/
def keyValue (leaf index j : Nat) : Digest :=
  chain (chainStep hash keyId leaf index) 0 j (secret leaf index)

/-- The node of the tree of the key. -/
def keyNode (level number : Nat) : Digest :=
  treeNode (leafNode hash keyId secret) (innerNode hash keyId) level number

/-- The strings that are hashed to check a signature, past the hash of the message. -/
inductive CheckHashes : List Byte → Prop
  | chain {index j : Nat} (inside : index < p) (walks : startOf hash keyId message sig index ≤ j)
      (unfinished : j < 2 ^ w - 1) :
      CheckHashes (chainString keyId (leafOf sig) index j (walked hash keyId message sig index j))
  | ends : CheckHashes (endsString keyId (leafOf sig) fun index =>
      walked hash keyId message sig index (2 ^ w - 1))
  | leaf : CheckHashes
      (leafString keyId (2 ^ h + leafOf sig) (candidateOf hash keyId message sig))
  | inner {number : Nat} {left right : Digest}
      (climbs : (number, left, right) ∈ climbPairs (innerNode hash keyId)
        (2 ^ h + leafOf sig, nodeOf hash keyId message sig) (siblingsOf sig)) :
      CheckHashes (innerString keyId number left right)

/-- The strings that are hashed to make the key. -/
inductive KeyHashes : List Byte → Prop
  | chain {leaf index j : Nat} (isLeaf : leaf < 2 ^ h) (inside : index < p)
      (unfinished : j < 2 ^ w - 1) :
      KeyHashes (chainString keyId leaf index j (keyValue hash keyId secret leaf index j))
  | ends {leaf : Nat} (isLeaf : leaf < 2 ^ h) :
      KeyHashes (endsString keyId leaf fun index =>
        keyValue hash keyId secret leaf index (2 ^ w - 1))
  | leaf {leaf : Nat} (isLeaf : leaf < 2 ^ h) :
      KeyHashes (leafString keyId (2 ^ h + leaf) (otsPublicKey hash keyId secret leaf))
  | inner {leaf level : Nat} (isLeaf : leaf < 2 ^ h) (inside : level < h) :
      KeyHashes (innerString keyId ((2 ^ h + leaf) / 2 ^ (level + 1))
        (keyNode hash keyId secret level (2 * ((2 ^ h + leaf) / 2 ^ (level + 1))))
        (keyNode hash keyId secret level (2 * ((2 ^ h + leaf) / 2 ^ (level + 1)) + 1)))

/-- Two strings with one hash, of which one is hashed by the check and one for the key. -/
def Collides : Prop :=
  ∃ first second, CheckHashes hash keyId message sig first ∧
    KeyHashes hash keyId secret second ∧ first ≠ second ∧ hash first = hash second

theorem lmotsCandidate_parts (length : sig.length = lmsSigLen)
    (type : loadBe32 ((sig.drop 4).take lmotsSigLen) = lmotsSha256N32W8) :
    lmotsCandidate hash message ((sig.drop 4).take lmotsSigLen) keyId.toList
        (numberString 4 (leafOf sig)) =
      some (candidateOf hash keyId message sig) := by
  have size : ((sig.drop 4).take lmotsSigLen).length = lmotsSigLen :=
    List.length_take_of_le (drop_length_le length (by decide))
  have random : (((sig.drop 4).take lmotsSigLen).drop 4).take hashLen =
      (randomizerOf sig).toList := by
    rw [← ots_parts length type, List.append_assoc, List.drop_left' (length_numberString 4 _),
      List.take_left' (List.Vector.toList_length _)]
  have values : ((sig.drop 4).take lmotsSigLen).drop (4 + hashLen) =
      (List.range p).flatMap fun index => (valueOf sig index).toList := by
    rw [← ots_parts length type, List.drop_left']
    rw [List.length_append, length_numberString, List.Vector.toList_length]
  have hashed : hash (keyId.toList ++ numberString 4 (leafOf sig) ++ dMessage ++
      (randomizerOf sig).toList ++ message) =
        messageHash hash keyId (leafOf sig) (randomizerOf sig) message := rfl
  rw [lmotsCandidate_eq hash size type, random, values, hashed, lmotsDigits,
    digits_eq (List.Vector.toList_length _)]
  have walks : ((List.range lmotsP).flatMap fun index =>
      hashDigit hash keyId.toList (numberString 4 (leafOf sig)) index
        ((digits (messageHash hash keyId (leafOf sig) (randomizerOf sig) message).toList).getD
          index 0)
        ((((List.range p).flatMap fun index => (valueOf sig index).toList).drop
          (index * hashLen)).take hashLen)) =
      (List.range p).flatMap fun index =>
        (walked hash keyId message sig index (2 ^ w - 1)).toList := by
    apply List.flatMap_congr
    intro index member
    have slice := @slice_flatMap_range _ (fun index => (valueOf sig index).toList) hashLen p index
      (fun _ _ => List.Vector.toList_length _) (List.mem_range.mp member)
    rw [slice, hashDigit_eq, walked, startOf, coef_eq]
    rfl
  rw [walks]
  rfl

theorem length_siblingsOf (sig : List Byte) : (siblingsOf sig).length = h := by
  rw [siblingsOf, List.length_map, List.length_range]

theorem take_siblingsOf_succ {count : Nat} (inside : count < h) :
    (siblingsOf sig).take (count + 1) =
      (siblingsOf sig).take count ++ [digestOf (sig.drop (4 + lmotsSigLen + 4)) count] := by
  have bound : count < (siblingsOf sig).length := (length_siblingsOf sig).symm ▸ inside
  rw [List.take_succ_eq_append_getElem bound]
  congr 2
  simp only [siblingsOf, List.getElem_map, List.getElem_range]

/-- The levels of the path are those of a climb along the siblings. -/
theorem foldl_climbPath (length : sig.length = lmsSigLen) {number : Nat}
    (small : number < 2 ^ 32) (node : Digest) {count : Nat} (within : count ≤ h) :
    (List.range count).foldl (climbPath hash keyId.toList (sig.drop (4 + lmotsSigLen + 4)))
        (BitVec.ofNat 32 number, node.toList) =
      (BitVec.ofNat 32 (number / 2 ^ count),
        (((siblingsOf sig).take count).foldl (climb (innerNode hash keyId))
          (number, node)).2.toList) := by
  induction count with
  | zero =>
      rw [pow_zero, Nat.div_one]
      rfl
  | succ count inductionHypothesis =>
      have bound := (Nat.div_le_self number (2 ^ count)).trans_lt small
      have reached := foldl_climb_number (innerNode hash keyId) ((siblingsOf sig).take count)
        (number, node)
      rw [List.length_take_of_le ((Nat.le_of_succ_le within).trans (length_siblingsOf sig).ge)]
        at reached
      have pair : ((siblingsOf sig).take count).foldl (climb (innerNode hash keyId))
          (number, node) = (number / 2 ^ count, (((siblingsOf sig).take count).foldl
            (climb (innerNode hash keyId)) (number, node)).2) := Prod.ext reached rfl
      have room := drop_length_le length (show 4 + lmotsSigLen + 4 + h * hashLen ≤ lmsSigLen by
        decide)
      have read := @digestOf_toList (sig.drop (4 + lmotsSigLen + 4)) count
        ((Nat.mul_le_mul_right hashLen within).trans room)
      rw [List.range_succ, List.foldl_append, inductionHypothesis (Nat.le_of_succ_le within),
        List.foldl_cons, List.foldl_nil, climbPath_eq hash keyId bound read.symm,
        take_siblingsOf_succ sig within, List.foldl_append, List.foldl_cons, List.foldl_nil, ← pair,
        pow_succ, ← Nat.div_div_eq_div_mul]
      rw [climb, reached]

variable {hash keyId secret message sig}

/-- The strings that are hashed to a value of the key without a collision are those of the key. -/
theorem eq_of_not_collides (apart : ¬ Collides hash keyId secret message sig)
    {first second : List Byte} (checked : CheckHashes hash keyId message sig first)
    (keyed : KeyHashes hash keyId secret second) (same : hash first = hash second) :
    first = second := by
  by_contra different
  exact apart ⟨first, second, checked, keyed, different, same⟩

theorem pathFrom_eq_path (leaf : Nat) :
    pathFrom (leafNode hash keyId secret) (innerNode hash keyId) 0 (2 ^ h + leaf) h =
      path hash keyId secret leaf := by
  rw [pathFrom, path, treePath]
  refine List.map_congr_left fun step _ => ?_
  rw [Nat.zero_add]

/-- A climb that comes to the root of the key goes along the path of the leaf. -/
theorem climb_of_root (apart : ¬ Collides hash keyId secret message sig)
    (isLeaf : leafOf sig < 2 ^ h)
    (climbs : ((siblingsOf sig).foldl (climb (innerNode hash keyId))
      (2 ^ h + leafOf sig, nodeOf hash keyId message sig)).2 = root hash keyId secret) :
    nodeOf hash keyId message sig = leafNode hash keyId secret (2 ^ h + leafOf sig) ∧
      siblingsOf sig = path hash keyId secret (leafOf sig) := by
  have top : (2 ^ h + leafOf sig) / 2 ^ h = 1 := by
    rw [h] at isLeaf ⊢
    omega
  have reaches : ((siblingsOf sig).foldl (climb (innerNode hash keyId))
      (2 ^ h + leafOf sig, nodeOf hash keyId message sig)).2 =
        treeNode (leafNode hash keyId secret) (innerNode hash keyId)
          (0 + (siblingsOf sig).length) ((2 ^ h + leafOf sig) / 2 ^ (siblingsOf sig).length) := by
    rw [climbs, length_siblingsOf, Nat.zero_add, top]
    rfl
  rcases climb_meets _ _ _ 0 _ _ reaches with ⟨node, follows⟩ | split
  · rw [length_siblingsOf, pathFrom_eq_path] at follows
    exact ⟨node, follows⟩
  · obtain ⟨step, inside, left, right, member, different, meets⟩ := split
    rw [length_siblingsOf] at inside
    rw [Nat.zero_add] at different meets
    have strings := eq_of_not_collides apart (.inner member) (.inner isLeaf inside) meets
    exact absurd (innerString_injective keyId strings) different

theorem candidate_of_not_collides (apart : ¬ Collides hash keyId secret message sig)
    (isLeaf : leafOf sig < 2 ^ h)
    (climbs : ((siblingsOf sig).foldl (climb (innerNode hash keyId))
      (2 ^ h + leafOf sig, nodeOf hash keyId message sig)).2 = root hash keyId secret) :
    candidateOf hash keyId message sig = otsPublicKey hash keyId secret (leafOf sig) := by
  have node := (climb_of_root apart isLeaf climbs).1
  have leafNode_eq : leafNode hash keyId secret (2 ^ h + leafOf sig) =
      hash (leafString keyId (2 ^ h + leafOf sig)
        (otsPublicKey hash keyId secret (leafOf sig))) := by
    rw [leafNode, Nat.add_sub_cancel_left]
    rfl
  apply leafString_injective keyId
  exact eq_of_not_collides apart .leaf (.leaf isLeaf) (node.trans leafNode_eq)

/-- A candidate that is the one-time key is walked to from the values of its chains. -/
theorem values_of_candidate (apart : ¬ Collides hash keyId secret message sig)
    (isLeaf : leafOf sig < 2 ^ h)
    (same : candidateOf hash keyId message sig = otsPublicKey hash keyId secret (leafOf sig))
    {index : Nat} (inside : index < p) :
    valueOf sig index =
      keyValue hash keyId secret (leafOf sig) index (startOf hash keyId message sig index) := by
  have strings := eq_of_not_collides apart .ends (.ends isLeaf) same
  have ends := endsString_injective keyId strings inside
  have start : startOf hash keyId message sig index ≤ 2 ^ w - 1 := Nat.and_le_left
  rcases chain_meets _ start ends with value | ⟨j, above, below, different, meets⟩
  · exact value
  · have strings :=
      eq_of_not_collides apart (.chain inside above below) (.chain isLeaf inside below) meets
    exact absurd (chainString_injective keyId strings) different

/-- Without a collision the parts of a signature that leads to the root are those of the
scheme. -/
theorem sig_eq_of_not_collides (apart : ¬ Collides hash keyId secret message sig)
    (isLeaf : leafOf sig < 2 ^ h) (length : sig.length = lmsSigLen)
    (oneTime : loadBe32 ((sig.drop 4).take lmotsSigLen) = lmotsSha256N32W8)
    (tree : loadBe32 (sig.drop (4 + lmotsSigLen)) = lmsSha256M32H10)
    (climbs : ((siblingsOf sig).foldl (climb (innerNode hash keyId))
      (2 ^ h + leafOf sig, nodeOf hash keyId message sig)).2 = root hash keyId secret) :
    sig = signature hash keyId secret (leafOf sig) (randomizerOf sig) message := by
  have siblings := (climb_of_root apart isLeaf climbs).2
  have candidate := candidate_of_not_collides apart isLeaf climbs
  have values : ((List.range p).flatMap fun index => (valueOf sig index).toList) =
      signedChains hash keyId secret (leafOf sig)
        (messageHash hash keyId (leafOf sig) (randomizerOf sig) message).toList := by
    refine List.flatMap_congr fun index member => ?_
    rw [values_of_candidate apart isLeaf candidate (List.mem_range.mp member)]
    rfl
  have parts := sig_parts length oneTime tree
  rw [values, siblings] at parts
  exact parts.symm

variable (hash keyId secret)

theorem publicKey_keyId :
    ((publicKey hash keyId secret).drop 8).take iKeyIdLen = keyId.toList := by
  rw [publicKey, List.append_assoc, List.drop_left', List.take_left' (List.Vector.toList_length _)]
  rw [List.length_append, length_numberString, length_numberString]

theorem publicKey_root :
    ((publicKey hash keyId secret).drop 24).take hashLen = (root hash keyId secret).toList := by
  rw [publicKey, List.drop_left', List.take_of_length_le (List.Vector.toList_length _).le]
  rw [List.length_append, List.length_append, length_numberString, length_numberString,
    List.Vector.toList_length]
  rfl

variable {hash keyId secret}

/-- The path of a signature leads where the climb along its siblings does. -/
theorem rootOfPath_siblings (length : sig.length = lmsSigLen) (isLeaf : leafOf sig < 2 ^ h) :
    rootOfPath hash keyId.toList (sig.drop (4 + lmotsSigLen + 4)) (loadBe32 sig)
        (candidateOf hash keyId message sig) =
      ((siblingsOf sig).foldl (climb (innerNode hash keyId))
        (2 ^ h + leafOf sig, nodeOf hash keyId message sig)).2.toList := by
  have number : BitVec.ofNat 32 (1 <<< lmsHeight) + loadBe32 sig =
      BitVec.ofNat 32 (2 ^ h + leafOf sig) := by
    rw [BitVec.ofNat_add, leafOf, BitVec.ofNat_toNat, BitVec.setWidth_eq]
    rfl
  have bounded : 2 ^ h + leafOf sig < 2 ^ 32 := by
    rw [h] at isLeaf ⊢
    omega
  have climbed := foldl_climbPath hash keyId sig length bounded (nodeOf hash keyId message sig)
    (Nat.le_refl h)
  rw [List.take_of_length_le (length_siblingsOf sig).le] at climbed
  unfold rootOfPath
  dsimp only
  rw [number, storeBe32_ofNat]
  exact congrArg Prod.snd climbed

theorem leafOf_lt (small : ¬BitVec.ofNat 32 (1 <<< lmsHeight) ≤ loadBe32 sig) :
    leafOf sig < 2 ^ h := by
  rw [BitVec.le_def] at small
  exact Nat.not_le.mp small

theorem accepted_parts
    (accepted : verify hash (publicKey hash keyId secret) message sig = true) :
    sig.length = lmsSigLen ∧ loadBe32 ((sig.drop 4).take lmotsSigLen) = lmotsSha256N32W8 ∧
      loadBe32 (sig.drop (4 + lmotsSigLen)) = lmsSha256M32H10 ∧ leafOf sig < 2 ^ h ∧
      ((siblingsOf sig).foldl (climb (innerNode hash keyId))
        (2 ^ h + leafOf sig, nodeOf hash keyId message sig)).2 = root hash keyId secret := by
  unfold verify at accepted
  dsimp only at accepted
  split at accepted
  · exact absurd accepted Bool.false_ne_true
  rename_i lengths
  have length : sig.length = lmsSigLen := not_not.mp fun wrong => lengths (.inr wrong)
  split at accepted
  · exact absurd accepted Bool.false_ne_true
  split at accepted
  · exact absurd accepted Bool.false_ne_true
  rename_i tree
  split at accepted
  · exact absurd accepted Bool.false_ne_true
  rename_i small
  have isLeaf := leafOf_lt small
  have leafId : storeBe32 (loadBe32 sig) = numberString 4 (leafOf sig) := by
    rw [← storeBe32_ofNat, leafOf, BitVec.ofNat_toNat, BitVec.setWidth_eq]
  rw [leafId, publicKey_keyId, publicKey_root] at accepted
  by_cases oneTime : loadBe32 ((sig.drop 4).take lmotsSigLen) = lmotsSha256N32W8
  · rw [lmotsCandidate_parts hash keyId message sig length oneTime] at accepted
    dsimp only at accepted
    rw [rootOfPath_siblings length isLeaf] at accepted
    have climbs := List.Vector.toList_injective (eq_of_beq accepted)
    exact ⟨length, oneTime, not_not.mp tree, isLeaf, climbs⟩
  · unfold lmotsCandidate at accepted
    rw [if_pos (.inr oneTime)] at accepted
    exact absurd accepted Bool.false_ne_true

theorem startOf_eq (index : Nat) :
    startOf hash keyId message sig index =
      digitAt (messageHash hash keyId (leafOf sig) (randomizerOf sig) message) index := by
  rw [digitAt, lmotsDigits, digits_eq (List.Vector.toList_length _), startOf, coef_eq]

end Checks

end LmsScheme

open LmsScheme

/-- A signature that is accepted under the public key of some private strings is made with them
for one of their leaves, or the check hashes another string to a hash that the key was made
with. -/
theorem verify_sound (hash : List Byte → Digest) (keyId : List.Vector Byte iKeyIdLen)
    (secret : Nat → Nat → Digest) (message sig : List Byte)
    (accepted : verify hash (publicKey hash keyId secret) message sig = true) :
    (∃ (leaf : Fin (2 ^ 10)) (randomizer : Digest),
        sig = signature hash keyId secret leaf randomizer message) ∨
      Collides hash keyId secret message sig := by
  obtain ⟨length, oneTime, tree, isLeaf, climbs⟩ := accepted_parts accepted
  by_cases collides : Collides hash keyId secret message sig
  · exact .inr collides
  · exact .inl ⟨⟨leafOf sig, isLeaf⟩, randomizerOf sig,
      sig_eq_of_not_collides collides isLeaf length oneTime tree climbs⟩

def constantHash (_ : List Byte) : Digest := List.Vector.replicate hashLen 1

/-- A string with the lengths and the type codes of a signature. -/
def shapedSig : List Byte :=
  numberString 4 5 ++ numberString 4 otsType ++ List.replicate ((1 + p) * hashLen) 7 ++
    numberString 4 lmsType ++ List.replicate (h * hashLen) 9

/-- Under a hash with one value it is accepted. -/
theorem verify_sound_constant :
    (∃ (leaf : Fin (2 ^ 10)) (randomizer : Digest),
        shapedSig = signature constantHash (List.Vector.replicate iKeyIdLen 0)
          (fun _ _ => List.Vector.replicate hashLen 0) leaf randomizer []) ∨
      Collides constantHash (List.Vector.replicate iKeyIdLen 0)
        (fun _ _ => List.Vector.replicate hashLen 0) [] shapedSig :=
  verify_sound _ _ _ _ _ (by decide +kernel)

/-- A signature that is accepted for a digest other than the one that was signed at its leaf holds
a value of the key before a published one of the same chain. -/
theorem verify_reveals (hash : List Byte → Digest) (keyId : List.Vector Byte iKeyIdLen)
    (secret : Nat → Nat → Digest) (message sig : List Byte) (signed : Digest)
    (accepted : verify hash (publicKey hash keyId secret) message sig = true)
    (other : messageHash hash keyId (leafOf sig) (randomizerOf sig) message ≠ signed) :
    (∃ index < lmotsP, ∃ j < digitAt signed index,
        valueOf sig index = keyValue hash keyId secret (leafOf sig) index j) ∨
      Collides hash keyId secret message sig := by
  obtain ⟨length, oneTime, tree, isLeaf, climbs⟩ := accepted_parts accepted
  by_cases collides : Collides hash keyId secret message sig
  · exact .inr collides
  · left
    have below : ∃ index < lmotsP,
        digitAt (messageHash hash keyId (leafOf sig) (randomizerOf sig) message) index <
          digitAt signed index := by
      by_contra none
      push Not at none
      exact other (eq_of_digitAt_le none).symm
    obtain ⟨index, inside, earlier⟩ := below
    rw [← startOf_eq] at earlier
    refine ⟨index, inside, _, earlier, ?_⟩
    exact values_of_candidate collides isLeaf
      (candidate_of_not_collides collides isLeaf climbs) inside

theorem verify_reveals_constant :
    (∃ index < lmotsP, ∃ j < digitAt (List.Vector.replicate hashLen 0) index,
        valueOf shapedSig index = keyValue constantHash (List.Vector.replicate iKeyIdLen 0)
          (fun _ _ => List.Vector.replicate hashLen 0) (leafOf shapedSig) index j) ∨
      Collides constantHash (List.Vector.replicate iKeyIdLen 0)
        (fun _ _ => List.Vector.replicate hashLen 0) [] shapedSig :=
  verify_reveals _ _ _ _ _ _ (by decide +kernel)
    (fun same => absurd (congrArg List.Vector.toList same) (by decide))

end QboxPlatform.RseLmsAccel
