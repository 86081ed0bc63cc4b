import QboxPlatform.Foundation.BigEndian
import QboxPlatform.RseP256Ecdsa.Der

/-!
# The fields that the parser reads

A length takes one byte, or one that counts the bytes behind it.  For each function of the parser
it is said which fields of the data it accepts, and on which ones it reads behind the data: those
whose end reaches the largest 64-bit number, for it is compared with the size after it has wrapped.
-/

namespace QboxPlatform.RseP256Ecdsa

open Foundation

universe u

/-- How many bytes the length at the head of a byte string takes, and the length. -/
def lengthField : List Byte → Option (Nat × Nat)
  | [] => none
  | first :: rest =>
      if first.toNat < 0x80 then some (1, first.toNat)
      else if first.toNat - 0x80 = 0 ∨ 8 < first.toNat - 0x80 then none
      else some (1 + (first.toNat - 0x80), BigEndian.number (rest.take (first.toNat - 0x80)))

/-- An INTEGER at `offset` that ends at `stop`. -/
def IntegerAt (data : List Byte) (offset stop value : Nat) : Prop :=
  data[offset]? = some 0x02 ∧
    ∃ octets length first, lengthField (data.drop (offset + 1)) = some (octets, length) ∧
      0 < length ∧ stop = offset + 1 + octets + length ∧ stop ≤ data.length ∧
      data[offset + 1 + octets]? = some first ∧ first.toNat < 0x80 ∧
      value = BigEndian.number ((data.drop (offset + 1 + octets)).take length)

/-- The length of an INTEGER at `offset` says that the contents end behind the largest 64-bit
number, and no byte that makes the number negative follows. -/
def IntegerOverruns (data : List Byte) (offset : Nat) : Prop :=
  data[offset]? = some 0x02 ∧
    ∃ octets length, lengthField (data.drop (offset + 1)) = some (octets, length) ∧
      2 ^ 64 ≤ offset + 1 + octets + length ∧
      (offset + 1 + octets ≤ data.length ∨ 2 ^ 64 ≤ offset + 1 + octets) ∧
      ∀ first, data[offset + 1 + octets]? = some first → first.toNat < 0x80

/-- A SEQUENCE that is the whole of the data, with its contents at `start`. -/
def SequenceAt (data : List Byte) (start : Nat) : Prop :=
  data[0]? = some 0x30 ∧
    ∃ octets length, lengthField (data.drop 1) = some (octets, length) ∧
      start = 1 + octets ∧ start + length = data.length

theorem ok_bind {Value Result : Type u} (value : Value) (next : Value → Parse Result) :
    (Except.ok value : Parse Value) >>= next = next value := rfl

theorem error_bind {Value Result : Type u} (failure : Failure) (next : Value → Parse Result) :
    (Except.error failure : Parse Value) >>= next = .error failure := rfl

variable {data : List Byte} {offset size bytes length octets start : Nat}

theorem readByte_of_lt (inside : offset < data.length) :
    readByte data offset = .ok data[offset] := by
  rw [readByte, List.getElem?_eq_getElem inside]

theorem readByte_of_some {byte : Byte} (present : data[offset]? = some byte) :
    readByte data offset = .ok byte := by
  rw [readByte, present]

theorem readByte_of_le (outside : data.length ≤ offset) :
    readByte data offset = .error .outOfBounds := by
  rw [readByte, List.getElem?_eq_none outside]

theorem top_bit_clear_iff (byte : Byte) : byte &&& 0x80 = 0 ↔ byte.toNat < 0x80 := by
  have tests : byte &&& 0x80 ≠ 0 ↔ byte.getLsbD 7 = true :=
    and_bit_ne_zero_iff byte (by decide : 7 < 8)
  have top : byte.getLsbD 7 = decide (0x80 ≤ byte.toNat) := BitVec.msb_eq_decide byte
  rw [← not_iff_not, ← ne_eq, tests, top, decide_eq_true_iff, not_lt]

theorem low_bits (byte : Byte) (set : ¬ byte.toNat < 0x80) :
    (byte &&& 0x7f).toNat = byte.toNat - 0x80 := by
  have small := byte.isLt
  have masked : (byte &&& 0x7f).toNat = byte.toNat % 2 ^ 7 := by
    rw [BitVec.toNat_and]
    exact Nat.and_two_pow_sub_one_eq_mod byte.toNat 7
  omega

theorem readLength_eq (inside : offset + bytes ≤ data.length)
    (small : (length + 1) * 256 ^ bytes ≤ 2 ^ 64) :
    readLength data bytes offset length =
      .ok (offset + bytes,
        length * 256 ^ bytes + BigEndian.number ((data.drop offset).take bytes)) := by
  induction bytes generalizing offset length with
  | zero => simp [readLength]
  | succ bytes inductionHypothesis =>
      have here : offset < data.length := by omega
      have byteSmall : data[offset].toNat < 256 := data[offset].isLt
      have power : 1 ≤ 256 ^ bytes := Nat.one_le_two_pow.trans (Nat.pow_le_pow_left (by decide) _)
      have split : (length + 1) * 256 ^ (bytes + 1) = (length + 1) * 256 * 256 ^ bytes := by ring
      have fits : (length + 1) * 256 ≤ 2 ^ 64 := by
        rw [split] at small
        exact (Nat.le_mul_of_pos_right _ power).trans small
      have shifted : (length <<< 8) % 2 ^ 64 ||| data[offset].toNat =
          length * 256 + data[offset].toNat := by
        rw [Nat.shiftLeft_eq, Nat.mod_eq_of_lt (by omega), ← Nat.shiftLeft_eq,
          ← Nat.shiftLeft_add_eq_or_of_lt byteSmall, Nat.shiftLeft_eq]
      have next : (length * 256 + data[offset].toNat + 1) * 256 ^ bytes ≤ 2 ^ 64 := by
        rw [split] at small
        exact (Nat.mul_le_mul_right _ (by omega)).trans small
      rw [readLength, readByte_of_lt here, ok_bind, shifted,
        inductionHypothesis (by omega) next, List.drop_eq_getElem_cons here, List.take_succ_cons,
        BigEndian.number_cons, List.length_take, List.length_drop,
        Nat.min_eq_left (by omega)]
      congr 2
      · omega
      · ring

theorem readLength_outside (begins : offset ≤ data.length)
    (outside : data.length < offset + bytes) :
    readLength data bytes offset length = .error .outOfBounds := by
  induction bytes generalizing offset length with
  | zero => omega
  | succ bytes inductionHypothesis =>
      rcases Nat.lt_or_ge offset data.length with here | behind
      · rw [readLength, readByte_of_lt here, ok_bind]
        exact inductionHypothesis (by omega) (by omega)
      · rw [readLength, readByte_of_le behind, error_bind]

theorem lengthField_bounds {bytes : List Byte}
    (field : lengthField bytes = some (octets, length)) :
    1 ≤ octets ∧ octets ≤ 9 ∧ length < 2 ^ 64 := by
  cases bytes with
  | nil => cases field
  | cons first rest =>
      rw [lengthField] at field
      split_ifs at field with short indefinite
      · obtain ⟨rfl, rfl⟩ := Prod.mk.inj (Option.some.inj field)
        omega
      · obtain ⟨rfl, rfl⟩ := Prod.mk.inj (Option.some.inj field)
        have small := first.isLt
        refine ⟨by omega, by omega, ?_⟩
        apply (BigEndian.number_lt _).trans_le
        calc 256 ^ (rest.take (first.toNat - 0x80)).length
            ≤ 256 ^ 8 := Nat.pow_le_pow_right (by decide) (by rw [List.length_take]; omega)
          _ = 2 ^ 64 := by decide

/-- What becomes of the length at an offset. -/
def lengthOutcome (size offset : Nat) : Option (Nat × Nat) → Parse (Nat × Nat)
  | none => reject
  | some (octets, length) =>
      if 2 ^ 64 ≤ offset + octets then .error .outOfBounds
      else if size < offset + octets ∨ size < (offset + octets + length) % 2 ^ 64 then reject
      else .ok (offset + octets, length)

theorem parseDerLength_eq (addressable : data.length < 2 ^ 64) :
    parseDerLength data data.length offset =
      lengthOutcome data.length offset (lengthField (data.drop offset)) := by
  unfold parseDerLength
  split_ifs with beyond
  · rw [List.drop_of_length_le beyond]
    rfl
  · have here : offset < data.length := by omega
    have small := data[offset].isLt
    rw [readByte_of_lt here, ok_bind, List.drop_eq_getElem_cons here, lengthField]
    simp only [top_bit_clear_iff]
    generalize data[offset] = first at small
    by_cases short : first.toNat < 0x80
    · rw [if_pos short, if_pos short, lengthOutcome]
      by_cases fits : (offset + 1 + first.toNat) % 2 ^ 64 ≤ data.length
      · rw [if_pos fits, if_neg (by omega), if_neg (by omega)]
        rfl
      · rw [if_neg fits, if_neg (by omega), if_pos (by omega)]
    · rw [if_neg short, if_neg short, low_bits first short]
      generalize first.toNat - 0x80 = bytes
      by_cases other : bytes = 0 ∨ 8 < bytes
      · rw [if_pos other, if_pos (other.elim .inl fun more => .inr (.inl more))]
        rfl
      · rw [if_neg other, lengthOutcome]
        by_cases wraps : 2 ^ 64 ≤ offset + (1 + bytes)
        · rw [if_pos wraps, if_neg (by omega), readLength_outside (by omega) (by omega),
            error_bind]
        · by_cases inside : offset + 1 + bytes ≤ data.length
          · have power : (0 + 1) * 256 ^ bytes ≤ 2 ^ 64 := by
              rw [Nat.zero_add, Nat.one_mul]
              exact (Nat.pow_le_pow_right (by decide) (by omega)).trans (by decide : 256 ^ 8 ≤ _)
            rw [if_neg wraps, if_neg (by omega), readLength_eq inside power, ok_bind,
              Nat.zero_mul, Nat.zero_add, ← Nat.add_assoc]
            dsimp only
            by_cases fits : (offset + 1 + bytes +
                BigEndian.number ((data.drop (offset + 1)).take bytes)) % 2 ^ 64 ≤ data.length
            · rw [if_pos fits, if_neg (by omega)]
              rfl
            · rw [if_neg fits, if_pos (by omega)]
          · rw [if_neg wraps, if_pos (by omega), if_pos (by omega)]

theorem fromBeLoop_eq (value : Int) (inside : offset + size ≤ data.length) :
    fromBeLoop data size offset value =
      .ok (value * 256 ^ size + BigEndian.number ((data.drop offset).take size)) := by
  induction size generalizing offset value with
  | zero => simp [fromBeLoop]
  | succ size inductionHypothesis =>
      have here : offset < data.length := by omega
      rw [fromBeLoop, readByte_of_lt here, ok_bind, inductionHypothesis _ (by omega),
        List.drop_eq_getElem_cons here, List.take_succ_cons, BigEndian.number_cons,
        List.length_take, List.length_drop, Nat.min_eq_left (by omega)]
      congr 1
      push_cast
      ring

theorem fromBe_eq (inside : offset + size ≤ data.length) :
    fromBe data offset size = .ok (BigEndian.number ((data.drop offset).take size) : Int) := by
  rw [fromBe, fromBeLoop_eq 0 inside, Int.zero_mul, Int.zero_add]

theorem fromBeLoop_outside (value : Int) (begins : offset ≤ data.length)
    (outside : data.length < offset + size) :
    fromBeLoop data size offset value = .error .outOfBounds := by
  induction size generalizing offset value with
  | zero => omega
  | succ size inductionHypothesis =>
      rcases Nat.lt_or_ge offset data.length with here | behind
      · rw [fromBeLoop, readByte_of_lt here, ok_bind]
        exact inductionHypothesis _ (by omega) (by omega)
      · rw [fromBeLoop, readByte_of_le behind, error_bind]

/-- The zeros at the head do not count. -/
theorem skipZeros_eq (inside : offset + length ≤ data.length) :
    ∃ start rest, skipZeros data length offset = .ok (start, rest) ∧
      start + rest = offset + length ∧
      BigEndian.number ((data.drop start).take rest) =
        BigEndian.number ((data.drop offset).take length) := by
  fun_induction skipZeros data length offset with
  | case1 offset => exact ⟨offset, 0, rfl, rfl, rfl⟩
  | case2 offset => exact ⟨offset, 1, rfl, rfl, rfl⟩
  | case3 length offset inductionHypothesis =>
      have here : offset < data.length := by omega
      rw [readByte_of_lt here, ok_bind]
      by_cases zero : data[offset] = 0
      · rw [if_pos zero]
        obtain ⟨start, rest, skips, same, number⟩ := inductionHypothesis (by omega)
        refine ⟨start, rest, skips, by omega, ?_⟩
        rw [number, List.drop_eq_getElem_cons here, List.take_succ_cons, BigEndian.number_cons,
          zero]
        simp
      · rw [if_neg zero]
        exact ⟨offset, length + 2, rfl, rfl, rfl⟩

theorem skipZeros_outside (begins : offset ≤ data.length)
    (outside : data.length < offset + length) :
    skipZeros data length offset = .error .outOfBounds ∨
      ∃ start rest, skipZeros data length offset = .ok (start, rest) ∧
        start ≤ data.length ∧ data.length < start + rest := by
  fun_induction skipZeros data length offset with
  | case1 offset => omega
  | case2 offset => exact .inr ⟨offset, 1, rfl, begins, outside⟩
  | case3 length offset inductionHypothesis =>
      rcases Nat.lt_or_ge offset data.length with here | behind
      · rw [readByte_of_lt here, ok_bind]
        by_cases zero : data[offset] = 0
        · rw [if_pos zero]
          exact inductionHypothesis (by omega) (by omega)
        · rw [if_neg zero]
          exact .inr ⟨offset, length + 2, rfl, begins, outside⟩
      · rw [readByte_of_le behind, error_bind]
        exact .inl rfl

/-- What `parse_der_integer` does with the contents of an integer. -/
def integerContents (data : List Byte) (start length : Nat) : Parse (Nat × Int) :=
  if length = 0 then reject
  else do
    let first ← readByte data start
    if first &&& 0x80 ≠ 0 then reject
    else
      let (start, length) ← skipZeros data length start
      let value ← fromBe data start length
      pure ((start + length) % 2 ^ 64, value)

theorem parseDerInteger_eq (addressable : data.length < 2 ^ 64)
    (tag : data[offset]? = some 0x02) :
    parseDerInteger data data.length offset =
      lengthOutcome data.length (offset + 1) (lengthField (data.drop (offset + 1))) >>=
        fun field => integerContents data field.1 field.2 := by
  obtain ⟨here, -⟩ := List.getElem?_eq_some_iff.mp tag
  rw [parseDerInteger, if_neg (by omega), readByte_of_some tag, ok_bind, if_neg (by decide),
    parseDerLength_eq addressable]
  rfl

theorem integerContents_eq {first : Byte} (addressable : data.length < 2 ^ 64)
    (filled : 0 < length) (inside : start + length ≤ data.length)
    (present : data[start]? = some first) (clear : first.toNat < 0x80) :
    integerContents data start length =
      .ok (start + length, (BigEndian.number ((data.drop start).take length) : Int)) := by
  obtain ⟨begins, rest, skips, same, number⟩ := skipZeros_eq inside
  rw [integerContents, if_neg (by omega), readByte_of_some present, ok_bind,
    if_neg (not_not.mpr ((top_bit_clear_iff first).mpr clear)), skips, ok_bind]
  dsimp only
  rw [fromBe_eq (by omega), ok_bind, number, same, Nat.mod_eq_of_lt (by omega)]
  rfl

theorem integerContents_outside (filled : 0 < length) (begins : start ≤ data.length)
    (outside : data.length < start + length)
    (clear : ∀ first, data[start]? = some first → first.toNat < 0x80) :
    integerContents data start length = .error .outOfBounds := by
  rw [integerContents, if_neg (by omega)]
  rcases Nat.lt_or_ge start data.length with here | behind
  · have present := List.getElem?_eq_getElem here
    rw [readByte_of_some present, ok_bind,
      if_neg (not_not.mpr ((top_bit_clear_iff _).mpr (clear _ present)))]
    rcases skipZeros_outside begins outside with fails | ⟨start', rest, skips, inside, behind⟩
    · rw [fails, error_bind]
    · rw [skips, ok_bind]
      dsimp only
      rw [fromBe, fromBeLoop_outside 0 inside behind, error_bind]
  · rw [readByte_of_le behind, error_bind]

theorem integerContents_negative {first : Byte} (present : data[start]? = some first)
    (set : ¬ first.toNat < 0x80) : integerContents data start length = reject := by
  unfold integerContents
  split_ifs
  · rfl
  · rw [readByte_of_some present, ok_bind, if_pos (mt (top_bit_clear_iff first).mp set)]

variable {stop value : Nat}

theorem parseDerInteger_of_integerAt (addressable : data.length < 2 ^ 64)
    (integer : IntegerAt data offset stop value) :
    parseDerInteger data data.length offset = .ok (stop, (value : Int)) := by
  obtain ⟨tag, octets, length, first, field, filled, rfl, inside, present, clear, rfl⟩ := integer
  have fits : (offset + 1 + octets + length) % 2 ^ 64 ≤ data.length := by
    rwa [Nat.mod_eq_of_lt (by omega)]
  rw [parseDerInteger_eq addressable tag, field, lengthOutcome, if_neg (by omega),
    if_neg (by omega), ok_bind]
  exact integerContents_eq addressable filled inside present clear

theorem parseDerInteger_of_overruns (addressable : data.length < 2 ^ 64)
    (overruns : IntegerOverruns data offset) :
    parseDerInteger data data.length offset = .error .outOfBounds := by
  obtain ⟨tag, octets, length, field, reaches, begins, clear⟩ := overruns
  have bounds := lengthField_bounds field
  rw [parseDerInteger_eq addressable tag, field, lengthOutcome]
  by_cases wraps : 2 ^ 64 ≤ offset + 1 + octets
  · rw [if_pos wraps, error_bind]
  · have inside : offset + 1 + octets ≤ data.length := begins.resolve_right wraps
    rw [if_neg wraps, if_neg (by omega), ok_bind]
    exact integerContents_outside (by omega) inside (by omega) clear

/-- An integer is rejected, or is there, or overruns. -/
theorem parseDerInteger_cases (addressable : data.length < 2 ^ 64) (offset : Nat) :
    parseDerInteger data data.length offset = reject ∨
      (∃ stop value, IntegerAt data offset stop value) ∨ IntegerOverruns data offset := by
  by_cases tag : data[offset]? = some 0x02
  · rw [parseDerInteger_eq addressable tag]
    cases field : lengthField (data.drop (offset + 1)) with
    | none => exact .inl rfl
    | some measured =>
        obtain ⟨octets, length⟩ := measured
        have bounds := lengthField_bounds field
        by_cases wraps : 2 ^ 64 ≤ offset + 1 + octets
        · refine .inr (.inr ⟨tag, octets, length, field, by omega, .inr wraps, ?_⟩)
          intro first present
          obtain ⟨here, -⟩ := List.getElem?_eq_some_iff.mp present
          omega
        · rw [lengthOutcome, if_neg wraps]
          by_cases refused : data.length < offset + 1 + octets ∨
              data.length < (offset + 1 + octets + length) % 2 ^ 64
          · rw [if_pos refused]
            exact .inl rfl
          · rw [if_neg refused, ok_bind]
            rcases Nat.eq_zero_or_pos length with rfl | filled
            · exact .inl (if_pos rfl)
            · by_cases negative : ∃ first, data[offset + 1 + octets]? = some first ∧
                  ¬ first.toNat < 0x80
              · obtain ⟨first, present, set⟩ := negative
                exact .inl (integerContents_negative present set)
              · push Not at negative
                right
                by_cases reaches : 2 ^ 64 ≤ offset + 1 + octets + length
                · exact .inr ⟨tag, octets, length, field, reaches, .inl (by omega), negative⟩
                · rw [Nat.mod_eq_of_lt (by omega)] at refused
                  have here : offset + 1 + octets < data.length := by omega
                  have present := List.getElem?_eq_getElem here
                  exact .inl ⟨_, _, tag, octets, length, _, field, filled, rfl, by omega, present,
                    negative _ present, rfl⟩
  · left
    unfold parseDerInteger
    split_ifs with behind
    · rfl
    · have here : offset < data.length := by omega
      have other : data[offset] ≠ 0x02 := by
        intro same
        exact tag (by rw [List.getElem?_eq_getElem here, same])
      rw [readByte_of_lt here, ok_bind, if_pos other]

theorem parseDerInteger_eq_ok_iff (addressable : data.length < 2 ^ 64) {number : Int} :
    parseDerInteger data data.length offset = .ok (stop, number) ↔
      ∃ value : Nat, number = value ∧ IntegerAt data offset stop value := by
  constructor
  · intro parsed
    rcases parseDerInteger_cases addressable offset with
      refused | ⟨stop', value, integer⟩ | overruns
    · rw [refused] at parsed
      cases parsed
    · rw [parseDerInteger_of_integerAt addressable integer] at parsed
      cases parsed
      exact ⟨value, rfl, integer⟩
    · rw [parseDerInteger_of_overruns addressable overruns] at parsed
      cases parsed
  · rintro ⟨value, rfl, integer⟩
    exact parseDerInteger_of_integerAt addressable integer

theorem parseDerInteger_outOfBounds_iff (addressable : data.length < 2 ^ 64) :
    parseDerInteger data data.length offset = .error .outOfBounds ↔
      IntegerOverruns data offset := by
  constructor
  · intro parsed
    rcases parseDerInteger_cases addressable offset with
      refused | ⟨stop', value, integer⟩ | overruns
    · rw [refused] at parsed
      cases parsed
    · rw [parseDerInteger_of_integerAt addressable integer] at parsed
      cases parsed
    · exact overruns
  · exact parseDerInteger_of_overruns addressable

/-- What `parse_ecdsa_der_signature` does with the contents of the sequence. -/
def sequenceContents (sig : List Byte) (start : Nat) : Parse (Int × Int) := do
  let (middle, r) ← parseDerInteger sig sig.length start
  let (last, s) ← parseDerInteger sig sig.length middle
  if last ≠ sig.length then reject
  else if 0 < r ∧ r < n ∧ 0 < s ∧ s < n then pure (r, s)
  else reject

variable {sig : List Byte}

theorem parseEcdsaDerSignature_of_sequenceAt (addressable : sig.length < 2 ^ 64)
    (sequenced : SequenceAt sig start) :
    parseEcdsaDerSignature sig = sequenceContents sig start := by
  obtain ⟨tag, octets, length, field, rfl, whole⟩ := sequenced
  obtain ⟨here, -⟩ := List.getElem?_eq_some_iff.mp tag
  have bounds := lengthField_bounds field
  have last : (1 + octets + length) % 2 ^ 64 = sig.length := by
    rw [whole, Nat.mod_eq_of_lt addressable]
  rw [parseEcdsaDerSignature, if_neg (by omega), readByte_of_some tag, ok_bind,
    if_neg (by decide), parseDerLength_eq addressable, field, lengthOutcome, if_neg (by omega),
    if_neg (by omega), ok_bind]
  dsimp only
  rw [last, if_neg (not_not.mpr rfl)]
  rfl

/-- Without a sequence that is the whole of the data nothing is read behind it. -/
theorem parseEcdsaDerSignature_rejects (addressable : sig.length < 2 ^ 64)
    (other : ∀ start, ¬ SequenceAt sig start) : parseEcdsaDerSignature sig = reject := by
  unfold parseEcdsaDerSignature
  split_ifs with empty
  · rfl
  · have here : 0 < sig.length := by omega
    rw [readByte_of_lt here, ok_bind]
    by_cases tag : sig[0] = 0x30
    · rw [if_neg (not_not.mpr tag), parseDerLength_eq addressable]
      cases field : lengthField (sig.drop 1) with
      | none => rfl
      | some measured =>
          obtain ⟨octets, length⟩ := measured
          have bounds := lengthField_bounds field
          rw [lengthOutcome, if_neg (by omega)]
          split_ifs with refused
          · rfl
          · rw [ok_bind]
            dsimp only
            split_ifs with partly
            · rfl
            · exfalso
              push Not at partly
              refine other (1 + octets) ⟨?_, octets, length, field, rfl, by omega⟩
              rw [List.getElem?_eq_getElem here, tag]
    · rw [if_pos tag]

end QboxPlatform.RseP256Ecdsa
