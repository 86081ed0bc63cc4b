import QboxPlatform.RseP256Ecdsa.DerFields

/-!
# Encoded signatures

The parser accepts the encodings of two integers of the range and nothing else, and gives back the
integers.  It leaves the data exactly on the inputs in which an integer overruns.
-/

namespace QboxPlatform.RseP256Ecdsa

open Foundation

/-- An INTEGER that is not negative. -/
def IntegerEncoding (encoding : List Byte) (value : Nat) : Prop :=
  ∃ octets contents first rest, encoding = 0x02 :: (octets ++ contents) ∧
    lengthField octets = some (octets.length, contents.length) ∧
    contents = first :: rest ∧ first.toNat < 0x80 ∧ value = BigEndian.number contents

/-- A SEQUENCE of two integers, and nothing behind it. -/
def SignatureEncoding (sig : List Byte) (r s : Nat) : Prop :=
  ∃ octets first second, sig = 0x30 :: (octets ++ (first ++ second)) ∧
    lengthField octets = some (octets.length, (first ++ second).length) ∧
    IntegerEncoding first r ∧ IntegerEncoding second s

/-- A tag, the length in the short form, which lengths below 128 have, and the contents. -/
def derField (tag : Byte) (contents : List Byte) : List Byte :=
  tag :: BitVec.ofNat 8 contents.length :: contents

/-- The shortest contents of an INTEGER: a zero goes before a byte whose top bit is set. -/
def derContents (value : Nat) : List Byte :=
  let octets := BigEndian.octets value
  if 0x80 ≤ (octets.headD 0).toNat then 0 :: octets else octets

def derInteger (value : Nat) : List Byte := derField 0x02 (derContents value)

def derSignature (r s : Nat) : List Byte := derField 0x30 (derInteger r ++ derInteger s)

example : derSignature 5 0x80 = [0x30, 7, 2, 1, 5, 2, 2, 0, 0x80] := by decide

variable {data bytes rest encoding : List Byte} {offset stop octets length value : Nat}

theorem lengthField_append (field : lengthField bytes = some (bytes.length, length))
    (rest : List Byte) : lengthField (bytes ++ rest) = some (bytes.length, length) := by
  cases bytes with
  | nil => cases field
  | cons first tail =>
      rw [← field, List.cons_append, lengthField, lengthField]
      rw [lengthField] at field
      split_ifs at field ⊢ with short other
      · rfl
      · have count := (Prod.mk.inj (Option.some.inj field)).1
        have whole : first.toNat - 0x80 = tail.length := by
          rw [List.length_cons] at count
          omega
        rw [whole, List.take_left, List.take_length]

theorem lengthField_take (field : lengthField bytes = some (octets, length)) :
    lengthField (bytes.take octets) = some (octets, length) := by
  have bounds := lengthField_bounds field
  obtain ⟨count, rfl⟩ := Nat.exists_eq_add_of_le' bounds.1
  cases bytes with
  | nil => cases field
  | cons first tail =>
      rw [List.take_succ_cons, lengthField]
      rw [lengthField] at field
      split_ifs at field ⊢ with short other
      · exact field
      · rw [← field]
        have same := (Prod.mk.inj (Option.some.inj field)).1
        rw [List.take_take, Nat.min_eq_left (by omega)]

/-- Where an encoding begins there is an integer. -/
theorem IntegerEncoding.integerAt (encodes : IntegerEncoding encoding value)
    (here : data.drop offset = encoding ++ rest) :
    IntegerAt data offset (offset + encoding.length) value := by
  obtain ⟨octets, contents, first, tail, rfl, field, same, clear, rfl⟩ := encodes
  have tagged : data.drop offset = 0x02 :: (octets ++ (contents ++ rest)) := by simpa using here
  have behindTag : data.drop (offset + 1) = octets ++ (contents ++ rest) := by
    rw [← List.drop_drop, tagged, List.drop_one, List.tail_cons]
  have behindLength : data.drop (offset + 1 + octets.length) = contents ++ rest := by
    rw [← List.drop_drop, behindTag, List.drop_left]
  have size := congrArg List.length behindLength
  have filled : 0 < contents.length := by
    rw [same]
    exact Nat.succ_pos _
  rw [List.length_drop, List.length_append] at size
  refine ⟨?_, octets.length, contents.length, first, ?_, filled, ?_, ?_, ?_, clear, ?_⟩
  · rw [← Nat.add_zero offset, ← List.getElem?_drop, tagged]
    rfl
  · rw [behindTag, lengthField_append field]
  · simp only [List.length_cons, List.length_append]
    omega
  · simp only [List.length_cons, List.length_append]
    omega
  · rw [← Nat.add_zero (offset + 1 + octets.length), ← List.getElem?_drop, behindLength, same]
    rfl
  · rw [behindLength, List.take_left]

/-- The bytes of an integer are an encoding. -/
theorem IntegerAt.encoded (integer : IntegerAt data offset stop value) :
    ∃ encoding, IntegerEncoding encoding value ∧ data.drop offset = encoding ++ data.drop stop ∧
      offset + encoding.length = stop := by
  obtain ⟨tag, octets, length, first, field, filled, rfl, inside, present, clear, rfl⟩ := integer
  obtain ⟨here, isTag⟩ := List.getElem?_eq_some_iff.mp tag
  obtain ⟨begins, isFirst⟩ := List.getElem?_eq_some_iff.mp present
  have contents : (data.drop (offset + 1 + octets)).take length =
      first :: (data.drop (offset + 1 + octets + 1)).take (length - 1) := by
    rw [List.drop_eq_getElem_cons begins, isFirst]
    exact List.take_cons (by omega)
  have octetsLength : ((data.drop (offset + 1)).take octets).length = octets := by
    rw [List.length_take, List.length_drop]
    omega
  have contentsLength : ((data.drop (offset + 1 + octets)).take length).length = length := by
    rw [List.length_take, List.length_drop]
    omega
  refine ⟨0x02 :: ((data.drop (offset + 1)).take octets ++
    (data.drop (offset + 1 + octets)).take length), ?_, ?_, ?_⟩
  · refine ⟨_, _, first, _, rfl, ?_, contents, clear, rfl⟩
    rw [octetsLength, contentsLength, lengthField_take field]
  · have behindContents : data.drop (offset + 1 + octets + length) =
        (data.drop (offset + 1 + octets)).drop length := List.drop_drop.symm
    have behindLength : data.drop (offset + 1 + octets) =
        (data.drop (offset + 1)).drop octets := List.drop_drop.symm
    rw [List.drop_eq_getElem_cons here, isTag, List.cons_append, List.append_assoc,
      behindContents, List.take_append_drop, behindLength, List.take_append_drop]
  · rw [List.length_cons, List.length_append, octetsLength, contentsLength]
    omega

variable {sig : List Byte} {r s : Nat}

theorem parseEcdsaDerSignature_of_encoding (addressable : sig.length < 2 ^ 64)
    (encodes : SignatureEncoding sig r s) (rRange : 1 ≤ r ∧ (r : Int) < n)
    (sRange : 1 ≤ s ∧ (s : Int) < n) : parseEcdsaDerSignature sig = .ok ((r : Int), (s : Int)) := by
  obtain ⟨octets, first, second, rfl, field, encodesR, encodesS⟩ := encodes
  have sequenced : SequenceAt (0x30 :: (octets ++ (first ++ second))) (1 + octets.length) := by
    refine ⟨rfl, octets.length, (first ++ second).length, ?_, rfl, ?_⟩
    · rw [List.drop_one, List.tail_cons, lengthField_append field]
    · simp only [List.length_cons, List.length_append]
      omega
  rw [parseEcdsaDerSignature_of_sequenceAt addressable sequenced]
  generalize whole : 0x30 :: (octets ++ (first ++ second)) = sig at addressable
  have behindLength : sig.drop (1 + octets.length) = first ++ second := by
    rw [← whole, ← List.drop_drop, List.drop_one, List.tail_cons, List.drop_left]
  have behindFirst : sig.drop (1 + octets.length + first.length) = second ++ [] := by
    rw [← List.drop_drop, behindLength, List.drop_left, List.append_nil]
  have last : 1 + octets.length + first.length + second.length = sig.length := by
    rw [← whole]
    simp only [List.length_cons, List.length_append]
    omega
  rw [sequenceContents, parseDerInteger_of_integerAt addressable (encodesR.integerAt behindLength),
    ok_bind]
  dsimp only
  rw [parseDerInteger_of_integerAt addressable (encodesS.integerAt behindFirst), ok_bind]
  dsimp only
  rw [if_neg (not_not.mpr last), if_pos ⟨by omega, rRange.2, by omega, sRange.2⟩]
  rfl

theorem encoding_of_parseEcdsaDerSignature (addressable : sig.length < 2 ^ 64) {r s : Int}
    (parsed : parseEcdsaDerSignature sig = .ok (r, s)) :
    SignatureEncoding sig r.toNat s.toNat ∧ 1 ≤ r ∧ r < n ∧ 1 ≤ s ∧ s < n := by
  by_cases sequenced : ∃ start, SequenceAt sig start
  · obtain ⟨start, sequenced⟩ := sequenced
    rw [parseEcdsaDerSignature_of_sequenceAt addressable sequenced, sequenceContents] at parsed
    cases first : parseDerInteger sig sig.length start with
    | error failure =>
        rw [first, error_bind] at parsed
        cases parsed
    | ok measured =>
        obtain ⟨middle, r'⟩ := measured
        rw [first, ok_bind] at parsed
        dsimp only at parsed
        cases second : parseDerInteger sig sig.length middle with
        | error failure =>
            rw [second, error_bind] at parsed
            cases parsed
        | ok measured =>
            obtain ⟨last, s'⟩ := measured
            rw [second, ok_bind] at parsed
            dsimp only at parsed
            split_ifs at parsed with ends ranges
            · cases parsed
            · cases parsed
              push Not at ends
              subst ends
              obtain ⟨value, rfl, integer⟩ := (parseDerInteger_eq_ok_iff addressable).mp first
              obtain ⟨value', rfl, integer'⟩ := (parseDerInteger_eq_ok_iff addressable).mp second
              obtain ⟨encoding, encodesR, parts, size⟩ := integer.encoded
              obtain ⟨encoding', encodesS, parts', size'⟩ := integer'.encoded
              obtain ⟨tag, octets, length, field, rfl, whole⟩ := sequenced
              obtain ⟨here, isTag⟩ := List.getElem?_eq_some_iff.mp tag
              have bounds := lengthField_bounds field
              rw [List.drop_length, List.append_nil] at parts'
              have behindLength : (sig.drop 1).drop octets = sig.drop (1 + octets) :=
                List.drop_drop
              refine ⟨⟨(sig.drop 1).take octets, encoding, encoding', ?_, ?_, encodesR, encodesS⟩,
                by omega, by omega, by omega, by omega⟩
              · rw [← parts', ← parts, ← behindLength, List.take_append_drop]
                nth_rewrite 1 [← List.drop_zero (l := sig)]
                rw [List.drop_eq_getElem_cons here, isTag]
              · have octetsLength : ((sig.drop 1).take octets).length = octets := by
                  rw [List.length_take, List.length_drop]
                  omega
                rw [octetsLength, lengthField_take field, List.length_append]
                congr 2
                omega
            · cases parsed
  · rw [parseEcdsaDerSignature_rejects addressable (not_exists.mp sequenced)] at parsed
    cases parsed

theorem number_derContents (value : Nat) : BigEndian.number (derContents value) = value := by
  unfold derContents
  dsimp only
  split_ifs
  · rw [BigEndian.number_cons, BigEndian.number_octets]
    simp
  · exact BigEndian.number_octets value

/-- The contents are not empty and not negative. -/
theorem derContents_clear (positive : 1 ≤ value) :
    ∃ first rest, derContents value = first :: rest ∧ first.toNat < 0x80 := by
  unfold derContents
  dsimp only
  split_ifs with set
  · exact ⟨_, _, rfl, by decide⟩
  · cases octets : BigEndian.octets value with
    | nil => exact absurd octets (BigEndian.octets_ne_nil positive)
    | cons first rest =>
        rw [octets, List.headD_cons] at set
        exact ⟨first, rest, rfl, by omega⟩

theorem length_derContents_le (below : (value : Int) < n) : (derContents value).length ≤ 33 := by
  have small : value < 256 ^ 32 := by
    have bound : n ≤ 256 ^ 32 := by decide
    exact_mod_cast below.trans_le bound
  have octets := BigEndian.length_octets_le small
  unfold derContents
  dsimp only
  split_ifs
  · rw [List.length_cons]
    omega
  · omega

theorem lengthField_short (short : length < 0x80) :
    lengthField [BitVec.ofNat 8 length] = some (1, length) := by
  have same : (BitVec.ofNat 8 length).toNat = length := by
    rw [BitVec.toNat_ofNat, Nat.mod_eq_of_lt (by omega)]
  rw [lengthField, same, if_pos short]

theorem integerEncoding_derInteger (positive : 1 ≤ value) (below : (value : Int) < n) :
    IntegerEncoding (derInteger value) value := by
  have bound := length_derContents_le below
  obtain ⟨first, rest, same, clear⟩ := derContents_clear positive
  exact ⟨[BitVec.ofNat 8 (derContents value).length], derContents value, first, rest, rfl,
    lengthField_short (by omega), same, clear, (number_derContents value).symm⟩

theorem length_derInteger_le (below : (value : Int) < n) : (derInteger value).length ≤ 35 := by
  have bound := length_derContents_le below
  simp only [derInteger, derField, List.length_cons]
  omega

theorem length_derSignature_le (rBelow : (r : Int) < n) (sBelow : (s : Int) < n) :
    (derSignature r s).length ≤ 72 := by
  have first := length_derInteger_le rBelow
  have second := length_derInteger_le sBelow
  simp only [derSignature, derField, List.length_cons, List.length_append]
  omega

theorem signatureEncoding_derSignature (rRange : 1 ≤ r ∧ (r : Int) < n)
    (sRange : 1 ≤ s ∧ (s : Int) < n) : SignatureEncoding (derSignature r s) r s := by
  have first := length_derInteger_le rRange.2
  have second := length_derInteger_le sRange.2
  refine ⟨[BitVec.ofNat 8 (derInteger r ++ derInteger s).length], derInteger r, derInteger s, rfl,
    lengthField_short ?_, integerEncoding_derInteger rRange.1 rRange.2,
    integerEncoding_derInteger sRange.1 sRange.2⟩
  rw [List.length_append]
  omega

theorem parseEcdsaDerSignature_derSignature (rRange : 1 ≤ r ∧ (r : Int) < n)
    (sRange : 1 ≤ s ∧ (s : Int) < n) :
    parseEcdsaDerSignature (derSignature r s) = .ok ((r : Int), (s : Int)) := by
  have size := length_derSignature_le rRange.2 sRange.2
  exact parseEcdsaDerSignature_of_encoding (by omega) (signatureEncoding_derSignature rRange sRange)
    rRange sRange

/-- The encoding of two integers of the range is accepted and gives them back.  What is accepted is
a sequence, with nothing behind it, of two integers that are not negative, with nothing behind
them, and both are in the range. -/
theorem der_signature_round_trip :
    (∀ r s : Nat, 1 ≤ r ∧ (r : Int) < n → 1 ≤ s ∧ (s : Int) < n →
      parseEcdsaDerSignature (derSignature r s) = .ok ((r : Int), (s : Int))) ∧
    (∀ sig : List Byte, sig.length < 2 ^ 64 → ∀ r s : Int,
      parseEcdsaDerSignature sig = .ok (r, s) →
        SignatureEncoding sig r.toNat s.toNat ∧ 1 ≤ r ∧ r < n ∧ 1 ≤ s ∧ s < n) :=
  ⟨fun _ _ => parseEcdsaDerSignature_derSignature,
    fun _ addressable _ _ => encoding_of_parseEcdsaDerSignature addressable⟩

theorem der_signature_round_trip_sample :
    parseEcdsaDerSignature (derSignature 5 0x80) = .ok (5, 0x80) ∧
      SignatureEncoding (derSignature 5 0x80) 5 0x80 :=
  ⟨der_signature_round_trip.1 5 0x80 (by decide) (by decide),
    (der_signature_round_trip.2 (derSignature 5 0x80) (by decide) 5 0x80 rfl).1⟩

/-- An integer that the parser comes to overruns. -/
def SignatureOverruns (sig : List Byte) : Prop :=
  ∃ start, SequenceAt sig start ∧
    (IntegerOverruns sig start ∨
      ∃ middle value, IntegerAt sig start middle value ∧ IntegerOverruns sig middle)

theorem SequenceAt.unique {start start' : Nat} (first : SequenceAt sig start)
    (second : SequenceAt sig start') : start = start' := by
  obtain ⟨-, octets, length, field, rfl, -⟩ := first
  obtain ⟨-, octets', length', field', rfl, -⟩ := second
  rw [field] at field'
  cases field'
  rfl

theorem sequenceContents_outOfBounds_iff (addressable : sig.length < 2 ^ 64) {start : Nat} :
    sequenceContents sig start = .error .outOfBounds ↔
      IntegerOverruns sig start ∨
        ∃ middle value, IntegerAt sig start middle value ∧ IntegerOverruns sig middle := by
  rw [sequenceContents, ← parseDerInteger_outOfBounds_iff addressable]
  cases first : parseDerInteger sig sig.length start with
  | error failure =>
      rw [error_bind, Except.error.injEq, Except.error.injEq]
      refine ⟨.inl, fun leaves => leaves.resolve_right ?_⟩
      rintro ⟨middle, value, integer, -⟩
      rw [parseDerInteger_of_integerAt addressable integer] at first
      cases first
  | ok measured =>
      obtain ⟨middle, r⟩ := measured
      obtain ⟨value, rfl, integer⟩ := (parseDerInteger_eq_ok_iff addressable).mp first
      have next : (∃ middle value, IntegerAt sig start middle value ∧ IntegerOverruns sig middle) ↔
          IntegerOverruns sig middle := by
        constructor
        · rintro ⟨middle', value', integer', overruns⟩
          rw [parseDerInteger_of_integerAt addressable integer'] at first
          cases first
          exact overruns
        · exact fun overruns => ⟨middle, value, integer, overruns⟩
      rw [next, ← parseDerInteger_outOfBounds_iff addressable, ok_bind]
      dsimp only
      cases second : parseDerInteger sig sig.length middle with
      | error failure =>
          rw [error_bind]
          simp only [reduceCtorEq, false_or, Except.error.injEq]
      | ok measured =>
          obtain ⟨last, s⟩ := measured
          rw [ok_bind]
          dsimp only
          split_ifs
          · simp only [reject, reduceCtorEq, or_self, Except.error.injEq]
          · simp only [or_self, iff_false]
            exact fun same => nomatch same
          · simp only [reject, reduceCtorEq, or_self, Except.error.injEq]

/-- The parser stays in the data exactly when no integer that it comes to overruns. -/
theorem parse_in_bounds_iff (sig : List Byte) (addressable : sig.length < 2 ^ 64) :
    parseEcdsaDerSignature sig ≠ .error .outOfBounds ↔ ¬ SignatureOverruns sig := by
  apply not_congr
  by_cases sequenced : ∃ start, SequenceAt sig start
  · obtain ⟨start, sequenced⟩ := sequenced
    rw [parseEcdsaDerSignature_of_sequenceAt addressable sequenced,
      sequenceContents_outOfBounds_iff addressable]
    constructor
    · exact fun overruns => ⟨start, sequenced, overruns⟩
    · rintro ⟨start', sequenced', overruns⟩
      rwa [sequenced.unique sequenced']
  · rw [parseEcdsaDerSignature_rejects addressable (not_exists.mp sequenced)]
    refine iff_of_false (fun same => nomatch same) ?_
    rintro ⟨start, here, -⟩
    exact sequenced ⟨start, here⟩

theorem parse_in_bounds_iff_sample : ¬ SignatureOverruns (derSignature 5 0x80) :=
  (parse_in_bounds_iff (derSignature 5 0x80) (by decide)).mp (fun outside => nomatch outside)

/-- A length of eight bytes makes the sum with the offset wrap. -/
theorem not_parse_in_bounds :
    ¬ ∀ sig : List Byte, sig.length < 2 ^ 64 →
      parseEcdsaDerSignature sig ≠ .error .outOfBounds := by
  intro every
  exact every ([0x30, 0x0a, 0x02, 0x88] ++ List.replicate 8 0xff) (by decide) rfl

end QboxPlatform.RseP256Ecdsa
