import QboxPlatform.Cc3xx.Sha256
import QboxPlatform.Foundation.Sha256

/-!
# The compression function is the standard one

The tables, the schedule loop and the rounds of `sha256_transform` against the definitions of the
standard.
-/

namespace QboxPlatform.Cc3xx

open Foundation

namespace Sha256Words

/-- The words as the standard's variables. -/
def standard (words : Sha256Words) : Sha256.Variables :=
  ⟨words.a, words.b, words.c, words.d, words.e, words.f, words.g, words.h⟩

theorem standard_initial : initial.standard = Sha256.initial := by decide +kernel

end Sha256Words

theorem sha256K_eq : sha256K = Sha256.constants := by decide +kernel

theorem loadBe32_eq (block : List Byte) (t : Nat) (inside : 4 * t + 4 ≤ block.length) :
    loadBe32 block (4 * t) = Sha256.messageWord block t := by
  have bytes : (block.drop (4 * t)).take 4 =
      [block.getD (4 * t) 0, block.getD (4 * t + 1) 0, block.getD (4 * t + 2) 0,
        block.getD (4 * t + 3) 0] := by
    apply List.ext_getElem (by simp; omega)
    intro index _ below
    have four : index < 4 := below
    rw [List.getElem_take, List.getElem_drop, ← List.getD_eq_getElem block 0]
    interval_cases index <;> rfl
  rw [loadBe32, bytes, Sha256.messageWord]
  generalize block.getD (4 * t) 0 = first
  generalize block.getD (4 * t + 1) 0 = second
  generalize block.getD (4 * t + 2) 0 = third
  generalize block.getD (4 * t + 3) 0 = fourth
  apply BitVec.eq_of_getLsbD_eq
  intro bit below
  simp only [List.reverse_cons, List.reverse_nil, List.nil_append, List.cons_append, ofBytes,
    BitVec.getLsbD_or, BitVec.getLsbD_setWidth, BitVec.getLsbD_shiftLeft, BitVec.getLsbD_append]
  grind

/-- The schedule loop writes the schedule of the standard, word by word. -/
theorem extendSchedule_spec {block : List Byte} (remaining index : Nat) {schedule : List Word}
    (from16 : 16 ≤ index) (length : schedule.length = index)
    (written : ∀ t < index, schedule.getD t 0 = Sha256.schedule block t) :
    (extendSchedule remaining index schedule).length = index + remaining ∧
      ∀ t < index + remaining,
        (extendSchedule remaining index schedule).getD t 0 = Sha256.schedule block t := by
  induction remaining generalizing index schedule with
  | zero => exact ⟨length, written⟩
  | succ remaining inductionHypothesis =>
      rw [extendSchedule, ← Nat.add_assoc, Nat.add_right_comm]
      apply inductionHypothesis (index + 1) (by omega)
      · rw [List.length_append, length, List.length_singleton]
      · intro t below
        rcases Nat.lt_succ_iff_lt_or_eq.mp below with old | rfl
        · rw [List.getD_append _ _ _ _ (by omega)]
          exact written t old
        · rw [List.getD_append_right _ _ _ _ (by omega), length, Nat.sub_self,
            List.getD_cons_zero, Sha256.schedule, if_neg (by omega), written _ (by omega),
            written _ (by omega), written _ (by omega), written _ (by omega),
            Sha256.lowerSigma0, Sha256.lowerSigma1]
          ring

theorem messageSchedule_spec {block : List Byte} (whole : block.length = 64) :
    (messageSchedule block).length = 64 ∧
      ∀ t < 64, (messageSchedule block).getD t 0 = Sha256.schedule block t := by
  refine extendSchedule_spec 48 16 le_rfl (by simp) fun t below => ?_
  rw [Sha256.schedule, if_pos below, ← loadBe32_eq block t (by omega), List.getD_eq_getElem _ _
    (by simpa using below), List.getElem_map, List.getElem_range]

/-- The compression of a block. -/
theorem standard_sha256Compress (h : Sha256Words) {block : List Byte}
    (whole : block.length = 64) :
    (sha256Compress h block).standard = Sha256.compress h.standard block := by
  obtain ⟨length, written⟩ := messageSchedule_spec whole
  have constants : Sha256.constants.length = 64 := by rw [← sha256K_eq]; rfl
  have zipped : sha256K.zip (messageSchedule block) =
      (List.range 64).map fun t => (Sha256.constants.getD t 0, Sha256.schedule block t) := by
    rw [sha256K_eq]
    apply List.ext_getElem (by simp [constants, length])
    intro t _ inside
    have below : t < 64 := by simpa using inside
    rw [List.getElem_zip, List.getElem_map, List.getElem_range, ← written t below,
      List.getD_eq_getElem _ _ (by omega), List.getD_eq_getElem _ _ (by omega)]
  have rounds (pairs : List (Word × Word)) (words : Sha256Words) :
      (pairs.foldl (fun words pair => sha256Round words pair.1 pair.2) words).standard =
        pairs.foldl (fun working pair => Sha256.round working pair.1 pair.2) words.standard := by
    induction pairs generalizing words with
    | nil => rfl
    | cons pair rest inductionHypothesis => exact inductionHypothesis _
  have added (first second : Sha256Words) :
      (first.add second).standard = first.standard.add second.standard := rfl
  rw [sha256Compress, added]
  refine (congrArg h.standard.add (rounds (sha256K.zip (messageSchedule block)) h)).trans ?_
  rw [zipped, List.foldl_map]
  rfl

end QboxPlatform.Cc3xx
