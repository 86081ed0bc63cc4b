import Mathlib

/-!
# Hash chains and hash trees

A chain applies numbered steps one after another.  The nodes of a tree are numbered as in a heap;
the climb from a leaf needs the siblings on its way to the root.
-/

namespace Foundation

universe u

section Chains

variable {Digest : Type u} (step : Nat → Digest → Digest)

/-- Some steps in a row. -/
def chain (first count : Nat) (value : Digest) : Digest :=
  (List.range' first count).foldl (fun value index => step index value) value

theorem chain_add (first front back : Nat) (value : Digest) :
    chain step first (front + back) value =
      chain step (first + front) back (chain step first front value) := by
  rw [chain, ← List.range'_append_1, List.foldl_append]
  rfl

/-- A chain that stopped on its way and is finished later ends where it would have. -/
theorem chain_finish {stop last : Nat} (within : stop ≤ last) (value : Digest) :
    chain step stop (last - stop) (chain step 0 stop value) = chain step 0 last value := by
  have whole := chain_add step 0 stop (last - stop) value
  rw [Nat.add_sub_of_le within, Nat.zero_add] at whole
  exact whole.symm

theorem chain_succ (first count : Nat) (value : Digest) :
    chain step first (count + 1) value = step (first + count) (chain step first count value) :=
  chain_add step first count 1 value

/-- A value whose chain ends where another one does lies on that one, or the two chains run into
each other. -/
theorem chain_meets {stop last : Nat} (within : stop ≤ last) {value start : Digest}
    (same : chain step stop (last - stop) value = chain step 0 last start) :
    value = chain step 0 stop start ∨
      ∃ j, stop ≤ j ∧ j < last ∧
        chain step stop (j - stop) value ≠ chain step 0 j start ∧
        step j (chain step stop (j - stop) value) = step j (chain step 0 j start) := by
  induction last, within using Nat.le_induction with
  | base =>
      rw [Nat.sub_self] at same
      exact .inl same
  | succ last within inductionHypothesis =>
      rw [Nat.succ_sub within, chain_succ, Nat.add_sub_cancel' within, chain_succ,
        Nat.zero_add] at same
      by_cases equal : chain step stop (last - stop) value = chain step 0 last start
      · rcases inductionHypothesis equal with started | ⟨j, above, below, apart, meets⟩
        · exact .inl started
        · exact .inr ⟨j, above, below.trans (Nat.lt_succ_self last), apart, meets⟩
      · exact .inr ⟨last, within, Nat.lt_succ_self last, equal, same⟩

end Chains

section Pieces

variable {Item : Type u} {pieces : Nat → List Item} {size : Nat}

theorem length_flatMap_range {count : Nat}
    (sized : ∀ index < count, (pieces index).length = size) :
    ((List.range count).flatMap pieces).length = count * size := by
  induction count with
  | zero => rw [Nat.zero_mul, List.range_zero, List.flatMap_nil, List.length_nil]
  | succ count inductionHypothesis =>
      have before := inductionHypothesis fun index inside => sized index (Nat.lt_succ_of_lt inside)
      rw [List.range_succ, List.flatMap_append, List.length_append, before,
        List.flatMap_singleton, sized count (Nat.lt_succ_self count), Nat.succ_mul]

/-- A piece of a concatenation of equally long ones. -/
theorem slice_flatMap_range {count index : Nat}
    (sized : ∀ index < count, (pieces index).length = size) (inside : index < count) :
    (((List.range count).flatMap pieces).drop (index * size)).take size = pieces index := by
  obtain ⟨rest, rfl⟩ := Nat.exists_eq_add_of_lt inside
  have front : ((List.range index).flatMap pieces).length = index * size :=
    length_flatMap_range fun earlier before => sized earlier (before.trans inside)
  rw [Nat.add_right_comm, List.range_add, List.range_succ, List.flatMap_append,
    List.flatMap_append, List.flatMap_singleton, List.append_assoc, List.drop_left' front,
    List.take_left' (sized index inside)]

end Pieces

section Trees

variable {Digest : Type u} (leaf : Nat → Digest) (combine : Nat → Digest → Digest → Digest)

/-- The node with a number, some levels above the leaves. -/
def treeNode : Nat → Nat → Digest
  | 0, number => leaf number
  | level + 1, number =>
      combine number (treeNode level (2 * number)) (treeNode level (2 * number + 1))

/-- The other child of the same parent. -/
def sibling (number : Nat) : Nat := if number % 2 = 0 then number + 1 else number - 1

/-- The siblings from a leaf up. -/
def treePath (height number : Nat) : List Digest :=
  (List.range height).map fun level => treeNode leaf combine level (sibling (number / 2 ^ level))

/-- One level of the climb, from a node with its number. -/
def climb (node : Nat × Digest) (other : Digest) : Nat × Digest :=
  (node.1 / 2,
    if node.1 % 2 = 1 then combine (node.1 / 2) other node.2
    else combine (node.1 / 2) node.2 other)

theorem climb_treeNode (level number : Nat) :
    climb combine (number, treeNode leaf combine level number)
        (treeNode leaf combine level (sibling number)) =
      (number / 2, treeNode leaf combine (level + 1) (number / 2)) := by
  have parts := Nat.div_add_mod number 2
  rw [climb, treeNode, sibling]
  rcases Nat.mod_two_eq_zero_or_one number with even | odd
  · have left : 2 * (number / 2) = number := by omega
    rw [if_neg (by omega), if_pos even, left]
  · have right : 2 * (number / 2) = number - 1 := by omega
    rw [if_pos odd, if_neg (by omega), right, Nat.sub_add_cancel (by omega)]

/-- A node and the other child of its parent, in their order. -/
def ordered (number : Nat) (node other : Digest) : Digest × Digest :=
  if number % 2 = 1 then (other, node) else (node, other)

theorem climb_eq (number : Nat) (node other : Digest) :
    climb combine (number, node) other =
      (number / 2, combine (number / 2) (ordered number node other).1
        (ordered number node other).2) := by
  rw [climb, ordered]
  by_cases odd : number % 2 = 1
  · rw [if_pos odd, if_pos odd]
  · rw [if_neg odd, if_neg odd]

/-- A node and its sibling are the children of one parent. -/
theorem ordered_children (level number : Nat) :
    ordered number (treeNode leaf combine level number)
        (treeNode leaf combine level (sibling number)) =
      (treeNode leaf combine level (2 * (number / 2)),
        treeNode leaf combine level (2 * (number / 2) + 1)) := by
  rw [ordered, sibling]
  rcases Nat.mod_two_eq_zero_or_one number with even | odd
  · have left : 2 * (number / 2) = number := by omega
    rw [if_neg (by omega), if_pos even, left]
  · have right : 2 * (number / 2) = number - 1 := by omega
    rw [if_pos odd, if_neg (by omega), right, Nat.sub_add_cancel (by omega)]

theorem ordered_injective {number : Nat} {node other node' other' : Digest}
    (same : ordered number node other = ordered number node' other') :
    node = node' ∧ other = other' := by
  unfold ordered at same
  split at same
  · exact (Prod.mk.inj same).symm
  · exact Prod.mk.inj same

theorem foldl_climb_number (others : List Digest) (node : Nat × Digest) :
    (others.foldl (climb combine) node).1 = node.1 / 2 ^ others.length := by
  induction others generalizing node with
  | nil => rw [List.foldl_nil, List.length_nil, pow_zero, Nat.div_one]
  | cons other rest inductionHypothesis =>
      rw [List.foldl_cons, inductionHypothesis, List.length_cons, pow_succ',
        ← Nat.div_div_eq_div_mul, climb]

/-- The parents on the way up, each with the pair that is combined into it. -/
def climbPairs : Nat × Digest → List Digest → List (Nat × Digest × Digest)
  | _, [] => []
  | node, other :: rest =>
      (node.1 / 2, ordered node.1 node.2 other) :: climbPairs (climb combine node other) rest

/-- The siblings from a level up. -/
def pathFrom (level number count : Nat) : List Digest :=
  (List.range count).map fun step =>
    treeNode leaf combine (level + step) (sibling (number / 2 ^ step))

theorem pathFrom_succ (level number count : Nat) :
    pathFrom leaf combine level number (count + 1) =
      treeNode leaf combine level (sibling number) ::
        pathFrom leaf combine (level + 1) (number / 2) count := by
  rw [pathFrom, List.range_succ_eq_map, List.map_cons, List.map_map, pow_zero, Nat.div_one,
    pathFrom]
  refine congrArg _ (List.map_congr_left fun step _ => ?_)
  rw [Function.comp_apply, pow_succ', ← Nat.div_div_eq_div_mul, Nat.succ_eq_add_one,
    Nat.add_assoc, Nat.add_comm 1]

/-- A climb to the root of the tree starts at its leaf and follows its path, or some pair on the
way is combined into the node of another pair. -/
theorem climb_meets (others : List Digest) (level number : Nat) (node : Digest)
    (same : (others.foldl (climb combine) (number, node)).2 =
      treeNode leaf combine (level + others.length) (number / 2 ^ others.length)) :
    (node = treeNode leaf combine level number ∧
        others = pathFrom leaf combine level number others.length) ∨
      ∃ step < others.length, ∃ left right,
        (number / 2 ^ (step + 1), left, right) ∈ climbPairs combine (number, node) others ∧
          (left, right) ≠
            (treeNode leaf combine (level + step) (2 * (number / 2 ^ (step + 1))),
              treeNode leaf combine (level + step) (2 * (number / 2 ^ (step + 1)) + 1)) ∧
          combine (number / 2 ^ (step + 1)) left right =
            treeNode leaf combine (level + step + 1) (number / 2 ^ (step + 1)) := by
  induction others generalizing level number node with
  | nil =>
      rw [List.foldl_nil, List.length_nil, pow_zero, Nat.div_one] at same
      exact .inl ⟨same, rfl⟩
  | cons other rest inductionHypothesis =>
      rw [List.foldl_cons, climb_eq, List.length_cons, pow_succ', ← Nat.div_div_eq_div_mul,
        Nat.add_comm rest.length, ← Nat.add_assoc] at same
      rcases inductionHypothesis _ _ _ same with ⟨reached, follows⟩ | above
      · by_cases equal : ordered number node other =
            ordered number (treeNode leaf combine level number)
              (treeNode leaf combine level (sibling number))
        · obtain ⟨sameNode, sameOther⟩ := ordered_injective equal
          left
          rw [List.length_cons, pathFrom_succ, ← follows, ← sameOther]
          exact ⟨sameNode, rfl⟩
        · rw [ordered_children] at equal
          refine .inr ⟨0, Nat.succ_pos _, (ordered number node other).1,
            (ordered number node other).2, ?_⟩
          rw [Nat.zero_add, pow_one, Nat.add_zero]
          exact ⟨List.mem_cons_self, equal, reached⟩
      · obtain ⟨step, inside, left, right, member, split⟩ := above
        refine .inr ⟨step + 1, Nat.succ_lt_succ inside, left, right, ?_⟩
        rw [pow_succ' 2 (step + 1), ← Nat.div_div_eq_div_mul, Nat.add_comm step 1,
          ← Nat.add_assoc, Nat.add_comm 1 step]
        refine ⟨?_, split⟩
        rw [climbPairs, climb_eq]
        exact List.mem_cons_of_mem _ member

end Trees

end Foundation
