import Mathlib

/-!
# Items consumed block by block

A chaining value absorbs complete blocks of a stream, and an incomplete block waits for the items
that fill it.  However the stream is cut into pieces, the outcome is that of the whole.
-/

namespace Foundation

universe u v

namespace BlockStream

variable {Chain : Type u} {Item : Type v} (compress : Chain → List Item → Chain) (size : Nat)

/-- Absorb the complete blocks; the items left over are the second component. -/
def absorb (chain : Chain) (items : List Item) : Chain × List Item :=
  if 0 < size ∧ size ≤ items.length then
    absorb (compress chain (items.take size)) (items.drop size)
  else (chain, items)
termination_by items.length
decreasing_by
  rw [List.length_drop]
  omega

variable {compress size}

theorem absorb_short {chain : Chain} {items : List Item} (short : items.length < size) :
    absorb compress size chain items = (chain, items) := by
  rw [absorb, if_neg (by omega)]

theorem absorb_block {chain : Chain} {items : List Item} (positive : 0 < size)
    (enough : size ≤ items.length) :
    absorb compress size chain items =
      absorb compress size (compress chain (items.take size)) (items.drop size) := by
  rw [absorb, if_pos ⟨positive, enough⟩]

theorem length_absorb (positive : 0 < size) (chain : Chain) (items : List Item) :
    (absorb compress size chain items).2.length = items.length % size := by
  induction chain, items using absorb.induct compress size with
  | case1 chain items complete inductionHypothesis =>
      rw [absorb_block positive complete.2, inductionHypothesis, List.length_drop,
        ← Nat.mod_eq_sub_mod complete.2]
  | case2 chain items incomplete =>
      have short : items.length < size := by omega
      rw [absorb_short short, Nat.mod_eq_of_lt short]

/-- A stream may be absorbed piece by piece. -/
theorem absorb_append (positive : 0 < size) (chain : Chain) (front back : List Item) :
    absorb compress size chain (front ++ back) =
      absorb compress size (absorb compress size chain front).1
        ((absorb compress size chain front).2 ++ back) := by
  induction chain, front using absorb.induct compress size with
  | case1 chain front complete inductionHypothesis =>
      have enough : size ≤ (front ++ back).length := by
        rw [List.length_append]
        omega
      rw [absorb_block positive enough, absorb_block positive complete.2,
        List.take_append_of_le_length complete.2, List.drop_append_of_le_length complete.2]
      exact inductionHypothesis
  | case2 chain front incomplete =>
      have short : front.length < size := by omega
      rw [absorb_short short]

/-- Filling up an incomplete block and compressing it takes a prefix off the stream. -/
theorem absorb_filled {chain : Chain} {pending data : List Item} (positive : 0 < size)
    (short : pending.length ≤ size)
    (full : (pending ++ data.take (size - pending.length)).length = size) :
    absorb compress size chain (pending ++ data) =
      absorb compress size (compress chain (pending ++ data.take (size - pending.length)))
        (data.drop (size - pending.length)) := by
  have enough : size ≤ (pending ++ data).length := by
    rw [List.length_append, List.length_take] at full
    rw [List.length_append]
    omega
  rw [absorb_block positive enough, List.take_append, List.take_of_length_le short,
    List.drop_append, List.drop_of_length_le short, List.nil_append]

end BlockStream

end Foundation
