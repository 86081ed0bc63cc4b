import Mathlib

/-!
# Checked operations

Division and indexing as a program does them.  A zero divisor and an index outside give `none`,
so that a computation has a result only if every one of its operations is allowed.
-/

namespace Foundation

universe u v

def checkedDiv (dividend divisor : Nat) : Option Nat :=
  if divisor = 0 then none else some (dividend / divisor)

def checkedMod (dividend divisor : Nat) : Option Nat :=
  if divisor = 0 then none else some (dividend % divisor)

/-- The positions from one to another, in an array of some size. -/
def checkedRange (start last size : Nat) : Option Unit :=
  if start ≤ last ∧ last ≤ size then some () else none

def checkedSet {Item : Type u} (items : List Item) (index : Nat) (item : Item) :
    Option (List Item) :=
  if index < items.length then some (items.set index item) else none

theorem checkedDiv_eq {divisor : Nat} (nonzero : divisor ≠ 0) (dividend : Nat) :
    checkedDiv dividend divisor = some (dividend / divisor) := if_neg nonzero

theorem checkedMod_eq {divisor : Nat} (nonzero : divisor ≠ 0) (dividend : Nat) :
    checkedMod dividend divisor = some (dividend % divisor) := if_neg nonzero

theorem checkedRange_eq {start last size : Nat} (ordered : start ≤ last)
    (inside : last ≤ size) : checkedRange start last size = some () := if_pos ⟨ordered, inside⟩

theorem checkedSet_eq {Item : Type u} {items : List Item} {index : Nat}
    (inside : index < items.length) (item : Item) :
    checkedSet items index item = some (items.set index item) := if_pos inside

section Folds

variable {State : Type u} {Item : Type v}

/-- A loop whose operations are allowed under an invariant that its body keeps. -/
theorem foldlM_eq_foldl {checked : State → Item → Option State} {body : State → Item → State}
    {invariant : State → Prop} {items : List Item}
    (allowed : ∀ state, ∀ item ∈ items, invariant state →
      checked state item = some (body state item))
    (keeps : ∀ state, ∀ item ∈ items, invariant state → invariant (body state item))
    {state : State} (initially : invariant state) :
    items.foldlM checked state = some (items.foldl body state) := by
  induction items generalizing state with
  | nil => rfl
  | cons item rest inductionHypothesis =>
      have here := allowed state item List.mem_cons_self initially
      rw [List.foldlM_cons, here, List.foldl_cons]
      apply inductionHypothesis
      · intro later other member
        exact allowed later other (List.mem_cons_of_mem _ member)
      · intro later other member
        exact keeps later other (List.mem_cons_of_mem _ member)
      · exact keeps state item List.mem_cons_self initially

theorem mapM_eq_map {checked : Item → Option State} {body : Item → State} {items : List Item}
    (allowed : ∀ item ∈ items, checked item = some (body item)) :
    items.mapM checked = some (items.map body) := by
  induction items with
  | nil => rfl
  | cons item rest inductionHypothesis =>
      have later := inductionHypothesis fun other member =>
        allowed other (List.mem_cons_of_mem _ member)
      rw [List.mapM_cons, allowed item List.mem_cons_self, later]
      rfl

/-- Setting some positions, each to a value of its own. -/
theorem foldl_set_eq_mapIdx (indices : List Nat) (value : Nat → Item) (items : List Item) :
    indices.foldl (fun items index => items.set index (value index)) items =
      items.mapIdx fun index item => if index ∈ indices then value index else item := by
  induction indices generalizing items with
  | nil =>
      apply List.ext_getElem
      · rw [List.foldl_nil, List.length_mapIdx]
      · intro index left right
        rw [List.getElem_mapIdx, if_neg List.not_mem_nil]
        rfl
  | cons first rest inductionHypothesis =>
      rw [List.foldl_cons, inductionHypothesis]
      apply List.ext_getElem
      · rw [List.length_mapIdx, List.length_mapIdx, List.length_set]
      · intro index left right
        rw [List.getElem_mapIdx, List.getElem_mapIdx, List.getElem_set]
        by_cases later : index ∈ rest
        · simp only [later, List.mem_cons_of_mem, if_true]
        · by_cases same : first = index
          · simp only [same, later, if_true, if_false, List.mem_cons_self]
          · have absent : index ∉ first :: rest := by
              simp only [List.mem_cons, later, or_false]
              exact Ne.symm same
            simp only [same, later, absent, if_false]

/-- Positions that stay inside are set without a failed check. -/
theorem foldlM_checkedSet {indices : List Nat} {checked : Nat → Option Item}
    {value : Nat → Item} {items : List Item}
    (allowed : ∀ index ∈ indices, checked index = some (value index))
    (inside : ∀ index ∈ indices, index < items.length) :
    indices.foldlM
        (fun items index => (checked index).bind (checkedSet items index)) items =
      some (items.mapIdx fun index item => if index ∈ indices then value index else item) := by
  rw [← foldl_set_eq_mapIdx]
  apply @foldlM_eq_foldl _ _ _ _ fun current : List Item => current.length = items.length
  · intro current index member length
    rw [allowed index member, Option.bind_some]
    exact checkedSet_eq (length.symm ▸ inside index member) _
  · intro current index member length
    exact (List.length_set ..).trans length
  · rfl

end Folds

end Foundation
