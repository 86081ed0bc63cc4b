import Mathlib

/-!
# A cached computation

One remembered result of a computation that may change under it: the entry is marked valid,
carries the key it was computed for, and is only as good as the last invalidation.
-/

namespace Foundation

universe u v

structure Memo (Key : Type u) (Value : Type v) where
  valid : Bool
  key : Key
  value : Value
  deriving DecidableEq

namespace Memo

variable {Key : Type u} {Value : Type v} [DecidableEq Key]

/-- The value for a key, from the entry when it is valid and has that key. -/
def lookup (memo : Memo Key Value) (compute : Key → Value) (key : Key) : Value × Memo Key Value :=
  if memo.valid = true ∧ memo.key = key then (memo.value, memo)
  else (compute key, ⟨true, key, compute key⟩)

omit [DecidableEq Key] in
/-- A valid entry holds what the computation gives now. -/
def Coherent (memo : Memo Key Value) (compute : Key → Value) : Prop :=
  memo.valid = true → memo.value = compute memo.key

/-- An entry that no lookup tells from the computation. -/
def Transparent (memo : Memo Key Value) (compute : Key → Value) : Prop :=
  ∀ key, (memo.lookup compute key).1 = compute key

theorem transparent_iff_coherent {memo : Memo Key Value} {compute : Key → Value} :
    memo.Transparent compute ↔ memo.Coherent compute := by
  constructor
  · intro transparent valid
    simpa [lookup, valid] using transparent memo.key
  · intro coherent key
    by_cases hit : memo.valid = true ∧ memo.key = key
    · obtain ⟨valid, rfl⟩ := hit
      simpa [lookup, valid] using coherent valid
    · simp [lookup, hit]

omit [DecidableEq Key] in
theorem coherent_of_invalid {memo : Memo Key Value} {compute : Key → Value}
    (invalid : memo.valid = false) : memo.Coherent compute := by
  intro valid
  simp [invalid] at valid

omit [DecidableEq Key] in
/-- A computation that still gives the same for the remembered key leaves the entry good. -/
theorem Coherent.congr {memo : Memo Key Value} {before after : Key → Value}
    (coherent : memo.Coherent before)
    (same : memo.valid = true → after memo.key = before memo.key) :
    memo.Coherent after := by
  intro valid
  rw [same valid]
  exact coherent valid

/-- After a lookup of a good entry the entry is valid for the key and still good. -/
theorem Coherent.lookup {memo : Memo Key Value} {compute : Key → Value}
    (coherent : memo.Coherent compute) (key : Key) :
    (memo.lookup compute key).2.valid = true ∧ (memo.lookup compute key).2.key = key ∧
      (memo.lookup compute key).2.Coherent compute := by
  by_cases hit : memo.valid = true ∧ memo.key = key
  · rw [Memo.lookup, if_pos hit]
    exact ⟨hit.1, hit.2, coherent⟩
  · rw [Memo.lookup, if_neg hit]
    exact ⟨rfl, rfl, fun _ => rfl⟩

end Memo

end Foundation
