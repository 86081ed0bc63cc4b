import QboxPlatform.Foundation.ShortWeierstrass

/-!
# A multiple of a point by computation

Double-and-add in projective coordinates on natural numbers modulo a prime.  No step divides,
so that a multiple by a long scalar can be evaluated, and a run that meets no exceptional case
gives the multiple in the group.
-/

namespace Foundation.WeightedLadder

open ShortWeierstrass

structure Triple where
  x : Nat
  y : Nat
  z : Nat

section Steps

variable (modulus a : Nat)

def sub (first second : Nat) : Nat := first + (modulus - second % modulus)

namespace Triple

variable (triple : Triple)

def double : Triple :=
  let square := triple.y * triple.y % modulus
  let s := 4 * triple.x * square % modulus
  let zSquare := triple.z * triple.z % modulus
  let m := (3 * triple.x * triple.x + a * zSquare * zSquare) % modulus
  let x := sub modulus (m * m) (2 * s) % modulus
  { x := x
    y := sub modulus (m * sub modulus s x) (8 * square * square) % modulus
    z := 2 * triple.y * triple.z % modulus }

/-- The difference of the abscissas, up to a factor that is not zero. -/
def gap (x : Nat) : Nat := sub modulus (x * triple.z * triple.z) triple.x % modulus

def add (x y : Nat) : Triple :=
  let h := triple.gap modulus x
  let square := h * h % modulus
  let cube := square * h % modulus
  let r := sub modulus (y * triple.z * triple.z * triple.z) triple.y % modulus
  let x := sub modulus (r * r) (cube + 2 * triple.x * square) % modulus
  { x := x
    y := sub modulus (r * sub modulus (triple.x * square) x) (triple.y * cube) % modulus
    z := triple.z * h % modulus }

end Triple

/-- From the highest bit down; `none` where a formula does not apply. -/
def ladder (x y : Nat) : List Bool → Triple → Option Triple
  | [], triple => some triple
  | bit :: rest, triple =>
      if triple.y % modulus = 0 then none
      else
        let doubled := triple.double modulus a
        if bit then
          if doubled.gap modulus x % modulus = 0 then none
          else ladder x y rest (doubled.add modulus x y)
        else ladder x y rest doubled

end Steps

def value (bits : List Bool) (start : Nat) : Nat :=
  bits.foldl (fun scalar bit => 2 * scalar + bit.toNat) start

variable {modulus : Nat} [Fact modulus.Prime]

theorem cast_sub (first second : Nat) :
    (sub modulus first second : ZMod modulus) = first - second := by
  have positive : 0 < modulus := (Fact.out : modulus.Prime).pos
  rw [sub, Nat.cast_add, Nat.cast_sub (Nat.mod_lt second positive).le, ZMod.natCast_self,
    ZMod.natCast_mod, zero_sub, sub_eq_add_neg]

theorem cast_ne_zero {number : Nat} (nonzero : number % modulus ≠ 0) :
    (number : ZMod modulus) ≠ 0 := by
  intro zero
  exact nonzero (Nat.mod_eq_zero_of_dvd ((ZMod.natCast_eq_zero_iff _ _).mp zero))

/-- The triple stands for the point. -/
def Stands {a b : ZMod modulus} (point : (curve a b).Point) (triple : Triple) : Prop :=
  Weighted point (triple.x : ZMod modulus) triple.y triple.z

variable {a : Nat} {b : ZMod modulus} {point : (curve (a : ZMod modulus) b).Point}
  {triple : Triple}

theorem Stands.double (odd : (2 : ZMod modulus) ≠ 0) (stands : Stands point triple)
    (upright : triple.y % modulus ≠ 0) : Stands (2 • point) (triple.double modulus a) := by
  apply Weighted.double stands odd (cast_ne_zero upright) rfl rfl
  · simp only [Triple.double, ZMod.natCast_mod, cast_sub]
    push_cast [ZMod.natCast_mod]
    ring
  · simp only [Triple.double, ZMod.natCast_mod, cast_sub]
    push_cast [ZMod.natCast_mod, cast_sub]
    ring
  · simp only [Triple.double, ZMod.natCast_mod]
    push_cast
    ring

theorem Stands.add {other : (curve (a : ZMod modulus) b).Point} {x y : Nat}
    (stands : Stands point triple) (located : At other (x : ZMod modulus) y)
    (apart : triple.gap modulus x % modulus ≠ 0) :
    Stands (point + other) (triple.add modulus x y) := by
  have slope : (y : ZMod modulus) * triple.z ^ 3 - triple.y =
      (y : ZMod modulus) * triple.z ^ 3 - triple.y := rfl
  refine Weighted.add stands located (cast_ne_zero apart) ?_ slope ?_ ?_ ?_
  · simp only [Triple.gap, ZMod.natCast_mod, cast_sub]
    push_cast
    ring
  · simp only [Triple.add, ZMod.natCast_mod, cast_sub]
    push_cast [ZMod.natCast_mod, cast_sub]
    ring
  · simp only [Triple.add, ZMod.natCast_mod, cast_sub]
    push_cast [ZMod.natCast_mod, cast_sub]
    ring
  · simp only [Triple.add, ZMod.natCast_mod]
    push_cast
    ring

theorem stands_ladder (odd : (2 : ZMod modulus) ≠ 0) {x y start : Nat}
    (located : At point (x : ZMod modulus) y) {bits : List Bool} {final : Triple}
    (stands : Stands (start • point) triple)
    (climbed : ladder modulus a x y bits triple = some final) :
    Stands (value bits start • point) final := by
  induction bits generalizing start triple with
  | nil =>
      cases climbed
      exact stands
  | cons bit rest inductionHypothesis =>
      rw [ladder] at climbed
      by_cases flat : triple.y % modulus = 0
      · rw [if_pos flat] at climbed
        cases climbed
      · rw [if_neg flat] at climbed
        have doubled := stands.double odd flat
        rw [← mul_nsmul'] at doubled
        cases bit with
        | false => exact inductionHypothesis doubled climbed
        | true =>
            dsimp only at climbed
            by_cases level : (triple.double modulus a).gap modulus x % modulus = 0
            · rw [if_pos rfl, if_pos level] at climbed
              cases climbed
            · rw [if_pos rfl, if_neg level] at climbed
              have added := doubled.add located level
              rw [← succ_nsmul] at added
              exact inductionHypothesis added climbed

end Foundation.WeightedLadder
