import Mathlib.Algebra.Order.Floor.Ring
import Mathlib.Tactic.Linarith

/-!
# Rounding half to even

`halfEven` rounds to the nearest integer and a tie to the even one.  Everything is read off
that description (`halfEven_nearest`): it is monotone, it fixes the integers, and its sign is
that of what lies beyond a half.
-/

set_option autoImplicit false

namespace TradeMind.Library

universe u

variable {α : Type u} [Field α] [LinearOrder α] [FloorRing α]

/-- To the nearest integer, a tie to the even one. -/
def halfEven (x : α) : ℤ :=
  if x - ⌊x⌋ < 1 / 2 then ⌊x⌋
  else if 1 / 2 < x - ⌊x⌋ then ⌊x⌋ + 1
  else if ⌊x⌋ % 2 = 0 then ⌊x⌋
  else ⌊x⌋ + 1

/-- `k` is nearest to `x`, and even where another integer is as near. -/
structure NearestEven (x : α) (k : ℤ) : Prop where
  below : (k : α) - 1 / 2 ≤ x
  above : x ≤ k + 1 / 2
  tie : x = k - 1 / 2 ∨ x = k + 1 / 2 → Even k

variable [IsStrictOrderedRing α] {x y : α} {j k : ℤ}

/-- **What half-even rounding returns.** -/
theorem halfEven_nearest (x : α) : NearestEven x (halfEven x) := by
  have hlow := Int.floor_le x
  have hhigh := Int.lt_floor_add_one x
  unfold halfEven
  split_ifs with hless hmore heven
  · refine ⟨by linarith, by linarith, ?_⟩
    rintro (h | h) <;> exfalso <;> linarith
  · refine ⟨by push_cast; linarith, by push_cast; linarith, ?_⟩
    push_cast
    rintro (h | h) <;> exfalso <;> linarith
  · exact ⟨by linarith, by linarith, fun _ => Int.even_iff.mpr heven⟩
  · refine ⟨by push_cast; linarith, by push_cast; linarith, fun _ => ?_⟩
    rw [Int.even_add_one, Int.even_iff]
    exact heven

omit [FloorRing α] in
/-- **Nearest integers are in the order of what they are nearest to.** -/
theorem NearestEven.mono (hx : NearestEven x j) (hy : NearestEven y k) (h : x ≤ y) : j ≤ k := by
  by_contra hlt
  have hnext : k + 1 ≤ j := not_le.mp hlt
  have hcast : (k : α) + 1 ≤ j := by exact_mod_cast hnext
  -- there is room for neither, so both are ties and the integers are neighbours
  have hjlow := hx.below
  have hkhigh := hy.above
  have hjtie : Even j := hx.tie (.inl (by linarith))
  have hktie : Even k := hy.tie (.inr (by linarith))
  have heq : j = k + 1 := by
    have hle : (j : α) ≤ k + 1 := by linarith
    exact le_antisymm (by exact_mod_cast hle) hnext
  rw [heq, Int.even_add_one] at hjtie
  exact hjtie hktie

omit [FloorRing α] in
/-- There is one such integer. -/
theorem NearestEven.unique (hj : NearestEven x j) (hk : NearestEven x k) : j = k :=
  le_antisymm (hj.mono hk le_rfl) (hk.mono hj le_rfl)

theorem halfEven_mono (h : x ≤ y) : halfEven x ≤ halfEven y :=
  (halfEven_nearest x).mono (halfEven_nearest y) h

theorem halfEven_intCast (n : ℤ) : halfEven (n : α) = n := by
  refine (halfEven_nearest (n : α)).unique ⟨by linarith, by linarith, ?_⟩
  rintro (h | h) <;> exfalso <;> linarith

theorem halfEven_bounds (hlow : (j : α) ≤ x) (hhigh : x ≤ k) :
    j ≤ halfEven x ∧ halfEven x ≤ k := by
  have hj := halfEven_mono hlow
  have hk := halfEven_mono hhigh
  rw [halfEven_intCast] at hj hk
  exact ⟨hj, hk⟩

/-- What is rounded up from zero lies beyond a half. -/
theorem halfEven_pos_iff : 0 < halfEven x ↔ 1 / 2 < x := by
  have hzero : NearestEven (1 / 2 : α) 0 :=
    ⟨by norm_num, by norm_num, fun _ => Even.zero⟩
  constructor
  · intro hpos
    by_contra hle
    exact absurd ((halfEven_nearest x).mono hzero (not_lt.mp hle)) (not_le.mpr hpos)
  · intro hlt
    by_contra hle
    have hcast : (halfEven x : α) ≤ 0 := by exact_mod_cast not_lt.mp hle
    have habove := (halfEven_nearest x).above
    linarith

/-- What is rounded down from zero lies beyond minus a half. -/
theorem halfEven_neg_iff : halfEven x < 0 ↔ x < -(1 / 2) := by
  have hzero : NearestEven (-(1 / 2) : α) 0 :=
    ⟨by norm_num, by norm_num, fun _ => Even.zero⟩
  constructor
  · intro hneg
    by_contra hle
    exact absurd (hzero.mono (halfEven_nearest x) (not_lt.mp hle)) (not_le.mpr hneg)
  · intro hlt
    by_contra hle
    have hcast : (0 : α) ≤ halfEven x := by exact_mod_cast not_lt.mp hle
    have hbelow := (halfEven_nearest x).below
    linarith

end TradeMind.Library
