import Mathlib.Algebra.Order.Ring.Nat
import Mathlib.Logic.Function.Basic

/-!
# A shared value updated by compare-and-swap

Any number of parties copy a versioned value, work on their copies and write back, which
succeeds only while the version is the one copied.  A write that succeeds is then an update of
the value it replaces (`value_of_write`), so what every update keeps, every interleaving keeps.
-/

set_option autoImplicit false

namespace TradeMind.Library

universe u v

/-- A value with its version, and the copies the parties took, each with the version it is of. -/
structure OptimisticStore (ι : Type u) (τ : Type v) where
  version : ℕ := 0
  value : τ
  copies : ι → Option (ℕ × τ) := fun _ => none

namespace OptimisticStore

variable {ι : Type u} {τ : Type v} [DecidableEq ι]

/-- A party takes a copy of the present value, together with its version. -/
def read (s : OptimisticStore ι τ) (i : ι) : OptimisticStore ι τ :=
  { s with copies := Function.update s.copies i (some (s.version, s.value)) }

/-- A new value replaces the present one and starts a new version. -/
def replace (s : OptimisticStore ι τ) (value : τ) : OptimisticStore ι τ :=
  { s with version := s.version + 1, value }

/-- A party writes back what it made of its copy, where that is of the present version. -/
def write (s : OptimisticStore ι τ) (i : ι) (made : τ) : Option (OptimisticStore ι τ) :=
  match s.copies i with
  | some (base, _) => if base = s.version then some (s.replace made) else none
  | none => none

/-- No copy is of a version to come, and one of the present version is the value. -/
def Sound (s : OptimisticStore ι τ) : Prop :=
  ∀ i base copy, s.copies i = some (base, copy) →
    base ≤ s.version ∧ (base = s.version → copy = s.value)

variable {s : OptimisticStore ι τ}

omit [DecidableEq ι] in
/-- Without copies it is sound. -/
theorem sound_of_none (h : ∀ i, s.copies i = none) : s.Sound := by
  intro i base copy hi
  rw [h] at hi
  cases hi

/-- After a reading a copy is the present value, or an old one. -/
theorem copies_of_read {i j : ι} {base : ℕ} {copy : τ}
    (h : (s.read i).copies j = some (base, copy)) :
    j = i ∧ base = s.version ∧ copy = s.value ∨ s.copies j = some (base, copy) := by
  by_cases heq : j = i
  · subst heq
    simp only [OptimisticStore.read, Function.update_self] at h
    cases h
    exact .inl ⟨rfl, rfl, rfl⟩
  · simp only [OptimisticStore.read, Function.update_of_ne heq] at h
    exact .inr h

/-- A copy is sound when it is taken. -/
theorem Sound.read (h : s.Sound) (i : ι) : (s.read i).Sound := by
  intro j base copy hj
  rcases copies_of_read hj with ⟨-, rfl, rfl⟩ | hj
  · exact ⟨le_rfl, fun _ => rfl⟩
  · exact h j base copy hj

omit [DecidableEq ι] in
/-- A value that is replaced leaves only copies of older versions. -/
theorem Sound.replace (h : s.Sound) (value : τ) : (s.replace value).Sound := by
  intro i base copy hi
  have hle := (h i base copy hi).1
  exact ⟨Nat.le_succ_of_le hle, fun heq => absurd heq (Nat.ne_of_lt (Nat.lt_succ_of_le hle))⟩

omit [DecidableEq ι] in
/-- **A write that succeeds updates the value itself**: the copy it was made of is the value it
replaces. -/
theorem value_of_write (h : s.Sound) {i : ι} {base : ℕ} {copy made : τ}
    {s' : OptimisticStore ι τ} (hcopy : s.copies i = some (base, copy))
    (hwrite : s.write i made = some s') :
    base = s.version ∧ copy = s.value ∧ s' = s.replace made := by
  rw [write, hcopy] at hwrite
  dsimp only at hwrite
  split at hwrite
  · next hbase => exact ⟨hbase, (h i base copy hcopy).2 hbase, (Option.some.inj hwrite).symm⟩
  · cases hwrite

end OptimisticStore

end TradeMind.Library
