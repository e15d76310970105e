import Mathlib.Algebra.Group.Nat.Even

/-!
# Alternating sequences

A list alternates between two values, the first of them first, exactly when each element is the
one due where it stands (`alternates_concat`); the value due next depends on the parity of the
length alone.
-/

set_option autoImplicit false

namespace TradeMind.Library

universe u

variable {α : Type u}

/-- `a, b, a, b, …` as far as the list goes. -/
def Alternates (a b : α) : List α → Prop
  | [] => True
  | x :: rest => x = a ∧ Alternates b a rest

/-- The value that an alternating list, of `a` first and then `b`, continues with. -/
def due (a b : α) (l : List α) : α := if Even l.length then a else b

theorem due_cons (a b x : α) (l : List α) : due a b (x :: l) = due b a l := by
  by_cases h : Even l.length
  · simp [due, Nat.even_add_one, h]
  · simp [due, Nat.even_add_one, h]

/-- **One more element** keeps the alternation exactly when it is the one due. -/
theorem alternates_concat {a b x : α} {l : List α} :
    Alternates a b (l ++ [x]) ↔ Alternates a b l ∧ x = due a b l := by
  induction l generalizing a b with
  | nil => simp [Alternates, due]
  | cons y rest ih =>
    rw [List.cons_append, Alternates, Alternates, ih, due_cons, and_assoc]

end TradeMind.Library
