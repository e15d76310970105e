import Mathlib.Tactic.Common

/-!
# Runs of a loop without a bound of its own

The body of a `while True` takes the variables at the head of the loop to those of the next
iteration, or leaves the loop with a result.  `LoopRuns body s n b` says that the loop entered
with `s` goes through its body `n` times and leaves it with `b`.  A loop has at most one run
(`LoopRuns.unique`), it has one where a measure falls (`loopRuns_of_measure`), and what the body
keeps at the head holds where the loop is left (`LoopRuns.exit_inv`).
-/

set_option autoImplicit false

namespace TradeMind.Library

universe u v

variable {σ : Type u} {β : Type v}

/-- The loop entered with `s` runs its body `n` times, the last time leaving with `b`. -/
inductive LoopRuns (body : σ → σ ⊕ β) : σ → ℕ → β → Prop
  | exit {s : σ} {b : β} (h : body s = .inr b) : LoopRuns body s 1 b
  | again {s next : σ} {n : ℕ} {b : β} (h : body s = .inl next) (rest : LoopRuns body next n b) :
      LoopRuns body s (n + 1) b

variable {body : σ → σ ⊕ β} {s : σ} {n m : ℕ} {b c : β}

/-- The body is a function, so the loop has one run. -/
theorem LoopRuns.unique (h : LoopRuns body s n b) (h' : LoopRuns body s m c) :
    n = m ∧ b = c := by
  induction h generalizing m with
  | exit hbody =>
    cases h' with
    | exit hbody' =>
      rw [hbody] at hbody'
      exact ⟨rfl, Sum.inr.inj hbody'⟩
    | again hbody' _ =>
      rw [hbody] at hbody'
      cases hbody'
  | again hbody _ ih =>
    cases h' with
    | exit hbody' =>
      rw [hbody] at hbody'
      cases hbody'
    | again hbody' rest' =>
      rw [hbody] at hbody'
      cases Sum.inl.inj hbody'
      obtain ⟨hcount, hresult⟩ := ih rest'
      exact ⟨by omega, hresult⟩

/-- **The termination rule.**  Where every iteration that goes on lowers a measure, the loop is
left after at most one iteration more than the measure. -/
theorem loopRuns_of_measure (measure : σ → ℕ)
    (hfall : ∀ s next, body s = .inl next → measure next < measure s) (s : σ) :
    ∃ n ≤ measure s + 1, ∃ b, LoopRuns body s n b := by
  induction hm : measure s using Nat.strongRecOn generalizing s with
  | _ bound ih =>
    cases hbody : body s with
    | inr b => exact ⟨1, by omega, b, .exit hbody⟩
    | inl next =>
      have hlt := hfall s next hbody
      obtain ⟨n, hn, b, hrun⟩ := ih (measure next) (hm ▸ hlt) next rfl
      exact ⟨n + 1, by omega, b, .again hbody hrun⟩

/-- **The invariant rule.**  What holds at the head before the first iteration and after every
one that goes on holds at the head of the iteration that leaves the loop. -/
theorem LoopRuns.exit_inv {P : σ → Prop} (hrun : LoopRuns body s n b) (hs : P s)
    (hstep : ∀ s next, P s → body s = .inl next → P next) :
    ∃ last, P last ∧ body last = .inr b := by
  induction hrun with
  | exit hbody => exact ⟨_, hs, hbody⟩
  | again hbody _ ih => exact ih (hstep _ _ hs hbody)

end TradeMind.Library
