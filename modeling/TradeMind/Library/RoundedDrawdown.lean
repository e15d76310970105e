import TradeMind.Library.DecimalRounding
import TradeMind.Library.TieOrder

/-!
# Declines to a number of significant digits

A loop that rounds every decline of a running total from its peak finds the rounded declines,
where the values fit the digits: then the totals and their distances from the peak are exact, and
only the quotients are rounded (`foldl_worstRounded`, `foldl_depthsRounded`).
-/

set_option autoImplicit false

namespace TradeMind.Library

universe u

/-- One value: the running peak and the greatest rounded decline. -/
def worstRounded (digits : ℕ) (acc : ℚ × ℚ) (x : ℚ) : ℚ × ℚ :=
  let peak := max acc.1 x
  (peak, if 0 < peak then
    max acc.2 (roundDigits digits (roundDigits digits (peak - x) / peak)) else acc.2)

/-- One value: the running peak and the rounded declines of the values below it. -/
def depthsRounded (digits : ℕ) (acc : ℚ × List ℚ) (x : ℚ) : ℚ × List ℚ :=
  let peak := max acc.1 x
  (peak, if 0 < peak ∧ x < peak then
    acc.2 ++ [roundDigits digits (roundDigits digits (peak - x) / peak)] else acc.2)

/-- Every distance of a total from its peak is exact. -/
def ExactFalls (digits : ℕ) (s : ℚ × ℚ) (l : List ℚ) : Prop :=
  ∀ before, before <+: l → roundDigits digits
    ((before.foldl moved s).2 - (before.foldl moved s).1) =
      (before.foldl moved s).2 - (before.foldl moved s).1

variable {digits : ℕ} {unit : ℤ} {s : ℚ × ℚ}

/-- The falls after the first value are exact too. -/
theorem ExactFalls.next {x : ℚ} {l : List ℚ} (h : ExactFalls digits s (x :: l)) :
    ExactFalls digits (moved s x) l :=
  fun before hbefore => h (x :: before) (List.cons_prefix_cons.mpr ⟨rfl, hbefore⟩)

/-- The first fall is exact. -/
theorem ExactFalls.head {x : ℚ} {l : List ℚ} (h : ExactFalls digits s (x :: l)) :
    roundDigits digits (roundDigits digits ((moved s x).2 - (moved s x).1) / (moved s x).2) =
      roundDigits digits (decline (moved s x)) := by
  have hfall : roundDigits digits ((moved s x).2 - (moved s x).1) =
      (moved s x).2 - (moved s x).1 :=
    h [x] (List.cons_prefix_cons.mpr ⟨rfl, List.nil_prefix⟩)
  rw [hfall, decline]

/-- The distance of a total from its peak is what the values since the peak have lost. -/
theorem fall_eq_suffix (start : ℚ) (l : List ℚ) :
    ∃ since, since <:+ l ∧
      (l.foldl moved (start, start)).2 - (l.foldl moved (start, start)).1 = -since.sum := by
  induction l using List.reverseRecOn with
  | nil => exact ⟨[], List.nil_suffix, by simp⟩
  | append_singleton l x ih =>
    obtain ⟨since, ⟨front, hfront⟩, hfall⟩ := ih
    rw [List.foldl_append, List.foldl_cons, List.foldl_nil]
    generalize l.foldl moved (start, start) = state at hfall
    rcases le_total state.2 (state.1 + x) with hle | hle
    · refine ⟨[], List.nil_suffix, ?_⟩
      simp [moved, max_eq_right hle]
    · refine ⟨since ++ [x], ⟨front, by rw [← hfront, List.append_assoc]⟩, ?_⟩
      rw [moved, max_eq_left hle, List.sum_append, List.sum_singleton]
      linarith

/-- **Values that fit have exact falls.** -/
theorem FitDigits.exactFalls {start : ℚ} {l : List ℚ} (h : FitDigits digits unit (start :: l)) :
    ExactFalls digits (start, start) l := by
  intro before hbefore
  obtain ⟨since, hsince, hfall⟩ := fall_eq_suffix start before
  have hsub : since.Sublist (start :: l) :=
    (hsince.sublist.trans hbefore.sublist).trans (List.sublist_cons_self start l)
  rw [hfall, (h.subperm hsub.subperm).round_neg_sum]

/-- **The loop for the greatest decline** finds the greatest rounded one. -/
theorem foldl_worstRounded {ι : Type u} (f : ι → ℚ) (hpeak : 0 < s.2) (worst : ℚ) (l : List ι)
    (hfalls : ExactFalls digits s (l.map f)) :
    ((l.scanl (fun acc a => acc + f a) s.1).tail.foldl (worstRounded digits) (s.2, worst)).2 =
      ((declines s (l.map f)).map (roundDigits digits)).foldl max worst := by
  induction l generalizing s worst with
  | nil => rfl
  | cons a l ih =>
    have hnext : 0 < (moved s (f a)).2 := hpeak.trans_le (le_max_left _ _)
    rw [List.map_cons] at hfalls
    rw [scanl_tail_cons, List.foldl_cons, List.map_cons, declines, List.map_cons, List.foldl_cons,
      ← ih hnext _ hfalls.next, ← hfalls.head]
    have hstep : worstRounded digits (s.2, worst) (s.1 + f a) = ((moved s (f a)).2, max worst
        (roundDigits digits (roundDigits digits ((moved s (f a)).2 - (moved s (f a)).1) /
          (moved s (f a)).2))) := by
      rw [worstRounded]
      exact congrArg _ (if_pos hnext)
    rw [hstep]
    rfl

/-- **The loop for the depths** finds the positive declines, rounded. -/
theorem foldl_depthsRounded {ι : Type u} (f : ι → ℚ) (hpeak : 0 < s.2) (depths : List ℚ)
    (l : List ι) (hfalls : ExactFalls digits s (l.map f)) :
    ((l.scanl (fun acc a => acc + f a) s.1).tail.foldl (depthsRounded digits)
        (s.2, depths)).2 =
      depths ++ ((declines s (l.map f)).filter fun d => 0 < d).map (roundDigits digits) := by
  induction l generalizing s depths with
  | nil => exact (List.append_nil depths).symm
  | cons a l ih =>
    have hnext : 0 < (moved s (f a)).2 := hpeak.trans_le (le_max_left _ _)
    rw [List.map_cons] at hfalls
    rw [scanl_tail_cons, List.foldl_cons, List.map_cons, declines]
    by_cases hbelow : (moved s (f a)).1 < (moved s (f a)).2
    · have hstep : depthsRounded digits (s.2, depths) (s.1 + f a) = ((moved s (f a)).2,
          depths ++ [roundDigits digits (decline (moved s (f a)))]) := by
        rw [depthsRounded, ← hfalls.head]
        exact congrArg _ (if_pos ⟨hnext, hbelow⟩)
      rw [hstep, List.filter_cons_of_pos (by simpa using (decline_pos_iff hnext).mpr hbelow),
        List.map_cons]
      exact (ih hnext _ hfalls.next).trans (List.append_cons _ _ _).symm
    · have hstep : depthsRounded digits (s.2, depths) (s.1 + f a) =
          ((moved s (f a)).2, depths) := by
        rw [depthsRounded]
        exact congrArg _ (if_neg fun h => hbelow h.2)
      rw [hstep, List.filter_cons_of_neg (by simpa using (decline_pos_iff hnext).not.mpr hbelow)]
      exact ih hnext _ hfalls.next

end TradeMind.Library
