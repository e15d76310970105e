import Mathlib.Algebra.Order.Group.Unbundled.Basic
import Mathlib.Algebra.Order.Monoid.Defs
import Mathlib.Data.List.Chain
import Mathlib.Data.List.Perm.Subperm
import Mathlib.Order.Lattice.Nat

/-!
# Covering points by intervals of one width

How few closed intervals of a width cover a list of points.  Points more than the width apart
need an interval each (`length_le_of_covers`); the greedy cover of ascending points, which
starts an interval at the first point past the last one, starts them so, and is therefore
least (`isLeast_greedyStarts`).
-/

set_option autoImplicit false

namespace TradeMind.Library

universe u

variable {α : Type u} [AddCommGroup α] [LinearOrder α] [IsOrderedAddMonoid α]

/-- Every point lies in an interval of the given width that begins at one of `starts`. -/
def Covers (width : α) (starts points : List α) : Prop :=
  ∀ p ∈ points, ∃ s ∈ starts, s ≤ p ∧ p - s ≤ width

/-- The points can be covered by `n` intervals of the given width. -/
def CoverableBy (width : α) (points : List α) (n : ℕ) : Prop :=
  ∃ starts : List α, starts.length = n ∧ Covers width starts points

/-- The interval starts after `start`: each is the first point past the interval before it. -/
def greedyFrom (width start : α) : List α → List α
  | [] => []
  | p :: rest =>
    if p - start ≤ width then greedyFrom width start rest else p :: greedyFrom width p rest

/-- The greedy cover of ascending points. -/
def greedyStarts (width : α) : List α → List α
  | [] => []
  | p :: rest => p :: greedyFrom width p rest

variable {width : α} {points : List α}

omit [IsOrderedAddMonoid α] in
/-- A cover of some points covers every part of them. -/
theorem CoverableBy.subset {part : List α} {n : ℕ} (h : CoverableBy width points n)
    (hpart : part ⊆ points) : CoverableBy width part n := by
  obtain ⟨starts, hlength, hcovers⟩ := h
  exact ⟨starts, hlength, fun p hp => hcovers p (hpart hp)⟩

omit [IsOrderedAddMonoid α] in
/-- Wider intervals cover what narrower ones do. -/
theorem CoverableBy.widen {width' : α} {n : ℕ} (h : CoverableBy width points n)
    (hwidth : width ≤ width') : CoverableBy width' points n := by
  obtain ⟨starts, hlength, hcovers⟩ := h
  refine ⟨starts, hlength, fun p hp => ?_⟩
  obtain ⟨s, hs, hle, hin⟩ := hcovers p hp
  exact ⟨s, hs, hle, hin.trans hwidth⟩

/-- **Points more than the width apart need an interval each.** -/
theorem length_le_of_covers {starts : List α}
    (happart : points.Pairwise fun p q => width < q - p) (hcovers : Covers width starts points)
    : points.length ≤ starts.length := by
  choose! f hmem hle hin using hcovers
  -- no interval holds two of the points
  have hdistinct : (points.map f).Nodup := by
    rw [List.Nodup, List.pairwise_map]
    refine happart.imp_of_mem fun {p q} hp hq hgap heq => ?_
    have hreach : q - p ≤ q - f p := sub_le_sub_left (hle p hp) q
    rw [heq] at hreach
    exact absurd (hgap.trans_le (hreach.trans (hin q hq))) (lt_irrefl width)
  have hsubset : points.map f ⊆ starts := by
    intro s hs
    obtain ⟨p, hp, rfl⟩ := List.mem_map.mp hs
    exact hmem p hp
  simpa using (List.subperm_of_subset hdistinct hsubset).length_le

/-! ## The greedy cover -/

omit [IsOrderedAddMonoid α] in
/-- The greedy starts are points. -/
theorem greedyFrom_subset (start : α) : greedyFrom width start points ⊆ points := by
  induction points generalizing start with
  | nil => exact List.Subset.refl _
  | cons p rest ih =>
    unfold greedyFrom
    split
    · exact List.subset_cons_of_subset p (ih start)
    · exact List.cons_subset_cons p (ih p)

/-- The greedy starts of ascending points lie past the interval before them. -/
theorem greedyFrom_apart {start : α} (hsorted : (start :: points).Pairwise (· ≤ ·)) :
    (start :: greedyFrom width start points).Pairwise fun p q => width < q - p := by
  induction points generalizing start with
  | nil => exact List.pairwise_singleton _ _
  | cons p rest ih =>
    obtain ⟨hstart, hrest⟩ := List.pairwise_cons.mp hsorted
    unfold greedyFrom
    split
    · exact ih (hsorted.sublist (List.sublist_append_right [p] rest |>.cons_cons start))
    · rename_i hpast
      have happart := ih hrest
      refine List.pairwise_cons.mpr ⟨fun q hq => ?_, happart⟩
      -- every later start is at or after the first one
      have hle : p ≤ q := by
        rcases List.mem_cons.mp hq with rfl | hlater
        · exact le_rfl
        · exact (List.pairwise_cons.mp hrest).1 q (greedyFrom_subset p hlater)
      exact (not_le.mp hpast).trans_le (sub_le_sub_right hle start)

omit [IsOrderedAddMonoid α] in
/-- The greedy starts cover the points. -/
theorem greedyFrom_covers {start : α} (hwidth : 0 ≤ width)
    (hsorted : (start :: points).Pairwise (· ≤ ·)) :
    Covers width (start :: greedyFrom width start points) (start :: points) := by
  induction points generalizing start with
  | nil =>
    intro p hp
    exact ⟨p, hp, le_rfl, by rwa [sub_self]⟩
  | cons p rest ih =>
    obtain ⟨hstart, hrest⟩ := List.pairwise_cons.mp hsorted
    have hself : ∀ s : α, s - s ≤ width := fun s => by rwa [sub_self]
    unfold greedyFrom
    split
    · rename_i hin
      have hcovers := ih (hsorted.sublist (List.sublist_append_right [p] rest |>.cons_cons start))
      intro q hq
      rcases List.mem_cons.mp hq with rfl | hq
      · exact ⟨q, List.mem_cons_self, le_rfl, hself q⟩
      · rcases List.mem_cons.mp hq with rfl | hq
        · exact ⟨start, List.mem_cons_self, hstart q List.mem_cons_self, hin⟩
        · exact hcovers q (List.mem_cons_of_mem start hq)
    · intro q hq
      rcases List.mem_cons.mp hq with rfl | hq
      · exact ⟨q, List.mem_cons_self, le_rfl, hself q⟩
      · obtain ⟨s, hs, hle, hin⟩ := ih hrest q hq
        exact ⟨s, List.mem_cons_of_mem start hs, hle, hin⟩

omit [IsOrderedAddMonoid α] in
/-- Points that each lie past the width from the one before start an interval each. -/
theorem greedyFrom_eq_self {start : α}
    (happart : (start :: points).IsChain fun p q => width < q - p) :
    greedyFrom width start points = points := by
  induction points generalizing start with
  | nil => rfl
  | cons p rest ih =>
    obtain ⟨hgap, hrest⟩ := List.isChain_cons_cons.mp happart
    rw [greedyFrom, if_neg (not_le.mpr hgap), ih hrest]

omit [IsOrderedAddMonoid α] in
/-- The greedy cover of points that each lie past the width from the one before. -/
theorem greedyStarts_eq_self (happart : points.IsChain fun p q => width < q - p) :
    greedyStarts width points = points := by
  cases points with
  | nil => rfl
  | cons p rest => rw [greedyStarts, greedyFrom_eq_self happart]

/-- **The greedy cover is least** for ascending points and a nonnegative width. -/
theorem isLeast_greedyStarts (hwidth : 0 ≤ width) (hsorted : points.Pairwise (· ≤ ·)) :
    IsLeast {n | CoverableBy width points n} (greedyStarts width points).length := by
  cases points with
  | nil => exact ⟨⟨[], rfl, fun p hp => absurd hp List.not_mem_nil⟩, fun n _ => Nat.zero_le n⟩
  | cons p rest =>
    refine ⟨⟨_, rfl, greedyFrom_covers hwidth hsorted⟩, ?_⟩
    rintro n ⟨starts, rfl, hcovers⟩
    refine length_le_of_covers (greedyFrom_apart hsorted) fun q hq => hcovers q ?_
    exact List.cons_subset_cons p (greedyFrom_subset p) hq

theorem greedyStarts_length_antitone {width' : α} (hwidth : 0 ≤ width) (hle : width ≤ width')
    (hsorted : points.Pairwise (· ≤ ·)) :
    (greedyStarts width' points).length ≤ (greedyStarts width points).length :=
  (isLeast_greedyStarts (hwidth.trans hle) hsorted).2
    ((isLeast_greedyStarts hwidth hsorted).1.widen hle)

end TradeMind.Library
