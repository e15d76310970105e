import Mathlib.Data.List.Sort
import Mathlib.Order.Defs.Unbundled

/-!
# Sorting by a key

A stable sort by a key returns an ascending arrangement of the list.  With distinct keys there
is one such arrangement (`sortBy_eq_of_perm`); with ties, every one of them is what the sort
makes of some arrangement of the list (`sortBy_eq_self`).
-/

set_option autoImplicit false

namespace TradeMind.Library

universe u v

variable {α : Type u} {κ : Type v} [LinearOrder κ] {key : α → κ} {l l' : List α}

/-- No key is greater than a later one. -/
def Ascending (key : α → κ) (l : List α) : Prop := l.Pairwise fun a b => key a ≤ key b

/-- The stable sort by a key. -/
def sortBy (key : α → κ) (l : List α) : List α := l.insertionSort fun a b => key a ≤ key b

theorem sortBy_perm (key : α → κ) (l : List α) : (sortBy key l).Perm l :=
  List.perm_insertionSort _ l

theorem sortBy_ascending (key : α → κ) (l : List α) : Ascending key (sortBy key l) := by
  have : IsTrans α fun a b => key a ≤ key b := ⟨fun _ _ _ => le_trans⟩
  have : Std.Total fun a b : α => key a ≤ key b := ⟨fun a b => le_total (key a) (key b)⟩
  exact List.pairwise_insertionSort _ l

theorem sortBy_eq_self (h : Ascending key l) : sortBy key l = l :=
  List.Pairwise.insertionSort_eq h

/-- With distinct keys, a sort is strictly ascending. -/
theorem sortBy_strict (hnodup : (l.map key).Nodup) :
    (sortBy key l).Pairwise fun a b => key a < key b := by
  have hkeys : ((sortBy key l).map key).Nodup :=
    ((sortBy_perm key l).map key).nodup_iff.mpr hnodup
  have hne : (sortBy key l).Pairwise fun a b => key a ≠ key b := List.pairwise_map.mp hkeys
  exact hne.imp₂ (fun _ _ h hle => lt_of_le_of_ne hle h) (sortBy_ascending key l)

/-- Strictly ascending lists with the same elements are equal. -/
theorem eq_of_mem_iff_of_strict (h : l.Pairwise fun a b => key a < key b)
    (h' : l'.Pairwise fun a b => key a < key b) (hmem : ∀ a, a ∈ l ↔ a ∈ l') : l = l' := by
  have hanti : Std.Antisymm fun a b : α => key a < key b :=
    ⟨fun _ _ hab hba => absurd hba hab.not_gt⟩
  have hirrefl : Std.Irrefl fun a b : α => key a < key b := ⟨fun a => lt_irrefl (key a)⟩
  exact h.eq_of_mem_iff h' hmem

/-- **With distinct keys, there is one ascending arrangement.** -/
theorem eq_of_ascending (hnodup : (l.map key).Nodup) (hperm : l.Perm l')
    (h : Ascending key l) (h' : Ascending key l') : l = l' := by
  refine List.Perm.eq_of_pairwise (fun a b ha hb hab hba => ?_) h h' hperm
  exact List.inj_on_of_nodup_map hnodup ha (hperm.mem_iff.mpr hb) (le_antisymm hab hba)

/-- With distinct keys, the sort is that arrangement. -/
theorem sortBy_eq_of_perm (hnodup : (l.map key).Nodup) (hperm : l'.Perm l)
    (h : Ascending key l') : sortBy key l = l' := by
  have hkeys : ((sortBy key l).map key).Nodup :=
    ((sortBy_perm key l).map key).nodup_iff.mpr hnodup
  exact eq_of_ascending hkeys ((sortBy_perm key l).trans hperm.symm) (sortBy_ascending key l) h

omit [LinearOrder κ] in
/-- A list in which nothing `p` is true of comes after something it is not is cut by `p`. -/
theorem eq_filter_append {p : α → Bool} (h : l.Pairwise fun a b => p b = true → p a = true) :
    l = l.filter p ++ l.filter fun a => !p a := by
  induction l with
  | nil => rfl
  | cons a l ih =>
    obtain ⟨hfirst, hrest⟩ := List.pairwise_cons.mp h
    cases ha : p a with
    | true =>
      rw [List.filter_cons_of_pos ha, List.filter_cons_of_neg (by simp [ha]), List.cons_append,
        ← ih hrest]
    | false =>
      have hnone : ∀ b ∈ l, p b = false := fun b hb =>
        Bool.eq_false_iff.mpr fun htrue => Bool.false_ne_true (ha.symm.trans (hfirst b hb htrue))
      have hkept : l.filter (fun a => !p a) = l :=
        List.filter_eq_self.mpr fun b hb => by rw [hnone b hb]; rfl
      have hdropped : l.filter p = [] :=
        List.filter_eq_nil_iff.mpr fun b hb => by rw [hnone b hb]; exact Bool.false_ne_true
      rw [List.filter_cons_of_neg (by simp [ha]), List.filter_cons_of_pos (by simp [ha]), hkept,
        hdropped, List.nil_append]

/-! ## The elements with one key -/

/-- **An ascending list has the lower keys first, then those with the key, then the higher.** -/
theorem ascending_split (h : Ascending key l) (k : κ) :
    l = (l.filter fun a => key a < k) ++ ((l.filter fun a => key a = k) ++
      l.filter fun a => k < key a) := by
  induction l with
  | nil => rfl
  | cons a l ih =>
    obtain ⟨hfirst, hrest⟩ := List.pairwise_cons.mp h
    rcases lt_trichotomy (key a) k with hlt | rfl | hgt
    · simpa [hlt, hlt.ne, hlt.not_gt] using ih hrest
    · have hbelow : (l.filter fun b => key b < key a) = [] :=
        List.filter_eq_nil_iff.mpr fun b hb => by simpa using hfirst b hb
      have hsplit := ih hrest
      rw [hbelow] at hsplit
      simpa [hbelow] using hsplit
    · have hbelow : (l.filter fun b => key b < k) = [] :=
        List.filter_eq_nil_iff.mpr fun b hb => by simpa using hgt.le.trans (hfirst b hb)
      have htied : (l.filter fun b => key b = k) = [] :=
        List.filter_eq_nil_iff.mpr fun b hb => by simpa using (hgt.trans_le (hfirst b hb)).ne'
      have hsplit := ih hrest
      rw [hbelow, htied] at hsplit
      simpa [hbelow, htied, hgt, hgt.ne', hgt.not_gt] using hsplit

/-- The elements with one key may be arranged otherwise. -/
theorem ascending_rearranged (h : Ascending key l) {k : κ} {tied : List α}
    (htied : tied.Perm (l.filter fun a => key a = k)) :
    Ascending key ((l.filter fun a => key a < k) ++ (tied ++ l.filter fun a => k < key a)) ∧
      ((l.filter fun a => key a < k) ++ (tied ++ l.filter fun a => k < key a)).Perm l := by
  have hkey : ∀ a ∈ tied, key a = k := fun a ha => by
    simpa using (List.mem_filter.mp (htied.mem_iff.mp ha)).2
  constructor
  · refine List.pairwise_append.mpr ⟨h.filter _, List.pairwise_append.mpr
      ⟨?_, h.filter _, fun a ha b hb => ?_⟩, fun a ha b hb => ?_⟩
    · exact List.pairwise_of_forall_mem_list fun a ha b hb => (hkey a ha).trans_le (hkey b hb).ge
    · have hb : k < key b := by simpa using (List.mem_filter.mp hb).2
      exact (hkey a ha).trans_le hb.le
    · have ha : key a < k := by simpa using (List.mem_filter.mp ha).2
      rcases List.mem_append.mp hb with hb | hb
      · exact ha.le.trans (hkey b hb).ge
      · have hb : k < key b := by simpa using (List.mem_filter.mp hb).2
        exact (ha.trans hb).le
  · have hperm := (htied.append_right (l.filter fun a => k < key a)).append_left
      (l.filter fun a => key a < k)
    rwa [← ascending_split h k] at hperm

end TradeMind.Library
