import Mathlib.Tactic.Linarith
import TradeMind.Library.Drawdown
import TradeMind.Library.KeySort

/-!
# Declines of a running total under ties

A running total over an ascending list declines from its peak by amounts (`declines`) that the
order of elements with one key may change.  It does not exactly if, key by key, the values are
all equal or each of them alone lifts the total to the peak before that key (`tiesSafe_iff`).
-/

set_option autoImplicit false

namespace TradeMind.Library

universe u v

variable {α : Type u} [Field α] [LinearOrder α]

/-- A total and its peak after one more value. -/
def moved (s : α × α) (x : α) : α × α := (s.1 + x, max s.2 (s.1 + x))

/-- The decline of a total from its peak, as a fraction of it. -/
def decline (s : α × α) : α := (s.2 - s.1) / s.2

/-- The declines after each of some values. -/
def declines (s : α × α) : List α → List α
  | [] => []
  | x :: l => decline (moved s x) :: declines (moved s x) l

variable {s : α × α} {x y : α} {l l' : List α}

/-- The values of a later part follow those of an earlier one. -/
theorem declines_append (s : α × α) (l l' : List α) :
    declines s (l ++ l') = declines s l ++ declines (l.foldl moved s) l' := by
  induction l generalizing s with
  | nil => rfl
  | cons x l ih => exact congrArg _ (ih (moved s x))

/-! ## Totals below their peak -/

section Ordered

variable [IsStrictOrderedRing α]

/-- A total is below its peak exactly if its decline is positive. -/
theorem decline_pos_iff (hpeak : 0 < s.2) : 0 < decline s ↔ s.1 < s.2 := by
  rw [decline, div_pos_iff_of_pos_right hpeak, sub_pos]

/-! ## One group of ties -/

omit [IsStrictOrderedRing α] in
/-- A value that lifts the total to the peak is the new peak. -/
theorem moved_of_lifts (h : s.2 ≤ s.1 + x) : moved s x = (s.1 + x, s.1 + x) := by
  rw [moved, max_eq_right h]

omit [IsStrictOrderedRing α] in
/-- A value that lifts the total to the peak is no decline. -/
theorem declines_cons_of_lifts (h : s.2 ≤ s.1 + x) (l : List α) :
    declines s (x :: l) = 0 :: declines (s.1 + x, s.1 + x) l := by
  rw [declines, moved_of_lifts h, decline, sub_self, zero_div]

/-- Values that each lift the total to the peak decline alike in any order, and lead to the same
total and peak. -/
theorem declines_perm_of_lifts (hle : s.1 ≤ s.2) (hperm : l'.Perm l)
    (hlifts : ∀ x ∈ l, s.2 ≤ s.1 + x) :
    declines s l' = declines s l ∧ l'.foldl moved s = l.foldl moved s := by
  have hraises : ∀ {t : α × α} {x y : α}, t.1 ≤ t.2 → t.2 ≤ t.1 + y → t.1 + x ≤ t.1 + x + y :=
    fun hle hy => by linarith
  induction hperm generalizing s with
  | nil => exact ⟨rfl, rfl⟩
  | cons x _ ih =>
    have hx := hlifts x List.mem_cons_self
    rw [declines_cons_of_lifts hx, declines_cons_of_lifts hx, List.foldl_cons, List.foldl_cons,
      moved_of_lifts hx]
    obtain ⟨hdeclines, hstate⟩ := @ih (s.1 + x, s.1 + x) le_rfl fun y hy =>
      hraises hle (hlifts y (List.mem_cons_of_mem x hy))
    exact ⟨congrArg _ hdeclines, hstate⟩
  | swap x y l =>
    have hx := hlifts x List.mem_cons_self
    have hy := hlifts y (List.mem_cons_of_mem x List.mem_cons_self)
    have hxy : (s.1 + x, s.1 + x).2 ≤ (s.1 + x, s.1 + x).1 + y := hraises hle hy
    have hyx : (s.1 + y, s.1 + y).2 ≤ (s.1 + y, s.1 + y).1 + x := hraises hle hx
    have hsame : s.1 + y + x = s.1 + x + y := add_right_comm _ _ _
    rw [declines_cons_of_lifts hx, declines_cons_of_lifts hy, declines_cons_of_lifts hxy,
      declines_cons_of_lifts hyx, hsame]
    refine ⟨rfl, ?_⟩
    simp only [List.foldl_cons]
    rw [moved_of_lifts hx, moved_of_lifts hy, moved_of_lifts hxy, moved_of_lifts hyx, hsame]
  | trans hfirst hsecond ihFirst ihSecond =>
    obtain ⟨hdeclines, hstate⟩ := ihFirst hle fun x hx => hlifts x (hsecond.mem_iff.mp hx)
    obtain ⟨hdeclines', hstate'⟩ := ihSecond hle hlifts
    exact ⟨hdeclines.trans hdeclines', hstate.trans hstate'⟩

omit [Field α] [LinearOrder α] [IsStrictOrderedRing α] in
/-- Equal values have one order. -/
theorem eq_of_perm_of_forall_eq (hperm : l'.Perm l) (hequal : ∀ x ∈ l, ∀ y ∈ l, x = y) :
    l' = l := by
  have hany : ∀ values : List α, values.Pairwise fun _ _ => True :=
    fun values => List.pairwise_of_forall fun _ _ => trivial
  refine List.Perm.eq_of_pairwise (fun x y hx hy _ _ => ?_) (hany l') (hany l) hperm
  exact hequal x (hperm.mem_iff.mp hx) y hy

/-! ## All groups -/

section Ties

variable {ι : Type v} {κ : Type v} [LinearOrder κ] {key : ι → κ} {f : ι → α} {rows rows' : List ι}

/-- The total and its peak before a key. -/
def stateBefore (key : ι → κ) (f : ι → α) (s : α × α) (rows : List ι) (k : κ) : α × α :=
  ((rows.filter fun a => key a < k).map f).foldl moved s

/-- Key by key, the values are equal or each of them alone lifts the total to the peak. -/
def TiesSafe (key : ι → κ) (f : ι → α) (s : α × α) (rows : List ι) : Prop :=
  ∀ k, (∀ a ∈ rows, ∀ b ∈ rows, key a = k → key b = k → f a = f b) ∨
    ∀ a ∈ rows, key a = k →
      (stateBefore key f s rows k).2 ≤ (stateBefore key f s rows k).1 + f a

omit [IsStrictOrderedRing α] in
/-- The peak stays at or above the total. -/
theorem foldl_moved_le (hle : s.1 ≤ s.2) (l : List α) :
    (l.foldl moved s).1 ≤ (l.foldl moved s).2 := by
  induction l generalizing s with
  | nil => exact hle
  | cons x l ih => exact ih (le_max_right _ _)

omit [IsStrictOrderedRing α] in
/-- The peak never falls. -/
theorem peak_le_foldl_moved (s : α × α) (l : List α) : s.2 ≤ (l.foldl moved s).2 := by
  induction l generalizing s with
  | nil => exact le_rfl
  | cons x l ih => exact (le_max_left _ _).trans (ih (moved s x))

omit [IsStrictOrderedRing α] in
/-- Ties are safe below a key when they are. -/
theorem TiesSafe.below (h : TiesSafe key f s rows) (k : κ) :
    TiesSafe key f s (rows.filter fun a => key a < k) := by
  intro k'
  rcases lt_or_ge k' k with hlt | hge
  · have hstate : stateBefore key f s (rows.filter fun a => key a < k) k' =
        stateBefore key f s rows k' := by
      have hfilter : ((rows.filter fun a => key a < k).filter fun a => key a < k') =
          rows.filter fun a => key a < k' := by
        rw [List.filter_filter]
        refine List.filter_congr fun a _ => ?_
        rw [Bool.and_eq_left_iff_imp]
        simpa using fun ha : key a < k' => ha.trans hlt
      rw [stateBefore, hfilter, stateBefore]
    rw [hstate]
    exact (h k').imp
      (fun hequal a ha b hb => hequal a (List.mem_of_mem_filter ha) b (List.mem_of_mem_filter hb))
      fun hlifts a ha => hlifts a (List.mem_of_mem_filter ha)
  · refine .inl fun a ha _ _ hkey => absurd ?_ (hkey ▸ hge).not_gt
    simpa using (List.mem_filter.mp ha).2

/-- **A safe group of ties** declines alike in any order, and leads to the same state. -/
theorem TiesSafe.group (h : TiesSafe key f s rows) (hle : s.1 ≤ s.2) {k : κ} {tied : List ι}
    (htied : tied.Perm (rows.filter fun a => key a = k)) :
    declines (stateBefore key f s rows k) (tied.map f) =
        declines (stateBefore key f s rows k) ((rows.filter fun a => key a = k).map f) ∧
      (tied.map f).foldl moved (stateBefore key f s rows k) =
        ((rows.filter fun a => key a = k).map f).foldl moved (stateBefore key f s rows k) := by
  have hmem : ∀ x ∈ (rows.filter fun a => key a = k).map f, ∃ a ∈ rows, key a = k ∧ f a = x := by
    intro x hx
    obtain ⟨a, ha, rfl⟩ := List.mem_map.mp hx
    simp only [List.mem_filter, decide_eq_true_eq] at ha
    exact ⟨a, ha.1, ha.2, rfl⟩
  rcases h k with hequal | hlifts
  · rw [eq_of_perm_of_forall_eq (htied.map f) fun x hx y hy => ?_]
    · exact ⟨rfl, rfl⟩
    · obtain ⟨a, ha, hak, rfl⟩ := hmem x hx
      obtain ⟨b, hb, hbk, rfl⟩ := hmem y hy
      exact hequal a ha b hb hak hbk
  · refine declines_perm_of_lifts (foldl_moved_le hle _) (htied.map f) fun x hx => ?_
    obtain ⟨a, ha, hak, rfl⟩ := hmem x hx
    exact hlifts a ha hak

/-- An ascending list is what lies below its greatest key and the group with that key. -/
theorem ascending_split_last {a : ι} {front : List ι} (h : Ascending key rows)
    (hlast : rows = front ++ [a]) (hperm : rows'.Perm rows) (h' : Ascending key rows') :
    rows' = (rows'.filter fun b => key b < key a) ++ rows'.filter fun b => key b = key a := by
  have hnone : (rows'.filter fun b => key a < key b) = [] := by
    refine List.filter_eq_nil_iff.mpr fun b hb => ?_
    rw [hperm.mem_iff, hlast] at hb
    rw [hlast] at h
    rcases List.mem_append.mp hb with hb | hb
    · simpa using (List.pairwise_append.mp h).2.2 b hb a (List.mem_singleton_self a)
    · simpa using (congrArg key (List.mem_singleton.mp hb)).le
  have hsplit := ascending_split h' (key a)
  rwa [hnone, List.append_nil] at hsplit

/-- **Safe ties decline alike in any order.** -/
theorem declines_eq_of_tiesSafe (hle : s.1 ≤ s.2) (hrows : Ascending key rows)
    (hrows' : Ascending key rows') (hperm : rows'.Perm rows) (hsafe : TiesSafe key f s rows) :
    declines s (rows'.map f) = declines s (rows.map f) ∧
      (rows'.map f).foldl moved s = (rows.map f).foldl moved s := by
  induction hlength : rows.length using Nat.strong_induction_on generalizing rows rows' with
  | _ n ih =>
    rcases List.eq_nil_or_concat rows with rfl | ⟨front, a, hlast⟩
    · rw [List.perm_nil.mp hperm]
      exact ⟨rfl, rfl⟩
    · -- the rows below the greatest key, and then its group
      rw [List.concat_eq_append] at hlast
      have hsplit := ascending_split_last hrows hlast (List.Perm.refl rows) hrows
      have hsplit' := ascending_split_last hrows hlast hperm hrows'
      have hshorter : (rows.filter fun b => key b < key a).length < n := by
        rw [← hlength]
        refine List.length_filter_lt_length_iff_exists.mpr ⟨a, ?_, by simp⟩
        rw [hlast]
        exact List.mem_append_right _ (List.mem_singleton_self a)
      obtain ⟨hdeclines, hstate⟩ := ih _ hshorter (hrows.filter _) (hrows'.filter _)
        (hperm.filter _) (hsafe.below (key a)) rfl
      obtain ⟨hgroup, hafter⟩ := hsafe.group hle (hperm.filter fun b => key b = key a)
      rw [hsplit, hsplit', List.map_append, List.map_append, declines_append, declines_append,
        List.foldl_append, List.foldl_append, hdeclines, hstate]
      exact ⟨congrArg _ hgroup, hafter⟩

/-! ### The converse -/

/-- Of two values that decline alike after one state, either both lift the total to the peak or
they are equal. -/
theorem eq_of_decline_eq (hpeak : 0 < s.2) (hbelow : s.1 + x < s.2)
    (h : decline (moved s x) = decline (moved s y)) : x = y := by
  have hx : moved s x = (s.1 + x, s.2) := by rw [moved, max_eq_left hbelow.le]
  rcases lt_or_ge (s.1 + y) s.2 with hy | hy
  · have hy : moved s y = (s.1 + y, s.2) := by rw [moved, max_eq_left hy.le]
    rw [hx, hy, decline, decline, div_left_inj' hpeak.ne', sub_right_inj, add_right_inj] at h
    exact h
  · have hkept : 0 < (s.1 + x, s.2).2 := hpeak
    have hpos := (decline_pos_iff hkept).mpr hbelow
    rw [hx, moved_of_lifts hy] at h
    rw [h, decline, sub_self, zero_div] at hpos
    exact absurd hpos (lt_irrefl 0)

omit [IsStrictOrderedRing α] in
/-- Where the order of ties makes no difference, any element of a group may come first in it. -/
theorem declines_eq_first (hrows : Ascending key rows)
    (h : ∀ rows' : List ι, Ascending key rows' → rows'.Perm rows →
      declines s (rows'.map f) = declines s (rows.map f)) {a : ι} (ha : a ∈ rows) :
    ∃ later, declines s (rows.map f) =
      declines s ((rows.filter fun b => key b < key a).map f) ++
        decline (moved (stateBefore key f s rows (key a)) (f a)) :: later := by
  obtain ⟨before, after, hgroup⟩ := List.append_of_mem
    (List.mem_filter.mpr ⟨ha, decide_eq_true rfl⟩ : a ∈ rows.filter fun b => key b = key a)
  have htied : (a :: (before ++ after)).Perm (rows.filter fun b => key b = key a) := by
    rw [hgroup]
    exact List.perm_middle.symm
  obtain ⟨hascending, hperm⟩ := ascending_rearranged hrows htied
  rw [← h _ hascending hperm, List.map_append, declines_append]
  exact ⟨_, rfl⟩

/-- **Ties that are not safe decline otherwise in some order.** -/
theorem tiesSafe_of_declines_eq (hpeak : 0 < s.2) (hrows : Ascending key rows)
    (h : ∀ rows' : List ι, Ascending key rows' → rows'.Perm rows →
      declines s (rows'.map f) = declines s (rows.map f)) : TiesSafe key f s rows := by
  intro k
  by_contra hunsafe
  push Not at hunsafe
  obtain ⟨⟨a, ha, b, hb, hak, hbk, hne⟩, c, hc, hck, hbelow⟩ := hunsafe
  -- whichever of the two comes first instead of the one below the peak, it is equal to that one
  have hsame : ∀ d ∈ rows, key d = k → f c = f d := by
    intro d hd hdk
    obtain ⟨later, hlater⟩ := declines_eq_first hrows h hc
    obtain ⟨later', hlater'⟩ := declines_eq_first hrows h hd
    rw [hlater, hck, hdk] at hlater'
    have hfirst := (List.cons.inj (List.append_cancel_left hlater')).1
    exact eq_of_decline_eq (hpeak.trans_le (peak_le_foldl_moved s _)) hbelow hfirst
  exact hne ((hsame a ha hak).symm.trans (hsame b hb hbk))

/-- **When the order of ties makes no difference to the declines.** -/
theorem tiesSafe_iff (hle : s.1 ≤ s.2) (hpeak : 0 < s.2) (hrows : Ascending key rows) :
    TiesSafe key f s rows ↔ ∀ rows' : List ι, Ascending key rows' → rows'.Perm rows →
      declines s (rows'.map f) = declines s (rows.map f) :=
  ⟨fun hsafe _ hrows' hperm => (declines_eq_of_tiesSafe hle hrows hrows' hperm hsafe).1,
    tiesSafe_of_declines_eq hpeak hrows⟩

end Ties

end Ordered

end TradeMind.Library
