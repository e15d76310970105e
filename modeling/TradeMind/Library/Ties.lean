import Mathlib.Data.Prod.Lex
import TradeMind.Library.Rows

/-!
# A scan over rows with ties

A scan takes the rows of a descending list while they are good.  Above the newest row that
stops it, at the key `t`, it takes everything; of the rows tied with that one it takes what
comes before the first that is not good (`takeWhile_of_descending`).  So the order of the tie
decides, and `tieOrder` gives both extremes.
-/

set_option autoImplicit false

namespace TradeMind.Library

universe u

variable {α : Type u} {κ : Type} [LinearOrder κ] {key : α → κ} {good : α → Bool}
  {rows : List α} {t : κ}

/-- No row's key exceeds the key of a row before it. -/
def Descending (key : α → κ) (rows : List α) : Prop :=
  rows.Pairwise fun x y => key y ≤ key x

/-- **A scan of a descending list** takes all rows above its first stop, and a part of the
tie. -/
theorem takeWhile_of_descending (hsorted : Descending key rows)
    (hbound : ∀ x ∈ rows, good x = false → key x ≤ t)
    (hstop : ∃ x ∈ rows, key x = t ∧ good x = false) :
    rows.takeWhile good =
      rows.filter (fun x => t < key x) ++ (rows.filter fun x => key x = t).takeWhile good := by
  induction rows with
  | nil => rfl
  | cons x rest ih =>
    obtain ⟨hfirst, hrest⟩ := List.pairwise_cons.mp hsorted
    have hboundRest : ∀ y ∈ rest, good y = false → key y ≤ t := fun y hy =>
      hbound y (List.mem_cons_of_mem x hy)
    -- a row that does not stop the scan leaves the stop among the later ones
    have hlater : good x = true → ∃ y ∈ rest, key y = t ∧ good y = false := by
      intro hgood
      obtain ⟨y, hy, hkey, hbad⟩ := hstop
      rcases List.mem_cons.mp hy with rfl | hy
      · rw [hgood] at hbad
        cases hbad
      · exact ⟨y, hy, hkey, hbad⟩
    rcases lt_trichotomy t (key x) with habove | htie | hbelow
    · have hgood : good x = true := by
        by_contra hbad
        exact absurd (hbound x List.mem_cons_self (Bool.eq_false_iff.mpr hbad))
          (not_le.mpr habove)
      have hscan := ih hrest hboundRest (hlater hgood)
      simp [hgood, habove, habove.ne', hscan]
    · subst htie
      have hnone : (rest.filter fun y => key x < key y) = [] :=
        List.filter_eq_nil_iff.mpr fun y hy => by simpa using hfirst y hy
      cases hgood : good x with
      | false => simp [hgood, hnone]
      | true =>
        have hscan := ih hrest hboundRest (hlater hgood)
        rw [hnone, List.nil_append] at hscan
        simp [hgood, hnone, hscan]
    · obtain ⟨y, hy, hkey, -⟩ := hstop
      rcases List.mem_cons.mp hy with rfl | hy
      · exact absurd hkey hbelow.ne
      · exact absurd (hkey ▸ hfirst y hy) (not_le.mpr hbelow)

theorem map_takeWhile_of_descending (hsorted : Descending key rows)
    (hbound : ∀ x ∈ rows, good x = false → key x ≤ t)
    (hstop : ∃ x ∈ rows, key x = t ∧ good x = false) :
    (rows.takeWhile good).map key = (rows.map key).filter (fun k => t < k) ++
      List.replicate ((rows.filter fun x => key x = t).takeWhile good).length t := by
  have htie : ((rows.filter fun x => key x = t).takeWhile good).map key =
      List.replicate ((rows.filter fun x => key x = t).takeWhile good).length t := by
    refine List.eq_replicate_iff.mpr ⟨List.length_map _, ?_⟩
    intro k hk
    obtain ⟨x, hx, rfl⟩ := List.mem_map.mp hk
    have hmem := (List.takeWhile_sublist _).subset hx
    simpa using (List.mem_filter.mp hmem).2
  rw [takeWhile_of_descending hsorted hbound hstop, List.map_append, htie, List.filter_map]
  rfl

/-! ## The two extreme orders -/

/-- The rows in descending order, in a tie those that pass `first` before the others. -/
def tieOrder (key : α → κ) (first : α → Bool) (rows : List α) : List α :=
  (Arrangement.stored α).sortedDesc (fun x => toLex (key x, first x)) rows

/-- Ordering the rows neither adds nor drops any. -/
theorem tieOrder_perm (first : α → Bool) : (tieOrder key first rows).Perm rows :=
  (Arrangement.stored α).sortedDesc_perm _ rows

theorem tieOrder_descending (first : α → Bool) : Descending key (tieOrder key first rows) := by
  refine ((Arrangement.stored α).sortedDesc_pairwise _ rows).imp fun {x y} h => ?_
  rcases Prod.Lex.le_iff.mp h with hlt | ⟨heq, -⟩
  · exact hlt.le
  · exact heq.le

/-- In a tie the rows that pass come before the others. -/
theorem tieOrder_tie (first : α → Bool) :
    ((tieOrder key first rows).filter fun x => key x = t).Pairwise fun x y =>
      first y = true → first x = true := by
  have hpairs := (Arrangement.stored α).sortedDesc_pairwise
    (fun x => toLex (key x, first x)) rows
  rw [List.pairwise_filter]
  refine hpairs.imp fun {x y} h hx hy => ?_
  rcases Prod.Lex.le_iff.mp h with hlt | ⟨-, hle⟩
  · have hxt : key x = t := of_decide_eq_true hx
    have hyt : key y = t := of_decide_eq_true hy
    exact absurd hlt (by simp [hxt, hyt])
  · exact hle

/-- With the good rows first, the scan takes all good rows of the tie. -/
theorem takeWhile_goodFirst :
    ((tieOrder key good rows).filter fun x => key x = t).takeWhile good =
      ((tieOrder key good rows).filter fun x => key x = t).filter good := by
  have htie : ((tieOrder key good rows).filter fun x => key x = t).Pairwise fun x y =>
      good y = true → good x = true := tieOrder_tie good
  generalize ((tieOrder key good rows).filter fun x => key x = t) = tie at htie ⊢
  induction tie with
  | nil => rfl
  | cons x rest ih =>
    obtain ⟨hfirst, hrest⟩ := List.pairwise_cons.mp htie
    cases hgood : good x with
    | true => simp [hgood, ih hrest]
    | false =>
      have hnone : rest.filter good = [] :=
        List.filter_eq_nil_iff.mpr fun y hy h => by simp [hfirst y hy h] at hgood
      simp [hgood, hnone]

/-- With the good rows last, the scan takes no row of a tie that stops it. -/
theorem takeWhile_goodLast (hstop : ∃ x ∈ rows, key x = t ∧ good x = false) :
    ((tieOrder key (fun x => !good x) rows).filter fun x => key x = t).takeWhile good = [] := by
  have htie : ((tieOrder key (fun x => !good x) rows).filter fun x => key x = t).Pairwise
      fun x y => (!good y) = true → (!good x) = true := tieOrder_tie _
  obtain ⟨y, hy, hkey, hbad⟩ := hstop
  have hmem : y ∈ (tieOrder key (fun x => !good x) rows).filter fun x => key x = t :=
    List.mem_filter.mpr ⟨(tieOrder_perm _).mem_iff.mpr hy, by simpa using hkey⟩
  cases hlist : (tieOrder key (fun x => !good x) rows).filter fun x => key x = t with
  | nil => rfl
  | cons x rest =>
    rw [hlist] at hmem htie
    have hx : good x = false := by
      rcases List.mem_cons.mp hmem with rfl | hlater
      · exact hbad
      · simpa [hbad] using (List.pairwise_cons.mp htie).1 y hlater
    simp [hx]

end TradeMind.Library
