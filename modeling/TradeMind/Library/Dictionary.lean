import Mathlib.Algebra.BigOperators.Group.List.Basic
import Mathlib.Algebra.Order.Monoid.Defs
import Mathlib.Data.Finset.Dedup
import Mathlib.Data.Finset.Insert
import Mathlib.Data.Finset.Erase
import Mathlib.Data.List.AList

/-!
# Sums and keys of a dictionary

A dictionary is an association list without repeated keys (`AList`).  Its values add up
whatever the order of the entries, so inserting a fresh key and erasing a present one move
the total by that value alone (`total_insert`, `total_erase`); `keySet` is its keys as a
finite set.  `groupBy` groups a list by a key.
-/

set_option autoImplicit false

namespace TradeMind.Library

universe u v w

/-- A dictionary with keys in `κ` and values in `α`. -/
abbrev Dict (κ : Type u) (α : Type v) := AList fun _ : κ => α

namespace Dict

variable {κ : Type u} {α : Type v} [DecidableEq κ] {M : Type w} [AddCommMonoid M]

/-- The values, in the order of the entries. -/
def values (d : Dict κ α) : List α := d.entries.map Sigma.snd

/-- The sum of `f` over the values. -/
def total (f : α → M) (d : Dict κ α) : M := (d.values.map f).sum

/-- The keys as a finite set. -/
def keySet (d : Dict κ α) : Finset κ := d.keys.toFinset

/-- A value of the dictionary is the value of some key. -/
theorem mem_values {d : Dict κ α} {a : α} : a ∈ d.values ↔ ∃ k, d.lookup k = some a := by
  simp only [values, List.mem_map, Sigma.exists, exists_eq_right]
  exact exists_congr fun k => AList.mem_lookup_iff.symm

@[simp] theorem mem_keySet {d : Dict κ α} {k : κ} : k ∈ d.keySet ↔ k ∈ d := by
  rw [keySet, List.mem_toFinset, AList.mem_keys]

omit [DecidableEq κ] in
/-- The empty dictionary sums to zero. -/
@[simp] theorem total_empty (f : α → M) : total f (∅ : Dict κ α) = 0 := rfl

@[simp] theorem keySet_empty : keySet (∅ : Dict κ α) = ∅ := rfl

/-- What an erasure leaves was there, under another key. -/
theorem lookup_of_erase {d : Dict κ α} {k j : κ} {a : α}
    (h : (d.erase k).lookup j = some a) : j ≠ k ∧ d.lookup j = some a := by
  have hne : j ≠ k := by
    rintro rfl
    rw [AList.lookup_erase] at h
    cases h
  exact ⟨hne, by rwa [AList.lookup_erase_ne hne] at h⟩

/-- What is there after an insertion was inserted or was there. -/
theorem lookup_of_insert {d : Dict κ α} {k j : κ} {a b : α}
    (h : (d.insert k a).lookup j = some b) : j = k ∧ b = a ∨ d.lookup j = some b := by
  by_cases hj : j = k
  · subst hj
    rw [AList.lookup_insert] at h
    exact .inl ⟨rfl, (Option.some.inj h).symm⟩
  · rw [AList.lookup_insert_ne hj] at h
    exact .inr h

theorem mem_values_of_erase {d : Dict κ α} {k : κ} {a : α} (h : a ∈ values (d.erase k)) :
    a ∈ d.values := by
  obtain ⟨j, hj⟩ := mem_values.mp h
  exact mem_values.mpr ⟨j, (lookup_of_erase hj).2⟩

/-- The values after an insertion are the inserted one and values that were there. -/
theorem mem_values_of_insert {d : Dict κ α} {k : κ} {a b : α}
    (h : b ∈ values (d.insert k a)) : b = a ∨ b ∈ d.values := by
  obtain ⟨j, hj⟩ := mem_values.mp h
  rcases lookup_of_insert hj with ⟨-, rfl⟩ | hold
  · exact .inl rfl
  · exact .inr (mem_values.mpr ⟨j, hold⟩)

/-- **A fresh key adds its value.** -/
theorem total_insert (f : α → M) {d : Dict κ α} {k : κ} (a : α) (h : k ∉ d) :
    total f (d.insert k a) = f a + total f d := by
  rw [total, values, AList.entries_insert_of_notMem h]
  rfl

omit [DecidableEq κ] in
/-- The total of a sum is the sum of the totals. -/
theorem total_add (f g : α → M) (d : Dict κ α) :
    total (fun a => f a + g a) d = total f d + total g d :=
  List.sum_map_add

/-- The entries of a dictionary that has `k` are `k`'s entry and the rest. -/
theorem entries_perm_erase {d : Dict κ α} {k : κ} {a : α} (h : d.lookup k = some a) :
    d.entries.Perm (⟨k, a⟩ :: (d.erase k).entries) := by
  have hfresh : k ∉ d.erase k := fun hk => (AList.mem_erase.mp hk).1 rfl
  have hsame : ∀ j, d.lookup j = ((d.erase k).insert k a).lookup j := by
    intro j
    by_cases hj : j = k
    · rw [hj, h, AList.lookup_insert]
    · rw [AList.lookup_insert_ne hj, AList.lookup_erase_ne hj]
  rw [← AList.entries_insert_of_notMem hfresh]
  exact List.lookup_ext d.nodupKeys (AList.nodupKeys _) fun j b => by
    show b ∈ d.lookup j ↔ b ∈ ((d.erase k).insert k a).lookup j
    rw [hsame]

/-- **An erased key takes its value away.** -/
theorem total_erase (f : α → M) {d : Dict κ α} {k : κ} {a : α} (h : d.lookup k = some a) :
    total f d = f a + total f (d.erase k) := by
  have hperm := ((entries_perm_erase h).map Sigma.snd).map f
  simpa [total, values] using hperm.sum_eq

/-- An insertion adds its value to what the key leaves. -/
theorem total_insert_erase (f : α → M) (d : Dict κ α) (k : κ) (a : α) :
    total f (d.insert k a) = f a + total f (d.erase k) := by
  rw [total, values, AList.entries_insert]
  rfl

theorem keySet_insert (d : Dict κ α) (k : κ) (a : α) :
    keySet (d.insert k a) = insert k d.keySet := by
  ext j
  rw [mem_keySet, AList.mem_insert, Finset.mem_insert, mem_keySet]

theorem keySet_erase (d : Dict κ α) (k : κ) : keySet (d.erase k) = d.keySet.erase k := by
  ext j
  rw [mem_keySet, AList.mem_erase, Finset.mem_erase, mem_keySet]

theorem keySet_replace (d : Dict κ α) (k : κ) (a : α) : keySet (d.replace k a) = d.keySet := by
  rw [keySet, AList.keys_replace]
  rfl

theorem lookup_replace {d : Dict κ α} {k : κ} {a b : α} (h : d.lookup k = some a) :
    (d.replace k b).lookup k = some b := by
  obtain ⟨entries, hnodup⟩ := d
  change List.dlookup k entries = some a at h
  change List.dlookup k (List.kreplace k b entries) = some b
  clear hnodup
  induction entries with
  | nil => cases h
  | cons entry rest ih =>
    obtain ⟨j, c⟩ := entry
    by_cases hj : k = j
    · subst hj
      simp [List.kreplace]
    · rw [List.dlookup_cons_ne _ _ hj] at h
      have hrest := ih h
      simp only [List.kreplace] at hrest ⊢
      simp [hj, hrest]

/-- A replacement is not found under another key. -/
theorem lookup_replace_ne {d : Dict κ α} {k j : κ} (b : α) (h : j ≠ k) :
    (d.replace k b).lookup j = d.lookup j := by
  obtain ⟨entries, hnodup⟩ := d
  change List.dlookup j (List.kreplace k b entries) = List.dlookup j entries
  clear hnodup
  induction entries with
  | nil => rfl
  | cons entry rest ih =>
    obtain ⟨i, c⟩ := entry
    by_cases hi : k = i
    · subst hi
      simp [List.kreplace, h]
    · by_cases hj : j = i
      · subst hj
        simp [List.kreplace, hi]
      · rw [List.dlookup_cons_ne _ _ hj, ← ih]
        simp [List.kreplace, hi, hj]

/-- A replacement by a value with the same image keeps the image. -/
theorem map_values_replace {β : Type w} (f : α → β) {d : Dict κ α} {k : κ} {a b : α}
    (h : d.lookup k = some a) (hf : f b = f a) :
    (values (d.replace k b)).map f = d.values.map f := by
  obtain ⟨entries, hnodup⟩ := d
  change List.dlookup k entries = some a at h
  change ((List.kreplace k b entries).map Sigma.snd).map f = (entries.map Sigma.snd).map f
  clear hnodup
  induction entries with
  | nil => rfl
  | cons entry rest ih =>
    obtain ⟨j, c⟩ := entry
    by_cases hj : k = j
    · subst hj
      rw [List.dlookup_cons_eq] at h
      cases Option.some.inj h
      simp [List.kreplace, hf]
    · rw [List.dlookup_cons_ne _ _ hj] at h
      have hrest := ih h
      simp only [List.kreplace, List.map_map] at hrest ⊢
      simp [hj, hrest]

/-- Erasing from values that are not negative does not raise the total. -/
theorem total_erase_le {N : Type w} [AddCommMonoid N] [PartialOrder N] [IsOrderedAddMonoid N]
    {f : α → N} {d : Dict κ α} (h : ∀ a ∈ d.values, 0 ≤ f a) (k : κ) :
    total f (d.erase k) ≤ total f d := by
  cases hk : d.lookup k with
  | none =>
    have hsame : d.erase k = d := by
      refine AList.ext (List.kerase_of_notMem_keys ?_)
      exact AList.lookup_eq_none.mp hk
    rw [hsame]
  | some a =>
    rw [total_erase f hk]
    exact le_add_of_nonneg_left (h a (mem_values.mpr ⟨k, hk⟩))

/-! ## Several entries -/

/-- The entries of a list are inserted one after the other. -/
def insertAll (d : Dict κ α) (entries : List (κ × α)) : Dict κ α :=
  entries.foldl (fun d entry => d.insert entry.1 entry.2) d

/-- A key that no entry has keeps its value. -/
theorem lookup_insertAll_of_ne {d : Dict κ α} {entries : List (κ × α)} {k : κ}
    (h : ∀ entry ∈ entries, entry.1 ≠ k) : (insertAll d entries).lookup k = d.lookup k := by
  induction entries generalizing d with
  | nil => rfl
  | cons entry rest ih =>
    obtain ⟨hne, hrest⟩ := List.forall_mem_cons.mp h
    exact (ih hrest).trans (AList.lookup_insert_ne hne.symm)

theorem lookup_insertAll_of_mem {d : Dict κ α} {entries : List (κ × α)} {entry : κ × α}
    (hnodup : (entries.map Prod.fst).Nodup) (h : entry ∈ entries) :
    (insertAll d entries).lookup entry.1 = some entry.2 := by
  induction entries generalizing d with
  | nil => cases h
  | cons first rest ih =>
    rw [List.map_cons, List.nodup_cons] at hnodup
    rcases List.mem_cons.mp h with rfl | h
    · have hout : ∀ other ∈ rest, other.1 ≠ entry.1 := fun other hother heq =>
        hnodup.1 (heq ▸ List.mem_map_of_mem hother)
      exact (lookup_insertAll_of_ne hout).trans (AList.lookup_insert d)
    · exact ih hnodup.2 h

/-! ## Groups -/

/-- The elements of a list grouped by a key, each group in the order of the list. -/
def groupBy (key : α → κ) (l : List α) : Dict κ (List α) :=
  l.foldl (fun groups a => groups.insert (key a) ((groups.lookup (key a)).getD [] ++ [a])) ∅

/-- **A group holds the elements with its key**; a key that no element has is absent. -/
theorem lookup_groupBy (key : α → κ) (l : List α) (k : κ) :
    (groupBy key l).lookup k =
      if (l.filter fun a => key a = k) = [] then none else some (l.filter fun a => key a = k) := by
  induction l using List.reverseRecOn with
  | nil => simp [groupBy]
  | append_singleton l a ih =>
    have hlast : groupBy key (l ++ [a]) = (groupBy key l).insert (key a)
        (((groupBy key l).lookup (key a)).getD [] ++ [a]) := by
      simp [groupBy, List.foldl_append]
    rw [hlast, List.filter_append]
    by_cases hk : key a = k
    · subst hk
      rw [AList.lookup_insert, ih]
      split
      · rename_i hempty
        simp [hempty]
      · simp
    · rw [AList.lookup_insert_ne (Ne.symm hk), ih]
      simp [hk]

end Dict

end TradeMind.Library
