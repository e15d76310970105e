import Mathlib.Data.List.Sort

/-!
# Walking a keyed log in batches

A reader of a table keeps a cursor, selects the next rows above it in the order of their
keys (`batch`), and moves the cursor over them one by one.  `Walk` is what holds while it
does: of the rows visible when the batch was selected, those the cursor has passed are
done.  It says nothing about rows that become visible later.
-/

set_option autoImplicit false

namespace TradeMind.Library

universe u v

variable {α : Type u} {κ : Type v} [LinearOrder κ]

/-- The first `n` rows above the cursor, in the order of their keys. -/
def batch (key : α → κ) (cursor : κ) (n : ℕ) (rows : List α) : List α :=
  (List.insertionSort (fun x y => key x ≤ key y) (rows.filter fun r => cursor < key r)).take n

variable {key : α → κ} {start cursor : κ} {n : ℕ} {rows rest : List α}

theorem mem_of_mem_batch {r : α} (h : r ∈ batch key cursor n rows) :
    r ∈ rows ∧ cursor < key r := by
  have hmem := (List.perm_insertionSort _ _).mem_iff.mp (List.mem_of_mem_take h)
  simpa using List.mem_filter.mp hmem

theorem sorted_above :
    (List.insertionSort (fun x y => key x ≤ key y)
      (rows.filter fun r => cursor < key r)).Pairwise fun x y => key x ≤ key y := by
  have : Std.Total (fun x y : α => key x ≤ key y) := ⟨fun x y => le_total (key x) (key y)⟩
  have : IsTrans α (fun x y : α => key x ≤ key y) := ⟨fun x y z hxy hyz => hxy.trans hyz⟩
  exact List.pairwise_insertionSort _ _

theorem batch_sorted : (batch key cursor n rows).Pairwise fun x y => key x ≤ key y :=
  sorted_above.sublist (List.take_sublist _ _)

/-- **A batch is a prefix.**  A row above the cursor is in the batch or at least as high as
every row of it. -/
theorem mem_batch_or_le {e : α} (he : e ∈ rows) (hlt : cursor < key e) :
    e ∈ batch key cursor n rows ∨ ∀ r ∈ batch key cursor n rows, key r ≤ key e := by
  have hmem : e ∈ List.insertionSort (fun x y => key x ≤ key y)
      (rows.filter fun r => cursor < key r) :=
    (List.perm_insertionSort _ _).mem_iff.mpr (List.mem_filter.mpr ⟨he, by simpa using hlt⟩)
  have hsorted := @sorted_above α κ _ key cursor rows
  unfold batch
  rw [← List.take_append_drop n (List.insertionSort (fun x y => key x ≤ key y)
    (rows.filter fun r => cursor < key r))] at hmem hsorted
  rcases List.mem_append.mp hmem with htake | hdrop
  · exact Or.inl htake
  · exact Or.inr fun r hr => (List.pairwise_append.mp hsorted).2.2 r hr e hdrop

/-- A walk over the visible rows that began at `start`, has come to `cursor` and has `rest`
in hand. -/
structure Walk (key : α → κ) (rows : List α) (start : κ) (done : α → Prop) (cursor : κ)
    (rest : List α) : Prop where
  passed : ∀ e ∈ rows, start < key e → key e ≤ cursor → done e
  sorted : rest.Pairwise fun x y => key x ≤ key y
  ahead : ∀ r ∈ rest, cursor ≤ key r
  next : ∀ e ∈ rows, cursor < key e → e ∈ rest ∨ ∀ r ∈ rest, key r ≤ key e

namespace Walk

variable {done : α → Prop}

/-- A walk begins with a batch in hand. -/
theorem select (key : α → κ) (rows : List α) (start : κ) (done : α → Prop) (n : ℕ) :
    Walk key rows start done start (batch key start n rows) where
  passed := fun _ _ hlt hle => absurd hlt (not_lt.mpr hle)
  sorted := batch_sorted
  ahead := fun _ hr => le_of_lt (mem_of_mem_batch hr).2
  next := fun _ he hlt => mem_batch_or_le he hlt

/-- The cursor moves over the next row once that is done. -/
theorem advance {r : α} (h : Walk key rows start done cursor (r :: rest))
    (hdone : ∀ e ∈ rows, key e = key r → done e) : Walk key rows start done (key r) rest := by
  have hsorted := List.pairwise_cons.mp h.sorted
  -- nothing lies between the cursor and the next row
  have hnext : ∀ e ∈ rows, cursor < key e → key r ≤ key e := by
    intro e he hlt
    rcases h.next e he hlt with hmem | hle
    · rcases List.mem_cons.mp hmem with rfl | hmem
      · exact le_refl _
      · exact hsorted.1 e hmem
    · exact hle r List.mem_cons_self
  refine ⟨?_, hsorted.2, hsorted.1, ?_⟩
  · intro e he hlt hle
    by_cases hpassed : key e ≤ cursor
    · exact h.passed e he hlt hpassed
    · exact hdone e he (le_antisymm hle (hnext e he (not_le.mp hpassed)))
  · intro e he hlt
    rcases h.next e he (lt_of_le_of_lt (h.ahead r List.mem_cons_self) hlt) with hmem | hle
    · rcases List.mem_cons.mp hmem with rfl | hmem
      · exact absurd hlt (lt_irrefl _)
      · exact Or.inl hmem
    · exact Or.inr fun x hx => hle x (List.mem_cons_of_mem _ hx)

/-- The walk ends early: what is left is put down. -/
theorem stop (h : Walk key rows start done cursor rest) : Walk key rows start done cursor [] where
  passed := h.passed
  sorted := List.Pairwise.nil
  ahead := fun _ hr => absurd hr List.not_mem_nil
  next := fun _ _ _ => Or.inr fun _ hr => absurd hr List.not_mem_nil

theorem mono {done' : α → Prop} (h : Walk key rows start done cursor rest)
    (himp : ∀ e, done e → done' e) : Walk key rows start done' cursor rest :=
  ⟨fun e he hlt hle => himp e (h.passed e he hlt hle), h.sorted, h.ahead, h.next⟩

end Walk

end TradeMind.Library
