import Mathlib.Data.List.Sort

/-!
# Rows of a table

What a relational table gives a program that reads it: the rows of an unordered query
come in an order the database chooses (`Arrangement`), `first` takes one of them, and an
ordered query breaks ties by that same choice (`firstDesc`).  `modifyRow` is an UPDATE
of the rows with one key.
-/

set_option autoImplicit false

namespace TradeMind.Library

universe u

/-- A choice of the order in which the rows of a query come back.  It may be any
permutation of the rows selected, a different one for every set of rows. -/
structure Arrangement (α : Type u) where
  arrange : List α → List α
  perm : ∀ rows, (arrange rows).Perm rows

namespace Arrangement

variable {α : Type u}

/-- The rows in the order the table holds them. -/
def stored (α : Type u) : Arrangement α where
  arrange := id
  perm := fun rows => List.Perm.refl rows

/-- The first row of an unordered query. -/
def first (a : Arrangement α) (rows : List α) : Option α :=
  (a.arrange rows).head?

/-- The rows of a query ordered by a descending key; equal keys come in the order the
database chooses. -/
def sortedDesc {κ : Type} [LinearOrder κ] (a : Arrangement α) (key : α → κ)
    (rows : List α) : List α :=
  List.insertionSort (fun x y => key y ≤ key x) (a.arrange rows)

/-- The rows of a query ordered by an ascending key. -/
def sortedAsc {κ : Type} [LinearOrder κ] (a : Arrangement α) (key : α → κ)
    (rows : List α) : List α :=
  List.insertionSort (fun x y => key x ≤ key y) (a.arrange rows)

/-- The first row of a query ordered by a descending key. -/
def firstDesc {κ : Type} [LinearOrder κ] (a : Arrangement α) (key : α → κ)
    (rows : List α) : Option α :=
  (a.sortedDesc key rows).head?

theorem mem_arrange (a : Arrangement α) {rows : List α} {r : α} :
    r ∈ a.arrange rows ↔ r ∈ rows :=
  (a.perm rows).mem_iff

/-- The first row is one of the rows. -/
theorem first_mem (a : Arrangement α) {rows : List α} {r : α} (h : a.first rows = some r) :
    r ∈ rows :=
  a.mem_arrange.mp (List.mem_of_mem_head? h)

/-- There is a first row unless there is no row. -/
theorem first_eq_none (a : Arrangement α) {rows : List α} :
    a.first rows = none ↔ rows = [] := by
  unfold first
  rw [List.head?_eq_none_iff]
  constructor
  · intro h
    exact (h ▸ a.perm rows).symm.eq_nil
  · intro h
    subst h
    exact (a.perm []).eq_nil

/-- An ordered query neither adds nor drops rows. -/
theorem sortedDesc_perm {κ : Type} [LinearOrder κ] (a : Arrangement α) (key : α → κ)
    (rows : List α) : (a.sortedDesc key rows).Perm rows :=
  (List.perm_insertionSort _ _).trans (a.perm rows)

/-- A query in ascending order neither adds nor drops rows. -/
theorem mem_sortedAsc {κ : Type} [LinearOrder κ] (a : Arrangement α) {key : α → κ}
    {rows : List α} {r : α} : r ∈ a.sortedAsc key rows ↔ r ∈ rows :=
  (List.perm_insertionSort _ _).mem_iff.trans a.mem_arrange

/-- The first row of an ordered query is one of the rows. -/
theorem firstDesc_mem {κ : Type} [LinearOrder κ] (a : Arrangement α) {key : α → κ}
    {rows : List α} {r : α} (h : a.firstDesc key rows = some r) : r ∈ rows :=
  (a.sortedDesc_perm key rows).mem_iff.mp (List.mem_of_mem_head? h)

/-- An ordered query has a first row unless there is no row. -/
theorem firstDesc_eq_none {κ : Type} [LinearOrder κ] (a : Arrangement α) {key : α → κ}
    {rows : List α} : a.firstDesc key rows = none ↔ rows = [] := by
  have hperm := a.sortedDesc_perm key rows
  unfold firstDesc
  rw [List.head?_eq_none_iff]
  constructor
  · intro h
    exact (h ▸ hperm).symm.eq_nil
  · intro h
    subst h
    exact hperm.eq_nil

/-- No row of an ordered query has a larger key than one before it. -/
theorem sortedDesc_pairwise {κ : Type} [LinearOrder κ] (a : Arrangement α) (key : α → κ)
    (rows : List α) : (a.sortedDesc key rows).Pairwise fun x y => key y ≤ key x := by
  have : Std.Total (fun x y : α => key y ≤ key x) := ⟨fun x y => le_total (key y) (key x)⟩
  have : IsTrans α (fun x y : α => key y ≤ key x) := ⟨fun x y z hxy hyz => hyz.trans hxy⟩
  exact List.pairwise_insertionSort (fun x y : α => key y ≤ key x) (a.arrange rows)

/-- No row has a larger key than the first row of a query ordered by it. -/
theorem le_firstDesc {κ : Type} [LinearOrder κ] (a : Arrangement α) {key : α → κ}
    {rows : List α} {r x : α} (h : a.firstDesc key rows = some r) (hx : x ∈ rows) :
    key x ≤ key r := by
  have hsorted := a.sortedDesc_pairwise key rows
  have hmem : x ∈ a.sortedDesc key rows := (a.sortedDesc_perm key rows).mem_iff.mpr hx
  unfold firstDesc at h
  cases hl : a.sortedDesc key rows with
  | nil => simp [hl] at h
  | cons y rest =>
    rw [hl] at h hsorted hmem
    have hy : y = r := by simpa using h
    subst hy
    rcases List.mem_cons.mp hmem with hx' | hx'
    · exact hx' ▸ le_rfl
    · exact (List.pairwise_cons.mp hsorted).1 x hx'

end Arrangement

/-! ## Updates of the rows with one key -/

variable {α κ : Type} [DecidableEq κ]

/-- Rewrite the rows whose key is `k`. -/
def modifyRow (key : α → κ) (k : κ) (f : α → α) (rows : List α) : List α :=
  rows.map fun r => if key r = k then f r else r

/-- The rows after an update are the untouched ones and the rewritten ones. -/
theorem mem_modifyRow {key : α → κ} {k : κ} {f : α → α} {rows : List α} {r : α} :
    r ∈ modifyRow key k f rows ↔
      (r ∈ rows ∧ key r ≠ k) ∨ ∃ x ∈ rows, key x = k ∧ f x = r := by
  unfold modifyRow
  rw [List.mem_map]
  constructor
  · rintro ⟨x, hx, rfl⟩
    by_cases hk : key x = k
    · exact Or.inr ⟨x, hx, hk, by simp [hk]⟩
    · exact Or.inl ⟨by simpa [hk] using hx, by simp [hk]⟩
  · rintro (⟨hr, hk⟩ | ⟨x, hx, hk, rfl⟩)
    · exact ⟨r, hr, by simp [hk]⟩
    · exact ⟨x, hx, by simp [hk]⟩

/-- A column the update does not write reads the same afterwards. -/
theorem map_modifyRow {β : Type} {key : α → κ} {k : κ} {f : α → α} {rows : List α}
    (g : α → β) (h : ∀ r ∈ rows, key r = k → g (f r) = g r) :
    (modifyRow key k f rows).map g = rows.map g := by
  unfold modifyRow
  rw [List.map_map]
  apply List.map_congr_left
  intro r hr
  by_cases hk : key r = k
  · simp [hk, h r hr hk]
  · simp [hk]

/-- A query reads the same after an update that keeps its filter and its column. -/
theorem map_filter_modifyRow {β : Type} {key : α → κ} {k : κ} {f : α → α} {rows : List α}
    (q : α → Bool) (g : α → β) (hq : ∀ r, q (f r) = q r) (hg : ∀ r, g (f r) = g r) :
    ((modifyRow key k f rows).filter q).map g = (rows.filter q).map g := by
  induction rows with
  | nil => rfl
  | cons r rest ih =>
    have hhead : ∀ x, q (if key r = k then f r else r) = x ↔ q r = x := by
      intro x
      by_cases hk : key r = k
      · rw [if_pos hk, hq]
      · rw [if_neg hk]
    have hcolumn : g (if key r = k then f r else r) = g r := by
      by_cases hk : key r = k
      · rw [if_pos hk, hg]
      · rw [if_neg hk]
    unfold modifyRow at ih ⊢
    cases hr : q r with
    | true =>
      rw [List.map_cons, List.filter_cons_of_pos ((hhead true).mpr hr),
        List.filter_cons_of_pos hr, List.map_cons, List.map_cons, ih, hcolumn]
    | false =>
      rw [List.map_cons,
        List.filter_cons_of_neg (ne_true_of_eq_false ((hhead false).mpr hr)),
        List.filter_cons_of_neg (ne_true_of_eq_false hr), ih]

/-! ## Unique keys -/

/-- A row under a key beyond all keys handed out keeps the keys unique. -/
theorem nodup_append_fresh {key : α → ℕ} {rows : List α} {r : α} {next : ℕ}
    (h : (rows.map key).Nodup) (hlt : ∀ x ∈ rows, key x < next) (hle : next ≤ key r) :
    ((rows ++ [r]).map key).Nodup := by
  rw [List.map_append, List.map_singleton, List.nodup_append]
  refine ⟨h, List.nodup_singleton _, ?_⟩
  intro k hk k' hk' heq
  obtain ⟨x, hx, rfl⟩ := List.mem_map.mp hk
  rw [List.mem_singleton] at hk'
  have hbelow := hlt x hx
  omega

/-- Under unique keys a row is found by its key. -/
theorem find_key_of_mem {key : α → κ} {rows : List α} {r : α} (h : (rows.map key).Nodup)
    (hr : r ∈ rows) : (rows.find? fun x => key x = key r) = some r := by
  cases hfind : rows.find? fun x => key x = key r with
  | none =>
    have := List.find?_eq_none.mp hfind r hr
    simp at this
  | some x =>
    have hkey : key x = key r := by simpa using List.find?_some hfind
    rw [List.inj_on_of_nodup_map h (List.mem_of_find?_eq_some hfind) hr hkey]

end TradeMind.Library
