import Mathlib.Data.List.Basic
import Mathlib.Data.List.Nodup

/-!
# Consumer groups over an append-only stream

A stream is a list of entries, an entry's id its position in it.  A group remembers how
far it has delivered the stream and which delivered entries are pending.  `readNew` is a
read for entries never delivered to the group, `ack` an acknowledgement.  An entry below
the delivery mark is never returned by `readNew` again (`le_of_mem_readNew`), whether it
was acknowledged or not.
-/

set_option autoImplicit false

namespace TradeMind.Library

universe u

variable {α : Type u}

/-- The state of a consumer group: the mark up to which entries were delivered, and its pending
entries. -/
structure Group where
  /-- The ids below this mark have been delivered. -/
  delivered : ℕ := 0
  /-- The ids delivered and not acknowledged, each with the consumer it went to. -/
  pending : List (ℕ × ℕ) := []
  deriving DecidableEq, Repr

namespace Group

/-- The entries a read for new ones returns, each with its id. -/
def newEntries (g : Group) (entries : List α) (count : ℕ) : List (α × ℕ) :=
  ((entries.drop g.delivered).take count).zipIdx g.delivered

/-- A read for new entries: up to `count` of them are delivered to the consumer. -/
def readNew (g : Group) (entries : List α) (consumer count : ℕ) : Group × List (α × ℕ) :=
  let messages := g.newEntries entries count
  ({ delivered := g.delivered + messages.length
     pending := g.pending ++ messages.map fun m => (m.2, consumer) }, messages)

/-- The acknowledgement of one entry. -/
def ack (g : Group) (id : ℕ) : Group :=
  { g with pending := g.pending.filter fun p => p.1 ≠ id }

/-- The entry was delivered and has left the pending list. -/
def Acknowledged (g : Group) (id : ℕ) : Prop :=
  id < g.delivered ∧ ∀ p ∈ g.pending, p.1 ≠ id

/-- The marks of the group are in order over a stream of `n` entries. -/
structure WellFormed (g : Group) (n : ℕ) : Prop where
  delivered_le : g.delivered ≤ n
  pending_lt : ∀ p ∈ g.pending, p.1 < g.delivered

variable {g : Group} {entries : List α} {consumer count id n : ℕ}

/-- An acknowledgement takes its id off the pending ids. -/
theorem ack_ids : (g.ack id).pending.map Prod.fst =
    (g.pending.map Prod.fst).filter fun other => other ≠ id := by
  rw [List.filter_map]
  rfl

/-- The ids of new entries follow the delivery mark. -/
theorem newEntries_ids :
    (g.newEntries entries count).map Prod.snd =
      List.range' g.delivered (min count (entries.length - g.delivered)) := by
  rw [newEntries, List.zipIdx_map_snd, List.length_take, List.length_drop]

theorem newEntries_length :
    (g.newEntries entries count).length = min count (entries.length - g.delivered) := by
  rw [newEntries, List.length_zipIdx, List.length_take, List.length_drop]

/-- A read returns exactly the next ids of the stream. -/
theorem mem_newEntries_ids :
    id ∈ (g.newEntries entries count).map Prod.snd ↔
      g.delivered ≤ id ∧ id < entries.length ∧ id < g.delivered + count := by
  rw [newEntries_ids, List.mem_range'_1]
  omega

/-- What is below the mark is not returned again. -/
theorem le_of_mem_readNew (h : id ∈ (g.newEntries entries count).map Prod.snd) :
    g.delivered ≤ id :=
  (mem_newEntries_ids.mp h).1

theorem WellFormed.readNew (h : g.WellFormed entries.length) :
    (g.readNew entries consumer count).1.WellFormed entries.length where
  delivered_le := by
    have := h.delivered_le
    simp only [Group.readNew, newEntries_length]
    omega
  pending_lt := by
    intro p hp
    simp only [Group.readNew, newEntries_length] at hp ⊢
    rcases List.mem_append.mp hp with hp | hp
    · exact Nat.lt_of_lt_of_le (h.pending_lt p hp) (Nat.le_add_right _ _)
    · obtain ⟨m, hm, rfl⟩ := List.mem_map.mp hp
      have hid := mem_newEntries_ids.mp (List.mem_map_of_mem hm)
      dsimp only
      omega

/-- An acknowledgement keeps the marks in order. -/
theorem WellFormed.ack (h : g.WellFormed n) : (g.ack id).WellFormed n where
  delivered_le := h.delivered_le
  pending_lt := fun p hp => h.pending_lt p (List.mem_filter.mp hp).1

/-- The marks stay in order when the stream grows. -/
theorem WellFormed.mono {m : ℕ} (h : g.WellFormed n) (hle : n ≤ m) : g.WellFormed m :=
  ⟨Nat.le_trans h.delivered_le hle, h.pending_lt⟩

end Group

end TradeMind.Library
